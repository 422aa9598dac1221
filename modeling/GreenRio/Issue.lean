import GreenRio.Rcu

set_option autoImplicit false

namespace GreenRio

open Circular Fifo

/-- An operation on a select port: its slot, its fields and the operands driven for it. -/
structure Issued where
  robIndex : RobIndex
  entry : RobEntry
  rs1Data : Word
  rs2Data : Word
  deriving DecidableEq

/-- A register between a select port and a function unit. -/
structure Stage where
  valid : Bool
  issued : Issued

/-- The registers of `rcu` between the reorder buffer and the function units, with the physical
register file. -/
structure Issue where
  robSelected : RobIndex → Bool
  availableTable : PhyReg → Bool
  registers : PhyReg → Word
  alu1 : Stage
  alu2 : Stage
  csr : Stage
  mdQueue : F2if2o 4 Issued
  lsuQueue : F2if2o 4 Issued

/-- The `rcu` with its issue stage. -/
structure Backend where
  rcu : Rcu
  issue : Issue

/-- What a cycle of the back end receives: the inputs of the `rcu` and the ready bits of the two
units behind a queue. -/
structure BackendInput extends RcuInput where
  mdReady : Bool
  lsuReady : Bool

/-- Who asks the arbiter for a port: an entry of the reorder buffer, or one of the two
instructions dispatched in this cycle. -/
inductive Requester where
  | slot (index : RobIndex)
  | first
  | second
  deriving DecidableEq

def RobEntry.blank : RobEntry := ⟨RobOp.blank, 0, 0, 0, 0, 0, false⟩

def Issued.blank : Issued := ⟨0, RobEntry.blank, 0, 0⟩

/-- The completions of a cycle, in the order in which the bypass multiplexers apply them. -/
def RcuInput.completions (input : RcuInput) : List FuDone :=
  [input.alu1.toFuDone, input.alu2.toFuDone, input.md, input.lsu.toFuDone, input.csru]

/-- A completion that writes the given register; `p0` is never written. -/
def FuDone.writes (completion : FuDone) (register : PhyReg) : Bool :=
  completion.done && completion.wrbAddr != 0 && register == completion.wrbAddr

namespace Backend

def reset : Backend where
  rcu := Rcu.reset
  issue :=
    { robSelected := fun _ => false
      availableTable := fun register => register == 0
      registers := fun _ => 0
      alu1 := ⟨false, Issued.blank⟩
      alu2 := ⟨false, Issued.blank⟩
      csr := ⟨false, Issued.blank⟩
      mdQueue := F2if2o.reset Issued.blank
      lsuQueue := F2if2o.reset Issued.blank }

section Operands

variable (backend : Backend) (input : RcuInput)

/-- `real_available`: the table, less the registers given out in this cycle, plus those that
complete in it. -/
def realAvailable (register : PhyReg) : Bool :=
  (backend.issue.availableTable register &&
      !((backend.rcu.entryFirst input).prd == register && backend.rcu.doRobWriteFirst input) &&
      !((backend.rcu.entrySecond input).prd == register && backend.rcu.doRobWriteSecond input)) ||
    input.completions.any fun completion => completion.writes register

/-- The data a select port drives for a register: the file, overridden by the completions of the
cycle. -/
def operand (register : PhyReg) : Word :=
  input.completions.foldl
    (fun data completion => if completion.writes register then completion.wrbData else data)
    (backend.issue.registers register)

end Operands

section Selection

variable (backend : Backend) (input : RcuInput)

def entryOf : Requester → RobEntry
  | .slot index => backend.rcu.rob index
  | .first => backend.rcu.entryFirst input
  | .second => backend.rcu.entrySecond input

def indexOf : Requester → RobIndex
  | .slot index => index
  | .first => backend.rcu.wrRobIndex
  | .second => backend.rcu.wrRobIndexSecond

/-- The part of the ready conditions that stored and new instructions share. -/
def ready (entry : RobEntry) (index : RobIndex) : Bool :=
  backend.realAvailable input entry.prs1 && backend.realAvailable input entry.prs2 &&
    !((entry.isLoad || entry.isStore) && backend.issue.lsuQueue.fifoAlmostFull) &&
    !(entry.isMd && backend.issue.mdQueue.fifoAlmostFull) &&
    ((entry.isCsr && backend.rcu.cmtRobIndex == index) || !entry.isCsr) && !input.globalWfi

/-- `rob_select_ready` and `rob_bypass_select_ready`. -/
def selectReady : Requester → Bool
  | .slot index =>
    let entry := backend.rcu.rob index
    backend.ready input entry index && backend.rcu.robUsed index &&
      !backend.issue.robSelected index && !backend.rcu.robExp index && !entry.mret && !entry.sret
  | .first =>
    backend.ready input (backend.rcu.entryFirst input) backend.rcu.wrRobIndex &&
      backend.rcu.doRobWriteFirst input && !backend.rcu.doRobSelectSkipFirst input
  | .second =>
    backend.ready input (backend.rcu.entrySecond input) backend.rcu.wrRobIndexSecond &&
      backend.rcu.doRobWriteSecond input && !backend.rcu.doRobSelectSkipSecond input

/-- `rob_op_ls` and `new_req_ls_*`: the operations that are granted in order. The stored flag is
not qualified by `rob_used`, and new CSR operations are not counted. -/
def loadStore : Requester → Bool
  | .slot index =>
    let entry := backend.rcu.rob index
    (entry.isStore || entry.isLoad || entry.isCsr) && !backend.issue.robSelected index
  | .first => input.offer.first.isLoad || input.offer.first.isStore
  | .second => input.offer.second.isLoad || input.offer.second.isStore

/-- The requesters of `oldest2_abitter_bps_lss`, oldest first. -/
def requesters : List Requester :=
  (slots backend.rcu.cmtRobIndex 16).map Requester.slot ++ [.first, .second]

/-- Of the load and store requests only the oldest one may be granted. -/
def eligible (requester : Requester) : Bool :=
  backend.selectReady input requester &&
    (!backend.loadStore input requester ||
      backend.requesters.find? (backend.loadStore input) == some requester)

/-- The two oldest eligible requests. -/
def grants : List Requester := (backend.requesters.filter (backend.eligible input)).take 2

/-- An operation with the operands its port drives. -/
def issued (requester : Requester) : Issued :=
  let entry := backend.entryOf input requester
  ⟨backend.indexOf requester, entry, backend.operand input entry.prs1,
    backend.operand input entry.prs2⟩

/-- What leaves on the select ports. The first port prefers stored operations over new ones and
the second the other way round, which is the older grant first and the younger second. -/
def issues : List Issued := (backend.grants input).map (backend.issued input)

def selectFirst : Option Issued := (backend.issues input)[0]?

def selectSecond : Option Issued := (backend.issues input)[1]?

end Selection

section Step

variable (backend : Backend) (input : BackendInput)

/-- A stage loads the operation on its port if it is of its class; a flush only clears the valid
bit. -/
def loadStage (stage : Stage) (port : Option Issued) (accepts : RobEntry → Bool) (fault : Bool) :
    Stage :=
  match port with
  | some issued =>
    if accepts issued.entry then ⟨!fault, issued⟩ else ⟨false, stage.issued⟩
  | none => ⟨false, stage.issued⟩

/-- The ports of a queue between the select ports and a unit; a lone write takes the first
port. -/
def queuePorts (queue : F2if2o 4 Issued) (first second : Option Issued)
    (accepts : RobEntry → Bool) (unitReady : Bool) : Ports Issued :=
  let doFirst := first.any fun issued => accepts issued.entry
  let doSecond := second.any fun issued => accepts issued.entry
  { wrFirstEn := if doFirst ^^ doSecond then !queue.fifoFull else doFirst && !queue.fifoFull
    wrSecondEn := if doFirst ^^ doSecond then false else doFirst && !queue.fifoAlmostFull
    rdFirstEn := unitReady && !queue.fifoEmpty
    rdSecondEn := false
    wdataFirst := if doFirst then first.getD Issued.blank else second.getD Issued.blank
    wdataSecond := second.getD Issued.blank }

/-- One port of the physical register file. -/
def writePort (registers : PhyReg → Word) (enable : Bool) (address : PhyReg) (data : Word) :
    PhyReg → Word :=
  writeIf enable registers address (if address = 0 then 0 else data)

/-- The four write ports: the first arithmetic unit and the CSR unit share one. -/
def registersNext : PhyReg → Word :=
  let alu1 := input.alu1.done
  let ports := writePort backend.issue.registers (alu1 || input.csru.done)
    (if alu1 then input.alu1.wrbAddr else input.csru.wrbAddr)
    (if alu1 then input.alu1.wrbData else input.csru.wrbData)
  let ports := writePort ports input.alu2.done input.alu2.wrbAddr input.alu2.wrbData
  let ports := writePort ports input.lsu.done input.lsu.wrbAddr input.lsu.wrbData
  writePort ports input.md.done input.md.wrbAddr input.md.wrbData

/-- The table after the completions of the cycle, before the registers it gives out. -/
def availableDone : PhyReg → Bool :=
  [input.alu1.toFuDone, input.alu2.toFuDone, input.lsu.toFuDone, input.md, input.csru].foldl
    (fun table completion => writeIf completion.done table completion.wrbAddr true)
    backend.issue.availableTable

def availableNext : PhyReg → Bool :=
  let first := (backend.rcu.entryFirst input.toRcuInput).prd
  let second := (backend.rcu.entrySecond input.toRcuInput).prd
  writeIf (backend.rcu.doRobWriteSecond input.toRcuInput)
    (writeIf (backend.rcu.doRobWriteFirst input.toRcuInput) (backend.availableDone input) first
      (first == 0)) second (second == 0)

def robSelectedNext : RobIndex → Bool :=
  backend.rcu.commitClear input.toRcuInput
    ((backend.issues input.toRcuInput).foldl
      (fun selected issued => Function.update selected issued.robIndex true)
      backend.issue.robSelected)

/-- One clock edge outside reset. -/
def step : Backend :=
  let fault := backend.rcu.globalSpeculateFault input.toRcuInput
  let first := backend.selectFirst input.toRcuInput
  let second := backend.selectSecond input.toRcuInput
  let isMemory := fun entry : RobEntry => entry.isLoad || entry.isStore
  { rcu := backend.rcu.step input.toRcuInput
    issue :=
      { robSelected := if fault then fun _ => false else backend.robSelectedNext input
        availableTable := backend.availableNext input
        registers := backend.registersNext input
        alu1 := loadStage backend.issue.alu1 first (fun entry => entry.isAlu && !entry.isCsr) fault
        alu2 := loadStage backend.issue.alu2 second (fun entry => entry.isAlu) fault
        csr := loadStage backend.issue.csr first (fun entry => entry.isCsr) fault
        mdQueue :=
          if fault then F2if2o.reset Issued.blank else
            backend.issue.mdQueue.step
              (queuePorts backend.issue.mdQueue first second (fun entry => entry.isMd) input.mdReady)
        lsuQueue :=
          if fault then F2if2o.reset Issued.blank else
            backend.issue.lsuQueue.step
              (queuePorts backend.issue.lsuQueue first second isMemory input.lsuReady) } }

end Step

end Backend

end GreenRio
