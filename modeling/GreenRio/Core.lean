import GreenRio.Conservation

set_option autoImplicit false

namespace GreenRio

open Counter Fifo

/-- What the instruction buffer has for decode: a second instruction only behind a first one.
The `has_*_inst` wires gate both with decode's ready bits. -/
structure Supply where
  first : Decoded
  second : Decoded
  available : Bool
  availableFull : Bool
  ordered : availableFull = true → available = true

/-- The decode queue in front of the `rcu`, under `excep_ctrl`. -/
structure Core where
  fifo : F2if2o 8 Decoded
  rcu : Rcu

/-- One cycle of the outside: instruction buffer, interrupt line and function units. -/
structure CoreInput where
  supply : Supply
  interrupt : Bool
  alu1 : AluDone
  alu2 : AluDone
  lsu : LsuDone
  md : FuDone
  csru : FuDone

def Decoded.blank : Decoded :=
  { RobOp.blank with
    usesRs1 := false
    usesRs2 := false
    usesRd := false
    rs1Address := 0
    rs2Address := 0
    rdAddress := 0
    exception := false
    ecause := 0
    etval := 0 }

namespace Core

def reset : Core := ⟨F2if2o.reset Decoded.blank, Rcu.reset⟩

section Signals

variable (core : Core) (input : CoreInput)

/-- `global_wfi_o` of `excep_ctrl` is tied low. -/
def globalWfi : Bool := false

def doRobCommitFirst : Bool := core.rcu.commitReady globalWfi

def exception : Bool := core.rcu.robExp core.rcu.cmtRobIndex && core.doRobCommitFirst

def globalTrap : Bool := core.exception || input.interrupt

def globalRet : Bool :=
  core.doRobCommitFirst && (core.rcu.headFirst.mret || core.rcu.headFirst.sret)

/-- `fetch_deco_req_single_ready_o` and its double. -/
def singleReady : Bool := !core.fifo.fifoFull && !globalWfi

def doubleReady : Bool := !core.fifo.fifoAlmostFull && !globalWfi

def hasFirstInst : Bool := input.supply.available && core.singleReady

def hasFullInst : Bool := input.supply.availableFull && core.doubleReady

/-- The write enables of the decode queue, encoded through the exclusive or of the requests. -/
def wrFirstEn : Bool :=
  if core.hasFirstInst input ^^ core.hasFullInst input then !core.fifo.fifoFull
  else core.hasFirstInst input && !core.fifo.fifoFull

def wrSecondEn : Bool :=
  if core.hasFirstInst input ^^ core.hasFullInst input then false
  else core.hasFirstInst input && !core.fifo.fifoAlmostFull

def rdFirstEn : Bool :=
  if core.rcu.robFirstWriteReady ^^ core.rcu.robSecondWriteReady then !core.fifo.fifoEmpty
  else core.rcu.robFirstWriteReady && !core.fifo.fifoEmpty

def rdSecondEn : Bool :=
  if core.rcu.robFirstWriteReady ^^ core.rcu.robSecondWriteReady then false
  else core.rcu.robFirstWriteReady && !core.fifo.fifoAlmostEmpty

/-- What the queue offers to the `rcu`. -/
def offer : Offer where
  validFirst := !core.fifo.fifoEmpty
  validSecond := !core.fifo.fifoAlmostEmpty
  first := core.fifo.rdataFirst core.rdFirstEn core.rdSecondEn
  second := core.fifo.rdataSecond core.rdFirstEn core.rdSecondEn
  ordered := by
    simp only [F2if2o.fifoAlmostEmpty, F2if2o.fifoEmpty, Bool.not_eq_true', decide_eq_false_iff_not,
      beq_eq_false_iff_ne]
    omega

def rcuInput : RcuInput where
  globalWfi := globalWfi
  globalTrap := core.globalTrap input
  globalRet := core.globalRet
  offer := core.offer
  alu1 := input.alu1
  alu2 := input.alu2
  lsu := input.lsu
  md := input.md
  csru := input.csru

def fifoPorts : Ports Decoded where
  wrFirstEn := core.wrFirstEn input
  wrSecondEn := core.wrSecondEn input
  rdFirstEn := core.rdFirstEn
  rdSecondEn := core.rdSecondEn
  wdataFirst := input.supply.first
  wdataSecond := input.supply.second

/-- A trap, an `xRET` or a misprediction, seen by decode and by the `rcu` alike. -/
def flush : Bool := core.rcu.globalSpeculateFault (core.rcuInput input)

end Signals

/-- One clock edge of the queue and the `rcu`. -/
def step (core : Core) (input : CoreInput) : Core where
  fifo := if core.flush input then F2if2o.reset Decoded.blank else core.fifo.step (core.fifoPorts input)
  rcu := core.rcu.step (core.rcuInput input)

def machine : Synchronous Core CoreInput := ⟨reset, step⟩

/-- Every run of the core is a run of its `rcu`. -/
theorem run_rcu (inputs : List CoreInput) :
    (machine.run inputs).rcu = Rcu.machine.run (machine.fed rcuInput inputs) :=
  machine.run_part Rcu.machine Core.rcu rcuInput rfl (fun _ _ => rfl) inputs

theorem log_rcu {β : Type} (emit : Rcu → RcuInput → List β) (inputs : List CoreInput) :
    machine.log (fun core input => emit core.rcu (core.rcuInput input)) inputs =
      Rcu.machine.log emit (machine.fed rcuInput inputs) :=
  machine.log_part Rcu.machine Core.rcu rcuInput rfl (fun _ _ => rfl) emit inputs

theorem run_window (inputs : List CoreInput) :
    ∃ length, Rcu.Window (machine.run inputs).rcu length := by
  rw [run_rcu]
  obtain ⟨length, free, sound⟩ := Rcu.run_sound (machine.fed rcuInput inputs)
  exact ⟨length, sound.window⟩

end Core

end GreenRio
