import GreenRio.FreeList
import GreenRio.Instruction

set_option autoImplicit false

namespace GreenRio

open Counter (secondLine)

/-- The `dff_*` registers that describe the head of the previous cycle. -/
structure CommitDelay where
  cmtJump : Bool
  predictMiss : Bool
  branchFirst : Bool
  branchSecond : Bool
  branchTakenFirst : Bool
  branchTakenSecond : Bool
  opPcFirst : Pc
  opPcSecond : Pc
  finalPcFirst : Pc
  finalPcSecond : Pc

def CommitDelay.clear : CommitDelay := ⟨false, false, false, false, false, false, 0, 0, 0, 0⟩

/-- The renaming, reorder-buffer and commit registers of `rcu`. -/
structure Rcu where
  freeList : FreeList 47 PhyReg
  renameReg : ArchReg → PhyReg
  renameRegBackup : ArchReg → PhyReg
  rob : RobIndex → RobEntry
  robUsed : RobIndex → Bool
  robFinish : RobIndex → Bool
  robExp : RobIndex → Bool
  robEcause : RobIndex → BitVec 5
  robEtval : RobIndex → Word
  robBranchTaken : RobIndex → Bool
  robPredictMiss : RobIndex → Bool
  robFinalBranchPc : RobIndex → Pc
  wrRobIndex : RobIndex
  cmtRobIndex : RobIndex
  dff : CommitDelay

/-- What decode offers in one cycle. The second slot is only offered behind the first: decode
raises it while its queue holds two instructions and the first one while it holds any. -/
structure Offer where
  validFirst : Bool
  validSecond : Bool
  first : Decoded
  second : Decoded
  ordered : validSecond = true → validFirst = true

structure RcuInput where
  globalWfi : Bool
  globalTrap : Bool
  globalRet : Bool
  offer : Offer
  alu1 : AluDone
  alu2 : AluDone
  lsu : LsuDone
  md : FuDone
  csru : FuDone

namespace Rcu

/-- `rst`. Fields without a reset in the source are only read after a dispatch has written
them; they start blank here. -/
def reset : Rcu where
  freeList := FreeList.reset fun line => ⟨line.val + 1, by omega⟩
  renameReg := fun _ => 0
  renameRegBackup := fun _ => 0
  rob := fun _ => ⟨RobOp.blank, 0, 0, 0, 0, 0, false⟩
  robUsed := fun _ => false
  robFinish := fun _ => false
  robExp := fun _ => false
  robEcause := fun _ => 0
  robEtval := fun _ => 0
  robBranchTaken := fun _ => false
  robPredictMiss := fun _ => false
  robFinalBranchPc := fun _ => 0
  wrRobIndex := 0
  cmtRobIndex := 0
  dff := .clear

section Signals

variable (rcu : Rcu) (input : RcuInput)

def cmtRobIndexSecond : RobIndex := secondLine rcu.cmtRobIndex

def wrRobIndexSecond : RobIndex := secondLine rcu.wrRobIndex

/-- The entry at the head of the reorder buffer and the one behind it. -/
def headFirst : RobEntry := rcu.rob rcu.cmtRobIndex

def headSecond : RobEntry := rcu.rob rcu.cmtRobIndexSecond

def dffCmtMissDelay : Bool := rcu.dff.cmtJump && rcu.dff.predictMiss

def cmtMiss : Bool := !rcu.headFirst.aluJump && rcu.robPredictMiss rcu.cmtRobIndex

def predictMiss : Bool := if rcu.dffCmtMissDelay then true else rcu.cmtMiss

def globalSpeculateFault : Bool := input.globalRet || input.globalTrap || rcu.predictMiss

/-- `do_rob_commit_first` under a given `global_wfi_i`. -/
def commitReady (globalWfi : Bool) : Bool :=
  rcu.robUsed rcu.cmtRobIndex && rcu.robFinish rcu.cmtRobIndex && !rcu.dffCmtMissDelay &&
    !globalWfi

def doRobCommitFirst : Bool := rcu.commitReady input.globalWfi

def doRobCommitSecond : Bool :=
  rcu.robUsed rcu.cmtRobIndexSecond && rcu.robFinish rcu.cmtRobIndexSecond &&
    !rcu.robPredictMiss rcu.cmtRobIndexSecond && !rcu.robPredictMiss rcu.cmtRobIndex &&
    !rcu.robExp rcu.cmtRobIndexSecond && !rcu.robExp rcu.cmtRobIndex &&
    !rcu.headSecond.mret && !rcu.headFirst.mret &&
    !rcu.headSecond.sret && !rcu.headFirst.sret &&
    !rcu.headSecond.wfi && !rcu.headFirst.wfi &&
    rcu.doRobCommitFirst input

def robFirstWriteReady : Bool := !rcu.robUsed rcu.wrRobIndex

def robSecondWriteReady : Bool := !rcu.robUsed rcu.wrRobIndexSecond

def doRobWriteFirst : Bool :=
  rcu.robFirstWriteReady && input.offer.validFirst && !rcu.globalSpeculateFault input &&
    !input.globalWfi

def doRobWriteSecond : Bool :=
  rcu.robSecondWriteReady && input.offer.validSecond && !rcu.globalSpeculateFault input &&
    !input.globalWfi

def doRobSelectSkipFirst : Bool := input.offer.first.skips && rcu.doRobWriteFirst input

def doRobSelectSkipSecond : Bool := input.offer.second.skips && rcu.doRobWriteSecond input

def freeListRdFirstEn : Bool :=
  rcu.doRobWriteFirst input && input.offer.first.usesRd && input.offer.first.rdAddress != 0

def freeListRdSecondEn : Bool :=
  rcu.doRobWriteSecond input && input.offer.second.usesRd && input.offer.second.rdAddress != 0

/-- Every enable and word on the ports of the free list. -/
def freeListPorts : FreeListPorts PhyReg where
  wrFirstEn := rcu.doRobCommitFirst input && rcu.headFirst.lprd != 0 &&
    !rcu.globalSpeculateFault input
  wrSecondEn := rcu.doRobCommitSecond input && rcu.headSecond.lprd != 0 &&
    !rcu.globalSpeculateFault input
  rdFirstEn := rcu.freeListRdFirstEn input
  rdSecondEn := rcu.freeListRdSecondEn input
  wdataFirst := rcu.headFirst.lprd
  wdataSecond := rcu.headSecond.lprd
  rdExcepFirstEn := rcu.doRobCommitFirst input && rcu.headFirst.prd != 0 &&
    !rcu.globalSpeculateFault input
  rdExcepSecondEn := rcu.doRobCommitSecond input && rcu.headSecond.prd != 0 &&
    !rcu.globalSpeculateFault input

/-- `free_list_rdata_first`, also `name_prd_first`. -/
def freeListRdataFirst : PhyReg := rcu.freeList.rdataFirst 0 (rcu.freeListRdFirstEn input)

def freeListRdataSecond : PhyReg :=
  rcu.freeList.rdataSecond 0 (rcu.freeListRdFirstEn input) (rcu.freeListRdSecondEn input)

/-- The speculative name of `address` as the second instruction of a pair sees it. -/
def nameSecond (address : ArchReg) : PhyReg :=
  if address = input.offer.first.rdAddress ∧ input.offer.first.usesRd = true
  then rcu.freeListRdataFirst input else rcu.renameReg address

/-- The renamed first instruction, as written to the reorder buffer. -/
def entryFirst : RobEntry :=
  let instruction := input.offer.first
  { instruction.toRobOp with
    prs1 := if instruction.usesRs1 then rcu.renameReg instruction.rs1Address else 0
    prs2 := if instruction.usesRs2 then rcu.renameReg instruction.rs2Address else 0
    prd := if rcu.freeListRdFirstEn input then rcu.freeListRdataFirst input else 0
    lprd := if instruction.usesRd then rcu.renameReg instruction.rdAddress else 0
    rd := if instruction.usesRd then instruction.rdAddress else 0
    wakeup := instruction.isLoad || instruction.isStore }

def entrySecond : RobEntry :=
  let instruction := input.offer.second
  { instruction.toRobOp with
    prs1 := if instruction.usesRs1 then rcu.nameSecond input instruction.rs1Address else 0
    prs2 := if instruction.usesRs2 then rcu.nameSecond input instruction.rs2Address else 0
    prd := if rcu.freeListRdSecondEn input then rcu.freeListRdataSecond input else 0
    lprd := if instruction.usesRd then rcu.nameSecond input instruction.rdAddress else 0
    rd := if instruction.usesRd then instruction.rdAddress else 0
    wakeup := instruction.isLoad || instruction.isStore }

/-- A register array written by the two dispatch ports. -/
def dispatchInto {α : Type} (array : RobIndex → α) (first second : α) : RobIndex → α :=
  writeIf (rcu.doRobWriteSecond input)
    (writeIf (rcu.doRobWriteFirst input) array rcu.wrRobIndex first) rcu.wrRobIndexSecond second

/-- A flag array cleared by the two commit ports. -/
def commitClear (array : RobIndex → Bool) : RobIndex → Bool :=
  writeIf (rcu.doRobCommitSecond input)
    (writeIf (rcu.doRobCommitFirst input) array rcu.cmtRobIndex false) rcu.cmtRobIndexSecond false

/-- A flag array set by every function unit that completes. -/
def doneSet (array : RobIndex → Bool) : RobIndex → Bool :=
  writeIf input.csru.done (writeIf input.md.done (writeIf input.lsu.done
    (writeIf input.alu2.done (writeIf input.alu1.done array input.alu1.robIndex true)
      input.alu2.robIndex true) input.lsu.robIndex true) input.md.robIndex true)
      input.csru.robIndex true

/-- The value an exception array receives from the dispatch ports and then from each unit that
raises its exception. -/
def raised {α : Type} (array : RobIndex → α) (first second alu1 alu2 lsu md csru : α) :
    RobIndex → α :=
  writeIf input.csru.exp (writeIf input.md.exp (writeIf input.lsu.exp (writeIf input.alu2.exp
    (writeIf input.alu1.exp (rcu.dispatchInto input array first second)
      input.alu1.robIndex alu1) input.alu2.robIndex alu2) input.lsu.robIndex lsu)
      input.md.robIndex md) input.csru.robIndex csru

/-- The redirect address an arithmetic completion stores. -/
def finalBranchPc (completion : AluDone) : Pc :=
  if (rcu.rob completion.robIndex).aluBranch || (rcu.rob completion.robIndex).aluJump
  then completion.finalBranchPc else (rcu.rob completion.robIndex).pc

end Signals

/-- One clock edge outside reset. -/
def step (rcu : Rcu) (input : RcuInput) : Rcu :=
  let fault := rcu.globalSpeculateFault input
  let first := input.offer.first
  let second := input.offer.second
  { freeList := rcu.freeList.step fault (rcu.freeListPorts input)
    renameReg :=
      if fault then rcu.renameRegBackup else
        writeIf (rcu.freeListRdSecondEn input)
          (writeIf (rcu.freeListRdFirstEn input) rcu.renameReg first.rdAddress
            (rcu.freeListRdataFirst input)) second.rdAddress (rcu.freeListRdataSecond input)
    renameRegBackup :=
      writeIf (rcu.doRobCommitSecond input && !fault)
        (writeIf (rcu.doRobCommitFirst input && !fault) rcu.renameRegBackup rcu.headFirst.rd
          rcu.headFirst.prd) rcu.headSecond.rd rcu.headSecond.prd
    rob := rcu.dispatchInto input rcu.rob (rcu.entryFirst input) (rcu.entrySecond input)
    robUsed :=
      if fault then fun _ => false else
        rcu.commitClear input (rcu.dispatchInto input rcu.robUsed true true)
    robFinish :=
      if fault then fun _ => false else
        writeIf (rcu.doRobSelectSkipSecond input)
          (writeIf (rcu.doRobSelectSkipFirst input)
            (rcu.commitClear input (doneSet input rcu.robFinish)) rcu.wrRobIndex true)
          rcu.wrRobIndexSecond true
    robExp :=
      if fault then fun _ => false else
        rcu.raised input rcu.robExp first.exception second.exception true true true true true
    robEcause :=
      if fault then fun _ => 0 else
        rcu.raised input rcu.robEcause (if first.exception then first.ecause else 0)
          (if second.exception then second.ecause else 0) input.alu1.ecause input.alu2.ecause
          input.lsu.ecause input.md.ecause input.csru.ecause
    robEtval :=
      if fault then fun _ => 0 else
        rcu.raised input rcu.robEtval (if first.exception then first.etval else 0)
          (if second.exception then second.etval else 0) 0 0 input.lsu.etval 0 0
    robBranchTaken :=
      if fault then fun _ => false else
        rcu.commitClear input
          (writeIf (input.alu2.done && input.alu2.branchTaken)
            (writeIf (input.alu1.done && input.alu1.branchTaken) rcu.robBranchTaken
              input.alu1.robIndex true) input.alu2.robIndex true)
    robPredictMiss :=
      if fault then fun _ => false else
        rcu.commitClear input
          (writeIf (input.alu2.done && input.alu2.predictMiss)
            (writeIf (input.alu1.done && input.alu1.predictMiss) rcu.robPredictMiss
              input.alu1.robIndex true) input.alu2.robIndex true)
    robFinalBranchPc :=
      writeIf input.alu2.done
        (writeIf input.alu1.done rcu.robFinalBranchPc input.alu1.robIndex
          (rcu.finalBranchPc input.alu1)) input.alu2.robIndex (rcu.finalBranchPc input.alu2)
    wrRobIndex :=
      if fault then 0 else
        Counter.next rcu.wrRobIndex (rcu.doRobWriteFirst input) (rcu.doRobWriteSecond input)
    cmtRobIndex :=
      if fault then 0 else
        Counter.next rcu.cmtRobIndex (rcu.doRobCommitFirst input) (rcu.doRobCommitSecond input)
    dff :=
      if fault then .clear else
        { cmtJump := rcu.headFirst.aluJump
          predictMiss := rcu.robPredictMiss rcu.cmtRobIndex
          branchFirst := rcu.headFirst.aluBranch || rcu.headFirst.aluJump
          branchSecond := rcu.headSecond.aluBranch || rcu.headSecond.aluJump
          branchTakenFirst := rcu.robBranchTaken rcu.cmtRobIndex
          branchTakenSecond := rcu.robBranchTaken rcu.cmtRobIndexSecond
          opPcFirst := rcu.headFirst.pc
          opPcSecond := rcu.headSecond.pc
          finalPcFirst := rcu.robFinalBranchPc rcu.cmtRobIndex
          finalPcSecond := rcu.robFinalBranchPc rcu.cmtRobIndexSecond } }

end Rcu

end GreenRio
