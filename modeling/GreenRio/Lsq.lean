import GreenRio.Arbiter
import GreenRio.LoadStore

set_option autoImplicit false

namespace GreenRio

open Circular (advance)
open Oldest2Abitter (lowest ofBits rotateDown rotateUp)

/-- The counter behind the issue pointer, a cell of a library that is not part of the sources:
it counts, and it can be set. What it does when asked for both is left open. -/
structure Counter2 where
  next : LsqIndex → (add set : Bool) → (setVector : LsqIndex) → LsqIndex
  hold : ∀ count vector, next count false false vector = count
  counts : ∀ count vector, next count true false vector = advance count 1
  loads : ∀ count vector, next count false true vector = vector

/-- A counter that prefers to be set. -/
def Counter2.standard : Counter2 where
  next count add set vector := if set then vector else if add then advance count 1 else count
  hold _ _ := rfl
  counts _ _ := rfl
  loads _ _ := rfl

/-- An answer of the data TLB. -/
structure DtlbAnswer where
  vld : Bool
  hit : Bool
  ptag : BitVec 44
  exceptionVld : Bool
  ecause : BitVec 5

def DtlbAnswer.none : DtlbAnswer := ⟨false, false, 0, false, 0⟩

/-- A writeback of a reorder buffer index. -/
structure WbPort where
  vld : Bool
  robIndex : RobIndex

/-- The grants of the four units a flushing fence waits for. -/
structure FlushGrants where
  l1d : Bool
  l1i : Bool
  dtlb : Bool
  itlb : Bool

/-- The registers of `lsu_lsq`. -/
structure Lsq where
  entries : LsqIndex → LsqEntry
  head : LsqIndex
  tail : LsqIndex
  issued : LsqIndex
  ldIssuedQ : LsqIndex
  ldIssuedQq : LsqIndex
  dtlbVtagQ : BitVec 27
  exceptionLock : Bool
  fenceOnFlight : Bool
  l1dFlushDone : Bool
  l1iFlushDone : Bool
  dtlbFlushDone : Bool
  itlbFlushDone : Bool
  sfenceVmaAsidVldQ : Bool
  sfenceVmaAsidQ : BitVec 16
  l1dIssVldQ : Bool
  l1dStIssVldQ : Bool
  l1dIssHskQ : Bool
  busCtrlIssVldQ : Bool
  busCtrlIssHskQ : Bool
  ldReplayVldQ : Bool

structure LsqInput where
  flush : Bool
  vld : Bool
  request : LsuRequest
  wakeup : Bool
  wakeupRobIndex : RobIndex
  wb : List WbPort
  prfWbVld : Bool
  prfWbRdAddr : PhyReg
  wbArbRdy : Bool
  mcExceptionVld : Bool
  mcEcause : BitVec 5
  dtlb : DtlbAnswer
  ldReqRdy : Bool
  stReqRdy : Bool
  ldReplayVld : Bool
  grants : FlushGrants
  pmaIsIo : Bool
  busCtrlRdy : Bool

namespace LsqInput

variable (input : LsqInput)

/-- An `SFENCE.VMA` is presented. -/
def sfenceVma : Bool := input.vld && input.request.isSfenceVma

/-- `lsq_pma_dtlb_hit_o`. -/
def pmaDtlbHit : Bool := input.dtlb.vld && input.dtlb.hit

/-- `lsq_rcu_comm_rd_addr_o`. -/
def commRdAddr : PhyReg := if input.prfWbVld then input.prfWbRdAddr else 0

end LsqInput

namespace Lsq

def reset : Lsq where
  entries := fun _ => .clear
  head := 0
  tail := 0
  issued := 0
  ldIssuedQ := 0
  ldIssuedQq := 0
  dtlbVtagQ := 0
  exceptionLock := false
  fenceOnFlight := false
  l1dFlushDone := false
  l1iFlushDone := false
  dtlbFlushDone := false
  itlbFlushDone := false
  sfenceVmaAsidVldQ := false
  sfenceVmaAsidQ := 0
  l1dIssVldQ := false
  l1dStIssVldQ := false
  l1dIssHskQ := false
  busCtrlIssVldQ := false
  busCtrlIssHskQ := false
  ldReplayVldQ := false

/-- `arbiter_base`: the first request from the base upwards, around the vector. -/
def arbiterBase (req base : BitVec 8) : BitVec 8 :=
  let doubleGnt := (req ++ req) &&& ~~~((req ++ req) - base.setWidth 16)
  doubleGnt.setWidth 8 ||| doubleGnt.extractLsb' 8 8

section Queue

variable (lsq : Lsq)

def headEntry : LsqEntry := lsq.entries lsq.head

def issuedEntry : LsqEntry := lsq.entries lsq.issued

def issueNxt : LsqIndex := advance lsq.issued 1

def lastIssue : LsqIndex := advance lsq.issued 7

def nxtEntry : LsqEntry := lsq.entries lsq.issueNxt

/-- `lsq_entry_first_fenced`; the vectors enter the arbiter reversed. -/
def firstFenced : BitVec 8 :=
  (arbiterBase
    (ofBits (fun bit => ((lsq.entries (Fin.ofNat 8 bit)).vld &&
      (lsq.entries (Fin.ofNat 8 bit)).fenced)) 8).reverse
    (ofBits (fun bit => Fin.ofNat 8 bit == lsq.head) 8).reverse).reverse

def firstFencedS : BitVec 8 := rotateDown lsq.firstFenced lsq.head.val

/-- `lsq_entry_fenced_barrier_s`: no fenced entry stands before the position. -/
def fencedBarrierS : Nat → Bool
  | 0 => true
  | position + 1 => fencedBarrierS position && !lsq.firstFencedS.getLsbD position

def fencedBarrier : BitVec 8 := rotateUp (ofBits lsq.fencedBarrierS 8) lsq.head.val

def fenceReqRdy (i : LsqIndex) : Bool :=
  (lsq.entries i).fenced && lsq.firstFenced.getLsbD i.val && lsq.head == i

/-- `lsq_entry_fenced_rdy_vec`. -/
def fencedRdy (i : LsqIndex) : Bool :=
  (lsq.fencedBarrier.getLsbD i.val && !(lsq.entries i).fenced) || lsq.fenceReqRdy i

end Queue

section Completion

variable (lsq : Lsq) (input : LsqInput)

def prfWbRdAddrMatch (i : LsqIndex) : Bool :=
  (lsq.entries i).vld && (lsq.entries i).rdAddr == input.prfWbRdAddr

/-- `prf_wb_entry`: the last entry with the register, or entry 0. -/
def prfWbEntry : LsqIndex :=
  (List.finRange 8).foldl (fun entry k => if lsq.prfWbRdAddrMatch input k then k else entry) 0

/-- `lsq_entry_wb_vld_vec`. -/
def wbVld (i : LsqIndex) : Bool :=
  let entry := lsq.entries i
  (input.wb.any fun port => port.vld && entry.vld && entry.noPrfWb && port.robIndex == entry.robIndex) ||
    (!entry.noPrfWb && entry.vld && input.prfWbVld && input.prfWbRdAddr == entry.rdAddr)

/-- `lsq_entry_succ_vld_vec`. -/
def succVld (i : LsqIndex) : Bool :=
  let entry := lsq.entries i
  (lsq.wbVld input i && !entry.isFenceReq) ||
    (((entry.opcode == Stu.fence && lsq.wbVld input i) ||
      (entry.opcode == Stu.sfenceVma && lsq.dtlbFlushDone && lsq.itlbFlushDone) ||
      (entry.opcode == Stu.fenceI && lsq.l1dFlushDone && lsq.l1iFlushDone)) && entry.isFenceReq)

def deque : Bool :=
  lsq.headEntry.vld && lsq.headEntry.exec && (lsq.headEntry.succ || lsq.succVld input lsq.head) &&
    ((!input.prfWbVld && lsq.headEntry.noPrfWb) || !lsq.headEntry.noPrfWb)

def wbEnqueBypass : Bool := lsq.head == lsq.tail && lsq.deque input

def enque : Bool := input.vld && (!(lsq.entries lsq.tail).vld || lsq.wbEnqueBypass input)

/-- `lsq_rdy_o`. -/
def rdy : Bool :=
  (lsq.head != lsq.tail || (lsq.head == lsq.tail && lsq.deque input) ||
      (lsq.head == lsq.tail && !lsq.headEntry.vld)) &&
    !(input.sfenceVma && lsq.sfenceVmaAsidVldQ)

/-- The head waits with an exception that has not been reported. -/
def exceptionPending : Bool :=
  lsq.headEntry.vld && lsq.headEntry.exceptionVld && !lsq.exceptionLock

/-- `lsq_rcu_comm_vld_o`. -/
def commVld : Bool :=
  ((lsq.deque input && lsq.headEntry.noPrfWb) || lsq.exceptionPending || input.prfWbVld) &&
    !input.flush

/-- The entry the outputs of a completion are read from. -/
def commEntry : LsqEntry :=
  if input.prfWbVld then lsq.entries (lsq.prfWbEntry input) else lsq.headEntry

def exceptionSet : Bool :=
  lsq.commVld input && lsq.headEntry.vld && lsq.headEntry.exceptionVld && !input.prfWbVld

end Completion

section IssuePointer

variable (lsq : Lsq) (input : LsqInput)

def replayVld : Bool := input.ldReplayVld && !lsq.ldReplayVldQ

/-- `lsq_entry_wakeup_vld_vec`. -/
def wakeupVld (i : LsqIndex) : Bool :=
  (input.wakeup && (lsq.entries i).vld && input.wakeupRobIndex == (lsq.entries i).robIndex) ||
    (input.wakeup && input.wakeupRobIndex == input.request.robIndex && lsq.enque input &&
      i == lsq.tail)

def issuedEntryAwake : Bool :=
  (lsq.issuedEntry.awake && lsq.issuedEntry.vld) || lsq.wakeupVld input lsq.issued

def reqNeedCheckAwake : Bool :=
  lsq.issuedEntry.vld &&
    ((lsq.issuedEntry.opcode != Stu.fence && lsq.issuedEntry.opcode != Stu.sfenceVma &&
        lsq.issuedEntry.opcode != Stu.fenceI && lsq.issuedEntry.ls) ||
      (input.pmaIsIo && !lsq.issuedEntry.ls))

def awakeCheckPass : Bool :=
  (lsq.issuedEntryAwake input && lsq.reqNeedCheckAwake input) || !lsq.reqNeedCheckAwake input

def lastIssIsPa : Bool :=
  (lsq.issuedEntry.ls && lsq.issuedEntry.vld) ||
    (!lsq.issuedEntry.ls && lsq.issuedEntry.vld && input.dtlb.vld && input.dtlb.hit)

/-- `lsq_last_iss_succ`: the request issued in the previous cycle went through. -/
def lastIssSucc : Bool :=
  (lsq.l1dIssVldQ && lsq.l1dIssHskQ && !lsq.replayVld input && lsq.awakeCheckPass input &&
      lsq.lastIssIsPa input &&
      ((!input.pmaIsIo && lsq.issuedEntry.ls && lsq.l1dStIssVldQ) ||
        (!input.pmaIsIo && !lsq.issuedEntry.ls && input.pmaDtlbHit))) ||
    (lsq.busCtrlIssVldQ && lsq.busCtrlIssHskQ)

def issIssuedEntryBypassVld : Bool :=
  lsq.tail == lsq.issued && lsq.enque input && !input.mcExceptionVld

/-- A new request may only pass a neighbour that is no fence and not held back itself. -/
def neighbourFencedRdy (i : LsqIndex) : Bool :=
  ((lsq.entries i).vld && !(lsq.entries i).fenced && lsq.fencedRdy i) || !(lsq.entries i).vld

def issIssuedEntryBypassFencedRdy : Bool :=
  ((lsq.head == lsq.issued && input.request.fenced) || !input.request.fenced) &&
    lsq.neighbourFencedRdy lsq.lastIssue

def issNxtEntryBypassVld : Bool :=
  lsq.tail == lsq.issueNxt && lsq.enque input && !input.mcExceptionVld

def issNxtEntryBypassFencedRdy : Bool :=
  ((lsq.head == lsq.issueNxt && input.request.fenced) || !input.request.fenced) &&
    lsq.neighbourFencedRdy lsq.issued

def finalIss : LsqIndex := if lsq.lastIssSucc input then lsq.issueNxt else lsq.issued

def finalIssBypass : Bool :=
  if lsq.lastIssSucc input then lsq.issNxtEntryBypassVld input else lsq.issIssuedEntryBypassVld input

/-- The entry a load request or a lookup of this cycle is made for. -/
def target : LsqIndex :=
  if lsq.replayVld input then lsq.ldIssuedQq
  else if lsq.finalIssBypass input then lsq.tail
  else lsq.finalIss input

end IssuePointer

section Issue

variable (lsq : Lsq) (input : LsqInput)

/-- `lsq_l1d_ld_iss_vld`. -/
def ldIssVld : Bool :=
  if lsq.replayVld input then true
  else if !lsq.lastIssSucc input then
    (!lsq.issuedEntry.ls && lsq.issuedEntry.vld && !lsq.issuedEntry.exec &&
        lsq.fencedRdy lsq.issued && !lsq.issuedEntry.exceptionVld) ||
      (lsq.issIssuedEntryBypassVld input && !input.request.ls &&
        lsq.issIssuedEntryBypassFencedRdy input)
  else
    (!lsq.nxtEntry.ls && lsq.nxtEntry.vld && lsq.fencedRdy lsq.issueNxt && !lsq.nxtEntry.exec &&
        !lsq.nxtEntry.exceptionVld) ||
      (lsq.issNxtEntryBypassVld input && !input.request.ls && lsq.issNxtEntryBypassFencedRdy input)

/-- `lsq_l1d_ld_req_vld_o`. -/
def ldReqVld : Bool := lsq.ldIssVld input && input.wbArbRdy

/-- The index and the register on the load port. -/
def ldReqRobIndex : RobIndex :=
  if lsq.replayVld input then (lsq.entries lsq.ldIssuedQq).robIndex
  else if lsq.finalIssBypass input then input.request.robIndex
  else (lsq.entries (lsq.finalIss input)).robIndex

def ldReqRdAddr : PhyReg :=
  if lsq.replayVld input then (lsq.entries lsq.ldIssuedQq).rdAddr
  else if lsq.finalIssBypass input then input.request.rdAddr
  else (lsq.entries (lsq.finalIss input)).rdAddr

/-- `lsq_l1d_st_iss_vld`. -/
def stIssVld : Bool :=
  !lsq.lastIssSucc input && lsq.issuedEntry.vld && lsq.issuedEntry.ls && lsq.issuedEntry.awake &&
    (!lsq.issuedEntry.virt || lsq.issuedEntry.isFenceReq) && lsq.fencedRdy lsq.issued &&
    !lsq.replayVld input && !lsq.issuedEntry.exceptionVld && !lsq.issuedEntry.exec

/-- `lsq_l1d_st_req_vld_o`. -/
def stReqVld : Bool :=
  lsq.stIssVld input && input.wbArbRdy && !input.flush &&
    (!lsq.issuedEntry.isFenceReq || lsq.issuedEntry.opcode == Stu.fence)

def l1dIssVld : Bool := lsq.ldIssVld input || lsq.stIssVld input

def l1dIssHsk : Bool :=
  (lsq.ldIssVld input && input.ldReqRdy) || (lsq.stIssVld input && input.stReqRdy)

/-- `lsq_dtlb_iss_vld_o`. -/
def dtlbIssVld : Bool :=
  (lsq.issIssuedEntryBypassVld input && lsq.issIssuedEntryBypassFencedRdy input &&
      !(input.vld && input.request.isFenceReq)) ||
    (lsq.lastIssSucc input &&
      (if lsq.issNxtEntryBypassVld input then lsq.issNxtEntryBypassFencedRdy input
        else lsq.fencedRdy lsq.issueNxt && lsq.nxtEntry.vld && !lsq.nxtEntry.exec &&
          !lsq.nxtEntry.exceptionVld)) ||
    (!lsq.issuedEntry.ls && lsq.issuedEntry.vld && !lsq.issuedEntry.exec &&
      !lsq.issuedEntry.exceptionVld && !lsq.lastIssSucc input) ||
    ((lsq.issuedEntry.ls && lsq.issuedEntry.vld && !lsq.issuedEntry.exec && lsq.issuedEntry.virt &&
        !(input.dtlb.hit && input.dtlb.vld) && !lsq.issuedEntry.exceptionVld) &&
      !lsq.issuedEntry.isFenceReq) ||
    lsq.replayVld input

def issVtag : BitVec 27 :=
  if input.dtlb.vld && !input.dtlb.hit then lsq.dtlbVtagQ else lsq.issuedEntry.tag.setWidth 27

/-- `lsq_dtlb_iss_vtag_o`, also the virtual tag on the load port. -/
def dtlbIssVtag : BitVec 27 :=
  if lsq.replayVld input then (lsq.entries lsq.ldIssuedQq).tag.setWidth 27
  else if !lsq.lastIssSucc input then
    if lsq.issIssuedEntryBypassVld input then input.request.vtag else lsq.issVtag input
  else if lsq.issNxtEntryBypassVld input then input.request.vtag
  else lsq.nxtEntry.tag.setWidth 27

/-- `lsq_bus_ctrl_iss_vld`. -/
def busCtrlIssVld : Bool :=
  input.pmaIsIo && lsq.issuedEntryAwake input && lsq.fencedRdy lsq.issued &&
    !lsq.lastIssSucc input && !lsq.issuedEntry.exceptionVld

/-- `lsq_l1d_wakeup_kill_o` and `lsq_l1d_replay_kill_o`. -/
def wakeupKill : Bool := !lsq.awakeCheckPass input && lsq.l1dIssVldQ

def replayKill : Bool := lsq.l1dIssVldQ && lsq.replayVld input

/-- `lsq_pma_paddr_o`. -/
def pmaPaddr : PhysicalAddress :=
  input.dtlb.ptag ++ (lsq.issuedEntry.index ++ lsq.issuedEntry.offset)

end Issue

section Step

variable (lsq : Lsq) (input : LsqInput)

def dtlbVirt : Bool :=
  !lsq.issuedEntry.ls || (lsq.issuedEntry.ls && input.dtlb.vld && !input.dtlb.hit) ||
    (lsq.issuedEntry.ls && input.dtlb.vld && input.dtlb.exceptionVld)

/-- `lsq_entry_exec_vld_vec`. -/
def execVld (i : LsqIndex) : Bool :=
  let entry := lsq.entries i
  (lsq.lastIssSucc input && i == lsq.issued &&
      (!entry.isFenceReq || (entry.isFenceReq && entry.opcode == Stu.fence))) ||
    (i == lsq.issued && entry.isFenceReq && entry.opcode != Stu.fence && lsq.stIssVld input)

/-- What entry `i` receives. -/
def entryPorts (i : LsqIndex) : LsqEntryPorts where
  init := lsq.enque input && i == lsq.tail
  invld := lsq.deque input && i == lsq.head
  request := input.request
  exceptionVld := input.mcExceptionVld
  ecause := if input.mcExceptionVld then input.mcEcause else 0
  dtlbVld := input.dtlb.vld && i == lsq.issued
  dtlbVirt := lsq.dtlbVirt input
  dtlbTag :=
    if !lsq.dtlbVirt input then input.dtlb.ptag else lsq.dtlbVtagQ.setWidth 44
  dtlbExceptionVld := input.dtlb.vld && input.dtlb.exceptionVld && lsq.issuedEntry.vld
  dtlbEcause := input.dtlb.ecause
  awake := lsq.wakeupVld input i
  exec := lsq.execVld input i
  replay := lsq.replayVld input && i == lsq.ldIssuedQq
  succ := lsq.succVld input i

/-- A flushing fence waits until it has left the queue. -/
def fenceClr : Bool := lsq.deque input && lsq.headEntry.isFenceReq

def sfenceVmaClr : Bool :=
  lsq.deque input && lsq.headEntry.ls && lsq.headEntry.opcode == Stu.sfenceVma

/-- A register that is set, and cleared by a fence that leaves. -/
def flagNext (flag set : Bool) : Bool :=
  if lsq.fenceClr input then false else if set then true else flag

/-- One clock edge outside reset. -/
def step (counter : Counter2) (lsq : Lsq) (input : LsqInput) : Lsq :=
  if input.flush then reset else
    { entries := fun i => (lsq.entries i).step (lsq.entryPorts input i)
      head := if lsq.deque input then advance lsq.head 1 else lsq.head
      tail := if lsq.enque input then advance lsq.tail 1 else lsq.tail
      issued := counter.next lsq.issued (lsq.lastIssSucc input) (lsq.replayVld input) lsq.ldIssuedQq
      ldIssuedQ :=
        if lsq.replayVld input then lsq.ldIssuedQq
        else if lsq.ldReqVld input then
          if lsq.finalIssBypass input then lsq.tail else lsq.finalIss input
        else lsq.ldIssuedQ
      ldIssuedQq := lsq.ldIssuedQ
      dtlbVtagQ := if lsq.dtlbIssVld input then lsq.dtlbIssVtag input else lsq.dtlbVtagQ
      exceptionLock := if lsq.exceptionSet input then true else lsq.exceptionLock
      fenceOnFlight :=
        lsq.flagNext input lsq.fenceOnFlight (lsq.stIssVld input && lsq.issuedEntry.isFenceReq)
      l1dFlushDone :=
        lsq.flagNext input lsq.l1dFlushDone (lsq.fenceOnFlight && input.grants.l1d)
      l1iFlushDone :=
        lsq.flagNext input lsq.l1iFlushDone (lsq.fenceOnFlight && input.grants.l1i)
      dtlbFlushDone :=
        lsq.flagNext input lsq.dtlbFlushDone (lsq.fenceOnFlight && input.grants.dtlb)
      itlbFlushDone :=
        lsq.flagNext input lsq.itlbFlushDone (lsq.fenceOnFlight && input.grants.itlb)
      sfenceVmaAsidVldQ :=
        if lsq.sfenceVmaClr input then false
        else if input.sfenceVma && lsq.rdy input then true else lsq.sfenceVmaAsidVldQ
      sfenceVmaAsidQ :=
        if lsq.sfenceVmaClr input then 0
        else if input.sfenceVma && lsq.rdy input then input.request.asid
        else lsq.sfenceVmaAsidQ
      l1dIssVldQ := lsq.l1dIssVld input
      l1dStIssVldQ := lsq.stIssVld input
      l1dIssHskQ := lsq.l1dIssHsk input
      busCtrlIssVldQ := lsq.busCtrlIssVld input
      busCtrlIssHskQ := lsq.busCtrlIssVld input && input.busCtrlRdy
      ldReplayVldQ := lsq.replayVld input }

end Step

end Lsq

end GreenRio
