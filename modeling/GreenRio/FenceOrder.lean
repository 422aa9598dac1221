import GreenRio.QueueOrder

set_option autoImplicit false

namespace GreenRio

open Circular
open Oldest2Abitter (ofBits getLsbD_ofBits getLsbD_rotateDown getLsbD_rotateUp)

namespace Lsq

section Signals

variable (lsq : Lsq) (input : LsqInput)

/-- `lsq_dtlb_flush_vld_o` and `lsq_itlb_flush_vld_o`. -/
def tlbFlushVld : Bool := lsq.stIssVld input && lsq.issuedEntry.opcode == Stu.sfenceVma

/-- `lsq_l1i_fencei_flush_vld_o` and `lsq_l1d_fencei_flush_vld_o`. -/
def fenceiFlushVld : Bool := lsq.stIssVld input && lsq.issuedEntry.opcode == Stu.fenceI

/-- A load request or a lookup goes out. -/
def targetIssues : Bool := lsq.ldReqVld input || lsq.dtlbIssVld input

/-- It is made for the request that enters the queue. -/
def targetEnters : Bool := !lsq.replayVld input && lsq.finalIssBypass input

/-- What goes out for entry `i`: a load request or a lookup, or at the issue pointer a store, a
flush of the TLBs or of the caches, or a bus transaction. -/
def issues (i : LsqIndex) : Bool :=
  (lsq.targetIssues input && !lsq.targetEnters input && lsq.target input == i) ||
    ((lsq.stReqVld input || lsq.tlbFlushVld input || lsq.fenceiFlushVld input ||
      lsq.busCtrlIssVld input) && lsq.issued == i)

/-- The fence check of the entry, or of the new request, that a lookup is made for. -/
def targetRdy : Bool :=
  if lsq.lastIssSucc input then
    if lsq.issNxtEntryBypassVld input then lsq.issNxtEntryBypassFencedRdy input
    else lsq.fencedRdy lsq.issueNxt
  else if lsq.issIssuedEntryBypassVld input then lsq.issIssuedEntryBypassFencedRdy input
  else lsq.fencedRdy lsq.issued

/-- The two lookups that the entry at the issue pointer asks for, without a fence check. -/
def pointerLookup : Bool :=
  (!lsq.issuedEntry.ls && lsq.issuedEntry.vld && !lsq.issuedEntry.exec &&
      !lsq.issuedEntry.exceptionVld && !lsq.lastIssSucc input) ||
    ((lsq.issuedEntry.ls && lsq.issuedEntry.vld && !lsq.issuedEntry.exec && lsq.issuedEntry.virt &&
        !(input.dtlb.hit && input.dtlb.vld) && !lsq.issuedEntry.exceptionVld) &&
      !lsq.issuedEntry.isFenceReq)

/-- The lookup that a new request asks for. -/
def bypassLookup : Bool :=
  if lsq.lastIssSucc input then
    lsq.issNxtEntryBypassVld input && lsq.issNxtEntryBypassFencedRdy input
  else
    lsq.issIssuedEntryBypassVld input && lsq.issIssuedEntryBypassFencedRdy input &&
      !(input.vld && input.request.isFenceReq)

/-- A fenced request stands at one of the first `k` places from the head. -/
def FencedBefore (k : Nat) : Prop :=
  ∃ j < k, (lsq.entries (advance lsq.head j)).vld = true ∧
    (lsq.entries (advance lsq.head j)).fenced = true

/-- What is issued in a cycle has no fenced request before it, and a fenced request is issued only
from the head. -/
structure FenceOrdered : Prop where
  queued : ∀ k < 8, lsq.issues input (advance lsq.head k) = true →
    (lsq.entries (advance lsq.head k)).vld = true →
      ((lsq.entries (advance lsq.head k)).fenced = true → k = 0) ∧ ¬lsq.FencedBefore k
  entering : lsq.targetIssues input = true → lsq.targetEnters input = true →
    (input.request.fenced = true → lsq.headEntry.vld = false) ∧ ¬lsq.FencedBefore 8

/-- The lookups that are made without a fence check are made where it would pass, and no fenced
request is looked up while it takes the place of a head that leaves. -/
structure Guarded : Prop where
  pointer : lsq.pointerLookup input = true → lsq.replayVld input = false →
    lsq.targetRdy input = true
  full : lsq.bypassLookup input = true → lsq.replayVld input = false →
    input.request.fenced = true → lsq.headEntry.vld = false

end Signals

private theorem arbiterBase_all : ∀ (req : Fin 256) (head : Fin 8),
    (BitVec.ofFin (w := 8) req).getLsbD (7 - head.val) = true →
      (arbiterBase (BitVec.ofFin req)
        (ofBits (fun bit => Fin.ofNat 8 bit == head) 8).reverse).getLsbD (7 - head.val) = true := by
  decide +kernel

/-- The arbiter grants a request at its base. -/
theorem arbiterBase_base (req : BitVec 8) (head : LsqIndex)
    (hit : req.getLsbD (7 - head.val) = true) :
    (arbiterBase req (ofBits (fun bit => Fin.ofNat 8 bit == head) 8).reverse).getLsbD
      (7 - head.val) = true :=
  arbiterBase_all req.toFin head hit

theorem getLsbD_reverse_eight (x : BitVec 8) {k : Nat} (inside : k < 8) :
    x.reverse.getLsbD k = x.getLsbD (7 - k) := by
  rw [BitVec.getLsbD_reverse, BitVec.getMsbD_eq_getLsbD]
  simp [inside]

variable {lsq : Lsq} {input : LsqInput} {length passed : Nat}

/-- A fenced request at the head is the first one. -/
theorem firstFenced_head (vld : lsq.headEntry.vld = true)
    (fenced : lsq.headEntry.fenced = true) : lsq.firstFenced.getLsbD lsq.head.val = true := by
  have inside := lsq.head.isLt
  have same : 7 - (7 - lsq.head.val) = lsq.head.val := by omega
  rw [firstFenced, getLsbD_reverse_eight _ inside]
  apply arbiterBase_base
  rw [getLsbD_reverse_eight _ (by omega), getLsbD_ofBits, same]
  simp only [headEntry] at vld fenced
  simp [vld, fenced, inside]

/-- It holds back every other place. -/
theorem fencedBarrierS_head (vld : lsq.headEntry.vld = true)
    (fenced : lsq.headEntry.fenced = true) (position : Nat) :
    lsq.fencedBarrierS (position + 1) = false := by
  induction position with
  | zero =>
    have first := firstFenced_head vld fenced
    have inside := lsq.head.isLt
    simp only [fencedBarrierS, firstFencedS, Bool.true_and, Bool.not_eq_false']
    rw [getLsbD_rotateDown _ inside (by omega), Nat.add_zero, Nat.mod_eq_of_lt inside, first]
  | succ position ih => rw [fencedBarrierS, ih, Bool.false_and]

/-- What is ready is the head, or is not fenced and has no fenced head before it. -/
theorem fencedRdy_advance {k : Nat} (inside : k < 8)
    (rdy : lsq.fencedRdy (advance lsq.head k) = true) :
    ((lsq.entries (advance lsq.head k)).fenced = true → k = 0) ∧
      (lsq.headEntry.vld = true → lsq.headEntry.fenced = true → k = 0) := by
  simp only [fencedRdy, fenceReqRdy, Bool.or_eq_true, Bool.and_eq_true, Bool.not_eq_true',
    beq_iff_eq] at rdy
  rcases rdy with ⟨barrier, plain⟩ | ⟨-, same⟩
  · refine ⟨fun fenced => ?_, fun vld fenced => ?_⟩
    · rw [plain] at fenced
      cases fenced
    · by_contra later
      obtain ⟨position, rfl⟩ := Nat.exists_eq_succ_of_ne_zero later
      have start := lsq.head.isLt
      have place : ((advance lsq.head (position + 1)).val + 8 - lsq.head.val) % 8 =
          position + 1 := by
        simp only [advance]
        omega
      rw [fencedBarrier, getLsbD_rotateUp _ start (Fin.isLt _), getLsbD_ofBits, place,
        fencedBarrierS_head vld fenced, Bool.and_false] at barrier
      cases barrier
  · have zero : k = 0 :=
      (advance_injective lsq.head (by omega) inside ((advance_zero _).trans same)).symm
    exact ⟨fun _ => zero, fun _ _ => zero⟩

theorem neighbour_rdy {i : LsqIndex} (vld : (lsq.entries i).vld = true)
    (neighbour : lsq.neighbourFencedRdy i = true) :
    (lsq.entries i).fenced = false ∧ lsq.fencedRdy i = true := by
  simpa [neighbourFencedRdy, vld] using neighbour

/-- What the queue holds is fenced as the `rcu` says, a fenced request is passed only as the head,
and nothing is passed or issued behind it. -/
structure Fenced (lsq : Lsq) (length passed : Nat) : Prop where
  kind : ∀ k < length, (lsq.entries (advance lsq.head k)).fenced = true →
    (lsq.entries (advance lsq.head k)).ls = true
  flagged : ∀ k < length, (lsq.entries (advance lsq.head k)).isFenceReq = true →
    (lsq.entries (advance lsq.head k)).fenced = true
  behind : ∀ k < passed, (lsq.entries (advance lsq.head k)).fenced = true → passed = 1
  pending : lsq.l1dIssVldQ = true →
    ∀ k ≤ passed, (lsq.entries (advance lsq.head k)).fenced = true → passed = 0

namespace Fenced

variable (fenced : Fenced lsq length passed) (window : lsq.Window length passed)
include fenced window

/-- A ready entry at the issue pointer, or behind one that went through, has nothing fenced before
it. -/
theorem ahead (inside : passed + (lsq.lastIssSucc input).toNat < length)
    (rdy : lsq.fencedRdy (advance lsq.head (passed + (lsq.lastIssSucc input).toNat)) = true)
    {j : Nat} (before : j < passed + (lsq.lastIssSucc input).toNat) :
    (lsq.entries (advance lsq.head j)).fenced = false := by
  rw [← Bool.not_eq_true]
  intro held
  have room := window.room
  have single := Bool.toNat_le (lsq.lastIssSucc input)
  have first : j = 0 := by
    rcases Nat.lt_or_ge j passed with earlier | later
    · have := fenced.behind j earlier held
      omega
    · have succ : lsq.lastIssSucc input = true := by
        by_contra stuck
        simp only [Bool.not_eq_true] at stuck
        rw [stuck, Bool.toNat_false] at before
        omega
      have := fenced.pending (window.succ_passed succ).2.2.1 j (by omega) held
      omega
  rw [first, advance_zero] at held
  have := (fencedRdy_advance (by omega) rdy).2 (window.occupied.head_vld.mpr (by omega)) held
  omega

/-- A new request that passes the check of its neighbour has nothing fenced before it. -/
theorem ahead_enters (last : passed + (lsq.lastIssSucc input).toNat = length)
    (taken : lsq.finalIssBypass input = true) (rdy : lsq.targetRdy input = true) {j : Nat}
    (before : j < length) : (lsq.entries (advance lsq.head j)).fenced = false := by
  have room := window.room
  have single := Bool.toNat_le (lsq.lastIssSucc input)
  obtain ⟨i, place, neighbour⟩ : ∃ i, i = advance lsq.head (length - 1) ∧
      lsq.neighbourFencedRdy i = true := by
    cases succ : lsq.lastIssSucc input with
    | true =>
      rw [succ, Bool.toNat_true] at last
      simp only [finalIssBypass, succ, if_true] at taken
      simp only [targetRdy, succ, taken, if_true, issNxtEntryBypassFencedRdy, Bool.and_eq_true]
        at rdy
      exact ⟨lsq.issued, by rw [window.issued]; congr 1; omega, rdy.2⟩
    | false =>
      rw [succ, Bool.toNat_false] at last
      simp only [finalIssBypass, succ, Bool.false_eq_true, if_false] at taken
      simp only [targetRdy, succ, taken, Bool.false_eq_true, if_false, if_true,
        issIssuedEntryBypassFencedRdy, Bool.and_eq_true] at rdy
      refine ⟨lsq.lastIssue, ?_, rdy.2⟩
      rw [lastIssue, window.issued, advance_advance,
        show passed + 7 = 8 + (length - 1) by omega, ← advance_advance, advance_full]
  have vld : (lsq.entries i).vld = true := by
    rw [place]
    exact (window.vld _ (by omega)).mpr (by omega)
  obtain ⟨plain, ready⟩ := neighbour_rdy vld neighbour
  rw [place] at plain ready
  rw [← Bool.not_eq_true]
  intro held
  rcases Nat.lt_or_ge j (length - 1) with earlier | later
  · have first : j = 0 := by
      rcases Nat.lt_or_ge j passed with behind | ahead
      · have := fenced.behind j behind held
        omega
      · omega
    rw [first, advance_zero] at held
    have := (fencedRdy_advance (by omega) ready).2 (window.occupied.head_vld.mpr (by omega)) held
    omega
  · obtain rfl : j = length - 1 := by omega
    rw [plain] at held
    cases held

variable (paced : Paced lsq input length passed)
include paced

omit fenced in
/-- A load that is issued passes the fence check. -/
theorem load_rdy (load : lsq.ldIssVld input = true) (calm : lsq.replayVld input = false) :
    lsq.targetRdy input = true ∧ (lsq.finalIssBypass input = true → input.request.ls = false) := by
  simp only [ldIssVld, calm, Bool.false_eq_true, if_false] at load
  cases taken : lsq.finalIssBypass input with
  | true =>
    have last := (window.bypass_enters paced taken).1
    cases succ : lsq.lastIssSucc input with
    | false =>
      rw [succ, Bool.toNat_false] at last
      simp only [finalIssBypass, succ, Bool.false_eq_true, if_false] at taken
      simp only [succ, taken, Bool.not_false, if_true, Bool.true_and, Bool.or_eq_true,
        Bool.and_eq_true, Bool.not_eq_true'] at load
      rcases load with ⟨⟨⟨⟨-, vld⟩, exec⟩, -⟩, -⟩ | ⟨ls, rdy⟩
      · have := (window.issued_idle vld exec).1
        omega
      · simp [targetRdy, succ, taken, rdy, ls]
    | true =>
      rw [succ, Bool.toNat_true] at last
      simp only [finalIssBypass, succ, if_true] at taken
      simp only [succ, taken, Bool.not_true, Bool.false_eq_true, if_false, Bool.true_and,
        Bool.or_eq_true, Bool.and_eq_true, Bool.not_eq_true'] at load
      rcases load with ⟨⟨⟨⟨-, vld⟩, -⟩, exec⟩, -⟩ | ⟨ls, rdy⟩
      · have := window.nxt_idle (window.succ_passed succ).1 vld exec
        omega
      · simp [targetRdy, succ, taken, rdy, ls]
  | false =>
    refine ⟨?_, fun entering => by cases entering⟩
    cases succ : lsq.lastIssSucc input with
    | false =>
      simp only [finalIssBypass, succ, Bool.false_eq_true, if_false] at taken
      simp only [succ, taken, Bool.not_false, if_true, Bool.false_and, Bool.or_false,
        Bool.and_eq_true, Bool.not_eq_true'] at load
      simp [targetRdy, succ, taken, load.1.2]
    | true =>
      simp only [finalIssBypass, succ, if_true] at taken
      simp only [succ, taken, Bool.not_true, Bool.false_eq_true, if_false, Bool.false_and,
        Bool.or_false, Bool.and_eq_true, Bool.not_eq_true'] at load
      simp [targetRdy, succ, taken, load.1.1.2]

/-- So does a lookup, where the lookups of the entry at the issue pointer do. -/
theorem lookup_rdy (lookup : lsq.dtlbIssVld input = true) (calm : lsq.replayVld input = false)
    (guarded : Guarded lsq input) :
    lsq.targetRdy input = true ∧
      (lsq.finalIssBypass input = true → lsq.bypassLookup input = true) := by
  have room := window.room
  have inside := window.inside
  simp only [dtlbIssVld, calm, Bool.or_false] at lookup
  rw [Bool.or_assoc, Bool.or_eq_true] at lookup
  rcases lookup with own | pointer
  · rw [Bool.or_eq_true] at own
    cases succ : lsq.lastIssSucc input with
    | false =>
      simp only [succ, Bool.false_and, Bool.false_eq_true, or_false, Bool.and_eq_true] at own
      obtain ⟨⟨entering, rdy⟩, plain⟩ := own
      simp [targetRdy, bypassLookup, finalIssBypass, succ, entering, rdy, plain]
    | true =>
      simp only [succ, Bool.true_and] at own
      rcases own with early | own
      · -- the queue is full and its head, a flushing fence, is passed only now
        simp only [Bool.and_eq_true, issIssuedEntryBypassVld, issIssuedEntryBypassFencedRdy,
          beq_iff_eq] at early
        obtain ⟨⟨⟨⟨same, enque⟩, -⟩, -, neighbour⟩, -⟩ := early
        have behind := (window.succ_passed succ).1
        rw [window.tail, window.issued, advance_eq_iff lsq.head room (by omega)] at same
        have ends : length = 8 ∧ passed = 0 := by omega
        obtain ⟨rfl, rfl⟩ := ends
        have deque := ((window.occupied.enque_room enque).resolve_left (by omega)).2
        have flushing : lsq.flushing = true := by
          rcases (window.deque_passed deque).2 with behind | ⟨-, flushing⟩
          · omega
          · exact flushing
        simp only [LsqEntry.isFlush, Bool.and_eq_true, Lsq.flushing, issuedEntry,
          window.issued] at flushing
        have held := fenced.flagged 0 (by omega) flushing.2.1
        have vld := (window.vld 7 (by omega)).mpr (by omega)
        rw [lastIssue, window.issued, advance_zero] at neighbour
        rw [advance_zero] at held
        have := (fencedRdy_advance (by omega) (neighbour_rdy vld neighbour).2).2
          (window.occupied.head_vld.mpr (by omega)) held
        omega
      · cases entering : lsq.issNxtEntryBypassVld input with
        | true =>
          simp only [entering, if_true] at own
          simp [targetRdy, bypassLookup, finalIssBypass, succ, entering, own]
        | false =>
          simp only [entering, Bool.false_eq_true, if_false, Bool.and_eq_true] at own
          simp [targetRdy, bypassLookup, finalIssBypass, succ, entering, own.1.1.1]
  · have rdy := guarded.pointer pointer calm
    refine ⟨rdy, fun taken => ?_⟩
    cases succ : lsq.lastIssSucc input with
    | true =>
      simp only [finalIssBypass, succ, if_true] at taken
      simp only [targetRdy, succ, taken, if_true] at rdy
      simp [bypassLookup, succ, taken, rdy]
    | false =>
      have last := (window.bypass_enters paced taken).1
      rw [succ, Bool.toNat_false] at last
      obtain ⟨vld, idle⟩ : lsq.issuedEntry.vld = true ∧ lsq.issuedEntry.exec = false := by
        simp only [Bool.or_eq_true, Bool.and_eq_true, Bool.not_eq_true'] at pointer
        rcases pointer with load | store
        · exact ⟨load.1.1.1.2, load.1.1.2⟩
        · exact ⟨store.1.1.1.1.1.2, store.1.1.1.1.2⟩
      have := (window.issued_idle vld idle).1
      omega

/-- What is issued in a cycle keeps the order of the fences. -/
theorem ordered (guarded : Guarded lsq input)
    (stores : input.vld = true → input.request.fenced = true → input.request.ls = true) :
    FenceOrdered lsq input := by
  have room := window.room
  obtain ⟨-, -, -, within, -⟩ := window.step_counts paced
  have target := window.target_eq paced
  have checked (calm : lsq.replayVld input = false) (issues : lsq.targetIssues input = true) :
      lsq.targetRdy input = true ∧ (lsq.finalIssBypass input = true →
        input.request.ls = false ∨ lsq.bypassLookup input = true) := by
    simp only [targetIssues, ldReqVld, Bool.or_eq_true, Bool.and_eq_true] at issues
    rcases issues with ⟨load, -⟩ | lookup
    · obtain ⟨rdy, ls⟩ := load_rdy window paced load calm
      exact ⟨rdy, fun taken => .inl (ls taken)⟩
    · obtain ⟨rdy, own⟩ := fenced.lookup_rdy window paced lookup calm guarded
      exact ⟨rdy, fun taken => .inr (own taken)⟩
  constructor
  · intro k below issues vld
    have inside := (window.vld k below).mp vld
    rcases Nat.eq_zero_or_pos k with rfl | later
    · refine ⟨fun _ => rfl, ?_⟩
      rintro ⟨j, before, -⟩
      exact absurd before (Nat.not_lt_zero j)
    simp only [Lsq.issues, Bool.or_eq_true, Bool.and_eq_true, Bool.not_eq_true', beq_iff_eq]
      at issues
    rcases issues with ⟨⟨issues, queued⟩, same⟩ | ⟨issues, same⟩
    · cases replay : lsq.replayVld input with
      | true =>
        -- a load that is sent back was passed
        obtain ⟨positive, place, -, -, ls⟩ := paced.replay replay
        have same' : lsq.ldIssuedQq = advance lsq.head k := by
          simpa [Lsq.target, replay] using same
        have position := advance_injective lsq.head (by omega) below (place.symm.trans same')
        refine ⟨fun held => ?_, ?_⟩
        · rw [same', fenced.kind k inside held] at ls
          cases ls
        · rintro ⟨j, before, -, held⟩
          have := fenced.behind j (by omega) held
          omega
      | false =>
        have rdy := (checked replay issues).1
        simp only [targetEnters, replay, Bool.not_false, Bool.true_and] at queued
        rw [replay, Bool.toNat_false, Nat.sub_zero, same,
          advance_eq_iff lsq.head (by omega) (by omega)] at target
        obtain rfl : k = passed + (lsq.lastIssSucc input).toNat := by omega
        have own : lsq.fencedRdy
            (advance lsq.head (passed + (lsq.lastIssSucc input).toNat)) = true := by
          cases succ : lsq.lastIssSucc input with
          | true =>
            simp only [finalIssBypass, succ, if_true] at queued
            simpa [targetRdy, succ, queued, issueNxt, window.issued] using rdy
          | false =>
            simp only [finalIssBypass, succ, Bool.false_eq_true, if_false] at queued
            simpa [targetRdy, succ, queued, window.issued] using rdy
        refine ⟨(fencedRdy_advance below own).1, ?_⟩
        rintro ⟨j, before, -, held⟩
        rw [fenced.ahead window inside own before] at held
        cases held
    · have issue : lsq.stIssVld input = true := by
        simp only [stReqVld, tlbFlushVld, fenceiFlushVld, busCtrlIssVld, paced.memory,
          Bool.false_and, Bool.false_eq_true, or_false, Bool.and_eq_true] at issues
        rcases issues with (⟨⟨⟨issue, -⟩, -⟩, -⟩ | ⟨issue, -⟩) | ⟨issue, -⟩ <;> exact issue
      obtain ⟨⟨behind, -⟩, succ, -, -⟩ := window.issue_passed issue
      obtain rfl : k = passed := (window.at_issued inside behind).mp same.symm
      have rdy : lsq.fencedRdy (advance lsq.head k) = true := by
        simp only [stIssVld, Bool.and_eq_true] at issue
        rw [← same]
        exact issue.1.1.1.2
      refine ⟨(fencedRdy_advance below rdy).1, ?_⟩
      rintro ⟨j, before, -, held⟩
      have still : k + (lsq.lastIssSucc input).toNat = k := by simp [succ]
      have plain := fenced.ahead window (still.symm ▸ inside) (still.symm ▸ rdy) (still.symm ▸ before)
      rw [plain] at held
      cases held
  · intro issues enters
    simp only [targetEnters, Bool.and_eq_true, Bool.not_eq_true'] at enters
    obtain ⟨calm, taken⟩ := enters
    obtain ⟨rdy, own⟩ := checked calm issues
    obtain ⟨last, enque⟩ := window.bypass_enters paced taken
    have given : input.vld = true := by
      simp only [Lsq.enque, Bool.and_eq_true] at enque
      exact enque.1
    refine ⟨fun held => ?_, ?_⟩
    · rcases own taken with load | lookup
      · rw [stores given held] at load
        cases load
      · exact guarded.full lookup calm held
    · rintro ⟨j, before, vld, held⟩
      rw [fenced.ahead_enters window last taken rdy ((window.vld j before).mp vld)] at held
      cases held

section Step

variable {counter : Counter2} (running : input.flush = false)
include running

omit fenced paced in
/-- The entries after a step are the ones before it, or the request that entered. -/
theorem step_entry {k : Nat} (inside : k + (lsq.deque input).toNat <
      length + (lsq.enque input).toNat) (below : k < 8) :
    ∃ entry, (lsq.step counter input).entries (advance (lsq.step counter input).head k) = entry ∧
      ((k + (lsq.deque input).toNat < length ∧
          entry.fenced = (lsq.entries (advance lsq.head (k + (lsq.deque input).toNat))).fenced ∧
          entry.ls = (lsq.entries (advance lsq.head (k + (lsq.deque input).toNat))).ls ∧
          entry.isFenceReq =
            (lsq.entries (advance lsq.head (k + (lsq.deque input).toNat))).isFenceReq) ∨
        (k + (lsq.deque input).toNat = length ∧ lsq.enque input = true ∧
          entry.fenced = input.request.fenced ∧ entry.ls = input.request.ls ∧
          entry.isFenceReq = input.request.isFenceReq)) := by
  refine ⟨_, rfl, ?_⟩
  rw [step_at running]
  cases init : (lsq.entryPorts input (advance lsq.head (k + (lsq.deque input).toNat))).init with
  | true =>
    obtain ⟨enque, last⟩ := (window.occupied.init_iff below).mp init
    rw [LsqEntry.step_init init]
    exact .inr ⟨last, enque, rfl, rfl, rfl⟩
  | false =>
    have other := (window.occupied.init_iff below).not.mp (Bool.eq_false_iff.mp init)
    rw [LsqEntry.step_kept init]
    refine .inl ⟨?_, rfl, rfl, rfl⟩
    cases enque : lsq.enque input <;>
      simp only [enque, Bool.toNat_true, Bool.toNat_false, true_and, Nat.add_zero] at inside other
    · exact inside
    · omega

omit running in
/-- A load is issued with nothing fenced up to it. -/
theorem load_first (load : lsq.ldIssVld input = true) :
    ∀ j < length, j + (lsq.replayVld input).toNat ≤ passed + (lsq.lastIssSucc input).toNat →
      (lsq.entries (advance lsq.head j)).fenced = false := by
  intro j inside near
  have apart := (window.step_counts paced).2.2.2.2
  obtain ⟨k, moved, place, -, kind⟩ := window.load_target paced load
  rw [← Bool.not_eq_true]
  intro held
  have store := fenced.kind j inside held
  cases replay : lsq.replayVld input with
  | true =>
    have stuck : lsq.lastIssSucc input = false := by
      rw [← Bool.not_eq_true]
      intro succ
      rw [apart succ] at replay
      cases replay
    rw [replay, stuck, Bool.toNat_true, Bool.toNat_false] at near moved
    have := fenced.behind j (by omega) held
    obtain rfl : j = k := by omega
    rcases kind with ⟨-, ls, -⟩ | ⟨-, -, -, calm, -⟩
    · rw [place, store] at ls
      cases ls
    · rw [replay] at calm
      cases calm
  | false =>
    rw [replay, Bool.toNat_false, Nat.add_zero] at near moved
    have rdy := (load_rdy window paced load replay).1
    rcases kind with ⟨behind, ls, source⟩ | ⟨last, -, -, -, taken⟩
    · obtain ⟨own, -, -⟩ := source.resolve_left (by simp [replay])
      rcases Nat.lt_or_ge j k with earlier | later
      · have ready : lsq.fencedRdy
            (advance lsq.head (passed + (lsq.lastIssSucc input).toNat)) = true := by
          cases succ : lsq.lastIssSucc input with
          | true =>
            simp only [finalIssBypass, succ, if_true] at own
            simpa [targetRdy, succ, own, issueNxt, window.issued] using rdy
          | false =>
            simp only [finalIssBypass, succ, Bool.false_eq_true, if_false] at own
            simpa [targetRdy, succ, own, window.issued] using rdy
        rw [fenced.ahead window (moved ▸ behind) ready (moved ▸ earlier)] at held
        cases held
      · obtain rfl : j = k := by omega
        rw [place, store] at ls
        cases ls
    · rw [fenced.ahead_enters window (moved.symm.trans last) taken rdy inside] at held
      cases held

/-- The next cycle finds the fences in the same order. -/
theorem step {length' passed' : Nat} (window' : (lsq.step counter input).Window length' passed')
    (lengths : length' + (lsq.deque input).toNat = length + (lsq.enque input).toNat)
    (counts : passed' + (lsq.deque input).toNat + (lsq.replayVld input).toNat =
      passed + (lsq.lastIssSucc input).toNat)
    (stores : input.vld = true → input.request.fenced = true → input.request.ls = true)
    (flagged : input.vld = true → input.request.isFenceReq = true →
      input.request.fenced = true) :
    Fenced (lsq.step counter input) length' passed' := by
  have room := window.room
  have room' := window'.room
  have inside := window'.inside
  obtain ⟨-, -, -, within, apart⟩ := window.step_counts paced
  have given (enque : lsq.enque input = true) : input.vld = true := by
    simp only [Lsq.enque, Bool.and_eq_true] at enque
    exact enque.1
  constructor
  · intro k below held
    obtain ⟨entry, same, ⟨old, fence, ls, -⟩ | ⟨-, enque, fence, ls, -⟩⟩ :=
      @step_entry lsq input length passed window counter running k (by omega) (by omega)
    · rw [same] at held ⊢
      rw [ls]
      exact fenced.kind _ old (fence ▸ held)
    · rw [same] at held ⊢
      rw [ls]
      exact stores (given enque) (fence ▸ held)
  · intro k below held
    obtain ⟨entry, same, ⟨old, fence, -, kind⟩ | ⟨-, enque, fence, -, kind⟩⟩ :=
      @step_entry lsq input length passed window counter running k (by omega) (by omega)
    · rw [same] at held ⊢
      rw [fence]
      exact fenced.flagged _ old (kind ▸ held)
    · rw [same] at held ⊢
      rw [fence]
      exact flagged (given enque) (kind ▸ held)
  · intro k below held
    obtain ⟨entry, same, ⟨old, fence, -, -⟩ | ⟨last, -, -, -, -⟩⟩ :=
      @step_entry lsq input length passed window counter running k (by omega) (by omega)
    · rw [same, fence] at held
      rcases Nat.lt_or_ge (k + (lsq.deque input).toNat) passed with earlier | later
      · have alone := fenced.behind _ earlier held
        have stuck : lsq.lastIssSucc input = false := by
          rw [← Bool.not_eq_true]
          intro succ
          have := fenced.pending (window.succ_passed succ).2.2.1 _ (Nat.le_of_lt earlier) held
          omega
        rw [stuck, Bool.toNat_false] at counts
        omega
      · have succ : lsq.lastIssSucc input = true := by
          by_contra stuck
          simp only [Bool.not_eq_true] at stuck
          rw [stuck, Bool.toNat_false] at counts
          omega
        rw [succ, Bool.toNat_true] at counts
        have := fenced.pending (window.succ_passed succ).2.2.1 _ (by omega) held
        omega
    · omega
  · intro issued k near held
    have below := (window'.pending issued).1
    rw [show (lsq.step counter input).l1dIssVldQ = lsq.l1dIssVld input by simp [Lsq.step, running],
      l1dIssVld, Bool.or_eq_true] at issued
    obtain ⟨entry, same, source⟩ :=
      @step_entry lsq input length passed window counter running k (by omega) (by omega)
    rw [same] at held
    rcases issued with load | issue
    · rcases source with ⟨old, fence, -, -⟩ | ⟨last, enque, fence, -, -⟩
      · rw [fence, fenced.load_first window paced load _ old (by omega)] at held
        cases held
      · obtain ⟨target, moved, -, -, ⟨behind, -, -⟩ | ⟨-, -, ls, -⟩⟩ :=
          window.load_target paced load
        · omega
        · rw [stores (given enque) (fence ▸ held)] at ls
          cases ls
    · obtain ⟨⟨behind, -⟩, succ, replay, -⟩ := window.issue_passed issue
      rw [succ, replay, Bool.toNat_false, Nat.add_zero, Nat.add_zero] at counts
      rcases source with ⟨-, fence, -, -⟩ | ⟨last, -, -, -, -⟩
      · rw [fence] at held
        have rdy : lsq.fencedRdy (advance lsq.head passed) = true := by
          simp only [stIssVld, Bool.and_eq_true] at issue
          rw [← window.issued]
          exact issue.1.1.1.2
        rcases Nat.lt_or_ge (k + (lsq.deque input).toNat) passed with earlier | later
        · have still : passed + (lsq.lastIssSucc input).toNat = passed := by simp [succ]
          have plain :=
            fenced.ahead window (still.symm ▸ behind) (still.symm ▸ rdy) (still.symm ▸ earlier)
          rw [plain] at held
          cases held
        · obtain here : k + (lsq.deque input).toNat = passed := by omega
          have := (fencedRdy_advance (by omega) rdy).1 (here ▸ held)
          omega
      · omega

end Step

end Fenced

theorem reset_fenced : Fenced reset 0 0 where
  kind := fun k below => absurd below (Nat.not_lt_zero k)
  flagged := fun k below => absurd below (Nat.not_lt_zero k)
  behind := fun k below => absurd below (Nat.not_lt_zero k)
  pending := fun issued => Bool.noConfusion issued

end Lsq

namespace Memory

/-- The `rcu` sends fenced requests as stores, and every fence as fenced. -/
def Fences (_ : Memory) (input : MemoryInput) : Prop :=
  input.vld = true → (input.request.fenced = true → input.request.ls = true) ∧
    (input.request.isFenceReq = true → input.request.fenced = true)

def FenceOrdered (memory : Memory) (input : MemoryInput) : Prop :=
  memory.lsq.FenceOrdered (memory.lsqInput input)

def Guarded (memory : Memory) (input : MemoryInput) : Prop :=
  memory.lsq.Guarded (memory.lsqInput input)

theorem run_fenced (counter : Counter2) (inputs : List MemoryInput)
    (replays : (machine counter).Obeys Replays inputs)
    (fences : (machine counter).Obeys Fences inputs)
    (steady : (machine counter).Obeys Steady inputs) :
    ∃ length passed, Aligned ((machine counter).run inputs) length passed ∧
      ((machine counter).run inputs).lsq.Fenced length passed := by
  induction inputs using List.reverseRecOn with
  | nil => exact ⟨0, 0, reset_aligned, Lsq.reset_fenced⟩
  | append_singleton inputs input ih =>
    obtain ⟨replays, genuine⟩ := Synchronous.obeys_snoc.mp replays
    obtain ⟨fences, sent⟩ := Synchronous.obeys_snoc.mp fences
    obtain ⟨steady, kept⟩ := Synchronous.obeys_snoc.mp steady
    obtain ⟨length, passed, aligned, fenced⟩ := ih replays fences steady
    rw [Synchronous.run_snoc]
    cases flush : input.flush with
    | true =>
      refine ⟨0, 0, aligned_flush aligned flush, ?_⟩
      have empty : ((machine counter).step ((machine counter).run inputs) input).lsq = Lsq.reset :=
        Lsq.step_flush flush
      rw [empty]
      exact Lsq.reset_fenced
    | false =>
      obtain ⟨length', passed', aligned', lengths, counts⟩ : ∃ length' passed',
          Aligned ((machine counter).step ((machine counter).run inputs) input) length' passed' ∧
            _ ∧ _ :=
        aligned.step genuine kept flush
      exact ⟨length', passed', aligned',
        fenced.step aligned.window (aligned.paced genuine kept) flush aligned'.window lengths counts
          (fun vld => (sent vld).1) (fun vld => (sent vld).2)⟩

/-- In a run whose replays and lookups keep to the fences, so does everything that is issued. -/
theorem lsq_fences_ordered (counter : Counter2) (inputs : List MemoryInput)
    (replays : (machine counter).Obeys Replays inputs)
    (fences : (machine counter).Obeys Fences inputs)
    (steady : (machine counter).Obeys Steady inputs)
    (guarded : (machine counter).Obeys Guarded inputs) :
    (machine counter).Obeys FenceOrdered inputs := by
  intro past input rest split
  obtain ⟨length, passed, aligned, fenced⟩ := run_fenced counter past
    (Synchronous.obeys_prefix replays split) (Synchronous.obeys_prefix fences split)
    (Synchronous.obeys_prefix steady split)
  exact fenced.ordered aligned.window
    (aligned.paced (replays past input rest split) (steady past input rest split))
    (guarded past input rest split) fun vld => (fences past input rest split vld).1

instance (lsq : Lsq) (k : Nat) : Decidable (lsq.FencedBefore k) :=
  inferInstanceAs (Decidable (∃ j < k, _))

instance (memory : Memory) (input : MemoryInput) : Decidable (Fences memory input) :=
  inferInstanceAs (Decidable (_ → _))

instance (memory : Memory) (input : MemoryInput) : Decidable (Guarded memory input) :=
  let lsq := memory.lsq
  let ports := memory.lsqInput input
  decidable_of_iff
    ((lsq.pointerLookup ports = true → lsq.replayVld ports = false → lsq.targetRdy ports = true) ∧
      (lsq.bypassLookup ports = true → lsq.replayVld ports = false →
        input.request.fenced = true → lsq.headEntry.vld = false))
    ⟨fun ⟨pointer, full⟩ => ⟨pointer, full⟩, fun ⟨pointer, full⟩ => ⟨pointer, full⟩⟩

instance (memory : Memory) (input : MemoryInput) : Decidable (FenceOrdered memory input) :=
  let lsq := memory.lsq
  let ports := memory.lsqInput input
  decidable_of_iff
    ((∀ k < 8, lsq.issues ports (advance lsq.head k) = true →
        (lsq.entries (advance lsq.head k)).vld = true →
          ((lsq.entries (advance lsq.head k)).fenced = true → k = 0) ∧ ¬lsq.FencedBefore k) ∧
      (lsq.targetIssues ports = true → lsq.targetEnters ports = true →
        (input.request.fenced = true → lsq.headEntry.vld = false) ∧ ¬lsq.FencedBefore 8))
    ⟨fun ⟨queued, entering⟩ => ⟨queued, entering⟩, fun ⟨queued, entering⟩ => ⟨queued, entering⟩⟩

theorem lsq_fences_ordered_fence :
    (machine Counter2.standard).Obeys FenceOrdered (fenceI true) :=
  lsq_fences_ordered Counter2.standard (fenceI true) (by decide +kernel) (by decide +kernel)
    (by decide +kernel) (by decide +kernel)

/-- A store behind an `SFENCE.VMA` that is under way. -/
def storeBehindSfence : List MemoryInput :=
  [ { MemoryInput.quiet with
      vld := true, request := ⟨true, 0, Stu.sfenceVma, true, 0, 0, 0, 0, 0⟩, wakeup := true },
    { MemoryInput.quiet with vld := true, request := ⟨true, 0, Stu.sd, false, 0x2000, 0, 1, 0, 7⟩ },
    MemoryInput.quiet, MemoryInput.quiet ]

/-- The store is looked up before the TLBs have granted the fence its flush. -/
theorem lsq_fences_passed :
    (machine Counter2.standard).Obeys Replays storeBehindSfence ∧
      (machine Counter2.standard).Obeys Fences storeBehindSfence ∧
      (machine Counter2.standard).Obeys Steady storeBehindSfence ∧
      ¬(machine Counter2.standard).Obeys FenceOrdered storeBehindSfence := by
  refine ⟨by decide +kernel, by decide +kernel, by decide +kernel, by decide +kernel⟩

end Memory

end GreenRio
