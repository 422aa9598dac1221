import GreenRio.Lsq

set_option autoImplicit false

namespace GreenRio

open Circular

namespace LsqEntry

variable {entry : LsqEntry} {ports : LsqEntryPorts}

/-- A new entry holds its request, translated and executed so far not at all. -/
theorem step_init (init : ports.init = true) :
    entry.step ports =
      { vld := true
        ls := ports.request.ls
        opcode := ports.request.opcode
        fenced := ports.request.fenced
        tag := ports.request.vtag.setWidth 44
        index := ports.request.index
        offset := ports.request.offset
        robIndex := ports.request.robIndex
        virt := true
        awake := ports.awake
        exec := !ports.replay && ports.exec
        succ := false
        rdAddr := ports.request.rdAddr
        data := ports.request.data
        exceptionVld := ports.exceptionVld
        ecause := ports.ecause } := by
  simp [step, init]

/-- Any other entry keeps what it was created with. -/
theorem step_kept (kept : ports.init = false) :
    entry.step ports =
      { entry with
        vld := entry.vld && !ports.invld
        tag := if ports.dtlbVld then ports.dtlbTag else entry.tag
        virt := if ports.dtlbVld then ports.dtlbVirt else entry.virt
        awake := entry.awake || ports.awake
        exec := !ports.replay && (entry.exec || ports.exec)
        succ := entry.succ || ports.succ
        exceptionVld := entry.exceptionVld || (ports.dtlbVld && ports.dtlbExceptionVld)
        ecause :=
          if ports.dtlbVld && ports.dtlbExceptionVld then ports.dtlbEcause else entry.ecause } := by
  cases awake : ports.awake <;> cases exec : ports.exec <;> cases replay : ports.replay <;>
    cases succ : ports.succ <;> cases invld : ports.invld <;>
    cases vld : ports.dtlbVld <;> cases fault : ports.dtlbExceptionVld <;>
    simp_all [step]

end LsqEntry

namespace Lsq

/-- A flushing fence was issued in the last cycle and is about to be passed. -/
def flushing (lsq : Lsq) : Bool :=
  lsq.l1dStIssVldQ && lsq.l1dIssHskQ && lsq.issuedEntry.isFlush

/-- The queue holds `length` entries from the head on, of which the first `passed` are behind the
issue pointer and have been executed. -/
structure Window (lsq : Lsq) (length passed : Nat) : Prop where
  room : length ≤ 8
  tail : lsq.tail = advance lsq.head length
  vld : ∀ k < 8, ((lsq.entries (advance lsq.head k)).vld = true ↔ k < length)
  inside : passed ≤ length
  issued : lsq.issued = advance lsq.head passed
  exec : ∀ k < length, ((lsq.entries (advance lsq.head k)).exec = true ↔
    k < passed ∨ (k = passed ∧ lsq.flushing = true))
  pending : lsq.l1dIssVldQ = true →
    passed < length ∧ (lsq.issuedEntry.ls = true → lsq.issuedEntry.awake = true)
  store : lsq.l1dStIssVldQ = true → lsq.l1dIssVldQ = true
  memory : lsq.busCtrlIssVldQ = false

/-- What a step of the pointers relies on: no access is classified as IO, a replay concerns the
load right before the issue pointer, which stays in the queue, and a flushing fence is issued only
to a cache that could take a store. -/
structure Paced (lsq : Lsq) (input : LsqInput) (length passed : Nat) : Prop where
  memory : input.pmaIsIo = false
  replay : lsq.replayVld input = true →
    0 < passed ∧ lsq.ldIssuedQq = advance lsq.head (passed - 1) ∧ lsq.flushing = false ∧
      (lsq.deque input = true → 1 < passed) ∧ (lsq.entries lsq.ldIssuedQq).ls = false
  flush : input.flush = false → lsq.stIssVld input = true → lsq.issuedEntry.isFlush = true →
    input.stReqRdy = true

variable {lsq : Lsq} {input : LsqInput} {counter : Counter2} {length passed : Nat}

theorem reset_window : Window reset 0 0 where
  room := Nat.zero_le _
  tail := rfl
  vld := by simp [reset, LsqEntry.clear]
  inside := Nat.le_refl _
  issued := rfl
  exec := by simp
  pending := by simp [reset]
  store := by simp [reset]
  memory := rfl

theorem step_flush (flush : input.flush = true) : lsq.step counter input = reset := by
  simp [step, flush]

@[simp] theorem step_entries (running : input.flush = false) (i : LsqIndex) :
    (lsq.step counter input).entries i = (lsq.entries i).step (lsq.entryPorts input i) := by
  simp [step, running]

theorem advance_full (start : LsqIndex) : advance start 8 = start :=
  Fin.ext (by simp [advance])

/-- Positions up to the size of the queue name the same entry only at its two ends. -/
theorem advance_eq_iff (start : LsqIndex) {a b : Nat} (left : a ≤ 8) (right : b ≤ 8) :
    advance start a = advance start b ↔ a = b ∨ (a = 0 ∧ b = 8) ∨ (a = 8 ∧ b = 0) := by
  constructor
  · intro same
    rcases Nat.lt_or_ge a 8 with below | full <;> rcases Nat.lt_or_ge b 8 with below' | full'
    · exact .inl (advance_injective start below below' same)
    · obtain rfl : b = 8 := by omega
      rw [advance_full] at same
      have := advance_injective start below (by omega) (same.trans (advance_zero start).symm)
      omega
    · obtain rfl : a = 8 := by omega
      rw [advance_full] at same
      have := advance_injective start (by omega) below' ((advance_zero start).trans same)
      omega
    · omega
  · rintro (rfl | ⟨rfl, rfl⟩ | ⟨rfl, rfl⟩)
    · rfl
    · rw [advance_full, advance_zero]
    · rw [advance_full, advance_zero]

/-- What was issued is executed when it went through, a flushing fence already when it is
issued. -/
theorem execVld_iff (i : LsqIndex) :
    lsq.execVld input i = true ↔ i = lsq.issued ∧
      ((lsq.lastIssSucc input = true ∧ (lsq.entries i).isFlush = false) ∨
        (lsq.stIssVld input = true ∧ (lsq.entries i).isFlush = true)) := by
  by_cases same : i = lsq.issued
  · cases succ : lsq.lastIssSucc input <;> cases issue : lsq.stIssVld input <;>
      cases fence : (lsq.entries i).isFenceReq <;>
      cases other : (lsq.entries i).opcode == Stu.fence <;>
      simp_all [execVld, LsqEntry.isFlush]
  · simp [execVld, same]

/-- The queue holds `length` entries from the head on. -/
structure Occupied (lsq : Lsq) (length : Nat) : Prop where
  room : length ≤ 8
  tail : lsq.tail = advance lsq.head length
  vld : ∀ k < 8, ((lsq.entries (advance lsq.head k)).vld = true ↔ k < length)

theorem Window.occupied (window : Window lsq length passed) : Occupied lsq length :=
  ⟨window.room, window.tail, window.vld⟩

theorem reset_occupied : Occupied reset 0 := reset_window.occupied

theorem step_head (running : input.flush = false) :
    (lsq.step counter input).head = advance lsq.head (lsq.deque input).toNat := by
  cases deque : lsq.deque input <;> simp [step, running, deque]

/-- The entries after a step, counted from the new head. -/
theorem step_at (running : input.flush = false) (k : Nat) :
    (lsq.step counter input).entries (advance (lsq.step counter input).head k) =
      (lsq.entries (advance lsq.head (k + (lsq.deque input).toNat))).step
        (lsq.entryPorts input (advance lsq.head (k + (lsq.deque input).toNat))) := by
  rw [step_entries running, step_head running, advance_advance, Nat.add_comm]

theorem invld_iff {k : Nat} (below : k < 8) :
    (lsq.entryPorts input (advance lsq.head (k + (lsq.deque input).toNat))).invld = true ↔
      lsq.deque input = true ∧ k = 7 := by
  simp only [entryPorts, Bool.and_eq_true, beq_iff_eq]
  refine and_congr_right fun deque => ?_
  rw [deque, Bool.toNat_true]
  have ends := advance_eq_iff lsq.head (a := k + 1) (b := 0) (by omega) (by omega)
  rw [advance_zero] at ends
  rw [ends]
  omega

namespace Occupied

variable (occupied : Occupied lsq length)
include occupied

theorem head_vld : lsq.headEntry.vld = true ↔ 0 < length := by
  simpa [headEntry] using occupied.vld 0 (by omega)

theorem tail_vld : (lsq.entries lsq.tail).vld = true ↔ length = 8 := by
  have room := occupied.room
  rw [occupied.tail]
  rcases Nat.lt_or_ge length 8 with partly | full
  · rw [occupied.vld length partly]
    omega
  · obtain rfl : length = 8 := by omega
    rw [advance_full]
    simpa using occupied.vld 0 (by omega)

theorem head_eq_tail : lsq.head = lsq.tail ↔ length = 0 ∨ length = 8 := by
  have room := occupied.room
  have ends := advance_eq_iff lsq.head (Nat.zero_le 8) room
  rw [advance_zero, ← occupied.tail] at ends
  rw [ends]
  omega

theorem deque_inside (deque : lsq.deque input = true) : 0 < length := by
  simp only [Lsq.deque, Bool.and_eq_true] at deque
  exact occupied.head_vld.mp deque.1.1.1

/-- An entry is added only where there is room, or where one leaves. -/
theorem enque_room (enque : lsq.enque input = true) :
    length < 8 ∨ (length = 8 ∧ lsq.deque input = true) := by
  simp only [Lsq.enque, wbEnqueBypass, Bool.and_eq_true, Bool.or_eq_true, Bool.not_eq_true',
    beq_iff_eq] at enque
  have room := occupied.room
  rcases enque.2 with free | ⟨same, deque⟩
  · have := occupied.tail_vld.not.mp (by simp [free])
    omega
  · rcases occupied.head_eq_tail.mp same with empty | full
    · exact .inl (by omega)
    · exact .inr ⟨full, deque⟩

/-- The head and the tail move within the queue. -/
theorem step_counts :
    (lsq.deque input).toNat ≤ length ∧
      length + (lsq.enque input).toNat ≤ 8 + (lsq.deque input).toNat := by
  have room := occupied.room
  have leaves : lsq.deque input = true → 0 < length := occupied.deque_inside
  have enters : lsq.enque input = true → length < 8 ∨ (length = 8 ∧ lsq.deque input = true) :=
    occupied.enque_room
  cases hd : lsq.deque input <;> cases he : lsq.enque input <;>
    simp only [hd, he, Bool.toNat_true, Bool.toNat_false, forall_true_left, and_true, and_false,
      or_false, Bool.false_eq_true, IsEmpty.forall_iff] at leaves enters ⊢ <;> omega

/-- Behind an entry that leaves, positions count from its successor. -/
theorem init_iff {k : Nat} (below : k < 8) :
    (lsq.entryPorts input (advance lsq.head (k + (lsq.deque input).toNat))).init = true ↔
      lsq.enque input = true ∧ k + (lsq.deque input).toNat = length := by
  have room := occupied.room
  have single := Bool.toNat_le (lsq.deque input)
  simp only [entryPorts, Bool.and_eq_true, beq_iff_eq]
  refine and_congr_right fun enque => ?_
  rw [occupied.tail, advance_eq_iff lsq.head (by omega) room]
  have entered := occupied.enque_room enque
  cases deque : lsq.deque input with
  | false =>
    simp only [deque, Bool.false_eq_true, and_false, or_false, Bool.toNat_false] at entered ⊢
    omega
  | true =>
    have := occupied.deque_inside deque
    simp only [Bool.toNat_true]
    omega

variable (running : input.flush = false)
include running

theorem step_tail :
    (lsq.step counter input).tail = advance lsq.head (length + (lsq.enque input).toNat) := by
  cases enque : lsq.enque input <;> simp [Lsq.step, running, enque, occupied.tail]

theorem step_vld {k : Nat} (below : k < 8) :
    ((lsq.step counter input).entries (advance (lsq.step counter input).head k)).vld = true ↔
      k + (lsq.deque input).toNat < length + (lsq.enque input).toNat := by
  have room := occupied.room
  have counts := @step_counts lsq input length occupied
  rw [step_at running]
  cases init : (lsq.entryPorts input (advance lsq.head (k + (lsq.deque input).toNat))).init with
  | true =>
    obtain ⟨enque, last⟩ := (occupied.init_iff below).mp init
    rw [LsqEntry.step_init init, enque, Bool.toNat_true]
    simp [last]
  | false =>
    have other := (occupied.init_iff below).not.mp (Bool.eq_false_iff.mp init)
    have single := Bool.toNat_le (lsq.deque input)
    rw [LsqEntry.step_kept init, Bool.and_eq_true, Bool.not_eq_true', ← Bool.not_eq_true,
      invld_iff below]
    rcases Nat.lt_or_ge (k + (lsq.deque input).toNat) 8 with partly | full
    · rw [occupied.vld _ partly]
      cases enque : lsq.enque input <;> cases deque : lsq.deque input <;>
        simp only [enque, deque, Bool.toNat_true, Bool.toNat_false, true_and, false_and,
          Bool.false_eq_true, not_false_eq_true, and_true] at * <;> omega
    · obtain deque : lsq.deque input = true := by
        by_contra stays
        simp only [Bool.not_eq_true] at stays
        rw [stays, Bool.toNat_false] at full
        omega
      rw [deque, Bool.toNat_true] at *
      cases enque : lsq.enque input <;>
        simp only [enque, Bool.toNat_true, Bool.toNat_false, true_and] at * <;> omega

/-- The queue after a step outside a flush. -/
theorem step : Occupied (lsq.step counter input)
    (length + (lsq.enque input).toNat - (lsq.deque input).toNat) := by
  obtain ⟨inside, enters⟩ := @step_counts lsq input length occupied
  constructor
  · omega
  · rw [occupied.step_tail running, step_head running, advance_advance]
    congr 1
    omega
  · intro k below
    rw [occupied.step_vld running below]
    omega

end Occupied

namespace Window

variable (window : Window lsq length passed)
include window

theorem issued_vld (inside : passed < length) : lsq.issuedEntry.vld = true := by
  have room := window.room
  rw [issuedEntry, window.issued]
  exact (window.vld passed (by omega)).mpr inside

/-- An entry leaves only after it was executed. -/
theorem deque_passed (deque : lsq.deque input = true) :
    0 < length ∧ (0 < passed ∨ (passed = 0 ∧ lsq.flushing = true)) := by
  simp only [Lsq.deque, Bool.and_eq_true] at deque
  obtain ⟨⟨⟨vld, exec⟩, -⟩, -⟩ := deque
  have inside := window.occupied.head_vld.mp vld
  have executed := (window.exec 0 inside).mp (by simpa [headEntry] using exec)
  exact ⟨inside, executed.imp id fun same => ⟨same.1.symm, same.2⟩⟩

theorem succ_passed (succ : lsq.lastIssSucc input = true) :
    passed < length ∧ lsq.replayVld input = false ∧ lsq.l1dIssVldQ = true ∧
      lsq.l1dIssHskQ = true := by
  simp only [lastIssSucc, window.memory, Bool.false_and, Bool.or_false, Bool.and_eq_true,
    Bool.not_eq_true'] at succ
  obtain ⟨⟨⟨⟨⟨issued, hsk⟩, replay⟩, -⟩, -⟩, -⟩ := succ
  exact ⟨(window.pending issued).1, replay, issued, hsk⟩

/-- A replay leaves no issue of the cycle before it to confirm. -/
theorem replay_waits (replay : lsq.replayVld input = true) : lsq.lastIssSucc input = false := by
  rw [← Bool.not_eq_true]
  intro succ
  rw [(window.succ_passed succ).2.1] at replay
  cases replay

/-- A valid entry at or right behind the issue pointer that was not executed is in the queue. -/
theorem idle_inside {k : Nat} (low : passed ≤ k) (high : k ≤ passed + 1) (bound : k ≤ 8)
    (vld : (lsq.entries (advance lsq.head k)).vld = true)
    (idle : (lsq.entries (advance lsq.head k)).exec = false) :
    k < length ∧ (k = passed → lsq.flushing = false) := by
  have within : k < length := by
    rcases Nat.lt_or_ge k 8 with partly | full
    · exact (window.vld k partly).mp vld
    · obtain rfl : k = 8 := by omega
      rw [advance_full] at vld idle
      have occupied := window.occupied.head_vld.mp vld
      have executed := (window.exec 0 occupied).mpr (.inl (by omega))
      rw [advance_zero, idle] at executed
      cases executed
  refine ⟨within, fun same => ?_⟩
  have executed := (window.exec k within).not.mp (by simp [idle])
  simpa [same] using executed

theorem issued_idle (vld : lsq.issuedEntry.vld = true) (idle : lsq.issuedEntry.exec = false) :
    passed < length ∧ lsq.flushing = false := by
  rw [issuedEntry, window.issued] at vld idle
  have ⟨inside, calm⟩ := window.idle_inside (Nat.le_refl _) (Nat.le_succ _)
    (Nat.le_trans window.inside window.room) vld idle
  exact ⟨inside, calm rfl⟩

theorem nxt_idle (inside : passed < length) (vld : lsq.nxtEntry.vld = true)
    (idle : lsq.nxtEntry.exec = false) : passed + 1 < length := by
  rw [nxtEntry, issueNxt, window.issued, advance_advance] at vld idle
  exact (window.idle_inside (Nat.le_succ _) (Nat.le_refl _)
    (Nat.le_trans inside window.room) vld idle).1

/-- The entry a store-class request is issued for. -/
theorem issue_passed (issue : lsq.stIssVld input = true) :
    (passed < length ∧ lsq.flushing = false) ∧ lsq.lastIssSucc input = false ∧
      lsq.replayVld input = false ∧ lsq.issuedEntry.awake = true := by
  simp only [stIssVld, Bool.and_eq_true, Bool.not_eq_true'] at issue
  obtain ⟨⟨⟨⟨⟨⟨⟨⟨succ, vld⟩, -⟩, awake⟩, -⟩, -⟩, replay⟩, -⟩, exec⟩ := issue
  exact ⟨window.issued_idle vld exec, succ, replay, awake⟩

/-- An entry that does not leave is kept. -/
theorem kept {k : Nat} (inside : k < length) (stays : lsq.deque input = true → 0 < k) :
    (lsq.entryPorts input (advance lsq.head k)).init = false ∧
      (lsq.entryPorts input (advance lsq.head k)).invld = false := by
  have room := window.room
  obtain ⟨before, rfl⟩ : ∃ before, k = before + (lsq.deque input).toNat := by
    refine ⟨k - (lsq.deque input).toNat, ?_⟩
    cases deque : lsq.deque input
    · simp
    · have := stays deque
      rw [Bool.toNat_true]
      omega
  constructor
  · rw [← Bool.not_eq_true, window.occupied.init_iff (by omega)]
    omega
  · rw [← Bool.not_eq_true, invld_iff (by omega)]
    rintro ⟨deque, rfl⟩
    rw [deque, Bool.toNat_true] at inside
    omega

/-- A position in the queue is the one of the issue pointer only by being the count it is at. -/
theorem at_issued {k : Nat} (inside : k < length) (behind : passed < length) :
    advance lsq.head k = lsq.issued ↔ k = passed := by
  have room := window.room
  rw [window.issued, advance_eq_iff lsq.head (by omega) (by omega)]
  omega

section Step

variable (paced : Paced lsq input length passed) (running : input.flush = false)
include paced running

omit running in
/-- A flushing fence is passed in the cycle after its issue. -/
theorem flushing_succ (flushing : lsq.flushing = true) : lsq.lastIssSucc input = true := by
  have calm : lsq.replayVld input = false := by
    by_contra replay
    rw [Bool.not_eq_false] at replay
    rw [(paced.replay replay).2.2.1] at flushing
    cases flushing
  simp only [Lsq.flushing, LsqEntry.isFlush, LsqEntry.isFenceReq, Bool.and_eq_true] at flushing
  obtain ⟨⟨st, hsk⟩, ⟨ls, fence⟩, -⟩ := flushing
  simp only [Bool.or_eq_true, beq_iff_eq] at fence
  have issued := window.store st
  have vld := window.issued_vld (window.pending issued).1
  have unchecked : lsq.reqNeedCheckAwake input = false := by
    simp only [reqNeedCheckAwake, paced.memory]
    rcases fence with (same | same) | same <;> simp [same]
  simp [lastIssSucc, awakeCheckPass, lastIssIsPa, unchecked, paced.memory, issued, hsk, calm, vld, ls,
    st]

omit running in
/-- The pointers move within the queue. -/
theorem step_counts :
    (lsq.deque input).toNat ≤ length ∧
      length + (lsq.enque input).toNat ≤ 8 + (lsq.deque input).toNat ∧
      (lsq.replayVld input).toNat + (lsq.deque input).toNat ≤
        passed + (lsq.lastIssSucc input).toNat ∧
      passed + (lsq.lastIssSucc input).toNat ≤ length ∧
      (lsq.lastIssSucc input = true → lsq.replayVld input = false) := by
  obtain ⟨present, enters⟩ := @Occupied.step_counts lsq input length window.occupied
  refine ⟨present, enters, ?_⟩
  have inside := window.inside
  have leaves : lsq.deque input = true →
      0 < length ∧ (0 < passed ∨ (passed = 0 ∧ lsq.lastIssSucc input = true)) := fun deque =>
    ⟨(window.deque_passed deque).1, (window.deque_passed deque).2.imp id fun early =>
      ⟨early.1, window.flushing_succ paced early.2⟩⟩
  have succ : lsq.lastIssSucc input = true → passed < length ∧ lsq.replayVld input = false ∧
      lsq.l1dIssVldQ = true ∧ lsq.l1dIssHskQ = true := window.succ_passed
  have replay := paced.replay
  cases hd : lsq.deque input <;>
    cases hu : lsq.lastIssSucc input <;> cases hr : lsq.replayVld input <;>
    simp only [hd, hu, hr, Bool.toNat_true, Bool.toNat_false, forall_true_left, true_and,
      and_true, and_false, false_and, or_false, Bool.false_eq_true, reduceCtorEq, IsEmpty.forall_iff]
      at leaves succ replay ⊢ <;> omega

theorem step_issued :
    (lsq.step counter input).issued =
      advance lsq.head (passed + (lsq.lastIssSucc input).toNat - (lsq.replayVld input).toNat) := by
  cases succ : lsq.lastIssSucc input <;> cases replay : lsq.replayVld input
  · simp [step, running, succ, replay, counter.hold, window.issued]
  · simp [step, running, succ, replay, counter.loads, (paced.replay replay).2.1]
  · simp [step, running, succ, replay, counter.counts, window.issued]
  · rw [window.replay_waits replay] at succ
    cases succ

/-- The entry behind the issue pointer after a step, where it was there before. -/
theorem step_issuedEntry {k : Nat}
    (count : k + (lsq.replayVld input).toNat = passed + (lsq.lastIssSucc input).toNat)
    (inside : k < length) (stays : lsq.deque input = true → 0 < k) :
    (lsq.entryPorts input (advance lsq.head k)).init = false ∧
      (lsq.step counter input).issuedEntry = (lsq.entries (advance lsq.head k)).step
        (lsq.entryPorts input (advance lsq.head k)) := by
  refine ⟨(window.kept inside stays).1, ?_⟩
  have position : passed + (lsq.lastIssSucc input).toNat - (lsq.replayVld input).toNat = k := by
    omega
  rw [issuedEntry, window.step_issued paced running, step_entries running, position]

theorem step_flushing :
    (lsq.step counter input).flushing = true ↔
      lsq.stIssVld input = true ∧ lsq.issuedEntry.isFlush = true := by
  have unfolded : (lsq.step counter input).flushing = (lsq.stIssVld input && lsq.l1dIssHsk input &&
      (lsq.step counter input).issuedEntry.isFlush) := by
    simp [Lsq.flushing, step, running]
  rw [unfolded]
  cases issue : lsq.stIssVld input with
  | false => simp
  | true =>
    obtain ⟨⟨inside, calm⟩, succ, replay, -⟩ := window.issue_passed issue
    have stays : lsq.deque input = true → 0 < passed := fun deque => by
      rcases (window.deque_passed deque).2 with behind | ⟨-, flushing⟩
      · exact behind
      · rw [calm] at flushing
        cases flushing
    obtain ⟨init, same⟩ := window.step_issuedEntry paced running (k := passed)
      (by rw [succ, replay]) inside stays
    have flush : (lsq.step counter input).issuedEntry.isFlush = lsq.issuedEntry.isFlush := by
      rw [same, LsqEntry.step_kept init, issuedEntry, window.issued]
      rfl
    rw [flush]
    cases fence : lsq.issuedEntry.isFlush with
    | false => simp
    | true => simp [l1dIssHsk, issue, paced.flush running issue fence]

omit running in
/-- A new entry starts unexecuted, also where a fence leaves in the same cycle. -/
theorem enter_idle (enque : lsq.enque input = true) : lsq.execVld input lsq.tail = false := by
  rw [← Bool.not_eq_true, execVld_iff]
  rintro ⟨same, event⟩
  have behind : passed < length := by
    rcases event with ⟨succ, -⟩ | ⟨issue, -⟩
    · exact (window.succ_passed succ).1
    · exact (window.issue_passed issue).1.1
  have room := window.room
  rw [window.tail, window.issued, advance_eq_iff lsq.head room (by omega)] at same
  obtain ⟨rfl, rfl⟩ : length = 8 ∧ passed = 0 := by omega
  have deque : lsq.deque input = true := by
    rcases window.occupied.enque_room enque with partly | ⟨-, deque⟩
    · omega
    · exact deque
  obtain flushing : lsq.flushing = true := by
    rcases (window.deque_passed deque).2 with behind | ⟨-, flushing⟩
    · omega
    · exact flushing
  rcases event with ⟨-, fence⟩ | ⟨issue, -⟩
  · have flush : lsq.issuedEntry.isFlush = true := by
      simp only [Lsq.flushing, Bool.and_eq_true] at flushing
      exact flushing.2
    rw [window.tail, advance_full, ← advance_zero lsq.head, ← window.issued, ← issuedEntry,
      flush] at fence
    cases fence
  · rw [(window.issue_passed issue).1.2] at flushing
    cases flushing

/-- What is executed after a step: everything that passed, and a flushing fence just issued. -/
theorem step_exec {k passed' : Nat}
    (inside : k + (lsq.deque input).toNat < length + (lsq.enque input).toNat)
    (count : passed' + (lsq.deque input).toNat + (lsq.replayVld input).toNat =
      passed + (lsq.lastIssSucc input).toNat) :
    ((lsq.step counter input).entries (advance (lsq.step counter input).head k)).exec = true ↔
      k < passed' ∨ (k = passed' ∧ (lsq.step counter input).flushing = true) := by
  have room := window.room
  obtain ⟨occupied, enters, order, within, -⟩ := window.step_counts paced
  rw [step_at running, window.step_flushing paced running]
  cases init : (lsq.entryPorts input (advance lsq.head (k + (lsq.deque input).toNat))).init with
  | true =>
    obtain ⟨enque, last⟩ := (window.occupied.init_iff (by omega)).mp init
    have idle := window.enter_idle paced enque
    rw [window.tail, ← last] at idle
    rw [LsqEntry.step_init init]
    simp only [entryPorts, idle, Bool.and_false, Bool.false_eq_true, false_iff, not_or, not_and]
    refine ⟨by omega, fun same issue => ?_⟩
    obtain ⟨⟨behind, -⟩, succ, replay, -⟩ := window.issue_passed issue
    rw [succ, replay, Bool.toNat_false] at count
    omega
  | false =>
    have below : k < 8 := by omega
    have other := (window.occupied.init_iff below).not.mp (Bool.eq_false_iff.mp init)
    have behind : k + (lsq.deque input).toNat < length := by
      cases enque : lsq.enque input <;> simp only [enque, Bool.toNat_true, Bool.toNat_false,
        true_and] at * <;> omega
    rw [LsqEntry.step_kept init]
    simp only [Bool.and_eq_true, Bool.or_eq_true, Bool.not_eq_true']
    rw [window.exec _ behind]
    have replayed : (lsq.entryPorts input (advance lsq.head (k + (lsq.deque input).toNat))).replay =
        true ↔ lsq.replayVld input = true ∧ k + (lsq.deque input).toNat = passed - 1 := by
      simp only [entryPorts, Bool.and_eq_true, beq_iff_eq]
      refine and_congr_right fun replay => ?_
      have inside := window.inside
      rw [(paced.replay replay).2.1, advance_eq_iff lsq.head (by omega) (by omega)]
      omega
    have executed : (lsq.entryPorts input (advance lsq.head (k + (lsq.deque input).toNat))).exec =
        true ↔ k + (lsq.deque input).toNat = passed ∧
          ((lsq.lastIssSucc input = true ∧ lsq.issuedEntry.isFlush = false) ∨
            (lsq.stIssVld input = true ∧ lsq.issuedEntry.isFlush = true)) := by
      refine Iff.trans (execVld_iff _) ?_
      constructor
      · rintro ⟨same, event⟩
        have early : passed < length := by
          rcases event with ⟨succ, -⟩ | ⟨issue, -⟩
          · exact (window.succ_passed succ).1
          · exact (window.issue_passed issue).1.1
        rw [same, ← issuedEntry] at event
        exact ⟨(window.at_issued behind early).mp same, event⟩
      · rintro ⟨same, event⟩
        have spot : advance lsq.head (k + (lsq.deque input).toNat) = lsq.issued := by
          rw [same, window.issued]
        rw [spot, ← issuedEntry]
        exact ⟨rfl, event⟩
    rw [← Bool.not_eq_true, replayed, executed]
    cases replay : lsq.replayVld input with
    | true =>
      have succ := window.replay_waits replay
      have quiet : lsq.stIssVld input = false := by
        rw [← Bool.not_eq_true]
        intro issue
        rw [(window.issue_passed issue).2.2.1] at replay
        cases replay
      obtain ⟨positive, -, calm, -⟩ := paced.replay replay
      rw [replay, succ, Bool.toNat_true, Bool.toNat_false] at count
      simp only [succ, quiet, calm, Bool.false_eq_true, false_and, and_false, or_false, true_and]
      omega
    | false =>
      rw [replay, Bool.toNat_false] at count
      cases succ : lsq.lastIssSucc input with
      | true =>
        have quiet : lsq.stIssVld input = false := by
          rw [← Bool.not_eq_true]
          intro issue
          rw [(window.issue_passed issue).2.1] at succ
          cases succ
        have flush : lsq.issuedEntry.isFlush = true → lsq.flushing = true := by
          intro fence
          have ls : lsq.issuedEntry.ls = true := by
            simp only [LsqEntry.isFlush, LsqEntry.isFenceReq, Bool.and_eq_true] at fence
            exact fence.1.1
          have hsk := (window.succ_passed succ).2.2.2
          simp only [lastIssSucc, window.memory, ls, paced.memory, Bool.false_and, Bool.or_false,
            Bool.not_true, Bool.and_false, Bool.and_eq_true] at succ
          simp [Lsq.flushing, succ.2.2, hsk, fence]
        rw [succ, Bool.toNat_true] at count
        cases fence : lsq.issuedEntry.isFlush with
        | true =>
          simp only [quiet, flush fence, Bool.false_eq_true, Bool.true_eq_false, false_and,
            and_false, or_false, and_true, not_false_eq_true, true_and]
          omega
        | false =>
          have calm : lsq.flushing = false := by simp [Lsq.flushing, fence]
          simp only [quiet, calm, Bool.false_eq_true, false_and, and_false, or_false, and_true,
            not_false_eq_true, true_and]
          omega
      | false =>
        have calm : lsq.flushing = false := by
          rw [← Bool.not_eq_true]
          intro flushing
          rw [window.flushing_succ paced flushing] at succ
          cases succ
        rw [succ, Bool.toNat_false] at count
        simp only [calm, Bool.false_eq_true, false_and, and_false, or_false, false_or,
          not_false_eq_true, true_and]
        constructor
        · rintro (early | ⟨same, event⟩)
          · exact .inl (by omega)
          · exact .inr ⟨by omega, event⟩
        · rintro (early | ⟨same, event⟩)
          · exact .inl (by omega)
          · exact .inr ⟨by omega, event⟩

omit running in
/-- With a fence on its way out the issue pointer moves on. -/
theorem deque_behind (deque : lsq.deque input = true) (stuck : lsq.lastIssSucc input = false) :
    0 < passed := by
  rcases (window.deque_passed deque).2 with behind | ⟨-, flushing⟩
  · exact behind
  · rw [window.flushing_succ paced flushing] at stuck
    cases stuck

omit running in
/-- A new request can only be taken for the next one to issue if all others passed. -/
theorem bypass_last {k : Nat} (same : lsq.tail = advance lsq.head k) (low : passed ≤ k)
    (near : k ≤ passed + 1) (high : k ≤ 8) (enque : lsq.enque input = true)
    (calm : k = 0 → lsq.lastIssSucc input = false) : k = length := by
  have room := window.room
  have inside := window.inside
  rw [window.tail, advance_eq_iff lsq.head room high] at same
  rcases same with same | ⟨rfl, rfl⟩ | ⟨rfl, rfl⟩
  · exact same.symm
  · omega
  · rcases window.occupied.enque_room enque with partly | ⟨-, deque⟩
    · omega
    · have := window.deque_behind paced deque (calm rfl)
      omega

omit running in
/-- A new request that is taken for issue is the next one. -/
theorem bypass_enters (taken : lsq.finalIssBypass input = true) :
    passed + (lsq.lastIssSucc input).toNat = length ∧ lsq.enque input = true := by
  have room := window.room
  have inside := window.inside
  cases succ : lsq.lastIssSucc input with
  | false =>
    simp only [finalIssBypass, succ, Bool.false_eq_true, if_false, issIssuedEntryBypassVld,
      Bool.and_eq_true, beq_iff_eq] at taken
    have last := window.bypass_last paced (k := passed) (taken.1.1.trans window.issued)
      (Nat.le_refl _) (Nat.le_succ _) (by omega) taken.1.2 fun _ => succ
    exact ⟨last, taken.1.2⟩
  | true =>
    have behind := (window.succ_passed succ).1
    have nxt : lsq.issueNxt = advance lsq.head (passed + 1) := by
      rw [issueNxt, window.issued, advance_advance]
    simp only [finalIssBypass, succ, if_true, issNxtEntryBypassVld, Bool.and_eq_true,
      beq_iff_eq] at taken
    have last := window.bypass_last paced (k := passed + 1) (taken.1.1.trans nxt)
      (Nat.le_succ _) (Nat.le_refl _) (by omega) taken.1.2 (by omega)
    exact ⟨last, taken.1.2⟩

omit running in
theorem target_eq :
    lsq.target input =
      advance lsq.head (passed + (lsq.lastIssSucc input).toNat - (lsq.replayVld input).toNat) := by
  cases replay : lsq.replayVld input with
  | true =>
    have succ := window.replay_waits replay
    simp [Lsq.target, replay, succ, (paced.replay replay).2.1]
  | false =>
    cases taken : lsq.finalIssBypass input with
    | true => simp [Lsq.target, replay, taken, window.tail, (window.bypass_enters paced taken).1]
    | false =>
      cases succ : lsq.lastIssSucc input <;>
        simp [Lsq.target, replay, taken, finalIss, succ, issueNxt, window.issued]

omit running in
/-- What a load request is made for: an entry behind the issue pointer, or a new one. -/
theorem load_target (load : lsq.ldIssVld input = true) :
    ∃ k, k + (lsq.replayVld input).toNat = passed + (lsq.lastIssSucc input).toNat ∧
      lsq.target input = advance lsq.head k ∧ (lsq.deque input = true → 0 < k) ∧
      ((k < length ∧ (lsq.entries (lsq.target input)).ls = false ∧
          (lsq.replayVld input = true ∨ (lsq.finalIssBypass input = false ∧
            (lsq.entries (lsq.target input)).exec = false ∧
            (lsq.entries (lsq.target input)).exceptionVld = false))) ∨
        (k = length ∧ lsq.enque input = true ∧ input.request.ls = false ∧
          lsq.replayVld input = false ∧ lsq.finalIssBypass input = true)) := by
  have inside := window.inside
  have target := window.target_eq paced
  cases replay : lsq.replayVld input with
  | true =>
    have succ := window.replay_waits replay
    obtain ⟨positive, -, -, stays, ls⟩ := paced.replay replay
    rw [replay, succ, Bool.toNat_true, Bool.toNat_false, Nat.add_zero] at target
    refine ⟨passed - 1, ?_, target, fun deque => ?_, .inl ⟨by omega, ?_, .inl rfl⟩⟩
    · rw [succ, Bool.toNat_true, Bool.toNat_false]
      omega
    · have := stays deque
      omega
    · simp [Lsq.target, replay, ls]
  | false =>
    rw [replay, Bool.toNat_false, Nat.sub_zero] at target
    refine ⟨passed + (lsq.lastIssSucc input).toNat, by simp, target, ?_, ?_⟩
    · cases succ : lsq.lastIssSucc input with
      | false => exact fun deque => window.deque_behind paced deque succ
      | true => exact fun _ => Nat.succ_pos _
    · simp only [ldIssVld, replay, Bool.false_eq_true, if_false] at load
      cases taken : lsq.finalIssBypass input with
      | true =>
        obtain ⟨last, enque⟩ := window.bypass_enters paced taken
        refine .inr ⟨last, enque, ?_, rfl, rfl⟩
        cases succ : lsq.lastIssSucc input with
        | false =>
          rw [succ, Bool.toNat_false] at last
          simp only [succ, Bool.not_false, if_true, Bool.or_eq_true, Bool.and_eq_true,
            Bool.not_eq_true'] at load
          rcases load with ⟨⟨⟨⟨-, vld⟩, exec⟩, -⟩, -⟩ | ⟨⟨-, ls⟩, -⟩
          · have := (window.issued_idle vld exec).1
            omega
          · exact ls
        | true =>
          rw [succ, Bool.toNat_true] at last
          simp only [succ, Bool.not_true, Bool.false_eq_true, if_false, Bool.or_eq_true,
            Bool.and_eq_true, Bool.not_eq_true'] at load
          rcases load with ⟨⟨⟨⟨-, vld⟩, -⟩, exec⟩, -⟩ | ⟨⟨-, ls⟩, -⟩
          · have := window.nxt_idle (window.succ_passed succ).1 vld exec
            omega
          · exact ls
      | false =>
        have final : lsq.target input = lsq.finalIss input := by simp [Lsq.target, replay, taken]
        rw [final]
        cases succ : lsq.lastIssSucc input with
        | false =>
          simp only [finalIssBypass, succ, Bool.false_eq_true, if_false] at taken
          simp only [succ, taken, Bool.not_false, if_true, Bool.false_and, Bool.or_false,
            Bool.and_eq_true, Bool.not_eq_true'] at load
          obtain ⟨⟨⟨⟨ls, vld⟩, exec⟩, -⟩, fault⟩ := load
          simp only [finalIss, succ, Bool.false_eq_true, if_false, Bool.toNat_false, Nat.add_zero]
          exact .inl ⟨(window.issued_idle vld exec).1, ls, .inr ⟨trivial, exec, fault⟩⟩
        | true =>
          simp only [finalIssBypass, succ, if_true] at taken
          simp only [succ, taken, Bool.not_true, Bool.false_eq_true, if_false, Bool.false_and,
            Bool.or_false, Bool.and_eq_true, Bool.not_eq_true'] at load
          obtain ⟨⟨⟨⟨ls, vld⟩, -⟩, exec⟩, fault⟩ := load
          simp only [finalIss, succ, if_true, Bool.toNat_true]
          exact .inl ⟨window.nxt_idle (window.succ_passed succ).1 vld exec, ls,
            .inr ⟨trivial, exec, fault⟩⟩

omit running in
/-- What a lookup is made for: an entry behind the issue pointer, or a new one. -/
theorem lookup_target (lookup : lsq.dtlbIssVld input = true)
    (real : lsq.l1dStIssVldQ = true →
      lsq.issuedEntry.virt = false ∨ lsq.issuedEntry.isFenceReq = true) :
    ∃ k, k + (lsq.replayVld input).toNat = passed + (lsq.lastIssSucc input).toNat ∧
      lsq.target input = advance lsq.head k ∧ (lsq.deque input = true → 0 < k) ∧
      ((k < length ∧ (lsq.replayVld input = true ∨ lsq.finalIssBypass input = false)) ∨
        (k = length ∧ lsq.replayVld input = false ∧ lsq.finalIssBypass input = true)) := by
  have inside := window.inside
  have target := window.target_eq paced
  obtain ⟨-, -, -, within, -⟩ := window.step_counts paced
  cases replay : lsq.replayVld input with
  | true =>
    have succ := window.replay_waits replay
    obtain ⟨positive, -, -, stays, -⟩ := paced.replay replay
    rw [replay, succ, Bool.toNat_true, Bool.toNat_false, Nat.add_zero] at target
    refine ⟨passed - 1, ?_, target, fun deque => ?_, .inl ⟨by omega, .inl rfl⟩⟩
    · rw [succ, Bool.toNat_true, Bool.toNat_false]
      omega
    · have := stays deque
      omega
  | false =>
    rw [replay, Bool.toNat_false, Nat.sub_zero] at target
    refine ⟨passed + (lsq.lastIssSucc input).toNat, by simp, target, ?_, ?_⟩
    · cases succ : lsq.lastIssSucc input with
      | false => exact fun deque => window.deque_behind paced deque succ
      | true => exact fun _ => Nat.succ_pos _
    · cases taken : lsq.finalIssBypass input with
      | true => exact .inr ⟨(window.bypass_enters paced taken).1, rfl, rfl⟩
      | false =>
        refine .inl ⟨?_, .inr rfl⟩
        simp only [dtlbIssVld, replay, Bool.or_false, Bool.or_eq_true] at lookup
        cases succ : lsq.lastIssSucc input with
        | false =>
          simp only [finalIssBypass, succ, Bool.false_eq_true, if_false] at taken
          simp only [succ, taken, Bool.false_and, Bool.false_eq_true, false_or, or_false,
            Bool.not_false, Bool.and_true, Bool.and_eq_true, Bool.not_eq_true'] at lookup
          rcases lookup with ⟨⟨⟨-, vld⟩, exec⟩, -⟩ | ⟨⟨⟨⟨⟨⟨-, vld⟩, exec⟩, -⟩, -⟩, -⟩, -⟩
          · exact (window.issued_idle vld exec).1
          · exact (window.issued_idle vld exec).1
        | true =>
          have behind := (window.succ_passed succ).1
          simp only [finalIssBypass, succ, if_true] at taken
          simp only [succ, taken, Bool.true_and, Bool.false_eq_true, if_false, Bool.not_true,
            Bool.and_false, or_false, Bool.and_eq_true, Bool.not_eq_true'] at lookup
          rw [Bool.toNat_true]
          rcases lookup with (⟨⟨entering, -⟩, -⟩ | ⟨⟨⟨-, vld⟩, exec⟩, -⟩) | store
          · -- the queue is full and its head is passed only now
            simp only [issIssuedEntryBypassVld, Bool.and_eq_true, beq_iff_eq] at entering
            have same := entering.1.1
            have room := window.room
            rw [window.tail, window.issued,
              advance_eq_iff lsq.head room (by omega)] at same
            omega
          · exact window.nxt_idle behind vld exec
          · obtain ⟨⟨⟨⟨⟨⟨ls, -⟩, -⟩, virt⟩, -⟩, -⟩, fence⟩ := store
            have issue : lsq.l1dStIssVldQ = true := by
              simp only [lastIssSucc, window.memory, ls, paced.memory, Bool.false_and,
                Bool.or_false, Bool.not_true, Bool.and_false, Bool.and_eq_true] at succ
              exact succ.2.2
            rcases real issue with untranslated | other
            · rw [untranslated] at virt
              cases virt
            · rw [other] at fence
              cases fence

omit window paced running in
theorem dtlbIssVtag_eq :
    lsq.dtlbIssVtag input =
      if lsq.replayVld input = true then (lsq.entries lsq.ldIssuedQq).tag.setWidth 27
      else if lsq.finalIssBypass input = true then input.request.vtag
      else if lsq.lastIssSucc input = true then lsq.nxtEntry.tag.setWidth 27
      else lsq.issVtag input := by
  cases replay : lsq.replayVld input <;> cases succ : lsq.lastIssSucc input <;>
    simp [dtlbIssVtag, finalIssBypass, replay, succ]

/-- A store-class request is issued with its translation, which no later answer takes back. -/
theorem step_real (silent : lsq.stIssVld input = true → lsq.issuedEntry.virt = false →
      input.dtlb.vld = false) (issue : (lsq.step counter input).l1dStIssVldQ = true) :
    (lsq.step counter input).issuedEntry.virt = false ∨
      (lsq.step counter input).issuedEntry.isFenceReq = true := by
  rw [show (lsq.step counter input).l1dStIssVldQ = lsq.stIssVld input by simp [step, running]]
    at issue
  obtain ⟨⟨behind, -⟩, succ, replay, -⟩ := window.issue_passed issue
  have stays := fun deque => window.deque_behind paced deque succ
  obtain ⟨init, same⟩ := @step_issuedEntry lsq input counter length passed window paced running
    passed (by rw [succ, replay]) behind stays
  have quiet := silent issue
  rw [same, LsqEntry.step_kept init, ← window.issued, ← issuedEntry]
  simp only [stIssVld, Bool.and_eq_true, Bool.or_eq_true, Bool.not_eq_true'] at issue
  obtain ⟨⟨⟨⟨⟨⟨⟨⟨-, -⟩, -⟩, -⟩, ready⟩, -⟩, -⟩, -⟩, -⟩ := issue
  rcases ready with virt | fence
  · exact .inl (by simp [entryPorts, quiet virt, virt])
  · exact .inr fence

/-- The queue after a step outside a flush. -/
theorem step_window :
    ∃ length' passed', Window (lsq.step counter input) length' passed' ∧
      length' + (lsq.deque input).toNat = length + (lsq.enque input).toNat ∧
      passed' + (lsq.deque input).toNat + (lsq.replayVld input).toNat =
        passed + (lsq.lastIssSucc input).toNat := by
  obtain ⟨occupied, enters, order, inside, -⟩ := window.step_counts paced
  refine ⟨length + (lsq.enque input).toNat - (lsq.deque input).toNat,
    passed + (lsq.lastIssSucc input).toNat - (lsq.replayVld input).toNat -
      (lsq.deque input).toNat, ?_, by omega, by omega⟩
  constructor
  · omega
  · exact (window.occupied.step running).tail
  · exact (window.occupied.step running).vld
  · omega
  · rw [window.step_issued paced running, step_head running, advance_advance]
    congr 1
    omega
  · intro k below
    exact window.step_exec paced running (by omega) (by omega)
  · intro issued
    rw [show (lsq.step counter input).l1dIssVldQ = lsq.l1dIssVld input by simp [step, running],
      l1dIssVld, Bool.or_eq_true] at issued
    rcases issued with load | issue
    · obtain ⟨k, count, target, stays, ⟨behind, ls, -⟩ | ⟨last, enque, ls, -, -⟩⟩ :=
        window.load_target paced load
      · obtain ⟨init, same⟩ := @step_issuedEntry lsq input counter length passed window paced running
          k count behind stays
        refine ⟨by omega, fun store => ?_⟩
        rw [target] at ls
        rw [same, LsqEntry.step_kept init, ls] at store
        cases store
      · have init : (lsq.entryPorts input lsq.tail).init = true := by simp [entryPorts, enque]
        have entered : (lsq.step counter input).issuedEntry =
            (lsq.entries lsq.tail).step (lsq.entryPorts input lsq.tail) := by
          have position : passed + (lsq.lastIssSucc input).toNat -
              (lsq.replayVld input).toNat = length := by omega
          rw [issuedEntry, window.step_issued paced running, step_entries running, position,
            window.tail]
        have one : (lsq.enque input).toNat = 1 := by simp [enque]
        refine ⟨by omega, fun store => ?_⟩
        rw [entered, LsqEntry.step_init init] at store
        exact absurd store (by simp [entryPorts, ls])
    · obtain ⟨⟨behind, -⟩, succ, replay, awake⟩ := window.issue_passed issue
      have stays := fun deque => window.deque_behind paced deque succ
      obtain ⟨init, same⟩ := @step_issuedEntry lsq input counter length passed window paced running
        passed (by rw [succ, replay]) behind stays
      have still : (lsq.lastIssSucc input).toNat = 0 ∧ (lsq.replayVld input).toNat = 0 := by
        simp [succ, replay]
      refine ⟨by omega, fun _ => ?_⟩
      rw [same, LsqEntry.step_kept init, ← window.issued, ← issuedEntry, awake, Bool.true_or]
  · intro issue
    rw [show (lsq.step counter input).l1dStIssVldQ = lsq.stIssVld input by simp [step, running]]
      at issue
    simp [step, running, l1dIssVld, issue]
  · simp [step, running, busCtrlIssVld, paced.memory]

end Step

end Window

end Lsq

end GreenRio
