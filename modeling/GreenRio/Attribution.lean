import GreenRio.Flight
import GreenRio.Override

set_option autoImplicit false

namespace GreenRio

open Circular

/-- A scan that keeps the last match finds a match that no later one follows. -/
theorem scan_last {n : Nat} (matched : Fin n → Bool) (start last : Fin n) (hit : matched last = true)
    (none : ∀ k, matched k = true → k ≤ last) :
    (List.finRange n).foldl (fun found k => if matched k then k else found) start = last := by
  obtain ⟨before, after, split⟩ := List.mem_iff_append.mp (List.mem_finRange last)
  have sorted := List.pairwise_lt_finRange n
  rw [split, List.pairwise_append] at sorted
  have later : ∀ k ∈ after, matched k = false := by
    intro k member
    rw [← Bool.not_eq_true]
    intro again
    have ordered := (List.pairwise_cons.mp sorted.2.1).1 k member
    exact absurd (none k again) (Fin.not_le.mpr ordered)
  rw [split, List.foldl_append, List.foldl_cons, if_pos hit]
  exact Override.foldl_none matched (fun k => k) after last later

theorem Lsq.owed_iff {lsq : Lsq} {i : LsqIndex} : lsq.owed i = true ↔
    ((lsq.entries i).noPrfWb = false → (lsq.entries i).succ = false) ∧
      ¬(i = lsq.head ∧ (lsq.entries i).exceptionVld = true ∧ lsq.exceptionLock = true) := by
  cases store : (lsq.entries i).noPrfWb <;> cases succ : (lsq.entries i).succ <;>
    cases fault : (lsq.entries i).exceptionVld <;> cases lock : lsq.exceptionLock <;>
    simp [Lsq.owed, store, succ, fault, lock]

namespace Memory

/-- The entry whose request completes in a cycle. -/
def settled (memory : Memory) (input : MemoryInput) : Option LsqIndex :=
  match input.reply with
  | some request => some request.slot
  | none =>
    if memory.lsq.deque (memory.lsqInput input) && memory.lsq.headEntry.noPrfWb ||
        memory.lsq.exceptionPending then
      some memory.lsq.head
    else none

/-- A flushing fence answers with its index. -/
theorem plain_of_register {entry : LsqEntry} (vld : entry.vld = true)
    (register : entry.noPrfWb = false) : entry.isFlush = false := by
  rw [← Bool.not_eq_true]
  intro flush
  simp only [LsqEntry.isFlush, LsqEntry.isFenceReq, Bool.and_eq_true, Bool.or_eq_true,
    beq_iff_eq] at flush
  obtain ⟨⟨ls, (fence | fence) | fence⟩, -⟩ := flush <;>
    simp [LsqEntry.noPrfWb, vld, ls, fence] at register

section Cycle

variable {memory : Memory} {input : MemoryInput} {length passed : Nat} {counter : Counter2}

theorem blamed_slot (ticket : Ticket) : (memory.blamed input ticket).slot = ticket.slot ∧
    (memory.blamed input ticket).robIndex = ticket.robIndex := by
  rw [blamed]
  split <;> exact ⟨rfl, rfl⟩

namespace Sound

variable (sound : Sound memory length passed) (contract : Contract memory input)
  (clean : Clean memory input) (running : input.flush = false)
include sound contract clean running

omit contract clean in
theorem comm_done : (memory.comm input).done = (memory.settled input).isSome := by
  change memory.lsq.commVld (memory.lsqInput input) = _
  simp only [Lsq.commVld, lsqInput_flush, running, sound.prfWbVld_eq, settled]
  cases input.reply with
  | none =>
    cases memory.lsq.deque (memory.lsqInput input) && memory.lsq.headEntry.noPrfWb ||
      memory.lsq.exceptionPending <;> rfl
  | some request => simp

omit running in
/-- A completion is read from the entry that completes, which owed it. -/
theorem settled_owed {i : LsqIndex} (settled : memory.settled input = some i) :
    memory.lsq.commEntry (memory.lsqInput input) = memory.lsq.entries i ∧
      (memory.lsq.entries i).vld = true ∧ memory.lsq.owed i = true := by
  cases reply : input.reply with
  | some request =>
    obtain ⟨-, -, flying, fault, -⟩ := sound.reply_flying reply contract clean
    have owns := sound.flying request flying
    simp only [Memory.settled, reply, Option.some.injEq] at settled
    subst settled
    refine ⟨?_, owns.vld, sound.flying_owed flying fault⟩
    have hit : memory.lsq.prfWbRdAddrMatch (memory.lsqInput input) request.slot = true := by
      simp [Lsq.prfWbRdAddrMatch, owns.vld, owns.rdAddr, prfWbRdAddr_eq reply]
    have last : memory.lsq.prfWbEntry (memory.lsqInput input) = request.slot := by
      refine scan_last _ _ _ hit fun k again => ?_
      rcases (clean.reply request reply).2.2 k again with rfl | ⟨-, below⟩
      · exact Fin.le_refl _
      · exact Fin.le_of_lt below
    simp [Lsq.commEntry, sound.prfWbVld_eq, reply, last]
  | none =>
    simp only [Memory.settled, reply, Option.ite_none_right_eq_some, Option.some.injEq] at settled
    obtain ⟨event, rfl⟩ := settled
    have entry : memory.lsq.commEntry (memory.lsqInput input) = memory.lsq.headEntry := by
      simp [Lsq.commEntry, sound.prfWbVld_eq, reply]
    rw [Bool.or_eq_true, Bool.and_eq_true] at event
    refine ⟨entry, ?_⟩
    rcases event with ⟨deque, store⟩ | pending
    · have fault := sound.deque_fault deque contract clean
      simp only [Lsq.headEntry] at store fault
      have vld : (memory.lsq.entries memory.lsq.head).vld = true := by
        simp only [LsqEntry.noPrfWb, Bool.and_eq_true] at store
        exact store.1.1
      exact ⟨vld, by simp [Lsq.owed, store, fault]⟩
    · simp only [Lsq.exceptionPending, Lsq.headEntry, Bool.and_eq_true, Bool.not_eq_true']
        at pending
      obtain ⟨⟨vld, fault⟩, lock⟩ := pending
      refine ⟨vld, ?_⟩
      have unanswered : (!(memory.lsq.entries memory.lsq.head).noPrfWb &&
          (memory.lsq.entries memory.lsq.head).succ) = false := by
        rw [← Bool.not_eq_true, Bool.and_eq_true, Bool.not_eq_true']
        rintro ⟨register, succ⟩
        have plain := plain_of_register vld register
        rw [((sound.regular vld).answered plain succ).2] at fault
        cases fault
      simp [Lsq.owed, unanswered, lock]

/-- The completion of a cycle settles the entry that completes and no other. -/
theorem settles_iff {i : LsqIndex} (vld : (memory.lsq.entries i).vld = true)
    (owed : memory.lsq.owed i = true) :
    ((memory.comm input).done = true ∧
      (memory.comm input).robIndex = (memory.lsq.entries i).robIndex) ↔
        memory.settled input = some i := by
  rw [sound.comm_done running, Option.isSome_iff_exists]
  have index : (memory.comm input).robIndex =
      (memory.lsq.commEntry (memory.lsqInput input)).robIndex := rfl
  constructor
  · rintro ⟨⟨j, settled⟩, same⟩
    obtain ⟨entry, vld', owed'⟩ := sound.settled_owed contract clean settled
    rw [index, entry] at same
    rw [settled, sound.unique vld' vld owed' owed same]
  · intro settled
    rw [index, (sound.settled_owed contract clean settled).1]
    exact ⟨⟨i, settled⟩, rfl⟩

omit running in
/-- A register is answered only to the entry that completes. -/
theorem marked_settled {i : LsqIndex} (vld : (memory.lsq.entries i).vld = true)
    (register : (memory.lsq.entries i).noPrfWb = false)
    (marked : memory.lsq.succVld (memory.lsqInput input) i = true) :
    memory.settled input = some i := by
  rw [succVld_of_wbVld (plain_of_register vld register)] at marked
  obtain ⟨request, reply | ack, -, -, -, rfl, -⟩ := sound.marked vld marked contract clean
  · simp [settled, reply]
  · have store := (sound.ack_flying ack contract clean).2.2.2.2
    rw [register] at store
    cases store

omit running in
/-- An entry that leaves has completed. -/
theorem leaves_settled (deque : memory.lsq.deque (memory.lsqInput input) = true)
    (owed : memory.lsq.owed memory.lsq.head = true) :
    memory.settled input = some memory.lsq.head := by
  have parts := deque
  simp only [Lsq.deque, Lsq.headEntry, Bool.and_eq_true, Bool.or_eq_true, Bool.not_eq_true']
    at parts
  obtain ⟨⟨⟨vld, -⟩, done⟩, way⟩ := parts
  rcases way with ⟨quiet, store⟩ | register
  · rw [sound.prfWbVld_eq, Option.isSome_eq_false_iff, Option.isNone_iff_eq_none] at quiet
    simp [settled, quiet, deque, Lsq.headEntry, store]
  · rcases done with succ | marked
    · simp [Lsq.owed, register, succ] at owed
    · exact sound.marked_settled contract clean vld register marked

/-- What owes a completion after a cycle owed it before, did not complete and did not leave. -/
theorem still_owed {i : LsqIndex} (vld : (memory.lsq.entries i).vld = true) :
    ((memory.lsq.step counter (memory.lsqInput input)).owed i = true ∧
        ¬(memory.lsq.deque (memory.lsqInput input) = true ∧ i = memory.lsq.head)) ↔
      memory.lsq.owed i = true ∧ memory.settled input ≠ some i := by
  have lockNext : (memory.lsq.step counter (memory.lsqInput input)).exceptionLock =
      (memory.lsq.exceptionSet (memory.lsqInput input) || memory.lsq.exceptionLock) := by
    cases set : memory.lsq.exceptionSet (memory.lsqInput input) <;> simp [Lsq.step, running, set]
  have headNext (stays : memory.lsq.deque (memory.lsqInput input) = false) :
      (memory.lsq.step counter (memory.lsqInput input)).head = memory.lsq.head := by
    simp [Lsq.step, running, stays]
  have faulty (fault : memory.lsq.headEntry.exceptionVld = true) :
      memory.lsq.deque (memory.lsqInput input) = false := by
    rw [← Bool.not_eq_true]
    intro deque
    rw [sound.deque_fault deque contract clean] at fault
    cases fault
  by_cases leaves : memory.lsq.deque (memory.lsqInput input) = true ∧ i = memory.lsq.head
  · obtain ⟨deque, rfl⟩ := leaves
    refine iff_of_false (fun owes => owes.2 ⟨deque, rfl⟩) ?_
    rintro ⟨owed, other⟩
    exact other (sound.leaves_settled contract clean deque owed)
  · obtain ⟨k, inside, place⟩ := sound.position vld
    have stays : memory.lsq.deque (memory.lsqInput input) = true → 0 < k := by
      intro deque
      rcases Nat.eq_zero_or_pos k with rfl | positive
      · exact absurd ⟨deque, by rw [place, advance_zero]⟩ leaves
      · exact positive
    obtain ⟨init, invld⟩ := sound.window.kept inside stays
    rw [← place] at init invld
    have register : ((memory.lsq.step counter (memory.lsqInput input)).entries i).noPrfWb =
        (memory.lsq.entries i).noPrfWb := by
      rw [Lsq.step_entries running, LsqEntry.step_kept init]
      simp [LsqEntry.noPrfWb, invld]
    have succ : ((memory.lsq.step counter (memory.lsqInput input)).entries i).succ =
        ((memory.lsq.entries i).succ || memory.lsq.succVld (memory.lsqInput input) i) := by
      rw [Lsq.step_entries running, LsqEntry.step_kept init]
      rfl
    have fault : (memory.lsq.entries i).exceptionVld = true →
        ((memory.lsq.step counter (memory.lsqInput input)).entries i).exceptionVld = true := by
      intro fault
      rw [Lsq.step_entries running, LsqEntry.step_kept init]
      simp [fault]
    simp only [leaves, not_false_eq_true, and_true]
    rw [Lsq.owed_iff, Lsq.owed_iff, register, succ, lockNext]
    constructor
    · rintro ⟨answer, report⟩
      have owes : ¬(i = memory.lsq.head ∧ (memory.lsq.entries i).exceptionVld = true ∧
          (memory.lsq.exceptionSet (memory.lsqInput input) = true ∨
            memory.lsq.exceptionLock = true)) := by
        rintro ⟨rfl, exception, lock⟩
        have same := headNext (faulty exception)
        exact report ⟨same.symm, fault exception, by simpa using lock⟩
      refine ⟨⟨fun answers => ?_, fun reported => owes ⟨reported.1, reported.2.1, .inr reported.2.2⟩⟩,
        fun settled => ?_⟩
      · exact (Bool.or_eq_false_iff.mp (answer answers)).1
      · cases reply : input.reply with
        | some request =>
          simp only [Memory.settled, reply, Option.some.injEq] at settled
          subst settled
          have answers := (sound.reply_flying reply contract clean).2.2.2.2
          have marked := sound.reply_marks reply contract clean
          rw [← succVld_of_wbVld (plain_of_register vld answers)] at marked
          simp [marked] at answer
          rw [answers] at answer
          cases answer
        | none =>
          simp only [Memory.settled, reply, Option.ite_none_right_eq_some, Option.some.injEq]
            at settled
          obtain ⟨event, rfl⟩ := settled
          rw [Bool.or_eq_true, Bool.and_eq_true] at event
          rcases event with ⟨deque, -⟩ | pending
          · exact leaves ⟨deque, rfl⟩
          · have exception : memory.lsq.headEntry.exceptionVld = true := by
              simp only [Lsq.exceptionPending, Bool.and_eq_true] at pending
              exact pending.1.2
            have headVld : memory.lsq.headEntry.vld = true := vld
            have set : memory.lsq.exceptionSet (memory.lsqInput input) = true := by
              simp [Lsq.exceptionSet, Lsq.commVld, pending, running, sound.prfWbVld_eq, reply,
                exception, headVld]
            exact owes ⟨rfl, exception, .inl set⟩
    · rintro ⟨⟨answer, report⟩, other⟩
      refine ⟨fun answers => ?_, ?_⟩
      · rw [answer answers, Bool.false_or, ← Bool.not_eq_true]
        exact fun marked => other (sound.marked_settled contract clean vld answers marked)
      · rintro ⟨same, -, lock⟩
        have exception : memory.lsq.headEntry.exceptionVld = true := by
          rw [Bool.or_eq_true] at lock
          rcases lock with set | lock
          · simp only [Lsq.exceptionSet, Bool.and_eq_true] at set
            exact set.1.2
          · exact (sound.lock lock).2
        obtain rfl : i = memory.lsq.head := same.trans (headNext (faulty exception))
        have unlocked : memory.lsq.exceptionLock = false := by
          rw [← Bool.not_eq_true]
          exact fun lock => report ⟨rfl, exception, lock⟩
        rw [unlocked, Bool.or_false] at lock
        simp only [Lsq.exceptionSet, sound.prfWbVld_eq, Bool.and_eq_true, Bool.not_eq_true',
          Option.isSome_eq_false_iff, Option.isNone_iff_eq_none] at lock
        have headVld : memory.lsq.headEntry.vld = true := vld
        have pending : memory.lsq.exceptionPending = true := by
          simp [Lsq.exceptionPending, headVld, exception, unlocked]
        exact other (by simp [Memory.settled, lock.2, pending])

/-- Once the exception of the head is reported, the head stays. -/
theorem step_lock
    (lock : (memory.lsq.step counter (memory.lsqInput input)).exceptionLock = true) :
    memory.lsq.deque (memory.lsqInput input) = false ∧ 0 < length ∧
      memory.lsq.headEntry.exceptionVld = true := by
  have known : 0 < length ∧ memory.lsq.headEntry.exceptionVld = true := by
    cases set : memory.lsq.exceptionSet (memory.lsqInput input) with
    | true =>
      simp only [Lsq.exceptionSet, Bool.and_eq_true] at set
      exact ⟨sound.window.occupied.head_vld.mp set.1.1.2, set.1.2⟩
    | false =>
      simp only [Lsq.step, lsqInput_flush, running, set, Bool.false_eq_true, if_false] at lock
      exact sound.lock lock
  refine ⟨?_, known⟩
  rw [← Bool.not_eq_true]
  intro deque
  rw [sound.deque_fault deque contract clean] at known
  cases known.2

/-- A new entry owes its completion. -/
theorem enters_owed (enque : memory.lsq.enque (memory.lsqInput input) = true) :
    (memory.lsq.step counter (memory.lsqInput input)).owed memory.lsq.tail = true := by
  have init : (memory.lsq.entryPorts (memory.lsqInput input) memory.lsq.tail).init = true := by
    simp [Lsq.entryPorts, enque]
  refine Lsq.owed_iff.mpr ⟨fun _ => ?_, ?_⟩
  · rw [Lsq.step_entries running, LsqEntry.step_init init]
  · rintro ⟨same, -, lock⟩
    obtain ⟨stays, occupied, -⟩ := sound.step_lock contract clean running lock
    have head : (memory.lsq.step counter (memory.lsqInput input)).head = memory.lsq.head := by
      simp [Lsq.step, running, stays]
    rcases sound.window.occupied.enque_room enque with partly | ⟨-, deque⟩
    · have ends := sound.window.occupied.head_eq_tail.mp (same.trans head).symm
      omega
    · rw [stays] at deque
      cases deque

omit contract clean running in
/-- The window behind an entry that leaves. -/
theorem leaves_slots (inside : (memory.lsq.deque (memory.lsqInput input)).toNat ≤ length) :
    (slots memory.lsq.head length).filter
        (fun i => !(memory.lsq.deque (memory.lsqInput input) && i == memory.lsq.head)) =
      slots (advance memory.lsq.head (memory.lsq.deque (memory.lsqInput input)).toNat)
        (length - (memory.lsq.deque (memory.lsqInput input)).toNat) := by
  have room := sound.window.room
  cases deque : memory.lsq.deque (memory.lsqInput input) with
  | false => simp
  | true =>
    rw [deque, Bool.toNat_true] at inside
    obtain ⟨rest, rfl⟩ : ∃ rest, length = rest + 1 := ⟨length - 1, by omega⟩
    have others : ∀ i ∈ slots (advance memory.lsq.head 1) rest, (i == memory.lsq.head) = false := by
      intro i member
      rw [beq_eq_false_iff_ne]
      rintro rfl
      exact start_not_mem_slots_next _ (by omega) member
    rw [slots_succ, List.filter_cons]
    simp only [Bool.true_and, beq_self_eq_true, Bool.not_true, Bool.false_eq_true, if_false,
      Bool.toNat_true, Nat.add_sub_cancel]
    refine List.filter_eq_self.mpr fun i member => ?_
    rw [others i member]
    rfl

/-- The tickets that are left belong to the entries that did not complete. -/
theorem unsettled_slots :
    (memory.tickets.filter (memory.unsettled input)).map Ticket.slot =
      (slots memory.lsq.head length).filter fun i =>
        memory.settled input != some i && memory.lsq.owed i := by
  rw [← List.filter_filter, ← sound.owed, List.filter_map]
  refine congrArg (List.map Ticket.slot) (List.filter_congr fun ticket member => ?_)
  have owes : ticket.slot ∈ (slots memory.lsq.head length).filter memory.lsq.owed := by
    rw [← sound.owed]
    exact List.mem_map_of_mem member
  have owed := (List.mem_filter.mp owes).2
  have vld := sound.ticket_vld member
  have index := (sound.tickets ticket member).robIndex
  have settles := sound.settles_iff contract clean running vld owed
  rw [index] at settles
  rw [Bool.eq_iff_iff]
  simp only [Function.comp_apply, unsettled, bne_iff_ne, ne_eq, ← settles, Bool.not_eq_true',
    Bool.and_eq_false_iff, beq_eq_false_iff_ne, not_and_or, Bool.not_eq_true]

/-- The tickets after a cycle belong to the entries that owe a completion after it. -/
theorem step_tickets {length' : Nat}
    (lengths : length' + (memory.lsq.deque (memory.lsqInput input)).toNat =
      length + (memory.lsq.enque (memory.lsqInput input)).toNat) :
    (memory.step counter input).tickets.map Ticket.slot =
      (slots (memory.step counter input).lsq.head length').filter
        (memory.step counter input).lsq.owed := by
  have window := sound.window
  have room := window.room
  obtain ⟨occupied, -, -, -, -⟩ := window.step_counts (sound.paced contract clean)
  have old : (memory.tickets.filter (memory.unsettled input)).map Ticket.slot =
      (slots (memory.step counter input).lsq.head
        (length - (memory.lsq.deque (memory.lsqInput input)).toNat)).filter
          (memory.step counter input).lsq.owed := by
    rw [sound.unsettled_slots contract clean running, step_lsq, Lsq.step_head running,
      ← sound.leaves_slots occupied, List.filter_filter]
    refine List.filter_congr fun i member => ?_
    obtain ⟨k, below, rfl⟩ := (mem_slots _ _ _).mp member
    have vld := (window.vld k (by omega)).mpr below
    have owes : ((memory.step counter input).lsq.owed _ = true ∧ _) ↔ _ :=
      sound.still_owed contract clean running vld
    rw [Bool.eq_iff_iff]
    simp only [Bool.and_eq_true, bne_iff_ne, Bool.not_eq_true', Bool.and_eq_false_iff,
      beq_eq_false_iff_ne]
    rw [and_comm, ← owes]
    refine and_congr_right fun _ => ?_
    rw [not_and_or, Bool.not_eq_true]
  have renamed : (memory.tickets.filter (memory.unsettled input)).map
      (Ticket.slot ∘ memory.blamed input) =
        (memory.tickets.filter (memory.unsettled input)).map Ticket.slot :=
    List.map_congr_left fun ticket _ => (blamed_slot ticket).1
  have slots' : slots (memory.step counter input).lsq.head length' =
      slots (memory.step counter input).lsq.head
          (length - (memory.lsq.deque (memory.lsqInput input)).toNat) ++
        if memory.lsq.enque (memory.lsqInput input) = true then [memory.lsq.tail] else [] := by
    have tail : advance (memory.step counter input).lsq.head
        (length - (memory.lsq.deque (memory.lsqInput input)).toNat) = memory.lsq.tail := by
      rw [step_lsq, Lsq.step_head running, advance_advance, window.tail]
      congr 1
      omega
    cases enque : memory.lsq.enque (memory.lsqInput input) with
    | false =>
      rw [enque, Bool.toNat_false] at lengths
      rw [show length' = length - (memory.lsq.deque (memory.lsqInput input)).toNat by omega]
      simp
    | true =>
      rw [enque, Bool.toNat_true] at lengths
      rw [show length' = length - (memory.lsq.deque (memory.lsqInput input)).toNat + 1 by omega,
        slots_snoc, tail]
      rfl
  have split : (memory.step counter input).tickets =
      (memory.tickets.filter (memory.unsettled input)).map (memory.blamed input) ++
        if memory.lsq.enque (memory.lsqInput input) = true then [memory.ticket input] else [] := by
    simp [step, ticketsNext, running, sound.accepts_eq clean]
  rw [split, List.map_append, List.map_map, renamed, old, slots', List.filter_append]
  congr 1
  cases enque : memory.lsq.enque (memory.lsqInput input) with
  | false => rfl
  | true =>
    have owed : (memory.step counter input).lsq.owed memory.lsq.tail = true :=
      sound.enters_owed contract clean running enque
    simp only [if_true, List.map_cons, List.map_nil, List.filter_cons, owed, List.filter_nil]
    rfl

/-- The tickets after a cycle say what their entries say. -/
theorem step_matches {ticket : Ticket} (member : ticket ∈ (memory.step counter input).tickets) :
    ticket.Matches ((memory.step counter input).lsq.entries ticket.slot) := by
  simp only [step, ticketsNext, running, Bool.false_eq_true, if_false, List.mem_append,
    List.mem_map, List.mem_filter] at member
  rcases member with ⟨old, ⟨member, left⟩, rfl⟩ | fresh
  · rw [(blamed_slot old).1]
    have inside : old.slot ∈ (slots memory.lsq.head length).filter fun i =>
        memory.settled input != some i && memory.lsq.owed i := by
      rw [← sound.unsettled_slots contract clean running]
      exact List.mem_map_of_mem (List.mem_filter.mpr ⟨member, left⟩)
    obtain ⟨place, owes⟩ := List.mem_filter.mp inside
    obtain ⟨k, below, place⟩ := (mem_slots _ _ _).mp place
    have room := sound.window.room
    have vld : (memory.lsq.entries old.slot).vld = true := by
      rw [place]
      exact (sound.window.vld k (by omega)).mpr below
    rw [Bool.and_eq_true, bne_iff_ne] at owes
    have stays := ((sound.still_owed contract clean running vld).mpr ⟨owes.2, owes.1⟩ :
      (memory.step counter input).lsq.owed old.slot = true ∧ _).2
    obtain ⟨init, -⟩ := sound.window.kept below fun deque => by
      rcases Nat.eq_zero_or_pos k with rfl | positive
      · exact absurd ⟨deque, by rw [place, advance_zero]⟩ stays
      · exact positive
    rw [← place] at init
    rw [step_lsq, Lsq.step_entries running]
    exact sound.matches_kept contract member vld init
  · split at fresh
    · rename_i accepts
      rw [sound.accepts_eq clean] at accepts
      obtain rfl := List.mem_singleton.mp fresh
      rw [step_lsq, Lsq.step_entries running]
      exact sound.enters_matches clean accepts
    · cases fresh

omit sound clean in
/-- No two tickets carry the same index. -/
theorem step_robIndex (distinct : (memory.tickets.map Ticket.robIndex).Nodup) :
    ((memory.step counter input).tickets.map Ticket.robIndex).Nodup := by
  have renamed : (memory.tickets.filter (memory.unsettled input)).map
      (Ticket.robIndex ∘ memory.blamed input) =
        (memory.tickets.filter (memory.unsettled input)).map Ticket.robIndex :=
    List.map_congr_left fun ticket _ => (blamed_slot ticket).2
  have less : ((memory.tickets.filter (memory.unsettled input)).map Ticket.robIndex).Sublist
      (memory.tickets.map Ticket.robIndex) := List.filter_sublist.map _
  simp only [step, ticketsNext, running, Bool.false_eq_true, if_false, List.map_append,
    List.map_map, renamed]
  refine List.nodup_append.mpr ⟨distinct.sublist less, ?_, ?_⟩
  · split <;> simp
  · intro index old other fresh same
    subst same
    split at fresh
    · rename_i accepts
      obtain rfl := List.mem_singleton.mp fresh
      obtain ⟨ticket, member, equal⟩ := List.mem_map.mp (less.subset old)
      exact contract.robIndex accepts ticket member equal
    · cases fresh

/-- A cycle without a flush keeps the queue, the cache and the tickets together. -/
theorem step : ∃ length' passed', Sound (memory.step counter input) length' passed' := by
  have steady := sound.steady contract clean
  obtain ⟨length', passed', looked', lengths, -⟩ : ∃ length' passed',
      Looked (memory.step counter input) length' passed' ∧ _ ∧ _ :=
    sound.toLooked.step contract.toTranslates contract.replay steady clean.toLookups running
  refine ⟨length', passed', looked', ?_, ?_, ?_, ?_,
    sound.step_apart contract clean running, sound.step_tickets contract clean running lengths, ?_,
    step_robIndex contract running sound.robIndex⟩
  · intro k inside
    have room := looked'.window.room
    exact sound.step_answered contract clean running (by omega) (by omega)
  · intro lock
    obtain ⟨stays, occupied, fault⟩ := sound.step_lock contract clean running lock
    have head : (memory.step counter input).lsq.head = memory.lsq.head := by
      simp [Lsq.step, running, stays]
    obtain ⟨init, -⟩ := sound.window.kept occupied fun deque => by
      rw [stays] at deque
      cases deque
    rw [advance_zero] at init
    refine ⟨by rw [stays, Bool.toNat_false] at lengths; omega, ?_⟩
    rw [Lsq.headEntry, head, step_lsq, Lsq.step_entries running, LsqEntry.step_kept init]
    have fault' : (memory.lsq.entries memory.lsq.head).exceptionVld = true := fault
    simp [fault']
  · intro request first _
    exact sound.step_owner contract clean running first
  · intro request flying
    exact sound.step_flying contract clean running flying
  · intro ticket member
    exact sound.step_matches contract clean running member

end Sound

/-- A flush leaves an empty queue, no tickets and no request that belongs to it. -/
theorem sound_flush (sound : Sound memory length passed) (flush : input.flush = true) :
    Sound (memory.step counter input) 0 0 := by
  obtain ⟨lsq, first, second, waiting⟩ : (memory.step counter input).lsq = Lsq.reset ∧ _ ∧ _ ∧ _ :=
    flushed flush
  have none : (memory.step counter input).flying = [] := by
    refine List.eq_nil_iff_forall_not_mem.mpr fun request flying => ?_
    obtain ⟨early | ⟨last, -⟩, live⟩ := mem_flying.mp flying
    · rw [waiting request early] at live
      cases live
    · rw [second request last] at live
      cases live
  have tickets : (memory.step counter input).tickets = [] := by
    simp [step, ticketsNext, flush]
  refine ⟨looked_flush sound.toLooked flush, ?_, ?_, ?_, ?_, ?_, ?_, ?_, ?_⟩
  · exact fun k inside => absurd inside (Nat.not_lt_zero k)
  · rw [lsq]
    exact fun lock => Bool.noConfusion lock
  · exact fun request found live => Bool.noConfusion ((first request found).symm.trans live)
  · rw [none]
    exact fun _ flying => absurd flying List.not_mem_nil
  · rw [none]
    exact List.nodup_nil
  · rw [tickets, slots_zero]
    rfl
  · rw [tickets]
    exact fun _ member => absurd member List.not_mem_nil
  · rw [tickets]
    exact List.nodup_nil

theorem reset_sound : Sound reset 0 0 where
  toLooked := reset_looked
  answered := fun k inside => absurd inside (Nat.not_lt_zero k)
  lock := fun lock => Bool.noConfusion lock
  owner := fun _ first => by cases first
  flying := fun _ flying => absurd flying List.not_mem_nil
  apart := List.nodup_nil
  owed := rfl
  tickets := fun _ member => absurd member List.not_mem_nil
  robIndex := List.nodup_nil

end Cycle

/-- Where nothing is flushed, the cycle keeps the order. -/
def Orderly (memory : Memory) (input : MemoryInput) : Prop :=
  input.flush = false → Clean memory input

/-- A completion is owed: it carries the index of a request without one, and the exception, cause
and faulting address of that request. -/
def Attributed (memory : Memory) (input : MemoryInput) : Prop :=
  (memory.comm input).done = true → ∃ ticket ∈ memory.tickets,
    (memory.comm input).robIndex = ticket.robIndex ∧
      (memory.comm input).exp = ticket.fault.isSome ∧
      ∀ cause ∈ ticket.fault, (memory.comm input).ecause = cause ∧
        (memory.comm input).etval = ticket.vaddr.setWidth 64

/-- The indices of the requests handed over and of the completions of a cycle. -/
def handedOver (memory : Memory) (input : MemoryInput) : List RobIndex :=
  if memory.accepts input then [input.request.robIndex] else []

def completed (memory : Memory) (input : MemoryInput) : List RobIndex :=
  if (memory.comm input).done then [(memory.comm input).robIndex] else []

theorem run_sound (counter : Counter2) (inputs : List MemoryInput)
    (contract : (machine counter).Obeys Contract inputs)
    (orderly : (machine counter).Obeys Orderly inputs) :
    ∃ length passed, Sound ((machine counter).run inputs) length passed := by
  induction inputs using List.reverseRecOn with
  | nil => exact ⟨0, 0, reset_sound⟩
  | append_singleton inputs input ih =>
    obtain ⟨contract, kept⟩ := Synchronous.obeys_snoc.mp contract
    obtain ⟨orderly, order⟩ := Synchronous.obeys_snoc.mp orderly
    obtain ⟨length, passed, sound⟩ := ih contract orderly
    rw [Synchronous.run_snoc]
    cases flush : input.flush with
    | true => exact ⟨0, 0, sound_flush sound flush⟩
    | false => exact sound.step kept (order flush) flush

/-- The address of a faulting request, put together from its entry. -/
theorem vaddr_parts (vaddr : VirtualAddress) :
    (((vaddr.extractLsb' 12 27).setWidth 44 ++
      (vaddr.extractLsb' 6 6 ++ vaddr.extractLsb' 0 6) : PhysicalAddress)).setWidth 64 =
        vaddr.setWidth 64 := by
  ext bit inside
  simp only [BitVec.getElem_setWidth, BitVec.getLsbD_append, BitVec.getLsbD_setWidth,
    BitVec.getLsbD_extractLsb']
  rcases Nat.lt_or_ge bit 6 with low | high
  · simp [low, show bit < 12 by omega]
  · rcases Nat.lt_or_ge bit 12 with low' | high'
    · simp [low', show ¬bit < 6 by omega, show bit - 6 < 6 by omega, show 6 + (bit - 6) = bit by omega]
    · have high'' := vaddr.getLsbD_of_ge bit
      by_cases top : bit < 39
      · simp [show ¬bit < 12 by omega, show bit - 12 < 27 by omega, show bit - 12 < 44 by omega,
          show 12 + (bit - 12) = bit by omega]
      · simp [show ¬bit < 12 by omega, show ¬bit - 12 < 27 by omega, high'' (by omega)]

section Cycle

variable {memory : Memory} {input : MemoryInput} {length passed : Nat}

/-- The ticket of the request that completes. -/
theorem Sound.attributed (sound : Sound memory length passed) (contract : Contract memory input)
    (orderly : Orderly memory input) : Attributed memory input := by
  intro done
  have running : input.flush = false := by
    rw [← Bool.not_eq_true]
    intro flush
    change memory.lsq.commVld (memory.lsqInput input) = true at done
    simp [Lsq.commVld, flush] at done
  have clean := orderly running
  rw [sound.comm_done running, Option.isSome_iff_exists] at done
  obtain ⟨i, settled⟩ := done
  obtain ⟨entry, vld, owed⟩ := sound.settled_owed contract clean settled
  obtain ⟨ticket, member, rfl⟩ := sound.ticket_of vld owed
  have said := sound.tickets ticket member
  have regular := sound.regular vld
  refine ⟨ticket, member, ?_, ?_, ?_⟩
  · change (memory.lsq.commEntry (memory.lsqInput input)).robIndex = _
    rw [entry, said.robIndex]
  · change (memory.lsq.commEntry (memory.lsqInput input)).exceptionVld = _
    rw [entry, said.fault]
    cases (memory.lsq.entries ticket.slot).exceptionVld <;> rfl
  · intro cause fault
    rw [said.fault] at fault
    split at fault
    · rename_i exception
      obtain rfl := Option.some.inj fault
      change (memory.lsq.commEntry (memory.lsqInput input)).ecause = _ ∧
        (memory.lsq.commEntry (memory.lsqInput input)).address.setWidth 64 = _
      rw [entry]
      refine ⟨rfl, ?_⟩
      have virtual : (memory.lsq.entries ticket.slot).ls = false ∨
          (memory.lsq.entries ticket.slot).virt = true := by
        cases ls : (memory.lsq.entries ticket.slot).ls with
        | false => exact .inl rfl
        | true => exact .inr (regular.fault ls exception)
      rw [LsqEntry.address, said.tag virtual, said.index, said.offset]
      exact vaddr_parts ticket.vaddr
    · cases fault

theorem machine_tickets {counter : Counter2} (running : input.flush = false) :
    ((machine counter).step memory input).tickets.map Ticket.robIndex =
      (memory.tickets.filter (memory.unsettled input)).map Ticket.robIndex ++
        memory.handedOver input := by
  have renamed : (memory.tickets.filter (memory.unsettled input)).map
      (Ticket.robIndex ∘ memory.blamed input) =
        (memory.tickets.filter (memory.unsettled input)).map Ticket.robIndex :=
    List.map_congr_left fun ticket _ => (blamed_slot ticket).2
  simp only [machine, step, ticketsNext, running, Bool.false_eq_true, if_false, List.map_append,
    List.map_map, renamed, handedOver]
  cases memory.accepts input <;> rfl

/-- A completion takes its own ticket and leaves the others. -/
theorem Sound.completes (sound : Sound memory length passed)
    (attributed : Attributed memory input) :
    (memory.tickets.map Ticket.robIndex).Perm
      (memory.completed input ++
        (memory.tickets.filter (memory.unsettled input)).map Ticket.robIndex) := by
  cases done : (memory.comm input).done with
  | false =>
    have all : memory.tickets.filter (memory.unsettled input) = memory.tickets :=
      List.filter_eq_self.mpr fun ticket _ => by simp [unsettled, done]
    simp [completed, done, all]
  | true =>
    obtain ⟨ticket, member, same, -⟩ := attributed done
    have kept : memory.unsettled input =
        (fun index => index != (memory.comm input).robIndex) ∘ Ticket.robIndex := by
      funext other
      simp [unsettled, done, bne, Bool.beq_comm]
    have owed : (memory.comm input).robIndex ∈ memory.tickets.map Ticket.robIndex :=
      same ▸ List.mem_map_of_mem member
    rw [kept, ← List.filter_map, ← sound.robIndex.erase_eq_filter]
    simpa [completed, done] using List.perm_cons_erase owed

end Cycle

/-- Along a run whose cycles keep the order, every completion belongs to a request that is owed
one, and every request handed over since the last flush has completed exactly once or is still
held by its entry. -/
theorem lsu_completions_attributed (counter : Counter2) (inputs : List MemoryInput)
    (contract : (machine counter).Obeys Contract inputs)
    (orderly : (machine counter).Obeys Orderly inputs) :
    (machine counter).Obeys Attributed inputs ∧
      ((machine counter).since (fun _ input => input.flush) handedOver inputs).Perm
        ((machine counter).since (fun _ input => input.flush) completed inputs ++
          ((machine counter).run inputs).tickets.map Ticket.robIndex) ∧
      ∀ ticket ∈ ((machine counter).run inputs).tickets,
        (((machine counter).run inputs).lsq.entries ticket.slot).vld = true ∧
          (((machine counter).run inputs).lsq.entries ticket.slot).robIndex = ticket.robIndex := by
  refine ⟨?_, ?_, ?_⟩
  · intro past input rest split
    have before : (machine counter).Obeys Contract past ∧ (machine counter).Obeys Orderly past :=
      ⟨Synchronous.obeys_prefix contract split, Synchronous.obeys_prefix orderly split⟩
    obtain ⟨length, passed, sound⟩ := run_sound counter past before.1 before.2
    exact sound.attributed (contract past input rest split) (orderly past input rest split)
  · induction inputs using List.reverseRecOn with
    | nil => exact List.Perm.refl _
    | append_singleton inputs input ih =>
      obtain ⟨contract, kept⟩ := Synchronous.obeys_snoc.mp contract
      obtain ⟨orderly, order⟩ := Synchronous.obeys_snoc.mp orderly
      obtain ⟨length, passed, sound⟩ := run_sound counter inputs contract orderly
      have completes := sound.completes (sound.attributed kept order)
      rw [Synchronous.since_snoc, Synchronous.since_snoc, Synchronous.run_snoc]
      cases flush : input.flush with
      | true =>
        have none : ((machine counter).step ((machine counter).run inputs) input).tickets = [] := by
          simp [machine, step, ticketsNext, flush]
        simp [none]
      | false =>
        rw [machine_tickets flush]
        simp only [Bool.false_eq_true, if_false]
        refine ((ih contract orderly).append_right _).trans ?_
        rw [List.append_assoc, List.append_assoc]
        refine List.Perm.append_left _ ?_
        rw [← List.append_assoc]
        exact completes.append_right _
  · obtain ⟨length, passed, sound⟩ := run_sound counter inputs contract orderly
    intro ticket member
    exact ⟨sound.ticket_vld member, (sound.tickets ticket member).robIndex⟩

instance (memory : Memory) (input : MemoryInput) : Decidable (Contract memory input) :=
  decidable_of_iff
    (Translates memory input ∧ Replays memory input ∧
      (∀ request ∈ input.reply,
        request ∈ memory.answerable input ∧ request.register = true) ∧
      (∀ request ∈ input.ack,
        request ∈ memory.answerable input ∧ request.register = false) ∧
      (memory.accepts input = true →
        ∀ ticket ∈ memory.tickets, ticket.robIndex ≠ input.request.robIndex))
    ⟨fun ⟨translates, replay, reply, ack, robIndex⟩ => ⟨translates, replay, reply, ack, robIndex⟩,
      fun ⟨translates, replay, reply, ack, robIndex⟩ => ⟨translates, replay, reply, ack, robIndex⟩⟩

instance (memory : Memory) (input : MemoryInput) : Decidable (Clean memory input) :=
  let lsq := memory.lsq
  let ports := memory.lsqInput input
  decidable_of_iff
    (Lookups memory input ∧
      (∀ request ∈ input.reply, request.live = true ∧
        (lsq.entries request.slot).exceptionVld = false ∧
          ∀ i, lsq.prfWbRdAddrMatch ports i = true →
            i = request.slot ∨ ((lsq.entries i).noPrfWb = true ∧ i < request.slot)) ∧
      (∀ request ∈ input.ack, request.live = true) ∧
      (input.replay = true → ∀ request ∈ memory.cache.second, request.live = true) ∧
      (lsq.enque ports = true → lsq.sfenceVmaAsidVldQ = true →
        input.request.isSfenceVma = false) ∧
      (lsq.stIssVld ports = true → lsq.issuedEntry.isFlush = true → input.stReqRdy = true))
    ⟨fun ⟨lookups, reply, ack, replay, room, fence⟩ => ⟨lookups, reply, ack, replay, room, fence⟩,
      fun ⟨lookups, reply, ack, replay, room, fence⟩ => ⟨lookups, reply, ack, replay, room, fence⟩⟩

instance (memory : Memory) (input : MemoryInput) : Decidable (Orderly memory input) :=
  inferInstanceAs (Decidable (_ → _))

instance (memory : Memory) (input : MemoryInput) : Decidable (Attributed memory input) :=
  inferInstanceAs (Decidable (_ → ∃ ticket ∈ memory.tickets, _))

/-- A load to `x2` and a store to the next line, with their answers in order. -/
def loadThenStore : List MemoryInput :=
  let load : LsuRequest := ⟨false, Ldu.ld.setWidth 4, 0, false, 0x1000, 0, 0, 2, 0⟩
  let store : LsuRequest := ⟨true, 0, Stu.sd, false, 0x2000, 0, 1, 0, 7⟩
  let hit : DtlbAnswer := ⟨true, true, 5, false, 0⟩
  [ { MemoryInput.quiet with vld := true, request := load },
    { MemoryInput.quiet with vld := true, request := store, dtlb := hit },
    { MemoryInput.quiet with
      reply := some ⟨0, 0, 2, true, true, true⟩, dtlb := hit, wakeup := true, wakeupRobIndex := 1 },
    MemoryInput.quiet, MemoryInput.quiet,
    { MemoryInput.quiet with ack := some ⟨1, 1, 0, false, false, true⟩ } ]

theorem lsu_completions_attributed_load_store :
    (machine Counter2.standard).Obeys Attributed loadThenStore :=
  (lsu_completions_attributed Counter2.standard loadThenStore (by decide +kernel)
    (by decide +kernel)).1

/-- A load to `x0` is answered while a store stands behind it: both carry register 0, and the
completion is given the index of the store. -/
def loadToZero : List MemoryInput :=
  let load : LsuRequest := ⟨false, Ldu.ld.setWidth 4, 0, false, 0x1000, 0, 0, 0, 0⟩
  let store : LsuRequest := ⟨true, 0, Stu.sd, false, 0x2000, 0, 1, 0, 7⟩
  let hit : DtlbAnswer := ⟨true, true, 5, false, 0⟩
  [ { MemoryInput.quiet with vld := true, request := load },
    { MemoryInput.quiet with vld := true, request := store, dtlb := hit },
    { MemoryInput.quiet with
      reply := some ⟨0, 0, 0, true, true, true⟩, dtlb := hit, wakeup := true, wakeupRobIndex := 1 },
    MemoryInput.quiet, MemoryInput.quiet,
    { MemoryInput.quiet with ack := some ⟨1, 1, 0, false, false, true⟩ } ]

theorem lsu_completions_confused :
    (machine Counter2.standard).Obeys Contract loadToZero ∧
      ¬(machine Counter2.standard).Obeys Attributed loadToZero ∧
      (machine Counter2.standard).since (fun _ input => input.flush) handedOver loadToZero = [0, 1] ∧
      (machine Counter2.standard).since (fun _ input => input.flush) completed loadToZero = [1, 1] := by
  refine ⟨by decide +kernel, by decide +kernel, by decide +kernel, by decide +kernel⟩

end Memory

end GreenRio
