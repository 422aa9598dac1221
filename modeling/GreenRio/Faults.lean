import GreenRio.Attribution

set_option autoImplicit false

namespace GreenRio

open Circular

/-- The unit, with the entries whose request has been on the store port. -/
structure Presenting where
  memory : Memory
  shown : LsqIndex → Bool

namespace Presenting

def reset : Presenting := ⟨Memory.reset, fun _ => false⟩

section Signals

variable (state : Presenting) (input : MemoryInput)

def enters (i : LsqIndex) : Bool :=
  state.memory.lsq.enque (state.memory.lsqInput input) && i == state.memory.lsq.tail

def shownNext (i : LsqIndex) : Bool :=
  !state.enters input i &&
    (state.shown i ||
      (state.memory.lsq.stReqVld (state.memory.lsqInput input) && i == state.memory.lsq.issued))

end Signals

def step (counter : Counter2) (state : Presenting) (input : MemoryInput) : Presenting where
  memory := state.memory.step counter input
  shown := state.shownNext input

def machine (counter : Counter2) : Synchronous Presenting MemoryInput := ⟨reset, step counter⟩

/-- An exception is reported. -/
def reports (memory : Memory) (input : MemoryInput) : Bool :=
  (memory.comm input).done && (memory.comm input).exp

/-- A request that is on the store port has no fault, not even one found in that cycle, no bus
transaction starts, what is reported is the fault of the head with its own index, cause and address,
and the fault of the head is reported unless a register is answered in that cycle. A report settles
its request, and an unreported fault stays. -/
structure Contained (memory : Memory) (input : MemoryInput) : Prop where
  store : memory.lsq.stReqVld (memory.lsqInput input) = true →
    ∃ ticket ∈ memory.tickets, ticket.slot = memory.lsq.issued ∧
      (memory.blamed input ticket).fault = none
  bus : memory.lsq.busCtrlIssVld (memory.lsqInput input) = false
  report : reports memory input = true → ∃ ticket ∈ memory.tickets,
    ticket.slot = memory.lsq.head ∧ (memory.comm input).robIndex = ticket.robIndex ∧
      ticket.fault = some (memory.comm input).ecause ∧
      (memory.comm input).etval = ticket.vaddr.setWidth 64
  prompt : input.flush = false → input.reply = none → ∀ ticket ∈ memory.tickets,
    ticket.slot = memory.lsq.head → ticket.fault ≠ none →
      reports memory input = true ∧ (memory.comm input).robIndex = ticket.robIndex
  once : input.flush = false → ∀ ticket ∈ memory.tickets, ticket.fault ≠ none →
    if reports memory input && (memory.comm input).robIndex == ticket.robIndex then
      ∀ other ∈ memory.tickets.filter (memory.unsettled input), other.robIndex ≠ ticket.robIndex
    else
      ticket ∈ memory.tickets.filter (memory.unsettled input) ∧
        (memory.blamed input ticket).fault ≠ none

end Presenting

namespace Memory

section Cycle

variable {memory : Memory} {input : MemoryInput} {length passed : Nat}

namespace Sound

variable (sound : Sound memory length passed) (contract : Contract memory input)
  (clean : Clean memory input) (running : input.flush = false)
include sound

theorem ticket_owed {ticket : Ticket} (member : ticket ∈ memory.tickets) :
    memory.lsq.owed ticket.slot = true := by
  have owes : ticket.slot ∈ (slots memory.lsq.head length).filter memory.lsq.owed := by
    rw [← sound.owed]
    exact List.mem_map_of_mem member
  exact (List.mem_filter.mp owes).2

/-- A fault is the exception of the entry. -/
theorem fault_ne {ticket : Ticket} (member : ticket ∈ memory.tickets) :
    ticket.fault ≠ none ↔ (memory.lsq.entries ticket.slot).exceptionVld = true := by
  rw [(sound.tickets ticket member).fault]
  cases (memory.lsq.entries ticket.slot).exceptionVld <;> simp

theorem same_ticket {ticket other : Ticket} (left : ticket ∈ memory.tickets)
    (right : other ∈ memory.tickets) (same : ticket.robIndex = other.robIndex) :
    ticket = other :=
  List.inj_on_of_nodup_map sound.robIndex left right same

include contract

/-- A store that is issued was translated without a fault, and none arrives for it. -/
theorem stored_clear (request : memory.lsq.stReqVld (memory.lsqInput input) = true) :
    ∃ ticket ∈ memory.tickets, ticket.slot = memory.lsq.issued ∧
      (memory.blamed input ticket).fault = none := by
  have issue : memory.lsq.stIssVld (memory.lsqInput input) = true := by
    simp only [Lsq.stReqVld, Bool.and_eq_true] at request
    exact request.1.1.1
  have vld := sound.window.issued_vld (sound.window.issue_passed issue).1.1
  simp only [Lsq.stIssVld, Bool.and_eq_true, Bool.or_eq_true, Bool.not_eq_true'] at issue
  obtain ⟨⟨⟨⟨⟨⟨⟨-, ls⟩, -⟩, ready⟩, -⟩, -⟩, fine⟩, idle⟩ := issue
  have owed : memory.lsq.owed memory.lsq.issued = true := by
    refine Lsq.owed_iff.mpr ⟨fun register => ?_, ?_⟩
    · rw [← Bool.not_eq_true]
      intro succ
      have executed := ((sound.regular vld).answered (plain_of_register vld register) succ).1
      rw [← Lsq.issuedEntry, idle] at executed
      cases executed
    · rintro ⟨-, fault, -⟩
      rw [← Lsq.issuedEntry, fine] at fault
      cases fault
  obtain ⟨ticket, member, slot⟩ := sound.ticket_of vld owed
  have none : ticket.fault = none := by
    by_contra fault
    rw [← ne_eq, sound.fault_ne member, slot, ← Lsq.issuedEntry, fine] at fault
    cases fault
  have quiet : input.dtlb.vld = false := by
    rw [← Bool.not_eq_true]
    intro answer
    obtain ⟨virt, plain, -⟩ := (sound.answer_asked contract.toTranslates answer vld).2.store ls
    rcases ready with real | fence
    · rw [virt] at real
      cases real
    · rw [plain] at fence
      cases fence
  exact ⟨ticket, member, slot, by simp [blamed, quiet, none]⟩

include clean running

/-- Only the head reports an exception. -/
theorem reports_head (reports : Presenting.reports memory input = true) :
    memory.settled input = some memory.lsq.head := by
  simp only [Presenting.reports, Bool.and_eq_true] at reports
  obtain ⟨done, exp⟩ := reports
  rw [sound.comm_done running, Option.isSome_iff_exists] at done
  obtain ⟨i, settled⟩ := done
  cases reply : input.reply with
  | some request =>
    obtain ⟨-, -, -, fault, -⟩ := sound.reply_flying reply contract clean
    have entry := (sound.settled_owed contract clean settled).1
    simp only [Memory.settled, reply, Option.some.injEq] at settled
    change (memory.lsq.commEntry (memory.lsqInput input)).exceptionVld = true at exp
    rw [entry, ← settled, fault] at exp
    cases exp
  | none =>
    have head := settled
    simp only [Memory.settled, reply, Option.ite_none_right_eq_some, Option.some.injEq] at head
    rw [settled, head.2]

theorem contained : Presenting.Contained memory input where
  store := sound.stored_clear contract
  bus := by simp [Lsq.busCtrlIssVld, sound.pmaIsIo_false]
  report := by
    intro reports
    have settled := sound.reports_head contract clean running reports
    obtain ⟨-, vld, owed⟩ := sound.settled_owed contract clean settled
    obtain ⟨ticket, member, slot⟩ := sound.ticket_of vld owed
    simp only [Presenting.reports, Bool.and_eq_true] at reports
    obtain ⟨done, exp⟩ := reports
    obtain ⟨other, member', index, fault, known⟩ :=
      sound.attributed contract (fun _ => clean) done
    have settles := (sound.settles_iff contract clean running vld owed).mpr settled
    obtain rfl := sound.same_ticket member member' <| by
      rw [← index, settles.2, ← slot, (sound.tickets ticket member).robIndex]
    rw [exp, eq_comm, Option.isSome_iff_exists] at fault
    obtain ⟨cause, fault⟩ := fault
    obtain ⟨ecause, etval⟩ := known cause fault
    exact ⟨ticket, member, slot, index, by rw [fault, ecause], etval⟩
  prompt := by
    intro _ reply ticket member slot fault
    rw [sound.fault_ne member, slot] at fault
    have owed := sound.ticket_owed member
    have vld := sound.ticket_vld member
    rw [slot] at owed vld
    have unlocked : memory.lsq.exceptionLock = false := by
      rw [← Bool.not_eq_true]
      exact fun lock => (Lsq.owed_iff.mp owed).2 ⟨rfl, fault, lock⟩
    have pending : memory.lsq.exceptionPending = true := by
      simp [Lsq.exceptionPending, Lsq.headEntry, vld, fault, unlocked]
    have settled : memory.settled input = some memory.lsq.head := by
      simp [settled, reply, pending]
    obtain ⟨done, index⟩ := (sound.settles_iff contract clean running vld owed).mpr settled
    have entry := (sound.settled_owed contract clean settled).1
    have exp : (memory.comm input).exp = true := by
      change (memory.lsq.commEntry (memory.lsqInput input)).exceptionVld = true
      rw [entry, fault]
    refine ⟨by rw [Presenting.reports, done, exp]; rfl, ?_⟩
    rw [index, ← slot, (sound.tickets ticket member).robIndex]
  once := by
    intro _ ticket member fault
    split
    · rename_i reported
      simp only [Presenting.reports, Bool.and_eq_true, beq_iff_eq] at reported
      obtain ⟨⟨done, -⟩, index⟩ := reported
      intro other left same
      have unsettled := (List.mem_filter.mp left).2
      simp [Memory.unsettled, done, index, same] at unsettled
    · rename_i unreported
      refine ⟨List.mem_filter.mpr ⟨member, ?_⟩, ?_⟩
      · rw [Memory.unsettled, Bool.not_eq_true', ← Bool.not_eq_true, Bool.and_eq_true, beq_iff_eq]
        rintro ⟨done, index⟩
        obtain ⟨other, member', index', exp, -⟩ :=
          sound.attributed contract (fun _ => clean) done
        obtain rfl := sound.same_ticket member member' (index.symm.trans index')
        rw [Option.isSome_iff_ne_none.mpr fault] at exp
        simp [Presenting.reports, done, exp, index] at unreported
      · rw [blamed]
        split
        · exact Option.some_ne_none _
        · exact fault

end Sound

theorem contained_flush (sound : Sound memory length passed) (flush : input.flush = true) :
    Presenting.Contained memory input where
  store := by
    intro request
    simp [Lsq.stReqVld, flush] at request
  bus := by simp [Lsq.busCtrlIssVld, sound.pmaIsIo_false]
  report := by
    intro reports
    simp only [Presenting.reports, Bool.and_eq_true] at reports
    have done : memory.lsq.commVld (memory.lsqInput input) = true := reports.1
    simp [Lsq.commVld, flush] at done
  prompt := fun running => by
    rw [flush] at running
    cases running
  once := fun running => by
    rw [flush] at running
    cases running

end Cycle

end Memory

namespace Presenting

/-- What has been on the store port was translated without an exception. -/
structure Safe (state : Presenting) (length passed : Nat) : Prop where
  sound : state.memory.Sound length passed
  shown : ∀ k < length, state.shown (advance state.memory.lsq.head k) = true →
    (state.memory.lsq.entries (advance state.memory.lsq.head k)).ls = true ∧
      ((state.memory.lsq.entries (advance state.memory.lsq.head k)).virt = false ∨
        (state.memory.lsq.entries (advance state.memory.lsq.head k)).isFenceReq = true) ∧
      (state.memory.lsq.entries (advance state.memory.lsq.head k)).exceptionVld = false

section Cycle

variable {state : Presenting} {input : MemoryInput} {length passed : Nat} {counter : Counter2}

namespace Safe

variable (safe : Safe state length passed) (contract : state.memory.Contract input)
include safe

theorem shown_of {i : LsqIndex} (vld : (state.memory.lsq.entries i).vld = true)
    (shown : state.shown i = true) : (state.memory.lsq.entries i).ls = true ∧
      ((state.memory.lsq.entries i).virt = false ∨
        (state.memory.lsq.entries i).isFenceReq = true) ∧
      (state.memory.lsq.entries i).exceptionVld = false := by
  obtain ⟨k, inside, rfl⟩ := safe.sound.position vld
  exact safe.shown k inside shown

include contract

/-- An entry that stays and has been on the store port receives no translation any more. -/
theorem shown_kept {i : LsqIndex} (vld : (state.memory.lsq.entries i).vld = true)
    (stays : (state.memory.lsq.entryPorts (state.memory.lsqInput input) i).init = false)
    (shown : state.shownNext input i = true) :
    let entry := (state.memory.lsq.entries i).step
      (state.memory.lsq.entryPorts (state.memory.lsqInput input) i)
    entry.ls = true ∧ (entry.virt = false ∨ entry.isFenceReq = true) ∧
      entry.exceptionVld = false := by
  have known : (state.memory.lsq.entries i).ls = true ∧
      ((state.memory.lsq.entries i).virt = false ∨
        (state.memory.lsq.entries i).isFenceReq = true) ∧
      (state.memory.lsq.entries i).exceptionVld = false := by
    simp only [shownNext, Bool.and_eq_true, Bool.or_eq_true, beq_iff_eq] at shown
    rcases shown.2 with before | ⟨request, rfl⟩
    · exact safe.shown_of vld before
    · simp only [Lsq.stReqVld, Lsq.stIssVld, Bool.and_eq_true, Bool.or_eq_true,
        Bool.not_eq_true'] at request
      obtain ⟨⟨⟨⟨⟨⟨⟨⟨⟨⟨⟨-, -⟩, ls⟩, -⟩, ready⟩, -⟩, -⟩, fine⟩, -⟩, -⟩, -⟩, -⟩ := request
      exact ⟨ls, ready, fine⟩
  have silent : (state.memory.lsq.entryPorts (state.memory.lsqInput input) i).dtlbVld = false := by
    rw [← Bool.not_eq_true]
    intro answer
    simp only [Lsq.entryPorts, Memory.lsqInput_dtlb, Bool.and_eq_true, beq_iff_eq] at answer
    obtain ⟨answer, rfl⟩ := answer
    obtain ⟨virt, plain, -⟩ :=
      (safe.sound.answer_asked contract.toTranslates answer vld).2.store known.1
    rcases known.2.1 with real | fence
    · rw [Lsq.issuedEntry, real] at virt
      cases virt
    · rw [Lsq.issuedEntry, fence] at plain
      cases plain
  rw [LsqEntry.step_kept stays]
  refine ⟨known.1, known.2.1.imp (fun real => ?_) fun fence => fence, ?_⟩
  · simp [silent, real]
  · simp [silent, known.2.2]

/-- A cycle without a flush keeps what was shown free of faults. -/
theorem step (clean : state.memory.Clean input) (running : input.flush = false) :
    ∃ length' passed', Safe (state.step counter input) length' passed' := by
  obtain ⟨length', passed', sound'⟩ : ∃ length' passed',
      (state.memory.step counter input).Sound length' passed' :=
    safe.sound.step contract clean running
  refine ⟨length', passed', sound', fun k inside shown => ?_⟩
  have window := safe.sound.window
  have room := window.room
  have room' := sound'.window.room
  have lsq : (state.step counter input).memory.lsq =
      state.memory.lsq.step counter (state.memory.lsqInput input) := rfl
  have place : advance (state.step counter input).memory.lsq.head k =
      advance state.memory.lsq.head
        (k + (state.memory.lsq.deque (state.memory.lsqInput input)).toNat) := by
    rw [lsq, Lsq.step_head running, advance_advance, Nat.add_comm]
  have vld' := (sound'.window.vld k (by omega)).mpr inside
  rw [place] at shown ⊢
  change state.shownNext input _ = true at shown
  rw [lsq, Lsq.step_entries running]
  cases init : (state.memory.lsq.entryPorts (state.memory.lsqInput input)
      (advance state.memory.lsq.head
        (k + (state.memory.lsq.deque (state.memory.lsqInput input)).toNat))).init with
  | true =>
    have fresh : state.enters input (advance state.memory.lsq.head
        (k + (state.memory.lsq.deque (state.memory.lsqInput input)).toNat)) = true := init
    simp [shownNext, fresh] at shown
  | false =>
    have moved : (state.memory.lsq.step counter (state.memory.lsqInput input)).entries _ = _ :=
      Lsq.step_at running k
    have vld : (state.memory.lsq.entries (advance state.memory.lsq.head
        (k + (state.memory.lsq.deque (state.memory.lsqInput input)).toNat))).vld = true := by
      change ((state.memory.lsq.step counter (state.memory.lsqInput input)).entries
        (advance (state.memory.lsq.step counter (state.memory.lsqInput input)).head k)).vld =
          true at vld'
      rw [moved, LsqEntry.step_kept init, Bool.and_eq_true] at vld'
      exact vld'.1
    exact safe.shown_kept contract vld init shown

end Safe

theorem safe_flush (safe : Safe state length passed) (flush : input.flush = true) :
    Safe (state.step counter input) 0 0 :=
  ⟨Memory.sound_flush safe.sound flush, fun k inside => absurd inside (Nat.not_lt_zero k)⟩

theorem reset_safe : Safe reset 0 0 :=
  ⟨Memory.reset_sound, fun k inside => absurd inside (Nat.not_lt_zero k)⟩

end Cycle

def Contract (state : Presenting) (input : MemoryInput) : Prop := state.memory.Contract input

def Orderly (state : Presenting) (input : MemoryInput) : Prop := state.memory.Orderly input

theorem run_safe (counter : Counter2) (inputs : List MemoryInput)
    (contract : (machine counter).Obeys Contract inputs)
    (orderly : (machine counter).Obeys Orderly inputs) :
    ∃ length passed, Safe ((machine counter).run inputs) length passed := by
  induction inputs using List.reverseRecOn with
  | nil => exact ⟨0, 0, reset_safe⟩
  | append_singleton inputs input ih =>
    obtain ⟨contract, kept⟩ := Synchronous.obeys_snoc.mp contract
    obtain ⟨orderly, order⟩ := Synchronous.obeys_snoc.mp orderly
    obtain ⟨length, passed, safe⟩ := ih contract orderly
    rw [Synchronous.run_snoc]
    cases flush : input.flush with
    | true => exact ⟨0, 0, safe_flush safe flush⟩
    | false => exact safe.step kept (order flush) flush

/-- Along a run whose cycles keep the order, a fault is contained in every cycle, and what has been
on the store port has no fault. -/
theorem lsu_faults_contained (counter : Counter2) (inputs : List MemoryInput)
    (contract : (machine counter).Obeys Contract inputs)
    (orderly : (machine counter).Obeys Orderly inputs) :
    (machine counter).Obeys (fun state input => Contained state.memory input) inputs ∧
      ∀ ticket ∈ ((machine counter).run inputs).memory.tickets,
        ((machine counter).run inputs).shown ticket.slot = true → ticket.fault = none := by
  constructor
  · intro past input rest split
    obtain ⟨length, passed, safe⟩ := run_safe counter past
      (Synchronous.obeys_prefix contract split) (Synchronous.obeys_prefix orderly split)
    cases flush : input.flush with
    | true => exact Memory.contained_flush safe.sound flush
    | false =>
      exact safe.sound.contained (contract past input rest split)
        (orderly past input rest split flush) flush
  · intro ticket member shown
    obtain ⟨length, passed, safe⟩ := run_safe counter inputs contract orderly
    by_contra fault
    have fine := (safe.shown_of (safe.sound.ticket_vld member) shown).2.2
    rw [← ne_eq, safe.sound.fault_ne member, fine] at fault
    cases fault

instance (state : Presenting) (input : MemoryInput) : Decidable (Contract state input) :=
  inferInstanceAs (Decidable (state.memory.Contract input))

instance (state : Presenting) (input : MemoryInput) : Decidable (Orderly state input) :=
  inferInstanceAs (Decidable (state.memory.Orderly input))

/-- A load to `x2` or to `x0`, and a misaligned store behind it. -/
def loadAndMisaligned (rdAddr : PhyReg) : List MemoryInput :=
  let load : LsuRequest := ⟨false, Ldu.ld.setWidth 4, 0, false, 0x1000, 0, 0, rdAddr, 0⟩
  let store : LsuRequest := ⟨true, 0, Stu.sd, false, 0x2001, 0, 1, 0, 7⟩
  [ { MemoryInput.quiet with vld := true, request := load },
    { MemoryInput.quiet with vld := true, request := store, dtlb := ⟨true, true, 5, false, 0⟩ },
    { MemoryInput.quiet with reply := some ⟨0, 0, rdAddr, true, true, true⟩ },
    MemoryInput.quiet, MemoryInput.quiet ]

theorem lsu_faults_contained_misaligned :
    (machine Counter2.standard).Obeys (fun state input => Contained state.memory input)
      (loadAndMisaligned 2) :=
  (lsu_faults_contained Counter2.standard (loadAndMisaligned 2) (by decide +kernel)
    (by decide +kernel)).1

/-- The answer of the load to `x0` reports the misaligned store before it is the head, and the
store is reported again as the head. -/
theorem lsu_faults_reported_twice :
    (machine Counter2.standard).Obeys Contract (loadAndMisaligned 0) ∧
      ¬(machine Counter2.standard).Obeys (fun state input => Contained state.memory input)
        (loadAndMisaligned 0) ∧
      (Memory.machine Counter2.standard).since (fun _ input => input.flush)
        (fun memory input =>
          if reports memory input then [(memory.comm input).robIndex] else [])
        (loadAndMisaligned 0) = [1, 1] := by
  refine ⟨by decide +kernel, fun obeys => ?_, by decide +kernel⟩
  obtain ⟨ticket, member, slot, index, -⟩ :=
    (obeys ((loadAndMisaligned 0).take 2) _ _ rfl).report (by decide +kernel)
  revert ticket
  decide +kernel

end Presenting

end GreenRio
