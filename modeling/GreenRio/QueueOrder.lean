import GreenRio.Aligned

set_option autoImplicit false

namespace GreenRio

open Circular

/-- The valid entries are those from head to tail, the issue pointer is among them or right behind
them, what stands before it is executed and what stands behind it is not. The entry at the pointer
is executed only as a flushing fence that the pointer passes in this cycle. -/
def Lsq.InOrder (lsq : Lsq) : Prop :=
  ∃ length passed, length ≤ 8 ∧ passed ≤ length ∧ lsq.tail = advance lsq.head length ∧
    lsq.issued = advance lsq.head passed ∧
    (∀ k < 8, ((lsq.entries (advance lsq.head k)).vld = true ↔ k < length)) ∧
    (∀ k < passed, (lsq.entries (advance lsq.head k)).exec = true) ∧
    (passed < length → lsq.issuedEntry.exec = lsq.flushing) ∧
    ∀ k < length, passed < k → (lsq.entries (advance lsq.head k)).exec = false

theorem Lsq.Window.inOrder {lsq : Lsq} {length passed : Nat} (window : lsq.Window length passed) :
    lsq.InOrder := by
  refine ⟨length, passed, window.room, window.inside, window.tail, window.issued, window.vld,
    fun k before => ?_, fun inside => ?_, fun k inside behind => ?_⟩
  · exact (window.exec k (Nat.lt_of_lt_of_le before window.inside)).mpr (.inl before)
  · rw [Bool.eq_iff_iff, Lsq.issuedEntry, window.issued, window.exec passed inside]
    simp
  · rw [← Bool.not_eq_true, window.exec k inside]
    omega

namespace Memory

/-- Where nothing is flushed, the pointers keep their order. -/
def Undisturbed (memory : Memory) (input : MemoryInput) : Prop :=
  input.flush = false → Steady memory input

theorem run_aligned (counter : Counter2) (inputs : List MemoryInput)
    (replays : (machine counter).Obeys Replays inputs)
    (undisturbed : (machine counter).Obeys Undisturbed inputs) :
    ∃ length passed, Aligned ((machine counter).run inputs) length passed := by
  induction inputs using List.reverseRecOn with
  | nil => exact ⟨0, 0, reset_aligned⟩
  | append_singleton inputs input ih =>
    obtain ⟨replays, genuine⟩ := Synchronous.obeys_snoc.mp replays
    obtain ⟨undisturbed, steady⟩ := Synchronous.obeys_snoc.mp undisturbed
    obtain ⟨length, passed, aligned⟩ := ih replays undisturbed
    rw [Synchronous.run_snoc]
    cases flush : input.flush with
    | true => exact ⟨0, 0, aligned_flush aligned flush⟩
    | false =>
      obtain ⟨length', passed', aligned', -⟩ : ∃ length' passed',
          Aligned ((machine counter).step ((machine counter).run inputs) input) length' passed' ∧
            _ ∧ _ :=
        aligned.step genuine (steady flush) flush
      exact ⟨length', passed', aligned'⟩

/-- In a run whose cycles are steady the queue is in order in every state. -/
theorem lsq_queue_in_order (counter : Counter2) (inputs : List MemoryInput)
    (replays : (machine counter).Obeys Replays inputs)
    (undisturbed : (machine counter).Obeys Undisturbed inputs) :
    ((machine counter).run inputs).lsq.InOrder := by
  obtain ⟨length, passed, aligned⟩ := run_aligned counter inputs replays undisturbed
  exact aligned.window.inOrder

instance (memory : Memory) (input : MemoryInput) : Decidable (Undisturbed memory input) :=
  inferInstanceAs (Decidable (_ → _))

/-- A `FENCE.I`, woken when it enters, that is issued while the cache takes stores or not, and the
grants it waits for. -/
def fenceI (stReqRdy : Bool) : List MemoryInput :=
  [ { MemoryInput.quiet with
      vld := true, request := ⟨true, 0, Stu.fenceI, true, 0, 0, 0, 0, 0⟩, wakeup := true },
    { MemoryInput.quiet with stReqRdy := stReqRdy },
    { MemoryInput.quiet with grants := ⟨true, true, false, false⟩ },
    MemoryInput.quiet, MemoryInput.quiet ]

theorem lsq_queue_in_order_fence : ((machine Counter2.standard).run (fenceI true)).lsq.InOrder :=
  lsq_queue_in_order Counter2.standard (fenceI true) (by decide +kernel) (by decide +kernel)

/-- The `FENCE.I` leaves the queue without being passed: the queue is empty, and its issue pointer
is not where the next request enters. -/
theorem lsq_queue_out_of_order :
    (machine Counter2.standard).Obeys Replays (fenceI false) ∧
      ¬((machine Counter2.standard).run (fenceI false)).lsq.InOrder := by
  refine ⟨by decide +kernel, ?_⟩
  rintro ⟨length, passed, -, inside, -, issued, vld, -⟩
  have empty : length = 0 := by
    by_contra occupied
    have head := (vld 0 (by omega)).mpr (by omega)
    rw [advance_zero] at head
    exact absurd head (by decide +kernel)
  obtain rfl : passed = 0 := by omega
  rw [advance_zero] at issued
  exact absurd issued (by decide +kernel)

end Memory

end GreenRio
