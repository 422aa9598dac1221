import GreenRio.Numbering
import GreenRio.Observed

set_option autoImplicit false

namespace GreenRio

open Circular Counter Fifo

namespace Backend

/-- A pair is dispatched whose first instruction is a CSR operation that has to wait and whose
second is a memory operation that is ready, nothing stored is kept in sequence, and a port is left
for the second. The arbiter does not count the new CSR operation as one to be kept in sequence. -/
def Overtaken (backend : Backend) (input : RcuInput) : Prop :=
  input.offer.first.isCsr = true ∧ backend.selectReady input .first = false ∧
    input.offer.second.isMemory = true ∧ backend.selectReady input .second = true ∧
    input.offer.first.isMemory = false ∧
    (∀ index, backend.loadStore input (.slot index) = false) ∧
    ((slots backend.rcu.cmtRobIndex 16).filter
      fun index => backend.selectReady input (.slot index)).length ≤ 1

variable {backend : Backend} {input : RcuInput}

/-- The second new operation is the oldest one in sequence when no other request is. -/
theorem second_oldest_iff (memory : input.offer.second.isMemory = true) :
    backend.requesters.find? (backend.loadStore input) = some .second ↔
      (∀ index, backend.loadStore input (.slot index) = false) ∧
        input.offer.first.isMemory = false := by
  have first : backend.loadStore input .first = input.offer.first.isMemory := rfl
  have second : backend.loadStore input .second = true := memory
  rw [requesters, List.find?_append]
  constructor
  · intro found
    cases stored : ((slots backend.rcu.cmtRobIndex 16).map Requester.slot).find?
        (backend.loadStore input) with
    | some requester =>
      obtain ⟨index, -, rfl⟩ := List.mem_map.mp (List.mem_of_find?_eq_some stored)
      simp [stored] at found
    | none =>
      have none := List.find?_eq_none.mp stored
      refine ⟨fun index => ?_, ?_⟩
      · simpa using none _ (List.mem_map_of_mem (mem_slots_full _ index))
      · cases isMemory : input.offer.first.isMemory
        · rfl
        · simp [stored, first, isMemory] at found
  · rintro ⟨none, other⟩
    have stored : ((slots backend.rcu.cmtRobIndex 16).map Requester.slot).find?
        (backend.loadStore input) = Option.none := by
      rw [List.find?_eq_none]
      intro requester member
      obtain ⟨index, -, rfl⟩ := List.mem_map.mp member
      simp [none index]
    simp [stored, first, other, second]

/-- With the first new operation not ready, the requests left are the stored ones and the
second. -/
theorem eligible_requesters (waits : backend.selectReady input .first = false)
    (oldest : backend.eligible input .second = true) :
    backend.requesters.filter (backend.eligible input) =
      ((slots backend.rcu.cmtRobIndex 16).filter
        fun index => backend.eligible input (.slot index)).map Requester.slot ++ [.second] := by
  have idle : backend.eligible input .first = false := by simp [eligible, waits]
  rw [requesters, List.filter_append, List.filter_map]
  simp [idle, oldest, Function.comp_def]

theorem second_granted_iff (memory : input.offer.second.isMemory = true)
    (waits : backend.selectReady input .first = false) :
    .second ∈ backend.grants input ↔
      backend.selectReady input .second = true ∧ input.offer.first.isMemory = false ∧
        (∀ index, backend.loadStore input (.slot index) = false) ∧
        ((slots backend.rcu.cmtRobIndex 16).filter
          fun index => backend.selectReady input (.slot index)).length ≤ 1 := by
  have stored : (∀ index, backend.loadStore input (.slot index) = false) →
      ∀ index, backend.eligible input (.slot index) = backend.selectReady input (.slot index) := by
    intro none index
    simp [eligible, none index]
  constructor
  · intro granted
    have eligible := grants_eligible granted
    obtain ⟨none, other⟩ := (second_oldest_iff memory).mp (memory_oldest granted memory)
    refine ⟨eligible_ready eligible, other, none, ?_⟩
    rw [grants, eligible_requesters waits eligible, List.take_append, List.mem_append] at granted
    rcases granted with before | last
    · obtain ⟨index, -, same⟩ := List.mem_map.mp (List.mem_of_mem_take before)
      cases same
    · simp only [stored none, List.length_map] at last
      by_contra many
      simp [show 2 - _ = 0 from Nat.sub_eq_zero_of_le (Nat.lt_of_not_le many)] at last
  · rintro ⟨ready, other, none, few⟩
    have eligible : backend.eligible input .second = true := by
      simp [Backend.eligible, ready, (second_oldest_iff memory).mpr ⟨none, other⟩]
    rw [grants, eligible_requesters waits eligible, List.take_of_length_le]
    · simp
    · simp only [stored none, List.length_append, List.length_map, List.length_singleton]
      omega

/-- The first new operation is granted with the second unless it is not ready. -/
theorem first_granted (granted : .second ∈ backend.grants input)
    (ready : backend.selectReady input .first = true)
    (other : input.offer.first.isMemory = false) : .first ∈ backend.grants input := by
  have first : backend.loadStore input .first = false := other
  have eligible : backend.eligible input .first = true := by simp [Backend.eligible, ready, first]
  have eligible' := grants_eligible granted
  rw [grants, requesters, List.filter_append, List.take_append, List.mem_append] at granted ⊢
  simp only [List.filter_cons, eligible, eligible', if_true, List.filter_nil]
    at granted ⊢
  rcases granted with before | last
  · obtain ⟨index, -, same⟩ :=
      List.mem_map.mp (List.mem_filter.mp (List.mem_of_mem_take before)).1
    cases same
  · right
    revert last
    rcases 2 - _ with _ | _ | count <;> simp

end Backend

namespace Numbered

/-- No operation enters the load/store queue while an older CSR operation is still to be
selected. -/
def CsrFirst (numbered : Numbered) (selected : List Nat) (input : BackendInput) : Prop :=
  ∀ issued ∈ numbered.backend.lsuQueueWrites input, ∀ index, Ordered.Live numbered input index →
    ((numbered.step input).backend.rcu.rob index).isCsr = true →
    numbered.label input index < numbered.label input issued.robIndex →
    numbered.label input index ∈ selected ++ numbered.selections input

variable {numbered : Numbered} {input : BackendInput} {length : Nat} {selected memory : List Nat}

/-- The flag is only set for slots in use whose instruction has been selected. -/
def Marked (numbered : Numbered) (selected : List Nat) : Prop :=
  ∀ index, numbered.backend.issue.robSelected index = true →
    numbered.backend.rcu.robUsed index = true ∧ numbered.serial index ∈ selected

theorem Marked.step (marked : Marked numbered selected)
    (window : Rcu.Window numbered.backend.rcu length) (input : BackendInput) :
    Marked (numbered.step input) (selected ++ numbered.selections input) := by
  intro index flag
  cases fault : numbered.backend.rcu.globalSpeculateFault input.toRcuInput
  · obtain ⟨source, stays⟩ := (Backend.step_selected_iff input fault index).mp flag
    rcases source with before | ⟨issued, member, rfl⟩
    · obtain ⟨used, chosen⟩ := marked index before
      refine ⟨Rcu.step_used_of_stays input.toRcuInput fault used stays, ?_⟩
      rw [show (numbered.step input).serial index = numbered.serial index from
        Ordered.label_used used]
      exact List.mem_append_left _ chosen
    · refine ⟨?_, List.mem_append_right _ (List.mem_map_of_mem member)⟩
      rcases Ordered.issued_live member with used | fresh
      · exact Rcu.step_used_of_stays input.toRcuInput fault used stays
      · exact (window.fresh_used input.toRcuInput fault fresh).2
  · simp [Numbered.step, Backend.step, fault] at flag

theorem run_marked (inputs : List BackendInput) :
    Marked (machine.run inputs) (machine.log selections inputs) := by
  induction inputs using List.reverseRecOn with
  | nil =>
    intro index flag
    cases flag
  | append_singleton inputs input ih =>
    obtain ⟨length, ordered⟩ := run_ordered inputs
    rw [Synchronous.run_snoc, Synchronous.log_snoc]
    exact ih.step ordered.window input

/-- The number of an operation on a port tells where it comes from. -/
theorem label_cases (ordered : Ordered numbered length selected memory) {issued : Issued}
    (member : issued ∈ numbered.backend.issues input.toRcuInput) :
    numbered.label input issued.robIndex < numbered.count ∨
      (numbered.label input issued.robIndex = numbered.count ∧
        .first ∈ numbered.backend.grants input.toRcuInput) ∨
      (numbered.label input issued.robIndex = numbered.count + 1 ∧
        .second ∈ numbered.backend.grants input.toRcuInput ∧
        issued.entry.toRobOp = input.offer.second.toRobOp) := by
  obtain ⟨requester, granted, rfl⟩ := List.mem_map.mp member
  have ready := Backend.eligible_ready (Backend.grants_eligible granted)
  cases requester with
  | slot index =>
    simp only [Backend.selectReady, Bool.and_eq_true] at ready
    have used := ready.1.1.1.1.2
    left
    exact (Ordered.label_used used).trans_lt (ordered.serial_bounded used)
  | first =>
    simp only [Backend.selectReady, Bool.and_eq_true] at ready
    exact Or.inr (Or.inl ⟨Ordered.label_first ready.1.2, granted⟩)
  | second =>
    simp only [Backend.selectReady, Bool.and_eq_true] at ready
    exact Or.inr (Or.inr ⟨Ordered.label_second ready.1.2, granted, rfl⟩)

/-- The operations that enter the load/store queue are the memory operations on the ports of a
cycle without a flush. -/
theorem lsuQueueWrites_iff {issued : Issued} :
    issued ∈ numbered.backend.lsuQueueWrites input ↔
      numbered.backend.rcu.globalSpeculateFault input.toRcuInput = false ∧
        issued ∈ numbered.backend.issues input.toRcuInput ∧ issued.entry.isMemory = true := by
  rw [Backend.lsuQueueWrites]
  cases fault : numbered.backend.rcu.globalSpeculateFault input.toRcuInput
  · rw [if_neg (by simp), Backend.lsuQueue_written, List.mem_filter]
    simp
  · simp

section Cycle

variable (ordered : Ordered numbered length selected memory) (marked : Marked numbered selected)

include ordered marked

theorem csrFirst_of_not_overtaken
    (calm : ¬ numbered.backend.Overtaken input.toRcuInput) : CsrFirst numbered selected input := by
  intro issued member index live csr older
  obtain ⟨quiet, granted, isMemory⟩ := lsuQueueWrites_iff.mp member
  rw [List.mem_append]
  by_contra waiting
  obtain ⟨notBefore, notNow⟩ := not_or.mp waiting
  rcases live with used | ⟨rfl, write⟩ | ⟨rfl, write⟩
  · -- a stored CSR operation is itself kept in sequence
    have idle : numbered.backend.issue.robSelected index = false := by
      rw [Ordered.label_used used] at notBefore
      rw [Bool.eq_false_iff]
      exact fun flag => notBefore (marked index flag).2
    have same : (numbered.step input).backend.rcu.rob index = numbered.backend.rcu.rob index :=
      Rcu.dispatchInto_used _ used _ _ _
    rw [same] at csr
    have sequenced : numbered.backend.loadStore input.toRcuInput (.slot index) = true := by
      simp [Backend.loadStore, csr, idle]
    have other : issued.robIndex ≠ index := by
      rintro rfl
      exact absurd older (Nat.lt_irrefl _)
    have before := ordered.selected_before granted isMemory used sequenced other
    rw [Ordered.label_used used] at older
    omega
  · -- a new one is not, so only the ready bits keep the second from passing it
    rw [Ordered.label_first write] at older notNow
    obtain ⟨-, second, op⟩ : numbered.label input issued.robIndex = numbered.count + 1 ∧
        .second ∈ numbered.backend.grants input.toRcuInput ∧
        issued.entry.toRobOp = input.offer.second.toRobOp := by
      rcases label_cases ordered granted with stored | ⟨same, -⟩ | fresh
      · omega
      · omega
      · exact fresh
    have memory : input.offer.second.isMemory = true := by
      rw [← op]
      exact isMemory
    have first : (numbered.step input).backend.rcu.rob numbered.backend.rcu.wrRobIndex =
        numbered.backend.rcu.entryFirst input.toRcuInput := Rcu.dispatchInto_first _ write _ _ _
    rw [first] at csr
    have apart := ((Backend.second_oldest_iff memory).mp
      (Backend.memory_oldest second memory)).2
    have waits : numbered.backend.selectReady input.toRcuInput .first = false := by
      rw [Bool.eq_false_iff]
      intro ready
      apply notNow
      rw [← Ordered.label_first write]
      exact List.mem_map_of_mem
        (List.mem_map_of_mem (Backend.first_granted second ready apart))
    obtain ⟨ready, rest⟩ := (Backend.second_granted_iff memory waits).mp second
    exact calm ⟨csr, waits, memory, ready, rest⟩
  · rw [Ordered.label_second write] at older
    rcases label_cases ordered granted with stored | ⟨same, -⟩ | ⟨same, -⟩ <;> omega

omit marked in
theorem overtaken_not_csrFirst (overtaken : numbered.backend.Overtaken input.toRcuInput) :
    ¬ CsrFirst numbered selected input := by
  obtain ⟨csr, waits, memory, ready, rest⟩ := overtaken
  have second := (Backend.second_granted_iff memory waits).mpr ⟨ready, rest⟩
  simp only [Backend.selectReady, Bool.and_eq_true] at ready
  have write := ready.1.2
  have firstWrite := ordered.window.write_ordered input.toRcuInput write
  have quiet := write
  simp only [Rcu.doRobWriteSecond, Bool.and_eq_true, Bool.not_eq_true'] at quiet
  intro barrier
  have chosen := barrier (numbered.backend.issued input.toRcuInput .second)
    (lsuQueueWrites_iff.mpr ⟨quiet.1.2, List.mem_map_of_mem second, memory⟩)
    numbered.backend.rcu.wrRobIndex (Or.inr (Or.inl ⟨rfl, firstWrite⟩)) (by
      have stored : (numbered.step input).backend.rcu.rob numbered.backend.rcu.wrRobIndex =
          numbered.backend.rcu.entryFirst input.toRcuInput :=
        Rcu.dispatchInto_first _ firstWrite _ _ _
      rw [stored]
      exact csr) (by
      change _ < numbered.label input numbered.backend.rcu.wrRobIndexSecond
      rw [Ordered.label_first firstWrite, Ordered.label_second write]
      omega)
  rw [Ordered.label_first firstWrite, List.mem_append] at chosen
  rcases chosen with before | now
  · exact absurd (ordered.below _ before) (Nat.lt_irrefl _)
  · obtain ⟨issued, member, same⟩ := List.mem_map.mp now
    rcases label_cases ordered member with stored | ⟨-, first⟩ | ⟨other, -⟩
    · omega
    · have ready := Backend.eligible_ready (Backend.grants_eligible first)
      rw [waits] at ready
      cases ready
    · omega

end Cycle

/-- After every run, a cycle writes no memory operation past an older CSR operation that is still
to be selected, except in the one way the arbiter leaves open. -/
theorem csr_before_memory_iff (inputs : List BackendInput) (input : BackendInput) :
    CsrFirst (machine.run inputs) (machine.log selections inputs) input ↔
      ¬ (machine.run inputs).backend.Overtaken input.toRcuInput := by
  obtain ⟨length, ordered⟩ := run_ordered inputs
  constructor
  · intro barrier overtaken
    exact overtaken_not_csrFirst ordered overtaken barrier
  · exact csrFirst_of_not_overtaken ordered (run_marked inputs)

instance (numbered : Numbered) (input : BackendInput) (index : RobIndex) :
    Decidable (Ordered.Live numbered input index) :=
  inferInstanceAs (Decidable (_ ∨ _))

instance (numbered : Numbered) (selected : List Nat) (input : BackendInput) :
    Decidable (CsrFirst numbered selected input) :=
  inferInstanceAs (Decidable (∀ issued ∈ _, ∀ _, _ → _ → _ → _))

/-- Two additions, and then a write to `satp` with a load behind it. -/
def csrThenLoad : List ProcessorInput :=
  [{ ProcessorInput.idle with buffer := .pair 0x00100113 0x00200193 },
    { ProcessorInput.idle with buffer := .pair 0x180292f3 0x00002083 }]

/-- The load enters the queue in the cycle in which both are dispatched; the write has to wait
until it is the oldest instruction. -/
theorem load_passes_csr :
    ¬ CsrFirst (machine.run (Processor.machine.fed Processor.backendInput csrThenLoad))
      (machine.log selections (Processor.machine.fed Processor.backendInput csrThenLoad))
      ((Processor.machine.run csrThenLoad).backendInput ProcessorInput.idle) := by
  decide +kernel

end Numbered

end GreenRio
