import GreenRio.Slots

set_option autoImplicit false

namespace GreenRio.Backend

open Circular Counter Fifo

variable {backend : Backend} {length : Nat} {issued : Issued}

theorem requesters_nodup (backend : Backend) : backend.requesters.Nodup := by
  rw [requesters, List.nodup_append]
  refine ⟨?_, by simp, ?_⟩
  · rw [List.nodup_map_iff_inj_on (slots_nodup _ (Nat.le_refl 16))]
    intro left _ right _ same
    exact Requester.slot.inj same
  · intro requester member other fresh
    obtain ⟨index, -, rfl⟩ := List.mem_map.mp member
    simp only [List.mem_cons, List.not_mem_nil, or_false] at fresh
    rcases fresh with rfl | rfl
    · simp
    · simp

theorem grants_eligible {input : RcuInput} {requester : Requester}
    (granted : requester ∈ backend.grants input) : backend.eligible input requester = true :=
  (List.mem_filter.mp (List.mem_of_mem_take granted)).2

theorem eligible_ready {input : RcuInput} {requester : Requester}
    (eligible : backend.eligible input requester = true) :
    backend.selectReady input requester = true := by
  rw [Backend.eligible, Bool.and_eq_true] at eligible
  exact eligible.1

/-- Where an issued operation comes from: a waiting entry, or one dispatched in this cycle that
has something to execute. -/
theorem issues_cases (input : BackendInput)
    (member : issued ∈ backend.issues input.toRcuInput) :
    issued.entry = (backend.step input).rcu.rob issued.robIndex ∧
      ((backend.rcu.robUsed issued.robIndex = true ∧
          backend.issue.robSelected issued.robIndex = false ∧
          backend.rcu.robExp issued.robIndex = false ∧ issued.entry.mret = false ∧
          issued.entry.sret = false) ∨
        (issued.robIndex = backend.rcu.wrRobIndex ∧
          backend.rcu.doRobWriteFirst input.toRcuInput = true ∧
          input.offer.first.skips = false) ∨
        (issued.robIndex = backend.rcu.wrRobIndexSecond ∧
          backend.rcu.doRobWriteSecond input.toRcuInput = true ∧
          input.offer.second.skips = false)) := by
  obtain ⟨requester, granted, rfl⟩ := List.mem_map.mp member
  have ready := eligible_ready (grants_eligible granted)
  cases requester with
  | slot index =>
    simp only [selectReady, Bool.and_eq_true, Bool.not_eq_true'] at ready
    obtain ⟨⟨⟨⟨⟨-, used⟩, selected⟩, exp⟩, mret⟩, sret⟩ := ready
    exact ⟨(Rcu.dispatchInto_used input.toRcuInput used _ _ _).symm,
      Or.inl ⟨used, selected, exp, mret, sret⟩⟩
  | first =>
    simp only [selectReady, Bool.and_eq_true, Bool.not_eq_true'] at ready
    obtain ⟨⟨-, write⟩, skip⟩ := ready
    refine ⟨(Rcu.dispatchInto_first input.toRcuInput write _ _ _).symm,
      Or.inr (Or.inl ⟨rfl, write, ?_⟩)⟩
    simpa [Rcu.doRobSelectSkipFirst, write] using skip
  | second =>
    simp only [selectReady, Bool.and_eq_true, Bool.not_eq_true'] at ready
    obtain ⟨⟨-, write⟩, skip⟩ := ready
    refine ⟨(Rcu.dispatchInto_second input.toRcuInput write _ _ _).symm,
      Or.inr (Or.inr ⟨rfl, write, ?_⟩)⟩
    simpa [Rcu.doRobSelectSkipSecond, write] using skip

/-- Granted requests are for different slots: those of the reorder buffer are in use, the new ones
are not. -/
theorem indexOf_injective {input : RcuInput} {left right : Requester}
    (readyLeft : backend.selectReady input left = true)
    (readyRight : backend.selectReady input right = true)
    (same : backend.indexOf left = backend.indexOf right) : left = right := by
  obtain ⟨free, free'⟩ := backend.rcu.write_unused input
  have apart := backend.rcu.wrRobIndexSecond_ne
  cases left <;> cases right <;>
    simp only [selectReady, indexOf, Bool.and_eq_true, Requester.slot.injEq] at *
  all_goals first | rfl | exact same | skip
  · simp [same, free readyRight.1.2] at readyLeft
  · simp [same, free' readyRight.1.2] at readyLeft
  · simp [← same, free readyLeft.1.2] at readyRight
  · exact absurd same apart
  · simp [← same, free' readyLeft.1.2] at readyRight
  · exact absurd same.symm apart

/-- The two grants of a cycle, oldest first. -/
theorem grants_pair {input : RcuInput} {older younger : Requester} {rest : List Requester}
    (granted : backend.grants input = older :: younger :: rest) :
    [older, younger].Sublist backend.requesters := by
  have inside : (backend.grants input).Sublist backend.requesters :=
    (List.take_sublist 2 _).trans List.filter_sublist
  rw [granted] at inside
  exact ((List.nil_sublist rest).cons_cons younger |>.cons_cons older).trans inside

/-- A CSR operation is only ready at the head of the reorder buffer. -/
theorem csr_at_head {input : RcuInput} {requester : Requester}
    (isReady : backend.selectReady input requester = true)
    (csr : (backend.entryOf input requester).isCsr = true) :
    backend.indexOf requester = backend.rcu.cmtRobIndex := by
  cases requester <;>
    simp only [selectReady, ready, entryOf, indexOf, Bool.and_eq_true, Bool.or_eq_true,
      beq_iff_eq, Bool.not_eq_true'] at isReady csr ⊢ <;>
    simp_all

/-- So it is never granted behind another grant. -/
theorem second_not_csr (valid : Rcu.Window backend.rcu length) {input : RcuInput}
    {older younger : Requester} {rest : List Requester}
    (granted : backend.grants input = older :: younger :: rest) :
    (backend.entryOf input younger).isCsr = false := by
  have order := grants_pair granted
  have readyOlder : backend.selectReady input older = true :=
    eligible_ready (grants_eligible (by simp [granted]))
  have readyYounger : backend.selectReady input younger = true :=
    eligible_ready (grants_eligible (by simp [granted]))
  by_contra csr
  rw [Bool.not_eq_false] at csr
  have head := csr_at_head readyYounger csr
  cases younger with
  | slot index =>
    change index = _ at head
    subst head
    -- The head comes first among the requesters, and only once.
    have nodup := backend.requesters_nodup
    have shape : ∃ tail, backend.requesters = .slot backend.rcu.cmtRobIndex :: tail := ⟨_, rfl⟩
    obtain ⟨tail, shape⟩ := shape
    rw [shape] at order nodup
    have again : Requester.slot backend.rcu.cmtRobIndex ∈ tail := by
      cases order with
      | cons _ inner => exact inner.subset (by simp)
      | cons_cons _ inner => exact inner.subset (by simp)
    exact (List.nodup_cons.mp nodup).1 again
  | first =>
    change backend.rcu.wrRobIndex = _ at head
    simp only [selectReady, Bool.and_eq_true] at readyYounger
    have unused := (backend.rcu.write_unused input).1 readyYounger.1.2
    have empty : length = 0 := by
      by_contra some
      have used : backend.rcu.robUsed backend.rcu.wrRobIndex = true := by
        rw [head, valid.used, mem_slots]
        exact ⟨0, by omega, by simp⟩
      simp [used] at unused
    have idle : ∀ index, backend.rcu.robUsed index = false := by
      intro index
      rw [← Bool.not_eq_true, valid.used, empty]
      simp
    cases older with
    | slot index => simp [selectReady, idle] at readyOlder
    | first =>
      have nodup := order.nodup backend.requesters_nodup
      simp at nodup
    | second =>
      have last : backend.requesters.Pairwise fun earlier _ => earlier ≠ .second := by
        rw [requesters, List.pairwise_append]
        refine ⟨?_, by simp, ?_⟩
        · rw [List.pairwise_map]
          exact List.pairwise_of_forall fun _ _ => by simp
        · intro requester member _ _
          obtain ⟨index, -, rfl⟩ := List.mem_map.mp member
          simp
      have pair := last.sublist order
      simp at pair
  | second =>
    change backend.rcu.wrRobIndexSecond = _ at head
    simp only [selectReady, Bool.and_eq_true, Rcu.doRobWriteSecond] at readyYounger
    have room := valid.second_room readyYounger.1.2.1.1.1
    rw [Rcu.wrRobIndexSecond, secondLine_eq_advance, valid.tail, advance_advance] at head
    have zero := advance_injective backend.rcu.cmtRobIndex (show length + 1 < 16 by omega)
      (show 0 < 16 by omega) (by rw [advance_zero]; exact head)
    omega

/-- The second port: another slot than the first one's, and no CSR operation. -/
theorem selectSecond_apart (valid : Rcu.Window backend.rcu length) {input : RcuInput}
    {first second : Issued} (onFirst : backend.selectFirst input = some first)
    (onSecond : backend.selectSecond input = some second) :
    first.robIndex ≠ second.robIndex ∧ second.entry.isCsr = false := by
  rw [selectFirst, issues] at onFirst
  rw [selectSecond, issues] at onSecond
  rcases granted : backend.grants input with _ | ⟨left, _ | ⟨right, rest⟩⟩
  · simp [granted] at onFirst
  · simp [granted] at onSecond
  · simp only [granted, List.map_cons, List.getElem?_cons_zero, List.getElem?_cons_succ,
      Option.some.injEq] at onFirst onSecond
    subst onFirst onSecond
    refine ⟨fun same => ?_, second_not_csr valid granted⟩
    have inLeft : left ∈ backend.grants input := by simp [granted]
    have inRight : right ∈ backend.grants input := by simp [granted]
    have equal := indexOf_injective (eligible_ready (grants_eligible inLeft))
      (eligible_ready (grants_eligible inRight)) same
    have nodup := (grants_pair granted).nodup backend.requesters_nodup
    simp [equal] at nodup

theorem selectFirst_mem {input : RcuInput} (onFirst : backend.selectFirst input = some issued) :
    issued ∈ backend.issues input := List.mem_of_getElem? onFirst

theorem selectSecond_mem {input : RcuInput} (onSecond : backend.selectSecond input = some issued) :
    issued ∈ backend.issues input := List.mem_of_getElem? onSecond

/-- A stage is valid after a cycle exactly if its port carried an operation of its class. -/
theorem loadStage_valid {stage : Stage} {port : Option Issued} {accepts : RobEntry → Bool}
    (valid : (loadStage stage port accepts false).valid = true) :
    port = some (loadStage stage port accepts false).issued ∧
      accepts (loadStage stage port accepts false).issued.entry = true := by
  unfold loadStage at valid ⊢
  split
  · rename_i issued
    by_cases takes : accepts issued.entry = true
    · simp [takes]
    · simp [takes] at valid
  · simp at valid

end GreenRio.Backend
