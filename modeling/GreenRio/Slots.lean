import GreenRio.Issue
import GreenRio.Window

set_option autoImplicit false

namespace GreenRio

open Circular Counter Fifo

theorem writeIf_flag {ι : Type} [DecidableEq ι] (enable : Bool) (array : ι → Bool)
    (index position : ι) :
    writeIf enable array index true position = true ↔
      array position = true ∨ (enable = true ∧ index = position) := by
  rw [writeIf_apply]
  by_cases hit : enable = true ∧ position = index
  · simp [hit]
  · rw [if_neg hit]
    constructor
    · exact Or.inl
    · rintro (flag | ⟨on, same⟩)
      · exact flag
      · exact absurd ⟨on, same.symm⟩ hit

/-- Some function unit completes the slot in this cycle. -/
def RcuInput.Completes (input : RcuInput) (index : RobIndex) : Prop :=
  ∃ completion ∈ input.completions, completion.done = true ∧ completion.robIndex = index

namespace Rcu

variable {rcu : Rcu} {length : Nat} {index : RobIndex}

theorem doneSet_iff (input : RcuInput) (array : RobIndex → Bool) (index : RobIndex) :
    doneSet input array index = true ↔ array index = true ∨ input.Completes index := by
  simp only [doneSet, writeIf_flag, RcuInput.Completes, RcuInput.completions, List.mem_cons,
    List.not_mem_nil, or_false, exists_eq_or_imp, exists_eq_left]
  tauto

/-- The slots whose entries leave in a cycle. -/
def leaving (rcu : Rcu) (input : RcuInput) : List RobIndex :=
  slots rcu.cmtRobIndex (amount (rcu.doRobCommitFirst input) (rcu.doRobCommitSecond input))

section Dispatch

variable {α : Type}

theorem write_unused (rcu : Rcu) (input : RcuInput) :
    (rcu.doRobWriteFirst input = true → rcu.robUsed rcu.wrRobIndex = false) ∧
      (rcu.doRobWriteSecond input = true → rcu.robUsed rcu.wrRobIndexSecond = false) := by
  constructor
  · intro write
    simp only [doRobWriteFirst, robFirstWriteReady, Bool.and_eq_true] at write
    simpa using write.1.1.1
  · intro write
    simp only [doRobWriteSecond, robSecondWriteReady, Bool.and_eq_true] at write
    simpa using write.1.1.1

theorem wrRobIndexSecond_ne (rcu : Rcu) : rcu.wrRobIndex ≠ rcu.wrRobIndexSecond := by
  rw [wrRobIndexSecond, secondLine_eq_advance]
  intro same
  have zero := advance_injective rcu.wrRobIndex (show 0 < 16 by omega) (show 1 < 16 by omega)
    (by rw [advance_zero]; exact same)
  omega

theorem dispatchInto_first (input : RcuInput) (write : rcu.doRobWriteFirst input = true)
    (array : RobIndex → α) (first second : α) :
    rcu.dispatchInto input array first second rcu.wrRobIndex = first := by
  simp [dispatchInto, writeIf_apply, write, wrRobIndexSecond_ne]

theorem dispatchInto_second (input : RcuInput) (write : rcu.doRobWriteSecond input = true)
    (array : RobIndex → α) (first second : α) :
    rcu.dispatchInto input array first second rcu.wrRobIndexSecond = second := by
  simp [dispatchInto, writeIf_apply, write]

/-- The dispatch ports do not touch an entry in use. -/
theorem dispatchInto_used (input : RcuInput) (used : rcu.robUsed index = true)
    (array : RobIndex → α) (first second : α) :
    rcu.dispatchInto input array first second index = array index := by
  obtain ⟨free, free'⟩ := rcu.write_unused input
  have other : ¬ (rcu.doRobWriteFirst input = true ∧ index = rcu.wrRobIndex) := by
    rintro ⟨write, rfl⟩
    simp [free write] at used
  have other' : ¬ (rcu.doRobWriteSecond input = true ∧ index = rcu.wrRobIndexSecond) := by
    rintro ⟨write, rfl⟩
    simp [free' write] at used
  simp only [dispatchInto, writeIf_apply, if_neg other, if_neg other']

end Dispatch

theorem Window.leaving_used (valid : Window rcu length) (input : RcuInput)
    (leaves : index ∈ rcu.leaving input) : rcu.robUsed index = true := by
  rw [valid.used, ← Nat.add_sub_cancel' (valid.commit_room input), slots_take]
  exact List.mem_append_left _ leaves

theorem step_used_iff (input : RcuInput) (quiet : rcu.globalSpeculateFault input = false) :
    (rcu.step input).robUsed index = true ↔
      rcu.dispatchInto input rcu.robUsed true true index = true ∧ index ∉ rcu.leaving input := by
  have array : (rcu.step input).robUsed =
      rcu.commitClear input (rcu.dispatchInto input rcu.robUsed true true) := by
    simp only [step, quiet, Bool.false_eq_true, ↓reduceIte]
  rw [array, commitClear_flag]
  rfl

/-- How a slot comes to be in use after a cycle: it stays, or one of the ports writes it. -/
theorem step_used_cases (input : RcuInput)
    (quiet : rcu.globalSpeculateFault input = false)
    (used : (rcu.step input).robUsed index = true) :
    (rcu.robUsed index = true ∧ index ∉ rcu.leaving input) ∨
      (index = rcu.wrRobIndex ∧ rcu.doRobWriteFirst input = true) ∨
      (index = rcu.wrRobIndexSecond ∧ rcu.doRobWriteSecond input = true) := by
  obtain ⟨flag, stays⟩ := (step_used_iff input quiet).mp used
  simp only [dispatchInto, writeIf_apply] at flag
  split_ifs at flag with second first
  · exact Or.inr (Or.inr ⟨second.2, second.1⟩)
  · exact Or.inr (Or.inl ⟨first.2, first.1⟩)
  · exact Or.inl ⟨flag, stays⟩

theorem step_used_of_stays (input : RcuInput)
    (quiet : rcu.globalSpeculateFault input = false) (used : rcu.robUsed index = true)
    (stays : index ∉ rcu.leaving input) : (rcu.step input).robUsed index = true := by
  rw [step_used_iff input quiet, dispatchInto_used input used]
  exact ⟨used, stays⟩

/-- A slot that a port writes is in use afterwards. -/
theorem Window.fresh_used (valid : Window rcu length) (input : RcuInput)
    (quiet : rcu.globalSpeculateFault input = false)
    (fresh : (index = rcu.wrRobIndex ∧ rcu.doRobWriteFirst input = true) ∨
      (index = rcu.wrRobIndexSecond ∧ rcu.doRobWriteSecond input = true)) :
    rcu.robUsed index = false ∧ (rcu.step input).robUsed index = true := by
  obtain ⟨free, free'⟩ := rcu.write_unused input
  have unused : rcu.robUsed index = false := by
    rcases fresh with ⟨rfl, write⟩ | ⟨rfl, write⟩
    · exact free write
    · exact free' write
  refine ⟨unused, (step_used_iff input quiet).mpr ⟨?_, ?_⟩⟩
  · rcases fresh with ⟨rfl, write⟩ | ⟨rfl, write⟩
    · exact dispatchInto_first input write _ _ _
    · exact dispatchInto_second input write _ _ _
  · intro leaves
    have used := valid.leaving_used input leaves
    rw [unused] at used
    cases used

section Flags

variable (rcu) (input : RcuInput) (quiet : rcu.globalSpeculateFault input = false)

include quiet

theorem step_finish_iff (index : RobIndex) :
    (rcu.step input).robFinish index = true ↔
      (rcu.doRobSelectSkipSecond input = true ∧ index = rcu.wrRobIndexSecond) ∨
        (rcu.doRobSelectSkipFirst input = true ∧ index = rcu.wrRobIndex) ∨
        ((rcu.robFinish index = true ∨ input.Completes index) ∧ index ∉ rcu.leaving input) := by
  have array : (rcu.step input).robFinish =
      writeIf (rcu.doRobSelectSkipSecond input)
        (writeIf (rcu.doRobSelectSkipFirst input)
          (rcu.commitClear input (doneSet input rcu.robFinish)) rcu.wrRobIndex true)
        rcu.wrRobIndexSecond true := by
    simp only [step, quiet, Bool.false_eq_true, ↓reduceIte]
  rw [array, writeIf_apply, writeIf_apply]
  split_ifs with second first
  · simp [second]
  · simp [first]
  · rw [commitClear_flag, doneSet_iff]
    simp only [second, first, false_or]
    rfl

theorem step_predictMiss_iff (index : RobIndex) :
    (rcu.step input).robPredictMiss index = true ↔
      (rcu.robPredictMiss index = true ∨
        (∃ completion, (completion = input.alu1 ∨ completion = input.alu2) ∧
          completion.done = true ∧ completion.predictMiss = true ∧
          completion.robIndex = index)) ∧ index ∉ rcu.leaving input := by
  have array : (rcu.step input).robPredictMiss =
      rcu.commitClear input
        (writeIf (input.alu2.done && input.alu2.predictMiss)
          (writeIf (input.alu1.done && input.alu1.predictMiss) rcu.robPredictMiss
            input.alu1.robIndex true) input.alu2.robIndex true) := by
    simp only [step, quiet, Bool.false_eq_true, ↓reduceIte]
  rw [array, commitClear_flag, writeIf_flag, writeIf_flag]
  refine and_congr ?_ Iff.rfl
  simp only [or_and_right, exists_or, exists_eq_left, Bool.and_eq_true]
  tauto

/-- Where an exception flag comes from: dispatch, or a unit. -/
theorem step_exp_iff (index : RobIndex) :
    (rcu.step input).robExp index = true ↔
      rcu.dispatchInto input rcu.robExp input.offer.first.exception input.offer.second.exception
          index = true ∨
        ∃ completion ∈ input.completions, completion.exp = true ∧ completion.robIndex = index := by
  have array : (rcu.step input).robExp = rcu.raised input rcu.robExp input.offer.first.exception
      input.offer.second.exception true true true true true := by
    simp only [step, quiet, Bool.false_eq_true, ↓reduceIte]
  rw [array]
  simp only [Rcu.raised, writeIf_flag, RcuInput.completions, List.mem_cons, List.not_mem_nil,
    or_false, exists_eq_or_imp, exists_eq_left]
  tauto

/-- Exceptions are only added to. -/
theorem step_exp (index : RobIndex)
    (raised : rcu.dispatchInto input rcu.robExp input.offer.first.exception
      input.offer.second.exception index = true) : (rcu.step input).robExp index = true :=
  (step_exp_iff rcu input quiet index).mpr (Or.inl raised)

end Flags

end Rcu

namespace Backend

variable {backend : Backend}

theorem foldl_selected (issues : List Issued) (selected : RobIndex → Bool) (index : RobIndex) :
    issues.foldl (fun selected issued => Function.update selected issued.robIndex true) selected
        index = true ↔
      selected index = true ∨ ∃ issued ∈ issues, issued.robIndex = index := by
  induction issues generalizing selected with
  | nil => simp
  | cons issued rest ih =>
    rw [List.foldl_cons, ih, Function.update_apply]
    by_cases same : index = issued.robIndex
    · simp [same]
    · simp [same, Ne.symm same]

theorem step_selected_iff (input : BackendInput)
    (quiet : backend.rcu.globalSpeculateFault input.toRcuInput = false) (index : RobIndex) :
    (backend.step input).issue.robSelected index = true ↔
      (backend.issue.robSelected index = true ∨
        ∃ issued ∈ backend.issues input.toRcuInput, issued.robIndex = index) ∧
        index ∉ backend.rcu.leaving input.toRcuInput := by
  have array : (backend.step input).issue.robSelected = backend.robSelectedNext input := by
    simp only [step, quiet, Bool.false_eq_true, ↓reduceIte]
  rw [array, robSelectedNext, Rcu.commitClear_flag, foldl_selected]
  rfl

end Backend

end GreenRio
