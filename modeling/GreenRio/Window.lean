import Mathlib.Tactic.Tauto
import GreenRio.Rcu

set_option autoImplicit false

namespace GreenRio.Rcu

open Circular Counter Fifo

variable {rcu : Rcu} {length : Nat}

/-- The entries in use are the `length` slots from the commit pointer to the write pointer. -/
structure Window (rcu : Rcu) (length : Nat) : Prop where
  bounded : length ≤ 16
  tail : rcu.wrRobIndex = advance rcu.cmtRobIndex length
  used : ∀ index, rcu.robUsed index = true ↔ index ∈ slots rcu.cmtRobIndex length

/-- The entries of the window, oldest first. -/
def entries (rcu : Rcu) (length : Nat) : List RobEntry :=
  window rcu.rob rcu.cmtRobIndex length

/-- The entries with `rob_used` set, in program order. -/
def inUse (rcu : Rcu) : List RobEntry :=
  ((slots rcu.cmtRobIndex 16).filter rcu.robUsed).map rcu.rob

theorem Window.inUse_eq (valid : Window rcu length) : inUse rcu = entries rcu length := by
  rw [inUse, slots_filter _ _ valid.bounded valid.used]
  rfl

theorem Window.length_unique {other : Nat} (valid : Window rcu length) (again : Window rcu other) :
    length = other := by
  have same := congrArg List.length (valid.inUse_eq.symm.trans again.inUse_eq)
  simpa [entries] using same

theorem reset_window : Window reset 0 := ⟨by omega, rfl, fun _ => by simp [reset]⟩

namespace Window

theorem first_room (valid : Window rcu length) (ready : rcu.robFirstWriteReady = true) :
    length < 16 := by
  rcases Nat.lt_or_ge length 16 with below | full
  · exact below
  · have whole : length = 16 := Nat.le_antisymm valid.bounded full
    have inUse : rcu.robUsed rcu.wrRobIndex = true := by
      rw [valid.used, whole]
      exact mem_slots_full _ _
    simp [robFirstWriteReady, inUse] at ready

/-- A free second slot leaves room for two: the slot behind a nearly full window is its head. -/
theorem second_room (valid : Window rcu length) (ready : rcu.robSecondWriteReady = true) :
    length < 15 := by
  by_contra above
  have inUse : rcu.robUsed rcu.wrRobIndexSecond = true := by
    rw [valid.used, wrRobIndexSecond, secondLine_eq_advance, valid.tail, advance_advance]
    have bounded := valid.bounded
    rcases Nat.lt_or_ge length 16 with below | full
    · have nearly : length = 15 := by omega
      rw [nearly, mem_slots]
      refine ⟨0, by omega, Fin.ext ?_⟩
      simp [advance]
    · have whole : length = 16 := by omega
      rw [whole]
      exact mem_slots_full _ _
  simp [robSecondWriteReady, inUse] at ready

theorem first_ready (valid : Window rcu length) (ready : rcu.robSecondWriteReady = true) :
    rcu.robFirstWriteReady = true := by
  have room := valid.second_room ready
  have unused : ¬ rcu.robUsed rcu.wrRobIndex = true := by
    rw [valid.used, valid.tail]
    exact advance_not_mem_slots _ (Nat.le_refl length) (by omega)
  simpa [robFirstWriteReady] using unused

/-- The second dispatch port never writes alone. -/
theorem write_ordered (valid : Window rcu length) (input : RcuInput)
    (second : rcu.doRobWriteSecond input = true) : rcu.doRobWriteFirst input = true := by
  simp only [doRobWriteSecond, Bool.and_eq_true] at second
  simp only [doRobWriteFirst, Bool.and_eq_true]
  exact ⟨⟨⟨valid.first_ready second.1.1.1, input.offer.ordered second.1.1.2⟩, second.1.2⟩, second.2⟩

theorem write_room (valid : Window rcu length) (input : RcuInput) :
    length + amount (rcu.doRobWriteFirst input) (rcu.doRobWriteSecond input) ≤ 16 := by
  have bounded := valid.bounded
  cases second : rcu.doRobWriteSecond input
  · cases first : rcu.doRobWriteFirst input
    · simpa [amount] using bounded
    · have ready : rcu.robFirstWriteReady = true := by
        simp only [doRobWriteFirst, Bool.and_eq_true] at first
        exact first.1.1.1
      have room := valid.first_room ready
      simp only [amount, Bool.toNat_true, Bool.toNat_false]
      omega
  · have ready : rcu.robSecondWriteReady = true := by
      simp only [doRobWriteSecond, Bool.and_eq_true] at second
      exact second.1.1.1
    have room := valid.second_room ready
    rw [valid.write_ordered input second]
    simp only [amount, Bool.toNat_true]
    omega

end Window

theorem commit_ordered (rcu : Rcu) (input : RcuInput)
    (second : rcu.doRobCommitSecond input = true) : rcu.doRobCommitFirst input = true := by
  simp only [doRobCommitSecond, Bool.and_eq_true] at second
  exact second.2

namespace Window

theorem commit_room (valid : Window rcu length) (input : RcuInput) :
    amount (rcu.doRobCommitFirst input) (rcu.doRobCommitSecond input) ≤ length := by
  have bounded := valid.bounded
  have positive : rcu.doRobCommitFirst input = true → 0 < length := by
    intro first
    simp only [doRobCommitFirst, commitReady, Bool.and_eq_true] at first
    obtain ⟨step, below, -⟩ := (mem_slots _ _ _).mp ((valid.used _).mp first.1.1.1)
    omega
  cases second : rcu.doRobCommitSecond input
  · cases first : rcu.doRobCommitFirst input
    · exact Nat.zero_le _
    · exact positive first
  · rw [commit_ordered rcu input second]
    simp only [doRobCommitSecond, Bool.and_eq_true] at second
    have inUse := second.1.1.1.1.1.1.1.1.1.1.1.1
    rw [valid.used, cmtRobIndexSecond, secondLine_eq_advance, mem_slots] at inUse
    obtain ⟨step, below, same⟩ := inUse
    have one := advance_injective rcu.cmtRobIndex (by omega : 1 < 16) (by omega) same
    simp only [amount, Bool.toNat_true]
    omega

end Window

/-- The entries leaving at the head this cycle. -/
def retiring (rcu : Rcu) (input : RcuInput) : List RobEntry :=
  accepted (rcu.doRobCommitFirst input) (rcu.doRobCommitSecond input) rcu.headFirst rcu.headSecond

/-- The entries dispatched this cycle. -/
def dispatched (rcu : Rcu) (input : RcuInput) : List RobEntry :=
  accepted (rcu.doRobWriteFirst input) (rcu.doRobWriteSecond input) (rcu.entryFirst input)
    (rcu.entrySecond input)

theorem retiring_eq (rcu : Rcu) (input : RcuInput) :
    retiring rcu input =
      window rcu.rob rcu.cmtRobIndex (amount (rcu.doRobCommitFirst input)
        (rcu.doRobCommitSecond input)) := by
  have ordered := commit_ordered rcu input
  cases first : rcu.doRobCommitFirst input <;> cases second : rcu.doRobCommitSecond input <;>
    simp_all [retiring, accepted, amount, window, slots, headFirst, headSecond, cmtRobIndexSecond,
      secondLine_eq_advance]

theorem entries_split (valid : Window rcu length) (input : RcuInput) :
    entries rcu length = retiring rcu input ++
      window rcu.rob (advance rcu.cmtRobIndex (amount (rcu.doRobCommitFirst input)
          (rcu.doRobCommitSecond input)))
        (length - amount (rcu.doRobCommitFirst input) (rcu.doRobCommitSecond input)) := by
  rw [retiring_eq, ← window_take, Nat.add_sub_cancel' (valid.commit_room input)]
  rfl

/-- The dispatch ports behave as the write ports of a queue. -/
theorem dispatchInto_eq {α : Type} (valid : Window rcu length) (input : RcuInput)
    (array : RobIndex → α) (first second : α) :
    rcu.dispatchInto input array first second =
      writeQueue array rcu.wrRobIndex (rcu.doRobWriteFirst input) (rcu.doRobWriteSecond input)
        first second := by
  have ordered := valid.write_ordered input
  cases writeFirst : rcu.doRobWriteFirst input <;> cases writeSecond : rcu.doRobWriteSecond input <;>
    simp_all [dispatchInto, writeQueue, wrRobIndexSecond]

theorem dispatchInto_flag (valid : Window rcu length) (input : RcuInput)
    (array : RobIndex → Bool) (index : RobIndex) :
    rcu.dispatchInto input array true true index = true ↔
      array index = true ∨ index ∈ slots rcu.wrRobIndex
        (amount (rcu.doRobWriteFirst input) (rcu.doRobWriteSecond input)) := by
  have ordered := valid.write_ordered input
  cases writeFirst : rcu.doRobWriteFirst input <;> cases writeSecond : rcu.doRobWriteSecond input <;>
    simp_all [dispatchInto, amount, slots, wrRobIndexSecond, secondLine_eq_advance,
      Function.update_apply] <;>
    tauto

theorem commitClear_flag (rcu : Rcu) (input : RcuInput) (array : RobIndex → Bool)
    (index : RobIndex) :
    rcu.commitClear input array index = true ↔
      array index = true ∧ index ∉ slots rcu.cmtRobIndex
        (amount (rcu.doRobCommitFirst input) (rcu.doRobCommitSecond input)) := by
  have ordered := commit_ordered rcu input
  cases first : rcu.doRobCommitFirst input <;> cases second : rcu.doRobCommitSecond input <;>
    simp_all [commitClear, amount, slots, cmtRobIndexSecond, secondLine_eq_advance,
      Function.update_apply] <;>
    tauto

/-- The window after one cycle without a flush. -/
theorem step_window (valid : Window rcu length) (input : RcuInput)
    (quiet : rcu.globalSpeculateFault input = false) :
    Window (rcu.step input)
      (length - amount (rcu.doRobCommitFirst input) (rcu.doRobCommitSecond input) +
        amount (rcu.doRobWriteFirst input) (rcu.doRobWriteSecond input)) := by
  have leave := valid.commit_room input
  have enter := valid.write_room input
  have clear := commitClear_flag rcu input
  have fill := dispatchInto_flag valid input
  have write : (rcu.step input).wrRobIndex = advance rcu.wrRobIndex
      (amount (rcu.doRobWriteFirst input) (rcu.doRobWriteSecond input)) := by
    simp only [step, quiet, Bool.false_eq_true, ↓reduceIte, next_eq_advance]
  have commit : (rcu.step input).cmtRobIndex = advance rcu.cmtRobIndex
      (amount (rcu.doRobCommitFirst input) (rcu.doRobCommitSecond input)) := by
    simp only [step, quiet, Bool.false_eq_true, ↓reduceIte, next_eq_advance]
  have inUse : (rcu.step input).robUsed =
      rcu.commitClear input (rcu.dispatchInto input rcu.robUsed true true) := by
    simp only [step, quiet, Bool.false_eq_true, ↓reduceIte]
  generalize amount (rcu.doRobCommitFirst input) (rcu.doRobCommitSecond input) = leaving at *
  generalize amount (rcu.doRobWriteFirst input) (rcu.doRobWriteSecond input) = entering at *
  refine ⟨by omega, ?_, fun index => ?_⟩
  · rw [write, commit, valid.tail, advance_advance, advance_advance]
    congr 1
    omega
  · rw [inUse, clear, fill, valid.used, commit,
      mem_slots_rest _ _ (by omega : leaving + (length - leaving + entering) ≤ 16),
      show leaving + (length - leaving + entering) = length + entering by omega, slots_take,
      List.mem_append, valid.tail]

/-- A flush empties the window. -/
theorem step_window_fault (rcu : Rcu) (input : RcuInput)
    (fault : rcu.globalSpeculateFault input = true) : Window (rcu.step input) 0 := by
  refine ⟨by omega, ?_, fun index => ?_⟩
  · simp [step, fault]
  · simp [step, fault]

/-- Any array written by the dispatch ports, read in program order: what retires leaves at the
front, what is dispatched joins at the back. -/
theorem step_array {α : Type} (valid : Window rcu length) (input : RcuInput)
    (quiet : rcu.globalSpeculateFault input = false) (array : RobIndex → α) (first second : α) :
    window array rcu.cmtRobIndex
          (amount (rcu.doRobCommitFirst input) (rcu.doRobCommitSecond input)) ++
        window (rcu.dispatchInto input array first second) (rcu.step input).cmtRobIndex
          (length - amount (rcu.doRobCommitFirst input) (rcu.doRobCommitSecond input) +
            amount (rcu.doRobWriteFirst input) (rcu.doRobWriteSecond input)) =
      window array rcu.cmtRobIndex length ++
        accepted (rcu.doRobWriteFirst input) (rcu.doRobWriteSecond input) first second := by
  have leave := valid.commit_room input
  have enter := valid.write_room input
  have commit : (rcu.step input).cmtRobIndex = advance rcu.cmtRobIndex
      (amount (rcu.doRobCommitFirst input) (rcu.doRobCommitSecond input)) := by
    simp only [step, quiet, Bool.false_eq_true, ↓reduceIte, next_eq_advance]
  have line : rcu.wrRobIndex = advance (advance rcu.cmtRobIndex
      (amount (rcu.doRobCommitFirst input) (rcu.doRobCommitSecond input)))
      (length - amount (rcu.doRobCommitFirst input) (rcu.doRobCommitSecond input)) := by
    rw [advance_advance, Nat.add_sub_cancel' leave]
    exact valid.tail
  have split : window array rcu.cmtRobIndex length =
      window array rcu.cmtRobIndex
          (amount (rcu.doRobCommitFirst input) (rcu.doRobCommitSecond input)) ++
        window array (advance rcu.cmtRobIndex
            (amount (rcu.doRobCommitFirst input) (rcu.doRobCommitSecond input)))
          (length - amount (rcu.doRobCommitFirst input) (rcu.doRobCommitSecond input)) := by
    rw [← window_take, Nat.add_sub_cancel' leave]
  rw [split, List.append_assoc]
  congr 1
  rw [commit, dispatchInto_eq valid input, line]
  exact Holds.window_writeQueue _ _ _ _ _ _ _ (by omega)

/-- In order: the retiring entries leave at the front, the dispatched ones join at the back. -/
theorem step_entries (valid : Window rcu length) (input : RcuInput)
    (quiet : rcu.globalSpeculateFault input = false) :
    retiring rcu input ++ entries (rcu.step input)
        (length - amount (rcu.doRobCommitFirst input) (rcu.doRobCommitSecond input) +
          amount (rcu.doRobWriteFirst input) (rcu.doRobWriteSecond input)) =
      entries rcu length ++ dispatched rcu input := by
  rw [retiring_eq]
  exact step_array valid input quiet rcu.rob (rcu.entryFirst input) (rcu.entrySecond input)

theorem step_inUse (valid : Window rcu length) (input : RcuInput)
    (quiet : rcu.globalSpeculateFault input = false) :
    retiring rcu input ++ inUse (rcu.step input) = inUse rcu ++ dispatched rcu input := by
  rw [(step_window valid input quiet).inUse_eq, valid.inUse_eq]
  exact step_entries valid input quiet

theorem step_inUse_fault (rcu : Rcu) (input : RcuInput)
    (fault : rcu.globalSpeculateFault input = true) : inUse (rcu.step input) = [] := by
  rw [(step_window_fault rcu input fault).inUse_eq]
  rfl

end GreenRio.Rcu
