import Mathlib.Order.Filter.AtTopBot.Basic
import GreenRio.Synchronous

set_option autoImplicit false

open Filter

/-- A rank that never grows, and falls whenever a recurring event happens, does not outlast what it
waits for. -/
theorem Filter.Frequently.descends {event : Nat → Bool}
    (recurs : ∃ᶠ cycle in atTop, event cycle = true) (rank : Nat → Nat) (done : Nat → Prop)
    (now : Nat) (falls : ∀ cycle, now ≤ cycle → ¬ done cycle →
      rank (cycle + 1) + (event cycle).toNat ≤ rank cycle) :
    ∃ later, now ≤ later ∧ done later := by
  by_contra never
  have waits : ∀ cycle, now ≤ cycle → ¬ done cycle := fun cycle since here =>
    never ⟨cycle, since, here⟩
  have bounded : ∀ start, now ≤ start → ∀ more, rank (start + more) ≤ rank start := by
    intro start since more
    induction more with
    | zero => exact Nat.le_refl _
    | succ more ih =>
      have step := falls (start + more) (by omega) (waits _ (by omega))
      rw [← Nat.add_assoc]
      omega
  have lower : ∀ start, now ≤ start → ∃ later, now ≤ later ∧ rank later < rank start := by
    intro start since
    obtain ⟨cycle, later, happens⟩ := frequently_atTop.mp recurs start
    have most := bounded start since (cycle - start)
    rw [Nat.add_sub_cancel' later] at most
    have fall := falls cycle (by omega) (waits _ (by omega))
    rw [happens, Bool.toNat_true] at fall
    exact ⟨cycle + 1, by omega, by omega⟩
  -- no rank is taken, as a lower one would be taken later
  have untaken : ∀ bound start, now ≤ start → rank start ≠ bound := by
    intro bound
    induction bound using Nat.strong_induction_on with
    | h bound ih =>
      intro start since same
      obtain ⟨later, after, less⟩ := lower start since
      exact ih (rank later) (same ▸ less) later after rfl
  exact untaken (rank now) now (Nat.le_refl _) rfl

namespace Synchronous

variable {σ ι β : Type} (machine : Synchronous σ ι) (inputs : Nat → ι)

/-- The beginning of an endless run. -/
def opening (cycles : Nat) : List ι := (List.range cycles).map inputs

/-- The state of an endless run after some cycles. -/
def after (cycles : Nat) : σ := machine.run (opening inputs cycles)

theorem opening_succ (cycles : Nat) :
    opening inputs (cycles + 1) = opening inputs cycles ++ [inputs cycles] := by
  rw [opening, List.range_succ, List.map_append]
  rfl

theorem after_succ (cycles : Nat) :
    machine.after inputs (cycles + 1) =
      machine.step (machine.after inputs cycles) (inputs cycles) := by
  rw [after, opening_succ, run_snoc]
  rfl

variable {machine inputs}

/-- A rule that every cycle of an endless run keeps is obeyed by its beginnings. -/
theorem obeys_opening {Allowed : σ → ι → Prop}
    (allowed : ∀ cycle, Allowed (machine.after inputs cycle) (inputs cycle)) (cycles : Nat) :
    machine.Obeys Allowed (opening inputs cycles) := by
  induction cycles with
  | zero => exact obeys_nil machine Allowed
  | succ cycles ih =>
    rw [opening_succ, obeys_snoc]
    exact ⟨ih, allowed cycles⟩

section Reports

/-- What is reported in the first cycles. -/
def upTo (reports : Nat → List β) (cycles : Nat) : List β := (List.range cycles).flatMap reports

variable {reports : Nat → List β} {start stop : Nat}

@[simp] theorem upTo_zero : upTo reports 0 = [] := rfl

theorem upTo_succ (cycles : Nat) :
    upTo reports (cycles + 1) = upTo reports cycles ++ reports cycles := by
  rw [upTo, List.range_succ, List.flatMap_append, List.flatMap_singleton]
  rfl

theorem log_opening (emit : σ → ι → List β) (cycles : Nat) :
    machine.log emit (opening inputs cycles) =
      upTo (fun cycle => emit (machine.after inputs cycle) (inputs cycle)) cycles := by
  induction cycles with
  | zero => rfl
  | succ cycles ih =>
    rw [opening_succ, log_snoc, upTo_succ, ih]
    rfl

theorem upTo_mono (order : start ≤ stop) : upTo reports start <+: upTo reports stop := by
  induction stop, order using Nat.le_induction with
  | base => exact List.prefix_rfl
  | succ stop order ih =>
    rw [upTo_succ]
    exact ih.trans (List.prefix_append _ _)

/-- Cycles that report nothing add nothing. -/
theorem upTo_of_silent (order : start ≤ stop)
    (silent : ∀ cycle, start ≤ cycle → cycle < stop → reports cycle = []) :
    upTo reports stop = upTo reports start := by
  induction stop, order using Nat.le_induction with
  | base => rfl
  | succ stop order ih =>
    rw [upTo_succ, silent stop order (Nat.lt_succ_self stop), List.append_nil]
    exact ih fun cycle since before => silent cycle since (Nat.lt_succ_of_lt before)

/-- Of cycles that report one thing at most, and only the first one anything, one thing is known. -/
theorem upTo_window (order : start ≤ stop) (single : ∀ cycle, (reports cycle).length ≤ 1)
    (apart : ∀ cycle later, start ≤ cycle → cycle < later → later < stop →
      reports cycle ≠ [] → reports later = []) :
    ∃ fresh, fresh.length ≤ 1 ∧ upTo reports stop = upTo reports start ++ fresh := by
  induction stop, order using Nat.le_induction with
  | base => exact ⟨[], Nat.zero_le 1, (List.append_nil _).symm⟩
  | succ stop order ih =>
    by_cases silent : ∀ cycle, start ≤ cycle → cycle < stop → reports cycle = []
    · exact ⟨reports stop, single stop, by rw [upTo_succ, upTo_of_silent order silent]⟩
    · push Not at silent
      obtain ⟨cycle, since, before, some⟩ := silent
      have last := apart cycle stop since before (Nat.lt_succ_self stop) some
      obtain ⟨fresh, few, whole⟩ := ih fun earlier later from' between before =>
        apart earlier later from' between (Nat.lt_succ_of_lt before)
      exact ⟨fresh, few, by rw [upTo_succ, last, List.append_nil, whole]⟩

/-- What enters a queue that gives something away again and again leaves it. -/
theorem upTo_drains {entering leaving contents : Nat → List β}
    (kept : ∀ cycle, upTo entering cycle = upTo leaving cycle ++ contents cycle)
    {ready : Nat → Prop} (recurs : ∃ᶠ cycle in atTop, ready cycle)
    (leaves : ∀ cycle, ready cycle → contents cycle ≠ [] → leaving cycle ≠ []) (cycle : Nat) :
    ∃ later, upTo entering cycle <+: upTo leaving later := by
  have inside : ∀ later, upTo leaving later <+: upTo entering later := by
    intro later
    rw [kept]
    exact List.prefix_append _ _
  suffices catches : ∀ missing now, cycle ≤ now →
      (upTo entering cycle).length ≤ (upTo leaving now).length + missing →
      ∃ later, upTo entering cycle <+: upTo leaving later from
    catches _ cycle (Nat.le_refl cycle) (Nat.le_add_left _ _)
  intro missing
  induction missing with
  | zero =>
    intro now order enough
    exact ⟨now, List.prefix_of_prefix_length_le (upTo_mono order) (inside now) enough⟩
  | succ missing ih =>
    intro now order enough
    obtain ⟨later, since, holds⟩ := frequently_atTop.mp recurs now
    have order := Nat.le_trans order since
    by_cases empty : contents later = []
    · have all := kept later
      rw [empty, List.append_nil] at all
      exact ⟨later, all ▸ upTo_mono order⟩
    · have some := List.length_pos_iff.mpr (leaves later holds empty)
      have grown : upTo leaving now <+: upTo leaving later := upTo_mono since
      have more := grown.length_le
      apply ih (later + 1) (Nat.le_succ_of_le order)
      rw [upTo_succ, List.length_append]
      omega

end Reports

/-- If reports keep coming, there are as many of them as one likes. -/
theorem log_grows {emit : σ → ι → List β}
    (recurs : ∃ᶠ cycle in atTop, emit (machine.after inputs cycle) (inputs cycle) ≠ [])
    (count : Nat) : ∃ cycles, count ≤ (machine.log emit (opening inputs cycles)).length := by
  induction count with
  | zero => exact ⟨0, Nat.zero_le _⟩
  | succ count ih =>
    obtain ⟨cycles, many⟩ := ih
    obtain ⟨cycle, later, some⟩ := frequently_atTop.mp recurs cycles
    have longer : ∀ more, (machine.log emit (opening inputs cycles)).length ≤
        (machine.log emit (opening inputs (cycles + more))).length := by
      intro more
      induction more with
      | zero => exact Nat.le_refl _
      | succ more ih =>
        rw [← Nat.add_assoc, opening_succ, log_snoc, List.length_append]
        omega
    refine ⟨cycle + 1, ?_⟩
    have before := longer (cycle - cycles)
    have fresh := List.length_pos_iff.mpr some
    rw [Nat.add_sub_cancel' later] at before
    rw [opening_succ, log_snoc, List.length_append]
    change 0 < (emit (machine.run (opening inputs cycle)) (inputs cycle)).length at fresh
    omega

end Synchronous
