import Mathlib.Data.ZMod.Defs

set_option autoImplicit false

namespace BoundedQueue

variable {α : Type}

/-- What a queue exchanges in one cycle: the words that enter and how many leave. -/
structure Exchange (α : Type) where
  pushed : List α
  popped : Nat

namespace Exchange

/-- The queue after an exchange, oldest word first. -/
def next (exchange : Exchange α) (contents : List α) : List α :=
  contents.drop exchange.popped ++ exchange.pushed

/-- The words that leave. -/
def leaving (exchange : Exchange α) (contents : List α) : List α := contents.take exchange.popped

/-- Nothing leaves that is not there, and what enters finds room before the cycle. -/
structure Fits (capacity : Nat) (exchange : Exchange α) (contents : List α) : Prop where
  present : exchange.popped ≤ contents.length
  room : contents.length + exchange.pushed.length ≤ capacity

theorem leaving_next (exchange : Exchange α) (contents : List α) :
    exchange.leaving contents ++ exchange.next contents = contents ++ exchange.pushed := by
  rw [leaving, next, ← List.append_assoc, List.take_append_drop]

end Exchange

/-- The queue after a run. -/
def after (contents : List α) (run : List (Exchange α)) : List α :=
  run.foldl (fun contents exchange => exchange.next contents) contents

/-- All the words that leave during a run. -/
def left : List α → List (Exchange α) → List α
  | _, [] => []
  | contents, exchange :: run =>
    exchange.leaving contents ++ left (exchange.next contents) run

/-- No word is lost, and none is made up: what was there and what entered is what left and what
is there, in order. -/
theorem conservation (contents : List α) (run : List (Exchange α)) :
    left contents run ++ after contents run = contents ++ run.flatMap Exchange.pushed := by
  induction run generalizing contents with
  | nil => simp [left, after]
  | cons exchange run ih =>
    change (exchange.leaving contents ++ left (exchange.next contents) run) ++
      after (exchange.next contents) run = _
    rw [List.append_assoc, ih, ← List.append_assoc, exchange.leaving_next, List.flatMap_cons,
      List.append_assoc]

theorem after_snoc (contents : List α) (run : List (Exchange α)) (exchange : Exchange α) :
    after contents (run ++ [exchange]) = exchange.next (after contents run) := by
  simp [after]

theorem left_snoc (contents : List α) (run : List (Exchange α)) (exchange : Exchange α) :
    left contents (run ++ [exchange]) = left contents run ++ exchange.leaving (after contents run) := by
  induction run generalizing contents with
  | nil => simp [left, after]
  | cons first run ih =>
    change first.leaving contents ++ left (first.next contents) (run ++ [exchange]) = _
    rw [ih, ← List.append_assoc]
    rfl

end BoundedQueue
