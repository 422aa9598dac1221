import Mathlib.Data.Nat.Init
import Mathlib.Order.Basic
import GreenRio.Circular

set_option autoImplicit false

namespace GreenRio.Counter

open Circular (advance advance_val_below advance_val_wrapped)

/-- `cnt_precise_end` of `configurable_2mode_counter`; `mode_i` is `{second, first}`. -/
def cntPreciseEnd (size cnt : Nat) (first second : Bool) : Bool :=
  (first && second && cnt == size - 2) || ((first != second) && cnt == size - 1)

def cntOverflowEnd (size cnt : Nat) (first second : Bool) : Bool :=
  first && second && cnt == size - 1

def cntEnd (size cnt : Nat) (first second : Bool) : Bool :=
  cntPreciseEnd size cnt first second || cntOverflowEnd size cnt first second

/-- The next value of `cnt_r` outside reset. -/
def cntNext (size cnt : Nat) (first second : Bool) : Nat :=
  if first || second then
    if cntPreciseEnd size cnt first second then 0
    else if cntOverflowEnd size cnt first second then 1
    else if first != second then cnt + 1
    else cnt + 2
  else cnt

/-- How many requests a mode carries. -/
def amount (first second : Bool) : Nat := first.toNat + second.toNat

theorem amount_and_le (first second allowFirst allowSecond : Bool) :
    amount (first && allowFirst) (second && allowSecond) ≤ amount first second := by
  cases first <;> cases second <;> cases allowFirst <;> cases allowSecond <;> decide

variable {n : Nat} [large : n.AtLeastTwo]

theorem size_pos : 0 < n := Nat.lt_of_lt_of_le Nat.zero_lt_two large.prop

theorem cntNext_lt (cnt : Fin n) (first second : Bool) :
    cntNext n cnt.val first second < n := by
  have two := large.prop
  have inside := cnt.isLt
  cases first <;> cases second <;>
    simp [cntNext, cntPreciseEnd, cntOverflowEnd] <;> (try split_ifs) <;> omega

/-- The register of a two-mode counter that stays below its size. -/
def next (cnt : Fin n) (first second : Bool) : Fin n :=
  ⟨cntNext n cnt.val first second, cntNext_lt cnt first second⟩

theorem cntEnd_iff (cnt : Fin n) (first second : Bool) :
    cntEnd n cnt.val first second = true ↔ n ≤ cnt.val + amount first second := by
  have two := large.prop
  have inside := cnt.isLt
  cases first <;> cases second <;>
    simp [cntEnd, cntPreciseEnd, cntOverflowEnd, amount] <;> omega

/-- The comparisons of the source implement addition around the ring. -/
theorem next_eq_advance (cnt : Fin n) (first second : Bool) :
    next cnt first second = advance cnt (amount first second) := by
  have two := large.prop
  have inside := cnt.isLt
  apply Fin.ext
  rcases Nat.lt_or_ge (cnt.val + amount first second) n with low | high
  · rw [advance_val_below _ _ low]
    cases first <;> cases second <;>
      simp [next, cntNext, cntPreciseEnd, cntOverflowEnd, amount] at low ⊢ <;>
      (try split_ifs) <;> omega
  · have atMost : amount first second ≤ 2 := by cases first <;> cases second <;> decide
    rw [advance_val_wrapped _ _ high (by omega)]
    cases first <;> cases second <;>
      simp [next, cntNext, cntPreciseEnd, cntOverflowEnd, amount] at high ⊢ <;>
      (try split_ifs) <;> omega

/-- `wr_second_line` and its siblings: the line after `line`, or line 0 after the last. -/
def secondLine (line : Fin n) : Fin n :=
  if line.val = n - 1 then ⟨0, size_pos⟩ else ⟨(line.val + 1) % n, Nat.mod_lt _ size_pos⟩

theorem secondLine_eq_advance (line : Fin n) : secondLine line = advance line 1 := by
  have two := large.prop
  have inside := line.isLt
  unfold secondLine
  split
  · apply Fin.ext
    rw [advance_val_wrapped line 1 (by omega) (by omega)]
    change 0 = _
    omega
  · rfl

end GreenRio.Counter
