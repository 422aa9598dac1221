import Mathlib.Data.BitVec

set_option autoImplicit false

namespace Gray

variable {w : Nat}

/-- The reflected code of a number. -/
def encode (x : BitVec w) : BitVec w := x ^^^ (x >>> 1)

theorem getLsbD_encode (x : BitVec w) (place : Nat) :
    (encode x).getLsbD place = (x.getLsbD place ^^ x.getLsbD (place + 1)) := by
  rw [encode, BitVec.getLsbD_xor, BitVec.getLsbD_ushiftRight, Nat.add_comm]

/-- Wider numbers have wider codes. -/
theorem encode_setWidth {v : Nat} (x : BitVec w) (wide : w ≤ v) :
    encode (x.setWidth v) = (encode x).setWidth v := by
  apply BitVec.eq_of_getLsbD_eq
  intro place inside
  rw [getLsbD_encode, BitVec.getLsbD_setWidth, BitVec.getLsbD_setWidth, BitVec.getLsbD_setWidth,
    getLsbD_encode, decide_eq_true inside, Bool.true_and, Bool.true_and]
  by_cases next : place + 1 < v
  · rw [decide_eq_true next, Bool.true_and]
  · rw [decide_eq_false next, Bool.false_and, BitVec.getLsbD_of_ge x (place + 1) (by omega)]

/-- Counting on by one turns the lowest bits over, up to a place. -/
theorem testBit_succ (n : Nat) :
    ∃ top, ∀ place, (n + 1).testBit place = (n.testBit place ^^ decide (place ≤ top)) := by
  induction n using Nat.strongRecOn with
  | ind n ih =>
    rcases Nat.even_or_odd' n with ⟨half, even | odd⟩
    · refine ⟨0, fun place => ?_⟩
      have lower : 2 * half / 2 = half := by omega
      have upper : (2 * half + 1) / 2 = half := by omega
      cases place with
      | zero => simp [even]
      | succ place => simp [even, Nat.testBit_succ, lower, upper]
    · obtain ⟨top, turned⟩ := ih half (by omega)
      refine ⟨top + 1, fun place => ?_⟩
      have lower : (2 * half + 1) / 2 = half := by omega
      have upper : (2 * half + 1 + 1) / 2 = half + 1 := by omega
      cases place with
      | zero => simp [odd, Nat.add_assoc]
      | succ place => simp [odd, Nat.testBit_succ, lower, upper, turned]

theorem getLsbD_succ (x : BitVec w) :
    ∃ top, ∀ place < w, (x + 1).getLsbD place = (x.getLsbD place ^^ decide (place ≤ top)) := by
  obtain ⟨top, turned⟩ := testBit_succ x.toNat
  refine ⟨top, fun place inside => ?_⟩
  have wide : (1 : BitVec w).toNat % 2 ^ w = 1 % 2 ^ w := by simp
  have total : (x + 1).toNat = (x.toNat + 1) % 2 ^ w := by
    rw [BitVec.toNat_add, Nat.add_mod, wide, ← Nat.add_mod]
  rw [BitVec.getLsbD, total, Nat.testBit_mod_two_pow, decide_eq_true inside, Bool.true_and, turned]
  rfl

/-- The codes of a number and of the next one differ in a single bit, also where the number wraps
around. -/
theorem encode_succ (x : BitVec w) :
    ∃ changed, ∀ place < w, place ≠ changed →
      (encode (x + 1)).getLsbD place = (encode x).getLsbD place := by
  obtain ⟨top, turned⟩ := getLsbD_succ x
  refine ⟨min top (w - 1), fun place inside other => ?_⟩
  rw [getLsbD_encode, getLsbD_encode, turned place inside]
  by_cases last : place + 1 < w
  · rw [turned (place + 1) last]
    have same : decide (place ≤ top) = decide (place + 1 ≤ top) := decide_eq_decide.mpr (by omega)
    rw [same]
    cases x.getLsbD place <;> cases x.getLsbD (place + 1) <;> cases decide (place + 1 ≤ top) <;> rfl
  · rw [BitVec.getLsbD_of_ge _ _ (Nat.le_of_not_lt last),
      BitVec.getLsbD_of_ge _ _ (Nat.le_of_not_lt last), decide_eq_false (by omega), Bool.xor_false]

/-- What a register catches of a word that changes at the same moment: of some bits it already sees
the new value. -/
def sample (early before after : BitVec w) : BitVec w :=
  (before &&& ~~~early) ||| (after &&& early)

theorem getLsbD_sample (early before after : BitVec w) (place : Nat) :
    (sample early before after).getLsbD place =
      if early.getLsbD place then after.getLsbD place else before.getLsbD place := by
  by_cases inside : place < w
  · rw [sample, BitVec.getLsbD_or, BitVec.getLsbD_and, BitVec.getLsbD_and, BitVec.getLsbD_not,
      decide_eq_true inside]
    cases early.getLsbD place <;> simp
  · rw [BitVec.getLsbD_of_ge _ _ (Nat.le_of_not_lt inside),
      BitVec.getLsbD_of_ge _ _ (Nat.le_of_not_lt inside),
      BitVec.getLsbD_of_ge _ _ (Nat.le_of_not_lt inside),
      BitVec.getLsbD_of_ge _ _ (Nat.le_of_not_lt inside), ite_self]

theorem sample_self (early word : BitVec w) : sample early word word = word := by
  apply BitVec.eq_of_getLsbD_eq
  intro place inside
  rw [getLsbD_sample, ite_self]

/-- Words that differ in one bit are never caught half-way. -/
theorem sample_adjacent {before after : BitVec w} {changed : Nat} (early : BitVec w)
    (kept : ∀ place < w, place ≠ changed → after.getLsbD place = before.getLsbD place) :
    sample early before after = before ∨ sample early before after = after := by
  by_cases new : early.getLsbD changed = true
  · right
    apply BitVec.eq_of_getLsbD_eq
    intro place inside
    rw [getLsbD_sample]
    by_cases here : place = changed
    · rw [here, if_pos new]
    · rw [kept place inside here, ite_self]
  · left
    apply BitVec.eq_of_getLsbD_eq
    intro place inside
    rw [getLsbD_sample]
    by_cases here : place = changed
    · rw [here, if_neg new]
    · rw [kept place inside here, ite_self]

/-- A counter that is sent in reflected code arrives as its value before or after its step. -/
theorem sample_encode (early x : BitVec w) :
    sample early (encode x) (encode (x + 1)) = encode x ∨
      sample early (encode x) (encode (x + 1)) = encode (x + 1) := by
  obtain ⟨changed, kept⟩ := encode_succ x
  exact sample_adjacent early kept

end Gray
