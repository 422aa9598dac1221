import GreenRio.Divider

set_option autoImplicit false

namespace GreenRio.Division

section Integers

/-- The integers that a half word holds. -/
def Small (x : Int) : Prop := -2 ^ 31 ≤ x ∧ x < 2 ^ 31

/-- What the lower half of a word below `2 ^ 32` in magnitude reads as. -/
def misread (x : Int) : Int :=
  if 2 ^ 31 ≤ x then x - 2 ^ 32 else if x < -2 ^ 31 then x + 2 ^ 32 else x

theorem misread_small {x : Int} (small : Small x) : misread x = x := by
  obtain ⟨low, high⟩ := small
  unfold misread
  rw [if_neg (by omega), if_neg (by omega)]

/-- An integer that is misread turns its sign and the distance of its magnitude to `2 ^ 32`. -/
theorem misread_large {x : Int} (large : ¬ Small x) (below : x.natAbs < 2 ^ 32) :
    (misread x).natAbs = 2 ^ 32 - x.natAbs ∧ (0 < x → misread x < 0) ∧ (x < 0 → 0 < misread x) ∧
      2 ^ 31 ≤ x.natAbs := by
  unfold Small at large
  unfold misread
  split
  · omega
  · split <;> omega

theorem large_sign {x : Int} (large : ¬ Small x) : x < 0 ∨ 0 < x := by
  unfold Small at large
  omega

/-- A quotient by its sign and its size. -/
structure QuotientShape (x y q : Int) : Prop where
  same : (0 ≤ x ∧ 0 ≤ y) ∨ (x ≤ 0 ∧ y ≤ 0) → 0 ≤ q
  opposite : (0 ≤ x ∧ y ≤ 0) ∨ (x ≤ 0 ∧ 0 ≤ y) → q ≤ 0
  none : x.natAbs < y.natAbs → q = 0
  some : y.natAbs ≤ x.natAbs → q ≠ 0
  once : y.natAbs ≤ x.natAbs → x.natAbs < 2 * y.natAbs → q.natAbs = 1
  whole : y.natAbs = 1 → q.natAbs = x.natAbs
  half : y.natAbs ≠ 1 → 2 * q.natAbs ≤ x.natAbs

theorem tdiv_shape (x : Int) {y : Int} (nonzero : y ≠ 0) : QuotientShape x y (x.tdiv y) := by
  have size : (x.tdiv y).natAbs = x.natAbs / y.natAbs := Int.natAbs_tdiv x y
  have divisor : 0 < y.natAbs := by omega
  refine ⟨?_, ?_, ?_, ?_, ?_, ?_, ?_⟩
  · rintro (⟨left, right⟩ | ⟨left, right⟩)
    · exact Int.tdiv_nonneg left right
    · exact Int.tdiv_nonneg_of_nonpos_of_nonpos left right
  · rintro (⟨left, right⟩ | ⟨left, right⟩)
    · exact Int.tdiv_nonpos_of_nonneg_of_nonpos left right
    · have turned := Int.tdiv_nonneg (Int.neg_nonneg_of_nonpos left) right
      rw [Int.neg_tdiv] at turned
      omega
  · intro less
    rw [Nat.div_eq_of_lt less] at size
    omega
  · intro enough
    have := Nat.div_pos enough divisor
    omega
  · intro enough twice
    rw [size]
    exact Nat.div_eq_of_lt_le (by omega) (by omega)
  · intro one
    rw [size, one, Nat.div_one]
  · intro more
    have smaller : x.natAbs / y.natAbs ≤ x.natAbs / 2 :=
      Nat.div_le_div_left (by omega) (by decide)
    omega

/-- A remainder by its sign and its size. -/
structure RemainderShape (x y r : Int) : Prop where
  positive : 0 ≤ x → 0 ≤ r
  negative : x ≤ 0 → r ≤ 0
  below : r.natAbs < y.natAbs
  none : x.natAbs < y.natAbs → r = x
  once : y.natAbs ≤ x.natAbs → x.natAbs < 2 * y.natAbs → r.natAbs = x.natAbs - y.natAbs
  whole : r = 0 ↔ y.natAbs ∣ x.natAbs

theorem tmod_shape (x : Int) {y : Int} (nonzero : y ≠ 0) : RemainderShape x y (x.tmod y) := by
  have size := Int.natAbs_tmod x y
  have divisor : 0 < y.natAbs := by omega
  have positive : 0 ≤ x → 0 ≤ x.tmod y := Int.tmod_nonneg y
  have negative : x ≤ 0 → x.tmod y ≤ 0 := by
    intro sign
    have turned := Int.tmod_nonneg y (Int.neg_nonneg_of_nonpos sign)
    rw [Int.neg_tmod] at turned
    omega
  refine ⟨positive, negative, ?_, ?_, ?_, ?_⟩
  · rw [size]
    exact Nat.mod_lt _ divisor
  · intro less
    rw [Nat.mod_eq_of_lt less] at size
    omega
  · intro enough twice
    rw [size, Nat.mod_eq_sub_mod enough, Nat.mod_eq_of_lt (by omega)]
  · rw [Nat.dvd_iff_mod_eq_zero, ← size, Int.natAbs_eq_zero]

/-- When the quotient of two words below `2 ^ 32` in magnitude survives being computed on their
lower halves. -/
def QuotientSurvives (x y : Int) : Prop :=
  y = 0 ∨ (Small x ∧ Small y ∧ ¬ (x = -2 ^ 31 ∧ y = -1)) ∨
    (Small x ∧ ¬ Small y ∧ x.natAbs + y.natAbs < 2 ^ 32) ∨ (x = 2 ^ 31 ∧ y = -1) ∨
    (¬ Small x ∧ ¬ Small y ∧ x.natAbs = y.natAbs)

/-- The same for the remainder. -/
def RemainderSurvives (x y : Int) : Prop :=
  (Small x ∧ Small y) ∨
    (Small x ∧ ¬ Small y ∧ (x.natAbs + y.natAbs < 2 ^ 32 ∨ (x = -2 ^ 31 ∧ y = 2 ^ 31))) ∨
    (¬ Small x ∧ Small y ∧ y ≠ 0 ∧ y.natAbs ∣ x.natAbs ∧ y.natAbs ∣ 2 ^ 32) ∨
    (¬ Small x ∧ ¬ Small y ∧ x.natAbs = y.natAbs)

theorem misread_ne_zero {y : Int} (nonzero : y ≠ 0) (below : y.natAbs < 2 ^ 32) :
    misread y ≠ 0 := by
  by_cases small : Small y
  · rw [misread_small small]
    exact nonzero
  · have large := misread_large small below
    omega

theorem misread_le {x : Int} (below : x.natAbs < 2 ^ 32) :
    -2 ^ 31 ≤ misread x ∧ misread x < 2 ^ 31 := by
  by_cases small : Small x
  · rw [misread_small small]
    exact small
  · obtain ⟨size, -, -, bound⟩ := misread_large small below
    unfold misread at size ⊢
    unfold Small at small
    split <;> rename_i high
    · omega
    · rw [if_neg high] at size
      split <;> rename_i low
      · omega
      · omega

theorem bmod_half {p : Int} (range : p.natAbs ≤ 2 ^ 31) :
    p.bmod (2 ^ 32) = if p = 2 ^ 31 then -2 ^ 31 else p := by
  rw [Int.bmod_def]
  split <;> split <;> omega

section Quotients

variable {x y q p : Int}

/-- Neither operand is misread: only the one quotient that a half does not hold is wrong. -/
theorem quotient_neither (full : QuotientShape x y q) (smallX : Small x) :
    (if q = 2 ^ 31 then -2 ^ 31 else q) = q ↔ ¬ (x = -2 ^ 31 ∧ y = -1) := by
  have whole := full.whole
  obtain ⟨low, high⟩ := smallX
  have edge : q = 2 ^ 31 ↔ x = -2 ^ 31 ∧ y = -1 := by
    constructor
    · intro large
      have one : y.natAbs = 1 := by
        by_contra more
        have half := full.half more
        omega
      have size := whole one
      rcases (show y = 1 ∨ y = -1 by omega) with rfl | rfl
      · have opposite := full.opposite (by omega)
        omega
      · exact ⟨by omega, rfl⟩
    · rintro ⟨rfl, rfl⟩
      have size := whole rfl
      have same := full.same (by omega)
      omega
  rw [← edge]
  by_cases large : q = 2 ^ 31
  · rw [if_pos large, large]
    decide
  · rw [if_neg large]
    exact iff_of_true rfl large

/-- Only the divisor is misread. -/
theorem quotient_divisor (full : QuotientShape x y q) (low : QuotientShape x (misread y) p)
    (smallX : Small x) (largeY : ¬ Small y) (right : y.natAbs < 2 ^ 32) :
    (if p = 2 ^ 31 then -2 ^ 31 else p) = q ↔ x.natAbs + y.natAbs < 2 ^ 32 := by
  obtain ⟨turned, above, below, edge⟩ := misread_large largeY right
  unfold Small at smallX largeY
  by_cases close : x.natAbs + y.natAbs < 2 ^ 32
  · have none := full.none (by omega)
    have none' := low.none (by omega)
    rw [none, none', if_neg (by decide)]
    exact iff_of_true rfl close
  · -- the misread quotient is not zero, and of the other sign where the quotient is not either
    have some' := low.some (by omega)
    refine iff_of_false ?_ close
    by_cases less : x.natAbs < y.natAbs
    · have none := full.none less
      split <;> omega
    · have opposite := full.opposite (by omega)
      have same' := low.same (by omega)
      have once := full.once (by omega) (by omega)
      split <;> omega

/-- Only the dividend is misread: but for a divisor of one both quotients are small and differ in
sign. -/
theorem quotient_dividend (full : QuotientShape x y q) (low : QuotientShape (misread x) y p)
    (largeX : ¬ Small x) (smallY : Small y) (nonzero : y ≠ 0) (left : x.natAbs < 2 ^ 32) :
    (if p = 2 ^ 31 then -2 ^ 31 else p) = q ↔ x = 2 ^ 31 ∧ y = -1 := by
  obtain ⟨turned, above, below, edge⟩ := misread_large largeX left
  have sign := large_sign largeX
  unfold Small at largeX smallY
  by_cases one : y.natAbs = 1
  · have whole := full.whole one
    have whole' := low.whole one
    rcases Int.natAbs_eq y with unit | unit <;> rw [one] at unit <;> subst unit <;>
      rcases sign with sign | sign
    · have opposite := full.opposite (by omega)
      have same := low.same (by omega)
      rw [if_neg (by omega)]
      omega
    · have same := full.same (by omega)
      have opposite := low.opposite (by omega)
      rw [if_neg (by omega)]
      omega
    · have same := full.same (by omega)
      have opposite := low.opposite (by omega)
      rw [if_neg (by omega)]
      omega
    · have opposite := full.opposite (by omega)
      have same := low.same (by omega)
      split <;> omega
  · have some := full.some (by omega)
    have half := low.half one
    refine iff_of_false ?_ (by omega)
    rw [if_neg (by omega)]
    rcases sign with signX | signX <;> rcases Int.lt_or_gt_of_ne nonzero with signY | signY
    · have same := full.same (by omega)
      have opposite := low.opposite (by omega)
      omega
    · have opposite := full.opposite (by omega)
      have same := low.same (by omega)
      omega
    · have opposite := full.opposite (by omega)
      have same := low.same (by omega)
      omega
    · have same := full.same (by omega)
      have opposite := low.opposite (by omega)
      omega

/-- Both are misread: the order of the magnitudes turns around, and the sign of the quotient
stays. -/
theorem quotient_both (full : QuotientShape x y q)
    (low : QuotientShape (misread x) (misread y) p) (largeX : ¬ Small x) (largeY : ¬ Small y)
    (left : x.natAbs < 2 ^ 32) (right : y.natAbs < 2 ^ 32) :
    (if p = 2 ^ 31 then -2 ^ 31 else p) = q ↔ x.natAbs = y.natAbs := by
  obtain ⟨turnedX, aboveX, belowX, edgeX⟩ := misread_large largeX left
  obtain ⟨turnedY, aboveY, belowY, edgeY⟩ := misread_large largeY right
  rcases Nat.lt_trichotomy x.natAbs y.natAbs with less | equal | more
  · have none := full.none less
    have some := low.some (by omega)
    split <;> omega
  · have once := full.once (by omega) (by omega)
    have once' := low.once (by omega) (by omega)
    have signs : (0 ≤ q ∧ 0 ≤ p) ∨ (q ≤ 0 ∧ p ≤ 0) := by
      rcases large_sign largeX with signX | signX <;>
        rcases large_sign largeY with signY | signY
      · exact Or.inl ⟨full.same (by omega), low.same (by omega)⟩
      · exact Or.inr ⟨full.opposite (by omega), low.opposite (by omega)⟩
      · exact Or.inr ⟨full.opposite (by omega), low.opposite (by omega)⟩
      · exact Or.inl ⟨full.same (by omega), low.same (by omega)⟩
    rw [if_neg (by omega)]
    omega
  · have some := full.some (by omega)
    have none := low.none (by omega)
    rw [none, if_neg (by decide)]
    omega

theorem tdiv_misread_iff (nonzero : y ≠ 0) (left : x.natAbs < 2 ^ 32) (right : y.natAbs < 2 ^ 32) :
    ((misread x).tdiv (misread y)).bmod (2 ^ 32) = x.tdiv y ↔ QuotientSurvives x y := by
  have full := tdiv_shape x nonzero
  have low := tdiv_shape (misread x) (misread_ne_zero nonzero right)
  have range := misread_le left
  have size : ((misread x).tdiv (misread y)).natAbs ≤ 2 ^ 31 := by
    have := Int.natAbs_tdiv_le_natAbs (misread x) (misread y)
    omega
  have unlucky : ¬ Small y → ¬ (x = 2 ^ 31 ∧ y = -1) := by
    rintro largeY ⟨-, rfl⟩
    exact largeY ⟨by decide, by decide⟩
  rw [bmod_half size, QuotientSurvives, or_iff_right nonzero]
  by_cases smallX : Small x <;> by_cases smallY : Small y
  · rw [misread_small smallX, misread_small smallY, quotient_neither full smallX]
    have inside : ¬ (x = 2 ^ 31 ∧ y = -1) := fun edge => by
      have high := smallX.2
      omega
    simp only [smallX, smallY, inside, true_and, not_true, false_and, or_false]
  · rw [misread_small smallX] at low ⊢
    rw [quotient_divisor full low smallX smallY right]
    simp only [smallX, smallY, unlucky smallY, true_and, not_true, not_false_eq_true, false_and,
      or_false, false_or]
  · rw [misread_small smallY] at low ⊢
    rw [quotient_dividend full low smallX smallY nonzero left]
    simp only [smallX, smallY, not_true, false_and, and_false, or_false, false_or]
  · rw [quotient_both full low smallX smallY left right]
    simp only [smallX, smallY, unlucky smallY, true_and, not_false_eq_true, false_and, false_or]

end Quotients

section Remainders

variable {x y r t : Int}

theorem remainder_divisor (full : RemainderShape x y r) (low : RemainderShape x (misread y) t)
    (smallX : Small x) (largeY : ¬ Small y) (right : y.natAbs < 2 ^ 32) :
    t = r ↔ x.natAbs + y.natAbs < 2 ^ 32 ∨ (x = -2 ^ 31 ∧ y = 2 ^ 31) := by
  obtain ⟨turned, above, below, edge⟩ := misread_large largeY right
  unfold Small at smallX largeY
  by_cases close : x.natAbs + y.natAbs < 2 ^ 32
  · have none := full.none (by omega)
    have none' := low.none (by omega)
    exact iff_of_true (none'.trans none.symm) (Or.inl close)
  · have bound := low.below
    rw [or_iff_right close]
    by_cases less : x.natAbs < y.natAbs
    · have none := full.none less
      omega
    · -- both operands have the magnitude of the half's minimum
      have once := full.once (by omega) (by omega)
      have once' := low.once (by omega) (by omega)
      omega

/-- A misread dividend turns the sign of the remainder, so only zeros agree. -/
theorem remainder_turned {z : Int} (full : RemainderShape x y r)
    (low : RemainderShape (misread x) z t) (largeX : ¬ Small x) (left : x.natAbs < 2 ^ 32) :
    t = r ↔ r = 0 ∧ t = 0 := by
  obtain ⟨-, above, below, edge⟩ := misread_large largeX left
  rcases large_sign largeX with sign | sign
  · have negative := full.negative (by omega)
    have positive := low.positive (by omega)
    omega
  · have positive := full.positive (by omega)
    have negative := low.negative (by omega)
    omega

theorem remainder_dividend (full : RemainderShape x y r) (low : RemainderShape (misread x) y t)
    (largeX : ¬ Small x) (left : x.natAbs < 2 ^ 32) :
    t = r ↔ y.natAbs ∣ x.natAbs ∧ y.natAbs ∣ 2 ^ 32 := by
  obtain ⟨turned, above, below, edge⟩ := misread_large largeX left
  rw [remainder_turned full low largeX left, full.whole, low.whole, turned]
  constructor
  · rintro ⟨divides, rest⟩
    refine ⟨divides, ?_⟩
    rw [← Nat.sub_add_cancel (Nat.le_of_lt left)]
    exact Nat.dvd_add rest divides
  · rintro ⟨divides, power⟩
    exact ⟨divides, Nat.dvd_sub power divides⟩

theorem remainder_both (full : RemainderShape x y r)
    (low : RemainderShape (misread x) (misread y) t) (largeX : ¬ Small x) (largeY : ¬ Small y)
    (left : x.natAbs < 2 ^ 32) (right : y.natAbs < 2 ^ 32) :
    t = r ↔ x.natAbs = y.natAbs := by
  obtain ⟨turnedX, aboveX, belowX, edgeX⟩ := misread_large largeX left
  obtain ⟨turnedY, aboveY, belowY, edgeY⟩ := misread_large largeY right
  rw [remainder_turned full low largeX left]
  rcases Nat.lt_trichotomy x.natAbs y.natAbs with less | equal | more
  · have none := full.none less
    omega
  · have once := full.once (by omega) (by omega)
    have once' := low.once (by omega) (by omega)
    omega
  · have none := low.none (by omega)
    omega

theorem tmod_misread_iff (nonzero : y ≠ 0) (left : x.natAbs < 2 ^ 32) (right : y.natAbs < 2 ^ 32) :
    (misread x).tmod (misread y) = x.tmod y ↔ RemainderSurvives x y := by
  have full := tmod_shape x nonzero
  have low := tmod_shape (misread x) (misread_ne_zero nonzero right)
  rw [RemainderSurvives]
  by_cases smallX : Small x <;> by_cases smallY : Small y
  · rw [misread_small smallX, misread_small smallY]
    simp only [smallX, smallY, and_self, true_or]
  · rw [misread_small smallX] at low ⊢
    rw [remainder_divisor full low smallX smallY right]
    simp only [smallX, smallY, true_and, not_true, not_false_eq_true, false_and, and_false,
      or_false, false_or]
  · rw [misread_small smallY] at low ⊢
    rw [remainder_dividend full low smallX left]
    simp only [smallX, smallY, nonzero, ne_eq, true_and, not_true, not_false_eq_true, false_and,
      and_false, or_false, false_or]
  · rw [remainder_both full low smallX smallY left right]
    simp only [smallX, smallY, true_and, not_false_eq_true, false_and, false_or]

end Remainders

end Integers

section Words

variable {x y : Word}

theorem toInt_lowHalf (below : x.toInt.natAbs < 2 ^ 32) :
    (x.setWidth 32).toInt = misread x.toInt := by
  have inside := x.isLt
  have value := BitVec.toInt_eq_toNat_cond x
  rw [BitVec.toInt_setWidth, Int.bmod_def]
  unfold misread
  split at value <;> split <;> split <;> omega

theorem lowHalf_ne_zero (nonzero : y ≠ 0) (below : y.toInt.natAbs < 2 ^ 32) :
    y.setWidth 32 ≠ 0 := by
  have away : y.toInt ≠ 0 := fun zero => nonzero (BitVec.eq_of_toInt_eq (by simpa using zero))
  intro zero
  have low := toInt_lowHalf below
  rw [zero] at low
  exact misread_ne_zero away below low.symm

/-- A half word whose sign is extended, against an integer. -/
theorem extend_ofInt_iff (narrow wide : Int) (range : wide.natAbs < 2 ^ 63) :
    (BitVec.ofInt 32 narrow).signExtend 64 = BitVec.ofInt 64 wide ↔
      narrow.bmod (2 ^ 32) = wide := by
  have held : wide.bmod (2 ^ 64) = wide := by
    rw [Int.bmod_def]
    split <;> omega
  rw [← BitVec.toInt_inj, BitVec.toInt_signExtend_of_le (by omega), BitVec.toInt_ofInt,
    BitVec.toInt_ofInt, held]

theorem extend_ofNat_iff {count : Nat} (below : count < 2 ^ 32) :
    (BitVec.ofNat 32 count).signExtend 64 = BitVec.ofNat 64 count ↔ count < 2 ^ 31 := by
  rw [← BitVec.ofInt_natCast, ← BitVec.ofInt_natCast, extend_ofInt_iff _ _ (by omega),
    Int.bmod_def]
  split <;> omega

theorem toNat_lowHalf (below : x.toNat < 2 ^ 32) : (x.setWidth 32).toNat = x.toNat := by
  rw [BitVec.toNat_setWidth, Nat.mod_eq_of_lt below]

theorem lowHalf_eq_zero_iff (below : y.toNat < 2 ^ 32) : y.setWidth 32 = 0 ↔ y = 0 := by
  rw [← BitVec.toNat_inj, toNat_lowHalf below, ← BitVec.toNat_inj]
  rfl

theorem quotient_signed_iff (left : x.toInt.natAbs < 2 ^ 32) (right : y.toInt.natAbs < 2 ^ 32) :
    (quotient false (x.setWidth 32) (y.setWidth 32)).signExtend 64 = quotient false x y ↔
      QuotientSurvives x.toInt y.toInt := by
  by_cases zero : y = 0
  · subst zero
    rw [quotient, quotient, if_pos (by decide), if_pos rfl]
    exact iff_of_true (by decide) (Or.inl rfl)
  · have away : y.toInt ≠ 0 := fun same => zero (BitVec.eq_of_toInt_eq (by simpa using same))
    have bound := Int.natAbs_tdiv_le_natAbs x.toInt y.toInt
    rw [quotient, quotient, if_neg zero, if_neg (lowHalf_ne_zero zero right), if_neg (by simp),
      if_neg (by simp), extend_ofInt_iff _ _ (by omega), toInt_lowHalf left, toInt_lowHalf right,
      tdiv_misread_iff away left right]

theorem misread_eq_self_iff {value : Int} (below : value.natAbs < 2 ^ 32) :
    misread value = value ↔ Small value := by
  constructor
  · intro same
    by_contra large
    have turned := misread_large large below
    omega
  · exact misread_small

theorem remainder_signed_iff (left : x.toInt.natAbs < 2 ^ 32) (right : y.toInt.natAbs < 2 ^ 32) :
    (remainder false (x.setWidth 32) (y.setWidth 32)).signExtend 64 = remainder false x y ↔
      RemainderSurvives x.toInt y.toInt := by
  by_cases zero : y = 0
  · subst zero
    have kept : (remainder false (x.setWidth 32) ((0 : Word).setWidth 32)).signExtend 64 =
        (x.setWidth 32).signExtend 64 := rfl
    have none : Small 0 := ⟨by decide, by decide⟩
    have survives : RemainderSurvives x.toInt (0 : Word).toInt ↔ Small x.toInt := by
      have origin : (0 : Word).toInt = 0 := rfl
      rw [origin]
      simp [RemainderSurvives, none]
    rw [kept, remainder, if_pos rfl, survives, ← BitVec.toInt_inj,
      BitVec.toInt_signExtend_of_le (by omega), toInt_lowHalf left, misread_eq_self_iff left]
  · have away : y.toInt ≠ 0 := fun same => zero (BitVec.eq_of_toInt_eq (by simpa using same))
    have full := (tmod_shape x.toInt away).below
    have low := (tmod_shape (misread x.toInt) (misread_ne_zero away right)).below
    have range := misread_le right
    have held : ((misread x.toInt).tmod (misread y.toInt)).bmod (2 ^ 32) =
        (misread x.toInt).tmod (misread y.toInt) := by
      rw [bmod_half (by omega), if_neg (by omega)]
    rw [remainder, remainder, if_neg zero, if_neg (lowHalf_ne_zero zero right), if_neg (by simp),
      if_neg (by simp), extend_ofInt_iff _ _ (by omega), toInt_lowHalf left, toInt_lowHalf right,
      held, tmod_misread_iff away left right]

theorem quotient_unsigned_iff (left : x.toNat < 2 ^ 32) (right : y.toNat < 2 ^ 32) :
    (quotient true (x.setWidth 32) (y.setWidth 32)).signExtend 64 = quotient true x y ↔
      ¬ (y.toNat = 1 ∧ 2 ^ 31 ≤ x.toNat) := by
  have origin := lowHalf_eq_zero_iff right
  by_cases zero : y = 0
  · rw [quotient, quotient, if_pos (origin.mpr zero), if_pos zero, zero]
    exact iff_of_true (by decide) (by simp)
  · have away : y.toNat ≠ 0 := fun same => zero (BitVec.eq_of_toNat_eq same)
    have bound : x.toNat / y.toNat ≤ x.toNat := Nat.div_le_self _ _
    rw [quotient, quotient, if_neg (mt origin.mp zero), if_neg zero, if_pos rfl, if_pos rfl,
      toNat_lowHalf left, toNat_lowHalf right, extend_ofNat_iff (by omega)]
    by_cases one : y.toNat = 1
    · rw [one, Nat.div_one]
      omega
    · have smaller : x.toNat / y.toNat ≤ x.toNat / 2 := Nat.div_le_div_left (by omega) (by decide)
      exact iff_of_true (by omega) (fun both => one both.1)

theorem remainder_unsigned_iff (left : x.toNat < 2 ^ 32) (right : y.toNat < 2 ^ 32) :
    (remainder true (x.setWidth 32) (y.setWidth 32)).signExtend 64 = remainder true x y ↔
      x.toNat < 2 ^ 31 ∨ (y.toNat ≠ 0 ∧ y.toNat ≤ x.toNat) := by
  have origin := lowHalf_eq_zero_iff right
  have kept : ∀ width, BitVec.ofNat width x.toNat = x.setWidth width :=
    fun width => BitVec.ofNat_toNat width x
  by_cases zero : y = 0
  · rw [remainder, remainder, if_pos (origin.mpr zero), if_pos zero, zero, ← kept 32]
    have same := extend_ofNat_iff left
    rw [kept 64, BitVec.setWidth_eq] at same
    simpa using same
  · have away : y.toNat ≠ 0 := fun same => zero (BitVec.eq_of_toNat_eq same)
    have bound := Nat.mod_lt x.toNat (Nat.pos_of_ne_zero away)
    rw [remainder, remainder, if_neg (mt origin.mp zero), if_neg zero, if_pos rfl, if_pos rfl,
      toNat_lowHalf left, toNat_lowHalf right, extend_ofNat_iff (by omega)]
    rcases Nat.lt_or_ge x.toNat y.toNat with less | enough
    · rw [Nat.mod_eq_of_lt less]
      omega
    · refine iff_of_true ?_ (Or.inr ⟨away, enough⟩)
      rcases Nat.lt_or_ge x.toNat (2 * y.toNat) with once | more
      · rw [Nat.mod_eq_sub_mod enough, Nat.mod_eq_of_lt (by omega)]
        omega
      · omega

/-- When the result of a 64-bit operation on operands below `2 ^ 32` in magnitude survives being
computed on their lower halves. -/
def Survives (wantsRem isUnsigned : Bool) (x y : Word) : Prop :=
  match wantsRem, isUnsigned with
  | false, true => ¬ (y.toNat = 1 ∧ 2 ^ 31 ≤ x.toNat)
  | true, true => x.toNat < 2 ^ 31 ∨ (y.toNat ≠ 0 ∧ y.toNat ≤ x.toNat)
  | false, false => QuotientSurvives x.toInt y.toInt
  | true, false => RemainderSurvives x.toInt y.toInt

theorem survives_iff (wantsRem isUnsigned : Bool) (left : magnitude isUnsigned x < 2 ^ 32)
    (right : magnitude isUnsigned y < 2 ^ 32) :
    (divide wantsRem isUnsigned (x.setWidth 32) (y.setWidth 32)).signExtend 64 =
      divide wantsRem isUnsigned x y ↔ Survives wantsRem isUnsigned x y := by
  cases wantsRem <;> cases isUnsigned
  · exact quotient_signed_iff left right
  · exact quotient_unsigned_iff left right
  · exact remainder_signed_iff left right
  · exact remainder_unsigned_iff left right

end Words

end GreenRio.Division

namespace GreenRio.Divider

open Division

/-- The operation is a word form, or an operand keeps it from being shortened to one, or shortening
does not change its result. -/
def Exact (op : BitVec 3) (operand1 operand2 : Word) : Prop :=
  op.getLsbD 2 = true ∨ 2 ^ 32 ≤ magnitude (opUnsigned op) operand1 ∨
    2 ^ 32 ≤ magnitude (opUnsigned op) operand2 ∨
    Survives (wantsRem op) (opUnsigned op) operand1 operand2

theorem upper_zero_iff (x : Word) : x.extractLsb' 32 32 = 0 ↔ x.toNat < 2 ^ 32 := by
  have inside := x.isLt
  rw [← BitVec.toNat_inj, BitVec.extractLsb'_toNat, Nat.shiftRight_eq_div_pow]
  change x.toNat / 2 ^ 32 % 2 ^ 32 = 0 ↔ _
  omega

theorem isWord_iff (op : BitVec 3) (operand1 operand2 : Word) :
    isWord op operand1 operand2 = true ↔ op.getLsbD 2 = true ∨
      (magnitude (opUnsigned op) operand1 < 2 ^ 32 ∧
        magnitude (opUnsigned op) operand2 < 2 ^ 32) := by
  rw [isWord, Bool.or_eq_true, Bool.and_eq_true, beq_iff_eq, beq_iff_eq, upper_zero_iff,
    upper_zero_iff, mag64_toNat, mag64_toNat]

/-- The result is the prescribed one exactly when shortening does no harm. -/
theorem computed_eq_iff (op : BitVec 3) (operand1 operand2 : Word) :
    computed op operand1 operand2 = prescribed op operand1 operand2 ↔
      Exact op operand1 operand2 := by
  have short := isWord_iff op operand1 operand2
  by_cases word : op.getLsbD 2 = true
  · rw [computed, if_pos (short.mpr (Or.inl word)), prescribed, if_pos word]
    exact iff_of_true rfl (Or.inl word)
  · rw [or_iff_right word] at short
    rw [prescribed, if_neg word, Exact, or_iff_right word]
    by_cases both : magnitude (opUnsigned op) operand1 < 2 ^ 32 ∧
        magnitude (opUnsigned op) operand2 < 2 ^ 32
    · rw [computed, if_pos (short.mpr both), or_iff_right (by omega), or_iff_right (by omega)]
      exact survives_iff _ _ both.1 both.2
    · rw [computed, if_neg (mt short.mp both)]
      refine iff_of_true rfl ?_
      rcases (show 2 ^ 32 ≤ magnitude (opUnsigned op) operand1 ∨
        2 ^ 32 ≤ magnitude (opUnsigned op) operand2 by omega) with large | large
      · exact Or.inl large
      · exact Or.inr (Or.inl large)

/-- The request of the first cycle is answered once, with the prescribed result, and the unit is
busy and silent until then and idle again with the answer. -/
def Divides (unit : Divider) (wires : Nat → DivWires) : Prop :=
  ∃ answer, 0 < answer ∧
    (∀ cycle, 0 < cycle → cycle < answer →
      (unit.after wires cycle).state ≠ stIdle ∧ (unit.after wires cycle).respValid = false) ∧
    (unit.after wires answer).state = stIdle ∧ (unit.after wires answer).respValid = true ∧
    (unit.after wires answer).respResult =
      prescribed (wires 0).divOp (wires 0).operand1 (wires 0).operand2 ∧
    (unit.after wires (answer + 1)).respValid = false

variable {unit : Divider} {wires : Nat → DivWires}

theorem divides_iff_computed (idle : unit.state = stIdle) (asks : (wires 0).reqValid = true)
    (free : ∀ cycle, (wires cycle).rst = false) :
    unit.Divides wires ↔ computed (wires 0).divOp (wires 0).operand1 (wires 0).operand2 =
      prescribed (wires 0).divOp (wires 0).operand1 (wires 0).operand2 := by
  obtain ⟨busy, rests, valid, result, quiet⟩ := after_answers idle asks free
  have positive : 0 < latency (wires 0) := Nat.succ_pos _
  constructor
  · rintro ⟨answer, later, before, atRest, -, same, -⟩
    obtain rfl : answer = latency (wires 0) := by
      rcases Nat.lt_trichotomy answer (latency (wires 0)) with early | equal | late
      · exact absurd atRest (busy answer later early).1
      · exact equal
      · exact absurd rests (before _ positive late).1
    rw [← result, same]
  · intro same
    exact ⟨latency (wires 0), positive, busy, rests, valid, result.trans same, quiet⟩

/-- The divider computes what is prescribed exactly when shortening the operation does no harm;
its answer comes once and in time in any case. -/
theorem divides_iff_exact (idle : unit.state = stIdle) (asks : (wires 0).reqValid = true)
    (free : ∀ cycle, (wires cycle).rst = false) :
    unit.Divides wires ↔ Exact (wires 0).divOp (wires 0).operand1 (wires 0).operand2 :=
  (divides_iff_computed idle asks free).trans (computed_eq_iff _ _ _)

/-- The registers after `rst`, and a request held in front of them. -/
def resting : Divider := ⟨0, 0, 0, 0, 0, 0, false, false, false, false, 0, false⟩

def requesting (op : BitVec 3) (operand1 operand2 : Word) : Nat → DivWires :=
  fun _ => ⟨false, operand1, operand2, op, true⟩

theorem divides_iff_exact_signed : resting.Divides (requesting 0b000 (-7) 2) :=
  (divides_iff_exact rfl rfl fun _ => rfl).mpr (Or.inr (Or.inr (Or.inr (Or.inr
    (Or.inl ⟨⟨by decide, by decide⟩, ⟨by decide, by decide⟩, by decide⟩)))))

/-- `DIVU` of `0xffffffff` by one takes the short path and answers with all ones. -/
theorem divu_extends_sign : ¬ resting.Divides (requesting 0b001 0xffffffff 1) := by
  rw [divides_iff_computed rfl rfl fun _ => rfl]
  decide

end GreenRio.Divider
