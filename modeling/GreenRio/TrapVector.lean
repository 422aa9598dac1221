import GreenRio.CsrRegfile

set_option autoImplicit false

namespace GreenRio

namespace CsrRegfile

section Signals

variable (csr : CsrRegfile) (input : CsrInput)

/-- The vector register of the mode that a trap goes to. -/
def targetTvec : Word := if csr.nextMode input = 3 then csr.mtvec else csr.stvec

/-- The interrupts that move the vector of that mode whatever the trap is. -/
def strayPending : Bool :=
  if csr.nextMode input = 3 then csr.dffInterrupt || (csr.statusMie && csr.machinePending)
  else csr.statusSie && csr.supervisorPending

end Signals

/-- The mode field of a vector register: 0 is direct, 1 is vectored, and the others are reserved. -/
def tvecMode (tvec : Word) : BitVec 2 := tvec.extractLsb' 0 2

/-- The vector that is specified for a cause. -/
def Specified (tvec : Word) (cause : BitVec 5) (target : Pc) : Prop :=
  (isInterrupt cause = false ∨ tvecMode tvec = 0 → target = (tvecBase tvec).setWidth 39) ∧
    (isInterrupt cause = true → tvecMode tvec = 1 →
      target = (tvecBase tvec + 4 * (cause.setWidth 4).setWidth 64).setWidth 39)

variable {csr : CsrRegfile} {input : CsrInput}

/-- A trap goes to supervisor mode or to machine mode. -/
theorem nextMode_trap (pending : input.excpPending = true) :
    csr.nextMode input = 1 ∨ csr.nextMode input = 3 := by
  rw [nextMode, if_pos pending]
  split
  · exact .inl rfl
  · exact .inr rfl

/-- The vector of a trap: the base, and an offset that pending interrupts add as well. -/
theorem tvecOut_trap (pending : input.excpPending = true) :
    csr.tvecOut input = tvecBase (csr.targetTvec input) +
      if csr.strayPending input ||
          (isInterrupt input.excpCause && (csr.targetTvec input).getLsbD 0)
      then vectorOffset input.excpCause else 0#64 := by
  have supervisor : ¬(1 : BitVec 2) = 3 := by decide
  unfold tvecOut targetTvec strayPending
  rcases @nextMode_trap csr input pending with mode | mode
  · simp only [mode, supervisor, if_false, if_true, pending, Bool.true_and]
    split
    · rfl
    · exact (BitVec.add_zero _).symm
  · simp only [mode, if_true, pending, Bool.true_and]
    split
    · rfl
    · exact (BitVec.add_zero _).symm

theorem vectorOffset_toNat (cause : BitVec 5) :
    ((vectorOffset cause).setWidth 39).toNat = 8 * (cause.toNat % 16) + 4 := by
  have code : (cause.setWidth 4).toNat = cause.toNat % 16 := BitVec.toNat_setWidth 4 cause
  have digits : (cause.setWidth 4 ++ 0b100#3).toNat = (cause.toNat % 16) * 8 + 4 := by
    rw [BitVec.toNat_append, code, ← Nat.shiftLeft_add_eq_or_of_lt (by decide), Nat.shiftLeft_eq]
    rfl
  rw [vectorOffset, BitVec.toNat_setWidth, BitVec.toNat_setWidth, digits]
  omega

theorem vectoredOffset_toNat (cause : BitVec 5) :
    ((4 * (cause.setWidth 4).setWidth 64 : Word).setWidth 39).toNat = 4 * (cause.toNat % 16) := by
  have four : (4 : Word).toNat = 4 := rfl
  rw [BitVec.toNat_setWidth, BitVec.toNat_mul, BitVec.toNat_setWidth, BitVec.toNat_setWidth, four]
  omega

/-- The offset of the code is neither none nor the one of the specification. -/
theorem vectorOffset_wrong (cause : BitVec 5) :
    (vectorOffset cause).setWidth 39 ≠ 0#39 ∧
      (vectorOffset cause).setWidth 39 ≠
        (4 * (cause.setWidth 4).setWidth 64 : Word).setWidth 39 := by
  have offset := vectorOffset_toNat cause
  constructor
  · intro none
    rw [none] at offset
    change 0 = _ at offset
    omega
  · intro same
    rw [same, vectoredOffset_toNat] at offset
    omega

/-- A trap in which nothing moves the vector: no interrupt of the entered mode is pending and
enabled, and the trap is no interrupt that is to be vectored. -/
def Unmoved (csr : CsrRegfile) (input : CsrInput) : Prop :=
  csr.strayPending input = false ∧
    ¬(isInterrupt input.excpCause = true ∧ (csr.targetTvec input).getLsbD 0 = true)

/-- An interrupt under a reserved mode, for which nothing is specified. -/
def Unspecified (csr : CsrRegfile) (input : CsrInput) : Prop :=
  isInterrupt input.excpCause = true ∧ 2 ≤ tvecMode (csr.targetTvec input)

theorem tvecMode_cases (tvec : Word) :
    (tvecMode tvec = 0 ∧ tvec.getLsbD 0 = false) ∨ (tvecMode tvec = 1 ∧ tvec.getLsbD 0 = true) ∨
      (2 ≤ tvecMode tvec ∧ tvecMode tvec ≠ 0 ∧ tvecMode tvec ≠ 1) := by
  have low : (tvecMode tvec).getLsbD 0 = tvec.getLsbD 0 := by
    simp [tvecMode]
  rw [← low]
  generalize tvecMode tvec = mode
  revert mode
  decide

/-- A vector with the offset of the code is right only where nothing is specified. -/
theorem specified_moved_iff (tvec : Word) (cause : BitVec 5) :
    Specified tvec cause ((tvecBase tvec + vectorOffset cause).setWidth 39) ↔
      isInterrupt cause = true ∧ 2 ≤ tvecMode tvec := by
  obtain ⟨moves, differs⟩ := vectorOffset_wrong cause
  unfold Specified
  rw [BitVec.setWidth_add _ _ (by decide), BitVec.setWidth_add _ _ (by decide),
    BitVec.add_right_eq_self, BitVec.add_right_inj, iff_false_intro moves, iff_false_intro differs]
  rcases tvecMode_cases tvec with ⟨mode, -⟩ | ⟨mode, -⟩ | ⟨reserved, direct, vectored⟩
  · rw [mode]
    simp
  · rw [mode]
    simp
  · rw [iff_false_intro direct, iff_false_intro vectored]
    simpa using fun _ => reserved

/-- The base is the specified vector of what is not vectored. -/
theorem specified_base {tvec : Word} {cause : BitVec 5}
    (unvectored : ¬(isInterrupt cause = true ∧ tvec.getLsbD 0 = true)) :
    Specified tvec cause ((tvecBase tvec).setWidth 39) := by
  refine ⟨fun _ => rfl, fun interrupt vectored => ?_⟩
  rcases tvecMode_cases tvec with ⟨mode, -⟩ | ⟨-, low⟩ | ⟨-, -, other⟩
  · rw [mode] at vectored
    cases vectored
  · exact absurd ⟨interrupt, low⟩ unvectored
  · exact absurd vectored other

/-- The redirect address of a trap is the specified vector of the mode it goes to exactly when
nothing moves it, or nothing is specified. -/
theorem trap_vector_iff (pending : input.excpPending = true) :
    Specified (csr.targetTvec input) input.excpCause (csr.excpPcOut input) ↔
      Unmoved csr input ∨ Unspecified csr input := by
  have target : csr.excpPcOut input = (csr.tvecOut input).setWidth 39 := by
    simp [excpPcOut, pending]
  rw [target, tvecOut_trap pending]
  by_cases moved : (csr.strayPending input ||
      (isInterrupt input.excpCause && (csr.targetTvec input).getLsbD 0)) = true
  · rw [if_pos moved, specified_moved_iff]
    refine ⟨Or.inr, fun right => right.resolve_left fun unmoved => ?_⟩
    rw [Bool.or_eq_true, Bool.and_eq_true] at moved
    rcases moved with stray | vectored
    · rw [unmoved.1] at stray
      cases stray
    · exact unmoved.2 vectored
  · rw [if_neg moved, BitVec.add_zero]
    rw [Bool.or_eq_true, Bool.and_eq_true, not_or] at moved
    exact iff_of_true (specified_base moved.2)
      (.inl ⟨(Bool.not_eq_true _).mp moved.1, moved.2⟩)

/-- A machine timer interrupt under a vectored `mtvec`. -/
def timerInterrupt : CsrInput := ⟨false, 0, 0, true, 0x17, 0, 0x1000, false, false⟩

/-- An exception under a direct `mtvec`. -/
theorem trap_vector_iff_exception :
    Specified 0x80000100 2 (({ reset with mtvec := 0x80000100 } : CsrRegfile).excpPcOut
      { timerInterrupt with excpCause := 2 }) :=
  (@trap_vector_iff { reset with mtvec := 0x80000100 } { timerInterrupt with excpCause := 2 }
    rfl).mpr (.inl ⟨by decide, by decide⟩)

/-- The vector of cause 7 is 28 bytes behind the base, and the code redirects to 60 bytes. -/
theorem timer_interrupt_misses_vector :
    ¬∀ (csr : CsrRegfile) (input : CsrInput), input.excpPending = true →
      Specified (csr.targetTvec input) input.excpCause (csr.excpPcOut input) := by
  intro specified
  have vector := (specified { reset with mtvec := 0x80000101 } timerInterrupt rfl).2 rfl rfl
  revert vector
  decide

end CsrRegfile

end GreenRio
