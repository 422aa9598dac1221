import GreenRio.Accesses
import GreenRio.Expansion
import GreenRio.Transfers

set_option autoImplicit false

namespace GreenRio

open RiscV (iType rType uType)

namespace RvcDecoder

/-- The hints that are taken for reserved words: an addition or a right shift by zero, and what
writes `x0` without being an addition of an immediate. -/
def refused (word : BitVec 16) : Bool :=
  match RiscV.cCode word with
  | 0b00001 => RiscV.cRd word != 0 && RiscV.ciImm word == 0
  | 0b01001 | 0b01101 | 0b00010 => RiscV.cRd word == 0
  | 0b10001 => !word.getLsbD 11 && RiscV.ciImm word == 0
  | 0b10010 => RiscV.cRd word == 0 && RiscV.cRs2 word != 0
  | _ => false

/-- A word that stands for an instruction, and the illegal word for none. -/
def Expands (expanded : BitVec 32) : Option RiscV.Instr → Prop
  | none => expanded = 0
  | some instr => RiscV.decode expanded = some instr

theorem Expands.decode {expanded : BitVec 32} {instr : Option RiscV.Instr}
    (expands : Expands expanded instr) : RiscV.decode expanded = instr := by
  cases instr with
  | none =>
    rw [show expanded = 0 from expands]
    decide
  | some instr => exact expands

section Exact

variable (word : BitVec 16)

theorem ciImm_eq_zero_iff :
    RiscV.ciImm word = 0 ↔ slice word 12 1 = 0 ∧ slice word 2 5 = 0 := by
  constructor
  · intro zero
    exact ⟨BitVec.extractLsb'_append_eq_left.symm.trans (congrArg (·.extractLsb' 5 1) zero),
      BitVec.extractLsb'_append_eq_right.symm.trans (congrArg (·.extractLsb' 0 5) zero)⟩
  · rintro ⟨high, low⟩
    change slice word 12 1 ++ slice word 2 5 = 0
    rw [high, low]
    rfl

/-- The upper eight of the eleven bits decide. -/
theorem ciwImm_eq_zero_iff :
    RiscV.ciwImm word = 0 ↔ ¬(slice word 2 11 ≠ 0 ∧ slice word 5 8 ≠ 0) := by
  have places : slice word 5 8 = slice word 11 2 ++ slice word 7 4 ++ slice word 6 1 ++
      slice word 5 1 := by
    apply BitVec.eq_of_getLsbD_eq
    intro place inside
    simp only [slice, BitVec.getLsbD_append, BitVec.getLsbD_extractLsb']
    interval_cases place <;> rfl
  have upper : slice word 5 8 = (slice word 2 11).extractLsb' 3 8 := by
    apply BitVec.eq_of_getLsbD_eq
    intro place inside
    simp only [slice, BitVec.getLsbD_extractLsb']
    interval_cases place <;> rfl
  have wide : slice word 5 8 ≠ 0 → slice word 2 11 ≠ 0 := by
    intro some none
    apply some
    rw [upper, none]
    rfl
  have scattered : ∀ (low : BitVec 4) (high : BitVec 2) (six five : BitVec 1),
      low ++ high ++ five ++ six ++ 0#2 = 0 ↔ high ++ low ++ six ++ five = 0 := by decide
  rw [places] at wide ⊢
  rw [and_iff_right_of_imp wide, not_not]
  exact scattered _ _ _ _

/-- `c.nop` has neither an immediate nor a register. -/
theorem nop_iff : slice word 2 11 = 0 ↔ RiscV.ciImm word = 0 ∧ RiscV.cRd word = 0 := by
  have places : slice word 2 11 = slice word 12 1 ++ RiscV.cRd word ++ slice word 2 5 := by
    apply BitVec.eq_of_getLsbD_eq
    intro place inside
    simp only [slice, RiscV.cRd, BitVec.getLsbD_append, BitVec.getLsbD_extractLsb']
    interval_cases place <;> rfl
  have parts : ∀ (high : BitVec 1) (middle low : BitVec 5),
      high ++ middle ++ low = 0 ↔ (high = 0 ∧ low = 0) ∧ middle = 0 := by decide
  rw [places, ciImm_eq_zero_iff]
  exact parts _ _ _

theorem signed_iff : slice word 12 1 ≠ 0 ∨ RiscV.cRs2 word ≠ 0 ↔ RiscV.ciImm word ≠ 0 := by
  rw [Ne, Ne, Ne, ciImm_eq_zero_iff, not_and_or]
  rfl

theorem kind_eq : slice word 10 3 = slice word 12 1 ++ slice word 10 2 := by
  apply BitVec.eq_of_getLsbD_eq
  intro place inside
  simp only [slice, BitVec.getLsbD_append, BitVec.getLsbD_extractLsb']
  interval_cases place <;> rfl

theorem expands_arithmetic : Expands (arithmetic word)
    (if !word.getLsbD 11 && RiscV.ciImm word == 0 then none
      else RiscV.decodeCompressedOp word) := by
  have shifts : word.getLsbD 11 = (slice word 10 2).getLsbD 1 := by simp [slice]
  have zero : (RiscV.ciImm word == 0) = decide (slice word 12 1 = 0 ∧ slice word 2 5 = 0) := by
    rw [Bool.eq_iff_iff, beq_iff_eq, decide_eq_true_iff, ciImm_eq_zero_iff]
  unfold arithmetic RiscV.decodeCompressedOp
  rw [shifts, kind_eq, zero, show word.extractLsb' 10 2 = slice word 10 2 from rfl,
    show word.extractLsb' 12 1 = slice word 12 1 from rfl,
    show word.extractLsb' 5 2 = slice word 5 2 from rfl]
  have codes : ∀ kind : BitVec 2, kind = 0 ∨ kind = 1 ∨ kind = 2 ∨ kind = 3 := by decide
  have halves : ∀ kind : BitVec 1, kind = 0 ∨ kind = 1 := by decide
  have never : ∀ (half : BitVec 1) (kind : BitVec 2), kind ≠ 3 → half ++ kind ≠ 0b011 := by decide
  rcases codes (slice word 10 2) with kind | kind | kind | kind <;> rw [kind]
  · have shift := never (slice word 12 1) 0 (by decide)
    rw [if_neg (shift ·.1), if_neg (shift ·.1), if_neg (shift ·.1), if_neg (shift ·.1),
      if_neg (by decide)]
    by_cases hint : slice word 12 1 = 0 ∧ slice word 2 5 = 0
    · rw [if_pos hint, decide_eq_true hint]
      rfl
    · rw [if_neg hint, if_pos rfl, decide_eq_false hint]
      exact RiscV.decode_srli _ _ _
  · have shift := never (slice word 12 1) 1 (by decide)
    rw [if_neg (shift ·.1), if_neg (shift ·.1), if_neg (shift ·.1), if_neg (shift ·.1),
      if_neg (by decide)]
    by_cases hint : slice word 12 1 = 0 ∧ slice word 2 5 = 0
    · rw [if_pos hint, decide_eq_true hint]
      rfl
    · rw [if_neg hint, if_neg (by decide), if_pos rfl, decide_eq_false hint]
      exact RiscV.decode_srai _ _ _
  · have shift := never (slice word 12 1) 2 (by decide)
    rw [if_neg (shift ·.1), if_neg (shift ·.1), if_neg (shift ·.1), if_neg (shift ·.1), if_pos rfl,
      ciImm_eq]
    exact RiscV.decode_andi _ _ _
  · rcases halves (slice word 12 1) with half | half <;>
      rcases codes (slice word 5 2) with op | op | op | op <;> rw [half, op]
    · exact RiscV.decode_sub _ _ _
    · exact RiscV.decode_op _ _ _ _
    · exact RiscV.decode_op _ _ _ _
    · exact RiscV.decode_op _ _ _ _
    · exact RiscV.decode_subw _ _ _
    · exact RiscV.decode_addw _ _ _
    · rfl
    · rfl

theorem expands_register : Expands (register word)
    (if RiscV.cRd word == 0 && RiscV.cRs2 word != 0 then none
    else RiscV.decodeCompressedReg word) := by
  unfold register RiscV.decodeCompressedReg
  rw [show slice word 2 5 = RiscV.cRs2 word from rfl, show slice word 7 5 = RiscV.cRd word from rfl]
  by_cases moves : RiscV.cRs2 word = 0
  · rw [if_pos moves, if_pos moves, if_pos moves, moves]
    by_cases writes : RiscV.cRd word = 0
    · rw [if_pos writes, if_pos writes, if_pos writes, writes]
      cases word.getLsbD 12
      · rfl
      · rfl
    · rw [if_neg writes, if_neg writes, if_neg writes, beq_eq_false_iff_ne.mpr writes]
      cases word.getLsbD 12
      · exact RiscV.decode_jalr _ _ _
      · exact RiscV.decode_jalr _ _ _
  · rw [if_neg moves, if_neg moves, if_neg moves, bne_iff_ne.mpr moves]
    by_cases writes : RiscV.cRd word = 0
    · rw [if_pos writes, writes]
      rfl
    · rw [if_neg writes, beq_eq_false_iff_ne.mpr writes]
      cases word.getLsbD 12
      · exact RiscV.decode_op _ _ _ _
      · exact RiscV.decode_op _ _ _ _

theorem expands_rvcDec :
    Expands (rvcDec word) (if refused word then none else RiscV.decodeCompressed word) := by
  unfold rvcDec refused RiscV.decodeCompressed
  rw [show slice word 13 3 ++ slice word 0 2 = RiscV.cCode word from rfl,
    show slice word 2 5 = RiscV.cRs2 word from rfl, show slice word 7 5 = RiscV.cRd word from rfl]
  generalize RiscV.cCode word = code
  split
  case h_1 =>
    by_cases zero : RiscV.ciwImm word = 0
    · rw [if_neg ((ciwImm_eq_zero_iff word).mp zero), if_pos zero]
      rfl
    · rw [if_pos (not_not.mp (mt (ciwImm_eq_zero_iff word).mpr zero)), if_neg zero, ciwImm_eq]
      exact RiscV.decode_addi _ _ _
  case h_2 =>
    refine (RiscV.decode_load _ _ _ _).trans ?_
    rw [clWord_eq]
    rfl
  case h_3 =>
    refine (RiscV.decode_load _ _ _ _).trans ?_
    rw [clDouble_eq]
    rfl
  case h_4 =>
    refine (RiscV.decode_store _ _ _ _ _).trans ?_
    rw [csWord_eq]
    rfl
  case h_5 =>
    refine (RiscV.decode_store _ _ _ _ _).trans ?_
    rw [csDouble_eq]
    rfl
  case h_6 =>
    by_cases zero : RiscV.ciImm word = 0
    · by_cases target : RiscV.cRd word = 0
      · rw [if_pos ((nop_iff word).mpr ⟨zero, target⟩), zero, target]
        rfl
      · rw [if_neg fun nop => target ((nop_iff word).mp nop).2,
          if_neg (not_not.mpr zero ∘ (signed_iff word).mp), zero, bne_iff_ne.mpr target]
        rfl
    · rw [if_neg fun nop => zero ((nop_iff word).mp nop).1, if_pos ((signed_iff word).mpr zero),
        beq_eq_false_iff_ne.mpr zero, Bool.and_false, RiscV.cRs2, ← slice, ciImm_eq]
      exact RiscV.decode_addi _ _ _
  case h_7 =>
    by_cases target : RiscV.cRd word = 0
    · rw [if_neg (not_not.mpr target), if_pos target]
      rfl
    · rw [if_pos target, if_neg target, RiscV.cRs2, ← slice, ciImm_eq]
      exact RiscV.decode_addiw _ _ _
  case h_8 =>
    by_cases target : RiscV.cRd word = 0
    · rw [if_neg (not_not.mpr target), target]
      rfl
    · rw [if_pos target, beq_eq_false_iff_ne.mpr target, RiscV.cRs2, ← slice, ciImm_eq]
      exact RiscV.decode_addi _ _ _
  case h_9 =>
    simp only [signed_iff]
    by_cases target : RiscV.cRd word = 0
    · rw [if_neg fun both => both.2 target, target]
      rfl
    · rw [beq_eq_false_iff_ne.mpr target]
      by_cases zero : RiscV.ciImm word = 0
      · rw [if_neg fun both => both.1 zero, if_pos zero]
        rfl
      · rw [if_pos ⟨zero, target⟩, if_neg zero]
        by_cases stack : RiscV.cRd word = 2
        · rw [if_pos stack, if_pos stack, spImm_eq]
          exact RiscV.decode_addi _ _ _
        · rw [if_neg stack, if_neg stack]
          refine (RiscV.decode_lui _ _).trans ?_
          rw [RiscV.cRs2, ← slice, uImm_eq]
  case h_10 => exact expands_arithmetic word
  case h_11 =>
    refine (RiscV.decode_jal _ _).trans ?_
    rw [cjOffset_eq]
  case h_12 =>
    refine (RiscV.decode_branch _ _ _ _ _).trans ?_
    rw [cbOffset_eq]
    rfl
  case h_13 =>
    refine (RiscV.decode_branch _ _ _ _ _).trans ?_
    rw [cbOffset_eq]
    rfl
  case h_14 =>
    by_cases target : RiscV.cRd word = 0
    · rw [if_neg (not_not.mpr target), target]
      rfl
    · rw [if_pos target, beq_eq_false_iff_ne.mpr target]
      exact RiscV.decode_slli _ _ _
  case h_15 =>
    change Expands (if RiscV.cRd word ≠ 0 then _ else _) (if RiscV.cRd word = 0 then none else _)
    by_cases target : RiscV.cRd word = 0
    · rw [if_neg (not_not.mpr target), if_pos target]
      rfl
    · rw [if_pos target, if_neg target, ciWord_eq]
      refine (RiscV.decode_load _ _ _ _).trans ?_
      rfl
  case h_16 =>
    change Expands (if RiscV.cRd word ≠ 0 then _ else _) (if RiscV.cRd word = 0 then none else _)
    by_cases target : RiscV.cRd word = 0
    · rw [if_neg (not_not.mpr target), if_pos target]
      rfl
    · rw [if_pos target, if_neg target, ciDouble_eq]
      refine (RiscV.decode_load _ _ _ _).trans ?_
      rfl
  case h_17 =>
    refine (RiscV.decode_store _ _ _ _ _).trans ?_
    rw [cssWord_eq]
    rfl
  case h_18 =>
    refine (RiscV.decode_store _ _ _ _ _).trans ?_
    rw [cssDouble_eq]
    rfl
  case h_19 => exact expands_register word
  case h_20 =>
    split
    case h_7 =>
      rw [if_neg Bool.false_ne_true]
      split <;> first
        | rfl
        | contradiction
    all_goals contradiction

/-- **Expansion.** A compressed word expands to a word of the instruction that it stands for, and a
reserved one or a refused hint to an illegal word. -/
theorem decode_rvcDec (word : BitVec 16) : RiscV.decode (rvcDec word) =
    if refused word then none else RiscV.decodeCompressed word :=
  (expands_rvcDec word).decode

end Exact

section Stage

variable {word : BitVec 16} {instr : RiscV.Instr} {fetched : Fetched}

/-- Compressed words stand for no system instruction but a breakpoint. -/
theorem decodeCompressed_plain (stands : RiscV.decodeCompressed word = some instr) :
    instr.opcode ≠ 0b1110011 ∨ instr = .ebreak := by
  unfold RiscV.decodeCompressed RiscV.decodeCompressedOp RiscV.decodeCompressedReg at stands
  repeat' split at stands
  all_goals cases stands
  all_goals first
    | exact Or.inr rfl
    | exact Or.inl (by simp [RiscV.Instr.opcode])

/-- The decoder looks at every word that the expansion can produce. -/
theorem rejects_expanded {stands : Option RiscV.Instr} (mode : DecodeMode)
    (calm : fetched.exception = false) (expands : Expands fetched.rvInst stands)
    (plain : ∀ instr, stands = some instr → instr.opcode ≠ 0b1110011 ∨ instr = .ebreak) :
    Decoder.rejects (Decoder.rvDecoder mode fetched) = stands.isNone := by
  rw [Decoder.rejects_rvDecoder calm]
  cases stands with
  | none =>
    have illegal : fetched.rvInst = 0 := expands
    rw [illegal, Decoder.judged_reserved (by decide)]
    decide
  | some instr =>
    have encodes : RiscV.decode fetched.rvInst = some instr := expands
    rcases plain instr rfl with other | point
    · rw [Decoder.judged_reserved, encodes]
      · rfl
      · change RiscV.opcode fetched.rvInst ≠ 0b1110011
        rwa [← RiscV.decode_opcode encodes]
    · rw [Decoder.legal, RiscV.legal, Decoder.misjudged, encodes, point]
      rfl

/-- **Compressed instructions.** The decode stage rejects a compressed word exactly where it is
reserved or a refused hint. Every other one is computed, transfers control or is offered to the load
and store unit as the instruction that it stands for. -/
theorem compressed_executed (mode : DecodeMode) (fetched : Fetched) (word : BitVec 16)
    (calm : fetched.exception = false)
    (expanded : fetched.rvInst = rvInst false (word.setWidth 32)) :
    let decoded := Decoder.rvDecoder mode fetched
    (Decoder.rejects decoded = true ↔
      refused word = true ∨ RiscV.decodeCompressed word = none) ∧
    ∀ instr, refused word = false → RiscV.decodeCompressed word = some instr → ∀ rs1 rs2,
      (∀ destination value,
        instr.computed (fetched.pc.signExtend 64) rs1 rs2 = some (destination, value) →
        Decoder.Computes decoded rs1 rs2 destination value) ∧
      (∀ sign taken target,
        instr.transfer (fetched.pc.signExtend 64) rs1 rs2 = some (taken, target) →
        (Resolves fetched instr taken target decoded ((request decoded rs1 rs2).answer sign false) ↔
          EvenJump rs1 instr ∧ (instr.link.isSome = true → sign.msb = fetched.nextPc.msb))) ∧
      ∀ access issued, instr.access rs1 = some access → issued.rs1Data = rs1 →
        Decoder.Accesses decoded instr access issued := by
  have short : rvInst false (word.setWidth 32) = rvcDec word := by
    rw [rvInst, if_neg Bool.false_ne_true, BitVec.setWidth_setWidth_of_le _ (by omega),
      BitVec.setWidth_eq]
  have expands := expands_rvcDec word
  rw [← short, ← expanded] at expands
  refine ⟨?_, fun instr taken stands rs1 rs2 => ?_⟩
  · rw [rejects_expanded mode calm expands]
    · cases refused word <;> simp
    · intro instr stands
      split at stands
      · cases stands
      · exact decodeCompressed_plain stands
  · rw [taken, if_neg Bool.false_ne_true, stands] at expands
    refine ⟨fun destination value => Decoder.rvDecoder_computes mode calm expands,
      fun sign taken target => rvDecoder_resolves_iff mode sign calm expands, ?_⟩
    intro access issued asks source
    rw [← source] at asks
    exact rvDecoder_accesses mode calm expands asks

/-- `c.addi` by zero on `x1` is refused, and `c.addi` by one on it is not. -/
theorem compressed_executed_addi :
    Decoder.rejects (Decoder.rvDecoder ⟨false, false, false, 3⟩
      (Decoder.delivered (rvInst false ((0x0081 : BitVec 16).setWidth 32)))) = true ∧
    (Decoder.Computes (Decoder.rvDecoder ⟨false, false, false, 3⟩
      (Decoder.delivered (rvInst false ((0x0085 : BitVec 16).setWidth 32)))) 41 0 1 42) :=
  ⟨(compressed_executed ⟨false, false, false, 3⟩
      (Decoder.delivered (rvInst false ((0x0081 : BitVec 16).setWidth 32))) 0x0081#16 rfl rfl).1.mpr
        (Or.inl (by decide)),
    ((compressed_executed ⟨false, false, false, 3⟩
      (Decoder.delivered (rvInst false ((0x0085 : BitVec 16).setWidth 32))) 0x0085#16 rfl rfl).2
        (.opImm .add 1 1 1) (by decide) (by decide) 41 0).1 1 42 (by decide)⟩

end Stage

end RvcDecoder

end GreenRio
