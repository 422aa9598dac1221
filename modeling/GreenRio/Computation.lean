import GreenRio.AluPorts
import GreenRio.Decoder
import GreenRio.Proper
import GreenRio.RiscV

set_option autoImplicit false

namespace GreenRio

namespace Alu

section Arithmetic

variable (left right : Word)

/-- Without the modifier the unit computes the operation of its function code. -/
theorem aluResult_arith (code : BitVec 3) :
    aluResult code false false left right = (RiscV.arith code).apply left right := by
  have count : (right.setWidth 6).toNat = right.toNat % 64 := BitVec.toNat_setWidth ..
  rcases RiscV.codes code with rfl | rfl | rfl | rfl | rfl | rfl | rfl | rfl
  · rfl
  · change left <<< (right.setWidth 6).toNat = _
    rw [count]
    rfl
  · change (BitVec.ofBool (left.slt right)).setWidth 64 =
      if left.toInt < right.toInt then 1 else 0
    rw [BitVec.slt]
    by_cases less : left.toInt < right.toInt <;> simp [less]
  · change (BitVec.ofBool (left.ult right)).setWidth 64 =
      if left.toNat < right.toNat then 1 else 0
    rw [BitVec.ult]
    by_cases less : left.toNat < right.toNat <;> simp [less]
  · rfl
  · change left >>> (right.setWidth 6).toNat = _
    rw [count]
    rfl
  · rfl
  · rfl

theorem aluResult_sub :
    aluResult 0 false true left right = RiscV.Arith.sub.apply left right := by
  change left + -right = left - right
  rw [BitVec.sub_eq_add_neg]

theorem aluResult_sra :
    aluResult 5 false true left right = RiscV.Arith.sra.apply left right := by
  change left.sshiftRight (right.setWidth 6).toNat = left.sshiftRight (right.toNat % 64)
  rw [BitVec.toNat_setWidth]

theorem half_add : half (left + right) = RiscV.ArithW.addw.apply left right := by
  change ((left + right).setWidth 32).signExtend 64 = _
  rw [BitVec.setWidth_add _ _ (by omega)]
  rfl

theorem aluResult_arithW {code : BitVec 3} {op : RiscV.ArithW}
    (defined : RiscV.arithW code = some op) :
    aluResult code true false left right = op.apply left right := by
  have count : (right.setWidth 5).toNat = right.toNat % 32 := BitVec.toNat_setWidth ..
  unfold RiscV.arithW at defined
  split at defined <;> cases defined
  · exact half_add left right
  · change ((left <<< (right.setWidth 5).toNat).setWidth 32).signExtend 64 = _
    rw [BitVec.setWidth_shiftLeft_of_le (by omega), count]
    rfl
  · change ((left.setWidth 32) >>> (right.setWidth 5).toNat).signExtend 64 = _
    rw [count]
    rfl

theorem aluResult_arithWModified {code : BitVec 3} {op : RiscV.ArithW}
    (defined : RiscV.arithWModified code = some op) :
    aluResult code true true left right = op.apply left right := by
  have count : (right.setWidth 5).toNat = right.toNat % 32 := BitVec.toNat_setWidth ..
  unfold RiscV.arithWModified at defined
  split at defined <;> cases defined
  · change ((left + -right).setWidth 32).signExtend 64 = _
    rw [BitVec.setWidth_add _ _ (by omega), BitVec.setWidth_neg_of_le (by omega),
      ← BitVec.sub_eq_add_neg]
    rfl
  · change ((left.setWidth 32).sshiftRight (right.setWidth 5).toNat).signExtend 64 = _
    rw [count]
    rfl

end Arithmetic

end Alu

namespace Decoder

/-- A decoded instruction that the arithmetic units execute without a change of the control flow:
it writes a value to a register. -/
structure Computes (decoded : Decoded) (rs1 rs2 : Word) (destination : RiscV.Reg)
    (value : Word) : Prop where
  calm : decoded.exception = false
  arithmetic : decoded.arithmetic = true
  usesRd : decoded.usesRd = true
  rdAddress : decoded.rdAddress = destination.toFin
  jump : decoded.aluJump = false
  branch : decoded.aluBranch = false
  value : Alu.result decoded.toRobOp rs1 rs2 = value

section Immediates

variable (word : BitVec 32)

theorem signExtend_immediate {width : Nat} (imm : BitVec width) (narrow : width ≤ 32) :
    (imm.signExtend 32).signExtend 64 = imm.signExtend 64 := by
  apply BitVec.eq_of_toInt_eq
  rw [BitVec.toInt_signExtend_of_le (by omega), BitVec.toInt_signExtend_of_le narrow,
    BitVec.toInt_signExtend_of_le (by omega)]

/-- The lower bits of an immediate are the count of a shift. -/
theorem shamt_eq : ((RiscV.iImm word).signExtend 64).toNat % 64 =
    ((word.extractLsb' 20 6).setWidth 64).toNat % 64 := by
  have low : ((RiscV.iImm word).signExtend 64).setWidth 6 =
      ((word.extractLsb' 20 6).setWidth 64).setWidth 6 := by
    ext place inside
    simp [RiscV.iImm, BitVec.getElem_signExtend, show place < 64 by omega,
      show place < 12 by omega]
  rw [← BitVec.toNat_inj, BitVec.toNat_setWidth, BitVec.toNat_setWidth] at low
  exact low

theorem shamtW_eq : ((RiscV.iImm word).signExtend 64).toNat % 32 =
    ((RiscV.rs2 word).setWidth 64).toNat % 32 := by
  have low : ((RiscV.iImm word).signExtend 64).setWidth 5 =
      ((RiscV.rs2 word).setWidth 64).setWidth 5 := by
    ext place inside
    simp [RiscV.iImm, RiscV.rs2, BitVec.getElem_signExtend, show place < 64 by omega,
      show place < 12 by omega]
  rw [← BitVec.toNat_inj, BitVec.toNat_setWidth, BitVec.toNat_setWidth] at low
  exact low

end Immediates

section Opcodes

variable {fetched : Fetched} {word : BitVec 32} {instr : RiscV.Instr} {pc rs1 rs2 : Word}
  {destination : RiscV.Reg} {value : Word}

theorem lui_computes (calm : fetched.exception = false) :
    Computes (lui word (defaults fetched)) rs1 rs2 (RiscV.rd word)
      ((RiscV.uImm word).signExtend 64) :=
  ⟨calm, rfl, rfl, rfl, rfl, rfl, BitVec.zero_or⟩

theorem auipc_computes (calm : fetched.exception = false) :
    Computes (auipc word (defaults fetched)) rs1 rs2 (RiscV.rd word)
      (fetched.pc.signExtend 64 + (RiscV.uImm word).signExtend 64) :=
  ⟨calm, rfl, rfl, rfl, rfl, rfl, rfl⟩

/-- An operation with an immediate, as long as it is neither reserved nor modified. -/
theorem opImm_arith (calm : fetched.exception = false)
    (legal : ((funct3 word == 0b001 && word.extractLsb' 26 6 != 0) ||
      (funct3 word == 0b101 && (word.getLsbD 31 || word.extractLsb' 26 4 != 0))) = false)
    (plain : (funct3 word == 0b101 && word.getLsbD 30) = false) :
    Computes (opImm word (defaults fetched)) rs1 rs2 (RiscV.rd word)
      ((RiscV.arith (RiscV.funct3 word)).apply rs1 ((RiscV.iImm word).signExtend 64)) := by
  unfold opImm
  rw [legal, plain]
  refine ⟨calm, rfl, rfl, rfl, rfl, rfl, ?_⟩
  rw [← Alu.aluResult_arith, ← signExtend_immediate _ (by omega)]
  rfl

theorem opImm_sra (calm : fetched.exception = false) (code : funct3 word = 0b101)
    (modified : RiscV.funct6 word = 0b010000) :
    Computes (opImm word (defaults fetched)) rs1 rs2 (RiscV.rd word)
      (RiscV.Arith.sra.apply rs1 ((RiscV.iImm word).signExtend 64)) := by
  unfold opImm
  rw [code, RiscV.funct6_high, RiscV.funct6_sign, RiscV.funct6_low, modified]
  refine ⟨calm, rfl, rfl, rfl, rfl, rfl, ?_⟩
  rw [← Alu.aluResult_sra, ← signExtend_immediate _ (by omega)]
  rfl

theorem opImm_computes (calm : fetched.exception = false)
    (encodes : RiscV.decodeOpImm word = some instr)
    (computes : instr.computed pc rs1 rs2 = some (destination, value)) :
    Computes (opImm word (defaults fetched)) rs1 rs2 destination value := by
  have plain : ∀ {code : BitVec 3}, RiscV.funct3 word = code → code ≠ 0b001 → code ≠ 0b101 →
      Computes (opImm word (defaults fetched)) rs1 rs2 (RiscV.rd word)
        ((RiscV.arith code).apply rs1 ((RiscV.iImm word).signExtend 64)) := by
    rintro code rfl left right
    have notLeft : (funct3 word == 0b001) = false := beq_eq_false_iff_ne.mpr left
    have notRight : (funct3 word == 0b101) = false := beq_eq_false_iff_ne.mpr right
    exact opImm_arith calm (by rw [notLeft, notRight]; rfl) (by rw [notRight]; rfl)
  unfold RiscV.decodeOpImm at encodes
  split at encodes <;> rename_i code
  · cases encodes
    cases computes
    exact plain code (by decide) (by decide)
  · cases encodes
    cases computes
    exact plain code (by decide) (by decide)
  · cases encodes
    cases computes
    exact plain code (by decide) (by decide)
  · cases encodes
    cases computes
    exact plain code (by decide) (by decide)
  · cases encodes
    cases computes
    exact plain code (by decide) (by decide)
  · cases encodes
    cases computes
    exact plain code (by decide) (by decide)
  · split at encodes <;> cases encodes
    rename_i zero
    cases computes
    have select : funct3 word = 0b001 := code
    have shifts : Computes (opImm word (defaults fetched)) rs1 rs2 _ _ :=
      opImm_arith calm (by rw [select, show word.extractLsb' 26 6 = _ from zero]; rfl)
        (by rw [select]; rfl)
    rw [← RiscV.Arith.shift_congr (Or.inl rfl) (shamt_eq word)]
    rw [code] at shifts
    exact shifts
  · have select : funct3 word = 0b101 := code
    split at encodes
    · rename_i zero
      cases encodes
      cases computes
      have shifts : Computes (opImm word (defaults fetched)) rs1 rs2 _ _ :=
        opImm_arith calm (by rw [select, RiscV.funct6_high, RiscV.funct6_low, zero]; rfl)
          (by rw [select, RiscV.funct6_sign, zero]; rfl)
      rw [← RiscV.Arith.shift_congr (Or.inr (Or.inl rfl)) (shamt_eq word)]
      rw [code] at shifts
      exact shifts
    · split at encodes <;> cases encodes
      rename_i modified
      cases computes
      have shifts : Computes (opImm word (defaults fetched)) rs1 rs2 _ _ :=
        opImm_sra calm select modified
      rw [← RiscV.Arith.shift_congr (Or.inr (Or.inr rfl)) (shamt_eq word)]
      exact shifts

/-- An operation on lower halves with an immediate, as long as it is neither reserved nor
modified. -/
theorem opImmHalf_arith (calm : fetched.exception = false) {op : RiscV.ArithW}
    (defined : RiscV.arithW (RiscV.funct3 word) = some op)
    (legal : ((funct3 word == 0b001 && funct7 word != 0) ||
      (funct3 word == 0b101 && (word.getLsbD 31 || word.extractLsb' 25 5 != 0))) = false)
    (plain : (funct3 word == 0b101 && word.getLsbD 30) = false) :
    Computes (opImmHalf word (defaults fetched)) rs1 rs2 (RiscV.rd word)
      (op.apply rs1 ((RiscV.iImm word).signExtend 64)) := by
  unfold opImmHalf
  rw [legal, plain]
  refine ⟨calm, rfl, rfl, rfl, rfl, rfl, ?_⟩
  rw [← Alu.aluResult_arithW _ _ defined, ← signExtend_immediate _ (by omega)]
  rfl

theorem opImmHalf_sraw (calm : fetched.exception = false) (code : funct3 word = 0b101)
    (modified : RiscV.funct7 word = 0b0100000) :
    Computes (opImmHalf word (defaults fetched)) rs1 rs2 (RiscV.rd word)
      (RiscV.ArithW.sraw.apply rs1 ((RiscV.iImm word).signExtend 64)) := by
  unfold opImmHalf
  rw [code, RiscV.funct7_high, RiscV.funct7_sign, RiscV.funct7_low, modified]
  refine ⟨calm, rfl, rfl, rfl, rfl, rfl, ?_⟩
  have shifts : RiscV.arithWModified 0b101 = some .sraw := rfl
  rw [← Alu.aluResult_arithWModified _ _ shifts, ← signExtend_immediate _ (by omega)]
  rfl

theorem opImmHalf_computes (calm : fetched.exception = false)
    (encodes : RiscV.decodeOpImmW word = some instr)
    (computes : instr.computed pc rs1 rs2 = some (destination, value)) :
    Computes (opImmHalf word (defaults fetched)) rs1 rs2 destination value := by
  unfold RiscV.decodeOpImmW at encodes
  split at encodes
  · rename_i code
    have select : funct3 word = 0b000 := code
    cases encodes
    cases computes
    exact opImmHalf_arith calm (by rw [code]; rfl) (by rw [select]; rfl) (by rw [select]; rfl)
  · rename_i code
    have select : funct3 word = 0b001 := code
    split at encodes <;> cases encodes
    rename_i zero
    cases computes
    have shifts : Computes (opImmHalf word (defaults fetched)) rs1 rs2 _ _ :=
      opImmHalf_arith calm (show _ = some RiscV.ArithW.sllw by rw [code]; rfl)
        (by rw [select, show funct7 word = _ from zero]; rfl) (by rw [select]; rfl)
    rw [← RiscV.ArithW.shift_congr (Or.inl rfl) (shamtW_eq word)]
    exact shifts
  · rename_i code
    have select : funct3 word = 0b101 := code
    split at encodes
    · rename_i zero
      cases encodes
      cases computes
      have shifts : Computes (opImmHalf word (defaults fetched)) rs1 rs2 _ _ :=
        opImmHalf_arith calm (show _ = some RiscV.ArithW.srlw by rw [code]; rfl)
          (by rw [select, RiscV.funct7_high, RiscV.funct7_low, zero]; rfl)
          (by rw [select, RiscV.funct7_sign, zero]; rfl)
      rw [← RiscV.ArithW.shift_congr (Or.inr (Or.inl rfl)) (shamtW_eq word)]
      exact shifts
    · split at encodes <;> cases encodes
      rename_i modified
      cases computes
      have shifts : Computes (opImmHalf word (defaults fetched)) rs1 rs2 _ _ :=
        opImmHalf_sraw calm select modified
      rw [← RiscV.ArithW.shift_congr (Or.inr (Or.inr rfl)) (shamtW_eq word)]
      exact shifts
  · cases encodes

/-- A register operation of one of the two legal codes. -/
theorem op_arith (calm : fetched.exception = false) (base : RiscV.funct7 word ≠ 1)
    (legal : modifierIllegal word = false) :
    Computes (op word (defaults fetched)) rs1 rs2 (RiscV.rd word)
      (Alu.aluResult (RiscV.funct3 word) false (word.getLsbD 30) rs1 rs2) := by
  have base' : (funct7 word == 0b0000001) = false := beq_eq_false_iff_ne.mpr base
  unfold op
  rw [base', legal]
  exact ⟨calm, rfl, rfl, rfl, rfl, rfl, rfl⟩

theorem op_computes (calm : fetched.exception = false)
    (encodes : RiscV.decodeOp word = some instr)
    (computes : instr.computed pc rs1 rs2 = some (destination, value)) :
    Computes (op word (defaults fetched)) rs1 rs2 destination value := by
  unfold RiscV.decodeOp at encodes
  split at encodes
  · rename_i zero
    cases encodes
    cases computes
    have plain : Computes (op word (defaults fetched)) rs1 rs2 _ _ :=
      op_arith calm (by rw [zero]; decide)
        (by rw [modifierIllegal, show funct7 word = _ from zero]; rfl)
    rw [← Alu.aluResult_arith]
    rw [RiscV.funct7_sign, zero] at plain
    exact plain
  · rename_i modified
    have modifies : word.getLsbD 30 = true := by rw [RiscV.funct7_sign, modified]; rfl
    split at encodes
    · rename_i code
      have select : funct3 word = 0b000 := code
      cases encodes
      cases computes
      have subtracts : Computes (op word (defaults fetched)) rs1 rs2 _ _ :=
        op_arith calm (by rw [modified]; decide)
          (by rw [modifierIllegal, show funct7 word = _ from modified, select]; rfl)
      rw [← Alu.aluResult_sub]
      rw [modifies, code] at subtracts
      exact subtracts
    · split at encodes <;> cases encodes
      rename_i code
      have select : funct3 word = 0b101 := code
      cases computes
      have shifts : Computes (op word (defaults fetched)) rs1 rs2 _ _ :=
        op_arith calm (by rw [modified]; decide)
          (by rw [modifierIllegal, show funct7 word = _ from modified, select]; rfl)
      rw [← Alu.aluResult_sra]
      rw [modifies, code] at shifts
      exact shifts
  · cases encodes
    cases computes
  · cases encodes

theorem opHalf_arith (calm : fetched.exception = false) (base : RiscV.funct7 word ≠ 1)
    (legal : ((funct7 word == 0 && (funct3 word != 0 && funct3 word != 0b001 &&
      funct3 word != 0b101)) || modifierIllegal word) = false) :
    Computes (opHalf word (defaults fetched)) rs1 rs2 (RiscV.rd word)
      (Alu.aluResult (RiscV.funct3 word) true (word.getLsbD 30) rs1 rs2) := by
  have base' : (funct7 word == 0b0000001) = false := beq_eq_false_iff_ne.mpr base
  unfold opHalf
  rw [base', legal]
  exact ⟨calm, rfl, rfl, rfl, rfl, rfl, rfl⟩

theorem opHalf_computes (calm : fetched.exception = false)
    (encodes : RiscV.decodeOpW word = some instr)
    (computes : instr.computed pc rs1 rs2 = some (destination, value)) :
    Computes (opHalf word (defaults fetched)) rs1 rs2 destination value := by
  unfold RiscV.decodeOpW at encodes
  split at encodes
  · rename_i zero
    obtain ⟨operation, defined, rfl⟩ := Option.map_eq_some_iff.mp encodes
    cases computes
    have codes : (funct3 word != 0 && funct3 word != 0b001 && funct3 word != 0b101) = false := by
      rw [← RiscV.arithW_isNone, show funct3 word = RiscV.funct3 word from rfl, defined]
      rfl
    have plain : Computes (opHalf word (defaults fetched)) rs1 rs2 _ _ :=
      opHalf_arith calm (by rw [zero]; decide)
        (by rw [modifierIllegal, show funct7 word = _ from zero, codes]; rfl)
    rw [← Alu.aluResult_arithW _ _ defined]
    rw [RiscV.funct7_sign, zero] at plain
    exact plain
  · rename_i modified
    obtain ⟨operation, defined, rfl⟩ := Option.map_eq_some_iff.mp encodes
    cases computes
    have codes : (funct3 word != 0 && funct3 word != 0b101) = false := by
      rw [← RiscV.arithWModified_isNone, show funct3 word = RiscV.funct3 word from rfl, defined]
      rfl
    have plain : Computes (opHalf word (defaults fetched)) rs1 rs2 _ _ :=
      opHalf_arith calm (by rw [modified]; decide)
        (by rw [modifierIllegal, show funct7 word = _ from modified, codes]; rfl)
    rw [← Alu.aluResult_arithWModified _ _ defined]
    rw [RiscV.funct7_sign, modified] at plain
    exact plain
  · obtain ⟨operation, -, rfl⟩ := Option.map_eq_some_iff.mp encodes
    cases computes
  · cases encodes

end Opcodes

section Word

variable {fetched : Fetched} {instr : RiscV.Instr} {pc rs1 rs2 : Word}
  {destination : RiscV.Reg} {value : Word}

theorem rvDecoder_computes (mode : DecodeMode) (calm : fetched.exception = false)
    (encodes : RiscV.decode fetched.rvInst = some instr)
    (computes : instr.computed (fetched.pc.signExtend 64) rs1 rs2 = some (destination, value)) :
    Computes (rvDecoder mode fetched) rs1 rs2 destination value := by
  have kept := RiscV.decode_opcode encodes
  have silent := @RiscV.Instr.computed_eq_none instr (fetched.pc.signExtend 64) rs1 rs2
  rw [rvDecoder_eq mode calm, decodeOpcode]
  unfold RiscV.decode at encodes
  split at encodes
  case h_15 => cases encodes
  all_goals
    rename_i code
    rw [code] at kept
  case h_1 =>
    cases encodes
    cases computes
    rw [show opcode fetched.rvInst = _ from code]
    exact lui_computes calm
  case h_2 =>
    cases encodes
    cases computes
    rw [show opcode fetched.rvInst = _ from code]
    exact auipc_computes calm
  case h_8 =>
    rw [show opcode fetched.rvInst = _ from code]
    exact opImm_computes calm encodes computes
  case h_9 =>
    rw [show opcode fetched.rvInst = _ from code]
    exact opImmHalf_computes calm encodes computes
  case h_10 =>
    rw [show opcode fetched.rvInst = _ from code]
    exact op_computes calm encodes computes
  case h_11 =>
    rw [show opcode fetched.rvInst = _ from code]
    exact opHalf_computes calm encodes computes
  all_goals
    rw [silent (by rw [kept]; decide)] at computes
    cases computes

end Word

end Decoder

open AluPort in
/-- Decode and the arithmetic units compute: every word of a computational instruction is routed to
them and writes, on either port, what is prescribed to the register it names. -/
theorem decode_and_alu_compute (mode : DecodeMode) (fetched : Fetched) (instr : RiscV.Instr)
    (rs1 rs2 : Word) (destination : RiscV.Reg) (value : Word) (calm : fetched.exception = false)
    (encodes : RiscV.decode fetched.rvInst = some instr)
    (computes : instr.computed (fetched.pc.signExtend 64) rs1 rs2 = some (destination, value)) :
    let decoded := Decoder.rvDecoder mode fetched
    decoded.exception = false ∧ decoded.arithmetic = true ∧ decoded.usesRd = true ∧
      decoded.rdAddress = destination.toFin ∧
      (alu1 false ⟨true, decoded.toRobOp, rs1, rs2⟩).wrbData = value ∧
      ∀ other, (alu2 false other ⟨true, decoded.toRobOp, rs1, rs2⟩).wrbData = value := by
  have decoded := Decoder.rvDecoder_computes mode calm encodes computes
  have written : ∀ sign, (AluPort.answer sign false
      ⟨true, (Decoder.rvDecoder mode fetched).toRobOp, rs1, rs2⟩).wrbData = value := by
    intro sign
    change (if isJump false _ = true then _ else _) = _
    rw [isJump, decoded.jump]
    exact decoded.value
  exact ⟨decoded.calm, decoded.arithmetic, decoded.usesRd, decoded.rdAddress, written _,
    fun _ => written _⟩

/-- `SRAIW` by four at a negative program counter. -/
theorem decode_and_alu_compute_sraiw :
    ((AluPort.alu1 false ⟨true, (Decoder.rvDecoder ⟨false, false, false, 3⟩
      ⟨0x7ffffff000, 0x7ffffff004, 0, 0x4045559b, false, 0, 0⟩).toRobOp, 0x80000000,
        0⟩).wrbData = 0xfffffffff8000000) :=
  (decode_and_alu_compute ⟨false, false, false, 3⟩
    ⟨0x7ffffff000, 0x7ffffff004, 0, 0x4045559b, false, 0, 0⟩ _ 0x80000000 0 11 _ rfl rfl
      rfl).2.2.2.2.1

end GreenRio
