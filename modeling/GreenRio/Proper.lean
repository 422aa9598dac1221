import GreenRio.Decoder

set_option autoImplicit false

namespace GreenRio

/-- Whether the arithmetic units execute an operation: it is theirs and not a CSR access, which
decode marks as arithmetic too. -/
def RobOp.arithmetic (op : RobOp) : Bool := op.isAlu && !op.isCsr

/-- What the fields of every instruction written into the decode queue agree on. -/
structure Decoded.Proper (instruction : Decoded) : Prop where
  apart : instruction.isAlu = true → instruction.isMd = false ∧ instruction.isLoad = false ∧
    instruction.isStore = false ∧ instruction.mret = false ∧ instruction.sret = false ∧
    instruction.wfi = false
  multiply : instruction.isMd = true → instruction.isLoad = false ∧ instruction.isStore = false
  status : instruction.isCsr = true → instruction.isAlu = true
  returns : instruction.mret = true → instruction.sret = false
  jump : instruction.aluJump = true → instruction.aluBranch = true
  control : instruction.aluBranch = true → instruction.isAlu = true ∧ instruction.isCsr = false ∧
    instruction.half = false ∧ instruction.aluModify = false ∧ instruction.aluSelectB = 0b01
  target : instruction.aluJump = true →
    (instruction.usesRs1 = false ∧ instruction.aluSelectA = 0b10) ∨
      (instruction.usesRs1 = true ∧ instruction.aluSelectA = 0b00)
  conditional : instruction.aluBranch = true → instruction.aluJump = false →
    instruction.usesRs1 = true ∧ instruction.usesRs2 = true ∧ instruction.aluSelectA = 0b10 ∧
      (instruction.exception = true ∨ instruction.func3.extractLsb' 1 2 ≠ 0b01)

namespace Decoded.Proper

variable {instruction : Decoded}

/-- An exception may be added to any of them. -/
theorem raise (proper : instruction.Proper) (ecause : BitVec 5) :
    Decoded.Proper { instruction with exception := true, ecause := ecause } :=
  ⟨proper.apart, proper.multiply, proper.status, proper.returns, proper.jump, proper.control,
    proper.target, fun branch jump =>
      let ⟨uses1, uses2, select, _⟩ := proper.conditional branch jump
      ⟨uses1, uses2, select, Or.inl rfl⟩⟩

theorem illegalIf (proper : instruction.Proper) (condition : Bool) :
    (Decoder.illegalIf condition instruction).Proper := by
  unfold Decoder.illegalIf
  split
  · exact proper.raise 2
  · exact proper

end Decoded.Proper

namespace Decoder

/-- Outside the control transfers only the class matters. -/
theorem proper_of_sequential {instruction : Decoded} (branch : instruction.aluBranch = false)
    (jump : instruction.aluJump = false)
    (apart : instruction.isAlu = true → instruction.isMd = false ∧ instruction.isLoad = false ∧
      instruction.isStore = false ∧ instruction.mret = false ∧ instruction.sret = false ∧
      instruction.wfi = false)
    (multiply : instruction.isMd = true → instruction.isLoad = false ∧ instruction.isStore = false)
    (status : instruction.isCsr = true → instruction.isAlu = true)
    (returns : instruction.mret = true → instruction.sret = false) : instruction.Proper := by
  refine ⟨apart, multiply, status, returns, ?_, ?_, ?_, ?_⟩ <;> simp [branch, jump]

section Opcodes

variable (fetched : Fetched) (mode : DecodeMode)

theorem jal_proper (opcodeEq : opcode fetched.rvInst = 0b1101111) :
    (jal fetched.rvInst (defaults fetched)).Proper := by
  have unused : usesRs1 fetched.rvInst = false := by simp [usesRs1, opcodeEq]
  constructor <;> simp [jal, defaults, RobOp.isCsr, unused]

theorem jalr_proper (opcodeEq : opcode fetched.rvInst = 0b1100111) :
    (jalr fetched.rvInst (defaults fetched)).Proper := by
  have used : usesRs1 fetched.rvInst = true := by simp [usesRs1, opcodeEq]
  apply Decoded.Proper.illegalIf
  constructor <;> simp [defaults, RobOp.isCsr, used]

theorem branch_proper (opcodeEq : opcode fetched.rvInst = 0b1100011) :
    (branch fetched.rvInst (defaults fetched)).Proper := by
  have used1 : usesRs1 fetched.rvInst = true := by simp [usesRs1, opcodeEq]
  have used2 : usesRs2 fetched.rvInst = true := by simp [usesRs2, opcodeEq]
  have code : (funct3 fetched.rvInst).extractLsb' 1 2 = fetched.rvInst.extractLsb' 13 2 := by
    unfold funct3
    ext index inside
    simp [BitVec.getElem_extractLsb', show 1 + index < 3 by omega,
      show 12 + (1 + index) = 13 + index by omega]
  unfold branch illegalIf
  split
  · constructor <;> simp [defaults, RobOp.isCsr, used1, used2]
  · rename_i legal
    constructor <;> simp_all [defaults, RobOp.isCsr]

theorem amo_proper : (amo fetched.rvInst (defaults fetched)).Proper := by
  unfold amo
  split
  · apply Decoded.Proper.illegalIf
    apply proper_of_sequential <;> simp [defaults, RobOp.isCsr]
  · apply Decoded.Proper.illegalIf
    apply proper_of_sequential <;> simp [defaults, RobOp.isCsr]

theorem fence_proper : (fence fetched.rvInst (defaults fetched)).Proper := by
  unfold fence
  split
  · apply proper_of_sequential <;> simp [defaults, RobOp.isCsr]
  · apply proper_of_sequential <;> simp [defaults, RobOp.isCsr]
  · apply Decoded.Proper.illegalIf
    apply proper_of_sequential <;> simp [defaults, RobOp.isCsr]

theorem privileged_proper : (privileged fetched.rvInst (defaults fetched) mode).Proper := by
  have common : Decoded.Proper { defaults fetched with isAlu := false } := by
    apply proper_of_sequential <;> simp [defaults, RobOp.isCsr]
  unfold privileged
  split
  · exact common.raise _
  · split
    · apply Decoded.Proper.illegalIf
      apply proper_of_sequential <;> simp [defaults, RobOp.isCsr]
    · split
      · apply Decoded.Proper.illegalIf
        apply proper_of_sequential <;> simp [defaults, RobOp.isCsr]
      · exact common.illegalIf true
  · apply Decoded.Proper.illegalIf
    apply proper_of_sequential <;> simp [defaults, RobOp.isCsr]
  · split
    · apply proper_of_sequential <;> simp [defaults, RobOp.isCsr]
    · exact common.illegalIf true
  · exact common.illegalIf true

/-- A CSR instruction changes nothing of the class it starts from but its access bits. -/
theorem csrOp_proper {checked : Decoded} (proper : checked.Proper) (alu : checked.isAlu = true)
    (branch : checked.aluBranch = false) (jump : checked.aluJump = false)
    (plain : checked.isCsr = false) : (csrOp fetched.rvInst checked).Proper := by
  obtain ⟨md, load, store, mret, sret, wfi⟩ := proper.apart alu
  simp only [RobOp.isCsr, Bool.or_eq_false_iff] at plain
  unfold csrOp
  split
  all_goals
    apply Decoded.Proper.illegalIf
    apply proper_of_sequential <;> simp [alu, branch, jump, md, load, store, mret, sret, wfi]
  simp [RobOp.isCsr, plain]

theorem system_proper : (system fetched.rvInst (defaults fetched) mode).Proper := by
  unfold system
  split
  · exact privileged_proper fetched mode
  · have start : (defaults fetched).Proper := by
      apply proper_of_sequential <;> simp [defaults, RobOp.isCsr]
    refine csrOp_proper fetched (start.illegalIf _) ?_ ?_ ?_ ?_ <;>
      (unfold illegalIf; split <;> rfl)

theorem decodeOpcode_proper : (decodeOpcode fetched.rvInst (defaults fetched) mode).Proper := by
  unfold decodeOpcode
  split
  case h_3 opcodeEq => exact jal_proper fetched opcodeEq
  case h_4 opcodeEq => exact jalr_proper fetched opcodeEq
  case h_5 opcodeEq => exact branch_proper fetched opcodeEq
  case h_12 => exact amo_proper fetched
  case h_13 => exact fence_proper fetched
  case h_14 => exact system_proper fetched mode
  case h_1 => apply proper_of_sequential <;> simp [lui, defaults, RobOp.isCsr]
  case h_2 => apply proper_of_sequential <;> simp [auipc, defaults, RobOp.isCsr]
  case h_10 =>
    unfold op
    split
    · apply proper_of_sequential <;> simp [defaults, RobOp.isCsr]
    · apply Decoded.Proper.illegalIf
      apply proper_of_sequential <;> simp [defaults, RobOp.isCsr]
  case h_11 =>
    unfold opHalf
    split
    · apply Decoded.Proper.illegalIf
      apply proper_of_sequential <;> simp [defaults, RobOp.isCsr]
    · apply Decoded.Proper.illegalIf
      apply proper_of_sequential <;> simp [defaults, RobOp.isCsr]
  all_goals
    apply Decoded.Proper.illegalIf
    apply proper_of_sequential <;> simp [defaults, RobOp.isCsr]

end Opcodes

/-- Everything decode writes into its queue is proper. -/
theorem decode_proper (mode : DecodeMode) (lines : InterruptLines) (fetched : Fetched) :
    (decode mode lines fetched).Proper := by
  have decoded : (rvDecoder mode fetched).Proper := by
    unfold rvDecoder
    have plain := decodeOpcode_proper fetched mode
    by_cases raised : fetched.exception = true
    · simp only [raised, if_true]
      exact plain.raise fetched.ecause
    · simpa only [raised, Bool.false_eq_true, if_false] using plain
  unfold decode
  split
  · exact decoded.raise _
  · exact decoded

/-- The addresses an instruction carries through decode. -/
def addresses (op : RobOp) : Pc × Pc × Pc := (op.pc, op.nextPc, op.predictPc)

@[simp] theorem illegalIf_addresses (condition : Bool) (out : Decoded) :
    addresses (illegalIf condition out).toRobOp = addresses out.toRobOp := by
  unfold illegalIf
  split <;> rfl

theorem csrOp_addresses (instr : BitVec 32) (checked : Decoded) :
    addresses (csrOp instr checked).toRobOp = addresses checked.toRobOp := by
  unfold csrOp
  split <;> rw [illegalIf_addresses] <;> rfl

theorem privileged_addresses (instr : BitVec 32) (out : Decoded) (mode : DecodeMode) :
    addresses (privileged instr out mode).toRobOp = addresses out.toRobOp := by
  unfold privileged
  split
  · rfl
  · split
    · rw [illegalIf_addresses]; rfl
    · split <;> rw [illegalIf_addresses] <;> rfl
  · rw [illegalIf_addresses]; rfl
  · split
    · rfl
    · rw [illegalIf_addresses]; rfl
  · rw [illegalIf_addresses]; rfl

theorem decodeOpcode_addresses (instr : BitVec 32) (out : Decoded) (mode : DecodeMode) :
    addresses (decodeOpcode instr out mode).toRobOp = addresses out.toRobOp := by
  unfold decodeOpcode
  split
  case h_1 => rfl
  case h_2 => rfl
  case h_3 => rfl
  case h_10 =>
    unfold op
    split
    · rfl
    · rw [illegalIf_addresses]; rfl
  case h_11 =>
    unfold opHalf
    split <;> rw [illegalIf_addresses] <;> rfl
  case h_12 =>
    unfold amo
    split <;> rw [illegalIf_addresses] <;> rfl
  case h_13 =>
    unfold fence
    split
    · rfl
    · rfl
    · rw [illegalIf_addresses]; rfl
  case h_14 =>
    unfold system
    split
    · exact privileged_addresses instr out mode
    · rw [csrOp_addresses, illegalIf_addresses]
  all_goals exact illegalIf_addresses _ _

/-- Decode hands on the addresses that fetch recorded. -/
theorem decode_addresses (mode : DecodeMode) (lines : InterruptLines) (fetched : Fetched) :
    addresses (decode mode lines fetched).toRobOp =
      (fetched.pc, fetched.nextPc, fetched.predictPc) := by
  have decoded : addresses (rvDecoder mode fetched).toRobOp =
      (fetched.pc, fetched.nextPc, fetched.predictPc) := by
    have plain := decodeOpcode_addresses fetched.rvInst (defaults fetched) mode
    unfold rvDecoder
    by_cases raised : fetched.exception = true
    · simp only [raised, if_true]
      exact plain
    · simp only [raised, Bool.false_eq_true, if_false]
      exact plain
  unfold decode
  split
  · exact decoded
  · exact decoded

end Decoder

end GreenRio
