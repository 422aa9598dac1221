import GreenRio.Resolution
import GreenRio.Trace

set_option autoImplicit false

namespace GreenRio

open Circular Counter Fifo

/-- The addresses with their lowest bit cleared. -/
def clearLow (address : Pc) : Pc := address.extractLsb' 1 38 ++ 0#1

/-- Whether a conditional branch is taken, by its function code. -/
def branchTaken (func3 : BitVec 3) (left right : Word) : Bool :=
  match func3 with
  | 0b000 => left == right
  | 0b001 => left != right
  | 0b100 => left.slt right
  | 0b101 => !left.slt right
  | 0b110 => left.ult right
  | 0b111 => !left.ult right
  | _ => false

namespace Decoded

/-- The target of a branch or a direct jump. -/
def displaced (instruction : Decoded) : Pc := instruction.pc + instruction.immData.signExtend 39

/-- The architectural successor of an instruction that neither traps nor returns from a trap: its
target for a jump or a taken branch, its fall-through address otherwise. -/
def successor (instruction : Decoded) (registers : ArchReg → Option Word) : Option Pc :=
  if instruction.aluJump then
    if instruction.usesRs1 then do
      let base ← registers instruction.rs1Address
      return clearLow ((base + instruction.immData.signExtend 64).setWidth 39)
    else some instruction.displaced
  else if instruction.aluBranch then do
    let left ← registers instruction.rs1Address
    let right ← registers instruction.rs2Address
    return if branchTaken instruction.func3 left right then instruction.displaced
      else instruction.nextPc
  else some instruction.nextPc

end Decoded

theorem clearLow_even (address : Pc) (even : address.getLsbD 0 = false) :
    clearLow address = address := by
  unfold clearLow
  ext index inside
  rw [BitVec.getElem_append]
  split
  · rename_i low
    have zero : index = 0 := by omega
    subst zero
    simpa using even.symm
  · rename_i high
    rw [BitVec.getElem_extractLsb', BitVec.getLsbD_eq_getElem (by omega)]
    simp [show 1 + (index - 1) = index by omega]

theorem setWidth_signExtend_add (pc : Pc) (imm : BitVec 32) :
    (pc.signExtend 64 + imm.signExtend 64).setWidth 39 = pc + imm.signExtend 39 := by
  rw [BitVec.setWidth_add _ _ (by omega)]
  congr 1
  · ext index inside
    simp [BitVec.getElem_signExtend, inside, show index < 64 by omega]
  · ext index inside
    simp [BitVec.getElem_signExtend, show index < 64 by omega]

/-- The comparator decides the six defined conditions. -/
theorem cmpResult_eq (func3 : BitVec 3) (left right : Word)
    (defined : func3.extractLsb' 1 2 ≠ 0b01) :
    Alu.cmpResult func3 left right = branchTaken func3 left right := by
  have cases : ∀ code : BitVec 3, code.extractLsb' 1 2 ≠ 0b01 → code = 0 ∨ code = 1 ∨ code = 4 ∨
      code = 5 ∨ code = 6 ∨ code = 7 := by decide
  rcases cases func3 defined with rfl | rfl | rfl | rfl | rfl | rfl <;> rfl

namespace Decoded

variable {instruction : Decoded} {registers : ArchReg → Option Word} {rs1 rs2 : Word}

/-- A control transfer adds its base and its immediate. -/
theorem result_eq (proper : instruction.Proper) (branch : instruction.aluBranch = true) :
    Alu.result instruction.toRobOp rs1 rs2 =
      Alu.opr1 instruction.toRobOp rs1 + instruction.immData.signExtend 64 := by
  obtain ⟨-, -, half, modify, select⟩ := proper.control branch
  simp [Alu.result, Alu.aluResult, Alu.addSub, Alu.opr2, branch, half, modify, select]

/-- The address an arithmetic unit computes is the architectural successor. -/
theorem successor_eq (proper : instruction.Proper) (calm : instruction.exception = false)
    (reads : instruction.Reads registers rs1 rs2) (even : instruction.EvenTarget rs1) :
    instruction.successor registers = some (Alu.finalNextPc instruction.toRobOp rs1 rs2) := by
  unfold successor Alu.finalNextPc
  by_cases jump : instruction.aluJump = true
  · rw [if_pos jump, if_pos jump, result_eq proper (proper.jump jump)]
    rcases proper.target jump with ⟨direct, select⟩ | ⟨indirect, select⟩
    · have base : Alu.opr1 instruction.toRobOp rs1 = instruction.pc.signExtend 64 := by
        simp [Alu.opr1, select]
      rw [if_neg (by simp [direct]), base, setWidth_signExtend_add]
      rfl
    · have base : Alu.opr1 instruction.toRobOp rs1 = rs1 := by simp [Alu.opr1, select]
      rw [if_pos indirect, reads.rs1 indirect, base]
      have low := even jump select
      change some (clearLow _) = _
      rw [clearLow_even _ (by simpa using low)]
  · rw [if_neg jump, if_neg jump]
    by_cases branch : instruction.aluBranch = true
    · obtain ⟨uses1, uses2, select, condition⟩ := proper.conditional branch (by simpa using jump)
      have defined : instruction.func3.extractLsb' 1 2 ≠ 0b01 := by
        rcases condition with raised | defined
        · simp [calm] at raised
        · exact defined
      have base : Alu.opr1 instruction.toRobOp rs1 = instruction.pc.signExtend 64 := by
        simp [Alu.opr1, select]
      rw [if_pos branch, reads.rs1 uses1, reads.rs2 uses2, result_eq proper branch, base,
        setWidth_signExtend_add]
      simp only [branch, Bool.true_and, cmpResult_eq _ _ _ defined]
      rfl
    · simp [branch]

theorem successor_sequential (proper : instruction.Proper)
    (plain : instruction.arithmetic = false) :
    instruction.successor registers = some instruction.nextPc := by
  have branch : instruction.aluBranch = false := by
    by_contra branch
    obtain ⟨alu, csr, -⟩ := proper.control (by simpa using branch)
    simp [RobOp.arithmetic, alu, csr] at plain
  have jump : instruction.aluJump = false := by
    by_contra jump
    simp [proper.jump (by simpa using jump)] at branch
  simp [successor, branch, jump]

end Decoded

end GreenRio
