import GreenRio.Decoding
import GreenRio.Results

set_option autoImplicit false

namespace GreenRio

open Circular Counter Fifo

/-- Registers hold what a hart has in them. -/
def Agrees (registers : ArchReg → Option Word) (state : RiscV.State 39) : Prop :=
  ∀ name : RiscV.Reg, registers name.toFin = some (state.registers name)

/-- A decoded instruction comes from the program: if it was fetched without an exception, it is the
word at its address. -/
def Sourced (program : RiscV.Program 39) (instruction : Decoded) : Prop :=
  ∃ mode lines fetched, instruction = Decoder.decode mode lines fetched ∧
    (fetched.exception = false → fetched.rvInst = program.word fetched.pc ∧
      fetched.nextPc = fetched.pc + program.size fetched.pc)

theorem clearLow_setWidth (sum : Word) :
    clearLow (sum.setWidth 39) = (sum &&& ~~~1).setWidth 39 := by
  have mask : ∀ place < 64, (~~~1 : Word).getLsbD place = decide (place ≠ 0) := by decide
  unfold clearLow
  ext place inside
  rw [BitVec.getElem_append, BitVec.getElem_setWidth, BitVec.getLsbD_and,
    mask place (by omega)]
  by_cases lowest : place = 0
  · simp [lowest]
  · rw [dif_neg (by omega), BitVec.getElem_extractLsb', BitVec.getLsbD_setWidth,
      show 1 + (place - 1) = place by omega]
    simp [lowest, inside]

section Registers

variable {registers : ArchReg → Option Word} {state : RiscV.State 39}

/-- A write keeps the agreement if its value is known. -/
theorem Agrees.replay (agrees : Agrees registers state) {rd : RiscV.Reg} {answer : Word}
    {write : Write 32 PhyReg Word} (named : write.rd = rd.toFin)
    (known : rd ≠ 0 → write.result = some answer) (pc : Pc) :
    Agrees (Write.replay registers [write]) ⟨pc, state.write rd answer⟩ := by
  intro name
  rw [Write.replay_cons, Write.replay_nil, named]
  change _ = some (state.write rd answer name)
  unfold RiscV.State.write
  by_cases zero : rd = 0
  · rw [if_pos zero, if_pos (by rw [zero]; rfl)]
    exact agrees name
  · have other : rd.toFin ≠ 0 := fun same => zero (BitVec.toFin_inj.mp same)
    rw [if_neg zero, if_neg other]
    by_cases same : name = rd
    · rw [same, Function.update_self, Function.update_self]
      exact known zero
    · rw [Function.update_of_ne same, Function.update_of_ne fun equal =>
        same (BitVec.toFin_inj.mp equal)]
      exact agrees name

/-- The operands that were read are those of the hart. -/
theorem Agrees.operand (agrees : Agrees registers state) {mode : DecodeMode} {fetched : Fetched}
    {instr : RiscV.Instr} {rs1 rs2 : Word} (encodes : RiscV.decode fetched.rvInst = some instr)
    (other : ∀ x y, instr ≠ .sfenceVma x y)
    (reads : (Decoder.rvDecoder mode fetched).Reads registers rs1 rs2) :
    (∀ source, instr.sources.1 = some source → state.operand instr.sources.1 = rs1) ∧
      ∀ source, instr.sources.2 = some source → state.operand instr.sources.2 = rs2 := by
  have operands := Decoder.rvDecoder_operands mode fetched
  simp only [Decoder.operands, Prod.mk.injEq] at operands
  obtain ⟨uses1, uses2, rs1Address, rs2Address⟩ := operands
  obtain ⟨first, second⟩ := reads
  rw [uses1, rs1Address] at first
  rw [uses2, rs2Address] at second
  rw [Decoder.sources_eq encodes other]
  constructor
  · intro source named
    by_cases uses : Decoder.usesRs1 fetched.rvInst = true
    · rw [if_pos uses]
      exact Option.some.inj ((agrees (RiscV.rs1 fetched.rvInst)).symm.trans (first uses))
    · rw [if_neg uses] at named
      cases named
  · intro source named
    by_cases uses : Decoder.usesRs2 fetched.rvInst = true
    · rw [if_pos uses]
      exact Option.some.inj ((agrees (RiscV.rs2 fetched.rvInst)).symm.trans (second uses))
    · rw [if_neg uses] at named
      cases named

end Registers

section Successor

variable {registers : ArchReg → Option Word} {fetched : Fetched} {instr : RiscV.Instr}
  {rs1 rs2 target : Word} {taken : Bool} {word : BitVec 32}

theorem displaced_eq {width : Nat} (pc : Pc) (imm : BitVec width) (narrow : width ≤ 32) :
    pc + (imm.signExtend 32).signExtend 39 =
      (pc.signExtend 64 + imm.signExtend 64).setWidth 39 := by
  rw [← Decoder.signExtend_immediate imm narrow, setWidth_signExtend_add]

theorem jal_successor (code : Decoder.opcode fetched.rvInst = 0b1101111) :
    (Decoder.jal fetched.rvInst (Decoder.defaults fetched)).successor registers =
      some ((fetched.pc.signExtend 64 +
        (RiscV.jImm fetched.rvInst).signExtend 64).setWidth 39) := by
  have unused : Decoder.usesRs1 fetched.rvInst = false := by simp [Decoder.usesRs1, code]
  have direct : ¬ (Decoder.jal fetched.rvInst (Decoder.defaults fetched)).usesRs1 = true := by
    change ¬ Decoder.usesRs1 fetched.rvInst = true
    rw [unused]
    decide
  rw [← displaced_eq _ _ (by omega)]
  exact (if_pos rfl).trans (if_neg direct)

theorem jalr_successor (code : Decoder.opcode fetched.rvInst = 0b1100111)
    (reads : (Decoder.jalr fetched.rvInst (Decoder.defaults fetched)).Reads registers rs1 rs2)
    (zero : RiscV.funct3 fetched.rvInst = 0) :
    (Decoder.jalr fetched.rvInst (Decoder.defaults fetched)).successor registers =
      some (((rs1 + (RiscV.iImm fetched.rvInst).signExtend 64) &&& ~~~1).setWidth 39) := by
  have used : Decoder.usesRs1 fetched.rvInst = true := by simp [Decoder.usesRs1, code]
  have legal : (Decoder.funct3 fetched.rvInst != 0) = false := bne_eq_false_iff_eq.mpr zero
  unfold Decoder.jalr at reads ⊢
  rw [legal] at reads ⊢
  rw [← clearLow_setWidth, ← Decoder.signExtend_immediate _ (by omega)]
  refine (if_pos rfl).trans ((if_pos used).trans ?_)
  rw [reads.rs1 used]
  rfl

theorem branch_successor {condition : RiscV.Condition}
    (code : Decoder.opcode fetched.rvInst = 0b1100011)
    (reads : (Decoder.branch fetched.rvInst (Decoder.defaults fetched)).Reads registers rs1 rs2)
    (defined : RiscV.condition (RiscV.funct3 fetched.rvInst) = some condition) :
    (Decoder.branch fetched.rvInst (Decoder.defaults fetched)).successor registers =
      some (if condition.holds rs1 rs2 then
        (fetched.pc.signExtend 64 + (RiscV.bImm fetched.rvInst).signExtend 64).setWidth 39
        else fetched.nextPc) := by
  have used1 : Decoder.usesRs1 fetched.rvInst = true := by simp [Decoder.usesRs1, code]
  have used2 : Decoder.usesRs2 fetched.rvInst = true := by simp [Decoder.usesRs2, code]
  have legal : (fetched.rvInst.extractLsb' 13 2 == 0b01) = false := by
    rw [RiscV.funct3_upper, ← RiscV.condition_isNone, defined]
    rfl
  have upper : (RiscV.funct3 fetched.rvInst).extractLsb' 1 2 ≠ 0b01 := by
    rw [RiscV.funct3_upper] at legal
    exact beq_eq_false_iff_ne.mp legal
  unfold Decoder.branch at reads ⊢
  rw [legal] at reads ⊢
  have taken : branchTaken (RiscV.funct3 fetched.rvInst) rs1 rs2 = condition.holds rs1 rs2 := by
    rw [← cmpResult_eq _ _ _ upper]
    exact cmpResult_eq_holds defined rs1 rs2
  rw [← taken, ← displaced_eq _ _ (by omega)]
  refine (if_neg Bool.false_ne_true).trans ((if_pos rfl).trans ?_)
  rw [reads.rs1 used1, reads.rs2 used2]
  rfl

/-- Jumps and branches lead where the instruction does. -/
theorem rvDecoder_successor (mode : DecodeMode) (calm : fetched.exception = false)
    (encodes : RiscV.decode fetched.rvInst = some instr)
    (reads : (Decoder.rvDecoder mode fetched).Reads registers rs1 rs2)
    (transfers : instr.transfer (fetched.pc.signExtend 64) rs1 rs2 = some (taken, target)) :
    (Decoder.rvDecoder mode fetched).successor registers =
      some (if taken then target.setWidth 39 else fetched.nextPc) := by
  have kept := RiscV.decode_opcode encodes
  have silent := @RiscV.Instr.transfer_eq_none instr (fetched.pc.signExtend 64) rs1 rs2
  rw [Decoder.rvDecoder_eq mode calm, Decoder.decodeOpcode] at reads ⊢
  unfold RiscV.decode at encodes
  split at encodes
  case h_15 => cases encodes
  all_goals
    rename_i code
    rw [code] at kept
  case h_3 =>
    cases encodes
    cases transfers
    rw [show Decoder.opcode fetched.rvInst = _ from code]
    exact jal_successor code
  case h_4 =>
    split at encodes <;> cases encodes
    rename_i zero
    cases transfers
    rw [show Decoder.opcode fetched.rvInst = _ from code] at reads ⊢
    exact jalr_successor code reads zero
  case h_5 =>
    obtain ⟨condition, defined, rfl⟩ := Option.map_eq_some_iff.mp encodes
    cases transfers
    rw [show Decoder.opcode fetched.rvInst = _ from code] at reads ⊢
    exact branch_successor code reads defined
  all_goals
    rw [silent (by rw [kept]; decide)] at transfers
    cases transfers

end Successor

section Retire

variable {program : RiscV.Program 39} {registers : ArchReg → Option Word}
  {state : RiscV.State 39} {fetched : Fetched} {mode : DecodeMode} {result : Option Word}
  {write : Write 32 PhyReg Word} {instr : RiscV.Instr}

/-- What retires without an exception was fetched and decoded without one. -/
theorem Decoder.decode_calm {lines : InterruptLines}
    (calm : (decode mode lines fetched).exception = false) :
    decode mode lines fetched = rvDecoder mode fetched ∧ fetched.exception = false := by
  unfold decode at calm ⊢
  split at calm
  · cases calm
  · refine ⟨rfl, ?_⟩
    cases raised : fetched.exception with
    | false => rfl
    | true =>
      rw [rvDecoder, if_pos raised] at calm
      cases calm

/-- A conditional branch names no register. -/
theorem Sourced.conditional {instruction : Decoded} (sourced : Sourced program instruction)
    (calm : instruction.exception = false) (branch : instruction.aluBranch = true)
    (jump : instruction.aluJump = false) : instruction.destination = 0 := by
  obtain ⟨mode, lines, fetched, rfl, -⟩ := sourced
  rw [(Decoder.decode_calm calm).1] at branch jump ⊢
  have effects := Decoder.rvDecoder_effects mode fetched
  unfold Decoder.effectsOf at effects
  simp only [Decoder.effects, branch, jump] at effects
  split at effects
  all_goals first
    | exact (Prod.mk.inj (Prod.mk.inj effects).2).2
    | exact absurd (Prod.mk.inj effects).1 (by decide)
    | exact absurd (Prod.mk.inj (Prod.mk.inj effects).2).1 (by decide)

/-- What skips execution and is neither an exception nor a return pauses, and names no register. -/
theorem Sourced.skipped {instruction : Decoded} (sourced : Sourced program instruction)
    (calm : instruction.exception = false)
    (stays : instruction.mret = false ∧ instruction.sret = false)
    (skips : instruction.skips = true) : instruction.destination = 0 := by
  obtain ⟨mode, lines, fetched, rfl, -⟩ := sourced
  have plain := (Decoder.decode_calm calm).1
  rw [plain] at calm stays skips ⊢
  have marks := congrArg Prod.snd (Decoder.rvDecoder_marks mode fetched)
  rw [Decoded.skips, calm, stays.1, stays.2] at skips
  simp only [Decoder.marks, Decoder.marksOf] at marks
  cases encodes : RiscV.decode fetched.rvInst with
  | none =>
    rw [encodes] at marks
    exact absurd (marks.symm.trans skips) (by decide)
  | some instr =>
    rw [encodes, Option.any_some] at marks
    have effects := (Decoder.rvDecoder_effects mode fetched).trans
      (Decoder.effectsOf_eq encodes 0 0 0)
    rw [RiscV.Instr.pauses_destination (marks.symm.trans skips)] at effects
    exact congrArg (fun parts => parts.2.2) effects

theorem Decoder.rvDecoder_proper (mode : DecodeMode) (fetched : Fetched) :
    (rvDecoder mode fetched).Proper :=
  decode_proper mode ProcessorInput.idle.lines fetched

/-- The addresses an instruction carries, without an interrupt. -/
theorem Decoder.rvDecoder_pcs (mode : DecodeMode) (fetched : Fetched) :
    (rvDecoder mode fetched).pc = fetched.pc ∧
      (rvDecoder mode fetched).nextPc = fetched.nextPc := by
  have kept := decode_addresses mode ProcessorInput.idle.lines fetched
  simp only [addresses, Prod.mk.injEq] at kept
  exact ⟨kept.1, kept.2.1⟩

/-- An instruction retires in the machine as it does in the hart. -/
structure Retires (program : RiscV.Program 39) (instruction : Decoded)
    (registers : ArchReg → Option Word) (write : Write 32 PhyReg Word)
    (state after : RiscV.State 39) : Prop where
  next : state.next program (.retire (write.result.getD 0)) = some after
  leads : instruction.successor registers = some after.pc
  agrees : Agrees (Write.replay registers [write]) after

/-- The hart stands in front of an instruction that was decoded from the program. -/
structure Stands (program : RiscV.Program 39) (mode : DecodeMode) (fetched : Fetched)
    (registers : ArchReg → Option Word) (write : Write 32 PhyReg Word)
    (state : RiscV.State 39) : Prop where
  raised : fetched.exception = false
  word : fetched.rvInst = program.word state.pc
  here : fetched.pc = state.pc
  nextPc : fetched.nextPc = state.fallThrough program
  calm : (Decoder.rvDecoder mode fetched).exception = false
  stays : (Decoder.rvDecoder mode fetched).mret = false ∧
    (Decoder.rvDecoder mode fetched).sret = false
  agrees : Agrees registers state
  named : write.rd = (Decoder.rvDecoder mode fetched).destination
  yields : (Decoder.rvDecoder mode fetched).skips = false →
    (Decoder.rvDecoder mode fetched).Yields registers write.result

namespace Stands

variable (stands : Stands program mode fetched registers write state)

include stands

/-- The control flow and the destination, by the instruction. -/
theorem effects_eq (encodes : RiscV.decode fetched.rvInst = some instr) (x y : Word) :
    (Decoder.rvDecoder mode fetched).aluJump = instr.link.isSome ∧
      (Decoder.rvDecoder mode fetched).aluBranch =
        (instr.transfer (state.pc.signExtend 64) x y).isSome ∧
      write.rd = instr.destination.toFin := by
  have effects := (Decoder.rvDecoder_effects mode fetched).trans
    (Decoder.effectsOf_eq encodes (state.pc.signExtend 64) x y)
  simp only [Decoder.effects, Prod.mk.injEq] at effects
  exact ⟨effects.1, effects.2.1, stands.named.trans effects.2.2⟩

omit stands in
/-- Without a change of the control flow the next instruction follows. -/
theorem successor_plain (stands : Stands program mode fetched registers write state)
    (jump : (Decoder.rvDecoder mode fetched).aluJump = false)
    (branch : (Decoder.rvDecoder mode fetched).aluBranch = false) :
    (Decoder.rvDecoder mode fetched).successor registers = some (state.fallThrough program) := by
  rw [Decoded.successor, jump, branch, ← stands.nextPc, ← (Decoder.rvDecoder_pcs mode fetched).2]
  rfl

/-- Arithmetic operations are executed. -/
theorem active (alu : (Decoder.rvDecoder mode fetched).isAlu = true) :
    (Decoder.rvDecoder mode fetched).skips = false := by
  obtain ⟨-, -, -, -, -, wfi⟩ := (Decoder.rvDecoder_proper mode fetched).apart alu
  rw [Decoded.skips, stands.calm, stands.stays.1, stands.stays.2, wfi]
  rfl

/-- What skips execution without an exception pauses, and writes nothing. -/
theorem written (rd : RiscV.Reg)
    (pauses : (Decoder.rvDecoder mode fetched).wfi = true → rd = 0) (written : rd ≠ 0) :
    (Decoder.rvDecoder mode fetched).Yields registers write.result := by
  apply stands.yields
  have awake : (Decoder.rvDecoder mode fetched).wfi = false := by
    by_contra waits
    exact written (pauses (by simpa using waits))
  rw [Decoded.skips, stands.calm, stands.stays.1, stands.stays.2, awake]
  rfl

/-- A reserved word that decode lets pass writes one register. -/
theorem retires_reserved (reserved : RiscV.decode fetched.rvInst = none) :
    ∃ after, Retires program (Decoder.rvDecoder mode fetched) registers write state after := by
  have effects := (Decoder.rvDecoder_effects mode fetched).trans
    (Decoder.reserved_effects reserved stands.raised stands.calm)
  have marks := Decoder.rvDecoder_marks mode fetched
  rw [reserved] at marks
  simp only [Decoder.effects, Decoder.marks, Decoder.marksOf, Prod.mk.injEq, Option.any_none]
    at effects marks
  have awake : (Decoder.rvDecoder mode fetched).wfi = true → RiscV.rd fetched.rvInst = 0 :=
    fun waits => absurd (waits.symm.trans marks.2) (by decide)
  refine ⟨⟨state.fallThrough program,
    state.write (RiscV.rd (program.word state.pc)) (write.result.getD 0)⟩, ?_, ?_, ?_⟩
  · rw [RiscV.State.next, ← stands.word, reserved]
  · exact stands.successor_plain effects.1 effects.2.1
  · apply stands.agrees.replay
    · rw [stands.named, effects.2.2, stands.word]
    · intro named
      rw [← stands.word] at named
      obtain ⟨value, known, -⟩ := stands.written _ awake named
      rw [known]
      rfl

/-- A jump or a branch. -/
theorem retires_transfer {taken : Bool} {target : Word}
    (encodes : RiscV.decode fetched.rvInst = some instr)
    (transfers : instr.transfer (state.pc.signExtend 64) (state.operand instr.sources.1)
      (state.operand instr.sources.2) = some (taken, target)) :
    ∃ after, Retires program (Decoder.rvDecoder mode fetched) registers write state after := by
  obtain ⟨jump, branch, named⟩ := stands.effects_eq encodes (state.operand instr.sources.1)
    (state.operand instr.sources.2)
  rw [transfers] at branch
  have proper := Decoder.rvDecoder_proper mode fetched
  obtain ⟨alu, csr, -⟩ := proper.control branch
  have arithmetic : (Decoder.rvDecoder mode fetched).arithmetic = true := by
    simp [RobOp.arithmetic, alu, csr]
  obtain ⟨value, known, computed⟩ := stands.yields (stands.active alu)
  obtain ⟨rs1, rs2, reads, same⟩ := computed arithmetic
  have other : ∀ x y, instr ≠ .sfenceVma x y := by
    rintro x y rfl
    cases transfers
  obtain ⟨first, second⟩ := stands.agrees.operand encodes other reads
  have moves := transfers
  rw [RiscV.Instr.transfer_congr _ first second, ← stands.here] at moves
  refine ⟨⟨if taken then target.setWidth 39 else state.fallThrough program,
    state.write instr.destination ((state.fallThrough program).signExtend 64)⟩, ?_, ?_, ?_⟩
  · rw [RiscV.State.next, ← stands.word, encodes]
    simp only [RiscV.State.execute, transfers]
  · rw [rvDecoder_successor mode stands.raised encodes reads moves, stands.nextPc]
  · apply stands.agrees.replay named
    intro written
    rw [RiscV.Instr.transfer_destination transfers] at written
    have links : instr.link.isSome = true := by
      by_contra none
      rw [Option.not_isSome_iff_eq_none] at none
      exact written (by rw [none]; rfl)
    rw [known, same, Alu.written, if_pos (jump.trans links),
      (Decoder.rvDecoder_pcs mode fetched).2, stands.nextPc]

/-- A computation. -/
theorem retires_computed {rd : RiscV.Reg} {value : Word}
    (encodes : RiscV.decode fetched.rvInst = some instr)
    (computes : instr.computed (state.pc.signExtend 64) (state.operand instr.sources.1)
      (state.operand instr.sources.2) = some (rd, value)) :
    ∃ after, Retires program (Decoder.rvDecoder mode fetched) registers write state after := by
  obtain ⟨-, -, named⟩ := stands.effects_eq encodes (state.operand instr.sources.1)
    (state.operand instr.sources.2)
  have other : ∀ x y, instr ≠ .sfenceVma x y := by
    rintro x y rfl
    cases computes
  have silent : instr.transfer (state.pc.signExtend 64) (state.operand instr.sources.1)
      (state.operand instr.sources.2) = none := by
    cases instr <;> first
      | rfl
      | cases computes
  have decoded := computes
  rw [← stands.here] at decoded
  have plain := Decoder.rvDecoder_computes mode stands.raised encodes decoded
  have alu := plain.arithmetic
  simp only [RobOp.arithmetic, Bool.and_eq_true] at alu
  obtain ⟨answer, known, computed⟩ := stands.yields (stands.active alu.1)
  obtain ⟨rs1, rs2, reads, same⟩ := computed plain.arithmetic
  obtain ⟨first, second⟩ := stands.agrees.operand encodes other reads
  refine ⟨⟨state.fallThrough program, state.write rd value⟩, ?_, ?_, ?_⟩
  · rw [RiscV.State.next, ← stands.word, encodes]
    simp only [RiscV.State.execute, silent, computes]
  · exact stands.successor_plain plain.jump plain.branch
  · rw [RiscV.Instr.computed_destination computes] at named
    apply stands.agrees.replay named
    intro written
    rw [RiscV.Instr.computed_congr _ first second, ← stands.here] at computes
    rw [known, same, Alu.written, if_neg (by rw [plain.jump]; decide),
      (Decoder.rvDecoder_computes mode stands.raised encodes computes).value]

/-- Memory, the multiplier and the control and status registers answer. -/
theorem retires_other (encodes : RiscV.decode fetched.rvInst = some instr)
    (transfers : instr.transfer (state.pc.signExtend 64) (state.operand instr.sources.1)
      (state.operand instr.sources.2) = none)
    (computes : instr.computed (state.pc.signExtend 64) (state.operand instr.sources.1)
      (state.operand instr.sources.2) = none) :
    ∃ after, Retires program (Decoder.rvDecoder mode fetched) registers write state after := by
  obtain ⟨jump, branch, named⟩ := stands.effects_eq encodes (state.operand instr.sources.1)
    (state.operand instr.sources.2)
  rw [transfers] at branch
  have marks := Decoder.rvDecoder_marks mode fetched
  rw [encodes] at marks
  simp only [Decoder.marks, Decoder.marksOf, Prod.mk.injEq, Option.any_some, stands.stays.1,
    stands.stays.2, Bool.or_false] at marks
  have calls := Decoder.rvDecoder_calls stands.raised encodes stands.calm
  have straight : (Decoder.rvDecoder mode fetched).aluJump = false := by
    by_contra jumps
    have both := (Decoder.rvDecoder_proper mode fetched).jump (by simpa using jumps)
    exact absurd (both.symm.trans branch) (by decide)
  refine ⟨⟨state.fallThrough program,
    state.write instr.destination (write.result.getD 0)⟩, ?_, ?_, ?_⟩
  · rw [RiscV.State.next, ← stands.word, encodes]
    simp only [RiscV.State.execute, transfers, computes, calls, ← marks.1, Bool.or_false,
      Bool.false_eq_true, ↓reduceIte]
  · exact stands.successor_plain straight branch
  · apply stands.agrees.replay named
    intro written
    obtain ⟨value, known, -⟩ := stands.written _
      (fun waits => RiscV.Instr.pauses_destination (marks.2.symm.trans waits)) written
    rw [known]
    rfl

/-- Every instruction. -/
theorem retires :
    ∃ after, Retires program (Decoder.rvDecoder mode fetched) registers write state after := by
  cases encodes : RiscV.decode fetched.rvInst with
  | none => exact stands.retires_reserved encodes
  | some instr =>
    cases transfers : instr.transfer (state.pc.signExtend 64) (state.operand instr.sources.1)
      (state.operand instr.sources.2) with
    | some outcome => exact stands.retires_transfer encodes transfers
    | none =>
      cases computes : instr.computed (state.pc.signExtend 64) (state.operand instr.sources.1)
        (state.operand instr.sources.2) with
      | some outcome => exact stands.retires_computed encodes computes
      | none => exact stands.retires_other encodes transfers computes

end Stands

section Program

variable {instruction : Decoded} (sourced : Sourced program instruction)
  (calm : instruction.exception = false) (here : instruction.pc = state.pc)

include sourced calm here

/-- An instruction of the program retires as the hart executes it. -/
theorem Sourced.retires (stays : instruction.mret = false ∧ instruction.sret = false)
    (agrees : Agrees registers state) (named : write.rd = instruction.destination)
    (yields : instruction.skips = false → instruction.Yields registers write.result) :
    ∃ after, Retires program instruction registers write state after := by
  obtain ⟨mode, lines, fetched, rfl, stored⟩ := sourced
  obtain ⟨plain, raised⟩ := Decoder.decode_calm calm
  rw [plain] at calm here stays named yields ⊢
  obtain ⟨word, nextPc⟩ := stored raised
  rw [(Decoder.rvDecoder_pcs mode fetched).1] at here
  rw [here] at word nextPc
  exact Stands.retires ⟨raised, word, here, nextPc, calm, stays, agrees, named, yields⟩

/-- So does a return from a trap. -/
theorem Sourced.leaves (returns : (instruction.mret || instruction.sret) = true) (target : Pc) :
    state.next program (.leave target) = some ⟨target, state.registers⟩ := by
  obtain ⟨mode, lines, fetched, rfl, stored⟩ := sourced
  obtain ⟨plain, raised⟩ := Decoder.decode_calm calm
  rw [plain] at here returns
  obtain ⟨word, -⟩ := stored raised
  rw [(Decoder.rvDecoder_pcs mode fetched).1] at here
  have marks := congrArg Prod.fst (Decoder.rvDecoder_marks mode fetched)
  simp only [Decoder.marks, Decoder.marksOf, returns] at marks
  rw [RiscV.State.next, ← here, ← word]
  cases encodes : RiscV.decode fetched.rvInst with
  | none =>
    rw [encodes] at marks
    cases marks
  | some instr =>
    rw [encodes, Option.any_some] at marks
    exact if_pos marks.symm

end Program

end Retire

end GreenRio
