import GreenRio.Computation

set_option autoImplicit false

namespace GreenRio

open AluPort

/-- What a port answers for a jump or a branch is the architectural outcome: the next program
counter, the outcome of the comparison, a misprediction exactly when the next program counter is
not the predicted one, and the return address of a jump. -/
structure Resolves (fetched : Fetched) (instr : RiscV.Instr) (taken : Bool) (target : Word)
    (decoded : Decoded) (answer : AluAnswer) : Prop where
  nextPc : answer.finalNextPc = if taken then target.setWidth 39 else fetched.nextPc
  branchTaken : instr.link = none → answer.branchTaken = taken
  predictMiss : answer.branchPredictMiss = true ↔
    (if taken then target.setWidth 39 else fetched.nextPc) ≠ fetched.predictPc
  link : ∀ rd, instr.link = some rd → decoded.usesRd = true ∧ decoded.rdAddress = rd.toFin ∧
    answer.wrbData = fetched.nextPc.signExtend 64

/-- The sum of an indirect jump is even. -/
def EvenJump (rs1 : Word) : RiscV.Instr → Prop
  | .jalr _ _ imm => (rs1 + imm.signExtend 64).getLsbD 0 = false
  | _ => True

theorem linkData_eq_signExtend_iff (sign next : Pc) :
    Alu.linkData sign next = next.signExtend 64 ↔ sign.msb = next.msb := by
  have own : Alu.linkData next next = next.signExtend 64 := by
    unfold Alu.linkData
    ext place inside
    rw [BitVec.getElem_append, BitVec.getElem_signExtend]
    by_cases low : place < 39
    · rw [dif_pos low, dif_pos low]
    · rw [dif_neg low, dif_neg low]
      cases next.msb with
      | false => exact BitVec.getElem_zero (w := 25) (by omega)
      | true => exact BitVec.getElem_allOnes ..
  rw [← own, linkData_eq_iff]

/-- Clearing the lowest bit changes nothing exactly when it is clear. -/
theorem setWidth_clear_iff (sum : Word) :
    sum.setWidth 39 = (sum &&& ~~~1).setWidth 39 ↔ sum.getLsbD 0 = false := by
  constructor
  · intro same
    have low := congrArg (fun address : Pc => address.getLsbD 0) same
    simpa using low
  · intro even
    have mask : ∀ place < 64, (~~~1 : Word).getLsbD place = decide (place ≠ 0) := by decide
    ext place inside
    rw [BitVec.getElem_setWidth, BitVec.getElem_setWidth, BitVec.getLsbD_and,
      mask place (by omega)]
    by_cases lowest : place = 0
    · rw [lowest, even, Bool.false_and]
    · rw [decide_eq_true lowest, Bool.and_true]

theorem cmpResult_eq_holds {code : BitVec 3} {condition : RiscV.Condition}
    (defined : RiscV.condition code = some condition) (left right : Word) :
    Alu.cmpResult code left right = condition.holds left right := by
  unfold RiscV.condition at defined
  split at defined <;> cases defined
  · rfl
  · rfl
  · rfl
  · change (!decide (left.toInt < right.toInt)) = decide (right.toInt ≤ left.toInt)
    rw [← decide_not, decide_eq_decide]
    exact Int.not_lt
  · rfl
  · change (!decide (left.toNat < right.toNat)) = decide (right.toNat ≤ left.toNat)
    rw [← decide_not, decide_eq_decide]
    exact Nat.not_lt

/-- An issued instruction with its operands. -/
def request (decoded : Decoded) (rs1 rs2 : Word) : AluPort := ⟨true, decoded.toRobOp, rs1, rs2⟩

section Outcome

variable {fetched : Fetched} {instr : RiscV.Instr} {taken : Bool} {target : Word}
  {decoded : Decoded} {outcome : AluAnswer} {sign : Pc} {rs1 rs2 : Word}

/-- What a port answers, read field by field: only the next program counter and the sign of a
return address can go wrong. -/
structure Answered (fetched : Fetched) (instr : RiscV.Instr) (taken : Bool) (decoded : Decoded)
    (sign : Pc) (outcome : AluAnswer) : Prop where
  branchTaken : instr.link = none → outcome.branchTaken = taken
  predictMiss : outcome.branchPredictMiss = (outcome.finalNextPc != fetched.predictPc)
  link : ∀ rd, instr.link = some rd → decoded.usesRd = true ∧ decoded.rdAddress = rd.toFin ∧
    outcome.wrbData = Alu.linkData sign fetched.nextPc

theorem Answered.resolves_iff (answered : Answered fetched instr taken decoded sign outcome) :
    Resolves fetched instr taken target decoded outcome ↔
      outcome.finalNextPc = (if taken then target.setWidth 39 else fetched.nextPc) ∧
        (instr.link.isSome = true → sign.msb = fetched.nextPc.msb) := by
  constructor
  · intro resolves
    refine ⟨resolves.nextPc, fun jumps => ?_⟩
    obtain ⟨rd, links⟩ := Option.isSome_iff_exists.mp jumps
    have data := (answered.link rd links).2.2
    rw [(resolves.link rd links).2.2] at data
    exact (linkData_eq_signExtend_iff sign fetched.nextPc).mp data.symm
  · rintro ⟨nextPc, agrees⟩
    refine ⟨nextPc, answered.branchTaken, ?_, fun rd links => ?_⟩
    · rw [answered.predictMiss, nextPc, bne_iff_ne]
    · obtain ⟨uses, destination, data⟩ := answered.link rd links
      have sameSign := agrees (by rw [links]; rfl)
      exact ⟨uses, destination,
        data.trans ((linkData_eq_signExtend_iff sign fetched.nextPc).mpr sameSign)⟩

theorem request_answered (nextPc : decoded.nextPc = fetched.nextPc)
    (predictPc : decoded.predictPc = fetched.predictPc)
    (compared : instr.link = none → Alu.cmpResult decoded.func3 rs1 rs2 = taken)
    (jumps : ∀ rd, instr.link = some rd → decoded.usesRd = true ∧
      decoded.rdAddress = rd.toFin ∧ decoded.aluJump = true) :
    Answered fetched instr taken decoded sign ((request decoded rs1 rs2).answer sign false) := by
  refine ⟨compared, ?_, fun rd links => ?_⟩
  · rw [← predictPc]
    rfl
  · obtain ⟨uses, destination, jump⟩ := jumps rd links
    refine ⟨uses, destination, ?_⟩
    rw [← nextPc]
    change (if (decoded.aluJump && true && true) = true then _ else _) = _
    rw [jump]
    rfl

/-- Where an unconditional or taken transfer goes. -/
theorem request_finalNextPc (half : decoded.half = false) (modify : decoded.aluModify = false)
    (branch : decoded.aluBranch = true) :
    ((request decoded rs1 rs2).answer sign false).finalNextPc =
      if decoded.aluJump || Alu.cmpResult decoded.func3 rs1 rs2 then
        (Alu.opr1 decoded.toRobOp rs1 + Alu.opr2 decoded.toRobOp rs2).setWidth 39
      else decoded.nextPc := by
  have sum : (request decoded rs1 rs2).result =
      Alu.opr1 decoded.toRobOp rs1 + Alu.opr2 decoded.toRobOp rs2 := by
    simp [request, result, funcSel, opr1, opr2, half, modify, branch, Alu.aluResult, Alu.addSub]
  change (request decoded rs1 rs2).finalNextPc false = _
  rw [finalNextPc, sum]
  simp only [request, isJump, isBranch, respValid, cmpResult, branch, Bool.not_false,
    Bool.and_true, Bool.true_and]
  cases decoded.aluJump <;> rfl

end Outcome

section Opcodes

variable {fetched : Fetched} {instr : RiscV.Instr} {taken : Bool} {target : Word}
  {sign : Pc} {rs1 rs2 : Word} {word : BitVec 32}

theorem jal_resolves_iff :
    Resolves fetched (.jal (RiscV.rd word) (RiscV.jImm word)) true
        (fetched.pc.signExtend 64 + (RiscV.jImm word).signExtend 64)
        (Decoder.jal word (Decoder.defaults fetched))
        ((request (Decoder.jal word (Decoder.defaults fetched)) rs1 rs2).answer sign false) ↔
      sign.msb = fetched.nextPc.msb := by
  have answered : Answered fetched (.jal (RiscV.rd word) (RiscV.jImm word)) true
      (Decoder.jal word (Decoder.defaults fetched)) sign
      ((request (Decoder.jal word (Decoder.defaults fetched)) rs1 rs2).answer sign false) :=
    request_answered rfl rfl (fun absent => by cases absent) fun rd links => by
      cases links
      exact ⟨rfl, rfl, rfl⟩
  have reached : (fetched.pc.signExtend 64 +
      ((RiscV.jImm word).signExtend 32).signExtend 64).setWidth 39 =
      (fetched.pc.signExtend 64 + (RiscV.jImm word).signExtend 64).setWidth 39 := by
    rw [Decoder.signExtend_immediate _ (by omega)]
  rw [answered.resolves_iff, request_finalNextPc rfl rfl rfl]
  exact ⟨fun resolved => resolved.2 rfl, fun same => ⟨reached, fun _ => same⟩⟩

theorem jalr_resolves_iff (code : RiscV.funct3 word = 0) :
    Resolves fetched (.jalr (RiscV.rd word) (RiscV.rs1 word) (RiscV.iImm word)) true
        ((rs1 + (RiscV.iImm word).signExtend 64) &&& ~~~1)
        (Decoder.jalr word (Decoder.defaults fetched))
        ((request (Decoder.jalr word (Decoder.defaults fetched)) rs1 rs2).answer sign false) ↔
      (rs1 + (RiscV.iImm word).signExtend 64).getLsbD 0 = false ∧
        sign.msb = fetched.nextPc.msb := by
  have legal : (Decoder.funct3 word != 0) = false := bne_eq_false_iff_eq.mpr code
  unfold Decoder.jalr
  rw [legal]
  refine Iff.trans (Answered.resolves_iff (request_answered rfl rfl (fun absent => by cases absent)
    fun rd links => by
      cases links
      exact ⟨rfl, rfl, rfl⟩)) ?_
  have reached : (rs1 + ((RiscV.iImm word).signExtend 32).signExtend 64).setWidth 39 =
      ((rs1 + (RiscV.iImm word).signExtend 64) &&& ~~~1).setWidth 39 ↔
      (rs1 + (RiscV.iImm word).signExtend 64).getLsbD 0 = false := by
    rw [Decoder.signExtend_immediate _ (by omega)]
    exact setWidth_clear_iff _
  rw [request_finalNextPc rfl rfl rfl]
  exact ⟨fun resolved => ⟨reached.mp resolved.1, resolved.2 rfl⟩,
    fun condition => ⟨reached.mpr condition.1, fun _ => condition.2⟩⟩

theorem branch_resolves {condition : RiscV.Condition}
    (defined : RiscV.condition (RiscV.funct3 word) = some condition) :
    Resolves fetched (.branch condition (RiscV.rs1 word) (RiscV.rs2 word) (RiscV.bImm word))
      (condition.holds rs1 rs2) (fetched.pc.signExtend 64 + (RiscV.bImm word).signExtend 64)
      (Decoder.branch word (Decoder.defaults fetched))
      ((request (Decoder.branch word (Decoder.defaults fetched)) rs1 rs2).answer sign false) := by
  have legal : (word.extractLsb' 13 2 == 0b01) = false := by
    rw [RiscV.funct3_upper, ← RiscV.condition_isNone, defined]
    rfl
  have compared : Alu.cmpResult (RiscV.funct3 word) rs1 rs2 = condition.holds rs1 rs2 :=
    cmpResult_eq_holds defined rs1 rs2
  unfold Decoder.branch
  rw [legal]
  refine (Answered.resolves_iff (request_answered rfl rfl (fun _ => compared)
    fun rd links => by cases links)).mpr ⟨?_, fun links => by cases links⟩
  rw [request_finalNextPc rfl rfl rfl]
  change (if (false || Alu.cmpResult (RiscV.funct3 word) rs1 rs2) = true then
    (fetched.pc.signExtend 64 + ((RiscV.bImm word).signExtend 32).signExtend 64).setWidth 39
    else fetched.nextPc) = _
  rw [Bool.false_or, compared, Decoder.signExtend_immediate _ (by omega)]

end Opcodes

section Word

variable {fetched : Fetched} {instr : RiscV.Instr} {taken : Bool} {target : Word} {rs1 rs2 : Word}

/-- Jumps and branches resolve to the architectural outcome on a port exactly when an indirect jump
has an even sum and the return address is extended with its own sign. -/
theorem rvDecoder_resolves_iff (mode : DecodeMode) (sign : Pc) (calm : fetched.exception = false)
    (encodes : RiscV.decode fetched.rvInst = some instr)
    (transfers : instr.transfer (fetched.pc.signExtend 64) rs1 rs2 = some (taken, target)) :
    Resolves fetched instr taken target (Decoder.rvDecoder mode fetched)
        ((request (Decoder.rvDecoder mode fetched) rs1 rs2).answer sign false) ↔
      EvenJump rs1 instr ∧ (instr.link.isSome = true → sign.msb = fetched.nextPc.msb) := by
  have kept := RiscV.decode_opcode encodes
  have silent := @RiscV.Instr.transfer_eq_none instr (fetched.pc.signExtend 64) rs1 rs2
  rw [Decoder.rvDecoder_eq mode calm, Decoder.decodeOpcode]
  unfold RiscV.decode at encodes
  split at encodes
  case h_15 => cases encodes
  all_goals
    rename_i code
    rw [code] at kept
  case h_3 =>
    cases encodes
    cases transfers
    rw [show Decoder.opcode fetched.rvInst = _ from code]
    exact jal_resolves_iff.trans ⟨fun same => ⟨trivial, fun _ => same⟩, fun both => both.2 rfl⟩
  case h_4 =>
    split at encodes <;> cases encodes
    rename_i zero
    cases transfers
    rw [show Decoder.opcode fetched.rvInst = _ from code]
    exact (jalr_resolves_iff zero).trans
      ⟨fun both => ⟨both.1, fun _ => both.2⟩, fun both => ⟨both.1, both.2 rfl⟩⟩
  case h_5 =>
    obtain ⟨condition, defined, rfl⟩ := Option.map_eq_some_iff.mp encodes
    cases transfers
    rw [show Decoder.opcode fetched.rvInst = _ from code]
    exact ⟨fun _ => ⟨trivial, fun links => by cases links⟩, fun _ => branch_resolves defined⟩
  all_goals
    rw [silent (by rw [kept]; decide)] at transfers
    cases transfers

/-- The outcome on either port, beside whatever the other one carries: it is the architectural one
exactly when an indirect jump has an even sum and, on the second port, the next program counter of
a jump has the sign of the one on the first. -/
theorem transfers_resolve_iff (mode : DecodeMode) (fetched : Fetched) (instr : RiscV.Instr)
    (taken : Bool) (target rs1 rs2 : Word) (onSecond : Bool) (other : AluPort)
    (calm : fetched.exception = false)
    (encodes : RiscV.decode fetched.rvInst = some instr)
    (transfers : instr.transfer (fetched.pc.signExtend 64) rs1 rs2 = some (taken, target)) :
    let issued := request (Decoder.rvDecoder mode fetched) rs1 rs2
    Resolves fetched instr taken target (Decoder.rvDecoder mode fetched)
        (if onSecond then alu2 false other issued else alu1 false issued) ↔
      EvenJump rs1 instr ∧ (onSecond = true → instr.link.isSome = true →
        other.op.nextPc.msb = fetched.nextPc.msb) := by
  cases onSecond with
  | true =>
    refine Iff.trans (rvDecoder_resolves_iff mode other.op.nextPc calm encodes transfers) ?_
    exact ⟨fun both => ⟨both.1, fun _ => both.2⟩, fun both => ⟨both.1, both.2 rfl⟩⟩
  | false =>
    have nextPc : (Decoder.rvDecoder mode fetched).nextPc = fetched.nextPc := by
      have addresses :=
        Decoder.decodeOpcode_addresses fetched.rvInst (Decoder.defaults fetched) mode
      rw [Decoder.rvDecoder, if_neg (by rw [calm]; decide)]
      exact congrArg (fun parts => parts.2.1) addresses
    refine Iff.trans (rvDecoder_resolves_iff mode (Decoder.rvDecoder mode fetched).nextPc calm
      encodes transfers) ?_
    rw [nextPc]
    exact ⟨fun both => ⟨both.1, fun second => by cases second⟩,
      fun both => ⟨both.1, fun _ => rfl⟩⟩

/-- `JALR` with a link at the end of the lower half of the address space. -/
def indirectJump : Fetched := ⟨0x3ffffff000, 0x3ffffff004, 0x80000000, 0x000280e7, false, 0, 0⟩

theorem transfers_resolve_iff_jalr :
    Resolves indirectJump (.jalr 1 5 0) true 0x80000000
      (Decoder.rvDecoder ⟨false, false, false, 3⟩ indirectJump)
      (alu2 false ⟨true, RobOp.blank, 0, 0⟩
        (request (Decoder.rvDecoder ⟨false, false, false, 3⟩ indirectJump) 0x80000000 0)) :=
  (transfers_resolve_iff ⟨false, false, false, 3⟩ indirectJump (.jalr 1 5 0) true 0x80000000
    0x80000000 0 true ⟨true, RobOp.blank, 0, 0⟩ rfl rfl rfl).mpr ⟨rfl, fun _ _ => rfl⟩

/-- Through an odd register it goes to an odd address. -/
theorem jalr_keeps_low_bit :
    ¬ Resolves indirectJump (.jalr 1 5 0) true 0x80000000
      (Decoder.rvDecoder ⟨false, false, false, 3⟩ indirectJump)
      (alu1 false (request (Decoder.rvDecoder ⟨false, false, false, 3⟩ indirectJump) 0x80000001
        0)) := by
  intro resolves
  have nextPc := resolves.nextPc
  revert nextPc
  decide

end Word

end GreenRio
