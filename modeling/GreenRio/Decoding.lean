import GreenRio.Accesses
import GreenRio.Legality
import GreenRio.Transfers
import GreenRio.Writeback

set_option autoImplicit false

namespace GreenRio.Decoder

section Effects

/-- How a decoded instruction moves the program counter, and the register that it writes. -/
def effects (decoded : Decoded) : Bool × Bool × ArchReg :=
  (decoded.aluJump, decoded.aluBranch, decoded.destination)

@[simp] theorem illegalIf_effects (condition : Bool) (out : Decoded) :
    effects (illegalIf condition out) = effects out := by
  cases condition <;> rfl

variable {word : BitVec 32} {instr : RiscV.Instr} {fetched : Fetched} {mode : DecodeMode}

/-- The effects of a word, whether it is legal or not. -/
def effectsOf (word : BitVec 32) : Bool × Bool × ArchReg :=
  match opcode word with
  | 0b1101111 | 0b1100111 => (true, true, rdAddress word)
  | 0b1100011 => (false, true, 0)
  | 0b0110111 | 0b0010111 | 0b0000011 | 0b0010011 | 0b0011011 | 0b0110011 | 0b0111011 | 0b0101111 =>
    (false, false, rdAddress word)
  | 0b1110011 =>
    (false, false, if (funct3 word).extractLsb' 0 2 = 0 then 0 else rdAddress word)
  | _ => (false, false, 0)

theorem privileged_effects :
    effects (privileged word (defaults fetched) mode) = (false, false, 0) := by
  unfold privileged
  repeat' split
  all_goals first
    | rfl
    | exact illegalIf_effects _ _

theorem csrOp_effects {checked : Decoded} (plain : effects checked = (false, false, 0)) :
    effects (csrOp word checked) =
      (false, false, if (funct3 word).extractLsb' 0 2 = 0 then 0 else rdAddress word) := by
  simp only [effects, Prod.mk.injEq] at plain
  obtain ⟨jump, branch, none⟩ := plain
  unfold csrOp
  rcases RiscV.codes (funct3 word) with code | code | code | code | code | code | code | code <;>
    rw [code] <;> refine (illegalIf_effects _ _).trans ?_ <;>
    exact Prod.ext jump (Prod.ext branch (by first | rfl | exact none))

theorem decodeOpcode_effects :
    effects (decodeOpcode word (defaults fetched) mode) = effectsOf word := by
  unfold decodeOpcode effectsOf
  split
  case h_15 =>
    refine (illegalIf_effects _ _).trans ?_
    split <;> first
      | rfl
      | contradiction
  all_goals
    rename_i code
    rw [code]
  case h_10 =>
    unfold op
    split
    · rfl
    · exact illegalIf_effects _ _
  case h_11 =>
    unfold opHalf
    split <;> exact illegalIf_effects _ _
  case h_12 =>
    unfold amo
    split <;> exact illegalIf_effects _ _
  case h_13 =>
    unfold fence
    split <;> rfl
  case h_14 =>
    unfold system
    split
    · rename_i plain
      rw [privileged_effects, beq_iff_eq.mp plain]
      rfl
    · exact csrOp_effects (illegalIf_effects _ _)
  all_goals first
    | rfl
    | exact illegalIf_effects _ _

/-- The effects are those of the word, whatever fetch reports. -/
theorem rvDecoder_effects (mode : DecodeMode) (fetched : Fetched) :
    effects (rvDecoder mode fetched) = effectsOf fetched.rvInst := by
  have plain := @decodeOpcode_effects fetched.rvInst fetched mode
  unfold rvDecoder
  split
  · exact plain
  · exact plain

theorem decodeSystem_effects (encodes : RiscV.decodeSystem word = some instr) :
    (if (RiscV.funct3 word).extractLsb' 0 2 = 0 then 0 else rdAddress word) =
        instr.destination.toFin ∧
      instr.link = none ∧ ∀ pc x y, instr.transfer pc x y = none := by
  unfold RiscV.decodeSystem at encodes
  split at encodes
  · rename_i plain
    rw [plain]
    unfold RiscV.decodePriv at encodes
    repeat' split at encodes
    all_goals cases encodes
    all_goals exact ⟨rfl, rfl, fun _ _ _ => rfl⟩
  · obtain ⟨access, defined, rfl⟩ := Option.map_eq_some_iff.mp encodes
    have some : (RiscV.funct3 word).extractLsb' 0 2 ≠ 0 := by
      intro zero
      rw [zero] at defined
      cases defined
    exact ⟨if_neg some, rfl, fun _ _ _ => rfl⟩

/-- The effects of an instruction. -/
theorem effectsOf_eq (encodes : RiscV.decode word = some instr) (pc x y : Word) :
    effectsOf word =
      (instr.link.isSome, (instr.transfer pc x y).isSome, instr.destination.toFin) := by
  unfold effectsOf
  rw [show opcode word = RiscV.opcode word from rfl]
  unfold RiscV.decode at encodes
  split at encodes
  case h_15 => cases encodes
  all_goals
    rename_i code
    rw [code]
  case h_14 =>
    obtain ⟨destination, link, transfer⟩ := decodeSystem_effects encodes
    rw [link, transfer pc x y]
    exact congrArg (fun rd => (false, false, rd)) destination
  case h_4 =>
    split at encodes <;> cases encodes
    rfl
  case h_8 =>
    unfold RiscV.decodeOpImm at encodes
    repeat' split at encodes
    all_goals cases encodes
    all_goals rfl
  case h_9 =>
    unfold RiscV.decodeOpImmW at encodes
    repeat' split at encodes
    all_goals cases encodes
    all_goals rfl
  case h_10 =>
    unfold RiscV.decodeOp at encodes
    repeat' split at encodes
    all_goals cases encodes
    all_goals rfl
  case h_11 =>
    unfold RiscV.decodeOpW at encodes
    split at encodes
    case h_4 => cases encodes
    all_goals
      obtain ⟨operation, -, rfl⟩ := Option.map_eq_some_iff.mp encodes
      rfl
  case h_12 =>
    obtain ⟨double, -, encodes⟩ := Option.bind_eq_some_iff.mp encodes
    split at encodes
    · split at encodes <;> cases encodes
      rfl
    · cases encodes
      rfl
    · obtain ⟨operation, -, rfl⟩ := Option.map_eq_some_iff.mp encodes
      rfl
  case h_13 =>
    unfold RiscV.decodeMiscMem at encodes
    split at encodes <;> cases encodes <;> rfl
  case h_5 | h_6 | h_7 =>
    obtain ⟨operation, -, rfl⟩ := Option.map_eq_some_iff.mp encodes
    rfl
  all_goals
    cases encodes
    rfl

/-- The reserved words that are not rejected change one register at most. -/
theorem reserved_effects (reserved : RiscV.decode fetched.rvInst = none)
    (raised : fetched.exception = false) (calm : (rvDecoder mode fetched).exception = false) :
    effectsOf fetched.rvInst = (false, false, (RiscV.rd fetched.rvInst).toFin) := by
  have taken : rejects (rvDecoder mode fetched) = _ := rejects_rvDecoder raised
  rw [rejects_calm calm, legal, RiscV.legal, misjudged, reserved] at taken
  have known : overlooked fetched.rvInst = true := by simpa using taken.symm
  simp only [overlooked, Bool.or_eq_true, Bool.and_eq_true, beq_iff_eq] at known
  unfold effectsOf
  rcases known with ⟨code, -⟩ | ⟨code, -⟩ <;> rw [code] <;> rfl

end Effects

section Diversions

variable {word : BitVec 32} {instr : RiscV.Instr} {fetched : Fetched} {mode : DecodeMode}

/-- Whether a decoded instruction returns from a trap, and whether it pauses. -/
def marks (decoded : Decoded) : Bool × Bool := (decoded.mret || decoded.sret, decoded.wfi)

@[simp] theorem illegalIf_marks (condition : Bool) (out : Decoded) :
    marks (illegalIf condition out) = marks out := by
  cases condition <;> rfl

/-- The same of the instruction that a word stands for. -/
def marksOf (stands : Option RiscV.Instr) : Bool × Bool :=
  (stands.any RiscV.Instr.returns, stands.any RiscV.Instr.pauses)

theorem privileged_marks : marks (privileged word (defaults fetched) mode) =
    marksOf (RiscV.decodePriv word) := by
  rw [decodePriv_eq, privileged]
  by_cases zero : funct7 word = 0b0000000#7
  · simp only [zero]
    change (false, false) = _
    by_cases call : plainSystem word 0 = true
    · rw [if_pos call]
      rfl
    · by_cases point : plainSystem word 1 = true
      · rw [if_neg call, if_pos point]
        rfl
      · rw [if_neg call, if_neg point]
        rfl
  by_cases eight : funct7 word = 0b0001000#7
  · simp only [eight]
    by_cases returns : plainSystem word 2 = true
    · rw [if_pos returns, if_pos returns]
      exact illegalIf_marks _ _
    · rw [if_neg returns, if_neg returns]
      by_cases waits : plainSystem word 5 = true
      · rw [if_pos waits, if_pos waits]
        exact illegalIf_marks _ _
      · rw [if_neg waits, if_neg waits]
        exact illegalIf_marks _ _
  by_cases nine : funct7 word = 0b0001001#7
  · simp only [nine]
    refine (illegalIf_marks _ _).trans ?_
    by_cases target : RiscV.rd word = 0
    · rw [if_pos target]
      rfl
    · rw [if_neg target]
      rfl
  by_cases machine : funct7 word = 0b0011000#7
  · simp only [machine]
    by_cases returns : plainSystem word 2 = true
    · rw [if_pos returns, if_pos returns]
      rfl
    · rw [if_neg returns, if_neg returns]
      rfl
  · repeat' split
    all_goals first
      | contradiction
      | rfl

theorem csrOp_marks (checked : Decoded) : marks (csrOp word checked) = marks checked := by
  unfold csrOp
  rcases RiscV.codes (funct3 word) with code | code | code | code | code | code | code | code <;>
    rw [code] <;> exact illegalIf_marks _ _

/-- Outside the system instructions nothing returns, pauses or calls. -/
theorem decode_marks (encodes : RiscV.decode word = some instr)
    (other : RiscV.opcode word ≠ 0b1110011) :
    marksOf (some instr) = (false, false) ∧ instr.calls = false := by
  rw [← RiscV.decode_opcode encodes] at other
  cases instr <;> first
    | exact ⟨rfl, rfl⟩
    | exact absurd rfl other

theorem decodeOpcode_system (base : RiscV.opcode word = 0b1110011) :
    decodeOpcode word (defaults fetched) mode = system word (defaults fetched) mode := by
  rw [decodeOpcode, show opcode word = _ from base]
  rfl

theorem decode_system (base : RiscV.opcode word = 0b1110011) :
    RiscV.decode word = RiscV.decodeSystem word := by
  rw [RiscV.decode, base]
  rfl

theorem decodeOpcode_marks :
    marks (decodeOpcode word (defaults fetched) mode) = marksOf (RiscV.decode word) := by
  by_cases base : RiscV.opcode word = 0b1110011
  · rw [decodeOpcode_system base, decode_system base, system, RiscV.decodeSystem]
    by_cases plain : RiscV.funct3 word = 0
    · rw [if_pos plain, show funct3 word = 0 from plain]
      exact privileged_marks
    · have register : ¬(funct3 word == 0) = true := fun zero => plain (beq_iff_eq.mp zero)
      rw [if_neg plain, if_neg register, csrOp_marks, illegalIf_marks]
      cases RiscV.csrAccess ((RiscV.funct3 word).extractLsb' 0 2) <;> rfl
  · have silent : marksOf (RiscV.decode word) = (false, false) := by
      cases stands : RiscV.decode word with
      | none => rfl
      | some instr => exact (decode_marks stands base).1
    rw [silent]
    unfold decodeOpcode
    split
    case h_10 =>
      unfold op
      split
      · rfl
      · exact illegalIf_marks _ _
    case h_11 =>
      unfold opHalf
      split <;> exact illegalIf_marks _ _
    case h_12 =>
      unfold amo
      split <;> exact illegalIf_marks _ _
    case h_13 =>
      unfold fence
      split <;> rfl
    case h_14 code => exact absurd code base
    all_goals first
      | rfl
      | exact illegalIf_marks _ _

/-- The marks are those of the word, whatever fetch reports. -/
theorem rvDecoder_marks (mode : DecodeMode) (fetched : Fetched) :
    marks (rvDecoder mode fetched) = marksOf (RiscV.decode fetched.rvInst) := by
  have plain := @decodeOpcode_marks fetched.rvInst fetched mode
  unfold rvDecoder
  split
  · exact plain
  · exact plain

theorem privileged_calls (encodes : RiscV.decodePriv word = some instr)
    (calm : (privileged word (defaults fetched) mode).exception = false) :
    instr.calls = false := by
  rw [privileged] at calm
  rw [decodePriv_eq] at encodes
  split at encodes
  · rename_i code
    simp only [code] at calm
    cases calm
  · repeat' split at encodes
    all_goals cases encodes
    all_goals rfl
  · split at encodes <;> cases encodes
    rfl
  · split at encodes <;> cases encodes
    rfl
  · cases encodes

/-- Calls of the environment trap. -/
theorem rvDecoder_calls (raised : fetched.exception = false)
    (encodes : RiscV.decode fetched.rvInst = some instr)
    (calm : (rvDecoder mode fetched).exception = false) : instr.calls = false := by
  by_cases base : RiscV.opcode fetched.rvInst = 0b1110011
  · rw [rvDecoder_eq mode raised, decodeOpcode_system base, system] at calm
    rw [decode_system base, RiscV.decodeSystem] at encodes
    by_cases plain : RiscV.funct3 fetched.rvInst = 0
    · rw [if_pos plain] at encodes
      rw [show funct3 fetched.rvInst = 0 from plain] at calm
      exact privileged_calls encodes calm
    · rw [if_neg plain] at encodes
      obtain ⟨access, -, rfl⟩ := Option.map_eq_some_iff.mp encodes
      rfl
  · exact (decode_marks encodes base).2

end Diversions

end GreenRio.Decoder
