import GreenRio.Decoder
import GreenRio.RiscV

set_option autoImplicit false

namespace GreenRio.Decoder

/-- The decoder raises an illegal-instruction exception. -/
def rejects (decoded : Decoded) : Bool := decoded.exception && decoded.ecause == 2

/-- The reserved words that the decoder takes: codes of `OP-IMM-32` that it does not look at, and
multiplications of lower halves that do not exist. -/
def overlooked (word : BitVec 32) : Bool :=
  (opcode word == 0b0011011 && (funct3 word != 0b001 && funct3 word != 0b101)) ||
    (opcode word == 0b0111011 && funct7 word == 0b0000001)

/-- Where the decoder and the architecture differ: the overlooked words, the return instructions,
whose mode it does not look at, and the three trap bits that it heeds in machine mode. -/
def misjudged (mode : DecodeMode) (word : BitVec 32) : Bool :=
  match RiscV.decode word with
  | none => overlooked word
  | some .sret =>
    (mode.privilegeMode == 0 && !mode.tsr) || (mode.privilegeMode == 3 && mode.tsr)
  | some .mret => mode.privilegeMode != 3
  | some .wfi => mode.privilegeMode == 3 && mode.tw
  | some (.sfenceVma _ _) => mode.privilegeMode == 3 && mode.tvm
  | some (.csr _ _ _ _ address) => address == 0x180 && mode.privilegeMode == 3 && mode.tvm
  | some _ => false

/-- Whether the architecture has an instruction executed in a mode. -/
def legal (mode : DecodeMode) (word : BitVec 32) : Bool :=
  RiscV.legal word mode.privilegeMode mode.tsr mode.tvm mode.tw

section Reserved

variable {out : Decoded} {word : BitVec 32} {mode : DecodeMode}

@[simp] theorem rejects_illegalIf (condition : Bool) (decoded : Decoded) :
    rejects (illegalIf condition decoded) = (condition || rejects decoded) := by
  cases condition <;> rfl

theorem rejects_calm {decoded : Decoded} (calm : decoded.exception = false) :
    rejects decoded = false := by
  rw [rejects, calm, Bool.false_and]

/-- One check decides. -/
theorem rejects_checked {decoded : Decoded} (condition : Bool)
    (calm : decoded.exception = false) : rejects (illegalIf condition decoded) = condition := by
  rw [rejects_illegalIf, rejects_calm calm, Bool.or_false]

/-- Outside the system instructions only reserved words matter. -/
theorem judged_reserved (other : opcode word ≠ 0b1110011) :
    (!legal mode word ^^ misjudged mode word) =
      ((RiscV.decode word).isNone && !overlooked word) := by
  unfold legal RiscV.legal misjudged
  cases encodes : RiscV.decode word with
  | none => simp
  | some instr =>
    have kept : instr.opcode ≠ 0b1110011 := by
      rw [RiscV.decode_opcode encodes]
      exact other
    cases instr <;> first
      | rfl
      | exact absurd rfl kept

theorem decodeOpImm_isNone : (RiscV.decodeOpImm word).isNone =
    ((funct3 word == 0b001 && word.extractLsb' 26 6 != 0) ||
      (funct3 word == 0b101 && (word.getLsbD 31 || word.extractLsb' 26 4 != 0))) := by
  have shifts : ∀ kind : BitVec 6, (kind.getLsbD 5 || kind.extractLsb' 0 4 != 0) =
      !(kind == 0 || kind == 0b010000) := by decide
  rw [RiscV.funct6_high, RiscV.funct6_low, shifts]
  change _ = ((RiscV.funct3 word == 0b001 && RiscV.funct6 word != 0) ||
    (RiscV.funct3 word == 0b101 && !(RiscV.funct6 word == 0 || RiscV.funct6 word == 0b010000)))
  unfold RiscV.decodeOpImm
  generalize RiscV.funct6 word = kind
  rcases RiscV.codes (RiscV.funct3 word) with code | code | code | code | code | code | code | code <;>
    rw [code]
  case inr.inl =>
    by_cases zero : kind = 0#6 <;> simp [zero]
  case inr.inr.inr.inr.inr.inl =>
    by_cases zero : kind = 0#6
    · simp [zero]
    · by_cases modified : kind = 16#6 <;> simp [zero, modified]
  all_goals rfl

theorem decodeOpImmW_isNone (base : opcode word = 0b0011011) :
    ((RiscV.decodeOpImmW word).isNone && !overlooked word) =
      ((funct3 word == 0b001 && funct7 word != 0) ||
        (funct3 word == 0b101 && (word.getLsbD 31 || word.extractLsb' 25 5 != 0))) := by
  have shifts : ∀ kind : BitVec 7, (kind.getLsbD 6 || kind.extractLsb' 0 5 != 0) =
      !(kind == 0 || kind == 0b0100000) := by decide
  rw [overlooked, base, RiscV.funct7_high, RiscV.funct7_low, shifts]
  change ((RiscV.decodeOpImmW word).isNone &&
      !((true && (RiscV.funct3 word != 0b001 && RiscV.funct3 word != 0b101)) || false)) =
    ((RiscV.funct3 word == 0b001 && RiscV.funct7 word != 0) ||
      (RiscV.funct3 word == 0b101 &&
        !(RiscV.funct7 word == 0 || RiscV.funct7 word == 0b0100000)))
  unfold RiscV.decodeOpImmW
  generalize RiscV.funct7 word = kind
  rcases RiscV.codes (RiscV.funct3 word) with code | code | code | code | code | code | code | code <;>
    rw [code]
  case inr.inl =>
    by_cases zero : kind = 0#7 <;> simp [zero]
  case inr.inr.inr.inr.inr.inl =>
    by_cases zero : kind = 0#7
    · simp [zero]
    · by_cases modified : kind = 32#7 <;> simp [zero, modified]
  all_goals rfl

theorem decodeOp_isNone : (RiscV.decodeOp word).isNone =
    (funct7 word != 0b0000001 && modifierIllegal word) := by
  have same : modifierIllegal word = (RiscV.funct7 word != 0 &&
    (RiscV.funct7 word != 0b0100000 ||
      (RiscV.funct3 word != 0 && RiscV.funct3 word != 0b101))) := rfl
  rw [same, show funct7 word = RiscV.funct7 word from rfl]
  unfold RiscV.decodeOp
  split
  · rename_i zero
    rw [zero]
    rfl
  · rename_i modified
    rw [modified]
    by_cases code : RiscV.funct3 word = 0#3
    · simp [code]
    · by_cases shift : RiscV.funct3 word = 5#3 <;> simp [code, shift]
  · rename_i multiplies
    rw [multiplies]
    rfl
  · rename_i zero modified multiplies
    have reserved : RiscV.funct7 word ≠ 1 ∧ RiscV.funct7 word ≠ 0 ∧
        (RiscV.funct7 word ≠ 0b0100000 ∨ RiscV.funct3 word ≠ 0 ∧ RiscV.funct3 word ≠ 0b101) :=
      ⟨multiplies, zero, Or.inl modified⟩
    simpa using reserved

theorem decodeOpW_isNone (base : opcode word = 0b0111011) :
    ((RiscV.decodeOpW word).isNone && !overlooked word) =
      (funct7 word != 0b0000001 && ((funct7 word == 0 && (funct3 word != 0 &&
        funct3 word != 0b001 && funct3 word != 0b101)) || modifierIllegal word)) := by
  have same : modifierIllegal word = (RiscV.funct7 word != 0 &&
    (RiscV.funct7 word != 0b0100000 ||
      (RiscV.funct3 word != 0 && RiscV.funct3 word != 0b101))) := rfl
  rw [same, overlooked, base]
  change ((RiscV.decodeOpW word).isNone && !(false || (true && RiscV.funct7 word == 1))) =
    (RiscV.funct7 word != 1 && ((RiscV.funct7 word == 0 && (RiscV.funct3 word != 0 &&
      RiscV.funct3 word != 0b001 && RiscV.funct3 word != 0b101)) || _))
  unfold RiscV.decodeOpW
  split
  · rename_i zero
    rw [zero, Option.isNone_map, RiscV.arithW_isNone]
    simp
  · rename_i modified
    rw [modified, Option.isNone_map, RiscV.arithWModified_isNone]
    simp
  · rename_i multiplies
    rw [multiplies]
    simp
  · rename_i zero modified multiplies
    have addition : (RiscV.funct7 word == 0#7) = false := beq_eq_false_iff_ne.mpr zero
    have subtraction : (RiscV.funct7 word == 32#7) = false := beq_eq_false_iff_ne.mpr modified
    have multiplication : (RiscV.funct7 word == 1#7) = false := beq_eq_false_iff_ne.mpr multiplies
    simp [addition, subtraction, multiplication, bne]

theorem decodeAmo_isNone : (RiscV.decodeAmo word).isNone =
    match amoOp (word.extractLsb' 27 5 ++ funct3 word) with
    | some _ => word.extractLsb' 27 5 == 0b00010 && word.extractLsb' 20 5 != 0
    | none => true := by
  have table : ∀ (kind : BitVec 5) (code : BitVec 3),
      (amoOp (kind ++ code)).isNone = ((RiscV.amoWidth code).isNone ||
        (kind != 0b00010 && (kind != 0b00011 && (RiscV.amo kind).isNone))) := by
    decide
  have known := table (RiscV.funct5 word) (RiscV.funct3 word)
  have listed : (RiscV.decodeAmo word).isNone =
      ((amoOp (RiscV.funct5 word ++ RiscV.funct3 word)).isNone ||
        (RiscV.funct5 word == 0b00010 && RiscV.rs2 word != 0)) := by
    rw [known]
    unfold RiscV.decodeAmo
    cases RiscV.amoWidth (RiscV.funct3 word) with
    | none => rfl
    | some double =>
      rw [Option.bind_eq_bind, Option.bind_some]
      split
      · rename_i reserve
        rw [reserve]
        by_cases unused : RiscV.rs2 word = 0#5 <;> simp [unused]
      · rename_i conditional
        rw [conditional]
        rfl
      · rename_i reserve conditional
        have reserves : (RiscV.funct5 word == 2#5) = false := beq_eq_false_iff_ne.mpr reserve
        have stores : (RiscV.funct5 word == 3#5) = false := beq_eq_false_iff_ne.mpr conditional
        simp [reserves, stores, bne]
  rw [listed]
  change _ = match amoOp (RiscV.funct5 word ++ RiscV.funct3 word) with
    | some _ => RiscV.funct5 word == 0b00010 && RiscV.rs2 word != 0
    | none => true
  cases amoOp (RiscV.funct5 word ++ RiscV.funct3 word) <;> rfl

variable (calm : out.exception = false)
include calm

theorem rejects_jalr : rejects (jalr word out) = (funct3 word != 0) :=
  rejects_checked _ calm

theorem rejects_branch :
    rejects (branch word out) = (RiscV.condition (RiscV.funct3 word)).isNone := by
  have checked : rejects (branch word out) = (word.extractLsb' 13 2 == 0b01) :=
    rejects_checked _ calm
  rw [checked, RiscV.funct3_upper, RiscV.condition_isNone]

theorem rejects_load :
    rejects (load word out) = (RiscV.loadWidth (RiscV.funct3 word)).isNone := by
  have codes : ∀ code : BitVec 3,
      (code == 0b111) = (RiscV.loadWidth code).isNone := by decide
  have checked : rejects (load word out) = (funct3 word == 0b111) := rejects_checked _ calm
  rw [checked, codes]
  rfl

theorem rejects_store :
    rejects (store word out) = (RiscV.storeWidth (RiscV.funct3 word)).isNone := by
  have codes : ∀ code : BitVec 3,
      code.getLsbD 2 = (RiscV.storeWidth code).isNone := by decide
  have high : word.getLsbD 14 = (funct3 word).getLsbD 2 := by
    simp [funct3]
  have checked : rejects (store word out) = word.getLsbD 14 := rejects_checked _ calm
  rw [checked, high, codes]
  rfl

theorem rejects_opImm : rejects (opImm word out) = (RiscV.decodeOpImm word).isNone := by
  rw [decodeOpImm_isNone]
  exact rejects_checked _ calm

theorem rejects_opImmHalf (base : opcode word = 0b0011011) :
    rejects (opImmHalf word out) = ((RiscV.decodeOpImmW word).isNone && !overlooked word) := by
  rw [decodeOpImmW_isNone base]
  exact rejects_checked _ calm

theorem rejects_op : rejects (op word out) = (RiscV.decodeOp word).isNone := by
  rw [decodeOp_isNone, op]
  by_cases multiplies : funct7 word = 1#7
  · rw [multiplies]
    exact rejects_calm calm
  · have plain : (funct7 word != 0b0000001) = true := bne_iff_ne.mpr multiplies
    rw [plain, if_neg (by simpa using multiplies), Bool.true_and]
    exact rejects_checked _ calm

theorem rejects_opHalf (base : opcode word = 0b0111011) :
    rejects (opHalf word out) = ((RiscV.decodeOpW word).isNone && !overlooked word) := by
  have never : ∀ code : BitVec 3,
      (code == 0b001 && code == 0b010 && code == 0b011) = false := by decide
  rw [decodeOpW_isNone base, opHalf]
  by_cases multiplies : funct7 word = 1#7
  · rw [multiplies, never]
    exact rejects_calm calm
  · have plain : (funct7 word != 0b0000001) = true := bne_iff_ne.mpr multiplies
    rw [plain, if_neg (by simpa using multiplies), Bool.true_and]
    exact rejects_checked _ calm

theorem rejects_amo : rejects (amo word out) = (RiscV.decodeAmo word).isNone := by
  rw [decodeAmo_isNone, amo]
  cases amoOp (word.extractLsb' 27 5 ++ funct3 word) with
  | none => exact rejects_checked _ calm
  | some stuOp => exact rejects_checked _ calm

theorem rejects_fence : rejects (fence word out) = (RiscV.decodeMiscMem word).isNone := by
  unfold fence RiscV.decodeMiscMem
  rw [show RiscV.funct3 word = funct3 word from rfl]
  rcases RiscV.codes (funct3 word) with code | code | code | code | code | code | code | code <;>
    rw [code]
  case inl | inr.inl => exact rejects_calm calm
  all_goals exact rejects_checked _ calm

end Reserved

section System

variable {out : Decoded} {word : BitVec 32} {mode : DecodeMode}

theorem plainSystem_eq (code : BitVec 5) (source : RiscV.rs1 word = 0)
    (target : RiscV.rd word = 0) : plainSystem word code = (RiscV.rs2 word == code) := by
  change (RiscV.rs2 word == code && RiscV.rs1 word == 0 && RiscV.rd word == 0) = _
  rw [source, target]
  simp

theorem plainSystem_eq_false (code : BitVec 5)
    (used : RiscV.rs1 word ≠ 0 ∨ RiscV.rd word ≠ 0) : plainSystem word code = false := by
  change (RiscV.rs2 word == code && RiscV.rs1 word == 0 && RiscV.rd word == 0) = false
  rcases used with source | target
  · rw [beq_eq_false_iff_ne.mpr source, Bool.and_false, Bool.false_and]
  · rw [beq_eq_false_iff_ne.mpr target, Bool.and_false]

/-- The privileged instructions in the order of the decoder's cases. -/
theorem decodePriv_eq : RiscV.decodePriv word =
    match funct7 word with
    | 0b0000000 =>
      if plainSystem word 0 then some .ecall
      else if plainSystem word 1 then some .ebreak else none
    | 0b0001000 =>
      if plainSystem word 2 then some .sret
      else if plainSystem word 5 then some .wfi else none
    | 0b0001001 =>
      if RiscV.rd word = 0 then some (.sfenceVma (RiscV.rs1 word) (RiscV.rs2 word)) else none
    | 0b0011000 => if plainSystem word 2 then some .mret else none
    | _ => none := by
  have kind : funct7 word = RiscV.funct7 word := rfl
  rw [kind]
  by_cases fence : RiscV.funct7 word = 0b0001001
  · rw [RiscV.decodePriv, fence]
    by_cases target : RiscV.rd word = 0#5 <;> simp [target]
  · by_cases used : RiscV.rs1 word ≠ 0 ∨ RiscV.rd word ≠ 0
    · have nothing : RiscV.decodePriv word = none := by
        rw [RiscV.decodePriv, if_neg fence]
        by_cases target : RiscV.rd word = 0
        · rw [if_neg (not_not.mpr target), if_pos (used.resolve_right (not_not.mpr target))]
        · rw [if_pos target]
      rw [nothing]
      simp only [plainSystem_eq_false _ used]
      split
      case h_3 code => exact absurd code fence
      all_goals rfl
    · obtain ⟨source, target⟩ := not_or.mp used
      have codes : ∀ code : BitVec 5, plainSystem word code = (RiscV.rs2 word == code) :=
        fun code => plainSystem_eq code (not_not.mp source) (not_not.mp target)
      simp only [codes]
      rw [RiscV.decodePriv, if_neg target, if_neg fence, if_neg source]
      generalize RiscV.funct7 word = kind at fence ⊢
      generalize RiscV.rs2 word = second
      split
      case h_6 call point sret wfi mret =>
        have refused : ∀ code : BitVec 5, (second = code → False) → (second == code) = false :=
          fun code other => beq_eq_false_iff_ne.mpr other
        split
        · rw [refused 0 (call rfl), refused 1 (point rfl)]
          rfl
        · rw [refused 2 (sret rfl), refused 5 (wfi rfl)]
          rfl
        · exact absurd rfl fence
        · rw [refused 2 (mret rfl)]
          rfl
        · rfl
      all_goals rfl

theorem ecallCause_ne : (ecallCause mode == 2) = false := by
  unfold ecallCause
  split
  · rfl
  · split <;> rfl

theorem rejects_privileged (calm : out.exception = false) (base : opcode word = 0b1110011)
    (code : funct3 word = 0) :
    rejects (privileged word out mode) = (!legal mode word ^^ misjudged mode word) := by
  have unlisted : overlooked word = false := by rw [overlooked, base]; rfl
  have encodes : RiscV.decode word = RiscV.decodePriv word := by
    rw [RiscV.decode, show RiscV.opcode word = 0b1110011 from base]
    exact if_pos code
  obtain ⟨tsr, tvm, tw, level⟩ := mode
  unfold privileged
  split
  · rename_i kind
    have listed : RiscV.decode word = if plainSystem word 0 then some .ecall
        else if plainSystem word 1 then some .ebreak else none := by
      rw [encodes, decodePriv_eq, kind]
      rfl
    rw [legal, RiscV.legal, misjudged, listed, unlisted]
    by_cases call : plainSystem word 0 = true
    · rw [if_pos call, if_pos call]
      exact ecallCause_ne
    · rw [if_neg call, if_neg call]
      by_cases point : plainSystem word 1 = true
      · rw [if_pos point, if_pos point]
        rfl
      · rw [if_neg point, if_neg point]
        rfl
  · rename_i kind
    have listed : RiscV.decode word = if plainSystem word 2 then some .sret
        else if plainSystem word 5 then some .wfi else none := by
      rw [encodes, decodePriv_eq, kind]
      rfl
    rw [legal, RiscV.legal, misjudged, listed, unlisted]
    by_cases returns : plainSystem word 2 = true
    · rw [if_pos returns, if_pos returns]
      rw [rejects_checked]
      · change tsr = (!(level != 0 && !(tsr && level != 3)) ^^
          ((level == 0 && !tsr) || (level == 3 && tsr)))
        revert tsr level
        decide
      · exact calm
    · rw [if_neg returns, if_neg returns]
      by_cases waits : plainSystem word 5 = true
      · rw [if_pos waits, if_pos waits]
        rw [rejects_checked]
        · change tw = (!(!(tw && level != 3)) ^^ (level == 3 && tw))
          revert tw level
          decide
        · exact calm
      · rw [if_neg waits, if_neg waits]
        exact rejects_checked _ calm
  · rename_i kind
    have listed : RiscV.decode word = if RiscV.rd word = 0 then
        some (.sfenceVma (RiscV.rs1 word) (RiscV.rs2 word)) else none := by
      rw [encodes, decodePriv_eq, kind]
      rfl
    rw [legal, RiscV.legal, misjudged, listed, unlisted]
    rw [rejects_checked, show word.extractLsb' 7 5 = RiscV.rd word from rfl]
    · by_cases target : RiscV.rd word = 0
      · rw [if_pos target, target]
        change (level == 0 || tvm) = (!(level != 0 && !(tvm && level != 3)) ^^ (level == 3 && tvm))
        revert tvm level
        decide
      · rw [if_neg target, bne_iff_ne.mpr target]
        rfl
    · exact calm
  · rename_i kind
    have listed : RiscV.decode word = if plainSystem word 2 then some .mret else none := by
      rw [encodes, decodePriv_eq, kind]
      rfl
    rw [legal, RiscV.legal, misjudged, listed, unlisted]
    by_cases returns : plainSystem word 2 = true
    · rw [if_pos returns, if_pos returns]
      rw [rejects_calm]
      · change false = (!(level == 3) ^^ (level != 3))
        revert level
        decide
      · exact calm
    · rw [if_neg returns, if_neg returns]
      exact rejects_checked _ calm
  · rename_i calls returns fence machine
    have listed : RiscV.decode word = none := by
      rw [encodes, decodePriv_eq]
      split
      · exact absurd ‹_› calls
      · exact absurd ‹_› returns
      · exact absurd ‹_› fence
      · exact absurd ‹_› machine
      · rfl
    rw [legal, RiscV.legal, misjudged, listed, unlisted]
    exact rejects_checked _ calm

theorem rejects_csrOp (checked : Decoded) : rejects (csrOp word checked) =
    (rejects checked || match RiscV.csrAccess ((RiscV.funct3 word).extractLsb' 0 2) with
      | none => true
      | some .readWrite => (RiscV.iImm word).extractLsb' 10 2 == 3
      | some _ => (RiscV.iImm word).extractLsb' 10 2 == 3 && RiscV.rs1 word != 0) := by
  have registers : ∀ register : BitVec 5, (register.toFin != (0 : ArchReg)) = (register != 0) := by
    decide
  have writes : (rs1Address word != 0) = (RiscV.rs1 word != 0) := registers _
  unfold csrOp
  rw [writes, show funct3 word = RiscV.funct3 word from rfl,
    show csrAddress word = RiscV.iImm word from rfl]
  rcases RiscV.codes (RiscV.funct3 word) with code | code | code | code | code | code | code | code
    <;> rw [code]
  all_goals
    refine (rejects_illegalIf _ _).trans ?_
    exact Bool.or_comm _ _

theorem rejects_system (calm : out.exception = false) (base : opcode word = 0b1110011) :
    rejects (system word out mode) = (!legal mode word ^^ misjudged mode word) := by
  unfold system
  by_cases code : funct3 word = 0
  · rw [if_pos (by rw [code]; rfl)]
    exact rejects_privileged calm base code
  · rw [if_neg (by simpa using code), rejects_csrOp, rejects_checked _ calm]
    have unlisted : overlooked word = false := by rw [overlooked, base]; rfl
    have encodes : RiscV.decode word =
        (RiscV.csrAccess ((RiscV.funct3 word).extractLsb' 0 2)).map
          (.csr · ((RiscV.funct3 word).getLsbD 2) (RiscV.rd word) (RiscV.rs1 word)
            (RiscV.iImm word)) := by
      rw [RiscV.decode, show RiscV.opcode word = 0b1110011 from base]
      exact if_neg code
    rw [legal, RiscV.legal, misjudged, encodes, unlisted]
    rw [show csrAddress word = RiscV.iImm word from rfl]
    cases RiscV.csrAccess ((RiscV.funct3 word).extractLsb' 0 2) with
    | none => simp
    | some access =>
      have refused : (match some access with
          | none => true
          | some .readWrite => (RiscV.iImm word).extractLsb' 10 2 == 3
          | some _ => (RiscV.iImm word).extractLsb' 10 2 == 3 && RiscV.rs1 word != 0) =
          ((RiscV.iImm word).extractLsb' 10 2 == 3 &&
            (access == .readWrite || RiscV.rs1 word != 0)) := by
        cases access
        · exact (Bool.and_true _).symm
        · rfl
        · rfl
      rw [refused]
      change _ = (!(!decide (mode.privilegeMode < (RiscV.iImm word).extractLsb' 8 2) &&
          !((RiscV.iImm word).extractLsb' 10 2 == 3 &&
            (access == .readWrite || RiscV.rs1 word != 0)) &&
          !(RiscV.iImm word == 0x180 && mode.tvm && mode.privilegeMode != 3)) ^^
        (RiscV.iImm word == 0x180 && mode.privilegeMode == 3 && mode.tvm))
      generalize (access == .readWrite || RiscV.rs1 word != 0) = writes
      generalize RiscV.iImm word = address
      by_cases satp : address = 0x180
      · subst satp
        generalize mode.tvm = tvm
        generalize mode.privilegeMode = level
        revert writes tvm level
        decide
      · rw [beq_eq_false_iff_ne.mpr satp]
        simp

end System

section Exact

variable {word : BitVec 32} {mode : DecodeMode} {out : Decoded}

/-- The decoder rejects the words that are not legal, except where the two differ. -/
theorem rejects_decodeOpcode (calm : out.exception = false) :
    rejects (decodeOpcode word out mode) = (!legal mode word ^^ misjudged mode word) := by
  by_cases base : opcode word = 0b1110011
  · rw [decodeOpcode, base]
    exact rejects_system calm base
  · rw [judged_reserved base]
    unfold decodeOpcode
    split
    case h_14 code => exact absurd code base
    case h_15 =>
      have encodes : RiscV.decode word = none := by
        rw [RiscV.decode, show RiscV.opcode word = opcode word from rfl]
        split <;> first
          | rfl
          | contradiction
      have unlisted : overlooked word = false := by
        have immediates : (opcode word == 0b0011011) = false :=
          beq_eq_false_iff_ne.mpr ‹opcode word = 27#7 → False›
        have registers : (opcode word == 0b0111011) = false :=
          beq_eq_false_iff_ne.mpr ‹opcode word = 59#7 → False›
        rw [overlooked, immediates, registers]
        rfl
      rw [encodes, unlisted]
      exact rejects_checked _ calm
    case h_9 code =>
      rw [RiscV.decode, show RiscV.opcode word = _ from code]
      exact rejects_opImmHalf calm code
    case h_11 code =>
      rw [RiscV.decode, show RiscV.opcode word = _ from code]
      exact rejects_opHalf calm code
    all_goals
      rename_i code
      have unlisted : overlooked word = false := by
        rw [overlooked, code]
        rfl
      rw [unlisted, Bool.not_false, Bool.and_true, RiscV.decode,
        show RiscV.opcode word = _ from code]
    case h_1 | h_2 | h_3 => exact rejects_calm calm
    case h_4 =>
      rw [rejects_jalr calm, show funct3 word = RiscV.funct3 word from rfl]
      change (RiscV.funct3 word != 0#3) = (if RiscV.funct3 word = 0#3 then _ else none).isNone
      by_cases zero : RiscV.funct3 word = 0#3 <;> simp [zero]
    case h_5 => exact (rejects_branch calm).trans Option.isNone_map.symm
    case h_6 => exact (rejects_load calm).trans Option.isNone_map.symm
    case h_7 => exact (rejects_store calm).trans Option.isNone_map.symm
    case h_8 => exact rejects_opImm calm
    case h_10 => exact rejects_op calm
    case h_12 => exact rejects_amo calm
    case h_13 => exact rejects_fence calm

variable {fetched : Fetched}

theorem rejects_rvDecoder (calm : fetched.exception = false) :
    rejects (rvDecoder mode fetched) =
      (!legal mode fetched.rvInst ^^ misjudged mode fetched.rvInst) := by
  rw [rvDecoder_eq mode calm]
  exact rejects_decodeOpcode calm

/-- **Illegal instructions.** Without an exception of fetch the decoder rejects exactly the words
that are not legal in the mode, but for those on which the two differ. -/
theorem rejects_illegal_iff (mode : DecodeMode) (fetched : Fetched)
    (calm : fetched.exception = false) :
    (rejects (rvDecoder mode fetched) = true ↔ legal mode fetched.rvInst = false) ↔
      misjudged mode fetched.rvInst = false := by
  rw [rejects_rvDecoder calm]
  cases legal mode fetched.rvInst <;> cases misjudged mode fetched.rvInst <;> decide

/-- A word as fetch delivers it. -/
def delivered (word : BitVec 32) : Fetched where
  pc := 0x80000000
  nextPc := 0x80000004
  predictPc := 0x80000004
  rvInst := word
  exception := false
  ecause := 0
  etval := 0

/-- `SRET` in user mode without `TSR` is one of them. -/
theorem rejects_illegal_iff_sret :
    (rejects (rvDecoder ⟨false, false, false, 0⟩ (delivered 0x10200073)) = true ↔
        legal ⟨false, false, false, 0⟩ (delivered 0x10200073).rvInst = false) ↔
      misjudged ⟨false, false, false, 0⟩ (delivered 0x10200073).rvInst = false :=
  rejects_illegal_iff ⟨false, false, false, 0⟩ (delivered 0x10200073) rfl

/-- `MRET` in user mode and a reserved code are taken, `WFI` in machine mode is not. -/
theorem decoder_misjudges :
    (rejects (rvDecoder ⟨false, false, false, 0⟩ (delivered 0x30200073)) = false ∧
        legal ⟨false, false, false, 0⟩ 0x30200073 = false) ∧
      (rejects (rvDecoder ⟨false, false, false, 0⟩ (delivered 0x0000201b)) = false ∧
        legal ⟨false, false, false, 0⟩ 0x0000201b = false) ∧
      (rejects (rvDecoder ⟨false, false, true, 3⟩ (delivered 0x10500073)) = true ∧
        legal ⟨false, false, true, 3⟩ 0x10500073 = true) := by
  decide

end Exact

end GreenRio.Decoder
