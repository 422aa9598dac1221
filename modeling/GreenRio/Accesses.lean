import GreenRio.Acceptance
import GreenRio.Architecture
import GreenRio.Computation
import GreenRio.Observed

set_option autoImplicit false

namespace GreenRio.Decoder

section Sources

variable {word : BitVec 32} {instr : RiscV.Instr} {fetched : Fetched}

/-- The operands that a decoded instruction waits for. -/
def operands (decoded : Decoded) : Bool × Bool × ArchReg × ArchReg :=
  (decoded.usesRs1, decoded.usesRs2, decoded.rs1Address, decoded.rs2Address)

@[simp] theorem illegalIf_operands (condition : Bool) (out : Decoded) :
    operands (illegalIf condition out) = operands out := by
  cases condition <;> rfl

theorem decodeOpcode_operands (word : BitVec 32) (out : Decoded) (mode : DecodeMode) :
    operands (decodeOpcode word out mode) = operands out := by
  unfold decodeOpcode
  split
  case h_10 =>
    unfold op
    split
    · rfl
    · exact illegalIf_operands _ _
  case h_11 =>
    unfold opHalf
    split <;> exact illegalIf_operands _ _
  case h_12 =>
    unfold amo
    split <;> exact illegalIf_operands _ _
  case h_13 =>
    unfold fence
    split <;> rfl
  case h_14 =>
    unfold system
    split
    · unfold privileged
      repeat' split
      all_goals first
        | rfl
        | exact illegalIf_operands _ _
    · unfold csrOp
      split <;> exact (illegalIf_operands _ _).trans (illegalIf_operands _ _)
  all_goals first
    | rfl
    | exact illegalIf_operands _ _

/-- The operands are those of the word, whatever fetch reports. -/
theorem rvDecoder_operands (mode : DecodeMode) (fetched : Fetched) :
    operands (rvDecoder mode fetched) =
      (usesRs1 fetched.rvInst, usesRs2 fetched.rvInst, rs1Address fetched.rvInst,
        rs2Address fetched.rvInst) := by
  have plain := decodeOpcode_operands fetched.rvInst (defaults fetched) mode
  unfold rvDecoder
  split
  · exact plain
  · exact plain

/-- What a decoded instruction waits for are the sources of the instruction that it stands for. Only
`SFENCE.VMA` goes without its operands. -/
theorem sources_eq (encodes : RiscV.decode word = some instr)
    (other : ∀ x y, instr ≠ .sfenceVma x y) :
    instr.sources = (if usesRs1 word then some (RiscV.rs1 word) else none,
      if usesRs2 word then some (RiscV.rs2 word) else none) := by
  unfold usesRs1 usesRs2
  rw [show opcode word = RiscV.opcode word from rfl]
  unfold RiscV.decode at encodes
  split at encodes
  case h_15 => cases encodes
  all_goals
    rename_i code
    rw [code]
  case h_4 =>
    split at encodes <;> cases encodes
    rfl
  case h_8 => exact RiscV.decodeOpImm_sources encodes
  case h_9 => exact RiscV.decodeOpImmW_sources encodes
  case h_10 => exact RiscV.decodeOp_sources encodes
  case h_11 => exact RiscV.decodeOpW_sources encodes
  case h_12 =>
    rw [RiscV.decodeAmo_sources encodes]
    change _ = (some (RiscV.rs1 word), if RiscV.funct5 word != 0b00010 then _ else _)
    by_cases reserve : RiscV.funct5 word = 2#5 <;> simp [reserve]
  case h_13 => exact RiscV.decodeMiscMem_sources encodes
  case h_14 =>
    rw [RiscV.decodeSystem_sources encodes other]
    rw [show funct3 word = RiscV.funct3 word from rfl]
    rcases RiscV.codes (RiscV.funct3 word) with funct | funct | funct | funct | funct | funct |
      funct | funct <;> rw [funct] <;> rfl
  case h_5 | h_6 | h_7 =>
    obtain ⟨operation, -, rfl⟩ := Option.map_eq_some_iff.mp encodes
    rfl
  all_goals
    cases encodes
    rfl

end Sources

end GreenRio.Decoder

namespace GreenRio

/-- `STU_AMO*`. -/
def amoOpcode (operation : RiscV.Amo) (double : Bool) : LsOpcode :=
  match operation with
  | .swap => if double then 12 else 11
  | .add => if double then 14 else 13
  | .and => if double then 16 else 15
  | .or => if double then 18 else 17
  | .xor => if double then 20 else 19
  | .max => if double then 22 else 21
  | .maxu => if double then 24 else 23
  | .min => if double then 26 else 25
  | .minu => if double then 28 else 27

/-- The opcode under which the load and store unit knows an instruction of memory. -/
def memoryOpcode : RiscV.Instr → LsOpcode
  | .load .byte false _ _ _ => Ldu.lb
  | .load .half false _ _ _ => Ldu.lh
  | .load .word false _ _ _ => Ldu.lw
  | .load .double _ _ _ _ => Ldu.ld
  | .load .byte true _ _ _ => Ldu.lbu
  | .load .half true _ _ _ => Ldu.lhu
  | .load .word true _ _ _ => Ldu.lwu
  | .store .byte _ _ _ => Stu.sb
  | .store .half _ _ _ => Stu.sh
  | .store .word _ _ _ => Stu.sw
  | .store .double _ _ _ => Stu.sd
  | .loadReserved double _ _ => if double then Stu.lrd else Stu.lrw
  | .storeConditional double _ _ _ => if double then Stu.scd else Stu.scw
  | .amo operation double _ _ _ => amoOpcode operation double
  | _ => Stu.fence

/-- A request has the effective address of its instruction, in the width of the unit, and faults
exactly where the access is misaligned. Everything but a plain load takes the way of a store. -/
structure LsuRequest.Offers (request : LsuRequest) (instr : RiscV.Instr) (access : RiscV.Access) :
    Prop where
  ls : request.ls = !(access.loads && !access.atomic)
  opcode : request.opcode = memoryOpcode instr
  address : request.aguAddr = access.address.setWidth 39
  misaligned : request.misaligned = access.misaligned
  cause : request.misalignedCause =
    if access.misaligned then (if access.loads && !access.atomic then 4 else 6) else 0
  transfer : request.isFenceReq = false

section Memory

theorem extract_ne_zero (address : Word) (count : Nat) (narrow : count ≤ 39) :
    ((address.setWidth 39).extractLsb' 0 count != 0) = (address.toNat % 2 ^ count != 0) := by
  have low : ((address.setWidth 39).extractLsb' 0 count).toNat = address.toNat % 2 ^ count := by
    rw [BitVec.extractLsb'_toNat, BitVec.toNat_setWidth, Nat.shiftRight_zero,
      Nat.mod_mod_of_dvd _ (Nat.pow_dvd_pow 2 narrow)]
  rw [← low, Bool.eq_iff_iff, bne_iff_ne, bne_iff_ne, Ne, Ne, ← BitVec.toNat_inj]
  rfl

section Offers

variable {request : LsuRequest} {code : BitVec 3} {address : Word}
  (known : request.aguAddr = address.setWidth 39)

include known

/-- The unit tests as many address bits as the width has. -/
theorem unaligned_half : (request.aguAddr.extractLsb' 0 1 != 0) = (address.toNat % 2 != 0) := by
  rw [known]
  exact extract_ne_zero address 1 (by omega)

theorem unaligned_word : (request.aguAddr.extractLsb' 0 2 != 0) = (address.toNat % 4 != 0) := by
  rw [known]
  exact extract_ne_zero address 2 (by omega)

theorem unaligned_double : (request.aguAddr.extractLsb' 0 3 != 0) = (address.toNat % 8 != 0) := by
  rw [known]
  exact extract_ne_zero address 3 (by omega)

theorem load_misaligned {width : RiscV.Width} {unsigned : Bool}
    (defined : RiscV.loadWidth code = some (width, unsigned)) (load : request.ls = false)
    (operation : request.opcode = code.setWidth 5) :
    request.misaligned = (address.toNat % width.size != 0) := by
  unfold LsuRequest.misaligned
  rw [load, operation, unaligned_half known, unaligned_word known, unaligned_double known]
  unfold RiscV.loadWidth at defined
  split at defined <;> cases defined
  all_goals simp [RiscV.Width.size, Ldu.lh, Ldu.lhu, Ldu.lw, Ldu.lwu, Ldu.ld, Nat.mod_one]

theorem store_misaligned {width : RiscV.Width} (defined : RiscV.storeWidth code = some width)
    (store : request.ls = true) (operation : request.opcode = code.setWidth 5) :
    request.misaligned = (address.toNat % width.size != 0) := by
  unfold LsuRequest.misaligned
  rw [store, operation, unaligned_half known, unaligned_word known, unaligned_double known]
  unfold RiscV.storeWidth at defined
  split at defined <;> cases defined
  all_goals simp [RiscV.Width.size, Stu.sh, Stu.sw, Stu.sd, Stu.scw, Stu.scd, Stu.lrw, Stu.lrd,
    Stu.amoWord, Stu.amoDouble, Nat.mod_one]

theorem atomic_misaligned (double : Bool) (store : request.ls = true)
    (operation : request.opcode ∈ if double then Stu.scd :: Stu.lrd :: Stu.amoDouble
      else Stu.scw :: Stu.lrw :: Stu.amoWord) :
    request.misaligned = (address.toNat % (RiscV.atomicWidth double).size != 0) := by
  have apart : ∀ opcode : LsOpcode,
      (opcode ∈ Stu.scw :: Stu.lrw :: Stu.amoWord →
        (opcode == Stu.sh) = false ∧
          (Stu.sw :: Stu.scw :: Stu.lrw :: Stu.amoWord).contains opcode = true ∧
          (Stu.sd :: Stu.scd :: Stu.lrd :: Stu.amoDouble).contains opcode = false) ∧
      (opcode ∈ Stu.scd :: Stu.lrd :: Stu.amoDouble →
        (opcode == Stu.sh) = false ∧
          (Stu.sw :: Stu.scw :: Stu.lrw :: Stu.amoWord).contains opcode = false ∧
          (Stu.sd :: Stu.scd :: Stu.lrd :: Stu.amoDouble).contains opcode = true) := by
    decide
  unfold LsuRequest.misaligned
  rw [store, unaligned_half known, unaligned_word known, unaligned_double known]
  cases double with
  | false =>
    obtain ⟨half, word, double⟩ := (apart request.opcode).1 operation
    simp only [half, word, double]
    simp [RiscV.atomicWidth, RiscV.Width.size]
  | true =>
    obtain ⟨half, word, double⟩ := (apart request.opcode).2 operation
    simp only [half, word, double]
    simp [RiscV.atomicWidth, RiscV.Width.size]

end Offers

/-- The table of the atomic operations. -/
theorem amoOp_reserved (double : Bool) (code : BitVec 3) (rd rs1 : RiscV.Reg)
    (width : RiscV.amoWidth code = some double) :
    Decoder.amoOp (0b00010#5 ++ code) = some (memoryOpcode (.loadReserved double rd rs1)) := by
  revert width
  change _ → _ = some (if double then Stu.lrd else Stu.lrw)
  revert code double
  decide

theorem amoOp_conditional (double : Bool) (code : BitVec 3) (rd rs1 rs2 : RiscV.Reg)
    (width : RiscV.amoWidth code = some double) :
    Decoder.amoOp (0b00011#5 ++ code) =
      some (memoryOpcode (.storeConditional double rd rs1 rs2)) := by
  revert width
  change _ → _ = some (if double then Stu.scd else Stu.scw)
  revert code double
  decide

theorem amoOp_operation {operation : RiscV.Amo} {kind : BitVec 5} (double : Bool) (code : BitVec 3)
    (rd rs1 rs2 : RiscV.Reg) (width : RiscV.amoWidth code = some double)
    (defined : RiscV.amo kind = some operation) :
    Decoder.amoOp (kind ++ code) = some (memoryOpcode (.amo operation double rd rs1 rs2)) := by
  unfold RiscV.amo at defined
  unfold RiscV.amoWidth at width
  split at defined <;> cases defined <;> split at width <;> cases width <;> rfl

theorem memoryOpcode_mem_atomic {instr : RiscV.Instr} {access : RiscV.Access} {x : Word}
    {double : Bool} (asks : instr.access x = some access) (atomic : access.atomic = true)
    (width : access.width = RiscV.atomicWidth double) :
    memoryOpcode instr ∈ if double then Stu.scd :: Stu.lrd :: Stu.amoDouble
      else Stu.scw :: Stu.lrw :: Stu.amoWord := by
  have same : ∀ left right, RiscV.atomicWidth left = RiscV.atomicWidth right → left = right := by
    decide
  cases instr <;> cases asks <;> cases atomic
  · cases same _ _ width
    change (if double then Stu.lrd else Stu.lrw) ∈ _
    cases double <;> decide
  · cases same _ _ width
    change (if double then Stu.scd else Stu.scw) ∈ _
    cases double <;> decide
  · rename_i operation _ _ _ _
    cases same _ _ width
    change amoOpcode operation double ∈ _
    cases double <;> cases operation <;> decide

/-- A request whose opcode and address are those of an instruction offers its access. -/
theorem offers_of_opcode {request : LsuRequest} {instr : RiscV.Instr} {access : RiscV.Access}
    {x : Word} (asks : instr.access x = some access)
    (ls : request.ls = !(access.loads && !access.atomic))
    (opcode : request.opcode = memoryOpcode instr)
    (address : request.aguAddr = access.address.setWidth 39)
    (misaligned : request.misaligned = access.misaligned) : request.Offers instr access := by
  refine ⟨ls, opcode, address, misaligned, ?_, ?_⟩
  · rw [LsuRequest.misalignedCause, misaligned, ls]
    cases access.loads && !access.atomic <;> rfl
  · rw [LsuRequest.isFenceReq, opcode, ls]
    cases instr <;> cases asks
    case refine_2.load.refl => rfl
    case refine_2.store.refl width _ _ _ => cases width <;> rfl
    case refine_2.loadReserved.refl double _ _ => cases double <;> rfl
    case refine_2.storeConditional.refl double _ _ _ => cases double <;> rfl
    case refine_2.amo.refl operation double _ _ _ => cases double <;> cases operation <;> rfl

section Word

variable {fetched : Fetched} {instr : RiscV.Instr} {access : RiscV.Access} {issued : Issued}

/-- The operation has no mark but that of memory. -/
structure RobOp.OnlyMemory (op : RobOp) : Prop where
  isAlu : op.isAlu = false
  aluJump : op.aluJump = false
  aluBranch : op.aluBranch = false
  isMd : op.isMd = false
  csrRead : op.csrRead = false
  csrWrite : op.csrWrite = false
  isFence : op.isFence = false
  mret : op.mret = false
  sret : op.sret = false
  wfi : op.wfi = false

/-- What the decoder makes of an instruction of memory: it goes to the load and store unit and to no
other. -/
structure Decoder.Accesses (decoded : Decoded) (instr : RiscV.Instr) (access : RiscV.Access)
    (issued : Issued) : Prop where
  calm : decoded.exception = false
  only : decoded.toRobOp.OnlyMemory
  functionClass : decoded.functionClass = .lsu
  isLoad : decoded.isLoad = (access.loads && !access.atomic)
  isStore : decoded.isStore = !(access.loads && !access.atomic)
  usesRd : decoded.usesRd = access.destination.isSome
  rdAddress : ∀ rd, access.destination = some rd → decoded.rdAddress = rd.toFin
  offers : issued.entry.toRobOp = decoded.toRobOp → issued.lsuRequest.Offers instr access

theorem aguAddr_eq {imm : BitVec 12} (immData : issued.entry.immData = imm.signExtend 32) :
    issued.lsuRequest.aguAddr = (issued.rs1Data + imm.signExtend 64).setWidth 39 := by
  change issued.rs1Data.setWidth 39 + (issued.entry.immData.signExtend 64).setWidth 39 = _
  rw [immData, Decoder.signExtend_immediate _ (by omega), BitVec.setWidth_add _ _ (by omega)]

theorem aguAddr_plain (immData : issued.entry.immData = 0) :
    issued.lsuRequest.aguAddr = issued.rs1Data.setWidth 39 := by
  change issued.rs1Data.setWidth 39 + (issued.entry.immData.signExtend 64).setWidth 39 = _
  rw [immData]
  exact BitVec.add_zero _

theorem load_accesses {word : BitVec 32} (calm : fetched.exception = false)
    (encodes : ((RiscV.loadWidth (RiscV.funct3 word)).map fun access =>
      .load access.1 access.2 (RiscV.rd word) (RiscV.rs1 word) (RiscV.iImm word)) = some instr)
    (asks : instr.access issued.rs1Data = some access) :
    Decoder.Accesses (Decoder.load word (Decoder.defaults fetched)) instr access issued := by
  obtain ⟨⟨width, unsigned⟩, defined, rfl⟩ := Option.map_eq_some_iff.mp encodes
  cases asks
  have wider : ∀ code : BitVec 3, (code.setWidth 4).setWidth 5 = code.setWidth 5 := by decide
  have legal : (Decoder.funct3 word == 0b111) = false := by
    rw [beq_eq_false_iff_ne]
    intro reserved
    rw [show RiscV.funct3 word = 0b111 from reserved] at defined
    cases defined
  rw [Decoder.load, legal]
  refine ⟨calm, ⟨rfl, rfl, rfl, rfl, rfl, rfl, rfl, rfl, rfl, rfl⟩, rfl, rfl, rfl, rfl,
    fun rd named => by cases named; rfl, fun entry => ?_⟩
  have load : issued.lsuRequest.ls = false := congrArg RobOp.isStore entry
  have operation : issued.lsuRequest.opcode = (RiscV.funct3 word).setWidth 5 := by
    rw [LsuRequest.opcode, load]
    change issued.entry.lduOp.setWidth 5 = _
    rw [show issued.entry.lduOp = _ from congrArg RobOp.lduOp entry]
    exact wider _
  have address := aguAddr_eq (congrArg RobOp.immData entry)
  refine offers_of_opcode rfl load ?_ address (load_misaligned address defined load operation)
  rw [operation]
  unfold RiscV.loadWidth at defined
  split at defined <;> cases defined
  all_goals
    rename_i code
    rw [code]
    rfl

theorem store_accesses {word : BitVec 32} (calm : fetched.exception = false)
    (encodes : (RiscV.storeWidth (RiscV.funct3 word)).map
      (.store · (RiscV.rs1 word) (RiscV.rs2 word) (RiscV.sImm word)) = some instr)
    (asks : instr.access issued.rs1Data = some access) :
    Decoder.Accesses (Decoder.store word (Decoder.defaults fetched)) instr access issued := by
  obtain ⟨width, defined, rfl⟩ := Option.map_eq_some_iff.mp encodes
  cases asks
  have high : word.getLsbD 14 = (RiscV.funct3 word).getLsbD 2 := by simp [RiscV.funct3]
  have codes : ∀ code width, RiscV.storeWidth code = some width → code.getLsbD 2 = false := by
    decide
  rw [Decoder.store, high, codes _ _ defined]
  refine ⟨calm, ⟨rfl, rfl, rfl, rfl, rfl, rfl, rfl, rfl, rfl, rfl⟩, rfl, rfl, rfl, rfl,
    (fun rd named => by cases named), fun entry => ?_⟩
  have store : issued.lsuRequest.ls = true := congrArg RobOp.isStore entry
  have operation : issued.lsuRequest.opcode = (RiscV.funct3 word).setWidth 5 := by
    rw [LsuRequest.opcode, store]
    exact congrArg RobOp.stuOp entry
  have address := aguAddr_eq (congrArg RobOp.immData entry)
  refine offers_of_opcode rfl store ?_ address (store_misaligned address defined store operation)
  rw [operation]
  unfold RiscV.storeWidth at defined
  split at defined <;> cases defined
  all_goals
    rename_i code
    rw [code]
    rfl

/-- An atomic operation has its address in a register and answers with one. -/
theorem decodeAmo_table {word : BitVec 32} (encodes : RiscV.decodeAmo word = some instr) :
    Decoder.amoOp (RiscV.funct5 word ++ RiscV.funct3 word) = some (memoryOpcode instr) ∧
      (RiscV.funct5 word == 0b00010 && RiscV.rs2 word != 0) = false ∧
      ∃ loads double, ∀ x, instr.access x =
        some ⟨loads, true, RiscV.atomicWidth double, x, some (RiscV.rd word)⟩ := by
  obtain ⟨double, width, encodes⟩ := Option.bind_eq_some_iff.mp encodes
  split at encodes
  · rename_i reserve
    split at encodes <;> cases encodes
    rename_i unused
    rw [reserve, unused]
    exact ⟨amoOp_reserved double _ _ _ width, rfl, true, double, fun x => rfl⟩
  · rename_i conditional
    cases encodes
    rw [conditional]
    exact ⟨amoOp_conditional double _ _ _ _ width, rfl, false, double, fun x => rfl⟩
  · rename_i reserve conditional
    obtain ⟨operation, defined, rfl⟩ := Option.map_eq_some_iff.mp encodes
    have other : (RiscV.funct5 word == 0b00010) = false := beq_eq_false_iff_ne.mpr reserve
    rw [other]
    exact ⟨amoOp_operation double _ _ _ _ width defined, rfl, false, double, fun x => rfl⟩

theorem amo_accesses {word : BitVec 32} (calm : fetched.exception = false)
    (encodes : RiscV.decodeAmo word = some instr)
    (asks : instr.access issued.rs1Data = some access) :
    Decoder.Accesses (Decoder.amo word (Decoder.defaults fetched)) instr access issued := by
  obtain ⟨table, legal, loads, double, accesses⟩ := decodeAmo_table encodes
  have asked := asks
  rw [accesses] at asks
  cases asks
  unfold Decoder.amo
  rw [show word.extractLsb' 27 5 = RiscV.funct5 word from rfl,
    show Decoder.funct3 word = RiscV.funct3 word from rfl, table]
  change Decoder.Accesses
    (Decoder.illegalIf (RiscV.funct5 word == 0b00010 && RiscV.rs2 word != 0) _) _ _ _
  rw [legal]
  have store : (!(loads && !true)) = true := by rw [Bool.not_true, Bool.and_false]; rfl
  refine ⟨calm, ⟨rfl, rfl, rfl, rfl, rfl, rfl, rfl, rfl, rfl, rfl⟩, rfl,
    (Bool.and_false loads).symm, store.symm, rfl, fun rd named => by cases named; rfl,
    fun entry => ?_⟩
  have ls : issued.lsuRequest.ls = true := congrArg RobOp.isStore entry
  have operation : issued.lsuRequest.opcode = memoryOpcode instr := by
    rw [LsuRequest.opcode, ls]
    exact congrArg RobOp.stuOp entry
  have address := aguAddr_plain (congrArg RobOp.immData entry)
  refine offers_of_opcode asked (ls.trans store.symm) operation address ?_
  apply atomic_misaligned address double ls
  rw [operation]
  exact memoryOpcode_mem_atomic asked rfl rfl

theorem rvDecoder_accesses (mode : DecodeMode) (calm : fetched.exception = false)
    (encodes : RiscV.decode fetched.rvInst = some instr)
    (asks : instr.access issued.rs1Data = some access) :
    Decoder.Accesses (Decoder.rvDecoder mode fetched) instr access issued := by
  have kept := RiscV.decode_opcode encodes
  have silent := @RiscV.Instr.access_eq_none instr issued.rs1Data
  rw [Decoder.rvDecoder_eq mode calm, Decoder.decodeOpcode]
  unfold RiscV.decode at encodes
  split at encodes
  case h_15 => cases encodes
  all_goals
    rename_i code
    rw [code] at kept
  case h_6 =>
    rw [show Decoder.opcode fetched.rvInst = _ from code]
    exact load_accesses calm encodes asks
  case h_7 =>
    rw [show Decoder.opcode fetched.rvInst = _ from code]
    exact store_accesses calm encodes asks
  case h_12 =>
    rw [show Decoder.opcode fetched.rvInst = _ from code]
    exact amo_accesses calm encodes asks
  all_goals
    rw [silent (by rw [kept]; decide)] at asks
    cases asks

end Word

end Memory

end GreenRio
