import Mathlib.Data.ZMod.Defs

set_option autoImplicit false

namespace RiscV

abbrev Reg := BitVec 5

section Fields

variable (word : BitVec 32)

def opcode : BitVec 7 := word.extractLsb' 0 7
def rd : Reg := word.extractLsb' 7 5
def funct3 : BitVec 3 := word.extractLsb' 12 3
def rs1 : Reg := word.extractLsb' 15 5
def rs2 : Reg := word.extractLsb' 20 5
def funct7 : BitVec 7 := word.extractLsb' 25 7
def funct6 : BitVec 6 := word.extractLsb' 26 6
def funct5 : BitVec 5 := word.extractLsb' 27 5

/-- The immediates of the formats. -/
def iImm : BitVec 12 := word.extractLsb' 20 12
def sImm : BitVec 12 := word.extractLsb' 25 7 ++ word.extractLsb' 7 5
def bImm : BitVec 13 :=
  word.extractLsb' 31 1 ++ word.extractLsb' 7 1 ++ word.extractLsb' 25 6 ++
    word.extractLsb' 8 4 ++ 0#1
def uImm : BitVec 32 := word.extractLsb' 12 20 ++ 0#12
def jImm : BitVec 21 :=
  word.extractLsb' 31 1 ++ word.extractLsb' 12 8 ++ word.extractLsb' 20 1 ++
    word.extractLsb' 21 10 ++ 0#1

/-- The sign and the kind of a shift in the codes of its format. -/
theorem funct6_high : word.getLsbD 31 = (funct6 word).getLsbD 5 := by
  simp [funct6]

theorem funct6_sign : word.getLsbD 30 = (funct6 word).getLsbD 4 := by
  simp [funct6]

theorem funct6_low : word.extractLsb' 26 4 = (funct6 word).extractLsb' 0 4 := by
  ext place inside
  simp [funct6, show place < 6 by omega]

theorem funct7_high : word.getLsbD 31 = (funct7 word).getLsbD 6 := by
  simp [funct7]

theorem funct7_sign : word.getLsbD 30 = (funct7 word).getLsbD 5 := by
  simp [funct7]

theorem funct7_low : word.extractLsb' 25 5 = (funct7 word).extractLsb' 0 5 := by
  ext place inside
  simp [funct7, show place < 7 by omega]

theorem funct3_upper : word.extractLsb' 13 2 = (funct3 word).extractLsb' 1 2 := by
  ext place inside
  simp [funct3, show 1 + place < 3 by omega, ← Nat.add_assoc]

/-- The function codes, for splitting cases. -/
theorem codes (code : BitVec 3) : code = 0 ∨ code = 1 ∨ code = 2 ∨ code = 3 ∨ code = 4 ∨
    code = 5 ∨ code = 6 ∨ code = 7 := by
  revert code
  decide

end Fields

/-- The operations of `OP`, most of which `OP-IMM` shares. -/
inductive Arith where
  | add | sub | sll | slt | sltu | xor | srl | sra | or | and
  deriving DecidableEq

/-- The operations on lower halves. -/
inductive ArithW where
  | addw | subw | sllw | srlw | sraw
  deriving DecidableEq

inductive Condition where
  | eq | ne | lt | ge | ltu | geu
  deriving DecidableEq

inductive Width where
  | byte | half | word | double
  deriving DecidableEq

inductive MulDiv where
  | mul | mulh | mulhsu | mulhu | div | divu | rem | remu
  deriving DecidableEq

inductive MulDivW where
  | mulw | divw | divuw | remw | remuw
  deriving DecidableEq

inductive Amo where
  | swap | add | xor | and | or | min | max | minu | maxu
  deriving DecidableEq

inductive CsrAccess where
  | readWrite | readSet | readClear
  deriving DecidableEq

/-- The instructions of RV64IMA with Zicsr, Zifencei and the privileged ones. -/
inductive Instr where
  | lui (rd : Reg) (imm : BitVec 32)
  | auipc (rd : Reg) (imm : BitVec 32)
  | jal (rd : Reg) (offset : BitVec 21)
  | jalr (rd rs1 : Reg) (imm : BitVec 12)
  | branch (condition : Condition) (rs1 rs2 : Reg) (offset : BitVec 13)
  | load (width : Width) (unsigned : Bool) (rd rs1 : Reg) (imm : BitVec 12)
  | store (width : Width) (rs1 rs2 : Reg) (imm : BitVec 12)
  | opImm (op : Arith) (rd rs1 : Reg) (imm : BitVec 12)
  | shiftImm (op : Arith) (rd rs1 : Reg) (shamt : BitVec 6)
  | addiw (rd rs1 : Reg) (imm : BitVec 12)
  | shiftImmW (op : ArithW) (rd rs1 : Reg) (shamt : BitVec 5)
  | op (op : Arith) (rd rs1 rs2 : Reg)
  | opW (op : ArithW) (rd rs1 rs2 : Reg)
  | mulDiv (op : MulDiv) (rd rs1 rs2 : Reg)
  | mulDivW (op : MulDivW) (rd rs1 rs2 : Reg)
  | loadReserved (double : Bool) (rd rs1 : Reg)
  | storeConditional (double : Bool) (rd rs1 rs2 : Reg)
  | amo (op : Amo) (double : Bool) (rd rs1 rs2 : Reg)
  | fence
  | fenceI
  | csr (access : CsrAccess) (immediate : Bool) (rd source : Reg) (address : BitVec 12)
  | ecall
  | ebreak
  | sret
  | mret
  | wfi
  | sfenceVma (rs1 rs2 : Reg)
  deriving DecidableEq

section Decode

variable (word : BitVec 32)

def condition (code : BitVec 3) : Option Condition :=
  match code with
  | 0b000 => some .eq
  | 0b001 => some .ne
  | 0b100 => some .lt
  | 0b101 => some .ge
  | 0b110 => some .ltu
  | 0b111 => some .geu
  | _ => none

theorem condition_isNone (code : BitVec 3) :
    (condition code).isNone = (code.extractLsb' 1 2 == 0b01) := by
  revert code
  decide

def loadWidth (code : BitVec 3) : Option (Width × Bool) :=
  match code with
  | 0b000 => some (.byte, false)
  | 0b001 => some (.half, false)
  | 0b010 => some (.word, false)
  | 0b011 => some (.double, false)
  | 0b100 => some (.byte, true)
  | 0b101 => some (.half, true)
  | 0b110 => some (.word, true)
  | _ => none

def storeWidth (code : BitVec 3) : Option Width :=
  match code with
  | 0b000 => some .byte
  | 0b001 => some .half
  | 0b010 => some .word
  | 0b011 => some .double
  | _ => none

def decodeOpImm : Option Instr :=
  match funct3 word with
  | 0b000 => some (.opImm .add (rd word) (rs1 word) (iImm word))
  | 0b010 => some (.opImm .slt (rd word) (rs1 word) (iImm word))
  | 0b011 => some (.opImm .sltu (rd word) (rs1 word) (iImm word))
  | 0b100 => some (.opImm .xor (rd word) (rs1 word) (iImm word))
  | 0b110 => some (.opImm .or (rd word) (rs1 word) (iImm word))
  | 0b111 => some (.opImm .and (rd word) (rs1 word) (iImm word))
  | 0b001 =>
    if funct6 word = 0 then
      some (.shiftImm .sll (rd word) (rs1 word) (word.extractLsb' 20 6))
    else none
  | 0b101 =>
    if funct6 word = 0 then
      some (.shiftImm .srl (rd word) (rs1 word) (word.extractLsb' 20 6))
    else if funct6 word = 0b010000 then
      some (.shiftImm .sra (rd word) (rs1 word) (word.extractLsb' 20 6))
    else none

def decodeOpImmW : Option Instr :=
  match funct3 word with
  | 0b000 => some (.addiw (rd word) (rs1 word) (iImm word))
  | 0b001 =>
    if funct7 word = 0 then some (.shiftImmW .sllw (rd word) (rs1 word) (rs2 word)) else none
  | 0b101 =>
    if funct7 word = 0 then some (.shiftImmW .srlw (rd word) (rs1 word) (rs2 word))
    else if funct7 word = 0b0100000 then
      some (.shiftImmW .sraw (rd word) (rs1 word) (rs2 word))
    else none
  | _ => none

def arith (code : BitVec 3) : Arith :=
  match code with
  | 0b000 => .add
  | 0b001 => .sll
  | 0b010 => .slt
  | 0b011 => .sltu
  | 0b100 => .xor
  | 0b101 => .srl
  | 0b110 => .or
  | 0b111 => .and

def mulDiv (code : BitVec 3) : MulDiv :=
  match code with
  | 0b000 => .mul
  | 0b001 => .mulh
  | 0b010 => .mulhsu
  | 0b011 => .mulhu
  | 0b100 => .div
  | 0b101 => .divu
  | 0b110 => .rem
  | 0b111 => .remu

def decodeOp : Option Instr :=
  match funct7 word with
  | 0b0000000 => some (.op (arith (funct3 word)) (rd word) (rs1 word) (rs2 word))
  | 0b0100000 =>
    if funct3 word = 0b000 then some (.op .sub (rd word) (rs1 word) (rs2 word))
    else if funct3 word = 0b101 then some (.op .sra (rd word) (rs1 word) (rs2 word))
    else none
  | 0b0000001 => some (.mulDiv (mulDiv (funct3 word)) (rd word) (rs1 word) (rs2 word))
  | _ => none

def arithW (code : BitVec 3) : Option ArithW :=
  match code with
  | 0b000 => some .addw
  | 0b001 => some .sllw
  | 0b101 => some .srlw
  | _ => none

def arithWModified (code : BitVec 3) : Option ArithW :=
  match code with
  | 0b000 => some .subw
  | 0b101 => some .sraw
  | _ => none

theorem arithW_isNone (code : BitVec 3) :
    (arithW code).isNone = (code != 0 && code != 0b001 && code != 0b101) := by
  revert code
  decide

theorem arithWModified_isNone (code : BitVec 3) :
    (arithWModified code).isNone = (code != 0 && code != 0b101) := by
  revert code
  decide

def mulDivW (code : BitVec 3) : Option MulDivW :=
  match code with
  | 0b000 => some .mulw
  | 0b100 => some .divw
  | 0b101 => some .divuw
  | 0b110 => some .remw
  | 0b111 => some .remuw
  | _ => none

def decodeOpW : Option Instr :=
  match funct7 word with
  | 0b0000000 => (arithW (funct3 word)).map (.opW · (rd word) (rs1 word) (rs2 word))
  | 0b0100000 => (arithWModified (funct3 word)).map (.opW · (rd word) (rs1 word) (rs2 word))
  | 0b0000001 => (mulDivW (funct3 word)).map (.mulDivW · (rd word) (rs1 word) (rs2 word))
  | _ => none

def amo (code : BitVec 5) : Option Amo :=
  match code with
  | 0b00001 => some .swap
  | 0b00000 => some .add
  | 0b00100 => some .xor
  | 0b01100 => some .and
  | 0b01000 => some .or
  | 0b10000 => some .min
  | 0b10100 => some .max
  | 0b11000 => some .minu
  | 0b11100 => some .maxu
  | _ => none

def amoWidth (code : BitVec 3) : Option Bool :=
  match code with
  | 0b010 => some false
  | 0b011 => some true
  | _ => none

def decodeAmo : Option Instr := do
  let double ← amoWidth (funct3 word)
  match funct5 word with
  | 0b00010 => if rs2 word = 0 then some (.loadReserved double (rd word) (rs1 word)) else none
  | 0b00011 => some (.storeConditional double (rd word) (rs1 word) (rs2 word))
  | code => (amo code).map (.amo · double (rd word) (rs1 word) (rs2 word))

def decodeMiscMem : Option Instr :=
  match funct3 word with
  | 0b000 => some .fence
  | 0b001 => some .fenceI
  | _ => none

/-- The instructions of `SYSTEM` that access no register but those of `SFENCE.VMA`. -/
def decodePriv : Option Instr :=
  if rd word ≠ 0 then none
  else if funct7 word = 0b0001001 then some (.sfenceVma (rs1 word) (rs2 word))
  else if rs1 word ≠ 0 then none
  else
    match funct7 word, rs2 word with
    | 0b0000000, 0b00000 => some .ecall
    | 0b0000000, 0b00001 => some .ebreak
    | 0b0001000, 0b00010 => some .sret
    | 0b0001000, 0b00101 => some .wfi
    | 0b0011000, 0b00010 => some .mret
    | _, _ => none

def csrAccess (code : BitVec 2) : Option CsrAccess :=
  match code with
  | 0b01 => some .readWrite
  | 0b10 => some .readSet
  | 0b11 => some .readClear
  | _ => none

def decodeSystem : Option Instr :=
  if funct3 word = 0 then decodePriv word
  else
    (csrAccess ((funct3 word).extractLsb' 0 2)).map
      (.csr · ((funct3 word).getLsbD 2) (rd word) (rs1 word) (iImm word))

/-- The instruction that a word encodes. -/
def decode : Option Instr :=
  match opcode word with
  | 0b0110111 => some (.lui (rd word) (uImm word))
  | 0b0010111 => some (.auipc (rd word) (uImm word))
  | 0b1101111 => some (.jal (rd word) (jImm word))
  | 0b1100111 => if funct3 word = 0 then some (.jalr (rd word) (rs1 word) (iImm word)) else none
  | 0b1100011 => (condition (funct3 word)).map (.branch · (rs1 word) (rs2 word) (bImm word))
  | 0b0000011 =>
    (loadWidth (funct3 word)).map fun access =>
      .load access.1 access.2 (rd word) (rs1 word) (iImm word)
  | 0b0100011 => (storeWidth (funct3 word)).map (.store · (rs1 word) (rs2 word) (sImm word))
  | 0b0010011 => decodeOpImm word
  | 0b0011011 => decodeOpImmW word
  | 0b0110011 => decodeOp word
  | 0b0111011 => decodeOpW word
  | 0b0101111 => decodeAmo word
  | 0b0001111 => decodeMiscMem word
  | 0b1110011 => decodeSystem word
  | _ => none

end Decode

section Meaning

variable (x y : BitVec 64)

def Arith.apply (op : Arith) : BitVec 64 :=
  match op with
  | .add => x + y
  | .sub => x - y
  | .sll => x <<< (y.toNat % 64)
  | .slt => if x.toInt < y.toInt then 1 else 0
  | .sltu => if x.toNat < y.toNat then 1 else 0
  | .xor => x ^^^ y
  | .srl => x >>> (y.toNat % 64)
  | .sra => x.sshiftRight (y.toNat % 64)
  | .or => x ||| y
  | .and => x &&& y

def ArithW.apply (op : ArithW) : BitVec 64 :=
  let low := x.setWidth 32
  match op with
  | .addw => (low + y.setWidth 32).signExtend 64
  | .subw => (low - y.setWidth 32).signExtend 64
  | .sllw => (low <<< (y.toNat % 32)).signExtend 64
  | .srlw => (low >>> (y.toNat % 32)).signExtend 64
  | .sraw => (low.sshiftRight (y.toNat % 32)).signExtend 64

variable {x y}

/-- A shift reads nothing but its count. -/
theorem Arith.shift_congr {op : Arith} (shift : op = .sll ∨ op = .srl ∨ op = .sra)
    {count : BitVec 64} (same : y.toNat % 64 = count.toNat % 64) :
    op.apply x y = op.apply x count := by
  rcases shift with rfl | rfl | rfl <;> simp only [apply, same]

theorem ArithW.shift_congr {op : ArithW} (shift : op = .sllw ∨ op = .srlw ∨ op = .sraw)
    {count : BitVec 64} (same : y.toNat % 32 = count.toNat % 32) :
    op.apply x y = op.apply x count := by
  rcases shift with rfl | rfl | rfl <;> simp only [apply, same]

variable (x y)

def Condition.holds (condition : Condition) : Bool :=
  match condition with
  | .eq => x == y
  | .ne => x != y
  | .lt => decide (x.toInt < y.toInt)
  | .ge => decide (y.toInt ≤ x.toInt)
  | .ltu => decide (x.toNat < y.toNat)
  | .geu => decide (y.toNat ≤ x.toNat)

end Meaning

/-- The register that an instruction computes and the value it gives it, for those that read
nothing but registers and the program counter. -/
def Instr.computed (pc x y : BitVec 64) : Instr → Option (Reg × BitVec 64)
  | .lui rd imm => some (rd, imm.signExtend 64)
  | .auipc rd imm => some (rd, pc + imm.signExtend 64)
  | .opImm arith rd _ imm => some (rd, arith.apply x (imm.signExtend 64))
  | .shiftImm arith rd _ shamt => some (rd, arith.apply x (shamt.setWidth 64))
  | .addiw rd _ imm => some (rd, ArithW.addw.apply x (imm.signExtend 64))
  | .shiftImmW arith rd _ shamt => some (rd, arith.apply x (shamt.setWidth 64))
  | .op arith rd _ _ => some (rd, arith.apply x y)
  | .opW arith rd _ _ => some (rd, arith.apply x y)
  | _ => none

/-- Whether a jump or a branch is taken, and its target. -/
def Instr.transfer (pc x y : BitVec 64) : Instr → Option (Bool × BitVec 64)
  | .jal _ offset => some (true, pc + offset.signExtend 64)
  | .jalr _ _ imm => some (true, (x + imm.signExtend 64) &&& ~~~1)
  | .branch condition _ _ offset => some (condition.holds x y, pc + offset.signExtend 64)
  | _ => none

/-- The register that gets the return address of a jump. -/
def Instr.link : Instr → Option Reg
  | .jal rd _ => some rd
  | .jalr rd _ _ => some rd
  | _ => none

/-- Whether an instruction may be executed in a mode. What `TSR`, `TVM` and `TW` trap is trapped
below machine mode only. -/
def Instr.permitted (mode : BitVec 2) (tsr tvm tw : Bool) : Instr → Bool
  | .mret => mode == 3
  | .sret => mode != 0 && !(tsr && mode != 3)
  | .sfenceVma _ _ => mode != 0 && !(tvm && mode != 3)
  | .wfi => !(tw && mode != 3)
  | .csr access _ _ source address =>
    !decide (mode < address.extractLsb' 8 2) &&
      !(address.extractLsb' 10 2 == 3 && (access == .readWrite || source != 0)) &&
      !(address == 0x180 && tvm && mode != 3)
  | _ => true

/-- Whether a word is an instruction that may be executed in a mode. -/
def legal (word : BitVec 32) (mode : BitVec 2) (tsr tvm tw : Bool) : Bool :=
  match decode word with
  | some instr => instr.permitted mode tsr tvm tw
  | none => false

section Kept

/-- The opcode of an instruction. -/
def Instr.opcode : Instr → BitVec 7
  | .lui _ _ => 0b0110111
  | .auipc _ _ => 0b0010111
  | .jal _ _ => 0b1101111
  | .jalr _ _ _ => 0b1100111
  | .branch _ _ _ _ => 0b1100011
  | .load _ _ _ _ _ => 0b0000011
  | .store _ _ _ _ => 0b0100011
  | .opImm _ _ _ _ | .shiftImm _ _ _ _ => 0b0010011
  | .addiw _ _ _ | .shiftImmW _ _ _ _ => 0b0011011
  | .op _ _ _ _ | .mulDiv _ _ _ _ => 0b0110011
  | .opW _ _ _ _ | .mulDivW _ _ _ _ => 0b0111011
  | .loadReserved _ _ _ | .storeConditional _ _ _ _ | .amo _ _ _ _ _ => 0b0101111
  | .fence | .fenceI => 0b0001111
  | .csr _ _ _ _ _ | .ecall | .ebreak | .sret | .mret | .wfi | .sfenceVma _ _ => 0b1110011

variable {word : BitVec 32} {instr : Instr}

theorem decodeOpImm_opcode (encodes : decodeOpImm word = some instr) :
    instr.opcode = 0b0010011 := by
  unfold decodeOpImm at encodes
  split at encodes
  case h_7 =>
    split at encodes <;> cases encodes
    rfl
  case h_8 =>
    split at encodes
    · cases encodes
      rfl
    · split at encodes <;> cases encodes
      rfl
  all_goals
    cases encodes
    rfl

theorem decodeOpImmW_opcode (encodes : decodeOpImmW word = some instr) :
    instr.opcode = 0b0011011 := by
  unfold decodeOpImmW at encodes
  split at encodes
  · cases encodes
    rfl
  · split at encodes <;> cases encodes
    rfl
  · split at encodes
    · cases encodes
      rfl
    · split at encodes <;> cases encodes
      rfl
  · cases encodes

theorem decodeOp_opcode (encodes : decodeOp word = some instr) : instr.opcode = 0b0110011 := by
  unfold decodeOp at encodes
  split at encodes
  · cases encodes
    rfl
  · split at encodes
    · cases encodes
      rfl
    · split at encodes <;> cases encodes
      rfl
  · cases encodes
    rfl
  · cases encodes

theorem decodeOpW_opcode (encodes : decodeOpW word = some instr) : instr.opcode = 0b0111011 := by
  unfold decodeOpW at encodes
  split at encodes
  case h_4 => cases encodes
  all_goals
    obtain ⟨operation, -, rfl⟩ := Option.map_eq_some_iff.mp encodes
    rfl

theorem decodeAmo_opcode (encodes : decodeAmo word = some instr) : instr.opcode = 0b0101111 := by
  obtain ⟨double, -, encodes⟩ := Option.bind_eq_some_iff.mp encodes
  split at encodes
  · split at encodes <;> cases encodes
    rfl
  · cases encodes
    rfl
  · obtain ⟨operation, -, rfl⟩ := Option.map_eq_some_iff.mp encodes
    rfl

theorem decodeMiscMem_opcode (encodes : decodeMiscMem word = some instr) :
    instr.opcode = 0b0001111 := by
  unfold decodeMiscMem at encodes
  split at encodes <;> cases encodes <;> rfl

theorem decodePriv_opcode (encodes : decodePriv word = some instr) : instr.opcode = 0b1110011 := by
  unfold decodePriv at encodes
  split at encodes
  · cases encodes
  · split at encodes
    · cases encodes
      rfl
    · split at encodes
      · cases encodes
      · split at encodes <;> cases encodes <;> rfl

theorem decodeSystem_opcode (encodes : decodeSystem word = some instr) :
    instr.opcode = 0b1110011 := by
  unfold decodeSystem at encodes
  split at encodes
  · exact decodePriv_opcode encodes
  · obtain ⟨access, -, rfl⟩ := Option.map_eq_some_iff.mp encodes
    rfl

/-- An instruction has the opcode of its word. -/
theorem decode_opcode (encodes : decode word = some instr) : instr.opcode = opcode word := by
  unfold decode at encodes
  split at encodes
  case h_15 => cases encodes
  all_goals
    rename_i code
    rw [code]
  case h_4 =>
    split at encodes <;> cases encodes
    rfl
  case h_8 => exact decodeOpImm_opcode encodes
  case h_9 => exact decodeOpImmW_opcode encodes
  case h_10 => exact decodeOp_opcode encodes
  case h_11 => exact decodeOpW_opcode encodes
  case h_12 => exact decodeAmo_opcode encodes
  case h_13 => exact decodeMiscMem_opcode encodes
  case h_14 => exact decodeSystem_opcode encodes
  case h_5 | h_6 | h_7 =>
    obtain ⟨operation, -, rfl⟩ := Option.map_eq_some_iff.mp encodes
    rfl
  all_goals
    cases encodes
    rfl

/-- The opcodes of the instructions that compute. -/
theorem Instr.computed_eq_none (pc x y : BitVec 64)
    (other : instr.opcode ∉ [0b0110111, 0b0010111, 0b0010011, 0b0011011, 0b0110011, 0b0111011]) :
    instr.computed pc x y = none := by
  cases instr <;> first
    | rfl
    | simp [opcode] at other

/-- The opcodes of the instructions that transfer control. -/
theorem Instr.transfer_eq_none (pc x y : BitVec 64)
    (other : instr.opcode ∉ [0b1101111, 0b1100111, 0b1100011]) :
    instr.transfer pc x y = none := by
  cases instr <;> first
    | rfl
    | simp [opcode] at other

end Kept

end RiscV
