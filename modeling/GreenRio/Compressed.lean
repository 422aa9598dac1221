import GreenRio.RiscV

set_option autoImplicit false

namespace RiscV

section Formats

variable (imm : BitVec 12) (upper : BitVec 20) (high : BitVec 7) (second first : Reg)
  (code : BitVec 3) (low : Reg) (kind : BitVec 7)

/-- The words of the base formats from their fields. A store and a branch have the fields of a
register operation, and a jump has those of `LUI`. -/
def iType : BitVec 32 := imm ++ first ++ code ++ low ++ kind
def rType : BitVec 32 := iType (high ++ second) first code low kind
def uType : BitVec 32 := upper ++ low ++ kind

@[simp] theorem opcode_iType : opcode (iType imm first code low kind) = kind :=
  BitVec.extractLsb'_append_eq_right

@[simp] theorem rd_iType : rd (iType imm first code low kind) = low := by
  rw [rd, iType, BitVec.extractLsb'_append_eq_of_le (by omega)]
  exact BitVec.extractLsb'_append_eq_right

@[simp] theorem funct3_iType : funct3 (iType imm first code low kind) = code := by
  rw [funct3, iType, BitVec.extractLsb'_append_eq_of_le (by omega),
    BitVec.extractLsb'_append_eq_of_le (by omega)]
  exact BitVec.extractLsb'_append_eq_right

@[simp] theorem rs1_iType : rs1 (iType imm first code low kind) = first := by
  rw [rs1, iType, BitVec.extractLsb'_append_eq_of_le (by omega),
    BitVec.extractLsb'_append_eq_of_le (by omega), BitVec.extractLsb'_append_eq_of_le (by omega)]
  exact BitVec.extractLsb'_append_eq_right

/-- The parts of the immediate are the parts of the word from bit twenty on. -/
theorem extract_iType (start length : Nat) :
    (iType imm first code low kind).extractLsb' (20 + start) length =
      imm.extractLsb' start length := by
  rw [iType, BitVec.extractLsb'_append_eq_of_le (by omega),
    BitVec.extractLsb'_append_eq_of_le (by omega), BitVec.extractLsb'_append_eq_of_le (by omega),
    BitVec.extractLsb'_append_eq_of_le (by omega)]
  congr 1
  omega

@[simp] theorem iImm_iType : iImm (iType imm first code low kind) = imm :=
  (extract_iType imm first code low kind 0 12).trans BitVec.extractLsb'_eq_self

/-- The immediate of a shift is its code and its count. -/
@[simp] theorem funct6_iType (shift shamt : BitVec 6) :
    funct6 (iType (shift ++ shamt) first code low kind) = shift :=
  (extract_iType _ first code low kind 6 6).trans BitVec.extractLsb'_append_eq_left

@[simp] theorem shamt_iType (shift shamt : BitVec 6) :
    (iType (shift ++ shamt) first code low kind).extractLsb' 20 6 = shamt :=
  (extract_iType _ first code low kind 0 6).trans BitVec.extractLsb'_append_eq_right

@[simp] theorem opcode_rType : opcode (rType high second first code low kind) = kind :=
  opcode_iType _ _ _ _ _

@[simp] theorem rd_rType : rd (rType high second first code low kind) = low :=
  rd_iType _ _ _ _ _

@[simp] theorem funct3_rType : funct3 (rType high second first code low kind) = code :=
  funct3_iType _ _ _ _ _

@[simp] theorem rs1_rType : rs1 (rType high second first code low kind) = first :=
  rs1_iType _ _ _ _ _

@[simp] theorem rs2_rType : rs2 (rType high second first code low kind) = second :=
  (extract_iType _ first code low kind 0 5).trans BitVec.extractLsb'_append_eq_right

@[simp] theorem funct7_rType : funct7 (rType high second first code low kind) = high :=
  (extract_iType _ first code low kind 5 7).trans BitVec.extractLsb'_append_eq_left

@[simp] theorem sImm_rType : sImm (rType high second first code low kind) = high ++ low := by
  have upper := funct7_rType high second first code low kind
  have lower := rd_rType high second first code low kind
  rw [funct7] at upper
  rw [rd] at lower
  rw [sImm, upper, lower]

@[simp] theorem opcode_uType : opcode (uType upper low kind) = kind :=
  BitVec.extractLsb'_append_eq_right

@[simp] theorem rd_uType : rd (uType upper low kind) = low := by
  rw [rd, uType, BitVec.extractLsb'_append_eq_of_le (by omega)]
  exact BitVec.extractLsb'_append_eq_right

@[simp] theorem uImm_uType : uImm (uType upper low kind) = upper ++ 0#12 := by
  rw [uImm, uType, BitVec.extractLsb'_append_eq_of_le (by omega)]
  exact congrArg (· ++ 0#12) BitVec.extractLsb'_append_eq_left

/-- The scattered offsets of a branch and a jump. -/
theorem bImm_rType : bImm (rType high second first code low kind) =
    high.extractLsb' 6 1 ++ low.extractLsb' 0 1 ++ high.extractLsb' 0 6 ++
      low.extractLsb' 1 4 ++ 0#1 := by
  have sign := extract_iType (high ++ second) first code low kind 11 1
  have middle := extract_iType (high ++ second) first code low kind 5 6
  rw [BitVec.extractLsb'_append_eq_of_le (by omega)] at sign middle
  have lower : ∀ start length, start + length ≤ 5 →
      (rType high second first code low kind).extractLsb' (7 + start) length =
        low.extractLsb' start length := by
    intro start length inside
    rw [rType, iType, BitVec.extractLsb'_append_eq_of_le (by omega),
      BitVec.extractLsb'_append_eq_of_add_le (by omega), Nat.add_sub_cancel_left]
  rw [bImm, lower 0 1 (by omega), lower 1 4 (by omega)]
  change (rType high second first code low kind).extractLsb' 31 1 = _ at sign
  change (rType high second first code low kind).extractLsb' 25 6 = _ at middle
  rw [sign, middle]

theorem jImm_uType : jImm (uType upper low kind) =
    upper.extractLsb' 19 1 ++ upper.extractLsb' 0 8 ++ upper.extractLsb' 8 1 ++
      upper.extractLsb' 9 10 ++ 0#1 := by
  have part : ∀ start length, (uType upper low kind).extractLsb' (12 + start) length =
      upper.extractLsb' start length := by
    intro start length
    rw [uType, BitVec.extractLsb'_append_eq_of_le (by omega),
      BitVec.extractLsb'_append_eq_of_le (by omega)]
    congr 1
    omega
  rw [jImm, part 19 1, part 0 8, part 8 1, part 9 10]

end Formats

section Encoded

variable (imm : BitVec 12) (shamt : BitVec 6) (upper : BitVec 20) (high : BitVec 7)
  (second first low : Reg) (code : BitVec 3)

/-- The instructions that the words of the formats encode. -/
theorem decode_lui : decode (uType upper low 0b0110111) = some (.lui low (upper ++ 0#12)) := by
  simp [decode]

theorem decode_jal :
    decode (uType upper low 0b1101111) = some (.jal low (jImm (uType upper low 0b1101111))) := by
  simp [decode]

theorem decode_jalr : decode (iType imm first 0 low 0b1100111) = some (.jalr low first imm) := by
  simp [decode]

theorem decode_branch : decode (rType high second first code low 0b1100011) =
    (condition code).map
      (.branch · first second (bImm (rType high second first code low 0b1100011))) := by
  simp [decode]

theorem decode_load : decode (iType imm first code low 0b0000011) =
    (loadWidth code).map fun access => .load access.1 access.2 low first imm := by
  simp [decode]

theorem decode_store : decode (rType high second first code low 0b0100011) =
    (storeWidth code).map (.store · first second (high ++ low)) := by
  simp [decode]

theorem decode_addi :
    decode (iType imm first 0b000 low 0b0010011) = some (.opImm .add low first imm) := by
  simp [decode, decodeOpImm]

theorem decode_andi :
    decode (iType imm first 0b111 low 0b0010011) = some (.opImm .and low first imm) := by
  simp [decode, decodeOpImm]

theorem decode_addiw :
    decode (iType imm first 0b000 low 0b0011011) = some (.addiw low first imm) := by
  simp [decode, decodeOpImmW]

theorem decode_slli : decode (iType (0b000000#6 ++ shamt) first 0b001 low 0b0010011) =
    some (.shiftImm .sll low first shamt) := by
  simp [decode, decodeOpImm]

theorem decode_srli : decode (iType (0b000000#6 ++ shamt) first 0b101 low 0b0010011) =
    some (.shiftImm .srl low first shamt) := by
  simp [decode, decodeOpImm]

theorem decode_srai : decode (iType (0b010000#6 ++ shamt) first 0b101 low 0b0010011) =
    some (.shiftImm .sra low first shamt) := by
  simp [decode, decodeOpImm]

theorem decode_op : decode (rType 0b0000000 second first code low 0b0110011) =
    some (.op (arith code) low first second) := by
  simp [decode, decodeOp]

theorem decode_sub : decode (rType 0b0100000 second first 0b000 low 0b0110011) =
    some (.op .sub low first second) := by
  simp [decode, decodeOp]

theorem decode_addw : decode (rType 0b0000000 second first 0b000 low 0b0111011) =
    some (.opW .addw low first second) := by
  simp [decode, decodeOpW, arithW]

theorem decode_subw : decode (rType 0b0100000 second first 0b000 low 0b0111011) =
    some (.opW .subw low first second) := by
  simp [decode, decodeOpW, arithWModified]

end Encoded

section Fields

variable (word : BitVec 16)

/-- The code of a sixteen-bit instruction: its upper three bits and its quadrant. -/
def cCode : BitVec 5 := word.extractLsb' 13 3 ++ word.extractLsb' 0 2

def cRd : Reg := word.extractLsb' 7 5
def cRs2 : Reg := word.extractLsb' 2 5

/-- Fields of three bits name `x8` to `x15`. -/
def cRdShort : Reg := 0b01#2 ++ word.extractLsb' 2 3
def cRs1Short : Reg := 0b01#2 ++ word.extractLsb' 7 3

/-- The immediates of the formats, the signed ones by their width. -/
def ciImm : BitVec 6 := word.extractLsb' 12 1 ++ word.extractLsb' 2 5
def ciwImm : BitVec 10 :=
  word.extractLsb' 7 4 ++ word.extractLsb' 11 2 ++ word.extractLsb' 5 1 ++ word.extractLsb' 6 1 ++
    0#2
def spImm : BitVec 10 :=
  word.extractLsb' 12 1 ++ word.extractLsb' 3 2 ++ word.extractLsb' 5 1 ++ word.extractLsb' 2 1 ++
    word.extractLsb' 6 1 ++ 0#4
def clWord : BitVec 7 :=
  word.extractLsb' 5 1 ++ word.extractLsb' 10 3 ++ word.extractLsb' 6 1 ++ 0#2
def clDouble : BitVec 8 := word.extractLsb' 5 2 ++ word.extractLsb' 10 3 ++ 0#3
def ciWord : BitVec 8 :=
  word.extractLsb' 2 2 ++ word.extractLsb' 12 1 ++ word.extractLsb' 4 3 ++ 0#2
def ciDouble : BitVec 9 :=
  word.extractLsb' 2 3 ++ word.extractLsb' 12 1 ++ word.extractLsb' 5 2 ++ 0#3
def cssWord : BitVec 8 := word.extractLsb' 7 2 ++ word.extractLsb' 9 4 ++ 0#2
def cssDouble : BitVec 9 := word.extractLsb' 7 3 ++ word.extractLsb' 10 3 ++ 0#3
def cjOffset : BitVec 12 :=
  word.extractLsb' 12 1 ++ word.extractLsb' 8 1 ++ word.extractLsb' 9 2 ++ word.extractLsb' 6 1 ++
    word.extractLsb' 7 1 ++ word.extractLsb' 2 1 ++ word.extractLsb' 11 1 ++ word.extractLsb' 3 3 ++
    0#1
def cbOffset : BitVec 9 :=
  word.extractLsb' 12 1 ++ word.extractLsb' 5 2 ++ word.extractLsb' 2 1 ++ word.extractLsb' 10 2 ++
    word.extractLsb' 3 2 ++ 0#1

/-- The arithmetic of the second quadrant on the short registers. -/
def decodeCompressedOp : Option Instr :=
  let rd := cRs1Short word
  match word.extractLsb' 10 2 with
  | 0b00 => some (.shiftImm .srl rd rd (ciImm word))
  | 0b01 => some (.shiftImm .sra rd rd (ciImm word))
  | 0b10 => some (.opImm .and rd rd ((ciImm word).signExtend 12))
  | 0b11 =>
    match word.extractLsb' 12 1 ++ word.extractLsb' 5 2 with
    | 0b000 => some (.op .sub rd rd (cRdShort word))
    | 0b001 => some (.op .xor rd rd (cRdShort word))
    | 0b010 => some (.op .or rd rd (cRdShort word))
    | 0b011 => some (.op .and rd rd (cRdShort word))
    | 0b100 => some (.opW .subw rd rd (cRdShort word))
    | 0b101 => some (.opW .addw rd rd (cRdShort word))
    | _ => none

/-- Register jumps, moves and additions. -/
def decodeCompressedReg : Option Instr :=
  if word.getLsbD 12 then
    if cRs2 word = 0 then
      if cRd word = 0 then some .ebreak else some (.jalr 1 (cRd word) 0)
    else some (.op .add (cRd word) (cRd word) (cRs2 word))
  else
    if cRs2 word = 0 then
      if cRd word = 0 then none else some (.jalr 0 (cRd word) 0)
    else some (.op .add (cRd word) 0 (cRs2 word))

/-- The instruction that a word of RV64C without floating point stands for. A hint stands for the
instruction without effect whose code it has. -/
def decodeCompressed : Option Instr :=
  match cCode word with
  | 0b00000 =>
    if ciwImm word = 0 then none
    else some (.opImm .add (cRdShort word) 2 ((ciwImm word).setWidth 12))
  | 0b01000 =>
    some (.load .word false (cRdShort word) (cRs1Short word) ((clWord word).setWidth 12))
  | 0b01100 =>
    some (.load .double false (cRdShort word) (cRs1Short word) ((clDouble word).setWidth 12))
  | 0b11000 => some (.store .word (cRs1Short word) (cRdShort word) ((clWord word).setWidth 12))
  | 0b11100 => some (.store .double (cRs1Short word) (cRdShort word) ((clDouble word).setWidth 12))
  | 0b00001 => some (.opImm .add (cRd word) (cRd word) ((ciImm word).signExtend 12))
  | 0b00101 =>
    if cRd word = 0 then none
    else some (.addiw (cRd word) (cRd word) ((ciImm word).signExtend 12))
  | 0b01001 => some (.opImm .add (cRd word) 0 ((ciImm word).signExtend 12))
  | 0b01101 =>
    if ciImm word = 0 then none
    else if cRd word = 2 then some (.opImm .add 2 2 ((spImm word).signExtend 12))
    else some (.lui (cRd word) ((ciImm word ++ 0#12).signExtend 32))
  | 0b10001 => decodeCompressedOp word
  | 0b10101 => some (.jal 0 ((cjOffset word).signExtend 21))
  | 0b11001 => some (.branch .eq (cRs1Short word) 0 ((cbOffset word).signExtend 13))
  | 0b11101 => some (.branch .ne (cRs1Short word) 0 ((cbOffset word).signExtend 13))
  | 0b00010 => some (.shiftImm .sll (cRd word) (cRd word) (ciImm word))
  | 0b01010 =>
    if cRd word = 0 then none
    else some (.load .word false (cRd word) 2 ((ciWord word).setWidth 12))
  | 0b01110 =>
    if cRd word = 0 then none
    else some (.load .double false (cRd word) 2 ((ciDouble word).setWidth 12))
  | 0b10010 => decodeCompressedReg word
  | 0b11010 => some (.store .word 2 (cRs2 word) ((cssWord word).setWidth 12))
  | 0b11110 => some (.store .double 2 (cRs2 word) ((cssDouble word).setWidth 12))
  | _ => none

end Fields

end RiscV
