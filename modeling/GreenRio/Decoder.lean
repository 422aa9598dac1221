import GreenRio.Instruction

set_option autoImplicit false

namespace GreenRio

/-- What fetch hands to decode for one instruction; a compressed one is already expanded. -/
structure Fetched where
  pc : Pc
  nextPc : Pc
  predictPc : Pc
  rvInst : BitVec 32
  exception : Bool
  ecause : BitVec 5
  etval : Word

/-- The wires from the status registers into the decoder. -/
structure DecodeMode where
  tsr : Bool
  tvm : Bool
  tw : Bool
  privilegeMode : BitVec 2

/-- The interrupt lines that decode turns into exceptions. -/
structure InterruptLines where
  eip : Bool
  stip : Bool
  mtip : Bool
  ssip : Bool
  msip : Bool

namespace Decoder

section Fields

variable (instr : BitVec 32)

def opcode : BitVec 7 := instr.extractLsb' 0 7
def funct3 : BitVec 3 := instr.extractLsb' 12 3
def funct7 : BitVec 7 := instr.extractLsb' 25 7
def rs1Address : ArchReg := (instr.extractLsb' 15 5).toFin
def rs2Address : ArchReg := (instr.extractLsb' 20 5).toFin
def rdAddress : ArchReg := (instr.extractLsb' 7 5).toFin
def csrAddress : BitVec 12 := instr.extractLsb' 20 12

def uTypeImmData : BitVec 32 := instr.extractLsb' 12 20 ++ 0#12
def jTypeImmData : BitVec 32 :=
  (instr.extractLsb' 31 1 ++ instr.extractLsb' 12 8 ++ instr.extractLsb' 20 1 ++
    instr.extractLsb' 21 10 ++ 0#1).signExtend 32
def iTypeImmData : BitVec 32 := (instr.extractLsb' 20 12).signExtend 32
def sTypeImmData : BitVec 32 := (instr.extractLsb' 25 7 ++ instr.extractLsb' 7 5).signExtend 32
def bTypeImmData : BitVec 32 :=
  (instr.extractLsb' 31 1 ++ instr.extractLsb' 7 1 ++ instr.extractLsb' 25 6 ++
    instr.extractLsb' 8 4 ++ 0#1).signExtend 32
def csrTypeImmData : BitVec 32 := (instr.extractLsb' 15 5).setWidth 32

def usesRs1 : Bool :=
  match opcode instr with
  | 0b1100111 | 0b0000011 | 0b0010011 | 0b0011011 => true
  | 0b1100011 | 0b0100011 | 0b0110011 | 0b0111011 => true
  | 0b1110011 => match funct3 instr with
    | 0b001 | 0b010 | 0b011 => true
    | _ => false
  | 0b0101111 => true
  | _ => false

def usesRs2 : Bool :=
  match opcode instr with
  | 0b1100011 | 0b0100011 | 0b0110011 | 0b0111011 => true
  | 0b0101111 => instr.extractLsb' 27 5 != 0b00010
  | _ => false

end Fields

/-- The defaults at the top of the decoder's case statement. -/
def defaults (fetched : Fetched) : Decoded where
  pc := fetched.pc
  nextPc := fetched.nextPc
  predictPc := fetched.predictPc
  mret := false
  sret := false
  wfi := false
  half := false
  isFence := false
  fenceOp := 0
  aext := false
  immData := 0
  func3 := 0b110
  isAlu := true
  aluModify := false
  aluSelectA := 0b01
  aluSelectB := 0b01
  aluJump := false
  aluBranch := false
  isMd := false
  isLoad := false
  isStore := false
  lduOp := 0
  stuOp := 0
  aq := false
  rl := false
  csrAddress := csrAddress fetched.rvInst
  csrRead := false
  csrWrite := false
  usesRs1 := usesRs1 fetched.rvInst
  usesRs2 := usesRs2 fetched.rvInst
  usesRd := false
  rs1Address := rs1Address fetched.rvInst
  rs2Address := rs2Address fetched.rvInst
  rdAddress := 0
  exception := fetched.exception
  ecause := fetched.ecause
  etval := fetched.etval

/-- `EXCEPTION_ILLEGAL_INSTRUCTION` under a condition. -/
def illegalIf (condition : Bool) (out : Decoded) : Decoded :=
  if condition then { out with exception := true, ecause := 2 } else out

section Opcodes

variable (instr : BitVec 32) (out : Decoded)

def lui : Decoded :=
  { out with usesRd := true, immData := uTypeImmData instr, rdAddress := rdAddress instr }

def auipc : Decoded :=
  { out with
    usesRd := true, func3 := 0, aluSelectA := 0b10, immData := uTypeImmData instr,
    rdAddress := rdAddress instr }

def jal : Decoded :=
  { out with
    usesRd := true, func3 := 0, aluSelectA := 0b10, immData := jTypeImmData instr,
    aluBranch := true, aluJump := true, rdAddress := rdAddress instr }

def jalr : Decoded :=
  illegalIf (funct3 instr != 0)
    { out with
      usesRd := true, func3 := 0, aluSelectA := 0b00, immData := iTypeImmData instr,
      aluBranch := true, aluJump := true, rdAddress := rdAddress instr }

def branch : Decoded :=
  illegalIf (instr.extractLsb' 13 2 == 0b01)
    { out with
      func3 := funct3 instr, aluSelectA := 0b10, immData := bTypeImmData instr,
      aluBranch := true }

def load : Decoded :=
  illegalIf (funct3 instr == 0b111)
    { out with
      usesRd := true, aluSelectA := 0b00, immData := iTypeImmData instr, isAlu := false,
      isLoad := true, lduOp := (funct3 instr).setWidth 4, rdAddress := rdAddress instr }

def store : Decoded :=
  illegalIf (instr.getLsbD 14)
    { out with
      aluSelectA := 0b00, immData := sTypeImmData instr, isAlu := false, isStore := true,
      stuOp := (funct3 instr).setWidth 5 }

def opImm : Decoded :=
  illegalIf ((funct3 instr == 0b001 && instr.extractLsb' 26 6 != 0) ||
      (funct3 instr == 0b101 && (instr.getLsbD 31 || instr.extractLsb' 26 4 != 0)))
    { out with
      usesRd := true, func3 := funct3 instr,
      aluModify := funct3 instr == 0b101 && instr.getLsbD 30, aluSelectA := 0b00,
      immData := iTypeImmData instr, rdAddress := rdAddress instr }

def opImmHalf : Decoded :=
  illegalIf ((funct3 instr == 0b001 && funct7 instr != 0) ||
      (funct3 instr == 0b101 && (instr.getLsbD 31 || instr.extractLsb' 25 5 != 0)))
    { out with
      usesRd := true, func3 := funct3 instr,
      aluModify := funct3 instr == 0b101 && instr.getLsbD 30, aluSelectA := 0b00,
      immData := iTypeImmData instr, rdAddress := rdAddress instr, half := true }

/-- A register operation that is neither an addition nor a right shift has no modified form. -/
def modifierIllegal : Bool :=
  funct7 instr != 0 &&
    (funct7 instr != 0b0100000 || (funct3 instr != 0 && funct3 instr != 0b101))

def op : Decoded :=
  let common := { out with
    usesRd := true, func3 := funct3 instr, aluSelectA := 0b00, aluSelectB := 0b00,
    rdAddress := rdAddress instr }
  if funct7 instr == 0b0000001 then { common with isAlu := false, isMd := true }
  else illegalIf (modifierIllegal instr) { common with aluModify := instr.getLsbD 30 }

/-- The multiply branch tests its function code against three values at once, so it never
faults. -/
def opHalf : Decoded :=
  let common := { out with
    usesRd := true, func3 := funct3 instr, aluSelectA := 0b00, aluSelectB := 0b00,
    rdAddress := rdAddress instr, half := true }
  if funct7 instr == 0b0000001 then
    illegalIf (funct3 instr == 0b001 && funct3 instr == 0b010 && funct3 instr == 0b011)
      { common with isAlu := false, isMd := true }
  else
    illegalIf ((funct7 instr == 0 && (funct3 instr != 0 && funct3 instr != 0b001 &&
        funct3 instr != 0b101)) || modifierIllegal instr)
      { common with aluModify := instr.getLsbD 30 }

/-- The `stu_op` of an atomic operation from `{instr[31:27], instr[14:12]}`. -/
def amoOp (key : BitVec 8) : Option (BitVec 5) :=
  match key with
  | 0b00010010 => some 9
  | 0b00011010 => some 7
  | 0b00001010 => some 11
  | 0b00000010 => some 13
  | 0b00100010 => some 19
  | 0b01100010 => some 15
  | 0b01000010 => some 17
  | 0b10000010 => some 25
  | 0b10100010 => some 21
  | 0b11000010 => some 27
  | 0b11100010 => some 23
  | 0b00010011 => some 10
  | 0b00011011 => some 8
  | 0b00001011 => some 12
  | 0b00000011 => some 14
  | 0b00100011 => some 20
  | 0b01100011 => some 16
  | 0b01000011 => some 18
  | 0b10000011 => some 26
  | 0b10100011 => some 22
  | 0b11000011 => some 28
  | 0b11100011 => some 24
  | _ => none

def amo : Decoded :=
  let common := { out with
    usesRd := true, rdAddress := rdAddress instr, isAlu := false, aext := true,
    aq := instr.getLsbD 26, rl := instr.getLsbD 25, isStore := true }
  match amoOp (instr.extractLsb' 27 5 ++ funct3 instr) with
  | some stuOp =>
    illegalIf (instr.extractLsb' 27 5 == 0b00010 && instr.extractLsb' 20 5 != 0)
      { common with stuOp := stuOp }
  | none => illegalIf true common

def fence : Decoded :=
  let common := { out with isAlu := false, isFence := true, isStore := true }
  match funct3 instr with
  | 0b000 => { common with stuOp := 4, fenceOp := 0 }
  | 0b001 => { common with stuOp := 6, fenceOp := 1 }
  | _ => illegalIf true common

/-- `instr[19:15]` and `instr[11:7]` are zero and `instr[24:20]` is the given code. -/
def plainSystem (code : BitVec 5) : Bool :=
  instr.extractLsb' 20 5 == code && instr.extractLsb' 15 5 == 0 && instr.extractLsb' 7 5 == 0

variable (mode : DecodeMode)

def ecallCause : BitVec 5 :=
  if mode.privilegeMode = 3 then 11 else if mode.privilegeMode = 1 then 9 else 8

/-- `SYSTEM` with a zero function code. The mode is only looked at for `SFENCE.VMA`: `SRET` asks
for `TSR` alone and `MRET` for nothing. -/
def privileged : Decoded :=
  let common := { out with isAlu := false }
  match funct7 instr with
  | 0b0000000 =>
    { common with
      exception := true
      ecause :=
        if plainSystem instr 0 then ecallCause mode
        else if plainSystem instr 1 then 3 else 2 }
  | 0b0001000 =>
    if plainSystem instr 2 then illegalIf mode.tsr { common with sret := true }
    else if plainSystem instr 5 then illegalIf mode.tw { common with wfi := true }
    else illegalIf true common
  | 0b0001001 =>
    illegalIf (instr.extractLsb' 7 5 != 0 || mode.privilegeMode == 0 || mode.tvm)
      { common with isFence := true, isStore := true, stuOp := 5, fenceOp := 2 }
  | 0b0011000 =>
    if plainSystem instr 2 then { common with mret := true } else illegalIf true common
  | _ => illegalIf true common

/-- The six `CSR*` instructions from the checked output of `csr`. -/
def csrOp (checked : Decoded) : Decoded :=
  let readOnly := (csrAddress instr).extractLsb' 10 2 == 0b11
  let common := { checked with
    usesRd := true, rdAddress := rdAddress instr, func3 := funct3 instr }
  let writes := rs1Address instr != 0
  match funct3 instr with
  | 0b001 =>
    illegalIf readOnly
      { common with aluSelectA := 0b00, csrRead := rdAddress instr != 0, csrWrite := true }
  | 0b010 | 0b011 =>
    illegalIf (readOnly && writes)
      { common with
        aluSelectA := 0b00, aluSelectB := 0b11, csrRead := true, csrWrite := writes }
  | 0b101 =>
    illegalIf readOnly
      { common with
        immData := csrTypeImmData instr, csrRead := rdAddress instr != 0, csrWrite := true }
  | 0b110 | 0b111 =>
    illegalIf (readOnly && writes)
      { common with
        aluSelectB := 0b11, immData := csrTypeImmData instr, csrRead := true,
        csrWrite := writes }
  | _ => illegalIf true { checked with isAlu := false }

def system : Decoded :=
  if funct3 instr == 0 then privileged instr out mode
  else
    csrOp instr (illegalIf (decide (mode.privilegeMode < (csrAddress instr).extractLsb' 8 2) ||
      (csrAddress instr == 0x180 && mode.tvm)) out)

/-- The case statement over the opcode. -/
def decodeOpcode : Decoded :=
  match opcode instr with
  | 0b0110111 => lui instr out
  | 0b0010111 => auipc instr out
  | 0b1101111 => jal instr out
  | 0b1100111 => jalr instr out
  | 0b1100011 => branch instr out
  | 0b0000011 => load instr out
  | 0b0100011 => store instr out
  | 0b0010011 => opImm instr out
  | 0b0011011 => opImmHalf instr out
  | 0b0110011 => op instr out
  | 0b0111011 => opHalf instr out
  | 0b0101111 => amo instr out
  | 0b0001111 => fence instr out
  | 0b1110011 => system instr out mode
  | _ => illegalIf true { out with isAlu := false }

end Opcodes

/-- `rv_decoder`: an exception of fetch wins over the ones found here. -/
def rvDecoder (mode : DecodeMode) (fetched : Fetched) : Decoded :=
  let out := decodeOpcode fetched.rvInst (defaults fetched) mode
  if fetched.exception then { out with exception := true, ecause := fetched.ecause } else out

theorem rvDecoder_eq (mode : DecodeMode) {fetched : Fetched} (calm : fetched.exception = false) :
    rvDecoder mode fetched = decodeOpcode fetched.rvInst (defaults fetched) mode := by
  rw [rvDecoder, if_neg (by rw [calm]; exact Bool.false_ne_true)]

/-- The interrupt code that decode forces on what it pushes. -/
def interruptCause (lines : InterruptLines) : Option (BitVec 5) :=
  if lines.eip then some 0x1b
  else if lines.stip then some 0x15
  else if lines.mtip then some 0x17
  else if lines.ssip then some 0x11
  else if lines.msip then some 0x13
  else none

/-- One instruction as `decode` writes it into its queue. -/
def decode (mode : DecodeMode) (lines : InterruptLines) (fetched : Fetched) : Decoded :=
  match interruptCause lines with
  | some ecause => { rvDecoder mode fetched with exception := true, ecause := ecause }
  | none => rvDecoder mode fetched

end Decoder

end GreenRio
