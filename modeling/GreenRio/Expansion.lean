import Mathlib.Tactic.IntervalCases
import GreenRio.Compressed
import GreenRio.Legality

set_option autoImplicit false

namespace GreenRio

open RiscV (iType rType uType)

namespace RvcDecoder

section Decode

variable (rvcInst : BitVec 16)

/-- `rvc_inst[high:low]` of the given length. -/
def slice (low length : Nat) : BitVec length := rvcInst.extractLsb' low length

/-- `{count{rvc_inst[12]}}`. -/
def signs (count : Nat) : BitVec count := (slice rvcInst 12 1).signExtend count

/-- `{2'b01, rvc_inst[low+2:low]}`. -/
def short (low : Nat) : BitVec 5 := 0b01#2 ++ slice rvcInst low 3

/-- The cases of `5'b10001`: behind `c.andi` a zero immediate is illegal, also as a shift count. -/
def arithmetic : BitVec 32 :=
  let rd := short rvcInst 7
  let rs2 := short rvcInst 2
  let kind := slice rvcInst 10 3
  let op := slice rvcInst 5 2
  let imm := slice rvcInst 12 1 ++ slice rvcInst 2 5
  if kind = 0b011 ∧ op = 0b00 then rType 0b0100000 rs2 rd 0b000 rd 0b0110011
  else if kind = 0b011 ∧ op = 0b01 then rType 0b0000000 rs2 rd 0b100 rd 0b0110011
  else if kind = 0b011 ∧ op = 0b10 then rType 0b0000000 rs2 rd 0b110 rd 0b0110011
  else if kind = 0b011 ∧ op = 0b11 then rType 0b0000000 rs2 rd 0b111 rd 0b0110011
  else if slice rvcInst 10 2 = 0b10 then
    iType (signs rvcInst 7 ++ slice rvcInst 2 5) rd 0b111 rd 0b0010011
  else if slice rvcInst 12 1 = 0 ∧ slice rvcInst 2 5 = 0 then 0
  else if slice rvcInst 10 2 = 0b00 then iType (0b000000#6 ++ imm) rd 0b101 rd 0b0010011
  else if slice rvcInst 10 2 = 0b01 then iType (0b010000#6 ++ imm) rd 0b101 rd 0b0010011
  else if kind = 0b111 ∧ op = 0b00 then rType 0b0100000 rs2 rd 0b000 rd 0b0111011
  else if kind = 0b111 ∧ op = 0b01 then rType 0b0000000 rs2 rd 0b000 rd 0b0111011
  else 0

/-- The cases of `5'b10010`. -/
def register : BitVec 32 :=
  let rd := slice rvcInst 7 5
  let rs2 := slice rvcInst 2 5
  if rs2 = 0 then
    if rd = 0 then
      if rvcInst.getLsbD 12 then iType 1 0 0 0 0b1110011 else 0
    else if rvcInst.getLsbD 12 then iType 0 rd 0b000 1 0b1100111
    else iType 0 rd 0b000 0 0b1100111
  else if rd = 0 then 0
  else if rvcInst.getLsbD 12 then rType 0b0000000 rs2 rd 0b000 rd 0b0110011
  else rType 0b0000000 rs2 0 0b000 rd 0b0110011

/-- `rvc_dec_w`. The concatenations of the source are grouped into the fields they fill. -/
def rvcDec : BitVec 32 :=
  let rd := slice rvcInst 7 5
  let rs2 := slice rvcInst 2 5
  match slice rvcInst 13 3 ++ slice rvcInst 0 2 with
  | 0b00000 =>
    if slice rvcInst 2 11 ≠ 0 ∧ slice rvcInst 5 8 ≠ 0 then
      iType (0b00#2 ++ slice rvcInst 7 4 ++ slice rvcInst 11 2 ++ slice rvcInst 5 1 ++
        slice rvcInst 6 1 ++ 0b00#2) 2 0b000 (short rvcInst 2) 0b0010011
    else 0
  | 0b01000 =>
    iType (0b00000#5 ++ slice rvcInst 5 1 ++ slice rvcInst 10 3 ++ slice rvcInst 6 1 ++ 0b00#2)
      (short rvcInst 7) 0b010 (short rvcInst 2) 0b0000011
  | 0b01100 =>
    iType (0b0000#4 ++ slice rvcInst 5 2 ++ slice rvcInst 10 3 ++ 0b000#3)
      (short rvcInst 7) 0b011 (short rvcInst 2) 0b0000011
  | 0b11000 =>
    rType (0b00000#5 ++ slice rvcInst 5 1 ++ slice rvcInst 12 1) (short rvcInst 2)
      (short rvcInst 7) 0b010 (slice rvcInst 10 2 ++ slice rvcInst 6 1 ++ 0b00#2) 0b0100011
  | 0b11100 =>
    rType (0b0000#4 ++ slice rvcInst 5 2 ++ slice rvcInst 12 1) (short rvcInst 2)
      (short rvcInst 7) 0b011 (slice rvcInst 10 2 ++ 0b000#3) 0b0100011
  | 0b00001 =>
    if slice rvcInst 2 11 = 0 then iType 0 0 0 0 0b0010011
    else if slice rvcInst 12 1 ≠ 0 ∨ rs2 ≠ 0 then
      iType (signs rvcInst 7 ++ rs2) rd 0b000 rd 0b0010011
    else 0
  | 0b00101 => if rd ≠ 0 then iType (signs rvcInst 7 ++ rs2) rd 0b000 rd 0b0011011 else 0
  | 0b01001 => if rd ≠ 0 then iType (signs rvcInst 7 ++ rs2) 0 0b000 rd 0b0010011 else 0
  | 0b01101 =>
    if (slice rvcInst 12 1 ≠ 0 ∨ rs2 ≠ 0) ∧ rd ≠ 0 then
      if rd = 2 then
        iType (signs rvcInst 3 ++ slice rvcInst 4 1 ++ slice rvcInst 3 1 ++ slice rvcInst 5 1 ++
          slice rvcInst 2 1 ++ slice rvcInst 6 1 ++ 0b0000#4) 2 0b000 2 0b0010011
      else uType (signs rvcInst 15 ++ rs2) rd 0b0110111
    else 0
  | 0b10001 => arithmetic rvcInst
  | 0b10101 =>
    uType (slice rvcInst 12 1 ++ slice rvcInst 8 1 ++ slice rvcInst 9 2 ++ slice rvcInst 6 1 ++
      slice rvcInst 7 1 ++ slice rvcInst 2 1 ++ slice rvcInst 11 1 ++ slice rvcInst 3 3 ++
      slice rvcInst 12 1 ++ signs rvcInst 8) 0 0b1101111
  | 0b11001 =>
    rType (signs rvcInst 4 ++ slice rvcInst 6 1 ++ slice rvcInst 5 1 ++ slice rvcInst 2 1) 0
      (short rvcInst 7) 0b000
      (slice rvcInst 11 1 ++ slice rvcInst 10 1 ++ slice rvcInst 4 1 ++ slice rvcInst 3 1 ++
        slice rvcInst 12 1) 0b1100011
  | 0b11101 =>
    rType (signs rvcInst 4 ++ slice rvcInst 6 1 ++ slice rvcInst 5 1 ++ slice rvcInst 2 1) 0
      (short rvcInst 7) 0b001
      (slice rvcInst 11 1 ++ slice rvcInst 10 1 ++ slice rvcInst 4 1 ++ slice rvcInst 3 1 ++
        slice rvcInst 12 1) 0b1100011
  | 0b00010 =>
    if rd ≠ 0 then
      iType (0b000000#6 ++ (slice rvcInst 12 1 ++ rs2)) rd 0b001 rd 0b0010011
    else 0
  | 0b01010 =>
    if rd ≠ 0 then
      iType (0b0000#4 ++ slice rvcInst 2 2 ++ slice rvcInst 12 1 ++ slice rvcInst 4 3 ++ 0b00#2) 2
        0b010 rd 0b0000011
    else 0
  | 0b01110 =>
    if rd ≠ 0 then
      iType (0b000#3 ++ slice rvcInst 2 3 ++ slice rvcInst 12 1 ++ slice rvcInst 5 2 ++ 0b000#3) 2
        0b011 rd 0b0000011
    else 0
  | 0b11010 =>
    rType (0b0000#4 ++ slice rvcInst 7 2 ++ slice rvcInst 12 1) rs2 2 0b010
      (slice rvcInst 9 3 ++ 0b00#2) 0b0100011
  | 0b11110 =>
    rType (0b000#3 ++ slice rvcInst 7 3 ++ slice rvcInst 12 1) rs2 2 0b011
      (slice rvcInst 10 2 ++ 0b000#3) 0b0100011
  | 0b10010 => register rvcInst
  | _ => 0

end Decode

/-- `rv_inst_o`. -/
def rvInst (isRv : Bool) (instruction : BitVec 32) : BitVec 32 :=
  if isRv then instruction else rvcDec (instruction.setWidth 16)

section Immediates

variable (word : BitVec 16)

/-- The immediates of the expansions, position by position. -/
theorem ciwImm_eq : 0b00#2 ++ slice word 7 4 ++ slice word 11 2 ++ slice word 5 1 ++
    slice word 6 1 ++ 0b00#2 =
    (RiscV.ciwImm word).setWidth 12 := by
  apply BitVec.eq_of_getLsbD_eq
  intro place inside
  simp only [slice, RiscV.ciwImm, BitVec.getLsbD_append, BitVec.getLsbD_extractLsb',
    BitVec.getLsbD_setWidth]
  interval_cases place <;> rfl

theorem clWord_eq : 0b00000#5 ++ slice word 5 1 ++ slice word 10 3 ++ slice word 6 1 ++ 0b00#2 =
    (RiscV.clWord word).setWidth 12 := by
  apply BitVec.eq_of_getLsbD_eq
  intro place inside
  simp only [slice, RiscV.clWord, BitVec.getLsbD_append, BitVec.getLsbD_extractLsb',
    BitVec.getLsbD_setWidth]
  interval_cases place <;> rfl

theorem clDouble_eq : 0b0000#4 ++ slice word 5 2 ++ slice word 10 3 ++ 0b000#3 =
    (RiscV.clDouble word).setWidth 12 := by
  apply BitVec.eq_of_getLsbD_eq
  intro place inside
  simp only [slice, RiscV.clDouble, BitVec.getLsbD_append, BitVec.getLsbD_extractLsb',
    BitVec.getLsbD_setWidth]
  interval_cases place <;> rfl

theorem csWord_eq : (0b00000#5 ++ slice word 5 1 ++ slice word 12 1) ++
    (slice word 10 2 ++ slice word 6 1 ++ 0b00#2) =
    (RiscV.clWord word).setWidth 12 := by
  apply BitVec.eq_of_getLsbD_eq
  intro place inside
  simp only [slice, RiscV.clWord, BitVec.getLsbD_append, BitVec.getLsbD_extractLsb',
    BitVec.getLsbD_setWidth]
  interval_cases place <;> rfl

theorem csDouble_eq : (0b0000#4 ++ slice word 5 2 ++ slice word 12 1) ++
    (slice word 10 2 ++ 0b000#3) =
    (RiscV.clDouble word).setWidth 12 := by
  apply BitVec.eq_of_getLsbD_eq
  intro place inside
  simp only [slice, RiscV.clDouble, BitVec.getLsbD_append, BitVec.getLsbD_extractLsb',
    BitVec.getLsbD_setWidth]
  interval_cases place <;> rfl

theorem ciImm_eq : signs word 7 ++ slice word 2 5 =
    (RiscV.ciImm word).signExtend 12 := by
  apply BitVec.eq_of_getLsbD_eq
  intro place inside
  simp only [signs, slice, RiscV.ciImm, BitVec.getLsbD_append, BitVec.getLsbD_extractLsb',
    BitVec.getLsbD_signExtend, BitVec.msb_eq_getLsbD_last]
  interval_cases place <;> rfl

theorem uImm_eq : (signs word 15 ++ slice word 2 5) ++ 0#12 =
    (RiscV.ciImm word ++ 0#12).signExtend 32 := by
  apply BitVec.eq_of_getLsbD_eq
  intro place inside
  simp only [signs, slice, RiscV.ciImm, BitVec.getLsbD_append, BitVec.getLsbD_extractLsb',
    BitVec.getLsbD_signExtend, BitVec.msb_eq_getLsbD_last]
  interval_cases place <;> rfl

theorem spImm_eq : signs word 3 ++ slice word 4 1 ++ slice word 3 1 ++ slice word 5 1 ++
    slice word 2 1 ++ slice word 6 1 ++ 0b0000#4 =
    (RiscV.spImm word).signExtend 12 := by
  apply BitVec.eq_of_getLsbD_eq
  intro place inside
  simp only [signs, slice, RiscV.spImm, BitVec.getLsbD_append, BitVec.getLsbD_extractLsb',
    BitVec.getLsbD_signExtend, BitVec.msb_eq_getLsbD_last]
  interval_cases place <;> rfl

theorem ciWord_eq : 0b0000#4 ++ slice word 2 2 ++ slice word 12 1 ++ slice word 4 3 ++ 0b00#2 =
    (RiscV.ciWord word).setWidth 12 := by
  apply BitVec.eq_of_getLsbD_eq
  intro place inside
  simp only [slice, RiscV.ciWord, BitVec.getLsbD_append, BitVec.getLsbD_extractLsb',
    BitVec.getLsbD_setWidth]
  interval_cases place <;> rfl

theorem ciDouble_eq : 0b000#3 ++ slice word 2 3 ++ slice word 12 1 ++ slice word 5 2 ++ 0b000#3 =
    (RiscV.ciDouble word).setWidth 12 := by
  apply BitVec.eq_of_getLsbD_eq
  intro place inside
  simp only [slice, RiscV.ciDouble, BitVec.getLsbD_append, BitVec.getLsbD_extractLsb',
    BitVec.getLsbD_setWidth]
  interval_cases place <;> rfl

theorem cssWord_eq : (0b0000#4 ++ slice word 7 2 ++ slice word 12 1) ++ (slice word 9 3 ++ 0b00#2) =
    (RiscV.cssWord word).setWidth 12 := by
  apply BitVec.eq_of_getLsbD_eq
  intro place inside
  simp only [slice, RiscV.cssWord, BitVec.getLsbD_append, BitVec.getLsbD_extractLsb',
    BitVec.getLsbD_setWidth]
  interval_cases place <;> rfl

theorem cssDouble_eq : (0b000#3 ++ slice word 7 3 ++ slice word 12 1) ++
    (slice word 10 2 ++ 0b000#3) =
    (RiscV.cssDouble word).setWidth 12 := by
  apply BitVec.eq_of_getLsbD_eq
  intro place inside
  simp only [slice, RiscV.cssDouble, BitVec.getLsbD_append, BitVec.getLsbD_extractLsb',
    BitVec.getLsbD_setWidth]
  interval_cases place <;> rfl

theorem cjOffset_eq (low : RiscV.Reg) (kind : BitVec 7) :
    RiscV.jImm (uType (slice word 12 1 ++ slice word 8 1 ++ slice word 9 2 ++ slice word 6 1 ++
      slice word 7 1 ++ slice word 2 1 ++ slice word 11 1 ++ slice word 3 3 ++
      slice word 12 1 ++ signs word 8) low kind) = (RiscV.cjOffset word).signExtend 21 := by
  rw [RiscV.jImm_uType]
  apply BitVec.eq_of_getLsbD_eq
  intro place inside
  simp only [signs, slice, RiscV.cjOffset, BitVec.getLsbD_append, BitVec.getLsbD_extractLsb',
    BitVec.getLsbD_signExtend, BitVec.msb_eq_getLsbD_last]
  interval_cases place <;> rfl

theorem cbOffset_eq (second first : RiscV.Reg) (code : BitVec 3) (kind : BitVec 7) :
    RiscV.bImm (rType (signs word 4 ++ slice word 6 1 ++ slice word 5 1 ++ slice word 2 1) second
      first code (slice word 11 1 ++ slice word 10 1 ++ slice word 4 1 ++ slice word 3 1 ++
        slice word 12 1) kind) = (RiscV.cbOffset word).signExtend 13 := by
  rw [RiscV.bImm_rType]
  apply BitVec.eq_of_getLsbD_eq
  intro place inside
  simp only [signs, slice, RiscV.cbOffset, BitVec.getLsbD_append, BitVec.getLsbD_extractLsb',
    BitVec.getLsbD_signExtend, BitVec.msb_eq_getLsbD_last]
  interval_cases place <;> rfl

end Immediates

end RvcDecoder

end GreenRio
