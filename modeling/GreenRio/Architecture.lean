import GreenRio.RiscV

set_option autoImplicit false

namespace RiscV

/-- The bytes of an access. -/
def Width.size : Width → Nat
  | .byte => 1
  | .half => 2
  | .word => 4
  | .double => 8

/-- The width of an atomic operation. -/
def atomicWidth (double : Bool) : Width := if double then .double else .word

/-- What an instruction asks of memory. The operations that hold a reservation or modify memory are
atomic. -/
structure Access where
  loads : Bool
  atomic : Bool
  width : Width
  address : BitVec 64
  destination : Option Reg
  deriving DecidableEq

/-- An access in several aligned units. -/
def Access.misaligned (access : Access) : Bool :=
  access.address.toNat % access.width.size != 0

namespace Instr

/-- The access of an instruction of memory from the register that it has its address in. -/
def access (x : BitVec 64) : Instr → Option Access
  | .load width _ rd _ imm => some ⟨true, false, width, x + imm.signExtend 64, some rd⟩
  | .store width _ _ imm => some ⟨false, false, width, x + imm.signExtend 64, none⟩
  | .loadReserved double rd _ => some ⟨true, true, atomicWidth double, x, some rd⟩
  | .storeConditional double rd _ _ => some ⟨false, true, atomicWidth double, x, some rd⟩
  | .amo _ double rd _ _ => some ⟨false, true, atomicWidth double, x, some rd⟩
  | _ => none

/-- The registers that an instruction reads. -/
def sources : Instr → Option Reg × Option Reg
  | .jalr _ rs1 _ | .load _ _ _ rs1 _ | .loadReserved _ _ rs1 => (some rs1, none)
  | .opImm _ _ rs1 _ | .shiftImm _ _ rs1 _ | .addiw _ rs1 _ | .shiftImmW _ _ rs1 _ =>
    (some rs1, none)
  | .branch _ rs1 rs2 _ | .store _ rs1 rs2 _ => (some rs1, some rs2)
  | .op _ _ rs1 rs2 | .opW _ _ rs1 rs2 => (some rs1, some rs2)
  | .mulDiv _ _ rs1 rs2 | .mulDivW _ _ rs1 rs2 => (some rs1, some rs2)
  | .storeConditional _ _ rs1 rs2 | .amo _ _ _ rs1 rs2 => (some rs1, some rs2)
  | .sfenceVma rs1 rs2 => (some rs1, some rs2)
  | .csr _ false _ source _ => (some source, none)
  | _ => (none, none)

/-- The register that an instruction writes, `x0` for none. -/
def destination : Instr → Reg
  | .lui rd _ | .auipc rd _ | .jal rd _ | .jalr rd _ _ => rd
  | .load _ _ rd _ _ | .loadReserved _ rd _ | .storeConditional _ rd _ _ | .amo _ _ rd _ _ => rd
  | .opImm _ rd _ _ | .shiftImm _ rd _ _ | .addiw rd _ _ | .shiftImmW _ rd _ _ => rd
  | .op _ rd _ _ | .opW _ rd _ _ | .mulDiv _ rd _ _ | .mulDivW _ rd _ _ => rd
  | .csr _ _ rd _ _ => rd
  | _ => 0

/-- A call of the environment is never retired: a trap takes its place. -/
def calls : Instr → Bool
  | .ecall | .ebreak => true
  | _ => false

/-- A return from a trap leads where the control and status registers say. -/
def returns : Instr → Bool
  | .mret | .sret => true
  | _ => false

/-- A pause reads and writes nothing. -/
def pauses : Instr → Bool
  | .wfi => true
  | _ => false

theorem pauses_destination {instr : Instr} (waits : instr.pauses = true) :
    instr.destination = 0 := by
  cases instr <;> first
    | rfl
    | cases waits

theorem computed_destination {instr : Instr} {pc x y value : BitVec 64} {rd : Reg}
    (computes : instr.computed pc x y = some (rd, value)) : instr.destination = rd := by
  cases instr <;> cases computes <;> rfl

theorem transfer_destination {instr : Instr} {pc x y : BitVec 64} {outcome : Bool × BitVec 64}
    (transfers : instr.transfer pc x y = some outcome) :
    instr.destination = instr.link.getD 0 := by
  cases instr <;> cases transfers <;> rfl

/-- An instruction computes from nothing but its sources. -/
theorem computed_congr {instr : Instr} {x y x' y' : BitVec 64} (pc : BitVec 64)
    (first : ∀ source, instr.sources.1 = some source → x = x')
    (second : ∀ source, instr.sources.2 = some source → y = y') :
    instr.computed pc x y = instr.computed pc x' y' := by
  cases instr <;> first
    | rfl
    | rw [first _ rfl, second _ rfl]
    | rw [first _ rfl]; rfl

theorem transfer_congr {instr : Instr} {x y x' y' : BitVec 64} (pc : BitVec 64)
    (first : ∀ source, instr.sources.1 = some source → x = x')
    (second : ∀ source, instr.sources.2 = some source → y = y') :
    instr.transfer pc x y = instr.transfer pc x' y' := by
  cases instr <;> first
    | rfl
    | rw [first _ rfl, second _ rfl]
    | rw [first _ rfl]; rfl

theorem access_eq_none {instr : Instr} (x : BitVec 64)
    (other : instr.opcode ∉ [0b0000011, 0b0100011, 0b0101111]) : instr.access x = none := by
  cases instr <;> first
    | rfl
    | exact absurd (by simp [Instr.opcode]) other

end Instr

section Sources

variable {word : BitVec 32} {instr : Instr}

theorem decodeOpImm_sources (encodes : decodeOpImm word = some instr) :
    instr.sources = (some (rs1 word), none) := by
  unfold decodeOpImm at encodes
  repeat' split at encodes
  all_goals cases encodes
  all_goals rfl

theorem decodeOpImmW_sources (encodes : decodeOpImmW word = some instr) :
    instr.sources = (some (rs1 word), none) := by
  unfold decodeOpImmW at encodes
  repeat' split at encodes
  all_goals cases encodes
  all_goals rfl

theorem decodeOp_sources (encodes : decodeOp word = some instr) :
    instr.sources = (some (rs1 word), some (rs2 word)) := by
  unfold decodeOp at encodes
  repeat' split at encodes
  all_goals cases encodes
  all_goals rfl

theorem decodeOpW_sources (encodes : decodeOpW word = some instr) :
    instr.sources = (some (rs1 word), some (rs2 word)) := by
  unfold decodeOpW at encodes
  split at encodes
  case h_4 => cases encodes
  all_goals
    obtain ⟨operation, -, rfl⟩ := Option.map_eq_some_iff.mp encodes
    rfl

theorem decodeAmo_sources (encodes : decodeAmo word = some instr) :
    instr.sources =
      (some (rs1 word), if funct5 word = 0b00010 then none else some (rs2 word)) := by
  obtain ⟨double, -, encodes⟩ := Option.bind_eq_some_iff.mp encodes
  split at encodes
  · rename_i reserve
    split at encodes <;> cases encodes
    rw [reserve]
    rfl
  · rename_i conditional
    cases encodes
    rw [conditional]
    rfl
  · rename_i reserve conditional
    obtain ⟨operation, -, rfl⟩ := Option.map_eq_some_iff.mp encodes
    exact Prod.ext rfl (if_neg reserve).symm

theorem decodeMiscMem_sources (encodes : decodeMiscMem word = some instr) :
    instr.sources = (none, none) := by
  unfold decodeMiscMem at encodes
  split at encodes <;> cases encodes <;> rfl

/-- The privileged instructions but `SFENCE.VMA` read nothing, and those of a control and status
register at most its operand. -/
theorem decodeSystem_sources (encodes : decodeSystem word = some instr)
    (other : ∀ x y, instr ≠ .sfenceVma x y) :
    instr.sources =
      (if funct3 word ≠ 0 ∧ (funct3 word).getLsbD 2 = false then some (rs1 word) else none,
        none) := by
  unfold decodeSystem at encodes
  split at encodes
  · rename_i plain
    rw [if_neg fun register => register.1 plain]
    unfold decodePriv at encodes
    repeat' split at encodes
    all_goals cases encodes
    all_goals first
      | rfl
      | exact absurd rfl (other _ _)
  · rename_i register
    obtain ⟨access, -, rfl⟩ := Option.map_eq_some_iff.mp encodes
    cases immediate : (funct3 word).getLsbD 2
    · rw [if_pos ⟨register, rfl⟩]
      rfl
    · rw [if_neg (by simp)]
      rfl

end Sources

section Machine

/-- What memory holds at every address: a word and its size. A compressed instruction stands there
expanded. -/
structure Program (w : Nat) where
  word : BitVec w → BitVec 32
  size : BitVec w → BitVec w

/-- The program counter and the registers of a hart. -/
structure State (w : Nat) where
  pc : BitVec w
  registers : Reg → BitVec 64

/-- What comes from outside the program: the instruction retires, with the value that memory, the
multiplier or a control and status register answers with, it returns from a trap, or a trap takes
its place. -/
inductive Outcome (w : Nat) where
  | retire (answer : BitVec 64)
  | leave (target : BitVec w)
  | trap (target : BitVec w)

namespace State

variable {w : Nat} (program : Program w) (state : State w)

/-- The registers after a write; `x0` stays zero. -/
def write (rd : Reg) (value : BitVec 64) : Reg → BitVec 64 :=
  if rd = 0 then state.registers else Function.update state.registers rd value

def operand : Option Reg → BitVec 64
  | some source => state.registers source
  | none => 0

/-- The address behind the instruction. -/
def fallThrough : BitVec w := state.pc + program.size state.pc

/-- An instruction that retires. -/
def execute (instr : Instr) (answer : BitVec 64) : Option (State w) :=
  let pc := state.pc.signExtend 64
  let x := state.operand instr.sources.1
  let y := state.operand instr.sources.2
  let next := state.fallThrough program
  match instr.transfer pc x y with
  | some (taken, target) => some
      ⟨if taken then target.setWidth w else next,
        state.write instr.destination (next.signExtend 64)⟩
  | none =>
    match instr.computed pc x y with
    | some (rd, value) => some ⟨next, state.write rd value⟩
    | none =>
      if instr.calls || instr.returns then none
      else some ⟨next, state.write instr.destination answer⟩

/-- One step of the program. What a reserved word does to its register is left open. -/
def next : Outcome w → Option (State w)
  | .retire answer =>
    match decode (program.word state.pc) with
    | some instr => state.execute program instr answer
    | none => some
      ⟨state.fallThrough program, state.write (rd (program.word state.pc)) answer⟩
  | .leave target =>
    match decode (program.word state.pc) with
    | some instr => if instr.returns then some ⟨target, state.registers⟩ else none
    | none => none
  | .trap target => some ⟨target, state.registers⟩

/-- The program run along what happens to it. -/
def run (outcomes : List (Outcome w)) : Option (State w) :=
  outcomes.foldlM (fun state outcome => state.next program outcome) state

theorem run_singleton (outcome : Outcome w) :
    state.run program [outcome] = state.next program outcome := by
  rw [run, List.foldlM_cons]
  exact bind_pure _

theorem run_append (older younger : List (Outcome w)) :
    state.run program (older ++ younger) =
      (state.run program older).bind fun state => state.run program younger :=
  List.foldlM_append

end State

end Machine

end RiscV
