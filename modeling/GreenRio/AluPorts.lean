import GreenRio.FunctionUnit

set_option autoImplicit false

namespace GreenRio

/-- The wires from `rcu` to one of the two arithmetic ports of `fu`. -/
structure AluPort where
  valid : Bool
  op : RobOp
  rs1 : Word
  rs2 : Word
  deriving DecidableEq

/-- What `fu` drives for such a port. -/
structure AluAnswer where
  respValid : Bool
  wrbData : Word
  finalNextPc : Pc
  branchTaken : Bool
  branchPredictMiss : Bool
  deriving DecidableEq

namespace AluPort

section Port

variable (sign : Pc) (flush : Bool) (port : AluPort)

/-- `cmp_valid`. -/
def cmpValid : Bool := port.op.aluBranch && !port.op.aluJump

/-- The operands; without a request a branch still drives its registers. -/
def opr1 : Word :=
  if port.valid then Alu.opr1 port.op port.rs1 else if port.cmpValid then port.rs1 else 0

def opr2 : Word :=
  if port.valid then Alu.opr2 port.op port.rs2 else if port.cmpValid then port.rs2 else 0

def funcSel : BitVec 3 := if port.op.aluBranch then 0 else port.op.func3

def respValid : Bool := !flush && port.valid

/-- `is_jump_o` and `is_branch_o` of `alu`. -/
def isJump : Bool := port.op.aluJump && port.valid && port.respValid flush

def isBranch : Bool := port.op.aluBranch && port.valid && port.respValid flush

def result : Word :=
  Alu.aluResult port.funcSel port.op.half port.op.aluModify port.opr1 port.opr2

def cmpResult : Bool := Alu.cmpResult port.op.func3 port.rs1 port.rs2

def finalNextPc : Pc :=
  if port.isJump flush then port.result.setWidth 39
  else if port.isBranch flush && port.cmpResult then port.result.setWidth 39
  else port.op.nextPc

/-- A port of `fu`, and the program counter whose sign its return address takes. -/
def answer : AluAnswer where
  respValid := port.respValid flush
  wrbData := if port.isJump flush then Alu.linkData sign port.op.nextPc else port.result
  finalNextPc := port.finalNextPc flush
  branchTaken := port.cmpResult
  branchPredictMiss := port.finalNextPc flush != port.op.predictPc

end Port

section Ports

variable (flush : Bool) (first second : AluPort)

def alu1 : AluAnswer := first.answer first.op.nextPc flush

/-- `fu_rcu_alu2_wrb_data_o` repeats `alu1_next_pc[PC_WIDTH-1]`. -/
def alu2 : AluAnswer := second.answer first.op.nextPc flush

end Ports

/-- The request that a stage drives. -/
def ofStage (stage : Stage) : AluPort where
  valid := stage.valid
  op := stage.issued.entry.toRobOp
  rs1 := stage.issued.rs1Data
  rs2 := stage.issued.rs2Data

/-- A request that no flush takes away is answered as the machine's arithmetic units answer it. -/
theorem answer_ofStage (sign : Pc) (stage : Stage) (valid : stage.valid = true) :
    let done := Alu.done stage sign false
    (ofStage stage).answer sign false =
      ⟨done.done, done.wrbData, done.finalBranchPc, done.branchTaken, done.predictMiss⟩ := by
  simp [answer, ofStage, Alu.done, respValid, isJump, isBranch, finalNextPc, Alu.finalNextPc,
    result, Alu.result, cmpResult, funcSel, opr1, opr2, valid]

section Agreement

theorem linkData_eq_iff (sign other next : Pc) :
    Alu.linkData sign next = Alu.linkData other next ↔ sign.msb = other.msb := by
  unfold Alu.linkData
  constructor
  · intro same
    have top := congrArg (fun data : Word => data.getLsbD 39) same
    simp only [BitVec.getLsbD_append, Nat.lt_irrefl, ↓reduceIte] at top
    cases left : sign.msb <;> cases right : other.msb <;> simp [left, right] at top ⊢
  · intro same
    rw [same]

/-- An instruction is answered alike on both ports exactly when it writes no return address back or
its next program counter has the sign of the one on the first port. -/
theorem ports_agree_iff (flush : Bool) (port other : AluPort) :
    alu1 flush port = alu2 flush other port ↔
      (port.isJump flush = true → port.op.nextPc.msb = other.op.nextPc.msb) := by
  simp only [alu1, alu2, answer, AluAnswer.mk.injEq, true_and, and_true]
  by_cases jump : port.isJump flush = true
  · rw [if_pos jump, if_pos jump, linkData_eq_iff]
    exact ⟨fun same _ => same, fun same => same jump⟩
  · rw [if_neg jump, if_neg jump]
    exact ⟨fun _ jumps => absurd jumps jump, fun _ => rfl⟩

/-- A jump in the upper half of the address space. -/
def highJump : AluPort where
  valid := true
  op := { RobOp.blank with
    pc := 0x7ffffff000, nextPc := 0x7ffffff004, aluJump := true, aluBranch := true }
  rs1 := 0
  rs2 := 0

/-- It writes another return address back beside an instruction in the lower half. -/
theorem ports_disagree :
    (alu1 false highJump).wrbData ≠
      (alu2 false ⟨true, RobOp.blank, 0, 0⟩ highJump).wrbData := by
  decide

end Agreement

end AluPort

end GreenRio
