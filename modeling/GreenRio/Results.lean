import GreenRio.Retirement
import GreenRio.Transfers

set_option autoImplicit false

namespace GreenRio

open Circular Counter Fifo

/-- The value that an arithmetic operation is to write back. -/
def Alu.written (op : RobOp) (rs1 rs2 : Word) : Word :=
  if op.aluJump then op.nextPc.signExtend 64 else Alu.result op rs1 rs2

/-- There is a value, for an arithmetic operation the one that it computes from its registers. -/
def Decoded.Yields (instruction : Decoded) (registers : ArchReg → Option Word)
    (result : Option Word) : Prop :=
  ∃ value, result = some value ∧ (instruction.arithmetic = true → ∃ rs1 rs2,
    instruction.Reads registers rs1 rs2 ∧ value = Alu.written instruction.toRobOp rs1 rs2)

namespace Observed

variable {observed : Observed} {input : ProcessorInput} {length : Nat} {free : List PhyReg}
  {past : List (Write 32 PhyReg Word)}

/-- A jump in the second unit has the sign of its return address from the first unit's operation:
the two agree. -/
def LinksAgree (observed : Observed) : Prop :=
  observed.issue.alu2.valid = true → observed.issue.alu2.issued.entry.aluJump = true →
    observed.issue.alu1.issued.entry.nextPc.msb = observed.issue.alu2.issued.entry.nextPc.msb

instance (observed : Observed) : Decidable observed.LinksAgree :=
  inferInstanceAs (Decidable (_ → _ → _))

/-- A slot has its value, which is made of the registers in front of it. -/
def Produces (observed : Observed) (position : Nat) (index : RobIndex) : Prop :=
  (observed.source index).Yields (observed.valuesBefore position) (observed.result index)

/-- What has been executed has produced a value. -/
def Valued (observed : Observed) (length : Nat) : Prop :=
  ∀ position < length,
    observed.rcu.robFinish (advance observed.rcu.cmtRobIndex position) = true →
    (observed.source (advance observed.rcu.cmtRobIndex position)).skips = false →
    observed.Produces position (advance observed.rcu.cmtRobIndex position)

section Step

variable (settled : Settled observed) (responds : Responds observed input)

include settled responds

/-- A finished slot keeps its value. -/
theorem currentResult_finished {index : RobIndex} (finish : observed.rcu.robFinish index = true) :
    observed.tracked.currentResult (observed.processor.rcuInput input) index =
      observed.result index := by
  rw [Tracked.currentResult, Override.foldl_none]
  · rfl
  · intro completion member
    by_contra done
    simp only [Bool.not_eq_false, Bool.and_eq_true, beq_iff_eq] at done
    have pending := settled.completes_pending responds ⟨completion, member, done.1, done.2⟩
    exact absurd (finish.symm.trans pending.2.2) (by decide)

/-- A completion brings the value. -/
theorem currentResult_completion {completion : FuDone}
    (member : completion ∈ (observed.processor.rcuInput input).completions)
    (done : completion.done = true) :
    observed.tracked.currentResult (observed.processor.rcuInput input) completion.robIndex =
      some completion.wrbData := by
  have units := settled.functionUnits responds
  unfold Tracked.currentResult
  apply Override.foldl_some
    (fun other : FuDone => other.done && other.robIndex == completion.robIndex)
    (fun other => some other.wrbData) _ _ member
  · rw [done, beq_self_eq_true, Bool.and_true]
  · intro other inside applies
    simp only [Bool.and_eq_true, beq_iff_eq] at applies
    rw [units.unique inside member applies.1 done applies.2]

omit responds in
/-- What a stage answers is the value of the operation in it, if a return address gets its own
sign. -/
theorem stage_written {stage : Stage} {sign : Pc} {flush : Bool} (staged : observed.Staged stage)
    (agrees : stage.issued.entry.aluJump = true → sign.msb = stage.issued.entry.nextPc.msb) :
    (Alu.done stage sign flush).wrbData =
      Alu.written (observed.source stage.issued.robIndex).toRobOp stage.issued.rs1Data
        stage.issued.rs2Data := by
  have fields : stage.issued.entry.toRobOp = (observed.source stage.issued.robIndex).toRobOp := by
    rw [staged.entry]
    exact settled.copied _ staged.pending.1
  rw [← fields, Alu.written]
  change (if stage.issued.entry.aluJump = true then _ else _) = _
  by_cases jump : stage.issued.entry.aluJump = true
  · rw [if_pos jump, if_pos jump]
    exact (linkData_eq_signExtend_iff _ _).mpr (agrees jump)
  · rw [if_neg jump, if_neg jump]

variable (window : Rcu.Window observed.rcu length) (quiet : observed.processor.flush = false)

include window quiet

omit responds in
/-- A completion of an arithmetic unit produces its operation's value. -/
theorem stage_produces (responds : Responds observed input) {position : Nat} {stage : Stage}
    {completion : AluDone} {sign : Pc}
    (from_stage : completion = Alu.done stage sign observed.processor.flush)
    (member : completion.toFuDone ∈ (observed.processor.rcuInput input).completions)
    (staged : observed.Staged stage)
    (agrees : stage.issued.entry.aluJump = true → sign.msb = stage.issued.entry.nextPc.msb)
    (done : completion.done = true)
    (inside : observed.commitCount input + position < length)
    (stays : stage.issued.robIndex ∉ observed.rcu.leaving (observed.processor.rcuInput input))
    (reads : (observed.source stage.issued.robIndex).Reads
      (observed.valuesBefore (observed.commitCount input + position)) stage.issued.rs1Data
      stage.issued.rs2Data) :
    (observed.step input).Produces position stage.issued.robIndex := by
  obtain ⟨-, source, result, -⟩ := step_kept quiet staged.pending.1 stays
  have own : completion.robIndex = stage.issued.robIndex := by
    rw [from_stage]
    rfl
  refine ⟨completion.wrbData, ?_, fun _ => ⟨stage.issued.rs1Data, stage.issued.rs2Data, ?_, ?_⟩⟩
  · rw [result, ← own]
    exact currentResult_completion settled responds member done
  · rw [source, step_valuesBefore window quiet]
    exact Decoded.Reads.refine reads
      (valuesBefore_kept window settled responds (Nat.le_of_lt inside))
  · rw [source, from_stage]
    exact stage_written settled staged agrees

/-- A cycle without a flush keeps the values. -/
theorem step_valued (executes : Executes observed length) (valued : Valued observed length)
    (agrees : observed.LinksAgree) :
    Valued (observed.step input)
      (length - observed.commitCount input + observed.writeCount input) := by
  have leave : observed.commitCount input ≤ length :=
    window.commit_room (observed.processor.rcuInput input)
  have enter : length + observed.writeCount input ≤ 16 :=
    window.write_room (observed.processor.rcuInput input)
  have window' : Rcu.Window (observed.step input).rcu
      (length - observed.commitCount input + observed.writeCount input) :=
    Rcu.step_window window (observed.processor.rcuInput input) quiet
  intro position below finished active
  have used' := slot_used window' below
  rw [step_head quiet, advance_advance] at finished active used' ⊢
  rcases step_used_cases quiet used' with ⟨used, stays⟩ | ⟨instruction, enters⟩
  · have inside : observed.commitCount input + position < length := by
      obtain ⟨place, low, same⟩ := (mem_slots _ _ _).mp ((window.used _).mp used)
      have equal := advance_injective observed.rcu.cmtRobIndex (by omega) (by omega) same
      omega
    obtain ⟨-, source, result, finish⟩ := step_kept quiet used stays
    rw [source] at active
    rcases finish.mp finished with before | completes
    · -- Executed earlier: the value stays.
      obtain ⟨value, known, computed⟩ := valued _ inside before active
      refine ⟨value, ?_, fun arithmetic => ?_⟩
      · rw [result, currentResult_finished settled responds before]
        exact known
      · rw [source] at arithmetic ⊢
        obtain ⟨rs1, rs2, reads, same⟩ := computed arithmetic
        refine ⟨rs1, rs2, ?_, same⟩
        rw [step_valuesBefore window quiet]
        exact Decoded.Reads.refine reads
          (valuesBefore_kept window settled responds (Nat.le_of_lt inside))
    · by_cases arithmetic : (observed.source
          (advance observed.rcu.cmtRobIndex (observed.commitCount input + position))).arithmetic =
        true
      · -- Executed now, by one of the two units.
        rcases completes_arithmetic settled responds completes arithmetic with
          ⟨done, own⟩ | ⟨done, own⟩
        · have valid : observed.issue.alu1.valid = true := (Bool.and_eq_true _ _ |>.mp done).1
          have own : observed.issue.alu1.issued.robIndex = _ := own
          have reads := executes.alu1 _ inside valid own
          rw [← own] at stays reads ⊢
          exact stage_produces settled window quiet responds
            (show observed.processor.alu1Done = _ from rfl) List.mem_cons_self
            (settled.alu1 valid).1 (fun _ => rfl) done inside stays reads
        · have valid : observed.issue.alu2.valid = true := (Bool.and_eq_true _ _ |>.mp done).1
          have own : observed.issue.alu2.issued.robIndex = _ := own
          have reads := executes.alu2 _ inside valid own
          rw [← own] at stays reads ⊢
          exact stage_produces settled window quiet responds
            (show observed.processor.alu2Done = _ from rfl)
            (List.mem_cons_of_mem _ List.mem_cons_self) (settled.alu2 valid).1 (agrees valid) done
            inside stays reads
      · -- The other units bring what they answer.
        obtain ⟨completion, member, done, own⟩ := completes
        refine ⟨completion.wrbData, ?_, fun executed => ?_⟩
        · rw [result, ← own]
          exact currentResult_completion settled responds member done
        · rw [source] at executed
          exact absurd executed arithmetic
  · -- What enters finished skips execution.
    obtain ⟨-, -, -, -, source, -, finish, -⟩ :=
      step_entered quiet window settled responds enters
    rw [source] at active
    exact absurd ((finish.mp finished).symm.trans active) (by decide)

end Step

theorem valued_empty (observed : Observed) : Valued observed 0 :=
  fun _ below => absurd below (Nat.not_lt_zero _)

end Observed

end GreenRio
