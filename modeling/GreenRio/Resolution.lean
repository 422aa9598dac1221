import GreenRio.Settled

set_option autoImplicit false

namespace GreenRio

open Circular Counter Fifo

/-- The operands of an instruction are the values of the registers it names. -/
structure Decoded.Reads (instruction : Decoded) (registers : ArchReg → Option Word)
    (rs1 rs2 : Word) : Prop where
  rs1 : instruction.usesRs1 = true → registers instruction.rs1Address = some rs1
  rs2 : instruction.usesRs2 = true → registers instruction.rs2Address = some rs2

/-- The sum an indirect jump goes to is even. -/
def RobOp.EvenTarget (op : RobOp) (rs1 : Word) : Prop :=
  op.aluJump = true → op.aluSelectA = 0b00 → (rs1 + op.immData.signExtend 64).getLsbD 0 = false

namespace Observed

variable {observed : Observed} {input : ProcessorInput} {length : Nat} {free : List PhyReg}
  {past : List (Write 32 PhyReg Word)}

/-- How many entries leave and enter the window in a cycle. -/
def commitCount (observed : Observed) (input : ProcessorInput) : Nat :=
  amount (observed.rcu.doRobCommitFirst (observed.processor.rcuInput input))
    (observed.rcu.doRobCommitSecond (observed.processor.rcuInput input))

def writeCount (observed : Observed) (input : ProcessorInput) : Nat :=
  amount (observed.rcu.doRobWriteFirst (observed.processor.rcuInput input))
    (observed.rcu.doRobWriteSecond (observed.processor.rcuInput input))

/-- The registers in front of a position of the window. -/
def valuesBefore (observed : Observed) (position : Nat) : ArchReg → Option Word :=
  Write.replay observed.registers
    ((slots observed.rcu.cmtRobIndex position).map (observed.tracked.write observed.result))

/-- What an arithmetic unit has left behind for an operation it executed. -/
structure Resolves (observed : Observed) (position : Nat) (index : RobIndex) (rs1 rs2 : Word) :
    Prop where
  reads : (observed.source index).Reads (observed.valuesBefore position) rs1 rs2
  even : (observed.source index).EvenTarget rs1
  miss : observed.rcu.robPredictMiss index =
    (Alu.finalNextPc (observed.source index).toRobOp rs1 rs2 !=
      (observed.source index).predictPc)
  final : observed.rcu.robFinalBranchPc index =
    if (observed.source index).aluBranch || (observed.source index).aluJump
    then Alu.finalNextPc (observed.source index).toRobOp rs1 rs2
    else (observed.source index).pc

/-- The operations in the arithmetic stages hold the values of their registers, and those that
are finished were checked with them. -/
structure Executes (observed : Observed) (length : Nat) : Prop where
  alu1 : ∀ position < length, observed.issue.alu1.valid = true →
    observed.issue.alu1.issued.robIndex = advance observed.rcu.cmtRobIndex position →
    (observed.source (advance observed.rcu.cmtRobIndex position)).Reads
      (observed.valuesBefore position) observed.issue.alu1.issued.rs1Data
      observed.issue.alu1.issued.rs2Data
  alu2 : ∀ position < length, observed.issue.alu2.valid = true →
    observed.issue.alu2.issued.robIndex = advance observed.rcu.cmtRobIndex position →
    (observed.source (advance observed.rcu.cmtRobIndex position)).Reads
      (observed.valuesBefore position) observed.issue.alu2.issued.rs1Data
      observed.issue.alu2.issued.rs2Data
  resolved : ∀ position < length,
    observed.rcu.robFinish (advance observed.rcu.cmtRobIndex position) = true →
    (observed.source (advance observed.rcu.cmtRobIndex position)).arithmetic = true →
    (observed.source (advance observed.rcu.cmtRobIndex position)).exception = false →
    ∃ rs1 rs2, observed.Resolves position (advance observed.rcu.cmtRobIndex position) rs1 rs2

/-- The jumps in the arithmetic stages go to even addresses. -/
def JumpsEven (observed : Observed) : Prop :=
  ∀ stage, stage = observed.issue.alu1 ∨ stage = observed.issue.alu2 → stage.valid = true →
    stage.issued.entry.EvenTarget stage.issued.rs1Data

theorem Decoded.Reads.refine {instruction : Decoded} {before after : ArchReg → Option Word}
    {rs1 rs2 : Word} (reads : instruction.Reads before rs1 rs2)
    (kept : ∀ name value, before name = some value → after name = some value) :
    instruction.Reads after rs1 rs2 :=
  ⟨fun uses => kept _ _ (reads.rs1 uses), fun uses => kept _ _ (reads.rs2 uses)⟩

/-- Slots of the window are in use. -/
theorem slot_used (window : Rcu.Window observed.rcu length) {position : Nat}
    (inside : position < length) :
    observed.rcu.robUsed (advance observed.rcu.cmtRobIndex position) = true := by
  rw [window.used, mem_slots]
  exact ⟨position, inside, rfl⟩

/-- The head moves past what leaves. -/
theorem step_head (quiet : observed.processor.flush = false) :
    (observed.step input).rcu.cmtRobIndex =
      advance observed.rcu.cmtRobIndex (observed.commitCount input) := by
  have fault : observed.rcu.globalSpeculateFault (observed.processor.rcuInput input) = false := quiet
  simp only [step_rcu, Rcu.step, fault, Bool.false_eq_true, ↓reduceIte, next_eq_advance]
  rfl

section Step

variable (window : Rcu.Window observed.rcu length) (settled : Settled observed)
  (responds : Responds observed input) (quiet : observed.processor.flush = false)

include window settled responds quiet

omit settled responds in
/-- The registers in front of a position after the cycle, counted from the old head. -/
theorem step_valuesBefore (position : Nat) :
    (observed.step input).valuesBefore position =
      Write.replay observed.registers
        ((slots observed.rcu.cmtRobIndex
          (observed.commitCount input + position)).map
          ((observed.step input).tracked.write (observed.step input).result)) := by
  have fault : observed.rcu.globalSpeculateFault (observed.processor.rcuInput input) = false := quiet
  have registers : (observed.step input).registers = Write.replay observed.registers
      (observed.tracked.commits (observed.processor.rcuInput input)) := rfl
  rw [valuesBefore, registers, step_head quiet, Tracked.Tracks.commits_eq _ fault, ← Write.replay_append,
    slots_take, List.map_append]
  congr 2
  apply List.map_congr_left
  intro index leaves
  have used := window.leaving_used (observed.processor.rcuInput input) leaves
  rw [step_tracked]
  change _ = (observed.tracked.step (observed.processor.backendInput input)).write
    (observed.tracked.step (observed.processor.backendInput input)).result index
  rw [Tracked.step_write]
  exact (Rcu.dispatchInto_used _ used _ _ _).symm

omit window quiet in
/-- A slot in use keeps the value it has. -/
theorem step_write_kept {index : RobIndex} (used : observed.rcu.robUsed index = true) :
    ((observed.tracked.write observed.result) index).rd =
        ((observed.step input).tracked.write (observed.step input).result index).rd ∧
      ∀ value, (observed.tracked.write observed.result index).result = some value →
        ((observed.step input).tracked.write (observed.step input).result index).result =
          some value := by
  have after : (observed.step input).tracked.write (observed.step input).result index =
      observed.tracked.write
        (observed.tracked.currentResult (observed.processor.rcuInput input)) index := by
    change (observed.tracked.step (observed.processor.backendInput input)).write
      (observed.tracked.step (observed.processor.backendInput input)).result index = _
    rw [Tracked.step_write]
    exact Rcu.dispatchInto_used _ used _ _ _
  rw [after]
  refine ⟨rfl, fun value known => ?_⟩
  change observed.result index = some value at known
  change observed.tracked.currentResult (observed.processor.rcuInput input) index = some value
  rw [Tracked.currentResult, Override.foldl_none]
  · exact known
  · intro completion member
    by_contra done
    simp only [Bool.not_eq_false, Bool.and_eq_true, beq_iff_eq] at done
    have pending := settled.completes_pending responds ⟨completion, member, done.1, done.2⟩
    simp [settled.valued index used pending.2.2] at known

omit quiet in
/-- What is known in front of a position stays known. -/
theorem valuesBefore_kept {position : Nat} (inside : position ≤ length) (name : ArchReg)
    (value : Word) (known : observed.valuesBefore position name = some value) :
    Write.replay observed.registers
      ((slots observed.rcu.cmtRobIndex position).map
        ((observed.step input).tracked.write (observed.step input).result)) name = some value := by
  have used : ∀ index ∈ slots observed.rcu.cmtRobIndex position,
      observed.rcu.robUsed index = true := by
    intro index member
    obtain ⟨step, below, rfl⟩ := (mem_slots _ _ _).mp member
    exact slot_used window (by omega)
  apply Write.replay_refine _ _ _ _ _ _ name value known
  · exact fun index member =>
      (step_write_kept settled responds (used index member)).1
  · exact fun index member =>
      (step_write_kept settled responds (used index member)).2

omit window quiet in
/-- An operation on a select port reads the registers in front of its position. -/
theorem issued_reads (tracks : Tracked.Tracks observed.tracked past length free)
    (linked : observed.registers = Write.replay (fun _ => some 0) past) {issued : Issued}
    (member : issued ∈ observed.processor.backend.issues (observed.processor.rcuInput input)) :
    ∃ position,
      position < length + observed.writeCount input ∧
      issued.robIndex = advance observed.rcu.cmtRobIndex position ∧
      ((observed.step input).source issued.robIndex).Reads
        (Write.replay observed.registers
          ((slots observed.rcu.cmtRobIndex position).map
            ((observed.step input).tracked.write (observed.step input).result)))
        issued.rs1Data issued.rs2Data := by
  have units : Tracked.FunctionUnits observed.tracked
      (observed.processor.backendInput input).toRcuInput := settled.functionUnits responds
  obtain ⟨older, op, younger, split, slot, rs1, rs2⟩ := tracks.issued_reads units member
  rw [tracks.inFlight_window] at split
  obtain ⟨below, front, here⟩ := window_split split
  refine ⟨older.length, below, ?_, ?_⟩
  · rw [← slot, here]
    rfl
  · have source : (observed.step input).source issued.robIndex = op.instruction := by
      rw [← slot, here]
      rfl
    have writes : (slots observed.rcu.cmtRobIndex older.length).map
        ((observed.step input).tracked.write (observed.step input).result) =
        older.map Tracked.InFlight.write := by
      conv_rhs => rw [front, window, List.map_map]
      rfl
    rw [source, writes, linked, ← Write.replay_append]
    exact ⟨rs1, rs2⟩

omit window quiet in
/-- Arithmetic operations are completed by the arithmetic units alone. -/
theorem completes_arithmetic {index : RobIndex}
    (completes : (observed.processor.rcuInput input).Completes index)
    (arithmetic : (observed.source index).arithmetic = true) :
    (observed.processor.alu1Done.done = true ∧ observed.processor.alu1Done.robIndex = index) ∨
      (observed.processor.alu2Done.done = true ∧ observed.processor.alu2Done.robIndex = index) := by
  have used := (settled.completes_pending responds completes).1
  obtain ⟨csr, md, memory⟩ := settled.functionClass_eq used
  have class1 : (observed.rcu.rob index).functionClass = .alu := by
    rw [← settled.copied index used] at arithmetic
    exact if_pos arithmetic
  rw [class1] at csr md memory
  obtain ⟨completion, member, done, rfl⟩ := completes
  simp only [RcuInput.completions, List.mem_cons, List.not_mem_nil, or_false] at member
  rcases member with rfl | rfl | rfl | rfl | rfl
  · exact Or.inl ⟨done, rfl⟩
  · exact Or.inr ⟨done, rfl⟩
  · exact absurd (md (responds.md done).2.1) (by simp)
  · exact absurd (memory (responds.lsu done).2.1) (by simp)
  · obtain ⟨staged, isCsr⟩ := settled.csr done
    rw [staged.entry] at isCsr
    exact absurd (csr isCsr) (by simp)

omit window in
/-- The flag and the address that the only arithmetic completion of a slot leaves there. -/
theorem step_resolution {index : RobIndex}
    (stays : index ∉ observed.rcu.leaving (observed.processor.rcuInput input))
    {completion : AluDone} (isAlu : completion = observed.processor.alu1Done ∨
      completion = observed.processor.alu2Done) (done : completion.done = true)
    (own : completion.robIndex = index)
    (only : ∀ other, other = observed.processor.alu1Done ∨ other = observed.processor.alu2Done →
      other.done = true → other.robIndex = index → other = completion) :
    (observed.step input).rcu.robPredictMiss index = completion.predictMiss ∧
      (observed.step input).rcu.robFinalBranchPc index =
        observed.rcu.finalBranchPc completion := by
  have fault : observed.rcu.globalSpeculateFault (observed.processor.rcuInput input) = false := quiet
  have pending : observed.Pending index := by
    apply settled.completes_pending responds
    rcases isAlu with rfl | rfl
    · exact ⟨_, List.mem_cons_self, done, own⟩
    · exact ⟨_, List.mem_cons_of_mem _ List.mem_cons_self, done, own⟩
  have unmissed : ¬ observed.rcu.robPredictMiss index = true := by
    intro miss
    exact absurd ((settled.missed index miss).2.1.symm.trans pending.2.2) (by simp)
  constructor
  · rw [Bool.eq_iff_iff, step_rcu, Rcu.step_predictMiss_iff observed.rcu _ fault]
    constructor
    · rintro ⟨miss | ⟨other, either, did, miss, same⟩, -⟩
      · exact absurd miss unmissed
      · rw [only other either did same] at miss
        exact miss
    · exact fun miss => ⟨Or.inr ⟨completion, isAlu, done, miss, own⟩, stays⟩
  · change writeIf _ (writeIf _ _ _ _) _ _ index = _
    rw [writeIf_apply, writeIf_apply]
    split_ifs with second first
    · rw [← only _ (Or.inr rfl) second.1 second.2.symm]
      rfl
    · rw [← only _ (Or.inl rfl) first.1 first.2.symm]
      rfl
    · rcases isAlu with rfl | rfl
      · exact absurd ⟨done, own.symm⟩ first
      · exact absurd ⟨done, own.symm⟩ second

omit window in
/-- Without a completion the slot keeps both. -/
theorem step_unresolved {index : RobIndex}
    (stays : index ∉ observed.rcu.leaving (observed.processor.rcuInput input))
    (finished : observed.rcu.robFinish index = true) :
    (observed.step input).rcu.robPredictMiss index = observed.rcu.robPredictMiss index ∧
      (observed.step input).rcu.robFinalBranchPc index = observed.rcu.robFinalBranchPc index := by
  have fault : observed.rcu.globalSpeculateFault (observed.processor.rcuInput input) = false := quiet
  have incomplete : ∀ other : AluDone, other = observed.processor.alu1Done ∨
      other = observed.processor.alu2Done → ¬ (other.done = true ∧ other.robIndex = index) := by
    rintro other isAlu ⟨done, own⟩
    have pending : observed.Pending index := by
      apply settled.completes_pending responds
      rcases isAlu with rfl | rfl
      · exact ⟨_, List.mem_cons_self, done, own⟩
      · exact ⟨_, List.mem_cons_of_mem _ List.mem_cons_self, done, own⟩
    exact absurd (finished.symm.trans pending.2.2) (by simp)
  constructor
  · rw [Bool.eq_iff_iff, step_rcu, Rcu.step_predictMiss_iff observed.rcu _ fault]
    constructor
    · rintro ⟨miss | ⟨other, either, did, -, same⟩, -⟩
      · exact miss
      · exact absurd ⟨did, same⟩ (incomplete other either)
    · exact fun miss => ⟨Or.inl miss, stays⟩
  · change writeIf _ (writeIf _ _ _ _) _ _ index = _
    rw [writeIf_apply, writeIf_apply]
    split_ifs with second first
    · exact absurd ⟨second.1, second.2.symm⟩ (incomplete _ (Or.inr rfl))
    · exact absurd ⟨first.1, first.2.symm⟩ (incomplete _ (Or.inl rfl))
    · rfl

section Executes

variable (executes : Executes observed length)
  (tracks : Tracked.Tracks observed.tracked past length free)
  (linked : observed.registers = Write.replay (fun _ => some 0) past)

include tracks linked

/-- What the stages read after a cycle. -/
theorem stage_reads {stage : Stage} {port : Option Issued} {accepts : RobEntry → Bool}
    (inside : ∀ issued, port = some issued →
      issued ∈ observed.processor.backend.issues (observed.processor.rcuInput input))
    (valid : (Backend.loadStage stage port accepts false).valid = true) {position : Nat}
    (below : position < length - observed.commitCount input + observed.writeCount input)
    (here : (Backend.loadStage stage port accepts false).issued.robIndex =
      advance (observed.step input).rcu.cmtRobIndex position) :
    ((observed.step input).source (advance (observed.step input).rcu.cmtRobIndex position)).Reads
      ((observed.step input).valuesBefore position)
      (Backend.loadStage stage port accepts false).issued.rs1Data
      (Backend.loadStage stage port accepts false).issued.rs2Data := by
  have leave : observed.commitCount input ≤ length :=
    window.commit_room (observed.processor.rcuInput input)
  have enter : length + observed.writeCount input ≤ 16 :=
    window.write_room (observed.processor.rcuInput input)
  have member := inside _ (Backend.loadStage_valid valid).1
  obtain ⟨place, low, slot, reads⟩ := issued_reads settled responds tracks linked member
  rw [← here, step_valuesBefore window quiet]
  rw [here, step_head quiet, advance_advance] at slot
  have same := advance_injective observed.rcu.cmtRobIndex (by omega) (by omega) slot
  rw [← same] at reads
  exact reads

omit tracks linked in
/-- An operation that its stage completes in this cycle is checked with the values it holds. -/
theorem stage_resolves {position : Nat} {stage : Stage} {completion : AluDone} {sign : Pc}
    (isAlu : completion = observed.processor.alu1Done ∨ completion = observed.processor.alu2Done)
    (from_stage : completion = Alu.done stage sign observed.processor.flush)
    (staged : observed.Staged stage) (even : stage.issued.entry.EvenTarget stage.issued.rs1Data)
    (done : completion.done = true)
    (inside : observed.commitCount input + position < length)
    (stays : stage.issued.robIndex ∉ observed.rcu.leaving (observed.processor.rcuInput input))
    (reads : (observed.source stage.issued.robIndex).Reads
      (observed.valuesBefore (observed.commitCount input + position)) stage.issued.rs1Data
      stage.issued.rs2Data)
    (only : ∀ other, other = observed.processor.alu1Done ∨ other = observed.processor.alu2Done →
      other.done = true → other.robIndex = stage.issued.robIndex → other = completion) :
    (observed.step input).Resolves position stage.issued.robIndex stage.issued.rs1Data
      stage.issued.rs2Data := by
  have used := staged.pending.1
  obtain ⟨-, source, -, -⟩ := step_kept quiet used stays
  have own : completion.robIndex = stage.issued.robIndex := by rw [from_stage]; rfl
  obtain ⟨miss, final⟩ := step_resolution settled responds quiet stays isAlu done own only
  have fields : stage.issued.entry.toRobOp = (observed.source stage.issued.robIndex).toRobOp := by
    rw [staged.entry]
    exact settled.copied _ used
  refine ⟨?_, ?_, ?_, ?_⟩
  · rw [source, step_valuesBefore window quiet]
    exact Decoded.Reads.refine reads
      (valuesBefore_kept window settled responds (Nat.le_of_lt inside))
  · rw [source, ← fields]
    exact even
  · rw [source, miss, from_stage, ← fields]
    rfl
  · rw [source, final, Rcu.finalBranchPc, own, ← fields, from_stage, ← staged.entry]
    rfl

/-- A cycle without a flush keeps what the executed operations have seen. -/
theorem step_executes (executes : Executes observed length) (even : observed.JumpsEven)
    (offered : Offered observed input) :
    Executes (observed.step input)
      (length - observed.commitCount input + observed.writeCount input) := by
  have leave : observed.commitCount input ≤ length :=
    window.commit_room (observed.processor.rcuInput input)
  have enter : length + observed.writeCount input ≤ 16 :=
    window.write_room (observed.processor.rcuInput input)
  have window' : Rcu.Window (observed.step input).rcu
      (length - observed.commitCount input + observed.writeCount input) :=
    Rcu.step_window window (observed.processor.rcuInput input) quiet
  obtain ⟨alu1, alu2, -⟩ := step_stages input quiet
  refine ⟨fun position below => ?_, fun position below => ?_, ?_⟩
  · rw [alu1]
    exact fun valid here => stage_reads window settled responds quiet tracks linked
      (fun _ => Backend.selectFirst_mem) valid below here
  · rw [alu2]
    exact fun valid here => stage_reads window settled responds quiet tracks linked
      (fun _ => Backend.selectSecond_mem) valid below here
  · intro position below finished arithmetic calm
    have used' := slot_used window' below
    rw [step_head quiet, advance_advance] at finished arithmetic calm used' ⊢
    rcases step_used_cases quiet used' with ⟨used, stays⟩ | ⟨instruction, enters⟩
    · have inside : observed.commitCount input + position < length := by
        obtain ⟨place, low, same⟩ := (mem_slots _ _ _).mp ((window.used _).mp used)
        have equal := advance_injective observed.rcu.cmtRobIndex (by omega) (by omega) same
        omega
      obtain ⟨-, source, -, finish⟩ := step_kept quiet used stays
      rw [source] at arithmetic calm
      rcases finish.mp finished with before | completes
      · -- Executed earlier: nothing it left behind changes.
        obtain ⟨rs1, rs2, resolves⟩ := executes.resolved _ inside before arithmetic calm
        obtain ⟨miss, final⟩ := step_unresolved settled responds quiet stays before
        refine ⟨rs1, rs2, ?_, by rw [source]; exact resolves.even, ?_, ?_⟩
        · rw [source, step_valuesBefore window quiet]
          exact Decoded.Reads.refine resolves.reads
            (valuesBefore_kept window settled responds (Nat.le_of_lt inside))
        · rw [source, miss]
          exact resolves.miss
        · rw [source, final]
          exact resolves.final
      · -- Executed now, by one of the two units.
        rcases completes_arithmetic settled responds completes arithmetic with
          ⟨done, own⟩ | ⟨done, own⟩
        · have valid : observed.issue.alu1.valid = true := (Bool.and_eq_true _ _ |>.mp done).1
          have own : observed.issue.alu1.issued.robIndex = _ := own
          rw [← own] at stays ⊢
          refine ⟨_, _, stage_resolves window settled responds quiet (Or.inl rfl) rfl
            (settled.alu1 valid).1 (even _ (Or.inl rfl) valid) done inside stays ?_ ?_⟩
          · rw [own]
            exact executes.alu1 _ inside valid own
          · rintro other (rfl | rfl) did same
            · rfl
            · exact absurd same.symm
                (settled.apart valid (Bool.and_eq_true _ _ |>.mp did).1)
        · have valid : observed.issue.alu2.valid = true := (Bool.and_eq_true _ _ |>.mp done).1
          have own : observed.issue.alu2.issued.robIndex = _ := own
          rw [← own] at stays ⊢
          refine ⟨_, _, stage_resolves window settled responds quiet (Or.inr rfl) rfl
            (settled.alu2 valid).1 (even _ (Or.inr rfl) valid) done inside stays ?_ ?_⟩
          · rw [own]
            exact executes.alu2 _ inside valid own
          · rintro other (rfl | rfl) did same
            · exact absurd same (settled.apart (Bool.and_eq_true _ _ |>.mp did).1 valid)
            · rfl
    · -- An arithmetic operation does not enter finished unless it carries an exception.
      obtain ⟨-, -, -, -, source, -, finish, -⟩ :=
        step_entered quiet window settled responds enters
      have skips := finish.mp finished
      have proper := (offered.entered enters).1
      rw [source] at arithmetic calm
      simp only [RobOp.arithmetic, Bool.and_eq_true] at arithmetic
      obtain ⟨-, -, -, mret, sret, wfi⟩ := proper.apart arithmetic.1
      simp [Decoded.skips, calm, mret, sret, wfi] at skips

end Executes

end Step

/-- After a flush there is nothing to say. -/
theorem executes_empty (observed : Observed) : Executes observed 0 :=
  ⟨fun _ below => absurd below (Nat.not_lt_zero _), fun _ below => absurd below (Nat.not_lt_zero _),
    fun _ below => absurd below (Nat.not_lt_zero _)⟩

end Observed

end GreenRio
