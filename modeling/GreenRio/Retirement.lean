import GreenRio.ControlFlow

set_option autoImplicit false

namespace GreenRio

open Circular Counter Fifo Trace

/-- An operation leads where fetch predicted it to lead. -/
def RobOp.predicted (op : RobOp) : Event Pc := .execute op.pc (some op.predictPc)

namespace Observed

/-- The instruction at a position of the window, retired with the registers in front of it. -/
def executed (observed : Observed) (position : Nat) : Event Pc :=
  .execute (observed.rcu.rob (advance observed.rcu.cmtRobIndex position)).pc
    ((observed.source (advance observed.rcu.cmtRobIndex position)).successor
      (observed.valuesBefore position))

/-- What the program counter of the program does in a cycle. A trap diverts to the trap vector, an
`xRET` retires and leads to its `xepc`, a mispredicted branch retires alone, and an operation that
is no branch is flushed with what follows it. -/
def events (observed : Observed) (input : ProcessorInput) : List (Event Pc) :=
  if observed.processor.trap then
    [.divert ((observed.processor.csr.tvecOut
      (observed.processor.hart.csrInput (observed.processor.hartInput input))).setWidth 39)]
  else if observed.processor.core.globalRet then
    [.execute observed.rcu.headFirst.pc (some (if observed.rcu.headFirst.mret
      then observed.processor.csr.mepc.setWidth 39 else observed.processor.csr.sepc.setWidth 39))]
  else if observed.rcu.predictMiss then
    if !observed.rcu.dffCmtMissDelay && observed.rcu.headFirst.aluBranch then [observed.executed 0]
    else []
  else (List.range (observed.commitCount input)).map observed.executed

/-- The operations in flight and in the decode queue, as fetch predicted them. -/
def stream (observed : Observed) (waiting : List Decoded) : List (Event Pc) :=
  (Rcu.inUse observed.rcu).map (fun entry => entry.toRobOp.predicted) ++
    waiting.map (fun instruction => instruction.toRobOp.predicted)

/-- A redirection of fetch by the branch target buffer agrees with the fall-through address, or
belongs to a second instruction that is handed over and whose prediction is compared. -/
def Foreseen (observed : Observed) (input : ProcessorInput) : Prop :=
  input.buffer.insHit = true →
    input.predictors.predictPcFromPred observed.processor.pc = true →
    input.predictors.nextPcOut observed.processor.pc =
        Fetch.sequentialPc input.buffer observed.processor.pc
          (observed.processor.firstValid input) (observed.processor.secondValid input) ∨
      (observed.processor.secondValid input = true ∧
        (observed.processor.coreInput input).supply.second.checked = true)

/-- The cycles in which none of the defects shows: the units with a latency answer for pending
operations, indirect jumps go to even addresses, and redirections are foreseen. -/
structure Benign (observed : Observed) (input : ProcessorInput) : Prop where
  responds : Responds observed input
  even : observed.JumpsEven
  foreseen : observed.processor.flush = false → Foreseen observed input

instance (op : RobOp) (rs1 : Word) : Decidable (op.EvenTarget rs1) :=
  inferInstanceAs (Decidable (_ → _ → _))

instance (observed : Observed) : Decidable observed.JumpsEven :=
  decidable_of_iff
    ((observed.issue.alu1.valid = true →
        observed.issue.alu1.issued.entry.EvenTarget observed.issue.alu1.issued.rs1Data) ∧
      (observed.issue.alu2.valid = true →
        observed.issue.alu2.issued.entry.EvenTarget observed.issue.alu2.issued.rs1Data))
    ⟨fun both stage which => by rcases which with rfl | rfl; exacts [both.1, both.2],
      fun even => ⟨even _ (Or.inl rfl), even _ (Or.inr rfl)⟩⟩

instance (observed : Observed) (input : ProcessorInput) : Decidable (Foreseen observed input) :=
  inferInstanceAs (Decidable (_ → _ → _ ∨ _ ∧ _))

instance (observed : Observed) (input : ProcessorInput) : Decidable (Benign observed input) :=
  decidable_of_iff (Responds observed input ∧ observed.JumpsEven ∧
      (observed.processor.flush = false → Foreseen observed input))
    ⟨fun ⟨responds, even, foreseen⟩ => ⟨responds, even, foreseen⟩,
      fun benign => ⟨benign.responds, benign.even, benign.foreseen⟩⟩

/-- The invariant: from `expected`, the address the program has reached, the predictions recorded
for what is in flight lead to the fetch address, unless a mispredicted jump has just retired. -/
structure Steady (observed : Observed) (expected : Pc) (length : Nat) (free : List PhyReg)
    (past : List (Write 32 PhyReg Word)) (waiting : List Decoded) : Prop where
  tracks : Tracked.Tracks observed.tracked past length free
  linked : observed.registers = Write.replay (fun _ => some 0) past
  settled : Settled observed
  executes : Executes observed length
  queued : observed.processor.fifo.Contains waiting
  promised : ∀ instruction ∈ waiting, instruction.Proper ∧ instruction.Guarded
  delayed : observed.rcu.dffCmtMissDelay = true → expected = observed.rcu.dff.finalPcFirst
  leads : observed.rcu.dffCmtMissDelay = false →
    Follows expected (observed.stream waiting) observed.processor.pc

variable {observed : Observed} {input : ProcessorInput} {expected : Pc} {length : Nat}
  {free : List PhyReg} {past : List (Write 32 PhyReg Word)} {waiting : List Decoded}

theorem reset_steady :
    Steady reset Fetch.resetVector 0 Rcu.physicalRegisters [] [] :=
  ⟨Tracked.reset_tracks, rfl, reset_settled, executes_empty _, F2if2o.reset_contains _, by simp,
    fun delay => absurd delay (by decide), fun _ => rfl⟩

theorem secondValid_first (queued : observed.processor.fifo.Contains waiting)
    (second : observed.processor.secondValid input = true) :
    observed.processor.firstValid input = true := by
  obtain ⟨full, almostFull⟩ := @Core.full_room observed.processor.core _ queued
  simp only [Processor.secondValid, Processor.firstValid, Core.doubleReady, Core.singleReady,
    Bool.and_eq_true, Bool.not_eq_true'] at second ⊢
  refine ⟨⟨input.buffer.ordered second.1.1, second.1.2⟩, ?_, second.2.2⟩
  rw [full]
  have room := almostFull.mp second.2.1
  omega

/-- What fetch hands over, with the addresses it records. -/
theorem pushed_eq (observed : Observed) (input : ProcessorInput) :
    (observed.processor.core.pushed (observed.processor.coreInput input)).map
        (fun instruction => instruction.toRobOp.predicted) =
      accepted (observed.processor.firstValid input) (observed.processor.secondValid input)
        (.execute observed.processor.pc
          (some (Fetch.pcSecond input.buffer observed.processor.pc)))
        (.execute (Fetch.pcSecond input.buffer observed.processor.pc)
          (some (observed.processor.predictPc input))) := by
  have first := Decoder.decode_addresses observed.processor.hart.decodeMode input.lines
    (Fetch.fetchedFirst input.buffer observed.processor.pc)
  have second := Decoder.decode_addresses observed.processor.hart.decodeMode input.lines
    (Fetch.fetchedSecond input.buffer observed.processor.pc (observed.processor.predictPc input))
  simp only [Decoder.addresses, Prod.mk.injEq] at first second
  rw [Core.pushed, accepted_map]
  unfold RobOp.predicted
  congr 1
  · exact congrArg₂ (fun pc target => Event.execute pc (some target)) first.1 first.2.2
  · exact congrArg₂ (fun pc target => Event.execute pc (some target)) second.1 second.2.2

/-- Outside a flush the program counter follows the predictions of what fetch hands over. -/
theorem pushed_follows (queued : observed.processor.fifo.Contains waiting)
    (quiet : observed.processor.flush = false) (foreseen : Foreseen observed input) :
    Follows observed.processor.pc
      ((observed.processor.core.pushed (observed.processor.coreInput input)).map
        (fun instruction => instruction.toRobOp.predicted)) (observed.processor.pcNext input) := by
  have calm : observed.processor.trap = false ∧ observed.processor.core.globalRet = false ∧
      observed.processor.backend.rcu.predictMiss = false := by
    simp only [Processor.flush, Bool.or_eq_false_iff] at quiet
    exact ⟨quiet.1.2, quiet.1.1, quiet.2⟩
  have next : observed.processor.pcNext input =
      if input.buffer.insHit then observed.processor.predictPc input
      else observed.processor.pc := by
    simp [Processor.pcNext, calm]
  -- Without a second instruction the next address is the one behind what is handed over.
  have alone : input.buffer.insHit = true → observed.processor.secondValid input = false →
      observed.processor.predictPc input = Fetch.sequentialPc input.buffer observed.processor.pc
        (observed.processor.firstValid input) false := by
    intro hit single
    rw [Processor.predictPc, Fetch.predictPc, single]
    split
    · rename_i redirected
      rcases foreseen hit redirected with same | ⟨pair, -⟩
      · rw [same, single]
      · simp [single] at pair
    · rfl
  rw [pushed_eq, next]
  cases first : observed.processor.firstValid input
  · cases second : observed.processor.secondValid input
    · by_cases hit : input.buffer.insHit = true
      · rw [if_pos hit, alone hit second, first]
        rfl
      · rw [if_neg hit]
        rfl
    · simp [secondValid_first queued second] at first
  · have hit : input.buffer.insHit = true := by
      simp only [Processor.firstValid, Bool.and_eq_true] at first
      exact input.buffer.present first.1.1
    rw [if_pos hit]
    cases second : observed.processor.secondValid input
    · rw [alone hit second, first, Fetch.sequentialPc_first]
      simp [accepted]
    · simp [accepted]

/-- Everything fetch hands over keeps what decode promises. -/
theorem pushed_promised (foreseen : Foreseen observed input) {instruction : Decoded}
    (member : instruction ∈ observed.processor.core.pushed (observed.processor.coreInput input)) :
    instruction.Proper ∧ instruction.Guarded := by
  have first := Decoder.decode_addresses observed.processor.hart.decodeMode input.lines
    (Fetch.fetchedFirst input.buffer observed.processor.pc)
  have second := Decoder.decode_addresses observed.processor.hart.decodeMode input.lines
    (Fetch.fetchedSecond input.buffer observed.processor.pc (observed.processor.predictPc input))
  simp only [Decoder.addresses, Prod.mk.injEq] at first second
  rcases accepted_mem member with ⟨-, rfl⟩ | ⟨valid, rfl⟩
  · refine ⟨Decoder.decode_proper _ _ _, Or.inr ?_⟩
    exact first.2.2.trans first.2.1.symm
  · refine ⟨Decoder.decode_proper _ _ _, ?_⟩
    have pair : observed.processor.secondValid input = true := valid
    have hit : input.buffer.insHit = true := by
      simp only [Processor.secondValid, Bool.and_eq_true] at pair
      exact input.buffer.present (input.buffer.ordered pair.1.1)
    have sequential : Fetch.sequentialPc input.buffer observed.processor.pc
        (observed.processor.firstValid input) (observed.processor.secondValid input) =
          Fetch.pcSecond input.buffer observed.processor.pc + Fetch.size input.buffer.second := by
      rw [pair, Fetch.sequentialPc_pair]
    by_cases redirected : input.predictors.predictPcFromPred observed.processor.pc = true
    · rcases foreseen hit redirected with same | ⟨-, checked⟩
      · refine Or.inr (second.2.2.trans (Eq.trans ?_ second.2.1.symm))
        change Fetch.predictPc _ _ _ _ _ = _
        rw [Fetch.predictPc, if_pos redirected, same, sequential]
        rfl
      · exact Or.inl checked
    · refine Or.inr (second.2.2.trans (Eq.trans ?_ second.2.1.symm))
      change Fetch.predictPc _ _ _ _ _ = _
      rw [Fetch.predictPc, if_neg redirected, sequential]
      rfl

/-- A finished operation that an arithmetic unit found mispredicted leads to the address stored
for it, if it is a control transfer. -/
theorem executed_missed (settled : Settled observed) (executes : Executes observed length)
    {position : Nat} (inside : position < length)
    (miss : observed.rcu.robPredictMiss (advance observed.rcu.cmtRobIndex position) = true)
    (branch : (observed.rcu.rob (advance observed.rcu.cmtRobIndex position)).aluBranch = true) :
    observed.executed position =
      .execute (observed.rcu.rob (advance observed.rcu.cmtRobIndex position)).pc
        (some (observed.rcu.robFinalBranchPc (advance observed.rcu.cmtRobIndex position))) := by
  obtain ⟨used, finish, arithmetic, calm⟩ := settled.missed _ miss
  obtain ⟨rs1, rs2, resolves⟩ := executes.resolved position inside finish arithmetic calm
  have own : (observed.source (advance observed.rcu.cmtRobIndex position)).aluBranch = true :=
    (congrArg RobOp.aluBranch (settled.copied _ used)).symm.trans branch
  rw [executed, Decoded.successor_eq (settled.proper _ used).1 calm resolves.reads resolves.even,
    resolves.final, own, Bool.true_or, if_pos rfl]

/-- A mispredicted operation that is no control transfer is fetched again. -/
theorem missed_restarts (settled : Settled observed) (executes : Executes observed length)
    {position : Nat} (inside : position < length)
    (miss : observed.rcu.robPredictMiss (advance observed.rcu.cmtRobIndex position) = true)
    (plain : (observed.rcu.rob (advance observed.rcu.cmtRobIndex position)).aluBranch = false) :
    observed.rcu.robFinalBranchPc (advance observed.rcu.cmtRobIndex position) =
      (observed.rcu.rob (advance observed.rcu.cmtRobIndex position)).pc := by
  obtain ⟨used, finish, arithmetic, calm⟩ := settled.missed _ miss
  obtain ⟨rs1, rs2, resolves⟩ := executes.resolved position inside finish arithmetic calm
  have copied := settled.copied _ used
  have branch : (observed.source (advance observed.rcu.cmtRobIndex position)).aluBranch = false :=
    (congrArg RobOp.aluBranch copied).symm.trans plain
  have jump : (observed.source (advance observed.rcu.cmtRobIndex position)).aluJump = false := by
    by_contra jump
    simp [(settled.proper _ used).1.jump (by simpa using jump)] at branch
  rw [resolves.final, branch, jump, if_neg (by simp), copied]

/-- A finished operation that nothing was found wrong with leads where fetch predicted. -/
theorem executed_predicted (window : Rcu.Window observed.rcu length) (settled : Settled observed)
    (executes : Executes observed length) {position : Nat} (inside : position < length)
    (finish : observed.rcu.robFinish (advance observed.rcu.cmtRobIndex position) = true)
    (calm : observed.rcu.robExp (advance observed.rcu.cmtRobIndex position) = false)
    (mret : (observed.rcu.rob (advance observed.rcu.cmtRobIndex position)).mret = false)
    (sret : (observed.rcu.rob (advance observed.rcu.cmtRobIndex position)).sret = false)
    (hit : observed.rcu.robPredictMiss (advance observed.rcu.cmtRobIndex position) = false) :
    observed.executed position =
      (observed.rcu.rob (advance observed.rcu.cmtRobIndex position)).toRobOp.predicted := by
  have used := slot_used window inside
  have copied := settled.copied _ used
  obtain ⟨proper, guarded⟩ := settled.proper _ used
  have unraised : (observed.source (advance observed.rcu.cmtRobIndex position)).exception =
      false := by
    by_contra raised
    simp [settled.raised _ used (by simpa using raised)] at calm
  have leads : (observed.source (advance observed.rcu.cmtRobIndex position)).successor
      (observed.valuesBefore position) =
        some (observed.source (advance observed.rcu.cmtRobIndex position)).predictPc := by
    by_cases arithmetic :
      (observed.source (advance observed.rcu.cmtRobIndex position)).arithmetic = true
    · obtain ⟨rs1, rs2, resolves⟩ := executes.resolved position inside finish arithmetic unraised
      have same := resolves.miss
      rw [hit, eq_comm, bne_eq_false_iff_eq] at same
      rw [Decoded.successor_eq proper unraised resolves.reads resolves.even, same]
    · have plain : (observed.source (advance observed.rcu.cmtRobIndex position)).arithmetic =
        false := by simpa using arithmetic
      rw [congrArg RobOp.mret copied] at mret
      rw [congrArg RobOp.sret copied] at sret
      rw [Decoded.successor_sequential proper plain]
      rcases guarded with checked | sequential
      · simp [Decoded.checked, unraised, mret, sret, plain] at checked
      · rw [sequential]
  rw [executed, leads, RobOp.predicted, copied]

/-- What is known of the head when it leaves outside a flush. -/
theorem head_calm (quiet : observed.processor.flush = false)
    (leaves : observed.rcu.doRobCommitFirst (observed.processor.rcuInput input) = true) :
    observed.rcu.robFinish observed.rcu.cmtRobIndex = true ∧
      observed.rcu.robExp observed.rcu.cmtRobIndex = false ∧
      observed.rcu.headFirst.mret = false ∧ observed.rcu.headFirst.sret = false ∧
      (observed.rcu.robPredictMiss observed.rcu.cmtRobIndex = true →
        observed.rcu.headFirst.aluJump = true) := by
  have ready : observed.processor.core.doRobCommitFirst = true := leaves
  simp only [Processor.flush, Processor.trap, Core.exception, Core.globalRet, ready, Bool.true_and,
    Bool.and_true, Bool.or_eq_false_iff] at quiet
  obtain ⟨⟨⟨mret, sret⟩, calm, -⟩, hit⟩ := quiet
  simp only [Rcu.doRobCommitFirst, Rcu.commitReady, Bool.and_eq_true, Bool.not_eq_true'] at leaves
  have prompt : observed.processor.backend.rcu.dffCmtMissDelay = false := leaves.1.2
  rw [Rcu.predictMiss, prompt, if_neg (by simp), Rcu.cmtMiss, Bool.and_eq_false_iff] at hit
  refine ⟨leaves.1.1.2, calm, mret, sret, fun miss => ?_⟩
  rcases hit with jump | hit
  · exact Bool.not_eq_eq_eq_not.mp jump
  · exact absurd (hit.symm.trans miss) (by simp)

/-- What is known of both entries when the second one leaves too. -/
theorem second_calm {rcu : Rcu} {input : RcuInput} (leaves : rcu.doRobCommitSecond input = true) :
    rcu.robFinish rcu.cmtRobIndexSecond = true ∧ rcu.robExp rcu.cmtRobIndexSecond = false ∧
      rcu.headSecond.mret = false ∧ rcu.headSecond.sret = false ∧
      rcu.robPredictMiss rcu.cmtRobIndexSecond = false ∧
      rcu.robPredictMiss rcu.cmtRobIndex = false := by
  simp only [Rcu.doRobCommitSecond, Bool.and_eq_true, Bool.not_eq_true'] at leaves
  tauto

section Quiet

variable (window : Rcu.Window observed.rcu length) (settled : Settled observed)
  (executes : Executes observed length) (quiet : observed.processor.flush = false)

include window settled executes quiet

/-- Behind a well-predicted head everything that leaves leads where fetch predicted. -/
theorem retired_predicted (hit : observed.rcu.robPredictMiss observed.rcu.cmtRobIndex = false) :
    (List.range (observed.commitCount input)).map observed.executed =
      (Rcu.retiring observed.rcu (observed.processor.rcuInput input)).map
        (fun entry => entry.toRobOp.predicted) := by
  have inside : observed.commitCount input ≤ length :=
    window.commit_room (observed.processor.rcuInput input)
  rw [Rcu.retiring_eq, Circular.window, slots_eq_range, List.map_map, List.map_map]
  apply List.map_congr_left
  intro position member
  have leaves : position < observed.commitCount input := List.mem_range.mp member
  have ordered := Rcu.commit_ordered observed.rcu (observed.processor.rcuInput input)
  have first : observed.rcu.doRobCommitFirst (observed.processor.rcuInput input) = true := by
    by_contra idle
    have idle' : ¬ observed.rcu.doRobCommitSecond (observed.processor.rcuInput input) = true :=
      fun second => idle (ordered second)
    rw [Bool.not_eq_true] at idle idle'
    simp [commitCount, amount, idle, idle'] at leaves
  obtain ⟨finish, calm, mret, sret, -⟩ := head_calm quiet first
  rcases position with _ | position
  · apply executed_predicted window settled executes (by omega) <;> simpa
  · have second : observed.rcu.doRobCommitSecond (observed.processor.rcuInput input) = true := by
      by_contra idle
      rw [Bool.not_eq_true] at idle
      simp [commitCount, amount, idle, first] at leaves
    have last : position = 0 := by
      simp only [commitCount, amount, first, second, Bool.toNat_true] at leaves
      omega
    subst last
    obtain ⟨finish, calm, mret, sret, hit, -⟩ := second_calm second
    rw [Rcu.headSecond] at mret sret
    rw [Rcu.cmtRobIndexSecond, secondLine_eq_advance] at finish calm mret sret hit
    exact executed_predicted window settled executes (by omega) finish calm mret sret hit

/-- A mispredicted head that leaves outside a flush is a jump and leaves alone. -/
theorem retired_missed (miss : observed.rcu.robPredictMiss observed.rcu.cmtRobIndex = true)
    (leaves : observed.rcu.doRobCommitFirst (observed.processor.rcuInput input) = true) :
    observed.rcu.headFirst.aluJump = true ∧
      (List.range (observed.commitCount input)).map observed.executed =
        [.execute observed.rcu.headFirst.pc
          (some (observed.rcu.robFinalBranchPc observed.rcu.cmtRobIndex))] := by
  have inside : observed.commitCount input ≤ length :=
    window.commit_room (observed.processor.rcuInput input)
  obtain ⟨used, -⟩ := settled.missed _ miss
  have alone : observed.rcu.doRobCommitSecond (observed.processor.rcuInput input) = false := by
    by_contra second
    have hit := (second_calm (by simpa using second)).2.2.2.2.2
    simp [miss] at hit
  have jump := (head_calm quiet leaves).2.2.2.2 miss
  have branch : observed.rcu.headFirst.aluBranch = true := by
    have copied := settled.copied _ used
    rw [Rcu.headFirst, copied] at jump ⊢
    exact (settled.proper _ used).1.jump jump
  have one : observed.commitCount input = 1 := by
    simp [commitCount, amount, leaves, alone]
  have executed := executed_missed settled executes (show 0 < length by omega)
    (by simpa using miss) (by rw [advance_zero]; exact branch)
  rw [one]
  refine ⟨jump, ?_⟩
  change [observed.executed 0] = _
  rw [executed, advance_zero]
  rfl

end Quiet

/-- Everything waiting in the decode queue or handed over is promised. -/
theorem Steady.offered (steady : Steady observed expected length free past waiting)
    (quiet : observed.processor.flush = false) : Offered observed input := by
  have queued : observed.processor.core.fifo.Contains waiting := steady.queued
  intro instruction member
  rw [(Core.entered_eq queued steady.tracks.sound.window
    (observed.processor.coreInput input) quiet).2] at member
  exact steady.promised _ (List.mem_of_mem_take member)

/-- Without a flush the predictions of what is in flight and handed over are those of what
retires and of what is in flight afterwards. -/
theorem Steady.stream_split (steady : Steady observed expected length free past waiting)
    (input : ProcessorInput) (quiet : observed.processor.flush = false) :
    ∃ left, (observed.step input).processor.fifo.Contains left ∧
      (∀ instruction ∈ left, instruction ∈ waiting ∨ instruction ∈
        observed.processor.core.pushed (observed.processor.coreInput input)) ∧
      observed.stream waiting ++
          (observed.processor.core.pushed (observed.processor.coreInput input)).map
            (fun instruction => instruction.toRobOp.predicted) =
        (Rcu.retiring observed.rcu (observed.processor.rcuInput input)).map
            (fun entry => entry.toRobOp.predicted) ++ (observed.step input).stream left := by
  have queued : observed.processor.core.fifo.Contains waiting := steady.queued
  obtain ⟨left, queued', order⟩ := Core.step_fifo queued steady.tracks.sound.window
    (observed.processor.coreInput input) quiet
  refine ⟨left, queued', ?_, ?_⟩
  · intro instruction member
    have inside := List.mem_append_right
      (observed.processor.core.entered (observed.processor.coreInput input)) member
    rw [← order] at inside
    exact List.mem_append.mp inside
  · have moved : Rcu.retiring observed.rcu (observed.processor.rcuInput input) ++
        Rcu.inUse (observed.step input).rcu = Rcu.inUse observed.rcu ++
          Rcu.dispatched observed.rcu (observed.processor.rcuInput input) :=
      Rcu.step_inUse steady.tracks.sound.window (observed.processor.rcuInput input) quiet
    have renamed := congrArg (List.map RobOp.predicted)
      (Core.dispatched_op observed.processor.core (observed.processor.coreInput input))
    rw [List.map_map, List.map_map] at renamed
    calc observed.stream waiting ++ _
      _ = (Rcu.inUse observed.rcu).map (fun entry => entry.toRobOp.predicted) ++
          (waiting ++ observed.processor.core.pushed (observed.processor.coreInput input)).map
            (fun instruction => instruction.toRobOp.predicted) := by
        rw [stream, List.map_append, List.append_assoc]
      _ = (Rcu.inUse observed.rcu ++
            Rcu.dispatched observed.rcu (observed.processor.rcuInput input)).map
            (fun entry => entry.toRobOp.predicted) ++
          left.map (fun instruction => instruction.toRobOp.predicted) := by
        rw [order, List.map_append, List.map_append, List.append_assoc]
        exact congrArg (fun fresh => _ ++ (fresh ++ _)) renamed.symm
      _ = _ := by
        rw [← moved, List.map_append, List.append_assoc]
        rfl

/-- A cycle without a flush. -/
theorem Steady.step_quiet (steady : Steady observed expected length free past waiting)
    (benign : Benign observed input) (quiet : observed.processor.flush = false) :
    ∃ expected' length' free' past' waiting',
      Steady (observed.step input) expected' length' free' past' waiting' ∧
      Follows expected (observed.events input) expected' := by
  have window := steady.tracks.sound.window
  have offered : Offered observed input := steady.offered quiet
  have foreseen := benign.foreseen quiet
  have calm : observed.processor.trap = false ∧ observed.processor.core.globalRet = false ∧
      observed.rcu.predictMiss = false := by
    simp only [Processor.flush, Bool.or_eq_false_iff] at quiet
    exact ⟨quiet.1.2, quiet.1.1, quiet.2⟩
  have prompt : observed.rcu.dffCmtMissDelay = false := by
    by_contra delay
    rw [Rcu.predictMiss, if_pos (by simpa using delay)] at calm
    exact absurd calm.2.2 (by simp)
  have emitted : observed.events input =
      (List.range (observed.commitCount input)).map observed.executed := by
    simp [events, calm]
  obtain ⟨left, queued, kept, split⟩ := steady.stream_split input quiet
  have leads := follows_append.mpr
    ⟨_, steady.leads prompt, pushed_follows steady.queued quiet foreseen⟩
  rw [split, follows_append] at leads
  obtain ⟨middle, retired, rest⟩ := leads
  have units : Tracked.FunctionUnits observed.tracked
      (observed.processor.backendInput input).toRcuInput :=
    steady.settled.functionUnits benign.responds
  obtain ⟨length', free', tracks⟩ := steady.tracks.step_quiet units quiet
  have length_eq : length' = length - observed.commitCount input + observed.writeCount input :=
    tracks.sound.window.length_unique
      (Rcu.step_window window (observed.processor.rcuInput input) quiet)
  have executes : Executes (observed.step input) length' := by
    rw [length_eq]
    exact step_executes window steady.settled benign.responds quiet steady.tracks steady.linked
      steady.executes benign.even offered
  have linked : (observed.step input).registers = Write.replay (fun _ => some 0)
      (past ++ observed.tracked.commits (observed.processor.rcuInput input)) := by
    rw [Write.replay_append, ← steady.linked]
    rfl
  have settled := step_settled window steady.settled benign.responds quiet offered
  have promised : ∀ instruction ∈ left, instruction.Proper ∧ instruction.Guarded := by
    intro instruction member
    rcases kept instruction member with old | fresh
    · exact steady.promised _ old
    · exact pushed_promised foreseen fresh
  have delay : (observed.step input).rcu.dffCmtMissDelay =
        (observed.rcu.headFirst.aluJump &&
          observed.rcu.robPredictMiss observed.rcu.cmtRobIndex) ∧
      (observed.step input).rcu.dff.finalPcFirst =
        observed.rcu.robFinalBranchPc observed.rcu.cmtRobIndex := by
    have fault : observed.rcu.globalSpeculateFault (observed.processor.rcuInput input) = false :=
      quiet
    simp [step_rcu, Rcu.dffCmtMissDelay, Rcu.step, fault]
  cases miss : observed.rcu.robPredictMiss observed.rcu.cmtRobIndex
  · refine ⟨middle, length', free', _, left, ⟨tracks, linked, settled, executes, queued, promised,
      fun late => ?_, fun _ => rest⟩, ?_⟩
    · simp [delay.1, miss] at late
    · rw [emitted, retired_predicted window steady.settled steady.executes quiet miss]
      exact retired
  · obtain ⟨used, finish, -⟩ := steady.settled.missed _ miss
    have leaves : observed.rcu.doRobCommitFirst (observed.processor.rcuInput input) = true := by
      simp only [Rcu.doRobCommitFirst, Rcu.commitReady, used, finish, prompt]
      rfl
    obtain ⟨jump, event⟩ := retired_missed window steady.settled steady.executes quiet miss leaves
    refine ⟨observed.rcu.robFinalBranchPc observed.rcu.cmtRobIndex, length', free', _, left,
      ⟨tracks, linked, settled, executes, queued, promised, fun _ => delay.2.symm, fun late => ?_⟩,
      ?_⟩
    · simp [delay.1, jump, miss] at late
    · rw [emitted, event, follows_execute]
      refine ⟨?_, rfl⟩
      rw [Rcu.retiring, leaves] at retired
      exact (follows_execute.mp retired).1

/-- The head of the window is where the program has arrived. -/
theorem Steady.head (steady : Steady observed expected length free past waiting)
    (used : observed.rcu.robUsed observed.rcu.cmtRobIndex = true)
    (prompt : observed.rcu.dffCmtMissDelay = false) :
    0 < length ∧ observed.rcu.headFirst.pc = expected := by
  have window : Rcu.Window observed.rcu length := steady.tracks.sound.window
  have leads := steady.leads prompt
  rw [stream, window.inUse_eq] at leads
  rcases length with _ | length
  · rw [window.used] at used
    simp at used
  · refine ⟨Nat.succ_pos _, ?_⟩
    exact (follows_execute.mp leads).1

/-- A trap goes to the trap vector, whatever returns at the same time. -/
theorem trapVector_trap (processor : Processor) (input : ProcessorInput)
    (trap : processor.trap = true) : processor.trapVector input =
      (processor.csr.tvecOut (processor.hart.csrInput (processor.hartInput input))).setWidth 39 := by
  have pending : (processor.hart.csrInput (processor.hartInput input)).excpPending =
    processor.trap := rfl
  simp only [Processor.trapVector, Hart.trapVector, CsrRegfile.excpPcOut, pending, trap,
    Bool.not_true, Bool.and_false]
  rfl

/-- A return outside a trap goes to its `xepc`. -/
theorem trapVector_return (processor : Processor) (input : ProcessorInput)
    (calm : processor.trap = false) (leaves : processor.core.doRobCommitFirst = true)
    (returns : processor.core.rcu.headFirst.sret = !processor.core.rcu.headFirst.mret) :
    processor.trapVector input = if processor.core.rcu.headFirst.mret
      then processor.csr.mepc.setWidth 39 else processor.csr.sepc.setWidth 39 := by
  have pending : (processor.hart.csrInput (processor.hartInput input)).excpPending =
    processor.trap := rfl
  have mRet : (processor.hart.csrInput (processor.hartInput input)).mRet =
    (processor.core.doRobCommitFirst && processor.core.rcu.headFirst.mret) := rfl
  have sRet : (processor.hart.csrInput (processor.hartInput input)).sRet =
    (processor.core.doRobCommitFirst && processor.core.rcu.headFirst.sret) := rfl
  simp only [Processor.trapVector, Hart.trapVector, CsrRegfile.excpPcOut, pending, mRet, sRet, calm,
    leaves, returns]
  cases processor.core.rcu.headFirst.mret <;> rfl

/-- A flush leads to the address that fetch continues at. -/
theorem Steady.flush_follows (steady : Steady observed expected length free past waiting)
    (flush : observed.processor.flush = true) :
    Follows expected (observed.events input) (observed.processor.pcNext input) := by
  unfold events Processor.pcNext
  by_cases trap : observed.processor.trap = true
  · rw [if_pos trap, if_pos trap, trapVector_trap _ _ trap]
    rfl
  rw [if_neg trap, if_neg trap]
  rw [Bool.not_eq_true] at trap
  by_cases ret : observed.processor.core.globalRet = true
  · have both := ret
    simp only [Core.globalRet, Bool.and_eq_true, Bool.or_eq_true] at both
    obtain ⟨leaves, returns⟩ := both
    have ready := leaves
    simp only [Core.doRobCommitFirst, Rcu.commitReady, Bool.and_eq_true,
      Bool.not_eq_true'] at ready
    have used : observed.rcu.robUsed observed.rcu.cmtRobIndex = true := ready.1.1.1
    have one : observed.rcu.headFirst.sret = !observed.rcu.headFirst.mret := by
      have proper := (steady.settled.proper _ used).1.returns
      have fields := congrArg RobOp.mret (steady.settled.copied _ used)
      have fields' := congrArg RobOp.sret (steady.settled.copied _ used)
      change observed.rcu.headFirst.mret = true ∨ observed.rcu.headFirst.sret = true at returns
      rw [← fields, ← fields'] at proper
      cases mret : observed.rcu.headFirst.mret
      · simpa [mret] using returns
      · exact proper mret
    rw [if_pos ret, if_pos ret, follows_execute, trapVector_return _ _ trap leaves one]
    exact ⟨(steady.head used ready.1.2).2, rfl⟩
  rw [if_neg ret, if_neg ret]
  rw [Bool.not_eq_true] at ret
  have miss : observed.processor.backend.rcu.predictMiss = true := by
    rw [Processor.flush, trap, ret] at flush
    exact flush
  rw [if_pos (show observed.rcu.predictMiss = true from miss), if_pos miss, Processor.realBranch]
  by_cases delay : observed.rcu.dffCmtMissDelay = true
  · rw [if_pos (show observed.processor.backend.rcu.dffCmtMissDelay = true from delay),
      if_neg (by simp [delay])]
    exact steady.delayed delay
  · rw [Rcu.predictMiss, if_neg (show ¬ observed.processor.backend.rcu.dffCmtMissDelay = true
      from delay)] at miss
    rw [if_neg (show ¬ observed.processor.backend.rcu.dffCmtMissDelay = true from delay),
      if_pos miss]
    rw [Bool.not_eq_true] at delay
    simp only [Rcu.cmtMiss, Bool.and_eq_true] at miss
    have used := (steady.settled.missed _ miss.2).1
    obtain ⟨inside, here⟩ := steady.head used delay
    have missed : observed.rcu.robPredictMiss (advance observed.rcu.cmtRobIndex 0) = true := by
      rw [advance_zero]
      exact miss.2
    by_cases branch : observed.rcu.headFirst.aluBranch = true
    · rw [if_pos (by simp [delay, branch]), executed_missed steady.settled steady.executes inside
        missed (by rw [advance_zero]; exact branch), advance_zero]
      exact follows_execute.mpr ⟨here, rfl⟩
    · rw [if_neg (by simp [branch])]
      have restarts := missed_restarts steady.settled steady.executes inside missed
        (by rw [advance_zero]; exact Bool.eq_false_iff.mpr branch)
      rw [advance_zero] at restarts
      exact here.symm.trans restarts.symm

/-- A cycle with a flush. -/
theorem Steady.step_flush (steady : Steady observed expected length free past waiting)
    (benign : Benign observed input) (flush : observed.processor.flush = true) :
    ∃ expected' length' free' past' waiting',
      Steady (observed.step input) expected' length' free' past' waiting' ∧
      Follows expected (observed.events input) expected' := by
  have fault : observed.rcu.globalSpeculateFault (observed.processor.rcuInput input) = true := flush
  have units : Tracked.FunctionUnits observed.tracked
      (observed.processor.backendInput input).toRcuInput :=
    steady.settled.functionUnits benign.responds
  obtain ⟨length', free', tracks⟩ := steady.tracks.step_fault units flush
  have window' : Rcu.Window (observed.step input).rcu 0 :=
    Rcu.step_window_fault observed.rcu (observed.processor.rcuInput input) flush
  have empty : length' = 0 := tracks.sound.window.length_unique window'
  have linked : (observed.step input).registers = Write.replay (fun _ => some 0)
      (past ++ observed.tracked.commits (observed.processor.rcuInput input)) := by
    rw [Write.replay_append, ← steady.linked]
    rfl
  subst empty
  refine ⟨observed.processor.pcNext input, 0, free', _, [],
    ⟨tracks, linked, step_settled_flush flush, executes_empty _, ?_, by simp, ?_, ?_⟩,
    steady.flush_follows flush⟩
  · change (if observed.processor.core.flush (observed.processor.coreInput input) then
      F2if2o.reset Decoded.blank else _).Contains []
    rw [Processor.core_flush, if_pos flush]
    exact F2if2o.reset_contains Decoded.blank
  · intro delay
    simp [step_rcu, Rcu.step, Rcu.dffCmtMissDelay, fault, CommitDelay.clear] at delay
  · intro prompt
    rw [stream, window'.inUse_eq]
    rfl

/-- The program has retired `log` from reset and stands at `expected`. -/
def Arrives (observed : Observed) (log : List (Event Pc)) (expected : Pc) : Prop :=
  Follows Fetch.resetVector log expected ∧
    ∃ length free past waiting, Steady observed expected length free past waiting

theorem Arrives.step {log : List (Event Pc)} (arrives : Arrives observed log expected)
    (benign : Benign observed input) :
    ∃ expected', Arrives (observed.step input) (log ++ observed.events input) expected' := by
  obtain ⟨follows, length, free, past, waiting, steady⟩ := arrives
  cases flush : observed.processor.flush
  · obtain ⟨expected', length', free', past', waiting', steady', leads⟩ :=
      steady.step_quiet benign flush
    exact ⟨expected', follows_append.mpr ⟨expected, follows, leads⟩, length', free', past', waiting',
      steady'⟩
  · obtain ⟨expected', length', free', past', waiting', steady', leads⟩ :=
      steady.step_flush benign flush
    exact ⟨expected', follows_append.mpr ⟨expected, follows, leads⟩, length', free', past', waiting',
      steady'⟩

theorem run_arrives (inputs : List ProcessorInput) (obeys : machine.Obeys Benign inputs) :
    ∃ expected, Arrives (machine.run inputs) (machine.log events inputs) expected :=
  machine.obeys_invariant Benign events
    (fun observed log => ∃ expected, Arrives observed log expected)
    ⟨_, rfl, _, _, _, _, reset_steady⟩
    (fun _ _ _ benign ⟨_, arrives⟩ => arrives.step benign) inputs obeys

/-- In every run all of whose cycles are benign, each retired instruction is executed where the
one before it leads. -/
theorem retired_stream_follows (inputs : List ProcessorInput)
    (obeys : machine.Obeys Benign inputs) :
    ∃ expected, Follows Fetch.resetVector (machine.log events inputs) expected := by
  obtain ⟨expected, follows, -⟩ := run_arrives inputs obeys
  exact ⟨expected, follows⟩

/-- A branch that is not taken, at an address for which the branch target buffer has a target, and
a load behind it: the load carries the prediction of the branch. -/
def strayLoad : List ProcessorInput :=
  [{ ProcessorInput.idle with
      predictors := ⟨fun line => ⟨line = 0, 0x80000000, 0x80000100⟩, 0, fun _ => 0⟩
      buffer := .pair 0x00001863 0x00002083 },
    { ProcessorInput.idle with buffer := .single 0x00100113 }] ++
  List.replicate 6 ProcessorInput.idle ++
  [{ ProcessorInput.idle with lsu := ⟨⟨true, 1, 1, 5, false, 0⟩, 0⟩ },
    ProcessorInput.idle, ProcessorInput.idle]

/-- The load retires, and the instruction after it is the one at the branch's old target. -/
theorem stray_load_retires : machine.Obeys Responds strayLoad ∧
    machine.Obeys (fun observed _ => observed.JumpsEven) strayLoad ∧
    ¬ ∃ expected, Follows Fetch.resetVector (machine.log events strayLoad) expected :=
  ⟨by decide +kernel, by decide +kernel, not_follows (by decide +kernel)⟩

/-- A taken branch with a load behind it, found mispredicted and redirected. -/
def takenBranch : List ProcessorInput :=
  [{ ProcessorInput.idle with buffer := .pair 0x00000863 0x00002083 },
    ProcessorInput.idle, ProcessorInput.idle, ProcessorInput.idle,
    { ProcessorInput.idle with buffer := .single 0x00100113 },
    ProcessorInput.idle, ProcessorInput.idle, ProcessorInput.idle, ProcessorInput.idle]

theorem taken_branch_follows : machine.Obeys Benign takenBranch ∧
    ∃ expected, Follows Fetch.resetVector (machine.log events takenBranch) expected :=
  have obeys : machine.Obeys Benign takenBranch := by decide +kernel
  ⟨obeys, retired_stream_follows takenBranch obeys⟩

end Observed

end GreenRio
