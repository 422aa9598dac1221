import GreenRio.Execution

set_option autoImplicit false

namespace GreenRio

open Circular Counter Fifo Trace

namespace Observed

section Views

variable (program : RiscV.Program 39) (observed : Observed) (input : ProcessorInput)

/-- The instruction buffer hands the program over: an instruction without an exception is the one
at its address. -/
structure Serves : Prop where
  first : observed.processor.firstValid input = true → input.buffer.first.exception = false →
    input.buffer.first.instruction = program.word observed.processor.pc ∧
      Fetch.size input.buffer.first = program.size observed.processor.pc
  second : observed.processor.secondValid input = true → input.buffer.second.exception = false →
    input.buffer.second.instruction =
        program.word (Fetch.pcSecond input.buffer observed.processor.pc) ∧
      Fetch.size input.buffer.second =
        program.size (Fetch.pcSecond input.buffer observed.processor.pc)

/-- The cycles that the refinement is about: none of the defects shows, and fetch serves the
program. -/
structure Lawful : Prop where
  benign : Benign observed input
  links : observed.LinksAgree
  serves : Serves program observed input

instance : Decidable (Serves program observed input) :=
  decidable_of_iff
    ((observed.processor.firstValid input = true → input.buffer.first.exception = false →
        input.buffer.first.instruction = program.word observed.processor.pc ∧
          Fetch.size input.buffer.first = program.size observed.processor.pc) ∧
      (observed.processor.secondValid input = true → input.buffer.second.exception = false →
        input.buffer.second.instruction =
            program.word (Fetch.pcSecond input.buffer observed.processor.pc) ∧
          Fetch.size input.buffer.second =
            program.size (Fetch.pcSecond input.buffer observed.processor.pc)))
    ⟨fun both => ⟨both.1, both.2⟩, fun serves => ⟨serves.first, serves.second⟩⟩

instance : Decidable (Lawful program observed input) :=
  decidable_of_iff
    (Benign observed input ∧ observed.LinksAgree ∧ Serves program observed input)
    ⟨fun all => ⟨all.1, all.2.1, all.2.2⟩,
      fun lawful => ⟨lawful.benign, lawful.links, lawful.serves⟩⟩

/-- The retirement of a position, with the value that it has produced. -/
def answered (position : Nat) : RiscV.Outcome 39 :=
  .retire ((observed.result (advance observed.rcu.cmtRobIndex position)).getD 0)

/-- Where a trap goes. -/
def trapTarget : Pc :=
  (observed.processor.csr.tvecOut
    (observed.processor.hart.csrInput (observed.processor.hartInput input))).setWidth 39

/-- Where an `xRET` at the head goes. -/
def returnTarget : Pc :=
  if observed.rcu.headFirst.mret then observed.processor.csr.mepc.setWidth 39
  else observed.processor.csr.sepc.setWidth 39

/-- What happens to the program in a cycle, as `events` has it for its program counter. -/
def outcomes : List (RiscV.Outcome 39) :=
  if observed.processor.trap then [.trap (observed.trapTarget input)]
  else if observed.processor.core.globalRet then [.leave observed.returnTarget]
  else if observed.rcu.predictMiss then
    if !observed.rcu.dffCmtMissDelay && observed.rcu.headFirst.aluBranch then [observed.answered 0]
    else []
  else (List.range (observed.commitCount input)).map observed.answered

/-- Everything in flight or in the decode queue comes from the program. -/
structure Supplied : Prop where
  source : ∀ index, observed.rcu.robUsed index = true → Sourced program (observed.source index)
  queued : ∀ waiting, observed.processor.fifo.Contains waiting →
    ∀ instruction ∈ waiting, Sourced program instruction

end Views

/-- The machine stands where the hart does: with its program counter, its registers, and operations
in flight that come from its program. -/
structure Mirrors (program : RiscV.Program 39) (observed : Observed) (state : RiscV.State 39)
    (length : Nat) (free : List PhyReg) (past : List (Write 32 PhyReg Word))
    (waiting : List Decoded) : Prop where
  steady : Steady observed state.pc length free past waiting
  valued : Valued observed length
  supplied : Supplied program observed
  agrees : Agrees observed.registers state

variable {program : RiscV.Program 39} {observed : Observed} {input : ProcessorInput}
  {length : Nat} {free : List PhyReg} {past : List (Write 32 PhyReg Word)}
  {waiting : List Decoded} {state : RiscV.State 39} {expected : Pc}

section Supply

/-- What is handed over comes from the program. -/
theorem pushed_sourced (serves : Serves program observed input) {instruction : Decoded}
    (member : instruction ∈ observed.processor.core.pushed (observed.processor.coreInput input)) :
    Sourced program instruction := by
  rcases accepted_mem member with ⟨valid, rfl⟩ | ⟨valid, rfl⟩
  · refine ⟨_, _, Fetch.fetchedFirst input.buffer observed.processor.pc, rfl, fun calm => ?_⟩
    obtain ⟨word, size⟩ := serves.first valid calm
    exact ⟨word, congrArg (observed.processor.pc + ·) size⟩
  · refine ⟨_, _, Fetch.fetchedSecond input.buffer observed.processor.pc
      (observed.processor.predictPc input), rfl, fun calm => ?_⟩
    obtain ⟨word, size⟩ := serves.second valid calm
    exact ⟨word, congrArg (Fetch.pcSecond input.buffer observed.processor.pc + ·) size⟩

theorem supplied_empty {after : Observed} (window : Rcu.Window after.rcu 0)
    (queued : after.processor.fifo.Contains []) : Supplied program after := by
  refine ⟨fun index used => ?_, fun waiting present instruction member => ?_⟩
  · rw [window.used] at used
    cases used
  · rw [present.unique queued] at member
    cases member

theorem step_supplied (steady : Steady observed expected length free past waiting)
    (supplied : Supplied program observed) (responds : Responds observed input)
    (serves : Serves program observed input) (quiet : observed.processor.flush = false) :
    Supplied program (observed.step input) := by
  have window := steady.tracks.sound.window
  refine ⟨fun index used => ?_, fun left present instruction member => ?_⟩
  · rcases step_used_cases quiet used with ⟨before, stays⟩ | ⟨instruction, enters⟩
    · rw [(step_kept quiet before stays).2.1]
      exact supplied.source index before
    · obtain ⟨-, -, -, -, source, -⟩ := step_entered quiet window steady.settled responds enters
      rw [source]
      apply supplied.queued waiting steady.queued
      have entered : instruction ∈
          observed.processor.core.entered (observed.processor.coreInput input) := by
        rcases enters with ⟨-, write, rfl⟩ | ⟨-, write, rfl⟩
        · exact accepted_first write
        · exact accepted_second write
      have queued : observed.processor.core.fifo.Contains waiting := steady.queued
      rw [(Core.entered_eq queued window (observed.processor.coreInput input) quiet).2] at entered
      exact List.mem_of_mem_take entered
  · obtain ⟨others, queued, kept, -⟩ := steady.stream_split input quiet
    rw [present.unique queued] at member
    rcases kept instruction member with old | fresh
    · exact supplied.queued waiting steady.queued _ old
    · exact pushed_sourced serves fresh

end Supply

section Retirement

theorem valuesBefore_succ (observed : Observed) (position : Nat) :
    observed.valuesBefore (position + 1) =
      Write.replay (observed.valuesBefore position)
        [observed.tracked.write observed.result (advance observed.rcu.cmtRobIndex position)] := by
  rw [valuesBefore, slots_snoc, List.map_append, Write.replay_append]
  rfl

variable (window : Rcu.Window observed.rcu length) (settled : Settled observed)
  (supplied : Supplied program observed) (valued : Valued observed length)

include window settled supplied valued

/-- A finished position without an exception retires as the hart executes it. -/
theorem position_retires {position : Nat} (inside : position < length)
    (finish : observed.rcu.robFinish (advance observed.rcu.cmtRobIndex position) = true)
    (calm : (observed.source (advance observed.rcu.cmtRobIndex position)).exception = false)
    (stays : (observed.source (advance observed.rcu.cmtRobIndex position)).mret = false ∧
      (observed.source (advance observed.rcu.cmtRobIndex position)).sret = false)
    (agrees : Agrees (observed.valuesBefore position) state)
    (here : (observed.rcu.rob (advance observed.rcu.cmtRobIndex position)).pc = state.pc) :
    ∃ after, state.next program (observed.answered position) = some after ∧
      observed.executed position = .execute state.pc (some after.pc) ∧
      Agrees (observed.valuesBefore (position + 1)) after := by
  have used := slot_used window inside
  have copied := congrArg RobOp.pc (settled.copied _ used)
  obtain ⟨after, retires⟩ := (supplied.source _ used).retires calm (copied.symm.trans here) stays
    agrees (show (observed.tracked.write observed.result _).rd = _ from rfl)
    (valued position inside finish)
  refine ⟨after, retires.next, ?_, ?_⟩
  · rw [executed, here, retires.leads]
  · rw [valuesBefore_succ]
    exact retires.agrees

omit supplied valued in
/-- What is known of a position that leaves outside a flush. -/
theorem leaving_calm (quiet : observed.processor.flush = false) {position : Nat}
    (leaves : position < observed.commitCount input) :
    position < length ∧
      observed.rcu.robFinish (advance observed.rcu.cmtRobIndex position) = true ∧
      (observed.source (advance observed.rcu.cmtRobIndex position)).exception = false ∧
      (observed.source (advance observed.rcu.cmtRobIndex position)).mret = false ∧
      (observed.source (advance observed.rcu.cmtRobIndex position)).sret = false := by
  have inside : observed.commitCount input ≤ length :=
    window.commit_room (observed.processor.rcuInput input)
  have ordered := Rcu.commit_ordered observed.rcu (observed.processor.rcuInput input)
  have known : observed.rcu.robFinish (advance observed.rcu.cmtRobIndex position) = true ∧
      observed.rcu.robExp (advance observed.rcu.cmtRobIndex position) = false ∧
      (observed.rcu.rob (advance observed.rcu.cmtRobIndex position)).mret = false ∧
      (observed.rcu.rob (advance observed.rcu.cmtRobIndex position)).sret = false := by
    have first : observed.rcu.doRobCommitFirst (observed.processor.rcuInput input) = true := by
      by_contra idle
      have idle' : ¬ observed.rcu.doRobCommitSecond (observed.processor.rcuInput input) = true :=
        fun second => idle (ordered second)
      rw [Bool.not_eq_true] at idle idle'
      simp [commitCount, amount, idle, idle'] at leaves
    cases position with
    | zero =>
      obtain ⟨finish, exp, mret, sret, -⟩ := head_calm quiet first
      rw [advance_zero]
      exact ⟨finish, exp, mret, sret⟩
    | succ position =>
      have second : observed.rcu.doRobCommitSecond (observed.processor.rcuInput input) = true := by
        by_contra idle
        rw [Bool.not_eq_true] at idle
        simp [commitCount, amount, idle, first] at leaves
      have last : position = 0 := by
        simp only [commitCount, amount, first, second, Bool.toNat_true] at leaves
        omega
      obtain ⟨finish, exp, mret, sret, -⟩ := second_calm second
      rw [Rcu.headSecond] at mret sret
      rw [Rcu.cmtRobIndexSecond, secondLine_eq_advance] at finish exp mret sret
      rw [last]
      exact ⟨finish, exp, mret, sret⟩
  have used := slot_used window (Nat.lt_of_lt_of_le leaves inside)
  have copied := settled.copied _ used
  obtain ⟨finish, exp, mret, sret⟩ := known
  refine ⟨Nat.lt_of_lt_of_le leaves inside, finish, ?_, ?_, ?_⟩
  · by_contra raised
    have flagged := settled.raised _ used (by simpa using raised)
    exact absurd (flagged.symm.trans exp) (by decide)
  · rw [← congrArg RobOp.mret copied]
    exact mret
  · rw [← congrArg RobOp.sret copied]
    exact sret

/-- A prefix of what leaves outside a flush, with the way that it leads. -/
theorem prefix_retires (quiet : observed.processor.flush = false)
    (agrees : Agrees observed.registers state)
    (follows : Follows state.pc ((List.range (observed.commitCount input)).map observed.executed)
      expected) {count : Nat} (among : count ≤ observed.commitCount input) :
    ∃ after, state.run program ((List.range count).map observed.answered) = some after ∧
      Follows state.pc ((List.range count).map observed.executed) after.pc ∧
      Agrees (observed.valuesBefore count) after := by
  induction count with
  | zero => exact ⟨state, rfl, rfl, agrees⟩
  | succ count ih =>
    obtain ⟨middle, runs, leads, holds⟩ := ih (Nat.le_of_succ_le among)
    obtain ⟨inside, finish, calm, stays⟩ := leaving_calm window settled quiet among
    -- the position is where its predecessors lead
    have here : (observed.rcu.rob (advance observed.rcu.cmtRobIndex count)).pc = middle.pc := by
      obtain ⟨rest, total⟩ : ∃ rest, observed.commitCount input = count + 1 + rest :=
        Nat.exists_eq_add_of_le among
      rw [total, List.range_add, List.range_succ, List.append_assoc, List.map_append,
        follows_append] at follows
      obtain ⟨reached, older, younger⟩ := follows
      rw [leads.stop_unique older]
      exact younger.1
    obtain ⟨after, next, executed, holds'⟩ := position_retires window settled supplied valued inside
      finish calm stays holds here
    refine ⟨after, ?_, ?_, holds'⟩
    · rw [List.range_succ, List.map_append, RiscV.State.run_append, runs]
      exact (RiscV.State.run_singleton program middle _).trans next
    · rw [List.range_succ, List.map_append, follows_append]
      refine ⟨middle.pc, leads, ?_⟩
      rw [List.map_singleton, executed]
      exact follows_execute.mpr ⟨rfl, rfl⟩

end Retirement

/-- What is committed are the values of the positions that leave. -/
theorem step_registers (settled : Settled observed) (responds : Responds observed input)
    (quiet : observed.processor.flush = false) :
    (observed.step input).registers = observed.valuesBefore (observed.commitCount input) := by
  have fault : observed.rcu.globalSpeculateFault (observed.processor.rcuInput input) = false :=
    quiet
  change Write.replay observed.registers
    (observed.tracked.commits (observed.processor.rcuInput input)) = _
  rw [Tracked.Tracks.commits_eq _ fault, valuesBefore]
  congr 1
  apply List.map_congr_left
  intro index leaves
  have finish : observed.rcu.robFinish index = true :=
    leaving_finished observed.rcu (observed.processor.rcuInput input) leaves
  simp only [Tracked.write, currentResult_finished settled responds finish]

namespace Mirrors

variable (mirrors : Mirrors program observed state length free past waiting)
  (lawful : Lawful program observed input)

include mirrors lawful

/-- A cycle without a flush. -/
theorem step_quiet (quiet : observed.processor.flush = false) :
    ∃ after, state.run program (observed.outcomes input) = some after ∧
      ∃ length free past waiting,
        Mirrors program (observed.step input) after length free past waiting := by
  have window := mirrors.steady.tracks.sound.window
  have settled := mirrors.steady.settled
  have responds := lawful.benign.responds
  obtain ⟨expected, length', free', past', waiting', steady, leads⟩ :=
    mirrors.steady.step_quiet lawful.benign quiet
  have calm : observed.processor.trap = false ∧ observed.processor.core.globalRet = false ∧
      observed.rcu.predictMiss = false := by
    simp only [Processor.flush, Bool.or_eq_false_iff] at quiet
    exact ⟨quiet.1.2, quiet.1.1, quiet.2⟩
  have emitted : observed.events input =
      (List.range (observed.commitCount input)).map observed.executed := by
    simp [events, calm]
  have happened : observed.outcomes input =
      (List.range (observed.commitCount input)).map observed.answered := by
    simp [outcomes, calm]
  rw [emitted] at leads
  obtain ⟨after, runs, follows, agrees⟩ := prefix_retires window settled mirrors.supplied
    mirrors.valued quiet mirrors.agrees leads (Nat.le_refl _)
  have length_eq : length' = length - observed.commitCount input + observed.writeCount input :=
    steady.tracks.sound.window.length_unique
      (Rcu.step_window window (observed.processor.rcuInput input) quiet)
  refine ⟨after, by rw [happened]; exact runs, length', free', past', waiting', ?_, ?_, ?_, ?_⟩
  · rw [follows.stop_unique leads]
    exact steady
  · rw [length_eq]
    exact step_valued settled responds window quiet mirrors.steady.executes mirrors.valued
      lawful.links
  · exact step_supplied mirrors.steady mirrors.supplied responds lawful.serves quiet
  · rw [step_registers settled responds quiet]
    exact agrees

omit lawful in
/-- A trap. -/
theorem trap_next (trap : observed.processor.trap = true) :
    ∃ after, state.run program (observed.outcomes input) = some after ∧
      Follows state.pc (observed.events input) after.pc ∧ Agrees observed.registers after := by
  refine ⟨⟨observed.trapTarget input, state.registers⟩, ?_, ?_, mirrors.agrees⟩
  · rw [outcomes, if_pos trap, RiscV.State.run_singleton]
    rfl
  · rw [events, if_pos trap]
    rfl

omit lawful in
/-- A return from a trap. -/
theorem return_next (trap : observed.processor.trap = false)
    (ret : observed.processor.core.globalRet = true) :
    ∃ after, state.run program (observed.outcomes input) = some after ∧
      Follows state.pc (observed.events input) after.pc ∧ Agrees observed.registers after := by
  have settled := mirrors.steady.settled
  have both := ret
  simp only [Core.globalRet, Bool.and_eq_true, Bool.or_eq_true] at both
  obtain ⟨leaves, returns⟩ := both
  have ready := leaves
  simp only [Core.doRobCommitFirst, Rcu.commitReady, Bool.and_eq_true,
    Bool.not_eq_true'] at ready
  have used : observed.rcu.robUsed observed.rcu.cmtRobIndex = true := ready.1.1.1
  have here := (mirrors.steady.head used ready.1.2).2
  have copied := settled.copied _ used
  have calm : (observed.source observed.rcu.cmtRobIndex).exception = false := by
    by_contra raised
    have flagged : observed.processor.core.rcu.robExp observed.processor.core.rcu.cmtRobIndex =
      true := settled.raised observed.rcu.cmtRobIndex used (by simpa using raised)
    simp [Processor.trap, Core.exception, leaves, flagged] at trap
  have marked : ((observed.source observed.rcu.cmtRobIndex).mret ||
      (observed.source observed.rcu.cmtRobIndex).sret) = true := by
    rw [← congrArg RobOp.mret copied, ← congrArg RobOp.sret copied]
    exact Bool.or_eq_true_iff.mpr returns
  have stands := (congrArg RobOp.pc copied).symm.trans here
  refine ⟨⟨observed.returnTarget, state.registers⟩, ?_, ?_, mirrors.agrees⟩
  · rw [outcomes, if_neg (by rw [trap]; decide), if_pos ret, RiscV.State.run_singleton]
    exact (mirrors.supplied.source _ used).leaves calm stands marked _
  · rw [events, if_neg (by rw [trap]; decide), if_pos ret]
    exact follows_execute.mpr ⟨here, rfl⟩

omit lawful in
/-- A mispredicted conditional branch retires with the redirection. -/
theorem branch_next (miss : observed.rcu.robPredictMiss observed.rcu.cmtRobIndex = true)
    (prompt : observed.rcu.dffCmtMissDelay = false)
    (jump : observed.rcu.headFirst.aluJump = false)
    (branch : observed.rcu.headFirst.aluBranch = true) :
    ∃ after, state.next program (observed.answered 0) = some after ∧
      observed.executed 0 = .execute state.pc (some after.pc) ∧
      Agrees observed.registers after := by
  have window := mirrors.steady.tracks.sound.window
  have settled := mirrors.steady.settled
  obtain ⟨used, finish, arithmetic, calm⟩ := settled.missed _ miss
  obtain ⟨inside, here⟩ := mirrors.steady.head used prompt
  have copied := settled.copied _ used
  simp only [RobOp.arithmetic, Bool.and_eq_true] at arithmetic
  obtain ⟨-, -, -, mret, sret, -⟩ := (settled.proper _ used).1.apart arithmetic.1
  obtain ⟨after, next, executed, agrees⟩ := position_retires window settled mirrors.supplied
    mirrors.valued inside (by rw [advance_zero]; exact finish) (by rw [advance_zero]; exact calm)
    (by rw [advance_zero]; exact ⟨mret, sret⟩) mirrors.agrees (by rw [advance_zero]; exact here)
  have none : (observed.tracked.write observed.result observed.rcu.cmtRobIndex).rd = 0 :=
    (mirrors.supplied.source _ used).conditional calm
      ((congrArg RobOp.aluBranch copied).symm.trans branch)
      ((congrArg RobOp.aluJump copied).symm.trans jump)
  rw [valuesBefore_succ, advance_zero, Write.replay_cons, if_pos none] at agrees
  exact ⟨after, next, executed, agrees⟩

omit lawful in
variable (input) in
/-- A cycle with a flush, as the hart sees it. -/
theorem flush_next (flush : observed.processor.flush = true) :
    ∃ after, state.run program (observed.outcomes input) = some after ∧
      Follows state.pc (observed.events input) after.pc ∧ Agrees observed.registers after := by
  by_cases trap : observed.processor.trap = true
  · exact mirrors.trap_next trap
  rw [Bool.not_eq_true] at trap
  by_cases ret : observed.processor.core.globalRet = true
  · exact mirrors.return_next trap ret
  rw [Bool.not_eq_true] at ret
  have miss : observed.rcu.predictMiss = true := by
    rw [Processor.flush, trap, ret] at flush
    exact flush
  rw [outcomes, events, trap, ret, miss]
  simp only [Bool.false_eq_true, ↓reduceIte]
  by_cases branch : (!observed.rcu.dffCmtMissDelay && observed.rcu.headFirst.aluBranch) = true
  · rw [if_pos branch, if_pos branch]
    simp only [Bool.and_eq_true, Bool.not_eq_true'] at branch
    rw [Rcu.predictMiss, if_neg (by rw [branch.1]; decide)] at miss
    simp only [Rcu.cmtMiss, Bool.and_eq_true, Bool.not_eq_true'] at miss
    obtain ⟨after, next, executed, agrees⟩ :=
      mirrors.branch_next miss.2 branch.1 miss.1 branch.2
    refine ⟨after, ?_, ?_, agrees⟩
    · rw [RiscV.State.run_singleton]
      exact next
    · rw [executed]
      exact follows_execute.mpr ⟨rfl, rfl⟩
  · rw [if_neg branch, if_neg branch]
    exact ⟨state, rfl, rfl, mirrors.agrees⟩

/-- A cycle with a flush. -/
theorem step_flush (flush : observed.processor.flush = true) :
    ∃ after, state.run program (observed.outcomes input) = some after ∧
      ∃ length free past waiting,
        Mirrors program (observed.step input) after length free past waiting := by
  have fault : observed.rcu.globalSpeculateFault (observed.processor.rcuInput input) = true := flush
  obtain ⟨expected, length', free', past', waiting', steady, leads⟩ :=
    mirrors.steady.step_flush lawful.benign flush
  obtain ⟨after, runs, follows, agrees⟩ := mirrors.flush_next input flush
  have window : Rcu.Window (observed.step input).rcu 0 :=
    Rcu.step_window_fault observed.rcu (observed.processor.rcuInput input) flush
  have empty : length' = 0 := steady.tracks.sound.window.length_unique window
  have queued : (observed.step input).processor.fifo.Contains [] := by
    change (if observed.processor.core.flush (observed.processor.coreInput input) then
      F2if2o.reset Decoded.blank else _).Contains []
    rw [Processor.core_flush, if_pos flush]
    exact F2if2o.reset_contains Decoded.blank
  refine ⟨after, runs, length', free', past', waiting', ?_, ?_, supplied_empty window queued, ?_⟩
  · rw [follows.stop_unique leads]
    exact steady
  · rw [empty]
    exact valued_empty _
  · have kept : (observed.step input).registers = observed.registers :=
      congrArg (Write.replay observed.registers) (if_pos fault)
    rw [kept]
    exact agrees

/-- A cycle. -/
theorem step :
    ∃ after, state.run program (observed.outcomes input) = some after ∧
      ∃ length free past waiting,
        Mirrors program (observed.step input) after length free past waiting := by
  cases flush : observed.processor.flush
  · exact mirrors.step_quiet lawful flush
  · exact mirrors.step_flush lawful flush

end Mirrors

/-- The hart under reset. -/
def start : RiscV.State 39 := ⟨Fetch.resetVector, fun _ => 0⟩

theorem reset_mirrors (program : RiscV.Program 39) :
    Mirrors program reset start 0 Rcu.physicalRegisters [] [] :=
  ⟨reset_steady, valued_empty _, supplied_empty Rcu.reset_window (F2if2o.reset_contains _),
    fun _ => rfl⟩

end Observed

end GreenRio
