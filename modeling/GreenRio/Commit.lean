import GreenRio.Dispatch
import GreenRio.Recovery
import GreenRio.Slots

set_option autoImplicit false

namespace GreenRio

/-- An instruction that updates the committed state, with its slot and its status bits at that
moment. -/
structure CommitRecord where
  slot : RobIndex
  entry : RobEntry
  predictMiss : Bool
  exp : Bool

/-- Nothing younger may commit behind such an instruction before the flush it causes. -/
def CommitRecord.Redirects (record : CommitRecord) : Prop :=
  record.predictMiss = true ∨ record.exp = true ∨ record.entry.mret = true ∨
    record.entry.sret = true

namespace Core

open Counter Fifo

variable {core : Core} {length : Nat}

/-- The instructions that update the committed state in one cycle, oldest first. -/
def commits (core : Core) (input : CoreInput) : List CommitRecord :=
  if core.flush input then [] else
    accepted (core.rcu.doRobCommitFirst (core.rcuInput input))
      (core.rcu.doRobCommitSecond (core.rcuInput input))
      ⟨core.rcu.cmtRobIndex, core.rcu.headFirst, core.rcu.robPredictMiss core.rcu.cmtRobIndex,
        core.rcu.robExp core.rcu.cmtRobIndex⟩
      ⟨core.rcu.cmtRobIndexSecond, core.rcu.headSecond,
        core.rcu.robPredictMiss core.rcu.cmtRobIndexSecond,
        core.rcu.robExp core.rcu.cmtRobIndexSecond⟩

/-- The entries dispatched in one cycle. -/
def dispatches (core : Core) (input : CoreInput) : List RobEntry :=
  Rcu.dispatched core.rcu (core.rcuInput input)

/-- The instructions dispatched in one cycle, each with the slot it is written to. -/
def placed (core : Core) (input : CoreInput) : List (RobIndex × Decoded) :=
  accepted (core.rcu.doRobWriteFirst (core.rcuInput input))
    (core.rcu.doRobWriteSecond (core.rcuInput input)) (core.rcu.wrRobIndex, core.offer.first)
    (core.rcu.wrRobIndexSecond, core.offer.second)

/-- An exception of the instruction in a slot: decode found it, or a function unit reports it. -/
def Excepts (slot : RobIndex) (core : Core) (input : CoreInput) : Prop :=
  core.flush input = false ∧
    ((∃ instruction, (slot, instruction) ∈ placed core input ∧ instruction.exception = true) ∨
      ∃ completion ∈ (core.rcuInput input).completions,
        completion.exp = true ∧ completion.robIndex = slot)

/-- The instruction of a slot is flushed, or the slot is given to another one. -/
def Replaces (slot : RobIndex) (core : Core) (input : CoreInput) : Prop :=
  core.flush input = true ∨ ∃ instruction, (slot, instruction) ∈ placed core input

/-- An arithmetic unit reports that the instruction in a slot was predicted wrong. -/
def Mispredicts (slot : RobIndex) (core : Core) (input : CoreInput) : Prop :=
  core.flush input = false ∧ slot ∉ core.rcu.leaving (core.rcuInput input) ∧
    ∃ completion, (completion = input.alu1 ∨ completion = input.alu2) ∧
      completion.done = true ∧ completion.predictMiss = true ∧ completion.robIndex = slot

/-- The instruction of a slot is flushed or commits. -/
def Vacates (slot : RobIndex) (core : Core) (input : CoreInput) : Prop :=
  core.flush input = true ∨ slot ∈ core.rcu.leaving (core.rcuInput input)

theorem commits_slot (core : Core) (input : CoreInput) : ∀ record ∈ commits core input,
    record.entry = core.rcu.rob record.slot ∧
      record.predictMiss = core.rcu.robPredictMiss record.slot ∧
      record.exp = core.rcu.robExp record.slot := by
  intro record member
  unfold commits at member
  split at member
  · cases member
  · rcases accepted_mem member with ⟨-, rfl⟩ | ⟨-, rfl⟩
    · exact ⟨rfl, rfl, rfl⟩
    · exact ⟨rfl, rfl, rfl⟩

theorem commits_entry (core : Core) (input : CoreInput) :
    (commits core input).map CommitRecord.entry =
      Rcu.committed core.rcu (core.rcuInput input) := by
  unfold commits Rcu.committed
  cases fault : core.flush input
  · have quiet : core.rcu.globalSpeculateFault (core.rcuInput input) = false := fault
    simp only [quiet, Bool.false_eq_true, ↓reduceIte, Rcu.retiring, accepted_map]
  · have fault' : core.rcu.globalSpeculateFault (core.rcuInput input) = true := fault
    simp [fault']

theorem commits_length_le (core : Core) (input : CoreInput) : (commits core input).length ≤ 2 := by
  unfold commits
  split
  · exact Nat.zero_le 2
  · rw [accepted_length, amount]
    have first := Bool.toNat_le (core.rcu.doRobCommitFirst (core.rcuInput input))
    have second := Bool.toNat_le (core.rcu.doRobCommitSecond (core.rcuInput input))
    omega

/-- A committing head that does not flush redirects only as a mispredicted jump. -/
theorem head_redirects (input : CoreInput) (quiet : core.flush input = false)
    (first : core.rcu.doRobCommitFirst (core.rcuInput input) = true) :
    core.rcu.robExp core.rcu.cmtRobIndex = false ∧ core.rcu.headFirst.mret = false ∧
      core.rcu.headFirst.sret = false ∧
      (core.rcu.robPredictMiss core.rcu.cmtRobIndex = true → core.rcu.headFirst.aluJump = true) := by
  have ready : core.doRobCommitFirst = true := first
  simp only [flush, Rcu.globalSpeculateFault, Bool.or_eq_false_iff, rcuInput, globalRet,
    globalTrap, exception, ready, Bool.true_and, Bool.and_true] at quiet
  obtain ⟨⟨⟨mret, sret⟩, exp, -⟩, miss⟩ := quiet
  refine ⟨exp, mret, sret, fun missed => ?_⟩
  unfold Rcu.predictMiss Rcu.cmtMiss at miss
  by_contra noJump
  rw [missed] at miss
  split at miss <;> simp_all

theorem second_clean (input : CoreInput)
    (second : core.rcu.doRobCommitSecond (core.rcuInput input) = true) :
    core.rcu.robPredictMiss core.rcu.cmtRobIndex = false ∧
      ¬ CommitRecord.Redirects ⟨core.rcu.cmtRobIndexSecond, core.rcu.headSecond,
        core.rcu.robPredictMiss core.rcu.cmtRobIndexSecond,
        core.rcu.robExp core.rcu.cmtRobIndexSecond⟩ := by
  simp only [Rcu.doRobCommitSecond, Bool.and_eq_true, Bool.not_eq_true'] at second
  obtain ⟨⟨⟨⟨⟨⟨⟨⟨⟨⟨⟨⟨-, -⟩, miss'⟩, miss⟩, exp'⟩, -⟩, mret'⟩, -⟩, sret'⟩, -⟩, -⟩, -⟩, -⟩ := second
  simp [CommitRecord.Redirects, miss, miss', exp', mret', sret']

theorem redirects_last {past older younger : List CommitRecord} {fresh record : CommitRecord}
    (clean : ∀ record ∈ past, ¬ record.Redirects)
    (split : past ++ [fresh] = older ++ record :: younger) (redirects : record.Redirects) :
    younger = [] ∧ record = fresh := by
  rcases List.eq_nil_or_concat' younger with rfl | ⟨front, final, rfl⟩
  · exact ⟨rfl, (List.cons.inj (List.append_inj' split rfl).2).1.symm⟩
  · rw [← List.cons_append, ← List.append_assoc] at split
    have same := (List.append_inj' split rfl).1
    exact absurd redirects (clean record (by simp [same]))

/-- Since the last flush, only the youngest committed instruction may redirect, and then the
delayed flush is due. -/
structure Precise (core : Core) (past : List CommitRecord) : Prop where
  last : ∀ older record younger, past = older ++ record :: younger → record.Redirects →
    younger = [] ∧ core.rcu.dffCmtMissDelay = true
  plain : ∀ record ∈ past, record.exp = false ∧ record.entry.mret = false ∧
    record.entry.sret = false

theorem Precise.quiet {past : List CommitRecord} (precise : Precise core past) (input : CoreInput)
    (quiet : core.flush input = false) : ∀ record ∈ past, ¬ record.Redirects := by
  intro record member redirects
  obtain ⟨older, younger, split⟩ := List.append_of_mem member
  have due := (precise.last older record younger split redirects).2
  simp [flush, Rcu.globalSpeculateFault, Rcu.predictMiss, due] at quiet

theorem step_precise {past : List CommitRecord} (precise : Precise core past) (input : CoreInput)
    (quiet : core.flush input = false) :
    Precise (core.step input) (past ++ commits core input) := by
  have clean := precise.quiet input quiet
  have fault : core.rcu.globalSpeculateFault (core.rcuInput input) = false := quiet
  have delay : (core.step input).rcu.dffCmtMissDelay =
      (core.rcu.headFirst.aluJump && core.rcu.robPredictMiss core.rcu.cmtRobIndex) := by
    simp only [Core.step, Rcu.dffCmtMissDelay, Rcu.step, fault, Bool.false_eq_true, ↓reduceIte]
  have ordered := Rcu.commit_ordered core.rcu (core.rcuInput input)
  unfold commits
  simp only [quiet, Bool.false_eq_true, ↓reduceIte]
  cases first : core.rcu.doRobCommitFirst (core.rcuInput input)
  · have second : core.rcu.doRobCommitSecond (core.rcuInput input) = false := by
      by_contra commit
      simp [ordered (by simpa using commit)] at first
    simp only [second, accepted, Bool.false_eq_true, ↓reduceIte, List.append_nil]
    refine ⟨fun older record younger split redirects => ?_, precise.plain⟩
    exact absurd redirects (clean record (by simp [split]))
  · obtain ⟨exp, mret, sret, jump⟩ := head_redirects input quiet first
    cases second : core.rcu.doRobCommitSecond (core.rcuInput input)
    · simp only [accepted, ↓reduceIte, Bool.false_eq_true, List.append_nil]
      constructor
      · intro older record younger split redirects
        obtain ⟨rfl, rfl⟩ := redirects_last clean split redirects
        refine ⟨rfl, ?_⟩
        rcases redirects with missed | raised | returns | returns
        · change core.rcu.robPredictMiss core.rcu.cmtRobIndex = true at missed
          rw [delay, jump missed, missed, Bool.and_self]
        · simp [exp] at raised
        · simp [mret] at returns
        · simp [sret] at returns
      · intro record member
        rcases List.mem_append.mp member with old | fresh
        · exact precise.plain record old
        · rw [List.mem_singleton.mp fresh]
          exact ⟨exp, mret, sret⟩
    · obtain ⟨miss, clean'⟩ := second_clean input second
      simp only [accepted, ↓reduceIte, List.singleton_append]
      have none : ∀ record ∈ past ++ [⟨core.rcu.cmtRobIndex, core.rcu.headFirst,
          core.rcu.robPredictMiss core.rcu.cmtRobIndex, core.rcu.robExp core.rcu.cmtRobIndex⟩,
          ⟨core.rcu.cmtRobIndexSecond, core.rcu.headSecond,
            core.rcu.robPredictMiss core.rcu.cmtRobIndexSecond,
            core.rcu.robExp core.rcu.cmtRobIndexSecond⟩], ¬ record.Redirects := by
        intro record member
        rcases List.mem_append.mp member with old | fresh
        · exact clean record old
        · simp only [List.mem_cons, List.not_mem_nil, or_false] at fresh
          rcases fresh with rfl | rfl
          · simp [CommitRecord.Redirects, miss, exp, mret, sret]
          · exact clean'
      constructor
      · intro older record younger split redirects
        exact absurd redirects (none record (by simp [split]))
      · intro record member
        have safe := none record member
        simp only [CommitRecord.Redirects, not_or, Bool.not_eq_true] at safe
        exact safe.2

theorem step_precise_flush (core : Core) (input : CoreInput) : Precise (core.step input) [] :=
  ⟨fun older record younger split => by simp at split, by simp⟩

theorem run_precise (inputs : List CoreInput) :
    Precise (machine.run inputs) (machine.since flush commits inputs) := by
  induction inputs using List.reverseRecOn with
  | nil => exact ⟨fun older record younger split => by simp at split, by simp⟩
  | append_singleton inputs input ih =>
    rw [Synchronous.run_snoc, Synchronous.since_snoc]
    cases fault : (machine.run inputs).flush input
    · exact step_precise ih input fault
    · exact step_precise_flush _ input

/-- One cycle moves entries from dispatch through the window to commit; a flush drops the
window. -/
theorem step_commits (window : Rcu.Window core.rcu length) (input : CoreInput) :
    if core.flush input then commits core input = [] ∧ Rcu.inUse (core.step input).rcu = []
    else (commits core input).map CommitRecord.entry ++ Rcu.inUse (core.step input).rcu =
      Rcu.inUse core.rcu ++ dispatches core input := by
  split
  · rename_i fault
    exact ⟨by simp [commits, fault], Rcu.step_inUse_fault core.rcu (core.rcuInput input) fault⟩
  · rename_i fault
    have quiet : core.rcu.globalSpeculateFault (core.rcuInput input) = false :=
      Bool.eq_false_iff.mpr fault
    rw [commits_entry, Rcu.committed, quiet]
    exact Rcu.step_inUse window (core.rcuInput input) quiet

/-- Since the last flush, the dispatched entries are the committed ones followed by those in
use. -/
theorem run_committed_prefix (inputs : List CoreInput) :
    machine.since flush dispatches inputs =
      (machine.since flush commits inputs).map CommitRecord.entry ++
        Rcu.inUse (machine.run inputs).rcu := by
  induction inputs using List.reverseRecOn with
  | nil => rfl
  | append_singleton inputs input ih =>
    obtain ⟨length, window⟩ := run_window inputs
    have moved := step_commits window input
    rw [Synchronous.run_snoc, Synchronous.since_snoc, Synchronous.since_snoc]
    change _ = _ ++ Rcu.inUse ((machine.run inputs).step input).rcu
    cases fault : (machine.run inputs).flush input
    · simp only [fault, Bool.false_eq_true, ↓reduceIte] at moved ⊢
      rw [ih, List.map_append, List.append_assoc, List.append_assoc, moved]
    · simp only [fault, ↓reduceIte] at moved ⊢
      rw [moved.2]
      rfl

/-- Over a whole run the committed instructions are a subsequence of the dispatched ones. -/
theorem run_committed_sublist (inputs : List CoreInput) :
    ((machine.log commits inputs).map CommitRecord.entry).Sublist
      (machine.log dispatches inputs) := by
  -- The entries in use may still be flushed, so the induction keeps them apart from the log.
  suffices stronger : ((machine.log commits inputs).map CommitRecord.entry ++
      Rcu.inUse (machine.run inputs).rcu).Sublist (machine.log dispatches inputs) from
    (List.sublist_append_left _ _).trans stronger
  induction inputs using List.reverseRecOn with
  | nil => exact List.Sublist.refl _
  | append_singleton inputs input ih =>
    obtain ⟨length, window⟩ := run_window inputs
    have moved := step_commits window input
    rw [Synchronous.run_snoc, Synchronous.log_snoc, Synchronous.log_snoc, List.map_append,
      List.append_assoc]
    change (_ ++ (_ ++ Rcu.inUse ((machine.run inputs).step input).rcu)).Sublist _
    cases fault : (machine.run inputs).flush input
    · simp only [fault, Bool.false_eq_true, ↓reduceIte] at moved
      rw [moved, ← List.append_assoc]
      exact ih.append_right _
    · simp only [fault, ↓reduceIte] at moved
      rw [moved.1, moved.2, List.map_nil, List.append_nil, List.append_nil]
      exact ((List.sublist_append_left _ _).trans ih).trans (List.sublist_append_left _ _)

/-- The committed state depends on the committed instructions alone, in their order. -/
theorem run_committed_state (inputs : List CoreInput) :
    (machine.run inputs).rcu.renameRegBackup =
        Renaming.apply (fun _ => 0)
          (((machine.log commits inputs).map CommitRecord.entry).map RobEntry.renaming) ∧
      Rcu.commitSide (machine.run inputs).rcu.freeList =
        Rcu.commitSide (Rcu.committedFreeList
          ((machine.log commits inputs).map CommitRecord.entry)) := by
  have same : (machine.log commits inputs).map CommitRecord.entry =
      Rcu.machine.log Rcu.committed (machine.fed rcuInput inputs) := by
    rw [← log_rcu]
    induction inputs using List.reverseRecOn with
    | nil => rfl
    | append_singleton inputs input ih =>
      rw [Synchronous.log_snoc, Synchronous.log_snoc, List.map_append, commits_entry, ih]
  rw [same, run_rcu]
  obtain ⟨length, free, recovers⟩ := Rcu.run_recovers (machine.fed rcuInput inputs)
  exact ⟨Rcu.run_renameRegBackup _, recovers.side.symm⟩

/-- What the dispatch ports leave in a slot: what they write there, or what stood there. -/
theorem dispatchInto_placed (core : Core) (input : CoreInput) (slot : RobIndex) :
    core.rcu.dispatchInto (core.rcuInput input) core.rcu.robExp core.offer.first.exception
        core.offer.second.exception slot = true ↔
      (∃ instruction, (slot, instruction) ∈ placed core input ∧ instruction.exception = true) ∨
        (core.rcu.robExp slot = true ∧
          ¬ ∃ instruction, (slot, instruction) ∈ placed core input) := by
  have apart := core.rcu.wrRobIndexSecond_ne
  simp only [placed, accepted, Rcu.dispatchInto, writeIf_apply]
  cases core.rcu.doRobWriteFirst (core.rcuInput input) <;>
    cases core.rcu.doRobWriteSecond (core.rcuInput input) <;>
    by_cases first : slot = core.rcu.wrRobIndex <;>
    by_cases second : slot = core.rcu.wrRobIndexSecond <;>
    simp_all

theorem step_excepts (slot : RobIndex) (core : Core) (input : CoreInput) :
    (core.step input).rcu.robExp slot = true ↔
      Excepts slot core input ∨ (core.rcu.robExp slot = true ∧ ¬ Replaces slot core input) := by
  change (core.rcu.step (core.rcuInput input)).robExp slot = true ↔ _
  unfold Excepts Replaces
  cases fault : core.flush input
  · rw [Rcu.step_exp_iff core.rcu (core.rcuInput input) fault]
    change core.rcu.dispatchInto (core.rcuInput input) core.rcu.robExp core.offer.first.exception
      core.offer.second.exception slot = true ∨ _ ↔ _
    rw [dispatchInto_placed]
    simp only [Bool.false_eq_true, false_or, true_and]
    exact or_right_comm
  · have flushed : core.rcu.globalSpeculateFault (core.rcuInput input) = true := fault
    simp [Rcu.step, flushed]

theorem step_mispredicts (slot : RobIndex) (core : Core) (input : CoreInput) :
    (core.step input).rcu.robPredictMiss slot = true ↔
      Mispredicts slot core input ∨
        (core.rcu.robPredictMiss slot = true ∧ ¬ Vacates slot core input) := by
  change (core.rcu.step (core.rcuInput input)).robPredictMiss slot = true ↔ _
  unfold Mispredicts Vacates
  cases fault : core.flush input
  · rw [Rcu.step_predictMiss_iff core.rcu (core.rcuInput input) fault]
    simp only [Bool.false_eq_true, false_or, true_and]
    exact ⟨fun flag => flag.1.elim (fun stood => Or.inr ⟨stood, flag.2⟩)
        (fun unit => Or.inl ⟨flag.2, unit⟩),
      fun flag => flag.elim (fun unit => ⟨Or.inr unit.2, unit.1⟩)
        (fun stood => ⟨Or.inl stood.1, stood.2⟩)⟩
  · have flushed : core.rcu.globalSpeculateFault (core.rcuInput input) = true := fault
    simp [Rcu.step, flushed]

/-- The status bits of a slot are what was reported of its instruction since it came there. -/
theorem run_reported (inputs : List CoreInput) (slot : RobIndex) :
    ((machine.run inputs).rcu.robExp slot = true ↔
        machine.Standing (Excepts slot) (Replaces slot) inputs) ∧
      ((machine.run inputs).rcu.robPredictMiss slot = true ↔
        machine.Standing (Mispredicts slot) (Vacates slot) inputs) :=
  ⟨Synchronous.standing_iff (fun core : Core => core.rcu.robExp slot = true)
      (by simp [machine, reset, Rcu.reset]) (step_excepts slot) inputs,
    Synchronous.standing_iff (fun core : Core => core.rcu.robPredictMiss slot = true)
      (by simp [machine, reset, Rcu.reset]) (step_mispredicts slot) inputs⟩

theorem run_unexcepted (inputs : List CoreInput) :
    ∀ record ∈ machine.log commits inputs, record.exp = false := by
  induction inputs using List.reverseRecOn with
  | nil => simp
  | append_singleton inputs input ih =>
    intro record member
    rw [Synchronous.log_snoc] at member
    rcases List.mem_append.mp member with old | fresh
    · exact ih record old
    · have precise := run_precise (inputs ++ [input])
      rw [Synchronous.since_snoc] at precise
      cases fault : (machine.run inputs).flush input
      · simp only [fault, Bool.false_eq_true, ↓reduceIte] at precise
        exact (precise.plain record (List.mem_append_right _ fresh)).1
      · simp [commits, fault] at fresh

/-- Commit is in dispatch order, at most two a cycle, each instruction at most once, and it alone
makes the committed state. An exception or a misprediction reported of an instruction stands in its
slot until it leaves; behind a redirecting instruction nothing commits before its flush, and an
excepting one never commits. -/
theorem commit_in_order_and_precise (inputs : List CoreInput) :
    (∀ input, (commits (machine.run inputs) input).length ≤ 2) ∧
      ((machine.log commits inputs).map CommitRecord.entry).Sublist
        (machine.log dispatches inputs) ∧
      machine.since flush dispatches inputs =
        (machine.since flush commits inputs).map CommitRecord.entry ++
          Rcu.inUse (machine.run inputs).rcu ∧
      (machine.run inputs).rcu.renameRegBackup =
        Renaming.apply (fun _ => 0)
          (((machine.log commits inputs).map CommitRecord.entry).map RobEntry.renaming) ∧
      Rcu.commitSide (machine.run inputs).rcu.freeList =
        Rcu.commitSide (Rcu.committedFreeList
          ((machine.log commits inputs).map CommitRecord.entry)) ∧
      (∀ slot,
        ((machine.run inputs).rcu.robExp slot = true ↔
          machine.Standing (Excepts slot) (Replaces slot) inputs) ∧
        ((machine.run inputs).rcu.robPredictMiss slot = true ↔
          machine.Standing (Mispredicts slot) (Vacates slot) inputs)) ∧
      (∀ input, ∀ record ∈ commits (machine.run inputs) input,
        record.entry = (machine.run inputs).rcu.rob record.slot ∧
          (record.predictMiss = true ↔
            machine.Standing (Mispredicts record.slot) (Vacates record.slot) inputs) ∧
          (record.exp = true ↔
            machine.Standing (Excepts record.slot) (Replaces record.slot) inputs)) ∧
      (∀ older record younger,
        machine.since flush commits inputs = older ++ record :: younger →
          record.Redirects → younger = []) ∧
      ∀ record ∈ machine.log commits inputs, record.exp = false := by
  refine ⟨fun input => commits_length_le _ input, run_committed_sublist inputs,
    run_committed_prefix inputs, (run_committed_state inputs).1, (run_committed_state inputs).2,
    run_reported inputs, ?_, fun older record younger split redirects =>
      ((run_precise inputs).last older record younger split redirects).1, run_unexcepted inputs⟩
  intro input record member
  obtain ⟨entry, missed, raised⟩ := commits_slot _ input record member
  obtain ⟨exception, misprediction⟩ := run_reported inputs record.slot
  refine ⟨entry, ?_, ?_⟩
  · rw [missed, misprediction]
  · rw [raised, exception]

end Core

end GreenRio
