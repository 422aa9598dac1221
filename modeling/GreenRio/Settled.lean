import GreenRio.Observed

set_option autoImplicit false

namespace GreenRio.Observed

open Circular Counter Fifo

variable {observed : Observed} {input : ProcessorInput} {length : Nat} {index : RobIndex}

/-- Only finished entries leave. -/
theorem leaving_finished (rcu : Rcu) (input : RcuInput) (leaves : index ∈ rcu.leaving input) :
    rcu.robFinish index = true := by
  have ordered := Rcu.commit_ordered rcu input
  unfold Rcu.leaving at leaves
  cases first : rcu.doRobCommitFirst input <;> cases second : rcu.doRobCommitSecond input <;>
    simp only [first, second, amount, Bool.toNat_true, Bool.toNat_false, slots, List.mem_cons,
      List.not_mem_nil, or_false] at leaves ordered
  · cases ordered trivial
  · subst leaves
    simp only [Rcu.doRobCommitFirst, Rcu.commitReady, Bool.and_eq_true] at first
    exact first.1.1.2
  · simp only [Rcu.doRobCommitFirst, Rcu.commitReady, Bool.and_eq_true] at first
    simp only [Rcu.doRobCommitSecond, Bool.and_eq_true] at second
    rcases leaves with rfl | rfl
    · exact first.1.1.2
    · rw [← secondLine_eq_advance]
      exact second.1.1.1.1.1.1.1.1.1.1.1.2

/-- The instructions dispatched in a cycle keep what decode promises. -/
def Offered (observed : Observed) (input : ProcessorInput) : Prop :=
  ∀ instruction ∈ observed.processor.core.entered (observed.processor.coreInput input),
    instruction.Proper ∧ instruction.Guarded

/-- A slot that one of the dispatch ports writes, with the instruction it is given. -/
def Enters (observed : Observed) (input : ProcessorInput) (index : RobIndex)
    (instruction : Decoded) : Prop :=
  (index = observed.rcu.wrRobIndex ∧
      observed.rcu.doRobWriteFirst (observed.processor.rcuInput input) = true ∧
      instruction = (observed.processor.rcuInput input).offer.first) ∨
    (index = observed.rcu.wrRobIndexSecond ∧
      observed.rcu.doRobWriteSecond (observed.processor.rcuInput input) = true ∧
      instruction = (observed.processor.rcuInput input).offer.second)

section Quiet

variable (quiet : observed.processor.flush = false)

include quiet

variable (input) in
/-- Without a flush the stages load what the select ports carry. -/
theorem step_stages :
    (observed.step input).issue.alu1 = Backend.loadStage observed.issue.alu1
        (observed.processor.backend.selectFirst (observed.processor.rcuInput input))
        (fun entry => entry.isAlu && !entry.isCsr) false ∧
      (observed.step input).issue.alu2 = Backend.loadStage observed.issue.alu2
        (observed.processor.backend.selectSecond (observed.processor.rcuInput input))
        (fun entry => entry.isAlu) false ∧
      (observed.step input).issue.csr = Backend.loadStage observed.issue.csr
        (observed.processor.backend.selectFirst (observed.processor.rcuInput input))
        (fun entry => entry.isCsr) false := by
  have fault : observed.processor.backend.rcu.globalSpeculateFault
      (observed.processor.backendInput input).toRcuInput = false := quiet
  rw [← fault]
  exact ⟨rfl, rfl, rfl⟩

/-- What a cycle without a flush does to a slot that stays in use. -/
theorem step_kept (used : observed.rcu.robUsed index = true)
    (stays : index ∉ observed.rcu.leaving (observed.processor.rcuInput input)) :
    (observed.step input).rcu.rob index = observed.rcu.rob index ∧
      (observed.step input).source index = observed.source index ∧
      (observed.step input).result index =
        observed.tracked.currentResult (observed.processor.rcuInput input) index ∧
      ((observed.step input).rcu.robFinish index = true ↔
        observed.rcu.robFinish index = true ∨
          (observed.processor.rcuInput input).Completes index) := by
  have fault : observed.rcu.globalSpeculateFault (observed.processor.rcuInput input) = false := quiet
  obtain ⟨free, free'⟩ := observed.rcu.write_unused (observed.processor.rcuInput input)
  refine ⟨Rcu.dispatchInto_used _ used _ _ _, Rcu.dispatchInto_used _ used _ _ _,
    Rcu.dispatchInto_used _ used _ _ _, ?_⟩
  rw [step_rcu, Rcu.step_finish_iff observed.rcu _ fault]
  constructor
  · rintro (⟨skip, rfl⟩ | ⟨skip, rfl⟩ | ⟨finish, -⟩)
    · simp only [Rcu.doRobSelectSkipSecond, Bool.and_eq_true] at skip
      simp [free' skip.2] at used
    · simp only [Rcu.doRobSelectSkipFirst, Bool.and_eq_true] at skip
      simp [free skip.2] at used
    · exact finish
  · exact fun finish => Or.inr (Or.inr ⟨finish, stays⟩)

/-- What it does to a slot that a dispatch port writes. -/
theorem step_entered (window : Rcu.Window observed.rcu length) (settled : Settled observed)
    (responds : Responds observed input) {instruction : Decoded}
    (enters : Enters observed input index instruction) :
    observed.rcu.robUsed index = false ∧ (observed.step input).rcu.robUsed index = true ∧
      index ∉ observed.rcu.leaving (observed.processor.rcuInput input) ∧
      ((observed.step input).rcu.rob index).toRobOp = instruction.toRobOp ∧
      (observed.step input).source index = instruction ∧
      (observed.step input).result index = none ∧
      ((observed.step input).rcu.robFinish index = true ↔ instruction.skips = true) ∧
      (instruction.exception = true → (observed.step input).rcu.robExp index = true) := by
  have fault : observed.rcu.globalSpeculateFault (observed.processor.rcuInput input) = false := quiet
  obtain ⟨unused, used⟩ := window.fresh_used (observed.processor.rcuInput input) fault
    (enters.imp (fun enters => ⟨enters.1, enters.2.1⟩) (fun enters => ⟨enters.1, enters.2.1⟩))
  have stays : index ∉ observed.rcu.leaving (observed.processor.rcuInput input) := by
    intro leaves
    simp [window.leaving_used _ leaves] at unused
  have incomplete : ¬ (observed.processor.rcuInput input).Completes index := by
    intro completes
    simp [(settled.completes_pending responds completes).1] at unused
  have unfinished := (settled.idle index unused).1
  have finish := Rcu.step_finish_iff observed.rcu (observed.processor.rcuInput input) fault index
  simp only [unfinished, incomplete, Bool.false_eq_true, or_self, false_and, or_false] at finish
  have apart := observed.rcu.wrRobIndexSecond_ne
  refine ⟨unused, used, stays, ?_⟩
  rcases enters with ⟨rfl, write, rfl⟩ | ⟨rfl, write, rfl⟩
  · have raised := Rcu.step_exp observed.rcu _ fault observed.rcu.wrRobIndex
    rw [Rcu.dispatchInto_first _ write] at raised
    refine ⟨congrArg RobEntry.toRobOp (Rcu.dispatchInto_first _ write _ _ _),
      Rcu.dispatchInto_first _ write _ _ _, Rcu.dispatchInto_first _ write _ _ _, ?_, raised⟩
    rw [step_rcu, finish]
    simp [Rcu.doRobSelectSkipFirst, write, apart]
  · have raised := Rcu.step_exp observed.rcu _ fault observed.rcu.wrRobIndexSecond
    rw [Rcu.dispatchInto_second _ write] at raised
    refine ⟨congrArg RobEntry.toRobOp (Rcu.dispatchInto_second _ write _ _ _),
      Rcu.dispatchInto_second _ write _ _ _, Rcu.dispatchInto_second _ write _ _ _, ?_, raised⟩
    rw [step_rcu, finish]
    simp [Rcu.doRobSelectSkipSecond, write, apart.symm]

/-- A slot in use after the cycle was kept or entered. -/
theorem step_used_cases (used : (observed.step input).rcu.robUsed index = true) :
    (observed.rcu.robUsed index = true ∧
        index ∉ observed.rcu.leaving (observed.processor.rcuInput input)) ∨
      ∃ instruction, Enters observed input index instruction := by
  have fault : observed.rcu.globalSpeculateFault (observed.processor.rcuInput input) = false := quiet
  rcases Rcu.step_used_cases (observed.processor.rcuInput input) fault used with
    kept | ⟨same, write⟩ | ⟨same, write⟩
  · exact Or.inl kept
  · exact Or.inr ⟨_, Or.inl ⟨same, write, rfl⟩⟩
  · exact Or.inr ⟨_, Or.inr ⟨same, write, rfl⟩⟩

end Quiet

theorem Offered.entered (offered : Offered observed input) {instruction : Decoded}
    (enters : Enters observed input index instruction) :
    instruction.Proper ∧ instruction.Guarded := by
  apply offered
  rcases enters with ⟨-, write, rfl⟩ | ⟨-, write, rfl⟩
  · exact accepted_first write
  · exact accepted_second write

/-- A completion of one of the arithmetic units that finds a misprediction. -/
theorem miss_completes (settled : Settled observed)
    (missed : ∃ completion, (completion = (observed.processor.rcuInput input).alu1 ∨
      completion = (observed.processor.rcuInput input).alu2) ∧ completion.done = true ∧
      completion.predictMiss = true ∧ completion.robIndex = index) :
    (observed.processor.rcuInput input).Completes index ∧
      (observed.rcu.rob index).arithmetic = true ∧ (observed.source index).exception = false := by
  have quietSource : ∀ instruction : Decoded, instruction.skips = false →
      instruction.exception = false := by
    intro instruction active
    simp only [Decoded.skips, Bool.or_eq_false_iff] at active
    exact active.1.1.1
  obtain ⟨completion, rfl | rfl, done, -, rfl⟩ := missed
  · obtain ⟨staged, arithmetic⟩ := settled.alu1 (Bool.and_eq_true _ _ |>.mp done).1
    rw [staged.entry] at arithmetic
    exact ⟨⟨_, by simp [RcuInput.completions], done, rfl⟩, arithmetic,
      quietSource _ staged.active⟩
  · obtain ⟨staged, arithmetic⟩ := settled.alu2 (Bool.and_eq_true _ _ |>.mp done).1
    rw [staged.entry] at arithmetic
    exact ⟨⟨_, by simp [RcuInput.completions], done, rfl⟩, arithmetic,
      quietSource _ staged.active⟩

section Step

variable (window : Rcu.Window observed.rcu length) (settled : Settled observed)
  (responds : Responds observed input) (quiet : observed.processor.flush = false)

include window settled responds quiet

/-- Nothing is left behind in a slot that is free after the cycle. -/
theorem step_idle (unused : (observed.step input).rcu.robUsed index = false) :
    (observed.step input).rcu.robFinish index = false ∧
      (observed.step input).rcu.robPredictMiss index = false ∧
      (observed.step input).issue.robSelected index = false := by
  have fault : observed.rcu.globalSpeculateFault (observed.processor.rcuInput input) = false := quiet
  have gone : observed.rcu.robUsed index = true →
      index ∈ observed.rcu.leaving (observed.processor.rcuInput input) := by
    intro used
    by_contra stays
    simp [step_rcu, Rcu.step_used_of_stays _ fault used stays] at unused
  have unwritten : ∀ instruction, ¬ Enters observed input index instruction := by
    intro instruction enters
    simp [(step_entered quiet window settled responds enters).2.1] at unused
  have stale : ∀ {flag : Bool}, (observed.rcu.robUsed index = false → flag = false) →
      flag = true → index ∈ observed.rcu.leaving (observed.processor.rcuInput input) := by
    intro flag idle set
    apply gone
    by_contra free
    simp [idle (by simpa using free)] at set
  refine ⟨?_, ?_, ?_⟩
  · rw [← Bool.not_eq_true, step_rcu, Rcu.step_finish_iff observed.rcu _ fault]
    rintro (⟨skip, same⟩ | ⟨skip, same⟩ | ⟨finish | completes, stays⟩)
    · simp only [Rcu.doRobSelectSkipSecond, Bool.and_eq_true] at skip
      exact unwritten _ (Or.inr ⟨same, skip.2, rfl⟩)
    · simp only [Rcu.doRobSelectSkipFirst, Bool.and_eq_true] at skip
      exact unwritten _ (Or.inl ⟨same, skip.2, rfl⟩)
    · exact stays (stale (fun free => (settled.idle index free).1) finish)
    · exact stays (gone (settled.completes_pending responds completes).1)
  · rw [← Bool.not_eq_true, step_rcu, Rcu.step_predictMiss_iff observed.rcu _ fault]
    rintro ⟨miss | missed, stays⟩
    · exact stays (stale (fun free => (settled.idle index free).2.1) miss)
    · exact stays (gone (settled.completes_pending responds (miss_completes settled missed).1).1)
  · rw [← Bool.not_eq_true, issue, show (observed.step input).processor.backend =
      observed.processor.backend.step (observed.processor.backendInput input) from rfl,
      Backend.step_selected_iff _ fault]
    rintro ⟨selected | ⟨issued, member, rfl⟩, stays⟩
    · exact stays (stale (fun free => (settled.idle index free).2.2) selected)
    · rcases (Backend.issues_cases _ member).2 with ⟨used, -⟩ | ⟨same, write, -⟩ | ⟨same, write, -⟩
      · exact stays (gone used)
      · exact unwritten _ (Or.inl ⟨same, write, rfl⟩)
      · exact unwritten _ (Or.inr ⟨same, write, rfl⟩)

/-- An operation loaded into a stage waits there for its unit. -/
theorem issued_staged {issued : Issued}
    (member : issued ∈ observed.processor.backend.issues (observed.processor.rcuInput input))
    (awake : ((observed.step input).source issued.robIndex).wfi = false) :
    (observed.step input).Staged ⟨true, issued⟩ := by
  have fault : observed.rcu.globalSpeculateFault (observed.processor.rcuInput input) = false := quiet
  have selected := Backend.step_selected_iff (observed.processor.backendInput input) fault
    issued.robIndex
  obtain ⟨entry, origin⟩ := Backend.issues_cases (observed.processor.backendInput input) member
  rcases origin with ⟨used, waiting, exp, mret, sret⟩ | fresh
  · -- A waiting entry has not been executed, and it does not skip execution either.
    have source : (observed.step input).source issued.robIndex =
        observed.source issued.robIndex := Rcu.dispatchInto_used _ used _ _ _
    have copied := settled.copied issued.robIndex used
    have same : issued.entry = observed.rcu.rob issued.robIndex :=
      entry.trans (Rcu.dispatchInto_used _ used _ _ _)
    have active : (observed.source issued.robIndex).skips = false := by
      have calm : (observed.source issued.robIndex).exception = false := by
        by_contra raised
        have flagged := settled.raised issued.robIndex used (by simpa using raised)
        exact absurd (flagged.symm.trans exp) (by simp)
      rw [same, copied] at mret sret
      rw [source] at awake
      simp [Decoded.skips, calm, mret, sret, awake]
    have unfinished : observed.rcu.robFinish issued.robIndex = false := by
      by_contra finish
      rcases settled.finished issued.robIndex used (by simpa using finish) with chosen | skips
      · exact absurd (chosen.symm.trans waiting) (by simp)
      · simp [active] at skips
    have stays : issued.robIndex ∉ observed.rcu.leaving (observed.processor.rcuInput input) := by
      intro leaves
      simp [leaving_finished _ _ leaves] at unfinished
    obtain ⟨-, -, -, finish⟩ := step_kept quiet used stays
    refine ⟨⟨Rcu.step_used_of_stays _ fault used stays,
      selected.mpr ⟨Or.inr ⟨issued, member, rfl⟩, stays⟩, ?_⟩, entry, by rw [source]; exact active⟩
    rw [← Bool.not_eq_true, finish]
    rintro (done | completes)
    · simp [done] at unfinished
    · exact absurd ((settled.completes_pending responds completes).2.1.symm.trans waiting) (by simp)
  · obtain ⟨instruction, enters, active⟩ : ∃ instruction,
        Enters observed input issued.robIndex instruction ∧ instruction.skips = false := by
      rcases fresh with ⟨same, write, active⟩ | ⟨same, write, active⟩
      · exact ⟨_, Or.inl ⟨same, write, rfl⟩, active⟩
      · exact ⟨_, Or.inr ⟨same, write, rfl⟩, active⟩
    obtain ⟨-, used, stays, -, source, -, finish, -⟩ :=
      step_entered quiet window settled responds enters
    refine ⟨⟨used, selected.mpr ⟨Or.inr ⟨issued, member, rfl⟩, stays⟩, ?_⟩, entry,
      by rw [source]; exact active⟩
    rw [← Bool.not_eq_true, finish, active]
    simp

omit window in
theorem step_missed (miss : (observed.step input).rcu.robPredictMiss index = true) :
    (observed.step input).rcu.robUsed index = true ∧
      (observed.step input).rcu.robFinish index = true ∧
      ((observed.step input).source index).arithmetic = true ∧
      ((observed.step input).source index).exception = false := by
  have fault : observed.rcu.globalSpeculateFault (observed.processor.rcuInput input) = false := quiet
  obtain ⟨origin, stays⟩ := (Rcu.step_predictMiss_iff observed.rcu _ fault index).mp miss
  rcases origin with before | missed
  · obtain ⟨used, done, arithmetic, calm⟩ := settled.missed index before
    obtain ⟨-, source, -, finish⟩ := step_kept quiet used stays
    rw [source]
    exact ⟨Rcu.step_used_of_stays _ fault used stays, finish.mpr (Or.inl done), arithmetic, calm⟩
  · obtain ⟨completes, arithmetic, calm⟩ := miss_completes settled missed
    have used := (settled.completes_pending responds completes).1
    obtain ⟨-, source, -, finish⟩ := step_kept quiet used stays
    rw [settled.copied index used] at arithmetic
    rw [source]
    exact ⟨Rcu.step_used_of_stays _ fault used stays, finish.mpr (Or.inr completes), arithmetic,
      calm⟩

variable (offered : Offered observed input)

include offered

/-- What the slots in use agree on after a cycle without a flush. -/
theorem step_slot (used : (observed.step input).rcu.robUsed index = true) :
    ((observed.step input).rcu.rob index).toRobOp =
        ((observed.step input).source index).toRobOp ∧
      (((observed.step input).source index).Proper ∧
        ((observed.step input).source index).Guarded) ∧
      (((observed.step input).source index).exception = true →
        (observed.step input).rcu.robExp index = true) ∧
      ((observed.step input).rcu.robFinish index = true →
        (observed.step input).issue.robSelected index = true ∨
          ((observed.step input).source index).skips = true) ∧
      ((observed.step input).rcu.robFinish index = false →
        (observed.step input).result index = none) := by
  have fault : observed.rcu.globalSpeculateFault (observed.processor.rcuInput input) = false := quiet
  rcases step_used_cases quiet used with ⟨before, stays⟩ | ⟨instruction, enters⟩
  · obtain ⟨rob, source, result, finish⟩ := step_kept quiet before stays
    rw [rob, source]
    refine ⟨settled.copied index before, settled.proper index before, fun raised => ?_, ?_, ?_⟩
    · apply Rcu.step_exp observed.rcu _ fault
      rw [Rcu.dispatchInto_used _ before]
      exact settled.raised index before raised
    · rw [finish]
      have chosen : observed.issue.robSelected index = true →
          (observed.step input).issue.robSelected index = true := fun selected =>
        (Backend.step_selected_iff (observed.processor.backendInput input) fault index).mpr
          ⟨Or.inl selected, stays⟩
      rintro (done | completes)
      · exact (settled.finished index before done).imp chosen id
      · exact Or.inl (chosen (settled.completes_pending responds completes).2.1)
    · rw [← Bool.not_eq_true, finish, not_or]
      rintro ⟨unfinished, incomplete⟩
      rw [result, Tracked.currentResult, Override.foldl_none]
      · exact settled.valued index before (by simpa using unfinished)
      · intro completion member
        by_contra done
        simp only [Bool.not_eq_false, Bool.and_eq_true, beq_iff_eq] at done
        exact incomplete ⟨completion, member, done⟩
  · obtain ⟨-, -, -, op, source, result, finish, raised⟩ :=
      step_entered quiet window settled responds enters
    rw [source]
    exact ⟨op, offered.entered enters, raised, fun done => Or.inr (finish.mp done), fun _ => result⟩

/-- An issued operation has the fields of its instruction. -/
theorem issued_proper {issued : Issued}
    (member : issued ∈ observed.processor.backend.issues (observed.processor.rcuInput input)) :
    issued.entry.toRobOp = ((observed.step input).source issued.robIndex).toRobOp ∧
      ((observed.step input).source issued.robIndex).Proper := by
  obtain ⟨entry, origin⟩ := Backend.issues_cases (observed.processor.backendInput input) member
  rcases origin with ⟨used, -⟩ | fresh
  · have source : (observed.step input).source issued.robIndex =
        observed.source issued.robIndex := Rcu.dispatchInto_used _ used _ _ _
    have same : issued.entry = observed.rcu.rob issued.robIndex :=
      entry.trans (Rcu.dispatchInto_used _ used _ _ _)
    rw [same, source]
    exact ⟨settled.copied _ used, (settled.proper _ used).1⟩
  · obtain ⟨instruction, enters⟩ : ∃ instruction,
        Enters observed input issued.robIndex instruction := by
      rcases fresh with ⟨same, write, -⟩ | ⟨same, write, -⟩
      · exact ⟨_, Or.inl ⟨same, write, rfl⟩⟩
      · exact ⟨_, Or.inr ⟨same, write, rfl⟩⟩
    obtain ⟨-, -, -, op, source, -⟩ := step_entered quiet window settled responds enters
    rw [source]
    exact ⟨(congrArg RobEntry.toRobOp entry).trans op, (offered.entered enters).1⟩

/-- A stage of the arithmetic or CSR units after a cycle without a flush. -/
theorem stage_staged {stage : Stage} {port : Option Issued} {accepts : RobEntry → Bool}
    (inside : ∀ issued, port = some issued →
      issued ∈ observed.processor.backend.issues (observed.processor.rcuInput input))
    (only : ∀ entry, accepts entry = true → entry.isCsr = true ∨ entry.isAlu = true)
    (valid : (Backend.loadStage stage port accepts false).valid = true) :
    (observed.step input).Staged (Backend.loadStage stage port accepts false) := by
  obtain ⟨onPort, takes⟩ := Backend.loadStage_valid valid
  have member := inside _ onPort
  obtain ⟨op, proper⟩ := issued_proper window settled responds quiet offered member
  have isAlu := only _ takes
  rw [op] at isAlu
  have awake := (proper.apart (isAlu.elim proper.status id)).2.2.2.2.2
  obtain ⟨pending, entry, active⟩ := issued_staged window settled responds quiet member awake
  exact ⟨pending, entry, active⟩

/-- A cycle without a flush keeps every slot and every stage settled. -/
theorem step_settled : Settled (observed.step input) := by
  have slot := fun index (used : (observed.step input).rcu.robUsed index = true) =>
    step_slot window settled responds quiet offered used
  obtain ⟨alu1, alu2, csr⟩ := step_stages input quiet
  -- Whatever is on the second port, something older is on the first.
  have behind : ∀ issued, observed.processor.backend.selectSecond
      (observed.processor.rcuInput input) = some issued → ∃ older,
      observed.processor.backend.selectFirst (observed.processor.rcuInput input) = some older := by
    intro issued second
    rcases issues : observed.processor.backend.issues (observed.processor.rcuInput input) with
      _ | ⟨older, rest⟩
    · simp [Backend.selectSecond, issues] at second
    · exact ⟨older, by simp [Backend.selectFirst, issues]⟩
  refine ⟨fun index => step_idle window settled responds quiet, fun index used => (slot index used).1,
    fun index used => (slot index used).2.1, fun index used => (slot index used).2.2.1,
    fun index used => (slot index used).2.2.2.1, fun index used => (slot index used).2.2.2.2,
    fun index => step_missed settled responds quiet, ?_, ?_, ?_, ?_⟩
  · rw [alu1]
    intro valid
    refine ⟨stage_staged window settled responds quiet offered
      (fun _ => Backend.selectFirst_mem) (fun entry takes => Or.inr (by simp_all)) valid, ?_⟩
    exact (Backend.loadStage_valid valid).2
  · rw [alu2]
    intro valid
    refine ⟨stage_staged window settled responds quiet offered
      (fun _ => Backend.selectSecond_mem) (fun entry takes => Or.inr takes) valid, ?_⟩
    obtain ⟨second, takes⟩ := Backend.loadStage_valid valid
    obtain ⟨older, first⟩ := behind _ second
    have plain := (Backend.selectSecond_apart window first second).2
    simp only [RobOp.arithmetic, Bool.and_eq_true, Bool.not_eq_true']
    exact ⟨takes, plain⟩
  · rw [csr]
    intro valid
    refine ⟨stage_staged window settled responds quiet offered
      (fun _ => Backend.selectFirst_mem) (fun entry takes => Or.inl takes) valid, ?_⟩
    exact (Backend.loadStage_valid valid).2
  · rw [alu1, alu2]
    intro valid1 valid2
    exact (Backend.selectSecond_apart window (Backend.loadStage_valid valid1).1
      (Backend.loadStage_valid valid2).1).1

end Step

/-- A flush leaves nothing in use and no stage valid. -/
theorem step_settled_flush (flush : observed.processor.flush = true) :
    Settled (observed.step input) := by
  have fault : observed.processor.backend.rcu.globalSpeculateFault
      (observed.processor.backendInput input).toRcuInput = true := flush
  have unloaded : ∀ (stage : Stage) (port : Option Issued) (accepts : RobEntry → Bool),
      (Backend.loadStage stage port accepts true).valid = false := by
    intro stage port accepts
    unfold Backend.loadStage
    split
    · split <;> rfl
    · rfl
  have backend : (observed.step input).processor.backend =
    observed.processor.backend.step (observed.processor.backendInput input) := rfl
  have unused : ∀ index, (observed.step input).rcu.robUsed index = false := by
    intro index
    simp only [rcu, backend, Backend.step, Rcu.step, fault, ↓reduceIte]
  have unmissed : ∀ index, (observed.step input).rcu.robPredictMiss index = false := by
    intro index
    simp only [rcu, backend, Backend.step, Rcu.step, fault, ↓reduceIte]
  have empty : (observed.step input).issue.alu1.valid = false ∧
      (observed.step input).issue.alu2.valid = false ∧
      (observed.step input).issue.csr.valid = false := by
    simp only [issue, backend, Backend.step, fault, unloaded, and_self]
  constructor
  · intro index _
    refine ⟨?_, unmissed index, ?_⟩
    · simp only [rcu, backend, Backend.step, Rcu.step, fault, ↓reduceIte]
    · simp only [issue, backend, Backend.step, fault, ↓reduceIte]
  all_goals simp [unused, unmissed, empty]

end GreenRio.Observed
