import GreenRio.Readiness
import GreenRio.Routing

set_option autoImplicit false

namespace GreenRio

open Circular Counter Fifo

/-- Some unit executes the instruction, or it is not executed at all. -/
def Decoded.classed (instruction : Decoded) : Bool :=
  instruction.skips || instruction.isAlu || instruction.isMd || instruction.isMemory

namespace Decoder

theorem illegalIf_classed {out : Decoded} (classed : out.classed = true) (condition : Bool) :
    (illegalIf condition out).classed = true := by
  unfold illegalIf
  split
  · simp [Decoded.classed, Decoded.skips]
  · exact classed

theorem illegalIf_true (out : Decoded) : (illegalIf true out).classed = true := by
  simp [illegalIf, Decoded.classed, Decoded.skips]

theorem privileged_classed (instr : BitVec 32) (out : Decoded) (mode : DecodeMode) :
    (privileged instr out mode).classed = true := by
  unfold privileged
  split
  · simp [Decoded.classed, Decoded.skips]
  · split
    · apply illegalIf_classed
      simp [Decoded.classed, Decoded.skips]
    · split
      · apply illegalIf_classed
        simp [Decoded.classed, Decoded.skips]
      · exact illegalIf_true _
  · apply illegalIf_classed
    simp [Decoded.classed, RobOp.isMemory]
  · split
    · simp [Decoded.classed, Decoded.skips]
    · exact illegalIf_true _
  · exact illegalIf_true _

theorem csrOp_classed (instr : BitVec 32) {checked : Decoded} (alu : checked.isAlu = true) :
    (csrOp instr checked).classed = true := by
  unfold csrOp
  split
  all_goals first
    | exact illegalIf_true _
    | apply illegalIf_classed
      simp [Decoded.classed, alu]

theorem decodeOpcode_classed (fetched : Fetched) (mode : DecodeMode) :
    (decodeOpcode fetched.rvInst (defaults fetched) mode).classed = true := by
  unfold decodeOpcode
  split
  case h_1 => simp [lui, Decoded.classed, defaults]
  case h_2 => simp [auipc, Decoded.classed, defaults]
  case h_3 => simp [jal, Decoded.classed, defaults]
  case h_4 => exact illegalIf_classed (by simp [Decoded.classed, defaults]) _
  case h_5 => exact illegalIf_classed (by simp [Decoded.classed, defaults]) _
  case h_6 => exact illegalIf_classed (by simp [Decoded.classed, RobOp.isMemory]) _
  case h_7 => exact illegalIf_classed (by simp [Decoded.classed, RobOp.isMemory]) _
  case h_8 => exact illegalIf_classed (by simp [Decoded.classed, defaults]) _
  case h_9 => exact illegalIf_classed (by simp [Decoded.classed, defaults]) _
  case h_10 =>
    unfold op
    split
    · simp [Decoded.classed]
    · apply illegalIf_classed
      simp [Decoded.classed, defaults]
  case h_11 =>
    unfold opHalf
    split <;> apply illegalIf_classed <;> simp [Decoded.classed, defaults]
  case h_12 =>
    unfold amo
    split
    · apply illegalIf_classed
      simp [Decoded.classed, RobOp.isMemory]
    · exact illegalIf_true _
  case h_13 =>
    unfold fence
    split
    · simp [Decoded.classed, RobOp.isMemory]
    · simp [Decoded.classed, RobOp.isMemory]
    · exact illegalIf_true _
  case h_14 =>
    unfold system
    split
    · exact privileged_classed _ _ _
    · apply csrOp_classed
      unfold illegalIf
      split <;> rfl
  case h_15 => exact illegalIf_true _

/-- Decode gives every instruction to a unit, or has it skip execution. -/
theorem decode_classed (mode : DecodeMode) (lines : InterruptLines) (fetched : Fetched) :
    (decode mode lines fetched).classed = true := by
  have plain := decodeOpcode_classed fetched mode
  unfold decode
  split
  · simp [Decoded.classed, Decoded.skips]
  · unfold rvDecoder
    by_cases raised : fetched.exception = true
    · simp [raised, Decoded.classed, Decoded.skips]
    · simpa [raised] using plain

end Decoder

/-- The units that take their operations from a queue. -/
inductive Lane where
  | md
  | lsu
  deriving DecidableEq

namespace Lane

def queue (lane : Lane) (issue : Issue) : F2if2o 4 Issued :=
  match lane with
  | .md => issue.mdQueue
  | .lsu => issue.lsuQueue

def accepts (lane : Lane) (op : RobOp) : Bool :=
  match lane with
  | .md => op.isMd
  | .lsu => op.isMemory

/-- The ready bit of the unit, which takes the oldest operation out of the queue. -/
def takes (lane : Lane) (input : ProcessorInput) : Bool :=
  match lane with
  | .md => input.mdReady
  | .lsu => input.lsuReady

def answer (lane : Lane) (input : ProcessorInput) : FuDone :=
  match lane with
  | .md => input.md
  | .lsu => input.lsu.toFuDone

end Lane

namespace Observed

variable {program : RiscV.Program 39} {observed : Observed} {input : ProcessorInput}
  {length : Nat} {index : RobIndex}

/-- The units behind a queue raise their exceptions with a completion. -/
def Reports (input : ProcessorInput) : Prop :=
  ∀ lane : Lane, (lane.answer input).exp = true → (lane.answer input).done = true

/-- What does not wait for execution is finished, and what was issued to an arithmetic unit or to
the CSR unit is in its stage. -/
structure Posted (observed : Observed) : Prop where
  skipped : ∀ index, observed.rcu.robUsed index = true →
    (observed.source index).skips = true → observed.rcu.robFinish index = true
  raised : ∀ index, observed.rcu.robUsed index = true →
    observed.rcu.robExp index = true → observed.rcu.robFinish index = true
  staged : ∀ index, observed.Pending index → (observed.rcu.rob index).isAlu = true →
    ∃ stage ∈ [observed.issue.alu1, observed.issue.alu2, observed.issue.csr],
      stage.valid = true ∧ stage.issued.robIndex = index

theorem reports_completes (reports : Reports input)
    (raised : ∃ completion ∈ (observed.processor.rcuInput input).completions,
      completion.exp = true ∧ completion.robIndex = index) :
    (observed.processor.rcuInput input).Completes index := by
  obtain ⟨completion, member, exp, own⟩ := raised
  refine ⟨completion, member, ?_, own⟩
  simp only [RcuInput.completions, List.mem_cons, List.not_mem_nil, or_false] at member
  rcases member with rfl | rfl | rfl | rfl | rfl
  · cases exp
  · cases exp
  · exact reports .md exp
  · exact reports .lsu exp
  · exact (Bool.and_eq_true _ _ |>.mp exp).1

/-- A stage hands its operation on in the next cycle. -/
theorem Posted.completes (posted : Posted observed) (input : ProcessorInput)
    (quiet : observed.processor.flush = false)
    (pending : observed.Pending index) (alu : (observed.rcu.rob index).isAlu = true) :
    (observed.processor.rcuInput input).Completes index := by
  obtain ⟨stage, member, valid, own⟩ := posted.staged index pending alu
  simp only [List.mem_cons, List.not_mem_nil, or_false] at member
  rcases member with rfl | rfl | rfl
  · refine ⟨observed.processor.alu1Done.toFuDone, List.mem_cons_self, ?_, own⟩
    exact Bool.and_eq_true _ _ |>.mpr ⟨valid, by rw [quiet]; rfl⟩
  · refine ⟨observed.processor.alu2Done.toFuDone, List.mem_cons_of_mem _ List.mem_cons_self, ?_,
      own⟩
    exact Bool.and_eq_true _ _ |>.mpr ⟨valid, by rw [quiet]; rfl⟩
  · have last : (observed.processor.rcuInput input).completions[4]? =
        some (observed.processor.csruDone input) := rfl
    exact ⟨_, List.mem_of_getElem? last, valid, own⟩

section Step

variable (window : Rcu.Window observed.rcu length) (settled : Settled observed)
  (responds : Responds observed input) (reports : Reports input) (posted : Posted observed)
  (quiet : observed.processor.flush = false)

include window settled responds posted quiet

theorem step_skipped (used : (observed.step input).rcu.robUsed index = true)
    (skips : ((observed.step input).source index).skips = true) :
    (observed.step input).rcu.robFinish index = true := by
  rcases step_used_cases quiet used with ⟨before, stays⟩ | ⟨instruction, enters⟩
  · obtain ⟨-, source, -, finish⟩ := step_kept quiet before stays
    rw [source] at skips
    exact finish.mpr (Or.inl (posted.skipped index before skips))
  · obtain ⟨-, -, -, -, source, -, finish, -⟩ := step_entered quiet window settled responds enters
    rw [source] at skips
    exact finish.mpr skips

include reports in
theorem step_raised (used : (observed.step input).rcu.robUsed index = true)
    (raised : (observed.step input).rcu.robExp index = true) :
    (observed.step input).rcu.robFinish index = true := by
  have fault : observed.rcu.globalSpeculateFault (observed.processor.rcuInput input) = false :=
    quiet
  have origin := (Rcu.step_exp_iff observed.rcu (observed.processor.rcuInput input) fault index).mp
    raised
  rcases step_used_cases quiet used with ⟨before, stays⟩ | ⟨instruction, enters⟩
  · obtain ⟨-, -, -, finish⟩ := step_kept quiet before stays
    apply finish.mpr
    rcases origin with flag | unit
    · rw [Rcu.dispatchInto_used _ before] at flag
      exact Or.inl (posted.raised index before flag)
    · exact Or.inr (reports_completes reports unit)
  · obtain ⟨unused, -, -, -, -, -, finish, -⟩ :=
      step_entered quiet window settled responds enters
    apply finish.mpr
    rcases origin with flag | unit
    · -- the flag is the exception that was dispatched
      have exception : instruction.exception = true := by
        rcases enters with ⟨rfl, write, rfl⟩ | ⟨rfl, write, rfl⟩
        · rw [Rcu.dispatchInto_first _ write] at flag
          exact flag
        · rw [Rcu.dispatchInto_second _ write] at flag
          exact flag
      rw [Decoded.skips, exception]
      rfl
    · have pending := settled.completes_pending responds (reports_completes reports unit)
      exact absurd (pending.1.symm.trans unused) (by decide)

/-- An operation that was waiting in a stage is finished; a new one has just been loaded. -/
theorem step_staged (pending : (observed.step input).Pending index)
    (alu : ((observed.step input).rcu.rob index).isAlu = true) :
    ∃ stage ∈ [(observed.step input).issue.alu1, (observed.step input).issue.alu2,
      (observed.step input).issue.csr], stage.valid = true ∧ stage.issued.robIndex = index := by
  have fault : observed.processor.backend.rcu.globalSpeculateFault
      (observed.processor.backendInput input).toRcuInput = false := quiet
  obtain ⟨used', selected', unfinished'⟩ := pending
  have chosen := (Backend.step_selected_iff (observed.processor.backendInput input) fault
    index).mp selected'
  -- it was not selected before the cycle
  have waiting : observed.issue.robSelected index = false := by
    by_contra selected
    rw [Bool.not_eq_false] at selected
    rcases step_used_cases quiet used' with ⟨before, stays⟩ | ⟨instruction, enters⟩
    · obtain ⟨entry, -, -, finish⟩ := step_kept quiet before stays
      have unfinished : observed.rcu.robFinish index = false := by
        by_contra done
        exact absurd (unfinished'.symm.trans (finish.mpr (Or.inl (by simpa using done))))
          (by decide)
      rw [entry] at alu
      have completes := posted.completes input quiet ⟨before, selected, unfinished⟩ alu
      exact absurd (unfinished'.symm.trans (finish.mpr (Or.inr completes))) (by decide)
    · have unused := (step_entered quiet window settled responds enters).1
      exact absurd (selected.symm.trans (settled.idle index unused).2.2) (by decide)
  obtain ⟨issued, member, rfl⟩ := chosen.1.resolve_left (by
    rw [show observed.processor.backend.issue.robSelected index = false from waiting]
    decide)
  have entry : issued.entry = (observed.step input).rcu.rob issued.robIndex :=
    (Backend.issues_cases (observed.processor.backendInput input) member).1
  rw [← entry] at alu
  obtain ⟨stage1, stage2, stage3⟩ := step_stages input quiet
  rcases Backend.selected_port window member with ⟨onFirst, -⟩ | ⟨onSecond, -, -⟩
  · cases csr : issued.entry.isCsr with
    | false =>
      refine ⟨_, List.mem_cons_self, ?_⟩
      rw [stage1, show observed.processor.backend.selectFirst
        (observed.processor.rcuInput input) = some issued from onFirst]
      simp [Backend.loadStage, alu, csr]
    | true =>
      refine ⟨(observed.step input).issue.csr, by simp, ?_⟩
      rw [stage3, show observed.processor.backend.selectFirst
        (observed.processor.rcuInput input) = some issued from onFirst]
      simp [Backend.loadStage, csr]
  · refine ⟨(observed.step input).issue.alu2, by simp, ?_⟩
    rw [stage2, show observed.processor.backend.selectSecond
      (observed.processor.rcuInput input) = some issued from onSecond]
    simp [Backend.loadStage, alu]

end Step

theorem posted_empty (window : Rcu.Window observed.rcu 0) : Posted observed := by
  have unused : ∀ index, observed.rcu.robUsed index = false := by
    intro index
    rw [← Bool.not_eq_true, window.used]
    simp
  refine ⟨?_, ?_, ?_⟩
  · intro index used
    exact absurd (used.symm.trans (unused index)) (by decide)
  · intro index used
    exact absurd (used.symm.trans (unused index)) (by decide)
  · intro index pending
    exact absurd (pending.1.symm.trans (unused index)) (by decide)

/-- In a lawful run everything in flight is looked after. -/
theorem run_posted {inputs : List ProcessorInput} (obeys : machine.Obeys (Lawful program) inputs)
    (reports : ∀ input ∈ inputs, Reports input) : Posted (machine.run inputs) := by
  induction inputs using List.reverseRecOn with
  | nil => exact posted_empty Rcu.reset_window
  | append_singleton inputs input ih =>
    obtain ⟨before, lawful⟩ := Synchronous.obeys_snoc.mp obeys
    have posted := ih before fun input member => reports input (List.mem_append_left _ member)
    have last := reports input (List.mem_append_right _ (List.mem_singleton_self input))
    obtain ⟨state, -, length, free, past, waiting, mirrors, -⟩ := run_holds program inputs before
    have window := mirrors.steady.tracks.sound.window
    have settled := mirrors.steady.settled
    have responds := lawful.benign.responds
    rw [Synchronous.run_snoc]
    cases flush : (machine.run inputs).processor.flush with
    | true => exact posted_empty (Rcu.step_window_fault _ _ flush)
    | false =>
      refine ⟨?_, ?_, ?_⟩
      · exact fun index => step_skipped window settled responds posted flush
      · exact fun index => step_raised window settled responds last posted flush
      · exact fun index => step_staged window settled responds posted flush

/-- The queues in front of the units hold a list of operations each. -/
theorem run_lanes (inputs : List ProcessorInput) (lane : Lane) :
    ∃ waiting, (lane.queue (machine.run inputs).issue).Contains waiting := by
  obtain ⟨mdWaiting, lsuWaiting, md, lsu⟩ :=
    Backend.run_queues (Processor.machine.fed Processor.backendInput inputs)
  rw [← Processor.run_backend, ← run_processor] at md lsu
  cases lane with
  | md => exact ⟨mdWaiting, md⟩
  | lsu => exact ⟨lsuWaiting, lsu⟩

end Observed

end GreenRio
