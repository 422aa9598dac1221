import GreenRio.IllegalAccess
import GreenRio.PmpRegisters

set_option autoImplicit false

namespace GreenRio

open Counter Trace

namespace CsrFile

variable (file : CsrFile) (stage : Stage) (outside : CsrOutside)

/-- `minstret` counts the commits as the reorder buffer signals them. -/
theorem step_minstret
    (ordered : outside.doRobCommitSecond = true → outside.doRobCommitFirst = true) :
    (file.step stage outside).minstret =
      file.minstret +
        BitVec.ofNat 64 (amount outside.doRobCommitFirst outside.doRobCommitSecond) := by
  have counted : (file.step stage outside).minstret =
      if outside.doRobCommitFirst && outside.doRobCommitSecond then file.minstret + 2
      else if outside.doRobCommitFirst then file.minstret + 1 else file.minstret := rfl
  rw [counted]
  cases first : outside.doRobCommitFirst with
  | false =>
    cases second : outside.doRobCommitSecond with
    | false => exact (BitVec.add_zero _).symm
    | true => simp [ordered second] at first
  | true => cases outside.doRobCommitSecond <;> rfl

end CsrFile

namespace Processor

section Signals

variable (processor : Processor) (input : ProcessorInput)

def csrPort : Stage × CsrOutside := (processor.backend.issue.csr, processor.csrOutside input)

/-- The commits that the reorder buffer signals. -/
def committed : Nat :=
  amount (processor.csrOutside input).doRobCommitFirst (processor.csrOutside input).doRobCommitSecond

/-- A mispredicted instruction that is no control transfer is fetched again. -/
def refetches : Bool :=
  processor.backend.rcu.cmtMiss && !processor.backend.rcu.headFirst.aluBranch &&
    !processor.core.globalRet

/-- The instructions that retire: what commits, unless a trap diverts the cycle or the instruction
at the head is fetched again. -/
def retired : Nat :=
  if processor.trap || processor.refetches then 0 else processor.committed input

/-- No instruction commits that traps, is interrupted or is fetched again. -/
def Counted (processor : Processor) : Prop :=
  processor.core.doRobCommitFirst = true →
    processor.trap = false ∧ processor.refetches = false

instance (processor : Processor) : Decidable processor.Counted :=
  inferInstanceAs (Decidable (_ → _ ∧ _))

end Signals

variable {processor : Processor} {input : ProcessorInput}

theorem commit_ordered (second : (processor.csrOutside input).doRobCommitSecond = true) :
    (processor.csrOutside input).doRobCommitFirst = true :=
  Rcu.commit_ordered processor.backend.rcu (processor.rcuInput input) second

/-- A cycle counts what retires if and only if it commits nothing else. -/
theorem committed_eq_retired : processor.committed input = processor.retired input ↔
    processor.Counted := by
  have first : (processor.csrOutside input).doRobCommitFirst = processor.core.doRobCommitFirst :=
    rfl
  unfold retired Counted
  cases stray : processor.trap || processor.refetches with
  | false =>
    rw [Bool.or_eq_false_iff] at stray
    exact iff_of_true rfl fun _ => stray
  | true =>
    rw [if_pos rfl, ← first]
    cases commits : (processor.csrOutside input).doRobCommitFirst with
    | false =>
      have none : (processor.csrOutside input).doRobCommitSecond = false := by
        by_contra second
        rw [Bool.not_eq_false] at second
        simp [commit_ordered second] at commits
      refine iff_of_true ?_ fun commit => nomatch commit
      rw [committed, commits, none]
      rfl
    | true =>
      refine iff_of_false ?_ fun counted => ?_
      · rw [committed, commits, amount, Bool.toNat_true]
        omega
      · simp [counted rfl] at stray

/-- The registers of a run of the processor. -/
def csrFile (inputs : List ProcessorInput) : CsrFile :=
  CsrFile.machine.run (machine.fed csrPort inputs)

/-- How many instructions have retired in a run. -/
def retiredCount (inputs : List ProcessorInput) : Nat :=
  (machine.log (fun processor input => [processor.retired input]) inputs).sum

theorem csrFile_snoc (inputs : List ProcessorInput) (input : ProcessorInput) :
    csrFile (inputs ++ [input]) =
      (csrFile inputs).step (machine.run inputs).backend.issue.csr
        ((machine.run inputs).csrOutside input) := by
  rw [csrFile, Synchronous.fed_snoc, Synchronous.run_snoc]
  rfl

/-- These are the registers that the processor steps, where the CSR unit is answered by them. -/
theorem csrFile_regs (inputs : List ProcessorInput)
    (answered : ∀ past input rest, inputs = past ++ input :: rest →
      input.csrAnswer =
        (csrFile past).answer (machine.run past).backend.issue.csr.issued.entry.csrAddress) :
    (csrFile inputs).regs = (machine.run inputs).csr := by
  induction inputs using List.reverseRecOn with
  | nil => rfl
  | append_singleton inputs input ih =>
    have before := ih fun past other rest split => answered past other (rest ++ [input]) (by
      rw [split, List.append_assoc, List.cons_append])
    rw [csrFile_snoc, Synchronous.run_snoc]
    exact (step_csr _ _ before (answered inputs input [] rfl)).symm

theorem minstret_snoc (inputs : List ProcessorInput) (input : ProcessorInput) :
    (csrFile (inputs ++ [input])).minstret =
      (csrFile inputs).minstret + BitVec.ofNat 64 ((machine.run inputs).committed input) := by
  rw [csrFile_snoc]
  exact CsrFile.step_minstret _ _ _ commit_ordered

theorem retiredCount_snoc (inputs : List ProcessorInput) (input : ProcessorInput) :
    retiredCount (inputs ++ [input]) =
      retiredCount inputs + (machine.run inputs).retired input := by
  rw [retiredCount, Synchronous.log_snoc, List.sum_append, List.sum_singleton]
  rfl

theorem committed_le (processor : Processor) (input : ProcessorInput) :
    processor.committed input ≤ 2 := by
  have first := Bool.toNat_le (processor.csrOutside input).doRobCommitFirst
  have second := Bool.toNat_le (processor.csrOutside input).doRobCommitSecond
  unfold committed amount
  omega

theorem retired_le (processor : Processor) (input : ProcessorInput) :
    processor.retired input ≤ 2 := by
  unfold retired
  split
  · exact Nat.zero_le _
  · exact processor.committed_le input

/-- Throughout a run `minstret` is the number of retired instructions if and only if no cycle
commits an instruction that traps, is interrupted or is fetched again. -/
theorem minstret_counts_iff (inputs : List ProcessorInput) :
    (∀ past rest, inputs = past ++ rest →
      (csrFile past).minstret = BitVec.ofNat 64 (retiredCount past)) ↔
      machine.Obeys (fun processor _ => processor.Counted) inputs := by
  apply Synchronous.prefixes_iff
  · rfl
  · intro past input before
    rw [minstret_snoc, retiredCount_snoc, before, BitVec.ofNat_add, BitVec.add_right_inj,
      ← @committed_eq_retired _ input]
    constructor
    · intro after
      have same := congrArg BitVec.toNat after
      have few := (machine.run past).committed_le input
      have few' := (machine.run past).retired_le input
      rwa [BitVec.toNat_ofNat, BitVec.toNat_ofNat, Nat.mod_eq_of_lt (by omega),
        Nat.mod_eq_of_lt (by omega)] at same
    · intro counted
      rw [counted]

/-- A breakpoint at the reset address. -/
def breakpoint : List ProcessorInput :=
  [{ ProcessorInput.idle with buffer := .single 0x00100073 }, ProcessorInput.idle,
    ProcessorInput.idle]

/-- It traps and does not retire, and yet it counts. -/
theorem breakpoint_counted :
    (csrFile breakpoint).minstret = 1 ∧ retiredCount breakpoint = 0 ∧
      ¬ ∀ inputs, (csrFile inputs).minstret = BitVec.ofNat 64 (retiredCount inputs) := by
  have counted : (csrFile breakpoint).minstret = 1 := by decide +kernel
  have retired : retiredCount breakpoint = 0 := by decide +kernel
  refine ⟨counted, retired, fun exact => ?_⟩
  have same := exact breakpoint
  rw [counted, retired] at same
  exact absurd same (by decide)

end Processor

namespace Observed

variable {observed : Observed} {input : ProcessorInput}

/-- An event of the program counter that is an instruction. -/
def retires : Event Pc → Bool
  | .execute _ _ => true
  | .divert _ => false

theorem filter_executed (observed : Observed) (positions : List Nat) :
    ((positions.map observed.executed).filter retires).length = positions.length := by
  have all : ∀ event ∈ positions.map observed.executed, retires event = true := by
    intro event member
    obtain ⟨position, -, rfl⟩ := List.mem_map.mp member
    rfl
  rw [List.filter_eq_self.mpr all, List.length_map]

/-- The head leaves alone where it returns, raises or was found mispredicted. -/
theorem committed_alone
    (leaves : observed.processor.core.doRobCommitFirst = true)
    (alone : observed.rcu.headFirst.mret = true ∨ observed.rcu.headFirst.sret = true ∨
      observed.rcu.robPredictMiss observed.rcu.cmtRobIndex = true) :
    observed.processor.committed input = 1 := by
  have second : (observed.processor.csrOutside input).doRobCommitSecond = false := by
    by_contra second
    have both : observed.rcu.doRobCommitSecond (observed.processor.rcuInput input) = true := by
      rwa [Bool.not_eq_false] at second
    simp only [Rcu.doRobCommitSecond, Bool.and_eq_true, Bool.not_eq_true'] at both
    rcases alone with mret | sret | miss
    · simp [mret] at both
    · simp [sret] at both
    · simp [miss] at both
  have first : (observed.processor.csrOutside input).doRobCommitFirst = true := leaves
  rw [Processor.committed, first, second]
  rfl

/-- Nothing leaves behind a mispredicted jump. -/
theorem committed_delayed (delay : observed.rcu.dffCmtMissDelay = true) :
    observed.processor.committed input = 0 := by
  have first : (observed.processor.csrOutside input).doRobCommitFirst = false := by
    change observed.rcu.commitReady false = false
    rw [Rcu.commitReady, delay, Bool.not_true, Bool.and_false, Bool.false_and]
  have second : (observed.processor.csrOutside input).doRobCommitSecond = false := by
    by_contra second
    rw [Bool.not_eq_false] at second
    simp [Processor.commit_ordered second] at first
  rw [Processor.committed, first, second]
  rfl

/-- A mispredicted instruction at the head leaves by itself. -/
theorem committed_missed (settled : Settled observed)
    (prompt : observed.rcu.dffCmtMissDelay = false) (miss : observed.rcu.cmtMiss = true) :
    observed.processor.committed input = 1 := by
  have found : observed.rcu.robPredictMiss observed.rcu.cmtRobIndex = true := by
    rw [Rcu.cmtMiss, Bool.and_eq_true] at miss
    exact miss.2
  obtain ⟨used, finish, -⟩ := settled.missed _ found
  have leaves : observed.processor.core.doRobCommitFirst = true := by
    change observed.rcu.commitReady false = true
    simp [Rcu.commitReady, used, finish, prompt]
  exact committed_alone leaves (.inr (.inr found))

/-- What retires in a cycle are the instructions of the architectural stream. -/
theorem events_retires (settled : Settled observed) :
    ((observed.events input).filter retires).length = observed.processor.retired input := by
  unfold events Processor.retired
  by_cases trap : observed.processor.trap = true
  · rw [if_pos trap, trap]
    rfl
  rw [if_neg trap, (Bool.not_eq_true _).mp trap, Bool.false_or]
  by_cases ret : observed.processor.core.globalRet = true
  · have both := ret
    simp only [Core.globalRet, Bool.and_eq_true, Bool.or_eq_true] at both
    have one : observed.processor.committed input = 1 :=
      committed_alone both.1 (both.2.imp_right .inl)
    simp only [ret, Processor.refetches, one, Bool.not_true, Bool.and_false, Bool.false_eq_true,
      if_true, if_false]
    rfl
  rw [if_neg ret, Processor.refetches, (Bool.not_eq_true _).mp ret, Bool.not_false, Bool.and_true]
  by_cases delay : observed.rcu.dffCmtMissDelay = true
  · rw [Rcu.predictMiss, if_pos delay, if_pos rfl, delay, committed_delayed delay, ite_self]
    rfl
  have prompt : observed.rcu.predictMiss = observed.rcu.cmtMiss := if_neg delay
  have hit : observed.processor.backend.rcu.cmtMiss = observed.rcu.cmtMiss := rfl
  rw [prompt, hit, (Bool.not_eq_true _).mp delay, Bool.not_false, Bool.true_and]
  cases miss : observed.rcu.cmtMiss with
  | false =>
    rw [Bool.false_and, if_neg (by simp), if_neg (by simp), filter_executed, List.length_range]
    rfl
  | true =>
    rw [if_pos rfl, Bool.true_and]
    cases branch : observed.rcu.headFirst.aluBranch with
    | false =>
      have plain : observed.processor.backend.rcu.headFirst.aluBranch = false := branch
      rw [plain]
      rfl
    | true =>
      have control : observed.processor.backend.rcu.headFirst.aluBranch = true := branch
      rw [control, committed_missed settled ((Bool.not_eq_true _).mp delay) miss]
      rfl

/-- In every benign run the instructions that retire are those of the architectural stream. -/
theorem log_retires (inputs : List ProcessorInput) (obeys : machine.Obeys Benign inputs) :
    ((machine.log events inputs).filter retires).length = Processor.retiredCount inputs := by
  induction inputs using List.reverseRecOn with
  | nil => rfl
  | append_singleton inputs input ih =>
    obtain ⟨before, -⟩ := Synchronous.obeys_snoc.mp obeys
    obtain ⟨_, -, _, _, _, _, steady⟩ := run_arrives inputs before
    rw [Synchronous.log_snoc, List.filter_append, List.length_append, ih before,
      events_retires steady.settled, run_processor, Processor.retiredCount_snoc]

end Observed

end GreenRio
