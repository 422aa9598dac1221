import GreenRio.Dispatch
import GreenRio.Operands
import GreenRio.Processor
import GreenRio.Proper
import GreenRio.Selection

set_option autoImplicit false

namespace GreenRio

open Circular Counter Fifo

/-- A cycle in which nothing comes from outside. -/
def ProcessorInput.idle : ProcessorInput where
  predictors := ⟨fun _ => ⟨false, 0, 0⟩, 0, fun _ => 0⟩
  buffer := ⟨false, false, false, ⟨0, false, false, 0, 0⟩, ⟨0, false, false, 0, 0⟩, id, by simp⟩
  lines := ⟨false, false, false, false, false⟩
  csrAnswer := ⟨0, false, false⟩
  lsu := ⟨FuDone.quiet, 0⟩
  md := FuDone.quiet
  lsuReady := true
  mdReady := true

/-- One or two instructions of four bytes in the instruction buffer. -/
def InsBuffer.single (first : BitVec 32) : InsBuffer :=
  ⟨true, true, false, ⟨first, true, false, 0, 0⟩, ⟨0, true, false, 0, 0⟩, Bool.false_le true,
    Bool.le_refl true⟩

def InsBuffer.pair (first second : BitVec 32) : InsBuffer :=
  ⟨true, true, true, ⟨first, true, false, 0, 0⟩, ⟨second, true, false, 0, 0⟩, Bool.le_refl true,
    Bool.le_refl true⟩

/-- The processor with what an observer remembers: the instruction each slot was given, the value
it has produced, and the architectural registers as the committed instructions leave them. -/
structure Observed where
  processor : Processor
  source : RobIndex → Decoded
  result : RobIndex → Option Word
  registers : ArchReg → Option Word

/-- The port on which an operation completes. -/
inductive FunctionClass where
  | alu
  | csr
  | md
  | lsu
  | none
  deriving DecidableEq

def RobOp.functionClass (op : RobOp) : FunctionClass :=
  if op.arithmetic then .alu
  else if op.isCsr then .csr
  else if op.isMd then .md
  else if op.isLoad || op.isStore then .lsu
  else .none

/-- The prediction recorded for such an instruction is compared before anything younger retires:
an arithmetic unit compares it, or the instruction flushes by itself. -/
def Decoded.checked (instruction : Decoded) : Bool :=
  instruction.exception || instruction.mret || instruction.sret || instruction.arithmetic

/-- The prediction is checked, or it is the fall-through address. -/
def Decoded.Guarded (instruction : Decoded) : Prop :=
  instruction.checked = true ∨ instruction.predictPc = instruction.nextPc

namespace Observed

def reset : Observed := ⟨Processor.reset, fun _ => Decoded.blank, fun _ => none, fun _ => some 0⟩

section Views

variable (observed : Observed)

def tracked : Tracked := ⟨observed.processor.backend, observed.source, observed.result⟩

def rcu : Rcu := observed.processor.backend.rcu

def issue : Issue := observed.processor.backend.issue

/-- An operation that was issued and has not finished. -/
def Pending (index : RobIndex) : Prop :=
  observed.rcu.robUsed index = true ∧ observed.issue.robSelected index = true ∧
    observed.rcu.robFinish index = false

/-- A stage holds the operation of its slot, which is waiting for it. -/
structure Staged (stage : Stage) : Prop where
  pending : observed.Pending stage.issued.robIndex
  entry : stage.issued.entry = observed.rcu.rob stage.issued.robIndex
  active : (observed.source stage.issued.robIndex).skips = false

end Views

def step (observed : Observed) (input : ProcessorInput) : Observed :=
  let after := observed.tracked.step (observed.processor.backendInput input)
  { processor := observed.processor.step input
    source := after.source
    result := after.result
    registers := Write.replay observed.registers
      (observed.tracked.commits (observed.processor.rcuInput input)) }

def machine : Synchronous Observed ProcessorInput := ⟨reset, step⟩

/-- What is asked of the load/store unit and of the multiplier: they complete operations that were
issued to them and have not finished. -/
structure Responds (observed : Observed) (input : ProcessorInput) : Prop where
  lsu : input.lsu.done = true → observed.Pending input.lsu.robIndex ∧
    ((observed.rcu.rob input.lsu.robIndex).isLoad = true ∨
      (observed.rcu.rob input.lsu.robIndex).isStore = true) ∧
    input.lsu.wrbAddr = (observed.rcu.rob input.lsu.robIndex).prd
  md : input.md.done = true → observed.Pending input.md.robIndex ∧
    (observed.rcu.rob input.md.robIndex).isMd = true ∧
    input.md.wrbAddr = (observed.rcu.rob input.md.robIndex).prd

instance (observed : Observed) (index : RobIndex) : Decidable (observed.Pending index) :=
  inferInstanceAs (Decidable (_ ∧ _ ∧ _))

instance (observed : Observed) (input : ProcessorInput) : Decidable (Responds observed input) :=
  decidable_of_iff
    ((input.lsu.done = true → observed.Pending input.lsu.robIndex ∧
        ((observed.rcu.rob input.lsu.robIndex).isLoad = true ∨
          (observed.rcu.rob input.lsu.robIndex).isStore = true) ∧
        input.lsu.wrbAddr = (observed.rcu.rob input.lsu.robIndex).prd) ∧
      (input.md.done = true → observed.Pending input.md.robIndex ∧
        (observed.rcu.rob input.md.robIndex).isMd = true ∧
        input.md.wrbAddr = (observed.rcu.rob input.md.robIndex).prd))
    ⟨fun both => ⟨both.1, both.2⟩, fun responds => ⟨responds.lsu, responds.md⟩⟩

/-- What every slot of the reorder buffer and every stage behind it agree on. -/
structure Settled (observed : Observed) : Prop where
  idle : ∀ index, observed.rcu.robUsed index = false →
    observed.rcu.robFinish index = false ∧ observed.rcu.robPredictMiss index = false ∧
      observed.issue.robSelected index = false
  copied : ∀ index, observed.rcu.robUsed index = true →
    (observed.rcu.rob index).toRobOp = (observed.source index).toRobOp
  proper : ∀ index, observed.rcu.robUsed index = true →
    (observed.source index).Proper ∧ (observed.source index).Guarded
  raised : ∀ index, observed.rcu.robUsed index = true →
    (observed.source index).exception = true → observed.rcu.robExp index = true
  finished : ∀ index, observed.rcu.robUsed index = true → observed.rcu.robFinish index = true →
    observed.issue.robSelected index = true ∨ (observed.source index).skips = true
  valued : ∀ index, observed.rcu.robUsed index = true → observed.rcu.robFinish index = false →
    observed.result index = none
  missed : ∀ index, observed.rcu.robPredictMiss index = true →
    observed.rcu.robUsed index = true ∧ observed.rcu.robFinish index = true ∧
      (observed.source index).arithmetic = true ∧ (observed.source index).exception = false
  alu1 : observed.issue.alu1.valid = true → observed.Staged observed.issue.alu1 ∧
    observed.issue.alu1.issued.entry.arithmetic = true
  alu2 : observed.issue.alu2.valid = true → observed.Staged observed.issue.alu2 ∧
    observed.issue.alu2.issued.entry.arithmetic = true
  csr : observed.issue.csr.valid = true → observed.Staged observed.issue.csr ∧
    observed.issue.csr.issued.entry.isCsr = true
  apart : observed.issue.alu1.valid = true → observed.issue.alu2.valid = true →
    observed.issue.alu1.issued.robIndex ≠ observed.issue.alu2.issued.robIndex

variable {observed : Observed} {input : ProcessorInput} {length : Nat}

theorem step_tracked (observed : Observed) (input : ProcessorInput) :
    (observed.step input).tracked =
      observed.tracked.step (observed.processor.backendInput input) := rfl

theorem step_rcu (observed : Observed) (input : ProcessorInput) :
    (observed.step input).rcu = observed.rcu.step (observed.processor.rcuInput input) := rfl

/-- Observing changes nothing. -/
theorem run_processor (inputs : List ProcessorInput) :
    (machine.run inputs).processor = Processor.machine.run inputs := by
  induction inputs using List.reverseRecOn with
  | nil => rfl
  | append_singleton inputs input ih =>
    rw [Synchronous.run_snoc, Synchronous.run_snoc, ← ih]
    rfl

theorem reset_settled : Settled reset := by
  constructor <;> intros <;> simp_all [reset, rcu, issue, Processor.reset, Backend.reset, Rcu.reset]

namespace Settled

/-- Each completion port serves one class of entries in use. -/
theorem functionClass_eq (settled : Settled observed) {index : RobIndex}
    (used : observed.rcu.robUsed index = true) :
    ((observed.rcu.rob index).isCsr = true → (observed.rcu.rob index).functionClass = .csr) ∧
      ((observed.rcu.rob index).isMd = true → (observed.rcu.rob index).functionClass = .md) ∧
      ((observed.rcu.rob index).isLoad = true ∨ (observed.rcu.rob index).isStore = true →
        (observed.rcu.rob index).functionClass = .lsu) := by
  have proper := (settled.proper index used).1
  have apart := proper.apart
  have multiply := proper.multiply
  have status := proper.status
  rw [← settled.copied index used] at apart multiply status
  unfold RobOp.functionClass RobOp.arithmetic
  refine ⟨fun csr => ?_, fun md => ?_, fun memory => ?_⟩
  · simp [csr]
  · have alu : (observed.rcu.rob index).isAlu = false := by
      by_contra alu
      simp [apart (by simpa using alu)] at md
    have csr : (observed.rcu.rob index).isCsr = false := by
      by_contra csr
      simp [status (by simpa using csr)] at alu
    simp [alu, csr, md]
  · have alu : (observed.rcu.rob index).isAlu = false := by
      by_contra alu
      obtain ⟨-, load, store, -⟩ := apart (by simpa using alu)
      simp [load, store] at memory
    have csr : (observed.rcu.rob index).isCsr = false := by
      by_contra csr
      simp [status (by simpa using csr)] at alu
    have md : (observed.rcu.rob index).isMd = false := by
      by_contra md
      obtain ⟨load, store⟩ := multiply (by simpa using md)
      simp [load, store] at memory
    rcases memory with load | store
    · simp [alu, csr, md, load]
    · simp [alu, csr, md, store]

theorem outstanding (settled : Settled observed) {index : RobIndex}
    (pending : observed.Pending index) : observed.tracked.Outstanding index :=
  ⟨pending.1, pending.2.1, settled.valued index pending.1 pending.2.2⟩

/-- The units meet their contract: the arithmetic and CSR ones by construction, the others by
assumption. -/
theorem functionUnits (settled : Settled observed) (responds : Responds observed input) :
    Tracked.FunctionUnits observed.tracked (observed.processor.rcuInput input) := by
  have alu1 : observed.processor.alu1Done.done = true → observed.issue.alu1.valid = true := by
    intro done
    exact (Bool.and_eq_true _ _ |>.mp done).1
  have alu2 : observed.processor.alu2Done.done = true → observed.issue.alu2.valid = true := by
    intro done
    exact (Bool.and_eq_true _ _ |>.mp done).1
  refine ⟨?_, ?_, fun done => ⟨alu1 done, rfl⟩, fun done => ⟨done, rfl⟩⟩
  · intro completion member done
    simp only [RcuInput.completions, List.mem_cons, List.not_mem_nil, or_false] at member
    rcases member with rfl | rfl | rfl | rfl | rfl
    · obtain ⟨staged, -⟩ := settled.alu1 (alu1 done)
      exact ⟨settled.outstanding staged.pending, congrArg RobEntry.prd staged.entry⟩
    · obtain ⟨staged, -⟩ := settled.alu2 (alu2 done)
      exact ⟨settled.outstanding staged.pending, congrArg RobEntry.prd staged.entry⟩
    · obtain ⟨pending, -, own⟩ := responds.md done
      exact ⟨settled.outstanding pending, own⟩
    · obtain ⟨pending, -, own⟩ := responds.lsu done
      exact ⟨settled.outstanding pending, own⟩
    · obtain ⟨staged, -⟩ := settled.csr done
      exact ⟨settled.outstanding staged.pending, congrArg RobEntry.prd staged.entry⟩
  · -- Completions of different classes are for different slots.
    have class1 : observed.processor.alu1Done.done = true →
        (observed.rcu.rob observed.processor.alu1Done.robIndex).functionClass = .alu := by
      intro done
      obtain ⟨staged, arithmetic⟩ := settled.alu1 (alu1 done)
      rw [staged.entry] at arithmetic
      exact if_pos arithmetic
    have class2 : observed.processor.alu2Done.done = true →
        (observed.rcu.rob observed.processor.alu2Done.robIndex).functionClass = .alu := by
      intro done
      obtain ⟨staged, arithmetic⟩ := settled.alu2 (alu2 done)
      rw [staged.entry] at arithmetic
      exact if_pos arithmetic
    have classMd : input.md.done = true →
        (observed.rcu.rob input.md.robIndex).functionClass = .md := by
      intro done
      obtain ⟨pending, md, -⟩ := responds.md done
      exact (settled.functionClass_eq pending.1).2.1 md
    have classLsu : input.lsu.done = true →
        (observed.rcu.rob input.lsu.robIndex).functionClass = .lsu := by
      intro done
      obtain ⟨pending, memory, -⟩ := responds.lsu done
      exact (settled.functionClass_eq pending.1).2.2 memory
    have classCsr : (observed.processor.csruDone input).done = true →
        (observed.rcu.rob (observed.processor.csruDone input).robIndex).functionClass = .csr := by
      intro done
      obtain ⟨staged, csr⟩ := settled.csr done
      rw [staged.entry] at csr
      exact (settled.functionClass_eq staged.pending.1).1 csr
    have differ : ∀ {left right : RobIndex} {one other : FunctionClass},
        (observed.rcu.rob left).functionClass = one →
        (observed.rcu.rob right).functionClass = other → one ≠ other → left ≠ right := by
      rintro left right one other isOne isOther distinct rfl
      exact distinct (isOne.symm.trans isOther)
    change [observed.processor.alu1Done.toFuDone, observed.processor.alu2Done.toFuDone, input.md,
      input.lsu.toFuDone, observed.processor.csruDone input].Pairwise _
    simp only [List.pairwise_cons, List.mem_cons, List.not_mem_nil, or_false, forall_eq_or_imp,
      forall_eq, List.Pairwise.nil, and_true, false_imp_iff, implies_true]
    refine ⟨⟨fun done done' => settled.apart (alu1 done) (alu2 done'), ?_, ?_, ?_⟩,
      ⟨?_, ?_, ?_⟩, ⟨?_, ?_⟩, ?_⟩
    · exact fun done done' => differ (class1 done) (classMd done') (by decide)
    · exact fun done done' => differ (class1 done) (classLsu done') (by decide)
    · exact fun done done' => differ (class1 done) (classCsr done') (by decide)
    · exact fun done done' => differ (class2 done) (classMd done') (by decide)
    · exact fun done done' => differ (class2 done) (classLsu done') (by decide)
    · exact fun done done' => differ (class2 done) (classCsr done') (by decide)
    · exact fun done done' => differ (classMd done) (classLsu done') (by decide)
    · exact fun done done' => differ (classMd done) (classCsr done') (by decide)
    · exact fun done done' => differ (classLsu done) (classCsr done') (by decide)

theorem completes_pending (settled : Settled observed) (responds : Responds observed input)
    {index : RobIndex} (completes : (observed.processor.rcuInput input).Completes index) :
    observed.Pending index := by
  obtain ⟨completion, member, done, rfl⟩ := completes
  simp only [RcuInput.completions, List.mem_cons, List.not_mem_nil, or_false] at member
  rcases member with rfl | rfl | rfl | rfl | rfl
  · exact (settled.alu1 (Bool.and_eq_true _ _ |>.mp done).1).1.pending
  · exact (settled.alu2 (Bool.and_eq_true _ _ |>.mp done).1).1.pending
  · exact (responds.md done).1
  · exact (responds.lsu done).1
  · exact (settled.csr done).1.pending

end Settled

end Observed

end GreenRio
