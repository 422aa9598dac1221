import GreenRio.Privilege
import GreenRio.Retirement

set_option autoImplicit false

namespace GreenRio

open Circular Fifo Trace

namespace Observed

section Addresses

variable (observed : Observed) (input : ProcessorInput)

/-- The address of the oldest instruction that has not retired: where a mispredicted jump that has
just retired leads, or else the head of the reorder buffer, of the decode queue, or the next
instruction to be fetched. -/
def oldestPc : Pc :=
  if observed.rcu.dffCmtMissDelay then observed.rcu.dff.finalPcFirst
  else if observed.rcu.robUsed observed.rcu.cmtRobIndex then observed.rcu.headFirst.pc
  else if observed.processor.fifo.fifoEmpty then observed.processor.pc
  else (observed.processor.fifo.rdataFirst true false).pc

/-- A `WFI` at the head completes in the cycle in which it is dispatched, unless it excepts. -/
def wfiCompleted : Bool :=
  !observed.rcu.dffCmtMissDelay && observed.rcu.robUsed observed.rcu.cmtRobIndex &&
    observed.rcu.headFirst.wfi && !observed.rcu.robExp observed.rcu.cmtRobIndex

/-- Where the program has to continue after a trap. -/
def resumePc : Pc := if observed.wfiCompleted then observed.oldestPc + 4 else observed.oldestPc

def csrInput : CsrInput := observed.processor.hart.csrInput (observed.processor.hartInput input)

/-- The return address saved for a trap is the one to continue at. An interrupt of the registers is
saved in the cycle before its trap already. -/
def SavesResumePc : Prop :=
  observed.processor.trap = true →
    (observed.processor.csr.nextMode (observed.csrInput input) = 3 →
      (observed.processor.csr.machineEntry (observed.csrInput input) = true ∨
        observed.processor.csr.dffInterrupt = true) →
      (observed.step input).processor.csr.mepc = CsrRegfile.epc observed.resumePc) ∧
    (observed.processor.csr.nextMode (observed.csrInput input) = 1 →
      observed.processor.csr.supervisorEntry (observed.csrInput input) = true →
      (observed.step input).processor.csr.sepc = CsrRegfile.epc observed.resumePc)

/-- A trap finds the program's next instruction at the head of the reorder buffer, no mispredicted
jump has just retired, and a `WFI` there does not except. An interrupt of the registers does not
meet an `MRET` or the cause of another interrupt. -/
structure Restartable : Prop where
  present : observed.processor.trap = true →
    observed.rcu.robUsed observed.rcu.cmtRobIndex = true
  prompt : observed.processor.trap = true → observed.rcu.dffCmtMissDelay = false
  legal : observed.processor.trap = true → observed.rcu.headFirst.wfi = true →
    observed.rcu.robExp observed.rcu.cmtRobIndex = false
  alone : observed.processor.csr.dffInterrupt = true → (observed.csrInput input).mRet = false ∧
    CsrRegfile.isInterrupt (observed.csrInput input).excpCause = false

end Addresses

variable {observed : Observed} {input : ProcessorInput} {expected : Pc} {length : Nat}
  {free : List PhyReg} {past : List (Write 32 PhyReg Word)} {waiting : List Decoded}

/-- The program stands at the oldest instruction that has not retired. -/
theorem Steady.oldestPc_eq (steady : Steady observed expected length free past waiting) :
    observed.oldestPc = expected := by
  unfold oldestPc
  split
  · rename_i delay
    exact (steady.delayed delay).symm
  · rename_i prompt
    rw [Bool.not_eq_true] at prompt
    split
    · rename_i used
      exact (steady.head used prompt).2
    · rename_i empty
      have window : Rcu.Window observed.rcu length := steady.tracks.sound.window
      have none : length = 0 := by
        by_contra some
        apply empty
        rw [window.used, mem_slots]
        exact ⟨0, by omega, (advance_zero _).symm⟩
      have leads := steady.leads prompt
      rw [stream, window.inUse_eq, none] at leads
      have count := steady.queued.fifoNum_eq
      have queued := steady.queued
      rcases waiting with _ | ⟨instruction, rest⟩
      · rw [if_pos (by simp [F2if2o.fifoEmpty, count])]
        exact Eq.symm leads
      · rw [if_neg (by simp [F2if2o.fifoEmpty, count]), queued.rdataFirst_eq]
        exact (follows_execute.mp leads).1

theorem Restartable.excpPc_eq (restartable : Restartable observed input)
    (trap : observed.processor.trap = true) :
    (observed.csrInput input).excpPc = observed.resumePc := by
  have used := restartable.present trap
  have prompt := restartable.prompt trap
  have head : (observed.csrInput input).excpPc =
      if observed.rcu.headFirst.wfi then observed.rcu.headFirst.pc + 4
      else observed.rcu.headFirst.pc := rfl
  have oldest : observed.oldestPc = observed.rcu.headFirst.pc := by
    simp [oldestPc, prompt, used]
  rw [head, resumePc, oldest]
  by_cases wfi : observed.rcu.headFirst.wfi = true
  · simp [wfiCompleted, prompt, used, wfi, restartable.legal trap wfi]
  · simp [wfiCompleted, wfi]

theorem Restartable.saves (restartable : Restartable observed input) :
    SavesResumePc observed input := by
  intro trap
  have address := restartable.excpPc_eq trap
  have csr : (observed.step input).processor.csr =
    observed.processor.csr.step (observed.csrInput input) := rfl
  have pending : (observed.csrInput input).excpPending = true := trap
  rw [csr]
  constructor
  · intro mode saved
    have entry : observed.processor.csr.machineEntry (observed.csrInput input) = true := by
      rcases saved with entry | interrupt
      · exact entry
      · obtain ⟨stays, cause⟩ := restartable.alone interrupt
        rw [CsrRegfile.machineEntry_iff pending mode]
        exact Or.inr ⟨stays, Or.inr cause⟩
    rw [(CsrRegfile.step_machine entry).2.2.1, address]
  · intro _ entry
    rw [(CsrRegfile.step_supervisor entry).2.2.1, address]

/-- In every run all of whose traps are restartable, each trap saves the address at which the
program continues; and as long as the retired stream follows the program, that is where the
program stands. -/
theorem return_address_precise (inputs : List ProcessorInput)
    (obeys : machine.Obeys Restartable inputs) :
    machine.Obeys SavesResumePc inputs ∧
      (machine.Obeys Benign inputs →
        Follows Fetch.resetVector (machine.log events inputs) (machine.run inputs).oldestPc) := by
  constructor
  · intro past input rest split
    exact (obeys past input rest split).saves
  · intro benign
    obtain ⟨expected, follows, length, free, past, waiting, steady⟩ := run_arrives inputs benign
    rwa [steady.oldestPc_eq]

instance (observed : Observed) (input : ProcessorInput) :
    Decidable (Restartable observed input) :=
  decidable_of_iff
    ((observed.processor.trap = true →
        observed.rcu.robUsed observed.rcu.cmtRobIndex = true ∧
          observed.rcu.dffCmtMissDelay = false ∧ (observed.rcu.headFirst.wfi = true →
            observed.rcu.robExp observed.rcu.cmtRobIndex = false)) ∧
      (observed.processor.csr.dffInterrupt = true → (observed.csrInput input).mRet = false ∧
        CsrRegfile.isInterrupt (observed.csrInput input).excpCause = false))
    ⟨fun ⟨head, alone⟩ => ⟨fun trap => (head trap).1, fun trap => (head trap).2.1,
        fun trap => (head trap).2.2, alone⟩,
      fun restartable => ⟨fun trap => ⟨restartable.present trap, restartable.prompt trap,
        restartable.legal trap⟩, restartable.alone⟩⟩

instance (observed : Observed) (input : ProcessorInput) :
    Decidable (SavesResumePc observed input) :=
  inferInstanceAs (Decidable (_ → (_ → _ ∨ _ → _) ∧ (_ → _ → _)))

/-- An environment call at the reset address. -/
def environmentCall : List ProcessorInput :=
  [{ ProcessorInput.idle with buffer := .single 0x00000073 }, ProcessorInput.idle,
    ProcessorInput.idle]

theorem environment_call_saved :
    (machine.run (environmentCall.take 2)).processor.trap = true ∧
      machine.Obeys Restartable environmentCall ∧ machine.Obeys SavesResumePc environmentCall :=
  have obeys : machine.Obeys Restartable environmentCall := by decide +kernel
  ⟨by decide +kernel, obeys, (return_address_precise environmentCall obeys).1⟩

/-- Software sets `TW`, and then a `WFI` is fetched, which is illegal. -/
def illegalWfi : List ProcessorInput :=
  [{ ProcessorInput.idle with buffer := .pair 0x002002b7 0x30029073 }] ++
  List.replicate 6 { ProcessorInput.idle with csrAnswer := ⟨0, true, true⟩ } ++
  [{ ProcessorInput.idle with buffer := .single 0x10500073 }, ProcessorInput.idle,
    ProcessorInput.idle]

/-- The address saved for it is the one behind it. -/
theorem illegal_wfi_skipped : ¬ machine.Obeys SavesResumePc illegalWfi := by
  intro saves
  have last : ¬ SavesResumePc (machine.run (illegalWfi.take 9)) ProcessorInput.idle := by
    decide +kernel
  exact last (saves (illegalWfi.take 9) ProcessorInput.idle [] rfl)

end Observed

end GreenRio
