import GreenRio.Hart
import Mathlib.Tactic.Tauto

set_option autoImplicit false

namespace GreenRio

namespace CsrRegfile

variable (csr : CsrRegfile) (input : CsrInput)

/-- The trap state of machine mode is saved for the pending cause. -/
def RecordsMachineTrap : Prop :=
  csr.machineEntry input = true ∧
    (csr.step input).mcauseInterrupt = isInterrupt input.excpCause ∧
    (csr.step input).mcauseCode = input.excpCause.setWidth 4 ∧
    (csr.step input).mepc = epc input.excpPc ∧
    (csr.step input).statusMpp = csr.currentMode

/-- The trap state of supervisor mode is saved for the pending cause. -/
def RecordsSupervisorTrap : Prop :=
  csr.supervisorEntry input = true ∧
    (csr.step input).scauseInterrupt = isInterrupt input.excpCause ∧
    (csr.step input).scauseCode = input.excpCause.setWidth 4 ∧
    (csr.step input).sepc = epc input.excpPc ∧
    (csr.step input).statusSpp = csr.currentMode.getLsbD 0

/-- The two addresses a trap vector register stands for. -/
def VectorOf (tvec : Word) (pc : Pc) : Prop :=
  pc = (tvecBase tvec).setWidth 39 ∨
    pc = (tvecBase tvec + vectorOffset input.excpCause).setWidth 39

/-- A trap is taken into the next mode: its state is saved and fetch gets its vector, which it
follows while the trap is pending. -/
def TakesTrap : Prop :=
  input.excpPending = true ∧
    ((csr.nextMode input = 3 ∧ csr.RecordsMachineTrap input ∧
        VectorOf input csr.mtvec (csr.excpPcOut input)) ∨
      (csr.nextMode input = 1 ∧ csr.RecordsSupervisorTrap input ∧
        VectorOf input csr.stvec (csr.excpPcOut input)))

/-- Below machine mode the mode rises only by a trap into the new mode. -/
def RisesOnlyByTrap : Prop :=
  csr.currentMode = 0 ∨ csr.currentMode = 1 →
    csr.currentMode < (csr.step input).currentMode → csr.TakesTrap input

/-- The conditions on a cycle below machine mode under which the mode cannot rise silently. -/
def Guarded : Prop :=
  csr.currentMode = 0 ∨ csr.currentMode = 1 →
    if input.excpPending then
      if csr.delegated input.excpCause then
        csr.currentMode = 0 → csr.interruptEx = false ∧ input.sRet = false ∧
          (csr.statusSie = true ∨ isInterrupt input.excpCause = false)
      else if csr.interruptEx then
        isInterrupt input.excpCause = false ∧
          csr.dffEcause.setWidth 4 = input.excpCause.setWidth 4
      else
        input.mRet = false ∧ (csr.statusMie = true ∨ isInterrupt input.excpCause = false)
    else if input.mRet then csr.statusMpp ≤ csr.currentMode
    else if input.sRet then csr.statusSpp = true → csr.currentMode = 1
    else csr.statusMie = false ∨ csr.machinePending = false

variable {csr input}

theorem excpPcOut_trap (pending : input.excpPending = true) :
    csr.excpPcOut input = (csr.tvecOut input).setWidth 39 := by
  simp [excpPcOut, pending]

theorem vectorOf_machine (pending : input.excpPending = true) (mode : csr.nextMode input = 3) :
    VectorOf input csr.mtvec (csr.excpPcOut input) := by
  rw [excpPcOut_trap pending, VectorOf, tvecOut, if_pos mode]
  split
  · exact Or.inr rfl
  · exact Or.inl rfl

theorem vectorOf_supervisor (pending : input.excpPending = true) (mode : csr.nextMode input = 1) :
    VectorOf input csr.stvec (csr.excpPcOut input) := by
  have other : csr.nextMode input ≠ 3 := by
    rw [mode]
    decide
  rw [excpPcOut_trap pending, VectorOf, tvecOut, if_neg other, if_pos mode]
  split
  · exact Or.inr rfl
  · exact Or.inl rfl

/-- What the machine block saves when it fires. -/
theorem step_machine (saved : csr.machineEntry input = true) :
    (csr.step input).mcauseInterrupt =
        (if csr.interruptEx then false else isInterrupt input.excpCause) ∧
      (csr.step input).mcauseCode =
        (if csr.interruptEx then csr.dffEcause.setWidth 4 else input.excpCause.setWidth 4) ∧
      (csr.step input).mepc = epc input.excpPc ∧
      (csr.step input).statusMpp = csr.currentMode := by
  simp only [step, entered, saved, if_true, and_self]

/-- What the supervisor block saves when it fires. -/
theorem step_supervisor (saved : csr.supervisorEntry input = true) :
    (csr.step input).scauseInterrupt = isInterrupt input.excpCause ∧
      (csr.step input).scauseCode = input.excpCause.setWidth 4 ∧
      (csr.step input).sepc = epc input.excpPc ∧
      (csr.step input).statusSpp = csr.currentMode.getLsbD 0 := by
  have other : csr.machineEntry input = false := by
    simp only [supervisorEntry, Bool.and_eq_true, Bool.not_eq_true'] at saved
    exact saved.1
  simp only [step, entered, saved, other, if_true, Bool.false_eq_true, if_false, and_self]

theorem machineEntry_iff (pending : input.excpPending = true) (mode : csr.nextMode input = 3) :
    csr.machineEntry input = true ↔ csr.interruptEx = true ∨
      (input.mRet = false ∧ (csr.statusMie = true ∨ isInterrupt input.excpCause = false)) := by
  simp only [machineEntry, pending, mode, Bool.true_and, beq_self_eq_true, Bool.and_true,
    Bool.or_eq_true, Bool.and_eq_true, Bool.not_eq_true']
  tauto

theorem supervisorEntry_iff (pending : input.excpPending = true) (mode : csr.nextMode input = 1) :
    csr.supervisorEntry input = true ↔ csr.interruptEx = false ∧ input.sRet = false ∧
      (csr.statusSie = true ∨ isInterrupt input.excpCause = false) := by
  simp [supervisorEntry, machineEntry, pending, mode]
  tauto

theorem recordsMachineTrap_iff (pending : input.excpPending = true)
    (mode : csr.nextMode input = 3) :
    csr.RecordsMachineTrap input ↔
      if csr.interruptEx then
        isInterrupt input.excpCause = false ∧
          csr.dffEcause.setWidth 4 = input.excpCause.setWidth 4
      else
        input.mRet = false ∧ (csr.statusMie = true ∨ isInterrupt input.excpCause = false) := by
  have entry := machineEntry_iff pending mode
  unfold RecordsMachineTrap
  constructor
  · intro records
    obtain ⟨saved, interrupt, code, -⟩ := records
    obtain ⟨interrupt', code', -⟩ := step_machine saved
    cases external : csr.interruptEx
    · simpa [external] using entry.mp saved
    · rw [interrupt', external] at interrupt
      rw [code', external] at code
      exact ⟨interrupt.symm, code⟩
  · intro allowed
    cases external : csr.interruptEx
    · rw [external] at allowed
      have saved := entry.mpr (Or.inr allowed)
      simpa [saved, external] using step_machine saved
    · rw [external] at allowed
      have saved := entry.mpr (Or.inl external)
      have step := step_machine saved
      rw [external] at step
      exact ⟨saved, step.1.trans allowed.1.symm, step.2.1.trans allowed.2, step.2.2⟩

theorem recordsSupervisorTrap_iff (pending : input.excpPending = true)
    (mode : csr.nextMode input = 1) :
    csr.RecordsSupervisorTrap input ↔ csr.interruptEx = false ∧ input.sRet = false ∧
      (csr.statusSie = true ∨ isInterrupt input.excpCause = false) := by
  rw [← supervisorEntry_iff pending mode]
  exact ⟨fun records => records.1, fun saved => ⟨saved, step_supervisor saved⟩⟩

/-- With a trap pending, it is taken exactly when the block of its target mode saves it. -/
theorem takesTrap_iff (pending : input.excpPending = true) :
    csr.TakesTrap input ↔
      if csr.delegated input.excpCause then csr.RecordsSupervisorTrap input
      else csr.RecordsMachineTrap input := by
  unfold TakesTrap
  by_cases target : csr.delegated input.excpCause = true
  · have mode : csr.nextMode input = 1 := by simp [nextMode, pending, target]
    have vector := vectorOf_supervisor pending mode
    simp [pending, target, mode, vector]
  · have mode : csr.nextMode input = 3 := by simp [nextMode, pending, target]
    have vector := vectorOf_machine pending mode
    simp [pending, target, mode, vector]

/-- The mode rises only by a trap exactly in the guarded cycles. -/
theorem risesOnlyByTrap_iff : csr.RisesOnlyByTrap input ↔ csr.Guarded input := by
  have moved : (csr.step input).currentMode = csr.nextMode input := rfl
  unfold RisesOnlyByTrap Guarded
  rw [moved]
  refine imp_congr_right fun below => ?_
  by_cases pending : input.excpPending = true
  · rw [takesTrap_iff pending, if_pos pending]
    by_cases target : csr.delegated input.excpCause = true
    · have mode : csr.nextMode input = 1 := by simp [nextMode, pending, target]
      rw [recordsSupervisorTrap_iff pending mode, mode, if_pos target, if_pos target]
      rcases below with user | supervisor
      · simp [user]
      · simp [supervisor]
    · have mode : csr.nextMode input = 3 := by simp [nextMode, pending, target]
      have rises : csr.currentMode < 3 := by
        rcases below with user | supervisor
        · simp [user]
        · simp [supervisor]
      rw [recordsMachineTrap_iff pending mode, mode, if_neg target, if_neg target]
      exact ⟨fun holds => holds rises, fun holds _ => holds⟩
  · -- Without a trap, only a mode that does not rise is safe.
    have silent : ¬ csr.TakesTrap input := fun taken => pending taken.1
    simp only [silent, imp_false, BitVec.not_lt, pending, if_false, Bool.false_eq_true]
    unfold nextMode
    simp only [pending, if_false, Bool.false_eq_true]
    split
    · rfl
    · split
      · rcases below with user | supervisor <;> cases csr.statusSpp <;> simp_all
      · split
        · rename_i interrupt
          simp only [Bool.and_eq_true] at interrupt
          rcases below with user | supervisor <;> simp_all
        · rename_i interrupt
          simp only [Bool.and_eq_true, not_and_or, Bool.not_eq_true] at interrupt
          simp [interrupt]

/-- A trap enters a mode at least as privileged as the one it is taken in. -/
def TrapKeepsPrivilege (csr : CsrRegfile) (input : CsrInput) : Prop :=
  input.excpPending = true → csr.currentMode ≤ (csr.step input).currentMode

/-- No cause is delegated that traps above supervisor mode. -/
def DelegatedBelow (csr : CsrRegfile) (input : CsrInput) : Prop :=
  input.excpPending = true → csr.delegated input.excpCause = true → csr.currentMode ≤ 1

/-- A delegated cause goes to supervisor mode from everywhere, and any other to machine mode. -/
theorem trapKeepsPrivilege_iff : csr.TrapKeepsPrivilege input ↔ csr.DelegatedBelow input := by
  have moved : (csr.step input).currentMode = csr.nextMode input := rfl
  unfold TrapKeepsPrivilege DelegatedBelow
  rw [moved]
  refine imp_congr_right fun pending => ?_
  by_cases target : csr.delegated input.excpCause = true
  · simp [nextMode, pending, target]
  · have top : csr.currentMode ≤ 3#2 := by
      rw [BitVec.le_def]
      exact Nat.le_of_lt_succ csr.currentMode.isLt
    simpa [nextMode, pending, target] using top

end CsrRegfile

namespace Hart

/-- In every run from reset, no cycle raises the mode silently exactly when every cycle is
guarded. -/
theorem privilege_rises_only_by_trap_iff (inputs : List HartInput) :
    machine.Obeys (fun hart input => hart.csr.RisesOnlyByTrap (hart.csrInput input)) inputs ↔
      machine.Obeys (fun hart input => hart.csr.Guarded (hart.csrInput input)) inputs := by
  apply Synchronous.obeys_congr
  intro past input
  exact CsrRegfile.risesOnlyByTrap_iff

/-- A cycle in which fetch has one instruction word, or none, and nothing else happens. -/
def fetching (word : Option (BitVec 32)) : HartInput where
  first := ⟨0, 4, 4, word.getD 0, false, 0, 0⟩
  second := ⟨4, 8, 8, 0, false, 0, 0⟩
  available := word.isSome
  availableFull := false
  ordered := by simp
  lines := ⟨false, false, false, false, false⟩
  csrW := false
  csrAddrW := 0
  csrDataW := 0
  alu1 := ⟨FuDone.quiet, false, false, 0⟩
  alu2 := ⟨FuDone.quiet, false, false, 0⟩
  lsu := ⟨FuDone.quiet, 0⟩
  md := FuDone.quiet
  csru := FuDone.quiet

/-- `SRET` out of reset drops to user mode, then an `MRET` reaches the head of the reorder
buffer. -/
def mretInUserMode : List HartInput :=
  [fetching (some 0x10200073), fetching none, fetching none, fetching (some 0x30200073),
    fetching none]

/-- The `MRET` then enters machine mode without a trap. -/
theorem mret_in_user_mode_escalates :
    (machine.run mretInUserMode).csr.currentMode = 0 ∧
      ((machine.run mretInUserMode).step (fetching none)).csr.currentMode = 3 ∧
      ¬ (machine.run mretInUserMode).csr.RisesOnlyByTrap
        ((machine.run mretInUserMode).csrInput (fetching none)) := by
  have user : (machine.run mretInUserMode).csr.currentMode = 0 := by decide +kernel
  have raised : ((machine.run mretInUserMode).step (fetching none)).csr.currentMode = 3 := by
    decide +kernel
  have pending : ((machine.run mretInUserMode).csrInput (fetching none)).excpPending = false := by
    decide +kernel
  refine ⟨user, raised, fun guarded => ?_⟩
  have rises : (machine.run mretInUserMode).csr.currentMode <
      ((machine.run mretInUserMode).step (fetching none)).csr.currentMode := by
    rw [user, raised]
    decide
  have taken := guarded (Or.inl user) rises
  rw [CsrRegfile.TakesTrap, pending] at taken
  exact absurd taken.1 (by decide)

/-- In every run from reset, no trap lowers the mode exactly when no cause is delegated that traps
above supervisor mode. -/
theorem traps_keep_privilege_iff (inputs : List HartInput) :
    machine.Obeys (fun hart input => hart.csr.TrapKeepsPrivilege (hart.csrInput input)) inputs ↔
      machine.Obeys (fun hart input => hart.csr.DelegatedBelow (hart.csrInput input)) inputs := by
  apply Synchronous.obeys_congr
  intro past input
  exact CsrRegfile.trapKeepsPrivilege_iff

/-- Machine mode delegates illegal instructions and then meets one itself. -/
def delegatedFault : List HartInput :=
  [{ fetching (some 0) with csrW := true, csrAddrW := 0x302, csrDataW := 4 }, fetching none]

theorem delegated_fault_lowers :
    ¬∀ (inputs : List HartInput) (input : HartInput),
      (machine.run inputs).csr.TrapKeepsPrivilege ((machine.run inputs).csrInput input) := by
  intro kept
  have pending : ((machine.run delegatedFault).csrInput (fetching none)).excpPending = true := by
    decide +kernel
  have lowered := kept delegatedFault (fetching none) pending
  revert lowered
  decide +kernel

end Hart

end GreenRio
