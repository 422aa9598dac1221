import GreenRio.Privilege

set_option autoImplicit false

namespace GreenRio

/-- What a trap saves: the return address, the cause, and the interrupt enable and the mode it
found. -/
structure TrapRegisters (width : Nat) where
  epc : Word
  interrupt : Bool
  code : BitVec 4
  previousEnable : Bool
  previousMode : BitVec width
  deriving DecidableEq

namespace CsrRegfile

variable (csr : CsrRegfile) (input : CsrInput)

def machineTrap : TrapRegisters 2 :=
  ⟨csr.mepc, csr.mcauseInterrupt, csr.mcauseCode, csr.statusMpie, csr.statusMpp⟩

def supervisorTrap : TrapRegisters 1 :=
  ⟨csr.sepc, csr.scauseInterrupt, csr.scauseCode, csr.statusSpie, BitVec.ofBool csr.statusSpp⟩

/-- The same registers with other contents of the trap state. -/
def withTraps (machine : TrapRegisters 2) (supervisor : TrapRegisters 1) : CsrRegfile :=
  { csr with
    mepc := machine.epc
    mcauseInterrupt := machine.interrupt
    mcauseCode := machine.code
    statusMpie := machine.previousEnable
    statusMpp := machine.previousMode
    sepc := supervisor.epc
    scauseInterrupt := supervisor.interrupt
    scauseCode := supervisor.code
    statusSpie := supervisor.previousEnable
    statusSpp := supervisor.previousMode.getLsbD 0 }

/-- The data of a trap with a given cause. -/
def machineData (cause : BitVec 5) : TrapRegisters 2 :=
  ⟨epc input.excpPc, isInterrupt cause, cause.setWidth 4, csr.statusMie, csr.currentMode⟩

def supervisorData (cause : BitVec 5) : TrapRegisters 1 :=
  ⟨epc input.excpPc, isInterrupt cause, cause.setWidth 4, csr.statusSie,
    BitVec.ofBool (csr.currentMode.getLsbD 0)⟩

/-- Whatever the trap state was, a cycle with a trap saves the data of the trap in the mode that is
entered and leaves the other mode alone; a cycle without one leaves both to software and to the
return instructions. -/
def RecordsOnce (cause : BitVec 5) : Prop :=
  ∀ machine supervisor,
    ((csr.withTraps machine supervisor).step input).machineTrap =
        (if input.excpPending = true ∧ csr.nextMode input = 3 then csr.machineData input cause
          else ((csr.withTraps machine supervisor).written input).machineTrap) ∧
      ((csr.withTraps machine supervisor).step input).supervisorTrap =
        (if input.excpPending = true ∧ csr.nextMode input = 1 then csr.supervisorData input cause
          else ((csr.withTraps machine supervisor).written input).supervisorTrap)

/-- No supervisor interrupt that software has set is enabled in machine mode. A trap is the one
that the head of the reorder buffer names, an interrupt finds the enable bit of its mode set, and
the trap does not coincide with a return from that mode. In machine mode the enabled software
interrupt is harmless if the trap is an exception with its code. -/
def Recordable (cause : BitVec 5) : Prop :=
  if input.excpPending then
    if csr.delegated input.excpCause then
      input.excpCause = cause ∧ csr.interruptEx = false ∧ input.sRet = false ∧
        (csr.statusSie = true ∨ isInterrupt input.excpCause = false)
    else if csr.interruptEx then
      isInterrupt cause = false ∧ csr.dffEcause.setWidth 4 = cause.setWidth 4
    else
      input.excpCause = cause ∧ input.mRet = false ∧
        (csr.statusMie = true ∨ isInterrupt input.excpCause = false)
  else csr.interruptEx = false

variable {csr input}

@[simp] theorem withTraps_machineEntry (machine : TrapRegisters 2) (supervisor : TrapRegisters 1) :
    (csr.withTraps machine supervisor).machineEntry input = csr.machineEntry input := by
  cases pending : input.excpPending <;>
    simp [machineEntry, withTraps, interruptEx, nextMode, delegated, pending]

@[simp] theorem withTraps_supervisorEntry (machine : TrapRegisters 2)
    (supervisor : TrapRegisters 1) :
    (csr.withTraps machine supervisor).supervisorEntry input = csr.supervisorEntry input := by
  cases pending : input.excpPending
  · simp [supervisorEntry, pending]
  · rw [supervisorEntry, withTraps_machineEntry]
    simp [supervisorEntry, withTraps, nextMode, delegated, pending]

/-- The cause that the machine block saves. -/
def savedCause (csr : CsrRegfile) (input : CsrInput) : BitVec 5 :=
  if csr.interruptEx then (csr.dffEcause.setWidth 4).setWidth 5 else input.excpCause

/-- What a clock edge leaves in the trap state of machine mode. -/
theorem step_machineTrap :
    (csr.step input).machineTrap =
      if csr.machineEntry input then csr.machineData input (csr.savedCause input)
      else (csr.written input).machineTrap := by
  have interrupt : isInterrupt (csr.savedCause input) =
      if csr.interruptEx then false else isInterrupt input.excpCause := by
    unfold savedCause isInterrupt
    split <;> simp
  have code : (csr.savedCause input).setWidth 4 =
      if csr.interruptEx then csr.dffEcause.setWidth 4 else input.excpCause.setWidth 4 := by
    unfold savedCause
    split <;> simp
  rw [machineData, interrupt, code]
  simp only [step, entered, marked, machineTrap]
  cases csr.machineEntry input <;> cases csr.supervisorEntry input <;>
    cases input.excpPending && isInterrupt input.excpCause <;> rfl

/-- One mode saves a trap. -/
theorem supervisorEntry_apart (entry : csr.supervisorEntry input = true) :
    csr.machineEntry input = false := by
  simp only [supervisorEntry, Bool.and_eq_true, Bool.not_eq_true'] at entry
  exact entry.1

theorem step_supervisorTrap :
    (csr.step input).supervisorTrap =
      if csr.supervisorEntry input then csr.supervisorData input input.excpCause
      else (csr.written input).supervisorTrap := by
  have apart := @supervisorEntry_apart csr input
  simp only [step, entered, marked, supervisorTrap, supervisorData]
  cases machine : csr.machineEntry input <;> cases supervisor : csr.supervisorEntry input <;>
    cases input.excpPending && isInterrupt input.excpCause <;> simp_all

/-- The cycle writes what does not depend on the trap state it found. -/
theorem step_withTraps (machine : TrapRegisters 2) (supervisor : TrapRegisters 1) :
    ((csr.withTraps machine supervisor).step input).machineTrap =
        (if csr.machineEntry input then csr.machineData input (csr.savedCause input)
          else ((csr.withTraps machine supervisor).written input).machineTrap) ∧
      ((csr.withTraps machine supervisor).step input).supervisorTrap =
        (if csr.supervisorEntry input then csr.supervisorData input input.excpCause
          else ((csr.withTraps machine supervisor).written input).supervisorTrap) := by
  rw [step_machineTrap, step_supervisorTrap, withTraps_machineEntry, withTraps_supervisorEntry]
  exact ⟨rfl, rfl⟩

theorem cause_ext {left right : BitVec 5} (interrupt : isInterrupt left = isInterrupt right)
    (code : left.setWidth 4 = right.setWidth 4) : left = right := by
  revert left right
  decide +kernel

theorem machineData_inj {cause other : BitVec 5}
    (same : csr.machineData input cause = csr.machineData input other) : cause = other :=
  cause_ext (congrArg TrapRegisters.interrupt same) (congrArg TrapRegisters.code same)

theorem supervisorData_inj {cause other : BitVec 5}
    (same : csr.supervisorData input cause = csr.supervisorData input other) : cause = other :=
  cause_ext (congrArg TrapRegisters.interrupt same) (congrArg TrapRegisters.code same)

/-- The write port reaches at most one of the return address and the cause. -/
theorem written_keeps :
    (csr.written input).mepc = csr.mepc ∨
      (csr.written input).mcauseInterrupt = csr.mcauseInterrupt := by
  unfold written
  split_ifs
  · exact Or.inl rfl
  · unfold write
    split <;> simp
  · exact Or.inl rfl
  · exact Or.inl rfl
  · exact Or.inl rfl

/-- Contents of the trap state that no trap at the given address saves. -/
def otherTrap (width : Nat) (pc : Pc) (interrupt : Bool) : TrapRegisters width :=
  ⟨~~~ epc pc, interrupt, 0, false, 0⟩

theorem epc_ne_complement (pc : Pc) : epc pc ≠ ~~~ epc pc := by
  intro same
  have bit := congrArg (fun word => word.getLsbD 0) same
  simp at bit

theorem recordsOnce_quiet_iff (quiet : input.excpPending = false) (cause : BitVec 5) :
    csr.RecordsOnce input cause ↔ csr.interruptEx = false := by
  have machineEntry : csr.machineEntry input = csr.interruptEx := by
    simp [CsrRegfile.machineEntry, quiet]
  have supervisorEntry : csr.supervisorEntry input = false := by
    simp [CsrRegfile.supervisorEntry, quiet]
  unfold RecordsOnce
  simp only [step_withTraps, machineEntry, supervisorEntry, quiet, Bool.false_eq_true, false_and,
    if_false, and_true]
  constructor
  · intro records
    by_contra external
    rw [Bool.not_eq_false] at external
    have saved := records (otherTrap 2 input.excpPc true) (otherTrap 1 input.excpPc true)
    rw [if_pos external] at saved
    rcases @written_keeps (csr.withTraps (otherTrap 2 input.excpPc true)
      (otherTrap 1 input.excpPc true)) input with same | same
    · exact epc_ne_complement input.excpPc ((congrArg TrapRegisters.epc saved).trans same)
    · have flag : isInterrupt (csr.savedCause input) = true :=
        (congrArg TrapRegisters.interrupt saved).trans same
      simp [savedCause, external, isInterrupt] at flag
  · intro external machine supervisor
    simp [external]

section Pending

variable (pending : input.excpPending = true)

include pending

/-- A trap leaves the write port and the return instructions without effect. -/
theorem written_pending : csr.written input = csr := by
  simp [written, pending]

theorem recordsOnce_machine_iff (mode : csr.nextMode input = 3) (cause : BitVec 5) :
    csr.RecordsOnce input cause ↔ csr.machineEntry input = true ∧ csr.savedCause input = cause := by
  have supervisorEntry : csr.supervisorEntry input = false := by
    simp [CsrRegfile.supervisorEntry, mode]
  have other : ¬ (3 : BitVec 2) = 1 := by decide
  unfold RecordsOnce
  simp only [step_withTraps, supervisorEntry, pending, mode, other, and_self, and_false, if_true,
    Bool.false_eq_true, if_false, and_true]
  constructor
  · intro records
    have saved := records (otherTrap 2 input.excpPc false) (otherTrap 1 input.excpPc false)
    split at saved
    · rename_i entry
      exact ⟨entry, machineData_inj saved⟩
    · rw [written_pending pending] at saved
      exact absurd (congrArg TrapRegisters.epc saved).symm (epc_ne_complement input.excpPc)
  · rintro ⟨entry, same⟩ machine supervisor
    rw [if_pos entry, same]

theorem recordsOnce_supervisor_iff (mode : csr.nextMode input = 1) (cause : BitVec 5) :
    csr.RecordsOnce input cause ↔
      csr.supervisorEntry input = true ∧ input.excpCause = cause := by
  have other : ¬ (1 : BitVec 2) = 3 := by decide
  unfold RecordsOnce
  simp only [step_withTraps, pending, mode, other, and_self, and_false, if_true, if_false]
  constructor
  · intro records
    obtain ⟨-, saved⟩ := records (otherTrap 2 input.excpPc false) (otherTrap 1 input.excpPc false)
    split at saved
    · rename_i entry
      exact ⟨entry, supervisorData_inj saved⟩
    · rw [written_pending pending] at saved
      exact absurd (congrArg TrapRegisters.epc saved).symm (epc_ne_complement input.excpPc)
  · rintro ⟨entry, same⟩ machine supervisor
    rw [if_pos entry, same, supervisorEntry_apart entry, if_neg (by simp)]
    exact ⟨rfl, rfl⟩

end Pending

/-- The trap state is recorded exactly in the recordable cycles. -/
theorem recordsOnce_iff (cause : BitVec 5) :
    csr.RecordsOnce input cause ↔ csr.Recordable input cause := by
  unfold Recordable
  by_cases pending : input.excpPending = true
  · rw [if_pos pending]
    by_cases target : csr.delegated input.excpCause = true
    · have mode : csr.nextMode input = 1 := by simp [nextMode, pending, target]
      rw [recordsOnce_supervisor_iff pending mode, supervisorEntry_iff pending mode,
        if_pos target, and_comm]
    · have mode : csr.nextMode input = 3 := by simp [nextMode, pending, target]
      rw [recordsOnce_machine_iff pending mode, machineEntry_iff pending mode, if_neg target]
      cases external : csr.interruptEx
      · simp [savedCause, external, and_comm]
      · simp only [savedCause, external, true_or, true_and, if_true]
        constructor
        · rintro rfl
          simp [isInterrupt]
        · rintro ⟨interrupt, code⟩
          refine cause_ext ?_ (by simpa using code)
          rw [interrupt]
          simp [isInterrupt]
  · rw [if_neg pending]
    exact recordsOnce_quiet_iff (by simpa using pending) cause

/-- The supervisor interrupt that software has set and enabled, external before software before
timer. -/
def raisedCause (csr : CsrRegfile) : BitVec 5 :=
  if csr.seie && csr.sExtIntEx then 0x19
  else if csr.ssie && csr.sSoftIntEx then 0x11
  else 0x15

end CsrRegfile

namespace Hart

/-- The cause of the trap of a cycle: the head of the reorder buffer excepts, or the registers
raise an interrupt. -/
def trapCause (hart : Hart) : BitVec 5 :=
  if hart.core.exception then hart.core.rcu.robEcause hart.core.rcu.cmtRobIndex
  else hart.csr.raisedCause

/-- In every run from reset, every trap is recorded once, in its own cycle and with its own data,
exactly when every cycle is recordable. -/
theorem trap_recorded_once_iff (inputs : List HartInput) :
    machine.Obeys
        (fun hart input => hart.csr.RecordsOnce (hart.csrInput input) hart.trapCause) inputs ↔
      machine.Obeys
        (fun hart input => hart.csr.Recordable (hart.csrInput input) hart.trapCause) inputs := by
  constructor
  · intro records past input rest split
    exact (CsrRegfile.recordsOnce_iff _).mp (records past input rest split)
  · intro recordable past input rest split
    exact (CsrRegfile.recordsOnce_iff _).mpr (recordable past input rest split)

/-- Out of reset, with every interrupt disabled, the machine timer line is high while an addition
is decoded. -/
def timerWhileDisabled : List HartInput :=
  [{ fetching (some 0x00100113) with lines := ⟨false, false, true, false, false⟩ }, fetching none,
    fetching none]

/-- Fetch is redirected by the trap, and nothing is saved. -/
theorem disabled_timer_not_recorded :
    ((machine.run (timerWhileDisabled.take 2)).csrInput (fetching none)).excpPending = true ∧
      ¬ machine.Obeys
        (fun hart input => hart.csr.RecordsOnce (hart.csrInput input) hart.trapCause)
        timerWhileDisabled := by
  have pending : ((machine.run (timerWhileDisabled.take 2)).csrInput (fetching none)).excpPending =
      true := by decide +kernel
  refine ⟨pending, fun records => ?_⟩
  have saved := ((records (timerWhileDisabled.take 2) (fetching none) [] rfl)
    (CsrRegfile.otherTrap 2 0 false) (CsrRegfile.otherTrap 1 0 false)).1
  revert saved
  decide +kernel

end Hart

end GreenRio
