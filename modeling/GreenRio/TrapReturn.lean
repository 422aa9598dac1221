import GreenRio.ControlFlow
import GreenRio.CsrRegfile
import GreenRio.Synchronous

set_option autoImplicit false

namespace GreenRio

/-- The two modes that traps enter and that have a return instruction of their own. -/
inductive TrapLevel where
  | machine
  | supervisor
  deriving DecidableEq

namespace TrapLevel

def mode : TrapLevel → BitVec 2
  | machine => 3
  | supervisor => 1

/-- `MIE` and `SIE`. -/
def enable (csr : CsrRegfile) : TrapLevel → Bool
  | machine => csr.statusMie
  | supervisor => csr.statusSie

/-- `MPIE` and `SPIE`. -/
def previousEnable (csr : CsrRegfile) : TrapLevel → Bool
  | machine => csr.statusMpie
  | supervisor => csr.statusSpie

/-- `MPP` and `SPP`. -/
def previousMode (csr : CsrRegfile) : TrapLevel → BitVec 2
  | machine => csr.statusMpp
  | supervisor => (BitVec.ofBool csr.statusSpp).setWidth 2

/-- A mode as `MPP` and `SPP` keep it. -/
def keptMode (mode : BitVec 2) : TrapLevel → BitVec 2
  | machine => mode
  | supervisor => (BitVec.ofBool (mode.getLsbD 0)).setWidth 2

/-- `mepc` and `sepc`. -/
def xepc (csr : CsrRegfile) : TrapLevel → Word
  | machine => csr.mepc
  | supervisor => csr.sepc

/-- `MRET` and `SRET`. -/
def returns (input : CsrInput) : TrapLevel → Bool
  | machine => input.mRet
  | supervisor => input.sRet

def other : TrapLevel → TrapLevel
  | machine => supervisor
  | supervisor => machine

theorem keptMode_eq {level : TrapLevel} {mode : BitVec 2} (below : level = supervisor → mode ≤ 1) :
    level.keptMode mode = mode := by
  cases level with
  | machine => rfl
  | supervisor =>
    have low := below rfl
    revert mode
    decide

end TrapLevel

namespace CsrRegfile

/-- The registers as a machine that starts in a given state. -/
def startingAt (csr : CsrRegfile) : Synchronous CsrRegfile CsrInput := ⟨csr, step⟩

/-- A cycle without a trap, without an interrupt (whose line `excep_ctrl` turns into a trap) and
without a write. -/
structure Calm (csr : CsrRegfile) (input : CsrInput) : Prop where
  pending : input.excpPending = false
  line : csr.dffInterrupt = false
  external : csr.interruptEx = false
  silent : input.csrW = false

/-- What a return undoes: the mode, the interrupt enable, and where the program goes on. -/
structure Undoes (level : TrapLevel) (csr : CsrRegfile) (trap : CsrInput) (before : CsrRegfile)
    (input : CsrInput) : Prop where
  mode : (before.step input).currentMode = csr.currentMode
  enable : level.enable (before.step input) = level.enable csr
  target : before.excpPcOut input = trap.excpPc

variable {level : TrapLevel} {csr : CsrRegfile} {input : CsrInput}

/-- An even address survives its way through an exception register. -/
theorem epc_even {pc : Pc} (even : pc.getLsbD 0 = false) : (epc pc).setWidth 39 = pc := by
  have kept : (epc pc).setWidth 39 = clearLow pc := by
    apply BitVec.eq_of_getLsbD_eq
    intro bit inside
    rw [BitVec.getLsbD_setWidth, epc, BitVec.getLsbD_signExtend, ← clearLow]
    simp [inside, show bit < 64 by omega]
  rw [kept, clearLow_even pc even]

/-- What a return reads: the previous mode, the previous enable and the address. -/
def saved (level : TrapLevel) (csr : CsrRegfile) : BitVec 2 × Bool × Word :=
  (level.previousMode csr, level.previousEnable csr, level.xepc csr)

theorem nextMode_calm (calm : csr.Calm input) (returns : level.returns input = true)
    (alone : level.other.returns input = false) :
    csr.nextMode input = level.previousMode csr := by
  cases level with
  | machine =>
    change input.mRet = true at returns
    simp [nextMode, calm.pending, returns, TrapLevel.previousMode]
  | supervisor =>
    change input.sRet = true at returns
    change input.mRet = false at alone
    simp [nextMode, calm.pending, returns, alone, TrapLevel.previousMode]

/-- A calm cycle saves no trap. -/
theorem entered_calm (calm : csr.Calm input) :
    csr.entered input (marked input (csr.written input)) = csr.written input := by
  simp [entered, marked, machineEntry, supervisorEntry, calm.pending, calm.external]

/-- The mode and what else `step` adds at the end is not read by a return. -/
theorem saved_step : saved level (csr.step input) =
    saved level (csr.entered input (marked input (csr.written input))) := by
  cases level <;> rfl

/-- A calm cycle without the return of a level keeps what that return reads. -/
theorem saved_calm (calm : csr.Calm input) (returns : level.returns input = false) :
    saved level (csr.step input) = saved level csr := by
  have kept : saved level (csr.written input) = saved level csr := by
    simp only [written, calm.pending, calm.silent, Bool.false_eq_true, if_false]
    cases level with
    | machine =>
      change input.mRet = false at returns
      rw [returns]
      cases input.sRet <;> rfl
    | supervisor =>
      change input.sRet = false at returns
      rw [returns]
      cases input.mRet <;> rfl
  rw [saved_step, entered_calm calm, kept]

/-- A return takes up what it reads. -/
theorem undoes_iff {trap : CsrInput} {before : CsrRegfile} (calm : before.Calm input)
    (returns : level.returns input = true) (alone : level.other.returns input = false) :
    Undoes level csr trap before input ↔
      level.previousMode before = csr.currentMode ∧
        level.previousEnable before = level.enable csr ∧
        (level.xepc before).setWidth 39 = trap.excpPc := by
  have mode : (before.step input).currentMode = level.previousMode before :=
    nextMode_calm calm returns alone
  have enable : level.enable (before.step input) = level.previousEnable before := by
    have step : level.enable (before.step input) =
        level.enable (before.entered input (marked input (before.written input))) := by
      cases level <;> rfl
    rw [step, entered_calm calm]
    simp only [written, calm.pending, calm.silent, Bool.false_eq_true, if_false]
    cases level with
    | machine =>
      change input.mRet = true at returns
      rw [returns]
      rfl
    | supervisor =>
      change input.sRet = true at returns
      change input.mRet = false at alone
      rw [returns, alone]
      rfl
  have target : before.excpPcOut input = (level.xepc before).setWidth 39 := by
    cases level with
    | machine =>
      change input.mRet = true at returns
      change input.sRet = false at alone
      simp [excpPcOut, calm.pending, returns, alone, TrapLevel.xepc]
    | supervisor =>
      change input.sRet = true at returns
      change input.mRet = false at alone
      simp [excpPcOut, calm.pending, returns, alone, TrapLevel.xepc]
  rw [← mode, ← enable, ← target]
  exact ⟨fun undoes => ⟨undoes.mode, undoes.enable, undoes.target⟩,
    fun parts => ⟨parts.1, parts.2.1, parts.2.2⟩⟩

/-- A synchronous trap saves its state, unless the trapping instruction is itself a return of the
level, which then keeps it. -/
theorem saved_trap (pending : input.excpPending = true)
    (synchronous : isInterrupt input.excpCause = false)
    (enters : csr.nextMode input = level.mode) (external : csr.interruptEx = false) :
    saved level (csr.step input) =
      if level.returns input then saved level csr
      else (level.keptMode csr.currentMode, level.enable csr, epc input.excpPc) := by
  have current : marked input (csr.written input) = csr := by
    simp [marked, written, pending, synchronous]
  rw [saved_step, current]
  cases level with
  | machine =>
    have entry : csr.machineEntry input = !input.mRet := by
      simp [machineEntry, external, pending, synchronous, enters, TrapLevel.mode]
    rw [entered, entry]
    cases returns : input.mRet <;>
      simp [supervisorEntry, TrapLevel.returns, returns, enters, TrapLevel.mode]
    rfl
  | supervisor =>
    have machine : csr.machineEntry input = false := by
      simp [machineEntry, external, enters, TrapLevel.mode]
    have entry : csr.supervisorEntry input = !input.sRet := by
      simp [supervisorEntry, machine, pending, synchronous, enters, TrapLevel.mode]
    rw [entered, machine, entry]
    cases returns : input.sRet <;> simp [TrapLevel.returns, returns]
    rfl

/-- The cycles between a trap and the return: calm, and without another return of the level. -/
def Between (level : TrapLevel) (csr : CsrRegfile) (input : CsrInput) : Prop :=
  csr.Calm input ∧ level.returns input = false

/-- What a return reads stays as the trap left it. -/
theorem saved_between {inputs : List CsrInput} (obeys : csr.startingAt.Obeys (Between level) inputs) :
    saved level (csr.startingAt.run inputs) = saved level csr := by
  induction inputs using List.reverseRecOn with
  | nil => rfl
  | append_singleton inputs input ih =>
    obtain ⟨before, calm, returns⟩ := Synchronous.obeys_snoc.mp obeys
    rw [Synchronous.run_snoc]
    exact (saved_calm calm returns).trans (ih before)

/-- The first calm cycle shows that no interrupt was waiting behind the line. -/
theorem line_of_calm {inputs : List CsrInput} (obeys : csr.startingAt.Obeys (Between level) inputs)
    (calm : (csr.startingAt.run inputs).Calm input) : csr.dffInterrupt = false := by
  cases inputs with
  | nil => exact calm.line
  | cons first rest => exact (obeys [] first rest rfl).1.line

/-- A return undoes a synchronous trap at an even address exactly when the trapping instruction is
not a return of the level itself, or what that return would have read is what the trap found. -/
theorem return_undoes_trap_iff {trap : CsrInput} {inputs : List CsrInput}
    (pending : trap.excpPending = true) (synchronous : isInterrupt trap.excpCause = false)
    (even : trap.excpPc.getLsbD 0 = false) (enters : csr.nextMode trap = level.mode)
    (below : level = .supervisor → csr.currentMode ≤ 1)
    (obeys : (csr.step trap).startingAt.Obeys (Between level) inputs)
    (calm : ((csr.step trap).startingAt.run inputs).Calm input)
    (returns : level.returns input = true) (alone : level.other.returns input = false) :
    Undoes level csr trap ((csr.step trap).startingAt.run inputs) input ↔
      level.returns trap = false ∨
        (level.previousMode csr = csr.currentMode ∧
          level.previousEnable csr = level.enable csr ∧
          (level.xepc csr).setWidth 39 = trap.excpPc) := by
  have external : csr.interruptEx = false := line_of_calm obeys calm
  have kept := (saved_between obeys).trans (saved_trap pending synchronous enters external)
  rw [undoes_iff calm returns alone]
  cases unsaved : level.returns trap with
  | true =>
    rw [if_pos unsaved] at kept
    simp only [saved, Prod.mk.injEq] at kept
    rw [kept.1, kept.2.1, kept.2.2]
    simp
  | false =>
    rw [if_neg (by simp [unsaved]), TrapLevel.keptMode_eq below] at kept
    simp only [saved, Prod.mk.injEq] at kept
    rw [kept.1, kept.2.1, kept.2.2, epc_even even]
    simp

/-- A trap of user mode that supervisor mode is delegated, and its return. -/
def pageFault : CsrInput := ⟨false, 0, 0, true, 13, 0x80, 0x1000, false, false⟩

def userMode : CsrRegfile := { reset with currentMode := 0, statusSie := true, medeleg := 0x2000 }

def supervisorReturn : CsrInput := ⟨false, 0, 0, false, 0, 0, 0, false, true⟩

theorem return_undoes_trap_witness :
    Undoes .supervisor userMode pageFault (userMode.step pageFault) supervisorReturn :=
  have calm : (userMode.step pageFault).Calm supervisorReturn := ⟨rfl, rfl, rfl, rfl⟩
  (return_undoes_trap_iff rfl rfl rfl rfl (fun _ => by decide)
    (Synchronous.obeys_nil (userMode.step pageFault).startingAt _) calm rfl rfl).mpr (.inl rfl)

/-- Fetch faults on a word that reads as `MRET`: the trap is taken without being saved. -/
def faultingMret : CsrInput := ⟨false, 0, 0, true, 12, 0, 0x1000, true, false⟩

def machineReturn : CsrInput := ⟨false, 0, 0, false, 0, 0, 0, true, false⟩

theorem faulting_mret_lost :
    ¬∀ (level : TrapLevel) (csr : CsrRegfile) (trap input : CsrInput) (inputs : List CsrInput),
      trap.excpPending = true → isInterrupt trap.excpCause = false →
      trap.excpPc.getLsbD 0 = false → csr.nextMode trap = level.mode →
      (level = .supervisor → csr.currentMode ≤ 1) →
      (csr.step trap).startingAt.Obeys (Between level) inputs →
      ((csr.step trap).startingAt.run inputs).Calm input →
      level.returns input = true → level.other.returns input = false →
      Undoes level csr trap ((csr.step trap).startingAt.run inputs) input := by
  intro undone
  have undoes := undone .machine userMode faultingMret machineReturn [] rfl rfl rfl rfl
    (fun wrong => by cases wrong) (Synchronous.obeys_nil _ _) ⟨rfl, rfl, rfl, rfl⟩ rfl rfl
  have target := undoes.target
  revert target
  decide

end CsrRegfile

end GreenRio
