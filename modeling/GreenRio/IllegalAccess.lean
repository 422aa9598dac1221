import GreenRio.CsrFile
import GreenRio.Retirement
import Mathlib.Tactic.IntervalCases

set_option autoImplicit false

namespace GreenRio

open Oldest2Abitter (getLsbD_ofBits)

namespace Pmp

variable (pmp : Pmp)

theorem pmpcfg_bit (index : Fin 8) {bit : Nat} (inside : bit < 8) :
    (pmp.pmpcfg.extractLsb' (index.val % 8 * 8) 8).getLsbD bit =
      (pmp.entry index).pmpcfgBit bit := by
  have own : (index.val % 8 * 8 + bit) / 8 = index.val := by omega
  have place : (index.val % 8 * 8 + bit) % 8 = bit := by omega
  have within : index.val % 8 * 8 + bit < 64 := by omega
  rw [BitVec.getLsbD_extractLsb', pmpcfg, getLsbD_ofBits, own, place, Fin.ofNat_val_eq_self]
  simp [inside, within]

/-- Writing an entry its own configuration changes nothing. -/
theorem step_entry_own (index : Fin 8) (cfgSetVld : Bool) (addrSetPayload : Word) (lock : Bool) :
    (pmp.entry index).step cfgSetVld (pmp.pmpcfg.extractLsb' (index.val % 8 * 8) 8) false
      addrSetPayload lock = pmp.entry index := by
  have field : (pmp.pmpcfg.extractLsb' (index.val % 8 * 8) 8).extractLsb' 3 2 =
      (pmp.entry index).pmpcfgA := by
    apply BitVec.eq_of_getLsbD_eq
    intro bit inside
    rw [BitVec.getLsbD_extractLsb', pmpcfg_bit pmp index (by omega)]
    obtain rfl | rfl : bit = 0 ∨ bit = 1 := by omega
    · rfl
    · rfl
  unfold PmpEntry.step
  rw [field, pmpcfg_bit pmp index (by decide), pmpcfg_bit pmp index (by decide),
    pmpcfg_bit pmp index (by decide), pmpcfg_bit pmp index (by decide)]
  simp [PmpEntry.pmpcfgBit]

/-- A cycle that writes no address, and no configuration but the own one, changes nothing. -/
theorem step_own {ports : PmpPorts} (addrSetVld : ports.addrSetVld = false)
    (cfgSet : ports.cfgSetVld = true → ports.cfgSetPayload = pmp.cfgOriginPayload ports.cfgSetAddr) :
    pmp.step ports = pmp := by
  have entries : (pmp.step ports).entry = pmp.entry := by
    funext index
    simp only [step, addrSetVld, Bool.false_and]
    by_cases written : (ports.cfgSetVld && ports.cfgSetAddr == 0) = true
    · rw [Bool.and_eq_true, beq_iff_eq] at written
      rw [cfgSet written.1, cfgOriginPayload, if_pos written.2]
      exact step_entry_own pmp index _ _ _
    · rw [Bool.not_eq_true] at written
      rw [written]
      simp [PmpEntry.step]
  cases pmp
  exact congrArg Pmp.mk entries

end Pmp

namespace CsrRegfile

/-- The write port knows one address that is not writeable. -/
theorem write_unlisted (csr : CsrRegfile) (address : BitVec 12) (data : Word)
    (unlisted : writeable address = false) : csr.write address data =
      if address = 0x042 then
        { csr with mcauseCode := data.setWidth 4, mcauseInterrupt := data.getLsbD 63 }
      else csr := by
  unfold write
  split
  case h_18 => rfl
  case h_20 => rw [if_neg (by assumption)]
  all_goals exact absurd unlisted (by decide)

/-- The cause register of machine mode cleared. -/
def uncaused (csr : CsrRegfile) : CsrRegfile :=
  { csr with mcauseCode := 0, mcauseInterrupt := false }

theorem uncaused_eq_iff (csr : CsrRegfile) :
    csr.uncaused = csr ↔ csr.mcauseInterrupt = false ∧ csr.mcauseCode = 0 := by
  constructor
  · intro same
    rw [← same]
    exact ⟨rfl, rfl⟩
  · intro clear
    cases csr
    obtain ⟨interrupt, code⟩ := clear
    simp only [uncaused, CsrRegfile.mk.injEq, true_and, and_true]
    exact ⟨interrupt.symm, code.symm⟩

/-- Only the block that saves a trap for machine mode restores a cleared cause. -/
theorem entered_uncaused (csr current : CsrRegfile) (input : CsrInput) :
    csr.entered input current.uncaused =
      if csr.machineEntry input then csr.entered input current
      else (csr.entered input current).uncaused := by
  unfold entered
  split
  · rfl
  · split <;> rfl

theorem marked_uncaused (current : CsrRegfile) (input : CsrInput) :
    marked input current.uncaused = (marked input current).uncaused := by
  unfold marked
  split <;> rfl

/-- A cycle without a write of its own, begun with the cause cleared. -/
theorem step_uncaused (csr : CsrRegfile) {input : CsrInput} (silent : input.csrW = false) :
    csr.uncaused.step input =
      if csr.machineEntry input then csr.step input else (csr.step input).uncaused := by
  have written : csr.uncaused.written input = (csr.written input).uncaused := by
    simp only [CsrRegfile.written, silent, Bool.false_eq_true, if_false]
    split
    · rfl
    · split
      · rfl
      · split <;> rfl
  have entered : csr.uncaused.entered input (marked input (csr.uncaused.written input)) =
      csr.entered input (marked input (csr.written input)).uncaused := by
    rw [written, marked_uncaused]
    rfl
  unfold step
  rw [entered, entered_uncaused]
  split <;> rfl

/-- A cycle that neither writes nor saves a trap keeps the cause. -/
theorem step_mcause (csr : CsrRegfile) {input : CsrInput} (silent : input.csrW = false)
    (unsaved : csr.machineEntry input = false) :
    (csr.step input).mcauseInterrupt = csr.mcauseInterrupt ∧
      (csr.step input).mcauseCode = csr.mcauseCode := by
  have written : (csr.written input).mcauseInterrupt = csr.mcauseInterrupt ∧
      (csr.written input).mcauseCode = csr.mcauseCode := by
    simp only [CsrRegfile.written, silent, Bool.false_eq_true, if_false]
    split
    · exact ⟨rfl, rfl⟩
    · split
      · exact ⟨rfl, rfl⟩
      · split <;> exact ⟨rfl, rfl⟩
  have marked : (marked input (csr.written input)).mcauseInterrupt = csr.mcauseInterrupt ∧
      (marked input (csr.written input)).mcauseCode = csr.mcauseCode := by
    unfold CsrRegfile.marked
    split <;> exact written
  simp only [step, entered, unsaved, Bool.false_eq_true, if_false]
  split <;> exact marked

end CsrRegfile

theorem CsrUnit.writeable_of_isPmp {address : BitVec 12} (pmp : isPmp address = true) :
    CsrRegfile.writeable address = true := by
  simp only [isPmp, Bool.and_eq_true, decide_eq_true_eq, BitVec.le_def] at pmp
  have low : 0x3b0 ≤ address.toNat := pmp.1
  have high : address.toNat ≤ 0x3ef := pmp.2
  have row : (address.extractLsb' 4 8).toNat = address.toNat / 16 := by
    rw [BitVec.extractLsb'_toNat, Nat.shiftRight_eq_div_pow]
    omega
  have rows : ∃ digit < 4, address.extractLsb' 4 8 = BitVec.ofNat 8 (0x3b + digit) := by
    refine ⟨address.toNat / 16 - 0x3b, by omega, BitVec.eq_of_toNat_eq ?_⟩
    rw [row, BitVec.toNat_ofNat]
    omega
  obtain ⟨digit, inside, row⟩ := rows
  rw [CsrRegfile.writeable, row, Bool.or_eq_true]
  right
  interval_cases digit <;> rfl

namespace CsrFile

variable {file : CsrFile} {stage : Stage} {outside : CsrOutside}

/-- No operation in the stage of the CSR unit. -/
def idleStage : Stage := ⟨false, Issued.blank⟩

/-- An instruction that reports an exception: decode faults it, and then it is never issued, or the
CSR unit does. -/
def Reports (file : CsrFile) (stage : Stage) : Prop :=
  stage.valid = true → file.illegal stage = true

theorem wrData_illegal (illegal : file.illegal stage = true) :
    file.wrData stage = (file.answer stage.issued.entry.csrAddress).opData := by
  unfold wrData CsrUnit.wrData
  exact if_pos illegal

theorem unlisted_of_illegal (illegal : file.illegal stage = true) :
    CsrRegfile.writeable stage.issued.entry.csrAddress = false := by
  simp only [CsrFile.illegal, CsrUnit.illegal, answer, CsrRegfile.readable, Bool.and_eq_true,
    Bool.or_eq_true, Bool.not_eq_true', Bool.or_eq_false_iff] at illegal
  rcases illegal.2 with ⟨-, -, unlisted⟩ | ⟨-, unlisted⟩
  · exact unlisted
  · exact unlisted

theorem not_isPmp_of_illegal (illegal : file.illegal stage = true) :
    CsrUnit.isPmp stage.issued.entry.csrAddress = false := by
  by_contra pmp
  rw [Bool.not_eq_false] at pmp
  have listed := CsrUnit.writeable_of_isPmp pmp
  simp [CsrFile.illegal, CsrUnit.illegal, answer, CsrRegfile.readable, listed] at illegal

/-- The strobes of an illegal access write back what is there. -/
theorem step_pmp (reports : file.Reports stage) : (file.step stage outside).pmp = file.pmp := by
  apply Pmp.step_own
  · by_contra set
    rw [Bool.not_eq_false] at set
    simp only [pmpPorts, Bool.and_eq_true] at set
    rw [not_isPmp_of_illegal (reports set.1)] at set
    cases set.2
  · intro set
    simp only [pmpPorts, Bool.and_eq_true] at set
    change file.wrData stage = _
    rw [wrData_illegal (reports set.1), answer, if_pos set.2]
    rfl

theorem step_mcycle (reports : file.Reports stage) :
    (file.step stage outside).mcycle = file.mcycle + 1 := by
  apply if_neg
  intro counter
  have valid : stage.issued.entry.csrWrite = true ∧ stage.valid = true :=
    (Bool.and_eq_true _ _).mp counter.2
  have unlisted := unlisted_of_illegal (reports valid.2)
  rw [counter.1] at unlisted
  revert unlisted
  decide

/-- The access that reaches a register without being legal. -/
def strays (stage : Stage) : Bool :=
  doCsrWrite stage && stage.issued.entry.csrAddress == 0x042

/-- The write port under an illegal access. -/
theorem write_illegal (reports : file.Reports stage) (writes : doCsrWrite stage = true) :
    file.regs.write stage.issued.entry.csrAddress (file.wrData stage) =
      if stage.issued.entry.csrAddress = 0x042 then file.regs.uncaused else file.regs := by
  have valid : stage.issued.entry.csrWrite = true ∧ stage.valid = true :=
    (Bool.and_eq_true _ _).mp writes
  have illegal := reports valid.2
  rw [CsrRegfile.write_unlisted _ _ _ (unlisted_of_illegal illegal)]
  split
  · rename_i stray
    have zero : file.wrData stage = 0 := by
      rw [wrData_illegal illegal, stray]
      rfl
    rw [zero]
    rfl
  · rfl

/-- What is left in the registers before the traps of the cycle are looked at. -/
theorem written_reports (reports : file.Reports stage) (mRet : outside.mRet = false)
    (sRet : outside.sRet = false) :
    file.regs.written (file.csrInput stage outside) =
      if !outside.excpPending && strays stage then file.regs.uncaused else file.regs := by
  unfold CsrRegfile.written
  simp only [csrInput, mRet, sRet, Bool.false_eq_true, if_false]
  by_cases pending : outside.excpPending = true
  · simp [pending]
  · by_cases writes : doCsrWrite stage = true
    · simp only [pending, writes, if_true, write_illegal reports writes]
      simp [strays, writes]
    · simp [strays, pending, writes]

/-- The access clears the cause of machine mode, unless a trap sets it in the same cycle. -/
theorem step_regs (reports : file.Reports stage) (mRet : outside.mRet = false)
    (sRet : outside.sRet = false) :
    (file.step stage outside).regs =
      if !outside.excpPending && strays stage && !file.regs.interruptEx then
        (file.step idleStage outside).regs.uncaused
      else (file.step idleStage outside).regs := by
  have idle : file.regs.written (file.csrInput idleStage outside) = file.regs := by
    rw [written_reports (fun valid => by cases valid) mRet sRet, if_neg]
    simp [strays, doCsrWrite, idleStage]
  have entry : outside.excpPending = false →
      file.regs.machineEntry (file.csrInput idleStage outside) = file.regs.interruptEx := by
    intro pending
    simp [CsrRegfile.machineEntry, csrInput, pending]
  -- Past the write port, the input is the one of an idle cycle.
  have entered : file.regs.entered (file.csrInput stage outside) =
      file.regs.entered (file.csrInput idleStage outside) := rfl
  have marked : CsrRegfile.marked (file.csrInput stage outside) =
      CsrRegfile.marked (file.csrInput idleStage outside) := rfl
  have mode : file.regs.nextMode (file.csrInput stage outside) =
      file.regs.nextMode (file.csrInput idleStage outside) := rfl
  have target : file.regs.tvecOut (file.csrInput stage outside) =
      file.regs.tvecOut (file.csrInput idleStage outside) := rfl
  have step : (file.step stage outside).regs =
      file.regs.step (file.csrInput stage outside) := rfl
  have plain : (file.step idleStage outside).regs =
      file.regs.step (file.csrInput idleStage outside) := rfl
  rw [step, plain, CsrRegfile.step, CsrRegfile.step, entered, marked, mode, target, idle,
    written_reports reports mRet sRet]
  by_cases stray : (!outside.excpPending && strays stage) = true
  · have calm : outside.excpPending = false := by
      rw [Bool.and_eq_true, Bool.not_eq_true'] at stray
      exact stray.1
    rw [if_pos stray, CsrRegfile.marked_uncaused, CsrRegfile.entered_uncaused, entry calm, stray]
    cases file.regs.interruptEx
    · rfl
    · rfl
  · rw [if_neg stray, Bool.eq_false_of_not_eq_true stray]
    rfl

/-- The trap that follows an access sets every register as it would have without the access. -/
def Harmless (file : CsrFile) (stage : Stage) (outside trap : CsrOutside) : Prop :=
  (file.step stage outside).step idleStage trap =
    (file.step idleStage outside).step idleStage trap

/-- An access does not write the cause of machine mode, or finds it clear, or a trap into machine
mode sets it anyway. -/
def Spared (file : CsrFile) (stage : Stage) (outside trap : CsrOutside) : Prop :=
  doCsrWrite stage = true → stage.issued.entry.csrAddress = 0x042 →
    outside.excpPending = true ∨ file.regs.interruptEx = true ∨
      (file.regs.mcauseInterrupt = false ∧ file.regs.mcauseCode = 0) ∨
      (file.step idleStage outside).regs.machineEntry
        ((file.step idleStage outside).csrInput idleStage trap) = true

/-- All that an access with an exception does. -/
theorem step_reports (reports : file.Reports stage) (mRet : outside.mRet = false)
    (sRet : outside.sRet = false) :
    file.step stage outside =
      if !outside.excpPending && strays stage && !file.regs.interruptEx then
        { file.step idleStage outside with regs := (file.step idleStage outside).regs.uncaused }
      else file.step idleStage outside := by
  have idle : file.Reports idleStage := fun valid => by cases valid
  have regs := step_regs reports mRet sRet
  have mcycle : (file.step stage outside).mcycle = (file.step idleStage outside).mcycle := by
    rw [step_mcycle reports, step_mcycle idle]
  have pmp : (file.step stage outside).pmp = (file.step idleStage outside).pmp := by
    rw [step_pmp reports, step_pmp idle]
  have fields : file.step stage outside =
      ⟨(file.step stage outside).regs, (file.step stage outside).mcycle,
        (file.step idleStage outside).minstret, (file.step stage outside).pmp⟩ := rfl
  rw [fields, regs, mcycle, pmp]
  split <;> rfl

theorem step_uncaused (file : CsrFile) (trap : CsrOutside) :
    ({ file with regs := file.regs.uncaused } : CsrFile).step idleStage trap =
      if file.regs.machineEntry (file.csrInput idleStage trap) then file.step idleStage trap
      else { file.step idleStage trap with regs := (file.step idleStage trap).regs.uncaused } := by
  have regs : (({ file with regs := file.regs.uncaused } : CsrFile).step idleStage trap).regs =
      file.regs.uncaused.step (file.csrInput idleStage trap) := rfl
  rw [CsrRegfile.step_uncaused _ rfl] at regs
  have fields : ({ file with regs := file.regs.uncaused } : CsrFile).step idleStage trap =
      { file.step idleStage trap with
        regs := (({ file with regs := file.regs.uncaused } : CsrFile).step idleStage trap).regs } :=
    rfl
  rw [fields, regs]
  split <;> rfl

theorem eq_uncaused_iff (file : CsrFile) :
    ({ file with regs := file.regs.uncaused } : CsrFile) = file ↔
      file.regs.mcauseInterrupt = false ∧ file.regs.mcauseCode = 0 := by
  rw [← CsrRegfile.uncaused_eq_iff]
  constructor
  · intro same
    exact congrArg CsrFile.regs same
  · intro same
    rw [same]

/-- An instruction that reports an exception leaves no trace but its trap, exactly when it is
spared. -/
theorem illegal_access_harmless_iff {trap : CsrOutside} (reports : file.Reports stage)
    (retires : outside.mRet = false ∧ outside.sRet = false) :
    file.Harmless stage outside trap ↔ file.Spared stage outside trap := by
  unfold Harmless
  rw [step_reports reports retires.1 retires.2]
  by_cases stray : (!outside.excpPending && strays stage && !file.regs.interruptEx) = true
  · rw [if_pos stray, step_uncaused]
    simp only [strays, Bool.and_eq_true, Bool.not_eq_true', beq_iff_eq] at stray
    obtain ⟨⟨pending, writes, address⟩, external⟩ := stray
    have spared : file.Spared stage outside trap ↔
        (file.regs.mcauseInterrupt = false ∧ file.regs.mcauseCode = 0) ∨
          (file.step idleStage outside).regs.machineEntry
            ((file.step idleStage outside).csrInput idleStage trap) = true := by
      simp [Spared, writes, address, pending, external]
    have first : file.regs.machineEntry (file.csrInput idleStage outside) = false := by
      simp [CsrRegfile.machineEntry, csrInput, pending, external]
    rw [spared]
    by_cases saved : (file.step idleStage outside).regs.machineEntry
        ((file.step idleStage outside).csrInput idleStage trap) = true
    · simp [saved]
    · rw [if_neg saved, eq_uncaused_iff]
      rw [Bool.not_eq_true] at saved
      have second := CsrRegfile.step_mcause (file.step idleStage outside).regs rfl saved
      have kept := CsrRegfile.step_mcause file.regs rfl first
      change (((file.step idleStage outside).regs.step _).mcauseInterrupt = false ∧
        ((file.step idleStage outside).regs.step _).mcauseCode = 0) ↔ _
      rw [second.1, second.2]
      change ((file.regs.step _).mcauseInterrupt = false ∧ (file.regs.step _).mcauseCode = 0) ↔ _
      rw [kept.1, kept.2]
      simp [saved]
  · rw [if_neg stray]
    refine ⟨fun _ writes address => ?_, fun _ => rfl⟩
    simp only [strays, writes, address, beq_self_eq_true, Bool.and_true, Bool.and_eq_true,
      Bool.not_eq_true', not_and, Bool.not_eq_false] at stray
    by_cases pending : outside.excpPending = true
    · exact .inl pending
    · exact .inr (.inl (stray (Bool.eq_false_of_not_eq_true pending)))

/-- A machine-mode cause to lose, with illegal instructions delegated. -/
def delegatingFile : CsrFile :=
  { reset with regs := { CsrRegfile.reset with currentMode := 0, mcauseCode := 9, medeleg := 4 } }

/-- `csrw` of an address, from `x0`, in the stage of the CSR unit. -/
def clearing (address : BitVec 12) : Stage :=
  ⟨true, { Issued.blank with
    entry := { RobEntry.blank with csrWrite := true, csrAddress := address, func3 := 1 } }⟩

/-- A cycle in which nothing retires, and one that takes the illegal-instruction trap. -/
def quietOutside : CsrOutside := ⟨false, 0, 0, 0, false, false, false, false⟩

def illegalTrap : CsrOutside := ⟨true, 2, 0, 0x1000, false, false, true, false⟩

theorem illegal_access_harmless_witness :
    delegatingFile.Harmless (clearing 0xc00) quietOutside illegalTrap :=
  (illegal_access_harmless_iff (fun _ => by decide) ⟨rfl, rfl⟩).mpr
    (fun _ address => absurd address (by decide))

/-- From user mode the access clears the cause, and the trap into supervisor mode leaves it so. -/
theorem stray_access_clears_mcause :
    ¬∀ (file : CsrFile) (stage : Stage) (outside trap : CsrOutside), file.Reports stage →
      outside.mRet = false ∧ outside.sRet = false →
      trap.excpPending = true → trap.excpCause = 2 → file.Harmless stage outside trap := by
  intro harmless
  have same := harmless delegatingFile (clearing 0x042) quietOutside illegalTrap (fun _ => by decide)
    (by decide) rfl rfl
  have codes : (((delegatingFile.step (clearing 0x042) quietOutside).step idleStage
      illegalTrap).regs.mcauseCode) =
      (((delegatingFile.step idleStage quietOutside).step idleStage illegalTrap).regs.mcauseCode) :=
    congrArg (fun file => file.regs.mcauseCode) same
  revert codes
  decide

end CsrFile

namespace Processor

variable (processor : Processor) (input : ProcessorInput)

/-- What reaches the registers of the processor in a cycle. -/
def csrOutside : CsrOutside where
  excpPending := (processor.hart.csrInput (processor.hartInput input)).excpPending
  excpCause := (processor.hart.csrInput (processor.hartInput input)).excpCause
  excpTval := (processor.hart.csrInput (processor.hartInput input)).excpTval
  excpPc := (processor.hart.csrInput (processor.hartInput input)).excpPc
  mRet := (processor.hart.csrInput (processor.hartInput input)).mRet
  sRet := (processor.hart.csrInput (processor.hartInput input)).sRet
  doRobCommitFirst := processor.core.doRobCommitFirst
  doRobCommitSecond := processor.backend.rcu.doRobCommitSecond (processor.rcuInput input)

/-- The processor steps its registers as the register file does, whose answers the CSR unit gets. -/
theorem step_csr {file : CsrFile} (regs : file.regs = processor.csr)
    (answers : input.csrAnswer =
      file.answer processor.backend.issue.csr.issued.entry.csrAddress) :
    (processor.step input).csr =
      (file.step processor.backend.issue.csr (processor.csrOutside input)).regs := by
  have port : file.csrInput processor.backend.issue.csr (processor.csrOutside input) =
      processor.hart.csrInput (processor.hartInput input) := by
    unfold CsrFile.csrInput CsrFile.doCsrWrite CsrFile.wrData
    rw [← answers, Bool.and_comm]
    rfl
  change processor.csr.step _ = file.regs.step _
  rw [port, regs]

end Processor

namespace Observed

open Circular Counter

variable {observed : Observed} {input : ProcessorInput}

/-- A CSR operation reaches its unit at the head of the reorder buffer, so nothing retires while it
is there. -/
theorem csr_holds_head (settled : Settled (observed.step input))
    (valid : (observed.step input).issue.csr.valid = true) (globalWfi : Bool) :
    (observed.step input).rcu.commitReady globalWfi = false := by
  have csr : (observed.step input).issue.csr = Backend.loadStage observed.issue.csr
      (observed.processor.backend.selectFirst (observed.processor.rcuInput input))
      (fun entry => entry.isCsr) observed.processor.flush := rfl
  cases flush : observed.processor.flush with
  | true =>
    rw [csr, flush] at valid
    unfold Backend.loadStage at valid
    split at valid
    · split at valid <;> cases valid
    · cases valid
  | false =>
    have fault : observed.rcu.globalSpeculateFault (observed.processor.rcuInput input) = false :=
      flush
    obtain ⟨⟨⟨used, -, unfinished⟩, -, -⟩, -⟩ := settled.csr valid
    rw [csr, flush] at valid used unfinished
    obtain ⟨onPort, isCsr⟩ := Backend.loadStage_valid valid
    obtain ⟨requester, granted, same⟩ := List.mem_map.mp (Backend.selectFirst_mem onPort)
    have ready := Backend.eligible_ready (Backend.grants_eligible granted)
    rw [← same] at used unfinished isCsr
    have head : observed.processor.backend.indexOf requester = observed.rcu.cmtRobIndex :=
      Backend.csr_at_head ready isCsr
    -- A head that left would not be in use any more.
    have stays := ((Rcu.step_used_iff _ fault).mp used).2
    have none : observed.commitCount input = 0 := by
      by_contra some
      apply stays
      rw [Rcu.leaving, mem_slots]
      refine ⟨0, Nat.pos_of_ne_zero some, ?_⟩
      rw [advance_zero]
      exact head
    have next : (observed.step input).rcu.cmtRobIndex =
        advance observed.rcu.cmtRobIndex (observed.commitCount input) := step_head flush
    rw [none, advance_zero, ← head] at next
    have unready : (observed.step input).rcu.robFinish (observed.step input).rcu.cmtRobIndex =
        false := by
      rw [next]
      exact unfinished
    simp [Rcu.commitReady, unready]

/-- In every benign run the returns and the exceptions stay away from the cycles of the CSR unit. -/
theorem csr_alone (inputs : List ProcessorInput) (obeys : machine.Obeys Benign inputs)
    (valid : (machine.run inputs).issue.csr.valid = true) :
    (machine.run inputs).processor.core.doRobCommitFirst = false := by
  obtain ⟨_, -, _, _, _, _, steady⟩ := run_arrives inputs obeys
  cases inputs using List.reverseRecOn with
  | nil => cases valid
  | append_singleton past input =>
    have settled := steady.settled
    rw [Synchronous.run_snoc] at valid settled ⊢
    exact csr_holds_head settled valid _

end Observed

end GreenRio
