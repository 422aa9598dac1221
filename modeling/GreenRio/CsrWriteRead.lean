import GreenRio.PmpRegisters
import GreenRio.RegisterWrites

set_option autoImplicit false

namespace GreenRio

namespace CsrFile

/-- What an address names. -/
def family (address : BitVec 12) : CsrFamily :=
  if CsrUnit.isPmpcfg address || CsrUnit.isPmp address then .pmp address
  else CsrRegfile.family address

section Signals

variable (file : CsrFile)

/-- The bits that software can write. -/
def writableBits (address : BitVec 12) : Word :=
  if CsrUnit.isPmpcfg address then
    if CsrUnit.pmpCfgAddr address = 0 then file.pmp.cfgWritable else 0
  else if CsrUnit.isPmp address then file.pmp.addrWritable (CsrUnit.pmpAddrAddr address)
  else CsrRegfile.writableBits address

/-- `minstret` as it counts on. -/
def retired (outside : CsrOutside) : Word :=
  if outside.doRobCommitFirst && outside.doRobCommitSecond then file.minstret + 2
  else if outside.doRobCommitFirst then file.minstret + 1
  else file.minstret

/-- What an address reads after a cycle that does not write its family: the counters count. -/
def passing (outside : CsrOutside) (address : BitVec 12) : Word :=
  if address = 0xb00 ∨ address = 0xc00 then file.mcycle + 1
  else if address = 0xb02 then file.retired outside
  else (file.answer address).opData

/-- After a write its family reads the written value in the bits that are writable, and another
address reads what it did. -/
def ReadsBack (stage : Stage) (outside : CsrOutside) (other : BitVec 12) : Prop :=
  ((file.step stage outside).answer other).opData =
    if family other = family stage.issued.entry.csrAddress then
      CsrRegfile.legalized other
        (CsrRegfile.merge (file.writableBits stage.issued.entry.csrAddress &&&
          CsrRegfile.visibleBits other) (file.answer other).opData (file.wrData stage))
    else file.passing outside other

/-- The family of a written address reads back. -/
def ReadsFamily (stage : Stage) (outside : CsrOutside) : Prop :=
  ∀ other, CsrRegfile.readable other = true →
    family other = family stage.issued.entry.csrAddress → file.ReadsBack stage outside other

/-- The law of a write. -/
def WritesRead (stage : Stage) (outside : CsrOutside) : Prop :=
  ∀ other, CsrRegfile.readable other = true → file.ReadsBack stage outside other

/-- A write that the code keeps the law for. -/
def Lawful (stage : Stage) (outside : CsrOutside) : Prop :=
  let data := file.wrData stage
  let address := stage.issued.entry.csrAddress
  -- `mip` shows the interrupt lines too, and the external bit in no place of its own.
  (address = 0x344 →
    (file.regs.sExtInt || data.getLsbD 1) = data.getLsbD 9 ∧
      (file.regs.sTimerInt || data.getLsbD 5) = data.getLsbD 5 ∧
      (file.regs.sSoftInt || data.getLsbD 1) = data.getLsbD 1) ∧
  -- `sip` and `minstret` have no case in the write port.
  (address = 0x144 → (file.regs.sSoftInt || file.regs.sSoftIntEx) = data.getLsbD 1) ∧
  (address = 0xb02 → file.retired outside = data) ∧
  -- The top of a locked range locks the configuration of the entry below as well.
  (address = 0x3a0 → ∀ bit < 64, PmpEntry.cfgBit (bit % 8) = true →
    (file.pmp.entry (Fin.ofNat 8 (bit / 8))).pmpcfgL = false →
    file.pmp.lockFromLatterEntry (Fin.ofNat 8 (bit / 8)) = true →
    file.pmp.pmpcfg.getLsbD bit = data.getLsbD bit)

/-- No trap, no return and no interrupt. -/
structure Uninterrupted (outside : CsrOutside) : Prop where
  pending : outside.excpPending = false
  mRet : outside.mRet = false
  sRet : outside.sRet = false
  external : file.regs.interruptEx = false

end Signals

variable {file : CsrFile} {stage : Stage} {outside : CsrOutside} {address other : BitVec 12}

/-- An address outside `rvh_pmp`. -/
def Plain (address : BitVec 12) : Prop :=
  CsrUnit.isPmpcfg address = false ∧ CsrUnit.isPmp address = false

theorem family_plain (plain : Plain address) : family address = CsrRegfile.family address := by
  simp [family, plain.1, plain.2]

theorem family_pmp (pmp : ¬Plain address) : family address = .pmp address := by
  unfold family
  rw [if_pos]
  by_contra neither
  rw [Bool.not_eq_true, Bool.or_eq_false_iff] at neither
  exact pmp neither

theorem regfile_family_ne_pmp (address other : BitVec 12) :
    CsrRegfile.family address ≠ .pmp other := by
  unfold CsrRegfile.family
  split <;> exact CsrFamily.noConfusion

/-- The write port has no case for a PMP register. -/
theorem regfile_family_pmp (pmp : ¬Plain address) : CsrRegfile.family address = .unstored := by
  unfold CsrRegfile.family
  split
  all_goals first
    | exact absurd ⟨by decide, by decide⟩ pmp
    | rfl

/-- Only addresses outside `rvh_pmp` share their family. -/
theorem plain_of_family (target : Plain address) (same : family other = family address) :
    Plain other := by
  by_contra pmp
  rw [family_plain target, family_pmp pmp] at same
  exact regfile_family_ne_pmp address other same.symm

theorem visibleBits_pmp (pmp : ¬Plain other) :
    CsrRegfile.visibleBits other = BitVec.allOnes 64 := by
  unfold CsrRegfile.visibleBits
  split
  all_goals first
    | exact absurd ⟨rfl, rfl⟩ pmp
    | rfl

theorem answer_plain (file : CsrFile) (plain : Plain other) :
    (file.answer other).opData = file.regs.readData file.mcycle file.minstret other := by
  simp [answer, plain.1, plain.2]

theorem writableBits_plain (file : CsrFile) (plain : Plain address) :
    file.writableBits address = CsrRegfile.writableBits address := by
  rw [writableBits, plain.1, plain.2]
  rfl

theorem ordinary_plain : ∀ address ∈ CsrRegfile.ordinary, Plain address := by
  simp only [CsrRegfile.ordinary, List.mem_cons, List.not_mem_nil, or_false]
  rintro _ (rfl | rfl | rfl | rfl | rfl | rfl | rfl | rfl | rfl | rfl | rfl | rfl | rfl | rfl |
    rfl | rfl | rfl)
  all_goals exact ⟨rfl, rfl⟩

section Entries

/-- A register of `rvh_pmp` alone in its family. -/
theorem readsFamily_pmp (target : ¬Plain stage.issued.entry.csrAddress)
    (listed : CsrRegfile.readable stage.issued.entry.csrAddress = true) :
    file.ReadsFamily stage outside ↔
      ((file.step stage outside).answer stage.issued.entry.csrAddress).opData =
        CsrRegfile.merge (file.writableBits stage.issued.entry.csrAddress)
          (file.answer stage.issued.entry.csrAddress).opData (file.wrData stage) := by
  have own : file.ReadsBack stage outside stage.issued.entry.csrAddress ↔
      ((file.step stage outside).answer stage.issued.entry.csrAddress).opData =
        CsrRegfile.merge (file.writableBits stage.issued.entry.csrAddress)
          (file.answer stage.issued.entry.csrAddress).opData (file.wrData stage) := by
    have exception : stage.issued.entry.csrAddress ≠ 0x341 := by
      intro exception
      rw [exception] at target
      exact target ⟨rfl, rfl⟩
    unfold ReadsBack
    rw [if_pos rfl, CsrRegfile.legalized, if_neg exception, visibleBits_pmp target,
      BitVec.and_allOnes]
  rw [← own]
  constructor
  · exact fun law => law _ listed rfl
  · intro law other _ same
    have only : other = stage.issued.entry.csrAddress := by
      by_cases plain : Plain other
      · rw [family_plain plain, family_pmp target] at same
        exact absurd same (regfile_family_ne_pmp _ _)
      · rw [family_pmp plain, family_pmp target] at same
        exact CsrFamily.pmp.inj same
    rw [only]
    exact law

/-- Of the configuration registers that may be accessed, only the first is stored. -/
theorem pmpcfg_first (cfg : CsrUnit.isPmpcfg address = true)
    (first : CsrUnit.pmpCfgAddr address = 0) (shown : CsrRegfile.readable address = true) :
    address = 0x3a0 := by
  have split : address = address.extractLsb' 4 8 ++ address.extractLsb' 1 3 ++
      address.extractLsb' 0 1 := by
    apply BitVec.eq_of_getLsbD_eq
    intro bit inside
    simp only [BitVec.getLsbD_append, BitVec.getLsbD_extractLsb']
    interval_cases bit <;> rfl
  simp only [CsrUnit.isPmpcfg, beq_iff_eq] at cfg
  rw [CsrUnit.pmpCfgAddr] at first
  rw [cfg, first] at split
  generalize address.extractLsb' 0 1 = lowest at split
  subst split
  revert lowest
  decide

theorem pmpAddrAddr_inj (addr : CsrUnit.isPmp address = true) (addr' : CsrUnit.isPmp other = true)
    (same : CsrUnit.pmpAddrAddr address = CsrUnit.pmpAddrAddr other) : address = other := by
  simp only [CsrUnit.isPmp, Bool.and_eq_true, decide_eq_true_eq] at addr addr'
  simp only [CsrUnit.pmpAddrAddr] at same
  bv_omega

/-- The strobes of a write. -/
theorem pmpPorts_write (writes : doCsrWrite stage = true) :
    (file.pmpPorts stage).cfgSetVld = CsrUnit.isPmpcfg stage.issued.entry.csrAddress ∧
      (file.pmpPorts stage).addrSetVld = CsrUnit.isPmp stage.issued.entry.csrAddress := by
  have valid : stage.valid = true := (Bool.and_eq_true_iff.mp writes).2
  simp [pmpPorts, valid]

/-- The configuration register after a write of it. -/
theorem step_pmpcfg_eq (writes : doCsrWrite stage = true)
    (target : stage.issued.entry.csrAddress = 0x3a0) :
    (file.step stage outside).pmp.pmpcfg =
        CsrRegfile.merge file.pmp.cfgWritable file.pmp.pmpcfg (file.wrData stage) ↔
      ∀ bit < 64, PmpEntry.cfgBit (bit % 8) = true →
        (file.pmp.entry (Fin.ofNat 8 (bit / 8))).pmpcfgL = false →
        file.pmp.lockFromLatterEntry (Fin.ofNat 8 (bit / 8)) = true →
        file.pmp.pmpcfg.getLsbD bit = (file.wrData stage).getLsbD bit := by
  have strobe : ((file.pmpPorts stage).cfgSetVld && (file.pmpPorts stage).cfgSetAddr == 0) =
      true := by
    rw [(pmpPorts_write writes).1, pmpPorts, target]
    rfl
  have writable : ∀ bit < 64, file.pmp.cfgWritable.getLsbD bit =
      (!(file.pmp.entry (Fin.ofNat 8 (bit / 8))).pmpcfgL && PmpEntry.cfgBit (bit % 8)) := by
    intro bit inside
    rw [Pmp.cfgWritable, Oldest2Abitter.getLsbD_ofBits, decide_eq_true inside, Bool.true_and]
  have unstored : ∀ bit < 64, PmpEntry.cfgBit (bit % 8) = false →
      file.pmp.pmpcfg.getLsbD bit = false := by
    intro bit inside absent
    rw [Pmp.pmpcfg_getLsbD _ inside]
    exact PmpEntry.pmpcfgBit_unstored _ absent
  have bits : ∀ bit < 64, (file.step stage outside).pmp.pmpcfg.getLsbD bit =
      if !(file.pmp.entry (Fin.ofNat 8 (bit / 8))).pmpcfgL &&
          !file.pmp.lockFromLatterEntry (Fin.ofNat 8 (bit / 8)) then
        PmpEntry.cfgBit (bit % 8) && (file.wrData stage).getLsbD bit
      else file.pmp.pmpcfg.getLsbD bit := by
    intro bit inside
    refine (Pmp.step_pmpcfg_getLsbD _ _ inside).trans ?_
    rw [strobe, Bool.true_and]
    rfl
  constructor
  · intro same bit inside stored unlocked latter
    have read := congrArg (fun word => word.getLsbD bit) same
    rw [bits bit inside, CsrRegfile.merge_getLsbD _ _ _ inside, writable bit inside, stored,
      unlocked, latter] at read
    exact read
  · intro kept
    apply BitVec.eq_of_getLsbD_eq
    intro bit inside
    rw [bits bit inside, CsrRegfile.merge_getLsbD _ _ _ inside, writable bit inside]
    cases stored : PmpEntry.cfgBit (bit % 8) with
    | false => simp [unstored bit inside stored]
    | true =>
      cases locked : (file.pmp.entry (Fin.ofNat 8 (bit / 8))).pmpcfgL with
      | true => rfl
      | false =>
        cases latter : file.pmp.lockFromLatterEntry (Fin.ofNat 8 (bit / 8)) with
        | false => rfl
        | true => exact kept bit inside stored locked latter

/-- An address register is read back with what is writable. -/
theorem step_pmpaddr_eq (writes : doCsrWrite stage = true)
    (target : CsrUnit.isPmp stage.issued.entry.csrAddress = true) :
    (file.step stage outside).pmp.addrOriginPayload
        (CsrUnit.pmpAddrAddr stage.issued.entry.csrAddress) =
      CsrRegfile.merge (file.pmp.addrWritable (CsrUnit.pmpAddrAddr stage.issued.entry.csrAddress))
        (file.pmp.addrOriginPayload (CsrUnit.pmpAddrAddr stage.issued.entry.csrAddress))
        (file.wrData stage) := by
  have strobe : ((file.pmpPorts stage).addrSetVld &&
      (file.pmpPorts stage).addrSetAddr == CsrUnit.pmpAddrAddr stage.issued.entry.csrAddress) =
      true := by
    rw [(pmpPorts_write writes).2, target]
    exact beq_self_eq_true _
  refine (Pmp.step_addrOriginPayload _ _ _).trans ?_
  simp only [strobe, Bool.true_and]
  unfold Pmp.addrWritable
  split
  · rename_i inside
    rw [Pmp.addrOriginPayload, dif_pos inside]
    cases (file.pmp.entry ⟨_, inside⟩).pmpcfgL with
    | true => exact (CsrRegfile.merge_zero _ _).symm
    | false =>
      cases file.pmp.lockFromLatterEntry ⟨_, inside⟩ with
      | true => exact (CsrRegfile.merge_zero _ _).symm
      | false => exact (CsrRegfile.merge_addressWord _ _).symm
  · rename_i outside
    rw [Pmp.addrOriginPayload, dif_neg outside]
    exact (CsrRegfile.merge_zero _ _).symm

/-- A register of `rvh_pmp` that is not written reads what it did. -/
theorem step_answer_pmp (writes : doCsrWrite stage = true)
    (listed : CsrRegfile.writeable stage.issued.entry.csrAddress = true)
    (shown : CsrRegfile.readable other = true) (pmp : ¬Plain other)
    (apart : other ≠ stage.issued.entry.csrAddress) :
    ((file.step stage outside).answer other).opData = (file.answer other).opData := by
  obtain ⟨cfgStrobe, addrStrobe⟩ := @pmpPorts_write file stage writes
  unfold answer
  dsimp only
  by_cases cfg : CsrUnit.isPmpcfg other = true
  · rw [if_pos cfg, if_pos cfg, Pmp.cfgOriginPayload, Pmp.cfgOriginPayload]
    by_cases first : CsrUnit.pmpCfgAddr other = 0
    · rw [if_pos first, if_pos first]
      have silent : ((file.pmpPorts stage).cfgSetVld &&
          (file.pmpPorts stage).cfgSetAddr == 0) = false := by
        rw [cfgStrobe, Bool.and_eq_false_iff]
        by_contra set
        simp only [not_or, Bool.not_eq_false, pmpPorts, beq_iff_eq] at set
        have readable : CsrRegfile.readable stage.issued.entry.csrAddress = true := by
          rw [CsrRegfile.readable, listed, Bool.or_true]
        exact apart ((pmpcfg_first cfg first shown).trans
          (pmpcfg_first set.1 set.2 readable).symm)
      apply BitVec.eq_of_getLsbD_eq
      intro bit inside
      refine (Pmp.step_pmpcfg_getLsbD _ _ inside).trans ?_
      rw [silent]
      rfl
    · rw [if_neg first, if_neg first]
  · have addr : CsrUnit.isPmp other = true := by
      by_contra addr
      exact pmp ⟨(Bool.not_eq_true _).mp cfg, (Bool.not_eq_true _).mp addr⟩
    rw [if_neg cfg, if_neg cfg, if_pos addr, if_pos addr]
    have silent : ((file.pmpPorts stage).addrSetVld &&
        (file.pmpPorts stage).addrSetAddr == CsrUnit.pmpAddrAddr other) = false := by
      rw [addrStrobe, Bool.and_eq_false_iff]
      by_contra set
      simp only [not_or, Bool.not_eq_false, pmpPorts, beq_iff_eq] at set
      exact apart (pmpAddrAddr_inj addr set.1 set.2.symm)
    refine (Pmp.step_addrOriginPayload _ _ _).trans ?_
    simp only [silent, Bool.false_and, Bool.false_eq_true, if_false]
    unfold Pmp.addrOriginPayload
    split <;> rfl

/-- The registers of `rvh_pmp` are read back, the configuration unless a locked range holds it. -/
theorem readsFamily_pmp_iff (writes : doCsrWrite stage = true)
    (target : ¬Plain stage.issued.entry.csrAddress)
    (listed : CsrRegfile.writeable stage.issued.entry.csrAddress = true) :
    file.ReadsFamily stage outside ↔
      (stage.issued.entry.csrAddress = 0x3a0 →
        ∀ bit < 64, PmpEntry.cfgBit (bit % 8) = true →
          (file.pmp.entry (Fin.ofNat 8 (bit / 8))).pmpcfgL = false →
          file.pmp.lockFromLatterEntry (Fin.ofNat 8 (bit / 8)) = true →
          file.pmp.pmpcfg.getLsbD bit = (file.wrData stage).getLsbD bit) := by
  have shown : CsrRegfile.readable stage.issued.entry.csrAddress = true := by
    rw [CsrRegfile.readable, listed, Bool.or_true]
  rw [readsFamily_pmp target shown]
  by_cases cfg : CsrUnit.isPmpcfg stage.issued.entry.csrAddress = true
  · by_cases first : CsrUnit.pmpCfgAddr stage.issued.entry.csrAddress = 0
    · have address := pmpcfg_first cfg first shown
      rw [forall_prop_of_true address, ← @step_pmpcfg_eq file stage outside writes address]
      simp only [answer, writableBits, if_pos cfg, Pmp.cfgOriginPayload, if_pos first]
    · have other : stage.issued.entry.csrAddress ≠ 0x3a0 := by
        intro address
        rw [address] at first
        exact first rfl
      simp only [answer, writableBits, if_pos cfg, Pmp.cfgOriginPayload, if_neg first]
      exact iff_of_true (CsrRegfile.merge_zero _ _).symm fun address => absurd address other
  · have addr : CsrUnit.isPmp stage.issued.entry.csrAddress = true := by
      by_contra addr
      exact target ⟨(Bool.not_eq_true _).mp cfg, (Bool.not_eq_true _).mp addr⟩
    have other : stage.issued.entry.csrAddress ≠ 0x3a0 := by
      intro address
      rw [address] at cfg
      exact cfg rfl
    simp only [answer, writableBits, if_neg cfg, if_pos addr]
    exact iff_of_true (step_pmpaddr_eq writes addr) fun address => absurd address other

end Entries

section Registers

variable (writes : doCsrWrite stage = true)
  (listed : CsrRegfile.writeable stage.issued.entry.csrAddress = true)
  (quiet : file.Uninterrupted outside)

include writes quiet

/-- What an address outside `rvh_pmp` reads after a write. -/
theorem step_answer_plain (plain : Plain other) :
    ((file.step stage outside).answer other).opData =
      (file.regs.write stage.issued.entry.csrAddress (file.wrData stage)).readData
        (if stage.issued.entry.csrAddress = 0xb00 then file.wrData stage else file.mcycle + 1)
        (file.retired outside) other := by
  have counter : (file.step stage outside).mcycle =
      if stage.issued.entry.csrAddress = 0xb00 then file.wrData stage else file.mcycle + 1 := by
    simp only [step, writes, and_true]
  have port : (file.csrInput stage outside).csrW = true := writes
  rw [answer_plain _ plain, counter]
  exact (file.regs.readData_step quiet.pending quiet.mRet quiet.sRet quiet.external _ _ _).trans
    (by rw [if_pos port]; rfl)

/-- The law for an address that shares its family with the one written. -/
theorem readsBack_iff (target : Plain stage.issued.entry.csrAddress) (plain : Plain other)
    (same : family other = family stage.issued.entry.csrAddress) :
    file.ReadsBack stage outside other ↔
      (file.regs.write stage.issued.entry.csrAddress (file.wrData stage)).readData
          (if stage.issued.entry.csrAddress = 0xb00 then file.wrData stage else file.mcycle + 1)
          (file.retired outside) other =
        CsrRegfile.legalized other
          (CsrRegfile.merge (CsrRegfile.writableBits stage.issued.entry.csrAddress &&&
              CsrRegfile.visibleBits other)
            (file.regs.readData file.mcycle file.minstret other) (file.wrData stage)) := by
  unfold ReadsBack
  rw [if_pos same, step_answer_plain writes quiet plain, answer_plain _ plain,
    writableBits_plain _ target]

/-- A write that merges is read back in its family. -/
theorem readsFamily_ordinary (known : stage.issued.entry.csrAddress ∈ CsrRegfile.ordinary) :
    file.ReadsFamily stage outside := by
  have target := ordinary_plain _ known
  intro other _ same
  have plain := plain_of_family target same
  rw [readsBack_iff writes quiet target plain same]
  rw [family_plain plain, family_plain target] at same
  exact file.regs.readData_write_ordinary known same _ _ _ _ _

/-- The registers of pending interrupts are read back if `mip` is. -/
theorem readsFamily_pending (target : Plain stage.issued.entry.csrAddress)
    (pending : CsrRegfile.family stage.issued.entry.csrAddress = .interruptPending) :
    file.ReadsFamily stage outside ↔
      (file.regs.write stage.issued.entry.csrAddress (file.wrData stage)).mip |||
          (file.regs.write stage.issued.entry.csrAddress (file.wrData stage)).mipEx =
        CsrRegfile.merge (CsrRegfile.writableBits stage.issued.entry.csrAddress)
          (file.regs.mip ||| file.regs.mipEx) (file.wrData stage) := by
  constructor
  · intro law
    have same : family 0x344 = family stage.issued.entry.csrAddress := by
      rw [family_plain target, pending]
      rfl
    have read := (readsBack_iff writes quiet target ⟨rfl, rfl⟩ same).mp (law 0x344 rfl same)
    rwa [show CsrRegfile.visibleBits 0x344 = BitVec.allOnes 64 from rfl,
      BitVec.and_allOnes] at read
  · intro full other _ same
    have plain := plain_of_family target same
    rw [readsBack_iff writes quiet target plain same]
    rw [family_plain plain, family_plain target, pending] at same
    have above : CsrRegfile.primary other = 0x344 := by
      rw [CsrRegfile.primary_eq (by rw [same]; exact CsrFamily.noConfusion), same]
      rfl
    have other : other ≠ 0x341 := by
      rintro rfl
      exact CsrFamily.noConfusion same
    rw [CsrRegfile.legalized, if_neg other]
    apply file.regs.readData_view_merge
    rw [above]
    exact full

/-- `mcycle` goes on from the written value. -/
theorem readsFamily_mcycle (counter : stage.issued.entry.csrAddress = 0xb00) :
    file.ReadsFamily stage outside := by
  intro other _ same
  rw [counter] at same
  have plain : Plain other := plain_of_family ⟨rfl, rfl⟩ same
  rw [readsBack_iff writes quiet (by rw [counter]; exact ⟨rfl, rfl⟩) plain (by rwa [counter]),
    if_pos counter, counter]
  rw [family_plain plain] at same
  have cycle : other = 0xb00 ∨ other = 0xc00 := by
    revert same
    unfold CsrRegfile.family
    split
    all_goals first
      | exact fun same => CsrFamily.noConfusion same
      | exact fun _ => .inl rfl
      | exact fun _ => .inr rfl
  rcases cycle with rfl | rfl
  all_goals exact (CsrRegfile.merge_allOnes _ _).symm

/-- `minstret` counts on, whatever is written. -/
theorem readsFamily_minstret (counter : stage.issued.entry.csrAddress = 0xb02) :
    file.ReadsFamily stage outside ↔ file.retired outside = file.wrData stage := by
  have target : Plain stage.issued.entry.csrAddress := by
    rw [counter]
    exact ⟨rfl, rfl⟩
  have own : file.ReadsBack stage outside 0xb02 ↔ file.retired outside = file.wrData stage := by
    rw [readsBack_iff writes quiet target ⟨rfl, rfl⟩ (by rw [counter]), counter]
    exact iff_of_eq (congrArg (file.retired outside = ·) (CsrRegfile.merge_allOnes _ _))
  rw [← own]
  constructor
  · exact fun law => law 0xb02 rfl (by rw [counter])
  · intro law other _ same
    have plain := plain_of_family target same
    have only : other = 0xb02 := by
      rw [counter, family_plain plain] at same
      revert same
      unfold CsrRegfile.family
      split
      all_goals first
        | exact fun same => CsrFamily.noConfusion same
        | exact fun _ => rfl
    rw [only]
    exact law

/-- An address without storage keeps reading what it does. -/
theorem readsFamily_unstored (target : Plain stage.issued.entry.csrAddress)
    (listed : CsrRegfile.writeable stage.issued.entry.csrAddress = true)
    (unstored : CsrRegfile.family stage.issued.entry.csrAddress = .unstored) :
    file.ReadsFamily stage outside := by
  intro other _ same
  have plain := plain_of_family target same
  rw [readsBack_iff writes quiet target plain same]
  rw [family_plain plain, family_plain target, unstored] at same
  have cycle : CsrRegfile.family other ≠ .mcycle := by
    rw [same]
    exact CsrFamily.noConfusion
  have counter : CsrRegfile.family other ≠ .minstret := by
    rw [same]
    exact CsrFamily.noConfusion
  have exception : other ≠ 0x341 := by
    rintro rfl
    exact CsrFamily.noConfusion same
  rw [CsrRegfile.legalized, if_neg exception, CsrRegfile.writableBits_unstored unstored,
    BitVec.zero_and, CsrRegfile.merge_zero, file.regs.write_unstored listed unstored,
    CsrRegfile.readData_uncounted _ _ _ cycle counter,
    CsrRegfile.readData_uncounted _ file.mcycle _ cycle counter]

include listed

/-- An address of another family reads what it did. -/
theorem readsBack_apart (plain : Plain other)
    (apart : family other ≠ family stage.issued.entry.csrAddress) :
    file.ReadsBack stage outside other := by
  unfold ReadsBack
  rw [if_neg apart, step_answer_plain writes quiet plain]
  have erased : (file.regs.write stage.issued.entry.csrAddress (file.wrData stage)).readData 0 0
      other = file.regs.readData 0 0 other := by
    by_cases target : Plain stage.issued.entry.csrAddress
    · rw [family_plain plain, family_plain target] at apart
      exact file.regs.readData_write_apart 0 0 _ listed apart
    · have same := file.regs.write_erase listed (file.wrData stage)
      rw [regfile_family_pmp target] at same
      exact congrArg (fun regs => regs.readData 0 0 other) same
  rw [CsrRegfile.readData_counters, erased, passing, answer_plain _ plain]
  by_cases cycle : other = 0xb00 ∨ other = 0xc00
  · have free : stage.issued.entry.csrAddress ≠ 0xb00 := by
      intro counter
      rw [counter] at apart
      rcases cycle with rfl | rfl <;> exact apart rfl
    simp only [if_pos cycle, if_neg free]
  · simp only [if_neg cycle]
    by_cases counter : other = 0xb02
    · simp only [if_pos counter]
    · rw [if_neg counter, if_neg counter, CsrRegfile.readData_counters _ file.mcycle, if_neg cycle,
        if_neg counter]

/-- Only the family of the written address decides. -/
theorem writesRead_iff_family : file.WritesRead stage outside ↔ file.ReadsFamily stage outside := by
  constructor
  · exact fun law other shown _ => law other shown
  · intro law other shown
    by_cases same : family other = family stage.issued.entry.csrAddress
    · exact law other shown same
    · by_cases plain : Plain other
      · exact readsBack_apart writes listed quiet plain same
      · have apart : other ≠ stage.issued.entry.csrAddress := by
          rintro rfl
          exact same rfl
        have cycle : ¬(other = 0xb00 ∨ other = 0xc00) := by
          rintro (rfl | rfl)
          all_goals exact plain ⟨rfl, rfl⟩
        have counter : other ≠ 0xb02 := by
          rintro rfl
          exact plain ⟨rfl, rfl⟩
        unfold ReadsBack
        rw [if_neg same, step_answer_pmp writes listed shown plain apart, passing, if_neg cycle,
          if_neg counter]

end Registers

theorem listed_of_legal (writes : doCsrWrite stage = true) (legal : file.illegal stage = false) :
    CsrRegfile.writeable stage.issued.entry.csrAddress = true := by
  by_contra unlisted
  simp only [doCsrWrite, Bool.and_eq_true] at writes
  simp [illegal, CsrUnit.illegal, answer, writes.1, writes.2, unlisted] at legal

/-- A legal write with no trap, return or interrupt keeps the law if and only if it is none that the
code leaves out: of `mip` where a line or the misplaced bit shows, of `sip` or `minstret` unless it
changes nothing, of a configuration that a locked range above holds. -/
theorem writes_read_iff (writes : doCsrWrite stage = true) (legal : file.illegal stage = false)
    (quiet : file.Uninterrupted outside) :
    file.WritesRead stage outside ↔ file.Lawful stage outside := by
  have listed := listed_of_legal writes legal
  rw [writesRead_iff_family writes listed quiet]
  by_cases target : Plain stage.issued.entry.csrAddress
  · have cfg : stage.issued.entry.csrAddress ≠ 0x3a0 := by
      intro address
      rw [address] at target
      exact absurd target.1 (by decide)
    rcases CsrRegfile.writeable_cases listed with
      known | address | address | address | address | unstored
    · refine iff_of_true (readsFamily_ordinary writes quiet known) ⟨?_, ?_, ?_, ?_⟩
      all_goals
        intro address
        rw [address] at known
        exact absurd known (by decide)
    · rw [readsFamily_pending writes quiet target (by rw [address]; rfl), address]
      refine (file.regs.write_mip (file.wrData stage)).trans ?_
      simp [Lawful, address]
    · rw [readsFamily_pending writes quiet target (by rw [address]; rfl), address]
      refine (file.regs.write_sip (file.wrData stage)).trans ?_
      simp [Lawful, address]
    · refine iff_of_true (readsFamily_mcycle writes quiet address) ?_
      simp [Lawful, address]
    · rw [readsFamily_minstret writes quiet address]
      simp [Lawful, address]
    · refine iff_of_true (readsFamily_unstored writes quiet target listed unstored)
        ⟨?_, ?_, ?_, fun address => absurd address cfg⟩
      all_goals
        intro address
        rw [address] at unstored
        exact CsrFamily.noConfusion unstored
  · rw [readsFamily_pmp_iff writes target listed]
    have plain : stage.issued.entry.csrAddress ≠ 0x344 ∧ stage.issued.entry.csrAddress ≠ 0x144 ∧
        stage.issued.entry.csrAddress ≠ 0xb02 := by
      refine ⟨?_, ?_, ?_⟩
      all_goals
        intro address
        rw [address] at target
        exact target ⟨rfl, rfl⟩
    constructor
    · intro kept
      exact ⟨fun address => absurd address plain.1, fun address => absurd address plain.2.1,
        fun address => absurd address plain.2.2, kept⟩
    · exact fun lawful => lawful.2.2.2

/-- `csrrw` in the stage of the CSR unit. -/
def writeStage (address : BitVec 12) (data : Word) : Stage :=
  ⟨true, { Issued.blank with
    rs1Data := data
    entry := { RobEntry.blank with csrWrite := true, csrAddress := address, func3 := 1 } }⟩

/-- A cycle in which nothing commits. -/
def calm : CsrOutside := ⟨false, 0, 0, 0, false, false, false, false⟩

theorem calm_uninterrupted : reset.Uninterrupted calm := ⟨rfl, rfl, rfl, rfl⟩

theorem writes_read_sstatus : doCsrWrite (writeStage 0x100 0xc0122) = true ∧
    reset.illegal (writeStage 0x100 0xc0122) = false ∧ reset.Uninterrupted calm ∧
    (reset.WritesRead (writeStage 0x100 0xc0122) calm ↔
      reset.Lawful (writeStage 0x100 0xc0122) calm) :=
  ⟨by decide, by decide, calm_uninterrupted,
    writes_read_iff (by decide) (by decide) calm_uninterrupted⟩

/-- A software interrupt written to `sip` is not there afterwards. -/
theorem sip_not_written : doCsrWrite (writeStage 0x144 0x2) = true ∧
    reset.illegal (writeStage 0x144 0x2) = false ∧ reset.Uninterrupted calm ∧
    ¬reset.WritesRead (writeStage 0x144 0x2) calm := by
  refine ⟨by decide, by decide, calm_uninterrupted, fun law => ?_⟩
  have read := law 0x144 (by decide)
  unfold ReadsBack at read
  exact absurd read (by decide)

end CsrFile

end GreenRio
