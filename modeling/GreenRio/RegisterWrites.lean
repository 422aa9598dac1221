import GreenRio.SupervisorViews

set_option autoImplicit false

namespace GreenRio

/-- What a register address names. Supervisor registers that are views of machine registers share
their family, and so do `cycle` and `mcycle`. -/
inductive CsrFamily where
  | status
  | interruptEnable
  | interruptPending
  | mtvec
  | mscratch
  | mepc
  | mcause
  | mtval
  | medeleg
  | mideleg
  | stvec
  | sscratch
  | sepc
  | scause
  | stval
  | satp
  | mcycle
  | minstret
  | pmp (address : BitVec 12)
  | unstored
  deriving DecidableEq

namespace CsrRegfile

/-- The family of an address, outside the registers of `rvh_pmp`. -/
def family (address : BitVec 12) : CsrFamily :=
  match address with
  | 0x300 | 0x100 => .status
  | 0x304 | 0x104 => .interruptEnable
  | 0x344 | 0x144 => .interruptPending
  | 0x305 => .mtvec
  | 0x340 => .mscratch
  | 0x341 => .mepc
  | 0x342 => .mcause
  | 0x343 => .mtval
  | 0x302 => .medeleg
  | 0x303 => .mideleg
  | 0x105 => .stvec
  | 0x140 => .sscratch
  | 0x141 => .sepc
  | 0x142 => .scause
  | 0x143 => .stval
  | 0x180 => .satp
  | 0xb00 | 0xc00 => .mcycle
  | 0xb02 => .minstret
  | _ => .unstored

/-- The registers without what a family stores, and without what no address reads. -/
def erase (csr : CsrRegfile) : CsrFamily → CsrRegfile
  | .status =>
    { csr with
      statusSie := false
      statusMie := false
      statusSpie := false
      statusMpie := false
      statusSpp := false
      statusMpp := 0
      statusMprv := false
      statusSum := false
      statusMxr := false
      statusTvm := false
      statusTw := false
      statusTsr := false }
  | .interruptEnable =>
    { csr with meie := false, seie := false, mtie := false, stie := false, ssie := false }
  | .interruptPending =>
    { csr with sSoftIntEx := false, sTimerIntEx := false, sExtIntEx := false }
  | .mtvec => { csr with mtvec := 0 }
  | .mscratch => { csr with mscratch := 0 }
  | .mepc => { csr with mepc := 0 }
  | .mcause => { csr with mcauseInterrupt := false, mcauseCode := 0 }
  | .mtval => { csr with mtval := 0 }
  | .medeleg => { csr with medeleg := 0 }
  | .mideleg => { csr with mideleg := 0 }
  | .stvec => { csr with stvec := 0 }
  | .sscratch => { csr with sscratch := 0 }
  | .sepc => { csr with sepc := 0 }
  | .scause => { csr with scauseInterrupt := false, scauseCode := 0 }
  | .stval => { csr with stval := 0 }
  | .satp => { csr with satp := 0 }
  | _ => csr

variable (csr : CsrRegfile)

/-- The write port reaches what the family of the address stores, and nothing else. -/
theorem write_erase {address : BitVec 12} (listed : writeable address = true) (data : Word) :
    (csr.write address data).erase (family address) = csr.erase (family address) := by
  unfold write
  split
  case h_18 => exact absurd listed (by decide)
  all_goals rfl

/-- An address reads nothing of another family. -/
theorem readData_erase (mcycle minstret : Word) {address : BitVec 12} {other : CsrFamily}
    (apart : family address ≠ other) :
    (csr.erase other).readData mcycle minstret address =
      csr.readData mcycle minstret address := by
  generalize erased : csr.erase other = changed
  unfold readData
  split
  all_goals
    subst erased
    cases other
    all_goals first
      | exact absurd rfl apart
      | rfl

theorem readData_write_apart (mcycle minstret : Word) {address other : BitVec 12} (data : Word)
    (listed : writeable address = true) (apart : family other ≠ family address) :
    (csr.write address data).readData mcycle minstret other =
      csr.readData mcycle minstret other := by
  rw [← readData_erase _ mcycle minstret apart, write_erase csr listed data,
    readData_erase csr mcycle minstret apart]

section Merge

variable (old data : Word)

theorem merge_allOnes : merge (BitVec.allOnes 64) old data = data := by
  rw [merge, BitVec.not_allOnes, BitVec.and_zero, BitVec.zero_or, BitVec.and_allOnes]

theorem merge_zero : merge 0#64 old data = old := by
  rw [merge, BitVec.not_zero, BitVec.and_zero, BitVec.or_zero, BitVec.and_allOnes]

theorem merge_merge (mask inner : Word) :
    merge mask old (merge inner old data) = merge (mask &&& inner) old data := by
  apply BitVec.eq_of_getLsbD_eq
  intro bit inside
  rw [merge_getLsbD _ _ _ inside, merge_getLsbD _ _ _ inside, merge_getLsbD _ _ _ inside,
    BitVec.getLsbD_and]
  cases mask.getLsbD bit <;> simp

/-- A view of a merged register. -/
theorem merge_and (mask view : Word) :
    merge mask old data &&& view = merge (mask &&& view) (old &&& view) data := by
  apply BitVec.eq_of_getLsbD_eq
  intro bit inside
  rw [BitVec.getLsbD_and, merge_getLsbD _ _ _ inside, merge_getLsbD _ _ _ inside,
    BitVec.getLsbD_and, BitVec.getLsbD_and]
  cases mask.getLsbD bit <;> cases view.getLsbD bit <;> simp

end Merge

/-- The bits of a register that software can write. -/
def writableBits (address : BitVec 12) : Word :=
  match address with
  | 0x300 => 0x7e19aa
  | 0x100 => 0xc0122
  | 0x304 => 0xaa2
  | 0x104 | 0x344 => 0x222
  | 0x144 => 0x2
  | 0x302 => (BitVec.allOnes 16).setWidth 64
  | 0x303 => (BitVec.allOnes 12).setWidth 64
  | 0x342 | 0x142 => 1#1 ++ 0#59 ++ BitVec.allOnes 4
  | 0x341 => (BitVec.allOnes 38 ++ 0#1).setWidth 64
  | 0x141 => BitVec.allOnes 63 ++ 0#1
  | 0x305 | 0x340 | 0x343 | 0x105 | 0x140 | 0x143 | 0x180 | 0xb00 | 0xb02 => BitVec.allOnes 64
  | _ => 0

/-- The bits that a view shows of its family. -/
def visibleBits (address : BitVec 12) : Word :=
  match address with
  | 0x100 => sstatusMask
  | 0x104 | 0x144 => supervisorInterrupts
  | _ => BitVec.allOnes 64

/-- `mepc` repeats the highest bit of an address above it. -/
def legalized (address : BitVec 12) (value : Word) : Word :=
  if address = 0x341 then epc (value.setWidth 39) else value

/-- The address that shows a family in full. -/
def primary (address : BitVec 12) : BitVec 12 :=
  match address with
  | 0x100 => 0x300
  | 0x104 => 0x304
  | 0x144 => 0x344
  | 0xc00 => 0xb00
  | _ => address

section Fields

variable (data : Word)

/-- A write of `mstatus` merges its fields. -/
theorem write_mstatus : (csr.write 0x300 data).mstatus = merge 0x7e19aa csr.mstatus data := by
  have written : csr.write 0x300 data =
      { csr with
        statusSie := data.getLsbD 1
        statusMie := data.getLsbD 3
        statusSpie := data.getLsbD 5
        statusMpie := data.getLsbD 7
        statusSpp := data.getLsbD 8
        statusMpp := data.extractLsb' 11 2
        statusMprv := data.getLsbD 17
        statusSum := data.getLsbD 18
        statusMxr := data.getLsbD 19
        statusTvm := data.getLsbD 20
        statusTw := data.getLsbD 21
        statusTsr := data.getLsbD 22 } := rfl
  have low : (data.extractLsb' 11 2).getLsbD 0 = data.getLsbD 11 := by
    simp
  have high : (data.extractLsb' 11 2).getLsbD 1 = data.getLsbD 12 := by
    simp
  rw [written]
  apply BitVec.eq_of_getLsbD_eq
  intro bit inside
  rw [mstatus_getLsbD _ inside, merge_getLsbD _ _ _ inside, mstatus_getLsbD csr inside]
  interval_cases bit
  all_goals first
    | rfl
    | exact low
    | exact high

theorem write_sstatus_mstatus :
    (csr.write 0x100 data).mstatus = merge 0xc0122 csr.mstatus data := by
  rw [write_sstatus, write_mstatus, merge_merge]
  rfl

/-- The bits of the interrupt registers. -/
def interruptBit (machineExt supervisorExt machineTimer supervisorTimer supervisorSoft : Bool) :
    Nat → Bool
  | 1 => supervisorSoft
  | 5 => supervisorTimer
  | 7 => machineTimer
  | 9 => supervisorExt
  | 11 => machineExt
  | _ => false

theorem interruptWord_getLsbD
    (machineExt supervisorExt machineTimer supervisorTimer supervisorSoft : Bool) {bit : Nat}
    (inside : bit < 64) :
    (interruptWord machineExt supervisorExt machineTimer supervisorTimer supervisorSoft).getLsbD
        bit =
      interruptBit machineExt supervisorExt machineTimer supervisorTimer supervisorSoft bit := by
  unfold interruptWord
  simp only [BitVec.getLsbD_append, BitVec.getLsbD_ofBool, BitVec.getLsbD_zero]
  interval_cases bit <;> rfl

/-- A merge of interrupt bits changes those that the mask names. -/
theorem merge_interruptWord {mask : Word} (within : mask &&& ~~~(0xaa2 : Word) = 0#64)
    (machineExt supervisorExt machineTimer supervisorTimer supervisorSoft : Bool) :
    merge mask
        (interruptWord machineExt supervisorExt machineTimer supervisorTimer supervisorSoft) data =
      interruptWord (if mask.getLsbD 11 then data.getLsbD 11 else machineExt)
        (if mask.getLsbD 9 then data.getLsbD 9 else supervisorExt)
        (if mask.getLsbD 7 then data.getLsbD 7 else machineTimer)
        (if mask.getLsbD 5 then data.getLsbD 5 else supervisorTimer)
        (if mask.getLsbD 1 then data.getLsbD 1 else supervisorSoft) := by
  have unnamed : ∀ bit < 64, (0xaa2 : Word).getLsbD bit = false → mask.getLsbD bit = false := by
    intro bit inside absent
    have bits := congrArg (fun word => word.getLsbD bit) within
    simpa only [BitVec.getLsbD_and, BitVec.getLsbD_not, inside, absent, decide_true, Bool.not_false,
      Bool.and_true, BitVec.getLsbD_zero] using bits
  apply BitVec.eq_of_getLsbD_eq
  intro bit inside
  rw [merge_getLsbD _ _ _ inside, interruptWord_getLsbD _ _ _ _ _ inside,
    interruptWord_getLsbD _ _ _ _ _ inside]
  cases named : (0xaa2 : Word).getLsbD bit with
  | false =>
    rw [unnamed bit inside named, if_neg (by decide)]
    revert named
    interval_cases bit
    all_goals first
      | exact fun _ => rfl
      | exact fun named => absurd named (by decide)
  | true =>
    revert named
    interval_cases bit
    all_goals first
      | exact fun named => absurd named (by decide)
      | exact fun _ => rfl

theorem write_mie : (csr.write 0x304 data).mie = merge 0xaa2 csr.mie data := by
  have written : csr.write 0x304 data =
      { csr with
        ssie := data.getLsbD 1
        stie := data.getLsbD 5
        mtie := data.getLsbD 7
        seie := data.getLsbD 9
        meie := data.getLsbD 11 } := rfl
  rw [written, mie, mie, merge_interruptWord data (by decide)]
  rfl

theorem write_sie_mie : (csr.write 0x104 data).mie = merge 0x222 csr.mie data := by
  rw [write_sie, write_mie, merge_merge]
  rfl

/-- What `mip` reads, the interrupts of the lines beside those of software. -/
theorem pending_eq : csr.mip ||| csr.mipEx =
    interruptWord csr.mExtInt (csr.sExtInt || csr.sSoftIntEx) csr.mTimerInt
      (csr.sTimerInt || csr.sTimerIntEx) (csr.sSoftInt || csr.sSoftIntEx) := by
  apply BitVec.eq_of_getLsbD_eq
  intro bit inside
  rw [BitVec.getLsbD_or, mip, mipEx, interruptWord_getLsbD _ _ _ _ _ inside,
    interruptWord_getLsbD _ _ _ _ _ inside, interruptWord_getLsbD _ _ _ _ _ inside]
  unfold interruptBit
  split <;> simp

theorem interruptWord_inj {machineExt supervisorExt machineTimer supervisorTimer supervisorSoft
    supervisorExt' supervisorTimer' supervisorSoft' : Bool} :
    interruptWord machineExt supervisorExt machineTimer supervisorTimer supervisorSoft =
        interruptWord machineExt supervisorExt' machineTimer supervisorTimer' supervisorSoft' ↔
      supervisorExt = supervisorExt' ∧ supervisorTimer = supervisorTimer' ∧
        supervisorSoft = supervisorSoft' := by
  constructor
  · intro same
    have bits : ∀ bit < 64, _ := fun bit inside => by
      have pair := congrArg (fun word => word.getLsbD bit) same
      simp only [interruptWord_getLsbD _ _ _ _ _ inside] at pair
      exact pair
    exact ⟨bits 9 (by decide), bits 5 (by decide), bits 1 (by decide)⟩
  · rintro ⟨rfl, rfl, rfl⟩
    rfl

theorem merge_causeWord (interrupt : Bool) (code : BitVec 4) :
    merge (1#1 ++ 0#59 ++ BitVec.allOnes 4) (causeWord interrupt code) data =
      causeWord (data.getLsbD 63) (data.setWidth 4) := by
  apply BitVec.eq_of_getLsbD_eq
  intro bit inside
  rw [merge_getLsbD _ _ _ inside]
  unfold causeWord
  simp only [BitVec.getLsbD_append, BitVec.getLsbD_ofBool, BitVec.getLsbD_zero,
    BitVec.getLsbD_allOnes, BitVec.getLsbD_setWidth]
  interval_cases bit <;> rfl

theorem merge_low {width : Nat} (field : BitVec width) :
    merge ((BitVec.allOnes width).setWidth 64) (field.setWidth 64) data =
      (data.setWidth width).setWidth 64 := by
  apply BitVec.eq_of_getLsbD_eq
  intro bit inside
  rw [merge_getLsbD _ _ _ inside]
  simp only [BitVec.getLsbD_setWidth, BitVec.getLsbD_allOnes, inside, decide_true, Bool.true_and]
  by_cases low : bit < width
  · simp [low]
  · simp [low, BitVec.getLsbD_of_ge field bit (Nat.le_of_not_lt low)]

/-- The layout of `pmpaddr`. -/
theorem merge_addressWord (field : BitVec 54) :
    merge (0#8 ++ BitVec.allOnes 54 ++ 0#2) (0#8 ++ field ++ 0#2) data =
      0#8 ++ data.extractLsb' 2 54 ++ 0#2 := by
  apply BitVec.eq_of_getLsbD_eq
  intro bit inside
  rw [merge_getLsbD _ _ _ inside]
  simp only [BitVec.getLsbD_append, BitVec.getLsbD_zero, BitVec.getLsbD_allOnes,
    BitVec.getLsbD_extractLsb']
  interval_cases bit <;> rfl

/-- A word without its lowest bit. -/
theorem even_getLsbD (word : Word) {bit : Nat} (inside : bit < 64) :
    (word.extractLsb' 1 63 ++ 0#1).getLsbD bit = (word.getLsbD bit && decide (bit ≠ 0)) := by
  rw [BitVec.getLsbD_append, BitVec.getLsbD_extractLsb']
  cases bit with
  | zero => simp
  | succ bit =>
    have place : bit + 1 - 1 = bit := rfl
    have low : ¬bit + 1 < 1 := by omega
    have short : bit < 63 := by omega
    simp [low, place, short, Nat.add_comm 1 bit]

theorem merge_sepc (old : Word) :
    merge (BitVec.allOnes 63 ++ 0#1) (old.extractLsb' 1 63 ++ 0#1) data =
      (data.extractLsb' 1 63 ++ 0#1).extractLsb' 1 63 ++ 0#1 := by
  apply BitVec.eq_of_getLsbD_eq
  intro bit inside
  have mask : (BitVec.allOnes 63 ++ 0#1 : Word).getLsbD bit = decide (bit ≠ 0) := by
    have ones := even_getLsbD (BitVec.allOnes 64) inside
    rwa [BitVec.getLsbD_allOnes, decide_eq_true inside, Bool.true_and] at ones
  rw [merge_getLsbD _ _ _ inside, mask, even_getLsbD _ inside, even_getLsbD _ inside,
    even_getLsbD _ inside]
  by_cases low : bit = 0 <;> simp [low]

theorem epc_cleared (pc : Pc) : (epc pc).extractLsb' 1 63 ++ 0#1 = epc pc := by
  apply BitVec.eq_of_getLsbD_eq
  intro bit inside
  rw [even_getLsbD _ inside]
  cases bit with
  | zero =>
    unfold epc
    simp only [BitVec.getLsbD_signExtend, BitVec.getLsbD_append]
    rfl
  | succ bit => simp

theorem merge_mepc (old : Word) :
    epc ((merge ((BitVec.allOnes 38 ++ 0#1).setWidth 64) old data).setWidth 39) =
      (epc (data.setWidth 39)).extractLsb' 1 63 ++ 0#1 := by
  have kept : ((merge ((BitVec.allOnes 38 ++ 0#1).setWidth 64) old data).setWidth 39).extractLsb'
      1 38 = (data.setWidth 39).extractLsb' 1 38 := by
    apply BitVec.eq_of_getLsbD_eq
    intro bit inside
    have low : 1 + bit < 39 := by omega
    have word : 1 + bit < 64 := by omega
    have mask : ((BitVec.allOnes 38 ++ 0#1).setWidth 64).getLsbD (1 + bit) = true := by
      rw [BitVec.getLsbD_setWidth, BitVec.getLsbD_append, BitVec.getLsbD_allOnes]
      simp [word, inside]
    simp only [BitVec.getLsbD_extractLsb', BitVec.getLsbD_setWidth, low, inside, decide_true,
      Bool.true_and, merge_getLsbD _ _ _ word, mask, if_true]
  rw [epc_cleared]
  exact congrArg (fun field : BitVec 38 => (field ++ 0#1).signExtend 64) kept

end Fields

section Reads

variable (mcycle minstret data : Word)

/-- Every address shows a part of its family. -/
theorem readData_view (address : BitVec 12) :
    csr.readData mcycle minstret address =
      csr.readData mcycle minstret (primary address) &&& visibleBits address := by
  unfold primary
  split
  · exact csr.sstatus_eq
  · exact csr.sie_eq
  · exact csr.sip_eq
  · exact (BitVec.and_allOnes).symm
  · rename_i status enable pending cycle
    have full : visibleBits address = BitVec.allOnes 64 := by
      unfold visibleBits
      split
      all_goals first
        | exact absurd rfl status
        | exact absurd rfl enable
        | exact absurd rfl pending
        | rfl
    rw [full, BitVec.and_allOnes]

/-- The address that shows a family in full, by family. -/
def shown : CsrFamily → BitVec 12
  | .status => 0x300
  | .interruptEnable => 0x304
  | .interruptPending => 0x344
  | .mtvec => 0x305
  | .mscratch => 0x340
  | .mepc => 0x341
  | .mcause => 0x342
  | .mtval => 0x343
  | .medeleg => 0x302
  | .mideleg => 0x303
  | .stvec => 0x105
  | .sscratch => 0x140
  | .sepc => 0x141
  | .scause => 0x142
  | .stval => 0x143
  | .satp => 0x180
  | .mcycle => 0xb00
  | .minstret => 0xb02
  | .pmp address => address
  | .unstored => 0

theorem primary_eq {address : BitVec 12} (stored : family address ≠ .unstored) :
    primary address = shown (family address) := by
  revert stored
  unfold family
  split
  all_goals first
    | exact fun _ => rfl
    | exact fun stored => absurd rfl stored

/-- The addresses whose writes take effect as a merge. -/
def ordinary : List (BitVec 12) :=
  [0x300, 0x100, 0x304, 0x104, 0x305, 0x340, 0x341, 0x342, 0x343, 0x302, 0x303, 0x105, 0x140,
    0x141, 0x142, 0x143, 0x180]

/-- A write merges the written bits into the register. -/
theorem readData_write_primary {address : BitVec 12} (known : address ∈ ordinary) :
    (csr.write address data).readData mcycle minstret (primary address) =
      legalized (primary address)
        (merge (writableBits address) (csr.readData mcycle minstret (primary address)) data) := by
  simp only [ordinary, List.mem_cons, List.not_mem_nil, or_false] at known
  rcases known with rfl | rfl | rfl | rfl | rfl | rfl | rfl | rfl | rfl | rfl | rfl | rfl | rfl |
    rfl | rfl | rfl | rfl
  · exact csr.write_mstatus data
  · exact csr.write_sstatus_mstatus data
  · exact csr.write_mie data
  · exact csr.write_sie_mie data
  · exact (merge_allOnes csr.mtvec data).symm
  · exact (merge_allOnes csr.mscratch data).symm
  · exact (merge_mepc data (csr.mepc.extractLsb' 1 63 ++ 0#1)).symm
  · exact (merge_causeWord data csr.mcauseInterrupt csr.mcauseCode).symm
  · exact (merge_allOnes csr.mtval data).symm
  · exact (merge_low data csr.medeleg).symm
  · exact (merge_low data csr.mideleg).symm
  · exact (merge_allOnes csr.stvec data).symm
  · exact (merge_allOnes csr.sscratch data).symm
  · exact (merge_sepc data csr.sepc).symm
  · exact (merge_causeWord data csr.scauseInterrupt csr.scauseCode).symm
  · exact (merge_allOnes csr.stval data).symm
  · exact (merge_allOnes csr.satp data).symm

end Reads

/-- Only the addresses of the counters read them. -/
theorem readData_counters (mcycle minstret : Word) (address : BitVec 12) :
    csr.readData mcycle minstret address =
      if address = 0xb00 ∨ address = 0xc00 then mcycle
      else if address = 0xb02 then minstret
      else csr.readData 0 0 address := by
  by_cases cycle : address = 0xb00 ∨ address = 0xc00
  · rw [if_pos cycle]
    rcases cycle with rfl | rfl <;> rfl
  · rw [if_neg cycle]
    by_cases retired : address = 0xb02
    · rw [if_pos retired, retired]
      rfl
    · rw [if_neg retired]
      unfold readData
      split
      all_goals first
        | exact absurd rfl retired
        | exact absurd (.inl rfl) cycle
        | exact absurd (.inr rfl) cycle
        | rfl

theorem readData_uncounted (mcycle minstret : Word) {address : BitVec 12}
    (cycle : family address ≠ .mcycle) (retired : family address ≠ .minstret) :
    csr.readData mcycle minstret address = csr.readData 0 0 address := by
  rw [readData_counters, if_neg, if_neg]
  · rintro rfl
    exact retired rfl
  · rintro (rfl | rfl) <;> exact cycle rfl

theorem ordinary_family : ∀ address ∈ ordinary, family address ≠ .unstored ∧
    family address ≠ .mcycle ∧ family address ≠ .minstret := by
  simp only [ordinary, List.mem_cons, List.not_mem_nil, or_false]
  rintro _ (rfl | rfl | rfl | rfl | rfl | rfl | rfl | rfl | rfl | rfl | rfl | rfl | rfl | rfl |
    rfl | rfl | rfl)
  all_goals exact ⟨CsrFamily.noConfusion, CsrFamily.noConfusion, CsrFamily.noConfusion⟩

/-- Every address of the family reads back a write that merges. -/
theorem readData_write_ordinary {address other : BitVec 12} (known : address ∈ ordinary)
    (same : family other = family address) (mcycle minstret mcycle' minstret' data : Word) :
    (csr.write address data).readData mcycle' minstret' other =
      legalized other (merge (writableBits address &&& visibleBits other)
        (csr.readData mcycle minstret other) data) := by
  obtain ⟨stored, cycle, retired⟩ := ordinary_family address known
  have full : primary other = primary address := by
    rw [primary_eq stored, primary_eq (by rwa [same]), same]
  rw [← same] at cycle retired
  rw [readData_uncounted _ _ _ cycle retired, readData_uncounted _ mcycle _ cycle retired,
    readData_view, readData_view csr, full, readData_write_primary _ _ _ _ known, ← full]
  generalize csr.readData 0 0 (primary other) = old
  by_cases exception : other = 0x341
  · rw [exception, show visibleBits 0x341 = BitVec.allOnes 64 from rfl, BitVec.and_allOnes,
      BitVec.and_allOnes, BitVec.and_allOnes]
    rfl
  · have plain : primary other ≠ 0x341 := by
      unfold primary
      split
      all_goals first
        | decide
        | exact exception
    rw [legalized, legalized, if_neg exception, if_neg plain, merge_and]

/-- What is merged into the register that shows a family in full is merged into every view. -/
theorem readData_view_merge {after : CsrRegfile} {other : BitVec 12} {mask data : Word}
    {mcycle minstret mcycle' minstret' : Word}
    (full : after.readData mcycle' minstret' (primary other) =
      merge mask (csr.readData mcycle minstret (primary other)) data) :
    after.readData mcycle' minstret' other =
      merge (mask &&& visibleBits other) (csr.readData mcycle minstret other) data := by
  rw [readData_view, full, merge_and, ← readData_view]

/-- `mip` shows the lines beside the stored bits, and the software interrupt twice. -/
theorem write_mip (data : Word) :
    (csr.write 0x344 data).mip ||| (csr.write 0x344 data).mipEx =
        merge 0x222 (csr.mip ||| csr.mipEx) data ↔
      (csr.sExtInt || data.getLsbD 1) = data.getLsbD 9 ∧
        (csr.sTimerInt || data.getLsbD 5) = data.getLsbD 5 ∧
        (csr.sSoftInt || data.getLsbD 1) = data.getLsbD 1 := by
  have written : csr.write 0x344 data =
      { csr with
        sSoftIntEx := data.getLsbD 1
        sTimerIntEx := data.getLsbD 5
        sExtIntEx := data.getLsbD 9 } := rfl
  rw [written, pending_eq, pending_eq, merge_interruptWord data (by decide)]
  exact interruptWord_inj

/-- A write of `sip` stores nothing. -/
theorem write_sip (data : Word) :
    (csr.write 0x144 data).mip ||| (csr.write 0x144 data).mipEx =
        merge 0x2 (csr.mip ||| csr.mipEx) data ↔
      (csr.sSoftInt || csr.sSoftIntEx) = data.getLsbD 1 := by
  have written : csr.write 0x144 data = csr := rfl
  rw [written, pending_eq, merge_interruptWord data (by decide)]
  exact interruptWord_inj.trans ⟨fun same => same.2.2, fun same => ⟨rfl, rfl, same⟩⟩

theorem write_unstored {address : BitVec 12} (listed : writeable address = true)
    (unstored : family address = .unstored) (data : Word) : csr.write address data = csr := by
  have erased := csr.write_erase listed data
  rwa [unstored] at erased

theorem writableBits_unstored {address : BitVec 12} (unstored : family address = .unstored) :
    writableBits address = 0#64 := by
  revert unstored
  unfold writableBits
  split
  all_goals first
    | exact fun unstored => CsrFamily.noConfusion unstored
    | exact fun _ => rfl

/-- The cases of a write. -/
theorem writeable_cases {address : BitVec 12} (listed : writeable address = true) :
    address ∈ ordinary ∨ address = 0x344 ∨ address = 0x144 ∨ address = 0xb00 ∨
      address = 0xb02 ∨ family address = .unstored := by
  unfold family
  split
  all_goals simp [ordinary]
  exact absurd listed (by decide)

/-- A clock edge without a trap and without a return does what the write port does. -/
theorem readData_step {input : CsrInput} (pending : input.excpPending = false)
    (mRet : input.mRet = false) (sRet : input.sRet = false) (external : csr.interruptEx = false)
    (mcycle minstret : Word) (address : BitVec 12) :
    (csr.step input).readData mcycle minstret address =
      (if input.csrW then csr.write input.csrAddrW input.csrDataW else csr).readData mcycle minstret
        address := by
  have machine : csr.machineEntry input = false := by
    simp [machineEntry, external, pending]
  have supervisor : csr.supervisorEntry input = false := by
    simp [supervisorEntry, pending]
  have written : csr.written input =
      if input.csrW then csr.write input.csrAddrW input.csrDataW else csr := by
    simp [CsrRegfile.written, pending, mRet, sRet]
  have entered : csr.entered input (marked input (csr.written input)) = csr.written input := by
    simp [CsrRegfile.entered, marked, machine, supervisor, pending]
  rw [← written]
  unfold step
  rw [entered]
  rfl

end CsrRegfile

end GreenRio
