import GreenRio.LowestBit
import GreenRio.PmpRegisters
import GreenRio.Protection
import Mathlib.Tactic.FinCases

set_option autoImplicit false

namespace GreenRio

open RiscV

namespace PmpEntry

section Check

variable (entry : PmpEntry) (formmerEntryAddr : BitVec 54) (paddr : BitVec 56)

def firstZeroMask : BitVec 54 := ~~~entry.pmpaddr &&& (~~~entry.pmpaddr - 1#54)

def napotMask : BitVec 54 := entry.firstZeroMask ||| (entry.firstZeroMask - 1#54)

def base : BitVec 56 :=
  match entry.pmpcfgA with
  | 1 => formmerEntryAddr ++ 0#2
  | 2 => entry.pmpaddr ++ 0#2
  | 3 => (entry.pmpaddr &&& ~~~entry.napotMask) ++ 0#2
  | _ => 0

def bound : BitVec 56 :=
  match entry.pmpcfgA with
  | 1 => entry.pmpaddr ++ 0#2
  | 2 => entry.pmpaddr ++ 3#2
  | 3 => (entry.pmpaddr ||| entry.napotMask) ++ 3#2
  | _ => BitVec.allOnes 56

def permissionDeny (accessType : BitVec 2) : Bool :=
  match accessType with
  | 0 => !entry.pmpcfgR
  | 1 => !entry.pmpcfgW
  | 2 => !entry.pmpcfgX
  | _ => true

def hitRange : Bool :=
  entry.pmpcfgA != 0 && decide (entry.base formmerEntryAddr ≤ paddr) && decide (paddr < entry.bound)

/-- `permission_check_entry_match_o`. -/
def permissionCheckEntryMatch (permissionCheckVld : Bool) : Bool :=
  permissionCheckVld && entry.hitRange formmerEntryAddr paddr

/-- `permission_check_fail_o`. -/
def permissionCheckFail (permissionCheckVld : Bool) (accessType : BitVec 2) : Bool :=
  entry.permissionCheckEntryMatch formmerEntryAddr paddr permissionCheckVld &&
    entry.permissionDeny accessType

/-- The entry with the fields of a configuration byte. -/
def configured (payload : BitVec 8) : PmpEntry :=
  { entry with
    pmpcfgL := payload.getLsbD 7
    pmpcfgA := payload.extractLsb' 3 2
    pmpcfgX := payload.getLsbD 2
    pmpcfgW := payload.getLsbD 1
    pmpcfgR := payload.getLsbD 0 }

/-- The addresses an entry is compared with: the last byte of a region is left out, and a naturally
aligned one goes on to the end of memory. -/
def Compares (formmer paddr : Nat) : Prop :=
  match Matching.ofBits entry.pmpcfgA with
  | .off => False
  | .tor => 4 * formmer ≤ paddr ∧ paddr < 4 * entry.pmpaddr.toNat
  | .na4 => paddr / 4 = entry.pmpaddr.toNat ∧ paddr % 4 ≠ 3
  | .napot => (entry.pmpaddr &&& ~~~entry.napotMask).toNat ≤ paddr / 4 ∧ paddr ≠ 2 ^ 56 - 1

end Check

variable {entry : PmpEntry} {formmerEntryAddr : BitVec 54} {paddr : BitVec 56}

/-- The upper end of a naturally aligned region is the end of memory, whatever its address is. -/
theorem pmpaddr_or_napotMask (entry : PmpEntry) :
    entry.pmpaddr ||| entry.napotMask = BitVec.allOnes 54 := by
  apply BitVec.eq_of_getLsbD_eq
  intro bit inside
  rw [BitVec.getLsbD_or, BitVec.getLsbD_allOnes, decide_eq_true inside]
  cases set : entry.pmpaddr.getLsbD bit with
  | true => rfl
  | false =>
    have zero : (~~~entry.pmpaddr).getLsbD bit = true := by
      rw [BitVec.getLsbD_not, set, decide_eq_true inside]
      rfl
    exact LowestBit.getLsbD_fill_clear (~~~entry.pmpaddr) zero

theorem toNat_append_two (word : BitVec 54) (low : BitVec 2) :
    (word ++ low).toNat = 4 * word.toNat + low.toNat := by
  rw [BitVec.toNat_append, ← Nat.shiftLeft_add_eq_or_of_lt low.isLt, Nat.shiftLeft_eq,
    Nat.mul_comm]

theorem matching_cases (field : BitVec 2) : field = 0 ∨ field = 1 ∨ field = 2 ∨ field = 3 := by
  revert field
  decide

theorem hitRange_iff : entry.hitRange formmerEntryAddr paddr = true ↔
    entry.Compares formmerEntryAddr.toNat paddr.toNat := by
  have filled := pmpaddr_or_napotMask entry
  have range := paddr.isLt
  unfold hitRange
  rw [Bool.and_eq_true, Bool.and_eq_true, decide_eq_true_eq, decide_eq_true_eq, bne_iff_ne,
    BitVec.le_def, BitVec.lt_def]
  unfold base bound Compares
  rcases matching_cases entry.pmpcfgA with off | tor | na4 | napot
  · rw [off]
    exact iff_of_false (fun hit => hit.1.1 rfl) id
  · rw [tor]
    change (_ ∧ (formmerEntryAddr ++ 0#2).toNat ≤ _) ∧ _ < (entry.pmpaddr ++ 0#2).toNat ↔
      4 * formmerEntryAddr.toNat ≤ _ ∧ _
    rw [toNat_append_two, toNat_append_two]
    exact and_congr_left' (and_iff_right (by decide))
  · rw [na4]
    change (_ ∧ (entry.pmpaddr ++ 0#2).toNat ≤ _) ∧ _ < (entry.pmpaddr ++ 3#2).toNat ↔
      _ / 4 = _ ∧ _ % 4 ≠ 3
    rw [toNat_append_two, toNat_append_two, and_assoc, and_iff_right (by decide)]
    have low : (3#2).toNat = 3 := rfl
    have none : (0#2).toNat = 0 := rfl
    omega
  · rw [napot]
    change (_ ∧ ((entry.pmpaddr &&& ~~~entry.napotMask) ++ 0#2).toNat ≤ _) ∧
        _ < ((entry.pmpaddr ||| entry.napotMask) ++ 3#2).toNat ↔
      (entry.pmpaddr &&& ~~~entry.napotMask).toNat ≤ _ ∧ _
    rw [filled, toNat_append_two, toNat_append_two, and_assoc, and_iff_right (by decide)]
    have low : (3#2).toNat = 3 := rfl
    have none : (0#2).toNat = 0 := rfl
    have ones : (BitVec.allOnes 54).toNat = 2 ^ 54 - 1 := rfl
    omega

end PmpEntry

namespace Pmp

section Check

variable (pmp : Pmp) (privLvl : BitVec 2) (permissionCheckVld : Bool) (paddr : BitVec 56)
  (accessType : BitVec 2)

/-- `pmp_entry_formmer_entry_addr`. -/
def formmerEntryAddr (index : Fin 8) : BitVec 54 :=
  if above : 0 < index.val then (pmp.entry ⟨index.val - 1, by omega⟩).pmpaddr else 0

/-- `pmp_entry_range_match`. -/
def rangeMatch (index : Fin 8) : Bool :=
  (pmp.entry index).permissionCheckEntryMatch (pmp.formmerEntryAddr index) paddr permissionCheckVld

/-- `pmp_entry_check_fail`. -/
def checkFail (index : Fin 8) : Bool :=
  (pmp.entry index).permissionCheckFail (pmp.formmerEntryAddr index) paddr permissionCheckVld
    accessType

/-- `permission_check_fail_o`. -/
def permissionCheckFail : Bool :=
  (List.finRange 8).any (fun index => pmp.checkFail permissionCheckVld paddr accessType index) ||
    ((List.finRange 8).all (fun index => !pmp.rangeMatch permissionCheckVld paddr index) &&
      privLvl != 3)

end Check

/-- The code of an access type. -/
def accessCode : AccessType → BitVec 2
  | .read => 0
  | .write => 1
  | .execute => 2

/-- An entry as the specification has it: that of the code in all but the address, which is what was
written. -/
structure Configures (entry : PmpEntry) (rule : PmpRule) : Prop where
  locked : entry.pmpcfgL = rule.locked
  matching : Matching.ofBits entry.pmpcfgA = rule.matching
  execute : entry.pmpcfgX = rule.execute
  write : entry.pmpcfgW = rule.write
  read : entry.pmpcfgR = rule.read

/-- The configuration byte of an entry in a payload. -/
def configByte (payload : Word) (index : Fin 8) : BitVec 8 :=
  payload.extractLsb' (index.val % 8 * 8) 8

/-- A write of the registers as the specification has it. -/
def specified (rules : Fin 8 → PmpRule) (ports : PmpPorts) (index : Fin 8) : PmpRule :=
  let rule := rules index
  let held := if inside : index.val + 1 < 8 then (rules ⟨index.val + 1, inside⟩).holdsFormer
    else false
  let configured := if ports.cfgSetVld && ports.cfgSetAddr == 0 then
      rule.configure (configByte ports.cfgSetPayload index)
    else rule
  let assigned := if ports.addrSetVld && ports.addrSetAddr.toNat == index.val then
      rule.assign held ports.addrSetPayload
    else rule
  { configured with address := assigned.address }

/-- The registers under any sequence of writes, as the code and as the specification has them. -/
def machine : Synchronous (Pmp × (Fin 8 → PmpRule)) PmpPorts :=
  ⟨(reset, fun _ => PmpRule.reset), fun both ports => (both.1.step ports, specified both.2 ports)⟩

/-- A write changes no configuration that only a locked range above protects. -/
def Open (pmp : Pmp) (ports : PmpPorts) : Prop :=
  (ports.cfgSetVld && ports.cfgSetAddr == 0) = true → ∀ index,
    (pmp.entry index).pmpcfgL = false → pmp.lockFromLatterEntry index = true →
      (pmp.entry index).configured (configByte ports.cfgSetPayload index) = pmp.entry index

/-- The regions that are compared have the address exactly where those of the specification do. -/
def Agrees (pmp : Pmp) (rules : Fin 8 → PmpRule) (paddr : Nat) : Prop :=
  ∀ index, (pmp.entry index).Compares (pmp.formmerEntryAddr index).toNat paddr ↔
    Matches rules paddr index

/-- The check fails exactly where the specification denies the access. -/
def Follows (pmp : Pmp) (rules : Fin 8 → PmpRule) (privLvl : BitVec 2) (access : AccessType)
    (paddr : BitVec 56) : Prop :=
  pmp.permissionCheckFail privLvl true paddr (accessCode access) = true ↔
    Denied rules (privLvl = 3) access paddr.toNat

variable {pmp : Pmp} {rules : Fin 8 → PmpRule} {ports : PmpPorts}

/-- A write that is open keeps the configurations alike. -/
theorem step_configures (same : ∀ index, Configures (pmp.entry index) (rules index))
    (isOpen : Open pmp ports) (index : Fin 8) :
    Configures ((pmp.step ports).entry index) (specified rules ports index) := by
  have alike := same index
  change Configures ((pmp.entry index).step (ports.cfgSetVld && ports.cfgSetAddr == 0)
    (configByte ports.cfgSetPayload index) _ _ (pmp.lockFromLatterEntry index)) _
  unfold specified
  cases strobe : ports.cfgSetVld && ports.cfgSetAddr == 0 with
  | false => exact ⟨alike.locked, alike.matching, alike.execute, alike.write, alike.read⟩
  | true =>
    cases locked : (rules index).locked with
    | true =>
      have held : (pmp.entry index).pmpcfgL = true := alike.locked.trans locked
      rw [PmpEntry.step_locked _ _ _ _ _ _ held]
      simp only [PmpRule.configure, locked, if_true]
      exact ⟨held, alike.matching, alike.execute, alike.write, alike.read⟩
    | false =>
      have free : (pmp.entry index).pmpcfgL = false := alike.locked.trans locked
      simp only [PmpRule.configure, locked, Bool.false_eq_true, if_false, if_true]
      cases latter : pmp.lockFromLatterEntry index with
      | false =>
        simp only [PmpEntry.step, free, Bool.not_false, Bool.and_true, if_true]
        exact ⟨rfl, rfl, rfl, rfl, rfl⟩
      | true =>
        -- The code drops the write, which is therefore one that changes nothing.
        have unchanged := isOpen strobe index free latter
        rw [PmpEntry.step_lock, ← unchanged]
        exact ⟨rfl, rfl, rfl, rfl, rfl⟩

/-- What the check refuses: what some entry refuses, and below machine mode what no entry has. -/
theorem permissionCheckFail_iff (same : ∀ index, Configures (pmp.entry index) (rules index))
    (privLvl : BitVec 2) (access : AccessType) (paddr : BitVec 56) :
    pmp.permissionCheckFail privLvl true paddr (accessCode access) = true ↔
      (∃ index, (pmp.entry index).Compares (pmp.formmerEntryAddr index).toNat paddr.toNat ∧
          (rules index).permits access = false) ∨
        (∀ index, ¬(pmp.entry index).Compares (pmp.formmerEntryAddr index).toNat paddr.toNat) ∧
          ¬privLvl = 3 := by
  have matching : ∀ index, pmp.rangeMatch true paddr index = true ↔
      (pmp.entry index).Compares (pmp.formmerEntryAddr index).toNat paddr.toNat := by
    intro index
    exact PmpEntry.hitRange_iff
  have deny : ∀ index, (pmp.entry index).permissionDeny (accessCode access) = true ↔
      (rules index).permits access = false := by
    intro index
    obtain ⟨-, -, execute, write, read⟩ := same index
    cases access
    · rw [PmpRule.permits, ← read]
      exact iff_of_eq (Bool.not_eq_true' _)
    · rw [PmpRule.permits, ← write]
      exact iff_of_eq (Bool.not_eq_true' _)
    · rw [PmpRule.permits, ← execute]
      exact iff_of_eq (Bool.not_eq_true' _)
  have fails : ∀ index, pmp.checkFail true paddr (accessCode access) index = true ↔
      (pmp.entry index).Compares (pmp.formmerEntryAddr index).toNat paddr.toNat ∧
        (rules index).permits access = false := by
    intro index
    rw [← matching, ← deny]
    exact Bool.and_eq_true_iff
  simp only [permissionCheckFail, Bool.or_eq_true, Bool.and_eq_true, List.any_eq_true,
    List.all_eq_true, List.mem_finRange, true_and, forall_const, bne_iff_ne, fails,
    Bool.not_eq_true', ← Bool.not_eq_true, matching, ne_eq]

theorem run_configures (writes : List PmpPorts)
    (obeys : machine.Obeys (fun both ports => Open both.1 ports) writes) (index : Fin 8) :
    Configures ((machine.run writes).1.entry index) ((machine.run writes).2 index) := by
  induction writes using List.reverseRecOn generalizing index with
  | nil => exact ⟨rfl, rfl, rfl, rfl, rfl⟩
  | append_singleton writes ports ih =>
    obtain ⟨before, isOpen⟩ := Synchronous.obeys_snoc.mp obeys
    rw [Synchronous.run_snoc]
    exact step_configures (ih before) isOpen index

/-- After any writes that are open, and at every address at which the regions agree, the check
follows the specification exactly on the accesses that are not disputed. -/
theorem check_follows_iff (writes : List PmpPorts)
    (obeys : machine.Obeys (fun both ports => Open both.1 ports) writes) (privLvl : BitVec 2)
    (access : AccessType) (paddr : BitVec 56)
    (agrees : Agrees (machine.run writes).1 (machine.run writes).2 paddr.toNat) :
    Follows (machine.run writes).1 (machine.run writes).2 privLvl access paddr ↔
      Undisputed (machine.run writes).2 (privLvl = 3) access paddr.toNat := by
  unfold Follows
  rw [permissionCheckFail_iff (run_configures writes obeys)]
  simp only [agrees _]
  exact any_refuses_iff

def writeCfg (payload : Word) : PmpPorts := ⟨true, 0, payload, false, 0, 0⟩

def writeAddr (index : BitVec 6) (payload : Word) : PmpPorts :=
  ⟨false, 0, 0, true, index, payload⟩

/-- A range from address 0 to the highest one, for reading. -/
def wholeRange : List PmpPorts := [writeAddr 0 0xffffffffffffff, writeCfg 0x09]

theorem wholeRange_open : machine.Obeys (fun both ports => Open both.1 ports) wholeRange := by
  rw [Synchronous.obeys_iff]
  have free : ∀ index,
      (machine.run [writeAddr 0 0xffffffffffffff]).1.lockFromLatterEntry index = false := by
    decide
  have first : Open machine.reset.1 (writeAddr 0 0xffffffffffffff) :=
    fun strobe => absurd strobe (by decide)
  have second : Open (machine.run [writeAddr 0 0xffffffffffffff]).1 (writeCfg 0x09) :=
    fun _ index _ held => Bool.noConfusion ((free index).symm.trans held)
  exact ⟨first, second, trivial⟩

theorem wholeRange_agrees :
    Agrees (machine.run wholeRange).1 (machine.run wholeRange).2 (0x1000#56).toNat := by
  intro index
  fin_cases index
  · have below : 4 * 0 ≤ 0x1000 ∧ 0x1000 < 4 * (2 ^ 54 - 1) := by decide
    exact iff_of_true below below
  all_goals exact iff_of_false id id

theorem check_follows_wholeRange :
    Follows (machine.run wholeRange).1 (machine.run wholeRange).2 1 .read 0x1000 ↔
      Undisputed (machine.run wholeRange).2 ((1 : BitVec 2) = 3) .read (0x1000#56).toNat :=
  check_follows_iff wholeRange wholeRange_open 1 .read 0x1000 wholeRange_agrees

/-- Four bytes at address 0, for reading: the last one cannot be read. -/
theorem last_byte_refused :
    (machine.run [writeCfg 0x11]).1.permissionCheckFail 1 true 3 (accessCode .read) = true ∧
      ¬ ∀ writes privLvl access paddr,
        Follows (machine.run writes).1 (machine.run writes).2 privLvl access paddr := by
  have fails : (machine.run [writeCfg 0x11]).1.permissionCheckFail 1 true 3
      (accessCode .read) = true := by
    decide
  refine ⟨fails, fun follows => ?_⟩
  have found : Matches (machine.run [writeCfg 0x11]).2 3 0 := rfl
  rcases (follows [writeCfg 0x11] 1 .read 3).mp fails with
    ⟨index, decides, refused, -⟩ | ⟨none, -⟩
  · have first : index = 0 := by
      by_contra behind
      exact decides.first 0 (Fin.pos_iff_ne_zero.mpr behind) found
    rw [first] at refused
    exact absurd refused (by decide)
  · exact none 0 found

end Pmp

end GreenRio
