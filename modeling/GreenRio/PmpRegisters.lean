import GreenRio.CsrFile
import GreenRio.Synchronous
import Mathlib.Tactic.IntervalCases

set_option autoImplicit false

namespace GreenRio

open Oldest2Abitter (getLsbD_ofBits ofBits)

namespace PmpEntry

variable (entry : PmpEntry) (cfgSetVld : Bool) (cfgSetPayload : BitVec 8) (addrSetVld : Bool)
  (addrSetPayload : Word) (lock : Bool)

/-- A locked entry keeps its configuration and its address. -/
theorem step_locked (locked : entry.pmpcfgL = true) :
    entry.step cfgSetVld cfgSetPayload addrSetVld addrSetPayload lock = entry := by
  unfold step
  rw [locked]
  simp only [Bool.not_true, Bool.and_false, Bool.false_and, Bool.false_eq_true, if_false]
  rw [← locked]

/-- So does an entry below one that locks it. -/
theorem step_lock :
    entry.step cfgSetVld cfgSetPayload addrSetVld addrSetPayload true = entry := by
  simp [step]

theorem step_pmpaddrO :
    (entry.step cfgSetVld cfgSetPayload addrSetVld addrSetPayload lock).pmpaddrO =
      if addrSetVld && !entry.pmpcfgL && !lock then
        0#8 ++ addrSetPayload.extractLsb' 2 54 ++ 0#2
      else entry.pmpaddrO := by
  unfold pmpaddrO step
  dsimp only
  split <;> rfl

/-- The bits of a configuration byte that are stored. -/
def cfgBit : Nat → Bool
  | 5 | 6 => false
  | _ => true

theorem pmpcfgBit_unstored {bit : Nat} (absent : cfgBit bit = false) :
    entry.pmpcfgBit bit = false := by
  revert absent
  unfold cfgBit
  split
  · exact fun _ => rfl
  · exact fun _ => rfl
  · exact fun stored => absurd stored (by decide)

theorem step_pmpcfgBit {bit : Nat} (inside : bit < 8) :
    (entry.step cfgSetVld cfgSetPayload addrSetVld addrSetPayload lock).pmpcfgBit bit =
      if cfgSetVld && !entry.pmpcfgL && !lock then cfgBit bit && cfgSetPayload.getLsbD bit
      else entry.pmpcfgBit bit := by
  unfold step
  generalize (cfgSetVld && !entry.pmpcfgL && !lock) = enabled
  have mode : ∀ place < 2, (cfgSetPayload.extractLsb' 3 2).getLsbD place =
      cfgSetPayload.getLsbD (3 + place) := by
    intro place low
    rw [BitVec.getLsbD_extractLsb', decide_eq_true low, Bool.true_and]
  cases enabled
  · rfl
  · interval_cases bit
    all_goals first
      | rfl
      | exact mode 0 (by decide)
      | exact mode 1 (by decide)

end PmpEntry

namespace Pmp

variable (pmp : Pmp) (ports : PmpPorts)

theorem pmpcfg_getLsbD {bit : Nat} (inside : bit < 64) :
    pmp.pmpcfg.getLsbD bit = (pmp.entry (Fin.ofNat 8 (bit / 8))).pmpcfgBit (bit % 8) := by
  rw [pmpcfg, getLsbD_ofBits, decide_eq_true inside, Bool.true_and]

/-- A locked entry is out of reach of every write. -/
theorem step_entry_locked {index : Fin 8} (locked : (pmp.entry index).pmpcfgL = true) :
    (pmp.step ports).entry index = pmp.entry index :=
  PmpEntry.step_locked _ _ _ _ _ _ locked

/-- With an entry that is locked as the top of a range, the entry below is too. -/
theorem step_entry_former {former index : Fin 8} (below : former.val + 1 = index.val)
    (locked : (pmp.entry index).lockFormmerEntry = true) :
    (pmp.step ports).entry former = pmp.entry former := by
  have lock : pmp.lockFromLatterEntry former = true := by
    have inside : former.val + 1 < 8 := by omega
    have same : (⟨former.val + 1, inside⟩ : Fin 8) = index := Fin.ext below
    rw [lockFromLatterEntry, dif_pos inside, same]
    exact locked
  change (pmp.entry former).step _ _ _ _ (pmp.lockFromLatterEntry former) = _
  rw [lock]
  exact PmpEntry.step_lock _ _ _ _ _

/-- The bits of the configuration register that are writable: those of the entries that are not
locked. -/
def cfgWritable : Word :=
  ofBits (fun bit => !(pmp.entry (Fin.ofNat 8 (bit / 8))).pmpcfgL && PmpEntry.cfgBit (bit % 8)) 64

/-- The bits of an address register that are writable: none of a locked entry, nor of the one below
the top of a locked range. -/
def addrWritable (addrSetAddr : BitVec 6) : Word :=
  if inside : addrSetAddr.toNat < 8 then
    if (pmp.entry ⟨addrSetAddr.toNat, inside⟩).pmpcfgL ||
      pmp.lockFromLatterEntry ⟨addrSetAddr.toNat, inside⟩ then 0
    else 0#8 ++ BitVec.allOnes 54 ++ 0#2
  else 0

/-- An address register after a clock edge. -/
theorem step_addrOriginPayload (addrSetAddr : BitVec 6) :
    (pmp.step ports).addrOriginPayload addrSetAddr =
      if inside : addrSetAddr.toNat < 8 then
        if ports.addrSetVld && ports.addrSetAddr == addrSetAddr &&
            !(pmp.entry ⟨addrSetAddr.toNat, inside⟩).pmpcfgL &&
            !pmp.lockFromLatterEntry ⟨addrSetAddr.toNat, inside⟩ then
          0#8 ++ ports.addrSetPayload.extractLsb' 2 54 ++ 0#2
        else pmp.addrOriginPayload addrSetAddr
      else 0 := by
  unfold addrOriginPayload
  split
  · rename_i inside
    have same : (ports.addrSetAddr.toNat == addrSetAddr.toNat) =
        (ports.addrSetAddr == addrSetAddr) := by
      rw [Bool.eq_iff_iff, beq_iff_eq, beq_iff_eq, BitVec.toNat_inj]
    change ((pmp.entry _).step _ _ _ _ _).pmpaddrO = _
    rw [PmpEntry.step_pmpaddrO, same]
  · rfl

/-- A bit of the configuration register after a clock edge. -/
theorem step_pmpcfg_getLsbD {bit : Nat} (inside : bit < 64) :
    (pmp.step ports).pmpcfg.getLsbD bit =
      if ports.cfgSetVld && ports.cfgSetAddr == 0 &&
          !(pmp.entry (Fin.ofNat 8 (bit / 8))).pmpcfgL &&
          !pmp.lockFromLatterEntry (Fin.ofNat 8 (bit / 8)) then
        PmpEntry.cfgBit (bit % 8) && ports.cfgSetPayload.getLsbD bit
      else pmp.pmpcfg.getLsbD bit := by
  have low : bit % 8 < 8 := Nat.mod_lt _ (by decide)
  have index : (Fin.ofNat 8 (bit / 8)).val = bit / 8 := by
    rw [Fin.val_ofNat]
    omega
  have place : (ports.cfgSetPayload.extractLsb' ((Fin.ofNat 8 (bit / 8)).val % 8 * 8) 8).getLsbD
      (bit % 8) = ports.cfgSetPayload.getLsbD bit := by
    rw [BitVec.getLsbD_extractLsb', decide_eq_true low, Bool.true_and, index]
    congr 1
    omega
  rw [pmpcfg_getLsbD _ inside, pmpcfg_getLsbD _ inside]
  change ((pmp.entry _).step _ _ _ _ _).pmpcfgBit _ = _
  rw [PmpEntry.step_pmpcfgBit _ _ _ _ _ _ low, place]

end Pmp

namespace CsrFile

/-- The registers under any sequence of CSR operations, in any surroundings. -/
def machine : Synchronous CsrFile (Stage × CsrOutside) :=
  ⟨reset, fun file input => file.step input.1 input.2⟩

/-- An entry keeps what its lock bit protects: itself, and the entry below if it is the top of a
range. -/
structure KeepsLocked (before after : Pmp) (index : Fin 8) : Prop where
  own : after.entry index = before.entry index
  former : (before.entry index).lockFormmerEntry = true → ∀ former : Fin 8,
    former.val + 1 = index.val → after.entry former = before.entry former

/-- Once an entry is locked, no sequence of CSR operations changes it, nor the entry below the top
of a locked range. -/
theorem locks_permanent (past rest : List (Stage × CsrOutside)) (index : Fin 8)
    (locked : ((machine.run past).pmp.entry index).pmpcfgL = true) :
    KeepsLocked (machine.run past).pmp (machine.run (past ++ rest)).pmp index := by
  induction rest using List.reverseRecOn with
  | nil =>
    rw [List.append_nil]
    exact ⟨rfl, fun _ _ _ => rfl⟩
  | append_singleton rest input ih =>
    rw [← List.append_assoc, Synchronous.run_snoc]
    have still : ((machine.run (past ++ rest)).pmp.entry index).pmpcfgL = true := by
      rw [ih.own]
      exact locked
    refine ⟨?_, fun range former below => ?_⟩
    · exact (Pmp.step_entry_locked _ _ still).trans ih.own
    · have top : ((machine.run (past ++ rest)).pmp.entry index).lockFormmerEntry = true := by
        rw [ih.own]
        exact range
      exact (Pmp.step_entry_former _ _ below top).trans (ih.former range former below)

/-- A write of the first configuration register that locks entry 1 as the top of a range, and one
that tries to clear it. -/
def lockAndClear : List (Stage × CsrOutside) × List (Stage × CsrOutside) :=
  let write (data : Word) : Stage × CsrOutside :=
    (⟨true, { Issued.blank with
        rs1Data := data
        entry := { RobEntry.blank with csrWrite := true, csrAddress := 0x3a0, func3 := 1 } }⟩,
      ⟨false, 0, 0, 0, false, false, false, false⟩)
  ([write 0x8f00], [write 0])

theorem locks_permanent_clear :
    ((machine.run lockAndClear.1).pmp.entry 1).lockFormmerEntry = true ∧
      KeepsLocked (machine.run lockAndClear.1).pmp
        (machine.run (lockAndClear.1 ++ lockAndClear.2)).pmp 1 :=
  ⟨by decide +kernel, locks_permanent lockAndClear.1 lockAndClear.2 1 (by decide +kernel)⟩

end CsrFile

end GreenRio
