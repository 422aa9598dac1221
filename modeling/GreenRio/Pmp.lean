import GreenRio.Arbiter
import GreenRio.Instruction

set_option autoImplicit false

namespace GreenRio

open Oldest2Abitter (ofBits)

/-- The registers of one `rvh_pmp_entry`. -/
structure PmpEntry where
  pmpcfgL : Bool
  pmpcfgA : BitVec 2
  pmpcfgX : Bool
  pmpcfgW : Bool
  pmpcfgR : Bool
  pmpaddr : BitVec 54

/-- The configuration port of `rvh_pmp`. -/
structure PmpPorts where
  cfgSetVld : Bool
  cfgSetAddr : BitVec 3
  cfgSetPayload : Word
  addrSetVld : Bool
  addrSetAddr : BitVec 6
  addrSetPayload : Word

namespace PmpEntry

def reset : PmpEntry := ⟨false, 0, false, false, false, 0⟩

section Signals

variable (entry : PmpEntry)

/-- `pmpaddr_o`. -/
def pmpaddrO : Word := 0#8 ++ entry.pmpaddr ++ 0#2

/-- A bit of `pmpcfg_o`. -/
def pmpcfgBit : Nat → Bool
  | 0 => entry.pmpcfgR
  | 1 => entry.pmpcfgW
  | 2 => entry.pmpcfgX
  | 3 => entry.pmpcfgA.getLsbD 0
  | 4 => entry.pmpcfgA.getLsbD 1
  | 7 => entry.pmpcfgL
  | _ => false

/-- `lock_formmer_entry_o`. -/
def lockFormmerEntry : Bool := entry.pmpcfgA == 1 && entry.pmpcfgL

/-- One clock edge outside reset. -/
def step (cfgSetVld : Bool) (cfgSetPayload : BitVec 8) (addrSetVld : Bool) (addrSetPayload : Word)
    (lockFromLatterEntry : Bool) : PmpEntry :=
  let pmpaddrClkEn := addrSetVld && !entry.pmpcfgL && !lockFromLatterEntry
  let pmpcfgClkEn := cfgSetVld && !entry.pmpcfgL && !lockFromLatterEntry
  { pmpcfgL := if pmpcfgClkEn then cfgSetPayload.getLsbD 7 else entry.pmpcfgL
    pmpcfgA := if pmpcfgClkEn then cfgSetPayload.extractLsb' 3 2 else entry.pmpcfgA
    pmpcfgX := if pmpcfgClkEn then cfgSetPayload.getLsbD 2 else entry.pmpcfgX
    pmpcfgW := if pmpcfgClkEn then cfgSetPayload.getLsbD 1 else entry.pmpcfgW
    pmpcfgR := if pmpcfgClkEn then cfgSetPayload.getLsbD 0 else entry.pmpcfgR
    pmpaddr := if pmpaddrClkEn then addrSetPayload.extractLsb' 2 54 else entry.pmpaddr }

end Signals

end PmpEntry

/-- The `PMP_ENTRY_COUNT` entries of `rvh_pmp`. -/
structure Pmp where
  entry : Fin 8 → PmpEntry

namespace Pmp

def reset : Pmp := ⟨fun _ => PmpEntry.reset⟩

variable (pmp : Pmp)

/-- The only word of `pmpcfg`, eight bits for each entry. -/
def pmpcfg : Word :=
  ofBits (fun bit => (pmp.entry (Fin.ofNat 8 (bit / 8))).pmpcfgBit (bit % 8)) 64

/-- `cfg_origin_payload_o`; beyond the array the source leaves it undefined. -/
def cfgOriginPayload (cfgSetAddr : BitVec 3) : Word := if cfgSetAddr = 0 then pmp.pmpcfg else 0

/-- `addr_origin_payload_o`; beyond the array the source leaves it undefined. -/
def addrOriginPayload (addrSetAddr : BitVec 6) : Word :=
  if inside : addrSetAddr.toNat < 8 then (pmp.entry ⟨addrSetAddr.toNat, inside⟩).pmpaddrO else 0

/-- `pmp_entry_lock_from_latter_entry`. -/
def lockFromLatterEntry (index : Fin 8) : Bool :=
  if inside : index.val + 1 < 8 then (pmp.entry ⟨index.val + 1, inside⟩).lockFormmerEntry
  else false

/-- One clock edge outside reset. -/
def step (ports : PmpPorts) : Pmp where
  entry index :=
    (pmp.entry index).step (ports.cfgSetVld && ports.cfgSetAddr == 0)
      (ports.cfgSetPayload.extractLsb' (index.val % 8 * 8) 8)
      (ports.addrSetVld && ports.addrSetAddr.toNat == index.val) ports.addrSetPayload
      (pmp.lockFromLatterEntry index)

end Pmp

end GreenRio
