import GreenRio.Sizes
import Mathlib.Data.Nat.Bitwise

set_option autoImplicit false

namespace GreenRio

abbrev Vpn := BitVec 27
abbrev Ppn := BitVec 44

/-- One translation as both TLBs keep it. -/
structure TlbEntry where
  asid : BitVec 16
  vpn : Vpn
  pageLvl : BitVec 2
  ppn : Ppn
  d : Bool
  a : Bool
  g : Bool
  u : Bool
  x : Bool
  w : Bool
  r : Bool
  v : Bool

/-- The fields of an entry that go through the hit multiplexer. -/
structure HitEntry where
  pageLvl : BitVec 2
  ppn : Ppn
  d : Bool
  a : Bool
  g : Bool
  u : Bool
  x : Bool
  w : Bool
  r : Bool

def TlbEntry.hitEntry (entry : TlbEntry) : HitEntry :=
  ⟨entry.pageLvl, entry.ppn, entry.d, entry.a, entry.g, entry.u, entry.x, entry.w, entry.r⟩

/-- The one-hot multiplexer `MuxOH`: with a single select bit set it drives that input. -/
structure MuxOH (n : Nat) (α : Type) where
  output : (Fin n → Bool) → (Fin n → α) → α
  selects : ∀ select data index, (∀ other, select other = true ↔ other = index) →
    output select data = data index

/-- The fault remembered from the last failed refill. -/
structure TlbExcpEntry where
  vpn : Vpn
  asid : BitVec 16
  pageLvl : BitVec 2
  isSt : Bool
  accessFault : Bool
  pageFault : Bool
  v : Bool

/-- A TLB with the request registered in its translate port. -/
structure Tlb where
  entries : Fin 32 → TlbEntry
  excp : TlbExcpEntry
  reqVld : Bool
  reqVpn : Vpn
  reqAsid : BitVec 16
  /-- Only the data TLB keeps it. -/
  reqIsSt : Bool

/-- The privilege and status wires of the memory-management unit. -/
structure MmuStatus where
  privLvl : BitVec 2
  mprv : Bool
  mpp : BitVec 2
  mxr : Bool
  sum : Bool
  satpMode : BitVec 4

/-- What a lookup answers. -/
structure TlbResponse where
  ppn : Ppn
  excpVld : Bool
  excpCause : BitVec 5

/-- Nine copies of each level bit, as the mask loops lay them out. -/
def spreadLevels (enable : BitVec 3) : BitVec 27 :=
  BitVec.replicate 9 (enable.extractLsb' 2 1) ++ BitVec.replicate 9 (enable.extractLsb' 1 1) ++
    BitVec.replicate 9 (enable.extractLsb' 0 1)

def satpModeMask (satpMode : BitVec 4) : BitVec 3 :=
  if satpMode = 8 then 7 else if satpMode = 9 then 7 else if satpMode = 10 then 7 else 0

def genPageAlignmentMask (pageLvl : BitVec 2) : Ppn :=
  (spreadLevels (((1 : BitVec 3) <<< pageLvl) - 1)).setWidth 44

/-- `&(~(left ^ right) | ~mask)`. -/
def vpnEqual (left right mask : Vpn) : Bool :=
  ((~~~(left ^^^ right)) ||| ~~~mask) == BitVec.allOnes 27

/-- The response multiplexers that both TLBs share. -/
def respPpn (skipTranslation hit : Bool) (entry : HitEntry) (vpn : Vpn) : Ppn :=
  if skipTranslation then vpn.setWidth 44
  else if hit then
    (entry.ppn &&& ~~~genPageAlignmentMask entry.pageLvl) |||
      (vpn.setWidth 44 &&& genPageAlignmentMask entry.pageLvl)
  else 0

def superpageAlignmentCheckFail (entry : HitEntry) : Bool :=
  !((entry.ppn &&& genPageAlignmentMask entry.pageLvl) == 0)

namespace Dtlb

variable (mux : MuxOH 32 HitEntry) (tlb : Tlb) (status : MmuStatus)

def effectivePrivLvl : BitVec 2 := if status.mprv then status.mpp else status.privLvl

def skipTranslation : Bool := effectivePrivLvl status == 3 || status.satpMode == 0

/-- The data TLB compares whole page numbers: its mask does not shift by the page level. -/
def genPageVpnMask (satpMode : BitVec 4) : Vpn :=
  spreadLevels (~~~((1 : BitVec 3) - 1) &&& satpModeMask satpMode)

def excpEntryHit : Bool :=
  tlb.reqVld && tlb.excp.v && tlb.reqIsSt == tlb.excp.isSt && tlb.reqAsid == tlb.excp.asid &&
    vpnEqual tlb.reqVpn tlb.excp.vpn (genPageVpnMask status.satpMode)

def entryHit (index : Fin 32) : Bool :=
  tlb.reqVld && (tlb.entries index).v &&
    (tlb.reqAsid == (tlb.entries index).asid || (tlb.entries index).g) &&
    vpnEqual tlb.reqVpn (tlb.entries index).vpn (genPageVpnMask status.satpMode)

def hit : Bool := (List.finRange 32).any (entryHit tlb status)

def hitEntry : HitEntry :=
  mux.output (entryHit tlb status) fun index => (tlb.entries index).hitEntry

def accessPermissionCheckFail : Bool :=
  let entry := hitEntry mux tlb status
  !entry.a || (!entry.d && tlb.reqIsSt) || (!entry.w && tlb.reqIsSt) ||
    (!entry.r && !(status.mxr && entry.x)) ||
    (entry.u && !(effectivePrivLvl status == 0) && !(effectivePrivLvl status == 1 && status.sum))

def checkFail : Bool :=
  superpageAlignmentCheckFail (hitEntry mux tlb status) ||
    accessPermissionCheckFail mux tlb status

def translate : TlbResponse where
  ppn := respPpn (skipTranslation status) (hit tlb status) (hitEntry mux tlb status) tlb.reqVpn
  excpVld := !skipTranslation status &&
    (excpEntryHit tlb status || (hit tlb status && checkFail mux tlb status))
  excpCause :=
    (if !skipTranslation status && (excpEntryHit tlb status && tlb.excp.accessFault)
      then (if tlb.reqIsSt then 7 else 5) else 0) |||
    (if (excpEntryHit tlb status && tlb.excp.pageFault) ||
        (hit tlb status && checkFail mux tlb status)
      then (if tlb.reqIsSt then 15 else 13) else 0)

end Dtlb

namespace Itlb

variable (mux : MuxOH 32 HitEntry) (tlb : Tlb) (status : MmuStatus)

def skipTranslation : Bool := status.privLvl == 3 || status.satpMode == 0

def genPageVpnMask (satpMode : BitVec 4) (pageLvl : BitVec 2) : Vpn :=
  spreadLevels (~~~(((1 : BitVec 3) <<< pageLvl) - 1) &&& satpModeMask satpMode)

def excpEntryHit : Bool :=
  tlb.reqVld && tlb.excp.v && tlb.reqAsid == tlb.excp.asid &&
    vpnEqual tlb.reqVpn tlb.excp.vpn (genPageVpnMask status.satpMode tlb.excp.pageLvl)

def entryHit (index : Fin 32) : Bool :=
  tlb.reqVld && (tlb.entries index).v &&
    (tlb.reqAsid == (tlb.entries index).asid || (tlb.entries index).g) &&
    vpnEqual tlb.reqVpn (tlb.entries index).vpn
      (genPageVpnMask status.satpMode (tlb.entries index).pageLvl)

def hit : Bool := (List.finRange 32).any (entryHit tlb status)

def hitEntry : HitEntry :=
  mux.output (entryHit tlb status) fun index => (tlb.entries index).hitEntry

def accessPermissionCheckFail : Bool :=
  let entry := hitEntry mux tlb status
  !entry.a || !entry.x ||
    (entry.u && !(status.privLvl == 0) && !(status.privLvl == 1 && status.sum))

def checkFail : Bool :=
  superpageAlignmentCheckFail (hitEntry mux tlb status) ||
    accessPermissionCheckFail mux tlb status

def translate : TlbResponse where
  ppn := respPpn (skipTranslation status) (hit tlb status) (hitEntry mux tlb status) tlb.reqVpn
  excpVld := !skipTranslation status &&
    (excpEntryHit tlb status || (hit tlb status && checkFail mux tlb status))
  excpCause :=
    (if !skipTranslation status && (excpEntryHit tlb status && tlb.excp.accessFault)
      then 1 else 0) |||
    (if (excpEntryHit tlb status && tlb.excp.pageFault) ||
        (hit tlb status && checkFail mux tlb status)
      then 12 else 0)

end Itlb

end GreenRio
