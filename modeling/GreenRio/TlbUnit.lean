import GreenRio.Mshr
import GreenRio.Ptw

set_option autoImplicit false

namespace GreenRio

open Oldest2Abitter (lowest ofBits)

/-- The flush port of a TLB. -/
structure TlbFlush where
  vld : Bool
  useAsid : Bool
  useVpn : Bool
  vpn : Vpn
  asid : BitVec 16
  deriving DecidableEq

/-- A flush without a page and without an address space. -/
def TlbFlush.full (flush : TlbFlush) : Bool := flush.vld && !flush.useAsid && !flush.useVpn

/-- A response of the walker, registered on its way to the entries. -/
structure TlbRefill where
  transId : BitVec 3
  asid : BitVec 16
  pte : Pte
  pageLvl : BitVec 2
  vpn : Vpn
  excpVld : Bool
  entryMask : BitVec 32
  deriving DecidableEq

/-- The registers of a TLB with `n` miss-status entries. -/
structure TlbUnit (n : Nat) where
  tlb : Tlb
  respVldQ : Bool
  respQ : TlbRefill
  mshr : Mshr n
  flushGrant : Bool

structure TlbInput where
  reqVld : Bool
  reqAccessType : BitVec 2
  reqVpn : Vpn
  satpAsid : BitVec 16
  status : MmuStatus
  flush : TlbFlush
  nextLvlReqRdy : Bool
  nextLvlRespVld : Bool
  nextLvlResp : TranslateResp
  /-- The entry the PLRU would give up. -/
  evict : Fin 32

/-- What the two TLBs do differently. -/
structure TlbKind (n : Nat) where
  mshrSome : 0 < n
  mshrFew : n ≤ 8
  /-- `translate_req_rdy_o`, given `exist_inflight_req`. -/
  reqRdy : Bool → Bool
  isSt : BitVec 2 → Bool
  missAccessType : (isSt : Bool) → BitVec 2
  vpnMask : (satpMode : BitVec 4) → (pageLvl : BitVec 2) → Vpn
  skipTranslation : MmuStatus → Bool
  excpEntryHit : Tlb → MmuStatus → Bool
  entryHit : Tlb → MmuStatus → Fin 32 → Bool

def Dtlb.kind : TlbKind 4 where
  mshrSome := by decide
  mshrFew := by decide
  reqRdy _ := true
  isSt accessType := accessType == 1
  missAccessType isSt := if isSt then 1 else 0
  vpnMask satpMode _ := Dtlb.genPageVpnMask satpMode
  skipTranslation := Dtlb.skipTranslation
  excpEntryHit := Dtlb.excpEntryHit
  entryHit := Dtlb.entryHit

def Itlb.kind : TlbKind 1 where
  mshrSome := by decide
  mshrFew := by decide
  reqRdy existInflightReq := !existInflightReq
  isSt _ := false
  missAccessType _ := 2
  vpnMask := Itlb.genPageVpnMask
  skipTranslation := Itlb.skipTranslation
  excpEntryHit := Itlb.excpEntryHit
  entryHit := Itlb.entryHit

/-- The entry that a registered response fills. -/
def TlbRefill.entry (refill : TlbRefill) (v : Bool) : TlbEntry where
  asid := refill.asid
  vpn := refill.vpn
  pageLvl := refill.pageLvl
  ppn := refill.pte.ppn
  d := refill.pte.getLsbD 7
  a := refill.pte.getLsbD 6
  g := refill.pte.getLsbD 5
  u := refill.pte.getLsbD 4
  x := refill.pte.getLsbD 3
  w := refill.pte.getLsbD 2
  r := refill.pte.getLsbD 1
  v := v

/-- An entry that holds nothing. -/
def TlbEntry.clear : TlbEntry :=
  ⟨0, 0, 0, 0, false, false, false, false, false, false, false, false⟩

/-- The empty TLB but for one entry, which all places hold. -/
def TlbUnit.holding (n : Nat) (entry : TlbEntry) : TlbUnit n where
  tlb :=
    { entries := fun _ => entry
      excp := ⟨0, 0, 0, false, false, false, false⟩
      reqVld := false
      reqVpn := 0
      reqAsid := 0
      reqIsSt := false }
  respVldQ := false
  respQ := ⟨0, 0, 0, 0, 0, false, 0⟩
  mshr := ⟨0, fun _ => 0, []⟩
  flushGrant := false

namespace TlbUnit

variable {n : Nat} (kind : TlbKind n) (fifo : MultiPortStreamFIFO MissReq)
variable (unit : TlbUnit n) (input : TlbInput)

section Translate

def hit : Bool := (List.finRange 32).any (kind.entryHit unit.tlb input.status)

def respHit : Bool :=
  kind.excpEntryHit unit.tlb input.status || unit.hit kind input ||
    kind.skipTranslation input.status

def missReqVld : Bool := unit.tlb.reqVld && !unit.respHit kind input

def missReq : MissReq :=
  ⟨kind.missAccessType unit.tlb.reqIsSt, unit.tlb.reqVpn, unit.tlb.reqAsid⟩

def mshrInput : MshrInput where
  missReqVld := unit.missReqVld kind input
  missReq := unit.missReq kind
  grantRdy := input.nextLvlReqRdy
  responseVld := unit.respVldQ
  responseTransId := unit.respQ.transId

def reqFire : Bool :=
  kind.reqRdy (unit.mshr.existInflightReq (unit.mshrInput kind input)) && input.reqVld

end Translate

section Refill

def refillExceptionEntry : Bool :=
  input.nextLvlRespVld && (input.nextLvlResp.accessFault || input.nextLvlResp.pageFault)

def refillEntry : Bool := unit.respVldQ && !unit.respQ.excpVld

def entryVldSet (i : Fin 32) : Bool := unit.refillEntry && unit.respQ.entryMask.getLsbD i

/-- `dtlb_entry_vld_clean` and `itlb_entry_vld_clean`, for the content of an entry. -/
def clean (flush : TlbFlush) (satpMode : BitVec 4) (entry : TlbEntry) : Bool :=
  let mask := kind.vpnMask satpMode entry.pageLvl
  flush.vld &&
    ((!entry.g &&
        ((flush.useAsid && flush.useVpn &&
            (entry.asid == flush.asid && vpnEqual entry.vpn flush.vpn mask)) ||
          (flush.useAsid && !flush.useVpn && entry.asid == flush.asid) ||
          (!flush.useAsid && flush.useVpn && vpnEqual entry.vpn flush.vpn mask))) ||
      (!flush.useAsid && !flush.useVpn))

def entryVldClean (i : Fin 32) : Bool :=
  clean kind input.flush input.status.satpMode (unit.tlb.entries i)

def entryNext (i : Fin 32) : TlbEntry :=
  let set := unit.entryVldSet i
  let clean := unit.entryVldClean kind input i
  if set then unit.respQ.entry (set && !clean)
  else if clean then { unit.tlb.entries i with v := set && !clean } else unit.tlb.entries i

def excpNext : TlbExcpEntry :=
  let set := refillExceptionEntry input
  let clean := input.flush.vld
  let resp := input.nextLvlResp
  if set then
    { vpn := resp.translateReq.vpn
      asid := resp.translateReq.asid
      pageLvl := resp.pageLvl
      isSt := kind.isSt resp.translateReq.accessType
      accessFault := resp.accessFault
      pageFault := resp.pageFault
      v := set && !clean }
  else if clean then { unit.tlb.excp with v := set && !clean } else unit.tlb.excp

/-- The valid bits of the entries as one vector. -/
def entryValid : BitVec 32 := ofBits (fun i => (unit.tlb.entries (Fin.ofNat 32 i)).v) 32

def refillEntryMask : BitVec 32 :=
  if ~~~unit.entryValid != 0 then lowest (~~~unit.entryValid)
  else BitVec.twoPow 32 input.evict

def refillNext : TlbRefill where
  transId := input.nextLvlResp.translateReq.transId
  asid := input.nextLvlResp.translateReq.asid
  pte := input.nextLvlResp.pte
  pageLvl := input.nextLvlResp.pageLvl
  vpn := input.nextLvlResp.translateReq.vpn
  excpVld := refillExceptionEntry input
  entryMask := unit.refillEntryMask input

end Refill

/-- One clock edge outside reset. -/
def step : TlbUnit n where
  tlb :=
    { entries := unit.entryNext kind input
      excp := unit.excpNext kind input
      reqVld := unit.reqFire kind input
      reqVpn := if unit.reqFire kind input then input.reqVpn else unit.tlb.reqVpn
      reqAsid := if unit.reqFire kind input then input.satpAsid else unit.tlb.reqAsid
      reqIsSt :=
        if unit.reqFire kind input then kind.isSt input.reqAccessType else unit.tlb.reqIsSt }
  respVldQ := input.nextLvlRespVld
  respQ := if input.nextLvlRespVld then unit.refillNext input else unit.respQ
  mshr := unit.mshr.step fifo (unit.mshrInput kind input)
  flushGrant := input.flush.vld

/-- An entry stays or becomes valid unless the flush cleans it. -/
theorem entryNext_v (i : Fin 32) :
    (unit.entryNext kind input i).v =
      ((unit.entryVldSet i || (unit.tlb.entries i).v) && !unit.entryVldClean kind input i) := by
  rw [entryNext]
  cases set : unit.entryVldSet i <;> cases clean : unit.entryVldClean kind input i <;>
    simp [TlbRefill.entry]

/-- The registers that have a reset value. -/
structure Reset : Prop where
  entries : ∀ i, (unit.tlb.entries i).v = false
  excp : unit.tlb.excp.v = false
  reqVld : unit.tlb.reqVld = false
  respVldQ : unit.respVldQ = false
  entryVld : unit.mshr.entryVld = 0
  grantBuffer : unit.mshr.grantBuffer = []
  flushGrant : unit.flushGrant = false

end TlbUnit

end GreenRio
