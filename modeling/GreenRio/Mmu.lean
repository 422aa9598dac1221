import GreenRio.TlbUnit

set_option autoImplicit false

namespace GreenRio

/-- What stands between the miss requests of the TLBs and `rvh_mmu`: it can only hold them back. -/
structure TlbArbiter where
  grant : (dtlbVld itlbVld : Bool) → Bool × Bool
  dtlb : ∀ dtlbVld itlbVld, (grant dtlbVld itlbVld).1 = true → dtlbVld = true
  itlb : ∀ dtlbVld itlbVld, (grant dtlbVld itlbVld).2 = true → itlbVld = true

/-- `rvh_tlb_arbiter`. -/
def TlbArbiter.prior (dtlbPrior : Bool) : TlbArbiter where
  grant dtlbVld itlbVld :=
    (if dtlbPrior then dtlbVld else dtlbVld && !itlbVld,
      if dtlbPrior then itlbVld && !dtlbVld else itlbVld)
  dtlb := by cases dtlbPrior <;> decide
  itlb := by cases dtlbPrior <;> decide

/-- The requests go to `rvh_mmu` as they are, and meet there. -/
def TlbArbiter.none : TlbArbiter := ⟨fun dtlbVld itlbVld => (dtlbVld, itlbVld), by simp, by simp⟩

/-- The cells and the arbiter that a memory-management unit is built with. -/
structure MmuParts where
  fifo : MultiPortStreamFIFO MissReq
  dtlbEncoder : OH2UInt 4
  itlbEncoder : OH2UInt 1
  arbiter : TlbArbiter

/-- The registers of `rvh_monolithic_mmu`. -/
structure Mmu where
  dtlb : TlbUnit 4
  itlb : TlbUnit 1
  rrArbiter : Bool
  ptw : Ptw

structure MmuInput where
  satpAsid : BitVec 16
  satpPpn : Ppn
  status : MmuStatus
  dtlbReqVld : Bool
  dtlbReqAccessType : BitVec 2
  dtlbReqVpn : Vpn
  itlbReqVld : Bool
  itlbReqVpn : Vpn
  dtlbFlush : TlbFlush
  itlbFlush : TlbFlush
  permissionCheckFail : Bool
  walkReqRdy : Bool
  walkRespVld : Bool
  walkRespPte : Pte
  dtlbEvict : Fin 32
  itlbEvict : Fin 32

namespace Mmu

variable (parts : MmuParts) (mmu : Mmu) (input : MmuInput)

section Requests

/-- What a TLB asks of the walker, apart from whether it asks. -/
def ask {n : Nat} (encoder : OH2UInt n) (unit : TlbUnit n) : TranslateReq where
  transId := unit.mshr.grantTransId encoder
  asid := (unit.mshr.grantReq parts.fifo).asid
  vpn := (unit.mshr.grantReq parts.fifo).vpn
  accessType := (unit.mshr.grantReq parts.fifo).accessType

def arbitrated : Bool × Bool :=
  parts.arbiter.grant (mmu.dtlb.mshr.reqGrantVld parts.fifo) (mmu.itlb.mshr.reqGrantVld parts.fifo)

def dtlbMissReqVld : Bool := (mmu.arbitrated parts).1
def itlbMissReqVld : Bool := (mmu.arbitrated parts).2

def missPortConflict : Bool := mmu.dtlbMissReqVld parts && mmu.itlbMissReqVld parts

def selDtlbReq : Bool :=
  (mmu.dtlbMissReqVld parts && !mmu.missPortConflict parts) ||
    (mmu.missPortConflict parts && !mmu.rrArbiter)

def selItlbReq : Bool :=
  (mmu.itlbMissReqVld parts && !mmu.missPortConflict parts) ||
    (mmu.missPortConflict parts && mmu.rrArbiter)

def dtlbMissReqRdy : Bool := mmu.selDtlbReq parts && mmu.ptw.translateReqRdy
def itlbMissReqRdy : Bool := mmu.selItlbReq parts && mmu.ptw.translateReqRdy

/-- A value under a one-bit mask. -/
def masked {w : Nat} (sel : Bool) (x : BitVec w) : BitVec w := if sel then x else 0

/-- Each field is the or of what the selected ports drive. -/
def translateReq : TranslateReq where
  transId :=
    masked (mmu.selDtlbReq parts) (ask parts parts.dtlbEncoder mmu.dtlb).transId |||
      masked (mmu.selItlbReq parts) (ask parts parts.itlbEncoder mmu.itlb).transId
  asid :=
    masked (mmu.selDtlbReq parts) (ask parts parts.dtlbEncoder mmu.dtlb).asid |||
      masked (mmu.selItlbReq parts) (ask parts parts.itlbEncoder mmu.itlb).asid
  vpn :=
    masked (mmu.selDtlbReq parts) (ask parts parts.dtlbEncoder mmu.dtlb).vpn |||
      masked (mmu.selItlbReq parts) (ask parts parts.itlbEncoder mmu.itlb).vpn
  accessType :=
    masked (mmu.selDtlbReq parts) (ask parts parts.dtlbEncoder mmu.dtlb).accessType |||
      masked (mmu.selItlbReq parts) (ask parts parts.itlbEncoder mmu.itlb).accessType

def ptwInput : PtwInput where
  satpPpn := input.satpPpn
  translateReqVld := mmu.dtlbMissReqVld parts || mmu.itlbMissReqVld parts
  translateReq := mmu.translateReq parts
  permissionCheckFail := input.permissionCheckFail
  walkReqRdy := input.walkReqRdy
  walkRespVld := input.walkRespVld
  walkRespPte := input.walkRespPte

end Requests

section Responses

def translateRespVld : Bool := mmu.ptw.translateRespVld (mmu.ptwInput parts input)

def translateResp : TranslateResp := mmu.ptw.translateResp (mmu.ptwInput parts input)

/-- Reads and writes are answered to the data TLB. -/
def dtlbMissRespVld : Bool :=
  mmu.translateRespVld parts input &&
    ((mmu.translateResp parts input).translateReq.accessType == 0 ||
      (mmu.translateResp parts input).translateReq.accessType == 1)

/-- Fetches are answered to the instruction TLB. -/
def itlbMissRespVld : Bool :=
  mmu.translateRespVld parts input &&
    (mmu.translateResp parts input).translateReq.accessType == 2

def dtlbInput : TlbInput where
  reqVld := input.dtlbReqVld
  reqAccessType := input.dtlbReqAccessType
  reqVpn := input.dtlbReqVpn
  satpAsid := input.satpAsid
  status := input.status
  flush := input.dtlbFlush
  nextLvlReqRdy := mmu.dtlbMissReqRdy parts
  nextLvlRespVld := mmu.dtlbMissRespVld parts input
  nextLvlResp := mmu.translateResp parts input
  evict := input.dtlbEvict

def itlbInput : TlbInput where
  reqVld := input.itlbReqVld
  reqAccessType := 2
  reqVpn := input.itlbReqVpn
  satpAsid := input.satpAsid
  status := input.status
  flush := input.itlbFlush
  nextLvlReqRdy := mmu.itlbMissReqRdy parts
  nextLvlRespVld := mmu.itlbMissRespVld parts input
  nextLvlResp := mmu.translateResp parts input
  evict := input.itlbEvict

end Responses

/-- One clock edge outside reset. -/
def step : Mmu where
  dtlb := mmu.dtlb.step Dtlb.kind parts.fifo (mmu.dtlbInput parts input)
  itlb := mmu.itlb.step Itlb.kind parts.fifo (mmu.itlbInput parts input)
  rrArbiter := if mmu.missPortConflict parts then !mmu.rrArbiter else mmu.rrArbiter
  ptw := mmu.ptw.step (mmu.ptwInput parts input)

/-- The registers that have a reset value. -/
structure Reset : Prop where
  dtlb : mmu.dtlb.Reset
  itlb : mmu.itlb.Reset
  rrArbiter : mmu.rrArbiter = false
  ptw : mmu.ptw.state = .idle

end Mmu

end GreenRio
