import GreenRio.PartSelect
import GreenRio.Synchronous

set_option autoImplicit false

namespace GreenRio.TestIo

/-! Lengths in beats, as `testio_trx` computes them for a link of `tiW` wires. -/

def tiHostCycCom : Nat := 1 + 1 + 1 + 1 - 1
def tiRdAckCyc : Nat := 1 + 1 - 1
def tiAddrCycle (tiW : Nat) : Nat := 32 / tiW
def tiStrbCycle (tiW : Nat) : Nat := if tiW = 1 then 4 / tiW else 1
def tiDataCycle (tiW : Nat) : Nat := 32 / tiW

def tiWrHostCyc (tiW : Nat) : Nat :=
  tiHostCycCom + tiAddrCycle tiW + tiStrbCycle tiW + tiDataCycle tiW

def tiRdHostCyc (tiW : Nat) : Nat := tiHostCycCom + tiAddrCycle tiW
def tiRdTargCyc (tiW : Nat) : Nat := tiRdAckCyc + tiDataCycle tiW
def tiSendBufW (tiW : Nat) : Nat := tiWrHostCyc tiW + 1
def tiRcvBufW (tiW : Nat) : Nat := tiRdTargCyc tiW + 1
def tiMaskW (tiW : Nat) : Nat := if tiW = 1 then 4 else tiW

/-- All wires high, and all wires low. -/
abbrev high (w : Nat) : BitVec w := BitVec.allOnes w
abbrev zeros (w : Nat) : BitVec w := BitVec.ofNat w 0

/-- What the master port of the bus asks for. -/
structure WbmRequest where
  cyc : Bool
  we : Bool
  addr : BitVec 32
  wdata : BitVec 32
  deriving DecidableEq

inductive TiState where
  | idle
  | wrSend
  | wrRcvIdle
  | wrRcvAck
  | wrRcvParity
  | wrRcv
  | rdSend
  | rdRcvIdle
  | rdRcvAck
  | rdRcv
  | resp
  | ackErr
  deriving DecidableEq

/-- The registers of `testio_master_top` and its `testio_trx`. The last four change on the falling
edge of the clock. -/
structure Master (tiW : Nat) where
  currentState : TiState
  preState : TiState
  cycleCounter : BitVec 8
  rffRcvData : BitVec tiW
  rcvBuf : BitVec (tiRcvBufW tiW * tiW)
  sendBuf : BitVec (tiSendBufW tiW * tiW)
  dataOen : BitVec tiW
  rffSendData : BitVec tiW
  rffDataOen : BitVec tiW

section Frames

variable (tiW : Nat) (addr data : BitVec 32)

/-- Start, write, address, strobe, data, parity and stop. -/
def wrSendData : BitVec (tiSendBufW tiW * tiW) :=
  (zeros tiW ++ high tiW ++ addr ++ (0xf#4).setWidth (tiMaskW tiW) ++ data ++ high tiW ++
    high tiW).setWidth _

/-- Start, read, address, parity and stop, filled up with ones. -/
def rdSendData : BitVec (tiSendBufW tiW * tiW) :=
  (zeros tiW ++ zeros tiW ++ addr ++ high tiW ++ high tiW ++
    high ((tiStrbCycle tiW + tiDataCycle tiW) * tiW)).setWidth _

end Frames

namespace Master

variable {tiW : Nat} (master : Master tiW) (req : WbmRequest) (din : BitVec tiW)

def isWrSend : Bool := master.currentState == .wrSend
def isRdSend : Bool := master.currentState == .rdSend
def isRdRcv : Bool := master.currentState == .rdRcv
def isSendMode : Bool := master.isWrSend || master.isRdSend
def isCounterEna : Bool := master.isSendMode || master.isRdRcv
def isStateChanged : Bool := master.currentState != master.preState

/-- `testio_wbm_ack_o`. -/
def ack : Bool := master.currentState == .resp && req.cyc

/-- `ti_send_done` and `ti_rcv_done`. -/
def done : Bool := master.cycleCounter == 0

def sendDataMux : BitVec (tiSendBufW tiW * tiW) :=
  if master.isWrSend then wrSendData tiW req.addr req.wdata else rdSendData tiW req.addr

def cycleCount : BitVec 8 :=
  if master.isWrSend then BitVec.ofNat 8 (tiWrHostCyc tiW)
  else if master.isRdSend then BitVec.ofNat 8 (tiRdHostCyc tiW)
  else if master.isRdRcv then BitVec.ofNat 8 (tiRdTargCyc tiW)
  else 0xff

/-- `ti_dout` of the transceiver. -/
def sendData : BitVec tiW :=
  if master.isSendMode && !master.isStateChanged then
    if master.cycleCounter == 1 then high tiW
    else master.sendBuf.extractLsb' (tiSendBufW tiW * tiW - tiW) tiW
  else high tiW

def nextState : TiState :=
  match master.currentState with
  | .idle => if req.cyc then (if req.we then .wrSend else .rdSend) else .idle
  | .wrSend => if master.done then .wrRcvIdle else .wrSend
  | .wrRcvIdle => if din.getLsbD 0 == false then .wrRcvAck else .wrRcvIdle
  | .wrRcvAck => if din.getLsbD 0 == false then .wrRcvParity else .ackErr
  -- `ti_rcv_parity` is tied to one
  | .wrRcvParity => .wrRcv
  | .wrRcv => if din.getLsbD 0 == true then .resp else .wrRcv
  | .rdSend => if master.done then .rdRcvIdle else .rdSend
  | .rdRcvIdle => if din.getLsbD 0 == false then .rdRcvAck else .rdRcvIdle
  | .rdRcvAck => if din.getLsbD 0 == false then .rdRcv else .ackErr
  | .rdRcv => if master.done then .resp else .rdRcv
  | .resp => if !req.cyc then .idle else .resp
  | .ackErr => .idle

/-- The falling edge. -/
def negedge : Master tiW :=
  { master with
    sendBuf :=
      if master.isStateChanged then master.sendDataMux req
      else if master.isSendMode then master.sendBuf <<< tiW
      else master.sendBuf
    dataOen := if master.isSendMode && !master.done then 0 else high tiW
    rffSendData := master.sendData
    rffDataOen := master.dataOen }

/-- The rising edge. -/
def posedge : Master tiW :=
  { master with
    currentState := master.nextState req din
    preState := master.currentState
    cycleCounter :=
      if master.isStateChanged then master.cycleCount
      else if master.isCounterEna then master.cycleCounter - 1
      else master.cycleCounter
    rffRcvData := din
    rcvBuf :=
      if master.isStateChanged then master.rcvBuf
      else if master.isRdRcv then (master.rcvBuf <<< tiW) ||| master.rffRcvData.setWidth _
      else master.rcvBuf }

/-- `wbm_testio_rdata_o`, without the parity and stop beats below. -/
def respData : BitVec 32 := master.rcvBuf.extractLsb' (2 * tiW) 32

/-- The registers that have a reset value. -/
structure Reset : Prop where
  currentState : master.currentState = .idle
  preState : master.preState = .idle
  cycleCounter : master.cycleCounter = 0xff
  rffRcvData : master.rffRcvData = 0
  rcvBuf : master.rcvBuf = 0
  sendBuf : master.sendBuf = 0
  dataOen : master.dataOen = high tiW
  rffSendData : master.rffSendData = 0
  rffDataOen : master.rffDataOen = high tiW

end Master

/-! The widths of the buffers of `testio_slave_top`. -/

def nStrbBits (tiW : Nat) : Nat := if tiW = 1 then 32 / 8 else tiW

/-- Command, address, strobe, data and parity; the start beat is not kept. -/
def nCmdbufBits (tiW : Nat) : Nat := tiW + 32 + 32 + nStrbBits tiW + tiW

def nPayloadBits (tiW : Nat) : Nat := tiW + tiW + 32 + tiW + tiW

inductive CdcState where
  | idle
  | cmd
  | rreq
  | rrsp
  | wreq
  | wrsp
  | back
  deriving DecidableEq

/-- The registers of `testio_slave_top`. The last two change on the falling edge of the clock. -/
structure Slave (tiW : Nat) where
  dffTestDin : Bool
  testDinEn : Bool
  dffTestDinEn : Bool
  cmdIdx : BitVec 7
  cmdbuf : BitVec (nCmdbufBits tiW)
  ack : BitVec tiW
  payload : BitVec (nPayloadBits tiW)
  cdcst : CdcState
  cyc : Bool
  payloadIdx : BitVec 7
  payloadInProgress : Bool

namespace Slave

variable {tiW : Nat} (slave : Slave tiW) (din : BitVec tiW) (ack : Bool) (rdata : BitVec 32)

/-- High for a write; it is `testio_wbs_we_o` as well. -/
def cmd : Bool := slave.cmdbuf.getLsbD (nCmdbufBits tiW - 1)

def addr : BitVec 32 := slave.cmdbuf.extractLsb' (nCmdbufBits tiW - tiW - 32) 32

def wdata : BitVec 32 :=
  slave.cmdbuf.extractLsb' (nCmdbufBits tiW - tiW - 32 - nStrbBits tiW - 32) 32

def testDoen : BitVec tiW := if slave.payloadInProgress then 0 else high tiW

def testDout : BitVec tiW :=
  if slave.payloadInProgress then
    slave.payload.extractLsb' (nPayloadBits tiW - tiW - slave.payloadIdx.toNat) tiW
  else high tiW

/-- A falling edge of the line while this end does not drive it. -/
def starts : Bool := slave.testDoen != 0 && (slave.dffTestDin && din == 0)

/-- `rff_payload_idx` of the last beat of a reply. -/
def payloadEnd : Nat := if slave.cmd then tiW + tiW + tiW + tiW - tiW else nPayloadBits tiW - tiW

def payloadLoad : BitVec (nPayloadBits tiW) :=
  if slave.cmd then (zeros tiW ++ slave.ack ++ high tiW ++ (0xffffffff : BitVec 32)).setWidth _
  else (zeros tiW ++ slave.ack.replicate tiW ++ rdata ++ high tiW ++ high tiW).setWidth _

def nextCdcst : CdcState :=
  match slave.cdcst with
  | .idle => if slave.dffTestDinEn && !slave.testDinEn then .cmd else .idle
  | .cmd => if slave.cmd then .wreq else .rreq
  | .rreq => .rrsp
  | .rrsp => if ack then .back else .rrsp
  | .wreq => .wrsp
  | .wrsp => if ack then .back else .wrsp
  | .back => if !slave.payloadInProgress then .idle else .back

/-- The falling edge. -/
def negedge : Slave tiW :=
  { slave with
    payloadIdx :=
      if ack then 0
      else if slave.payloadInProgress then slave.payloadIdx + BitVec.ofNat 7 tiW
      else slave.payloadIdx
    payloadInProgress :=
      if ack then true
      else if slave.payloadIdx.toNat == slave.payloadEnd then false
      else slave.payloadInProgress }

/-- The rising edge. -/
def posedge : Slave tiW :=
  { slave with
    dffTestDin := din.getLsbD 0
    dffTestDinEn := slave.testDinEn
    cmdIdx :=
      if slave.cmdIdx.toNat == tiW - 1 then BitVec.ofNat 7 (nCmdbufBits tiW - 1)
      else if slave.testDinEn then slave.cmdIdx - BitVec.ofNat 7 tiW
      else if slave.starts din then slave.cmdIdx
      else BitVec.ofNat 7 (nCmdbufBits tiW - 1)
    testDinEn :=
      if slave.cmdIdx.toNat == tiW - 1 then false
      else if slave.testDinEn then true
      else slave.starts din
    cmdbuf :=
      if slave.starts din || slave.testDinEn then
        PartSelect.put slave.cmdbuf (slave.cmdIdx.toNat + 1 - tiW) din
      else slave.cmdbuf
    ack := 0
    payload := if ack then slave.payloadLoad rdata else slave.payload
    cdcst := slave.nextCdcst ack
    cyc :=
      if ack && (slave.cdcst == .wrsp || slave.cdcst == .rrsp) then false
      else if slave.cdcst == .wreq || slave.cdcst == .rreq then true
      else slave.cyc }

/-- The registers that have a reset value; `ack` is written with zero in every cycle. -/
structure Reset : Prop where
  testDinEn : slave.testDinEn = false
  dffTestDinEn : slave.dffTestDinEn = false
  cmdIdx : slave.cmdIdx = BitVec.ofNat 7 (nCmdbufBits tiW - 1)
  cmdbuf : slave.cmdbuf = 0
  ack : slave.ack = 0
  payload : slave.payload = 0
  cdcst : slave.cdcst = .idle
  cyc : slave.cyc = false
  payloadIdx : slave.payloadIdx = 0
  payloadInProgress : slave.payloadInProgress = false

end Slave

/-- How the ends are connected: each output to the other's input, or both pads to one line that is
pulled up. -/
inductive Wiring where
  | separate
  | shared
  deriving DecidableEq

namespace Wiring

variable {tiW : Nat} (wiring : Wiring) (master : Master tiW) (slave : Slave tiW)

/-- A pad whose output enable is high leaves the line alone. -/
def line : BitVec tiW :=
  (master.rffSendData ||| master.rffDataOen) &&& (slave.testDout ||| slave.testDoen)

def tiI : BitVec tiW :=
  match wiring with
  | .separate => slave.testDout
  | .shared => line master slave

def testDin : BitVec tiW :=
  match wiring with
  | .separate => master.rffSendData
  | .shared => line master slave

end Wiring

/-- Both ends, and the request of the last cycle. -/
structure Link (tiW : Nat) where
  master : Master tiW
  slave : Slave tiW
  held : WbmRequest

structure LinkInput where
  req : WbmRequest
  ack : Bool
  rdata : BitVec 32

namespace Link

variable {tiW : Nat} (wiring : Wiring) (link : Link tiW) (input : LinkInput)

/-- The registers in the second half of a cycle. -/
def low : Link tiW :=
  { link with
    master := link.master.negedge input.req
    slave := link.slave.negedge input.ack }

def tiI : BitVec tiW := wiring.tiI (link.low input).master (link.low input).slave
def testDin : BitVec tiW := wiring.testDin (link.low input).master (link.low input).slave

/-- One cycle of the clock that both ends share. -/
def step : Link tiW where
  master := (link.low input).master.posedge input.req (link.tiI wiring input)
  slave := (link.low input).slave.posedge (link.testDin wiring input) input.ack input.rdata
  held := input.req

def machine (start : Link tiW) : Synchronous (Link tiW) LinkInput := ⟨start, step wiring⟩

structure Reset : Prop where
  master : link.master.Reset
  slave : link.slave.Reset

end Link

end GreenRio.TestIo
