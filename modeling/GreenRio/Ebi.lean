import GreenRio.PartSelect
import GreenRio.Synchronous

set_option autoImplicit false

namespace GreenRio

open PartSelect

/-- What goes over `ebi_o` in one cycle. -/
abbrev Beat := BitVec 16

/-- A cache line. -/
abbrev Line := BitVec 512

/-- All wires high: nothing is sent. -/
def idleBeat : Beat := BitVec.allOnes 16

def hostDr : BitVec 4 := 0
def hostDw1 : BitVec 4 := 1
def hostDw2 : BitVec 4 := 2
def slaveSnpResp1 : BitVec 4 := 3
def slaveSnpResp2 : BitVec 4 := 4
def hostIdle : BitVec 4 := 5
def hostSnpReq : BitVec 4 := 6
def slaveRdResp : BitVec 4 := 7
def slaveAck : BitVec 4 := 15

/-- The registers of the `BUS_OCCUPY` machine, which is the same on both sides. -/
structure BusOccupy where
  /-- `ACCQUIRE_BUS` -/
  currentBusOccupy : Bool
  asking : Bool
  busSwitchO : Bool
  busSwitchOen : Bool
  releaseSignal : Bool
  deriving DecidableEq

namespace BusOccupy

/-- The owner lets go: it is asked to, its transfer machine rests, and no request comes in. -/
def lets (bus : BusOccupy) (busSwitchI idle request : Bool) : Bool :=
  bus.currentBusOccupy && !bus.releaseSignal && (busSwitchI && idle && !request)

def step (bus : BusOccupy) (busSwitchI idle request : Bool) : BusOccupy :=
  if !bus.currentBusOccupy then
    if bus.asking then
      if bus.busSwitchOen && busSwitchI then
        { bus with
          currentBusOccupy := true, asking := false, busSwitchO := false, busSwitchOen := true }
      else { bus with busSwitchOen := true }
    else if request then { bus with busSwitchO := true, asking := true }
    else bus
  else if bus.releaseSignal then
    { bus with
      busSwitchO := false, busSwitchOen := false, releaseSignal := false
      currentBusOccupy := false }
  else if busSwitchI && idle && !request then
    { bus with busSwitchOen := false, busSwitchO := true, releaseSignal := true }
  else bus

end BusOccupy

/-- The registers of `inner_ebi_trx` and `outer_ebi_trx`; they differ in the width of the receive
buffer. The first three change on the falling edge of the clock. -/
structure EbiTrx (width : Nat) where
  sendCounter : Nat
  sendCounterMax : Nat
  ebiOen : Bool
  recvCounter : Nat
  recvCounterMax : Nat
  rcvBuf : BitVec width
  rffRcvData : Beat

/-- The control wires of a `trx` module. -/
structure TrxControl where
  opcode : BitVec 4
  isCounterReload : Bool
  isCounterEna : Bool
  isRdRcv : Bool
  isSendMode : Bool

namespace EbiTrx

variable {width : Nat} (trx : EbiTrx width) (control : TrxControl)

def reset (width : Nat) : EbiTrx width := ⟨0, 0x1f, true, 0, 0x1f, 0, idleBeat⟩

def isCycleCountLeftOne : Bool := trx.sendCounter + 1 == trx.sendCounterMax
def trxRcvStart : Bool := trx.ebiOen && !trx.rffRcvData.getLsbD 0
def trxSendDone : Bool := trx.sendCounter == trx.sendCounterMax
def trxRcvDone : Bool := trx.recvCounter + 1 == trx.recvCounterMax

/-- The falling edge. -/
def negedge (expectedCounterMax : BitVec 4 → Nat) : EbiTrx width :=
  { trx with
    sendCounter :=
      if control.isCounterReload then 0
      else if control.isCounterEna && decide (trx.sendCounter < trx.sendCounterMax) then
        trx.sendCounter + 1
      else trx.sendCounter
    sendCounterMax :=
      if control.isCounterReload then expectedCounterMax control.opcode else trx.sendCounterMax
    ebiOen := !(control.isSendMode && !trx.isCycleCountLeftOne) }

/-- The rising edge. -/
def posedge (headerCounterMax : BitVec 4 → Option Nat) (ebiI : Beat) : EbiTrx width :=
  { trx with
    recvCounter :=
      if control.isCounterReload then 0
      else if control.isCounterEna && decide (trx.recvCounter < trx.recvCounterMax) then
        trx.recvCounter + 1
      else trx.recvCounter
    recvCounterMax :=
      if control.isCounterReload then
        (headerCounterMax (trx.rffRcvData.setWidth 4)).getD trx.recvCounterMax
      else trx.recvCounterMax
    rcvBuf :=
      if control.isRdRcv then put trx.rcvBuf (trx.recvCounter * 16) trx.rffRcvData else trx.rcvBuf
    rffRcvData := ebiI }

def ebiO (isSendMode : Bool) (sendData : BitVec 592) : Beat :=
  if isSendMode then
    if trx.isCycleCountLeftOne || trx.trxSendDone then idleBeat
    else sendData.extractLsb' (16 * trx.sendCounter) 16
  else idleBeat

end EbiTrx

/-! The cycle counts both `trx` modules compute with. -/

def startCycle : Nat := 1
def opcodeCycle : Nat := 1
def addrCycle : Nat := 32 / 16
def dataCycle : Nat := 512 / 16
def arsnoopCycle : Nat := 1
def stopCycle : Nat := 1
def mesistaCycle : Nat := 1
def snReqSnoopCycle : Nat := 1

/-- A buffer with a request: start, opcode, address, and a field of two or four bits. -/
def requestWord (field : Beat) (address : BitVec 32) (opcode : BitVec 4) : BitVec 80 :=
  field ++ address ++ (opcode.setWidth 16 : Beat) ++ (0 : Beat)

/-- A buffer that holds a request, `r_buffer` of the inner side and `snp_buffer` of the outer one. -/
structure RequestBuffer where
  buffer : BitVec 80
  valid : Bool

/-! ### The inner side -/

inductive InnerTrxState where
  | idle | sendAr | waitR | recvR | respR | sendW | waitWack | checkWack
  | recvSnp | waitSnpReqRead | waitSnpResp | sendSnpResp
  deriving DecidableEq

/-- The registers of `W_BUFFER`. -/
structure WriteBuffer where
  wBuffer : BitVec 592
  wBufferValid : Bool
  wdataExist : Bool
  wready : Bool
  wBufFillCount : Nat

/-- The registers of `SNP_BUFFER`. -/
structure SnpBuffer where
  snpBuffer : BitVec 544
  snpBufferValid : Bool
  snpdataExist : Bool
  snpBufFillCount : Nat

structure InnerEbi where
  bus : BusOccupy
  trxCurrentState : InnerTrxState
  trxPreState : InnerTrxState
  read : RequestBuffer
  write : WriteBuffer
  snoop : SnpBuffer
  readCounter : Nat
  trx : EbiTrx 544

structure InnerInput where
  arvalid : Bool
  araddr : BitVec 32
  arsnoop : BitVec 4
  awvalid : Bool
  awaddr : BitVec 32
  awmesi : BitVec 2
  wvalid : Bool
  wdata : BitVec 64
  rready : Bool
  snReqReady : Bool
  snRespValid : Bool
  snRespHasData : Bool
  snRespDat : BitVec 64

namespace InnerEbi

variable (ebi : InnerEbi) (input : InnerInput)

def reset : InnerEbi where
  bus := ⟨true, false, false, true, false⟩
  trxCurrentState := .idle
  trxPreState := .idle
  read := ⟨0, false⟩
  write := ⟨0, false, false, false, 0⟩
  snoop := ⟨0, false, false, 0⟩
  readCounter := 0
  trx := .reset 544

def rvalid : Bool := ebi.trxCurrentState == .respR
def arready : Bool := !ebi.read.valid && ebi.bus.currentBusOccupy
def awready : Bool :=
  !ebi.write.wBufferValid && ebi.bus.currentBusOccupy && !ebi.write.wdataExist
def snReqValid : Bool := ebi.trxCurrentState == .waitSnpReqRead && !ebi.bus.currentBusOccupy
def snRespReady : Bool := ebi.trxCurrentState == .waitSnpResp && !ebi.bus.currentBusOccupy
def mesiSta : BitVec 2 := ebi.trx.rcvBuf.extractLsb' 512 2
def snReqAddr : BitVec 32 := ebi.trx.rcvBuf.extractLsb' 0 32
def snReqSnoop : BitVec 4 := ebi.trx.rcvBuf.extractLsb' 32 4

/-- A request of the cache, which keeps the bus on this side. -/
def request : Bool := input.arvalid || input.awvalid

def rRespDone : Bool := ebi.rvalid && input.rready && ebi.readCounter == 512 / 64 - 1

def trxNextState : InnerTrxState :=
  if ebi.bus.currentBusOccupy then
    match ebi.trxCurrentState with
    | .idle =>
      if ebi.read.valid then .sendAr
      else if ebi.write.wBufferValid then .sendW
      else .idle
    | .sendAr => if ebi.trx.trxSendDone then .waitR else .sendAr
    | .waitR => if ebi.trx.trxRcvStart then .recvR else .waitR
    | .recvR => if ebi.trx.trxRcvDone then .respR else .recvR
    | .respR => if ebi.rRespDone input then .idle else .respR
    | .sendW => if ebi.trx.trxSendDone then .waitWack else .sendW
    | .waitWack => if ebi.trx.trxRcvStart then .checkWack else .waitWack
    | .checkWack => .idle
    | other => other
  else
    match ebi.trxCurrentState with
    | .idle => if ebi.trx.trxRcvStart then .recvSnp else .idle
    | .recvSnp => if ebi.trx.trxRcvDone then .waitSnpReqRead else .recvSnp
    | .waitSnpReqRead =>
      if input.snReqReady && ebi.snReqValid then .waitSnpResp else .waitSnpReqRead
    | .waitSnpResp => if ebi.snoop.snpBufferValid then .sendSnpResp else .waitSnpResp
    | .sendSnpResp => if ebi.trx.trxSendDone then .idle else .sendSnpResp
    | other => other

def isSendMode : Bool :=
  ebi.trxCurrentState == .sendSnpResp || ebi.trxCurrentState == .sendAr ||
    ebi.trxCurrentState == .sendW

def isRdRcv : Bool := ebi.trxCurrentState == .recvR || ebi.trxCurrentState == .recvSnp

def opcode : BitVec 4 :=
  match ebi.trxNextState input with
  | .sendAr => hostDr
  | .sendW => if ebi.write.wdataExist then hostDw1 else hostDw2
  | .sendSnpResp => if ebi.snoop.snpdataExist then slaveSnpResp1 else slaveSnpResp2
  | _ => hostIdle

def control : TrxControl where
  opcode := ebi.opcode input
  isCounterReload := ebi.trxPreState != ebi.trxCurrentState
  isCounterEna := ebi.isSendMode || ebi.isRdRcv
  isRdRcv := ebi.isRdRcv
  isSendMode := ebi.isSendMode

def trxSenddataMux : BitVec 592 :=
  if ebi.trxCurrentState == .sendAr then ebi.read.buffer.setWidth 592
  else if ebi.trxCurrentState == .sendW then ebi.write.wBuffer
  else ebi.snoop.snpBuffer.setWidth 592

def ebiO : Beat := ebi.trx.ebiO ebi.isSendMode ebi.trxSenddataMux

/-- `expected_counter_max`. -/
def expectedCounterMax (opcode : BitVec 4) : Nat :=
  if opcode = hostDr then startCycle + opcodeCycle + addrCycle + arsnoopCycle + stopCycle
  else if opcode = hostDw1 then
    startCycle + opcodeCycle + addrCycle + arsnoopCycle + dataCycle + stopCycle
  else if opcode = hostDw2 then startCycle + opcodeCycle + addrCycle + arsnoopCycle + stopCycle
  else if opcode = slaveSnpResp1 then startCycle + opcodeCycle + dataCycle + stopCycle
  else if opcode = slaveSnpResp2 then startCycle + opcodeCycle + stopCycle
  else 0x3f

/-- The lengths the inner side knows from the header of a frame. -/
def headerCounterMax (header : BitVec 4) : Option Nat :=
  if header = hostSnpReq then
    some (startCycle + opcodeCycle + addrCycle + snReqSnoopCycle + stopCycle - 2)
  else if header = slaveRdResp then
    some (startCycle + opcodeCycle + dataCycle + mesistaCycle + stopCycle - 3)
  else if header = slaveAck then some (startCycle + stopCycle - 2)
  else none

def readNext : RequestBuffer :=
  if input.arvalid && ebi.arready then
    ⟨requestWord (input.arsnoop.setWidth 16) input.araddr hostDr, true⟩
  else if ebi.rRespDone input then { ebi.read with valid := false }
  else ebi.read

def writeNext : WriteBuffer :=
  if ebi.awready && input.awvalid then
    if input.awmesi = 3 then
      ⟨(requestWord (input.awmesi.setWidth 16) input.awaddr hostDw1).setWidth 592,
        ebi.write.wBufferValid, true, true, 0⟩
    else
      { ebi.write with
        wBuffer := (requestWord (input.awmesi.setWidth 16) input.awaddr hostDw2).setWidth 592
        wBufferValid := true
        wdataExist := false }
  else if ebi.write.wready && input.wvalid then
    { ebi.write with
      wBuffer := put ebi.write.wBuffer (16 * 3 + 32 + ebi.write.wBufFillCount * 64) input.wdata
      wBufFillCount := (ebi.write.wBufFillCount + 1) % 32
      wready := !(ebi.write.wBufFillCount == 512 / 64 - 1)
      wBufferValid := ebi.write.wBufferValid || ebi.write.wBufFillCount == 512 / 64 - 1 }
  else if ebi.trxPreState == .waitWack && ebi.trxCurrentState == .checkWack then
    { ebi.write with wBufferValid := false, wdataExist := false }
  else ebi.write

def snoopNext : SnpBuffer :=
  if ebi.snRespReady && input.snRespValid then
    if !input.snRespHasData then
      { ebi.snoop with
        snpBuffer := ((slaveSnpResp2.setWidth 16 : Beat) ++ (0 : Beat)).setWidth 544
        snpBufferValid := true
        snpdataExist := false }
    else
      { snpBufferValid := ebi.snoop.snpBufferValid || ebi.snoop.snpBufFillCount == 512 / 64 - 2
        snpBuffer :=
          if ebi.snoop.snpBufFillCount < 512 / 64 then
            put (put ebi.snoop.snpBuffer 0 ((slaveSnpResp1.setWidth 16 : Beat) ++ (0 : Beat)))
              (2 * 16 + ebi.snoop.snpBufFillCount * 64) input.snRespDat
          else ebi.snoop.snpBuffer
        snpdataExist := ebi.snoop.snpdataExist || decide (ebi.snoop.snpBufFillCount < 512 / 64)
        snpBufFillCount :=
          if ebi.snoop.snpBufFillCount < 512 / 64 then ebi.snoop.snpBufFillCount + 1
          else ebi.snoop.snpBufFillCount }
  else if ebi.trxPreState == .waitSnpResp && ebi.trxCurrentState == .sendSnpResp then
    { ebi.snoop with snpBufFillCount := 0, snpBufferValid := false, snpdataExist := false }
  else ebi.snoop

def readCounterNext : Nat :=
  if ebi.rvalid && input.rready && !ebi.rRespDone input then (ebi.readCounter + 1) % 16
  else if ebi.rRespDone input then 0
  else ebi.readCounter

def negedge : InnerEbi :=
  { ebi with trx := ebi.trx.negedge (ebi.control input) expectedCounterMax }

def posedge (busSwitchI : Bool) (ebiI : Beat) : InnerEbi where
  bus := ebi.bus.step busSwitchI (ebi.trxCurrentState == .idle) (request input)
  trxCurrentState := ebi.trxNextState input
  trxPreState := ebi.trxCurrentState
  read := ebi.readNext input
  write := ebi.writeNext input
  snoop := ebi.snoopNext input
  readCounter := ebi.readCounterNext input
  trx := ebi.trx.posedge (ebi.control input) headerCounterMax ebiI

end InnerEbi

/-! ### The outer side -/

inductive OuterTrxState where
  | idle | sendSnpReq | waitSnpResp | recvSnpResp | readSnpResp | recvWr | checkOpcode
  | forwardRreq | waitRContent | rResp | forwardWreq | forwardWContent | respAck
  deriving DecidableEq

/-- The registers of `R_BUFFER`. -/
structure ReadBuffer where
  rBuffer : BitVec 560
  rBufferValid : Bool
  rBufFillCount : Nat

structure OuterEbi where
  bus : BusOccupy
  trxCurrentState : OuterTrxState
  trxPreState : OuterTrxState
  writeCounter : Nat
  read : ReadBuffer
  snoop : RequestBuffer
  snpRespCounter : Nat
  reqIsRead : Bool
  wHasData : Bool
  snpRespHasdata : Bool
  trx : EbiTrx 560

structure OuterInput where
  arready : Bool
  awready : Bool
  wready : Bool
  rvalid : Bool
  rdata : BitVec 64
  mesiSta : BitVec 2
  snReqValid : Bool
  snReqAddr : BitVec 32
  snReqSnoop : BitVec 4
  snRespReady : Bool

namespace OuterEbi

variable (ebi : OuterEbi) (input : OuterInput)

def reset : OuterEbi where
  bus := ⟨false, false, false, false, false⟩
  trxCurrentState := .idle
  trxPreState := .idle
  writeCounter := 0
  read := ⟨0, false, 0⟩
  snoop := ⟨0, false⟩
  snpRespCounter := 0
  reqIsRead := false
  wHasData := false
  snpRespHasdata := false
  trx := .reset 560

def arvalid : Bool := ebi.trxCurrentState == .forwardRreq && !ebi.bus.currentBusOccupy
def araddr : BitVec 32 := ebi.trx.rcvBuf.extractLsb' 0 32
def arsnoop : BitVec 4 := ebi.trx.rcvBuf.extractLsb' 32 4
def rready : Bool := ebi.trxCurrentState == .waitRContent && !ebi.bus.currentBusOccupy
def awvalid : Bool := ebi.trxCurrentState == .forwardWreq && !ebi.bus.currentBusOccupy
def wvalid : Bool := ebi.trxCurrentState == .forwardWContent && !ebi.bus.currentBusOccupy
def awmesi : BitVec 2 := ebi.trx.rcvBuf.extractLsb' 32 2
def awaddr : BitVec 32 := ebi.trx.rcvBuf.extractLsb' 0 32
def snReqReady : Bool := ebi.trxCurrentState == .idle && ebi.bus.currentBusOccupy
def snRespValid : Bool := ebi.trxCurrentState == .readSnpResp && ebi.bus.currentBusOccupy

def wComplete : Bool := ebi.wvalid && input.wready && ebi.writeCounter == 512 / 64 - 1

def snpRespDone : Bool :=
  ebi.snRespValid && input.snRespReady &&
    (!ebi.snpRespHasdata || (ebi.snpRespHasdata && ebi.snpRespCounter == 512 / 64 - 1))

def trxNextState : OuterTrxState :=
  if ebi.bus.currentBusOccupy then
    match ebi.trxCurrentState with
    | .idle => if ebi.snoop.valid then .sendSnpReq else .idle
    | .sendSnpReq => if ebi.trx.trxSendDone then .waitSnpResp else .sendSnpReq
    | .waitSnpResp => if ebi.trx.trxRcvStart then .recvSnpResp else .waitSnpResp
    | .recvSnpResp => if ebi.trx.trxRcvDone then .readSnpResp else .recvSnpResp
    | .readSnpResp => if ebi.snpRespDone input then .idle else .readSnpResp
    | other => other
  else
    match ebi.trxCurrentState with
    | .idle => if ebi.trx.trxRcvStart then .recvWr else .idle
    | .recvWr => if ebi.trx.trxRcvDone then .checkOpcode else .recvWr
    | .checkOpcode => if ebi.reqIsRead then .forwardRreq else .forwardWreq
    | .forwardRreq => if input.arready && ebi.arvalid then .waitRContent else .forwardRreq
    | .waitRContent => if ebi.read.rBufferValid then .rResp else .waitRContent
    | .rResp => if ebi.trx.trxSendDone then .idle else .rResp
    | .forwardWreq =>
      if ebi.awvalid && input.awready then
        if ebi.wHasData then .forwardWContent else .respAck
      else .forwardWreq
    | .forwardWContent => if ebi.wComplete input then .respAck else .forwardWContent
    | .respAck => if ebi.trx.trxSendDone then .idle else .respAck
    | other => other

def isSendMode : Bool :=
  ebi.trxCurrentState == .sendSnpReq || ebi.trxCurrentState == .rResp ||
    ebi.trxCurrentState == .respAck

def isRdRcv : Bool := ebi.trxCurrentState == .recvSnpResp || ebi.trxCurrentState == .recvWr

def opcode : BitVec 4 :=
  match ebi.trxNextState input with
  | .rResp => slaveRdResp
  | .respAck => slaveAck
  | .sendSnpReq => hostSnpReq
  | _ => hostIdle

def control : TrxControl where
  opcode := ebi.opcode input
  isCounterReload := ebi.trxPreState != ebi.trxCurrentState
  isCounterEna := ebi.isSendMode || ebi.isRdRcv
  isRdRcv := ebi.isRdRcv
  isSendMode := ebi.isSendMode

/-- The default is the frame of an acknowledgement. -/
def trxSenddataMux : BitVec 592 :=
  if ebi.trxCurrentState == .sendSnpReq then ebi.snoop.buffer.setWidth 592
  else if ebi.trxCurrentState == .rResp then ebi.read.rBuffer.setWidth 592
  else (BitVec.allOnes 16 ++ (0 : Beat)).setWidth 592

def ebiO : Beat := ebi.trx.ebiO ebi.isSendMode ebi.trxSenddataMux

/-- `expected_counter_max`. -/
def expectedCounterMax (opcode : BitVec 4) : Nat :=
  if opcode = slaveRdResp then startCycle + opcodeCycle + dataCycle + mesistaCycle + stopCycle
  else if opcode = hostSnpReq then
    startCycle + opcodeCycle + addrCycle + snReqSnoopCycle + stopCycle
  else if opcode = slaveAck then startCycle + stopCycle
  else 0x3f

/-- The lengths the outer side knows from the header of a frame. -/
def headerCounterMax (header : BitVec 4) : Option Nat :=
  if header = hostDr then
    some (startCycle + opcodeCycle + addrCycle + arsnoopCycle + stopCycle - 3)
  else if header = hostDw1 then
    some (startCycle + opcodeCycle + addrCycle + arsnoopCycle + dataCycle + stopCycle - 3)
  else if header = hostDw2 then
    some (startCycle + opcodeCycle + addrCycle + arsnoopCycle + stopCycle - 3)
  else if header = slaveSnpResp1 then some (startCycle + opcodeCycle + dataCycle + stopCycle - 2)
  else if header = slaveSnpResp2 then some (startCycle + opcodeCycle + stopCycle - 2)
  else none

def readNext : ReadBuffer :=
  if input.rvalid && ebi.rready then
    { rBufferValid := ebi.read.rBufferValid || ebi.read.rBufFillCount == 512 / 64 - 2
      rBuffer :=
        if ebi.read.rBufFillCount < 512 / 64 then
          put (put (put ebi.read.rBuffer 0 ((slaveRdResp.setWidth 16 : Beat) ++ (0 : Beat)))
              (2 * 16 + 512) (input.mesiSta.setWidth 16 : Beat))
            (2 * 16 + ebi.read.rBufFillCount * 64) input.rdata
        else ebi.read.rBuffer
      rBufFillCount :=
        if ebi.read.rBufFillCount < 512 / 64 then ebi.read.rBufFillCount + 1
        else ebi.read.rBufFillCount }
  else if ebi.trxPreState == .waitRContent && ebi.trxCurrentState == .rResp then
    { ebi.read with rBufferValid := false }
  else ebi.read

def snoopNext : RequestBuffer :=
  if input.snReqValid && ebi.snReqReady then
    ⟨requestWord (input.snReqSnoop.setWidth 16) input.snReqAddr hostSnpReq, true⟩
  else if ebi.trxPreState == .sendSnpReq && ebi.trxCurrentState == .waitSnpResp then
    { ebi.snoop with valid := false }
  else ebi.snoop

def writeCounterNext : Nat :=
  if ebi.wvalid && input.wready && !ebi.wComplete input then (ebi.writeCounter + 1) % 16
  else if ebi.wComplete input then 0
  else ebi.writeCounter

def snpRespCounterNext : Nat :=
  if ebi.snRespValid && input.snRespReady && ebi.snpRespHasdata then
    if ebi.snpRespCounter < 512 / 64 - 1 then ebi.snpRespCounter + 1 else ebi.snpRespCounter
  else if ebi.trxCurrentState == .idle then 0
  else ebi.snpRespCounter

/-- What the header of a frame says besides its length, read when the state has changed. -/
def headerFlag (flag : Bool) (sets clears : List (BitVec 4)) : Bool :=
  let header := ebi.trx.rffRcvData.setWidth 4
  if ebi.trxPreState != ebi.trxCurrentState then
    if sets.contains header then true else if clears.contains header then false else flag
  else flag

def negedge : OuterEbi :=
  { ebi with trx := ebi.trx.negedge (ebi.control input) expectedCounterMax }

def posedge (busSwitchI : Bool) (ebiI : Beat) : OuterEbi where
  bus := ebi.bus.step busSwitchI (ebi.trxCurrentState == .idle) input.snReqValid
  trxCurrentState := ebi.trxNextState input
  trxPreState := ebi.trxCurrentState
  writeCounter := ebi.writeCounterNext input
  read := ebi.readNext input
  snoop := ebi.snoopNext input
  snpRespCounter := ebi.snpRespCounterNext input
  reqIsRead := ebi.headerFlag ebi.reqIsRead [hostDr] [hostDw1, hostDw2]
  wHasData := ebi.headerFlag ebi.wHasData [hostDw1] [hostDw2]
  snpRespHasdata := ebi.headerFlag ebi.snpRespHasdata [slaveSnpResp1] [slaveSnpResp2]
  trx := ebi.trx.posedge (ebi.control input) headerCounterMax ebiI

end OuterEbi

/-! ### Both sides, wired crosswise -/

structure Ebi where
  inner : InnerEbi
  outer : OuterEbi

structure EbiInput where
  inner : InnerInput
  outer : OuterInput

namespace Ebi

def reset : Ebi := ⟨.reset, .reset⟩

/-- A cycle: both falling edges, then both rising edges. -/
def step (ebi : Ebi) (input : EbiInput) : Ebi :=
  let inner := ebi.inner.negedge input.inner
  let outer := ebi.outer.negedge input.outer
  { inner := inner.posedge input.inner outer.bus.busSwitchO outer.ebiO
    outer := outer.posedge input.outer inner.bus.busSwitchO inner.ebiO }

def machine : Synchronous Ebi EbiInput := ⟨reset, step⟩

end Ebi

end GreenRio
