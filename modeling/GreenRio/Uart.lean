import GreenRio.Clint
import GreenRio.IoGenericFifo
import GreenRio.Synchronous

set_option autoImplicit false

namespace GreenRio

def uartClkFreq : Nat := 50000000

/-- `BAUD_CNT` -/
def baudCntEnd (baudRate : Nat) : Nat := uartClkFreq / baudRate

/-- The bit clock, which `uart_tx` and `uart_rx` have in the same words. -/
structure BaudGen where
  baudCnt : BitVec 9
  bitDone : Bool

def BaudGen.step (baudRate : Nat) (baud : BaudGen) (baudgenEn : Bool) : BaudGen :=
  if baudgenEn then
    if baud.baudCnt.toNat = baudCntEnd baudRate then ⟨0, true⟩ else ⟨baud.baudCnt + 1, false⟩
  else ⟨0, false⟩

inductive UartTxState where
  | idle
  | startBit
  | data
  | parity
  | stopBitFirst
  | stopBitLast
  deriving DecidableEq

/-- The registers of `uart_tx`. -/
structure UartTx where
  cs : UartTxState
  regData : BitVec 8
  regBitCount : BitVec 3
  parityBit : Bool
  baud : BaudGen

structure UartTxInput where
  cfgEnI : Bool
  cfgStopBitsI : Bool
  txDataI : BitVec 8
  txValidI : Bool

namespace UartTx

def reset : UartTx := ⟨.idle, 0xff, 0, false, ⟨0, false⟩⟩

variable (tx : UartTx) (input : UartTxInput)

def txO : Bool :=
  match tx.cs with
  | .startBit => false
  | .data => tx.regData.getLsbD 0
  | .parity => tx.parityBit
  | .idle | .stopBitFirst | .stopBitLast => true

def txReadyO : Bool := tx.cs == .idle && input.cfgEnI

def baudgenEn : Bool := tx.cs != .idle

/-- `NS` -/
def ns : UartTxState :=
  match tx.cs with
  | .idle => if input.txValidI then .startBit else .idle
  | .startBit => if tx.baud.bitDone then .data else .startBit
  | .data => if tx.baud.bitDone && tx.regBitCount == 7 then .parity else .data
  | .parity => if tx.baud.bitDone then .stopBitFirst else .parity
  | .stopBitFirst =>
    if tx.baud.bitDone then if input.cfgStopBitsI then .stopBitLast else .idle else .stopBitFirst
  | .stopBitLast => if tx.baud.bitDone then .idle else .stopBitLast

def sampleData : Bool :=
  match tx.cs with
  | .idle => input.txValidI
  | .data => tx.baud.bitDone && tx.regBitCount != 7
  | .startBit | .parity | .stopBitFirst | .stopBitLast => false

def regDataNext : BitVec 8 :=
  if tx.cs = .idle ∧ input.txValidI then input.txDataI else 1#1 ++ tx.regData.extractLsb' 1 7

def regBitCountNext : BitVec 3 :=
  if tx.cs = .data ∧ tx.baud.bitDone then if tx.regBitCount = 7 then 0 else tx.regBitCount + 1
  else tx.regBitCount

def parityBitNext : Bool :=
  match tx.cs with
  | .startBit => false
  | .data => tx.parityBit ^^ tx.regData.getLsbD 0
  | .idle | .parity | .stopBitFirst | .stopBitLast => tx.parityBit

def step (baudRate : Nat) : UartTx where
  cs := if input.cfgEnI then tx.ns input else .idle
  regData := if tx.sampleData input then tx.regDataNext input else tx.regData
  regBitCount := tx.regBitCountNext
  parityBit := if tx.baud.bitDone then tx.parityBitNext else tx.parityBit
  baud := tx.baud.step baudRate tx.baudgenEn

/-- The byte that goes on the line next, as it is taken. -/
def taken : List (BitVec 8) := if tx.txReadyO input && input.txValidI then [input.txDataI] else []

def machine (baudRate : Nat) : Synchronous UartTx UartTxInput :=
  ⟨reset, fun tx input => tx.step input baudRate⟩

end UartTx

inductive UartRxState where
  | idle
  | startBit
  | data
  | saveData
  | parity
  | stopBit
  deriving DecidableEq

/-- The registers of `uart_rx`, less its parity, which is never compared with that of the line. -/
structure UartRx where
  cs : UartRxState
  regData : BitVec 8
  regRxSync : BitVec 3
  regBitCount : BitVec 3
  baud : BaudGen

structure UartRxInput where
  rxI : Bool
  cfgEnI : Bool
  rxReadyI : Bool

namespace UartRx

def reset : UartRx := ⟨.idle, 0xff, 0b111, 0, ⟨0, false⟩⟩

variable (rx : UartRx) (input : UartRxInput)

def sRxFall : Bool := !rx.regRxSync.getLsbD 1 && rx.regRxSync.getLsbD 2

def rxValidO : Bool := rx.cs == .saveData

def baudgenEn : Bool := if rx.cs = .idle then rx.sRxFall else true

/-- `NS` -/
def ns : UartRxState :=
  match rx.cs with
  | .idle => if rx.sRxFall then .startBit else .idle
  | .startBit => if rx.baud.bitDone then .data else .startBit
  | .data => if rx.baud.bitDone && rx.regBitCount == 7 then .saveData else .data
  | .saveData => if input.rxReadyI then .parity else .saveData
  | .parity => if rx.baud.bitDone then .stopBit else .parity
  | .stopBit => if rx.baud.bitDone then .idle else .stopBit

def sampleData : Bool := rx.cs == .data && rx.baud.bitDone

def regDataNext : BitVec 8 :=
  BitVec.ofBool (rx.regRxSync.getLsbD 2) ++ rx.regData.extractLsb' 1 7

def regBitCountNext : BitVec 3 :=
  if rx.cs = .data ∧ rx.baud.bitDone then if rx.regBitCount = 7 then 0 else rx.regBitCount + 1
  else rx.regBitCount

def step (baudRate : Nat) : UartRx where
  cs := if input.cfgEnI then rx.ns input else .idle
  regData := if rx.sampleData then rx.regDataNext else rx.regData
  regRxSync :=
    if input.cfgEnI then rx.regRxSync.extractLsb' 0 2 ++ BitVec.ofBool input.rxI else 0b111
  regBitCount := rx.regBitCountNext
  baud := rx.baud.step baudRate rx.baudgenEn

/-- The byte that is handed over in a cycle. -/
def stored : List (BitVec 8) := if rx.rxValidO && input.rxReadyI then [rx.regData] else []

def machine (baudRate : Nat) : Synchronous UartRx UartRxInput :=
  ⟨reset, fun rx input => rx.step input baudRate⟩

end UartRx

/-- The registers of `uart`. -/
structure Uart where
  inWatermark : BitVec 3
  inIrqEn : Bool
  stopBitCtrl : Bool
  outEn : Bool
  inEn : Bool
  ackFf : Bool
  fifoTxData : BitVec 8
  txDataReady : Bool
  uartWbmRdataO : BitVec 32
  txFifo : IoGenericFifo 8 (BitVec 8)
  tx : UartTx
  rxFifo : IoGenericFifo 8 (BitVec 8)
  rx : UartRx

structure UartInput where
  wbm : Wishbone.Port
  uartRxI : Bool

namespace Uart

open SocBus

/-- `uart_tx` and `uart_rx` run at their default rate. -/
def uartBaudRate : Nat := 115200

section Wires

variable (uart : Uart) (input : UartInput)

def fifoRxReady : Bool :=
  input.wbm.cyc && input.wbm.addr == uartRxDataAddr && !input.wbm.we

def uartWbmAckO : Bool := uart.ackFf && input.wbm.cyc && input.wbm.stb

def txInput : UartTxInput where
  cfgEnI := uart.outEn
  cfgStopBitsI := uart.stopBitCtrl
  txDataI := uart.txFifo.dataO
  txValidI := uart.txFifo.validO

def rxInput : UartRxInput where
  rxI := input.uartRxI
  cfgEnI := true
  rxReadyI := uart.rxFifo.readyO

def txFifoInput : IoGenericFifoInput (BitVec 8) where
  clrI := false
  readyI := uart.tx.txReadyO uart.txInput
  validI := uart.txDataReady
  dataI := uart.fifoTxData

def rxFifoInput : IoGenericFifoInput (BitVec 8) where
  clrI := false
  readyI := fifoRxReady input
  validI := uart.rx.rxValidO
  dataI := uart.rx.regData

/-- A write to the register at an address. -/
def writes (addr : BitVec 32) : Bool := input.wbm.cyc && input.wbm.addr == addr && input.wbm.we

/-- `ack_ff` after a cycle; the source takes `cyc` for `stb`. -/
def ackFfNext : Bool :=
  if input.wbm.cyc then
    if input.wbm.addr = uartTxDataAddr then true
    else if input.wbm.addr = uartRxDataAddr then (if input.wbm.we then uart.ackFf else true)
    else if input.wbm.addr = uartTxCtrlAddr then true
    else if input.wbm.addr = uartRxCtrlAddr then true
    else false
  else false

def rdataNext : BitVec 32 :=
  if input.wbm.cyc && !input.wbm.we then
    if input.wbm.addr = uartTxDataAddr then 0#24 ++ uart.txFifo.dataO
    else if input.wbm.addr = uartRxDataAddr then
      0#24 ++ if uart.rxFifo.validO then uart.rxFifo.dataO else 0
    else if input.wbm.addr = uartTxCtrlAddr then
      0#30 ++ BitVec.ofBool uart.stopBitCtrl ++ BitVec.ofBool uart.outEn
    else if input.wbm.addr = uartRxCtrlAddr then
      uart.inWatermark ++ BitVec.ofNat 4 uart.rxFifo.elements ++ 0#22 ++
        BitVec.ofBool uart.inIrqEn ++ 0#1 ++ BitVec.ofBool uart.inEn
    else uart.uartWbmRdataO
  else uart.uartWbmRdataO

def txDataReadyNext : Bool :=
  if uart.txFifo.readyO && uart.txDataReady then false
  else if writes input uartTxDataAddr then true
  else uart.txDataReady

def step : Uart where
  inWatermark :=
    if writes input uartRxCtrlAddr then input.wbm.wdata.extractLsb' 29 3 else uart.inWatermark
  inIrqEn := if writes input uartRxCtrlAddr then input.wbm.wdata.getLsbD 2 else uart.inIrqEn
  stopBitCtrl := if writes input uartTxCtrlAddr then input.wbm.wdata.getLsbD 1 else uart.stopBitCtrl
  outEn := if writes input uartTxCtrlAddr then input.wbm.wdata.getLsbD 0 else uart.outEn
  inEn := if writes input uartRxCtrlAddr then input.wbm.wdata.getLsbD 0 else uart.inEn
  ackFf := uart.ackFfNext input
  fifoTxData :=
    if writes input uartTxDataAddr then input.wbm.wdata.extractLsb' 0 8 else uart.fifoTxData
  txDataReady := uart.txDataReadyNext input
  uartWbmRdataO := uart.rdataNext input
  txFifo := uart.txFifo.step uart.txFifoInput
  tx := uart.tx.step uart.txInput uartBaudRate
  rxFifo := uart.rxFifo.step (uart.rxFifoInput input)
  rx := uart.rx.step (uart.rxInput input) uartBaudRate

end Wires

/-- The registers that reset leaves alone keep what they had. -/
def reset (fifoTxData : BitVec 8) (uartWbmRdataO : BitVec 32) : Uart where
  inWatermark := 1
  inIrqEn := true
  stopBitCtrl := false
  outEn := true
  inEn := true
  ackFf := false
  fifoTxData := fifoTxData
  txDataReady := false
  uartWbmRdataO := uartWbmRdataO
  txFifo := .reset (by decide) 0
  tx := .reset
  rxFifo := .reset (by decide) 0
  rx := .reset

def machine (fifoTxData : BitVec 8) (uartWbmRdataO : BitVec 32) : Synchronous Uart UartInput where
  reset := reset fifoTxData uartWbmRdataO
  step := step

/-- The bytes that enter the queue of the transmitter. -/
def sent (uart : Uart) (_ : UartInput) : List (BitVec 8) :=
  (uart.txFifo.exchange uart.txFifoInput).pushed

/-- The bytes that leave the queue of the receiver: one in every cycle in which a read of
`UART_RX_DATA_ADDR` is on the port, the cycle of its acknowledgement included. -/
def drained (uart : Uart) (input : UartInput) : List (BitVec 8) :=
  (uart.rxFifo.exchange (uart.rxFifoInput input)).leaving uart.rxFifo.contents

/-- The bytes that the transmitter takes. -/
def begun (uart : Uart) (_ : UartInput) : List (BitVec 8) := uart.tx.taken uart.txInput

/-- The bytes that the receiver has put together. -/
def stored (uart : Uart) (input : UartInput) : List (BitVec 8) :=
  uart.rx.stored (uart.rxInput input)

/-- The interconnect's model of the acknowledge register is the one of the whole peripheral. -/
theorem step_ackFf {uart : Uart} {bus : SocBus} (same : bus.uartAckFf = uart.ackFf)
    (soc : SocInput) (uartRxI : Bool) :
    (uart.step ⟨bus.port soc, uartRxI⟩).ackFf = (bus.step soc).uartAckFf := by
  change uart.ackFfNext ⟨bus.port soc, uartRxI⟩ = bus.uartAckFfNext soc
  rw [ackFfNext, uartAckFfNext, same]
  cases (bus.port soc).cyc
  · rfl
  · simp only [if_true, Bool.true_and]
    split_ifs <;> simp_all

end Uart

end GreenRio
