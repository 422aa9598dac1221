import GreenRio.Plic

set_option autoImplicit false

namespace GreenRio

/-- The registers of `clint`. -/
structure Clint where
  mtime : BitVec 64
  mtimecmp : BitVec 64
  msip : Bool
  stime : BitVec 64
  stimecmp : BitVec 64
  ssip : Bool
  ackFf : Bool

namespace Clint

def mtimecmpAddr : BitVec 32 := 0x02000500
def mtimeAddr : BitVec 32 := 0x02000508
def msipAddr : BitVec 32 := 0x02000510
def stimecmpAddr : BitVec 32 := 0x02000520
def stimeAddr : BitVec 32 := 0x02000528
def ssipAddr : BitVec 32 := 0x02000530

def reset : Clint where
  mtime := 0
  mtimecmp := 0xffff
  msip := false
  stime := 0
  stimecmp := 0xffff
  ssip := false
  ackFf := false

section Signals

variable (clint : Clint) (port : Wishbone.Port)

/-- The halves by address, in the order of the case statements. -/
def halves : List (BitVec 32 × BitVec 32) :=
  [(mtimecmpAddr, clint.mtimecmp.extractLsb' 0 32),
    (mtimecmpAddr + 4, clint.mtimecmp.extractLsb' 32 32),
    (msipAddr, (BitVec.ofBool clint.msip).setWidth 32),
    (mtimeAddr, clint.mtime.extractLsb' 0 32),
    (mtimeAddr + 4, clint.mtime.extractLsb' 32 32),
    (stimecmpAddr, clint.stimecmp.extractLsb' 0 32),
    (stimecmpAddr + 4, clint.stimecmp.extractLsb' 32 32),
    (ssipAddr, (BitVec.ofBool clint.ssip).setWidth 32),
    (stimeAddr, clint.stime.extractLsb' 0 32),
    (stimeAddr + 4, clint.stime.extractLsb' 32 32)]

/-- A bus cycle that reaches the case statements. -/
def accessed : Bool := port.stb && port.cyc && !clint.ackFf

/-- `rdata`. -/
def rdata : BitVec 32 :=
  if clint.accessed port && !port.we then (clint.halves.lookup port.addr).getD 0 else 0

def writes (address : BitVec 32) : Bool := clint.accessed port && port.we && port.addr == address

/-- The next value of a register of 64 bits at `address`, given the one it takes by itself. -/
def stored (address : BitVec 32) (value default : BitVec 64) : BitVec 64 :=
  if clint.writes port address then value.extractLsb' 32 32 ++ port.wdata
  else if clint.writes port (address + 4) then port.wdata ++ value.extractLsb' 0 32
  else default

/-- One clock edge outside reset. -/
def step : Clint where
  mtime := clint.stored port mtimeAddr clint.mtime (clint.mtime + 1)
  mtimecmp := clint.stored port mtimecmpAddr clint.mtimecmp clint.mtimecmp
  msip := if clint.writes port msipAddr then port.wdata.getLsbD 0 else clint.msip
  stime := clint.stored port stimeAddr clint.stime (clint.stime + 1)
  stimecmp := clint.stored port stimecmpAddr clint.stimecmp clint.stimecmp
  ssip := if clint.writes port ssipAddr then port.wdata.getLsbD 0 else clint.ssip
  ackFf := clint.accessed port && (clint.halves.lookup port.addr).isSome

/-- `clint_wbm_ack_o`. -/
def wbmAck : Bool := port.cyc && clint.ackFf

end Signals

end Clint

/-- The masters of `wbinterconnect`, `M1` to `M3`. -/
inductive BusMaster where
  | testio
  | core
  | caravel
  deriving DecidableEq

/-- `next_master`. -/
def BusMaster.next : BusMaster → BusMaster
  | testio => core
  | core => caravel
  | caravel => testio

/-- A transaction that `wbinterconnect` routes to `clint`. -/
structure ClintTransaction extends Wishbone.Lines where
  routed : addr.extractLsb' 8 4 = 5

/-- `wbinterconnect` with its slaves and with what each master is waiting for. Of `uart` and `crg`
only the acknowledge registers are here. -/
structure SocBus where
  currentMaster : BusMaster
  slaveSelect : BitVec 4
  clint : Clint
  plic : Plic
  uartAckFf : Bool
  crgAckFf : Bool
  outstanding : BusMaster → Option ClintTransaction

/-- What the masters start in a cycle, their lines when they are idle, and what else reaches the
slaves. -/
structure SocInput where
  start : BusMaster → Option ClintTransaction
  idle : BusMaster → Wishbone.Lines
  irq : IrqSource → Bool
  uartRdata : BitVec 32
  crgRdata : BitVec 32

namespace SocBus

def uartTxDataAddr : BitVec 32 := 0x02000300
def uartRxDataAddr : BitVec 32 := 0x02000304
def uartTxCtrlAddr : BitVec 32 := 0x02000308
def uartRxCtrlAddr : BitVec 32 := 0x0200030c
def crgCtrlAddr : BitVec 32 := 0x02000400

section Signals

variable (bus : SocBus) (input : SocInput)

def asked (master : BusMaster) : Option ClintTransaction :=
  Wishbone.request (bus.outstanding master) (input.start master)

/-- `current_wbs_cyc` and what else of the current master goes to all slaves. -/
def port : Wishbone.Port :=
  Wishbone.drive ClintTransaction.toLines (bus.asked input bus.currentMaster)
    (input.idle bus.currentMaster)

/-- `ack_ff` of `uart` after a cycle; the source takes `cyc` for `stb`. -/
def uartAckFfNext : Bool :=
  (bus.port input).cyc &&
    if (bus.port input).addr = uartTxDataAddr then true
    else if (bus.port input).addr = uartRxDataAddr then
      (if (bus.port input).we then bus.uartAckFf else true)
    else if (bus.port input).addr = uartTxCtrlAddr then true
    else (bus.port input).addr == uartRxCtrlAddr

/-- `ack_ff` of `crg` after a cycle. -/
def crgAckFfNext : Bool := (bus.port input).stb && (bus.port input).addr == crgCtrlAddr

def plicInput : PlicInput := PlicInput.ofPort input.irq (bus.port input)

/-- `current_wbs_ack`. -/
def currentAck : Bool :=
  if bus.slaveSelect = 5 then bus.clint.wbmAck (bus.port input)
  else if bus.slaveSelect = 1 then bus.plic.wbmAck (bus.plicInput input)
  else if bus.slaveSelect = 3 then (bus.port input).cyc && bus.uartAckFf
  else if bus.slaveSelect = 4 then (bus.port input).cyc && bus.crgAckFf
  else false

/-- `current_wbs_rdata`, which all masters see. -/
def currentRdata : BitVec 32 :=
  if bus.slaveSelect = 5 then bus.clint.rdata (bus.port input)
  else if bus.slaveSelect = 1 then bus.plic.plicWbmRdata
  else if bus.slaveSelect = 3 then input.uartRdata
  else if bus.slaveSelect = 4 then input.crgRdata
  else 0

/-- `wbs_testio_ack_o`, `wbs_core_ack_o` and `wbs_caravel_ack_o`. -/
def ack (master : BusMaster) : Bool := master == bus.currentMaster && bus.currentAck input

/-- One clock edge outside reset. -/
def step : SocBus where
  currentMaster := if (bus.port input).cyc then bus.currentMaster else bus.currentMaster.next
  slaveSelect := (bus.port input).addr.extractLsb' 8 4
  clint := bus.clint.step (bus.port input)
  plic := bus.plic.step (bus.plicInput input)
  uartAckFf := bus.uartAckFfNext input
  crgAckFf := bus.crgAckFfNext input
  outstanding master :=
    Wishbone.outstandingNext (bus.outstanding master) (input.start master) (bus.ack input master)

/-- The transaction that is acknowledged in a cycle, if any. -/
def acknowledged : Option ClintTransaction :=
  if bus.currentAck input then bus.asked input bus.currentMaster else none

end Signals

/-- The slaves are reset; where the interconnect stands is left open. -/
def reset (master : BusMaster) (select : BitVec 4) : SocBus where
  currentMaster := master
  slaveSelect := select
  clint := Clint.reset
  plic := Plic.reset
  uartAckFf := false
  crgAckFf := false
  outstanding _ := none

def machine (master : BusMaster) (select : BitVec 4) : Synchronous SocBus SocInput :=
  ⟨reset master select, step⟩

end SocBus

end GreenRio
