import GreenRio.Synchronous
import GreenRio.Wishbone

set_option autoImplicit false

namespace GreenRio

/-- The two interrupt sources, with the identifiers 1 and 2. -/
inductive IrqSource where
  | uart
  | gpio
  deriving DecidableEq

/-- The registers of `plic`; an array over the identifiers is a function of the source. -/
structure Plic where
  irqPriority : IrqSource → BitVec 3
  gatewayBlocking : IrqSource → Bool
  ip : IrqSource → Bool
  enable : IrqSource → Bool
  irqThreshold : BitVec 3
  irqResponse : BitVec 2
  ipRestore : Bool
  gatewayRestore : Bool
  restoreGatewayId : BitVec 3
  ackFf : Bool
  plicWbmRdata : BitVec 32

structure PlicInput where
  irq : IrqSource → Bool
  cyc : Bool
  stb : Bool
  addr : BitVec 32
  wdata : BitVec 32
  we : Bool

/-- The input that a port of the bus makes. -/
def PlicInput.ofPort (irq : IrqSource → Bool) (port : Wishbone.Port) : PlicInput where
  irq := irq
  cyc := port.cyc
  stb := port.stb
  addr := port.addr
  wdata := port.wdata
  we := port.we

namespace IrqSource

def id : IrqSource → BitVec 2
  | uart => 1
  | gpio => 2

theorem id_injective {left right : IrqSource} (same : left.id = right.id) : left = right := by
  cases left <;> cases right <;> simp_all [id]

instance decidableForall (holds : IrqSource → Prop) [DecidablePred holds] :
    Decidable (∀ source, holds source) :=
  decidable_of_iff (holds .uart ∧ holds .gpio)
    ⟨fun both source => by cases source; exacts [both.1, both.2],
      fun all => ⟨all .uart, all .gpio⟩⟩

theorem id_ne_zero (source : IrqSource) : source.id ≠ 0 := by
  cases source <;> decide

end IrqSource

namespace Plic

def irqThresholdAddr : BitVec 32 := 0x02000110
def irqResponseAddr : BitVec 32 := 0x02000114
def irqCompleteAddr : BitVec 32 := 0x02000118

/-- `UART_EN_ADDR` and `GPIO_EN_ADDR`. -/
def enAddr : IrqSource → BitVec 32
  | .uart => 0x0200011c
  | .gpio => 0x02000120

/-- `UART_PRIORITY_ADDR` and `GPIO_PRIORITY_ADDR`. -/
def priorityAddr : IrqSource → BitVec 32
  | .uart => 0x02000100
  | .gpio => 0x02000104

def reset : Plic where
  irqPriority source := match source with
    | .uart => 3
    | .gpio => 2
  gatewayBlocking _ := false
  ip _ := false
  enable _ := true
  irqThreshold := 0
  irqResponse := 0
  ipRestore := false
  gatewayRestore := false
  restoreGatewayId := 0
  ackFf := false
  plicWbmRdata := 0

section Signals

variable (plic : Plic) (input : PlicInput)

/-- `prior_irq_id_h` and `prior_irq_id_l`. -/
def priorIrqH : IrqSource :=
  if plic.irqPriority .uart < plic.irqPriority .gpio then .gpio else .uart

def priorIrqL : IrqSource := if plic.priorIrqH = .gpio then .uart else .gpio

/-- An interrupt that is pending, enabled and above the threshold. -/
def qualified (source : IrqSource) : Bool :=
  decide (plic.irqThreshold < plic.irqPriority source) && plic.ip source && plic.enable source

def nextIrqResponse : BitVec 2 :=
  if plic.qualified plic.priorIrqH then plic.priorIrqH.id
  else if plic.qualified plic.priorIrqL then plic.priorIrqL.id
  else plic.irqResponse

/-- `plic_core_ext_irq_o`. -/
def coreExtIrq : Bool := plic.qualified plic.priorIrqH || plic.qualified plic.priorIrqL

/-- `plic_wbm_ack_o`. -/
def wbmAck : Bool := input.cyc && plic.ackFf

/-- A claim or a completion is being carried out. -/
def restoring : Bool := plic.ipRestore || plic.gatewayRestore

/-- A bus cycle that reaches the case statement over the addresses. -/
def accessed : Bool := input.cyc && input.stb && !plic.restoring

/-- The read of the claim register. -/
def claims : Bool := plic.accessed input && input.addr == irqResponseAddr && !input.we

/-- The write of the completion register. -/
def completes : Bool := plic.accessed input && input.addr == irqCompleteAddr && input.we

/-- An access to a register of `source`, in the direction that sets it; the source takes the bus
signal the other way round here. -/
def sets (address : BitVec 32) : Bool := plic.accessed input && input.addr == address && !input.we

def shows (address : BitVec 32) : Bool := plic.accessed input && input.addr == address && input.we

/-- The addresses of the case statement. -/
def addresses : List (BitVec 32) :=
  [irqResponseAddr, irqCompleteAddr, enAddr .uart, enAddr .gpio, priorityAddr .uart,
    priorityAddr .gpio, irqThresholdAddr]

def ackFfNext : Bool :=
  if input.cyc && input.stb then
    if plic.restoring then plic.ackFf
    else if input.addr = irqResponseAddr then (if input.we then plic.ackFf else true)
    else if input.addr = irqCompleteAddr then (if input.we then true else plic.ackFf)
    else addresses.contains input.addr
  else false

def rdataNext : BitVec 32 :=
  if plic.claims input then plic.irqResponse.setWidth 32
  else if plic.shows input (enAddr .uart) then (BitVec.ofBool (plic.enable .uart)).setWidth 32
  else if plic.shows input (enAddr .gpio) then (BitVec.ofBool (plic.enable .gpio)).setWidth 32
  else if plic.shows input (priorityAddr .uart) then (plic.irqPriority .uart).setWidth 32
  else if plic.shows input (priorityAddr .gpio) then (plic.irqPriority .gpio).setWidth 32
  else if plic.shows input irqThresholdAddr then plic.irqThreshold.setWidth 32
  else if plic.accessed input && !addresses.contains input.addr then 0
  else plic.plicWbmRdata

/-- One clock edge outside reset. -/
def step : Plic where
  irqPriority source :=
    if plic.sets input (priorityAddr source) then (input.wdata.setWidth 1).setWidth 3
    else plic.irqPriority source
  gatewayBlocking source :=
    if plic.ipRestore then plic.gatewayBlocking source
    else if plic.gatewayRestore then
      if plic.restoreGatewayId = source.id.setWidth 3 then false else plic.gatewayBlocking source
    else plic.gatewayBlocking source || input.irq source
  ip source :=
    if plic.ipRestore then (if plic.irqResponse = source.id then false else plic.ip source)
    else if plic.gatewayRestore then plic.ip source
    else plic.ip source || (input.irq source && !plic.gatewayBlocking source)
  enable source :=
    if plic.sets input (enAddr source) then input.wdata.getLsbD 0 else plic.enable source
  irqThreshold :=
    if plic.sets input irqThresholdAddr then input.wdata.setWidth 3 else plic.irqThreshold
  irqResponse := plic.nextIrqResponse
  ipRestore :=
    if plic.restoring then plic.ipRestore && !(input.cyc && input.stb) else plic.claims input
  gatewayRestore :=
    if plic.restoring then plic.gatewayRestore && !(input.cyc && input.stb)
    else plic.completes input
  restoreGatewayId :=
    if plic.completes input then (input.wdata.setWidth 2).setWidth 3 else plic.restoreGatewayId
  ackFf := plic.ackFfNext input
  plicWbmRdata := plic.rdataNext input

end Signals

end Plic

end GreenRio
