import GreenRio.Gateway

set_option autoImplicit false

namespace GreenRio

/-- The configuration registers of `plic`. -/
inductive PlicConfig where
  | enable (source : IrqSource)
  | priority (source : IrqSource)
  | threshold
  deriving DecidableEq

namespace PlicConfig

def all : List PlicConfig :=
  [enable .uart, enable .gpio, priority .uart, priority .gpio, threshold]

def addr : PlicConfig → BitVec 32
  | enable source => Plic.enAddr source
  | priority source => Plic.priorityAddr source
  | threshold => Plic.irqThresholdAddr

/-- What a register has of a word, an enable bit standing in the lowest place. -/
def truncated : PlicConfig → BitVec 32 → BitVec 3
  | enable _, data => (data.setWidth 1).setWidth 3
  | priority _, data => data.setWidth 3
  | threshold, data => data.setWidth 3

/-- What the code stores of a word; of a priority it takes one bit. -/
def stored : PlicConfig → BitVec 32 → BitVec 3
  | enable _, data => (data.setWidth 1).setWidth 3
  | priority _, data => (data.setWidth 1).setWidth 3
  | threshold, data => data.setWidth 3

/-- The value of a register. -/
def held (config : PlicConfig) (plic : Plic) : BitVec 3 :=
  match config with
  | enable source => (BitVec.ofBool (plic.enable source)).setWidth 3
  | priority source => plic.irqPriority source
  | threshold => plic.irqThreshold

def initial (config : PlicConfig) : BitVec 3 := config.held Plic.reset

/-- The data lines under which the code leaves a register as reset has left it. -/
def Untouched : PlicConfig → BitVec 32 → Prop
  | enable _, data => data.getLsbD 0 = true
  | priority _, _ => False
  | threshold, data => data.setWidth 3 = 0#3

end PlicConfig

/-- The accesses of the bus: configuration registers are read and written, interrupts are claimed
and completed. Data lines stand in all of them. -/
inductive PlicAccess where
  | read (config : PlicConfig) (data : BitVec 32)
  | write (config : PlicConfig) (data : BitVec 32)
  | claim (data : BitVec 32)
  | complete (data : BitVec 32)

namespace PlicAccess

def lines : PlicAccess → Wishbone.Lines
  | read config data => ⟨config.addr, data, false⟩
  | write config data => ⟨config.addr, data, true⟩
  | claim data => ⟨Plic.irqResponseAddr, data, false⟩
  | complete data => ⟨Plic.irqCompleteAddr, data, true⟩

/-- A claim or a completion keeps the controller busy for a cycle. -/
def restores : PlicAccess → Bool
  | claim _ => true
  | complete _ => true
  | _ => false

end PlicAccess

/-- What has last been shown on the read port: a register is shown when it is written, and a claim
shows an identifier. -/
inductive PlicShown where
  | nothing
  | written (config : PlicConfig)
  | claimed (id : BitVec 2)

/-- The word on the read port, as long as the configuration is that of reset. -/
def PlicShown.word : PlicShown → BitVec 32
  | nothing => 0
  | written config => config.initial.setWidth 32
  | claimed id => id.setWidth 32

/-- `plic` with a master on its port, the values that the acknowledged writes have left behind, and
what was shown last. -/
structure PlicBus where
  plic : Plic
  outstanding : Option PlicAccess
  memory : PlicConfig → BitVec 3
  shown : PlicShown

structure PlicBusInput where
  start : Option PlicAccess
  idle : Wishbone.Lines
  irq : IrqSource → Bool

namespace PlicBus

section Signals

variable (bus : PlicBus) (input : PlicBusInput)

def asked : Option PlicAccess := Wishbone.request bus.outstanding input.start

def plicInput : PlicInput :=
  PlicInput.ofPort input.irq (Wishbone.drive PlicAccess.lines (bus.asked input) input.idle)

def ack : Bool := bus.plic.wbmAck (bus.plicInput input)

/-- A write is remembered when it is acknowledged. -/
def memoryNext : PlicConfig → BitVec 3 :=
  match bus.asked input with
  | some (.write config data) =>
    if bus.ack input then Function.update bus.memory config (config.truncated data) else bus.memory
  | _ => bus.memory

def shownNext : PlicShown :=
  match bus.asked input with
  | some (.write config _) => .written config
  | some (.claim _) => if bus.outstanding.isSome then bus.shown else .claimed bus.plic.irqResponse
  | _ => bus.shown

def step : PlicBus where
  plic := bus.plic.step (bus.plicInput input)
  outstanding := Wishbone.outstandingNext bus.outstanding input.start (bus.ack input)
  memory := bus.memoryNext input
  shown := bus.shownNext input

/-- What is asked of a cycle: an acknowledged read returns what was last written; a read leaves the
configuration as it is; and an access is acknowledged in the cycle behind the one that presents it,
and in no other. -/
structure MemoryLike : Prop where
  returns : ∀ config data, bus.asked input = some (.read config data) → bus.ack input = true →
    bus.plic.plicWbmRdata = (bus.memory config).setWidth 32
  keeps : ∀ access, bus.asked input = some access → access.lines.we = false →
    ∀ config : PlicConfig, config.held (bus.step input).plic = config.held bus.plic
  once : bus.ack input = bus.outstanding.isSome

/-- When the registers are like memory: no access starts in the cycle behind an acknowledgement; the
data lines of a read stand at what the register has; and the register that is read was last written
with what the read port shows. -/
structure Careful : Prop where
  apart : bus.outstanding = none → input.start.isSome = true → bus.plic.ackFf = false
  untouched : ∀ config data, bus.asked input = some (.read config data) → config.Untouched data
  shows : ∀ config data, bus.outstanding = some (.read config data) →
    bus.shown.word = (bus.memory config).setWidth 32

end Signals

def reset : PlicBus where
  plic := Plic.reset
  outstanding := none
  memory := PlicConfig.initial
  shown := .nothing

def machine : Synchronous PlicBus PlicBusInput := ⟨reset, step⟩

end PlicBus

namespace PlicConfig

variable {plic : Plic} {input : PlicInput}

theorem addr_injective {config other : PlicConfig} (same : config.addr = other.addr) :
    config = other := by
  revert same
  cases config with
  | threshold =>
    cases other with
    | threshold => exact fun _ => rfl
    | enable source => cases source <;> decide
    | priority source => cases source <;> decide
  | enable source =>
    cases source <;> cases other with
    | threshold => decide
    | enable source => cases source <;> decide
    | priority source => cases source <;> decide
  | priority source =>
    cases source <;> cases other with
    | threshold => decide
    | enable source => cases source <;> decide
    | priority source => cases source <;> decide

theorem addr_mem (config : PlicConfig) : config.addr ∈ Plic.addresses := by
  cases config with
  | threshold => simp [addr, Plic.addresses]
  | enable source => cases source <;> simp [addr, Plic.addresses]
  | priority source => cases source <;> simp [addr, Plic.addresses]

theorem addr_ne_irqResponseAddr (config : PlicConfig) : config.addr ≠ Plic.irqResponseAddr := by
  cases config with
  | threshold => decide
  | enable source => cases source <;> decide
  | priority source => cases source <;> decide

theorem addr_ne_irqCompleteAddr (config : PlicConfig) : config.addr ≠ Plic.irqCompleteAddr := by
  cases config with
  | threshold => decide
  | enable source => cases source <;> decide
  | priority source => cases source <;> decide

/-- A register changes when its address is accessed in the direction of a read. -/
theorem held_step (config : PlicConfig) : config.held (plic.step input) =
    if plic.sets input config.addr then config.stored input.wdata else config.held plic := by
  cases config with
  | threshold => rfl
  | priority source => rfl
  | enable source =>
    simp only [held, stored, Plic.step, addr, BitVec.setWidth_one]
    cases plic.sets input (Plic.enAddr source) <;> rfl

/-- A read leaves the reset value exactly under the condition. -/
theorem stored_eq_initial {config : PlicConfig} {data : BitVec 32} :
    config.stored data = config.initial ↔ config.Untouched data := by
  cases config with
  | threshold => rfl
  | enable source =>
    rw [stored, Untouched, BitVec.setWidth_one]
    cases data.getLsbD 0 <;> decide +revert
  | priority source =>
    rw [stored, Untouched, BitVec.setWidth_one]
    cases source <;> cases data.getLsbD 0 <;> decide +revert

end PlicConfig

namespace Plic

variable {plic : Plic} {irq : IrqSource → Bool} {access : PlicAccess}

/-- The input of a cycle with an access on the port. -/
abbrev served (irq : IrqSource → Bool) (access : PlicAccess) : PlicInput :=
  PlicInput.ofPort irq ⟨access.lines, true, true⟩

theorem accessed_served (idle : plic.restoring = false) :
    plic.accessed (served irq access) = true := by
  simp [accessed, PlicInput.ofPort, idle]

theorem claims_served (irq : IrqSource → Bool) (access : PlicAccess)
    (idle : plic.restoring = false) :
    plic.claims (served irq access) = true ↔ ∃ data, access = .claim data := by
  rw [claims, accessed_served idle]
  cases access with
  | read config data => simp [PlicInput.ofPort, PlicAccess.lines, config.addr_ne_irqResponseAddr]
  | write config data => simp [PlicInput.ofPort, PlicAccess.lines]
  | claim data => simp [PlicInput.ofPort, PlicAccess.lines]
  | complete data => simp [PlicInput.ofPort, PlicAccess.lines]

theorem completes_served (irq : IrqSource → Bool) (access : PlicAccess)
    (idle : plic.restoring = false) :
    plic.completes (served irq access) = true ↔ ∃ data, access = .complete data := by
  rw [completes, accessed_served idle]
  cases access with
  | read config data => simp [PlicInput.ofPort, PlicAccess.lines]
  | write config data => simp [PlicInput.ofPort, PlicAccess.lines, config.addr_ne_irqCompleteAddr]
  | claim data => simp [PlicInput.ofPort, PlicAccess.lines]
  | complete data => simp [PlicInput.ofPort, PlicAccess.lines]

theorem ackFf_served (idle : plic.restoring = false) :
    (plic.step (served irq access)).ackFf = true := by
  change plic.ackFfNext (served irq access) = true
  have member := PlicConfig.addr_mem
  have response := PlicConfig.addr_ne_irqResponseAddr
  have complete := PlicConfig.addr_ne_irqCompleteAddr
  cases access with
  | read config data =>
    simp [ackFfNext, PlicInput.ofPort, PlicAccess.lines, idle, member, response, complete]
  | write config data =>
    simp [ackFfNext, PlicInput.ofPort, PlicAccess.lines, idle, member, response, complete]
  | claim data => simp [ackFfNext, PlicInput.ofPort, PlicAccess.lines, idle]
  | complete data =>
    have other : irqCompleteAddr ≠ irqResponseAddr := by decide
    simp [ackFfNext, PlicInput.ofPort, PlicAccess.lines, idle, other]

theorem restoring_served (idle : plic.restoring = false) :
    (plic.step (served irq access)).restoring = access.restores := by
  have claims := claims_served irq access idle
  have completes := completes_served irq access idle
  rw [restoring]
  simp only [step, idle, Bool.false_eq_true, if_false]
  rw [Bool.eq_iff_iff, Bool.or_eq_true, claims, completes]
  cases access <;> simp [PlicAccess.restores]

theorem shows_served (irq : IrqSource → Bool) (access : PlicAccess)
    (idle : plic.restoring = false) (config : PlicConfig) :
    plic.shows (served irq access) config.addr = true ↔ ∃ data, access = .write config data := by
  rw [shows, accessed_served idle]
  cases access with
  | read other data => simp [PlicInput.ofPort, PlicAccess.lines]
  | write other data =>
    simp only [PlicInput.ofPort, PlicAccess.lines, Bool.true_and, Bool.and_true, beq_iff_eq,
      PlicAccess.write.injEq, exists_eq_right']
    exact ⟨PlicConfig.addr_injective, congrArg _⟩
  | claim data => simp [PlicInput.ofPort, PlicAccess.lines]
  | complete data =>
    simp [PlicInput.ofPort, PlicAccess.lines, config.addr_ne_irqCompleteAddr.symm]

/-- The read port by the registers that may be shown. -/
theorem rdataNext_eq (plic : Plic) (input : PlicInput) : plic.rdataNext input =
    if plic.claims input then plic.irqResponse.setWidth 32
    else match PlicConfig.all.find? fun config => plic.shows input config.addr with
      | some config => (config.held plic).setWidth 32
      | none => if plic.accessed input && !addresses.contains input.addr then 0
        else plic.plicWbmRdata := by
  have widened : ∀ bit, (BitVec.ofBool bit).setWidth 32 =
      ((BitVec.ofBool bit).setWidth 3).setWidth 32 := by decide
  unfold rdataNext
  simp only [PlicConfig.all, List.find?_cons, List.find?_nil, PlicConfig.addr, widened]
  split
  · rfl
  · cases plic.shows input (enAddr .uart) with
    | true => rfl
    | false =>
      cases plic.shows input (enAddr .gpio) with
      | true => rfl
      | false =>
        cases plic.shows input (priorityAddr .uart) with
        | true => rfl
        | false =>
          cases plic.shows input (priorityAddr .gpio) with
          | true => rfl
          | false => cases plic.shows input irqThresholdAddr <;> rfl

theorem rdata_served (idle : plic.restoring = false) :
    (plic.step (served irq access)).plicWbmRdata =
      match access with
      | .read _ _ => plic.plicWbmRdata
      | .write config _ => (config.held plic).setWidth 32
      | .claim _ => plic.irqResponse.setWidth 32
      | .complete _ => plic.plicWbmRdata := by
  change plic.rdataNext (served irq access) = _
  have known : (plic.accessed (served irq access) &&
      !addresses.contains (served irq access).addr) = false := by
    rw [accessed_served idle, Bool.true_and, Bool.not_eq_false']
    cases access with
    | read config data => simp [PlicInput.ofPort, PlicAccess.lines, config.addr_mem]
    | write config data => simp [PlicInput.ofPort, PlicAccess.lines, config.addr_mem]
    | claim data => simp [PlicInput.ofPort, PlicAccess.lines, addresses]
    | complete data => simp [PlicInput.ofPort, PlicAccess.lines, addresses]
  have claims := claims_served irq access idle
  have shows := shows_served irq access idle
  rw [rdataNext_eq]
  have silent : (∀ config data, access ≠ .write config data) →
      PlicConfig.all.find? (fun config => plic.shows (served irq access) config.addr) = none := by
    intro other
    rw [List.find?_eq_none]
    intro config _ shown
    obtain ⟨data, same⟩ := (shows config).mp shown
    exact other config data same
  cases access with
  | read config data =>
    rw [if_neg (mt claims.mp (by simp)), silent (by simp), known]
    rfl
  | write config data =>
    have only : (fun other : PlicConfig =>
        plic.shows (served irq (.write config data)) other.addr) =
          fun other => decide (other = config) := by
      funext other
      rw [Bool.eq_iff_iff, shows, decide_eq_true_iff]
      simp [eq_comm]
    have found : PlicConfig.all.find? (fun other => decide (other = config)) = some config := by
      cases config with
      | enable source => cases source <;> rfl
      | priority source => cases source <;> rfl
      | threshold => rfl
    rw [if_neg (mt claims.mp (by simp)), only, found]
  | claim data => rw [if_pos (claims.mpr ⟨data, rfl⟩)]
  | complete data =>
    rw [if_neg (mt claims.mp (by simp)), silent (by simp), known]
    rfl

/-- Only a read changes the configuration. -/
theorem held_served (idle : plic.restoring = false) (config : PlicConfig) :
    config.held (plic.step (served irq access)) =
      match access with
      | .read other data => if other = config then config.stored data else config.held plic
      | _ => config.held plic := by
  rw [PlicConfig.held_step, sets, accessed_served idle]
  cases access with
  | read other data =>
    by_cases same : other = config
    · simp [PlicInput.ofPort, PlicAccess.lines, same]
    · have apart : other.addr ≠ config.addr := mt PlicConfig.addr_injective same
      simp [PlicInput.ofPort, PlicAccess.lines, same, apart]
  | write other data => simp [PlicInput.ofPort, PlicAccess.lines]
  | claim data =>
    simp [PlicInput.ofPort, PlicAccess.lines, config.addr_ne_irqResponseAddr.symm]
  | complete data => simp [PlicInput.ofPort, PlicAccess.lines]

section Unserved

variable {input : PlicInput}

/-- A cycle in which the bus reaches no register. -/
theorem held_unserved (none : plic.accessed input = false) (config : PlicConfig) :
    config.held (plic.step input) = config.held plic := by
  rw [PlicConfig.held_step, sets, none]
  rfl

theorem rdata_unserved (none : plic.accessed input = false) :
    (plic.step input).plicWbmRdata = plic.plicWbmRdata := by
  change plic.rdataNext input = _
  simp [rdataNext, claims, shows, none]

/-- A claim or a completion is carried out while an access is on the port. -/
theorem restoring_done (busy : plic.restoring = true) (asked : (input.cyc && input.stb) = true) :
    (plic.step input).restoring = false := by
  rw [restoring]
  simp [step, busy, asked]

theorem restoring_idle (idle : plic.restoring = false) (none : plic.accessed input = false) :
    (plic.step input).restoring = false := by
  rw [restoring]
  simp [step, idle, claims, completes, none]

end Unserved

end Plic

namespace PlicBus

variable {bus : PlicBus} {input : PlicBusInput} {access : PlicAccess}

/-- The bus as long as it is used with care: the configuration is that of reset, the read port shows
what it was last loaded with, an access that waits is being acknowledged and only a claim or a
completion keeps the controller busy. -/
structure Steady (bus : PlicBus) : Prop where
  config : ∀ config : PlicConfig, config.held bus.plic = config.initial
  shown : bus.plic.plicWbmRdata = bus.shown.word
  waiting : ∀ access, bus.outstanding = some access →
    bus.plic.ackFf = true ∧ bus.plic.restoring = access.restores
  ready : bus.outstanding = none → bus.plic.restoring = false

theorem plicInput_of_asked (asked : bus.asked input = some access) :
    bus.plicInput input = Plic.served input.irq access := by
  rw [plicInput, asked]
  rfl

theorem ack_of_asked (asked : bus.asked input = some access) :
    bus.ack input = bus.plic.ackFf := by
  rw [ack, plicInput_of_asked asked]
  rfl

theorem quiet_of_asked (asked : bus.asked input = none) :
    bus.ack input = false ∧ bus.plic.accessed (bus.plicInput input) = false := by
  rw [ack, plicInput, asked]
  exact ⟨rfl, rfl⟩

theorem asked_of_outstanding (input : PlicBusInput) (waits : bus.outstanding = some access) :
    bus.asked input = some access := by
  rw [asked, waits]
  rfl

theorem asked_of_ready (ready : bus.outstanding = none) : bus.asked input = input.start := by
  rw [asked, ready]
  rfl

/-- An access is one that waits, or one that starts. -/
theorem asked_cases (asked : bus.asked input = some access) :
    bus.outstanding = some access ∨ bus.outstanding = none ∧ input.start = some access :=
  Option.or_eq_some_iff.mp asked

theorem accessed_of_restoring (busy : bus.plic.restoring = true) :
    bus.plic.accessed (bus.plicInput input) = false := by
  simp [Plic.accessed, busy]

namespace Steady

variable (steady : bus.Steady)
include steady

/-- A read or a write finds the controller free. -/
theorem restoring_of_asked (asked : bus.asked input = some access)
    (plain : access.restores = false) : bus.plic.restoring = false := by
  rcases asked_cases asked with waits | ⟨ready, -⟩
  · rw [(steady.waiting access waits).2, plain]
  · exact steady.ready ready

theorem careful_of_memoryLike (like : bus.MemoryLike input) : bus.Careful input where
  apart := by
    intro ready starts
    obtain ⟨access, start⟩ := Option.isSome_iff_exists.mp starts
    have asked : bus.asked input = some access := (asked_of_ready ready).trans start
    have once := like.once
    rwa [ack_of_asked asked, ready] at once
  untouched := by
    intro config data asked
    have kept := like.keeps _ asked rfl config
    have idle := steady.restoring_of_asked asked rfl
    change config.held (bus.plic.step _) = _ at kept
    rw [plicInput_of_asked asked, Plic.held_served idle, steady.config] at kept
    exact PlicConfig.stored_eq_initial.mp ((if_pos rfl).symm.trans kept)
  shows := by
    intro config data waits
    have asked := asked_of_outstanding input waits
    have acked : bus.ack input = true := by
      rw [ack_of_asked asked]
      exact (steady.waiting _ waits).1
    rw [← steady.shown]
    exact like.returns config data asked acked

theorem memoryLike_of_careful (careful : bus.Careful input) : bus.MemoryLike input where
  returns := by
    intro config data asked acked
    rw [ack_of_asked asked] at acked
    rcases asked_cases asked with waits | ⟨ready, start⟩
    · rw [steady.shown]
      exact careful.shows config data waits
    · rw [careful.apart ready (by rw [start]; rfl)] at acked
      cases acked
  keeps := by
    intro access asked reads config
    change config.held (bus.plic.step _) = _
    cases busy : bus.plic.restoring with
    | true => exact Plic.held_unserved (accessed_of_restoring busy) config
    | false =>
      rw [plicInput_of_asked asked, Plic.held_served busy]
      cases access with
      | read other data =>
        by_cases same : other = config
        · subst same
          exact (if_pos rfl).trans ((PlicConfig.stored_eq_initial.mpr
            (careful.untouched other data asked)).trans (steady.config other).symm)
        · exact if_neg same
      | write other data => cases reads
      | claim data => rfl
      | complete data => cases reads
  once := by
    cases waits : bus.outstanding with
    | none =>
      cases start : input.start with
      | none => exact (quiet_of_asked ((asked_of_ready waits).trans start)).1
      | some access =>
        rw [ack_of_asked ((asked_of_ready waits).trans start)]
        exact careful.apart waits (by rw [start]; rfl)
    | some access =>
      rw [ack_of_asked (asked_of_outstanding input waits)]
      exact (steady.waiting access waits).1

/-- The controller is busy exactly behind a claim or a completion that is presented again. -/
theorem outstanding_of_restoring (busy : bus.plic.restoring = true) :
    ∃ access, bus.outstanding = some access ∧ access.restores = true := by
  cases waits : bus.outstanding with
  | none =>
    rw [steady.ready waits] at busy
    cases busy
  | some access => exact ⟨access, rfl, (steady.waiting access waits).2.symm.trans busy⟩

theorem step_config (careful : bus.Careful input) (config : PlicConfig) :
    config.held (bus.step input).plic = config.initial := by
  rw [← steady.config config]
  cases asked : bus.asked input with
  | none => exact Plic.held_unserved (quiet_of_asked asked).2 config
  | some access =>
    by_cases reads : access.lines.we = false
    · exact (steady.memoryLike_of_careful careful).keeps access asked reads config
    · change config.held (bus.plic.step _) = _
      cases busy : bus.plic.restoring with
      | true => exact Plic.held_unserved (accessed_of_restoring busy) config
      | false =>
        rw [plicInput_of_asked asked, Plic.held_served busy]
        cases access with
        | read other data => exact absurd rfl reads
        | write other data => rfl
        | claim data => rfl
        | complete data => rfl

theorem step_shown : (bus.step input).plic.plicWbmRdata = (bus.step input).shown.word := by
  change (bus.plic.step _).plicWbmRdata = (bus.shownNext input).word
  cases busy : bus.plic.restoring with
  | true =>
    obtain ⟨access, waits, restores⟩ := steady.outstanding_of_restoring busy
    rw [Plic.rdata_unserved (accessed_of_restoring busy), steady.shown, shownNext,
      asked_of_outstanding input waits, waits]
    cases access with
    | read config data => rfl
    | write config data => cases restores
    | claim data => rfl
    | complete data => rfl
  | false =>
    cases asked : bus.asked input with
    | none =>
      rw [Plic.rdata_unserved (quiet_of_asked asked).2, steady.shown, shownNext, asked]
    | some access =>
      rw [plicInput_of_asked asked, Plic.rdata_served busy, shownNext, asked]
      cases access with
      | read config data => exact steady.shown
      | write config data => exact congrArg (BitVec.setWidth 32) (steady.config config)
      | complete data => exact steady.shown
      | claim data =>
        -- a claim that is presented again would find the controller busy
        rcases asked_cases asked with waits | ⟨ready, -⟩
        · rw [(steady.waiting _ waits).2] at busy
          cases busy
        · rw [ready]
          rfl

/-- An access lasts two cycles. -/
theorem step_outstanding (careful : bus.Careful input) :
    (bus.step input).outstanding = if bus.outstanding.isSome then none else input.start := by
  change Wishbone.outstandingNext _ _ (bus.ack input) = _
  rw [(steady.memoryLike_of_careful careful).once]
  cases bus.outstanding <;> rfl

/-- An access that is presented for the first time is acknowledged next. -/
theorem step_waiting (careful : bus.Careful input)
    (waits : (bus.step input).outstanding = some access) :
    (bus.step input).plic.ackFf = true ∧ (bus.step input).plic.restoring = access.restores := by
  rw [steady.step_outstanding careful] at waits
  cases outstanding : bus.outstanding with
  | some other =>
    rw [outstanding] at waits
    cases waits
  | none =>
    rw [outstanding] at waits
    have asked : bus.asked input = some access := (asked_of_ready outstanding).trans waits
    have idle := steady.ready outstanding
    change (bus.plic.step _).ackFf = true ∧ (bus.plic.step _).restoring = _
    rw [plicInput_of_asked asked]
    exact ⟨Plic.ackFf_served idle, Plic.restoring_served idle⟩

/-- Once an access is over the controller is free. -/
theorem step_ready (careful : bus.Careful input) (ended : (bus.step input).outstanding = none) :
    (bus.step input).plic.restoring = false := by
  rw [steady.step_outstanding careful] at ended
  change (bus.plic.step _).restoring = false
  cases outstanding : bus.outstanding with
  | none =>
    rw [outstanding] at ended
    have asked : bus.asked input = none := (asked_of_ready outstanding).trans ended
    exact Plic.restoring_idle (steady.ready outstanding) (quiet_of_asked asked).2
  | some access =>
    have asked := asked_of_outstanding input outstanding
    cases busy : bus.plic.restoring with
    | true =>
      apply Plic.restoring_done busy
      rw [plicInput_of_asked asked]
      rfl
    | false =>
      rw [plicInput_of_asked asked, Plic.restoring_served busy,
        ← (steady.waiting access outstanding).2, busy]

theorem step (careful : bus.Careful input) : (bus.step input).Steady where
  config := steady.step_config careful
  shown := steady.step_shown
  waiting _ waits := steady.step_waiting careful waits
  ready ended := steady.step_ready careful ended

end Steady

theorem reset_steady : reset.Steady where
  config _ := rfl
  shown := rfl
  waiting _ waits := nomatch waits
  ready _ := rfl

/-- The configuration registers are like memory in every cycle of a run if and only if the bus is
used with care in every cycle. -/
theorem memoryLike_iff (inputs : List PlicBusInput) :
    machine.Obeys MemoryLike inputs ↔ machine.Obeys Careful inputs := by
  apply Synchronous.obeys_iff_of_invariant reset_steady
  · intro bus input steady
    exact ⟨steady.careful_of_memoryLike, steady.memoryLike_of_careful⟩
  · intro bus input steady careful
    exact steady.step careful

/-- A read of the priority of `uart` from reset, with zeros on the data lines. -/
def priorityRead : List PlicBusInput :=
  [⟨some (.read (.priority .uart) 0), ⟨0, 0, false⟩, fun _ => false⟩,
    ⟨none, ⟨0, 0, false⟩, fun _ => false⟩]

/-- It clears the register. -/
theorem priority_read_clears : ¬machine.Obeys MemoryLike priorityRead := by
  intro obeys
  have kept := (obeys [] _ _ rfl).keeps (.read (.priority .uart) 0) rfl rfl (.priority .uart)
  exact absurd kept (by decide)

end PlicBus

end GreenRio
