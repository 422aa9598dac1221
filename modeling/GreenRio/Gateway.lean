import GreenRio.Plic

set_option autoImplicit false

namespace GreenRio

/-- What happens to an interrupt at its gateway. -/
inductive GatewayEvent where
  | accepted
  | claimed
  | reopened
  deriving DecidableEq

/-- Where a gateway stands. -/
inductive GatewayPhase where
  | listening
  | waiting
  | served
  deriving DecidableEq

/-- The order in which a gateway works: it accepts an interrupt, the interrupt is claimed once, and
only then the gateway re-opens. -/
def GatewayPhase.next : GatewayPhase → GatewayEvent → Option GatewayPhase
  | .listening, .accepted => some .waiting
  | .waiting, .claimed => some .served
  | .served, .reopened => some .listening
  | _, _ => none

/-- `plic` with a master on its port, and the interrupts that qualified one cycle ago. -/
structure PlicHost where
  plic : Plic
  outstanding : Option Wishbone.Lines
  before : IrqSource → Bool

structure PlicHostInput where
  start : Option Wishbone.Lines
  idle : Wishbone.Lines
  irq : IrqSource → Bool

namespace Plic

/-- A read of the claim register, and a write of the completion register. -/
def isClaim (lines : Wishbone.Lines) : Bool := lines.addr == irqResponseAddr && !lines.we

def isCompletion (lines : Wishbone.Lines) : Bool := lines.addr == irqCompleteAddr && lines.we

section Claims

variable (plic : Plic) (source : IrqSource)

/-- The claim of `source` is being carried out; the identifier that is returned stands in the read
register meanwhile. -/
def claiming : Bool := plic.ipRestore && plic.plicWbmRdata == source.id.setWidth 32

/-- The completion of `source` is being carried out. -/
def completing : Bool :=
  !plic.ipRestore && plic.gatewayRestore && plic.restoreGatewayId == source.id.setWidth 3

end Claims

variable {plic : Plic} {input : PlicInput} {source : IrqSource}

/-- The arbiter looks at both sources. -/
theorem prior_cases (plic : Plic) (source : IrqSource) :
    source = plic.priorIrqH ∨ source = plic.priorIrqL := by
  unfold priorIrqL
  cases plic.priorIrqH <;> cases source <;> simp

theorem coreExtIrq_iff : plic.coreExtIrq = true ↔ ∃ source, plic.qualified source = true := by
  rw [coreExtIrq, Bool.or_eq_true]
  constructor
  · rintro (high | low)
    · exact ⟨_, high⟩
    · exact ⟨_, low⟩
  · rintro ⟨source, qualified⟩
    rcases prior_cases plic source with rfl | rfl
    · exact .inl qualified
    · exact .inr qualified

/-- The arbiter chooses a qualified interrupt if there is one. -/
theorem nextIrqResponse_cases (plic : Plic) :
    (∃ source : IrqSource, plic.nextIrqResponse = source.id ∧ plic.qualified source = true) ∨
      (plic.nextIrqResponse = plic.irqResponse ∧ plic.coreExtIrq = false) := by
  unfold nextIrqResponse coreExtIrq
  by_cases high : plic.qualified plic.priorIrqH = true
  · exact .inl ⟨_, by rw [if_pos high], high⟩
  · by_cases low : plic.qualified plic.priorIrqL = true
    · exact .inl ⟨_, by rw [if_neg high, if_pos low], low⟩
    · rw [Bool.not_eq_true] at high low
      simp [high, low]

theorem qualified_pending (qualified : plic.qualified source = true) : plic.ip source = true := by
  simp only [Plic.qualified, Bool.and_eq_true] at qualified
  exact qualified.1.2

end Plic

namespace PlicHost

section Signals

variable (host : PlicHost) (input : PlicHostInput)

def asked : Option Wishbone.Lines := Wishbone.request host.outstanding input.start

def plicInput : PlicInput :=
  PlicInput.ofPort input.irq (Wishbone.drive id (host.asked input) input.idle)

def ack : Bool := host.plic.wbmAck (host.plicInput input)

/-- A claim read is acknowledged. -/
def returned : Bool := host.ack input && (host.asked input).any Plic.isClaim

/-- It returns the identifier of `source`. -/
def returns (source : IrqSource) : Bool :=
  host.returned input && host.plic.plicWbmRdata == source.id.setWidth 32

def events (source : IrqSource) : List GatewayEvent :=
  (if !host.plic.restoring && input.irq source && !host.plic.gatewayBlocking source
    then [.accepted] else []) ++
  (if host.returns input source then [.claimed] else []) ++
  if host.plic.completing source && host.plic.gatewayBlocking source then [.reopened] else []

def step : PlicHost where
  plic := host.plic.step (host.plicInput input)
  outstanding := Wishbone.outstandingNext host.outstanding input.start (host.ack input)
  before := host.plic.qualified

/-- The word on the bus names an interrupt that qualified when the claim reached the controller and
still does, or it is zero and there was none. -/
def Names (host : PlicHost) : Prop :=
  (host.plic.plicWbmRdata = 0 ∧ ∀ source, host.before source = false) ∨
    ∃ source : IrqSource, host.plic.plicWbmRdata = source.id.setWidth 32 ∧
      host.before source = true ∧ host.plic.qualified source = true

/-- What is asked of a cycle: a claim read that waits is acknowledged; what it returns is the
identifier of a qualified interrupt, or zero if there is none; it clears the pending bit of this
interrupt and of no other; and no claim or completion makes another gateway miss its interrupt. -/
structure Faithful : Prop where
  answers : host.outstanding.any Plic.isClaim = true → host.ack input = true
  returns : host.returned input = true → host.Names
  clears : ∀ source, host.returns input source = true → (host.step input).plic.ip source = false
  keeps : ∀ source, host.plic.ip source = true → (host.step input).plic.ip source = false →
    host.returns input source = true
  hears : ∀ source, input.irq source = true → host.plic.gatewayBlocking source = false →
    (host.step input).plic.ip source = true ∨ host.returns input source = true ∨
      host.plic.completing source = true

/-- The cycles under which the controller keeps its word: no access starts right behind an
acknowledgement; a claim arrives while the claim register shows what the arbiter chooses, or shows
zero and no interrupt is signalled; while a claim is carried out the response does not move on to
another pending interrupt; a completion finds nothing pending behind its gateway; and no other
source asks at an open gateway meanwhile. -/
structure Orderly : Prop where
  apart : host.outstanding = none → input.start.isSome = true → host.plic.ackFf = false
  shown : host.plic.claims (host.plicInput input) = true →
    host.plic.nextIrqResponse = host.plic.irqResponse ∧
      (host.plic.coreExtIrq = true ↔ host.plic.irqResponse ≠ 0)
  settled : host.plic.ipRestore = true → ∀ source, host.plic.irqResponse = source.id →
    host.plic.ip source = true → host.plic.plicWbmRdata = source.id.setWidth 32
  claimed : ∀ source, host.plic.completing source = true →
    host.plic.gatewayBlocking source = true → host.plic.ip source = false
  alone : host.plic.restoring = true → ∀ source, input.irq source = true →
    host.plic.gatewayBlocking source = false →
    host.plic.claiming source = true ∨ host.plic.completing source = true

instance : Decidable (host.Orderly input) :=
  decidable_of_iff
    ((host.outstanding = none → input.start.isSome = true → host.plic.ackFf = false) ∧
      (host.plic.claims (host.plicInput input) = true →
        host.plic.nextIrqResponse = host.plic.irqResponse ∧
          (host.plic.coreExtIrq = true ↔ host.plic.irqResponse ≠ 0)) ∧
      (host.plic.ipRestore = true → ∀ source : IrqSource, host.plic.irqResponse = source.id →
        host.plic.ip source = true → host.plic.plicWbmRdata = source.id.setWidth 32) ∧
      (∀ source, host.plic.completing source = true →
        host.plic.gatewayBlocking source = true → host.plic.ip source = false) ∧
      (host.plic.restoring = true → ∀ source, input.irq source = true →
        host.plic.gatewayBlocking source = false →
        host.plic.claiming source = true ∨ host.plic.completing source = true))
    ⟨fun ⟨apart, shown, settled, claimed, alone⟩ => ⟨apart, shown, settled, claimed, alone⟩,
      fun orderly =>
        ⟨orderly.apart, orderly.shown, orderly.settled, orderly.claimed, orderly.alone⟩⟩

end Signals

def reset : PlicHost := ⟨Plic.reset, none, fun _ => false⟩

def machine : Synchronous PlicHost PlicHostInput := ⟨reset, step⟩

variable {host : PlicHost} {input : PlicHostInput} {source : IrqSource}

/-- An orderly claim reaches a qualified interrupt, or zero if there is none. -/
theorem Orderly.chosen (orderly : host.Orderly input)
    (claims : host.plic.claims (host.plicInput input) = true) :
    (host.plic.irqResponse = 0 ∧ ∀ source, host.plic.qualified source = false) ∨
      ∃ source : IrqSource, host.plic.irqResponse = source.id ∧
        host.plic.qualified source = true := by
  obtain ⟨shown, signalled⟩ := orderly.shown claims
  rcases host.plic.nextIrqResponse_cases with chosen | ⟨-, silent⟩
  · right
    rw [← shown]
    exact chosen
  · left
    constructor
    · by_contra some
      rw [signalled.mpr some] at silent
      cases silent
    · intro source
      rw [← Bool.not_eq_true]
      intro qualified
      rw [Plic.coreExtIrq_iff.mpr ⟨source, qualified⟩] at silent
      cases silent

theorem Orderly.pending (orderly : host.Orderly input)
    (claims : host.plic.claims (host.plicInput input) = true)
    (own : host.plic.irqResponse = source.id) : host.plic.ip source = true := by
  rcases orderly.chosen claims with ⟨zero, -⟩ | ⟨other, same, qualified⟩
  · exact absurd (own.symm.trans zero) source.id_ne_zero
  · obtain rfl := IrqSource.id_injective (own.symm.trans same)
    exact Plic.qualified_pending qualified

section Port

variable (host) (input)

/-- What reaches the controller, by the access that is asked for. -/
theorem accessed_eq :
    host.plic.accessed (host.plicInput input) =
      ((host.asked input).isSome && !host.plic.restoring) := by
  simp [Plic.accessed, plicInput, PlicInput.ofPort, Wishbone.drive]

theorem claims_eq : host.plic.claims (host.plicInput input) =
    (!host.plic.restoring && (host.asked input).any Plic.isClaim) := by
  rw [Plic.claims, accessed_eq, plicInput]
  cases host.asked input with
  | none => simp
  | some lines => simp [PlicInput.ofPort, Plic.isClaim, Bool.and_assoc]

theorem completes_eq : host.plic.completes (host.plicInput input) =
    (!host.plic.restoring && (host.asked input).any Plic.isCompletion) := by
  rw [Plic.completes, accessed_eq, plicInput]
  cases host.asked input with
  | none => simp
  | some lines => simp [PlicInput.ofPort, Plic.isCompletion, Bool.and_assoc]

theorem ack_eq : host.ack input = ((host.asked input).isSome && host.plic.ackFf) := rfl

end Port

/-- A claim that is taken puts the word on the bus. -/
theorem Orderly.step_names (orderly : host.Orderly input)
    (claims : host.plic.claims (host.plicInput input) = true) : (host.step input).Names := by
  have claim := claims
  rw [claims_eq, Bool.and_eq_true, Bool.not_eq_true'] at claim
  obtain ⟨free, claim⟩ := claim
  have rest : host.plic.ipRestore = false ∧ host.plic.gatewayRestore = false := by
    simpa [Plic.restoring] using free
  have read : (host.step input).plic.plicWbmRdata = host.plic.irqResponse.setWidth 32 :=
    if_pos claims
  obtain ⟨lines, asked, address⟩ := Option.any_eq_true _ _ |>.mp claim
  have untouched : ∀ addr, addr ≠ Plic.irqResponseAddr →
      host.plic.sets (host.plicInput input) addr = false := by
    intro addr other
    simp only [Plic.isClaim, Bool.and_eq_true, beq_iff_eq] at address
    simp [Plic.sets, plicInput, asked, PlicInput.ofPort, address, other.symm]
  rw [Names, read]
  rcases orderly.chosen claims with ⟨zero, none⟩ | ⟨source, same, qualified⟩
  · exact .inl ⟨by rw [zero]; rfl, none⟩
  · refine .inr ⟨source, by rw [same], qualified, ?_⟩
    have threshold := untouched Plic.irqThresholdAddr (by decide)
    have priority := untouched (Plic.priorityAddr source) (by cases source <;> decide)
    have enable := untouched (Plic.enAddr source) (by cases source <;> decide)
    simp only [Plic.qualified, Bool.and_eq_true, decide_eq_true_eq] at qualified
    simp [step, Plic.step, Plic.qualified, threshold, priority, enable, rest, qualified]

/-- What is taken is acknowledged next. -/
theorem step_ackFf (taken : host.plic.claims (host.plicInput input) = true ∨
      host.plic.completes (host.plicInput input) = true) :
    (host.step input).plic.ackFf = true := by
  change host.plic.ackFfNext (host.plicInput input) = true
  have other : Plic.irqCompleteAddr ≠ Plic.irqResponseAddr := by decide
  simp only [Plic.claims, Plic.completes, Plic.accessed, Bool.and_eq_true, Bool.not_eq_true',
    beq_iff_eq] at taken
  rcases taken with ⟨⟨⟨⟨cyc, stb⟩, free⟩, address⟩, read⟩ | ⟨⟨⟨⟨cyc, stb⟩, free⟩, address⟩, write⟩
  · simp [Plic.ackFfNext, cyc, stb, free, address, read]
  · simp [Plic.ackFfNext, cyc, stb, free, address, write, other]

/-- The controller is busy exactly with the claim or the completion that waits on the bus, which is
being acknowledged; and the word of a claim names its interrupt. -/
structure Steady (host : PlicHost) : Prop where
  ipRestore : host.plic.ipRestore = host.outstanding.any Plic.isClaim
  gatewayRestore : host.plic.gatewayRestore = host.outstanding.any Plic.isCompletion
  ackFf : host.plic.restoring = true → host.plic.ackFf = true
  names : host.plic.ipRestore = true → host.Names

namespace Steady

variable (steady : host.Steady)
include steady

theorem asked_of_restoring (restoring : host.plic.restoring = true) :
    (host.asked input).isSome = true ∧ host.ack input = true := by
  have waits : host.outstanding.isSome = true := by
    rw [Plic.restoring, steady.ipRestore, steady.gatewayRestore] at restoring
    cases outstanding : host.outstanding with
    | none => simp [outstanding] at restoring
    | some lines => rfl
  have asked : (host.asked input).isSome = true := by
    rw [asked, Wishbone.request, Option.isSome_or, waits]
    rfl
  exact ⟨asked, by rw [ack_eq, asked, steady.ackFf restoring]; rfl⟩

/-- A claim read is acknowledged in the cycle in which its claim is carried out. -/
theorem returned_eq (orderly : host.Orderly input) :
    host.returned input = host.plic.ipRestore := by
  rw [returned, steady.ipRestore]
  cases outstanding : host.outstanding with
  | some lines =>
    have asked : host.asked input = some lines := by rw [asked, outstanding]; rfl
    rw [asked, Option.any_some]
    cases claim : Plic.isClaim lines with
    | false => exact Bool.and_false _
    | true =>
      have restoring : host.plic.restoring = true := by
        rw [Plic.restoring, steady.ipRestore, outstanding, Option.any_some, claim]
        rfl
      rw [(steady.asked_of_restoring restoring).2]
      rfl
  | none =>
    have asked : host.asked input = input.start := by rw [asked, outstanding]; rfl
    rw [Option.any_none, ack_eq, asked]
    cases start : input.start with
    | none => rfl
    | some lines =>
      rw [orderly.apart outstanding (by rw [start]; rfl), Bool.and_false, Bool.false_and]

theorem returns_eq (orderly : host.Orderly input) (source : IrqSource) :
    host.returns input source = host.plic.claiming source := by
  rw [returns, steady.returned_eq orderly, Plic.claiming]

/-- A cycle in which a claim or a completion is carried out. -/
theorem step_busy (restoring : host.plic.restoring = true) :
    (host.step input).outstanding = none ∧ (host.step input).plic.ipRestore = false ∧
      (host.step input).plic.gatewayRestore = false := by
  obtain ⟨asked, ack⟩ := @asked_of_restoring _ input steady restoring
  have lines : ((host.plicInput input).cyc && (host.plicInput input).stb) = true := by
    rw [plicInput, PlicInput.ofPort, Wishbone.drive, asked]
    rfl
  refine ⟨?_, ?_, ?_⟩
  · change Wishbone.outstandingNext _ _ (host.ack input) = none
    rw [ack, Wishbone.outstandingNext_ack]
  · simp only [step, Plic.step, restoring, lines, Bool.not_true, Bool.and_false, if_true]
  · simp only [step, Plic.step, restoring, lines, Bool.not_true, Bool.and_false, if_true]

/-- Any other cycle takes the claim or the completion that is asked for. -/
theorem step_free (orderly : host.Orderly input) (free : host.plic.restoring = false) :
    (host.step input).plic.ipRestore = (host.step input).outstanding.any Plic.isClaim ∧
      (host.step input).plic.gatewayRestore =
        (host.step input).outstanding.any Plic.isCompletion := by
  have claims : (host.step input).plic.ipRestore = (host.asked input).any Plic.isClaim := by
    have taken := claims_eq host input
    rw [free, Bool.not_false, Bool.true_and] at taken
    simp only [step, Plic.step, free, Bool.false_eq_true, if_false, taken]
  have completes : (host.step input).plic.gatewayRestore =
      (host.asked input).any Plic.isCompletion := by
    have taken := completes_eq host input
    rw [free, Bool.not_false, Bool.true_and] at taken
    simp only [step, Plic.step, free, Bool.false_eq_true, if_false, taken]
  have next : (host.step input).outstanding =
      Wishbone.outstandingNext host.outstanding input.start (host.ack input) := rfl
  rw [claims, completes, next]
  cases outstanding : host.outstanding with
  | none =>
    have asked : host.asked input = input.start := by rw [asked, outstanding]; rfl
    have silent : host.ack input = false := by
      rw [ack_eq, asked]
      cases start : input.start with
      | none => rfl
      | some lines => rw [orderly.apart outstanding (by rw [start]; rfl), Bool.and_false]
    rw [silent, asked]
    exact ⟨rfl, rfl⟩
  | some lines =>
    -- the access that waits is no claim and no completion
    have asked : host.asked input = some lines := by rw [asked, outstanding]; rfl
    have plain : Plic.isClaim lines = false ∧ Plic.isCompletion lines = false := by
      have free := free
      rw [Plic.restoring, steady.ipRestore, steady.gatewayRestore, outstanding,
        Option.any_some, Option.any_some, Bool.or_eq_false_iff] at free
      exact free
    rw [asked]
    cases host.ack input <;> simp [plain]

theorem step (orderly : host.Orderly input) : (host.step input).Steady := by
  cases restoring : host.plic.restoring with
  | true =>
    obtain ⟨ended, ip, gateway⟩ := @step_busy _ input steady restoring
    refine ⟨by rw [ip, ended]; rfl, by rw [gateway, ended]; rfl, fun busy => ?_, fun busy => ?_⟩
    · rw [Plic.restoring, ip, gateway] at busy
      cases busy
    · rw [ip] at busy
      cases busy
  | false =>
    obtain ⟨ip, gateway⟩ := steady.step_free orderly restoring
    have claims : (host.step input).plic.ipRestore = host.plic.claims (host.plicInput input) := by
      simp only [PlicHost.step, Plic.step, restoring, Bool.false_eq_true, if_false]
    have completes : (host.step input).plic.gatewayRestore =
        host.plic.completes (host.plicInput input) := by
      simp only [PlicHost.step, Plic.step, restoring, Bool.false_eq_true, if_false]
    refine ⟨ip, gateway, fun busy => ?_, fun busy => orderly.step_names (claims.symm.trans busy)⟩
    rw [Plic.restoring, Bool.or_eq_true, claims, completes] at busy
    exact step_ackFf busy

end Steady

theorem reset_steady : reset.Steady where
  ipRestore := rfl
  gatewayRestore := rfl
  ackFf busy := Bool.noConfusion busy
  names busy := Bool.noConfusion busy

/-- The registers of one gateway in each of its phases. -/
inductive InPhase (plic : Plic) (source : IrqSource) : GatewayPhase → Prop
  | listening (opens : plic.gatewayBlocking source = false) (clear : plic.ip source = false)
      (quiet : plic.claiming source = false) : InPhase plic source .listening
  | waiting (blocks : plic.gatewayBlocking source = true) (pending : plic.ip source = true)
      (first : plic.claiming source = true → plic.irqResponse = source.id) :
      InPhase plic source .waiting
  | served (blocks : plic.gatewayBlocking source = true) (clear : plic.ip source = false)
      (quiet : plic.claiming source = false) : InPhase plic source .served

/-- A cycle that carries out a claim. -/
theorem InPhase.step_ipRestore {phase : GatewayPhase} (inPhase : InPhase host.plic source phase)
    (steady : host.Steady) (orderly : host.Orderly input)
    (restore : host.plic.ipRestore = true) :
    ∃ phase', (host.events input source).foldlM GatewayPhase.next phase = some phase' ∧
      InPhase (host.step input).plic source phase' := by
  have restoring : host.plic.restoring = true := by simp [Plic.restoring, restore]
  have blocking : (host.step input).plic.gatewayBlocking source =
      host.plic.gatewayBlocking source := if_pos restore
  have pending : (host.step input).plic.ip source =
      if host.plic.irqResponse = source.id then false else host.plic.ip source := if_pos restore
  have quiet : (host.step input).plic.claiming source = false := by
    rw [Plic.claiming, (@Steady.step_busy _ input steady restoring).2.1, Bool.false_and]
  have emitted : host.events input source =
      if host.plic.claiming source = true then [.claimed] else [] := by
    simp [events, steady.returns_eq orderly, restoring, Plic.completing, restore]
  rw [emitted]
  cases inPhase with
  | listening opens clear still =>
    exact ⟨.listening, by simp [still], .listening (blocking.trans opens) (by simp [pending, clear])
      quiet⟩
  | waiting blocks waits first =>
    cases claiming : host.plic.claiming source with
    | true =>
      exact ⟨.served, by simp [GatewayPhase.next], .served (blocking.trans blocks)
        (by rw [pending, if_pos (first claiming)]) quiet⟩
    | false =>
      refine ⟨.waiting, by simp, .waiting (blocking.trans blocks) ?_
        fun begins => by rw [quiet] at begins; cases begins⟩
      rw [pending, if_neg, waits]
      intro moved
      have own := orderly.settled restore source moved waits
      simp [Plic.claiming, restore, own] at claiming
  | served blocks clear still =>
    exact ⟨.served, by simp [still], .served (blocking.trans blocks) (by simp [pending, clear])
      quiet⟩

/-- A cycle that carries out a completion. -/
theorem InPhase.step_gatewayRestore {phase : GatewayPhase}
    (inPhase : InPhase host.plic source phase) (steady : host.Steady)
    (orderly : host.Orderly input) (idle : host.plic.ipRestore = false)
    (restore : host.plic.gatewayRestore = true) :
    ∃ phase', (host.events input source).foldlM GatewayPhase.next phase = some phase' ∧
      InPhase (host.step input).plic source phase' := by
  have restoring : host.plic.restoring = true := by simp [Plic.restoring, restore]
  have blocking : (host.step input).plic.gatewayBlocking source =
      if host.plic.restoreGatewayId = source.id.setWidth 3 then false
      else host.plic.gatewayBlocking source := by
    simp only [step, Plic.step, idle, restore, Bool.false_eq_true, if_false, if_true]
  have pending : (host.step input).plic.ip source = host.plic.ip source := by
    simp only [step, Plic.step, idle, restore, Bool.false_eq_true, if_false, if_true]
  have quiet : (host.step input).plic.claiming source = false := by
    rw [Plic.claiming, (@Steady.step_busy _ input steady restoring).2.1, Bool.false_and]
  have emitted : host.events input source =
      if host.plic.restoreGatewayId = source.id.setWidth 3 ∧
        host.plic.gatewayBlocking source = true then [.reopened] else [] := by
    simp [events, steady.returns_eq orderly, Plic.claiming, Plic.completing, restoring, idle, restore]
  rw [emitted]
  cases inPhase with
  | listening opens clear still =>
    exact ⟨.listening, by simp [opens], .listening (by simp [blocking, opens])
      (pending.trans clear) quiet⟩
  | waiting blocks waits first =>
    have other : host.plic.restoreGatewayId ≠ source.id.setWidth 3 := by
      intro own
      have clear := orderly.claimed source (by simp [Plic.completing, idle, restore, own]) blocks
      rw [waits] at clear
      cases clear
    exact ⟨.waiting, by simp [other], .waiting (by simp [blocking, other, blocks])
      (pending.trans waits) fun begins => by rw [quiet] at begins; cases begins⟩
  | served blocks clear still =>
    by_cases own : host.plic.restoreGatewayId = source.id.setWidth 3
    · exact ⟨.listening, by simp [own, blocks, GatewayPhase.next],
        .listening (by simp [blocking, own]) (pending.trans clear) quiet⟩
    · exact ⟨.served, by simp [own], .served (by simp [blocking, own, blocks])
        (pending.trans clear) quiet⟩

/-- Any other cycle. -/
theorem InPhase.step_listening {phase : GatewayPhase} (inPhase : InPhase host.plic source phase)
    (steady : host.Steady) (orderly : host.Orderly input)
    (idle : host.plic.restoring = false) :
    ∃ phase', (host.events input source).foldlM GatewayPhase.next phase = some phase' ∧
      InPhase (host.step input).plic source phase' := by
  have rest : host.plic.ipRestore = false ∧ host.plic.gatewayRestore = false := by
    simpa [Plic.restoring] using idle
  have blocking : (host.step input).plic.gatewayBlocking source =
      (host.plic.gatewayBlocking source || input.irq source) := by
    simp only [step, Plic.step, rest, Bool.false_eq_true, if_false]
    rfl
  have pending : (host.step input).plic.ip source =
      (host.plic.ip source || (input.irq source && !host.plic.gatewayBlocking source)) := by
    simp only [step, Plic.step, rest, Bool.false_eq_true, if_false]
    rfl
  have emitted : host.events input source =
      if input.irq source = true ∧ host.plic.gatewayBlocking source = false
        then [.accepted] else [] := by
    simp [events, steady.returns_eq orderly, Plic.claiming, Plic.completing, idle, rest]
  -- a claim that is taken now is of a pending interrupt, and the response stays with it
  have begins : (host.step input).plic.claiming source = true →
      host.plic.ip source = true ∧ (host.step input).plic.irqResponse = source.id := by
    intro starts
    simp only [Plic.claiming, Bool.and_eq_true, beq_iff_eq] at starts
    obtain ⟨taken, shown⟩ := starts
    have claims : host.plic.claims (host.plicInput input) = true := by
      simpa only [step, Plic.step, idle, Bool.false_eq_true, if_false] using taken
    have read : (host.step input).plic.plicWbmRdata = host.plic.irqResponse.setWidth 32 :=
      if_pos claims
    have own : host.plic.irqResponse = source.id := by
      rw [read] at shown
      have narrow := congrArg (BitVec.setWidth 2) shown
      simpa [BitVec.setWidth_setWidth_of_le] using narrow
    exact ⟨orderly.pending claims own, (orderly.shown claims).1.trans own⟩
  have silent : host.plic.ip source = false → (host.step input).plic.claiming source = false := by
    intro clear
    rw [← Bool.not_eq_true]
    intro starts
    rw [(begins starts).1] at clear
    cases clear
  rw [emitted]
  cases inPhase with
  | listening opens clear quiet =>
    cases irq : input.irq source
    · exact ⟨.listening, by simp, .listening (by simp [blocking, opens, irq])
        (by simp [pending, clear, irq]) (silent clear)⟩
    · exact ⟨.waiting, by simp [opens, GatewayPhase.next], .waiting (by simp [blocking, irq])
        (by simp [pending, irq, opens]) fun starts => (begins starts).2⟩
  | waiting blocks waits first =>
    exact ⟨.waiting, by simp [blocks], .waiting (by simp [blocking, blocks])
      (by simp [pending, waits]) fun starts => (begins starts).2⟩
  | served blocks clear quiet =>
    exact ⟨.served, by simp [blocks], .served (by simp [blocking, blocks])
      (by simp [pending, clear, blocks]) (silent clear)⟩

theorem InPhase.step {phase : GatewayPhase} (inPhase : InPhase host.plic source phase)
    (steady : host.Steady) (orderly : host.Orderly input) :
    ∃ phase', (host.events input source).foldlM GatewayPhase.next phase = some phase' ∧
      InPhase (host.step input).plic source phase' := by
  cases restore : host.plic.ipRestore with
  | true => exact inPhase.step_ipRestore steady orderly restore
  | false =>
    cases gateway : host.plic.gatewayRestore with
    | true => exact inPhase.step_gatewayRestore steady orderly restore gateway
    | false =>
      exact inPhase.step_listening steady orderly (by simp [Plic.restoring, restore, gateway])

/-- A gateway works in its order, and its registers show where it stands. -/
theorem run_inPhase (inputs : List PlicHostInput) (obeys : machine.Obeys Orderly inputs) :
    (machine.run inputs).Steady ∧
      ∀ source, ∃ phase, (machine.log (fun host input => host.events input source) inputs).foldlM
          GatewayPhase.next .listening = some phase ∧
        InPhase (machine.run inputs).plic source phase := by
  induction inputs using List.reverseRecOn with
  | nil => exact ⟨reset_steady, fun source => ⟨.listening, rfl, .listening rfl rfl rfl⟩⟩
  | append_singleton inputs input ih =>
    obtain ⟨before, orderly⟩ := Synchronous.obeys_snoc.mp obeys
    obtain ⟨steady, phases⟩ := ih before
    rw [Synchronous.run_snoc]
    refine ⟨steady.step orderly, fun source => ?_⟩
    obtain ⟨phase, order, inPhase⟩ := phases source
    obtain ⟨phase', order', next⟩ := inPhase.step steady orderly
    refine ⟨phase', ?_, next⟩
    rw [Synchronous.log_snoc, List.foldlM_append, order]
    exact order'

/-- What an orderly cycle does to the pending bits. -/
theorem faithful_of_orderly (steady : host.Steady)
    (inPhase : ∀ source, ∃ phase, InPhase host.plic source phase)
    (orderly : host.Orderly input) : host.Faithful input := by
  have restores : host.plic.ipRestore = true → ∀ source, (host.step input).plic.ip source =
      if host.plic.irqResponse = source.id then false else host.plic.ip source := by
    intro restore source
    exact if_pos restore
  refine ⟨fun waits => ?_, fun returned => ?_, ?_, ?_, ?_⟩
  · rw [← steady.ipRestore] at waits
    exact (steady.asked_of_restoring (by simp [Plic.restoring, waits])).2
  · rw [steady.returned_eq orderly] at returned
    exact steady.names returned
  · intro source claiming
    rw [steady.returns_eq orderly] at claiming
    have restore : host.plic.ipRestore = true := ((Bool.and_eq_true _ _).mp claiming).1
    obtain ⟨phase, stands⟩ := inPhase source
    cases stands with
    | listening opens clear quiet => rw [quiet] at claiming; cases claiming
    | waiting blocks waits first => rw [restores restore, if_pos (first claiming)]
    | served blocks clear quiet => rw [quiet] at claiming; cases claiming
  · intro source waits cleared
    rw [steady.returns_eq orderly]
    by_cases restore : host.plic.ipRestore = true
    · rw [restores restore] at cleared
      split at cleared
      · rename_i moved
        have own := orderly.settled restore source moved waits
        simp [Plic.claiming, restore, own]
      · rw [waits] at cleared
        cases cleared
    · rw [Bool.not_eq_true] at restore
      simp [step, Plic.step, restore, waits] at cleared
  · intro source asks opens
    rw [steady.returns_eq orderly]
    by_cases restoring : host.plic.restoring = true
    · exact .inr (orderly.alone restoring source asks opens)
    · rw [Bool.not_eq_true] at restoring
      have rest : host.plic.ipRestore = false ∧ host.plic.gatewayRestore = false := by
        simpa [Plic.restoring] using restoring
      have heard : (host.plicInput input).irq source = true := asks
      left
      simp [step, Plic.step, rest, heard, opens]

/-- In every run of orderly cycles the controller keeps its word in each of them, and every gateway
lets an interrupt be claimed exactly once before it re-opens. -/
theorem plic_serves_interrupts (inputs : List PlicHostInput)
    (obeys : machine.Obeys Orderly inputs) :
    machine.Obeys Faithful inputs ∧
      ∀ source, ∃ phase, (machine.log (fun host input => host.events input source) inputs).foldlM
        GatewayPhase.next .listening = some phase := by
  constructor
  · intro past input rest split
    obtain ⟨steady, phases⟩ := run_inPhase past (Synchronous.obeys_prefix obeys split)
    apply faithful_of_orderly steady
    · intro source
      obtain ⟨phase, -, stands⟩ := phases source
      exact ⟨phase, stands⟩
    · exact obeys past input rest split
  · intro source
    obtain ⟨phase, order, -⟩ := (run_inPhase inputs obeys).2 source
    exact ⟨phase, order⟩

/-- Bus cycles: none starts, a read of the claim register does, or a write of the completion
register. -/
def quietCycle (irq : IrqSource → Bool) : PlicHostInput := ⟨none, ⟨0, 0, false⟩, irq⟩

def claimCycle : PlicHostInput :=
  ⟨some ⟨Plic.irqResponseAddr, 0, false⟩, ⟨0, 0, false⟩, fun _ => false⟩

def completeCycle (id : BitVec 32) : PlicHostInput :=
  ⟨some ⟨Plic.irqCompleteAddr, id, true⟩, ⟨0, 0, false⟩, fun _ => false⟩

/-- An interrupt of the UART is claimed and completed; each access is held until it is acknowledged,
and a cycle passes before the next one. -/
def servedInterrupt : List PlicHostInput :=
  let quiet := quietCycle fun _ => false
  [quietCycle fun source => source == .uart, quiet, claimCycle, quiet, quiet, completeCycle 1, quiet,
    quiet]

theorem plic_serves_interrupts_witness : machine.Obeys Faithful servedInterrupt ∧
    ∀ source, ∃ phase,
      (machine.log (fun host input => host.events input source) servedInterrupt).foldlM
        GatewayPhase.next .listening = some phase :=
  plic_serves_interrupts servedInterrupt (by decide +kernel)

/-- A claim behind it reads the same identifier again, with nothing pending. -/
theorem second_claim_reads_stale :
    ¬∀ inputs : List PlicHostInput, machine.Obeys Faithful inputs ∧
      ∀ source, ∃ phase, (machine.log (fun host input => host.events input source) inputs).foldlM
        GatewayPhase.next .listening = some phase := by
  intro served
  have faithful := (served (servedInterrupt ++ [claimCycle, quietCycle fun _ => false])).1
    (servedInterrupt ++ [claimCycle]) (quietCycle fun _ => false) [] rfl
  have none : ∀ source, (machine.run (servedInterrupt ++ [claimCycle])).before source = false := by
    decide +kernel
  rcases faithful.returns (by decide +kernel) with ⟨zero, -⟩ | ⟨source, -, qualified, -⟩
  · revert zero
    decide +kernel
  · rw [none source] at qualified
    cases qualified

end PlicHost

end GreenRio
