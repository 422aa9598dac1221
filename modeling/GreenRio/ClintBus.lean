import GreenRio.Clint

set_option autoImplicit false

namespace GreenRio

/-- The registers that software sees; the timers and their bounds have two halves. -/
inductive ClintReg where
  | mtimecmp
  | mtime
  | msip
  | stimecmp
  | stime
  | ssip
  deriving DecidableEq

/-- The half of a register that an address means. -/
structure ClintHalf where
  reg : ClintReg
  high : Bool
  deriving DecidableEq

/-- The contents of the registers. -/
abbrev ClintContents := ClintReg → BitVec 64

namespace ClintReg

/-- What a register does by itself in a cycle. -/
def advanced (reg : ClintReg) (value : BitVec 64) : BitVec 64 :=
  match reg with
  | mtime => value + 1
  | stime => value + 1
  | _ => value

end ClintReg

namespace ClintHalf

def content (half : ClintHalf) (contents : ClintContents) : BitVec 32 :=
  (contents half.reg).extractLsb' (if half.high then 32 else 0) 32

/-- The value of a register after a write to one of its halves; of the software interrupts only the
lowest bit exists. -/
def replaced (half : ClintHalf) (value : BitVec 64) (data : BitVec 32) : BitVec 64 :=
  match half.reg, half.high with
  | .msip, _ => (BitVec.ofBool (data.getLsbD 0)).setWidth 64
  | .ssip, _ => (BitVec.ofBool (data.getLsbD 0)).setWidth 64
  | _, true => data ++ value.extractLsb' 0 32
  | _, false => value.extractLsb' 32 32 ++ data

end ClintHalf

/-- A write to one half of a register. -/
structure ClintWrite where
  half : ClintHalf
  data : BitVec 32

/-- What a cycle makes of the registers, given the write that takes effect in it: the register that
is written keeps its other half, and all others do what they do by themselves. -/
def ClintContents.after (contents : ClintContents) (write : Option ClintWrite) : ClintContents :=
  fun reg =>
    match write with
    | none => reg.advanced (contents reg)
    | some write =>
      if write.half.reg = reg then write.half.replaced (contents reg) write.data
      else reg.advanced (contents reg)

namespace Clint

/-- Which halves the addresses mean. -/
def layout : List (BitVec 32 × ClintHalf) :=
  [(mtimecmpAddr, ⟨.mtimecmp, false⟩), (mtimecmpAddr + 4, ⟨.mtimecmp, true⟩),
    (msipAddr, ⟨.msip, false⟩), (mtimeAddr, ⟨.mtime, false⟩), (mtimeAddr + 4, ⟨.mtime, true⟩),
    (stimecmpAddr, ⟨.stimecmp, false⟩), (stimecmpAddr + 4, ⟨.stimecmp, true⟩),
    (ssipAddr, ⟨.ssip, false⟩), (stimeAddr, ⟨.stime, false⟩), (stimeAddr + 4, ⟨.stime, true⟩)]

def located (address : BitVec 32) : Option ClintHalf := layout.lookup address

def contents (clint : Clint) : ClintContents
  | .mtimecmp => clint.mtimecmp
  | .mtime => clint.mtime
  | .msip => (BitVec.ofBool clint.msip).setWidth 64
  | .stimecmp => clint.stimecmp
  | .stime => clint.stime
  | .ssip => (BitVec.ofBool clint.ssip).setWidth 64

/-- The write that takes effect in a cycle. -/
def written (clint : Clint) (port : Wishbone.Port) : Option ClintWrite :=
  if clint.accessed port && port.we then
    (located port.addr).map fun half => ⟨half, port.wdata⟩
  else none

variable {clint : Clint} {port : Wishbone.Port}

/-- The read case statement shows the halves under the addresses of the layout. -/
theorem halves_eq : clint.halves =
    layout.map fun place => (place.1, place.2.content clint.contents) := by
  have flag : ∀ bit, (BitVec.ofBool bit).setWidth 32 =
      ((BitVec.ofBool bit).setWidth 64).extractLsb' 0 32 := by decide
  simp [halves, layout, ClintHalf.content, contents, flag]

theorem lookup_halves : clint.halves.lookup port.addr =
    (located port.addr).map (ClintHalf.content · clint.contents) := by
  rw [halves_eq, located]
  induction layout with
  | nil => rfl
  | cons place rest ih =>
    rw [List.map_cons, List.lookup_cons, List.lookup_cons, ih]
    cases port.addr == place.1 <;> rfl

theorem located_eq_none : located port.addr = none ↔ ∀ place ∈ layout, port.addr ≠ place.1 := by
  simp [located, List.lookup_eq_none_iff]

theorem mem_layout {half : ClintHalf} (found : located port.addr = some half) :
    (port.addr, half) ∈ layout := by
  obtain ⟨before, after, split, -⟩ := List.lookup_eq_some_iff.mp found
  rw [split]
  simp

/-- A cycle in which no write takes effect. -/
theorem step_contents_quiet (quiet : ∀ place ∈ layout, clint.writes port place.1 = false) :
    (clint.step port).contents = clint.contents.after none := by
  simp only [layout, List.forall_mem_cons, List.not_mem_nil] at quiet
  funext reg
  cases reg <;>
    simp only [contents, step, stored, ClintContents.after, ClintReg.advanced, quiet,
      Bool.false_eq_true, if_false]

/-- A cycle in which a half is written. -/
theorem step_contents_written {half : ClintHalf} (found : (port.addr, half) ∈ layout)
    (accessed : clint.accessed port = true) (we : port.we = true) :
    (clint.step port).contents = clint.contents.after (some ⟨half, port.wdata⟩) := by
  have writes : ∀ address, clint.writes port address = (port.addr == address) := by
    intro address
    simp [Clint.writes, accessed, we]
  generalize same : port.addr = addr at found writes
  simp only [layout, List.mem_cons, Prod.mk.injEq, List.not_mem_nil, or_false] at found
  funext reg
  rcases found with ⟨rfl, rfl⟩ | ⟨rfl, rfl⟩ | ⟨rfl, rfl⟩ | ⟨rfl, rfl⟩ | ⟨rfl, rfl⟩ | ⟨rfl, rfl⟩ |
    ⟨rfl, rfl⟩ | ⟨rfl, rfl⟩ | ⟨rfl, rfl⟩ | ⟨rfl, rfl⟩ <;>
    cases reg <;>
    simp [contents, step, stored, ClintContents.after, ClintReg.advanced, ClintHalf.replaced,
      writes, mtimecmpAddr, mtimeAddr, msipAddr, stimecmpAddr, stimeAddr, ssipAddr]

theorem step_contents (clint : Clint) (port : Wishbone.Port) :
    (clint.step port).contents = clint.contents.after (clint.written port) := by
  by_cases asked : clint.accessed port = true ∧ port.we = true
  · cases found : located port.addr with
    | none =>
      have outside := located_eq_none.mp found
      rw [written, found, Option.map_none, ite_self, step_contents_quiet]
      intro place member
      simp [writes, outside place member]
    | some half =>
      rw [step_contents_written (mem_layout found) asked.1 asked.2]
      simp [written, asked, found]
  · have quiet : (clint.accessed port && port.we) = false := by
      rw [← Bool.not_eq_true, Bool.and_eq_true]
      exact asked
    rw [written, quiet, step_contents_quiet]
    · rfl
    · intro place member
      simp [writes, quiet]

theorem step_ackFf : (clint.step port).ackFf = true ↔
    clint.accessed port = true ∧ ∃ half, located port.addr = some half := by
  change (clint.accessed port && (clint.halves.lookup port.addr).isSome) = true ↔ _
  rw [Bool.and_eq_true, lookup_halves, Option.isSome_map, Option.isSome_iff_exists]

end Clint

namespace SocBus

section Transactions

variable (bus : SocBus) (input : SocInput)

/-- The write that is acknowledged in a cycle. -/
def ackedWrite : Option ClintWrite :=
  (bus.acknowledged input).bind fun transaction =>
    if transaction.we then
      (Clint.located transaction.addr).map fun half => ⟨half, transaction.wdata⟩
    else none

/-- The half whose read is acknowledged in a cycle. -/
def ackedRead : Option ClintHalf :=
  (bus.acknowledged input).bind fun transaction =>
    if transaction.we then none else Clint.located transaction.addr

end Transactions

/-- No slave but `clint` has been accessed. -/
structure Alone (bus : SocBus) : Prop where
  plic : bus.plic.ackFf = false
  uart : bus.uartAckFf = false
  crg : bus.crgAckFf = false

variable {bus : SocBus} {input : SocInput}

/-- A bus cycle carries a transaction of the current master. -/
theorem port_cases (bus : SocBus) (input : SocInput) :
    (∃ transaction, bus.asked input bus.currentMaster = some transaction ∧
      bus.port input = ⟨transaction.toLines, true, true⟩) ∨
    (bus.asked input bus.currentMaster = none ∧ (bus.port input).cyc = false ∧
      (bus.port input).stb = false) := by
  unfold port
  cases asked : bus.asked input bus.currentMaster with
  | none => exact .inr ⟨rfl, rfl, rfl⟩
  | some transaction => exact .inl ⟨transaction, rfl, rfl⟩

/-- A transaction for `clint` is not for an address of another page. -/
theorem routed_ne (transaction : ClintTransaction) (address : BitVec 32)
    (page : address.extractLsb' 8 4 ≠ 5) : transaction.addr ≠ address := by
  rintro rfl
  exact page transaction.routed

theorem Alone.step (alone : bus.Alone) (input : SocInput) : (bus.step input).Alone := by
  rcases port_cases bus input with ⟨transaction, -, carried⟩ | ⟨-, cyc, stb⟩
  · have elsewhere : ∀ address ∈ Plic.addresses, transaction.addr ≠ address := by
      have pages : ∀ address ∈ Plic.addresses, address.extractLsb' 8 4 ≠ 5 := by
        simp only [Plic.addresses, List.forall_mem_cons, List.not_mem_nil, IsEmpty.forall_iff,
          implies_true, and_true]
        decide
      exact fun address member => routed_ne transaction address (pages address member)
    refine ⟨?_, ?_, ?_⟩
    · change bus.plic.ackFfNext (bus.plicInput input) = false
      simp only [Plic.addresses, List.forall_mem_cons] at elsewhere
      simp [Plic.ackFfNext, plicInput, PlicInput.ofPort, carried, alone.plic, elsewhere,
        Plic.addresses]
    · change bus.uartAckFfNext input = false
      have tx := routed_ne transaction uartTxDataAddr (by decide)
      have rx := routed_ne transaction uartRxDataAddr (by decide)
      have txCtrl := routed_ne transaction uartTxCtrlAddr (by decide)
      have rxCtrl := routed_ne transaction uartRxCtrlAddr (by decide)
      simp [uartAckFfNext, carried, tx, rx, txCtrl, rxCtrl]
    · change bus.crgAckFfNext input = false
      have ctrl := routed_ne transaction crgCtrlAddr (by decide)
      simp [crgAckFfNext, carried, ctrl]
  · refine ⟨?_, ?_, ?_⟩
    · change bus.plic.ackFfNext (bus.plicInput input) = false
      simp [Plic.ackFfNext, plicInput, PlicInput.ofPort, cyc]
    · change bus.uartAckFfNext input = false
      simp [uartAckFfNext, cyc]
    · change bus.crgAckFfNext input = false
      simp [crgAckFfNext, stb]

/-- Only `clint` acknowledges. -/
theorem Alone.currentAck_iff (alone : bus.Alone) : bus.currentAck input = true ↔
    bus.slaveSelect = 5 ∧ (bus.port input).cyc = true ∧ bus.clint.ackFf = true := by
  by_cases select : bus.slaveSelect = 5
  · simp [currentAck, select, Clint.wbmAck]
  · rw [currentAck, if_neg select, Plic.wbmAck, alone.plic, alone.uart, alone.crg]
    exact iff_of_false (by simp) fun acked => select acked.1

theorem Alone.currentAck_of_idle (alone : bus.Alone) (idle : bus.clint.ackFf = false) :
    bus.currentAck input = false := by
  rw [← Bool.not_eq_true, alone.currentAck_iff]
  rintro ⟨-, -, acked⟩
  rw [idle] at acked
  cases acked

/-- A transaction that `clint` takes is acknowledged in the next cycle, whatever else happens
then. -/
theorem Alone.acknowledged_of_taken (alone : bus.Alone) (later : SocInput)
    (taken : (bus.step input).clint.ackFf = true) : ∃ transaction,
      bus.port input = ⟨transaction.toLines, true, true⟩ ∧
        (bus.step input).acknowledged later = some transaction := by
  obtain ⟨accessed, half, found⟩ := Clint.step_ackFf.mp taken
  simp only [Clint.accessed, Bool.and_eq_true, Bool.not_eq_true'] at accessed
  rcases port_cases bus input with ⟨transaction, asked, carried⟩ | ⟨-, cyc, -⟩
  · refine ⟨transaction, carried, ?_⟩
    have silent : bus.currentAck input = false := alone.currentAck_of_idle accessed.2
    have master : (bus.step input).currentMaster = bus.currentMaster := by
      simp [SocBus.step, carried]
    have held : (bus.step input).asked later bus.currentMaster = some transaction := by
      have waiting : (bus.step input).outstanding bus.currentMaster = some transaction := by
        change Wishbone.outstandingNext _ _ (bus.ack input bus.currentMaster) = _
        rw [SocBus.ack, silent, Bool.and_false, Wishbone.outstandingNext_wait]
        exact asked
      rw [SocBus.asked, waiting, Wishbone.request_some]
    have port : (bus.step input).port later = ⟨transaction.toLines, true, true⟩ := by
      rw [SocBus.port, master, held]
      rfl
    have acked : (bus.step input).currentAck later = true := by
      rw [(alone.step input).currentAck_iff, port]
      refine ⟨?_, rfl, taken⟩
      simp [SocBus.step, carried, transaction.routed]
    rw [acknowledged, acked, if_pos rfl, master, held]
  · rw [cyc] at accessed
    cases accessed.1.2

theorem Alone.acknowledged_of_idle (alone : bus.Alone) (idle : bus.clint.ackFf = false) :
    bus.acknowledged input = none := by
  rw [acknowledged, alone.currentAck_of_idle idle]
  rfl

/-- A write takes effect in the cycle before its acknowledgement, and no other write does. -/
theorem Alone.ackedWrite_step (alone : bus.Alone) (input later : SocInput) :
    (bus.step input).ackedWrite later = bus.clint.written (bus.port input) := by
  cases taken : (bus.step input).clint.ackFf with
  | true =>
    obtain ⟨accessed, half, found⟩ := Clint.step_ackFf.mp taken
    obtain ⟨transaction, carried, acked⟩ := alone.acknowledged_of_taken later taken
    rw [carried] at found
    rw [ackedWrite, acked, Option.bind_some, Clint.written, accessed, carried, Bool.true_and]
  | false =>
    rw [ackedWrite, (alone.step input).acknowledged_of_idle taken, Option.bind_none, eq_comm,
      Clint.written]
    split
    next asked =>
      rw [Bool.and_eq_true] at asked
      rw [Option.map_eq_none_iff, Option.eq_none_iff_forall_ne_some]
      intro half found
      have accepted : (bus.step input).clint.ackFf = true :=
        Clint.step_ackFf.mpr ⟨asked.1, half, found⟩
      rw [accepted] at taken
      cases taken
    next => rfl

/-- While a read is acknowledged `clint` shows nothing. -/
theorem Alone.rdata_of_ackedRead (alone : bus.Alone) {half : ClintHalf}
    (acked : bus.ackedRead input = some half) : bus.currentRdata input = 0 := by
  have answered : bus.currentAck input = true := by
    rw [← Bool.not_eq_false]
    intro silent
    rw [ackedRead, acknowledged, silent] at acked
    cases acked
  obtain ⟨select, -, ackFf⟩ := alone.currentAck_iff.mp answered
  rw [currentRdata, if_pos select, Clint.rdata, Clint.accessed, ackFf]
  simp

section Runs

variable (master : BusMaster) (select : BitVec 4)

theorem run_alone (inputs : List SocInput) : ((machine master select).run inputs).Alone :=
  (machine master select).run_invariant Alone ⟨rfl, rfl, rfl⟩
    (fun _ input alone => alone.step input) inputs

/-- The acknowledged writes, cycle by cycle. -/
def ackedWrites (inputs : List SocInput) : List (Option ClintWrite) :=
  (machine master select).log (fun bus input => [bus.ackedWrite input]) inputs

/-- In every cycle the registers are what the writes acknowledged so far have made of them, each of
them once and in the cycle before its acknowledgement; and an acknowledged read shows the half it
asks for. -/
structure Serves (inputs : List SocInput) : Prop where
  writes : ∀ past input rest, inputs = past ++ input :: rest → ∃ effects,
    ackedWrites master select (past ++ [input]) = none :: effects ∧
      ((machine master select).run past).clint.contents =
        effects.foldl ClintContents.after Clint.reset.contents
  reads : ∀ past input rest, inputs = past ++ input :: rest → ∀ half,
    ((machine master select).run past).ackedRead input = some half →
      ((machine master select).run past).currentRdata input =
        half.content ((machine master select).run past).clint.contents

/-- A half is zero when its read is acknowledged. -/
def ReadsZero (bus : SocBus) (input : SocInput) : Prop :=
  ∀ half, bus.ackedRead input = some half → half.content bus.clint.contents = 0

theorem run_contents (past : List SocInput) (input : SocInput) : ∃ effects,
    ackedWrites master select (past ++ [input]) = none :: effects ∧
      ((machine master select).run past).clint.contents =
        effects.foldl ClintContents.after Clint.reset.contents := by
  induction past using List.reverseRecOn generalizing input with
  | nil =>
    have alone := run_alone master select []
    refine ⟨[], ?_, rfl⟩
    rw [ackedWrites, Synchronous.log_snoc, ackedWrite, alone.acknowledged_of_idle rfl]
    rfl
  | append_singleton past last ih =>
    obtain ⟨effects, writes, contents⟩ := ih last
    have alone := run_alone master select past
    refine ⟨effects ++ [((machine master select).run past).clint.written
      (((machine master select).run past).port last)], ?_, ?_⟩
    · rw [ackedWrites, Synchronous.log_snoc, ← ackedWrites, writes, Synchronous.run_snoc]
      exact congrArg (fun write => none :: effects ++ [write])
        (alone.ackedWrite_step last input)
    · rw [Synchronous.run_snoc, List.foldl_append, ← contents]
      exact Clint.step_contents _ _

/-- The bus serves all transactions if and only if every read finds a zero. -/
theorem serves_iff (inputs : List SocInput) :
    Serves master select inputs ↔ (machine master select).Obeys ReadsZero inputs := by
  constructor
  · intro serves past input rest split half acked
    rw [← serves.reads past input rest split half acked]
    exact (run_alone master select past).rdata_of_ackedRead acked
  · intro obeys
    refine ⟨fun past input _ _ => run_contents master select past input, ?_⟩
    intro past input rest split half acked
    rw [obeys past input rest split half acked]
    exact (run_alone master select past).rdata_of_ackedRead acked

end Runs

/-- A cycle in which no master starts a transaction. -/
def quietCycle : SocInput := ⟨fun _ => none, fun _ => ⟨0, 0, false⟩, fun _ => false, 0, 0⟩

/-- A read of the bound of the machine timer. -/
def boundRead : SocInput :=
  { quietCycle with
    start := fun master =>
      if master = .testio then some ⟨⟨Clint.mtimecmpAddr, 0, false⟩, by decide⟩ else none }

/-- From reset its acknowledge comes with zero. -/
theorem bound_reads_zero : ¬Serves .testio 0 [boundRead, quietCycle] := by
  intro serves
  have shown := serves.reads [boundRead] quietCycle [] rfl ⟨.mtimecmp, false⟩ (by decide)
  exact absurd shown (by decide)

end SocBus

end GreenRio
