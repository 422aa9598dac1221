import GreenRio.Lsu
import GreenRio.Synchronous

set_option autoImplicit false

namespace GreenRio

namespace WbArb

section Signals

variable (bus : BusCtrl) (dcache : DcacheWires)

/-- `|l1d_wb_arb_wb_vld_i`. -/
def dcacheVld : Bool := dcache.wbLoad.vld || dcache.wbStore.vld

/-- `wb_arb_bus_rdy_o`. -/
def busRdy : Bool :=
  !dcacheVld dcache && (!bus.prfWbVld || (bus.prfWbVld && !dcache.prfWbVld))

/-- `wb_arb_prf_wb_*`. -/
def prfWbVld : Bool := dcache.prfWbVld || bus.prfWbVld

def prfWbRdAddr : PhyReg :=
  if dcache.prfWbVld then dcache.prfWbRdAddr else if bus.prfWbVld then bus.request.rdAddr else 0

def prfWbData : Word :=
  if dcache.prfWbVld then dcache.prfWbData else if bus.prfWbVld then bus.prfWbData else 0

/-- The port of the bus in `wb_arb_lsq_wb_*`, behind those of the cache. -/
def busPort : WbPort := ⟨!dcacheVld dcache && bus.wbVld, bus.request.robIndex⟩

def wbPorts : List WbPort := [dcache.wbLoad, dcache.wbStore, busPort bus dcache]

end Signals

/-- The arbiter in the load/store unit. -/
theorem lsu_signals (lsu : Lsu) (input : LsuInput) :
    lsu.wbArbBusRdy input = busRdy lsu.bus input.dcache ∧
      lsu.prfWbVld input = prfWbVld lsu.bus input.dcache ∧
      lsu.prfWbRdAddr input = prfWbRdAddr lsu.bus input.dcache ∧
      lsu.prfWbData input = prfWbData lsu.bus input.dcache ∧
      lsu.wbPorts input = wbPorts lsu.bus input.dcache :=
  ⟨rfl, rfl, rfl, rfl, rfl⟩

/-- One cycle around the arbiter and the bus controller. -/
structure Input where
  flush : Bool
  reqVld : Bool
  request : BusRequest
  reqData : Word
  ack : Bool
  wbDat : BitVec 32
  dcache : DcacheWires

/-- The bus controller, and how many accesses it has taken. -/
structure Numbered where
  bus : BusCtrl
  taken : Nat

/-- A value on its way to a register. -/
structure Writeback where
  access : Nat
  rdAddr : PhyReg
  data : Word

/-- A completion on its way to the queue. -/
structure Completion where
  access : Nat
  robIndex : RobIndex

section Cycle

variable (numbered : Numbered) (input : Input)

/-- The controller is told that its result is taken. -/
def released : Bool := numbered.bus.wbVld && busRdy numbered.bus input.dcache

def accepts : Bool :=
  !input.flush && (input.reqVld && numbered.bus.rdy (released numbered input))

def step : Numbered where
  bus := numbered.bus.step input.flush input.reqVld input.request input.reqData
    (busRdy numbered.bus input.dcache) input.ack input.wbDat
  taken := if accepts numbered input then numbered.taken + 1 else numbered.taken

def machine : Synchronous Numbered Input := ⟨⟨BusCtrl.reset, 0⟩, step⟩

/-- What the register file sees of the bus, and of the cache. -/
def busWritebacks : List Writeback :=
  if prfWbVld numbered.bus input.dcache && !input.dcache.prfWbVld then
    [⟨numbered.taken, prfWbRdAddr numbered.bus input.dcache, prfWbData numbered.bus input.dcache⟩]
  else []

def dcacheWritebacks : List (PhyReg × Word) :=
  if prfWbVld numbered.bus input.dcache && input.dcache.prfWbVld then
    [(prfWbRdAddr numbered.bus input.dcache, prfWbData numbered.bus input.dcache)]
  else []

/-- What the queue sees of the bus, and of the cache. -/
def busCompletions : List Completion :=
  ((wbPorts numbered.bus input.dcache).drop 2).filterMap fun port =>
    if port.vld then some ⟨numbered.taken, port.robIndex⟩ else none

def dcacheCompletions : List WbPort :=
  ((wbPorts numbered.bus input.dcache).take 2).filter WbPort.vld

/-- The results that the controller gives up, those of loads with their values. -/
def releasedWritebacks : List Writeback :=
  if released numbered input && !numbered.bus.request.loadOrStore then
    [⟨numbered.taken, numbered.bus.request.rdAddr, numbered.bus.prfWbData⟩]
  else []

def releasedCompletions : List Completion :=
  if released numbered input then [⟨numbered.taken, numbered.bus.request.robIndex⟩] else []

/-- The results of the cache. -/
def dcacheResults : List (PhyReg × Word) :=
  if input.dcache.prfWbVld then [(input.dcache.prfWbRdAddr, input.dcache.prfWbData)] else []

def dcacheCompleted : List WbPort :=
  [input.dcache.wbLoad, input.dcache.wbStore].filter WbPort.vld

/-- While the bus has a value for a register, the cache writes a register if and only if it
completes an operation. -/
def Together : Prop :=
  numbered.bus.prfWbVld = true → input.dcache.prfWbVld = dcacheVld input.dcache

end Cycle

instance (numbered : Numbered) (input : Input) : Decidable (Together numbered input) :=
  inferInstanceAs (Decidable (_ → _))

/-- Every result is seen once: those of the cache in their cycle, those of the bus in the cycle in
which the controller gives them up. -/
structure DeliversOnce (inputs : List Input) : Prop where
  writebacks : machine.log busWritebacks inputs = machine.log releasedWritebacks inputs
  completions : machine.log busCompletions inputs = machine.log releasedCompletions inputs
  once : ((machine.log releasedCompletions inputs).map Completion.access).Pairwise (· < ·)
  dcacheWritebacks : machine.log dcacheWritebacks inputs = inputs.flatMap dcacheResults
  dcacheCompletions : machine.log dcacheCompletions inputs = inputs.flatMap dcacheCompleted

variable {numbered : Numbered} {input : Input}

theorem dcacheWritebacks_eq (numbered : Numbered) (input : Input) :
    dcacheWritebacks numbered input = dcacheResults input := by
  unfold dcacheWritebacks dcacheResults prfWbVld prfWbRdAddr prfWbData
  cases input.dcache.prfWbVld <;> simp

/-- The register file sees a value of the bus that is given up. -/
theorem busWritebacks_eq : busWritebacks numbered input = releasedWritebacks numbered input ↔
    (numbered.bus.prfWbVld = true → input.dcache.prfWbVld = false →
      dcacheVld input.dcache = false) := by
  have load : (released numbered input && !numbered.bus.request.loadOrStore) =
      (numbered.bus.prfWbVld && !dcacheVld input.dcache && !input.dcache.prfWbVld) := by
    unfold released busRdy BusCtrl.prfWbVld
    cases numbered.bus.wbVld <;> cases numbered.bus.request.loadOrStore <;>
      cases dcacheVld input.dcache <;> cases input.dcache.prfWbVld <;> rfl
  unfold busWritebacks releasedWritebacks
  rw [load, prfWbVld, prfWbRdAddr, prfWbData]
  cases input.dcache.prfWbVld <;> cases numbered.bus.prfWbVld <;>
    cases dcacheVld input.dcache <;> simp

/-- The queue sees a completion of the bus that is given up. -/
theorem busCompletions_eq : busCompletions numbered input = releasedCompletions numbered input ↔
    (numbered.bus.prfWbVld = true → input.dcache.prfWbVld = true →
      dcacheVld input.dcache = true) := by
  have seen : busCompletions numbered input =
      if !dcacheVld input.dcache && numbered.bus.wbVld then
        [⟨numbered.taken, numbered.bus.request.robIndex⟩] else [] := by
    unfold busCompletions wbPorts busPort
    cases dcacheVld input.dcache <;> cases numbered.bus.wbVld <;> rfl
  rw [seen]
  unfold releasedCompletions released busRdy BusCtrl.prfWbVld
  cases numbered.bus.wbVld <;> cases numbered.bus.request.loadOrStore <;>
    cases dcacheVld input.dcache <;> cases input.dcache.prfWbVld <;> simp

/-- In a cycle what is seen of the bus is what it gives up if and only if the cache keeps its two
outputs together. -/
theorem together_iff : Together numbered input ↔
    busWritebacks numbered input = releasedWritebacks numbered input ∧
      busCompletions numbered input = releasedCompletions numbered input := by
  rw [busWritebacks_eq, busCompletions_eq, Together]
  cases input.dcache.prfWbVld <;> cases dcacheVld input.dcache <;> simp

/-- The controller is free after it gave up a result, or has taken another access. -/
theorem step_freed (freed : released numbered input = true) :
    (step numbered input).bus.vld = true → numbered.taken < (step numbered input).taken := by
  obtain ⟨presented, ready⟩ := Bool.and_eq_true_iff.mp freed
  have active : numbered.bus.vld = true := (Bool.and_eq_true_iff.mp presented).2
  intro vld
  have accepted : accepts numbered input = true := by
    unfold accepts BusCtrl.rdy
    cases flush : input.flush with
    | true => simp [step, BusCtrl.step, BusCtrl.reset, flush] at vld
    | false =>
      simp only [step, BusCtrl.step, flush, presented, ready, active] at vld
      simpa [freed] using vld
  simp [step, accepted]

/-- Otherwise an access that is in progress was in progress before, or is taken. -/
theorem step_kept (vld : (step numbered input).bus.vld = true)
    (same : (step numbered input).taken = numbered.taken) : numbered.bus.vld = true := by
  by_contra idle
  rw [Bool.not_eq_true] at idle
  have refused : accepts numbered input = false := by
    by_contra accepted
    rw [Bool.not_eq_false] at accepted
    simp [step, accepted] at same
  cases flush : input.flush with
  | true => simp [step, BusCtrl.step, BusCtrl.reset, flush] at vld
  | false =>
    have silent : input.reqVld = false := by
      simpa [accepts, flush, BusCtrl.rdy, idle] using refused
    simp [step, BusCtrl.step, flush, idle, silent] at vld

theorem taken_le (numbered : Numbered) (input : Input) :
    numbered.taken ≤ (step numbered input).taken := by
  unfold step
  dsimp only
  split <;> omega

/-- What has been given up is behind the access that is in progress. -/
def Behind (numbered : Numbered) (access : Nat) : Prop :=
  access ≤ numbered.taken ∧ (numbered.bus.vld = true → access < numbered.taken)

theorem Behind.step {access : Nat} (behind : Behind numbered access) (input : Input) :
    Behind (WbArb.step numbered input) access := by
  have grows := taken_le numbered input
  refine ⟨behind.1.trans grows, fun vld => ?_⟩
  by_cases same : (WbArb.step numbered input).taken = numbered.taken
  · rw [same]
    exact behind.2 (step_kept vld same)
  · have before := behind.1
    omega

/-- An access is given up at most once. -/
theorem released_once (inputs : List Input) :
    ((machine.log releasedCompletions inputs).map Completion.access).Pairwise (· < ·) ∧
      ∀ access ∈ (machine.log releasedCompletions inputs).map Completion.access,
        Behind (machine.run inputs) access := by
  induction inputs using List.reverseRecOn with
  | nil => exact ⟨.nil, by simp⟩
  | append_singleton inputs input ih =>
    obtain ⟨increasing, behind⟩ := ih
    rw [Synchronous.log_snoc, Synchronous.run_snoc, List.map_append]
    unfold releasedCompletions
    cases freed : released (machine.run inputs) input with
    | false =>
      rw [if_neg (by simp), List.map_nil, List.append_nil]
      exact ⟨increasing, fun access member => (behind access member).step input⟩
    | true =>
      have active : (machine.run inputs).bus.vld = true := by
        have presented := (Bool.and_eq_true_iff.mp freed).1
        exact (Bool.and_eq_true_iff.mp presented).2
      rw [if_pos rfl, List.map_singleton]
      refine ⟨List.pairwise_append.mpr ⟨increasing, List.pairwise_singleton _ _, ?_⟩, ?_⟩
      · intro access member last own
        rw [List.mem_singleton.mp own]
        exact (behind access member).2 active
      · intro access member
        rcases List.mem_append.mp member with old | own
        · exact (behind access old).step input
        · rw [List.mem_singleton.mp own]
          exact ⟨taken_le _ _, step_freed freed⟩

/-- In every run each result is delivered once, the result of the bus where it is given up, if and
only if the cache keeps its two outputs together whenever a value of the bus is waiting. -/
theorem delivers_once_iff (inputs : List Input) :
    (∀ past rest, inputs = past ++ rest → DeliversOnce past) ↔ machine.Obeys Together inputs := by
  refine Synchronous.prefixes_iff ⟨rfl, rfl, .nil, rfl, rfl⟩ (fun past input before => ?_) inputs
  constructor
  · intro after
    have writebacks := after.writebacks
    have completions := after.completions
    rw [Synchronous.log_snoc, Synchronous.log_snoc, before.writebacks] at writebacks
    rw [Synchronous.log_snoc, Synchronous.log_snoc, before.completions] at completions
    exact together_iff.mpr
      ⟨List.append_cancel_left writebacks, List.append_cancel_left completions⟩
  · intro together
    obtain ⟨writeback, completion⟩ := together_iff.mp together
    refine ⟨?_, ?_, (released_once _).1, ?_, ?_⟩
    · rw [Synchronous.log_snoc, Synchronous.log_snoc, before.writebacks, writeback]
    · rw [Synchronous.log_snoc, Synchronous.log_snoc, before.completions, completion]
    · rw [Synchronous.log_snoc, List.flatMap_append, before.dcacheWritebacks, dcacheWritebacks_eq,
        List.flatMap_singleton]
    · rw [Synchronous.log_snoc, List.flatMap_append, before.dcacheCompletions,
        List.flatMap_singleton]
      rfl

/-- A cycle in which nothing arrives. -/
def quiet : Input :=
  ⟨false, false, ⟨false, false, 0, 0, 0, 0⟩, 0, false, 0,
    ⟨true, true, false, ⟨false, 0⟩, ⟨false, 0⟩, false, 0, 0⟩⟩

/-- A load from a device whose word arrives while the cache completes a store. -/
def loadBehindStore : List Input :=
  [{ quiet with reqVld := true, request := ⟨false, false, 3, 5, 2, 0x1000⟩ },
    { quiet with ack := true, wbDat := 0x1234 },
    { quiet with dcache := { quiet.dcache with wbStore := ⟨true, 7⟩ } }, quiet]

/-- Its value is written twice. -/
theorem load_written_twice :
    (machine.log busWritebacks loadBehindStore).map Writeback.access = [1, 1] ∧
      ¬ ∀ inputs, DeliversOnce inputs := by
  have twice : (machine.log busWritebacks loadBehindStore).map Writeback.access = [1, 1] := by
    decide
  refine ⟨twice, fun delivers => ?_⟩
  rw [(delivers loadBehindStore).writebacks] at twice
  exact absurd twice (by decide)

end WbArb

end GreenRio
