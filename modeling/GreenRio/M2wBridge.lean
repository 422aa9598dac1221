import GreenRio.AsyncWb

set_option autoImplicit false

namespace GreenRio

/-- `mem_if_req`. -/
structure MemReq where
  type : BitVec 3
  tid : BitVec 16
  addr : BitVec 32
  mask : BitVec 4
  data : BitVec 32

/-- `mem_if_resp`. -/
structure MemResp where
  type : BitVec 3
  tid : BitVec 16
  data : BitVec 32
  deriving DecidableEq

/-- `wb_current_state`. -/
inductive WbState where
  | wbIdle
  | wbStart
  | wbEnd

/-- The wires of the memory interface at an edge of `clk_i`. -/
structure MemEdge where
  reqValid : Bool
  req : MemReq
  respReady : Bool

/-- `m2w_bridge`: one memory request at a time becomes an access on the bus. -/
structure M2wBridge where
  wbCurrentState : WbState
  memifReqReady : Bool
  memifRespValid : Bool
  memifResp : MemResp
  wbValid : Bool
  wbStb : Bool
  wbCyc : Bool
  wbWe : Bool
  wbAddr : BitVec 32
  wbData : BitVec 32
  wbMask : BitVec 4
  wbTid : BitVec 16

namespace M2wBridge

/-- The registers that reset leaves alone keep what they had. -/
def reset (memifReqReady : Bool) (memifResp : MemResp) : M2wBridge where
  wbCurrentState := .wbIdle
  memifReqReady := memifReqReady
  memifRespValid := false
  memifResp := memifResp
  wbValid := false
  wbStb := false
  wbCyc := false
  wbWe := false
  wbAddr := 0
  wbData := 0
  wbMask := 0
  wbTid := 0

def memifWe (req : MemReq) : Bool := req.type == 1

def wbNextState (m2w : M2wBridge) (mem : MemEdge) (wbAck : Bool) : WbState :=
  match m2w.wbCurrentState with
  | .wbIdle => if mem.reqValid then .wbStart else .wbIdle
  | .wbStart => if m2w.wbValid && wbAck then .wbEnd else .wbStart
  | .wbEnd => if mem.respReady then .wbIdle else .wbEnd

def step (m2w : M2wBridge) (mem : MemEdge) (wbAck : Bool) (wbData : BitVec 32) : M2wBridge :=
  let next := { m2w with wbCurrentState := m2w.wbNextState mem wbAck }
  match m2w.wbCurrentState with
  | .wbIdle =>
    if mem.reqValid then
      { next with
        wbValid := true
        wbStb := true
        wbCyc := true
        wbWe := memifWe mem.req
        wbTid := mem.req.tid
        wbAddr := mem.req.addr
        wbData := mem.req.data
        wbMask := mem.req.mask
        memifReqReady := true }
    else
      { next with
        wbValid := false
        wbStb := false
        wbCyc := false
        wbWe := false
        memifReqReady := false }
  | .wbStart =>
    if wbAck then
      { next with
        memifReqReady := false
        wbStb := false
        wbCyc := false
        wbWe := false
        memifRespValid := true
        memifResp := ⟨if m2w.wbWe then 1 else 0, m2w.wbTid, wbData⟩ }
    else { next with memifReqReady := false }
  | .wbEnd => if mem.respReady then { next with memifRespValid := false } else next

/-- The bus wires. -/
def wbm (m2w : M2wBridge) : MasterEdge where
  stb := m2w.wbStb
  command := ⟨m2w.wbAddr, m2w.wbWe, m2w.wbData, m2w.wbMask⟩

end M2wBridge

namespace MemReq

/-- The access that a request asks for. -/
def command (req : MemReq) : WbCommand := ⟨req.addr, M2wBridge.memifWe req, req.data, req.mask⟩

/-- What its response is recognised by: the kind and the tag. -/
def label (req : MemReq) : BitVec 3 × BitVec 16 :=
  (if M2wBridge.memifWe req then 1 else 0, req.tid)

end MemReq

namespace MemResp

def label (resp : MemResp) : BitVec 3 × BitVec 16 := (resp.type, resp.tid)

/-- The data of the responses to reads. -/
def readData (resps : List MemResp) : List (BitVec 32) :=
  (resps.filter fun resp => resp.type == 0).map MemResp.data

end MemResp

/-- The two bridges of `testio_ma_wb`: memory requests on `test_clk` become bus accesses there, and
cross to the clock of the bus. -/
structure TestioMaWb where
  m2w : M2wBridge
  asyncWb : AsyncWb

/-- A moment at which `test_clk` or `clk_i` rises. -/
structure MaMoment where
  mem : Option MemEdge
  wbs : Option SlaveEdge
  cmdEarlyRd : BitVec 3
  cmdEarlyWr : BitVec 3
  respEarlyRd : BitVec 2
  respEarlyWr : BitVec 2

namespace TestioMaWb

/-- What `async_wb` sees. -/
def wbMoment (ma : TestioMaWb) (moment : MaMoment) : WbMoment where
  wbm := moment.mem.map fun _ => ma.m2w.wbm
  wbs := moment.wbs
  cmdEarlyRd := moment.cmdEarlyRd
  cmdEarlyWr := moment.cmdEarlyWr
  respEarlyRd := moment.respEarlyRd
  respEarlyWr := moment.respEarlyWr

def step (ma : TestioMaWb) (moment : MaMoment) : TestioMaWb where
  m2w := match moment.mem with
    | none => ma.m2w
    | some mem => ma.m2w.step mem (ma.asyncWb.wbmAck ma.m2w.wbm) ma.asyncWb.respIf.rdData.dat
  asyncWb := ma.asyncWb.step (ma.wbMoment moment)

def machine (memifReqReady : Bool) (memifResp : MemResp) (cmdMem : BitVec 2 → WbCommand)
    (respMem : BitVec 1 → WbResponse) : Synchronous TestioMaWb MaMoment where
  reset := ⟨M2wBridge.reset memifReqReady memifResp, AsyncWb.reset cmdMem respMem⟩
  step := step

/-- The slave answers only what it is asked. -/
def Lawful (ma : TestioMaWb) (moment : MaMoment) : Prop :=
  ∀ edge ∈ moment.wbs, edge.ack = true → ma.asyncWb.wbsStb = true

instance (ma : TestioMaWb) (moment : MaMoment) : Decidable (ma.Lawful moment) :=
  inferInstanceAs (Decidable (∀ _ ∈ _, _))

/-- The requests that the bridge takes. -/
def requested (ma : TestioMaWb) (moment : MaMoment) : List MemReq :=
  match ma.m2w.wbCurrentState, moment.mem with
  | .wbIdle, some mem => if mem.reqValid then [mem.req] else []
  | _, _ => []

/-- The responses that are collected. -/
def delivered (ma : TestioMaWb) (moment : MaMoment) : List MemResp :=
  match moment.mem with
  | none => []
  | some mem => if ma.m2w.memifRespValid && mem.respReady then [ma.m2w.memifResp] else []

def accepted (ma : TestioMaWb) (moment : MaMoment) : List WbCommand :=
  ma.asyncWb.accepted (ma.wbMoment moment)

def performed (ma : TestioMaWb) (moment : MaMoment) : List (WbCommand × WbResponse) :=
  ma.asyncWb.performed (ma.wbMoment moment)

def answered (ma : TestioMaWb) (moment : MaMoment) : List WbResponse :=
  ma.asyncWb.answered (ma.wbMoment moment)

end TestioMaWb

namespace M2wBridge

variable {m2w : M2wBridge} {mem : MemEdge} {req : MemReq}

/-- No request is under way. -/
structure Idle (m2w : M2wBridge) : Prop where
  state : m2w.wbCurrentState = .wbIdle
  stb : m2w.wbStb = false
  respValid : m2w.memifRespValid = false

/-- The bus is asked for this request. -/
structure Asks (m2w : M2wBridge) (req : MemReq) : Prop where
  state : m2w.wbCurrentState = .wbStart
  wbm : m2w.wbm = ⟨true, req.command⟩
  valid : m2w.wbValid = true
  tid : m2w.wbTid = req.tid
  respValid : m2w.memifRespValid = false

/-- The response to this request waits to be collected. -/
structure Offers (m2w : M2wBridge) (req : MemReq) : Prop where
  state : m2w.wbCurrentState = .wbEnd
  stb : m2w.wbStb = false
  respValid : m2w.memifRespValid = true
  label : m2w.memifResp.label = req.label

theorem Idle.stay (idle : m2w.Idle) (none : mem.reqValid = false) (wbAck : Bool)
    (wbData : BitVec 32) : (m2w.step mem wbAck wbData).Idle := by
  constructor <;> simp [step, wbNextState, idle.state, none, idle.respValid]

theorem Idle.take (idle : m2w.Idle) (valid : mem.reqValid = true) (wbAck : Bool)
    (wbData : BitVec 32) : (m2w.step mem wbAck wbData).Asks mem.req := by
  constructor <;>
    simp [step, wbNextState, wbm, MemReq.command, idle.state, valid, idle.respValid]

theorem Asks.wait (asks : m2w.Asks req) (wbData : BitVec 32) :
    (m2w.step mem false wbData).Asks req := by
  have wires := asks.wbm
  constructor <;> simp [step, wbNextState, asks.state, asks.valid, asks.tid, asks.respValid]
  exact wires

theorem Asks.finish (asks : m2w.Asks req) (mem : MemEdge) (wbData : BitVec 32) :
    (m2w.step mem true wbData).Offers req ∧
      (m2w.step mem true wbData).memifResp =
        ⟨if req.command.we then 1 else 0, req.tid, wbData⟩ := by
  have we : m2w.wbWe = req.command.we := congrArg (fun edge => edge.command.we) asks.wbm
  have response : (m2w.step mem true wbData).memifResp =
      ⟨if req.command.we then 1 else 0, req.tid, wbData⟩ := by
    simp [step, asks.state, we, asks.tid]
  refine ⟨⟨?_, ?_, ?_, ?_⟩, response⟩
  · simp [step, wbNextState, asks.state, asks.valid]
  · simp [step, asks.state]
  · simp [step, asks.state]
  · rw [response]
    rfl

theorem Offers.keep (offers : m2w.Offers req) (none : mem.respReady = false) (wbAck : Bool)
    (wbData : BitVec 32) : (m2w.step mem wbAck wbData).Offers req ∧
      (m2w.step mem wbAck wbData).memifResp = m2w.memifResp := by
  have label := offers.label
  refine ⟨⟨?_, ?_, ?_, ?_⟩, ?_⟩ <;>
    simp [step, wbNextState, offers.state, none, offers.stb, offers.respValid, label]

theorem Offers.collect (offers : m2w.Offers req) (ready : mem.respReady = true) (wbAck : Bool)
    (wbData : BitVec 32) : (m2w.step mem wbAck wbData).Idle := by
  constructor <;> simp [step, wbNextState, offers.state, ready, offers.stb]

end M2wBridge

namespace TestioMaWb

/-- How far the last request has come: only a read can have crossed over without being done. -/
inductive Stage (m2w : M2wBridge) (pendingRd : Bool) (requests : List MemReq)
    (responses : List MemResp) (commands : List WbCommand) (answers : List WbResponse) : Prop where
  | idle (idle : m2w.Idle) (free : pendingRd = false)
      (accepted : commands = requests.map MemReq.command)
      (labels : responses.map MemResp.label = requests.map MemReq.label)
      (data : answers.map WbResponse.dat = MemResp.readData responses)
  | asking (before : List MemReq) (req : MemReq) (split : requests = before ++ [req])
      (asks : m2w.Asks req) (free : pendingRd = false)
      (accepted : commands = before.map MemReq.command)
      (labels : responses.map MemResp.label = before.map MemReq.label)
      (data : answers.map WbResponse.dat = MemResp.readData responses)
  | reading (before : List MemReq) (req : MemReq) (split : requests = before ++ [req])
      (asks : m2w.Asks req) (pending : pendingRd = true) (reads : req.command.we = false)
      (accepted : commands = requests.map MemReq.command)
      (labels : responses.map MemResp.label = before.map MemReq.label)
      (data : answers.map WbResponse.dat = MemResp.readData responses)
  | done (before : List MemReq) (req : MemReq) (split : requests = before ++ [req])
      (offers : m2w.Offers req) (free : pendingRd = false)
      (accepted : commands = requests.map MemReq.command)
      (labels : responses.map MemResp.label = before.map MemReq.label)
      (data : answers.map WbResponse.dat = MemResp.readData (responses ++ [m2w.memifResp]))

section Step

variable {ma : TestioMaWb} {moment : MaMoment} {requests : List MemReq} {responses : List MemResp}
  {commands : List WbCommand} {answers : List WbResponse}

/-- While a read is outstanding the bridge keeps it up, so that `async_wb` is used as it wants. -/
theorem Stage.lawful
    (stage : Stage ma.m2w ma.asyncWb.pendingRd requests responses commands answers)
    (lawful : ma.Lawful moment) : ma.asyncWb.Lawful (ma.wbMoment moment) := by
  refine ⟨fun edge driven pending => ?_, lawful⟩
  have wires : edge = ma.m2w.wbm := by
    unfold wbMoment at driven
    cases present : moment.mem with
    | none => simp [present] at driven
    | some mem => simpa [present] using driven.symm
  cases stage with
  | idle _ free => simp [free] at pending
  | asking _ _ _ _ free => simp [free] at pending
  | done _ _ _ _ free => simp [free] at pending
  | reading before req _ asks _ reads =>
    rw [wires, asks.wbm]
    exact ⟨rfl, reads⟩

variable {waiting : List WbCommand} {carried : List (WbCommand × WbResponse)}
  {flight : List WbResponse} {cmd resp : AsyncFifo.Progress}

theorem Stage.rests
    (stage : Stage ma.m2w ma.asyncWb.pendingRd requests responses commands answers)
    (mem : moment.mem = none) :
    Stage (ma.step moment).m2w (ma.step moment).asyncWb.pendingRd
      (requests ++ ma.requested moment) (responses ++ ma.delivered moment)
      (commands ++ ma.accepted moment) (answers ++ ma.answered moment) := by
  have master : (ma.wbMoment moment).wbm = none := by simp [wbMoment, mem]
  obtain ⟨accepted, answered, pending⟩ := AsyncWb.Linked.rests ma.asyncWb master
  have requested : ma.requested moment = [] := by
    unfold TestioMaWb.requested
    rw [mem]
    cases ma.m2w.wbCurrentState <;> rfl
  have delivered : ma.delivered moment = [] := by rw [TestioMaWb.delivered, mem]
  have kept : (ma.step moment).m2w = ma.m2w := by rw [TestioMaWb.step, mem]
  have same : (ma.step moment).asyncWb.pendingRd = ma.asyncWb.pendingRd := pending
  rw [requested, delivered, TestioMaWb.accepted, TestioMaWb.answered, accepted, answered, kept,
    same, List.append_nil, List.append_nil, List.append_nil, List.append_nil]
  exact stage

theorem readData_write (responses : List MemResp) (tid : BitVec 16) (data : BitVec 32) :
    MemResp.readData (responses ++ [⟨1, tid, data⟩]) = MemResp.readData responses := by
  simp [MemResp.readData]

theorem readData_read (responses : List MemResp) (tid : BitVec 16) (data : BitVec 32) :
    MemResp.readData (responses ++ [⟨0, tid, data⟩]) = MemResp.readData responses ++ [data] := by
  simp [MemResp.readData]

/-- One edge of `test_clk` moves the last request one stage on, or leaves it where it is. -/
theorem Stage.edge
    (stage : Stage ma.m2w ma.asyncWb.pendingRd requests responses commands answers)
    (lawful : ma.Lawful moment)
    (linked : ma.asyncWb.Linked commands waiting carried answers flight cmd resp) {mem : MemEdge}
    (present : moment.mem = some mem) :
    Stage (ma.step moment).m2w (ma.step moment).asyncWb.pendingRd
      (requests ++ ma.requested moment) (responses ++ ma.delivered moment)
      (commands ++ ma.accepted moment) (answers ++ ma.answered moment) := by
  have master : (ma.wbMoment moment).wbm = some ma.m2w.wbm := by simp [wbMoment, present]
  have handles := linked.handles (stage.lawful lawful) master
  have moved : (ma.step moment).m2w =
      ma.m2w.step mem (ma.asyncWb.wbmAck ma.m2w.wbm) ma.asyncWb.respIf.rdData.dat := by
    rw [TestioMaWb.step, present]
  change Stage _ (ma.asyncWb.step (ma.wbMoment moment)).pendingRd _ _
    (commands ++ ma.asyncWb.accepted (ma.wbMoment moment))
    (answers ++ ma.asyncWb.answered (ma.wbMoment moment))
  rw [moved]
  unfold TestioMaWb.requested TestioMaWb.delivered
  rw [present]
  cases stage with
  | idle idle free accepted labels data =>
    cases handles with
    | waits gives =>
      rw [gives.ack, gives.accepted, gives.answered, gives.pending, idle.state, idle.respValid]
      cases valid : mem.reqValid with
      | true =>
        apply Stage.asking requests mem.req _ (idle.take valid _ _) free
        all_goals simpa
      | false =>
        apply Stage.idle (idle.stay valid _ _) free
        all_goals simpa [valid]
    | takesRead _ strobed => simp [M2wBridge.wbm, idle.stb] at strobed
    | takesWrite _ strobed => simp [M2wBridge.wbm, idle.stb] at strobed
    | answers _ strobed => simp [M2wBridge.wbm, idle.stb] at strobed
  | asking before req split asks free accepted labels data =>
    have command : ma.m2w.wbm.command = req.command := by rw [asks.wbm]
    rw [asks.state, asks.respValid]
    cases handles with
    | waits gives =>
      rw [gives.ack, gives.accepted, gives.answered, gives.pending]
      apply Stage.asking before req _ (asks.wait _) free
      all_goals simpa
    | takesRead _ _ reads gives =>
      rw [gives.ack, gives.accepted, gives.answered, gives.pending, command]
      apply Stage.reading before req _ (asks.wait _) rfl (command ▸ reads)
      · simp [accepted, split]
      · simpa
      · simpa
      · simpa
    | takesWrite _ _ writes gives =>
      rw [gives.ack, gives.accepted, gives.answered, gives.pending, command]
      obtain ⟨offers, response⟩ := asks.finish mem ma.asyncWb.respIf.rdData.dat
      rw [command] at writes
      apply Stage.done before req _ offers rfl
      · simp [accepted, split]
      · simpa
      · rw [response, writes, if_pos rfl, readData_write]
        simpa
      · simpa
    | answers pending => simp [free] at pending
  | reading before req split asks pending reads accepted labels data =>
    rw [asks.state, asks.respValid]
    cases handles with
    | waits gives =>
      rw [gives.ack, gives.accepted, gives.answered, gives.pending]
      apply Stage.reading before req _ (asks.wait _) pending reads
      all_goals simpa
    | takesRead idle => simp [pending] at idle
    | takesWrite idle => simp [pending] at idle
    | answers _ _ _ gives =>
      rw [gives.ack, gives.accepted, gives.answered, gives.pending]
      obtain ⟨offers, response⟩ := asks.finish mem ma.asyncWb.respIf.rdData.dat
      apply Stage.done before req _ offers rfl
      · simpa
      · simpa
      · rw [response, reads, if_neg Bool.false_ne_true, readData_read, List.map_append, data]
        simp
      · simpa
  | done before req split offers free accepted labels data =>
    cases handles with
    | waits gives =>
      rw [gives.ack, gives.accepted, gives.answered, gives.pending, offers.state, offers.respValid]
      cases ready : mem.respReady with
      | true =>
        apply Stage.idle (offers.collect ready _ _) free
        · simpa
        · simp [labels, split, offers.label, ready]
        · simpa [ready]
      | false =>
        obtain ⟨kept, response⟩ := offers.keep ready false ma.asyncWb.respIf.rdData.dat
        apply Stage.done before req _ kept free
        · simpa
        · simpa [ready]
        · simpa [ready, response]
        · simpa
    | takesRead _ strobed => simp [M2wBridge.wbm, offers.stb] at strobed
    | takesWrite _ strobed => simp [M2wBridge.wbm, offers.stb] at strobed
    | answers _ strobed => simp [M2wBridge.wbm, offers.stb] at strobed

end Step

theorem Stage.behind {m2w : M2wBridge} {pendingRd : Bool} {requests : List MemReq}
    {responses : List MemResp} {commands : List WbCommand} {answers : List WbResponse}
    (stage : Stage m2w pendingRd requests responses commands answers) :
    commands <+: requests.map MemReq.command ∧
      responses.map MemResp.label <+: requests.map MemReq.label ∧
      requests.length ≤ responses.length + 1 ∧
      MemResp.readData responses <+: answers.map WbResponse.dat := by
  cases stage with
  | idle _ _ accepted labels data =>
    have length := congrArg List.length labels
    rw [List.length_map, List.length_map] at length
    rw [accepted, labels, data]
    exact ⟨List.prefix_rfl, List.prefix_rfl, by omega, List.prefix_rfl⟩
  | asking before req split _ _ accepted labels data =>
    have length := congrArg List.length labels
    rw [List.length_map, List.length_map] at length
    rw [accepted, labels, data, split, List.map_append, List.map_append, List.length_append]
    exact ⟨List.prefix_append _ _, List.prefix_append _ _, by simp [length], List.prefix_rfl⟩
  | reading before req split _ _ _ accepted labels data =>
    have length := congrArg List.length labels
    rw [List.length_map, List.length_map] at length
    rw [accepted, labels, data, split, List.map_append, List.map_append, List.length_append]
    exact ⟨List.prefix_rfl, List.prefix_append _ _, by simp [length], List.prefix_rfl⟩
  | done before req split _ _ accepted labels data =>
    have length := congrArg List.length labels
    rw [List.length_map, List.length_map] at length
    rw [accepted, labels, data, split, List.map_append, List.map_append, List.length_append,
      MemResp.readData, MemResp.readData, List.filter_append, List.map_append]
    exact ⟨List.prefix_rfl, List.prefix_append _ _, by simp [length], List.prefix_append _ _⟩

section Runs

variable {memifReqReady : Bool} {memifResp : MemResp} {cmdMem : BitVec 2 → WbCommand}
  {respMem : BitVec 1 → WbResponse} {moments : List MaMoment}

theorem run_stage
    (obeys : (machine memifReqReady memifResp cmdMem respMem).Obeys Lawful moments) :
    let bridge := machine memifReqReady memifResp cmdMem respMem
    let ma := bridge.run moments
    let accepted := bridge.log accepted moments
    let answered := bridge.log answered moments
    Stage ma.m2w ma.asyncWb.pendingRd (bridge.log requested moments)
        (bridge.log delivered moments) accepted answered ∧
      ∃ waiting flight cmd resp, ma.asyncWb.Linked accepted waiting
        (bridge.log performed moments) answered flight cmd resp := by
  induction moments using List.reverseRecOn with
  | nil =>
    refine ⟨.idle ⟨rfl, rfl, rfl⟩ rfl rfl rfl rfl, ?_⟩
    exact @AsyncWb.run_linked cmdMem respMem [] (Synchronous.obeys_nil _ _)
  | append_singleton moments moment ih =>
    obtain ⟨before, lawful⟩ := Synchronous.obeys_snoc.mp obeys
    obtain ⟨stage, _, _, _, _, linked⟩ := ih before
    dsimp only
    rw [Synchronous.run_snoc, Synchronous.log_snoc, Synchronous.log_snoc, Synchronous.log_snoc,
      Synchronous.log_snoc, Synchronous.log_snoc]
    refine ⟨?_, linked.step (stage.lawful lawful)⟩
    cases mem : moment.mem with
    | none => exact stage.rests mem
    | some mem' => exact stage.edge lawful linked mem

/-- Memory requests through both bridges, for any slave that answers only what it is asked: the
accesses that are carried out are those of the requests, in order; the requests are answered one
after the other, each under its own kind and tag; and what a read returns is what the slave gave to
that read. -/
theorem requests_served
    (obeys : (machine memifReqReady memifResp cmdMem respMem).Obeys Lawful moments) :
    let bridge := machine memifReqReady memifResp cmdMem respMem
    let requested := bridge.log requested moments
    let delivered := bridge.log delivered moments
    let performed := bridge.log performed moments
    performed.map Prod.fst <+: requested.map MemReq.command ∧
      delivered.map MemResp.label <+: requested.map MemReq.label ∧
      requested.length ≤ delivered.length + 1 ∧
      MemResp.readData delivered <+:
        (performed.filter fun done => !done.1.we).map fun done => done.2.dat := by
  intro bridge requested delivered performed
  obtain ⟨stage, waiting, flight, cmd, resp, linked⟩ := run_stage obeys
  have carried : performed.map Prod.fst <+: bridge.log accepted moments :=
    ⟨waiting, linked.commands.symm⟩
  have given : (bridge.log answered moments).map WbResponse.dat <+:
      (performed.filter fun done => !done.1.we).map fun done => done.2.dat := by
    have responses : (bridge.log answered moments) <+:
      (performed.filter fun done => !done.1.we).map Prod.snd := ⟨flight, linked.responses.symm⟩
    have data := responses.map WbResponse.dat
    rw [List.map_map] at data
    exact data
  obtain ⟨commands, labels, one, data⟩ := stage.behind
  exact ⟨carried.trans commands, labels, one, data.trans given⟩

/-- A write and then a read of the same word, each with its own tag; the slave answers each at its
second edge. -/
def writeThenRead : List MaMoment :=
  let write : MemEdge := ⟨true, ⟨1, 5, 0x40, 0b1111, 7⟩, true⟩
  let read : MemEdge := ⟨true, ⟨0, 6, 0x40, 0b1111, 0⟩, true⟩
  let resting : SlaveEdge := ⟨false, ⟨false, 0⟩⟩
  [⟨some write, none, 0, 0, 0, 0⟩, ⟨some read, some resting, 0, 0b111, 0, 0⟩,
    ⟨some read, some resting, 0, 0, 0, 0⟩, ⟨some read, some ⟨true, ⟨false, 0⟩⟩, 0, 0, 0, 0⟩,
    ⟨some read, some resting, 0, 0b111, 0, 0⟩, ⟨none, some resting, 0, 0, 0, 0⟩,
    ⟨none, some ⟨true, ⟨false, 7⟩⟩, 0, 0, 0, 0⟩, ⟨some read, none, 0, 0, 0, 0⟩,
    ⟨some read, none, 0, 0, 0, 0⟩, ⟨some read, none, 0, 0, 0, 0⟩, ⟨some read, none, 0, 0, 0, 0⟩]

theorem requests_served_writeThenRead :
    let bridge := machine false ⟨0, 0, 0⟩ (fun _ => ⟨0, false, 0, 0⟩) (fun _ => ⟨false, 0⟩)
    bridge.Obeys Lawful writeThenRead ∧
      bridge.log delivered writeThenRead = [⟨1, 5, 0⟩, ⟨0, 6, 7⟩] ∧
      (bridge.log requested writeThenRead).length ≤ (bridge.log delivered writeThenRead).length + 1 := by
  intro bridge
  have obeys : bridge.Obeys Lawful writeThenRead := by decide +kernel
  exact ⟨obeys, by decide +kernel, (requests_served obeys).2.2.1⟩

end Runs

end TestioMaWb

end GreenRio
