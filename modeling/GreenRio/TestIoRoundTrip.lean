import GreenRio.TestIoReply

set_option autoImplicit false

namespace GreenRio.TestIo

/-- A transaction as the requester asks for it. -/
inductive Transaction where
  | read (addr : BitVec 32)
  | write (addr data : BitVec 32)
  deriving DecidableEq

/-- A transaction with what its bus has answered. -/
inductive Completed where
  | read (addr data : BitVec 32)
  | write (addr data : BitVec 32)
  deriving DecidableEq

def Completed.transaction : Completed → Transaction
  | .read addr _ => .read addr
  | .write addr data => .write addr data

def Transaction.complete (rdata : BitVec 32) : Transaction → Completed
  | .read addr => .read addr rdata
  | .write addr data => .write addr data

@[simp] theorem Transaction.transaction_complete (transaction : Transaction) (rdata : BitVec 32) :
    (transaction.complete rdata).transaction = transaction := by
  cases transaction <;> rfl

def WbmRequest.transaction (req : WbmRequest) : Transaction :=
  if req.we then .write req.addr req.wdata else .read req.addr

/-- What the slave shows on its bus. -/
def Slave.transaction {tiW : Nat} (slave : Slave tiW) : Transaction :=
  if slave.cmd then .write slave.addr slave.wdata else .read slave.addr

namespace Link

variable {tiW : Nat} (wiring : Wiring) (link : Link tiW) (input : LinkInput)

/-- The master takes a request. -/
def accepts : List Transaction :=
  if link.master.currentState == .idle && input.req.cyc then [input.req.transaction] else []

/-- The bus of the slave answers one. -/
def carries : List Completed :=
  if link.slave.cyc && input.ack then [link.slave.transaction.complete input.rdata] else []

/-- The master acknowledges one; it goes on doing so until the request is taken away. -/
def returns : List Completed :=
  if link.master.ack input.req && link.master.preState != .resp then
    [input.req.transaction.complete link.master.respData]
  else []

/-- The rules of both buses: the slave's answers only when it is asked, and a request to the master is
held until it has been acknowledged. -/
structure Allowed : Prop where
  ack : input.ack = true → link.slave.cyc = true
  held : link.master.currentState ≠ .idle →
    (link.master.currentState = .resp → link.master.preState ≠ .resp) → input.req = link.held

section Wires

variable {wiring link input}

/-- While the slave is silent its pin follows the master. -/
theorem testDin_eq (silent : (link.low input).slave.payloadInProgress = false)
    (drives : link.master.dataOen = 0 ∨ link.master.sendData = high tiW) :
    link.testDin wiring input = link.master.sendData := by
  cases wiring with
  | separate => rfl
  | shared =>
    change (link.master.sendData ||| link.master.dataOen) &&&
      ((link.low input).slave.testDout ||| (link.low input).slave.testDoen) = _
    rw [Slave.testDout, Slave.testDoen, silent, if_neg Bool.false_ne_true, if_neg Bool.false_ne_true,
      BitVec.or_self, BitVec.and_allOnes]
    rcases drives with output | released
    · rw [output]
      exact BitVec.or_zero
    · rw [released, BitVec.allOnes_or]

/-- While the master is silent its pin follows the slave. -/
theorem tiI_eq (released : link.master.sendData = high tiW) :
    link.tiI wiring input = (link.low input).slave.testDout := by
  cases wiring with
  | separate => rfl
  | shared =>
    change (link.master.sendData ||| link.master.dataOen) &&&
      ((link.low input).slave.testDout ||| (link.low input).slave.testDoen) = _
    rw [released, BitVec.allOnes_or, BitVec.allOnes_and, Slave.testDout, Slave.testDoen]
    cases (link.low input).slave.payloadInProgress with
    | true => exact BitVec.or_zero
    | false => exact BitVec.or_self

end Wires

end Link

/-- What the link is doing: a request is `cycle` cycles old, or its answer is. -/
inductive Phase where
  | idle
  | outbound (cycle : Nat)
  | reply (data : BitVec 32) (cycle : Nat)
  | answered

/-- The cycle of a reply in which the master acknowledges. -/
def lastReply (tiW : Nat) (we : Bool) : Nat := if we then 4 else tiDataCycle tiW + 5

theorem lastReply_le (tiW : Nat) (we : Bool) : lastReply tiW we ≤ 37 := by
  have few : tiDataCycle tiW ≤ 32 := Nat.div_le_self _ _
  rw [lastReply]
  split <;> omega

def Phase.next (tiW : Nat) (we : Bool) (input : LinkInput) : Phase → Phase
  | .idle => if input.req.cyc then .outbound 0 else .idle
  | .outbound cycle => if input.ack then .reply input.rdata 1 else .outbound (cycle + 1)
  | .reply data cycle => if cycle < lastReply tiW we then .reply data (cycle + 1) else .answered
  | .answered => if input.req.cyc then .answered else .idle

/-- The request that the slave has not brought to its bus. -/
def Phase.waiting (held : WbmRequest) : Phase → List Transaction
  | .outbound _ => [held.transaction]
  | _ => []

/-- The answer that the master has not returned. -/
def Phase.answer (held : WbmRequest) : Phase → List Completed
  | .reply data _ => [held.transaction.complete data]
  | _ => []

namespace Link

variable {tiW : Nat}

/-- Both ends agree on the phase. -/
inductive At (link : Link tiW) : Phase → Prop
  | idle (master : link.master.Rests) (slave : link.slave.Rests) : At link .idle
  | outbound (cycle : Nat) (cyc : link.held.cyc = true) (sends : Sends link.held link.master cycle)
      (collects : Slave.Collects link.held link.slave cycle) : At link (.outbound cycle)
  | write (data : BitVec 32) (sent : Nat) (cyc : link.held.cyc = true) (we : link.held.we = true)
      (acked : link.master.Acked (sent + 1)) (replies : link.slave.Replies true data sent) :
      At link (.reply data (sent + 1))
  | read (data : BitVec 32) (sent : Nat) (cyc : link.held.cyc = true) (we : link.held.we = false)
      (reads : link.master.Reads data (sent + 1)) (replies : link.slave.Replies false data sent) :
      At link (.reply data (sent + 1))
  | readLast (data : BitVec 32) (cyc : link.held.cyc = true) (we : link.held.we = false)
      (reads : link.master.Reads data (tiDataCycle tiW + 5)) (rests : link.slave.Rests) :
      At link (.reply data (tiDataCycle tiW + 5))
  | answered (master : link.master.Answered) (slave : link.slave.Rests) : At link .answered

namespace At

variable {wiring : Wiring} {link : Link tiW} {input : LinkInput} {phase : Phase}

theorem step_slave (quiet : input.ack = false) : (link.step wiring input).slave =
    link.slave.unanswered (link.testDin wiring input) input.rdata := by
  rw [step, low, quiet]
  rfl

theorem step_master (held : input.req = link.held) : (link.step wiring input).master =
    (link.master.negedge link.held).posedge link.held (link.tiI wiring input) := by
  rw [← held]
  rfl

theorem low_slave (quiet : input.ack = false) :
    (link.low input).slave = link.slave.negedge false := by
  rw [low, quiet]

/-- A slave at rest takes no notice of a master that is silent. -/
theorem step_rests (wiring : Wiring) (width : Provided tiW) (rests : link.slave.Rests)
    (quiet : input.ack = false) (released : link.master.sendData = high tiW) :
    (link.step wiring input).slave.Rests := by
  have silent : (link.low input).slave.payloadInProgress = false := by
    rw [low_slave quiet]
    exact Slave.negedge_silent rests.payloadInProgress
  rw [step_slave quiet, testDin_eq silent (.inr released), released]
  apply rests.step width
  rcases width with rfl | rfl <;> decide

theorem unasked (allowed : link.Allowed input) (cyc : link.slave.cyc = false) :
    input.ack = false := by
  rw [← Bool.not_eq_true]
  intro ack
  rw [allowed.ack ack] at cyc
  cases cyc

/-- A cycle of a request without an answer of the bus. -/
theorem step_outbound {cycle : Nat} (width : Provided tiW) (allowed : link.Allowed input)
    (cyc : link.held.cyc = true) (sends : Sends link.held link.master cycle)
    (collects : Slave.Collects link.held link.slave cycle) (quiet : input.ack = false) :
    At (link.step wiring input) (.outbound (cycle + 1)) := by
  have held : input.req = link.held :=
    allowed.held sends.busy.1 fun resp => absurd resp sends.busy.2
  have silent : (link.low input).slave.payloadInProgress = false := by
    rw [low_slave quiet]
    exact Slave.negedge_silent collects.silent
  have same : (link.step wiring input).held = link.held := held
  refine .outbound _ (by rw [same]; exact cyc) ?_ ?_
  · rw [same, step_master held]
    apply sends.step width
    intro past
    rw [tiI_eq (sends.released width (by omega)), Slave.testDout, silent, if_neg Bool.false_ne_true,
      BitVec.getLsbD_allOnes]
    exact decide_eq_true (provided_pos width)
  · rw [same, step_slave quiet, testDin_eq silent (sends.drives width), sends.sendData_eq width]
    exact collects.step width

/-- The answer of the bus begins the reply. -/
theorem step_answer {cycle : Nat} (width : Provided tiW) (allowed : link.Allowed input)
    (cyc : link.held.cyc = true) (sends : Sends link.held link.master cycle)
    (collects : Slave.Collects link.held link.slave cycle) (answer : input.ack = true) :
    At (link.step wiring input) (.reply input.rdata 1) := by
  have held : input.req = link.held :=
    allowed.held sends.busy.1 fun resp => absurd resp sends.busy.2
  have same : (link.step wiring input).held = link.held := held
  have asked := allowed.ack answer
  have slave : (link.step wiring input).slave =
      (link.slave.negedge true).posedge (link.testDin wiring input) true input.rdata := by
    rw [step, low, answer]
  obtain ⟨falls, -, replies⟩ := collects.answered width asked
  rw [← slave] at replies
  have past : hostCyc tiW link.held + 1 < cycle := by
    have bound := hostCyc_lt width link.held
    have words := (cmdbufBits width).2.1
    rw [collects.cyc_iff, decide_eq_true_iff] at asked
    omega
  have level : (link.tiI wiring input).getLsbD 0 = false := by
    rw [tiI_eq (sends.released width (by omega)), low, answer]
    change (link.slave.negedge true).testDout.getLsbD 0 = false
    rw [falls]
    exact BitVec.getLsbD_zero
  obtain ⟨state, pre⟩ := sends.answered past level
  rw [← step_master held] at state pre
  cases we : link.held.we with
  | true =>
    rw [we] at state replies
    exact .write _ 0 (by rw [same, cyc]) (by rw [same, we]) (.ack state) replies
  | false =>
    rw [we] at state replies
    rw [waitState, we] at pre
    exact .read _ 0 (by rw [same, cyc]) (by rw [same, we]) (.ack state pre) replies

/-- What both ends see of a beat of the reply. -/
theorem reply_wires (wiring : Wiring) {we : Bool} {data : BitVec 32} {sent : Nat}
    (width : Provided tiW) (released : link.master.sendData = high tiW) (quiet : input.ack = false)
    (replies : link.slave.Replies we data sent) :
    link.tiI wiring input = replyAt tiW we data (sent + 1) ∧
      (sent + 1 = replyBeats tiW we → link.testDin wiring input ≠ 0) := by
  constructor
  · rw [tiI_eq released, low_slave quiet]
    exact replies.testDout_eq width
  · intro last
    have silent : (link.low input).slave.payloadInProgress = false := by
      rw [low_slave quiet, replies.negedge_payloadInProgress width, decide_eq_false (by omega)]
    rw [testDin_eq silent (.inr released), released]
    rcases width with rfl | rfl <;> decide

theorem step_write {data : BitVec 32} {sent : Nat} (width : Provided tiW)
    (allowed : link.Allowed input) (cyc : link.held.cyc = true) (we : link.held.we = true)
    (acked : link.master.Acked (sent + 1)) (replies : link.slave.Replies true data sent) :
    At (link.step wiring input) ((Phase.reply data (sent + 1)).next tiW true input) := by
  have held : input.req = link.held := allowed.held acked.busy.1 acked.busy.2
  have same : (link.step wiring input).held = link.held := held
  have quiet := unasked allowed replies.cyc
  obtain ⟨level, ends⟩ := reply_wires wiring width (Master.sendData_high acked.isSendMode) quiet
    replies
  have inside : sent + 1 ≤ 4 := replies.inside
  change At _ (if sent + 1 < 4 then .reply data (sent + 1 + 1) else .answered)
  by_cases more : sent + 1 < 4
  · rw [if_pos more]
    refine .write data (sent + 1) (by rw [same, cyc]) (by rw [same, we]) ?_ ?_
    · rw [step_master held]
      exact acked.step more level width
    · rw [step_slave quiet]
      exact replies.step width more
  · rw [if_neg more]
    have last : sent + 1 = 4 := by omega
    refine .answered ?_ ?_
    · rw [step_master held]
      rw [last] at acked
      exact acked.step_last cyc
    · rw [step_slave quiet]
      exact replies.step_last width last (ends last)

theorem step_read {data : BitVec 32} {sent : Nat} (width : Provided tiW)
    (allowed : link.Allowed input) (cyc : link.held.cyc = true) (we : link.held.we = false)
    (reads : link.master.Reads data (sent + 1)) (replies : link.slave.Replies false data sent) :
    At (link.step wiring input) ((Phase.reply data (sent + 1)).next tiW false input) := by
  have held : input.req = link.held := allowed.held reads.busy.1 reads.busy.2
  have same : (link.step wiring input).held = link.held := held
  have quiet := unasked allowed replies.cyc
  obtain ⟨level, ends⟩ := reply_wires wiring width (Master.sendData_high reads.isSendMode) quiet
    replies
  have inside : sent + 1 ≤ tiDataCycle tiW + 4 := replies.inside
  have next : (link.step wiring input).master.Reads data (sent + 1 + 1) := by
    rw [step_master held]
    exact reads.step (by omega) level width
  change At _ (if sent + 1 < tiDataCycle tiW + 5 then .reply data (sent + 1 + 1) else .answered)
  rw [if_pos (by omega)]
  by_cases more : sent + 1 < tiDataCycle tiW + 4
  · refine .read data (sent + 1) (by rw [same, cyc]) (by rw [same, we]) next ?_
    rw [step_slave quiet]
    exact replies.step width more
  · have last : sent + 1 = tiDataCycle tiW + 4 := by omega
    rw [last] at next ⊢
    refine .readLast data (by rw [same, cyc]) (by rw [same, we]) next ?_
    rw [step_slave quiet]
    exact replies.step_last width last (ends last)

/-- A cycle leads from each phase to the next one. -/
theorem step (width : Provided tiW) (allowed : link.Allowed input) (phased : At link phase) :
    At (link.step wiring input) (phase.next tiW link.held.we input) := by
  cases phased with
  | idle master slave =>
    have quiet := unasked allowed slave.cyc
    have released : link.master.sendData = high tiW :=
      Master.sendData_high (Master.isSendMode_of_state (by rw [master.currentState]; decide)
        (by rw [master.currentState]; decide))
    have rests := step_rests wiring width slave quiet released
    change At _ (if input.req.cyc then .outbound 0 else .idle)
    cases asked : input.req.cyc with
    | true => exact .outbound 0 asked (master.accept asked) (.start rests)
    | false => exact .idle (master.step asked) rests
  | outbound cycle cyc sends collects =>
    change At _ (if input.ack then .reply input.rdata 1 else .outbound (cycle + 1))
    cases answer : input.ack with
    | true => exact step_answer width allowed cyc sends collects answer
    | false => exact step_outbound width allowed cyc sends collects answer
  | write data sent cyc we acked replies =>
    rw [we]
    exact step_write width allowed cyc we acked replies
  | read data sent cyc we reads replies =>
    rw [we]
    exact step_read width allowed cyc we reads replies
  | readLast data cyc we reads rests =>
    have held : input.req = link.held := allowed.held reads.busy.1 reads.busy.2
    have quiet := unasked allowed rests.cyc
    rw [we]
    change At _ (if tiDataCycle tiW + 5 < tiDataCycle tiW + 5 then _ else .answered)
    rw [if_neg (Nat.lt_irrefl _)]
    refine .answered ?_ (step_rests wiring width rests quiet (Master.sendData_high reads.isSendMode))
    rw [step_master held]
    exact reads.step_last cyc
  | answered master slave =>
    have quiet := unasked allowed slave.cyc
    have released : link.master.sendData = high tiW :=
      Master.sendData_high (Master.isSendMode_of_state (by rw [master.currentState]; decide)
        (by rw [master.currentState]; decide))
    have rests := step_rests wiring width slave quiet released
    have next : if input.req.cyc then (link.step wiring input).master.Answered
        else (link.step wiring input).master.Rests := master.step
    change At _ (if input.req.cyc then .answered else .idle)
    cases asked : input.req.cyc with
    | true =>
      rw [asked] at next
      exact .answered next rests
    | false =>
      rw [asked] at next
      exact .idle next rests

end At

section Conservation

variable {wiring : Wiring} {link : Link tiW} {input : LinkInput} {phase : Phase}

theorem accepts_busy (busy : link.master.currentState ≠ .idle) : link.accepts input = [] := by
  rw [accepts, beq_eq_false_iff_ne.mpr busy, Bool.false_and, if_neg Bool.false_ne_true]

theorem carries_quiet (quiet : input.ack = false) : link.carries input = [] := by
  rw [carries, quiet, Bool.and_false, if_neg Bool.false_ne_true]

theorem returns_later (later : link.master.currentState = .resp → link.master.preState = .resp) :
    link.returns input = [] := by
  rw [returns, Master.ack]
  by_cases resp : link.master.currentState = .resp
  · rw [later resp, bne_self_eq_false, Bool.and_false, if_neg Bool.false_ne_true]
  · rw [beq_eq_false_iff_ne.mpr resp, Bool.false_and, Bool.false_and, if_neg Bool.false_ne_true]

theorem returns_first (resp : link.master.currentState = .resp)
    (first : link.master.preState ≠ .resp) (cyc : input.req.cyc = true) :
    link.returns input = [input.req.transaction.complete link.master.respData] := by
  rw [returns, Master.ack, resp, cyc, bne_iff_ne.mpr first]
  rfl

/-- The slave shows its bus the request of the master. -/
theorem transaction_eq (width : Provided tiW) {slave : Slave tiW} {req : WbmRequest}
    (holds : slave.Holds req 0) : slave.transaction = req.transaction := by
  rw [Slave.transaction, WbmRequest.transaction, holds.cmd width, holds.addr width]
  cases we : req.we with
  | true => rw [holds.wdata width we]
  | false => rfl

/-- In each cycle what is under way comes from before or is accepted, and stays or is returned. -/
theorem At.conserves (width : Provided tiW) (allowed : link.Allowed input) (phased : At link phase) :
    phase.waiting link.held ++ link.accepts input =
        (link.carries input).map Completed.transaction ++
          (phase.next tiW link.held.we input).waiting input.req ∧
      phase.answer link.held ++ link.carries input =
        link.returns input ++ (phase.next tiW link.held.we input).answer input.req := by
  cases phased with
  | idle master slave =>
    have silent : link.returns input = [] :=
      returns_later fun resp => by rw [master.currentState] at resp; cases resp
    rw [carries_quiet (unasked allowed slave.cyc), silent, accepts, master.currentState]
    cases asked : input.req.cyc with
    | true => simp [Phase.next, Phase.waiting, Phase.answer, asked]
    | false => simp [Phase.next, Phase.waiting, Phase.answer, asked]
  | outbound cycle cyc sends collects =>
    have held : input.req = link.held :=
      allowed.held sends.busy.1 fun resp => absurd resp sends.busy.2
    have silent : link.returns input = [] := returns_later fun resp => absurd resp sends.busy.2
    rw [accepts_busy sends.busy.1, silent, held]
    cases answer : input.ack with
    | true =>
      have asked := allowed.ack answer
      have same := transaction_eq width (collects.holds_asked asked)
      simp [Phase.next, Phase.waiting, Phase.answer, carries, answer, asked, same]
    | false => simp [Phase.next, Phase.waiting, Phase.answer, carries_quiet answer, answer]
  | write data sent cyc we acked replies =>
    have held : input.req = link.held := allowed.held acked.busy.1 acked.busy.2
    have writes : link.held.transaction = .write link.held.addr link.held.wdata := if_pos we
    have inside : sent + 1 ≤ 4 := replies.inside
    rw [accepts_busy acked.busy.1, carries_quiet (unasked allowed replies.cyc), held, we]
    by_cases more : sent + 1 < 4
    · have next : (Phase.reply data (sent + 1)).next tiW true input = .reply data (sent + 1 + 1) :=
        if_pos more
      rw [next, returns_later fun resp => absurd resp (acked.unfinished more)]
      simp [Phase.waiting, Phase.answer]
    · have next : (Phase.reply data (sent + 1)).next tiW true input = .answered := if_neg more
      have last : sent + 1 = 4 := by omega
      rw [last] at acked
      rw [next, returns_first acked.finished.1 (by rw [acked.finished.2]; decide)
        (by rw [held, cyc]), held, writes]
      simp [Phase.waiting, Phase.answer, Transaction.complete, writes]
  | read data sent cyc we reads replies =>
    have held : input.req = link.held := allowed.held reads.busy.1 reads.busy.2
    have inside : sent + 1 ≤ tiDataCycle tiW + 4 := replies.inside
    have next : (Phase.reply data (sent + 1)).next tiW false input = .reply data (sent + 1 + 1) :=
      if_pos (show sent + 1 < tiDataCycle tiW + 5 by omega)
    rw [accepts_busy reads.busy.1, carries_quiet (unasked allowed replies.cyc), held, we, next,
      returns_later fun resp => absurd resp (reads.unfinished (by omega))]
    simp [Phase.waiting, Phase.answer]
  | readLast data cyc we reads rests =>
    have held : input.req = link.held := allowed.held reads.busy.1 reads.busy.2
    have next : (Phase.reply data (tiDataCycle tiW + 5)).next tiW false input = .answered :=
      if_neg (Nat.lt_irrefl _)
    obtain ⟨finished, first, answer⟩ := reads.finished
    rw [accepts_busy reads.busy.1, carries_quiet (unasked allowed rests.cyc), we, next,
      returns_first finished (by rw [first]; decide) (by rw [held, cyc]), held, answer]
    simp [Phase.waiting, Phase.answer]
  | answered master slave =>
    have quiet : link.carries input = [] := carries_quiet (unasked allowed slave.cyc)
    rw [accepts_busy (by rw [master.currentState]; decide), quiet,
      returns_later fun _ => master.preState]
    cases asked : input.req.cyc with
    | true => simp [Phase.next, Phase.waiting, Phase.answer, asked]
    | false => simp [Phase.next, Phase.waiting, Phase.answer, asked]

theorem At.accepts_busy (phased : At link phase) (busy : phase ≠ .idle) :
    link.accepts input = [] := by
  cases phased with
  | idle => exact absurd rfl busy
  | outbound _ _ sends => exact Link.accepts_busy sends.busy.1
  | write _ _ _ _ acked => exact Link.accepts_busy acked.busy.1
  | read _ _ _ _ reads => exact Link.accepts_busy reads.busy.1
  | readLast _ _ _ reads => exact Link.accepts_busy reads.busy.1
  | answered master => exact Link.accepts_busy (by rw [master.currentState]; decide)

theorem At.cyc_eq {cycle : Nat} (phased : At link (.outbound cycle)) :
    link.slave.cyc = decide (cmdWords tiW + 5 ≤ cycle) := by
  cases phased with
  | outbound _ _ _ collects => exact collects.cyc_iff

end Conservation

theorem Reset.master_rests {link : Link tiW} (reset : link.Reset) : link.master.Rests :=
  ⟨reset.master.currentState, reset.master.cycleCounter⟩

theorem Reset.slave_rests {link : Link tiW} (reset : link.Reset) (width : Provided tiW) :
    link.slave.Rests where
  testDinEn := reset.slave.testDinEn
  cmdIdx := by
    have bound := (cmdbufBits width).2.2
    rw [reset.slave.cmdIdx, BitVec.toNat_ofNat]
    omega
  payloadInProgress := reset.slave.payloadInProgress
  headed := by
    rw [reset.slave.payload]
    exact BitVec.extractLsb'_zero
  dffTestDinEn := reset.slave.dffTestDinEn
  cdcst := reset.slave.cdcst
  cyc := reset.slave.cyc

section Run

variable (wiring : Wiring) (start : Link tiW) (inputs : Nat → LinkInput)

def after (cycles : Nat) : Link tiW := (machine wiring start).run ((List.range cycles).map inputs)

def accepted (cycles : Nat) : List Transaction :=
  (machine wiring start).log accepts ((List.range cycles).map inputs)

def carried (cycles : Nat) : List Completed :=
  (machine wiring start).log carries ((List.range cycles).map inputs)

def returned (cycles : Nat) : List Completed :=
  (machine wiring start).log returns ((List.range cycles).map inputs)

/-- All transactions accepted so far are returned at some time. -/
def ComesBack (cycles : Nat) : Prop :=
  ∃ later, cycles ≤ later ∧
    (returned wiring start inputs later).map Completed.transaction =
      accepted wiring start inputs cycles

/-- All accepted transactions come to the slave's bus and back, each once, in their order and with the
data of the bus: at any time one may be on its way, and once the bus has answered, all are back. -/
structure RoundTrips (cycles : Nat) : Prop where
  conserved : ∃ waiting answer,
    accepted wiring start inputs cycles =
        (carried wiring start inputs cycles).map Completed.transaction ++ waiting ∧
      carried wiring start inputs cycles = returned wiring start inputs cycles ++ answer ∧
      waiting.length + answer.length ≤ 1
  completed : (∀ asked, (after wiring start inputs asked).slave.cyc = true →
      ∃ later, asked ≤ later ∧ (inputs later).ack = true) →
    ComesBack wiring start inputs cycles

def phases : Nat → Phase
  | 0 => .idle
  | cycles + 1 =>
    (phases cycles).next tiW (after wiring start inputs cycles).held.we (inputs cycles)

variable {wiring start inputs}

theorem after_succ (cycles : Nat) : after wiring start inputs (cycles + 1) =
    (after wiring start inputs cycles).step wiring (inputs cycles) := by
  rw [after, List.range_succ, List.map_append, List.map_singleton, Synchronous.run_snoc]
  rfl

theorem accepted_succ (cycles : Nat) : accepted wiring start inputs (cycles + 1) =
    accepted wiring start inputs cycles ++
      (after wiring start inputs cycles).accepts (inputs cycles) := by
  rw [accepted, List.range_succ, List.map_append, List.map_singleton, Synchronous.log_snoc]
  rfl

theorem carried_succ (cycles : Nat) : carried wiring start inputs (cycles + 1) =
    carried wiring start inputs cycles ++
      (after wiring start inputs cycles).carries (inputs cycles) := by
  rw [carried, List.range_succ, List.map_append, List.map_singleton, Synchronous.log_snoc]
  rfl

theorem returned_succ (cycles : Nat) : returned wiring start inputs (cycles + 1) =
    returned wiring start inputs cycles ++
      (after wiring start inputs cycles).returns (inputs cycles) := by
  rw [returned, List.range_succ, List.map_append, List.map_singleton, Synchronous.log_snoc]
  rfl

variable (width : Provided tiW) (reset : start.Reset)
  (allowed : ∀ cycles, (after wiring start inputs cycles).Allowed (inputs cycles))
include width reset allowed

theorem at_phases (cycles : Nat) :
    At (after wiring start inputs cycles) (phases wiring start inputs cycles) := by
  induction cycles with
  | zero => exact .idle reset.master_rests (reset.slave_rests width)
  | succ cycles ih =>
    rw [after_succ, phases]
    exact ih.step width (allowed cycles)

theorem logs_eq (cycles : Nat) :
    accepted wiring start inputs cycles =
        (carried wiring start inputs cycles).map Completed.transaction ++
          (phases wiring start inputs cycles).waiting (after wiring start inputs cycles).held ∧
      carried wiring start inputs cycles = returned wiring start inputs cycles ++
        (phases wiring start inputs cycles).answer (after wiring start inputs cycles).held := by
  induction cycles with
  | zero => exact ⟨rfl, rfl⟩
  | succ cycles ih =>
    obtain ⟨requests, answers⟩ :=
      (at_phases width reset allowed cycles).conserves width (allowed cycles)
    have held : (after wiring start inputs (cycles + 1)).held = (inputs cycles).req := by
      rw [after_succ]
      rfl
    rw [accepted_succ, carried_succ, returned_succ, held, phases]
    constructor
    · rw [ih.1, List.append_assoc, requests, List.map_append, List.append_assoc]
    · rw [ih.2, List.append_assoc, answers, List.append_assoc]

/-- With nothing on its way all that was accepted has been returned. -/
theorem comesBack_of_free {cycles : Nat}
    (waiting :
      (phases wiring start inputs cycles).waiting (after wiring start inputs cycles).held = [])
    (answer :
      (phases wiring start inputs cycles).answer (after wiring start inputs cycles).held = []) :
    ComesBack wiring start inputs cycles := by
  obtain ⟨requests, answers⟩ := logs_eq width reset allowed cycles
  rw [waiting, List.append_nil] at requests
  rw [answer, List.append_nil] at answers
  exact ⟨cycles, Nat.le_refl _, by rw [requests, answers]⟩

/-- A master that is busy accepts nothing. -/
theorem comesBack_of_next {cycles : Nat} (busy : phases wiring start inputs cycles ≠ .idle)
    (next : ComesBack wiring start inputs (cycles + 1)) : ComesBack wiring start inputs cycles := by
  obtain ⟨later, reached, back⟩ := next
  have phased := at_phases width reset allowed cycles
  rw [accepted_succ, phased.accepts_busy busy, List.append_nil] at back
  exact ⟨later, by omega, back⟩

/-- A reply ends, since there are fewer than 40 cycles in it. -/
theorem comesBack_reply (left : Nat) : ∀ cycles data cycle,
    phases wiring start inputs cycles = .reply data cycle → 40 ≤ cycle + left →
      ComesBack wiring start inputs cycles := by
  induction left with
  | zero =>
    intro cycles data cycle phase bound
    have few := lastReply_le tiW (after wiring start inputs cycles).held.we
    have next : phases wiring start inputs (cycles + 1) = .answered := by
      rw [phases, phase]
      exact if_neg (by omega)
    apply comesBack_of_next width reset allowed (by rw [phase]; nofun)
    exact comesBack_of_free width reset allowed (by rw [next]; rfl) (by rw [next]; rfl)
  | succ left ih =>
    intro cycles data cycle phase bound
    apply comesBack_of_next width reset allowed (by rw [phase]; nofun)
    by_cases more : cycle < lastReply tiW (after wiring start inputs cycles).held.we
    · have next : phases wiring start inputs (cycles + 1) = .reply data (cycle + 1) := by
        rw [phases, phase]
        exact if_pos more
      exact ih (cycles + 1) data (cycle + 1) next (by omega)
    · have next : phases wiring start inputs (cycles + 1) = .answered := by
        rw [phases, phase]
        exact if_neg more
      exact comesBack_of_free width reset allowed (by rw [next]; rfl) (by rw [next]; rfl)

theorem comesBack_of_ack {cycles cycle : Nat}
    (phase : phases wiring start inputs cycles = .outbound cycle)
    (answer : (inputs cycles).ack = true) : ComesBack wiring start inputs cycles := by
  have next : phases wiring start inputs (cycles + 1) = .reply (inputs cycles).rdata 1 := by
    rw [phases, phase]
    exact if_pos answer
  apply comesBack_of_next width reset allowed (by rw [phase]; nofun)
  exact comesBack_reply width reset allowed 39 (cycles + 1) _ 1 next (by omega)

omit width reset allowed in
theorem phases_quiet {cycles cycle : Nat}
    (phase : phases wiring start inputs cycles = .outbound cycle)
    (quiet : (inputs cycles).ack = false) :
    phases wiring start inputs (cycles + 1) = .outbound (cycle + 1) := by
  rw [phases, phase]
  exact if_neg (by rw [quiet]; exact Bool.false_ne_true)

/-- An answer of the bus is returned, whatever number of cycles it takes to come. -/
theorem comesBack_waiting (wait : Nat) : ∀ cycles cycle,
    phases wiring start inputs cycles = .outbound cycle → (inputs (cycles + wait)).ack = true →
      ComesBack wiring start inputs cycles := by
  induction wait with
  | zero => exact fun cycles cycle phase answer => comesBack_of_ack width reset allowed phase answer
  | succ wait ih =>
    intro cycles cycle phase answer
    cases now : (inputs cycles).ack with
    | true => exact comesBack_of_ack width reset allowed phase now
    | false =>
      apply comesBack_of_next width reset allowed (by rw [phase]; nofun)
      apply ih (cycles + 1) (cycle + 1) (phases_quiet phase now)
      rw [Nat.add_right_comm]
      exact answer

/-- A request comes to the bus, and back when the bus answers. -/
theorem comesBack_outbound
    (served : ∀ asked, (after wiring start inputs asked).slave.cyc = true →
      ∃ later, asked ≤ later ∧ (inputs later).ack = true) (left : Nat) : ∀ cycles cycle,
    phases wiring start inputs cycles = .outbound cycle → cmdWords tiW + 5 ≤ cycle + left →
      ComesBack wiring start inputs cycles := by
  induction left with
  | zero =>
    intro cycles cycle phase bound
    have phased := at_phases width reset allowed cycles
    rw [phase] at phased
    obtain ⟨later, reached, answer⟩ := served cycles (by
      rw [phased.cyc_eq, decide_eq_true_iff]
      exact bound)
    apply comesBack_waiting width reset allowed (later - cycles) cycles cycle phase
    rw [Nat.add_sub_cancel' reached]
    exact answer
  | succ left ih =>
    intro cycles cycle phase bound
    cases now : (inputs cycles).ack with
    | true => exact comesBack_of_ack width reset allowed phase now
    | false =>
      apply comesBack_of_next width reset allowed (by rw [phase]; nofun)
      exact ih (cycles + 1) (cycle + 1) (phases_quiet phase now) (by omega)

/-- Every transaction makes the round trip, for both widths of the link, both ways to connect the
ends and any number of wait states of the bus. -/
theorem round_trips (cycles : Nat) : RoundTrips wiring start inputs cycles where
  conserved := by
    obtain ⟨requests, answers⟩ := logs_eq width reset allowed cycles
    refine ⟨_, _, requests, answers, ?_⟩
    cases phases wiring start inputs cycles <;> simp [Phase.waiting, Phase.answer]
  completed := by
    intro served
    cases phase : phases wiring start inputs cycles with
    | idle => exact comesBack_of_free width reset allowed (by rw [phase]; rfl) (by rw [phase]; rfl)
    | outbound cycle =>
      exact comesBack_outbound width reset allowed served (cmdWords tiW + 5) cycles cycle phase
        (by omega)
    | reply data cycle =>
      exact comesBack_reply width reset allowed 40 cycles data cycle phase (by omega)
    | answered =>
      exact comesBack_of_free width reset allowed (by rw [phase]; rfl) (by rw [phase]; rfl)

end Run

/-- Both ends after reset. -/
def zero (tiW : Nat) : Link tiW where
  master := ⟨.idle, .idle, 0xff, 0, 0, 0, high tiW, 0, high tiW⟩
  slave :=
    ⟨false, false, false, BitVec.ofNat 7 (nCmdbufBits tiW - 1), 0, 0, 0, .idle, false, 0, false⟩
  held := ⟨false, false, 0, 0⟩

theorem zero_reset (tiW : Nat) : (zero tiW).Reset :=
  ⟨⟨rfl, rfl, rfl, rfl, rfl, rfl, rfl, rfl, rfl⟩, ⟨rfl, rfl, rfl, rfl, rfl, rfl, rfl, rfl, rfl, rfl⟩⟩

/-- One read, which the bus answers after three wait states; the request is then taken away. -/
def oneRead (cycle : Nat) : LinkInput where
  req := ⟨decide (cycle < 24), false, 0x1234, 0⟩
  ack := cycle == 16
  rdata := 0xdeadbeef

instance (link : Link tiW) (input : LinkInput) : Decidable (link.Allowed input) :=
  decidable_of_iff ((input.ack = true → link.slave.cyc = true) ∧
      (link.master.currentState ≠ .idle →
        (link.master.currentState = .resp → link.master.preState ≠ .resp) → input.req = link.held))
    ⟨fun both => ⟨both.1, both.2⟩, fun allowed => ⟨allowed.ack, allowed.held⟩⟩

theorem oneRead_allowed (cycles : Nat) :
    (after .shared (zero 16) oneRead cycles).Allowed (oneRead cycles) := by
  have early : ∀ cycle < 25, (after .shared (zero 16) oneRead cycle).Allowed (oneRead cycle) := by
    decide +kernel
  by_cases soon : cycles < 25
  · exact early cycles soon
  · obtain ⟨before, rfl⟩ : ∃ before, cycles = before + 1 := ⟨cycles - 1, by omega⟩
    have same : (after .shared (zero 16) oneRead (before + 1)).held = (oneRead before).req := by
      rw [after_succ]
      rfl
    refine ⟨fun answer => ?_, fun _ _ => ?_⟩
    · have now : before + 1 = 16 := beq_iff_eq.mp answer
      omega
    · rw [same, oneRead, oneRead, decide_eq_false (by omega), decide_eq_false (by omega)]

theorem round_trips_one_read : RoundTrips .shared (zero 16) oneRead 30 :=
  round_trips (.inr rfl) (zero_reset 16) oneRead_allowed 30

example : returned .shared (zero 16) oneRead 30 = [.read 0x1234 0xdeadbeef] := by
  decide +kernel

end Link

end GreenRio.TestIo
