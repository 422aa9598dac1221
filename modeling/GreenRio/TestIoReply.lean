import GreenRio.TestIoEnds

set_option autoImplicit false

namespace GreenRio.TestIo

/-- What the slave shifts out when its bus has answered. -/
def reply (tiW : Nat) (we : Bool) (data : BitVec 32) : BitVec (nPayloadBits tiW) :=
  if we then (zeros tiW ++ zeros tiW ++ high tiW ++ (0xffffffff : BitVec 32)).setWidth _
  else (zeros tiW ++ (zeros tiW).replicate tiW ++ data ++ high tiW ++ high tiW).setWidth _

/-- The beats of a reply, the start beat included. -/
def replyBeats (tiW : Nat) (we : Bool) : Nat := if we then 4 else tiDataCycle tiW + 4

/-- What the slave drives in each cycle from the one that its bus answers in. -/
def replyAt (tiW : Nat) (we : Bool) (data : BitVec 32) (cycle : Nat) : BitVec tiW :=
  if cycle < replyBeats tiW we then
    (reply tiW we data).extractLsb' (nPayloadBits tiW - tiW - cycle * tiW) tiW
  else high tiW

section Beats

variable {tiW : Nat} (width : Provided tiW) {we : Bool} {data : BitVec 32} {position : Nat}
include width

theorem dataBits : tiDataCycle tiW * tiW = 32 := by
  rcases width with rfl | rfl <;> rfl

/-- The start and acknowledge beats are low. -/
theorem reply_low (above : 2 * tiW + 32 ≤ position) :
    (reply tiW we data).getLsbD position = false := by
  have positive := provided_pos width
  cases we
  · rw [reply, if_neg Bool.false_ne_true, BitVec.getLsbD_setWidth]
    simp (disch := omega) only [getLsbD_append_high]
    simp [BitVec.getLsbD_append, BitVec.getLsbD_replicate]
  · rw [reply, if_pos rfl, BitVec.getLsbD_setWidth]
    simp (disch := omega) only [getLsbD_append_high, BitVec.getLsbD_zero, Bool.and_false]

omit width in
theorem reply_data (inside : position < 32) :
    (reply tiW false data).getLsbD (2 * tiW + position) = data.getLsbD position := by
  have fits : 2 * tiW + position < nPayloadBits tiW := by
    rw [nPayloadBits]
    omega
  rw [reply, if_neg Bool.false_ne_true, BitVec.getLsbD_setWidth, decide_eq_true fits, Bool.true_and]
  simp (disch := omega) only [getLsbD_append_low, getLsbD_append_high]
  congr 1
  omega

omit width in
/-- After the acknowledge beat the reply to a write is high. -/
theorem reply_high (below : position < tiW + 32) :
    (reply tiW true data).getLsbD position = true := by
  have fits : position < nPayloadBits tiW := by
    rw [nPayloadBits]
    omega
  have ones : (0xffffffff : BitVec 32) = BitVec.allOnes 32 := by decide
  rw [reply, if_pos rfl, BitVec.getLsbD_setWidth, decide_eq_true fits, Bool.true_and, ones]
  by_cases filled : position < 32 <;>
    simp (disch := omega) only [getLsbD_append_low, getLsbD_append_high, BitVec.getLsbD_allOnes,
      decide_eq_true_eq] <;> omega

omit width in
theorem getLsbD_replyAt {cycle : Nat} (sent : cycle < replyBeats tiW we)
    (inside : position < tiW) : (replyAt tiW we data cycle).getLsbD position =
      (reply tiW we data).getLsbD (nPayloadBits tiW - tiW - cycle * tiW + position) := by
  rw [replyAt, if_pos sent, BitVec.getLsbD_extractLsb', decide_eq_true inside, Bool.true_and]

/-- The acknowledge beat. -/
theorem replyAt_ack : (replyAt tiW we data 1).getLsbD 0 = false := by
  have positive := provided_pos width
  have sent : 1 < replyBeats tiW we := by
    rw [replyBeats]
    split <;> omega
  rw [getLsbD_replyAt sent positive]
  apply reply_low width
  rw [nPayloadBits]
  omega

/-- The beat that ends the reply to a write. -/
theorem replyAt_stop : (replyAt tiW true data 3).getLsbD 0 = true := by
  have positive := provided_pos width
  rw [getLsbD_replyAt (show 3 < 4 by decide) positive]
  apply reply_high
  rw [nPayloadBits]
  omega

end Beats

namespace Slave

variable {tiW : Nat} {slave : Slave tiW} {req : WbmRequest} {din : BitVec tiW}
variable {we : Bool} {data rdata : BitVec 32}

/-- The beats up to `sent` have gone out. -/
structure Replies (slave : Slave tiW) (we : Bool) (data : BitVec 32) (sent : Nat) : Prop where
  payload : slave.payload = reply tiW we data
  cmd : slave.cmd = we
  payloadIdx : slave.payloadIdx.toNat = sent * tiW
  payloadInProgress : slave.payloadInProgress = true
  inside : sent < replyBeats tiW we
  testDinEn : slave.testDinEn = false
  cmdIdx : slave.cmdIdx.toNat = nCmdbufBits tiW - 1
  dffTestDinEn : slave.dffTestDinEn = false
  cdcst : slave.cdcst = .back
  cyc : slave.cyc = false

namespace Replies

variable {sent : Nat} (width : Provided tiW) (replies : slave.Replies we data sent)
include width replies

theorem payloadEnd_eq : slave.payloadEnd = (replyBeats tiW we - 1) * tiW := by
  rw [payloadEnd, replies.cmd, replyBeats]
  rcases width with rfl | rfl <;> cases we <;> rfl

theorem beat_bits : (sent + 1) * tiW ≤ nPayloadBits tiW ∧ nPayloadBits tiW < 128 := by
  have inside : (sent + 1) * tiW ≤ replyBeats tiW we * tiW :=
    Nat.mul_le_mul_right tiW replies.inside
  have total : replyBeats tiW we * tiW ≤ nPayloadBits tiW ∧ nPayloadBits tiW < 128 := by
    rw [replyBeats]
    rcases width with rfl | rfl <;> cases we <;> decide
  omega

theorem negedge_payloadInProgress : (slave.negedge false).payloadInProgress =
    decide (sent + 1 < replyBeats tiW we) := by
  have inside := replies.inside
  change (if false = true then true else if slave.payloadIdx.toNat == slave.payloadEnd then false
    else slave.payloadInProgress) = _
  rw [if_neg Bool.false_ne_true, replies.payloadIdx, replies.payloadEnd_eq width,
    replies.payloadInProgress]
  by_cases last : sent = replyBeats tiW we - 1
  · rw [last, beq_self_eq_true, if_pos rfl, decide_eq_false (by omega)]
  · have differ : (sent * tiW == (replyBeats tiW we - 1) * tiW) = false := by
      rw [beq_eq_false_iff_ne]
      exact fun same => last (Nat.eq_of_mul_eq_mul_right (provided_pos width) same)
    rw [differ, if_neg Bool.false_ne_true, decide_eq_true (by omega)]

theorem negedge_payloadIdx : (slave.negedge false).payloadIdx.toNat = (sent + 1) * tiW := by
  obtain ⟨room, bound⟩ := replies.beat_bits width
  change (if false = true then (0 : BitVec 7) else if slave.payloadInProgress then
    slave.payloadIdx + BitVec.ofNat 7 tiW else slave.payloadIdx).toNat = _
  rw [if_neg Bool.false_ne_true, replies.payloadInProgress, if_pos rfl, BitVec.toNat_add,
    replies.payloadIdx, BitVec.toNat_ofNat]
  rw [Nat.add_mul, Nat.one_mul] at room ⊢
  omega

theorem testDout_eq : (slave.negedge false).testDout = replyAt tiW we data (sent + 1) := by
  have same : (slave.negedge false).payload = reply tiW we data := replies.payload
  rw [testDout, replies.negedge_payloadInProgress width, replies.negedge_payloadIdx width, same,
    replyAt]
  simp only [decide_eq_true_eq]

/-- What an output enable that is low keeps out is no start beat. -/
theorem starts_driving (more : sent + 1 < replyBeats tiW we) :
    (slave.negedge false).starts din = false := by
  rw [starts, testDoen, replies.negedge_payloadInProgress width, decide_eq_true more, if_pos rfl]
  simp

/-- A reply goes on. -/
theorem step (more : sent + 1 < replyBeats tiW we) :
    (slave.unanswered din rdata).Replies we data (sent + 1) := by
  have still : (slave.negedge false).starts din = false := replies.starts_driving width more
  obtain ⟨off, place, same⟩ := receiver_still width replies.testDinEn replies.cmdIdx still
  have driving : (slave.negedge false).payloadInProgress = true := by
    rw [replies.negedge_payloadInProgress width, decide_eq_true more]
  refine ⟨replies.payload, ?_, replies.negedge_payloadIdx width, driving, more, off, place,
    replies.testDinEn, ?_, ?_⟩
  · rw [← replies.cmd, Slave.cmd, unanswered, same, Slave.cmd]
  · change (slave.negedge false).nextCdcst false = .back
    have state : (slave.negedge false).cdcst = .back := replies.cdcst
    rw [nextCdcst, state, driving]
    rfl
  · rw [cyc_unanswered, replies.cdcst, replies.cyc]
    rfl

/-- After the last beat the slave rests. -/
theorem step_last (last : sent + 1 = replyBeats tiW we) (level : din ≠ 0) :
    (slave.unanswered din rdata).Rests := by
  have still : (slave.negedge false).starts din = false := starts_high level
  obtain ⟨off, place, -⟩ := receiver_still width replies.testDinEn replies.cmdIdx still
  have released : (slave.negedge false).payloadInProgress = false := by
    rw [replies.negedge_payloadInProgress width, decide_eq_false (by omega)]
  refine ⟨⟨off, place, released, ?_⟩, replies.testDinEn, ?_, ?_⟩
  · change slave.payload.extractLsb' (nPayloadBits tiW - tiW) tiW = 0
    rw [replies.payload]
    apply BitVec.eq_of_getLsbD_eq
    intro position inside
    rw [BitVec.getLsbD_extractLsb', reply_low width (by rw [nPayloadBits]; omega), Bool.and_false]
    exact BitVec.getLsbD_zero.symm
  · change (slave.negedge false).nextCdcst false = .idle
    have state : (slave.negedge false).cdcst = .back := replies.cdcst
    rw [nextCdcst, state, released]
    rfl
  · rw [cyc_unanswered, replies.cdcst, replies.cyc]
    rfl

end Replies

/-- The answer of the bus starts the reply: the line falls at once, since what the payload held
before begins with a low beat as well. -/
theorem Collects.answered {cycle : Nat} (width : Provided tiW) (collects : Collects req slave cycle)
    (asked : slave.cyc = true) :
    (slave.negedge true).testDout = 0 ∧ (slave.negedge true).payloadInProgress = true ∧
      ((slave.negedge true).posedge din true rdata).Replies req.we rdata 0 := by
  have bound := collects.cyc_iff
  cases collects with
  | wait _ past filled dffTestDinEn cdcst cyc =>
    have still : (slave.negedge true).starts din = false := by
      change ((0 : BitVec tiW) != 0 && _) = false
      simp
    obtain ⟨off, place, same⟩ := receiver_still width filled.testDinEn filled.cmdIdx still
    have command : slave.cmd = req.we := filled.holds.cmd width
    refine ⟨filled.headed, rfl, ⟨?_, ?_, (Nat.zero_mul _).symm, rfl, ?_, off, place,
      filled.testDinEn, ?_, ?_⟩⟩
    · change (slave.negedge true).payloadLoad rdata = _
      have negated : (slave.negedge true).cmd = req.we := command
      have acknowledge : (slave.negedge true).ack = zeros tiW := filled.ack
      rw [payloadLoad, negated, acknowledge, reply]
    · rw [← command, Slave.cmd, same, Slave.cmd]
    · rw [replyBeats]
      split <;> omega
    · change (slave.negedge true).nextCdcst true = .back
      have state : (slave.negedge true).cdcst = if req.we then .wrsp else .rrsp := cdcst
      rw [nextCdcst, state]
      cases req.we <;> rfl
    · change (if true && (slave.cdcst == .wrsp || slave.cdcst == .rrsp) then false
        else if slave.cdcst == .wreq || slave.cdcst == .rreq then true else slave.cyc) = false
      rw [cdcst]
      cases req.we <;> rfl
  | _ =>
    rw [asked, eq_comm, decide_eq_true_iff] at bound
    omega

end Slave

/-- The start beat of the reply takes the master out of its wait. -/
theorem Sends.answered {tiW : Nat} {master : Master tiW} {req : WbmRequest} {din : BitVec tiW}
    {cycle : Nat} (sends : Sends req master cycle) (past : hostCyc tiW req + 1 < cycle)
    (falls : din.getLsbD 0 = false) :
    ((master.negedge req).posedge req din).currentState =
        (if req.we then .wrRcvAck else .rdRcvAck) ∧
      ((master.negedge req).posedge req din).preState = waitState req := by
  cases sends with
  | start => omega
  | beat => omega
  | wait _ _ state =>
    refine ⟨?_, state⟩
    change master.nextState req din = _
    rw [Master.nextState, state, waitState]
    cases req.we <;> simp [falls]

namespace Master

variable {tiW : Nat} {master : Master tiW} {req : WbmRequest} {din : BitVec tiW}
variable {data : BitVec 32} {cycle : Nat}

/-- No request is under way. -/
structure Rests (master : Master tiW) : Prop where
  currentState : master.currentState = .idle
  cycleCounter : master.cycleCounter = 0xff

/-- The request has been answered. -/
structure Answered (master : Master tiW) : Prop where
  currentState : master.currentState = .resp
  preState : master.preState = .resp
  cycleCounter : master.cycleCounter = 0xff

/-- The states in which the master takes the reply to a write. -/
inductive Acked (master : Master tiW) : Nat → Prop
  | ack (state : master.currentState = .wrRcvAck) : Acked master 1
  | parity (state : master.currentState = .wrRcvParity) : Acked master 2
  | rcv (state : master.currentState = .wrRcv) : Acked master 3
  | resp (state : master.currentState = .resp) (pre : master.preState = .wrRcv) : Acked master 4

/-- The cycles in which the master takes the reply to a read: `taken` beats are in the receive buffer
and the next one has been registered. -/
inductive Reads (data : BitVec 32) (master : Master tiW) : Nat → Prop
  | ack (state : master.currentState = .rdRcvAck) (pre : master.preState = .rdRcvIdle) :
      Reads data master 1
  | first (state : master.currentState = .rdRcv) (pre : master.preState = .rdRcvAck)
      (counter : master.cycleCounter = 0xff) : Reads data master 2
  | beat (taken left : Nat) (total : taken + left = tiRdTargCyc tiW)
      (state : master.currentState = .rdRcv) (pre : master.preState = .rdRcv)
      (counter : master.cycleCounter = BitVec.ofNat 8 left)
      (registered : master.rffRcvData = replyAt tiW false data (taken + 2))
      (rcvBuf : ∀ position < taken * tiW, master.rcvBuf.getLsbD position =
        (reply tiW false data).getLsbD (nPayloadBits tiW - (taken + 2) * tiW + position)) :
      Reads data master (taken + 3)
  | resp (state : master.currentState = .resp) (pre : master.preState = .rdRcv)
      (answer : master.respData = data) : Reads data master (tiDataCycle tiW + 5)

theorem sendData_high (mode : master.isSendMode = false) : master.sendData = high tiW := by
  rw [sendData, mode, Bool.false_and, if_neg Bool.false_ne_true]

theorem isSendMode_of_state (write : master.currentState ≠ .wrSend)
    (read : master.currentState ≠ .rdSend) : master.isSendMode = false := by
  rw [isSendMode, isWrSend, isRdSend, beq_eq_false_iff_ne.mpr write, beq_eq_false_iff_ne.mpr read]
  rfl

/-- The counter is reloaded with its rest value where nothing is sent or received. -/
theorem cycleCounter_rest (changed : master.isStateChanged = true)
    (mode : master.isCounterEna = false) :
    ((master.negedge req).posedge req din).cycleCounter = 0xff := by
  change (if master.isStateChanged then master.cycleCount else _) = _
  simp only [isCounterEna, isSendMode, Bool.or_eq_false_iff] at mode
  rw [changed, if_pos rfl, cycleCount, mode.1.1, mode.1.2, mode.2]
  rfl

theorem Rests.step_counter (rests : master.Rests) :
    ((master.negedge req).posedge req din).cycleCounter = 0xff := by
  change (if master.isStateChanged then master.cycleCount
    else if master.isCounterEna then master.cycleCounter - 1 else master.cycleCounter) = _
  rw [cycleCount, isCounterEna, Master.isSendMode, isWrSend, isRdSend, isRdRcv, rests.currentState,
    rests.cycleCounter]
  exact ite_self _

theorem Rests.step (rests : master.Rests) (idle : req.cyc = false) :
    ((master.negedge req).posedge req din).Rests where
  currentState := by
    change master.nextState req din = _
    rw [nextState, rests.currentState, idle]
    rfl
  cycleCounter := rests.step_counter

/-- A request is accepted. -/
theorem Rests.accept (rests : master.Rests) (asked : req.cyc = true) :
    Sends req ((master.negedge req).posedge req din) 0 := by
  refine .start ?_ rests.currentState rests.step_counter
  change master.nextState req din = _
  rw [nextState, rests.currentState, asked, sendState]
  cases req.we <;> rfl

theorem Answered.step (answered : master.Answered) :
    if req.cyc then ((master.negedge req).posedge req din).Answered
    else ((master.negedge req).posedge req din).Rests := by
  have counter : ((master.negedge req).posedge req din).cycleCounter = 0xff := by
    change (if master.isStateChanged then master.cycleCount
      else if master.isCounterEna then master.cycleCounter - 1 else master.cycleCounter) = _
    rw [isStateChanged, answered.preState, answered.currentState, isCounterEna, Master.isSendMode,
      isWrSend, isRdSend, isRdRcv, answered.currentState]
    exact answered.cycleCounter
  have state : ((master.negedge req).posedge req din).currentState =
      if !req.cyc then .idle else .resp := by
    change master.nextState req din = _
    rw [nextState, answered.currentState]
  cases cyc : req.cyc with
  | true =>
    rw [cyc] at state
    exact ⟨state, answered.currentState, counter⟩
  | false =>
    rw [cyc] at state
    exact ⟨state, counter⟩

/-- The first cycle of the response leads to the others while the request is held. -/
theorem step_resp (state : master.currentState = .resp) (pre : master.preState ≠ .resp)
    (held : req.cyc = true) : ((master.negedge req).posedge req din).Answered where
  currentState := by
    change master.nextState req din = _
    rw [nextState, state, held]
    rfl
  preState := state
  cycleCounter := by
    apply cycleCounter_rest
    · rw [isStateChanged, state, bne_iff_ne]
      exact fun same => pre same.symm
    · rw [isCounterEna, isSendMode_of_state (by rw [state]; decide) (by rw [state]; decide), isRdRcv,
        state]
      rfl

namespace Acked

theorem isSendMode (acked : master.Acked cycle) : master.isSendMode = false := by
  cases acked with
  | _ state => exact isSendMode_of_state (by rw [state]; decide) (by rw [state]; decide)

theorem step (acked : master.Acked cycle) (more : cycle < 4)
    (level : din = replyAt tiW true data cycle) (width : Provided tiW) :
    ((master.negedge req).posedge req din).Acked (cycle + 1) := by
  cases acked with
  | ack state =>
    refine .parity ?_
    change master.nextState req din = _
    rw [nextState, state, level, replyAt_ack width]
    rfl
  | parity state =>
    refine .rcv ?_
    change master.nextState req din = _
    rw [nextState, state]
  | rcv state =>
    refine .resp ?_ state
    change master.nextState req din = _
    rw [nextState, state, level, replyAt_stop width]
    rfl
  | resp => omega

theorem busy (acked : master.Acked cycle) : master.currentState ≠ .idle ∧
    (master.currentState = .resp → master.preState ≠ .resp) := by
  cases acked with
  | ack state => simp [state]
  | parity state => simp [state]
  | rcv state => simp [state]
  | resp state pre => simp [state, pre]

theorem unfinished (acked : master.Acked cycle) (more : cycle < 4) :
    master.currentState ≠ .resp := by
  cases acked with
  | ack state => simp [state]
  | parity state => simp [state]
  | rcv state => simp [state]
  | resp => omega

theorem finished (acked : master.Acked 4) :
    master.currentState = .resp ∧ master.preState = .wrRcv := by
  cases acked with
  | resp state pre => exact ⟨state, pre⟩

theorem step_last (acked : master.Acked 4) (held : req.cyc = true) :
    ((master.negedge req).posedge req din).Answered :=
  step_resp acked.finished.1 (by rw [acked.finished.2]; decide) held

end Acked

namespace Reads

theorem busy (reads : master.Reads data cycle) : master.currentState ≠ .idle ∧
    (master.currentState = .resp → master.preState ≠ .resp) := by
  cases reads with
  | ack state => simp [state]
  | first state => simp [state]
  | beat _ _ _ state => simp [state]
  | resp state pre => simp [state, pre]

theorem unfinished (reads : master.Reads data cycle) (more : cycle < tiDataCycle tiW + 5) :
    master.currentState ≠ .resp := by
  cases reads with
  | ack state => simp [state]
  | first state => simp [state]
  | beat _ _ _ state => simp [state]
  | resp => omega

theorem finished (reads : master.Reads data (tiDataCycle tiW + 5)) :
    master.currentState = .resp ∧ master.preState = .rdRcv ∧ master.respData = data := by
  generalize last : tiDataCycle tiW + 5 = cycle at reads
  cases reads with
  | ack => omega
  | first => omega
  | beat taken left total =>
    have size : tiRdTargCyc tiW = tiDataCycle tiW + 1 := Nat.add_comm _ _
    omega
  | resp state pre answer => exact ⟨state, pre, answer⟩

theorem step_last (reads : master.Reads data (tiDataCycle tiW + 5)) (held : req.cyc = true) :
    ((master.negedge req).posedge req din).Answered :=
  step_resp reads.finished.1 (by rw [reads.finished.2.1]; decide) held

theorem isSendMode (reads : master.Reads data cycle) : master.isSendMode = false := by
  cases reads with
  | ack state => exact isSendMode_of_state (by rw [state]; decide) (by rw [state]; decide)
  | first state => exact isSendMode_of_state (by rw [state]; decide) (by rw [state]; decide)
  | beat _ _ _ state => exact isSendMode_of_state (by rw [state]; decide) (by rw [state]; decide)
  | resp state => exact isSendMode_of_state (by rw [state]; decide) (by rw [state]; decide)

/-- A beat is shifted in below the others. -/
theorem rcvBuf_shift {taken : Nat} (width : Provided tiW) (room : taken < tiRcvBufW tiW)
    (registered : master.rffRcvData = replyAt tiW false data (taken + 2))
    (rcvBuf : ∀ position < taken * tiW, master.rcvBuf.getLsbD position =
      (reply tiW false data).getLsbD (nPayloadBits tiW - (taken + 2) * tiW + position))
    (position : Nat) (inside : position < (taken + 1) * tiW) :
    ((master.rcvBuf <<< tiW) ||| master.rffRcvData.setWidth (tiRcvBufW tiW * tiW)).getLsbD position =
      (reply tiW false data).getLsbD (nPayloadBits tiW - (taken + 3) * tiW + position) := by
  have size : nPayloadBits tiW = tiW + tiW + 32 + tiW + tiW := rfl
  have bits := dataBits width
  have beats : tiRcvBufW tiW = tiDataCycle tiW + 2 := by
    rw [tiRcvBufW, tiRdTargCyc, tiRdAckCyc]
    omega
  have sent : taken + 2 < replyBeats tiW false := by
    change taken + 2 < tiDataCycle tiW + 4
    omega
  have below : (taken + 1) * tiW ≤ tiRcvBufW tiW * tiW := Nat.mul_le_mul_right _ room
  have whole : (taken + 3) * tiW ≤ (tiDataCycle tiW + 4) * tiW := Nat.mul_le_mul_right _ (by omega)
  rw [BitVec.getLsbD_or, BitVec.getLsbD_shiftLeft, BitVec.getLsbD_setWidth,
    decide_eq_true (by omega), Bool.true_and, Bool.true_and]
  rw [Nat.add_mul] at inside whole rcvBuf ⊢
  rw [Nat.add_mul] at whole
  by_cases new : position < tiW
  · rw [decide_eq_true new, Bool.not_true, Bool.false_and, Bool.false_or, registered,
      getLsbD_replyAt sent new, Nat.add_mul]
    congr 1
    omega
  · have absent : master.rffRcvData.getLsbD position = false :=
      BitVec.getLsbD_of_ge _ _ (Nat.le_of_not_lt new)
    rw [decide_eq_false new, Bool.not_false, Bool.true_and, absent, Bool.or_false,
      rcvBuf _ (by omega)]
    congr 1
    omega

theorem step (reads : master.Reads data cycle) (more : cycle < tiDataCycle tiW + 5)
    (level : din = replyAt tiW false data cycle) (width : Provided tiW) :
    ((master.negedge req).posedge req din).Reads data (cycle + 1) := by
  cases reads with
  | ack state pre =>
    refine .first ?_ state ?_
    · change master.nextState req din = _
      rw [nextState, state, level, replyAt_ack width]
      rfl
    · apply cycleCounter_rest
      · rw [isStateChanged, state, pre]
        rfl
      · rw [isCounterEna, isSendMode_of_state (by rw [state]; decide) (by rw [state]; decide),
          isRdRcv, state]
        rfl
  | first state pre counter =>
    refine .beat 0 (tiRdTargCyc tiW) (Nat.zero_add _) ?_ state ?_ level ?_
    · change master.nextState req din = _
      rw [nextState, state, done, counter]
      rfl
    · change (if master.isStateChanged then master.cycleCount else _) = _
      rw [isStateChanged, cycleCount, isWrSend, isRdSend, isRdRcv, state, pre]
      rfl
    · intro position inside
      rw [Nat.zero_mul] at inside
      omega
  | beat taken left total state pre counter registered rcvBuf =>
    have size : tiRdTargCyc tiW = tiDataCycle tiW + 1 := Nat.add_comm _ _
    have small : tiDataCycle tiW ≤ 32 := Nat.div_le_self _ _
    have room : taken < tiRcvBufW tiW := by
      rw [tiRcvBufW]
      omega
    have finished := Sends.done_eq (show left < 256 by omega) counter
    have shifted : ((master.negedge req).posedge req din).rcvBuf =
        ((master.rcvBuf <<< tiW) ||| master.rffRcvData.setWidth (tiRcvBufW tiW * tiW)) := by
      change (if master.isStateChanged then _ else if master.isRdRcv then _ else _) = _
      rw [isStateChanged, isRdRcv, state, pre]
      rfl
    have received := rcvBuf_shift width room registered rcvBuf
    rw [← shifted] at received
    cases left with
    | zero =>
      have cycles : taken + 3 + 1 = tiDataCycle tiW + 5 := by omega
      rw [cycles]
      refine .resp ?_ state ?_
      · change master.nextState req din = _
        rw [nextState, state, finished]
        rfl
      · apply BitVec.eq_of_getLsbD_eq
        intro position inside
        have bits := dataBits width
        have last : taken = tiDataCycle tiW + 1 := by omega
        rw [respData, BitVec.getLsbD_extractLsb', decide_eq_true inside, Bool.true_and,
          received _ (by rw [last, Nat.add_mul, Nat.add_mul]; omega), ← reply_data inside]
        congr 1
        rw [last, nPayloadBits, Nat.add_mul, Nat.add_mul]
        omega
    | succ left =>
      refine .beat (taken + 1) left (by omega) ?_ state ?_ level received
      · change master.nextState req din = _
        rw [nextState, state, finished]
        rfl
      · have receiving : master.isRdRcv = true := by
          rw [isRdRcv, state]
          rfl
        change (if master.isStateChanged then _ else if master.isCounterEna then
          master.cycleCounter - 1 else _) = _
        rw [Sends.isStateChanged_of_same (pre.trans state.symm), if_neg Bool.false_ne_true,
          isCounterEna, receiving, Bool.or_true, if_pos rfl, counter]
        apply BitVec.eq_of_toNat_eq
        simp only [BitVec.toNat_sub, BitVec.toNat_ofNat, BitVec.ofNat_eq_ofNat]
        omega
  | resp => omega

end Reads

end Master

end GreenRio.TestIo
