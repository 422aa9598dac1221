import GreenRio.TestIo

set_option autoImplicit false

namespace GreenRio.TestIo

/-- The widths that the generate blocks of `testio_master_top` provide. -/
def Provided (tiW : Nat) : Prop := tiW = 1 ∨ tiW = 16

theorem getLsbD_append_low {n m position : Nat} (left : BitVec n) (right : BitVec m)
    (below : position < m) : (left ++ right).getLsbD position = right.getLsbD position := by
  rw [BitVec.getLsbD_append, if_pos below]

theorem getLsbD_append_high {n m position : Nat} (left : BitVec n) (right : BitVec m)
    (above : m ≤ position) :
    (left ++ right).getLsbD position = left.getLsbD (position - m) := by
  rw [BitVec.getLsbD_append, if_neg (Nat.not_lt.mpr above)]

/-- What the master shifts out for a request. -/
def frame (tiW : Nat) (req : WbmRequest) : BitVec (tiSendBufW tiW * tiW) :=
  if req.we then wrSendData tiW req.addr req.wdata else rdSendData tiW req.addr

section Frames

variable {tiW : Nat} (width : Provided tiW) {req : WbmRequest} {position : Nat}
include width

theorem provided_pos : 0 < tiW := by
  rcases width with rfl | rfl <;> decide

theorem sendBits : tiSendBufW tiW * tiW = tiW + nCmdbufBits tiW + tiW := by
  rcases width with rfl | rfl <;> rfl

theorem fillBits : (tiStrbCycle tiW + tiDataCycle tiW) * tiW = nStrbBits tiW + 32 := by
  rcases width with rfl | rfl <;> rfl

theorem maskBits : tiMaskW tiW = nStrbBits tiW := by
  rcases width with rfl | rfl <;> rfl

/-- The start beat is low. -/
theorem frame_start (above : tiW + nCmdbufBits tiW ≤ position) :
    (frame tiW req).getLsbD position = false := by
  have mask := maskBits width
  have fill := fillBits width
  rw [nCmdbufBits] at above
  cases we : req.we
  · rw [frame, we, if_neg Bool.false_ne_true, rdSendData, BitVec.getLsbD_setWidth]
    simp (disch := omega) only [getLsbD_append_high, BitVec.getLsbD_zero, Bool.and_false]
  · rw [frame, we, if_pos rfl, wrSendData, BitVec.getLsbD_setWidth]
    simp (disch := omega) only [getLsbD_append_high, BitVec.getLsbD_zero, Bool.and_false]

/-- The command beat tells a write from a read. -/
theorem frame_command : (frame tiW req).getLsbD (tiW + nCmdbufBits tiW - 1) = req.we := by
  have mask := maskBits width
  have fill := fillBits width
  have positive := provided_pos width
  have inside : tiW + nCmdbufBits tiW - 1 < tiSendBufW tiW * tiW := by
    rw [sendBits width]
    omega
  cases we : req.we
  · rw [frame, we, if_neg Bool.false_ne_true, rdSendData, BitVec.getLsbD_setWidth, nCmdbufBits]
    simp (disch := omega) only [getLsbD_append_low, getLsbD_append_high, BitVec.getLsbD_zero,
      Bool.and_false]
  · rw [frame, we, if_pos rfl, wrSendData, BitVec.getLsbD_setWidth, decide_eq_true inside,
      Bool.true_and, nCmdbufBits]
    simp (disch := omega) only [getLsbD_append_low, getLsbD_append_high, BitVec.getLsbD_allOnes,
      decide_eq_true_eq]
    omega

theorem frame_addr (inside : position < 32) :
    (frame tiW req).getLsbD (nCmdbufBits tiW - 32 + position) = req.addr.getLsbD position := by
  have mask := maskBits width
  have fill := fillBits width
  have fits : nCmdbufBits tiW - 32 + position < tiSendBufW tiW * tiW := by
    rw [sendBits width, nCmdbufBits]
    omega
  cases we : req.we
  · rw [frame, we, if_neg Bool.false_ne_true, rdSendData, BitVec.getLsbD_setWidth,
      decide_eq_true fits, Bool.true_and, nCmdbufBits]
    simp (disch := omega) only [getLsbD_append_low, getLsbD_append_high]
    congr 1
    omega
  · rw [frame, we, if_pos rfl, wrSendData, BitVec.getLsbD_setWidth, decide_eq_true fits,
      Bool.true_and, nCmdbufBits]
    simp (disch := omega) only [getLsbD_append_low, getLsbD_append_high]
    congr 1
    omega

theorem frame_wdata (we : req.we = true) (inside : position < 32) :
    (frame tiW req).getLsbD (2 * tiW + position) = req.wdata.getLsbD position := by
  have mask := maskBits width
  have fits : 2 * tiW + position < tiSendBufW tiW * tiW := by
    rw [sendBits width, nCmdbufBits]
    omega
  rw [frame, we, if_pos rfl, wrSendData, BitVec.getLsbD_setWidth, decide_eq_true fits,
    Bool.true_and]
  simp (disch := omega) only [getLsbD_append_low, getLsbD_append_high]
  congr 1
  omega

/-- The parity and stop beats are high, and in a read all that comes after the address. -/
theorem frame_end (below : position < if req.we then 2 * tiW else nCmdbufBits tiW - 32) :
    (frame tiW req).getLsbD position = true := by
  have mask := maskBits width
  have fill := fillBits width
  cases we : req.we
  · rw [we, if_neg Bool.false_ne_true, nCmdbufBits] at below
    have fits : position < tiSendBufW tiW * tiW := by
      rw [sendBits width, nCmdbufBits]
      omega
    rw [frame, we, if_neg Bool.false_ne_true, rdSendData, BitVec.getLsbD_setWidth,
      decide_eq_true fits, Bool.true_and]
    by_cases filled : position < (tiStrbCycle tiW + tiDataCycle tiW) * tiW
    · simp (disch := omega) only [getLsbD_append_low, BitVec.getLsbD_allOnes, decide_eq_true_eq]
      exact filled
    · by_cases stop : position - (tiStrbCycle tiW + tiDataCycle tiW) * tiW < tiW <;>
        simp (disch := omega) only [getLsbD_append_low, getLsbD_append_high, BitVec.getLsbD_allOnes,
          decide_eq_true_eq] <;> omega
  · rw [we, if_pos rfl] at below
    have fits : position < tiSendBufW tiW * tiW := by
      rw [sendBits width, nCmdbufBits]
      omega
    rw [frame, we, if_pos rfl, wrSendData, BitVec.getLsbD_setWidth, decide_eq_true fits,
      Bool.true_and]
    by_cases stop : position < tiW <;>
      simp (disch := omega) only [getLsbD_append_low, getLsbD_append_high, BitVec.getLsbD_allOnes,
        decide_eq_true_eq] <;> omega

end Frames

/-- `ti_cycle_count` while a request is sent. -/
def hostCyc (tiW : Nat) (req : WbmRequest) : Nat :=
  if req.we then tiWrHostCyc tiW else tiRdHostCyc tiW

/-- What the master drives in each cycle from the one that it begins to send in. -/
def lineAt (tiW : Nat) (req : WbmRequest) (cycle : Nat) : BitVec tiW :=
  if cycle = 0 ∨ tiSendBufW tiW < cycle then high tiW
  else (frame tiW req).extractLsb' ((tiSendBufW tiW - cycle) * tiW) tiW

section Beats

variable {tiW : Nat} (width : Provided tiW) {req : WbmRequest} {cycle : Nat}
include width

theorem hostCyc_lt (req : WbmRequest) :
    hostCyc tiW req < tiSendBufW tiW ∧ tiSendBufW tiW < 128 := by
  rcases width with rfl | rfl <;> rw [hostCyc] <;> cases req.we <;> decide

omit width in
theorem getLsbD_lineAt (started : cycle ≠ 0) (sent : cycle ≤ tiSendBufW tiW) {position : Nat}
    (inside : position < tiW) : (lineAt tiW req cycle).getLsbD position =
      (frame tiW req).getLsbD ((tiSendBufW tiW - cycle) * tiW + position) := by
  rw [lineAt, if_neg (by omega), BitVec.getLsbD_extractLsb', decide_eq_true inside, Bool.true_and]

theorem lineAt_start : lineAt tiW req 1 = 0 := by
  apply BitVec.eq_of_getLsbD_eq
  intro position inside
  have bound := hostCyc_lt width req
  have total := sendBits width
  rw [getLsbD_lineAt (by decide) (by omega) inside, frame_start width]
  · exact BitVec.getLsbD_zero.symm
  · rw [Nat.sub_mul]
    omega

theorem lineAt_high (past : hostCyc tiW req ≤ cycle) : lineAt tiW req cycle = high tiW := by
  by_cases sent : cycle = 0 ∨ tiSendBufW tiW < cycle
  · rw [lineAt, if_pos sent]
  · apply BitVec.eq_of_getLsbD_eq
    intro position inside
    rw [getLsbD_lineAt (by omega) (by omega) inside, BitVec.getLsbD_allOnes,
      decide_eq_true inside]
    apply frame_end width
    rw [hostCyc] at past
    rcases width with rfl | rfl
    · have sizes : tiSendBufW 1 = 72 ∧ nCmdbufBits 1 = 70 ∧ tiWrHostCyc 1 = 71 ∧
          tiRdHostCyc 1 = 35 := ⟨rfl, rfl, rfl, rfl⟩
      cases we : req.we <;> simp only [we, Bool.false_eq_true, if_true, if_false] at past ⊢ <;>
        omega
    · have sizes : tiSendBufW 16 = 9 ∧ nCmdbufBits 16 = 112 ∧ tiWrHostCyc 16 = 8 ∧
          tiRdHostCyc 16 = 5 := ⟨rfl, rfl, rfl, rfl⟩
      cases we : req.we <;> simp only [we, Bool.false_eq_true, if_true, if_false] at past ⊢ <;>
        omega

end Beats

/-- The state that sends a request, and the one that waits for its reply. -/
def sendState (req : WbmRequest) : TiState := if req.we then .wrSend else .rdSend
def waitState (req : WbmRequest) : TiState := if req.we then .wrRcvIdle else .rdRcvIdle

/-- The master is in the given cycle of a request: it has begun, or it has `left` beats before the
last and has `sent` some, or it waits for the reply. -/
inductive Sends {tiW : Nat} (req : WbmRequest) (master : Master tiW) : Nat → Prop
  | start (state : master.currentState = sendState req) (pre : master.preState = .idle)
      (counter : master.cycleCounter = 0xff) : Sends req master 0
  | beat (left sent : Nat) (total : left + sent = hostCyc tiW req)
      (state : master.currentState = sendState req) (pre : master.preState = sendState req)
      (counter : master.cycleCounter = BitVec.ofNat 8 left)
      (sendBuf : master.sendBuf = frame tiW req <<< (sent * tiW))
      (dataOen : master.dataOen = 0) : Sends req master (sent + 1)
  | wait (cycle : Nat) (past : hostCyc tiW req + 1 < cycle)
      (state : master.currentState = waitState req)
      (pre : master.preState = sendState req ∨ master.preState = waitState req) :
      Sends req master cycle

namespace Sends

variable {tiW : Nat} {req : WbmRequest} {master : Master tiW} {din : BitVec tiW} {cycle : Nat}

theorem isSendMode_of_send (state : master.currentState = sendState req) :
    master.isSendMode = true := by
  rw [Master.isSendMode, Master.isWrSend, Master.isRdSend, state, sendState]
  cases req.we <;> rfl

theorem isSendMode_of_wait (state : master.currentState = waitState req) :
    master.isSendMode = false ∧ master.isRdRcv = false := by
  rw [Master.isSendMode, Master.isWrSend, Master.isRdSend, Master.isRdRcv, state, waitState]
  cases req.we <;> exact ⟨rfl, rfl⟩

theorem isStateChanged_of_same (same : master.preState = master.currentState) :
    master.isStateChanged = false := by
  rw [Master.isStateChanged, same, bne_self_eq_false]

theorem nextState_send (state : master.currentState = sendState req) :
    master.nextState req din = if master.done then waitState req else sendState req := by
  rw [Master.nextState, state, sendState, waitState]
  cases req.we <;> rfl

theorem counter_eq {left value : Nat} (small : left < 256) (other : value < 256) :
    (BitVec.ofNat 8 left == BitVec.ofNat 8 value) = decide (left = value) := by
  rw [Bool.eq_iff_iff, beq_iff_eq, decide_eq_true_iff]
  constructor
  · intro same
    have number := congrArg BitVec.toNat same
    rw [BitVec.toNat_ofNat, BitVec.toNat_ofNat] at number
    omega
  · rintro rfl
    rfl

/-- The counter reaches zero with the last beat only. -/
theorem done_eq {left : Nat} (small : left < 256)
    (counter : master.cycleCounter = BitVec.ofNat 8 left) : master.done = decide (left = 0) := by
  rw [Master.done, counter]
  exact counter_eq small (by decide)

theorem isStateChanged_of_start (state : master.currentState = sendState req)
    (pre : master.preState = .idle) : master.isStateChanged = true := by
  rw [Master.isStateChanged, state, pre, sendState]
  cases req.we <;> rfl

/-- The pin of the master follows the frame. -/
theorem sendData_eq (width : Provided tiW) (sends : Sends req master cycle) :
    master.sendData = lineAt tiW req cycle := by
  have bound := hostCyc_lt width req
  cases sends with
  | start state pre =>
    rw [Master.sendData, isStateChanged_of_start state pre, Bool.not_true, Bool.and_false,
      if_neg Bool.false_ne_true, lineAt, if_pos (.inl rfl)]
  | beat left sent total state pre counter sendBuf =>
    rw [Master.sendData, isSendMode_of_send state, isStateChanged_of_same (pre.trans state.symm),
      Bool.not_false, Bool.and_true, if_pos rfl, counter]
    by_cases parity : left = 1
    · rw [if_pos (by rw [parity]; rfl), lineAt_high width (by omega)]
    · have other : (BitVec.ofNat 8 left == 1) = false := by
        rw [← decide_eq_false parity]
        exact counter_eq (by omega) (by decide)
      rw [if_neg (by rw [other]; exact Bool.false_ne_true)]
      apply BitVec.eq_of_getLsbD_eq
      intro position inside
      have room : (sent + 1) * tiW ≤ tiSendBufW tiW * tiW := Nat.mul_le_mul_right _ (by omega)
      rw [getLsbD_lineAt (by omega) (by omega) inside, BitVec.getLsbD_extractLsb', sendBuf,
        BitVec.getLsbD_shiftLeft, decide_eq_true inside, Bool.true_and, Nat.sub_mul]
      rw [Nat.add_mul, Nat.one_mul] at room ⊢
      rw [decide_eq_true (by omega), decide_eq_false (by omega), Bool.not_false, Bool.true_and,
        Bool.true_and]
      congr 1
      omega
  | wait _ past state =>
    rw [Master.sendData, (isSendMode_of_wait state).1, Bool.false_and, if_neg Bool.false_ne_true,
      lineAt_high width (by omega)]

theorem busy (sends : Sends req master cycle) :
    master.currentState ≠ .idle ∧ master.currentState ≠ .resp := by
  cases sends with
  | start state => rw [state, sendState]; cases req.we <;> decide
  | beat _ _ _ state => rw [state, sendState]; cases req.we <;> decide
  | wait _ _ state => rw [state, waitState]; cases req.we <;> decide

theorem released (width : Provided tiW) (sends : Sends req master cycle)
    (past : hostCyc tiW req ≤ cycle) : master.sendData = high tiW := by
  rw [sends.sendData_eq width, lineAt_high width past]

/-- The pad is driven while there is something to send. -/
theorem drives (width : Provided tiW) (sends : Sends req master cycle) :
    master.dataOen = 0 ∨ master.sendData = high tiW := by
  have same := sends.sendData_eq width
  cases sends with
  | start => exact .inr (same.trans (if_pos (.inl rfl)))
  | beat _ _ _ _ _ _ _ dataOen => exact .inl dataOen
  | wait _ past => exact .inr (same.trans (lineAt_high width (by omega)))

/-- A cycle in which no start beat comes back leads to the next one. -/
theorem step (width : Provided tiW) (sends : Sends req master cycle)
    (quiet : hostCyc tiW req + 1 < cycle → din.getLsbD 0 = true) :
    Sends req ((master.negedge req).posedge req din) (cycle + 1) := by
  have bound := hostCyc_lt width req
  cases sends with
  | start state pre counter =>
    have changed := isStateChanged_of_start state pre
    have busy : master.done = false := by
      rw [Master.done, counter]
      rfl
    refine .beat (hostCyc tiW req) 0 rfl ?_ state ?_ ?_ ?_
    · change master.nextState req din = _
      rw [nextState_send state, busy, if_neg Bool.false_ne_true]
    · change (if master.isStateChanged then master.cycleCount else _) = _
      rw [changed, if_pos rfl, Master.cycleCount, Master.isWrSend, Master.isRdSend, state, sendState,
        hostCyc]
      cases req.we <;> rfl
    · change (if master.isStateChanged then master.sendDataMux req else _) = _
      rw [changed, if_pos rfl, Master.sendDataMux, Master.isWrSend, state, sendState, frame,
        Nat.zero_mul, BitVec.shiftLeft_zero]
      cases req.we <;> rfl
    · change (if master.isSendMode && !master.done then (0 : BitVec tiW) else high tiW) = 0
      rw [isSendMode_of_send state, busy]
      rfl
  | beat left sent total state pre counter sendBuf dataOen =>
    have same := isStateChanged_of_same (pre.trans state.symm)
    have mode := isSendMode_of_send state
    have done := done_eq (by omega) counter
    cases left with
    | zero =>
      refine .wait _ (by omega) ?_ (.inl state)
      change master.nextState req din = _
      rw [nextState_send state, done]
      rfl
    | succ left =>
      have busy : master.done = false := done
      refine .beat left (sent + 1) (by omega) ?_ state ?_ ?_ ?_
      · change master.nextState req din = _
        rw [nextState_send state, busy, if_neg Bool.false_ne_true]
      · change (if master.isStateChanged then master.cycleCount
          else if master.isCounterEna then master.cycleCounter - 1 else master.cycleCounter) = _
        rw [same, if_neg Bool.false_ne_true, Master.isCounterEna, mode, Bool.true_or, if_pos rfl,
          counter]
        apply BitVec.eq_of_toNat_eq
        simp only [BitVec.toNat_sub, BitVec.toNat_ofNat, BitVec.ofNat_eq_ofNat]
        omega
      · change (if master.isStateChanged then master.sendDataMux req
          else if master.isSendMode then master.sendBuf <<< tiW else master.sendBuf) = _
        rw [same, if_neg Bool.false_ne_true, mode, if_pos rfl, sendBuf, Nat.add_mul,
          Nat.one_mul, BitVec.shiftLeft_add]
      · change (if master.isSendMode && !master.done then (0 : BitVec tiW) else high tiW) = 0
        rw [mode, busy]
        rfl
  | wait _ past state =>
    refine .wait _ (by omega) ?_ (.inr state)
    change master.nextState req din = _
    rw [Master.nextState, state, waitState]
    cases req.we <;> simp [quiet past]

end Sends

/-- The words that the command buffer takes. -/
def cmdWords (tiW : Nat) : Nat := 2 + tiAddrCycle tiW + tiStrbCycle tiW + tiDataCycle tiW

theorem cmdbufBits {tiW : Nat} (width : Provided tiW) :
    nCmdbufBits tiW = cmdWords tiW * tiW ∧ tiSendBufW tiW = cmdWords tiW + 2 ∧
      nCmdbufBits tiW < 128 := by
  rcases width with rfl | rfl <;> decide

namespace Slave

variable {tiW : Nat}

/-- Nothing is being received and nothing is being sent. -/
structure Quiet (slave : Slave tiW) : Prop where
  testDinEn : slave.testDinEn = false
  cmdIdx : slave.cmdIdx.toNat = nCmdbufBits tiW - 1
  payloadInProgress : slave.payloadInProgress = false
  headed : slave.payload.extractLsb' (nPayloadBits tiW - tiW) tiW = 0

/-- No request is under way. -/
structure Rests (slave : Slave tiW) : Prop extends slave.Quiet where
  dffTestDinEn : slave.dffTestDinEn = false
  cdcst : slave.cdcst = .idle
  cyc : slave.cyc = false

/-- The buffer holds the frame of a request from the given bit on. -/
def Holds (slave : Slave tiW) (req : WbmRequest) (bottom : Nat) : Prop :=
  ∀ position, bottom ≤ position → position < nCmdbufBits tiW →
    slave.cmdbuf.getLsbD position = (frame tiW req).getLsbD (position + tiW)

section Fields

variable {slave : Slave tiW} {req : WbmRequest} (width : Provided tiW) (holds : slave.Holds req 0)
include width holds

theorem Holds.cmd : slave.cmd = req.we := by
  have positive := provided_pos width
  have some : 0 < nCmdbufBits tiW := by
    rw [nCmdbufBits]
    omega
  rw [Slave.cmd, holds _ (Nat.zero_le _) (by omega), ← frame_command width]
  congr 1
  omega

theorem Holds.addr : slave.addr = req.addr := by
  apply BitVec.eq_of_getLsbD_eq
  intro position inside
  have size : nCmdbufBits tiW = tiW + 32 + 32 + nStrbBits tiW + tiW := rfl
  rw [Slave.addr, BitVec.getLsbD_extractLsb', decide_eq_true inside, Bool.true_and,
    holds _ (Nat.zero_le _) (by omega), ← frame_addr width inside]
  congr 1
  omega

theorem Holds.wdata (we : req.we = true) : slave.wdata = req.wdata := by
  apply BitVec.eq_of_getLsbD_eq
  intro position inside
  have size : nCmdbufBits tiW = tiW + 32 + 32 + nStrbBits tiW + tiW := rfl
  rw [Slave.wdata, BitVec.getLsbD_extractLsb', decide_eq_true inside, Bool.true_and,
    holds _ (Nat.zero_le _) (by omega), ← frame_wdata width we inside]
  congr 1
  omega

end Fields

/-- One word of the frame is written below those that are there. -/
theorem Holds.put {slave : Slave tiW} {req : WbmRequest} {left cycle : Nat}
    (holds : slave.Holds req ((left + 1) * tiW))
    (place : cycle + left + 1 = tiSendBufW tiW) (started : cycle ≠ 0) (position : Nat)
    (above : left * tiW ≤ position) (inside : position < nCmdbufBits tiW) :
    (PartSelect.put slave.cmdbuf (left * tiW) (lineAt tiW req cycle)).getLsbD position =
      (frame tiW req).getLsbD (position + tiW) := by
  rw [PartSelect.getLsbD_put]
  by_cases word : position < left * tiW + tiW
  · rw [if_pos ⟨above, word, inside⟩, getLsbD_lineAt started (by omega) (by omega),
      show tiSendBufW tiW - cycle = left + 1 by omega, Nat.add_mul, Nat.one_mul]
    congr 1
    omega
  · rw [if_neg (by omega)]
    apply holds position _ inside
    rw [Nat.add_mul, Nat.one_mul]
    omega

section Steps

variable {slave : Slave tiW} {din : BitVec tiW} {rdata : BitVec 32}

/-- One cycle without an answer of the bus. -/
def unanswered (slave : Slave tiW) (din : BitVec tiW) (rdata : BitVec 32) : Slave tiW :=
  (slave.negedge false).posedge din false rdata

theorem negedge_silent (silent : slave.payloadInProgress = false) :
    (slave.negedge false).payloadInProgress = false := by
  change (if false = true then true else if slave.payloadIdx.toNat == slave.payloadEnd then false
    else slave.payloadInProgress) = false
  rw [if_neg Bool.false_ne_true, silent, ite_self]

theorem starts_high (level : din ≠ 0) : slave.starts din = false := by
  rw [starts, beq_eq_false_iff_ne.mpr level, Bool.and_false, Bool.and_false]

/-- Without a start beat the receiver stays as it is. -/
theorem receiver_still (width : Provided tiW) {ack : Bool} (testDinEn : slave.testDinEn = false)
    (cmdIdx : slave.cmdIdx.toNat = nCmdbufBits tiW - 1)
    (still : (slave.negedge ack).starts din = false) :
    ((slave.negedge ack).posedge din ack rdata).testDinEn = false ∧
      ((slave.negedge ack).posedge din ack rdata).cmdIdx.toNat = nCmdbufBits tiW - 1 ∧
      ((slave.negedge ack).posedge din ack rdata).cmdbuf = slave.cmdbuf := by
  have positive := provided_pos width
  have size : nCmdbufBits tiW = tiW + 32 + 32 + nStrbBits tiW + tiW := rfl
  have bound := (cmdbufBits width).2.2
  have running : (slave.cmdIdx.toNat == tiW - 1) = false := by
    rw [beq_eq_false_iff_ne, cmdIdx]
    omega
  refine ⟨?_, ?_, ?_⟩
  · change (if slave.cmdIdx.toNat == tiW - 1 then false
      else if slave.testDinEn then true else (slave.negedge ack).starts din) = false
    rw [running, if_neg Bool.false_ne_true, testDinEn, if_neg Bool.false_ne_true, still]
  · change (if slave.cmdIdx.toNat == tiW - 1 then BitVec.ofNat 7 (nCmdbufBits tiW - 1)
      else if slave.testDinEn then slave.cmdIdx - BitVec.ofNat 7 tiW
      else if (slave.negedge ack).starts din then slave.cmdIdx
      else BitVec.ofNat 7 (nCmdbufBits tiW - 1)).toNat = _
    rw [running, if_neg Bool.false_ne_true, testDinEn, if_neg Bool.false_ne_true, still,
      if_neg Bool.false_ne_true, BitVec.toNat_ofNat]
    omega
  · change (if (slave.negedge ack).starts din || slave.testDinEn then _ else slave.cmdbuf) = _
    rw [still, testDinEn, Bool.or_false, if_neg Bool.false_ne_true]

/-- A line that stays high leaves the receiver alone. -/
theorem Quiet.step (width : Provided tiW) (quiet : slave.Quiet) (level : din ≠ 0) :
    (slave.unanswered din rdata).Quiet ∧ (slave.unanswered din rdata).cmdbuf = slave.cmdbuf := by
  have still : (slave.negedge false).starts din = false := starts_high level
  obtain ⟨off, place, same⟩ := receiver_still width quiet.testDinEn quiet.cmdIdx still
  exact ⟨⟨off, place, negedge_silent quiet.payloadInProgress, quiet.headed⟩, same⟩

theorem cdcst_unanswered (busy : slave.cdcst ≠ .back) :
    (slave.unanswered din rdata).cdcst = slave.nextCdcst false := by
  have same : (slave.negedge false).cdcst = slave.cdcst := rfl
  change (slave.negedge false).nextCdcst false = _
  rw [nextCdcst, nextCdcst, same]
  cases state : slave.cdcst with
  | back => exact absurd state busy
  | _ => rfl

theorem cyc_unanswered : (slave.unanswered din rdata).cyc =
    if slave.cdcst == .wreq || slave.cdcst == .rreq then true else slave.cyc := rfl

/-- A slave at rest stays so. -/
theorem Rests.step (width : Provided tiW) (rests : slave.Rests) (level : din ≠ 0) :
    (slave.unanswered din rdata).Rests where
  toQuiet := (rests.toQuiet.step width level).1
  dffTestDinEn := rests.testDinEn
  cdcst := by
    rw [cdcst_unanswered (by rw [rests.cdcst]; decide), nextCdcst, rests.cdcst]
    simp [rests.dffTestDinEn]
  cyc := by
    rw [cyc_unanswered, rests.cdcst, rests.cyc]
    rfl

end Steps

/-- The frame has been received. -/
structure Filled (slave : Slave tiW) (req : WbmRequest) : Prop extends slave.Quiet where
  ack : slave.ack = 0
  holds : slave.Holds req 0

theorem Filled.step {slave : Slave tiW} {req : WbmRequest} {din : BitVec tiW} {rdata : BitVec 32}
    (width : Provided tiW) (filled : slave.Filled req) (level : din ≠ 0) :
    (slave.unanswered din rdata).Filled req := by
  obtain ⟨quiet, same⟩ := filled.toQuiet.step width level
  refine ⟨quiet, rfl, ?_⟩
  rw [Holds, same]
  exact filled.holds

/-- The words of a frame come in; `left` are to come after the present one. -/
structure Taking (slave : Slave tiW) (req : WbmRequest) (left : Nat) : Prop where
  testDinEn : slave.testDinEn = true
  cmdIdx : slave.cmdIdx.toNat + 1 = (left + 1) * tiW
  payloadInProgress : slave.payloadInProgress = false
  headed : slave.payload.extractLsb' (nPayloadBits tiW - tiW) tiW = 0
  cdcst : slave.cdcst = .idle
  cyc : slave.cyc = false
  holds : slave.Holds req ((left + 1) * tiW)

/-- The slave is in the given cycle of a request: it rests, listens for the start beat, has `left`
words to take after the present one, or brings the request to its bus and waits for the answer. -/
inductive Collects (req : WbmRequest) (slave : Slave tiW) : Nat → Prop
  | start (rests : slave.Rests) : Collects req slave 0
  | listen (rests : slave.Rests) (level : slave.dffTestDin = true) : Collects req slave 1
  | word (taken left : Nat) (total : taken + left + 1 = cmdWords tiW)
      (taking : slave.Taking req left) : Collects req slave (taken + 2)
  | taken (filled : slave.Filled req) (dffTestDinEn : slave.dffTestDinEn = true)
      (cdcst : slave.cdcst = .idle) (cyc : slave.cyc = false) :
      Collects req slave (cmdWords tiW + 2)
  | command (filled : slave.Filled req) (dffTestDinEn : slave.dffTestDinEn = false)
      (cdcst : slave.cdcst = .cmd) (cyc : slave.cyc = false) :
      Collects req slave (cmdWords tiW + 3)
  | request (filled : slave.Filled req) (dffTestDinEn : slave.dffTestDinEn = false)
      (cdcst : slave.cdcst = if req.we then .wreq else .rreq) (cyc : slave.cyc = false) :
      Collects req slave (cmdWords tiW + 4)
  | wait (cycle : Nat) (past : cmdWords tiW + 5 ≤ cycle) (filled : slave.Filled req)
      (dffTestDinEn : slave.dffTestDinEn = false)
      (cdcst : slave.cdcst = if req.we then .wrsp else .rrsp) (cyc : slave.cyc = true) :
      Collects req slave cycle

namespace Collects

variable {slave : Slave tiW} {req : WbmRequest} {cycle : Nat} {rdata : BitVec 32}

theorem silent (collects : Collects req slave cycle) : slave.payloadInProgress = false := by
  cases collects with
  | start rests => exact rests.payloadInProgress
  | listen rests => exact rests.payloadInProgress
  | word _ _ _ taking => exact taking.payloadInProgress
  | taken filled => exact filled.payloadInProgress
  | command filled => exact filled.payloadInProgress
  | request filled => exact filled.payloadInProgress
  | wait _ _ filled => exact filled.payloadInProgress

/-- The bus is asked after the last word, and not before. -/
theorem cyc_iff (collects : Collects req slave cycle) :
    slave.cyc = decide (cmdWords tiW + 5 ≤ cycle) := by
  cases collects with
  | start rests => rw [rests.cyc, decide_eq_false (by omega)]
  | listen rests => rw [rests.cyc, decide_eq_false (by rw [cmdWords]; omega)]
  | word _ _ _ taking => rw [taking.cyc, decide_eq_false (by omega)]
  | taken _ _ _ cyc => rw [cyc, decide_eq_false (by omega)]
  | command _ _ _ cyc => rw [cyc, decide_eq_false (by omega)]
  | request _ _ _ cyc => rw [cyc, decide_eq_false (by omega)]
  | wait _ past _ _ _ cyc => rw [cyc, decide_eq_true past]

theorem holds_asked (collects : Collects req slave cycle) (asked : slave.cyc = true) :
    slave.Holds req 0 := by
  have bound := collects.cyc_iff
  rw [asked, eq_comm, decide_eq_true_iff] at bound
  cases collects with
  | start => omega
  | listen => omega
  | word => omega
  | taken filled => exact filled.holds
  | command filled => exact filled.holds
  | request filled => exact filled.holds
  | wait _ _ filled => exact filled.holds

/-- The start beat turns the receiver on. -/
theorem step_listen (width : Provided tiW) (rests : slave.Rests)
    (level : slave.dffTestDin = true) :
    Collects req (slave.unanswered (lineAt tiW req 1) rdata) 2 := by
  obtain ⟨words, -, bound⟩ := cmdbufBits width
  have positive := provided_pos width
  have size : nCmdbufBits tiW = tiW + 32 + 32 + nStrbBits tiW + tiW := rfl
  have silent := negedge_silent rests.payloadInProgress
  have released : (high tiW != 0) = true := by
    rcases width with rfl | rfl <;> decide
  have begins : (slave.negedge false).starts (lineAt tiW req 1) = true := by
    rw [starts, testDoen, silent, if_neg Bool.false_ne_true, released, lineAt_start width]
    change (true && (slave.dffTestDin && (0 == 0))) = true
    rw [level]
    rfl
  have running : (slave.cmdIdx.toNat == tiW - 1) = false := by
    rw [beq_eq_false_iff_ne, rests.cmdIdx]
    omega
  have some : 1 ≤ cmdWords tiW := by
    rw [cmdWords]
    omega
  refine .word 0 (cmdWords tiW - 1) (by omega) ⟨?_, ?_, silent, rests.headed, ?_, ?_, ?_⟩
  · change (if slave.cmdIdx.toNat == tiW - 1 then false
      else if slave.testDinEn then true else (slave.negedge false).starts _) = true
    rw [running, if_neg Bool.false_ne_true, begins, ite_self]
  · change (if slave.cmdIdx.toNat == tiW - 1 then BitVec.ofNat 7 (nCmdbufBits tiW - 1)
      else if slave.testDinEn then slave.cmdIdx - BitVec.ofNat 7 tiW
      else if (slave.negedge false).starts _ then slave.cmdIdx
      else BitVec.ofNat 7 (nCmdbufBits tiW - 1)).toNat + 1 = _
    rw [running, if_neg Bool.false_ne_true, rests.testDinEn, if_neg Bool.false_ne_true, begins,
      if_pos rfl, rests.cmdIdx, Nat.sub_add_cancel some, ← words]
    omega
  · rw [cdcst_unanswered (by rw [rests.cdcst]; decide), nextCdcst, rests.cdcst]
    simp [rests.dffTestDinEn]
  · rw [cyc_unanswered, rests.cdcst, rests.cyc]
    rfl
  · intro position above inside
    rw [Nat.sub_add_cancel some, ← words] at above
    omega

/-- Each word goes below those that are there, and the last one ends the frame. -/
theorem step_word (width : Provided tiW) {taken left : Nat}
    (total : taken + left + 1 = cmdWords tiW) (taking : slave.Taking req left) :
    Collects req (slave.unanswered (lineAt tiW req (taken + 2)) rdata) (taken + 3) := by
  obtain ⟨words, beats, bound⟩ := cmdbufBits width
  have positive := provided_pos width
  have size : nCmdbufBits tiW = tiW + 32 + 32 + nStrbBits tiW + tiW := rfl
  have silent := negedge_silent taking.payloadInProgress
  have place := taking.cmdIdx
  rw [Nat.add_mul, Nat.one_mul] at place
  have idle : (slave.unanswered (lineAt tiW req (taken + 2)) rdata).cdcst = .idle := by
    rw [cdcst_unanswered (by rw [taking.cdcst]; decide), nextCdcst, taking.cdcst]
    simp [taking.testDinEn]
  have unasked : (slave.unanswered (lineAt tiW req (taken + 2)) rdata).cyc = false := by
    rw [cyc_unanswered, taking.cdcst, taking.cyc]
    rfl
  have holds : (slave.unanswered (lineAt tiW req (taken + 2)) rdata).Holds req (left * tiW) := by
    intro position above inside
    change (if (slave.negedge false).starts _ || slave.testDinEn then
      PartSelect.put slave.cmdbuf (slave.cmdIdx.toNat + 1 - tiW) _ else _).getLsbD position = _
    rw [taking.testDinEn, Bool.or_true, if_pos rfl,
      show slave.cmdIdx.toNat + 1 - tiW = left * tiW by omega]
    exact taking.holds.put (by omega) (by omega) position above inside
  cases left with
  | zero =>
    have last : (slave.cmdIdx.toNat == tiW - 1) = true := by
      rw [beq_iff_eq]
      omega
    have cycle : taken + 3 = cmdWords tiW + 2 := by omega
    rw [cycle]
    refine .taken ⟨⟨?_, ?_, silent, taking.headed⟩, rfl, by simpa using holds⟩ taking.testDinEn
      idle unasked
    · change (if slave.cmdIdx.toNat == tiW - 1 then false else _) = false
      rw [last, if_pos rfl]
    · change (if slave.cmdIdx.toNat == tiW - 1 then BitVec.ofNat 7 (nCmdbufBits tiW - 1)
        else _).toNat = _
      rw [last, if_pos rfl, BitVec.toNat_ofNat]
      omega
  | succ left =>
    rw [Nat.add_mul, Nat.one_mul] at place
    have running : (slave.cmdIdx.toNat == tiW - 1) = false := by
      rw [beq_eq_false_iff_ne]
      omega
    refine .word (taken + 1) left (by omega)
      ⟨?_, ?_, silent, taking.headed, idle, unasked, holds⟩
    · change (if slave.cmdIdx.toNat == tiW - 1 then false
        else if slave.testDinEn then true else _) = true
      rw [running, if_neg Bool.false_ne_true, taking.testDinEn, if_pos rfl]
    · change (if slave.cmdIdx.toNat == tiW - 1 then _
        else if slave.testDinEn then slave.cmdIdx - BitVec.ofNat 7 tiW else _).toNat + 1 = _
      have small : tiW % 2 ^ 7 = tiW := Nat.mod_eq_of_lt (by omega)
      rw [running, if_neg Bool.false_ne_true, taking.testDinEn, if_pos rfl, BitVec.toNat_sub,
        BitVec.toNat_ofNat, small, Nat.add_mul, Nat.one_mul]
      omega

/-- A cycle without an answer of the bus leads to the next one. -/
theorem step (width : Provided tiW) (collects : Collects req slave cycle) :
    Collects req (slave.unanswered (lineAt tiW req cycle) rdata) (cycle + 1) := by
  obtain ⟨-, beats, -⟩ := cmdbufBits width
  have bound := hostCyc_lt width req
  have level : ∀ later, hostCyc tiW req ≤ later → lineAt tiW req later ≠ 0 := by
    intro later past
    rw [lineAt_high width past]
    rcases width with rfl | rfl <;> decide
  cases collects with
  | start rests =>
    have calm : lineAt tiW req 0 ≠ 0 := by
      rw [lineAt, if_pos (.inl rfl)]
      rcases width with rfl | rfl <;> decide
    refine .listen (rests.step width calm) ?_
    change (lineAt tiW req 0).getLsbD 0 = true
    rw [lineAt, if_pos (.inl rfl), BitVec.getLsbD_allOnes]
    exact decide_eq_true (provided_pos width)
  | listen rests level => exact step_listen width rests level
  | word taken left total taking => exact step_word width total taking
  | taken filled dffTestDinEn cdcst cyc =>
    refine .command (filled.step width (level _ (by omega))) filled.testDinEn ?_ ?_
    · rw [cdcst_unanswered (by rw [cdcst]; decide), nextCdcst, cdcst]
      simp [dffTestDinEn, filled.testDinEn]
    · rw [cyc_unanswered, cdcst, cyc]
      rfl
  | command filled dffTestDinEn cdcst cyc =>
    refine .request (filled.step width (level _ (by omega))) filled.testDinEn ?_ ?_
    · rw [cdcst_unanswered (by rw [cdcst]; decide), nextCdcst, cdcst, filled.holds.cmd width]
    · rw [cyc_unanswered, cdcst, cyc]
      rfl
  | request filled dffTestDinEn cdcst cyc =>
    refine .wait _ (by omega) (filled.step width (level _ (by omega))) filled.testDinEn ?_ ?_
    · rw [cdcst_unanswered (by rw [cdcst]; cases req.we <;> decide), nextCdcst, cdcst]
      cases req.we <;> rfl
    · rw [cyc_unanswered, cdcst]
      cases req.we <;> rfl
  | wait _ past filled dffTestDinEn cdcst cyc =>
    refine .wait _ (by omega) (filled.step width (level _ (by omega))) filled.testDinEn ?_ ?_
    · rw [cdcst_unanswered (by rw [cdcst]; cases req.we <;> decide), nextCdcst, cdcst]
      cases req.we <;> rfl
    · rw [cyc_unanswered, cdcst, cyc]
      cases req.we <;> rfl

end Collects

end Slave

end GreenRio.TestIo
