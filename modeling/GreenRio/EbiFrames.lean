import GreenRio.EbiBuffers
import GreenRio.BusOwnership
import GreenRio.HalfDuplex

set_option autoImplicit false

namespace GreenRio

open PartSelect

/-- What a frame tells the other side. -/
inductive Frame where
  | readRequest (address : BitVec 32) (snoop : BitVec 4)
  | writeRequest (address : BitVec 32) (mesi : BitVec 2) (data : Option Line)
  | snoopResponse (data : Option Line)
  | readResponse (line : Line) (mesi : BitVec 2)
  | snoopRequest (address : BitVec 32) (snoop : BitVec 4)
  | acknowledgement
  deriving DecidableEq

namespace InnerEbi

/-- The frame that this side begins to send when it enters a state. -/
def begins (ebi : InnerEbi) : List Frame :=
  if ebi.trxPreState = ebi.trxCurrentState then []
  else match ebi.trxCurrentState with
    | .sendAr =>
      [.readRequest (ebi.read.buffer.extractLsb' 32 32) (ebi.read.buffer.extractLsb' 64 4)]
    | .sendW =>
      [.writeRequest (ebi.write.wBuffer.extractLsb' 32 32) (ebi.write.wBuffer.extractLsb' 64 2)
        (if ebi.write.wdataExist then some (ebi.write.wBuffer.extractLsb' 80 512) else none)]
    | .sendSnpResp =>
      [.snoopResponse
        (if ebi.snoop.snpdataExist then some (ebi.snoop.snpBuffer.extractLsb' 32 512) else none)]
    | _ => []

/-- The frame that this side starts to act on when it enters a state. -/
def receives (ebi : InnerEbi) : List Frame :=
  if ebi.trxPreState = ebi.trxCurrentState then []
  else match ebi.trxCurrentState with
    | .respR => [.readResponse (ebi.trx.rcvBuf.extractLsb' 0 512) ebi.mesiSta]
    | .checkWack => [.acknowledgement]
    | .waitSnpReqRead => [.snoopRequest ebi.snReqAddr ebi.snReqSnoop]
    | _ => []

/-- The stop beat of a frame is on the wires. -/
def ends (ebi : InnerEbi) (input : InnerInput) : Bool :=
  ebi.isSendMode && (ebi.negedge input).trx.isCycleCountLeftOne

end InnerEbi

namespace OuterEbi

def begins (ebi : OuterEbi) : List Frame :=
  if ebi.trxPreState = ebi.trxCurrentState then []
  else match ebi.trxCurrentState with
    | .sendSnpReq =>
      [.snoopRequest (ebi.snoop.buffer.extractLsb' 32 32) (ebi.snoop.buffer.extractLsb' 64 4)]
    | .rResp =>
      [.readResponse (ebi.read.rBuffer.extractLsb' 32 512) (ebi.read.rBuffer.extractLsb' 544 2)]
    | .respAck => [.acknowledgement]
    | _ => []

def receives (ebi : OuterEbi) : List Frame :=
  if ebi.trxPreState = ebi.trxCurrentState then []
  else match ebi.trxCurrentState with
    | .checkOpcode =>
      if ebi.reqIsRead then [.readRequest ebi.araddr ebi.arsnoop]
      else
        [.writeRequest ebi.awaddr ebi.awmesi
          (if ebi.wHasData then some (ebi.trx.rcvBuf.extractLsb' 48 512) else none)]
    | .readSnpResp =>
      [.snoopResponse
        (if ebi.snpRespHasdata then some (ebi.trx.rcvBuf.extractLsb' 0 512) else none)]
    | _ => []

def ends (ebi : OuterEbi) (input : OuterInput) : Bool :=
  ebi.isSendMode && (ebi.negedge input).trx.isCycleCountLeftOne

end OuterEbi

namespace Ebi

def begins (ebi : Ebi) : List Frame := ebi.inner.begins ++ ebi.outer.begins

def receives (ebi : Ebi) : List Frame := ebi.inner.receives ++ ebi.outer.receives

def ends (ebi : Ebi) (input : EbiInput) : List Unit :=
  (if ebi.inner.ends input.inner then [()] else []) ++
    (if ebi.outer.ends input.outer then [()] else [])

/-- The frames begun in a run, by either side. -/
def begun (inputs : List EbiInput) : List Frame := machine.seen begins inputs

/-- The frames acted on. -/
def received (inputs : List EbiInput) : List Frame := machine.seen receives inputs

/-- The stop beats driven. -/
def ended (inputs : List EbiInput) : List Unit := machine.log ends inputs

end Ebi

/-! ### Beats -/

/-- The beats a side drives for a frame of `length` beats; the last one is the stop beat. -/
def driven (word : BitVec 592) (length index : Nat) : Beat :=
  if index + 1 < length then word.extractLsb' (16 * index) 16 else idleBeat

theorem driven_late {word : BitVec 592} {length index : Nat} (late : length ≤ index + 1) :
    driven word length index = idleBeat := if_neg (Nat.not_lt.mpr late)

theorem driven_inside {word : BitVec 592} {length index : Nat} (inside : index + 1 < length) :
    driven word length index = word.extractLsb' (16 * index) 16 := if_pos inside

/-- The first two beats come from the head. -/
theorem driven_start {word : BitVec 592} {opcode : BitVec 4} {length : Nat} (long : 2 ≤ length)
    (head : word.extractLsb' 0 32 = frameHead opcode) : driven word length 0 = 0 := by
  rw [driven_inside (by omega)]
  apply BitVec.eq_of_getLsbD_eq
  intro index bound
  have bit := congrArg (fun part => part.getLsbD index) head
  simp only [frameHead, BitVec.getLsbD_extractLsb', BitVec.getLsbD_append, bound, if_true,
    Nat.zero_add, Nat.lt_trans bound (by decide : 16 < 32), decide_true, Bool.true_and] at bit
  simpa [bound] using bit

theorem driven_opcode {word : BitVec 592} {opcode : BitVec 4} {length : Nat} (long : 3 ≤ length)
    (head : word.extractLsb' 0 32 = frameHead opcode) :
    driven word length 1 = opcode.setWidth 16 := by
  rw [driven_inside (by omega)]
  apply BitVec.eq_of_getLsbD_eq
  intro index bound
  have bit := congrArg (fun part => part.getLsbD (16 + index)) head
  have inside : 16 + index < 32 := by omega
  have above : ¬16 + index < 16 := by omega
  simp only [frameHead, BitVec.getLsbD_extractLsb', BitVec.getLsbD_append, above, if_false,
    Nat.zero_add, inside, decide_true, Bool.true_and, Nat.add_sub_cancel_left] at bit
  simp only [BitVec.getLsbD_extractLsb', bound, decide_true, Bool.true_and]
  exact bit

namespace EbiTrx

variable {width : Nat} {trx : EbiTrx width} {control : TrxControl} {length span count : Nat}
  {word : BitVec 592}

/-- The counters as they are after a cycle that neither sends nor receives. -/
structure Cleared (trx : EbiTrx width) : Prop where
  sendCounter : trx.sendCounter = 0
  sendCounterMax : 2 ≤ trx.sendCounterMax
  recvCounter : trx.recvCounter = 0

/-- `count` beats of a frame have been driven. -/
def Drove (trx : EbiTrx width) (length : Nat) : Nat → Prop
  | 0 => trx.Cleared
  | count + 1 => trx.sendCounter = count ∧ trx.sendCounterMax = length

/-- The first `count` beats behind the head have been put into the receive buffer. -/
structure Gathered (trx : EbiTrx width) (word : BitVec 592) (length span count : Nat) : Prop where
  recvCounter : trx.recvCounter = count
  recvCounterMax : trx.recvCounterMax = span
  parts : ∀ index < count, trx.rcvBuf.extractLsb' (16 * index) 16 = driven word length (index + 2)

/-- A cycle without sending and receiving clears the counters, or leaves them so. -/
theorem cleared_cycle {expectedCounterMax : BitVec 4 → Nat}
    {headerCounterMax : BitVec 4 → Option Nat} {later : TrxControl} {ebiI : Beat}
    (long : ∀ opcode, 2 ≤ expectedCounterMax opcode) (rests : control.isCounterEna = false)
    (before : control.isCounterReload = false → trx.Cleared)
    (sameReload : later.isCounterReload = control.isCounterReload)
    (sameEna : later.isCounterEna = control.isCounterEna) :
    ((trx.negedge control expectedCounterMax).posedge later headerCounterMax ebiI).Cleared := by
  cases reload : control.isCounterReload with
  | true =>
    rw [reload] at sameReload
    constructor
    · simp [posedge, negedge, reload]
    · simpa [posedge, negedge, reload] using long _
    · simp [posedge, sameReload]
  | false =>
    rw [reload] at sameReload
    rw [rests] at sameEna
    obtain ⟨sendCounter, sendCounterMax, recvCounter⟩ := before reload
    constructor
    · simpa [posedge, negedge, reload, rests] using sendCounter
    · simpa [posedge, negedge, reload, rests] using sendCounterMax
    · simpa [posedge, negedge, sameReload, sameEna] using recvCounter

/-- The falling edge counts the beat that is driven next. -/
theorem drove_negedge {expectedCounterMax : BitVec 4 → Nat} (drove : trx.Drove length count)
    (bound : count ≤ length) (ena : control.isCounterEna = true)
    (reload : control.isCounterReload = decide (count = 0))
    (expects : count = 0 → expectedCounterMax control.opcode = length) :
    (trx.negedge control expectedCounterMax).Drove length (count + 1) := by
  cases count with
  | zero =>
    have expected := expects rfl
    constructor
    · simp [negedge, reload]
    · simpa [negedge, reload] using expected
  | succ count =>
    obtain ⟨counter, counterMax⟩ := drove
    have room : count < length := bound
    constructor
    · simp [negedge, reload, ena, counter, counterMax, room]
    · simpa [negedge, reload] using counterMax

theorem ebiO_of_drove {isSendMode : Bool} (drove : trx.Drove length (count + 1))
    (bound : count ≤ length) (sends : isSendMode = true) :
    trx.ebiO isSendMode word = driven word length count := by
  obtain ⟨counter, counterMax⟩ := drove
  rw [ebiO, if_pos sends, isCycleCountLeftOne, trxSendDone, counter, counterMax, driven]
  by_cases inside : count + 1 < length
  · rw [if_pos inside, if_neg]
    simp only [Bool.or_eq_true, beq_iff_eq, not_or]
    omega
  · rw [if_neg inside, if_pos]
    simp only [Bool.or_eq_true, beq_iff_eq]
    omega

theorem trxSendDone_of_drove (drove : trx.Drove length (count + 1)) :
    trx.trxSendDone = decide (count = length) := by
  obtain ⟨counter, counterMax⟩ := drove
  rw [trxSendDone, counter, counterMax]
  rfl

theorem isCycleCountLeftOne_of_drove (drove : trx.Drove length (count + 1)) :
    trx.isCycleCountLeftOne = decide (count + 1 = length) := by
  obtain ⟨counter, counterMax⟩ := drove
  rw [isCycleCountLeftOne, counter, counterMax]
  rfl

/-- A frame that has not begun is not done. -/
theorem trxSendDone_of_cleared (cleared : trx.Cleared) : trx.trxSendDone = false := by
  have positive := cleared.sendCounterMax
  rw [trxSendDone, cleared.sendCounter, beq_eq_false_iff_ne]
  omega

theorem gathered_first {headerCounterMax : BitVec 4 → Option Nat} {ebiI : Beat}
    (reload : control.isCounterReload = true)
    (header : headerCounterMax (trx.rffRcvData.setWidth 4) = some span) :
    (trx.posedge control headerCounterMax ebiI).Gathered word length span 0 where
  recvCounter := by simp [posedge, reload]
  recvCounterMax := by simp [posedge, reload, header]
  parts := by
    intro index none
    cases none

/-- One more beat in its place. -/
theorem gathered_next {headerCounterMax : BitVec 4 → Option Nat} {ebiI : Beat}
    (gathered : trx.Gathered word length span count) (room : count < span)
    (fits : 16 * (count + 1) ≤ width) (reload : control.isCounterReload = false)
    (ena : control.isCounterEna = true) (rcv : control.isRdRcv = true)
    (heard : trx.rffRcvData = driven word length (count + 2)) :
    (trx.posedge control headerCounterMax ebiI).Gathered word length span (count + 1) := by
  obtain ⟨recvCounter, recvCounterMax, parts⟩ := gathered
  constructor
  · simp [posedge, reload, ena, recvCounter, recvCounterMax, room]
  · simp [posedge, reload, recvCounterMax]
  · intro index bound
    change (if control.isRdRcv then put trx.rcvBuf (trx.recvCounter * 16) trx.rffRcvData
      else trx.rcvBuf).extractLsb' (16 * index) 16 = _
    rw [if_pos rcv, recvCounter, heard]
    rcases Nat.lt_succ_iff_lt_or_eq.mp bound with before | rfl
    · rw [extract_put_of_disjoint _ _ _ (.inl (by omega))]
      exact parts index before
    · rw [Nat.mul_comm 16 index]
      exact extract_put _ _ _ (by omega)

theorem trxRcvDone_of_gathered (gathered : trx.Gathered word length span count) :
    trx.trxRcvDone = decide (count + 1 = span) := by
  rw [trxRcvDone, gathered.recvCounter, gathered.recvCounterMax]
  rfl

/-- What lies within the beats gathered is what lies behind the head of the frame. -/
theorem extract_of_gathered (start size : Nat) (gathered : trx.Gathered word length span count)
    (inside : start + size ≤ 16 * count) (beats : start + size + 48 ≤ 16 * length) :
    trx.rcvBuf.extractLsb' start size = word.extractLsb' (32 + start) size := by
  apply BitVec.eq_of_getLsbD_eq
  intro index bound
  have place : (start + index) / 16 < count := by omega
  have beat : (start + index) / 16 + 2 + 1 < length := by omega
  have offset : (start + index) % 16 < 16 := Nat.mod_lt _ (by decide)
  have part := gathered.parts _ place
  rw [driven_inside beat] at part
  have bit := congrArg (fun part => part.getLsbD ((start + index) % 16)) part
  simp only [BitVec.getLsbD_extractLsb', offset, decide_true, Bool.true_and] at bit
  simp only [BitVec.getLsbD_extractLsb', bound, decide_true, Bool.true_and]
  have left : 16 * ((start + index) / 16) + (start + index) % 16 = start + index := by omega
  have right : 16 * ((start + index) / 16 + 2) + (start + index) % 16 = 32 + start + index := by
    omega
  rw [left, right] at bit
  exact bit

end EbiTrx

/-! ### What holds of one side between frames -/

/-- The states in which the counters of the `trx` module run. -/
def InnerTrxState.counts : InnerTrxState → Bool
  | .sendAr | .sendW | .sendSnpResp | .recvR | .recvSnp => true
  | _ => false

def OuterTrxState.counts : OuterTrxState → Bool
  | .sendSnpReq | .rResp | .respAck | .recvSnpResp | .recvWr => true
  | _ => false

namespace InnerEbi

variable {ebi : InnerEbi} {input : InnerInput} {busSwitchI : Bool} {ebiI : Beat}

/-- After a cycle without sending and receiving the counters are clear. -/
def Tidy (ebi : InnerEbi) : Prop := ebi.trxPreState.counts = false → ebi.trx.Cleared

theorem isCounterEna_eq : (ebi.control input).isCounterEna = ebi.trxCurrentState.counts := by
  change (ebi.isSendMode || ebi.isRdRcv) = _
  rw [isSendMode, isRdRcv]
  cases ebi.trxCurrentState <;> rfl

theorem expectedCounterMax_long (opcode : BitVec 4) : 2 ≤ expectedCounterMax opcode := by
  unfold expectedCounterMax
  split_ifs <;> decide

theorem reset_tidy : reset.Tidy := fun _ => ⟨rfl, by decide, rfl⟩

theorem cycle_tidy (tidy : ebi.Tidy) : (ebi.cycle input busSwitchI ebiI).Tidy := by
  intro rests
  change ebi.trxCurrentState.counts = false at rests
  apply EbiTrx.cleared_cycle expectedCounterMax_long (isCounterEna_eq.trans rests) _ rfl rfl
  intro same
  change (ebi.trxPreState != ebi.trxCurrentState) = false at same
  rw [bne_eq_false_iff_eq] at same
  exact tidy (same ▸ rests)

/-- No header leaves the length at which the first beat is taken for the last. -/
theorem cycle_length (known : ebi.trx.recvCounterMax ≠ 1) :
    (ebi.cycle input busSwitchI ebiI).trx.recvCounterMax ≠ 1 := by
  change (if (ebi.trxPreState != ebi.trxCurrentState) = true then
    (headerCounterMax (ebi.trx.rffRcvData.setWidth 4)).getD ebi.trx.recvCounterMax
    else ebi.trx.recvCounterMax) ≠ 1
  split
  · unfold headerCounterMax
    split_ifs
    · exact (by decide : 4 ≠ 1)
    · exact (by decide : 33 ≠ 1)
    · exact (by decide : 0 ≠ 1)
    · exact known
  · exact known

theorem ebiO_of_silent (silent : ebi.isSendMode = false) :
    (ebi.negedge input).ebiO = idleBeat := by
  change (ebi.negedge input).trx.ebiO ebi.isSendMode _ = idleBeat
  rw [silent]
  rfl

theorem ends_of_silent (silent : ebi.isSendMode = false) : ebi.ends input = false := by
  rw [ends, silent]
  rfl

variable (input) in
/-- A silent side hears a start beat as soon as it is there. -/
theorem trxRcvStart_negedge (silent : ebi.isSendMode = false) :
    (ebi.negedge input).trx.trxRcvStart = !ebi.trx.rffRcvData.getLsbD 0 := by
  have released : (ebi.negedge input).trx.ebiOen = true := by
    change (!(ebi.isSendMode && !ebi.trx.isCycleCountLeftOne)) = true
    rw [silent]
    rfl
  rw [EbiTrx.trxRcvStart, released]
  rfl

end InnerEbi

namespace OuterEbi

variable {ebi : OuterEbi} {input : OuterInput} {busSwitchI : Bool} {ebiI : Beat}

def Tidy (ebi : OuterEbi) : Prop := ebi.trxPreState.counts = false → ebi.trx.Cleared

theorem isCounterEna_eq : (ebi.control input).isCounterEna = ebi.trxCurrentState.counts := by
  change (ebi.isSendMode || ebi.isRdRcv) = _
  rw [isSendMode, isRdRcv]
  cases ebi.trxCurrentState <;> rfl

theorem expectedCounterMax_long (opcode : BitVec 4) : 2 ≤ expectedCounterMax opcode := by
  unfold expectedCounterMax
  split_ifs <;> decide

theorem reset_tidy : reset.Tidy := fun _ => ⟨rfl, by decide, rfl⟩

theorem cycle_tidy (tidy : ebi.Tidy) : (ebi.cycle input busSwitchI ebiI).Tidy := by
  intro rests
  change ebi.trxCurrentState.counts = false at rests
  apply EbiTrx.cleared_cycle expectedCounterMax_long (isCounterEna_eq.trans rests) _ rfl rfl
  intro same
  change (ebi.trxPreState != ebi.trxCurrentState) = false at same
  rw [bne_eq_false_iff_eq] at same
  exact tidy (same ▸ rests)

theorem ebiO_of_silent (silent : ebi.isSendMode = false) :
    (ebi.negedge input).ebiO = idleBeat := by
  change (ebi.negedge input).trx.ebiO ebi.isSendMode _ = idleBeat
  rw [silent]
  rfl

theorem ends_of_silent (silent : ebi.isSendMode = false) : ebi.ends input = false := by
  rw [ends, silent]
  rfl

variable (input) in
theorem trxRcvStart_negedge (silent : ebi.isSendMode = false) :
    (ebi.negedge input).trx.trxRcvStart = !ebi.trx.rffRcvData.getLsbD 0 := by
  have released : (ebi.negedge input).trx.ebiOen = true := by
    change (!(ebi.isSendMode && !ebi.trx.isCycleCountLeftOne)) = true
    rw [silent]
    rfl
  rw [EbiTrx.trxRcvStart, released]
  rfl

end OuterEbi

namespace InnerEbi

variable {ebi : InnerEbi}

theorem begins_of_silent (silent : ebi.isSendMode = false) : ebi.begins = [] := by
  rw [begins]
  split
  · rfl
  · split
    · next state => simp [isSendMode, state] at silent
    · next state => simp [isSendMode, state] at silent
    · next state => simp [isSendMode, state] at silent
    · rfl

theorem begins_of_stays (stays : ebi.trxPreState = ebi.trxCurrentState) : ebi.begins = [] :=
  if_pos stays

theorem receives_elsewhere (line : ebi.trxCurrentState ≠ .respR)
    (ack : ebi.trxCurrentState ≠ .checkWack) (snoop : ebi.trxCurrentState ≠ .waitSnpReqRead) :
    ebi.receives = [] := by
  rw [receives]
  split
  · rfl
  · split
    · next state => exact absurd state line
    · next state => exact absurd state ack
    · next state => exact absurd state snoop
    · rfl

theorem receives_of_stays (stays : ebi.trxPreState = ebi.trxCurrentState) : ebi.receives = [] :=
  if_pos stays

end InnerEbi

namespace OuterEbi

variable {ebi : OuterEbi}

theorem begins_of_silent (silent : ebi.isSendMode = false) : ebi.begins = [] := by
  rw [begins]
  split
  · rfl
  · split
    · next state => simp [isSendMode, state] at silent
    · next state => simp [isSendMode, state] at silent
    · next state => simp [isSendMode, state] at silent
    · rfl

theorem begins_of_stays (stays : ebi.trxPreState = ebi.trxCurrentState) : ebi.begins = [] :=
  if_pos stays

theorem receives_elsewhere (request : ebi.trxCurrentState ≠ .checkOpcode)
    (answer : ebi.trxCurrentState ≠ .readSnpResp) : ebi.receives = [] := by
  rw [receives]
  split
  · rfl
  · split
    · next state => exact absurd state request
    · next state => exact absurd state answer
    · rfl

theorem receives_of_stays (stays : ebi.trxPreState = ebi.trxCurrentState) : ebi.receives = [] :=
  if_pos stays

end OuterEbi

end GreenRio
