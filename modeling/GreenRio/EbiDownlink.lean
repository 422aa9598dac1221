import GreenRio.EbiFrames

set_option autoImplicit false

namespace GreenRio

open PartSelect

/-- The kinds of frames that the outer side sends. -/
inductive Downlink where
  | line
  | snoop
  | ack
  deriving DecidableEq

namespace Downlink

def opcode : Downlink → BitVec 4
  | line => slaveRdResp
  | snoop => hostSnpReq
  | ack => slaveAck

/-- All beats, the stop beat included. -/
def length (down : Downlink) : Nat := OuterEbi.expectedCounterMax down.opcode

/-- The beats that the receiver puts away. -/
def span : Downlink → Nat
  | line => 33
  | snoop => 4
  | ack => 0

/-- The beats after which the receiver acts; an acknowledgement is known by its start beat. -/
def lands : Downlink → Nat
  | line => 36
  | snoop => 7
  | ack => 2

def innerOwns : Downlink → Bool
  | snoop => false
  | _ => true

def sends : Downlink → OuterTrxState
  | line => .rResp
  | snoop => .sendSnpReq
  | ack => .respAck

/-- Where the sender goes when it is done. -/
def rests : Downlink → OuterTrxState
  | snoop => .waitSnpResp
  | _ => .idle

def listens : Downlink → InnerTrxState
  | line => .waitR
  | snoop => .idle
  | ack => .waitWack

/-- There is nothing to receive in an acknowledgement. -/
def recvs : Downlink → InnerTrxState
  | line => .recvR
  | snoop => .recvSnp
  | ack => .checkWack

def acts : Downlink → InnerTrxState
  | line => .respR
  | snoop => .waitSnpReqRead
  | ack => .checkWack

def frame (word : BitVec 592) : Downlink → Frame
  | line => .readResponse (word.extractLsb' 32 512) (word.extractLsb' 544 2)
  | snoop => .snoopRequest (word.extractLsb' 32 32) (word.extractLsb' 64 4)
  | ack => .acknowledgement

/-- The two tables of lengths agree. -/
theorem headerCounterMax_opcode (down : Downlink) :
    InnerEbi.headerCounterMax down.opcode = some down.span := by
  cases down <;> rfl

end Downlink

/-- The outer side has driven `count` beats of a frame. -/
structure OuterEbi.Drives (ebi : OuterEbi) (down : Downlink) (word : BitVec 592) (count : Nat) :
    Prop where
  state : ebi.trxCurrentState = down.sends
  fresh : (ebi.trxPreState != ebi.trxCurrentState) = decide (count = 0)
  carries : ebi.trxSenddataMux = word
  drove : ebi.trx.Drove down.length count

namespace OuterEbi.Drives

variable {ebi : OuterEbi} {input : OuterInput} {busSwitchI : Bool} {ebiI : Beat} {down : Downlink}
  {word : BitVec 592} {count : Nat}

theorem isSendMode (drives : ebi.Drives down word count) : ebi.isSendMode = true := by
  rw [OuterEbi.isSendMode, drives.state]
  cases down <;> rfl

theorem expects (drives : ebi.Drives down word count)
    (owner : ebi.bus.currentBusOccupy = !down.innerOwns) (first : count = 0) :
    expectedCounterMax (ebi.opcode input) = down.length := by
  subst first
  have undone : ebi.trx.trxSendDone = false := EbiTrx.trxSendDone_of_cleared drives.drove
  have next : ebi.trxNextState input = down.sends := by
    rw [trxNextState, drives.state, owner, undone]
    cases down <;> rfl
  rw [Downlink.length, opcode, next]
  cases down <;> rfl

variable (input) in
theorem drove_negedge (drives : ebi.Drives down word count) (bound : count ≤ down.length)
    (owner : ebi.bus.currentBusOccupy = !down.innerOwns) :
    (ebi.negedge input).trx.Drove down.length (count + 1) := by
  apply EbiTrx.drove_negedge drives.drove bound _ drives.fresh (drives.expects owner)
  rw [isCounterEna_eq, drives.state]
  cases down <;> rfl

variable (input) in
theorem ebiO (drives : ebi.Drives down word count) (bound : count ≤ down.length)
    (owner : ebi.bus.currentBusOccupy = !down.innerOwns) :
    (ebi.negedge input).ebiO = driven word down.length count := by
  have word : (ebi.negedge input).trxSenddataMux = word := drives.carries
  rw [OuterEbi.ebiO, word]
  exact EbiTrx.ebiO_of_drove (drives.drove_negedge input bound owner) bound drives.isSendMode

theorem ends (drives : ebi.Drives down word count) (bound : count ≤ down.length)
    (owner : ebi.bus.currentBusOccupy = !down.innerOwns) :
    ebi.ends input = decide (count + 1 = down.length) := by
  rw [OuterEbi.ends, drives.isSendMode, Bool.true_and]
  exact EbiTrx.isCycleCountLeftOne_of_drove (drives.drove_negedge input bound owner)

variable (input busSwitchI ebiI) in
theorem next (drives : ebi.Drives down word count) (bound : count ≤ down.length)
    (owner : ebi.bus.currentBusOccupy = !down.innerOwns) :
    (ebi.cycle input busSwitchI ebiI).trxCurrentState =
      if count = down.length then down.rests else down.sends := by
  change (ebi.negedge input).trxNextState input = _
  have state : (ebi.negedge input).trxCurrentState = down.sends := drives.state
  have owns : (ebi.negedge input).bus.currentBusOccupy = !down.innerOwns := owner
  have done := EbiTrx.trxSendDone_of_drove (drives.drove_negedge input bound owner)
  rw [trxNextState, state, owns, done]
  by_cases last : count = down.length
  · rw [if_pos last, decide_eq_true last]
    cases down <;> rfl
  · rw [if_neg last, decide_eq_false last]
    cases down <;> rfl

/-- A frame begins once. -/
theorem begins_later (drives : ebi.Drives down word (count + 1)) : ebi.begins = [] := by
  have fresh := drives.fresh
  rw [decide_eq_false (Nat.succ_ne_zero count), bne_eq_false_iff_eq] at fresh
  exact begins_of_stays fresh

/-- A side that sends acts on nothing. -/
theorem receives (drives : ebi.Drives down word count) : ebi.receives = [] := by
  apply receives_elsewhere <;> rw [drives.state] <;> cases down <;> rintro ⟨⟩

/-- The read buffer takes no beats while it is sent. -/
theorem rBuffer_stays (sends : ebi.trxCurrentState = .rResp) :
    (ebi.cycle input busSwitchI ebiI).read.rBuffer = ebi.read.rBuffer := by
  change ((ebi.negedge input).readNext input).rBuffer = _
  rcases readNext_cases (ebi.negedge input) input with ⟨waits, -⟩ | ⟨-, -, same⟩ | ⟨-, same⟩
  · exact absurd (sends.symm.trans waits) (by decide)
  · rw [same]
    rfl
  · rw [same]
    rfl

theorem carries_cycle (drives : ebi.Drives down word count)
    (goes : (ebi.cycle input busSwitchI ebiI).trxCurrentState = down.sends) :
    (ebi.cycle input busSwitchI ebiI).trxSenddataMux = word := by
  rw [← drives.carries, trxSenddataMux, trxSenddataMux, goes, drives.state]
  have state := drives.state
  cases down with
  | line =>
    rw [rBuffer_stays state]
    rfl
  | snoop =>
    have same : (ebi.cycle input busSwitchI ebiI).snoop = ebi.snoop :=
      @snoopNext_sending (ebi.negedge input) input state
    rw [same]
    rfl
  | ack => rfl

/-- One more beat. -/
theorem cycle (drives : ebi.Drives down word count) (unfinished : count < down.length)
    (owner : ebi.bus.currentBusOccupy = !down.innerOwns) :
    (ebi.cycle input busSwitchI ebiI).Drives down word (count + 1) := by
  have bound := Nat.le_of_lt unfinished
  have goes := drives.next input busSwitchI ebiI bound owner
  rw [if_neg (Nat.ne_of_lt unfinished)] at goes
  refine ⟨goes, ?_, drives.carries_cycle goes, drives.drove_negedge input bound owner⟩
  change (ebi.trxCurrentState != (ebi.cycle input busSwitchI ebiI).trxCurrentState) = _
  rw [goes, drives.state, bne_self_eq_false]
  rfl

end OuterEbi.Drives

/-- How much of a frame of which `count` beats have been driven the inner side has taken. -/
inductive InnerEbi.Gathers (ebi : InnerEbi) (down : Downlink) (word : BitVec 592) : Nat → Prop
  | listening (state : ebi.trxCurrentState = down.listens)
    (heard : ebi.trx.rffRcvData = idleBeat) : Gathers ebi down word 0
  | starting (state : ebi.trxCurrentState = down.listens)
    (heard : ebi.trx.rffRcvData = driven word down.length 0) : Gathers ebi down word 1
  | header (more : down ≠ .ack) (state : ebi.trxCurrentState = down.recvs)
    (before : ebi.trxPreState = down.listens)
    (heard : ebi.trx.rffRcvData = driven word down.length 1) : Gathers ebi down word 2
  | gathering (count : Nat) (more : down ≠ .ack) (state : ebi.trxCurrentState = down.recvs)
    (before : ebi.trxPreState = down.recvs)
    (gathered : ebi.trx.Gathered word down.length down.span count) (room : count < down.span)
    (heard : ebi.trx.rffRcvData = driven word down.length (count + 2)) :
    Gathers ebi down word (count + 3)

/-- The inner side begins to act on a frame. -/
structure InnerEbi.Arrived (ebi : InnerEbi) (down : Downlink) (word : BitVec 592) : Prop where
  state : ebi.trxCurrentState = down.acts
  receives : ebi.receives = [down.frame word]
  heard : ebi.trx.rffRcvData = idleBeat

namespace InnerEbi

variable {ebi : InnerEbi} {input : InnerInput} {busSwitchI : Bool} {ebiI : Beat} {down : Downlink}
  {word : BitVec 592} {count : Nat}

/-- The frame is read off the receive buffer as it was sent. -/
theorem receives_of_gathered (state : ebi.trxCurrentState = down.acts)
    (before : ebi.trxPreState = down.recvs) (more : down ≠ .ack)
    (gathered : ebi.trx.Gathered word down.length down.span down.span) :
    ebi.receives = [down.frame word] := by
  rw [receives, before, state]
  cases down with
  | line =>
    have content := EbiTrx.extract_of_gathered 0 512 gathered
      (by decide) (by decide)
    have mesi := EbiTrx.extract_of_gathered 512 2 gathered
      (by decide) (by decide)
    change [Frame.readResponse _ ebi.mesiSta] = _
    rw [mesiSta, content, mesi]
    rfl
  | snoop =>
    have address := EbiTrx.extract_of_gathered 0 32 gathered
      (by decide) (by decide)
    have snoop := EbiTrx.extract_of_gathered 32 4 gathered
      (by decide) (by decide)
    change [Frame.snoopRequest ebi.snReqAddr ebi.snReqSnoop] = _
    rw [snReqAddr, snReqSnoop, address, snoop]
    rfl
  | ack => exact absurd rfl more

variable (input busSwitchI ebiI) in
/-- The next state of a side that listens for the frame. -/
theorem next_listening (state : ebi.trxCurrentState = down.listens)
    (owner : ebi.bus.currentBusOccupy = down.innerOwns) :
    (ebi.cycle input busSwitchI ebiI).trxCurrentState =
      if ebi.trx.rffRcvData.getLsbD 0 then down.listens else down.recvs := by
  change (ebi.negedge input).trxNextState input = _
  have silent : ebi.isSendMode = false := by
    rw [isSendMode, state]
    cases down <;> rfl
  have start := trxRcvStart_negedge input silent
  have same : (ebi.negedge input).trxCurrentState = down.listens := state
  have owns : (ebi.negedge input).bus.currentBusOccupy = down.innerOwns := owner
  rw [trxNextState, same, owns, start]
  cases ebi.trx.rffRcvData.getLsbD 0 <;> cases down <;> rfl

variable (input busSwitchI ebiI) in
theorem next_receiving (more : down ≠ .ack) (state : ebi.trxCurrentState = down.recvs)
    (owner : ebi.bus.currentBusOccupy = down.innerOwns) :
    (ebi.cycle input busSwitchI ebiI).trxCurrentState =
      if ebi.trx.trxRcvDone then down.acts else down.recvs := by
  change (ebi.negedge input).trxNextState input = _
  have same : (ebi.negedge input).trxCurrentState = down.recvs := state
  have owns : (ebi.negedge input).bus.currentBusOccupy = down.innerOwns := owner
  have done : (ebi.negedge input).trx.trxRcvDone = ebi.trx.trxRcvDone := rfl
  rw [trxNextState, same, owns, done]
  cases down with
  | line => cases ebi.trx.trxRcvDone <;> rfl
  | snoop => cases ebi.trx.trxRcvDone <;> rfl
  | ack => exact absurd rfl more

variable (input busSwitchI) in
/-- One more beat: the frame goes on, or its last beat has been taken. -/
theorem Gathers.cycle (gathers : ebi.Gathers down word count)
    (owner : ebi.bus.currentBusOccupy = down.innerOwns) (tidy : ebi.Tidy)
    (known : ebi.trx.recvCounterMax ≠ 1)
    (head : down ≠ .ack → word.extractLsb' 0 32 = frameHead down.opcode)
    (start : driven word down.length 0 = 0) :
    (ebi.cycle input busSwitchI (driven word down.length count)).Gathers down word (count + 1) ∧
        count + 1 < down.lands ∨
      (ebi.cycle input busSwitchI (driven word down.length count)).Arrived down word ∧
        count + 1 = down.lands := by
  cases gathers with
  | listening state heard =>
    have next := next_listening input busSwitchI
      (driven word down.length 0) state owner
    rw [heard] at next
    exact .inl ⟨.starting next rfl, by cases down <;> decide⟩
  | starting state heard =>
    have next := next_listening input busSwitchI
      (driven word down.length 1) state owner
    rw [heard, start] at next
    by_cases more : down = .ack
    · subst more
      have heard : driven word Downlink.ack.length 1 = idleBeat := driven_late (by decide)
      refine .inr ⟨⟨next, ?_, heard⟩, rfl⟩
      rw [receives, if_neg]
      · rw [next]
        rfl
      · rw [next]
        change ebi.trxCurrentState ≠ .checkWack
        rw [state]
        rintro ⟨⟩
    · have room : 1 + 1 < down.lands := by
        cases down <;> first | decide | exact absurd rfl more
      exact .inl ⟨.header more next state rfl, room⟩
  | header more state before heard =>
    have next := next_receiving input busSwitchI
      (driven word down.length 2) more state owner
    have header : ebi.trx.rffRcvData.setWidth 4 = down.opcode := by
      have long : 3 ≤ down.length := by
        cases down <;> first | decide | exact absurd rfl more
      rw [heard, driven_opcode long (head more)]
      cases down <;> rfl
    have fresh : ebi.trxPreState ≠ ebi.trxCurrentState := by
      rw [before, state]
      cases down <;> rintro ⟨⟩
    have cleared : ebi.trx.Cleared := by
      apply tidy
      rw [before]
      cases down <;> rfl
    have undone : ebi.trx.trxRcvDone = false := by
      rw [EbiTrx.trxRcvDone, cleared.recvCounter, beq_eq_false_iff_ne]
      omega
    rw [undone, if_neg Bool.false_ne_true] at next
    refine .inl ⟨.gathering 0 more next state ?_ ?_ rfl, ?_⟩
    · apply EbiTrx.gathered_first
      · exact bne_iff_ne.mpr fresh
      · exact (congrArg headerCounterMax header).trans down.headerCounterMax_opcode
    · cases down <;> first | decide | exact absurd rfl more
    · cases down <;> first | decide | exact absurd rfl more
  | gathering count more state before gathered room heard =>
    have next := next_receiving input busSwitchI
      (driven word down.length (count + 3)) more state owner
    have stays : ebi.trxPreState = ebi.trxCurrentState := before.trans state.symm
    have lands : down.lands = down.span + 3 := by
      cases down <;> first | rfl | exact absurd rfl more
    have narrow : down.span ≤ 33 := by cases down <;> decide
    have longest : down.length ≤ down.span + 3 := by cases down <;> decide
    have taken : (ebi.cycle input busSwitchI (driven word down.length (count + 3))).trx.Gathered
        word down.length down.span (count + 1) := by
      have same : (ebi.negedge input).trx.Gathered word down.length down.span count :=
        ⟨gathered.1, gathered.2, gathered.3⟩
      apply EbiTrx.gathered_next same room (by omega)
      · exact bne_eq_false_iff_eq.mpr stays
      · rw [isCounterEna_eq]
        change ebi.trxCurrentState.counts = true
        rw [state]
        cases down <;> first | rfl | exact absurd rfl more
      · change ebi.isRdRcv = true
        rw [isRdRcv, state]
        cases down <;> first | rfl | exact absurd rfl more
      · exact heard
    rw [EbiTrx.trxRcvDone_of_gathered gathered] at next
    by_cases last : count + 1 = down.span
    · rw [decide_eq_true last, if_pos rfl] at next
      rw [last] at taken
      have receives := receives_of_gathered next state more taken
      exact .inr ⟨⟨next, receives, driven_late (by omega)⟩, by omega⟩
    · rw [decide_eq_false last, if_neg Bool.false_ne_true] at next
      exact .inl ⟨.gathering (count + 1) more next state taken (by omega) rfl, by omega⟩

/-- A side that receives says nothing and acts on nothing. -/
theorem Gathers.quiet (gathers : ebi.Gathers down word count) :
    ebi.isSendMode = false ∧ ebi.receives = [] := by
  have elsewhere : ebi.trxCurrentState = down.listens ∨
      down ≠ .ack ∧ ebi.trxCurrentState = down.recvs := by
    cases gathers with
    | listening state => exact .inl state
    | starting state => exact .inl state
    | header more state => exact .inr ⟨more, state⟩
    | gathering count more state => exact .inr ⟨more, state⟩
  rcases elsewhere with state | ⟨more, state⟩
  · refine ⟨?_, receives_elsewhere ?_ ?_ ?_⟩
    · rw [isSendMode, state]
      cases down <;> rfl
    all_goals
      rw [state]
      cases down <;> rintro ⟨⟩
  · refine ⟨?_, receives_elsewhere ?_ ?_ ?_⟩
    · rw [isSendMode, state]
      cases down <;> rfl
    all_goals
      rw [state]
      cases down <;> first | exact absurd rfl more | rintro ⟨⟩

theorem Arrived.silent (arrived : ebi.Arrived down word) : ebi.isSendMode = false := by
  rw [isSendMode, arrived.state]
  cases down <;> rfl

end InnerEbi

end GreenRio
