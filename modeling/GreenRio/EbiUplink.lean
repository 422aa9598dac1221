import GreenRio.EbiFrames

set_option autoImplicit false

namespace GreenRio

open PartSelect

/-- The kinds of frames that the inner side sends. -/
inductive Uplink where
  | read
  | write (data : Bool)
  | snoop (data : Bool)
  deriving DecidableEq

namespace Uplink

def opcode : Uplink → BitVec 4
  | read => hostDr
  | write true => hostDw1
  | write false => hostDw2
  | snoop true => slaveSnpResp1
  | snoop false => slaveSnpResp2

/-- All beats, the stop beat included. -/
def length (up : Uplink) : Nat := InnerEbi.expectedCounterMax up.opcode

/-- The beats that the receiver puts away. -/
def span : Uplink → Nat
  | read => 3
  | write true => 35
  | write false => 3
  | snoop true => 33
  | snoop false => 1

/-- The inner side owns the bus when it asks, the outer one when it is answered. -/
def innerOwns : Uplink → Bool
  | snoop _ => false
  | _ => true

def sends : Uplink → InnerTrxState
  | read => .sendAr
  | write _ => .sendW
  | snoop _ => .sendSnpResp

/-- Where the sender goes when it is done. -/
def rests : Uplink → InnerTrxState
  | read => .waitR
  | write _ => .waitWack
  | snoop _ => .idle

def listens : Uplink → OuterTrxState
  | snoop _ => .waitSnpResp
  | _ => .idle

def recvs : Uplink → OuterTrxState
  | snoop _ => .recvSnpResp
  | _ => .recvWr

def acts : Uplink → OuterTrxState
  | snoop _ => .readSnpResp
  | _ => .checkOpcode

def frame (word : BitVec 592) : Uplink → Frame
  | read => .readRequest (word.extractLsb' 32 32) (word.extractLsb' 64 4)
  | write data =>
    .writeRequest (word.extractLsb' 32 32) (word.extractLsb' 64 2)
      (if data then some (word.extractLsb' 80 512) else none)
  | snoop data => .snoopResponse (if data then some (word.extractLsb' 32 512) else none)

/-- What the sender has noted about the frame when it begins. -/
def Selected (ebi : InnerEbi) : Uplink → Prop
  | read => True
  | write data => ebi.write.wdataExist = data
  | snoop data => ebi.snoop.snpdataExist = data

/-- What the receiver has noted about the frame when it has seen the header. -/
def Flagged (ebi : OuterEbi) : Uplink → Prop
  | read => ebi.reqIsRead = true
  | write data => ebi.reqIsRead = false ∧ ebi.wHasData = data
  | snoop data => ebi.snpRespHasdata = data

/-- The two tables of lengths agree. -/
theorem headerCounterMax_opcode (up : Uplink) :
    OuterEbi.headerCounterMax up.opcode = some up.span := by
  cases up with
  | read => rfl
  | write data => cases data <;> rfl
  | snoop data => cases data <;> rfl

theorem length_eq (up : Uplink) :
    up.length = up.span + if up.innerOwns then 3 else 2 := by
  cases up with
  | read => rfl
  | write data => cases data <;> rfl
  | snoop data => cases data <;> rfl

theorem span_bounds (up : Uplink) : 1 ≤ up.span ∧ up.span ≤ 35 := by
  cases up with
  | read => decide
  | write data => cases data <;> decide
  | snoop data => cases data <;> decide

theorem length_bounds (up : Uplink) : 3 ≤ up.length ∧ up.length ≤ up.span + 3 := by
  have least := up.span_bounds
  rw [length_eq]
  split <;> omega

end Uplink

/-- The inner side has driven `count` beats of a frame. -/
structure InnerEbi.Drives (ebi : InnerEbi) (up : Uplink) (word : BitVec 592) (count : Nat) :
    Prop where
  state : ebi.trxCurrentState = up.sends
  fresh : (ebi.trxPreState != ebi.trxCurrentState) = decide (count = 0)
  selected : count = 0 → up.Selected ebi
  carries : ebi.trxSenddataMux = word
  drove : ebi.trx.Drove up.length count

namespace InnerEbi.Drives

variable {ebi : InnerEbi} {input : InnerInput} {busSwitchI : Bool} {ebiI : Beat} {up : Uplink}
  {word : BitVec 592} {count : Nat}

theorem isSendMode (drives : ebi.Drives up word count) : ebi.isSendMode = true := by
  rw [InnerEbi.isSendMode, drives.state]
  cases up <;> rfl

/-- The length that is expected when a frame begins is that of its kind. -/
theorem expects (drives : ebi.Drives up word count)
    (owner : ebi.bus.currentBusOccupy = up.innerOwns) (first : count = 0) :
    expectedCounterMax (ebi.opcode input) = up.length := by
  subst first
  have undone : ebi.trx.trxSendDone = false := EbiTrx.trxSendDone_of_cleared drives.drove
  have selected := drives.selected rfl
  have next : ebi.trxNextState input = up.sends := by
    rw [trxNextState, drives.state, owner, undone]
    cases up <;> rfl
  rw [Uplink.length, opcode, next]
  cases up with
  | read => rfl
  | write data =>
    change ebi.write.wdataExist = data at selected
    rw [← selected]
    cases ebi.write.wdataExist <;> rfl
  | snoop data =>
    change ebi.snoop.snpdataExist = data at selected
    rw [← selected]
    cases ebi.snoop.snpdataExist <;> rfl

variable (input) in
theorem drove_negedge (drives : ebi.Drives up word count) (bound : count ≤ up.length)
    (owner : ebi.bus.currentBusOccupy = up.innerOwns) :
    (ebi.negedge input).trx.Drove up.length (count + 1) := by
  apply EbiTrx.drove_negedge drives.drove bound _ drives.fresh (drives.expects owner)
  rw [isCounterEna_eq, drives.state]
  cases up <;> rfl

variable (input) in
theorem ebiO (drives : ebi.Drives up word count) (bound : count ≤ up.length)
    (owner : ebi.bus.currentBusOccupy = up.innerOwns) :
    (ebi.negedge input).ebiO = driven word up.length count := by
  have word : (ebi.negedge input).trxSenddataMux = word := drives.carries
  rw [InnerEbi.ebiO, word]
  exact EbiTrx.ebiO_of_drove (drives.drove_negedge input bound owner) bound drives.isSendMode

theorem ends (drives : ebi.Drives up word count) (bound : count ≤ up.length)
    (owner : ebi.bus.currentBusOccupy = up.innerOwns) :
    ebi.ends input = decide (count + 1 = up.length) := by
  rw [InnerEbi.ends, drives.isSendMode, Bool.true_and]
  exact EbiTrx.isCycleCountLeftOne_of_drove (drives.drove_negedge input bound owner)

variable (input busSwitchI ebiI) in
theorem next (drives : ebi.Drives up word count) (bound : count ≤ up.length)
    (owner : ebi.bus.currentBusOccupy = up.innerOwns) :
    (ebi.cycle input busSwitchI ebiI).trxCurrentState =
      if count = up.length then up.rests else up.sends := by
  change (ebi.negedge input).trxNextState input = _
  have state : (ebi.negedge input).trxCurrentState = up.sends := drives.state
  have owns : (ebi.negedge input).bus.currentBusOccupy = up.innerOwns := owner
  have done := EbiTrx.trxSendDone_of_drove (drives.drove_negedge input bound owner)
  rw [trxNextState, state, owns, done]
  by_cases last : count = up.length
  · rw [if_pos last, decide_eq_true last]
    cases up <;> rfl
  · rw [if_neg last, decide_eq_false last]
    cases up <;> rfl

/-- A frame begins once. -/
theorem begins_later (drives : ebi.Drives up word (count + 1)) : ebi.begins = [] := by
  have fresh := drives.fresh
  rw [decide_eq_false (Nat.succ_ne_zero count), bne_eq_false_iff_eq] at fresh
  exact begins_of_stays fresh

/-- A side that sends acts on nothing. -/
theorem receives (drives : ebi.Drives up word count) : ebi.receives = [] := by
  apply receives_elsewhere <;> rw [drives.state] <;> cases up <;> rintro ⟨⟩

/-- The buffer that is sent stays as it is. -/
theorem carries_cycle (drives : ebi.Drives up word count) (loaded : ebi.Loaded)
    (goes : (ebi.cycle input busSwitchI ebiI).trxCurrentState = up.sends) :
    (ebi.cycle input busSwitchI ebiI).trxSenddataMux = word := by
  rw [← drives.carries, trxSenddataMux, trxSenddataMux, goes, drives.state]
  have state := drives.state
  cases up with
  | read =>
    have same : (ebi.cycle input busSwitchI ebiI).read = ebi.read :=
      @readNext_sending (ebi.negedge input) input (negedge_loaded loaded) state
    rw [same]
    rfl
  | write data =>
    have valid := loaded.writing (.inl state)
    have same : (ebi.cycle input busSwitchI ebiI).write = ebi.write :=
      @writeNext_writing (ebi.negedge input) input (negedge_loaded loaded) valid
        (by rw [show (ebi.negedge input).trxCurrentState = .sendW from state]; decide)
    rw [same]
    rfl
  | snoop data =>
    have same : (ebi.cycle input busSwitchI ebiI).snoop.snpBuffer = ebi.snoop.snpBuffer :=
      snoopNext_sending (ebi.negedge input) input state
    rw [same]
    rfl

/-- One more beat. -/
theorem cycle (drives : ebi.Drives up word count) (unfinished : count < up.length)
    (loaded : ebi.Loaded) (owner : ebi.bus.currentBusOccupy = up.innerOwns) :
    (ebi.cycle input busSwitchI ebiI).Drives up word (count + 1) := by
  have bound := Nat.le_of_lt unfinished
  have goes := drives.next input busSwitchI ebiI bound owner
  rw [if_neg (Nat.ne_of_lt unfinished)] at goes
  refine ⟨goes, ?_, by simp, drives.carries_cycle loaded goes,
    drives.drove_negedge input bound owner⟩
  change (ebi.trxCurrentState != (ebi.cycle input busSwitchI ebiI).trxCurrentState) = _
  rw [goes, drives.state, bne_self_eq_false]
  rfl

end InnerEbi.Drives

/-- How much of a frame of which `count` beats have been driven the outer side has taken. -/
inductive OuterEbi.Gathers (ebi : OuterEbi) (up : Uplink) (word : BitVec 592) : Nat → Prop
  | listening (state : ebi.trxCurrentState = up.listens)
    (heard : ebi.trx.rffRcvData = idleBeat) : Gathers ebi up word 0
  | starting (state : ebi.trxCurrentState = up.listens)
    (heard : ebi.trx.rffRcvData = driven word up.length 0) : Gathers ebi up word 1
  | header (state : ebi.trxCurrentState = up.recvs) (before : ebi.trxPreState = up.listens)
    (heard : ebi.trx.rffRcvData = driven word up.length 1) : Gathers ebi up word 2
  | gathering (count : Nat) (state : ebi.trxCurrentState = up.recvs)
    (before : ebi.trxPreState = up.recvs) (flagged : up.Flagged ebi)
    (gathered : ebi.trx.Gathered word up.length up.span count) (room : count < up.span)
    (heard : ebi.trx.rffRcvData = driven word up.length (count + 2)) :
    Gathers ebi up word (count + 3)

/-- The outer side begins to act on a frame. -/
structure OuterEbi.Arrived (ebi : OuterEbi) (up : Uplink) (word : BitVec 592) : Prop where
  state : ebi.trxCurrentState = up.acts
  flagged : up.Flagged ebi
  receives : ebi.receives = [up.frame word]
  heard : ebi.trx.rffRcvData = idleBeat

namespace OuterEbi

variable {ebi : OuterEbi} {input : OuterInput} {busSwitchI : Bool} {ebiI : Beat} {up : Uplink}
  {word : BitVec 592} {count : Nat}

/-- A frame that begins after one without data is itself one without data. -/
def LengthKnown (ebi : OuterEbi) : Prop :=
  ebi.isRdRcv = true → ebi.trxPreState ≠ ebi.trxCurrentState → ebi.trx.recvCounterMax = 1 →
    ebi.trx.rffRcvData.setWidth 4 = slaveSnpResp2

instance (ebi : OuterEbi) : Decidable ebi.LengthKnown := by
  unfold LengthKnown
  infer_instance

/-- The frame is read off the receive buffer as it was sent. -/
theorem receives_of_gathered (state : ebi.trxCurrentState = up.acts)
    (before : ebi.trxPreState = up.recvs) (flagged : up.Flagged ebi)
    (gathered : up ≠ .snoop false → ebi.trx.Gathered word up.length up.span up.span) :
    ebi.receives = [up.frame word] := by
  rw [receives, before, state]
  cases up with
  | read =>
    have whole := gathered (by decide)
    have address := EbiTrx.extract_of_gathered 0 32 whole (by decide) (by decide)
    have snoop := EbiTrx.extract_of_gathered 32 4 whole (by decide) (by decide)
    change ebi.reqIsRead = true at flagged
    change (if ebi.reqIsRead then _ else _) = _
    rw [if_pos flagged, araddr, arsnoop, address, snoop]
    rfl
  | write data =>
    have whole := gathered (by simp)
    have long : 6 ≤ (Uplink.write data).length := by cases data <;> decide
    have wide : 3 ≤ (Uplink.write data).span := by cases data <;> decide
    have address := EbiTrx.extract_of_gathered 0 32 whole (by omega) (by omega)
    have mesi := EbiTrx.extract_of_gathered 32 2 whole (by omega) (by omega)
    change ebi.reqIsRead = false ∧ ebi.wHasData = data at flagged
    change (if ebi.reqIsRead then _ else _) = _
    rw [flagged.1, if_neg Bool.false_ne_true, flagged.2, awaddr, awmesi, address, mesi]
    cases data with
    | false => rfl
    | true =>
      have content := EbiTrx.extract_of_gathered 48 512 whole
        (by decide) (by decide)
      rw [if_pos rfl, content]
      rfl
  | snoop data =>
    change ebi.snpRespHasdata = data at flagged
    change [Frame.snoopResponse (if ebi.snpRespHasdata then _ else _)] = _
    rw [flagged]
    cases data with
    | false => rfl
    | true =>
      have content := EbiTrx.extract_of_gathered 0 512 (gathered (by decide))
        (by decide) (by decide)
      rw [if_pos rfl, content]
      rfl

variable (input busSwitchI ebiI) in
/-- The next state of a side that listens for the frame. -/
theorem next_listening (state : ebi.trxCurrentState = up.listens)
    (owner : ebi.bus.currentBusOccupy = !up.innerOwns) :
    (ebi.cycle input busSwitchI ebiI).trxCurrentState =
      if ebi.trx.rffRcvData.getLsbD 0 then up.listens else up.recvs := by
  change (ebi.negedge input).trxNextState input = _
  have silent : ebi.isSendMode = false := by
    rw [isSendMode, state]
    cases up <;> rfl
  have start := trxRcvStart_negedge input silent
  have same : (ebi.negedge input).trxCurrentState = up.listens := state
  have owns : (ebi.negedge input).bus.currentBusOccupy = !up.innerOwns := owner
  rw [trxNextState, same, owns, start]
  cases ebi.trx.rffRcvData.getLsbD 0 <;> cases up <;> rfl

variable (input busSwitchI ebiI) in
theorem next_receiving (state : ebi.trxCurrentState = up.recvs)
    (owner : ebi.bus.currentBusOccupy = !up.innerOwns) :
    (ebi.cycle input busSwitchI ebiI).trxCurrentState =
      if ebi.trx.trxRcvDone then up.acts else up.recvs := by
  change (ebi.negedge input).trxNextState input = _
  have same : (ebi.negedge input).trxCurrentState = up.recvs := state
  have owns : (ebi.negedge input).bus.currentBusOccupy = !up.innerOwns := owner
  have done : (ebi.negedge input).trx.trxRcvDone = ebi.trx.trxRcvDone := rfl
  rw [trxNextState, same, owns, done]
  cases ebi.trx.trxRcvDone <;> cases up <;> rfl

variable (input busSwitchI ebiI) in
/-- The header of a frame sets the flags for its kind. -/
theorem flagged_header (fresh : ebi.trxPreState ≠ ebi.trxCurrentState)
    (header : ebi.trx.rffRcvData.setWidth 4 = up.opcode) :
    up.Flagged (ebi.cycle input busSwitchI ebiI) := by
  have read : (ebi.cycle input busSwitchI ebiI).reqIsRead =
      ebi.headerFlag ebi.reqIsRead [hostDr] [hostDw1, hostDw2] := rfl
  have data : (ebi.cycle input busSwitchI ebiI).wHasData =
      ebi.headerFlag ebi.wHasData [hostDw1] [hostDw2] := rfl
  have answer : (ebi.cycle input busSwitchI ebiI).snpRespHasdata =
      ebi.headerFlag ebi.snpRespHasdata [slaveSnpResp1] [slaveSnpResp2] := rfl
  have changed : (ebi.trxPreState != ebi.trxCurrentState) = true := by
    rw [bne_iff_ne]
    exact fresh
  simp only [headerFlag, header, changed, if_true] at read data answer
  cases up with
  | read => exact read
  | write data' =>
    cases data'
    · exact ⟨read, data⟩
    · exact ⟨read, data⟩
  | snoop data' =>
    cases data'
    · exact answer
    · exact answer

variable (input busSwitchI ebiI) in
/-- While the state stays, so do the flags. -/
theorem flagged_stays (stays : ebi.trxPreState = ebi.trxCurrentState) (flagged : up.Flagged ebi) :
    up.Flagged (ebi.cycle input busSwitchI ebiI) := by
  have read : (ebi.cycle input busSwitchI ebiI).reqIsRead =
      ebi.headerFlag ebi.reqIsRead [hostDr] [hostDw1, hostDw2] := rfl
  have data : (ebi.cycle input busSwitchI ebiI).wHasData =
      ebi.headerFlag ebi.wHasData [hostDw1] [hostDw2] := rfl
  have answer : (ebi.cycle input busSwitchI ebiI).snpRespHasdata =
      ebi.headerFlag ebi.snpRespHasdata [slaveSnpResp1] [slaveSnpResp2] := rfl
  simp only [headerFlag, stays, bne_self_eq_false, Bool.false_eq_true, if_false] at read data answer
  cases up with
  | read => exact read.trans flagged
  | write data' => exact ⟨read.trans flagged.1, data.trans flagged.2⟩
  | snoop data' => exact answer.trans flagged

variable (input busSwitchI) in
/-- One more beat: the frame goes on, or its last beat has been taken. -/
theorem Gathers.cycle (gathers : ebi.Gathers up word count)
    (owner : ebi.bus.currentBusOccupy = !up.innerOwns) (tidy : ebi.Tidy) (known : ebi.LengthKnown)
    (head : word.extractLsb' 0 32 = frameHead up.opcode) :
    (ebi.cycle input busSwitchI (driven word up.length count)).Gathers up word (count + 1) ∧
        count + 1 < up.span + 3 ∨
      (ebi.cycle input busSwitchI (driven word up.length count)).Arrived up word ∧
        (count = up.span + 2 ∨ up = .snoop false ∧ count = 2) := by
  have least := up.span_bounds
  have long := up.length_bounds
  cases gathers with
  | listening state heard =>
    have next := next_listening input busSwitchI
      (driven word up.length 0) state owner
    rw [heard] at next
    exact .inl ⟨.starting next rfl, by omega⟩
  | starting state heard =>
    have next := next_listening input busSwitchI
      (driven word up.length 1) state owner
    rw [heard, driven_start (by omega) head] at next
    exact .inl ⟨.header next state rfl, by omega⟩
  | header state before heard =>
    have next := next_receiving input busSwitchI
      (driven word up.length 2) state owner
    have fresh : ebi.trxPreState ≠ ebi.trxCurrentState := by
      rw [before, state]
      cases up <;> rintro ⟨⟩
    have header : ebi.trx.rffRcvData.setWidth 4 = up.opcode := by
      rw [heard, driven_opcode (by omega) head]
      cases up with
      | read => rfl
      | write data => cases data <;> rfl
      | snoop data => cases data <;> rfl
    have cleared : ebi.trx.Cleared := by
      apply tidy
      rw [before]
      cases up <;> rfl
    have flagged := flagged_header input busSwitchI
      (driven word up.length 2) fresh header
    have receives : ebi.isRdRcv = true := by
      rw [isRdRcv, state]
      cases up <;> rfl
    by_cases one : ebi.trx.recvCounterMax = 1
    · have answer : up = .snoop false := by
        have same := known receives fresh one
        rw [header] at same
        revert same
        cases up with
        | read => decide
        | write data => cases data <;> decide
        | snoop data => cases data <;> decide
      subst answer
      have done : ebi.trx.trxRcvDone = true := by
        rw [EbiTrx.trxRcvDone, cleared.recvCounter, one]
        rfl
      rw [done, if_pos rfl] at next
      have heard : driven word (Uplink.snoop false).length 2 = idleBeat := driven_late (by decide)
      refine .inr ⟨⟨next, flagged, ?_, heard⟩, .inr ⟨rfl, rfl⟩⟩
      exact receives_of_gathered next state flagged (fun other => absurd rfl other)
    · have undone : ebi.trx.trxRcvDone = false := by
        rw [EbiTrx.trxRcvDone, cleared.recvCounter, beq_eq_false_iff_ne]
        omega
      rw [undone, if_neg Bool.false_ne_true] at next
      refine .inl ⟨.gathering 0 next state flagged ?_ (by omega) rfl, by omega⟩
      apply EbiTrx.gathered_first
      · exact bne_iff_ne.mpr fresh
      · exact (congrArg headerCounterMax header).trans up.headerCounterMax_opcode
  | gathering count state before flagged gathered room heard =>
    have next := next_receiving input busSwitchI
      (driven word up.length (count + 3)) state owner
    have stays : ebi.trxPreState = ebi.trxCurrentState := before.trans state.symm
    have kept := flagged_stays input busSwitchI
      (driven word up.length (count + 3)) stays flagged
    have more : (ebi.cycle input busSwitchI (driven word up.length (count + 3))).trx.Gathered word
        up.length up.span (count + 1) := by
      have same : (ebi.negedge input).trx.Gathered word up.length up.span count :=
        ⟨gathered.1, gathered.2, gathered.3⟩
      apply EbiTrx.gathered_next same room (by omega)
      · exact bne_eq_false_iff_eq.mpr stays
      · rw [isCounterEna_eq]
        change ebi.trxCurrentState.counts = true
        rw [state]
        cases up <;> rfl
      · change ebi.isRdRcv = true
        rw [isRdRcv, state]
        cases up <;> rfl
      · exact heard
    rw [EbiTrx.trxRcvDone_of_gathered gathered] at next
    by_cases last : count + 1 = up.span
    · rw [decide_eq_true last, if_pos rfl] at next
      rw [last] at more
      refine .inr ⟨⟨next, kept, ?_, driven_late (by omega)⟩, .inl (by omega)⟩
      exact receives_of_gathered next state kept (fun _ => more)
    · rw [decide_eq_false last, if_neg Bool.false_ne_true] at next
      exact .inl ⟨.gathering (count + 1) next state kept more (by omega) rfl, by omega⟩

/-- A side that receives says nothing and acts on nothing. -/
theorem Gathers.quiet (gathers : ebi.Gathers up word count) :
    ebi.isSendMode = false ∧ ebi.receives = [] := by
  have elsewhere : ebi.trxCurrentState = up.listens ∨ ebi.trxCurrentState = up.recvs := by
    cases gathers with
    | listening state => exact .inl state
    | starting state => exact .inl state
    | header state => exact .inr state
    | gathering count state => exact .inr state
  rcases elsewhere with state | state
  · refine ⟨?_, receives_elsewhere ?_ ?_⟩
    · rw [isSendMode, state]
      cases up <;> rfl
    · rw [state]
      cases up <;> rintro ⟨⟩
    · rw [state]
      cases up <;> rintro ⟨⟩
  · refine ⟨?_, receives_elsewhere ?_ ?_⟩
    · rw [isSendMode, state]
      cases up <;> rfl
    · rw [state]
      cases up <;> rintro ⟨⟩
    · rw [state]
      cases up <;> rintro ⟨⟩

theorem Arrived.silent (arrived : ebi.Arrived up word) : ebi.isSendMode = false := by
  rw [isSendMode, arrived.state]
  cases up <;> rfl

end OuterEbi

end GreenRio
