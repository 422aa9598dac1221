import GreenRio.EbiUplink
import GreenRio.EbiDownlink

set_option autoImplicit false

namespace GreenRio

open PartSelect

/-- The bus is owned and not about to be given up. -/
def BusOccupy.Holds (bus : BusOccupy) : Prop :=
  bus.currentBusOccupy = true ∧ bus.releaseSignal = false

theorem BusOccupy.step_holds {bus : BusOccupy} {busSwitchI idle request : Bool} (holds : bus.Holds)
    (keeps : bus.lets busSwitchI idle request = false) :
    (bus.step busSwitchI idle request).Holds := by
  obtain ⟨owns, keeping⟩ := holds
  simp only [lets, owns, keeping, Bool.not_false, Bool.true_and] at keeps
  simp only [step, owns, keeping, keeps, Bool.not_true, Bool.false_eq_true, if_false]
  exact ⟨owns, keeping⟩

/-- A side that is at work does not let go. -/
theorem BusOccupy.step_holds_busy {bus : BusOccupy} {busSwitchI idle request : Bool}
    (holds : bus.Holds) (busy : idle = false) : (bus.step busSwitchI idle request).Holds := by
  apply step_holds holds
  rw [lets, busy, Bool.and_false, Bool.false_and, Bool.and_false]

/-- What falls within a vector is the same in a wider one. -/
theorem extract_setWidth {n m start size : Nat} (vector : BitVec n) (inside : start + size ≤ m) :
    (vector.setWidth m).extractLsb' start size = vector.extractLsb' start size := by
  apply BitVec.eq_of_getLsbD_eq
  intro index bound
  have place : start + index < m := by omega
  simp [place]

namespace InnerEbi

variable {ebi : InnerEbi} {up : Uplink}

/-- A request is begun only if the bus is not given up in the same cycle. -/
def Keeps (ebi : InnerEbi) (input : InnerInput) (busSwitchI : Bool) : Prop :=
  ebi.trxCurrentState = .idle → ebi.bus.currentBusOccupy = true →
    (ebi.read.valid || ebi.write.wBufferValid) = true →
      ebi.bus.releaseSignal = false ∧ ebi.bus.lets busSwitchI true (request input) = false

instance (ebi : InnerEbi) (input : InnerInput) (busSwitchI : Bool) :
    Decidable (ebi.Keeps input busSwitchI) := by
  unfold Keeps
  infer_instance

/-- What is sent when a frame begins. -/
theorem begins_first (loaded : ebi.Loaded) (state : ebi.trxCurrentState = up.sends)
    (fresh : ebi.trxPreState ≠ ebi.trxCurrentState) (selected : up.Selected ebi) :
    ebi.trxSenddataMux.extractLsb' 0 32 = frameHead up.opcode ∧
      ebi.begins = [up.frame ebi.trxSenddataMux] := by
  rw [trxSenddataMux, begins, if_neg fresh, state]
  cases up with
  | read =>
    constructor
    · exact (setWidth_head _ (by decide)).trans (loaded.readHead (loaded.reading state))
    · change [Frame.readRequest _ _] = [Frame.readRequest
        ((ebi.read.buffer.setWidth 592).extractLsb' 32 32)
        ((ebi.read.buffer.setWidth 592).extractLsb' 64 4)]
      rw [extract_setWidth _ (by decide), extract_setWidth _ (by decide)]
  | write data =>
    change ebi.write.wdataExist = data at selected
    constructor
    · have head := loaded.writeHead (.inl (loaded.writing (.inl state)))
      rw [selected] at head
      cases data
      · exact head
      · exact head
    · change [Frame.writeRequest _ _ (if ebi.write.wdataExist then _ else _)] = _
      rw [selected]
      rfl
  | snoop data =>
    change ebi.snoop.snpdataExist = data at selected
    constructor
    · have valid : ebi.snoop.snpBufferValid = true := by
        rcases loaded.answering state with ⟨-, valid⟩ | before
        · exact valid
        · exact absurd (before.trans state.symm) fresh
      have head := loaded.snoopHead valid
      rw [selected] at head
      refine (setWidth_head (m := 592) ebi.snoop.snpBuffer (by decide)).trans ?_
      cases data
      · exact head
      · exact head
    · change [Frame.snoopResponse (if ebi.snoop.snpdataExist then _ else _)] =
        [Frame.snoopResponse (if data then
          some ((ebi.snoop.snpBuffer.setWidth 592).extractLsb' 32 512) else none)]
      rw [selected, extract_setWidth _ (by decide)]

theorem drives_first (tidy : ebi.Tidy) (state : ebi.trxCurrentState = up.sends)
    (before : ebi.trxPreState.counts = false) (selected : up.Selected ebi) :
    ebi.trxPreState ≠ ebi.trxCurrentState ∧ ebi.Drives up ebi.trxSenddataMux 0 := by
  have fresh : ebi.trxPreState ≠ ebi.trxCurrentState := by
    intro same
    rw [same, state] at before
    cases up <;> cases before
  exact ⟨fresh, state, bne_iff_ne.mpr fresh, fun _ => selected, rfl, tidy before⟩

end InnerEbi

namespace OuterEbi

variable {ebi : OuterEbi} {down : Downlink}

def Keeps (ebi : OuterEbi) (input : OuterInput) (busSwitchI : Bool) : Prop :=
  ebi.trxCurrentState = .idle → ebi.bus.currentBusOccupy = true → ebi.snoop.valid = true →
    ebi.bus.releaseSignal = false ∧ ebi.bus.lets busSwitchI true input.snReqValid = false

instance (ebi : OuterEbi) (input : OuterInput) (busSwitchI : Bool) :
    Decidable (ebi.Keeps input busSwitchI) := by
  unfold Keeps
  infer_instance

/-- What is sent when a frame begins. -/
theorem begins_first (loaded : ebi.Loaded) (state : ebi.trxCurrentState = down.sends)
    (fresh : ebi.trxPreState ≠ ebi.trxCurrentState) :
    (down ≠ .ack → ebi.trxSenddataMux.extractLsb' 0 32 = frameHead down.opcode) ∧
      driven ebi.trxSenddataMux down.length 0 = 0 ∧
      ebi.begins = [down.frame ebi.trxSenddataMux] := by
  rw [trxSenddataMux, begins, if_neg fresh, state]
  cases down with
  | line =>
    have head : (ebi.read.rBuffer.setWidth 592).extractLsb' 0 32 = frameHead Downlink.line.opcode :=
      (setWidth_head _ (by decide)).trans (loaded.readHead (.inr state))
    refine ⟨fun _ => head, driven_start (by decide) head, ?_⟩
    change [Frame.readResponse _ _] = [Frame.readResponse
      ((ebi.read.rBuffer.setWidth 592).extractLsb' 32 512)
      ((ebi.read.rBuffer.setWidth 592).extractLsb' 544 2)]
    rw [extract_setWidth _ (by decide), extract_setWidth _ (by decide)]
  | snoop =>
    have head : (ebi.snoop.buffer.setWidth 592).extractLsb' 0 32 =
        frameHead Downlink.snoop.opcode :=
      (setWidth_head _ (by decide)).trans (loaded.snoopHead (loaded.asking state))
    refine ⟨fun _ => head, driven_start (by decide) head, ?_⟩
    change [Frame.snoopRequest _ _] = [Frame.snoopRequest
      ((ebi.snoop.buffer.setWidth 592).extractLsb' 32 32)
      ((ebi.snoop.buffer.setWidth 592).extractLsb' 64 4)]
    rw [extract_setWidth _ (by decide), extract_setWidth _ (by decide)]
  | ack =>
    have start : driven ((BitVec.allOnes 16 ++ (0 : Beat)).setWidth 592)
        Downlink.ack.length 0 = 0 := by decide
    exact ⟨fun other => absurd rfl other, start, rfl⟩

theorem drives_first (tidy : ebi.Tidy) (state : ebi.trxCurrentState = down.sends)
    (before : ebi.trxPreState.counts = false) :
    ebi.trxPreState ≠ ebi.trxCurrentState ∧ ebi.Drives down ebi.trxSenddataMux 0 := by
  have fresh : ebi.trxPreState ≠ ebi.trxCurrentState := by
    intro same
    rw [same, state] at before
    cases down <;> cases before
  exact ⟨fresh, state, bne_iff_ne.mpr fresh, rfl, tidy before⟩

end OuterEbi

namespace Ebi

/-- What holds in every state reached, whatever is sent. -/
structure Sound (ebi : Ebi) : Prop where
  innerLoaded : ebi.inner.Loaded
  outerLoaded : ebi.outer.Loaded
  innerTidy : ebi.inner.Tidy
  outerTidy : ebi.outer.Tidy
  length : ebi.inner.trx.recvCounterMax ≠ 1
  handover : ∃ handover : Handover, ebi.buses = handover.registers

theorem reset_sound : reset.Sound :=
  ⟨InnerEbi.reset_loaded, OuterEbi.reset_loaded, InnerEbi.reset_tidy, OuterEbi.reset_tidy,
    (by decide : 31 ≠ 1), .innerOwns, rfl⟩

variable {ebi : Ebi} {input : EbiInput}

variable (input) in
theorem step_sound (sound : ebi.Sound) : (ebi.step input).Sound where
  innerLoaded := InnerEbi.posedge_loaded (InnerEbi.negedge_loaded sound.innerLoaded)
  outerLoaded := OuterEbi.posedge_loaded (OuterEbi.negedge_loaded sound.outerLoaded)
  innerTidy := InnerEbi.cycle_tidy sound.innerTidy
  outerTidy := OuterEbi.cycle_tidy sound.outerTidy
  length := InnerEbi.cycle_length sound.length
  handover := step_handover input sound.handover

theorem Sound.exclusive (sound : ebi.Sound) :
    ¬(ebi.inner.bus.currentBusOccupy = true ∧ ebi.outer.bus.currentBusOccupy = true) := by
  obtain ⟨handover, same⟩ := sound.handover
  intro both
  apply handover.exclusive
  rw [← same]
  exact both

/-- The cycles in which the sides neither give the bus up over a request nor take the first beat of
a frame for its last. -/
structure Orderly (ebi : Ebi) (input : EbiInput) : Prop where
  inner : ebi.inner.Keeps input.inner ebi.outer.bus.busSwitchO
  outer : ebi.outer.Keeps input.outer ebi.inner.bus.busSwitchO
  length : ebi.outer.LengthKnown

instance (ebi : Ebi) (input : EbiInput) : Decidable (ebi.Orderly input) :=
  decidable_of_iff
    (ebi.inner.Keeps input.inner ebi.outer.bus.busSwitchO ∧
      ebi.outer.Keeps input.outer ebi.inner.bus.busSwitchO ∧ ebi.outer.LengthKnown)
    ⟨fun both => ⟨both.1, both.2.1, both.2.2⟩, fun orderly => ⟨orderly.1, orderly.2, orderly.3⟩⟩

/-- The inner side or the outer one holds the bus. -/
def Owned (ebi : Ebi) (innerOwns : Bool) : Prop :=
  if innerOwns then ebi.inner.bus.Holds else ebi.outer.bus.Holds

theorem Owned.occupies {innerOwns : Bool} (owned : ebi.Owned innerOwns) (sound : ebi.Sound) :
    ebi.inner.bus.currentBusOccupy = innerOwns ∧ ebi.outer.bus.currentBusOccupy = !innerOwns := by
  have exclusive := sound.exclusive
  cases innerOwns with
  | true =>
    have inner : ebi.inner.bus.currentBusOccupy = true := owned.1
    refine ⟨inner, ?_⟩
    cases outer : ebi.outer.bus.currentBusOccupy with
    | false => rfl
    | true => exact absurd ⟨inner, outer⟩ exclusive
  | false =>
    have outer : ebi.outer.bus.currentBusOccupy = true := owned.1
    refine ⟨?_, outer⟩
    cases inner : ebi.inner.bus.currentBusOccupy with
    | false => rfl
    | true => exact absurd ⟨inner, outer⟩ exclusive

/-- The owner is at work. -/
def OwnerBusy (ebi : Ebi) (innerOwns : Bool) : Prop :=
  if innerOwns then ebi.inner.trxCurrentState ≠ .idle else ebi.outer.trxCurrentState ≠ .idle

variable (input) in
theorem Owned.step {innerOwns : Bool} (owned : ebi.Owned innerOwns)
    (busy : ebi.OwnerBusy innerOwns) : (ebi.step input).Owned innerOwns := by
  cases innerOwns with
  | true => exact BusOccupy.step_holds_busy owned (beq_eq_false_iff_ne.mpr busy)
  | false => exact BusOccupy.step_holds_busy owned (beq_eq_false_iff_ne.mpr busy)

/-- Nothing has been heard. -/
def Quiet (ebi : Ebi) : Prop :=
  ebi.inner.trx.rffRcvData = idleBeat ∧ ebi.outer.trx.rffRcvData = idleBeat

/-- The frame that a state of the outer side prepares. -/
def prepares : OuterTrxState → Option Downlink
  | .forwardRreq | .waitRContent => some .line
  | .forwardWreq | .forwardWContent => some .ack
  | _ => none

/-- Where a transaction is, and the frame that is on its way. -/
inductive Phase (ebi : Ebi) : Flight Frame → Prop
  | rest (inner : ebi.inner.trxCurrentState = .idle) (outer : ebi.outer.trxCurrentState = .idle)
    (quiet : ebi.Quiet) : Phase ebi .clear
  | up (up : Uplink) (word : BitVec 592) (count : Nat) (owned : ebi.Owned up.innerOwns)
    (head : word.extractLsb' 0 32 = frameHead up.opcode)
    (drives : ebi.inner.Drives up word count) (gathers : ebi.outer.Gathers up word count)
    (room : count < up.span + 3) (heard : ebi.inner.trx.rffRcvData = idleBeat) :
    Phase ebi (.carrying (up.frame word) (up.span + 2 - count) (decide (up.length ≤ count)))
  | upLanded (up : Uplink) (word : BitVec 592) (owned : ebi.Owned up.innerOwns)
    (drives : ebi.inner.Drives up word up.length) (arrived : ebi.outer.Arrived up word)
    (heard : ebi.inner.trx.rffRcvData = idleBeat) : Phase ebi .clear
  | serving (down : Downlink) (owned : ebi.Owned true)
    (inner : ebi.inner.trxCurrentState = down.listens)
    (outer : prepares ebi.outer.trxCurrentState = some down) (quiet : ebi.Quiet) : Phase ebi .clear
  | down (down : Downlink) (word : BitVec 592) (count : Nat) (owned : ebi.Owned down.innerOwns)
    (head : down ≠ .ack → word.extractLsb' 0 32 = frameHead down.opcode)
    (start : driven word down.length 0 = 0) (drives : ebi.outer.Drives down word count)
    (gathers : ebi.inner.Gathers down word count) (room : count < down.lands)
    (heard : ebi.outer.trx.rffRcvData = idleBeat) :
    Phase ebi (.carrying (down.frame word) (down.lands - 1 - count) (decide (down.length ≤ count)))
  | downLanded (down : Downlink) (word : BitVec 592) (answers : down ≠ .snoop)
    (owned : ebi.Owned true) (drives : ebi.outer.Drives down word down.length)
    (arrived : ebi.inner.Arrived down word) (heard : ebi.outer.trx.rffRcvData = idleBeat) :
    Phase ebi .clear
  | delivering (owned : ebi.Owned true) (inner : ebi.inner.trxCurrentState = .respR)
    (outer : ebi.outer.trxCurrentState = .idle) (quiet : ebi.Quiet) : Phase ebi .clear
  | asked (owned : ebi.Owned false)
    (inner : ebi.inner.trxCurrentState = .waitSnpReqRead ∨
      ebi.inner.trxCurrentState = .waitSnpResp)
    (outer : ebi.outer.trxCurrentState = .waitSnpResp) (quiet : ebi.Quiet) : Phase ebi .clear
  | told (owned : ebi.Owned false) (inner : ebi.inner.trxCurrentState = .idle)
    (outer : ebi.outer.trxCurrentState = .readSnpResp) (quiet : ebi.Quiet) : Phase ebi .clear

/-- What one cycle does to the line. -/
def Advances (ebi : Ebi) (input : EbiInput) (flight : Flight Frame) : Prop :=
  ∃ next, (ebi.step input).Phase next ∧
    flight.Next 37 (ebi.step input).begins (ebi.ends input).length (ebi.step input).receives next

section Step

variable {flight : Flight Frame} {up : Uplink} {down : Downlink} {word : BitVec 592} {count : Nat}

/-- A cycle in which the line stays clear. -/
theorem advances_still (phase : (ebi.step input).Phase .clear)
    (innerEnds : ebi.inner.ends input.inner = false)
    (outerEnds : ebi.outer.ends input.outer = false)
    (innerBegins : (ebi.step input).inner.begins = [])
    (outerBegins : (ebi.step input).outer.begins = [])
    (innerReceives : (ebi.step input).inner.receives = [])
    (outerReceives : (ebi.step input).outer.receives = []) : ebi.Advances input .clear := by
  refine ⟨.clear, phase, ?_⟩
  rw [begins, receives, ends, innerEnds, outerEnds, innerBegins, outerBegins, innerReceives,
    outerReceives]
  exact .rest

variable (input) in
/-- Silent sides leave the line quiet. -/
theorem quiet_step (inner : ebi.inner.isSendMode = false) (outer : ebi.outer.isSendMode = false) :
    (ebi.step input).Quiet :=
  ⟨OuterEbi.ebiO_of_silent outer, InnerEbi.ebiO_of_silent inner⟩

variable (up) in
/-- The inner side begins a frame, and the outer one listens. -/
theorem advances_up_first (sound : ebi.Sound) (owned : (ebi.step input).Owned up.innerOwns)
    (state : (ebi.step input).inner.trxCurrentState = up.sends)
    (before : ebi.inner.trxCurrentState.counts = false)
    (selected : up.Selected (ebi.step input).inner)
    (listens : (ebi.step input).outer.trxCurrentState = up.listens)
    (inner : ebi.inner.isSendMode = false) (outer : ebi.outer.isSendMode = false) :
    ebi.Advances input .clear := by
  have next := step_sound input sound
  obtain ⟨fresh, drives⟩ := InnerEbi.drives_first next.innerTidy state before selected
  obtain ⟨head, begun⟩ := InnerEbi.begins_first next.innerLoaded state fresh selected
  obtain ⟨innerHeard, outerHeard⟩ := quiet_step input inner outer
  have gathers : (ebi.step input).outer.Gathers up (ebi.step input).inner.trxSenddataMux 0 :=
    .listening listens outerHeard
  have short := up.span_bounds
  have long := up.length_bounds
  refine ⟨_, .up up _ 0 owned head drives gathers (by omega) innerHeard, ?_⟩
  rw [begins, receives, ends, begun, drives.receives, gathers.quiet.2,
    OuterEbi.begins_of_silent gathers.quiet.1, InnerEbi.ends_of_silent inner,
    OuterEbi.ends_of_silent outer, decide_eq_false (by omega)]
  exact .begin _ _ (by omega)

variable (down) in
/-- The outer side begins a frame, and the inner one listens. -/
theorem advances_down_first (sound : ebi.Sound) (owned : (ebi.step input).Owned down.innerOwns)
    (state : (ebi.step input).outer.trxCurrentState = down.sends)
    (before : ebi.outer.trxCurrentState.counts = false)
    (listens : (ebi.step input).inner.trxCurrentState = down.listens)
    (inner : ebi.inner.isSendMode = false) (outer : ebi.outer.isSendMode = false) :
    ebi.Advances input .clear := by
  have next := step_sound input sound
  obtain ⟨fresh, drives⟩ := OuterEbi.drives_first next.outerTidy state before
  obtain ⟨head, start, begun⟩ := OuterEbi.begins_first next.outerLoaded state fresh
  obtain ⟨innerHeard, outerHeard⟩ := quiet_step input inner outer
  have gathers : (ebi.step input).inner.Gathers down (ebi.step input).outer.trxSenddataMux 0 :=
    .listening listens innerHeard
  have room : 0 < down.lands := by cases down <;> decide
  have short : down.lands - 1 - 0 ≤ 37 := by cases down <;> decide
  have unended : decide (down.length ≤ 0) = false := by cases down <;> decide
  refine ⟨_, .down down _ 0 owned head start drives gathers room outerHeard, ?_⟩
  rw [begins, receives, ends, begun, drives.receives, gathers.quiet.2,
    InnerEbi.begins_of_silent gathers.quiet.1, InnerEbi.ends_of_silent inner,
    OuterEbi.ends_of_silent outer, unended]
  exact .begin _ _ short

/-- A beat from the inner side to the outer one. -/
theorem advances_up (sound : ebi.Sound) (orderly : ebi.Orderly input)
    (owned : ebi.Owned up.innerOwns) (head : word.extractLsb' 0 32 = frameHead up.opcode)
    (drives : ebi.inner.Drives up word count) (gathers : ebi.outer.Gathers up word count)
    (room : count < up.span + 3) :
    ebi.Advances input
      (.carrying (up.frame word) (up.span + 2 - count) (decide (up.length ≤ count))) := by
  obtain ⟨innerOwner, outerOwner⟩ := owned.occupies sound
  have split := up.length_eq
  have bound : count ≤ up.length := by
    split at split <;> omega
  have silent := gathers.quiet.1
  have busy : ebi.OwnerBusy up.innerOwns := by
    cases up with
    | read => exact fun idle => by cases drives.state.symm.trans idle
    | write data => exact fun idle => by cases drives.state.symm.trans idle
    | snoop data =>
      intro idle
      cases gathers with
      | listening state => cases state.symm.trans idle
      | starting state => cases state.symm.trans idle
      | header state => cases state.symm.trans idle
      | gathering count state => cases state.symm.trans idle
  have still := owned.step input busy
  have beat := drives.ebiO input.inner bound innerOwner
  have innerHeard : (ebi.step input).inner.trx.rffRcvData = idleBeat :=
    OuterEbi.ebiO_of_silent silent
  have ended : (ebi.ends input).length = if count + 1 = up.length then 1 else 0 := by
    rw [ends, drives.ends bound innerOwner, OuterEbi.ends_of_silent silent]
    by_cases last : count + 1 = up.length <;> simp [last]
  rw [Advances, begins, receives, ended]
  have taken := gathers.cycle input.outer ebi.inner.bus.busSwitchO
    outerOwner sound.outerTidy orderly.length head
  rw [← beat] at taken
  rcases taken with ⟨more, room'⟩ | ⟨arrived, last⟩
  · have next : (ebi.step input).inner.Drives up word (count + 1) :=
      drives.cycle (by split at split <;> omega) sound.innerLoaded innerOwner
    replace more : (ebi.step input).outer.Gathers up word (count + 1) := more
    refine ⟨_, .up up word (count + 1) still head next more room' innerHeard, ?_⟩
    rw [next.begins_later, next.receives, OuterEbi.begins_of_silent more.quiet.1, more.quiet.2,
      (by omega : up.span + 2 - count = up.span + 2 - (count + 1) + 1)]
    exact .beat _ _ _ _
  · replace arrived : (ebi.step input).outer.Arrived up word := arrived
    have late : up.length ≤ count + 1 := by
      rcases last with last | ⟨rfl, rfl⟩
      · split at split <;> omega
      · decide
    by_cases unfinished : count < up.length
    · have next : (ebi.step input).inner.Drives up word (count + 1) :=
        drives.cycle unfinished sound.innerLoaded innerOwner
      have whole : count + 1 = up.length := by omega
      refine ⟨_, .upLanded up word still (whole ▸ next) arrived innerHeard, ?_⟩
      rw [next.begins_later, next.receives, OuterEbi.begins_of_silent arrived.silent,
        arrived.receives]
      exact .lastBeat _ _ _ _ late
    · have whole : count = up.length := by omega
      have answer : up.innerOwns = false := by
        rcases last with last | ⟨rfl, rfl⟩
        · cases owns : up.innerOwns with
          | false => rfl
          | true =>
            rw [owns, if_pos rfl] at split
            omega
        · rfl
      have next : (ebi.step input).inner.trxCurrentState =
          if count = up.length then up.rests else up.sends := drives.next _ _ _ bound innerOwner
      rw [if_pos whole] at next
      cases up with
      | read => cases answer
      | write data => cases answer
      | snoop data =>
        refine ⟨_, .told still next arrived.state ⟨innerHeard, arrived.heard⟩, ?_⟩
        have rests : (ebi.step input).inner.isSendMode = false := by
          rw [InnerEbi.isSendMode, next]
          rfl
        rw [InnerEbi.begins_of_silent rests, OuterEbi.begins_of_silent arrived.silent,
          InnerEbi.receives_elsewhere, arrived.receives]
        · exact .lastBeat _ _ _ _ late
        all_goals
          rw [next]
          rintro ⟨⟩

/-- A beat from the outer side to the inner one. -/
theorem advances_down (sound : ebi.Sound)
    (owned : ebi.Owned down.innerOwns)
    (head : down ≠ .ack → word.extractLsb' 0 32 = frameHead down.opcode)
    (start : driven word down.length 0 = 0) (drives : ebi.outer.Drives down word count)
    (gathers : ebi.inner.Gathers down word count) (room : count < down.lands) :
    ebi.Advances input
      (.carrying (down.frame word) (down.lands - 1 - count) (decide (down.length ≤ count))) := by
  obtain ⟨innerOwner, outerOwner⟩ := owned.occupies sound
  have split : down.lands ≤ down.length + 1 := by cases down <;> decide
  have bound : count ≤ down.length := by omega
  have silent := gathers.quiet.1
  have busy : ebi.OwnerBusy down.innerOwns := by
    cases down with
    | line =>
      intro idle
      cases gathers with
      | listening state => cases state.symm.trans idle
      | starting state => cases state.symm.trans idle
      | header more state => cases state.symm.trans idle
      | gathering count more state => cases state.symm.trans idle
    | snoop => exact fun idle => by cases drives.state.symm.trans idle
    | ack =>
      intro idle
      cases gathers with
      | listening state => cases state.symm.trans idle
      | starting state => cases state.symm.trans idle
      | header more state => cases state.symm.trans idle
      | gathering count more state => cases state.symm.trans idle
  have still := owned.step input busy
  have beat := drives.ebiO input.outer bound outerOwner
  have outerHeard : (ebi.step input).outer.trx.rffRcvData = idleBeat :=
    InnerEbi.ebiO_of_silent silent
  have ended : (ebi.ends input).length = if count + 1 = down.length then 1 else 0 := by
    rw [ends, drives.ends bound outerOwner, InnerEbi.ends_of_silent silent]
    by_cases last : count + 1 = down.length <;> simp [last]
  rw [Advances, begins, receives, ended]
  have taken := gathers.cycle input.inner ebi.outer.bus.busSwitchO
    innerOwner sound.innerTidy sound.length head start
  rw [← beat] at taken
  rcases taken with ⟨more, room'⟩ | ⟨arrived, last⟩
  · have next : (ebi.step input).outer.Drives down word (count + 1) :=
      drives.cycle (by omega) outerOwner
    replace more : (ebi.step input).inner.Gathers down word (count + 1) := more
    refine ⟨_, .down down word (count + 1) still head start next more room' outerHeard, ?_⟩
    rw [next.begins_later, next.receives, InnerEbi.begins_of_silent more.quiet.1, more.quiet.2,
      (by omega : down.lands - 1 - count = down.lands - 1 - (count + 1) + 1)]
    exact .beat _ _ _ _
  · replace arrived : (ebi.step input).inner.Arrived down word := arrived
    have late : down.length ≤ count + 1 := by
      rw [last]
      cases down <;> decide
    by_cases unfinished : count < down.length
    · have next : (ebi.step input).outer.Drives down word (count + 1) :=
        drives.cycle unfinished outerOwner
      have whole : count + 1 = down.length := by omega
      have answers : down ≠ .snoop := by
        rintro rfl
        exact absurd (last.symm.trans whole) (by decide)
      have inner : down.innerOwns = true := by
        cases down <;> first | rfl | exact absurd rfl answers
      refine ⟨_, .downLanded down word answers (inner ▸ still) (whole ▸ next) arrived outerHeard,
        ?_⟩
      rw [next.begins_later, next.receives, InnerEbi.begins_of_silent arrived.silent,
        arrived.receives]
      exact .lastBeat _ _ _ _ late
    · have whole : count = down.length := by omega
      have next : (ebi.step input).outer.trxCurrentState =
          if count = down.length then down.rests else down.sends :=
        drives.next _ _ _ bound outerOwner
      rw [if_pos whole] at next
      cases down with
      | line =>
        subst whole
        exact absurd last (by decide)
      | ack =>
        subst whole
        exact absurd last (by decide)
      | snoop =>
        refine ⟨_, .asked still (.inl arrived.state) next ⟨arrived.heard, outerHeard⟩, ?_⟩
        have rests : (ebi.step input).outer.isSendMode = false := by
          rw [OuterEbi.isSendMode, next]
          rfl
        rw [OuterEbi.begins_of_silent rests, InnerEbi.begins_of_silent arrived.silent,
          OuterEbi.receives_elsewhere, arrived.receives]
        · exact .lastBeat _ _ _ _ late
        all_goals
          rw [next]
          rintro ⟨⟩

variable (input up) in
/-- A listener that hears nothing goes on listening. -/
theorem outer_listens (owner : ebi.outer.bus.currentBusOccupy = !up.innerOwns)
    (state : ebi.outer.trxCurrentState = up.listens)
    (quiet : ebi.outer.trx.rffRcvData = idleBeat) :
    (ebi.step input).outer.trxCurrentState = up.listens := by
  have next := OuterEbi.next_listening input.outer ebi.inner.bus.busSwitchO
    (ebi.inner.negedge input.inner).ebiO state owner
  rw [quiet] at next
  exact next

variable (input down) in
theorem inner_listens (owner : ebi.inner.bus.currentBusOccupy = down.innerOwns)
    (state : ebi.inner.trxCurrentState = down.listens)
    (quiet : ebi.inner.trx.rffRcvData = idleBeat) :
    (ebi.step input).inner.trxCurrentState = down.listens := by
  have next := InnerEbi.next_listening input.inner ebi.outer.bus.busSwitchO
    (ebi.outer.negedge input.outer).ebiO state owner
  rw [quiet] at next
  exact next

/-- The outer side passes a snoop response on, while the inner one rests. -/
theorem advances_telling (owned : ebi.Owned false)
    (outer : ebi.outer.trxCurrentState = .readSnpResp)
    (inner : (ebi.step input).inner.trxCurrentState = .idle)
    (innerEnds : ebi.inner.ends input.inner = false) (quiet : (ebi.step input).Quiet) :
    ebi.Advances input .clear := by
  have busy : ebi.OwnerBusy false := fun idle => by cases outer.symm.trans idle
  have still := owned.step input busy
  have outerSilent : ebi.outer.isSendMode = false := by
    rw [OuterEbi.isSendMode, outer]
    rfl
  have innerRests : (ebi.step input).inner.isSendMode = false := by
    rw [InnerEbi.isSendMode, inner]
    rfl
  have innerReceives : (ebi.step input).inner.receives = [] := by
    apply InnerEbi.receives_elsewhere <;> rw [inner] <;> rintro ⟨⟩
  have move := OuterEbi.trxNextState_moves (ebi.outer.negedge input.outer) input.outer
  have before : (ebi.outer.negedge input.outer).trxCurrentState = .readSnpResp := outer
  rw [before] at move
  generalize next : (ebi.outer.negedge input.outer).trxNextState input.outer = reached at move
  replace next : (ebi.step input).outer.trxCurrentState = reached := next
  cases move with
  | stay =>
    have stays : (ebi.step input).outer.trxPreState = (ebi.step input).outer.trxCurrentState :=
      outer.trans next.symm
    exact advances_still (.told still inner next quiet) innerEnds
      (OuterEbi.ends_of_silent outerSilent) (InnerEbi.begins_of_silent innerRests)
      (OuterEbi.begins_of_stays stays) innerReceives (OuterEbi.receives_of_stays stays)
  | snoopDone =>
    have outerRests : (ebi.step input).outer.isSendMode = false := by
      rw [OuterEbi.isSendMode, next]
      rfl
    refine advances_still (.rest inner next quiet) innerEnds
      (OuterEbi.ends_of_silent outerSilent) (InnerEbi.begins_of_silent innerRests)
      (OuterEbi.begins_of_silent outerRests) innerReceives (OuterEbi.receives_elsewhere ?_ ?_)
    all_goals
      rw [next]
      rintro ⟨⟩

/-- The inner side passes a line on, while the outer one rests. -/
theorem advances_delivering (owned : ebi.Owned true)
    (inner : ebi.inner.trxCurrentState = .respR)
    (outer : (ebi.step input).outer.trxCurrentState = .idle)
    (outerEnds : ebi.outer.ends input.outer = false) (quiet : (ebi.step input).Quiet) :
    ebi.Advances input .clear := by
  have busy : ebi.OwnerBusy true := fun idle => by cases inner.symm.trans idle
  have still := owned.step input busy
  have innerSilent : ebi.inner.isSendMode = false := by
    rw [InnerEbi.isSendMode, inner]
    rfl
  have outerRests : (ebi.step input).outer.isSendMode = false := by
    rw [OuterEbi.isSendMode, outer]
    rfl
  have outerReceives : (ebi.step input).outer.receives = [] := by
    apply OuterEbi.receives_elsewhere <;> rw [outer] <;> rintro ⟨⟩
  have move := InnerEbi.trxNextState_moves (ebi.inner.negedge input.inner) input.inner
  have before : (ebi.inner.negedge input.inner).trxCurrentState = .respR := inner
  rw [before] at move
  generalize next : (ebi.inner.negedge input.inner).trxNextState input.inner = reached at move
  replace next : (ebi.step input).inner.trxCurrentState = reached := next
  cases move with
  | stay =>
    have stays : (ebi.step input).inner.trxPreState = (ebi.step input).inner.trxCurrentState :=
      inner.trans next.symm
    exact advances_still (.delivering still next outer quiet)
      (InnerEbi.ends_of_silent innerSilent) outerEnds (InnerEbi.begins_of_stays stays)
      (OuterEbi.begins_of_silent outerRests) (InnerEbi.receives_of_stays stays) outerReceives
  | readDone =>
    have innerRests : (ebi.step input).inner.isSendMode = false := by
      rw [InnerEbi.isSendMode, next]
      rfl
    refine advances_still (.rest next outer quiet) (InnerEbi.ends_of_silent innerSilent) outerEnds
      (InnerEbi.begins_of_silent innerRests) (OuterEbi.begins_of_silent outerRests)
      (InnerEbi.receives_elsewhere ?_ ?_ ?_) outerReceives
    all_goals
      rw [next]
      rintro ⟨⟩

/-- The outer side prepares an answer, while the inner one waits for it. -/
theorem advances_serving (sound : ebi.Sound) (owned : ebi.Owned true)
    (inner : ebi.inner.trxCurrentState = down.listens)
    (outer : prepares ebi.outer.trxCurrentState = some down) (quiet : ebi.Quiet) :
    ebi.Advances input .clear := by
  obtain ⟨innerOwner, -⟩ := owned.occupies sound
  have answers : down ≠ .snoop := by
    rintro rfl
    revert outer
    cases ebi.outer.trxCurrentState <;> simp [prepares]
  have owns : down.innerOwns = true := by
    cases down <;> first | rfl | exact absurd rfl answers
  have busy : ebi.OwnerBusy true := by
    intro idle
    rw [idle] at inner
    cases down <;> first | exact absurd rfl answers | cases inner
  have still := owned.step input busy
  have listens := inner_listens input down (innerOwner.trans owns.symm) inner quiet.1
  have innerSilent : ebi.inner.isSendMode = false := by
    rw [InnerEbi.isSendMode, inner]
    cases down <;> rfl
  have outerSilent : ebi.outer.isSendMode = false := by
    rw [OuterEbi.isSendMode]
    revert outer
    cases ebi.outer.trxCurrentState <;> simp [prepares]
  have move := OuterEbi.trxNextState_moves (ebi.outer.negedge input.outer) input.outer
  generalize next : (ebi.outer.negedge input.outer).trxNextState input.outer = reached at move
  replace next : (ebi.step input).outer.trxCurrentState = reached := next
  have goes : prepares reached = some down ∨
      reached = down.sends ∧ ebi.outer.trxCurrentState.counts = false := by
    have before : (ebi.outer.negedge input.outer).trxCurrentState =
      ebi.outer.trxCurrentState := rfl
    rw [before] at move
    generalize ebi.outer.trxCurrentState = current at move outer
    cases move with
    | stay => exact .inl outer
    | waitRContent => exact .inl outer
    | forwardWContent => exact .inl outer
    | rResp =>
      cases outer
      exact .inr ⟨rfl, rfl⟩
    | writeDone =>
      cases outer
      exact .inr ⟨rfl, rfl⟩
    | contentDone =>
      cases outer
      exact .inr ⟨rfl, rfl⟩
    | _ => cases outer
  rcases goes with prepares | ⟨sends, before⟩
  · have elsewhere : ∀ state, Ebi.prepares state = some down →
        state ≠ .sendSnpReq ∧ state ≠ .rResp ∧ state ≠ .respAck ∧ state ≠ .checkOpcode ∧
          state ≠ .readSnpResp := by
      intro state same
      cases state <;> simp [Ebi.prepares] at same ⊢
    obtain ⟨snoop, line, ack, request, answer⟩ := elsewhere reached prepares
    have outerNext : (ebi.step input).outer.isSendMode = false := by
      rw [OuterEbi.isSendMode, next]
      simp [snoop, line, ack]
    have innerNext : (ebi.step input).inner.isSendMode = false := by
      rw [InnerEbi.isSendMode, listens]
      cases down <;> rfl
    refine advances_still (.serving down still listens (next ▸ prepares)
      (quiet_step input innerSilent outerSilent)) (InnerEbi.ends_of_silent innerSilent)
      (OuterEbi.ends_of_silent outerSilent) (InnerEbi.begins_of_silent innerNext)
      (OuterEbi.begins_of_silent outerNext) (InnerEbi.receives_elsewhere ?_ ?_ ?_)
      (OuterEbi.receives_elsewhere (next ▸ request) (next ▸ answer))
    all_goals
      rw [listens]
      cases down <;> rintro ⟨⟩
  · exact advances_down_first down sound (owns.symm ▸ still) (next.trans sends) before listens
      innerSilent outerSilent

/-- The inner side answers a snoop, while the outer one waits for it. -/
theorem advances_asked (sound : ebi.Sound) (owned : ebi.Owned false)
    (inner : ebi.inner.trxCurrentState = .waitSnpReqRead ∨
      ebi.inner.trxCurrentState = .waitSnpResp)
    (outer : ebi.outer.trxCurrentState = .waitSnpResp) (quiet : ebi.Quiet) :
    ebi.Advances input .clear := by
  obtain ⟨-, outerOwner⟩ := owned.occupies sound
  have busy : ebi.OwnerBusy false := fun idle => by cases outer.symm.trans idle
  have still := owned.step input busy
  have listens := outer_listens input (.snoop (ebi.step input).inner.snoop.snpdataExist)
    outerOwner outer quiet.2
  have innerSilent : ebi.inner.isSendMode = false := by
    rw [InnerEbi.isSendMode]
    rcases inner with state | state <;> rw [state] <;> rfl
  have outerSilent : ebi.outer.isSendMode = false := by
    rw [OuterEbi.isSendMode, outer]
    rfl
  have outerNext : (ebi.step input).outer.isSendMode = false := by
    rw [OuterEbi.isSendMode, listens]
    rfl
  have outerReceives : (ebi.step input).outer.receives = [] := by
    apply OuterEbi.receives_elsewhere <;> rw [listens] <;> rintro ⟨⟩
  have move := InnerEbi.trxNextState_moves (ebi.inner.negedge input.inner) input.inner
  generalize next : (ebi.inner.negedge input.inner).trxNextState input.inner = reached at move
  replace next : (ebi.step input).inner.trxCurrentState = reached := next
  have asks : ∀ innerNow : (ebi.step input).inner.trxCurrentState = .waitSnpReqRead ∨
      (ebi.step input).inner.trxCurrentState = .waitSnpResp,
      (ebi.step input).inner.receives = [] → ebi.Advances input .clear := by
    intro innerNow innerReceives
    have innerNext : (ebi.step input).inner.isSendMode = false := by
      rw [InnerEbi.isSendMode]
      rcases innerNow with state | state <;> rw [state] <;> rfl
    exact advances_still (.asked still innerNow listens (quiet_step input innerSilent outerSilent))
      (InnerEbi.ends_of_silent innerSilent) (OuterEbi.ends_of_silent outerSilent)
      (InnerEbi.begins_of_silent innerNext) (OuterEbi.begins_of_silent outerNext) innerReceives
      outerReceives
  rcases inner with waits | waits
  · have before : (ebi.inner.negedge input.inner).trxCurrentState = .waitSnpReqRead := waits
    rw [before] at move
    cases move with
    | stay => exact asks (.inl next) (InnerEbi.receives_of_stays (waits.trans next.symm))
    | waitSnpResp =>
      apply asks (.inr next)
      apply InnerEbi.receives_elsewhere <;> rw [next] <;> rintro ⟨⟩
  · have before : (ebi.inner.negedge input.inner).trxCurrentState = .waitSnpResp := waits
    rw [before] at move
    cases move with
    | stay => exact asks (.inr next) (InnerEbi.receives_of_stays (waits.trans next.symm))
    | sendSnpResp =>
      exact advances_up_first (.snoop (ebi.step input).inner.snoop.snpdataExist) sound still
        next (by rw [waits]; rfl) rfl listens innerSilent outerSilent

/-- The outer side turns to a request of which the inner one has sent the last beat. -/
theorem advances_upLanded (sound : ebi.Sound) (owned : ebi.Owned up.innerOwns)
    (drives : ebi.inner.Drives up word up.length) (arrived : ebi.outer.Arrived up word) :
    ebi.Advances input .clear := by
  obtain ⟨innerOwner, outerOwner⟩ := owned.occupies sound
  have busy : ebi.OwnerBusy up.innerOwns := by
    cases up with
    | read => exact fun idle => by cases drives.state.symm.trans idle
    | write data => exact fun idle => by cases drives.state.symm.trans idle
    | snoop data => exact fun idle => by cases arrived.state.symm.trans idle
  have still := owned.step input busy
  have beat := drives.ebiO input.inner (Nat.le_refl _) innerOwner
  rw [driven_late (Nat.le_succ _)] at beat
  have quiet : (ebi.step input).Quiet := ⟨OuterEbi.ebiO_of_silent arrived.silent, beat⟩
  have inner : (ebi.step input).inner.trxCurrentState =
      if up.length = up.length then up.rests else up.sends :=
    drives.next _ _ _ (Nat.le_refl _) innerOwner
  rw [if_pos rfl] at inner
  have innerEnds : ebi.inner.ends input.inner = false := by
    rw [drives.ends (Nat.le_refl _) innerOwner]
    simp
  have innerNext : (ebi.step input).inner.isSendMode = false := by
    rw [InnerEbi.isSendMode, inner]
    cases up <;> rfl
  have innerReceives : (ebi.step input).inner.receives = [] := by
    apply InnerEbi.receives_elsewhere <;> rw [inner] <;> cases up <;> rintro ⟨⟩
  have serves : ∀ down : Downlink, up.innerOwns = true → up.rests = down.listens →
      prepares (ebi.step input).outer.trxCurrentState = some down →
      (ebi.step input).outer.trxCurrentState = .forwardRreq ∨
        (ebi.step input).outer.trxCurrentState = .forwardWreq → ebi.Advances input .clear := by
    intro down owns listens prepared forwards
    have outerNext : (ebi.step input).outer.isSendMode = false := by
      rw [OuterEbi.isSendMode]
      rcases forwards with state | state <;> rw [state] <;> rfl
    refine advances_still (.serving down (owns ▸ still) (inner.trans listens) prepared quiet)
      innerEnds (OuterEbi.ends_of_silent arrived.silent) (InnerEbi.begins_of_silent innerNext)
      (OuterEbi.begins_of_silent outerNext) innerReceives (OuterEbi.receives_elsewhere ?_ ?_)
    all_goals
      rcases forwards with state | state <;> rw [state] <;> rintro ⟨⟩
  have outer : (ebi.step input).outer.trxCurrentState =
      (ebi.outer.negedge input.outer).trxNextState input.outer := rfl
  have state : (ebi.outer.negedge input.outer).trxCurrentState = up.acts := arrived.state
  have owner : (ebi.outer.negedge input.outer).bus.currentBusOccupy = !up.innerOwns := outerOwner
  rw [OuterEbi.trxNextState, state, owner] at outer
  have flagged := arrived.flagged
  cases up with
  | read =>
    have isRead : (ebi.outer.negedge input.outer).reqIsRead = true := flagged
    simp only [Uplink.acts, Uplink.innerOwns, isRead, Bool.not_true, Bool.false_eq_true,
      if_false, if_true] at outer
    exact serves .line rfl rfl (by rw [outer]; rfl) (.inl outer)
  | write data =>
    have isWrite : (ebi.outer.negedge input.outer).reqIsRead = false := flagged.1
    simp only [Uplink.acts, Uplink.innerOwns, isWrite, Bool.not_true, Bool.false_eq_true,
      if_false] at outer
    exact serves .ack rfl rfl (by rw [outer]; rfl) (.inr outer)
  | snoop data => exact advances_telling owned arrived.state inner innerEnds quiet

/-- The inner side turns to an answer of which the outer one has sent the last beat. -/
theorem advances_downLanded (sound : ebi.Sound) (answers : down ≠ .snoop)
    (owned : ebi.Owned true) (drives : ebi.outer.Drives down word down.length)
    (arrived : ebi.inner.Arrived down word) : ebi.Advances input .clear := by
  obtain ⟨innerOwner, outerOwner⟩ := owned.occupies sound
  have owns : down.innerOwns = true := by
    cases down <;> first | rfl | exact absurd rfl answers
  rw [← owns] at outerOwner
  have beat := drives.ebiO input.outer (Nat.le_refl _) outerOwner
  rw [driven_late (Nat.le_succ _)] at beat
  have quiet : (ebi.step input).Quiet := ⟨beat, InnerEbi.ebiO_of_silent arrived.silent⟩
  have outer : (ebi.step input).outer.trxCurrentState =
      if down.length = down.length then down.rests else down.sends :=
    drives.next _ _ _ (Nat.le_refl _) outerOwner
  rw [if_pos rfl] at outer
  have outerEnds : ebi.outer.ends input.outer = false := by
    rw [drives.ends (Nat.le_refl _) outerOwner]
    simp
  cases down with
  | line => exact advances_delivering owned arrived.state outer outerEnds quiet
  | snoop => exact absurd rfl answers
  | ack =>
    have inner : (ebi.step input).inner.trxCurrentState = .idle := by
      change (ebi.inner.negedge input.inner).trxNextState input.inner = _
      have state : (ebi.inner.negedge input.inner).trxCurrentState = .checkWack := arrived.state
      have owner : (ebi.inner.negedge input.inner).bus.currentBusOccupy = true := innerOwner
      rw [InnerEbi.trxNextState, state, owner]
      rfl
    have innerRests : (ebi.step input).inner.isSendMode = false := by
      rw [InnerEbi.isSendMode, inner]
      rfl
    have outerRests : (ebi.step input).outer.isSendMode = false := by
      rw [OuterEbi.isSendMode, outer]
      rfl
    refine advances_still (.rest inner outer quiet) (InnerEbi.ends_of_silent arrived.silent)
      outerEnds (InnerEbi.begins_of_silent innerRests) (OuterEbi.begins_of_silent outerRests)
      (InnerEbi.receives_elsewhere ?_ ?_ ?_) (OuterEbi.receives_elsewhere ?_ ?_)
    · rw [inner]
      rintro ⟨⟩
    · rw [inner]
      rintro ⟨⟩
    · rw [inner]
      rintro ⟨⟩
    · rw [outer]
      rintro ⟨⟩
    · rw [outer]
      rintro ⟨⟩

/-- Both sides rest: the owner may begin a request. -/
theorem advances_rest (sound : ebi.Sound) (orderly : ebi.Orderly input)
    (inner : ebi.inner.trxCurrentState = .idle) (outer : ebi.outer.trxCurrentState = .idle)
    (quiet : ebi.Quiet) : ebi.Advances input .clear := by
  have innerSilent : ebi.inner.isSendMode = false := by
    rw [InnerEbi.isSendMode, inner]
    rfl
  have outerSilent : ebi.outer.isSendMode = false := by
    rw [OuterEbi.isSendMode, outer]
    rfl
  have rests : (ebi.step input).inner.trxCurrentState = .idle →
      (ebi.step input).outer.trxCurrentState = .idle → ebi.Advances input .clear := by
    intro innerNext outerNext
    have innerRests : (ebi.step input).inner.isSendMode = false := by
      rw [InnerEbi.isSendMode, innerNext]
      rfl
    have outerRests : (ebi.step input).outer.isSendMode = false := by
      rw [OuterEbi.isSendMode, outerNext]
      rfl
    have innerReceives : (ebi.step input).inner.receives = [] := by
      apply InnerEbi.receives_elsewhere <;> rw [innerNext] <;> rintro ⟨⟩
    have outerReceives : (ebi.step input).outer.receives = [] := by
      apply OuterEbi.receives_elsewhere <;> rw [outerNext] <;> rintro ⟨⟩
    exact advances_still (.rest innerNext outerNext (quiet_step input innerSilent outerSilent))
      (InnerEbi.ends_of_silent innerSilent) (OuterEbi.ends_of_silent outerSilent)
      (InnerEbi.begins_of_silent innerRests) (OuterEbi.begins_of_silent outerRests) innerReceives
      outerReceives
  by_cases innerOwner : ebi.inner.bus.currentBusOccupy = true
  · have outerOwner : ebi.outer.bus.currentBusOccupy = false := by
      rw [← Bool.not_eq_true]
      exact fun both => sound.exclusive ⟨innerOwner, both⟩
    have outerNext := outer_listens input .read outerOwner outer quiet.2
    have next : (ebi.step input).inner.trxCurrentState =
        if ebi.inner.read.valid then .sendAr
        else if ebi.inner.write.wBufferValid then .sendW else .idle := by
      change (ebi.inner.negedge input.inner).trxNextState input.inner = _
      have state : (ebi.inner.negedge input.inner).trxCurrentState = .idle := inner
      have owner : (ebi.inner.negedge input.inner).bus.currentBusOccupy = true := innerOwner
      rw [InnerEbi.trxNextState, state, owner]
      rfl
    have owned : (ebi.inner.read.valid || ebi.inner.write.wBufferValid) = true →
        (ebi.step input).Owned true := by
      intro work
      obtain ⟨keeping, stays⟩ := orderly.inner inner innerOwner work
      have idle : (ebi.inner.trxCurrentState == .idle) = true := by rw [inner]; rfl
      rw [← idle] at stays
      exact BusOccupy.step_holds ⟨innerOwner, keeping⟩ stays
    by_cases reads : ebi.inner.read.valid = true
    · rw [if_pos reads] at next
      exact advances_up_first .read sound (owned (by rw [reads]; rfl)) next
        (by rw [inner]; rfl) trivial outerNext innerSilent outerSilent
    · rw [if_neg reads] at next
      by_cases writes : ebi.inner.write.wBufferValid = true
      · rw [if_pos writes] at next
        exact advances_up_first (.write (ebi.step input).inner.write.wdataExist) sound
          (owned (by rw [writes, Bool.or_true])) next (by rw [inner]; rfl) rfl outerNext innerSilent
          outerSilent
      · rw [if_neg writes] at next
        exact rests next outerNext
  · rw [Bool.not_eq_true] at innerOwner
    have innerNext := inner_listens input .snoop innerOwner inner quiet.1
    by_cases outerOwner : ebi.outer.bus.currentBusOccupy = true
    · have next : (ebi.step input).outer.trxCurrentState =
          if ebi.outer.snoop.valid then .sendSnpReq else .idle := by
        change (ebi.outer.negedge input.outer).trxNextState input.outer = _
        have state : (ebi.outer.negedge input.outer).trxCurrentState = .idle := outer
        have owner : (ebi.outer.negedge input.outer).bus.currentBusOccupy = true := outerOwner
        rw [OuterEbi.trxNextState, state, owner]
        rfl
      by_cases asks : ebi.outer.snoop.valid = true
      · rw [if_pos asks] at next
        obtain ⟨keeping, stays⟩ := orderly.outer outer outerOwner asks
        have idle : (ebi.outer.trxCurrentState == .idle) = true := by rw [outer]; rfl
        rw [← idle] at stays
        have owned : (ebi.step input).Owned false :=
          BusOccupy.step_holds ⟨outerOwner, keeping⟩ stays
        exact advances_down_first .snoop sound owned next (by rw [outer]; rfl) innerNext
          innerSilent outerSilent
      · rw [if_neg asks] at next
        exact rests innerNext next
    · rw [Bool.not_eq_true] at outerOwner
      exact rests innerNext (outer_listens input .read outerOwner outer quiet.2)

/-- What one cycle does to the frame that is on its way. -/
theorem step_advances (sound : ebi.Sound) (orderly : ebi.Orderly input) (phase : ebi.Phase flight) :
    ebi.Advances input flight := by
  cases phase with
  | rest inner outer quiet => exact advances_rest sound orderly inner outer quiet
  | up up word count owned head drives gathers room heard =>
    exact advances_up sound orderly owned head drives gathers room
  | upLanded up word owned drives arrived heard =>
    exact advances_upLanded sound owned drives arrived
  | serving down owned inner outer quiet => exact advances_serving sound owned inner outer quiet
  | down down word count owned head start drives gathers room heard =>
    exact advances_down sound owned head start drives gathers room
  | downLanded down word answers owned drives arrived heard =>
    exact advances_downLanded sound answers owned drives arrived
  | delivering owned inner outer quiet =>
    obtain ⟨-, outerOwner⟩ := owned.occupies sound
    have outerSilent : ebi.outer.isSendMode = false := by
      rw [OuterEbi.isSendMode, outer]
      rfl
    have innerSilent : ebi.inner.isSendMode = false := by
      rw [InnerEbi.isSendMode, inner]
      rfl
    exact advances_delivering owned inner (outer_listens input .read outerOwner outer quiet.2)
      (OuterEbi.ends_of_silent outerSilent) (quiet_step input innerSilent outerSilent)
  | asked owned inner outer quiet => exact advances_asked sound owned inner outer quiet
  | told owned inner outer quiet =>
    obtain ⟨innerOwner, -⟩ := owned.occupies sound
    have outerSilent : ebi.outer.isSendMode = false := by
      rw [OuterEbi.isSendMode, outer]
      rfl
    have innerSilent : ebi.inner.isSendMode = false := by
      rw [InnerEbi.isSendMode, inner]
      rfl
    exact advances_telling owned outer (inner_listens input .snoop innerOwner inner quiet.1)
      (InnerEbi.ends_of_silent innerSilent) (quiet_step input innerSilent outerSilent)

end Step

/-- The two sides run a line that carries one frame at a time. -/
theorem runsLine : machine.RunsLine Orderly (fun ebi flight => ebi.Sound ∧ ebi.Phase flight)
    begins receives ends 37 where
  initial := ⟨reset_sound, .rest rfl rfl ⟨rfl, rfl⟩⟩
  step := by
    rintro ebi input flight orderly ⟨sound, phase⟩
    obtain ⟨next, reached, cycle⟩ := step_advances sound orderly phase
    exact ⟨next, ⟨step_sound input sound, reached⟩, cycle⟩

end Ebi

/-- Frames are acted on in the order in which they are sent, as they were sent, after their stop
beat, and every frame arrives. -/
theorem ebi_frames_round_trip (inputs more : List EbiInput)
    (orderly : Ebi.machine.Obeys Ebi.Orderly (inputs ++ more)) :
    Ebi.received inputs <+: Ebi.begun inputs ∧
      (Ebi.received inputs).length ≤ (Ebi.ended inputs).length ∧
      (37 < more.length → Ebi.begun inputs <+: Ebi.received (inputs ++ more)) :=
  ⟨Ebi.runsLine.received_prefix (Synchronous.obeys_append orderly),
    Ebi.runsLine.received_ended (Synchronous.obeys_append orderly),
    Ebi.runsLine.begun_received orderly⟩

/-- A cycle in which a request of either side may be asked for, and every word offered is the
same. -/
def ebiMoves (arvalid awvalid snReqValid : Bool) (word : BitVec 64) : EbiInput where
  inner := ⟨arvalid, 0x80001040, 2, awvalid, 0x80003000, 3, true, word, true, true, true, false, 0⟩
  outer := ⟨true, true, true, true, word, 1, snReqValid, 0x80002000, 1, true⟩

/-- A line is written, another one is read, and in the end the inner side is snooped. -/
def ebiExchange : List EbiInput :=
  ebiMoves false true false 0 ::
    (List.range 8).map (fun word => ebiMoves false false false (BitVec.ofNat 64 word)) ++
    List.replicate 42 (ebiMoves false false false 0) ++
    ebiMoves true false false 0 :: List.replicate 76 (ebiMoves false false false 0x5a) ++
    List.replicate 6 (ebiMoves false false true 0)

/-- The frames of both lines arrive with their words. -/
theorem ebi_frames_round_trip_exchange :
    Ebi.begun ebiExchange =
        [.writeRequest 0x80003000 3 (some ((7 : BitVec 64) ++ (6 : BitVec 64) ++ (5 : BitVec 64) ++
            (4 : BitVec 64) ++ (3 : BitVec 64) ++ (2 : BitVec 64) ++ (1 : BitVec 64) ++
            (0 : BitVec 64))),
          .acknowledgement, .readRequest 0x80001040 2,
          .readResponse (BitVec.replicate 8 (0x5a : BitVec 64)) 1,
          .snoopRequest 0x80002000 1] ∧
      Ebi.begun ebiExchange <+:
        Ebi.received (ebiExchange ++ List.replicate 38 (ebiMoves false false false 0)) :=
  ⟨by decide +kernel, (ebi_frames_round_trip ebiExchange
    (List.replicate 38 (ebiMoves false false false 0)) (by decide +kernel)).2.2 (by decide)⟩

/-- A cycle in which both sides are ready and snoops are answered without data; a read and a snoop
may be asked for. -/
def ebiAsks (arvalid snReqValid : Bool) : EbiInput where
  inner := ⟨arvalid, 0x80001040, 2, false, 0, 0, false, 0, true, true, true, false, 0⟩
  outer := ⟨true, true, true, false, 0, 0, snReqValid, 0x80002000, 1, true⟩

/-- A read request that follows a snoop answered without data is acted on before it has arrived. -/
theorem ebi_read_taken_early :
    ¬∀ inputs : List EbiInput, Ebi.received inputs <+: Ebi.begun inputs := by
  intro claim
  have taken := claim (List.replicate 8 (ebiAsks false true) ++
    List.replicate 14 (ebiAsks false false) ++ List.replicate 8 (ebiAsks true false))
  revert taken
  decide +kernel

end GreenRio
