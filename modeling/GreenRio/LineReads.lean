import GreenRio.EbiBuffers

set_option autoImplicit false

namespace GreenRio

open PartSelect

/-- What the outer side sees in a cycle: its memory interface and the wires of the other side. -/
structure OuterCycle where
  input : OuterInput
  busSwitchI : Bool
  ebiI : Beat

/-- What happens to the reads at the outer side. -/
inductive ReadEvent where
  | accepted
  | supplied (rdata : BitVec 64) (mesiSta : BitVec 2)
  | answered (frame : BitVec 560)

/-- A read with the beats that were supplied for it and the frames that answer it. -/
structure LineRead where
  beats : List (BitVec 64 × BitVec 2)
  frames : List (BitVec 560)

namespace OuterEbi

/-- The outer side by itself. -/
def machine : Synchronous OuterEbi OuterCycle :=
  ⟨reset, fun ebi cycle => ebi.cycle cycle.input cycle.busSwitchI cycle.ebiI⟩

/-- The first cycle of a response: what the read buffer holds now is sent. -/
def answers (ebi : OuterEbi) : Bool :=
  ebi.trxPreState == .waitRContent && ebi.trxCurrentState == .rResp

def readEvents (ebi : OuterEbi) (cycle : OuterCycle) : List ReadEvent :=
  if ebi.answers then [.answered ebi.read.rBuffer]
  else if cycle.input.rvalid && ebi.rready then
    [.supplied cycle.input.rdata cycle.input.mesiSta]
  else if cycle.input.arready && ebi.arvalid then [.accepted]
  else []

end OuterEbi

/-- The reads a sequence of events tells of, newest first. -/
def ReadEvent.record (reads : List LineRead) (event : ReadEvent) : List LineRead :=
  match event, reads with
  | .accepted, reads => ⟨[], []⟩ :: reads
  | .supplied rdata mesiSta, read :: earlier =>
    { read with beats := read.beats ++ [(rdata, mesiSta)] } :: earlier
  | .answered frame, read :: earlier => { read with frames := read.frames ++ [frame] } :: earlier
  | _, [] => []

def lineReads (events : List ReadEvent) : List LineRead := events.foldl ReadEvent.record []

theorem lineReads_append (events : List ReadEvent) (more : List ReadEvent) :
    lineReads (events ++ more) = more.foldl ReadEvent.record (lineReads events) := by
  rw [lineReads, List.foldl_append]
  rfl

/-- The buffer holds the beats that were supplied so far, and the state of the last one. -/
structure Holds (buffer : BitVec 560) (beats : List (BitVec 64 × BitVec 2)) : Prop where
  data : ∀ index beat, beats[index]? = some beat →
    buffer.extractLsb' (2 * 16 + index * 64) 64 = beat.1
  state : ∀ beat, beats.getLast? = some beat →
    buffer.extractLsb' (2 * 16 + 512) 16 = beat.2.setWidth 16

/-- A response frame with a whole line. -/
structure CarriesLine (frame : BitVec 560) (beats : List (BitVec 64 × BitVec 2)) : Prop where
  whole : beats.length = 512 / 64
  head : frame.extractLsb' 0 32 = frameHead slaveRdResp
  holds : Holds frame beats

namespace OuterEbi

/-- Every read gets one frame with its own line, the newest one as soon as its line is complete. -/
structure ReadsAnswered (ebi : OuterEbi) (reads : List LineRead) : Prop where
  once : ∀ read ∈ reads, read.frames.length ≤ 1
  carries : ∀ read ∈ reads, ∀ frame ∈ read.frames, CarriesLine frame read.beats
  earlier : ∀ read ∈ reads.tail, read.frames ≠ []
  ready : ebi.trxCurrentState = .waitRContent → ∀ read ∈ reads.head?,
    read.beats.length = 512 / 64 → ebi.read.rBufferValid = true
  left : ebi.trxCurrentState ≠ .waitRContent → ebi.answers = false →
    ∀ read ∈ reads.head?, read.frames ≠ []

/-- Beats are supplied for the first read since reset only, and the one after the seventh at once. -/
def Prompt (ebi : OuterEbi) (cycle : OuterCycle) : Prop :=
  ebi.rready = true →
    (cycle.input.rvalid = true → ebi.read.rBufFillCount < 512 / 64) ∧
    (ebi.read.rBufFillCount = 512 / 64 - 1 → cycle.input.rvalid = true)

instance (ebi : OuterEbi) (cycle : OuterCycle) : Decidable (ebi.Prompt cycle) := by
  unfold Prompt
  infer_instance

/-- How far the reads since reset have come. -/
inductive Progress (ebi : OuterEbi) : List LineRead → Prop
  | none (empty : ebi.read.rBufFillCount = 0) (invalid : ebi.read.rBufferValid = false)
      (elsewhere : ebi.trxCurrentState ≠ .waitRContent ∧ ebi.trxCurrentState ≠ .rResp) :
    Progress ebi []
  | filling (beats : List (BitVec 64 × BitVec 2))
      (waits : ebi.trxCurrentState = .waitRContent)
      (count : ebi.read.rBufFillCount = beats.length) (short : beats.length < 512 / 64)
      (valid : ebi.read.rBufferValid = true ↔ beats.length = 512 / 64 - 1)
      (holds : Holds ebi.read.rBuffer beats) : Progress ebi [⟨beats, []⟩]
  | answering (beats : List (BitVec 64 × BitVec 2)) (answers : ebi.answers = true)
      (count : ebi.read.rBufFillCount = 512 / 64) (carries : CarriesLine ebi.read.rBuffer beats) :
    Progress ebi [⟨beats, []⟩]
  | answered (beats : List (BitVec 64 × BitVec 2)) (frame : BitVec 560)
      (carries : CarriesLine frame beats) (count : ebi.read.rBufFillCount = 512 / 64)
      (invalid : ebi.read.rBufferValid = false)
      (elsewhere : ebi.trxCurrentState ≠ .waitRContent ∧ ebi.answers = false) :
    Progress ebi [⟨beats, [frame]⟩]
  | hanging (beats : List (BitVec 64 × BitVec 2)) (frame : BitVec 560)
      (carries : CarriesLine frame beats) (count : ebi.read.rBufFillCount = 512 / 64)
      (invalid : ebi.read.rBufferValid = false) (waits : ebi.trxCurrentState = .waitRContent) :
    Progress ebi [⟨[], []⟩, ⟨beats, [frame]⟩]

section Cycle

variable {ebi : OuterEbi} {cycle : OuterCycle} {reads : List LineRead}

/-- One more beat in its place. -/
theorem holds_put {buffer : BitVec 560} {beats : List (BitVec 64 × BitVec 2)} (head : BitVec 32)
    (rdata : BitVec 64) (mesiSta : BitVec 2) (short : beats.length < 512 / 64)
    (holds : Holds buffer beats) :
    Holds
      (put (put (put buffer 0 head) (2 * 16 + 512) (mesiSta.setWidth 16 : Beat))
        (2 * 16 + beats.length * 64) rdata)
      (beats ++ [(rdata, mesiSta)]) where
  data := by
    intro index beat found
    rcases Nat.lt_trichotomy index beats.length with before | rfl | behind
    · rw [List.getElem?_append_left before] at found
      rw [extract_put_of_disjoint _ _ _ (.inl (by omega)),
        extract_put_of_disjoint _ _ _ (.inl (by omega)),
        extract_put_of_disjoint _ _ _ (.inr (by omega))]
      exact holds.data index beat found
    · rw [List.getElem?_concat_length, Option.some.injEq] at found
      subst found
      exact extract_put _ _ _ (by omega)
    · rw [List.getElem?_eq_none (by simp; omega)] at found
      cases found
  state := by
    intro beat found
    rw [List.getLast?_concat, Option.some.injEq] at found
    subst found
    rw [extract_put_of_disjoint _ _ _ (.inr (by omega))]
    exact extract_put _ _ _ (by omega)

theorem head_put {buffer : BitVec 560} (head : BitVec 32) (mesiSta : BitVec 2)
    (rdata : BitVec 64) (count : Nat) :
    (put (put (put buffer 0 head) (2 * 16 + 512) (mesiSta.setWidth 16 : Beat))
      (2 * 16 + count * 64) rdata).extractLsb' 0 32 = head :=
  (extract_put_behind _ _ (by omega)).trans
    ((extract_put_behind _ _ (by omega)).trans (extract_put _ 0 _ (by omega)))

/-- Outside of the state that waits for beats no beat is taken. -/
theorem readNext_elsewhere (input : OuterInput) (elsewhere : ebi.trxCurrentState ≠ .waitRContent) :
    ebi.readNext input =
      if ebi.answers then { ebi.read with rBufferValid := false } else ebi.read := by
  simp [readNext, rready, answers, elsewhere]

theorem readEvents_elsewhere (elsewhere : ebi.trxCurrentState ≠ .waitRContent)
    (silent : ebi.answers = false) : ebi.readEvents cycle =
      if cycle.input.arready && ebi.arvalid then [.accepted] else [] := by
  simp [readEvents, silent, rready, elsewhere]

/-- Beats are waited for once a read has been accepted. -/
theorem waits_iff_accepted (elsewhere : ebi.trxCurrentState ≠ .waitRContent) :
    ebi.trxNextState cycle.input = .waitRContent ↔
      (cycle.input.arready && ebi.arvalid) = true := by
  constructor
  · intro waits
    have move := trxNextState_moves ebi cycle.input
    rw [waits] at move
    generalize state : ebi.trxCurrentState = current at move elsewhere
    cases move with
    | stay => exact absurd rfl elsewhere
    | waitRContent accepted => exact accepted
  · intro accepted
    simp only [arvalid, Bool.and_eq_true, beq_iff_eq, Bool.not_eq_true'] at accepted
    simp [trxNextState, arvalid, accepted]

/-- A response starts from the state that waits for beats. -/
theorem next_ne_rResp (elsewhere : ebi.trxCurrentState ≠ .waitRContent)
    (other : ebi.trxCurrentState ≠ .rResp) : ebi.trxNextState cycle.input ≠ .rResp := by
  intro responds
  have move := trxNextState_moves ebi cycle.input
  rw [responds] at move
  generalize ebi.trxCurrentState = current at move elsewhere other
  cases move with
  | stay => exact other rfl
  | rResp => exact elsewhere rfl

/-- While it waits without a complete line, the machine goes on waiting. -/
theorem next_of_invalid (waits : ebi.trxCurrentState = .waitRContent)
    (invalid : ebi.read.rBufferValid = false) :
    ebi.trxNextState cycle.input = .waitRContent := by
  cases owns : ebi.bus.currentBusOccupy <;> simp [trxNextState, owns, waits, invalid]

/-- A machine that gets no beat goes on waiting: the last beat comes at once. -/
theorem stays_of_unsupplied {beats : List (BitVec 64 × BitVec 2)}
    (waits : ebi.trxCurrentState = .waitRContent) (prompt : ebi.Prompt cycle)
    (count : ebi.read.rBufFillCount = beats.length)
    (valid : ebi.read.rBufferValid = true ↔ beats.length = 512 / 64 - 1)
    (unsupplied : ¬(cycle.input.rvalid && ebi.rready) = true) :
    ebi.trxNextState cycle.input = .waitRContent := by
  cases owns : ebi.bus.currentBusOccupy with
  | true => simp [trxNextState, owns, waits]
  | false =>
    apply next_of_invalid waits
    by_contra complete
    rw [Bool.not_eq_false] at complete
    have ready : ebi.rready = true := by simp [rready, waits, owns]
    have supplied := (prompt ready).2 (count.trans (valid.mp complete))
    exact unsupplied (by rw [supplied, ready]; rfl)

/-- A beat that is supplied takes its place; the last one is followed by the answer. -/
theorem progress_supplied {beats : List (BitVec 64 × BitVec 2)}
    (waits : ebi.trxCurrentState = .waitRContent)
    (count : ebi.read.rBufFillCount = beats.length) (short : beats.length < 512 / 64)
    (valid : ebi.read.rBufferValid = true ↔ beats.length = 512 / 64 - 1)
    (holds : Holds ebi.read.rBuffer beats)
    (supplied : (cycle.input.rvalid && ebi.rready) = true) :
    (ebi.posedge cycle.input cycle.busSwitchI cycle.ebiI).Progress
      [⟨beats ++ [(cycle.input.rdata, cycle.input.mesiSta)], []⟩] := by
  rw [Bool.and_eq_true] at supplied
  have slave : ebi.bus.currentBusOccupy = false := by
    simpa [rready, waits] using supplied.2
  have same : ebi.readNext cycle.input =
      { rBufferValid := ebi.read.rBufferValid || ebi.read.rBufFillCount == 6
        rBuffer :=
          put (put (put ebi.read.rBuffer 0 (frameHead slaveRdResp))
            (2 * 16 + 512) (cycle.input.mesiSta.setWidth 16 : Beat))
            (2 * 16 + beats.length * 64) cycle.input.rdata
        rBufFillCount := beats.length + 1 } := by
    rw [← count]
    rcases readNext_cases ebi cycle.input with ⟨-, -, -, -, same⟩ | ⟨-, responds, -⟩ |
      ⟨untaken, -⟩
    · exact same
    · rw [waits] at responds
      cases responds
    · exact absurd ⟨supplied.2, supplied.1, by rw [count]; exact short⟩ untaken
  by_cases last : beats.length = 512 / 64 - 1
  · have responds : ebi.trxNextState cycle.input = .rResp := by
      simp [trxNextState, slave, waits, valid.mpr last]
    apply Progress.answering
    · change (ebi.trxCurrentState == .waitRContent &&
        ebi.trxNextState cycle.input == .rResp) = true
      rw [waits, responds]
      rfl
    · change (ebi.readNext cycle.input).rBufFillCount = _
      rw [same, last]
    · change CarriesLine (ebi.readNext cycle.input).rBuffer _
      rw [same]
      refine ⟨by simp [last], head_put _ _ _ _, holds_put _ _ _ short holds⟩
  · have invalid : ebi.read.rBufferValid = false := by
      rw [← Bool.not_eq_true, valid]
      exact last
    apply Progress.filling
    · exact next_of_invalid waits invalid
    · change (ebi.readNext cycle.input).rBufFillCount = _
      rw [same]
      simp
    · rw [List.length_append, List.length_singleton]
      omega
    · change (ebi.readNext cycle.input).rBufferValid = true ↔ _
      rw [same, invalid, count]
      simp
    · change Holds (ebi.readNext cycle.input).rBuffer _
      rw [same]
      exact holds_put _ _ _ short holds

variable (ebi) in
/-- What one cycle does to the reads. -/
theorem progress_posedge (progress : ebi.Progress reads) (prompt : ebi.Prompt cycle) :
    (ebi.posedge cycle.input cycle.busSwitchI cycle.ebiI).Progress
      ((ebi.readEvents cycle).foldl ReadEvent.record reads) := by
  cases progress with
  | none empty invalid elsewhere =>
    have silent : ebi.answers = false := by simp [answers, elsewhere]
    have same := readNext_elsewhere cycle.input elsewhere.1
    rw [silent, if_neg Bool.false_ne_true] at same
    rw [readEvents_elsewhere elsewhere.1 silent]
    by_cases accepted : (cycle.input.arready && ebi.arvalid) = true
    · rw [if_pos accepted]
      apply Progress.filling []
      · exact (waits_iff_accepted elsewhere.1).mpr accepted
      · exact (congrArg ReadBuffer.rBufFillCount same).trans empty
      · decide
      · have kept : (ebi.readNext cycle.input).rBufferValid = false := by rw [same, invalid]
        change (ebi.readNext cycle.input).rBufferValid = true ↔ _
        rw [kept]
        decide
      · constructor <;> simp
    · rw [if_neg accepted]
      apply Progress.none
      · exact (congrArg ReadBuffer.rBufFillCount same).trans empty
      · exact (congrArg ReadBuffer.rBufferValid same).trans invalid
      · exact ⟨fun waits => accepted ((waits_iff_accepted elsewhere.1).mp waits),
          next_ne_rResp elsewhere.1 elsewhere.2⟩
  | filling beats waits count short valid holds =>
    have silent : ebi.answers = false := by simp [answers, waits]
    have unaccepted : (cycle.input.arready && ebi.arvalid) = false := by simp [arvalid, waits]
    by_cases supplied : (cycle.input.rvalid && ebi.rready) = true
    · have events : ebi.readEvents cycle =
          [.supplied cycle.input.rdata cycle.input.mesiSta] := by
        simp only [readEvents, silent, supplied, Bool.false_eq_true, if_true, if_false]
      rw [events]
      exact progress_supplied waits count short valid holds supplied
    · have events : ebi.readEvents cycle = [] := by
        simp only [readEvents, silent, supplied, unaccepted, Bool.false_eq_true, if_false]
      have same : ebi.readNext cycle.input = ebi.read := by
        simp only [readNext, supplied, waits, Bool.false_eq_true, if_false]
        simp
      rw [events]
      apply Progress.filling beats
      · exact stays_of_unsupplied waits prompt count valid supplied
      · exact (congrArg ReadBuffer.rBufFillCount same).trans count
      · exact short
      · change (ebi.readNext cycle.input).rBufferValid = true ↔ _
        rw [same]
        exact valid
      · change Holds (ebi.readNext cycle.input).rBuffer beats
        rw [same]
        exact holds
  | answering beats responds count carries =>
    have now := responds
    simp only [answers, Bool.and_eq_true, beq_iff_eq] at now
    have elsewhere : ebi.trxCurrentState ≠ .waitRContent := by rw [now.2]; decide
    have events : ebi.readEvents cycle = [.answered ebi.read.rBuffer] := by
      simp only [readEvents, responds, if_true]
    have same := readNext_elsewhere cycle.input elsewhere
    rw [if_pos responds] at same
    rw [events]
    apply Progress.answered beats ebi.read.rBuffer carries
    · exact (congrArg ReadBuffer.rBufFillCount same).trans count
    · exact congrArg ReadBuffer.rBufferValid same
    · constructor
      · intro waits
        have accepted := (waits_iff_accepted elsewhere).mp waits
        simp [arvalid, now.2] at accepted
      · change (ebi.trxCurrentState == .waitRContent && _) = false
        simp [elsewhere]
  | answered beats frame carries count invalid elsewhere =>
    have same := readNext_elsewhere cycle.input elsewhere.1
    rw [elsewhere.2, if_neg Bool.false_ne_true] at same
    rw [readEvents_elsewhere elsewhere.1 elsewhere.2]
    by_cases accepted : (cycle.input.arready && ebi.arvalid) = true
    · rw [if_pos accepted]
      apply Progress.hanging beats frame carries
      · exact (congrArg ReadBuffer.rBufFillCount same).trans count
      · exact (congrArg ReadBuffer.rBufferValid same).trans invalid
      · exact (waits_iff_accepted elsewhere.1).mpr accepted
    · rw [if_neg accepted]
      apply Progress.answered beats frame carries
      · exact (congrArg ReadBuffer.rBufFillCount same).trans count
      · exact (congrArg ReadBuffer.rBufferValid same).trans invalid
      · refine ⟨fun waits => accepted ((waits_iff_accepted elsewhere.1).mp waits), ?_⟩
        change (ebi.trxCurrentState == .waitRContent && _) = false
        simp [elsewhere.1]
  | hanging beats frame carries count invalid waits =>
    have silent : ebi.answers = false := by simp [answers, waits]
    have unsupplied : (cycle.input.rvalid && ebi.rready) = false := by
      by_contra supplied
      simp only [Bool.not_eq_false, Bool.and_eq_true] at supplied
      have room := (prompt supplied.2).1 supplied.1
      rw [count] at room
      exact absurd room (by decide)
    have events : ebi.readEvents cycle = [] := by
      simp [readEvents, silent, unsupplied, arvalid, waits]
    have same : ebi.readNext cycle.input = ebi.read := by
      simp [readNext, unsupplied, waits]
    rw [events]
    apply Progress.hanging beats frame carries
    · exact (congrArg ReadBuffer.rBufFillCount same).trans count
    · exact (congrArg ReadBuffer.rBufferValid same).trans invalid
    · exact next_of_invalid waits invalid

theorem progress_negedge (progress : ebi.Progress reads) :
    (ebi.negedge cycle.input).Progress reads := by
  cases progress with
  | none empty invalid elsewhere => exact .none empty invalid elsewhere
  | filling beats waits count short valid holds => exact .filling beats waits count short valid holds
  | answering beats responds count carries => exact .answering beats responds count carries
  | answered beats frame carries count invalid elsewhere =>
    exact .answered beats frame carries count invalid elsewhere
  | hanging beats frame carries count invalid waits =>
    exact .hanging beats frame carries count invalid waits

theorem readsAnswered_of_progress (progress : ebi.Progress reads) : ebi.ReadsAnswered reads := by
  cases progress with
  | none empty invalid elsewhere => constructor <;> simp
  | filling beats waits count short valid holds =>
    refine ⟨by simp, by simp, by simp, ?_, fun other => absurd waits other⟩
    intro _ read newest full
    obtain rfl : read = ⟨beats, []⟩ := by simpa using newest.symm
    exact absurd full (Nat.ne_of_lt short)
  | answering beats responds count carries =>
    refine ⟨by simp, by simp, by simp, ?_, ?_⟩
    · intro waits
      simp [answers, waits] at responds
    · intro _ silent
      rw [responds] at silent
      cases silent
  | answered beats frame carries count invalid elsewhere =>
    refine ⟨by simp, by simpa using carries, by simp, fun waits => absurd waits elsewhere.1, ?_⟩
    simp
  | hanging beats frame carries count invalid waits =>
    refine ⟨by simp, by simpa using carries, by simp, by simp, fun other => absurd waits other⟩

end Cycle

end OuterEbi

/-- In every run in which beats come promptly and for the first read only, every read is answered
with its line. -/
theorem outer_reads_answered {cycles : List OuterCycle}
    (prompt : OuterEbi.machine.Obeys OuterEbi.Prompt cycles) :
    (OuterEbi.machine.run cycles).ReadsAnswered
      (lineReads (OuterEbi.machine.log OuterEbi.readEvents cycles)) := by
  apply OuterEbi.readsAnswered_of_progress
  apply OuterEbi.machine.obeys_invariant OuterEbi.Prompt OuterEbi.readEvents
    (fun ebi events => ebi.Progress (lineReads events)) _ _ cycles prompt
  · exact .none rfl rfl ⟨by decide, by decide⟩
  · intro ebi events cycle prompt progress
    rw [lineReads_append]
    exact OuterEbi.progress_posedge (ebi.negedge cycle.input)
      (OuterEbi.progress_negedge progress) prompt

/-- A cycle with a beat from the inner side, a ready memory, and perhaps a beat of a line. -/
def outerCycle (ebiI : Beat) (rvalid : Bool) (rdata : BitVec 64) : OuterCycle :=
  ⟨⟨true, true, true, rvalid, rdata, 1, false, 0, 0, false⟩, false, ebiI⟩

/-- A read request from the inner side, and eight beats as soon as the outer side takes them. -/
def outerRead (rdata : BitVec 64) : List OuterCycle :=
  ([0, 0, 0x1040, 0x8000, 0, idleBeat, idleBeat, idleBeat] : List Beat).map
      (fun beat => outerCycle beat false 0) ++
    List.replicate 8 (outerCycle idleBeat true rdata)

theorem outer_reads_answered_witness :
    (OuterEbi.machine.run (outerRead 5)).ReadsAnswered
      (lineReads (OuterEbi.machine.log OuterEbi.readEvents (outerRead 5))) :=
  outer_reads_answered (by decide +kernel)

/-- The second read since reset gets its whole line and hangs. -/
theorem outer_second_read_hangs :
    ¬∀ cycles : List OuterCycle, (OuterEbi.machine.run cycles).ReadsAnswered
      (lineReads (OuterEbi.machine.log OuterEbi.readEvents cycles)) := by
  intro claim
  have answered := claim (outerRead 5 ++ List.replicate 40 (outerCycle idleBeat false 0) ++ outerRead 6)
  have complete : (lineReads (OuterEbi.machine.log OuterEbi.readEvents
      (outerRead 5 ++ List.replicate 40 (outerCycle idleBeat false 0) ++ outerRead 6))).head?.map
        (fun read => read.beats.length) = some 8 := by decide +kernel
  obtain ⟨read, newest, whole⟩ := Option.map_eq_some_iff.mp complete
  have valid := answered.ready (by decide +kernel) read newest whole
  revert valid
  decide +kernel

end GreenRio
