import GreenRio.BufferLines

set_option autoImplicit false

namespace GreenRio

open Circular

/-- The instruction memory, halfword by halfword. -/
abbrev Image := BitVec 38 → BitVec 16

namespace Image

variable (image : Image)

/-- The halfword at an address. -/
def half (pc : Pc) : BitVec 16 := image (pc.extractLsb' 1 38)

/-- The halfwords of the line of an address. -/
def line (pc : Pc) (half : Fin 8) : BitVec 16 := image (Fetch.lineOf pc ++ BitVec.ofNat 3 half.val)

/-- The instruction at an address, one halfword or two. -/
def word (pc : Pc) : BitVec 32 := FetchUnit.word (image.half pc) (image.half (pc + 2))

variable {image}

/-- The second halfword counts only if the first one is not an instruction by itself. -/
theorem word_eq {low high : BitVec 16} {pc : Pc} (first : low = image.half pc)
    (second : FetchUnit.isRvc low = false → high = image.half (pc + 2)) :
    FetchUnit.word low high = image.word pc := by
  rw [word, ← first, FetchUnit.word, FetchUnit.word]
  split
  · rfl
  · rename_i long
    rw [second (by simpa using long)]

theorem half_eq_line (pc : Pc) : image.half pc = image.line pc (Fetch.halfOf pc) := by
  unfold half line
  congr 1
  apply BitVec.eq_of_toNat_eq
  have bound := pc.isLt
  simp only [Fetch.lineOf, Fetch.halfOf_val, BitVec.toNat_append, BitVec.toNat_ofNat,
    BitVec.extractLsb'_toNat, Nat.shiftRight_eq_div_pow]
  rw [Nat.shiftLeft_eq, ← Nat.mul_comm, ← Nat.two_pow_add_eq_or_of_lt (by omega)]
  omega

theorem line_congr {pc other : Pc} (same : Fetch.lineOf pc = Fetch.lineOf other) :
    image.line pc = image.line other := by
  funext half
  rw [line, line, same]

theorem line_lineStart (pc : Pc) : image.line (Fetch.lineStart pc) = image.line pc :=
  line_congr (Fetch.lineOf_lineStart pc)

/-- A halfword some places behind an address, in its line or in the one behind it. -/
theorem half_add (pc : Pc) {count : Nat} (short : count ≤ 8) :
    image.half (pc + BitVec.ofNat 39 (2 * count)) =
      image.line (if (Fetch.halfOf pc).val + count < 8 then Fetch.lineStart pc
        else Fetch.lineStart pc + 16) (advance (Fetch.halfOf pc) count) := by
  rw [half_eq_line, ← line_lineStart, Fetch.lineStart_add pc short]
  congr 1
  apply Fin.ext
  rw [Fetch.halfOf_add pc count short]
  rfl

end Image

/-- Fetch with the requests that the instruction cache has accepted and not answered, the oldest
first. -/
structure FetchBus where
  unit : FetchUnit
  asked : List Pc

/-- An answer arrives and is handed on or stored. -/
def FetchUnit.takes (unit : FetchUnit) (input : FetchInput) : Bool :=
  unit.ifBypass input || unit.fetchIncoming input || unit.prefetchIncoming input

namespace FetchBus

section Signals

variable (bus : FetchBus) (input : FetchInput)

/-- `fetch_l1i_if_req_vld_o`, taken by the cache. -/
def accepts : Bool := !input.flush && bus.unit.fetchReqVld && input.l1iReqRdy

/-- Each request is answered once, in order; a flush does not take one back. -/
def askedNext : List Pc :=
  (if input.respVld then bus.asked.tail else bus.asked) ++
    if bus.accepts input then [bus.unit.fetchReqPc] else []

def step : FetchBus where
  unit := bus.unit.step input
  asked := bus.askedNext input

/-- What is assumed of the cache: an answer is the line of the oldest request. -/
def Answers (image : Image) : Prop :=
  input.respVld = true → ∃ pc ∈ bus.asked.head?, ∀ half, input.line half = image.line pc half

/-- The instructions that are handed over are those of the memory at their addresses. -/
structure Delivers (image : Image) : Prop where
  first : bus.unit.hasFirstInst input = true →
    bus.unit.firstWord input = image.word bus.unit.pc
  second : bus.unit.hasFullInst input = true →
    bus.unit.secondWord input =
      image.word (Fetch.pcSecond (bus.unit.supply input) bus.unit.pc)

/-- The cycles in which answers are taken for what they are, and fetch goes on in sequence: an
answer that is handed on or stored is to a request for the line that the response pc names, which is
the line that it is stored for; nothing is handed on of a line that has not been requested; and no
line is left that arrived without its translation. -/
structure Fits : Prop where
  sequential : bus.unit.insHit input = true →
    input.predictors.predictPcFromPred bus.unit.pc = true →
      input.predictors.nextPcOut bus.unit.pc = Fetch.sequentialPc (bus.unit.supply input)
        bus.unit.pc (bus.unit.hasFirstInst input) (bus.unit.hasFullInst input)
  named : input.flush = false → bus.unit.takes input = true → ∀ pc ∈ bus.asked.head?,
    Fetch.lineOf pc = Fetch.lineOf bus.unit.fetchRespPc
  awaited : input.flush = false → bus.unit.fetchIncoming input = true →
    Fetch.lineOf bus.unit.fetchRespPc = Fetch.lineOf bus.unit.pc
  prefetched : input.flush = false → bus.unit.prefetchIncoming input = true →
    Fetch.lineOf bus.unit.fetchRespPc = Fetch.lineOf bus.unit.prefetchVpc
  requested : input.flush = false → bus.unit.ifBypass input = true →
    bus.unit.fetched bus.unit.popLine = true
  translated : input.flush = false → bus.unit.ifBypass input = true →
    bus.unit.popEnable input = true → input.itlbMiss = false

end Signals

def machine : Synchronous FetchBus FetchInput := ⟨⟨FetchUnit.reset, []⟩, step⟩

end FetchBus

namespace FetchUnit

variable {unit : FetchUnit} {input : FetchInput} {image : Image}

/-- The lines in the buffer are those of the memory. -/
def Contains (unit : FetchUnit) (image : Image) : Prop :=
  ∀ line, unit.valid line = true → ∀ half,
    unit.instBuffer (pointerOf line half) = image.line (unit.basePc line) half

namespace Contains

variable {line next : BufferLine}

theorem request (contains : unit.Contains image) (free : unit.valid line = false) (pc : Pc) :
    (unit.request line pc).Contains image := by
  intro other valid half
  have apart : other ≠ line := by
    rintro rfl
    rw [FetchUnit.request, free] at valid
    cases valid
  simp only [FetchUnit.request, Function.update_of_ne apart]
  exact contains other valid half

theorem fill (contains : unit.Contains image)
    (arrives : ∀ half, input.line half = image.line (unit.basePc line) half) :
    (unit.fill input line next).Contains image := by
  intro other valid half
  by_cases same : other = line
  · subst same
    simp [FetchUnit.fill, lineAt_pointerOf, halfAt_pointerOf, arrives]
  · simp only [FetchUnit.fill, Function.update_of_ne same] at valid
    simp only [FetchUnit.fill, lineAt_pointerOf, if_neg same]
    exact contains other valid half

theorem release (contains : unit.Contains image) : (unit.release line).Contains image := by
  intro other valid half
  by_cases same : other = line
  · subst same
    simp [FetchUnit.release] at valid
  · simp only [FetchUnit.release, Function.update_of_ne same] at valid
    simp only [FetchUnit.release, lineAt_pointerOf, if_neg same]
    exact contains other valid half

end Contains

theorem fetched_next_of_valid (stage : unit.Stage unit.popLine unit.nextPopLine)
    (valid : unit.valid unit.nextPopLine = true) : unit.fetched unit.nextPopLine = true := by
  cases stage with
  | idle _ next => simp [next] at valid
  | fetching _ next => simp [next] at valid
  | held _ next => simp [next] at valid
  | prefetching _ next => simp [next] at valid
  | both _ next => exact next.2

theorem popLine_eq_lineAt_iff (unit : FetchUnit) {count : Nat} (short : count ≤ 8) :
    unit.popLine = lineAt (advance unit.popPtr count) ↔
      (halfAt unit.popPtr).val + count < 8 := by
  have apart := unit.nextPopLine_ne
  rw [lineAt_advance unit.popPtr short]
  split
  · rename_i inside
    exact iff_of_true rfl inside
  · rename_i outside
    exact iff_of_false apart.symm outside

/-- How far two instructions in a line reach. -/
theorem reach_of_inALine (inside : unit.inALine input = true) :
    (halfAt unit.popPtr).val + 1 < 8 ∧
      (unit.isRvFirst input = true ∨ unit.isRvSecond input = true →
        (halfAt unit.popPtr).val + 2 < 8) ∧
      (unit.isRvFirst input = true ∧ unit.isRvSecond input = true →
        (halfAt unit.popPtr).val + 3 < 8) := by
  have second := popLine_eq_lineAt_iff unit (show 1 ≤ 8 by omega)
  have third := popLine_eq_lineAt_iff unit (show 2 ≤ 8 by omega)
  have fourth := popLine_eq_lineAt_iff unit (show 3 ≤ 8 by omega)
  simp only [inALine, bne_iff_ne, Bool.and_eq_true, Bool.or_eq_true] at inside
  split_ifs at inside with leavesFirst leavesSecond leavesThird
  have same := not_not.mp leavesFirst
  have reach := second.mp same
  have further : unit.isRvFirst input = true ∨ unit.isRvSecond input = true →
      lineAt (advance unit.popPtr 1) = lineAt (advance unit.popPtr 2) := fun long =>
    not_not.mp fun apart => leavesSecond ⟨apart, long⟩
  refine ⟨reach, fun long => third.mp (same.trans (further long)), fun long => fourth.mp ?_⟩
  refine (same.trans (further (.inl long.1))).trans ?_
  exact not_not.mp fun apart => leavesThird ⟨apart, long⟩

theorem takes_bypass (bypass : unit.ifBypass input = true) : unit.takes input = true := by
  simp [takes, bypass]

theorem takes_fetch (incoming : unit.fetchIncoming input = true) : unit.takes input = true := by
  simp [takes, incoming]

theorem takes_prefetch (incoming : unit.prefetchIncoming input = true) :
    unit.takes input = true := by
  simp [takes, incoming]

theorem respVld_of_takes (taken : unit.takes input = true) : input.respVld = true := by
  simp only [takes, ifBypass, fetchIncoming, prefetchIncoming, Bool.or_eq_true,
    Bool.and_eq_true] at taken
  rcases taken with (⟨arrives, -⟩ | ⟨-, -, arrives⟩) | ⟨-, -, arrives⟩ <;> exact arrives

end FetchUnit

namespace FetchBus

open FetchUnit

variable {bus : FetchBus} {input : FetchInput} {image : Image}

/-- The invariant: the lines and the pop pointer keep step with the fetch address, the lines are
those of the memory, and a line at the pop pointer is read from the buffer. -/
structure Sound (image : Image) (bus : FetchBus) : Prop where
  aligned : Aligned bus.unit
  contains : bus.unit.Contains image
  warm : bus.unit.valid bus.unit.popLine = true → bus.unit.icachePrefetchValid = true

section Cycle

variable (sound : bus.Sound image) (answers : bus.Answers input image) (fits : bus.Fits input)

include answers fits

/-- An answer that is taken is the line that the response pc names. -/
theorem line_eq (calm : input.flush = false) (taken : bus.unit.takes input = true) :
    input.line = image.line bus.unit.fetchRespPc := by
  obtain ⟨pc, oldest, same⟩ := answers (respVld_of_takes taken)
  funext half
  rw [same, Image.line_congr (fits.named calm taken pc oldest)]

/-- A line that is handed on is that of the fetch address. -/
theorem line_bypassed (calm : input.flush = false) (bypass : bus.unit.ifBypass input = true) :
    input.line = image.line bus.unit.pc := by
  rw [line_eq answers fits calm (takes_bypass bypass)]
  apply Image.line_congr
  simp only [ifBypass, Bool.and_eq_true, beq_iff_eq] at bypass
  exact bypass.2

include sound

theorem refill_contains (calm : input.flush = false) :
    (bus.unit.refill input).Contains image := by
  have apart := bus.unit.nextPopLine_ne
  have fetched (requested : bus.unit.fetched bus.unit.popLine = true)
      (incoming : bus.unit.fetchIncoming input = true) (half : Fin 8) :
      input.line half = image.line (bus.unit.basePc bus.unit.popLine) half := by
    rw [line_eq answers fits calm (takes_fetch incoming), sound.aligned.bases.pop requested,
      Image.line_lineStart, Image.line_congr (fits.awaited calm incoming)]
  have refills := sound.aligned.stage.refills input
  generalize bus.unit.refill input = after at refills ⊢
  cases refills with
  | waits => exact sound.contains
  | fetches pop => exact sound.contains.request pop.1 _
  | fills pop _ incoming => exact sound.contains.fill (fetched pop.2 incoming)
  | fillsAhead pop next incoming =>
    apply (sound.contains.fill (fetched pop.2 incoming)).request
    simp [fill, next, apart]
  | prefetches _ next => exact sound.contains.request next.1 _
  | completes _ next incoming =>
    apply sound.contains.fill
    intro half
    rw [line_eq answers fits calm (takes_prefetch incoming), sound.aligned.bases.next next.2,
      ← lineStart_prefetchVpc, Image.line_lineStart,
      Image.line_congr (fits.prefetched calm incoming)]

omit answers in
/-- A line that is stored at the pop pointer is handed on in the same cycle. -/
theorem insHit_of_refill_valid (calm : input.flush = false)
    (valid : (bus.unit.refill input).valid bus.unit.popLine = true) :
    bus.unit.insHit input = true := by
  have apart := bus.unit.nextPopLine_ne
  have arriving (incoming : bus.unit.fetchIncoming input = true) :
      bus.unit.insHit input = true := by
    have named := fits.awaited calm incoming
    have arrives := respVld_of_takes (takes_fetch incoming)
    simp [insHit, calm, ifBypass, arrives, named]
  have refills := sound.aligned.stage.refills input
  generalize bus.unit.refill input = after at refills valid
  cases refills with
  | waits => exact sound.aligned.insHit_of_valid calm valid
  | fetches pop => simp [FetchUnit.request, pop] at valid
  | fills _ _ incoming => exact arriving incoming
  | fillsAhead _ _ incoming => exact arriving incoming
  | prefetches pop => exact sound.aligned.insHit_of_valid calm pop.1
  | completes pop => exact sound.aligned.insHit_of_valid calm pop.1

omit answers in
theorem step_warm (calm : input.flush = false) :
    (bus.unit.step input).valid (bus.unit.step input).popLine = true →
      (bus.unit.step input).icachePrefetchValid = true := by
  intro valid
  have hits : (bus.unit.step input).icachePrefetchValid = bus.unit.insHit input := by
    simp [FetchUnit.step, calm]
  rw [hits, ← Bool.not_eq_false]
  intro miss
  rw [step_popLine_miss calm miss, (step_lines calm).valid, turned_miss miss] at valid
  rw [insHit_of_refill_valid sound fits calm valid] at miss
  cases miss

omit answers in
/-- A line that is left has been stored. -/
theorem refill_valid_of_leaves (calm : input.flush = false)
    (leaves : bus.unit.popEnable input = true) :
    (bus.unit.refill input).valid bus.unit.popLine = true := by
  have hit : bus.unit.insHit input = true := by
    rw [← Bool.not_eq_false]
    intro miss
    rw [popEnable_miss miss] at leaves
    cases leaves
  exact refill_valid sound.aligned.stage hit (fits.requested calm) fun bypass =>
    fits.translated calm bypass leaves

omit answers in
theorem step_aligned : Aligned (bus.unit.step input) := by
  cases flush : input.flush
  · cases hit : bus.unit.insHit input
    · exact sound.aligned.step_miss flush hit
    · apply sound.aligned.step_hit hit
      · exact predictPc_eq (fits.sequential hit)
      · exact fetched_of_insHit sound.aligned.stage hit (fits.requested flush)
      · exact refill_valid_of_leaves sound fits flush
  · exact step_flush_aligned flush

theorem step_contains : (bus.unit.step input).Contains image := by
  cases flush : input.flush
  · have turned : (bus.unit.turned input).Contains image := by
      unfold FetchUnit.turned
      split
      · exact (refill_contains sound answers fits flush).release
      · exact refill_contains sound answers fits flush
    have lines := @step_lines bus.unit input flush
    have buffer : (bus.unit.step input).instBuffer = (bus.unit.turned input).instBuffer := by
      simp [FetchUnit.step, flush]
    intro line valid half
    rw [lines.valid] at valid
    rw [buffer, lines.basePc]
    exact turned line valid half
  · intro line valid
    simp [FetchUnit.step, flush, FetchUnit.reset] at valid

theorem Sound.step : (bus.step input).Sound image where
  aligned := step_aligned sound fits
  contains := step_contains sound answers fits
  warm := by
    cases flush : input.flush
    · exact step_warm sound fits flush
    · intro valid
      simp [FetchBus.step, FetchUnit.step, flush, FetchUnit.reset] at valid

section Words

variable (calm : input.flush = false) (hit : bus.unit.insHit input = true)

include calm hit

/-- The halfwords from the fetch address on, as far as the line at the pop pointer reaches, and
beyond once the other one is there. -/
theorem element_eq (number : Fin 4)
    (reach : (Fetch.halfOf bus.unit.pc).val + number.val < 8 ∨
      bus.unit.valid bus.unit.nextPopLine = true) :
    bus.unit.element input number =
      image.half (bus.unit.pc + BitVec.ofNat 39 (2 * number.val)) := by
  have stage := sound.aligned.stage
  have requested := fetched_of_insHit stage hit (fits.requested calm)
  have half := sound.aligned.half requested
  have short : number.val ≤ 8 := by omega
  have beyond (valid : bus.unit.valid bus.unit.nextPopLine = true) (half : Fin 8) :
      bus.unit.instBuffer (pointerOf bus.unit.nextPopLine half) =
        image.line (Fetch.lineStart bus.unit.pc + 16) half := by
    rw [sound.contains _ valid, sound.aligned.bases.next (fetched_next_of_valid stage valid)]
  rw [Image.half_add bus.unit.pc short, element, half]
  cases bypass : bus.unit.ifBypass input
  · have valid : bus.unit.valid bus.unit.popLine = true := by
      simpa [bypass] using ifBypass_or_valid hit
    have place : advance bus.unit.popPtr number.val =
        pointerOf (lineAt (advance bus.unit.popPtr number.val))
          (advance (Fetch.halfOf bus.unit.pc) number.val) := by
      rw [← half]
      apply Fin.ext
      simp only [pointerOf, lineAt, halfAt, advance]
      omega
    rw [if_neg (by simp), if_pos (sound.warm valid), place, lineAt_advance _ short, half]
    split
    · rw [show lineAt bus.unit.popPtr = bus.unit.popLine from rfl, sound.contains _ valid,
        sound.aligned.bases.pop requested]
    · rename_i outside
      exact beyond (reach.resolve_left outside) _
  · rw [if_pos rfl]
    split
    · rename_i inside
      rw [line_bypassed answers fits calm bypass, Image.line_lineStart]
      congr 1
      apply Fin.ext
      simp only [advance]
      omega
    · rename_i outside
      exact beyond (reach.resolve_left outside) _

end Words

/-- The first instruction is complete, in its line or with the next one. -/
theorem delivers_first (first : bus.unit.hasFirstInst input = true) :
    bus.unit.firstWord input = image.word bus.unit.pc := by
  have hit := hasFirstInst_insHit first
  have calm := insHit_calm hit
  have half := sound.aligned.half
    (fetched_of_insHit sound.aligned.stage hit (fits.requested calm))
  have element := element_eq sound answers fits calm hit
  have start : bus.unit.element input 0 = image.half bus.unit.pc := by
    simpa using element 0 (.inl (by simp))
  refine Image.word_eq start fun long => element 1 ?_
  rw [hasFirstInst, firstPresent, Bool.and_eq_true] at first
  simp only [hit, long, Bool.true_and, Bool.or_eq_true, beq_iff_eq] at first
  rw [← half]
  rcases first.1 with ((inside | valid) | short) | same
  · exact .inl (reach_of_inALine inside).1
  · exact .inr valid
  · cases short
  · exact .inl ((popLine_eq_lineAt_iff _ (by omega)).mp same)

/-- So is the second one, which begins one or two halfwords further on. -/
theorem delivers_second (full : bus.unit.hasFullInst input = true) :
    bus.unit.secondWord input =
      image.word (Fetch.pcSecond (bus.unit.supply input) bus.unit.pc) := by
  have hit := hasFirstInst_insHit (hasFullInst_hasFirstInst full)
  have calm := insHit_calm hit
  have half := sound.aligned.half
    (fetched_of_insHit sound.aligned.stage hit (fits.requested calm))
  have element := element_eq sound answers fits calm hit
  rw [hasFullInst, fullPresent, Bool.and_eq_true] at full
  simp only [hit, Bool.true_and, Bool.or_eq_true] at full
  have reach {number : Nat} (inside : bus.unit.inALine input = true →
      (halfAt bus.unit.popPtr).val + number < 8) : (Fetch.halfOf bus.unit.pc).val + number < 8 ∨
        bus.unit.valid bus.unit.nextPopLine = true := by
    rw [← half]
    exact full.1.imp_left inside
  have size : Fetch.pcSecond (bus.unit.supply input) bus.unit.pc =
      bus.unit.pc + if bus.unit.isRvFirst input then 4 else 2 := rfl
  rw [size, secondWord]
  cases short : isRvc (bus.unit.element input 0)
  · have long : bus.unit.isRvFirst input = true := by rw [isRvFirst, short]; rfl
    rw [if_neg (by simp), long, if_pos rfl]
    refine Image.word_eq (element 2 (reach fun inside => ?_)) fun both => ?_
    · exact (reach_of_inALine inside).2.1 (.inl long)
    · have second : bus.unit.isRvSecond input = true := by simp [isRvSecond, short, both]
      rw [BitVec.add_assoc]
      exact element 3 (reach fun inside => (reach_of_inALine inside).2.2 ⟨long, second⟩)
  · have one : bus.unit.isRvFirst input = false := by rw [isRvFirst, short]; rfl
    rw [if_pos rfl, one, if_neg (by simp)]
    refine Image.word_eq (element 1 (reach fun inside => ?_)) fun both => ?_
    · exact (reach_of_inALine inside).1
    · have second : bus.unit.isRvSecond input = true := by simp [isRvSecond, short, both]
      rw [BitVec.add_assoc]
      exact element 2 (reach fun inside => (reach_of_inALine inside).2.1 (.inr second))

theorem delivers : bus.Delivers input image where
  first := delivers_first sound answers fits
  second := delivers_second sound answers fits

end Cycle

theorem reset_sound (image : Image) : Sound image machine.reset := by
  refine ⟨reset_aligned, fun line valid => ?_, fun valid => ?_⟩
  · cases valid
  · cases valid

/-- In every run with a cache that answers each request once and in order, what is handed over is
what the memory has at its address, as long as the answers are taken for what they are. -/
theorem delivered_from_memory (image : Image) (inputs : List FetchInput)
    (answered : machine.Obeys (fun bus input => bus.Answers input image) inputs)
    (fits : machine.Obeys Fits inputs) :
    machine.Obeys (fun bus input => bus.Delivers input image) inputs := by
  have both : machine.Obeys (fun bus input => bus.Answers input image ∧ bus.Fits input) inputs :=
    fun past input rest split => ⟨answered past input rest split, fits past input rest split⟩
  refine Synchronous.obeys_of_invariant (reset_sound image) ?_ ?_ both
  · intro bus input sound supplied
    exact delivers sound supplied.1 supplied.2
  · intro bus input sound supplied
    exact sound.step supplied.1 supplied.2

/-- A memory of compressed instructions, one in the line at the reset address and another one
elsewhere. -/
def twoInstructions : Image := fun place =>
  if place.extractLsb' 3 35 = Fetch.lineOf Fetch.resetVector then 0x0001 else 0x0005

/-- Fetch with an empty buffer. -/
def started (pc : Pc) : FetchUnit := { FetchUnit.reset with pc := pc }

/-- Fetch when it has waited for its first line for a cycle. -/
def waiting (pc : Pc) : FetchUnit :=
  { (started pc).request 0 pc with
    fetchReqVld := false
    fetchRespPc := pc }

/-- A flush to another line. -/
def flushed : FetchInput := { FetchInput.idle with flush := true, target := 0x80000100 }

/-- The line at the reset address arrives. -/
def answered : FetchInput :=
  { FetchInput.idle with
    respVld := true
    line := twoInstructions.line Fetch.resetVector }

theorem run_waits : machine.run [FetchInput.idle, FetchInput.idle] =
    ⟨waiting Fetch.resetVector, [Fetch.resetVector]⟩ := rfl

/-- A run without an answer asks nothing of the cache. -/
theorem answers_of_silent {inputs : List FetchInput}
    (silent : ∀ input ∈ inputs, input.respVld = false) :
    machine.Obeys (fun bus input => bus.Answers input image) inputs := by
  intro past input rest split arrives
  rw [silent input (by simp [split])] at arrives
  cases arrives

/-- A cycle without an answer and without a hit fits. -/
theorem fits_of_silent (silent : input.respVld = false) (miss : bus.unit.insHit input = false) :
    bus.Fits input := by
  have nothing : bus.unit.takes input = false := by
    rw [← Bool.not_eq_true]
    intro taken
    rw [respVld_of_takes taken] at silent
    cases silent
  simp only [takes, Bool.or_eq_false_iff] at nothing
  obtain ⟨⟨bypass, fetch⟩, prefetch⟩ := nothing
  constructor <;> simp [takes, miss, bypass, fetch, prefetch]

theorem answered_fits : Fits ⟨waiting Fetch.resetVector, [Fetch.resetVector]⟩ answered where
  sequential _ redirected := by cases redirected
  named _ _ pc oldest := by
    rw [← Option.some.inj oldest]
    rfl
  awaited _ _ := rfl
  prefetched _ incoming := by cases incoming
  requested _ _ := rfl
  translated _ _ _ := rfl

/-- The instructions of the first line are handed over in the cycle in which it arrives. -/
theorem first_line_delivered :
    (machine.run [FetchInput.idle, FetchInput.idle]).unit.hasFullInst answered = true ∧
      machine.Obeys (fun bus input => bus.Delivers input twoInstructions)
        ([FetchInput.idle, FetchInput.idle] ++ [answered]) := by
  refine ⟨by rw [run_waits]; decide +kernel, ?_⟩
  apply delivered_from_memory
  · refine Synchronous.obeys_snoc.mpr ⟨answers_of_silent (by decide), ?_⟩
    rw [run_waits]
    exact fun _ => ⟨Fetch.resetVector, rfl, fun _ => rfl⟩
  · refine Synchronous.obeys_snoc.mpr ⟨?_, ?_⟩
    · change machine.Obeys Fits (([] ++ [FetchInput.idle]) ++ [FetchInput.idle])
      rw [Synchronous.obeys_snoc, Synchronous.obeys_snoc]
      exact ⟨⟨Synchronous.obeys_nil _ _, fits_of_silent rfl rfl⟩, fits_of_silent rfl rfl⟩
    · rw [run_waits]
      exact answered_fits

/-- A flush overtakes the request for the line at the reset address, which is answered when the line
of the target is awaited. -/
def overtaken : List FetchInput :=
  [FetchInput.idle, FetchInput.idle, flushed, FetchInput.idle, FetchInput.idle]

theorem run_overtaken :
    machine.run overtaken = ⟨waiting 0x80000100, [Fetch.resetVector, 0x80000100]⟩ := by
  have flush : FetchBus.step ⟨waiting Fetch.resetVector, [Fetch.resetVector]⟩ flushed =
      ⟨started 0x80000100, [Fetch.resetVector]⟩ := rfl
  have second : (FetchBus.step ⟨started 0x80000100, [Fetch.resetVector]⟩ FetchInput.idle).step
      FetchInput.idle = ⟨waiting 0x80000100, [Fetch.resetVector, 0x80000100]⟩ := rfl
  rw [← second, ← flush, ← run_waits]
  rfl

/-- The answer is handed on as the line of the target. -/
theorem overtaken_delivers_wrong : ¬∀ image inputs,
    machine.Obeys (fun bus input => bus.Answers input image) inputs →
      machine.Obeys (fun bus input => bus.Delivers input image) inputs := by
  intro delivers
  have silent : ∀ input ∈ overtaken, input.respVld = false := by decide
  have late : (machine.run overtaken).Answers answered twoInstructions := by
    rw [run_overtaken]
    exact fun _ => ⟨Fetch.resetVector, rfl, fun _ => rfl⟩
  have word := (delivers twoInstructions (overtaken ++ [answered])
    (Synchronous.obeys_snoc.mpr ⟨answers_of_silent silent, late⟩) overtaken answered [] rfl).first
  rw [run_overtaken] at word
  exact absurd (word (by decide +kernel)) (by decide +kernel)

/-! ### When answers are taken for what they are -/

/-- A line that has been requested and has not arrived. -/
def Awaits (unit : FetchUnit) (line : BufferLine) : Prop :=
  unit.fetched line = true ∧ unit.valid line = false

/-- The cycles in which the cache takes no request while it has one, and a flush leaves none behind;
and fetch goes on in sequence behind translated lines. -/
structure Orderly (bus : FetchBus) (input : FetchInput) : Prop where
  sequential : bus.unit.insHit input = true →
    input.predictors.predictPcFromPred bus.unit.pc = true →
      input.predictors.nextPcOut bus.unit.pc = Fetch.sequentialPc (bus.unit.supply input)
        bus.unit.pc (bus.unit.hasFirstInst input) (bus.unit.hasFullInst input)
  translated : input.flush = false → bus.unit.ifBypass input = true →
    bus.unit.popEnable input = true → input.itlbMiss = false
  one : bus.accepts input = true → bus.asked = []
  settled : input.flush = true → input.respVld = false → bus.asked = []

/-- The invariant: a line that is awaited is the one that is requested, only an awaited line is
requested, and a request that is not answered is for an awaited line and named by the response
pc. -/
structure Paired (bus : FetchBus) : Prop where
  based : ∀ line, Awaits bus.unit line →
    bus.unit.basePc line = Fetch.lineStart bus.unit.fetchReqPc
  issued : bus.unit.fetchReqVld = true → ∃ line, Awaits bus.unit line
  oldest : bus.asked = [] ∨ (bus.asked = [bus.unit.fetchReqPc] ∧
    bus.unit.fetchRespPc = bus.unit.fetchReqPc ∧ ∃ line, Awaits bus.unit line)

theorem awaits_of_inflight {unit : FetchUnit}
    (inflight : unit.fetchInflight = true ∨ unit.prefetchInflight = true) :
    ∃ line, Awaits unit line := by
  simp only [fetchInflight, prefetchInflight, Bool.and_eq_true, Bool.not_eq_true'] at inflight
  rcases inflight with pop | next
  · exact ⟨_, pop⟩
  · exact ⟨_, next⟩

/-- Giving a line free that has arrived leaves the awaited ones. -/
theorem awaits_turned (stored : bus.unit.popEnable input = true →
      (bus.unit.refill input).valid bus.unit.popLine = true) (line : BufferLine) :
    Awaits (bus.unit.turned input) line ↔ Awaits (bus.unit.refill input) line := by
  unfold turned
  split
  · rename_i leaves
    by_cases same : line = bus.unit.popLine
    · subst same
      simp [Awaits, release, stored leaves]
    · simp [Awaits, release, same]
  · rfl

namespace Paired

variable (paired : bus.Paired)

include paired

theorem asked_tail : bus.asked.tail = [] := by
  rcases paired.oldest with none | ⟨one, -⟩
  · simp [none]
  · simp [one]

/-- While no line is awaited there is no request. -/
theorem askedNext_of_none (none : ¬∃ line, Awaits bus.unit line) :
    bus.askedNext input = [] := by
  have asked : bus.asked = [] := paired.oldest.resolve_right fun one => none one.2.2
  have silent : bus.unit.fetchReqVld = false := by
    rw [← Bool.not_eq_true]
    exact mt paired.issued none
  simp [askedNext, asked, accepts, silent]

variable (answers : bus.Answers input image) (orderly : bus.Orderly input)

include answers orderly

/-- An answer leaves nothing to be answered. -/
theorem askedNext_of_answer (arrives : input.respVld = true) : bus.askedNext input = [] := by
  have busy : bus.accepts input = false := by
    rw [← Bool.not_eq_true]
    intro accepted
    obtain ⟨pc, oldest, -⟩ := answers arrives
    simp [orderly.one accepted] at oldest
  simp [askedNext, arrives, busy, paired.asked_tail]

omit answers in
/-- While the lines stay as they are, a request is taken or waits. -/
theorem askedNext_of_wait : bus.askedNext input = [] ∨
    (bus.askedNext input = [bus.unit.fetchReqPc] ∧ ∃ line, Awaits bus.unit line) := by
  cases accepted : bus.accepts input
  · rcases paired.oldest with none | ⟨one, -, awaited⟩
    · left
      simp [askedNext, accepted, none]
    · cases arrives : input.respVld
      · right
        simp [askedNext, accepted, arrives, one, awaited]
      · left
        simp [askedNext, accepted, arrives, one]
  · right
    have asked := orderly.one accepted
    simp only [accepts, Bool.and_eq_true] at accepted
    simp [askedNext, accepts, accepted, asked, paired.issued accepted.1.2]

end Paired

section Idle

variable {unit : FetchUnit}

theorem not_awaits {line : BufferLine}
    (known : unit.valid line = true ∨ unit.fetched line = false) : ¬Awaits unit line := by
  rintro ⟨fetched, valid⟩
  rcases known with held | free
  · rw [held] at valid
    cases valid
  · rw [free] at fetched
    cases fetched

theorem none_awaited {unit : FetchUnit} (pop : ¬Awaits unit unit.popLine)
    (next : ¬Awaits unit unit.nextPopLine) (line : BufferLine) : ¬Awaits unit line := by
  have apart := unit.nextPopLine_ne
  have cases : line = unit.popLine ∨ line = unit.nextPopLine := by
    revert apart
    generalize unit.popLine = first
    generalize unit.nextPopLine = second
    revert line first second
    decide
  rcases cases with rfl | rfl
  · exact pop
  · exact next

/-- With no line awaited and no request nothing is owed. -/
theorem paired_quiet (none : ∀ line, ¬Awaits unit line) (silent : unit.fetchReqVld = false) :
    Paired ⟨unit, []⟩ where
  based line awaited := absurd awaited (none line)
  issued requested := by
    rw [silent] at requested
    cases requested
  oldest := .inl rfl

/-- A first request is for its line. -/
theorem paired_request {line : BufferLine} (none : ∀ line, ¬Awaits unit line)
    (free : unit.valid line = false) (pc resp : Pc) :
    Paired ⟨{ unit.request line pc with fetchRespPc := resp }, []⟩ where
  based other awaited := by
    by_cases same : other = line
    · simp [FetchUnit.request, same]
    · simp only [Awaits, FetchUnit.request, Function.update_of_ne same] at awaited
      exact absurd awaited (none other)
  issued _ := ⟨line, by simp [Awaits, FetchUnit.request, free]⟩
  oldest := .inl rfl

end Idle

section Cycle

variable (sound : bus.Sound image) (answers : bus.Answers input image)
  (orderly : bus.Orderly input) (paired : bus.Paired)

include sound answers orderly paired

theorem refill_paired : Paired ⟨{ bus.unit.refill input with
    fetchRespPc := bus.unit.fetchReqPc }, bus.askedNext input⟩ := by
  have apart := bus.unit.nextPopLine_ne
  have refills := sound.aligned.stage.refills input
  generalize bus.unit.refill input = after at refills ⊢
  cases refills with
  | waits again awaits =>
    refine ⟨paired.based, fun requested => awaits_of_inflight (awaits requested), ?_⟩
    rcases paired.askedNext_of_wait orderly with none | ⟨one, awaited⟩
    · exact .inl none
    · exact .inr ⟨one, rfl, awaited⟩
  | fetches pop next =>
    have none := none_awaited (not_awaits (.inr pop.2)) (not_awaits (.inr next.2))
    rw [paired.askedNext_of_none (not_exists.mpr none)]
    exact paired_request none pop.1 _ _
  | prefetches pop next =>
    have none := none_awaited (not_awaits (.inl pop.1)) (not_awaits (.inr next.2))
    rw [paired.askedNext_of_none (not_exists.mpr none)]
    exact paired_request none next.1 _ _
  | fills pop next incoming =>
    rw [paired.askedNext_of_answer answers orderly (respVld_of_takes (takes_fetch incoming))]
    apply paired_quiet
    · apply none_awaited
      · exact not_awaits (.inl (by simp [fill, popLine]))
      · exact not_awaits (.inr next.2)
    · rfl
  | fillsAhead pop next incoming =>
    rw [paired.askedNext_of_answer answers orderly (respVld_of_takes (takes_fetch incoming))]
    apply paired_request
    · apply none_awaited
      · exact not_awaits (.inl (by simp [fill, popLine]))
      · exact not_awaits (.inr next.2)
    · simp [fill, next, apart]
  | completes pop next incoming =>
    rw [paired.askedNext_of_answer answers orderly (respVld_of_takes (takes_prefetch incoming))]
    apply paired_quiet
    · apply none_awaited
      · refine not_awaits (.inl ?_)
        change Function.update bus.unit.valid bus.unit.nextPopLine true bus.unit.popLine = true
        rw [Function.update_of_ne apart.symm, pop.1]
      · refine not_awaits (.inl ?_)
        change Function.update bus.unit.valid bus.unit.nextPopLine true bus.unit.nextPopLine = true
        rw [Function.update_self]
    · rfl

omit sound orderly in
/-- The oldest request is the one that the unit has issued, and the response pc names it. -/
theorem oldest_of_answer (arrives : input.respVld = true) :
    bus.asked = [bus.unit.fetchReqPc] ∧ bus.unit.fetchRespPc = bus.unit.fetchReqPc ∧
      ∃ line, Awaits bus.unit line := by
  obtain ⟨pc, oldest, -⟩ := answers arrives
  apply paired.oldest.resolve_left
  intro none
  simp [none] at oldest

omit sound answers orderly in
/-- An awaited line is requested at its first address. -/
theorem lineOf_fetchReqPc {line : BufferLine} {pc : Pc} (awaited : Awaits bus.unit line)
    (base : bus.unit.basePc line = Fetch.lineStart pc) :
    Fetch.lineOf bus.unit.fetchReqPc = Fetch.lineOf pc := by
  have same := (paired.based line awaited).symm.trans base
  rw [← Fetch.lineOf_lineStart, same, Fetch.lineOf_lineStart]

omit answers orderly paired in
theorem fetched_of_awaits (awaited : ∃ line, Awaits bus.unit line) :
    bus.unit.fetched bus.unit.popLine = true := by
  cases sound.aligned.stage with
  | idle pop next =>
    obtain ⟨line, awaited⟩ := awaited
    exact absurd awaited
      (none_awaited (not_awaits (.inr pop.2)) (not_awaits (.inr next.2)) line)
  | fetching pop => exact pop.2
  | held pop => exact pop.2
  | prefetching pop => exact pop.2
  | both pop => exact pop.2

/-- An orderly cycle takes answers for what they are. -/
theorem fits_of_orderly : bus.Fits input where
  sequential := orderly.sequential
  named _ taken pc oldest := by
    obtain ⟨asked, names, -⟩ := oldest_of_answer answers paired (respVld_of_takes taken)
    simp only [asked, List.head?_cons, Option.mem_def, Option.some.injEq] at oldest
    rw [← oldest, names]
  awaited _ incoming := by
    have arrives := respVld_of_takes (takes_fetch incoming)
    have awaited : Awaits bus.unit bus.unit.popLine := by
      simp only [fetchIncoming, fetchInflight, Bool.and_eq_true, Bool.not_eq_true'] at incoming
      exact incoming.1
    rw [(oldest_of_answer answers paired arrives).2.1]
    exact lineOf_fetchReqPc paired awaited (sound.aligned.bases.pop awaited.1)
  prefetched _ incoming := by
    have arrives := respVld_of_takes (takes_prefetch incoming)
    have awaited : Awaits bus.unit bus.unit.nextPopLine := by
      simp only [prefetchIncoming, prefetchInflight, Bool.and_eq_true, Bool.not_eq_true']
        at incoming
      exact incoming.1
    have base := sound.aligned.bases.next awaited.1
    rw [(oldest_of_answer answers paired arrives).2.1]
    exact lineOf_fetchReqPc paired awaited (base.trans (lineStart_prefetchVpc _).symm)
  requested _ bypass := by
    have arrives := respVld_of_takes (takes_bypass bypass)
    exact fetched_of_awaits sound (oldest_of_answer answers paired arrives).2.2
  translated := orderly.translated

theorem Paired.step : (bus.step input).Paired := by
  cases flush : input.flush
  · have lines := @step_lines bus.unit input flush
    have stored := refill_valid_of_leaves sound (fits_of_orderly sound answers orderly paired) flush
    have awaits (line : BufferLine) : Awaits (bus.unit.step input) line ↔
        Awaits (bus.unit.refill input) line := by
      rw [← awaits_turned stored, Awaits, Awaits, lines.fetched, lines.valid]
    have kept : (bus.unit.turned input).basePc = (bus.unit.refill input).basePc ∧
        (bus.unit.turned input).fetchReqPc = (bus.unit.refill input).fetchReqPc ∧
          (bus.unit.turned input).fetchReqVld = (bus.unit.refill input).fetchReqVld := by
      unfold turned
      split <;> exact ⟨rfl, rfl, rfl⟩
    have pc : (bus.unit.step input).fetchReqPc = (bus.unit.refill input).fetchReqPc := by
      rw [← kept.2.1]
      simp [FetchUnit.step, flush]
    have vld : (bus.unit.step input).fetchReqVld = (bus.unit.refill input).fetchReqVld := by
      rw [← kept.2.2]
      simp [FetchUnit.step, flush]
    have resp : (bus.unit.step input).fetchRespPc = bus.unit.fetchReqPc := by
      simp [FetchUnit.step, flush]
    have refilled := refill_paired sound answers orderly paired
    constructor
    · intro line awaited
      change (bus.unit.step input).basePc line = Fetch.lineStart (bus.unit.step input).fetchReqPc
      rw [lines.basePc, kept.1, pc]
      exact refilled.based line ((awaits line).mp awaited)
    · intro requested
      obtain ⟨line, awaited⟩ := refilled.issued (vld.symm.trans requested)
      exact ⟨line, (awaits line).mpr awaited⟩
    · change bus.askedNext input = [] ∨ (bus.askedNext input = [(bus.unit.step input).fetchReqPc] ∧
        (bus.unit.step input).fetchRespPc = (bus.unit.step input).fetchReqPc ∧
          ∃ line, Awaits (bus.unit.step input) line)
      rw [pc, resp, exists_congr awaits]
      exact refilled.oldest
  · have none : bus.askedNext input = [] := by
      cases arrives : input.respVld
      · simp [askedNext, arrives, orderly.settled flush arrives, accepts, flush]
      · simp [askedNext, arrives, paired.asked_tail, accepts, flush]
    change Paired ⟨bus.unit.step input, bus.askedNext input⟩
    rw [none]
    apply paired_quiet
    · intro line
      exact not_awaits (.inr (by simp [FetchUnit.step, flush, FetchUnit.reset]))
    · simp [FetchUnit.step, flush, FetchUnit.reset]

end Cycle

/-- The invariants together. -/
structure Steady (image : Image) (bus : FetchBus) : Prop where
  sound : Sound image bus
  paired : bus.Paired

/-- In an orderly run all answers are taken for what they are, however long they take: also behind a
flush, while a line is fetched ahead, and when it arrives in the cycle that uses it. -/
theorem run_fits (image : Image) (inputs : List FetchInput)
    (answered : machine.Obeys (fun bus input => bus.Answers input image) inputs)
    (orderly : machine.Obeys Orderly inputs) : machine.Obeys Fits inputs := by
  have both : machine.Obeys (fun bus input => bus.Answers input image ∧ bus.Orderly input)
      inputs := fun past input rest split =>
    ⟨answered past input rest split, orderly past input rest split⟩
  have initial : Steady image machine.reset :=
    ⟨reset_sound image, paired_quiet (fun line awaited => by cases awaited.1) rfl⟩
  refine Synchronous.obeys_of_invariant initial ?_ ?_ both
  · rintro bus input ⟨sound, paired⟩ ⟨answers, orderly⟩
    exact fits_of_orderly sound answers orderly paired
  · rintro bus input ⟨sound, paired⟩ ⟨answers, orderly⟩
    have fits := fits_of_orderly sound answers orderly paired
    exact ⟨sound.step answers fits, paired.step sound answers orderly⟩

end FetchBus

end GreenRio
