import GreenRio.FetchStream

set_option autoImplicit false

namespace GreenRio

open Circular

/-- The cause and the address of a fetch exception. -/
abbrev FetchFault := BitVec 5 × Word

def Raised.fault (raised : Raised) : Option FetchFault :=
  if raised.exception then some (raised.ecause, raised.etval) else none

theorem Raised.fault_eq_none {raised : Raised} : raised.fault = none ↔ raised.exception = false := by
  unfold fault
  cases raised.exception <;> simp

/-- The exception an instruction is handed over with. -/
def Buffered.fault (buffered : Buffered) : Option FetchFault :=
  if buffered.exception then some (buffered.ecause, buffered.etval) else none

/-- The cause with which the translation of the arriving line failed. -/
def FetchInput.fault (input : FetchInput) : Option (BitVec 5) :=
  if input.exceptionValid then some input.ecause else none

namespace FetchUnit

section Lines

variable (unit : FetchUnit) (input : FetchInput)

/-- The arriving line is stored in this cycle. -/
def fills : Bool :=
  !unit.fetchEnable input &&
    (unit.fetchIncoming input ||
      (!unit.fetchInflight && !unit.prefetchEnable input && unit.prefetchIncoming input))

/-- What a line of the buffer is marked with. -/
def stored (line : BufferLine) : Option (BitVec 5) :=
  if unit.excpValid line then some (unit.excpCause line) else none

/-- The halfwords of an instruction behind another one, given which of them take two. -/
def halvesBehind (rvFirst rvSecond : Bool) : List (Fin 4) :=
  match rvFirst, rvSecond with
  | false, false => [1]
  | false, true => [1, 2]
  | true, false => [2]
  | true, true => [2, 3]

def firstHalves : List (Fin 4) := if unit.isRvFirst input then [0, 1] else [0]

def secondHalves : List (Fin 4) := halvesBehind (unit.isRvFirst input) (unit.isRvSecond input)

/-- The halfwords at which the exceptions of the second instruction are looked for: its length is
taken from the second halfword, also behind an instruction that takes two. -/
def seenHalves : List (Fin 4) :=
  halvesBehind (unit.isRvFirst input) !isRvc (unit.element input 1)

end Lines

/-- The fetch unit, and how the translation of the last line that was stored in each place failed. -/
structure Answered where
  unit : FetchUnit
  answer : BufferLine → Option (BitVec 5)

namespace Answered

section Cycle

variable (answered : Answered) (input : FetchInput)

def step : Answered where
  unit := answered.unit.step input
  answer :=
    if answered.unit.fills input then
      Function.update answered.answer answered.unit.activeFetchLine input.fault
    else answered.answer

def machine : Synchronous Answered FetchInput := ⟨⟨reset, fun _ => none⟩, step⟩

/-- The fault of the line a halfword lies in, with the address this line was fetched for. -/
def lineFault (number : Fin 4) : Option FetchFault :=
  let unit := answered.unit
  let line := lineAt (advance unit.popPtr number.val)
  if unit.ifBypass input && decide ((halfAt unit.popPtr).val + number.val < 8) then
    input.fault.map fun cause => (cause, unit.fetchRespPc.setWidth 64)
  else if unit.valid line then
    (answered.answer line).map fun cause => (cause, (unit.basePc line).setWidth 64)
  else none

/-- The first fault among the lines of some halfwords. -/
def faultOf (halves : List (Fin 4)) : Option FetchFault :=
  halves.findSome? (answered.lineFault input)

def firstFault : Option FetchFault := answered.faultOf input (answered.unit.firstHalves input)

def secondFault : Option FetchFault := answered.faultOf input (answered.unit.secondHalves input)

def seenFault : Option FetchFault := answered.faultOf input (answered.unit.seenHalves input)

/-- An instruction that is handed over is flagged if and only if one of its halfwords lies in a line
whose translation failed, with the cause and the address of this line. -/
structure Attributed : Prop where
  first : answered.unit.hasFirstInst input = true →
    (answered.unit.supply input).first.fault = answered.firstFault input
  second : answered.unit.hasFullInst input = true →
    (answered.unit.supply input).second.fault = answered.secondFault input

/-- The cycles in which the wires are right: no instruction reaches from a line that arrives without a
fault into one with a fault; an output that is left alone holds what is due; and where only the
fourth halfword lies in a line with a fault, the second and the third look alike. -/
structure Clean : Prop where
  arriving : answered.unit.ifBypass input = true → input.exceptionValid = false →
    (answered.unit.hasFirstInst input = true → answered.firstFault input = none) ∧
      (answered.unit.hasFullInst input = true → answered.secondFault input = none)
  heldFirst : answered.unit.ifBypass input = false → answered.unit.hasFirstInst input = true →
    answered.firstFault input = none → answered.seenFault input ≠ none →
      answered.unit.heldFirst.exception = false
  heldSecond : answered.unit.hasFullInst input = true → answered.firstFault input ≠ none →
    answered.unit.heldSecond.fault = answered.secondFault input
  fourth : answered.unit.ifBypass input = false → answered.unit.hasFullInst input = true →
    answered.firstFault input = none → answered.unit.isRvFirst input = true →
      answered.lineFault input 2 = none → answered.lineFault input 3 ≠ none →
        isRvc (answered.unit.element input 1) = isRvc (answered.unit.element input 2)

end Cycle

end Answered

section Steps

variable {unit : FetchUnit} {input : FetchInput}

/-- The state of a line: whether it is valid, and what it is marked with. -/
def mark (unit : FetchUnit) (line : BufferLine) : Bool × Option (BitVec 5) :=
  (unit.valid line, unit.stored line)

theorem mark_fill (line next other : BufferLine) : (unit.fill input line next).mark other =
    if other == line then (true, input.fault) else unit.mark other := by
  by_cases same : other = line
  · simp [mark, fill, stored, FetchInput.fault, same]
  · simp [mark, fill, stored, same]

theorem mark_release (line other : BufferLine) : (unit.release line).mark other =
    if other == line then (false, none) else unit.mark other := by
  by_cases same : other = line
  · simp [mark, release, stored, same]
  · simp [mark, release, stored, same]

/-- Filling is all that the state machine does to the mark of a line. -/
theorem mark_refill (line : BufferLine) : (unit.refill input).mark line =
    if unit.fills input && line == unit.activeFetchLine then (true, input.fault)
    else unit.mark line := by
  have request : ∀ (other : FetchUnit) (place : BufferLine) (pc : Pc),
      (other.request place pc).mark line = other.mark line := fun _ _ _ => rfl
  unfold refill fills
  cases enable : unit.fetchEnable input with
  | true => simp [request]
  | false =>
    cases inflight : unit.fetchInflight with
    | true =>
      cases incoming : unit.fetchIncoming input with
      | true => cases unit.prefetchEnable input <;> simp [request, mark_fill]
      | false => simp [mark, stored]
    | false =>
      have idle : unit.fetchIncoming input = false := by simp [fetchIncoming, inflight]
      cases prefetch : unit.prefetchEnable input with
      | true => simp [request, idle]
      | false =>
        cases incoming : unit.prefetchIncoming input with
        | true =>
          have waits : unit.prefetchInflight = true := (Bool.and_eq_true_iff.mp incoming).1
          simp [mark_fill, idle, waits]
        | false => cases unit.prefetchInflight <;> simp [idle, mark, stored]

/-- After a cycle a line is empty, holds the line that arrived, or what it held. -/
theorem mark_step (line : BufferLine) : (unit.step input).mark line =
    if input.flush || (unit.popEnable input && line == unit.popLine) then (false, none)
    else if unit.fills input && line == unit.activeFetchLine then (true, input.fault)
    else unit.mark line := by
  cases flush : input.flush with
  | true => simp [step, flush, mark, stored, reset]
  | false =>
    have turned : (unit.step input).mark line = (unit.turned input).mark line := by
      simp [step, flush, mark, stored]
    rw [turned, FetchUnit.turned]
    cases popped : unit.popEnable input with
    | true => simp [mark_release, mark_refill]
    | false => simp [mark_refill]

end Steps

end FetchUnit

namespace FetchUnit.Answered

variable {answered : Answered} {input : FetchInput}

/-- A line of the buffer is marked with how the translation of what it holds failed. -/
def Marked (answered : Answered) : Prop :=
  ∀ line, answered.unit.stored line =
    if answered.unit.valid line then answered.answer line else none

theorem Marked.step (marked : Marked answered) (input : FetchInput) :
    Marked (answered.step input) := by
  intro line
  have after := @mark_step answered.unit input line
  rw [mark] at after
  change (answered.unit.step input).stored line = if (answered.unit.step input).valid line then
    (if answered.unit.fills input then
      Function.update answered.answer answered.unit.activeFetchLine input.fault
    else answered.answer) line else none
  split at after
  · obtain ⟨valid, stored⟩ := Prod.mk.inj after
    rw [valid, stored]
    rfl
  · split at after
    · rename_i fresh
      obtain ⟨fills, same⟩ := Bool.and_eq_true_iff.mp fresh
      obtain ⟨valid, stored⟩ := Prod.mk.inj after
      rw [valid, stored, fills, eq_of_beq same, if_pos rfl, if_pos rfl, Function.update_self]
    · rename_i old
      obtain ⟨valid, stored⟩ := Prod.mk.inj after
      rw [valid, stored, marked line]
      cases fills : answered.unit.fills input with
      | false => rfl
      | true =>
        have other : line ≠ answered.unit.activeFetchLine := by
          rintro rfl
          simp [fills] at old
        rw [if_pos rfl, Function.update_of_ne other]

theorem run_marked (inputs : List FetchInput) : Marked (machine.run inputs) :=
  machine.run_invariant Marked (fun _ => rfl) (fun _ input marked => marked.step input) inputs

/-- Where no line arrives, a halfword lies in a line of the buffer. -/
theorem Marked.lineFault_eq (marked : Marked answered)
    (buffered : answered.unit.ifBypass input = false) (number : Fin 4) :
    answered.lineFault input number =
      if answered.unit.excpValid (lineAt (advance answered.unit.popPtr number.val)) then
        (answered.unit.lineExcp input number).fault else none := by
  have marks : answered.lineFault input number =
      (answered.unit.stored (lineAt (advance answered.unit.popPtr number.val))).map fun cause =>
        (cause, (answered.unit.basePc
          (lineAt (advance answered.unit.popPtr number.val))).setWidth 64) := by
    rw [marked (lineAt (advance answered.unit.popPtr number.val))]
    simp only [lineFault, buffered, Bool.false_and, Bool.false_eq_true, ↓reduceIte]
    split <;> rfl
  simp only [marks, stored, lineExcp, buffered, Raised.fault, Bool.false_eq_true, ↓reduceIte]
  split <;> rfl

/-- So its wires carry the fault of this line. -/
theorem Marked.halfExcp_eq (marked : Marked answered)
    (buffered : answered.unit.ifBypass input = false) (number : Fin 4) :
    answered.unit.halfExcp input number =
        ((match number with
          | 0 | 1 => true
          | 2 => !(isRvc (answered.unit.element input 0) && isRvc (answered.unit.element input 1))
          | 3 => !(isRvc (answered.unit.element input 0) || isRvc (answered.unit.element input 1))) &&
          (answered.lineFault input number).isSome) ∧
      ((answered.lineFault input number).isSome = true →
        (answered.unit.lineExcp input number).fault = answered.lineFault input number) := by
  have some : (answered.unit.lineExcp input number).fault.isSome = true := by
    simp [lineExcp, buffered, Raised.fault]
  have flag : (answered.lineFault input number).isSome =
      answered.unit.excpValid (lineAt (advance answered.unit.popPtr number.val)) := by
    rw [marked.lineFault_eq buffered]
    cases answered.unit.excpValid (lineAt (advance answered.unit.popPtr number.val)) <;> simp [some]
  constructor
  · rw [flag, halfExcp, buffered, if_neg (by simp)]
    split <;> simp
  · intro faulty
    rw [flag] at faulty
    rw [marked.lineFault_eq buffered, if_pos faulty]

/-- The priority chain: a fault of the first instruction, else one that is seen behind it; the other
output is left alone, and both are cleared only where neither is found. -/
theorem Marked.raised_eq (marked : Marked answered)
    (buffered : answered.unit.ifBypass input = false) :
    (answered.unit.raised input).1.fault =
        (if (answered.firstFault input).isSome then answered.firstFault input
        else if (answered.seenFault input).isSome then answered.unit.heldFirst.fault else none) ∧
      (answered.unit.raised input).2.fault =
        (if (answered.firstFault input).isSome then answered.unit.heldSecond.fault
        else answered.seenFault input) := by
  have wires := @Marked.halfExcp_eq answered input marked buffered
  obtain ⟨zero, fault0⟩ := wires 0
  obtain ⟨one, fault1⟩ := wires 1
  obtain ⟨two, fault2⟩ := wires 2
  obtain ⟨three, fault3⟩ := wires 3
  simp only [firstFault, seenFault, faultOf, firstHalves, seenHalves, isRvFirst, raised, zero, one,
    two, three, Bool.true_and]
  have cleared : ∀ held : Raised, Raised.fault { held with exception := false } = none := fun _ => rfl
  rcases Bool.eq_false_or_eq_true (isRvc (answered.unit.element input 0)) with short | long
  · simp only [short, Bool.not_true, Bool.true_and, Bool.true_or, Bool.false_and, Bool.false_eq_true,
      ↓reduceIte, List.findSome?_cons, List.findSome?_nil]
    cases found0 : answered.lineFault input 0 with
    | some _ => simp [found0, fault0]
    | none =>
      cases next : isRvc (answered.unit.element input 1) with
      | true =>
        cases found1 : answered.lineFault input 1 <;>
          simp [halvesBehind, found1, fault1, cleared]
      | false =>
        cases found1 : answered.lineFault input 1 with
        | some _ => simp [halvesBehind, found1, fault1]
        | none =>
          cases found2 : answered.lineFault input 2 <;>
            simp [halvesBehind, found1, found2, fault2, cleared]
  · simp only [long, Bool.not_false, Bool.false_and, Bool.false_or, Bool.true_and, Bool.false_eq_true,
      ↓reduceIte, List.findSome?_cons, List.findSome?_nil]
    cases found0 : answered.lineFault input 0 with
    | some _ => simp [found0, fault0]
    | none =>
      cases found1 : answered.lineFault input 1 with
      | some _ => simp [found1, fault1]
      | none =>
        cases found2 : answered.lineFault input 2 with
        | some _ => cases isRvc (answered.unit.element input 1) <;> simp [halvesBehind, found2, fault2]
        | none =>
          cases next : isRvc (answered.unit.element input 1) with
          | true => simp [halvesBehind, found2, cleared]
          | false =>
            cases found3 : answered.lineFault input 3 <;>
              simp [halvesBehind, found2, found3, fault3, cleared]

/-- While a line arrives, its fault is the one of the first instruction, and it alone is looked at. -/
theorem raised_bypass (bypass : answered.unit.ifBypass input = true) :
    (input.exceptionValid = true → (answered.firstFault input).isSome = true ∧
      (answered.unit.raised input).1.fault = answered.firstFault input ∧
      (answered.unit.raised input).2.fault = answered.unit.heldSecond.fault) ∧
    (input.exceptionValid = false → (answered.unit.raised input).1.fault = none ∧
      (answered.unit.raised input).2.fault = none) := by
  have wires : ∀ number, answered.unit.halfExcp input number = input.exceptionValid := by
    intro number
    rw [halfExcp, if_pos bypass]
  constructor
  · intro faulty
    have here : answered.lineFault input 0 = (answered.unit.lineExcp input 0).fault := by
      simp [lineFault, lineExcp, bypass, FetchInput.fault, Raised.fault, faulty]
    have first : answered.firstFault input = (answered.unit.lineExcp input 0).fault := by
      unfold firstFault faultOf firstHalves
      cases answered.unit.isRvFirst input <;>
        simp [here, lineExcp, bypass, Raised.fault]
    rw [first, raised, wires, if_pos faulty]
    exact ⟨by simp [lineExcp, bypass, Raised.fault], rfl, rfl⟩
  · intro clean
    simp only [raised, wires, clean, Bool.false_eq_true, ↓reduceIte]
    exact ⟨rfl, rfl⟩

/-- What is seen behind the first instruction is the fault of the second, unless they differ in the
length of the second. -/
theorem seenFault_iff : answered.seenFault input = answered.secondFault input ↔
    (answered.unit.isRvFirst input = true → answered.lineFault input 2 = none →
      answered.lineFault input 3 ≠ none →
        isRvc (answered.unit.element input 1) = isRvc (answered.unit.element input 2)) := by
  unfold seenFault secondFault faultOf seenHalves secondHalves isRvSecond isRvFirst
  rcases Bool.eq_false_or_eq_true (isRvc (answered.unit.element input 0)) with short | long
  · simp [short]
  · simp only [long, Bool.not_false, Bool.false_and, Bool.true_and, Bool.false_or]
    cases isRvc (answered.unit.element input 1) <;> cases isRvc (answered.unit.element input 2) <;>
      cases found2 : answered.lineFault input 2 <;> cases found3 : answered.lineFault input 3 <;>
      simp [halvesBehind, found2, found3]

/-- The wires are handed over as they are. -/
theorem attributed_raised : Attributed answered input ↔
    (answered.unit.hasFirstInst input = true →
      (answered.unit.raised input).1.fault = answered.firstFault input) ∧
    (answered.unit.hasFullInst input = true →
      (answered.unit.raised input).2.fault = answered.secondFault input) :=
  ⟨fun attributed => ⟨attributed.first, attributed.second⟩, fun ⟨first, second⟩ => ⟨first, second⟩⟩

theorem attributed_bypass_iff (bypass : answered.unit.ifBypass input = true) :
    Attributed answered input ↔ Clean answered input := by
  obtain ⟨faulty, clean⟩ := @raised_bypass answered input bypass
  rw [attributed_raised]
  cases exception : input.exceptionValid with
  | true =>
    obtain ⟨found, same, held⟩ := faulty exception
    have some : answered.firstFault input ≠ none := Option.isSome_iff_ne_none.mp found
    constructor
    · rintro ⟨-, second⟩
      exact ⟨by simp [exception], by simp [bypass], fun full _ => held.symm.trans (second full),
        by simp [bypass]⟩
    · intro clean
      exact ⟨fun _ => same, fun full => held.trans (clean.heldSecond full some)⟩
  | false =>
    obtain ⟨cleared, cleared'⟩ := clean exception
    rw [cleared, cleared']
    constructor
    · rintro ⟨first, second⟩
      refine ⟨fun _ _ => ⟨fun single => (first single).symm, fun full => (second full).symm⟩,
        by simp [bypass], fun full some => ?_, by simp [bypass]⟩
      exact absurd (first (hasFullInst_hasFirstInst full)).symm some
    · intro clean
      obtain ⟨first, second⟩ := clean.arriving bypass exception
      exact ⟨fun single => (first single).symm, fun full => (second full).symm⟩

theorem Marked.attributed_buffered_iff (marked : Marked answered)
    (buffered : answered.unit.ifBypass input = false) :
    Attributed answered input ↔ Clean answered input := by
  obtain ⟨chain, chain'⟩ := @Marked.raised_eq answered input marked buffered
  rw [attributed_raised, chain, chain']
  cases due : answered.firstFault input with
  | some fault =>
    rw [Option.isSome_some, if_pos rfl, if_pos rfl]
    constructor
    · rintro ⟨-, second⟩
      exact ⟨by simp [buffered], by simp [due], fun full _ => second full, by simp [due]⟩
    · intro clean
      exact ⟨fun _ => rfl, fun full => clean.heldSecond full (by simp [due])⟩
  | none =>
    simp only [Option.isSome_none, Bool.false_eq_true, ↓reduceIte]
    constructor
    · rintro ⟨first, second⟩
      refine ⟨by simp [buffered], fun _ single _ seen => ?_, fun _ some => absurd due some,
        fun _ full _ => seenFault_iff.mp (second full)⟩
      have held := first single
      rw [if_pos (Option.isSome_iff_ne_none.mpr seen)] at held
      exact Raised.fault_eq_none.mp held
    · intro clean
      refine ⟨fun single => ?_, fun full => seenFault_iff.mpr (clean.fourth buffered full due)⟩
      split
      · rename_i seen
        exact Raised.fault_eq_none.mpr
          (clean.heldFirst buffered single due (Option.isSome_iff_ne_none.mp seen))
      · rfl

theorem attributed_iff (marked : Marked answered) :
    Attributed answered input ↔ Clean answered input := by
  cases bypass : answered.unit.ifBypass input with
  | true => exact attributed_bypass_iff bypass
  | false => exact marked.attributed_buffered_iff bypass

/-- In every run each instruction that is handed over is flagged with the fault of its own lines if
and only if every cycle is clean. -/
theorem faults_attributed_iff (inputs : List FetchInput) :
    machine.Obeys Attributed inputs ↔ machine.Obeys Clean inputs := by
  apply Synchronous.obeys_congr
  intro past input
  exact attributed_iff (run_marked past)

/-- The line at the reset address arrives, and its translation failed. -/
def faultyLine : FetchInput :=
  { FetchInput.idle with respVld := true, exceptionValid := true, ecause := 12 }

/-- Both instructions that are handed over lie in this line, and only the first is flagged. -/
theorem second_unflagged :
    let answered := machine.run [FetchInput.idle, FetchInput.idle]
    (answered.unit.hasFullInst faultyLine = true ∧
        answered.secondFault faultyLine = some (12, 0x80000000) ∧
        (answered.unit.supply faultyLine).first.fault = some (12, 0x80000000) ∧
        (answered.unit.supply faultyLine).second.fault = none) ∧
      ¬ ∀ inputs, machine.Obeys Attributed inputs := by
  intro answered
  have full : answered.unit.hasFullInst faultyLine = true := by decide
  have due : answered.secondFault faultyLine = some (12, 0x80000000) := by decide
  have shown : (answered.unit.supply faultyLine).second.fault = none := by decide
  refine ⟨⟨full, due, by decide, shown⟩, fun obeys => ?_⟩
  have attributed := (Synchronous.obeys_snoc.mp
    (obeys ([FetchInput.idle, FetchInput.idle] ++ [faultyLine]))).2.second full
  rw [due, shown] at attributed
  cases attributed

end FetchUnit.Answered

end GreenRio
