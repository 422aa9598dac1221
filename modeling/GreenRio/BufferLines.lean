import GreenRio.FetchStream

set_option autoImplicit false

namespace GreenRio

open Circular

namespace Fetch

theorem lineStart_toNat (pc : Pc) : (lineStart pc).toNat = pc.toNat / 16 * 16 := by
  have bound := pc.isLt
  simp only [lineStart, lineOf, BitVec.toNat_append, BitVec.toNat_ofNat, BitVec.extractLsb'_toNat,
    Nat.shiftRight_eq_div_pow, Nat.shiftLeft_eq, Nat.reducePow, Nat.zero_mod, Nat.or_zero]
  omega

theorem halfOf_val (pc : Pc) : (halfOf pc).val = pc.toNat / 2 % 8 := by
  simp only [halfOf, BitVec.extractLsb'_toNat, Nat.shiftRight_eq_div_pow, Nat.reducePow, pow_one]

/-- An address some halfwords further on, where at most one line ends in between. -/
theorem lineStart_add (pc : Pc) {count : Nat} (short : count ≤ 8) :
    lineStart (pc + BitVec.ofNat 39 (2 * count)) =
      if (halfOf pc).val + count < 8 then lineStart pc else lineStart pc + 16 := by
  apply BitVec.eq_of_toNat_eq
  have bound := pc.isLt
  have half := halfOf_val pc
  have start := lineStart_toNat pc
  split
  · rw [lineStart_toNat, start, BitVec.toNat_add, BitVec.toNat_ofNat]
    omega
  · have line : (16 : Pc).toNat = 16 := rfl
    rw [lineStart_toNat, BitVec.toNat_add, BitVec.toNat_add, start, line, BitVec.toNat_ofNat]
    omega

theorem halfOf_add (pc : Pc) (count : Nat) (short : count ≤ 8) :
    (halfOf (pc + BitVec.ofNat 39 (2 * count))).val = ((halfOf pc).val + count) % 8 := by
  rw [halfOf_val, halfOf_val, BitVec.toNat_add, BitVec.toNat_ofNat]
  omega

theorem lineOf_lineStart (pc : Pc) : lineOf (lineStart pc) = lineOf pc := by
  apply BitVec.eq_of_toNat_eq
  simp only [lineOf, BitVec.extractLsb'_toNat, lineStart_toNat, Nat.shiftRight_eq_div_pow,
    Nat.reducePow]
  omega

end Fetch

namespace FetchUnit

/-- What the line at the pop pointer and the other one are marked with, and which of them is filled
next. -/
inductive Stage (unit : FetchUnit) (pop next : BufferLine) : Prop where
  | idle (pop_free : unit.valid pop = false ∧ unit.fetched pop = false)
    (next_free : unit.valid next = false ∧ unit.fetched next = false)
    (active : unit.activeFetchLine = pop)
  | fetching (pop_requested : unit.valid pop = false ∧ unit.fetched pop = true)
    (next_free : unit.valid next = false ∧ unit.fetched next = false)
    (active : unit.activeFetchLine = pop)
  | held (pop_held : unit.valid pop = true ∧ unit.fetched pop = true)
    (next_free : unit.valid next = false ∧ unit.fetched next = false)
    (active : unit.activeFetchLine = next)
  | prefetching (pop_held : unit.valid pop = true ∧ unit.fetched pop = true)
    (next_requested : unit.valid next = false ∧ unit.fetched next = true)
    (active : unit.activeFetchLine = next)
  | both (pop_held : unit.valid pop = true ∧ unit.fetched pop = true)
    (next_held : unit.valid next = true ∧ unit.fetched next = true)
    (active : unit.activeFetchLine = pop)

/-- Requested lines are the one of an address and the one behind it. -/
structure Bases (unit : FetchUnit) (pop next : BufferLine) (pc : Pc) : Prop where
  pop : unit.fetched pop = true → unit.basePc pop = Fetch.lineStart pc
  next : unit.fetched next = true → unit.basePc next = Fetch.lineStart pc + 16

/-- The line at the pop pointer, once requested, is the one of the fetch address, and the other one
is behind it. -/
def LinesHoldPc (unit : FetchUnit) : Prop := unit.Bases unit.popLine unit.nextPopLine unit.pc

/-- The invariant: the lines go through their stages around the fetch address, and the pop pointer
keeps step with it. -/
structure Aligned (unit : FetchUnit) : Prop where
  stage : unit.Stage unit.popLine unit.nextPopLine
  bases : unit.LinesHoldPc
  half : unit.fetched unit.popLine = true → halfAt unit.popPtr = Fetch.halfOf unit.pc

variable {unit : FetchUnit} {input : FetchInput}

theorem nextPopLine_ne (unit : FetchUnit) : unit.nextPopLine ≠ unit.popLine := by
  unfold nextPopLine
  generalize unit.popLine = line
  revert line
  decide

theorem nextPopLine_next (unit : FetchUnit) : unit.nextPopLine + 1 = unit.popLine := by
  unfold nextPopLine
  generalize unit.popLine = line
  revert line
  decide

theorem lineStart_prefetchVpc (unit : FetchUnit) :
    Fetch.lineStart unit.prefetchVpc = Fetch.lineStart unit.pc + 16 := by
  have line : (16 : Pc).toNat = 16 := rfl
  have start := Fetch.lineStart_toNat unit.pc
  apply BitVec.eq_of_toNat_eq
  rw [prefetchVpc, Fetch.lineStart_toNat, BitVec.toNat_add, line, start]
  omega

/-- What the state machine does in a cycle: it requests the line at the pop pointer or the other one,
stores an arriving one, possibly with a request for the other one behind it, or waits. -/
inductive Refills (unit : FetchUnit) (input : FetchInput) (pop next : BufferLine) :
    FetchUnit → Prop where
  | waits (again : Bool)
      (awaits : again = true → unit.fetchInflight = true ∨ unit.prefetchInflight = true) :
      Refills unit input pop next { unit with fetchReqVld := again }
  | fetches (pop_free : unit.valid pop = false ∧ unit.fetched pop = false)
      (next_free : unit.valid next = false ∧ unit.fetched next = false)
      (active : unit.activeFetchLine = pop) :
      Refills unit input pop next (unit.request pop unit.pc)
  | fills (pop_requested : unit.valid pop = false ∧ unit.fetched pop = true)
      (next_free : unit.valid next = false ∧ unit.fetched next = false)
      (incoming : unit.fetchIncoming input = true) :
      Refills unit input pop next (unit.fill input pop next)
  | fillsAhead (pop_requested : unit.valid pop = false ∧ unit.fetched pop = true)
      (next_free : unit.valid next = false ∧ unit.fetched next = false)
      (incoming : unit.fetchIncoming input = true) :
      Refills unit input pop next ((unit.fill input pop next).request next unit.prefetchVpc)
  | prefetches (pop_held : unit.valid pop = true ∧ unit.fetched pop = true)
      (next_free : unit.valid next = false ∧ unit.fetched next = false)
      (active : unit.activeFetchLine = next) :
      Refills unit input pop next (unit.request next unit.prefetchVpc)
  | completes (pop_held : unit.valid pop = true ∧ unit.fetched pop = true)
      (next_requested : unit.valid next = false ∧ unit.fetched next = true)
      (incoming : unit.prefetchIncoming input = true) :
      Refills unit input pop next (unit.fill input next pop)

theorem Stage.refills (stage : unit.Stage unit.popLine unit.nextPopLine) (input : FetchInput) :
    unit.Refills input unit.popLine unit.nextPopLine (unit.refill input) := by
  cases stage with
  | idle pop next active =>
    cases ready : reqRdy input
    · have same : unit.refill input = { unit with fetchReqVld := false } := by
        simp [refill, fetchEnable, fetchInflight, prefetchEnable, prefetchInflight, pop, next, ready]
      rw [same]
      exact .waits false (by simp)
    · have issued : unit.refill input = unit.request unit.popLine unit.pc := by
        simp [refill, fetchEnable, pop, ready, active]
      rw [issued]
      exact .fetches pop next active
  | fetching pop next active =>
    have inflight : unit.fetchInflight = true := by simp [fetchInflight, pop]
    cases incoming : unit.fetchIncoming input
    · have waits : unit.refill input = { unit with fetchReqVld := !unit.handshake input } := by
        simp [refill, fetchEnable, fetchInflight, pop, incoming]
      rw [waits]
      exact .waits _ fun _ => .inl inflight
    · have filled : unit.refill input =
          if unit.prefetchEnable input then
            (unit.fill input unit.popLine unit.nextPopLine).request unit.nextPopLine
              unit.prefetchVpc
          else unit.fill input unit.popLine unit.nextPopLine := by
        simp [refill, fetchEnable, fetchInflight, pop, incoming, active]
      rw [filled]
      split
      · exact .fillsAhead pop next incoming
      · exact .fills pop next incoming
  | held pop next active =>
    cases ready : reqRdy input
    · have same : unit.refill input = { unit with fetchReqVld := false } := by
        simp [refill, fetchEnable, fetchInflight, prefetchEnable, prefetchInflight, pop, next, ready]
      rw [same]
      exact .waits false (by simp)
    · have issued : unit.refill input = unit.request unit.nextPopLine unit.prefetchVpc := by
        simp [refill, fetchEnable, fetchInflight, prefetchEnable, pop, next, ready, active]
      rw [issued]
      exact .prefetches pop next active
  | prefetching pop next active =>
    have inflight : unit.prefetchInflight = true := by simp [prefetchInflight, next]
    cases incoming : unit.prefetchIncoming input
    · have waits : unit.refill input = { unit with fetchReqVld := !unit.handshake input } := by
        simp [refill, fetchEnable, fetchInflight, prefetchEnable, prefetchInflight, pop, next,
          incoming]
      rw [waits]
      exact .waits _ fun _ => .inr inflight
    · have around := unit.nextPopLine_next
      have filled : unit.refill input = unit.fill input unit.nextPopLine unit.popLine := by
        simp [refill, fetchEnable, fetchInflight, prefetchEnable, prefetchInflight, pop, next,
          incoming, active, around]
      rw [filled]
      exact .completes pop next incoming
  | both pop next active =>
    have same : unit.refill input = { unit with fetchReqVld := false } := by
      simp [refill, fetchEnable, fetchInflight, prefetchEnable, prefetchInflight, pop, next]
    rw [same]
    exact .waits false (by simp)

/-- The state machine takes the lines from stage to stage. -/
theorem refill_stage (stage : unit.Stage unit.popLine unit.nextPopLine)
    (bases : unit.Bases unit.popLine unit.nextPopLine unit.pc) (input : FetchInput) :
    (unit.refill input).Stage unit.popLine unit.nextPopLine ∧
      (unit.refill input).Bases unit.popLine unit.nextPopLine unit.pc := by
  have apart := unit.nextPopLine_ne
  have ahead := unit.lineStart_prefetchVpc
  have refills := stage.refills input
  generalize unit.refill input = after at refills ⊢
  cases refills with
  | waits again =>
    refine ⟨?_, bases.pop, bases.next⟩
    cases stage with
    | idle pop next active => exact .idle pop next active
    | fetching pop next active => exact .fetching pop next active
    | held pop next active => exact .held pop next active
    | prefetching pop next active => exact .prefetching pop next active
    | both pop next active => exact .both pop next active
  | fetches pop next active =>
    refine ⟨.fetching ?_ ?_ active, ?_, ?_⟩
    · simp [request, pop]
    · simp [request, next, apart]
    · simp [request]
    · simp [request, next, apart]
  | fills pop next =>
    refine ⟨.held ?_ ?_ rfl, ?_, ?_⟩
    · simp [fill, pop]
    · simp [fill, next, apart]
    · simp [fill, bases.pop pop.2]
    · simp [fill, next]
  | fillsAhead pop next =>
    refine ⟨.prefetching ?_ ?_ rfl, ?_, ?_⟩
    · simp [request, fill, pop, apart.symm]
    · simp [request, fill, next, apart]
    · simp [request, fill, bases.pop pop.2, apart.symm]
    · simp [request, ahead]
  | prefetches pop next active =>
    refine ⟨.prefetching ?_ ?_ active, ?_, ?_⟩
    · simp [request, pop, apart.symm]
    · simp [request, next]
    · simp [request, bases.pop pop.2, apart.symm]
    · simp [request, ahead]
  | completes pop next =>
    refine ⟨.both ?_ ?_ rfl, bases.pop, bases.next⟩
    · simp [fill, pop, apart.symm]
    · simp [fill, next]

/-- The cycles in which fetch goes on in sequence, and the line of the fetch address only arrives
after it was requested and translated. -/
structure Undisturbed (unit : FetchUnit) (input : FetchInput) : Prop where
  sequential : unit.insHit input = true → input.predictors.predictPcFromPred unit.pc = true →
    input.predictors.nextPcOut unit.pc = Fetch.sequentialPc (unit.supply input) unit.pc
      (unit.hasFirstInst input) (unit.hasFullInst input)
  requested : input.flush = false → unit.ifBypass input = true →
    unit.fetched unit.popLine = true
  translated : input.flush = false → unit.ifBypass input = true → input.itlbMiss = false

theorem popSize_le (unit : FetchUnit) (input : FetchInput) : unit.popSize input ≤ 4 := by
  unfold popSize
  split_ifs <;> omega

theorem sequentialPc_eq (unit : FetchUnit) (input : FetchInput) :
    Fetch.sequentialPc (unit.supply input) unit.pc (unit.hasFirstInst input)
      (unit.hasFullInst input) = unit.pc + BitVec.ofNat 39 (2 * unit.popSize input) := by
  have first : (unit.supply input).first.isRv = unit.isRvFirst input := rfl
  have second : (unit.supply input).second.isRv = unit.isRvSecond input := rfl
  unfold Fetch.sequentialPc popSize
  rw [first, second]
  cases unit.hasFullInst input <;> cases unit.hasFirstInst input <;>
    cases unit.isRvFirst input <;> cases unit.isRvSecond input <;> simp

/-- In sequence the fetch address moves by what is popped. -/
theorem predictPc_eq (sequential : input.predictors.predictPcFromPred unit.pc = true →
    input.predictors.nextPcOut unit.pc = Fetch.sequentialPc (unit.supply input) unit.pc
      (unit.hasFirstInst input) (unit.hasFullInst input)) :
    unit.predictPc input = unit.pc + BitVec.ofNat 39 (2 * unit.popSize input) := by
  rw [predictPc, Fetch.predictPc, ← sequentialPc_eq]
  split
  · rename_i redirected
    exact sequential redirected
  · rfl

/-- Filling a line never invalidates one. -/
theorem refill_keeps {line : BufferLine} (valid : unit.valid line = true) :
    (unit.refill input).valid line = true := by
  unfold refill
  split_ifs <;> simp [request, fill, Function.update_apply, valid]

theorem fetched_of_valid (stage : unit.Stage unit.popLine unit.nextPopLine)
    (valid : unit.valid unit.popLine = true) : unit.fetched unit.popLine = true := by
  cases stage with
  | idle pop => simp [pop] at valid
  | fetching pop => simp [pop] at valid
  | held pop => exact pop.2
  | prefetching pop => exact pop.2
  | both pop => exact pop.2

/-- A hit is an arriving line or one in the buffer. -/
theorem ifBypass_or_valid (hit : unit.insHit input = true) :
    unit.ifBypass input = true ∨ unit.valid unit.popLine = true := by
  simp only [insHit, Bool.and_eq_true, Bool.or_eq_true] at hit
  exact hit.2.imp_right And.right

/-- A line that hits has been requested. -/
theorem fetched_of_insHit (stage : unit.Stage unit.popLine unit.nextPopLine)
    (hit : unit.insHit input = true)
    (requested : unit.ifBypass input = true → unit.fetched unit.popLine = true) :
    unit.fetched unit.popLine = true := by
  rcases ifBypass_or_valid hit with bypass | valid
  · exact requested bypass
  · exact fetched_of_valid stage valid

/-- A line that hits is in the buffer after the cycle, before it may be given free. -/
theorem refill_valid (stage : unit.Stage unit.popLine unit.nextPopLine)
    (hit : unit.insHit input = true)
    (requested : unit.ifBypass input = true → unit.fetched unit.popLine = true)
    (translated : unit.ifBypass input = true → input.itlbMiss = false) :
    (unit.refill input).valid unit.popLine = true := by
  cases valid : unit.valid unit.popLine
  · have bypass : unit.ifBypass input = true := by simpa [valid] using ifBypass_or_valid hit
    have arrives : input.respVld = true := by
      rw [ifBypass, Bool.and_eq_true] at bypass
      exact bypass.1
    have inflight : unit.fetchInflight = true := by simp [fetchInflight, requested bypass, valid]
    have incoming : unit.fetchIncoming input = true := by
      simp [fetchIncoming, inflight, arrives, translated bypass]
    cases stage with
    | fetching pop next active =>
      simp only [refill, fetchEnable, inflight, incoming, pop, active, Bool.not_true,
        Bool.false_and, Bool.false_eq_true, if_false, if_true]
      split <;> simp [request, fill]
    | idle pop =>
      have fetched := requested bypass
      simp [pop] at fetched
    | held pop => simp [pop] at valid
    | prefetching pop => simp [pop] at valid
    | both pop => simp [pop] at valid
  · exact refill_keeps valid

section Pointers

variable (pointer : Fin 16) {count : Nat}

theorem lineAt_advance (short : count ≤ 8) :
    lineAt (advance pointer count) =
      if (halfAt pointer).val + count < 8 then lineAt pointer else lineAt pointer + 1 := by
  have bound := pointer.isLt
  apply Fin.ext
  split
  · rename_i inside
    simp only [halfAt, lineAt, advance] at inside ⊢
    omega
  · rename_i outside
    simp only [halfAt, lineAt, advance, Fin.val_add, Fin.val_one] at outside ⊢
    omega

theorem halfAt_advance : (halfAt (advance pointer count)).val = ((halfAt pointer).val + count) % 8 := by
  simp only [halfAt, advance]
  omega

theorem lineAt_pointerOf (line : BufferLine) (half : Fin 8) : lineAt (pointerOf line half) = line := by
  apply Fin.ext
  simp only [lineAt, pointerOf]
  omega

theorem halfAt_pointerOf (line : BufferLine) (half : Fin 8) : halfAt (pointerOf line half) = half := by
  apply Fin.ext
  simp only [halfAt, pointerOf]
  omega

end Pointers

/-- The lines of two states agree. -/
structure SameLines (unit other : FetchUnit) : Prop where
  valid : unit.valid = other.valid
  fetched : unit.fetched = other.fetched
  basePc : unit.basePc = other.basePc
  active : unit.activeFetchLine = other.activeFetchLine

namespace SameLines

variable {other : FetchUnit} {pop next : BufferLine} {pc : Pc}

theorem stage (same : SameLines unit other) (stage : other.Stage pop next) :
    unit.Stage pop next := by
  obtain ⟨valid, fetched, -, active⟩ := same
  cases stage with
  | idle one two which =>
    rw [← valid, ← fetched] at one two
    exact .idle one two (active.trans which)
  | fetching one two which =>
    rw [← valid, ← fetched] at one two
    exact .fetching one two (active.trans which)
  | held one two which =>
    rw [← valid, ← fetched] at one two
    exact .held one two (active.trans which)
  | prefetching one two which =>
    rw [← valid, ← fetched] at one two
    exact .prefetching one two (active.trans which)
  | both one two which =>
    rw [← valid, ← fetched] at one two
    exact .both one two (active.trans which)

theorem bases (same : SameLines unit other) (bases : other.Bases pop next pc) :
    unit.Bases pop next pc := by
  obtain ⟨-, fetched, basePc, -⟩ := same
  constructor
  · rw [fetched, basePc]
    exact bases.pop
  · rw [fetched, basePc]
    exact bases.next

end SameLines

theorem step_lines (calm : input.flush = false) :
    SameLines (unit.step input) (unit.turned input) := by
  constructor <;> simp [step, calm]

/-- Giving the line at the pop pointer free leaves the other one in its place. -/
theorem release_stage {pop next : BufferLine} (apart : next ≠ pop) (stage : unit.Stage pop next)
    (held : unit.valid pop = true) : (unit.release pop).Stage next pop := by
  have free : (unit.release pop).valid pop = false ∧ (unit.release pop).fetched pop = false := by
    simp [release]
  have kept : (unit.release pop).valid next = unit.valid next ∧
      (unit.release pop).fetched next = unit.fetched next := by
    simp [release, apart]
  cases stage with
  | idle one => simp [one] at held
  | fetching one => simp [one] at held
  | held one two active =>
    exact .idle ⟨kept.1.trans two.1, kept.2.trans two.2⟩ free active
  | prefetching one two active =>
    exact .fetching ⟨kept.1.trans two.1, kept.2.trans two.2⟩ free active
  | both one two active =>
    exact .held ⟨kept.1.trans two.1, kept.2.trans two.2⟩ free active

section Cycle

variable (aligned : Aligned unit) (undisturbed : Undisturbed unit input)

/-- A flush empties the buffer. -/
theorem step_flush_aligned (flush : input.flush = true) : Aligned (unit.step input) := by
  have pop : (unit.step input).popLine = 0 := by
    simp [step, flush, popLine, lineAt_pointerOf]
  have free : (unit.step input).fetched = fun _ => false := by simp [step, flush, reset]
  have invalid : (unit.step input).valid = fun _ => false := by simp [step, flush, reset]
  have active : (unit.step input).activeFetchLine = 0 := by simp [step, flush, reset]
  refine ⟨.idle ?_ ?_ (active.trans pop.symm), ⟨?_, ?_⟩, ?_⟩
  all_goals simp [free, invalid]

/-- A cycle without a hit pops nothing. -/
theorem popEnable_miss (miss : unit.insHit input = false) : unit.popEnable input = false := by
  have nothing : unit.popSize input = 0 := by
    simp [popSize, hasFullInst, hasFirstInst, fullPresent, firstPresent, miss]
  simp [popEnable, nextPopPtr, nothing, popLine]

theorem turned_miss (miss : unit.insHit input = false) :
    unit.turned input = unit.refill input := by
  rw [turned, popEnable_miss miss]
  rfl

theorem step_popPtr_miss (calm : input.flush = false) (miss : unit.insHit input = false) :
    (unit.step input).popPtr = pointerOf unit.popLine (Fetch.halfOf unit.pc) := by
  simp [step, calm, miss]

theorem step_popLine_miss (calm : input.flush = false) (miss : unit.insHit input = false) :
    (unit.step input).popLine = unit.popLine := by
  rw [popLine, step_popPtr_miss calm miss, lineAt_pointerOf]

include aligned

/-- A line in the buffer hits. -/
theorem Aligned.insHit_of_valid (calm : input.flush = false)
    (valid : unit.valid unit.popLine = true) : unit.insHit input = true := by
  have base := aligned.bases.pop (fetched_of_valid aligned.stage valid)
  simp [insHit, calm, valid, base, Fetch.lineOf_lineStart]

/-- Without a hit the fetch address stays, and the pop pointer is taken from it. -/
theorem Aligned.step_miss (calm : input.flush = false) (miss : unit.insHit input = false) :
    Aligned (unit.step input) := by
  have pc : (unit.step input).pc = unit.pc := by simp [step_pc calm, miss]
  have pointer := step_popPtr_miss calm miss
  have pop := step_popLine_miss calm miss
  have next : (unit.step input).nextPopLine = unit.nextPopLine := congrArg (· + 1) pop
  have lines := @step_lines unit input calm
  rw [turned_miss miss] at lines
  obtain ⟨stage, bases⟩ := refill_stage aligned.stage aligned.bases input
  refine ⟨?_, ?_, fun _ => ?_⟩
  · rw [pop, next]
    exact lines.stage stage
  · rw [LinesHoldPc, pop, next, pc]
    exact lines.bases bases
  · rw [pointer, halfAt_pointerOf, pc]

/-- A hit moves the fetch address and the pop pointer together, inside the line or into the next
one, and a line that is left is given free. -/
theorem Aligned.step_hit (hit : unit.insHit input = true)
    (follows : unit.predictPc input = unit.pc + BitVec.ofNat 39 (2 * unit.popSize input))
    (requested : unit.fetched unit.popLine = true)
    (stored : unit.popEnable input = true → (unit.refill input).valid unit.popLine = true) :
    Aligned (unit.step input) := by
  have calm := insHit_calm hit
  have apart := unit.nextPopLine_ne
  have short : unit.popSize input ≤ 8 := (unit.popSize_le input).trans (by omega)
  have half := congrArg Fin.val (aligned.half requested)
  have pc : (unit.step input).pc =
      unit.pc + BitVec.ofNat 39 (2 * unit.popSize input) := by
    rw [step_pc calm, if_pos hit, follows]
  have pointer : (unit.step input).popPtr = advance unit.popPtr (unit.popSize input) := by
    simp [step, calm, hit, nextPopPtr]
  have together : halfAt (unit.step input).popPtr = Fetch.halfOf (unit.step input).pc := by
    apply Fin.ext
    rw [pointer, pc, halfAt_advance, Fetch.halfOf_add _ _ short, half]
  have start := Fetch.lineStart_add unit.pc short
  have line := lineAt_advance unit.popPtr short
  rw [← half] at start
  rw [← pc] at start
  rw [← pointer] at line
  obtain ⟨stage, bases⟩ := refill_stage aligned.stage aligned.bases input
  have lines := @step_lines unit input calm
  have released : unit.popEnable input = ((unit.step input).popLine != unit.popLine) := by
    rw [show (unit.step input).popLine = lineAt (unit.nextPopPtr input) from
      congrArg lineAt pointer]
    rfl
  by_cases inside : (halfAt unit.popPtr).val + unit.popSize input < 8
  · rw [if_pos inside] at start line
    have pop : (unit.step input).popLine = unit.popLine := line
    have next : (unit.step input).nextPopLine = unit.nextPopLine := congrArg (· + 1) pop
    rw [turned, released, pop, bne_self_eq_false, if_neg (by simp)] at lines
    refine ⟨?_, ?_, fun _ => together⟩
    · rw [pop, next]
      exact lines.stage stage
    · rw [LinesHoldPc, pop, next]
      have moved := lines.bases bases
      exact ⟨fun fetched => (moved.pop fetched).trans start.symm,
        fun fetched => (moved.next fetched).trans (congrArg (· + 16) start.symm)⟩
  · rw [if_neg inside] at start line
    have pop : (unit.step input).popLine = unit.nextPopLine := line
    have next : (unit.step input).nextPopLine = unit.popLine := by
      rw [nextPopLine, pop, nextPopLine_next]
    have leaves : (unit.nextPopLine != unit.popLine) = true := by simpa using apart
    have valid := stored (by rw [released, pop, leaves])
    rw [turned, released, pop, if_pos leaves] at lines
    refine ⟨?_, ?_, fun _ => together⟩
    · rw [pop, next]
      exact lines.stage (release_stage apart stage valid)
    · rw [LinesHoldPc, pop, next]
      have moved : ((unit.refill input).release unit.popLine).Bases unit.nextPopLine unit.popLine
          (unit.step input).pc := by
        constructor
        · intro fetched
          simp only [release] at fetched
          rw [Function.update_of_ne apart] at fetched
          exact (bases.next fetched).trans start.symm
        · simp [release]
      exact lines.bases moved

omit aligned in
theorem reset_aligned : Aligned reset :=
  ⟨.idle ⟨rfl, rfl⟩ ⟨rfl, rfl⟩ rfl, ⟨fun fetched => absurd fetched (by decide),
    fun fetched => absurd fetched (by decide)⟩, fun fetched => absurd fetched (by decide)⟩

theorem Aligned.step (undisturbed : Undisturbed unit input) : Aligned (unit.step input) := by
  cases flush : input.flush
  · cases hit : unit.insHit input
    · exact aligned.step_miss flush hit
    · have requested := undisturbed.requested flush
      have valid := refill_valid aligned.stage hit requested (undisturbed.translated flush)
      exact aligned.step_hit hit (predictPc_eq (undisturbed.sequential hit))
        (fetched_of_insHit aligned.stage hit requested) fun _ => valid
  · exact step_flush_aligned flush

end Cycle

theorem run_aligned (inputs : List FetchInput) (obeys : machine.Obeys Undisturbed inputs) :
    Aligned (machine.run inputs) := by
  induction inputs using List.reverseRecOn with
  | nil => exact reset_aligned
  | append_singleton inputs input ih =>
    obtain ⟨before, undisturbed⟩ := Synchronous.obeys_snoc.mp obeys
    rw [Synchronous.run_snoc]
    exact (ih before).step undisturbed

/-- In every undisturbed run the requested lines are the one of the fetch address and the one
behind it. So a line in the buffer always hits, and a line that does not is on its way. -/
theorem buffer_lines_hold_pc (inputs : List FetchInput) (obeys : machine.Obeys Undisturbed inputs) :
    (machine.run inputs).LinesHoldPc ∧
      ∀ input, input.flush = false →
        (machine.run inputs).fetched (machine.run inputs).popLine = true →
        (machine.run inputs).insHit input = true ∨ (machine.run inputs).fetchInflight = true := by
  have aligned := run_aligned inputs obeys
  refine ⟨aligned.bases, fun input calm requested => ?_⟩
  cases valid : (machine.run inputs).valid (machine.run inputs).popLine
  · right
    simp [fetchInflight, requested, valid]
  · left
    exact aligned.insHit_of_valid calm valid

instance (unit : FetchUnit) (input : FetchInput) : Decidable (Undisturbed unit input) :=
  decidable_of_iff
    ((unit.insHit input = true → input.predictors.predictPcFromPred unit.pc = true →
        input.predictors.nextPcOut unit.pc = Fetch.sequentialPc (unit.supply input) unit.pc
          (unit.hasFirstInst input) (unit.hasFullInst input)) ∧
      (input.flush = false → unit.ifBypass input = true →
        unit.fetched unit.popLine = true ∧ input.itlbMiss = false))
    ⟨fun ⟨sequential, arrives⟩ => ⟨sequential, fun calm bypass => (arrives calm bypass).1,
        fun calm bypass => (arrives calm bypass).2⟩,
      fun undisturbed => ⟨undisturbed.sequential, fun calm bypass =>
        ⟨undisturbed.requested calm bypass, undisturbed.translated calm bypass⟩⟩⟩

/-- The line at the reset address is requested, arrives and is used up while the next one is
requested and arrives. -/
def twoLines : List FetchInput :=
  [FetchInput.idle, FetchInput.idle, { FetchInput.idle with respVld := true }, FetchInput.idle,
    { FetchInput.idle with respVld := true }, FetchInput.idle]

theorem two_lines_hold_pc : machine.Obeys Undisturbed twoLines ∧
    (machine.run twoLines).fetched (machine.run twoLines).popLine = true ∧
      (machine.run twoLines).LinesHoldPc :=
  have obeys : machine.Obeys Undisturbed twoLines := by decide +kernel
  ⟨obeys, by decide +kernel, (buffer_lines_hold_pc twoLines obeys).1⟩

/-- The line at the reset address arrives, and the branch target buffer has a target in another
line for that address. -/
def lineRedirected : List FetchInput :=
  [FetchInput.idle, FetchInput.idle,
    { FetchInput.idle with
      respVld := true
      predictors := ⟨fun line => ⟨line = 0, 0x80000000, 0x80000100⟩, 0, fun _ => 0⟩ }]

/-- The buffer keeps the line of the branch, which does not contain the fetch address any more:
there is no hit, and nothing is requested for the new address. -/
theorem redirected_line_stays :
    ¬ (machine.run lineRedirected).LinesHoldPc ∧
      (machine.run lineRedirected).insHit FetchInput.idle = false ∧
      (machine.run lineRedirected).fetchEnable FetchInput.idle = false ∧
      (machine.run lineRedirected).fetchInflight = false := by
  refine ⟨fun holds => ?_, by decide +kernel, by decide +kernel, by decide +kernel⟩
  have base := holds.pop (by decide +kernel)
  revert base
  decide +kernel

end FetchUnit

end GreenRio
