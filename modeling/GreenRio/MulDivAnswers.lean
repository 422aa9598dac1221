import GreenRio.MulDiv

set_option autoImplicit false

namespace GreenRio

namespace Multiplier

section Quiet

variable {unit : Multiplier} {wires : MulWires}

theorem reset_quiet (asserted : wires.rst = true) :
    (unit.step wires).reqReady = true ∧ (unit.step wires).respValid = false := by
  rw [step, if_pos asserted]
  exact ⟨rfl, rfl⟩

theorem rests_quiet (idle : unit.reqReady = true) (silent : wires.reqValid = false) :
    (unit.step wires).reqReady = true ∧ (unit.step wires).respValid = false := by
  have still : unit.state = false := by
    rw [reqReady, Bool.not_eq_true'] at idle
    exact idle
  unfold step
  rw [still]
  split
  · exact ⟨rfl, rfl⟩
  · rw [if_neg Bool.false_ne_true, accept, if_neg (by rw [silent]; exact Bool.false_ne_true)]
    exact ⟨by rw [reqReady, still]; rfl, rfl⟩

end Quiet

/-- A run from an idle unit that is asked answers at the latency, and not before. -/
theorem run_answers {states : Nat → Multiplier} {wires : Nat → MulWires}
    (steps : ∀ cycle, states (cycle + 1) = (states cycle).step (wires cycle))
    (idle : (states 0).reqReady = true) (asks : (wires 0).reqValid = true)
    {cycle : Nat} (positive : 0 < cycle) (soon : cycle ≤ latency (wires 0))
    (free : ∀ before < cycle, (wires before).rst = false) :
    (states cycle).reqReady = decide (cycle = latency (wires 0)) ∧
      (states cycle).respValid = decide (cycle = latency (wires 0)) ∧
      (cycle = latency (wires 0) → (states cycle).respValue =
        Multiplication.prescribed (wires 0).reqWord (wires 0).reqOp (wires 0).operandA
          (wires 0).operandB) := by
  have still : (states 0).state = false := by
    rw [reqReady, Bool.not_eq_true'] at idle
    exact idle
  have reached : states cycle = (states 0).after wires cycle :=
    IterativeUnit.states_unique ((states 0).after wires) steps (fun _ => rfl) rfl cycle
  rw [reached]
  by_cases last : cycle = latency (wires 0)
  · have answer := after_latency still asks fun before early => free before (by omega)
    rw [last, answer, decide_eq_true rfl]
    exact ⟨rfl, rfl, fun _ => rfl⟩
  · obtain ⟨busy, quiet⟩ := after_busy still asks positive (by omega) free
    rw [decide_eq_false last, reqReady, busy, quiet]
    exact ⟨rfl, rfl, fun same => absurd same last⟩

/-- `mul` as an iterative unit. -/
def iterative : IterativeUnit Multiplier MulWires Word where
  step := step
  rst := MulWires.rst
  asks := MulWires.reqValid
  idle := reqReady
  valid := respValid
  result := respValue
  latency := latency
  value := fun wires => Multiplication.prescribed wires.reqWord wires.reqOp wires.operandA
    wires.operandB
  latency_pos := fun _ => Nat.succ_pos _
  reset := fun _ _ => reset_quiet
  rests := fun _ _ => rests_quiet
  answers := fun _ _ steps idle asks _ => run_answers steps idle asks

end Multiplier

namespace Divider

section Quiet

variable {unit : Divider} {wires : DivWires}

theorem reset_quiet (asserted : wires.rst = true) :
    (unit.step wires).reqReady = true ∧ (unit.step wires).respValid = false := by
  rw [step, if_pos asserted]
  exact ⟨rfl, rfl⟩

theorem rests_quiet (idle : unit.reqReady = true) (silent : wires.reqValid = false) :
    (unit.step wires).reqReady = true ∧ (unit.step wires).respValid = false := by
  have still : unit.state = stIdle := beq_iff_eq.mp idle
  have rested : unit.accept wires = { unit with respValid := false } := by
    rw [accept, if_neg (by rw [silent]; exact Bool.false_ne_true)]
  rw [step, if_pos still, rested]
  split
  · exact ⟨rfl, rfl⟩
  · exact ⟨idle, rfl⟩

end Quiet

/-- A run from an idle unit that is asked answers at the latency, and not before. -/
theorem run_answers {states : Nat → Divider} {wires : Nat → DivWires}
    (steps : ∀ cycle, states (cycle + 1) = (states cycle).step (wires cycle))
    (idle : (states 0).reqReady = true) (asks : (wires 0).reqValid = true)
    {cycle : Nat} (positive : 0 < cycle) (soon : cycle ≤ latency (wires 0))
    (free : ∀ before < cycle, (wires before).rst = false) :
    (states cycle).reqReady = decide (cycle = latency (wires 0)) ∧
      (states cycle).respValid = decide (cycle = latency (wires 0)) ∧
      (cycle = latency (wires 0) → (states cycle).respResult =
        computed (wires 0).divOp (wires 0).operand1 (wires 0).operand2) := by
  have still : (states 0).state = stIdle := beq_iff_eq.mp idle
  have reached : states cycle = (states 0).after wires cycle :=
    IterativeUnit.states_unique ((states 0).after wires) steps (fun _ => rfl) rfl cycle
  rw [reached]
  by_cases last : cycle = latency (wires 0)
  · obtain ⟨rests, valid, result⟩ := after_latency still asks fun before early =>
      free before (by omega)
    rw [last, decide_eq_true rfl, reqReady, rests, valid, result]
    exact ⟨rfl, rfl, fun _ => rfl⟩
  · obtain ⟨busy, quiet⟩ := after_busy still asks positive (by omega) free
    rw [decide_eq_false last, reqReady, quiet]
    exact ⟨beq_eq_false_iff_ne.mpr busy, rfl, fun same => absurd same last⟩

/-- `div` as an iterative unit. -/
def iterative : IterativeUnit Divider DivWires Word where
  step := step
  rst := DivWires.rst
  asks := DivWires.reqValid
  idle := reqReady
  valid := respValid
  result := respResult
  latency := latency
  value := fun wires => computed wires.divOp wires.operand1 wires.operand2
  latency_pos := fun _ => Nat.succ_pos _
  reset := fun _ _ => reset_quiet
  rests := fun _ _ => rests_quiet
  answers := fun _ _ steps idle asks _ => run_answers steps idle asks

end Divider

namespace MulDiv

/-- The registers after a number of cycles. -/
def after (unit : MulDiv) (wires : Nat → MdWires) : Nat → MulDiv
  | 0 => unit
  | cycle + 1 => (unit.after wires cycle).step (wires cycle)

def cancels (wires : MdWires) : Bool := wires.rst || wires.trap

/-- A request is taken. -/
def accepts (unit : MulDiv) (wires : MdWires) : Bool :=
  wires.reqValid && unit.reqReady && !cancels wires

/-- The cycles until the answer to a request. -/
def latency (request : MdWires) : Nat :=
  if request.muldiv == mdMul then
    Multiplier.latency ⟨false, request.oprd1, request.oprd2, request.funcSel.extractLsb' 0 2,
      request.funcSel.getLsbD 2, true⟩
  else Divider.latency ⟨false, request.oprd1, request.oprd2, request.funcSel, true⟩

/-- What the unit to which a request goes computes for it. -/
def value (request : MdWires) : Word :=
  if request.muldiv == mdMul then
    Multiplication.prescribed (request.funcSel.getLsbD 2) (request.funcSel.extractLsb' 0 2)
      request.oprd1 request.oprd2
  else Divider.computed request.funcSel request.oprd1 request.oprd2

structure Quiet (unit : MulDiv) : Prop where
  mul : Multiplier.iterative.Quiet unit.mul
  div : Divider.iterative.Quiet unit.div

section Step

variable {unit : MulDiv} {wires : MdWires}

@[simp] theorem step_mul : (unit.step wires).mul = unit.mul.step (mulWires unit wires) := by
  unfold step
  split
  · rfl
  · split
    · split <;> rfl
    · split <;> rfl

@[simp] theorem step_div : (unit.step wires).div = unit.div.step (divWires unit wires) := by
  unfold step
  split
  · rfl
  · split
    · split <;> rfl
    · split <;> rfl

/-- A trap or a reset empties the unit. -/
theorem step_cancels (unit : MulDiv) (cancelled : cancels wires = true) :
    (unit.step wires).active = false ∧ (unit.step wires).Quiet := by
  refine ⟨?_, ⟨?_, ?_⟩⟩
  · change (wires.rst || wires.trap) = true at cancelled
    simp only [step, cancelled, ↓reduceIte]
  · rw [step_mul]
    exact Multiplier.iterative.reset _ _ cancelled
  · rw [step_div]
    exact Divider.iterative.reset _ _ cancelled

/-- Two idle units without a request fall quiet. -/
theorem step_quiet (idle : (unit.div.reqReady && unit.mul.reqReady) = true)
    (silent : (wires.reqValid && !unit.active) = false) : (unit.step wires).Quiet := by
  obtain ⟨restsDiv, restsMul⟩ := Bool.and_eq_true_iff.mp idle
  constructor
  · rw [step_mul]
    refine Multiplier.iterative.rests _ _ restsMul ?_
    change (wires.reqValid && wires.muldiv == mdMul && !wires.trap && !unit.active) = false
    grind
  · rw [step_div]
    refine Divider.iterative.rests _ _ restsDiv ?_
    change (wires.reqValid && wires.muldiv == mdDiv && !wires.trap && !unit.active) = false
    grind

theorem step_waits (free : cancels wires = false) (inactive : unit.active = false)
    (silent : wires.reqValid = false) : (unit.step wires).active = false := by
  change (wires.rst || wires.trap) = false at free
  simp [step, free, inactive, silent]

/-- Taking a request labels it. -/
theorem step_takes (taken : accepts unit wires = true) :
    (unit.step wires).active = true ∧ (unit.step wires).activeUnit = wires.muldiv ∧
      (unit.step wires).prdAddr = wires.prdAddr ∧
      (unit.step wires).robIndex = wires.robIndex := by
  unfold accepts cancels reqReady at taken
  simp only [Bool.and_eq_true, Bool.not_eq_true', Bool.or_eq_false_iff] at taken
  obtain ⟨⟨asks, ready⟩, running, untrapped⟩ := taken
  simp [step, reqReady, asks, ready, running, untrapped]

/-- A busy unit keeps its labels. -/
theorem step_works (free : cancels wires = false) (active : unit.active = true)
    (busy : (unit.div.reqReady && unit.mul.reqReady) = false) :
    (unit.step wires).active = true ∧ (unit.step wires).activeUnit = unit.activeUnit ∧
      (unit.step wires).prdAddr = unit.prdAddr ∧
      (unit.step wires).robIndex = unit.robIndex := by
  change (wires.rst || wires.trap) = false at free
  simp only [step, free, active, busy, Bool.false_eq_true, Bool.not_true, ↓reduceIte, and_self]

/-- The unit is given up when both its units are idle. -/
theorem step_releases (wires : MdWires) (active : unit.active = true)
    (idle : (unit.div.reqReady && unit.mul.reqReady) = true) :
    (unit.step wires).active = false ∧ (unit.step wires).Quiet := by
  refine ⟨?_, step_quiet idle (by rw [active, Bool.not_true, Bool.and_false])⟩
  unfold step
  split
  · rfl
  · simp only [active, Bool.not_true, Bool.false_eq_true, ↓reduceIte]

end Step

/-- The registers that work on a request: they carry its labels, and the unit to which it did not go
is quiet. -/
structure Works (request : MdWires) (unit : MulDiv) : Prop where
  active : unit.active = true
  activeUnit : unit.activeUnit = request.muldiv
  prdAddr : unit.prdAddr = request.prdAddr
  robIndex : unit.robIndex = request.robIndex
  quietDiv : request.muldiv = mdMul → Divider.iterative.Quiet unit.div
  quietMul : request.muldiv = mdDiv → Multiplier.iterative.Quiet unit.mul

/-- The registers that work on a request taken some cycles ago. -/
structure Serves (request : MdWires) (cycle : Nat) (unit : MulDiv) : Prop where
  works : Works request unit
  soon : cycle ≤ latency request
  idle : (unit.div.reqReady && unit.mul.reqReady) = decide (cycle = latency request)
  valid : (if unit.activeUnit == mdMul then unit.mul.respValid else unit.div.respValid) =
    decide (cycle = latency request)
  result : cycle = latency request → unit.wrbData = value request

section Run

variable {unit : MulDiv} {wires : Nat → MdWires} {cycle : Nat}

theorem after_add (start cycle : Nat) :
    unit.after wires (start + cycle) =
      (unit.after wires start).after (fun later => wires (start + later)) cycle := by
  induction cycle with
  | zero => rfl
  | succ cycle before =>
    rw [after, ← before]
    rfl

/-- The multiplier of a unit that has taken a multiplication, as long as it is active. -/
theorem mul_serves (quiet : unit.Quiet)
    (taken : accepts unit (wires 0) = true) (toMul : (wires 0).muldiv = mdMul)
    (positive : 0 < cycle) (soon : cycle ≤ latency (wires 0))
    (free : ∀ before < cycle, cancels (wires before) = false) :
    (unit.after wires cycle).mul.reqReady = decide (cycle = latency (wires 0)) ∧
      (unit.after wires cycle).mul.respValid = decide (cycle = latency (wires 0)) ∧
      (cycle = latency (wires 0) →
        (unit.after wires cycle).mul.respValue = value (wires 0)) := by
  have same : latency (wires 0) = Multiplier.latency (mulWires unit (wires 0)) := by
    rw [latency, toMul]
    rfl
  have answer : value (wires 0) = Multiplier.iterative.value (mulWires unit (wires 0)) := by
    rw [value, toMul]
    rfl
  have asks : (mulWires unit (wires 0)).reqValid = true := by
    unfold accepts cancels reqReady at taken
    simp only [Bool.and_eq_true, Bool.not_eq_true', Bool.or_eq_false_iff] at taken
    simp [mulWires, taken, toMul]
  rw [same, answer]
  rw [same] at soon
  exact Multiplier.iterative.answers (fun later => (unit.after wires later).mul)
    (fun later => mulWires (unit.after wires later) (wires later)) (fun _ => step_mul) quiet.mul.1
    asks cycle positive soon free

theorem div_serves (quiet : unit.Quiet)
    (taken : accepts unit (wires 0) = true) (toDiv : (wires 0).muldiv = mdDiv)
    (positive : 0 < cycle) (soon : cycle ≤ latency (wires 0))
    (free : ∀ before < cycle, cancels (wires before) = false) :
    (unit.after wires cycle).div.reqReady = decide (cycle = latency (wires 0)) ∧
      (unit.after wires cycle).div.respValid = decide (cycle = latency (wires 0)) ∧
      (cycle = latency (wires 0) →
        (unit.after wires cycle).div.respResult = value (wires 0)) := by
  have same : latency (wires 0) = Divider.latency (divWires unit (wires 0)) := by
    rw [latency, toDiv]
    rfl
  have answer : value (wires 0) = Divider.iterative.value (divWires unit (wires 0)) := by
    rw [value, toDiv]
    rfl
  have asks : (divWires unit (wires 0)).reqValid = true := by
    unfold accepts cancels reqReady at taken
    simp only [Bool.and_eq_true, Bool.not_eq_true', Bool.or_eq_false_iff] at taken
    simp [divWires, taken, toDiv]
  rw [same, answer]
  rw [same] at soon
  exact Divider.iterative.answers (fun later => (unit.after wires later).div)
    (fun later => divWires (unit.after wires later) (wires later)) (fun _ => step_div) quiet.div.1
    asks cycle positive soon free

theorem latency_pos (request : MdWires) : 0 < latency request := by
  unfold latency
  split
  · exact Multiplier.iterative.latency_pos _
  · exact Divider.iterative.latency_pos _

/-- Both units as they are while one of them works. -/
theorem Works.serves (works : Works (wires 0) (unit.after wires (cycle + 1))) (quiet : unit.Quiet)
    (taken : accepts unit (wires 0) = true) (soon : cycle + 1 ≤ latency (wires 0))
    (free : ∀ before < cycle + 1, cancels (wires before) = false) :
    Serves (wires 0) (cycle + 1) (unit.after wires (cycle + 1)) := by
  cases side : (wires 0).muldiv with
  | false =>
    obtain ⟨idle, valid, result⟩ := mul_serves quiet taken side (Nat.succ_pos cycle) soon free
    have rest : (unit.after wires (cycle + 1)).div.reqReady = true := (works.quietDiv side).1
    refine ⟨works, soon, ?_, ?_, fun last => ?_⟩
    · rw [idle, rest, Bool.true_and]
    · rw [works.activeUnit, side]
      exact valid
    · rw [wrbData, works.activeUnit, side]
      exact result last
  | true =>
    obtain ⟨idle, valid, result⟩ := div_serves quiet taken side (Nat.succ_pos cycle) soon free
    have rest : (unit.after wires (cycle + 1)).mul.reqReady = true := (works.quietMul side).1
    refine ⟨works, soon, ?_, ?_, fun last => ?_⟩
    · rw [idle, rest, Bool.and_true]
    · rw [works.activeUnit, side]
      exact valid
    · rw [wrbData, works.activeUnit, side]
      exact result last

variable (wires) in
/-- Until its answer a request keeps the unit. -/
theorem after_serves (quiet : unit.Quiet) (taken : accepts unit (wires 0) = true) :
    ∀ cycle, cycle + 1 ≤ latency (wires 0) →
      (∀ before < cycle + 1, cancels (wires before) = false) →
      Serves (wires 0) (cycle + 1) (unit.after wires (cycle + 1)) := by
  intro cycle
  induction cycle with
  | zero =>
    intro soon free
    obtain ⟨active, activeUnit, prdAddr, robIndex⟩ := step_takes taken
    refine Works.serves ⟨active, activeUnit, prdAddr, robIndex, fun side => ?_, fun side => ?_⟩
      quiet taken soon free
    · change Divider.iterative.Quiet (unit.step (wires 0)).div
      rw [step_div]
      exact Divider.iterative.rests _ _ quiet.div.1
        (by simp [Divider.iterative, divWires, side, mdMul, mdDiv])
    · change Multiplier.iterative.Quiet (unit.step (wires 0)).mul
      rw [step_mul]
      exact Multiplier.iterative.rests _ _ quiet.mul.1
        (by simp [Multiplier.iterative, mulWires, side, mdMul, mdDiv])
  | succ cycle before =>
    intro soon free
    have serves := before (by omega) fun past early => free past (by omega)
    have busy := serves.idle
    rw [decide_eq_false (by omega)] at busy
    obtain ⟨active, activeUnit, prdAddr, robIndex⟩ :=
      step_works (free (cycle + 1) (by omega)) serves.works.active busy
    refine Works.serves ⟨active, activeUnit.trans serves.works.activeUnit,
      prdAddr.trans serves.works.prdAddr, robIndex.trans serves.works.robIndex,
      fun side => ?_, fun side => ?_⟩ quiet taken soon free
    · rw [after, step_div]
      exact Divider.iterative.rests _ _ (serves.works.quietDiv side).1
        (by simp [Divider.iterative, divWires, serves.works.active])
    · rw [after, step_mul]
      exact Multiplier.iterative.rests _ _ (serves.works.quietMul side).1
        (by simp [Multiplier.iterative, mulWires, serves.works.active])

end Run

section History

variable (unit : MulDiv) (wires : Nat → MdWires)

/-- The request of an earlier cycle that a cycle works on. -/
structure InFlight (taken cycle : Nat) : Prop where
  accepted : accepts (unit.after wires taken) (wires taken) = true
  quiet : (unit.after wires taken).Quiet
  later : taken < cycle
  soon : cycle ≤ taken + latency (wires taken)
  free : ∀ before, taken ≤ before → before < cycle → cancels (wires before) = false

/-- The response of a cycle is the one to the request of another: none came between, and nothing
cancelled it. -/
structure Answers (taken answer : Nat) : Prop where
  accepted : accepts (unit.after wires taken) (wires taken) = true
  later : taken < answer
  soon : answer ≤ taken + 66
  responds : respValid (unit.after wires answer) (wires answer) = true
  prdAddr : (unit.after wires answer).prdAddr = (wires taken).prdAddr
  robIndex : (unit.after wires answer).robIndex = (wires taken).robIndex
  data : (unit.after wires answer).wrbData = value (wires taken)
  free : ∀ cycle, taken ≤ cycle → cycle < answer → cancels (wires cycle) = false
  silent : ∀ cycle, taken < cycle → cycle < answer →
    respValid (unit.after wires cycle) (wires cycle) = false
  alone : ∀ cycle, taken < cycle → cycle ≤ answer →
    accepts (unit.after wires cycle) (wires cycle) = false

/-- A request that has been neither answered nor cancelled before a cycle. -/
structure Pending (taken cycle : Nat) : Prop where
  accepted : accepts (unit.after wires taken) (wires taken) = true
  later : taken < cycle
  waits : ∀ before, taken < before → before < cycle →
    respValid (unit.after wires before) (wires before) = false ∧ cancels (wires before) = false

variable {unit wires} {taken cycle : Nat}

theorem InFlight.serves (flight : InFlight unit wires taken cycle) :
    Serves (wires taken) (cycle - taken) (unit.after wires cycle) := by
  have later := flight.later
  have soon := flight.soon
  obtain ⟨passed, rfl⟩ : ∃ passed, cycle = taken + (passed + 1) :=
    ⟨cycle - taken - 1, by omega⟩
  have serves := after_serves (fun later => wires (taken + later)) flight.quiet
    flight.accepted passed (by change passed + 1 ≤ latency (wires taken); omega)
    fun before early => flight.free (taken + before) (by omega) (by omega)
  rw [after_add, Nat.add_sub_cancel_left]
  exact serves

/-- What is known of every cycle of a run. -/
theorem after_flight (wires : Nat → MdWires) (inactive : unit.active = false)
    (quiet : unit.Quiet) (cycle : Nat) :
    ((unit.after wires cycle).active = false → (unit.after wires cycle).Quiet) ∧
      ((unit.after wires cycle).active = true → ∃ taken, InFlight unit wires taken cycle) := by
  induction cycle with
  | zero => exact ⟨fun _ => quiet, fun active => absurd (active.symm.trans inactive) (by decide)⟩
  | succ cycle before =>
    obtain ⟨rests, works⟩ := before
    rw [after]
    cases cancelled : cancels (wires cycle) with
    | true =>
      obtain ⟨released, emptied⟩ := step_cancels (unit.after wires cycle) cancelled
      exact ⟨fun _ => emptied, fun active => absurd (active.symm.trans released) (by decide)⟩
    | false =>
      cases busy : (unit.after wires cycle).active with
      | true =>
        obtain ⟨taken, flight⟩ := works busy
        have serves := flight.serves
        have later := flight.later
        have soon := flight.soon
        by_cases last : cycle - taken = latency (wires taken)
        · have idle := serves.idle
          rw [decide_eq_true last] at idle
          obtain ⟨released, emptied⟩ := step_releases (wires cycle) busy idle
          exact ⟨fun _ => emptied, fun active => absurd (active.symm.trans released) (by decide)⟩
        · have working := serves.idle
          rw [decide_eq_false last] at working
          obtain ⟨active, -⟩ := step_works cancelled busy working
          refine ⟨fun released => absurd (active.symm.trans released) (by decide), fun _ =>
            ⟨taken, flight.accepted, flight.quiet, by omega, by omega,
              fun before from' early => ?_⟩⟩
          rcases Nat.lt_or_eq_of_le (Nat.le_of_lt_succ early) with past | rfl
          · exact flight.free before from' past
          · exact cancelled
      | false =>
        have quiet := rests busy
        cases asks : (wires cycle).reqValid with
        | true =>
          have taken : accepts (unit.after wires cycle) (wires cycle) = true := by
            simp [accepts, reqReady, asks, busy, cancelled]
          obtain ⟨active, -⟩ := step_takes taken
          refine ⟨fun released => absurd (active.symm.trans released) (by decide), fun _ =>
            ⟨cycle, taken, quiet, by omega, ?_, fun before from' early => ?_⟩⟩
          · have positive := latency_pos (wires cycle)
            omega
          · obtain rfl : before = cycle := by omega
            exact cancelled
        | false =>
          have idle := step_waits cancelled busy asks
          refine ⟨fun _ => step_quiet ?_ (by rw [asks, Bool.false_and]),
            fun active => absurd (active.symm.trans idle) (by decide)⟩
          exact Bool.and_eq_true_iff.mpr ⟨quiet.div.1, quiet.mul.1⟩

theorem InFlight.earlier (flight : InFlight unit wires taken cycle) {before : Nat}
    (after' : taken < before) (within : before ≤ cycle) : InFlight unit wires taken before :=
  ⟨flight.accepted, flight.quiet, after', Nat.le_trans within flight.soon,
    fun past from' early => flight.free past from' (by omega)⟩

theorem InFlight.alone (flight : InFlight unit wires taken cycle) :
    accepts (unit.after wires cycle) (wires cycle) = false := by
  rw [accepts, reqReady, flight.serves.works.active, Bool.not_true, Bool.and_false,
    Bool.false_and]

theorem InFlight.respValid_eq (flight : InFlight unit wires taken cycle) :
    respValid (unit.after wires cycle) (wires cycle) =
      (decide (cycle - taken = latency (wires taken)) && !(wires cycle).trap) := by
  rw [respValid, flight.serves.valid]

theorem InFlight.silent (flight : InFlight unit wires taken cycle)
    (more : cycle - taken < latency (wires taken)) :
    respValid (unit.after wires cycle) (wires cycle) = false := by
  rw [flight.respValid_eq, decide_eq_false (by omega), Bool.false_and]

theorem latency_le (request : MdWires) : latency request ≤ 66 := by
  unfold latency
  split
  · unfold Multiplier.latency Multiplier.products
    split
    · decide
    · split <;> decide
  · have bound := Divider.digits_le
      ⟨false, request.oprd1, request.oprd2, request.funcSel, true⟩
    unfold Divider.latency
    omega

/-- The last cycle of a request answers it, unless there is a trap. -/
theorem InFlight.answers (flight : InFlight unit wires taken cycle)
    (last : cycle - taken = latency (wires taken)) (untrapped : (wires cycle).trap = false) :
    Answers unit wires taken cycle := by
  have serves := flight.serves
  have bound := latency_le (wires taken)
  have later := flight.later
  refine ⟨flight.accepted, later, by omega, ?_, serves.works.prdAddr, serves.works.robIndex,
    serves.result last, flight.free, fun before after' early => ?_, fun before after' within => ?_⟩
  · rw [flight.respValid_eq, decide_eq_true last, untrapped]
    rfl
  · exact (flight.earlier after' (by omega)).silent (by omega)
  · exact (flight.earlier after' within).alone

/-- A response belongs to the request in flight. -/
theorem responds_flight (inactive : unit.active = false) (quiet : unit.Quiet)
    (responds : respValid (unit.after wires cycle) (wires cycle) = true) :
    ∃ taken, Answers unit wires taken cycle := by
  obtain ⟨rests, works⟩ := after_flight wires inactive quiet cycle
  cases active : (unit.after wires cycle).active with
  | false =>
    obtain ⟨mul, div⟩ := rests active
    have still : (unit.after wires cycle).mul.respValid = false := mul.2
    have still' : (unit.after wires cycle).div.respValid = false := div.2
    rw [respValid, still, still', ite_self, Bool.false_and] at responds
    cases responds
  | true =>
    obtain ⟨taken, flight⟩ := works active
    rw [flight.respValid_eq, Bool.and_eq_true, decide_eq_true_eq, Bool.not_eq_true'] at responds
    exact ⟨taken, flight.answers responds.1 responds.2⟩

theorem accepts_flight (inactive : unit.active = false) (quiet : unit.Quiet)
    (accepted : accepts (unit.after wires taken) (wires taken) = true) (later : taken < cycle)
    (soon : cycle ≤ taken + latency (wires taken))
    (free : ∀ before, taken < before → before < cycle → cancels (wires before) = false) :
    InFlight unit wires taken cycle := by
  have taken' := accepted
  unfold accepts reqReady at taken'
  simp only [Bool.and_eq_true, Bool.not_eq_true'] at taken'
  refine ⟨accepted, (after_flight wires inactive quiet taken).1 taken'.1.2, later, soon,
    fun before from' early => ?_⟩
  rcases Nat.lt_or_eq_of_le from' with past | rfl
  · exact free before past early
  · exact taken'.2

theorem Pending.flight (inactive : unit.active = false) (quiet : unit.Quiet)
    (pending : Pending unit wires taken cycle) : InFlight unit wires taken cycle := by
  have later := pending.later
  have positive := latency_pos (wires taken)
  refine accepts_flight inactive quiet pending.accepted later ?_
    fun before after' early => (pending.waits before after' early).2
  by_contra late
  have flight : InFlight unit wires taken (taken + latency (wires taken)) :=
    accepts_flight inactive quiet pending.accepted (by omega) (Nat.le_refl _)
      fun before after' early => (pending.waits before after' (by omega)).2
  obtain ⟨silent, free⟩ := pending.waits (taken + latency (wires taken)) (by omega) (by omega)
  rw [flight.respValid_eq, decide_eq_true (by omega), Bool.true_and] at silent
  unfold cancels at free
  rw [Bool.not_eq_false'] at silent
  rw [silent, Bool.or_true] at free
  cases free

theorem Pending.not_lt (inactive : unit.active = false) (quiet : unit.Quiet) {other : Nat}
    (pending : Pending unit wires taken cycle) (also : Pending unit wires other cycle) :
    ¬ taken < other := by
  intro later
  have alone := ((pending.flight inactive quiet).earlier later (Nat.le_of_lt also.later)).alone
  rw [also.accepted] at alone
  cases alone

theorem Answers.not_lt {answer other : Nat} (answers : Answers unit wires taken answer)
    (also : Answers unit wires taken other) : ¬ answer < other := by
  intro early
  have silent := also.silent answer answers.later early
  rw [answers.responds] at silent
  cases silent

theorem Answers.not_before {answer other : Nat} (answers : Answers unit wires taken answer)
    (also : Answers unit wires other answer) : ¬ taken < other := by
  intro later
  have alone := answers.alone other later (Nat.le_of_lt also.later)
  rw [also.accepted] at alone
  cases alone

/-- A request is answered at its time or cancelled before. -/
theorem answered_or_cancelled (inactive : unit.active = false) (quiet : unit.Quiet)
    (accepted : accepts (unit.after wires taken) (wires taken) = true) :
    (∃ answer, Answers unit wires taken answer) ∨
      ∃ cycle, Pending unit wires taken cycle ∧ cancels (wires cycle) = true := by
  have positive := latency_pos (wires taken)
  by_cases cancelled : ∃ cycle, taken < cycle ∧ cycle ≤ taken + latency (wires taken) ∧
      cancels (wires cycle) = true
  · refine Or.inr ⟨Nat.find cancelled, ?_, (Nat.find_spec cancelled).2.2⟩
    obtain ⟨later, soon, -⟩ := Nat.find_spec cancelled
    have free : ∀ before, taken < before → before < Nat.find cancelled →
        cancels (wires before) = false := by
      intro before after' early
      have earliest := Nat.find_min cancelled early
      rw [← Bool.not_eq_true]
      exact fun also => earliest ⟨after', by omega, also⟩
    have flight := accepts_flight inactive quiet accepted later soon free
    exact ⟨accepted, later, fun before after' early =>
      ⟨(flight.earlier after' (by omega)).silent (by omega), free before after' early⟩⟩
  · have free : ∀ cycle, taken < cycle → cycle ≤ taken + latency (wires taken) →
        cancels (wires cycle) = false := by
      intro cycle later soon
      rw [← Bool.not_eq_true]
      exact fun also => cancelled ⟨cycle, later, soon, also⟩
    have flight : InFlight unit wires taken (taken + latency (wires taken)) :=
      accepts_flight inactive quiet accepted (by omega) (Nat.le_refl _)
        fun before after' early => free before after' (by omega)
    refine Or.inl ⟨_, flight.answers (by omega) ?_⟩
    have untrapped := free _ (Nat.lt_add_of_pos_right positive) (Nat.le_refl _)
    unfold cancels at untrapped
    exact (Bool.or_eq_false_iff.mp untrapped).2

variable (unit wires) in
/-- The unit has one request at a time, answers it once unless it is cancelled before, and puts
nothing else out; a trap leaves nothing to answer. -/
structure AnswersOnce : Prop where
  single : ∀ taken other cycle, Pending unit wires taken cycle →
    Pending unit wires other cycle → taken = other
  requests : ∀ taken, accepts (unit.after wires taken) (wires taken) = true →
    (∃! answer, Answers unit wires taken answer) ∨
      ∃ cycle, Pending unit wires taken cycle ∧ cancels (wires cycle) = true
  responses : ∀ answer, respValid (unit.after wires answer) (wires answer) = true →
    ∃! taken, Answers unit wires taken answer
  traps : ∀ taken answer cycle, Answers unit wires taken answer → taken ≤ cycle →
    cycle ≤ answer → (wires cycle).trap = false

/-- After a reset, for every sequence of requests and traps. -/
theorem answers_once (unit : MulDiv) (first : MdWires) (wires : Nat → MdWires)
    (reset : first.rst = true) : AnswersOnce (unit.step first) wires := by
  have cancelled : cancels first = true := by rw [cancels, reset, Bool.true_or]
  obtain ⟨inactive, quiet⟩ := step_cancels unit cancelled
  constructor
  · intro taken other cycle pending also
    have notLater := pending.not_lt inactive quiet also
    have notEarlier := also.not_lt inactive quiet pending
    omega
  · intro taken accepted
    rcases answered_or_cancelled inactive quiet accepted with ⟨answer, answers⟩ | cancelled
    · refine Or.inl ⟨answer, answers, fun other also => ?_⟩
      have notLater := answers.not_lt also
      have notEarlier := also.not_lt answers
      omega
    · exact Or.inr cancelled
  · intro answer responds
    obtain ⟨taken, answers⟩ := responds_flight inactive quiet responds
    refine ⟨taken, answers, fun other also => ?_⟩
    have notLater := answers.not_before also
    have notEarlier := also.not_before answers
    omega
  · intro taken answer cycle answers from' within
    rcases Nat.lt_or_eq_of_le within with early | rfl
    · exact (Bool.or_eq_false_iff.mp (answers.free cycle from' early)).2
    · have responds := answers.responds
      rw [respValid, Bool.and_eq_true, Bool.not_eq_true'] at responds
      exact responds.2

/-- Registers of which nothing is known, and a division cancelled by a trap. -/
theorem answers_once_trapped :
    AnswersOnce
      (step ⟨true, true, 3, 5, ⟨true, 1, 2, 7, 9, false, true, 11, true, 13⟩,
        ⟨2, 5, 7, 9, 1, 3, true, false, true, true, 17, true⟩⟩
        ⟨true, false, 0, 0, 0, 0, 0, false, false⟩)
      (fun cycle => ⟨false, cycle == 9, 4, 100, 7, 2, 0, mdDiv, true⟩) :=
  answers_once _ _ _ rfl

end History

end MulDiv

end GreenRio
