import Mathlib.Data.ZMod.Defs

set_option autoImplicit false

/-- A unit that takes one request when it is idle and answers it some cycles later. Its idle cycles
and its resets leave it quiet. -/
structure IterativeUnit (State Wires Value : Type) where
  step : State → Wires → State
  rst : Wires → Bool
  asks : Wires → Bool
  idle : State → Bool
  valid : State → Bool
  result : State → Value
  latency : Wires → Nat
  value : Wires → Value
  latency_pos : ∀ wires, 0 < latency wires
  reset : ∀ state wires, rst wires = true →
    idle (step state wires) = true ∧ valid (step state wires) = false
  rests : ∀ state wires, idle state = true → asks wires = false →
    idle (step state wires) = true ∧ valid (step state wires) = false
  answers : ∀ (states : Nat → State) (wires : Nat → Wires),
    (∀ cycle, states (cycle + 1) = step (states cycle) (wires cycle)) →
    idle (states 0) = true → asks (wires 0) = true →
    ∀ cycle, 0 < cycle → cycle ≤ latency (wires 0) →
      (∀ before < cycle, rst (wires before) = false) →
      idle (states cycle) = decide (cycle = latency (wires 0)) ∧
        valid (states cycle) = decide (cycle = latency (wires 0)) ∧
        (cycle = latency (wires 0) → result (states cycle) = value (wires 0))

namespace IterativeUnit

variable {State Wires Value : Type}

/-- A run is what its first state and its steps make it. -/
theorem states_unique {step : State → Wires → State} {states : Nat → State}
    {wires : Nat → Wires} (others : Nat → State)
    (steps : ∀ cycle, states (cycle + 1) = step (states cycle) (wires cycle))
    (same : ∀ cycle, others (cycle + 1) = step (others cycle) (wires cycle))
    (first : states 0 = others 0) (cycle : Nat) : states cycle = others cycle := by
  induction cycle with
  | zero => exact first
  | succ cycle before => rw [steps, same, before]

variable (unit : IterativeUnit State Wires Value)

/-- Nothing is under way, and nothing is put out. -/
def Quiet (state : State) : Prop := unit.idle state = true ∧ unit.valid state = false

end IterativeUnit
