import Mathlib.Data.ZMod.Defs

set_option autoImplicit false

namespace Trace

/-- What an observer of a program counter sees: an instruction executed at `pc` with the address
its execution leads to, or a diversion that executes nothing. -/
inductive Event (P : Type) where
  | execute (pc : P) (next : Option P)
  | divert (target : P)

variable {P : Type}

/-- Every instruction is executed where the event before it leads, from `start` to `stop`. -/
def Follows : P → List (Event P) → P → Prop
  | start, [], stop => start = stop
  | start, .execute pc next :: rest, stop =>
    pc = start ∧ ∃ after, next = some after ∧ Follows after rest stop
  | _, .divert target :: rest, stop => Follows target rest stop

@[simp] theorem follows_nil {start stop : P} : Follows start [] stop ↔ start = stop := Iff.rfl

@[simp] theorem follows_execute {start pc after stop : P} {rest : List (Event P)} :
    Follows start (.execute pc (some after) :: rest) stop ↔ pc = start ∧ Follows after rest stop := by
  simp [Follows]

@[simp] theorem follows_divert {start target stop : P} {rest : List (Event P)} :
    Follows start (.divert target :: rest) stop ↔ Follows target rest stop := Iff.rfl

theorem follows_append {start stop : P} {older younger : List (Event P)} :
    Follows start (older ++ younger) stop ↔
      ∃ middle, Follows start older middle ∧ Follows middle younger stop := by
  induction older generalizing start with
  | nil => simp
  | cons event rest ih =>
    cases event with
    | execute pc next =>
      simp only [List.cons_append, Follows, ih]
      constructor
      · rintro ⟨here, after, leads, middle, first, second⟩
        exact ⟨middle, ⟨here, after, leads, first⟩, second⟩
      · rintro ⟨middle, ⟨here, after, leads, first⟩, second⟩
        exact ⟨here, after, leads, middle, first, second⟩
    | divert target =>
      simp only [List.cons_append, Follows, ih]

/-- The end of a trace, if every instruction is where it has to be. -/
def follow [DecidableEq P] : P → List (Event P) → Option P
  | start, [] => some start
  | start, .execute pc next :: rest =>
    if pc = start then next.bind fun after => follow after rest else none
  | _, .divert target :: rest => follow target rest

theorem follows_iff [DecidableEq P] {start stop : P} {events : List (Event P)} :
    Follows start events stop ↔ follow start events = some stop := by
  induction events generalizing start with
  | nil => simp [follow]
  | cons event rest ih =>
    cases event with
    | execute pc next =>
      by_cases here : pc = start
      · simp [Follows, follow, here, ih, Option.bind_eq_some_iff]
      · simp [Follows, follow, here]
    | divert target => exact ih

theorem not_follows [DecidableEq P] {start : P} {events : List (Event P)}
    (lost : follow start events = none) : ¬ ∃ stop, Follows start events stop := by
  rintro ⟨stop, follows⟩
  simp [follows_iff, lost] at follows

/-- A trace has one end. -/
theorem Follows.stop_unique [DecidableEq P] {start stop other : P} {events : List (Event P)}
    (follows : Follows start events stop) (again : Follows start events other) : stop = other := by
  rw [follows_iff] at follows again
  exact Option.some.inj (follows.symm.trans again)

end Trace
