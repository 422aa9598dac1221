import Mathlib.Data.ZMod.Defs

set_option autoImplicit false

namespace PageWalk

variable {Address Entry : Type}

/-- What a walk through page tables ends with. -/
inductive Outcome (Entry : Type) where
  | leaf (entry : Entry) (level : Nat)
  | pageFault
  | accessFault
  deriving DecidableEq

/-- Which entries are legal, which of them end a walk, and where the others lead one level down. -/
structure Format (Address Entry : Type) where
  legal : Entry → Bool
  leaf : Entry → Bool
  next : Entry → Nat → Address

/-- A memory that holds page tables, and the addresses that may not be read. -/
structure Tables (Address Entry : Type) where
  read : Address → Entry
  refuses : Address → Bool

namespace Format

variable (format : Format Address Entry) (tables : Tables Address Entry)

/-- What the entry at an address says, given what a pointer to the next level ends with. -/
def visit (address : Address) (level : Nat) (deeper : Outcome Entry) : Outcome Entry :=
  if tables.refuses address then .accessFault
  else if !format.legal (tables.read address) then .pageFault
  else if format.leaf (tables.read address) then .leaf (tables.read address) level
  else deeper

/-- The walk from an address of a level. -/
def walk : Nat → Address → Outcome Entry
  | 0, address => format.visit tables address 0 .pageFault
  | level + 1, address =>
    format.visit tables address (level + 1)
      (walk level (format.next (tables.read address) level))

/-- The addresses a walk reads, with their levels; the last one may be refused. -/
def path : Nat → Address → List (Nat × Address)
  | 0, address => [(0, address)]
  | level + 1, address =>
    (level + 1, address) ::
      if !tables.refuses address && format.legal (tables.read address) &&
          !format.leaf (tables.read address) then
        path level (format.next (tables.read address) level)
      else []

/-- A read of an entry that ends a walk with a page fault. -/
def faulty (step : Nat × Address) : Bool :=
  !tables.refuses step.2 &&
    (!format.legal (tables.read step.2) || (step.1 == 0 && !format.leaf (tables.read step.2)))

variable {format tables}

/-- A walk reads at most one entry of each level. -/
theorem path_length (level : Nat) (address : Address) :
    (format.path tables level address).length ≤ level + 1 := by
  induction level generalizing address with
  | zero => exact Nat.le_refl _
  | succ level ih =>
    rw [path, List.length_cons]
    split
    · exact Nat.succ_le_succ (ih _)
    · simp

/-- A page fault comes from a faulty entry on the way. -/
theorem walk_eq_pageFault (level : Nat) (address : Address) :
    format.walk tables level address = .pageFault ↔
      ∃ step ∈ format.path tables level address, format.faulty tables step = true := by
  induction level generalizing address with
  | zero =>
    cases refused : tables.refuses address with
    | true => simp [walk, path, visit, faulty, refused]
    | false =>
      cases legal : format.legal (tables.read address) <;>
        cases leaf : format.leaf (tables.read address) <;>
        simp [walk, path, visit, faulty, refused, legal, leaf]
  | succ level ih =>
    cases refused : tables.refuses address with
    | true => simp [walk, path, visit, faulty, refused]
    | false =>
      cases legal : format.legal (tables.read address) <;>
        cases leaf : format.leaf (tables.read address) <;>
        simp [walk, path, visit, faulty, refused, legal, leaf, ih]

/-- An access fault comes from a refused read on the way. -/
theorem walk_eq_accessFault (level : Nat) (address : Address) :
    format.walk tables level address = .accessFault ↔
      ∃ step ∈ format.path tables level address, tables.refuses step.2 = true := by
  induction level generalizing address with
  | zero =>
    cases refused : tables.refuses address with
    | true => simp [walk, path, visit, refused]
    | false =>
      cases legal : format.legal (tables.read address) <;>
        cases leaf : format.leaf (tables.read address) <;>
        simp [walk, path, visit, refused, legal, leaf]
  | succ level ih =>
    cases refused : tables.refuses address with
    | true => simp [walk, path, visit, refused]
    | false =>
      cases legal : format.legal (tables.read address) <;>
        cases leaf : format.leaf (tables.read address) <;>
        simp [walk, path, visit, refused, legal, leaf, ih]

/-- A format that is stricter about legality. -/
def restrict (format : Format Address Entry) (clear : Entry → Bool) : Format Address Entry :=
  { format with legal := fun entry => format.legal entry && clear entry }

variable (format tables) in
/-- Being stricter makes no difference exactly where no entry on the way is refused for it, or where
the walk faults anyway. -/
theorem restrict_walk_iff (clear : Entry → Bool) (level : Nat) (address : Address) :
    (format.restrict clear).walk tables level address = format.walk tables level address ↔
      (∀ step ∈ format.path tables level address,
        tables.refuses step.2 = true ∨ clear (tables.read step.2) = true) ∨
      ∃ step ∈ format.path tables level address, format.faulty tables step = true := by
  rw [← walk_eq_pageFault]
  induction level generalizing address with
  | zero =>
    cases refused : tables.refuses address with
    | true => simp [walk, path, visit, refused]
    | false =>
      cases legal : format.legal (tables.read address) <;>
        cases leaf : format.leaf (tables.read address) <;>
        cases clean : clear (tables.read address) <;>
        simp [walk, path, visit, restrict, refused, legal, leaf, clean]
  | succ level ih =>
    cases refused : tables.refuses address with
    | true => simp [walk, path, visit, refused]
    | false =>
      cases legal : format.legal (tables.read address) <;>
        cases leaf : format.leaf (tables.read address) <;>
        cases clean : clear (tables.read address)
      all_goals simp [walk, path, visit, restrict, refused, legal, leaf, clean]
      · exact eq_comm
      · simpa [restrict] using ih (format.next (tables.read address) level)

end Format

end PageWalk
