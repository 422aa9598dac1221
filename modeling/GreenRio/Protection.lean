import Mathlib.Data.ZMod.Defs
import Mathlib.Order.WellFounded

set_option autoImplicit false

namespace RiscV

/-- How an entry of physical memory protection matches addresses. -/
inductive Matching where
  | off
  | tor
  | na4
  | napot

inductive AccessType where
  | read
  | write
  | execute

/-- An entry; its address counts words of four bytes. -/
structure PmpRule where
  locked : Bool
  matching : Matching
  execute : Bool
  write : Bool
  read : Bool
  address : Nat

def Matching.ofBits (field : BitVec 2) : Matching :=
  match field with
  | 0 => .off
  | 1 => .tor
  | 2 => .na4
  | _ => .napot

namespace PmpRule

variable (rule : PmpRule)

def reset : PmpRule := ⟨false, .off, false, false, false, 0⟩

def permits : AccessType → Bool
  | .read => rule.read
  | .write => rule.write
  | .execute => rule.execute

/-- The region of an entry, above the address `below` of the entry before it. A naturally aligned
one spans as many words as the ones at the end of its address name. -/
def Contains (below paddr : Nat) : Prop :=
  match rule.matching with
  | .off => False
  | .tor => 4 * below ≤ paddr ∧ paddr < 4 * rule.address
  | .na4 => paddr / 4 = rule.address
  | .napot => ∃ ones, rule.address % 2 ^ (ones + 1) = 2 ^ ones - 1 ∧
      paddr / 2 ^ (ones + 3) = rule.address / 2 ^ (ones + 1)

/-- A configuration byte, while the entry is not locked. -/
def configure (config : BitVec 8) : PmpRule :=
  if rule.locked then rule else
    { rule with
      locked := config.getLsbD 7
      matching := .ofBits (config.extractLsb' 3 2)
      execute := config.getLsbD 2
      write := config.getLsbD 1
      read := config.getLsbD 0 }

/-- The top of a locked range locks the address below it too. -/
def holdsFormer : Bool :=
  match rule.matching with
  | .tor => rule.locked
  | _ => false

/-- An address register shows the bits from the second on of an address. -/
def assign (held : Bool) (value : BitVec 64) : PmpRule :=
  if rule.locked || held then rule else { rule with address := (value.extractLsb' 0 54).toNat }

end PmpRule

section Table

variable {n : Nat} (rules : Fin n → PmpRule)

/-- The address below an entry. -/
def addressBelow (index : Fin n) : Nat :=
  if above : 0 < index.val then (rules ⟨index.val - 1, by omega⟩).address else 0

def Matches (paddr : Nat) (index : Fin n) : Prop :=
  (rules index).Contains (addressBelow rules index) paddr

/-- The entry that decides: the first one whose region has the address. -/
structure Decides (paddr : Nat) (index : Fin n) : Prop where
  matching : Matches rules paddr index
  first : ∀ earlier < index, ¬Matches rules paddr earlier

/-- What the specification denies. An entry restricts machine mode if it is locked, and below
machine mode an address without an entry is out of reach. -/
def Denied (machine : Prop) (access : AccessType) (paddr : Nat) : Prop :=
  (∃ index, Decides rules paddr index ∧ (rules index).permits access = false ∧
      (machine → (rules index).locked = true)) ∨
    (∀ index, ¬Matches rules paddr index) ∧ ¬machine

/-- No entry behind the first one and no mode makes a difference: an access that the first entry
permits is permitted by all that match, and one that it refuses is none of machine mode unless the
entry is locked. -/
def Undisputed (machine : Prop) (access : AccessType) (paddr : Nat) : Prop :=
  ∀ first, Decides rules paddr first →
    ((rules first).permits access = true →
      ∀ index, Matches rules paddr index → (rules index).permits access = true) ∧
    ((rules first).permits access = false → machine → (rules first).locked = true)

variable {rules} {machine : Prop} {access : AccessType} {paddr : Nat}

theorem exists_decides {index : Fin n} (found : Matches rules paddr index) :
    ∃ first, Decides rules paddr first := by
  obtain ⟨first, found, least⟩ :=
    WellFounded.has_min (@wellFounded_lt (Fin n) _ _) {index | Matches rules paddr index}
      ⟨index, found⟩
  exact ⟨first, found, fun earlier before also => least earlier also before⟩

theorem Decides.unique {first other : Fin n} (decides : Decides rules paddr first)
    (also : Decides rules paddr other) : first = other := by
  rcases lt_trichotomy first other with before | same | behind
  · exact absurd decides.matching (also.first first before)
  · exact same
  · exact absurd also.matching (decides.first other behind)

/-- The rule that decides denies an access that it does not permit, in machine mode if it is
locked. -/
theorem Decides.denied_iff {first : Fin n} (decides : Decides rules paddr first) :
    Denied rules machine access paddr ↔
      (rules first).permits access = false ∧ (machine → (rules first).locked = true) := by
  constructor
  · rintro (⟨index, also, refused⟩ | outside)
    · rwa [decides.unique also]
    · exact absurd decides.matching (outside.1 first)
  · exact fun refused => .inl ⟨first, decides, refused⟩

theorem Decides.undisputed_iff {first : Fin n} (decides : Decides rules paddr first) :
    Undisputed rules machine access paddr ↔
      ((rules first).permits access = true →
        ∀ index, Matches rules paddr index → (rules index).permits access = true) ∧
      ((rules first).permits access = false → machine → (rules first).locked = true) := by
  constructor
  · exact fun all => all first decides
  · intro here other also
    rwa [← decides.unique also]

/-- A check that refuses as soon as one matching entry does, in every mode, agrees with the
specification exactly on what is not disputed. -/
theorem any_refuses_iff :
    ((∃ index, Matches rules paddr index ∧ (rules index).permits access = false) ∨
        (∀ index, ¬Matches rules paddr index) ∧ ¬machine ↔
      Denied rules machine access paddr) ↔ Undisputed rules machine access paddr := by
  by_cases none : ∀ index, ¬Matches rules paddr index
  · refine iff_of_true ?_ fun first decides => absurd decides.matching (none first)
    constructor
    · rintro (⟨index, found, -⟩ | outside)
      · exact absurd found (none index)
      · exact .inr outside
    · rintro (⟨index, decides, -⟩ | outside)
      · exact absurd decides.matching (none index)
      · exact .inr outside
  · have found := not_forall_not.mp none
    obtain ⟨first, decides⟩ := exists_decides found.choose_spec
    rw [decides.denied_iff, decides.undisputed_iff, or_iff_left fun outside => none outside.1]
    cases permitted : (rules first).permits access with
    | true =>
      constructor
      · intro agrees
        refine ⟨fun _ index matching => ?_, nofun⟩
        by_contra refused
        exact absurd (agrees.mp ⟨index, matching, (Bool.not_eq_true _).mp refused⟩).1 nofun
      · rintro ⟨all, -⟩
        refine iff_of_false ?_ fun refused => nomatch refused.1
        rintro ⟨index, matching, refused⟩
        rw [all rfl index matching] at refused
        cases refused
    | false =>
      constructor
      · intro agrees
        exact ⟨nofun, fun _ => (agrees.mp ⟨first, decides.matching, permitted⟩).2⟩
      · rintro ⟨-, locked⟩
        exact iff_of_true ⟨first, decides.matching, permitted⟩ ⟨rfl, locked rfl⟩

end Table

end RiscV
