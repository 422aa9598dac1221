import Mathlib.Data.List.Induction
import GreenRio.Renaming

set_option autoImplicit false

/-- A renamed destination together with the value its instruction has produced, if any yet. -/
structure Write (m : Nat) (P V : Type) extends Renaming m P where
  result : Option V

namespace Write

variable {m : Nat} {P V : Type} [NeZero m]

/-- The registers after a sequence of writes in program order; name `0` is never written, and a
register whose last writer has not produced a value holds `none`. -/
def replay (registers : Fin m → Option V) (writes : List (Write m P V)) : Fin m → Option V :=
  writes.foldl
    (fun registers write =>
      if write.rd = 0 then registers else Function.update registers write.rd write.result)
    registers

@[simp] theorem replay_nil (registers : Fin m → Option V) :
    replay registers ([] : List (Write m P V)) = registers := rfl

@[simp] theorem replay_cons (registers : Fin m → Option V) (write : Write m P V)
    (rest : List (Write m P V)) :
    replay registers (write :: rest) =
      replay (if write.rd = 0 then registers
        else Function.update registers write.rd write.result) rest := rfl

@[simp] theorem replay_append (registers : Fin m → Option V) (older younger : List (Write m P V)) :
    replay registers (older ++ younger) = replay (replay registers older) younger := by
  simp [replay]

theorem replay_zero (registers : Fin m → Option V) (writes : List (Write m P V)) :
    replay registers writes 0 = registers 0 := by
  induction writes generalizing registers with
  | nil => rfl
  | cons write rest ih =>
    rw [replay_cons, ih]
    split
    · rfl
    · rename_i named
      exact Function.update_of_ne (Ne.symm named) _ _

/-- A known value stays known when the writes are completed further. -/
theorem replay_refine {ι : Type} (registers : Fin m → Option V) (items : List ι)
    (before after : ι → Write m P V) (named : ∀ item ∈ items, (before item).rd = (after item).rd)
    (kept : ∀ item ∈ items, ∀ value, (before item).result = some value →
      (after item).result = some value) (name : Fin m) (value : V)
    (known : replay registers (items.map before) name = some value) :
    replay registers (items.map after) name = some value := by
  induction items using List.reverseRecOn with
  | nil => exact known
  | append_singleton rest last ih =>
    have earlier := ih (fun item member => named item (by simp [member]))
      (fun item member => kept item (by simp [member]))
    rw [List.map_append, replay_append, List.map_cons, List.map_nil, replay_cons, replay_nil]
      at known ⊢
    rw [← named last (by simp)]
    by_cases zero : (before last).rd = 0
    · rw [if_pos zero] at known ⊢
      exact earlier known
    · rw [if_neg zero] at known ⊢
      by_cases this : name = (before last).rd
      · rw [this, Function.update_self] at known ⊢
        exact kept last (by simp) value known
      · rw [Function.update_of_ne this] at known ⊢
        exact earlier known

variable [Zero P]

/-- Storage that is ready holds the value of its owner: a committed register, or a pending
write. -/
structure Carries (ready : P → Bool) (cells : P → V) (registers : Fin m → Option V)
    (map : Fin m → P) (writes : List (Write m P V)) : Prop where
  committed : ∀ name, ready (map name) = true → registers name = some (cells (map name))
  pending : ∀ write ∈ writes, write.prd ≠ 0 → ready write.prd = true →
    write.result = some (cells write.prd)

variable {ready : P → Bool} {cells : P → V} {registers : Fin m → Option V} {map : Fin m → P}

/-- One write moves from the pending ones to the committed registers. -/
theorem Carries.commit {write : Write m P V} {rest : List (Write m P V)}
    (carries : Carries ready cells registers map (write :: rest)) (unnamed : map 0 = 0)
    (named : write.rd = 0 ↔ write.prd = 0) :
    Carries ready cells (replay registers [write]) (Function.update map write.rd write.prd)
      rest := by
  refine ⟨fun name available => ?_, fun other member => carries.pending other (by simp [member])⟩
  rw [replay_cons, replay_nil]
  by_cases zero : write.rd = 0
  · rw [if_pos zero]
    have same : Function.update map write.rd write.prd = map := by
      rw [named.mp zero, zero, ← unnamed, Function.update_eq_self]
    rw [same] at available ⊢
    exact carries.committed name available
  · rw [if_neg zero]
    by_cases this : name = write.rd
    · subst this
      rw [Function.update_self] at available ⊢
      rw [Function.update_self]
      exact carries.pending write (by simp) (fun none => zero (named.mpr none)) available
    · rw [Function.update_of_ne this] at available ⊢
      rw [Function.update_of_ne this]
      exact carries.committed name available

/-- All of a prefix moves. -/
theorem Carries.commitAll {older younger : List (Write m P V)}
    (carries : Carries ready cells registers map (older ++ younger)) (unnamed : map 0 = 0)
    (named : ∀ write ∈ older, write.rd = 0 ↔ write.prd = 0) :
    Carries ready cells (replay registers older)
      (Renaming.apply map (older.map Write.toRenaming)) younger := by
  induction older generalizing registers map with
  | nil => exact carries
  | cons write rest ih =>
    have first := named write (by simp)
    have next : Function.update map write.rd write.prd 0 = 0 := by
      by_cases zero : write.rd = 0
      · rw [zero, Function.update_self]
        exact first.mp zero
      · rw [Function.update_of_ne (Ne.symm zero)]
        exact unnamed
    have one := Carries.commit carries unnamed first
    rw [← List.singleton_append, replay_append]
    exact ih one next fun other member => named other (by simp [member])

/-- Reading a register through the map that the older writes leave gives the value of its most
recent writer. -/
theorem Carries.read {older younger : List (Write m P V)}
    (carries : Carries ready cells registers map (older ++ younger)) (unnamed : map 0 = 0)
    (named : ∀ write ∈ older, write.rd = 0 ↔ write.prd = 0) (name : Fin m)
    (available : ready (Renaming.apply map (older.map Write.toRenaming) name) = true) :
    replay registers older name =
      some (cells (Renaming.apply map (older.map Write.toRenaming) name)) :=
  (carries.commitAll unnamed named).committed name available

end Write
