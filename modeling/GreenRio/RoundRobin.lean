import Mathlib.Data.List.TakeDrop
import GreenRio.Circular

set_option autoImplicit false

namespace RoundRobin

open Circular

variable {n : Nat} {κ ν : Type}

section History

variable [DecidableEq κ]

/-- The keys that trainings insert into a table of `n` cells, newest first: a key that is among the
last `n` of them is not inserted again. -/
def insertKey (n : Nat) (keys : List κ) (training : κ × ν) : List κ :=
  if training.1 ∈ keys.take n then keys else training.1 :: keys

def inserted (n : Nat) (trainings : List (κ × ν)) : List κ := trainings.foldl (insertKey n) []

/-- The keys that a table of `n` cells should hold. -/
def recent (n : Nat) (trainings : List (κ × ν)) : List κ := (inserted n trainings).take n

/-- The value of the last training of a key. -/
def latest (trainings : List (κ × ν)) (key : κ) : Option ν := trainings.reverse.lookup key

variable {trainings : List (κ × ν)} {key : κ} {value : ν}

theorem inserted_snoc : inserted n (trainings ++ [(key, value)]) =
    if key ∈ recent n trainings then inserted n trainings else key :: inserted n trainings := by
  rw [inserted, List.foldl_append, List.foldl_cons, List.foldl_nil]
  rfl

theorem recent_length (n : Nat) (trainings : List (κ × ν)) : (recent n trainings).length ≤ n :=
  List.length_take_le n _

theorem recent_snoc_held (value : ν) (held : key ∈ recent n trainings) :
    recent n (trainings ++ [(key, value)]) = recent n trainings := by
  rw [recent, inserted_snoc, if_pos held, recent]

theorem recent_snoc_new (new : key ∉ recent n trainings) :
    recent n (trainings ++ [(key, value)]) = (key :: recent n trainings).take n := by
  rw [recent, inserted_snoc, if_neg new]
  cases n with
  | zero => rfl
  | succ n => simp [recent, List.take_take]

theorem latest_snoc (other : κ) : latest (trainings ++ [(key, value)]) other =
    if other = key then some value else latest trainings other := by
  simp only [latest, List.reverse_append, List.reverse_singleton, List.singleton_append,
    List.lookup_cons]
  by_cases same : other = key
  · simp [same]
  · simp [same, beq_eq_false_iff_ne.mpr same]

end History

/-- Cells that are filled in turn. -/
structure Table (n : Nat) (κ ν : Type) where
  cells : Fin n → Option (κ × ν)
  next : Fin n

namespace Table

def key (table : Table n κ ν) (cell : Fin n) : Option κ := (table.cells cell).map Prod.fst

theorem key_eq_some {table : Table n κ ν} {cell : Fin n} {key : κ} :
    table.key cell = some key ↔ ∃ value, table.cells cell = some (key, value) := by
  unfold Table.key
  cases table.cells cell with
  | none => simp
  | some pair => simp [Prod.ext_iff]

section Training

variable [DecidableEq κ]

/-- What a training does to a table: a key that is held keeps its cell and gets the new value, any
other one takes the next cell. -/
structure Trains (table after : Table n κ ν) (key : κ) (value : ν) : Prop where
  held : (∃ cell, table.key cell = some key) → after.next = table.next ∧
    ∀ cell, after.cells cell =
      if table.key cell = some key then some (key, value) else table.cells cell
  new : (¬∃ cell, table.key cell = some key) → after.next = advance table.next 1 ∧
    after.cells = Function.update table.cells table.next (some (key, value))

/-- The table holds the recent keys from `start` on, oldest first, with the values of their last
trainings, and nothing else. -/
structure Follows (table : Table n κ ν) (start : Fin n) (trainings : List (κ × ν)) : Prop where
  next : advance start (recent n trainings).length = table.next
  keys : window table.key start (recent n trainings).length =
    (recent n trainings).reverse.map some
  outside : ∀ cell, cell ∉ slots start (recent n trainings).length → table.cells cell = none
  values : ∀ cell key value, table.cells cell = some (key, value) →
    latest trainings key = some value
  nodup : (recent n trainings).Nodup

variable {table after : Table n κ ν} {start : Fin n} {trainings : List (κ × ν)} {key : κ}
  {value : ν}

theorem follows_nil (empty : ∀ cell, table.cells cell = none) : table.Follows table.next [] where
  next := by simp [recent, inserted]
  keys := by simp [recent, inserted]
  outside cell _ := empty cell
  values cell key value found := by
    rw [empty cell] at found
    cases found
  nodup := by simp [recent, inserted]

namespace Follows

variable (follows : table.Follows start trainings)
include follows

/-- A key is held if and only if it is recent. -/
theorem holds_iff : (∃ cell, table.key cell = some key) ↔ key ∈ recent n trainings := by
  have member : some key ∈ window table.key start (recent n trainings).length ↔
      key ∈ recent n trainings := by
    rw [follows.keys]
    simp
  rw [← member, window, List.mem_map]
  constructor
  · rintro ⟨cell, found⟩
    refine ⟨cell, ?_, found⟩
    by_contra outside
    rw [Table.key, follows.outside cell outside] at found
    cases found
  · rintro ⟨cell, -, found⟩
    exact ⟨cell, found⟩

/-- No two cells hold the same key. -/
theorem key_injective {cell other : Fin n} (first : table.key cell = some key)
    (second : table.key other = some key) : cell = other := by
  have distinct : (window table.key start (recent n trainings).length).Nodup := by
    rw [follows.keys]
    exact (List.nodup_reverse.mpr follows.nodup).map fun _ _ => Option.some.inj
  have inside : ∀ cell, table.key cell = some key →
      cell ∈ slots start (recent n trainings).length := by
    intro cell found
    by_contra outside
    rw [Table.key, follows.outside cell outside] at found
    cases found
  exact List.inj_on_of_nodup_map distinct (inside cell first) (inside other second)
    (first.trans second.symm)

theorem held (trains : table.Trains after key value) (held : key ∈ recent n trainings) :
    after.Follows start (trainings ++ [(key, value)]) := by
  obtain ⟨next, cells⟩ := trains.held (follows.holds_iff.mpr held)
  have keys : after.key = table.key := by
    funext cell
    rw [Table.key, cells cell]
    split
    next found => exact found.symm
    next => rfl
  have same := recent_snoc_held value held
  constructor
  · rw [same, next, follows.next]
  · rw [same, keys, follows.keys]
  · intro cell outside
    rw [same] at outside
    rw [cells cell, Table.key, follows.outside cell outside]
    rfl
  · intro cell other found stored
    rw [cells cell] at stored
    rw [latest_snoc]
    split at stored
    next =>
      obtain ⟨rfl, rfl⟩ := Prod.mk.inj (Option.some.inj stored)
      exact if_pos rfl
    next elsewhere =>
      have apart : other ≠ key := by
        rintro rfl
        exact elsewhere (key_eq_some.mpr ⟨found, stored⟩)
      rw [if_neg apart]
      exact follows.values cell other found stored
  · rw [same]
    exact follows.nodup

/-- Of the recent keys a new one leaves the last `n - 1`; they stand behind the cell it takes. -/
theorem kept : ∃ first kept, kept = (recent n trainings).take (n - 1) ∧
    advance first kept.length = table.next ∧
    window table.key first kept.length = kept.reverse.map some ∧
    ∀ cell, cell ≠ table.next → cell ∉ slots first kept.length → table.cells cell = none := by
  have size := recent_length n trainings
  have cells := start.isLt
  generalize split : (recent n trainings).length - (n - 1) = dropped
  generalize keep : (recent n trainings).take (n - 1) = kept
  have length : (recent n trainings).length = dropped + kept.length := by
    rw [← keep, List.length_take]
    omega
  refine ⟨advance start dropped, kept, rfl, ?_, ?_, ?_⟩
  · rw [advance_advance, ← length, follows.next]
  · have keys := follows.keys
    rw [length, window_take, ← List.take_append_drop (n - 1) (recent n trainings), keep,
      List.reverse_append, List.map_append] at keys
    exact (List.append_inj' keys (by simp)).2
  · intro cell apart outside
    apply follows.outside cell
    rw [length, slots_take, List.mem_append]
    rintro (front | behind)
    · obtain ⟨step, below, rfl⟩ := (mem_slots start cell dropped).mp front
      have full : (recent n trainings).length = n := by omega
      have first : step = 0 := by omega
      subst first
      rw [← follows.next, full] at apart
      apply apart
      apply Fin.ext
      simp [advance]
    · exact outside behind

theorem new (trains : table.Trains after key value) (new : key ∉ recent n trainings) :
    ∃ start, after.Follows start (trainings ++ [(key, value)]) := by
  obtain ⟨next, cells⟩ := trains.new (mt follows.holds_iff.mp new)
  obtain ⟨start', kept, keep, behind, keys, outside⟩ := follows.kept
  have size : kept.length < n := by
    have cells := start.isLt
    rw [keep, List.length_take]
    omega
  have filled : recent n (trainings ++ [(key, value)]) = key :: kept := by
    rw [recent_snoc_new new, keep]
    cases n with
    | zero => exact start.elim0
    | succ n => rfl
  have keyed : after.key = Function.update table.key (advance start' kept.length) (some key) := by
    funext cell
    rw [Table.key, cells, behind]
    by_cases same : cell = table.next
    · subst same
      simp
    · simp [same, Table.key]
  refine ⟨start', ?_, ?_, ?_, ?_, ?_⟩
  · rw [filled, next, ← behind, advance_advance, List.length_cons]
  · rw [filled, keyed, List.length_cons, window_push _ _ _ _ size, keys]
    simp
  · intro cell beyond
    rw [filled, List.length_cons, slots_snoc, List.mem_append, List.mem_singleton, behind,
      not_or] at beyond
    rw [cells, Function.update_of_ne beyond.2]
    exact outside cell beyond.2 beyond.1
  · intro cell other found stored
    rw [cells, Function.update_apply] at stored
    rw [latest_snoc]
    split at stored
    next =>
      obtain ⟨rfl, rfl⟩ := Prod.mk.inj (Option.some.inj stored)
      exact if_pos rfl
    next =>
      have apart : other ≠ key := by
        rintro rfl
        exact new (follows.holds_iff.mp ⟨cell, key_eq_some.mpr ⟨found, stored⟩⟩)
      rw [if_neg apart]
      exact follows.values cell other found stored
  · rw [filled, List.nodup_cons, keep]
    exact ⟨fun member => new (List.mem_of_mem_take member), follows.nodup.take⟩

/-- Every training keeps the table in step with the history. -/
theorem step (trains : table.Trains after key value) :
    ∃ start, after.Follows start (trainings ++ [(key, value)]) := by
  by_cases member : key ∈ recent n trainings
  · exact ⟨start, follows.held trains member⟩
  · exact follows.new trains member

end Follows

end Training

end Table

end RoundRobin
