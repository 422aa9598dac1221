import Mathlib.Data.ZMod.Defs

set_option autoImplicit false

/-- One renamed destination: the register it names, the storage it was given and the storage the
name had before. `0` names nothing on either side. -/
structure Renaming (m : Nat) (P : Type) where
  rd : Fin m
  prd : P
  lprd : P

namespace Renaming

variable {m : Nat} {P : Type}

/-- The map after a sequence of renamings, oldest first. -/
def apply (map : Fin m → P) (renames : List (Renaming m P)) : Fin m → P :=
  renames.foldl (fun map rename => Function.update map rename.rd rename.prd) map

@[simp] theorem apply_nil (map : Fin m → P) : apply map [] = map := rfl

@[simp] theorem apply_cons (map : Fin m → P) (rename : Renaming m P)
    (rest : List (Renaming m P)) :
    apply map (rename :: rest) = apply (Function.update map rename.rd rename.prd) rest := rfl

@[simp] theorem apply_append (map : Fin m → P) (older younger : List (Renaming m P)) :
    apply map (older ++ younger) = apply (apply map older) younger := by
  simp [apply]

private theorem ofFn_perm_cons (map : Fin m → P) (name : Fin m) :
    ∃ others, ∀ value, (List.ofFn (Function.update map name value)).Perm (value :: others) := by
  refine ⟨((List.finRange m).erase name).map map, fun value => ?_⟩
  have split : (List.finRange m).Perm (name :: (List.finRange m).erase name) :=
    List.perm_cons_erase (List.mem_finRange name)
  have rest : ((List.finRange m).erase name).map (Function.update map name value) =
      ((List.finRange m).erase name).map map := by
    apply List.map_congr_left
    intro other member
    exact Function.update_of_ne (((List.nodup_finRange m).mem_erase_iff.mp member).1) _ _
  rw [List.ofFn_eq_map]
  simpa [rest] using split.map (Function.update map name value)

section Storage

variable [Zero P] [DecidableEq P]

/-- What a list names, with the zeros left out. -/
def live (storage : List P) : List P := storage.filter (· ≠ 0)

@[simp] theorem live_nil : live ([] : List P) = [] := rfl

@[simp] theorem live_append (left right : List P) :
    live (left ++ right) = live left ++ live right := List.filter_append ..

theorem live_cons (head : P) (tail : List P) :
    live (head :: tail) = live [head] ++ live tail := by
  rw [← live_append, List.singleton_append]

theorem live_perm {left right : List P} (same : left.Perm right) : (live left).Perm (live right) :=
  same.filter _

/-- The storage of a map. -/
def mapped (map : Fin m → P) : List P := live (List.ofFn map)

/-- The storage given out by pending renamings. -/
def pending (renames : List (Renaming m P)) : List P := live (renames.map Renaming.prd)

@[simp] theorem pending_nil : pending ([] : List (Renaming m P)) = [] := rfl

@[simp] theorem pending_append (older younger : List (Renaming m P)) :
    pending (older ++ younger) = pending older ++ pending younger := by
  simp [pending]

theorem pending_length_le (renames : List (Renaming m P)) :
    (pending renames).length ≤ renames.length := by
  simpa [pending, live] using List.length_filter_le (· ≠ 0) (renames.map Renaming.prd)

/-- Renaming one name exchanges its old storage for the new one. -/
theorem mapped_update (map : Fin m → P) (name : Fin m) (value : P) :
    (live [map name] ++ mapped (Function.update map name value)).Perm
      (live [value] ++ mapped map) := by
  obtain ⟨others, exchange⟩ := ofFn_perm_cons map name
  have fresh := live_perm (exchange value)
  have old := live_perm (exchange (map name))
  rw [Function.update_eq_self, live_cons] at old
  rw [live_cons] at fresh
  calc (live [map name] ++ mapped (Function.update map name value)).Perm
        (live [map name] ++ (live [value] ++ live others)) := fresh.append_left _
    _ = (live [map name] ++ live [value]) ++ live others := (List.append_assoc ..).symm
    _ |>.Perm ((live [value] ++ live [map name]) ++ live others) :=
        List.perm_append_comm.append_right _
    _ = live [value] ++ (live [map name] ++ live others) := List.append_assoc ..
    _ |>.Perm (live [value] ++ mapped map) := old.symm.append_left _

end Storage

variable [Zero P] [NeZero m]

/-- Storage is given exactly to nonzero names, and each renaming remembers what it hides. -/
def Chained : (Fin m → P) → List (Renaming m P) → Prop
  | _, [] => True
  | map, rename :: rest =>
    (rename.rd = 0 ↔ rename.prd = 0) ∧ rename.lprd = map rename.rd ∧
      Chained (Function.update map rename.rd rename.prd) rest

theorem Chained.snoc {map : Fin m → P} {renames : List (Renaming m P)} {rename : Renaming m P}
    (chain : Chained map renames) (named : rename.rd = 0 ↔ rename.prd = 0)
    (hides : rename.lprd = apply map renames rename.rd) :
    Chained map (renames ++ [rename]) := by
  induction renames generalizing map with
  | nil => exact ⟨named, hides, trivial⟩
  | cons first rest ih => exact ⟨chain.1, chain.2.1, ih chain.2.2 hides⟩

/-- Name `0` keeps naming nothing. -/
theorem Chained.apply_zero {map : Fin m → P} {renames : List (Renaming m P)}
    (chain : Chained map renames) (zero : map 0 = 0) : apply map renames 0 = 0 := by
  induction renames generalizing map with
  | nil => exact zero
  | cons rename rest ih =>
    apply ih chain.2.2
    by_cases named : rename.rd = 0
    · rw [named, Function.update_self]
      exact chain.1.mp named
    · rw [Function.update_of_ne (Ne.symm named)]
      exact zero

theorem Chained.named {map : Fin m → P} {renames : List (Renaming m P)}
    (chain : Chained map renames) : ∀ rename ∈ renames, (rename.rd = 0 ↔ rename.prd = 0) := by
  induction renames generalizing map with
  | nil => intro rename member; cases member
  | cons first rest ih =>
    intro rename member
    rcases List.mem_cons.mp member with rfl | member
    · exact chain.1
    · exact ih chain.2.2 rename member

/-- From the empty map, a name has storage exactly when something has renamed it. -/
theorem apply_ne_zero_iff {renames : List (Renaming m P)} (name : Fin m)
    (named : ∀ rename ∈ renames, (rename.rd = 0 ↔ rename.prd = 0)) :
    apply (fun _ => 0) renames name ≠ 0 ↔
      name ≠ 0 ∧ ∃ rename ∈ renames, rename.rd = name := by
  induction renames using List.reverseRecOn with
  | nil => simp
  | append_singleton older rename ih =>
    have last := named rename (by simp)
    have before := ih fun other member => named other (by simp [member])
    rw [apply_append, apply_cons, apply_nil]
    by_cases same : name = rename.rd
    · subst same
      simp [← last]
    · simp [Function.update_of_ne same, before, Ne.symm same]

variable [DecidableEq P]

/-- A committed map with its pending renamings and the storage still free: together they hold
every register of `storage` once. -/
structure Valid (map : Fin m → P) (renames : List (Renaming m P)) (free storage : List P) :
    Prop where
  zero : map 0 = 0
  chain : Chained map renames
  partition : (mapped map ++ pending renames ++ free).Perm storage

namespace Valid

variable {map : Fin m → P} {renames : List (Renaming m P)} {free storage : List P}

theorem mapped_length_lt (zero : map 0 = 0) : (mapped map).length < m := by
  have shorter : ((List.ofFn map).filter (· ≠ 0)).length < (List.ofFn map).length := by
    rw [List.length_filter_lt_length_iff_exists]
    exact ⟨0, List.mem_ofFn.mpr ⟨0, zero⟩, by simp⟩
  simpa [mapped, live] using shorter

/-- Pending renamings leave enough storage free. -/
theorem storage_length_lt (valid : Valid map renames free storage) :
    storage.length < m + renames.length + free.length := by
  have total := valid.partition.length_eq
  have committed := mapped_length_lt valid.zero
  have given := pending_length_le renames
  simp only [List.length_append] at total
  omega

/-- A new renaming takes its storage from the front of the free list. -/
theorem allocate {rename : Renaming m P} {rest : List P}
    (valid : Valid map renames free storage) (named : rename.rd = 0 ↔ rename.prd = 0)
    (hides : rename.lprd = apply map renames rename.rd) (front : free = live [rename.prd] ++ rest) :
    Valid map (renames ++ [rename]) rest storage := by
  refine ⟨valid.zero, valid.chain.snoc named hides, ?_⟩
  have same : mapped map ++ pending (renames ++ [rename]) ++ rest =
      mapped map ++ pending renames ++ free := by
    rw [pending_append, front]
    simp [pending, List.append_assoc]
  rw [same]
  exact valid.partition

/-- One renamed instruction: it takes the front of the free list exactly when it names a nonzero
register. -/
theorem dispatch {rename : Renaming m P} {enable : Bool} {data : P}
    (valid : Valid map renames free storage) (stored : (0 : P) ∉ storage)
    (enabled : enable = true ↔ rename.rd ≠ 0) (given : rename.prd = if enable then data else 0)
    (hides : rename.lprd = apply map renames rename.rd)
    (front : enable = true → ∃ rest, free = data :: rest) :
    Valid map (renames ++ [rename]) (free.drop enable.toNat) storage ∧
      pending [rename] = free.take enable.toNat ∧
      apply map (renames ++ [rename]) =
        if enable then Function.update (apply map renames) rename.rd data
        else apply map renames := by
  have unnamed : apply map renames 0 = 0 := valid.chain.apply_zero valid.zero
  rw [apply_append]
  cases enable
  · have zero : rename.rd = 0 := by simpa using enabled
    simp only [Bool.false_eq_true, ↓reduceIte] at given
    refine ⟨valid.allocate (by simp [zero, given]) hides (by simp [live, given]), ?_, ?_⟩
    · simp [pending, live, given]
    · simp [zero, given, ← unnamed]
  · obtain ⟨rest, rfl⟩ := front rfl
    simp only [↓reduceIte] at given
    have nonzero : data ≠ 0 := by
      intro zero
      apply stored
      rw [← zero]
      exact valid.partition.subset (List.mem_append_right _ (List.mem_cons_self ..))
    have named : rename.rd ≠ 0 := enabled.mp rfl
    refine ⟨valid.allocate (by simp [named, given, nonzero]) hides ?_, ?_, ?_⟩
    · simp [live, given, nonzero]
    · simp [pending, live, given, nonzero]
    · simp [given]

/-- The oldest renaming becomes part of the map; the storage it hid is released. -/
theorem commit {rename : Renaming m P} {rest : List (Renaming m P)}
    (valid : Valid map (rename :: rest) free storage) :
    Valid (Function.update map rename.rd rename.prd) rest (free ++ live [rename.lprd])
      storage := by
  have named := valid.chain.1
  have hidden := valid.chain.2.1
  refine ⟨?_, valid.chain.2.2, ?_⟩
  · by_cases zero : rename.rd = 0
    · rw [zero, Function.update_self]
      exact named.mp zero
    · rw [Function.update_of_ne (Ne.symm zero)]
      exact valid.zero
  · have exchange := mapped_update map rename.rd rename.prd
    rw [← hidden] at exchange
    refine List.Perm.trans ?_ valid.partition
    have front : pending (rename :: rest) = live [rename.prd] ++ pending rest := by
      rw [← List.singleton_append, pending_append]
      rfl
    rw [front]
    calc (mapped (Function.update map rename.rd rename.prd) ++ pending rest ++
            (free ++ live [rename.lprd])).Perm
          (live [rename.lprd] ++ (mapped (Function.update map rename.rd rename.prd) ++
            pending rest ++ free)) := by
          rw [← List.append_assoc]
          exact List.perm_append_comm
      _ = live [rename.lprd] ++ mapped (Function.update map rename.rd rename.prd) ++
            (pending rest ++ free) := by simp only [List.append_assoc]
      _ |>.Perm (live [rename.prd] ++ mapped map ++ (pending rest ++ free)) :=
          exchange.append_right _
      _ |>.Perm (mapped map ++ live [rename.prd] ++ (pending rest ++ free)) :=
          List.perm_append_comm.append_right _
      _ = mapped map ++ (live [rename.prd] ++ pending rest) ++ free := by
          simp only [List.append_assoc]

/-- Several renamings commit in their order. -/
theorem commitAll {older younger : List (Renaming m P)}
    (valid : Valid map (older ++ younger) free storage) :
    Valid (apply map older) younger (free ++ live (older.map lprd)) storage := by
  induction older generalizing map free with
  | nil => simpa using valid
  | cons rename rest ih =>
    have next := ih valid.commit
    rw [List.append_assoc, ← live_append] at next
    exact next

/-- Dropping every pending renaming returns its storage to the front of the free list. -/
theorem rollback (valid : Valid map renames free storage) :
    Valid map [] (pending renames ++ free) storage := by
  refine ⟨valid.zero, trivial, ?_⟩
  rw [pending_nil, List.append_nil, ← List.append_assoc]
  exact valid.partition

end Valid

end Renaming
