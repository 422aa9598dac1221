import Mathlib.Data.ZMod.Defs

set_option autoImplicit false

namespace Circular

variable {n : Nat} {α : Type}

/-- The cell reached from `start` after `count` single steps around the ring. -/
def advance (start : Fin n) (count : Nat) : Fin n :=
  ⟨(start.val + count) % n, Nat.mod_lt _ (Nat.lt_of_le_of_lt (Nat.zero_le _) start.isLt)⟩

@[simp] theorem advance_zero (start : Fin n) : advance start 0 = start :=
  Fin.ext (Nat.mod_eq_of_lt start.isLt)

@[simp] theorem advance_advance (start : Fin n) (a b : Nat) :
    advance (advance start a) b = advance start (a + b) := by
  apply Fin.ext
  simp only [advance, Nat.mod_add_mod, Nat.add_assoc]

theorem advance_val_below (start : Fin n) (count : Nat) (below : start.val + count < n) :
    (advance start count).val = start.val + count :=
  Nat.mod_eq_of_lt below

theorem advance_val_wrapped (start : Fin n) (count : Nat) (above : n ≤ start.val + count)
    (once : start.val + count < 2 * n) :
    (advance start count).val = start.val + count - n := by
  change (start.val + count) % n = _
  rw [Nat.mod_eq_sub_mod above, Nat.mod_eq_of_lt (by omega)]

/-- Fewer steps than cells never return to an earlier cell. -/
theorem advance_injective (start : Fin n) {a b : Nat} (left : a < n) (right : b < n)
    (same : advance start a = advance start b) : a = b := by
  have values : (start.val + a) % n = (start.val + b) % n := congrArg Fin.val same
  have inside := start.isLt
  rcases Nat.lt_or_ge (start.val + a) n with low | high <;>
    rcases Nat.lt_or_ge (start.val + b) n with low' | high'
  · rw [Nat.mod_eq_of_lt low, Nat.mod_eq_of_lt low'] at values
    omega
  · rw [Nat.mod_eq_of_lt low, Nat.mod_eq_sub_mod high', Nat.mod_eq_of_lt (by omega)] at values
    omega
  · rw [Nat.mod_eq_sub_mod high, Nat.mod_eq_of_lt (by omega), Nat.mod_eq_of_lt low'] at values
    omega
  · rw [Nat.mod_eq_sub_mod high, Nat.mod_eq_sub_mod high', Nat.mod_eq_of_lt (by omega),
      Nat.mod_eq_of_lt (by omega)] at values
    omega

/-- The `length` consecutive cells from `start`, in ring order. -/
def slots (start : Fin n) : Nat → List (Fin n)
  | 0 => []
  | length + 1 => start :: slots (advance start 1) length

@[simp] theorem slots_zero (start : Fin n) : slots start 0 = [] := rfl

theorem slots_succ (start : Fin n) (length : Nat) :
    slots start (length + 1) = start :: slots (advance start 1) length := rfl

@[simp] theorem slots_length (start : Fin n) (length : Nat) :
    (slots start length).length = length := by
  induction length generalizing start with
  | zero => rfl
  | succ length ih => simp [slots_succ, ih]

theorem slots_snoc (start : Fin n) (length : Nat) :
    slots start (length + 1) = slots start length ++ [advance start length] := by
  induction length generalizing start with
  | zero => simp [slots_succ]
  | succ length ih =>
    rw [slots_succ, ih, slots_succ start length, advance_advance, Nat.add_comm 1 length]
    rfl

theorem slots_eq_range (start : Fin n) (length : Nat) :
    slots start length = (List.range length).map (advance start) := by
  induction length with
  | zero => rfl
  | succ length ih => rw [slots_snoc, ih, List.range_succ, List.map_append, List.map_singleton]

theorem mem_slots (start cell : Fin n) (length : Nat) :
    cell ∈ slots start length ↔ ∃ step, step < length ∧ cell = advance start step := by
  induction length generalizing start with
  | zero => simp
  | succ length ih =>
    rw [slots_snoc, List.mem_append, ih, List.mem_singleton]
    constructor
    · rintro (⟨step, below, same⟩ | same)
      · exact ⟨step, Nat.lt_succ_of_lt below, same⟩
      · exact ⟨length, Nat.lt_succ_self length, same⟩
    · rintro ⟨step, below, same⟩
      rcases Nat.lt_succ_iff_lt_or_eq.mp below with earlier | rfl
      · exact .inl ⟨step, earlier, same⟩
      · exact .inr same

theorem advance_not_mem_slots (start : Fin n) {length step : Nat} (later : length ≤ step)
    (inside : step < n) : advance start step ∉ slots start length := by
  intro member
  obtain ⟨other, below, same⟩ := (mem_slots start _ length).mp member
  have := advance_injective start inside (by omega) same
  omega

theorem start_not_mem_slots_next (start : Fin n) {length : Nat} (room : length + 1 ≤ n) :
    start ∉ slots (advance start 1) length := by
  intro member
  obtain ⟨other, below, same⟩ := (mem_slots _ _ length).mp member
  rw [advance_advance] at same
  have := advance_injective start (by omega) (by omega) ((advance_zero start).trans same)
  omega

theorem slots_nodup (start : Fin n) {length : Nat} (room : length ≤ n) :
    (slots start length).Nodup := by
  induction length with
  | zero => exact List.nodup_nil
  | succ length ih =>
    rw [slots_snoc, List.nodup_append]
    refine ⟨ih (by omega), List.nodup_singleton _, ?_⟩
    intro cell member other atEnd same
    rw [List.mem_singleton] at atEnd
    rw [same, atEnd] at member
    exact advance_not_mem_slots start (Nat.le_refl length) (by omega) member

theorem slots_take (start : Fin n) (a b : Nat) :
    slots start (a + b) = slots start a ++ slots (advance start a) b := by
  induction a generalizing start with
  | zero => simp
  | succ a ih =>
    rw [Nat.add_right_comm, slots_succ, slots_succ, ih, advance_advance, Nat.add_comm 1 a]
    rfl

/-- What is left of a window once its oldest cells are gone. -/
theorem mem_slots_rest (start cell : Fin n) {a b : Nat} (room : a + b ≤ n) :
    cell ∈ slots (advance start a) b ↔ cell ∈ slots start (a + b) ∧ cell ∉ slots start a := by
  have apart := slots_nodup start room
  rw [slots_take, List.nodup_append] at apart
  rw [slots_take, List.mem_append]
  constructor
  · intro member
    exact ⟨.inr member, fun early => apart.2.2 cell early cell member rfl⟩
  · rintro ⟨early | member, later⟩
    · exact absurd early later
    · exact member

/-- A full window is every cell of the ring. -/
theorem mem_slots_full (start cell : Fin n) : cell ∈ slots start n := by
  rw [mem_slots]
  have low := start.isLt
  have high := cell.isLt
  rcases Nat.lt_or_ge cell.val start.val with before | after
  · refine ⟨cell.val + n - start.val, by omega, Fin.ext ?_⟩
    rw [advance_val_wrapped start _ (by omega) (by omega)]
    omega
  · refine ⟨cell.val - start.val, by omega, Fin.ext ?_⟩
    rw [advance_val_below start _ (by omega)]
    omega

/-- The cells of a window, picked out of the whole ring in ring order. -/
theorem slots_filter (start : Fin n) (marked : Fin n → Bool) {length : Nat} (room : length ≤ n)
    (inside : ∀ cell, marked cell = true ↔ cell ∈ slots start length) :
    (slots start n).filter marked = slots start length := by
  have split := slots_take start length (n - length)
  rw [Nat.add_sub_cancel' room] at split
  rw [split, List.filter_append]
  have kept : (slots start length).filter marked = slots start length :=
    List.filter_eq_self.mpr fun cell member => (inside cell).mpr member
  have gone : (slots (advance start length) (n - length)).filter marked = [] := by
    rw [List.filter_eq_nil_iff]
    intro cell member set
    exact ((mem_slots_rest start cell (by omega)).mp member).2 ((inside cell).mp set)
  rw [kept, gone, List.append_nil]

/-- The contents of consecutive cells. -/
def window (cells : Fin n → α) (start : Fin n) (length : Nat) : List α :=
  (slots start length).map cells

@[simp] theorem window_zero (cells : Fin n → α) (start : Fin n) : window cells start 0 = [] := rfl

theorem window_succ (cells : Fin n → α) (start : Fin n) (length : Nat) :
    window cells start (length + 1) = cells start :: window cells (advance start 1) length := rfl

@[simp] theorem window_length (cells : Fin n → α) (start : Fin n) (length : Nat) :
    (window cells start length).length = length := by
  simp [window]

theorem window_snoc (cells : Fin n → α) (start : Fin n) (length : Nat) :
    window cells start (length + 1) =
      window cells start length ++ [cells (advance start length)] := by
  simp [window, slots_snoc]

theorem window_congr {old fresh : Fin n → α} {start : Fin n} {length : Nat}
    (same : ∀ cell ∈ slots start length, fresh cell = old cell) :
    window fresh start length = window old start length :=
  List.map_congr_left same

theorem window_update_outside (cells : Fin n → α) (start cell : Fin n) (length : Nat) (value : α)
    (outside : cell ∉ slots start length) :
    window (Function.update cells cell value) start length = window cells start length := by
  apply window_congr
  intro other member
  apply Function.update_of_ne
  rintro rfl
  exact outside member

/-- Writing the first cell past a window extends it by that value. -/
theorem window_push (cells : Fin n → α) (start : Fin n) (length : Nat) (value : α)
    (room : length < n) :
    window (Function.update cells (advance start length) value) start (length + 1) =
      window cells start length ++ [value] := by
  rw [window_snoc, Function.update_self,
    window_update_outside _ _ _ _ _ (advance_not_mem_slots start (Nat.le_refl length) room)]

theorem window_take (cells : Fin n → α) (start : Fin n) (a b : Nat) :
    window cells start (a + b) = window cells start a ++ window cells (advance start a) b := by
  rw [window, slots_take, List.map_append]
  rfl

theorem window_drop (cells : Fin n → α) (start : Fin n) (a b : Nat) :
    (window cells start (a + b)).drop a = window cells (advance start a) b := by
  rw [window_take, List.drop_left' (window_length cells start a)]

/-- What stands in front of a cell of a window is the window up to it. -/
theorem window_split {cells : Fin n → α} {start : Fin n} {length : Nat} {older younger : List α}
    {cell : α} (split : window cells start length = older ++ cell :: younger) :
    older.length < length ∧ older = window cells start older.length ∧
      cell = cells (advance start older.length) := by
  have size := congrArg List.length split
  simp only [window_length, List.length_append, List.length_cons] at size
  have parts : window cells start length = window cells start older.length ++
      window cells (advance start older.length) (length - older.length) := by
    rw [← window_take, Nat.add_sub_cancel' (by omega)]
  obtain ⟨rest, more⟩ : ∃ rest, length - older.length = rest + 1 :=
    ⟨length - older.length - 1, by omega⟩
  rw [split, more, window_succ] at parts
  obtain ⟨front, back⟩ := List.append_inj parts (by simp)
  exact ⟨by omega, front, (List.cons.inj back).1⟩

end Circular
