import Mathlib.Algebra.Order.Group.Nat
import GreenRio.Counter

set_option autoImplicit false

namespace GreenRio.Fifo

open Circular Counter

variable {n : Nat} {α : Type}

/-- The words two write ports deliver in one cycle, in queue order. -/
def accepted (first second : Bool) (wdataFirst wdataSecond : α) : List α :=
  (if first then [wdataFirst] else []) ++ (if second then [wdataSecond] else [])

@[simp] theorem accepted_length (first second : Bool) (wdataFirst wdataSecond : α) :
    (accepted first second wdataFirst wdataSecond).length = amount first second := by
  cases first <;> cases second <;> rfl

theorem accepted_mem {first second : Bool} {wdataFirst wdataSecond word : α}
    (member : word ∈ accepted first second wdataFirst wdataSecond) :
    (first = true ∧ word = wdataFirst) ∨ (second = true ∧ word = wdataSecond) := by
  cases first <;> cases second <;> simp_all [accepted]

theorem accepted_first {first second : Bool} {wdataFirst wdataSecond : α} (enable : first = true) :
    wdataFirst ∈ accepted first second wdataFirst wdataSecond := by
  simp [accepted, enable]

theorem accepted_second {first second : Bool} {wdataFirst wdataSecond : α} (enable : second = true) :
    wdataSecond ∈ accepted first second wdataFirst wdataSecond := by
  simp [accepted, enable]

theorem accepted_map {β : Type} (f : α → β) (first second : Bool) (wdataFirst wdataSecond : α) :
    (accepted first second wdataFirst wdataSecond).map f =
      accepted first second (f wdataFirst) (f wdataSecond) := by
  cases first <;> cases second <;> rfl

/-- `fifo_num_o`. -/
def fifoNum (wrLine rdLine : Fin n) (recount : Bool) : Nat :=
  if wrLine.val > rdLine.val then wrLine.val - rdLine.val
  else if wrLine = rdLine then (if recount then n else 0)
  else n + wrLine.val - rdLine.val

section Ports

variable [n.AtLeastTwo]

/-- `fifo_queue` after one clock edge: a lone second write also lands on `wr_line`. -/
def writeQueue (queue : Fin n → α) (wrLine : Fin n) (first second : Bool)
    (wdataFirst wdataSecond : α) : Fin n → α :=
  if first && second then
    Function.update (Function.update queue wrLine wdataFirst) (secondLine wrLine) wdataSecond
  else if first then Function.update queue wrLine wdataFirst
  else if second then Function.update queue wrLine wdataSecond
  else queue

/-- `fifo_recount` after one clock edge; a write wrap wins over a read wrap. -/
def recountNext (recount wrLineEnd rdLineEnd : Bool) : Bool :=
  if wrLineEnd then true else if recount && rdLineEnd then false else recount

end Ports

/-- The lines from `rdLine` hold `contents`, and the recount flag tells whether the write
pointer has passed the end of the array once more than the read pointer. -/
structure Holds (queue : Fin n → α) (rdLine wrLine : Fin n) (recount : Bool)
    (contents : List α) : Prop where
  fits : contents.length ≤ n
  cells : window queue rdLine contents.length = contents
  tail : wrLine = advance rdLine contents.length
  wrapped : recount = true ↔ n ≤ rdLine.val + contents.length

namespace Holds

variable {queue : Fin n → α} {rdLine wrLine : Fin n} {recount : Bool} {contents : List α}

/-- Where the write pointer stands, without and with the extra wrap. -/
theorem wrLine_val (valid : Holds queue rdLine wrLine recount contents) :
    (recount = false ∧ wrLine.val = rdLine.val + contents.length ∧
        rdLine.val + contents.length < n) ∨
      (recount = true ∧ wrLine.val + n = rdLine.val + contents.length) := by
  have inside := rdLine.isLt
  have room := valid.fits
  rcases Nat.lt_or_ge (rdLine.val + contents.length) n with low | high
  · left
    refine ⟨?_, ?_, low⟩
    · rw [← Bool.not_eq_true, valid.wrapped]
      omega
    · rw [valid.tail, advance_val_below _ _ low]
  · right
    refine ⟨valid.wrapped.mpr high, ?_⟩
    rw [valid.tail, advance_val_wrapped _ _ high (by omega)]
    omega

/-- Two equal views of the pointers force equal recount flags. -/
theorem recount_unique {other : Bool} {otherQueue : Fin n → α}
    (valid : Holds queue rdLine wrLine recount contents)
    (again : Holds otherQueue rdLine wrLine other contents) : recount = other := by
  rw [Bool.eq_iff_iff, valid.wrapped, again.wrapped]

theorem fifoNum_eq (valid : Holds queue rdLine wrLine recount contents) :
    fifoNum wrLine rdLine recount = contents.length := by
  have room := valid.fits
  have apart : wrLine = rdLine ↔ wrLine.val = rdLine.val := Fin.ext_iff
  unfold fifoNum
  rcases valid.wrLine_val with ⟨rfl, value, -⟩ | ⟨rfl, value⟩
  · simp only [Bool.false_eq_true, ↓reduceIte, apart]
    split_ifs <;> omega
  · simp only [↓reduceIte, apart]
    split_ifs <;> omega

variable [large : n.AtLeastTwo]

/-- The write ports extend the window by the accepted words. -/
theorem window_writeQueue (queue : Fin n → α) (start : Fin n) (length : Nat)
    (first second : Bool) (wdataFirst wdataSecond : α)
    (room : length + amount first second ≤ n) :
    window (writeQueue queue (advance start length) first second wdataFirst wdataSecond) start
        (length + amount first second) =
      window queue start length ++ accepted first second wdataFirst wdataSecond := by
  cases first <;> cases second <;>
    simp only [writeQueue, accepted, amount, Bool.and_self, Bool.and_false, Bool.false_and,
      Bool.false_eq_true, ↓reduceIte, Bool.toNat_false, Bool.toNat_true, Nat.zero_add,
      Nat.add_zero, List.nil_append, List.append_nil] at room ⊢
  · exact window_push _ _ _ _ (by omega)
  · exact window_push _ _ _ _ (by omega)
  · rw [secondLine_eq_advance, advance_advance, ← Nat.add_assoc, window_push _ _ _ _ (by omega),
      window_push _ _ _ _ (by omega), List.append_assoc]

/-- The read pointer can only wrap while the flag is set, since it never passes the tail. -/
theorem recountNext_iff (valid : Holds queue rdLine wrLine recount contents)
    (rdFirst rdSecond wrFirst wrSecond : Bool)
    (present : amount rdFirst rdSecond ≤ contents.length) :
    recountNext recount (cntEnd n wrLine.val wrFirst wrSecond)
        (cntEnd n rdLine.val rdFirst rdSecond) = true ↔
      n ≤ (advance rdLine (amount rdFirst rdSecond)).val +
        (contents.length - amount rdFirst rdSecond + amount wrFirst wrSecond) := by
  have inside := rdLine.isLt
  have size := valid.fits
  have few : amount rdFirst rdSecond ≤ 2 := by cases rdFirst <;> cases rdSecond <;> decide
  have wrEnd := cntEnd_iff wrLine wrFirst wrSecond
  have rdEnd := cntEnd_iff rdLine rdFirst rdSecond
  generalize cntEnd n wrLine.val wrFirst wrSecond = wrLineEnd at wrEnd ⊢
  generalize cntEnd n rdLine.val rdFirst rdSecond = rdLineEnd at rdEnd ⊢
  generalize amount wrFirst wrSecond = pushes at wrEnd ⊢
  generalize amount rdFirst rdSecond = pops at few present rdEnd ⊢
  have moved : (advance rdLine pops).val =
      if n ≤ rdLine.val + pops then rdLine.val + pops - n else rdLine.val + pops := by
    split_ifs with high
    · exact advance_val_wrapped _ _ high (by omega)
    · exact advance_val_below _ _ (by omega)
  rw [moved]
  rcases valid.wrLine_val with ⟨rfl, value, -⟩ | ⟨rfl, value⟩
  · cases wrLineEnd <;> cases rdLineEnd <;> simp [recountNext] at wrEnd rdEnd ⊢ <;>
      split_ifs <;> omega
  · cases wrLineEnd <;> cases rdLineEnd <;> simp [recountNext] at wrEnd rdEnd ⊢ <;>
      split_ifs <;> omega

/-- One clock edge: pop from the front, push at the back. -/
theorem step (valid : Holds queue rdLine wrLine recount contents)
    (rdFirst rdSecond wrFirst wrSecond : Bool) (wdataFirst wdataSecond : α)
    (present : amount rdFirst rdSecond ≤ contents.length)
    (room : contents.length - amount rdFirst rdSecond + amount wrFirst wrSecond ≤ n) :
    Holds (writeQueue queue wrLine wrFirst wrSecond wdataFirst wdataSecond)
      (next rdLine rdFirst rdSecond) (next wrLine wrFirst wrSecond)
      (recountNext recount (cntEnd n wrLine.val wrFirst wrSecond)
        (cntEnd n rdLine.val rdFirst rdSecond))
      (contents.drop (amount rdFirst rdSecond) ++
        accepted wrFirst wrSecond wdataFirst wdataSecond) := by
  have flag := valid.recountNext_iff rdFirst rdSecond wrFirst wrSecond present
  rw [next_eq_advance, next_eq_advance]
  generalize amount rdFirst rdSecond = pops at present room flag ⊢
  have lengths : (contents.drop pops ++ accepted wrFirst wrSecond wdataFirst wdataSecond).length =
      contents.length - pops + amount wrFirst wrSecond := by
    simp
  have line : wrLine = advance (advance rdLine pops) (contents.length - pops) := by
    rw [valid.tail, advance_advance, Nat.add_sub_cancel' present]
  have rest : window queue (advance rdLine pops) (contents.length - pops) =
      contents.drop pops := by
    have split := window_take queue rdLine pops (contents.length - pops)
    rw [Nat.add_sub_cancel' present, valid.cells] at split
    exact (List.drop_left' (window_length _ _ _)).symm.trans (congrArg (List.drop pops) split.symm)
  refine ⟨lengths ▸ room, ?_, ?_, ?_⟩
  · rw [lengths, line, window_writeQueue _ _ _ _ _ _ _ room, rest]
  · rw [lengths, line, advance_advance]
  · rw [lengths]
    exact flag

end Holds

end GreenRio.Fifo

namespace GreenRio

open Counter Fifo

variable {n : Nat} {α : Type}

/-- The registers of `f2if2o`. The read multiplexer leaves an output alone when the other port
reads by itself, so the values it last drove are state as well. -/
structure F2if2o (n : Nat) (α : Type) where
  fifoQueue : Fin n → α
  wrLine : Fin n
  rdLine : Fin n
  fifoRecount : Bool
  heldFirst : α
  heldSecond : α

/-- One cycle's write and read requests of a two-port queue. -/
structure Ports (α : Type) where
  wrFirstEn : Bool
  wrSecondEn : Bool
  rdFirstEn : Bool
  rdSecondEn : Bool
  wdataFirst : α
  wdataSecond : α

namespace F2if2o

def fifoNum (fifo : F2if2o n α) : Nat := Fifo.fifoNum fifo.wrLine fifo.rdLine fifo.fifoRecount

def fifoFull (fifo : F2if2o n α) : Bool := fifo.fifoNum == n

def fifoAlmostFull (fifo : F2if2o n α) : Bool := decide (n - 1 ≤ fifo.fifoNum)

def fifoEmpty (fifo : F2if2o n α) : Bool := fifo.fifoNum == 0

def fifoAlmostEmpty (fifo : F2if2o n α) : Bool := decide (fifo.fifoNum ≤ 1)

def rdataFirst (fifo : F2if2o n α) (rdFirstEn rdSecondEn : Bool) : α :=
  if rdSecondEn && !rdFirstEn then fifo.heldFirst else fifo.fifoQueue fifo.rdLine

theorem fifoFull_of_almost {fifo : F2if2o n α} (room : fifo.fifoAlmostFull = false) :
    fifo.fifoFull = false := by
  simp only [fifoAlmostFull, decide_eq_false_iff_not] at room
  simp only [fifoFull, beq_eq_false_iff_ne]
  omega

/-- The queue's contents as a list, oldest first. -/
def Contains (fifo : F2if2o n α) (contents : List α) : Prop :=
  Fifo.Holds fifo.fifoQueue fifo.rdLine fifo.wrLine fifo.fifoRecount contents

theorem Contains.fifoNum_eq {fifo : F2if2o n α} {contents : List α}
    (valid : fifo.Contains contents) : fifo.fifoNum = contents.length :=
  Holds.fifoNum_eq valid

/-- A queue has one contents. -/
theorem Contains.unique {fifo : F2if2o n α} {contents other : List α}
    (valid : fifo.Contains contents) (again : fifo.Contains other) : contents = other := by
  have length : contents.length = other.length := valid.fifoNum_eq.symm.trans again.fifoNum_eq
  rw [← valid.cells, ← again.cells, length]

/-- The first read port, when it reads, drives the oldest word. -/
theorem Contains.rdataFirst_eq {fifo : F2if2o n α} {word : α} {rest : List α}
    (valid : fifo.Contains (word :: rest)) (rdSecondEn : Bool) :
    fifo.rdataFirst true rdSecondEn = word := by
  have cells := valid.cells
  rw [List.length_cons, Circular.window_succ] at cells
  simpa [rdataFirst] using (List.cons.inj cells).1

variable [large : n.AtLeastTwo]

/-- The state under `rst`; `blank` is the all-zero word. -/
def reset (blank : α) : F2if2o n α where
  fifoQueue := fun _ => blank
  wrLine := ⟨0, size_pos⟩
  rdLine := ⟨0, size_pos⟩
  fifoRecount := false
  heldFirst := blank
  heldSecond := blank

def rdataSecond (fifo : F2if2o n α) (rdFirstEn rdSecondEn : Bool) : α :=
  match rdSecondEn, rdFirstEn with
  | false, true => fifo.heldSecond
  | true, false => fifo.fifoQueue fifo.rdLine
  | _, _ => fifo.fifoQueue (secondLine fifo.rdLine)

/-- One clock edge outside reset. -/
def step (fifo : F2if2o n α) (ports : Ports α) : F2if2o n α where
  fifoQueue := writeQueue fifo.fifoQueue fifo.wrLine ports.wrFirstEn ports.wrSecondEn
    ports.wdataFirst ports.wdataSecond
  wrLine := next fifo.wrLine ports.wrFirstEn ports.wrSecondEn
  rdLine := next fifo.rdLine ports.rdFirstEn ports.rdSecondEn
  fifoRecount := recountNext fifo.fifoRecount
    (cntEnd n fifo.wrLine.val ports.wrFirstEn ports.wrSecondEn)
    (cntEnd n fifo.rdLine.val ports.rdFirstEn ports.rdSecondEn)
  heldFirst := fifo.rdataFirst ports.rdFirstEn ports.rdSecondEn
  heldSecond := fifo.rdataSecond ports.rdFirstEn ports.rdSecondEn

theorem reset_contains (blank : α) : (reset blank : F2if2o n α).Contains [] := by
  have two := large.prop
  refine ⟨Nat.zero_le n, rfl, (Circular.advance_zero _).symm, ?_⟩
  simp [reset]
  omega

theorem step_contains {fifo : F2if2o n α} {contents : List α} (valid : fifo.Contains contents)
    (ports : Ports α) (present : amount ports.rdFirstEn ports.rdSecondEn ≤ contents.length)
    (room : contents.length - amount ports.rdFirstEn ports.rdSecondEn +
      amount ports.wrFirstEn ports.wrSecondEn ≤ n) :
    (fifo.step ports).Contains (contents.drop (amount ports.rdFirstEn ports.rdSecondEn) ++
      accepted ports.wrFirstEn ports.wrSecondEn ports.wdataFirst ports.wdataSecond) :=
  Holds.step valid _ _ _ _ _ _ present room

/-- When both ports read, the second one drives the word after it. -/
theorem Contains.rdataSecond_eq {fifo : F2if2o n α} {word following : α} {rest : List α}
    (valid : fifo.Contains (word :: following :: rest)) :
    fifo.rdataSecond true true = following := by
  have cells := valid.cells
  rw [List.length_cons, List.length_cons, Circular.window_succ, Circular.window_succ] at cells
  simpa [rdataSecond, secondLine_eq_advance] using (List.cons.inj (List.cons.inj cells).2).1

end F2if2o

end GreenRio
