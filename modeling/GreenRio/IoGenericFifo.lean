import GreenRio.BoundedQueue
import GreenRio.Circular

set_option autoImplicit false

namespace GreenRio

open Circular

/-- `io_generic_fifo` with `BUFFER_DEPTH` for `n`. -/
structure IoGenericFifo (n : Nat) (α : Type) where
  elements : Nat
  pointerIn : Fin n
  pointerOut : Fin n
  buffer : Fin n → α

structure IoGenericFifoInput (α : Type) where
  clrI : Bool
  readyI : Bool
  validI : Bool
  dataI : α

namespace IoGenericFifo

variable {n : Nat} {α : Type}

/-- `BUFFER_DEPTH` lines that are cleared. -/
def reset (positive : 0 < n) (zero : α) : IoGenericFifo n α :=
  ⟨0, ⟨0, positive⟩, ⟨0, positive⟩, fun _ => zero⟩

/-- Line 0; there is one where there is any. -/
def lineZero (pointer : Fin n) : Fin n := ⟨0, Nat.zero_lt_of_lt pointer.isLt⟩

/-- The next line, or line 0 after the last. -/
def pointerNext (pointer : Fin n) : Fin n :=
  ⟨if pointer.val = n - 1 then 0 else pointer.val + 1, by have := pointer.isLt; split <;> omega⟩

section Wires

variable (fifo : IoGenericFifo n α) (input : IoGenericFifoInput α)

def full : Bool := fifo.elements == n
def validO : Bool := fifo.elements != 0
def readyO : Bool := !fifo.full
def dataO : α := fifo.buffer fifo.pointerOut

def elementsNext : Nat :=
  if input.clrI then 0
  else if (input.readyI && fifo.validO) && (!input.validI || fifo.full) then fifo.elements - 1
  else if ((!fifo.validO || !input.readyI) && input.validI) && !fifo.full then fifo.elements + 1
  else fifo.elements

def step : IoGenericFifo n α where
  elements := fifo.elementsNext input
  pointerIn :=
    if input.clrI then lineZero fifo.pointerIn
    else if input.validI && !fifo.full then pointerNext fifo.pointerIn else fifo.pointerIn
  pointerOut :=
    if input.clrI then lineZero fifo.pointerOut
    else if input.readyI && fifo.validO then pointerNext fifo.pointerOut else fifo.pointerOut
  buffer :=
    if input.validI && !fifo.full then Function.update fifo.buffer fifo.pointerIn input.dataI
    else fifo.buffer

/-- The words in the queue, oldest first. -/
def contents : List α := Circular.window fifo.buffer fifo.pointerOut fifo.elements

/-- What the two ports exchange in a cycle. -/
def exchange : BoundedQueue.Exchange α where
  pushed := if input.validI && fifo.readyO then [input.dataI] else []
  popped := (input.readyI && fifo.validO).toNat

end Wires

/-- The counter agrees with the two pointers. -/
structure Sound (fifo : IoGenericFifo n α) : Prop where
  fits : fifo.elements ≤ n
  tail : fifo.pointerIn = advance fifo.pointerOut fifo.elements

theorem pointerNext_eq (pointer : Fin n) : pointerNext pointer = advance pointer 1 := by
  have inside := pointer.isLt
  apply Fin.ext
  change (if pointer.val = n - 1 then 0 else pointer.val + 1) = (pointer.val + 1) % n
  split
  · rw [show pointer.val + 1 = n by omega, Nat.mod_self]
  · rw [Nat.mod_eq_of_lt (by omega)]

section Step

variable {fifo : IoGenericFifo n α} {input : IoGenericFifoInput α}

@[simp] theorem contents_length : fifo.contents.length = fifo.elements :=
  window_length _ _ _

theorem validO_iff : fifo.validO = true ↔ 0 < fifo.elements := by
  rw [validO, bne_iff_ne, Nat.pos_iff_ne_zero]

theorem readyO_iff (sound : fifo.Sound) : fifo.readyO = true ↔ fifo.elements < n := by
  have fits := sound.fits
  simp only [readyO, full, Bool.not_eq_true', beq_eq_false_iff_ne]
  omega

/-- The word at the output is the oldest. -/
theorem leaving_eq : (fifo.exchange input).leaving fifo.contents =
    if input.readyI && fifo.validO then [fifo.dataO] else [] := by
  cases pops : input.readyI && fifo.validO
  · simp [exchange, BoundedQueue.Exchange.leaving, pops]
  · obtain ⟨rest, some⟩ := Nat.exists_eq_succ_of_ne_zero
      (Nat.pos_iff_ne_zero.mp (validO_iff.mp (Bool.and_eq_true_iff.mp pops).2))
    simp [exchange, BoundedQueue.Exchange.leaving, pops, contents, some, window_succ, dataO]

/-- Only what is there leaves, and what enters has found room. -/
theorem fits_exchange (sound : fifo.Sound) : (fifo.exchange input).Fits n fifo.contents := by
  constructor
  · rw [contents_length]
    cases pops : input.readyI && fifo.validO
    · simp [exchange, pops]
    · have some := validO_iff.mp (Bool.and_eq_true_iff.mp pops).2
      simp only [exchange, pops, Bool.toNat_true]
      exact some
  · rw [contents_length]
    cases pushes : input.validI && fifo.readyO
    · simpa [exchange, pushes] using sound.fits
    · have room := (readyO_iff sound).mp (Bool.and_eq_true_iff.mp pushes).2
      simp only [exchange, pushes, if_true, List.length_singleton]
      exact room

theorem reset_sound (positive : 0 < n) (zero : α) : (reset positive zero).Sound :=
  ⟨Nat.zero_le n, (advance_zero _).symm⟩

/-- The counter keeps up with the exchange of a cycle. -/
theorem step_elements (kept : input.clrI = false) :
    (fifo.step input).elements + (fifo.exchange input).popped =
      fifo.elements + (fifo.exchange input).pushed.length := by
  change fifo.elementsNext input + _ = _
  rw [elementsNext, kept, if_neg Bool.false_ne_true]
  cases pops : input.readyI && fifo.validO
  · have stays : (!fifo.validO || !input.readyI) = true := by
      rw [← Bool.not_and, Bool.and_comm, pops]
      rfl
    cases pushes : input.validI && fifo.readyO
    · have full : (input.validI && !fifo.full) = false := pushes
      simp [exchange, pops, pushes, stays, full]
    · have room : (input.validI && !fifo.full) = true := pushes
      simp [exchange, pops, pushes, stays, room]
  · have some := validO_iff.mp (Bool.and_eq_true_iff.mp pops).2
    have stays : (!fifo.validO || !input.readyI) = false := by
      rw [← Bool.not_and, Bool.and_comm, pops]
      rfl
    cases pushes : input.validI && fifo.readyO
    · have full : (!input.validI || fifo.full) = true := by
        rw [← Bool.not_not (b := fifo.full), ← Bool.not_and]
        exact congrArg not pushes
      simp [exchange, pops, pushes, full]
      omega
    · have room : (!input.validI || fifo.full) = false := by
        rw [← Bool.not_not (b := fifo.full), ← Bool.not_and]
        exact congrArg not pushes
      simp [exchange, pops, pushes, stays, room]

/-- The read pointer moves on with what leaves. -/
theorem step_pointerOut (kept : input.clrI = false) :
    (fifo.step input).pointerOut = advance fifo.pointerOut (fifo.exchange input).popped := by
  change (if input.clrI then lineZero _ else _) = _
  rw [kept, if_neg Bool.false_ne_true, pointerNext_eq, exchange]
  cases input.readyI && fifo.validO
  · exact (advance_zero _).symm
  · rfl

theorem step_pointerIn (kept : input.clrI = false) :
    (fifo.step input).pointerIn =
      advance fifo.pointerIn (fifo.exchange input).pushed.length := by
  change (if input.clrI then lineZero _ else if input.validI && fifo.readyO then _ else _) = _
  rw [kept, if_neg Bool.false_ne_true, pointerNext_eq, exchange]
  cases input.validI && fifo.readyO
  · exact (advance_zero _).symm
  · rfl

theorem step_sound (sound : fifo.Sound) : (fifo.step input).Sound := by
  cases kept : input.clrI with
  | true =>
    have elements : (fifo.step input).elements = 0 := if_pos kept
    have pointerIn : (fifo.step input).pointerIn = lineZero fifo.pointerIn := if_pos kept
    have pointerOut : (fifo.step input).pointerOut = lineZero fifo.pointerOut := if_pos kept
    refine ⟨elements ▸ Nat.zero_le n, ?_⟩
    rw [pointerIn, pointerOut, elements, advance_zero]
    rfl
  | false =>
    have count : (fifo.step input).elements + (fifo.exchange input).popped = _ :=
      step_elements kept
    have fits : (fifo.exchange input).Fits n fifo.contents := fits_exchange sound
    have present := fits.present
    have room := fits.room
    rw [contents_length] at present room
    refine ⟨by omega, ?_⟩
    rw [step_pointerIn kept, step_pointerOut kept, sound.tail, advance_advance, advance_advance]
    congr 1
    omega

/-- What enters is written behind the words that are there. -/
theorem step_written (sound : fifo.Sound) :
    window (fifo.step input).buffer fifo.pointerOut
        (fifo.elements + (fifo.exchange input).pushed.length) =
      fifo.contents ++ (fifo.exchange input).pushed := by
  change window (if input.validI && fifo.readyO then _ else _) _ _ = _
  rw [exchange]
  cases pushes : input.validI && fifo.readyO
  · exact (List.append_nil _).symm
  · rw [if_pos rfl, if_pos rfl, List.length_singleton, sound.tail]
    exact window_push _ _ _ _ ((readyO_iff sound).mp (Bool.and_eq_true_iff.mp pushes).2)

/-- The registers hold a queue of the words, which a clear empties. -/
theorem step_contents (sound : fifo.Sound) :
    (fifo.step input).contents =
      if input.clrI then [] else (fifo.exchange input).next fifo.contents := by
  cases kept : input.clrI with
  | true =>
    have elements : (fifo.step input).elements = 0 := if_pos kept
    rw [if_pos rfl, contents, elements, window_zero]
  | false =>
    have count : (fifo.step input).elements + (fifo.exchange input).popped = _ :=
      step_elements kept
    have present : (fifo.exchange input).popped ≤ _ := (fits_exchange sound).present
    rw [contents_length] at present
    rw [if_neg Bool.false_ne_true, contents, step_pointerOut kept, ← window_drop, Nat.add_comm,
      count, step_written sound, BoundedQueue.Exchange.next, List.drop_append_of_le_length]
    rw [contents_length]
    exact present

end Step

end IoGenericFifo

end GreenRio
