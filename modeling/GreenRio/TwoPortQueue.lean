import GreenRio.BoundedQueue
import GreenRio.Fifo

set_option autoImplicit false

namespace GreenRio.F2if2o

open Circular Counter Fifo

variable {n : Nat} {α : Type} [NeZero n]

/-- The state under `rst`, at any size; `blank` is the all-zero word. -/
def cleared (blank : α) : F2if2o n α where
  fifoQueue := fun _ => blank
  wrLine := 0
  rdLine := 0
  fifoRecount := false
  heldFirst := blank
  heldSecond := blank

/-- The register of a two-mode counter. A counter with one line is never asked to count by two. -/
def lineNext (line : Fin n) (first second : Bool) : Fin n :=
  Fin.ofNat n (cntNext n line.val first second)

/-- `wr_second_line` and `rd_second_line`. -/
def lineAfter (line : Fin n) : Fin n := if line.val = n - 1 then 0 else Fin.ofNat n (line.val + 1)

/-- `rdata_second_o`. -/
def secondData (fifo : F2if2o n α) (rdFirstEn rdSecondEn : Bool) : α :=
  match rdSecondEn, rdFirstEn with
  | false, true => fifo.heldSecond
  | true, false => fifo.fifoQueue fifo.rdLine
  | _, _ => fifo.fifoQueue (lineAfter fifo.rdLine)

/-- One clock edge outside reset, at any size. -/
def cycle (fifo : F2if2o n α) (ports : Ports α) : F2if2o n α where
  fifoQueue :=
    if ports.wrFirstEn && ports.wrSecondEn then
      Function.update (Function.update fifo.fifoQueue fifo.wrLine ports.wdataFirst)
        (lineAfter fifo.wrLine) ports.wdataSecond
    else if ports.wrFirstEn then Function.update fifo.fifoQueue fifo.wrLine ports.wdataFirst
    else if ports.wrSecondEn then Function.update fifo.fifoQueue fifo.wrLine ports.wdataSecond
    else fifo.fifoQueue
  wrLine := lineNext fifo.wrLine ports.wrFirstEn ports.wrSecondEn
  rdLine := lineNext fifo.rdLine ports.rdFirstEn ports.rdSecondEn
  fifoRecount := recountNext fifo.fifoRecount
    (cntEnd n fifo.wrLine.val ports.wrFirstEn ports.wrSecondEn)
    (cntEnd n fifo.rdLine.val ports.rdFirstEn ports.rdSecondEn)
  heldFirst := fifo.rdataFirst ports.rdFirstEn ports.rdSecondEn
  heldSecond := fifo.secondData ports.rdFirstEn ports.rdSecondEn

/-- The words the read ports deliver in a cycle, in port order. -/
def readWords (fifo : F2if2o n α) (ports : Ports α) : List α :=
  accepted ports.rdFirstEn ports.rdSecondEn
    (fifo.rdataFirst ports.rdFirstEn ports.rdSecondEn)
    (fifo.secondData ports.rdFirstEn ports.rdSecondEn)

/-- All the words read during a run. -/
def readRun : F2if2o n α → List (Ports α) → List α
  | _, [] => []
  | fifo, ports :: run => fifo.readWords ports ++ readRun (fifo.cycle ports) run

/-- Requests that heed the flags: a write asks that the queue is not full, a second one that it is
not almost full, and reads likewise. -/
structure Permits (fifo : F2if2o n α) (ports : Ports α) : Prop where
  write : (ports.wrFirstEn || ports.wrSecondEn) = true → fifo.fifoFull = false
  writeBoth : (ports.wrFirstEn && ports.wrSecondEn) = true → fifo.fifoAlmostFull = false
  read : (ports.rdFirstEn || ports.rdSecondEn) = true → fifo.fifoEmpty = false
  readBoth : (ports.rdFirstEn && ports.rdSecondEn) = true → fifo.fifoAlmostEmpty = false

/-- Every cycle of a run heeds the flags it meets. -/
def PermitsRun : F2if2o n α → List (Ports α) → Prop
  | _, [] => True
  | fifo, ports :: run => fifo.Permits ports ∧ PermitsRun (fifo.cycle ports) run

/-- What a cycle's requests mean for the queue. -/
def exchange (ports : Ports α) : BoundedQueue.Exchange α where
  pushed := accepted ports.wrFirstEn ports.wrSecondEn ports.wdataFirst ports.wdataSecond
  popped := amount ports.rdFirstEn ports.rdSecondEn

section Sizes

variable {fifo : F2if2o n α} {contents : List α} {ports : Ports α}

theorem lineNext_eq [n.AtLeastTwo] (line : Fin n) (first second : Bool) :
    lineNext line first second = next line first second :=
  Fin.ext (Nat.mod_eq_of_lt (cntNext_lt line first second))

theorem lineAfter_eq (line : Fin n) : lineAfter line = advance line 1 := by
  have inside := line.isLt
  unfold lineAfter
  split
  · apply Fin.ext
    rw [advance_val_wrapped line 1 (by omega) (by omega)]
    change 0 % n = _
    rw [Nat.zero_mod]
    omega
  · rfl

/-- From two lines on this is the queue that the core instantiates. -/
theorem cycle_eq_step [n.AtLeastTwo] (fifo : F2if2o n α) (ports : Ports α) :
    fifo.cycle ports = fifo.step ports := by
  have lines : ∀ line : Fin n, lineAfter line = secondLine line := fun line =>
    (lineAfter_eq line).trans (secondLine_eq_advance line).symm
  simp only [cycle, step, lineNext_eq, writeQueue, lines]
  rfl

omit [NeZero n] in
/-- Heeding the flags is asking for no more words, and no more room, than there is. -/
theorem Permits.fits (permits : fifo.Permits ports) (valid : fifo.Contains contents) :
    (exchange ports).Fits n contents := by
  have room := valid.fits
  obtain ⟨write, writeBoth, read, readBoth⟩ := permits
  simp only [fifoFull, fifoAlmostFull, fifoEmpty, fifoAlmostEmpty, valid.fifoNum_eq,
    beq_eq_false_iff_ne, decide_eq_false_iff_not] at write writeBoth read readBoth
  constructor
  · change amount ports.rdFirstEn ports.rdSecondEn ≤ contents.length
    generalize contents.length = size at read readBoth ⊢
    cases first : ports.rdFirstEn <;> cases second : ports.rdSecondEn <;>
      simp [amount, first, second] at read readBoth ⊢ <;> omega
  · rw [exchange, accepted_length]
    cases first : ports.wrFirstEn <;> cases second : ports.wrSecondEn <;>
      simp [amount, first, second] at write writeBoth ⊢ <;> omega

theorem holds_one_iff {queue : Fin 1 → α} {rdLine wrLine : Fin 1} {recount : Bool} :
    Fifo.Holds queue rdLine wrLine recount contents ↔
      (contents = [] ∧ recount = false) ∨ (contents = [queue 0] ∧ recount = true) := by
  have first : rdLine = 0 := Subsingleton.elim _ _
  subst first
  constructor
  · rintro ⟨fits, cells, -, wrapped⟩
    rcases contents with _ | ⟨word, _ | ⟨more, rest⟩⟩
    · left
      exact ⟨rfl, by simpa using wrapped⟩
    · right
      refine ⟨?_, by simpa using wrapped⟩
      rw [List.length_singleton, window_succ] at cells
      rw [← (List.cons.inj cells).1]
    · simp at fits
  · rintro (⟨rfl, rfl⟩ | ⟨rfl, rfl⟩)
    · exact ⟨by simp, rfl, Subsingleton.elim _ _, by simp⟩
    · exact ⟨by simp, rfl, Subsingleton.elim _ _, by simp⟩

/-- A queue of one line: it is asked for one word at most, and only when it is full. -/
theorem cycle_contains_one {fifo : F2if2o 1 α} (valid : fifo.Contains contents)
    (fits : (exchange ports).Fits 1 contents) :
    (fifo.cycle ports).Contains ((exchange ports).next contents) := by
  obtain ⟨present, room⟩ := fits
  have line : fifo.wrLine = 0 := Subsingleton.elim _ _
  rw [exchange, accepted_length] at room
  rw [Contains, holds_one_iff] at valid ⊢
  rcases valid with ⟨rfl, flag⟩ | ⟨rfl, flag⟩ <;>
    cases wrFirst : ports.wrFirstEn <;> cases wrSecond : ports.wrSecondEn <;>
    cases rdFirst : ports.rdFirstEn <;> cases rdSecond : ports.rdSecondEn <;>
    simp_all [exchange, amount, cycle, BoundedQueue.Exchange.next, accepted, recountNext, cntEnd,
      cntPreciseEnd, cntOverflowEnd]

/-- One cycle of requests that heed the flags is one exchange of the queue. -/
theorem cycle_contains (valid : fifo.Contains contents) (fits : (exchange ports).Fits n contents) :
    (fifo.cycle ports).Contains ((exchange ports).next contents) := by
  rcases (show n = 1 ∨ 2 ≤ n by have := NeZero.pos n; omega) with rfl | large
  · exact cycle_contains_one valid fits
  · have : n.AtLeastTwo := ⟨large⟩
    have present : amount ports.rdFirstEn ports.rdSecondEn ≤ contents.length := fits.present
    have room := fits.room
    rw [exchange, accepted_length] at room
    rw [cycle_eq_step]
    exact step_contains valid ports present (by omega)

/-- The read ports deliver the oldest words. -/
theorem readWords_eq (valid : fifo.Contains contents) (fits : (exchange ports).Fits n contents) :
    fifo.readWords ports = (exchange ports).leaving contents := by
  have present : amount ports.rdFirstEn ports.rdSecondEn ≤ contents.length := fits.present
  have cells := valid.cells
  change readWords fifo ports = contents.take (amount ports.rdFirstEn ports.rdSecondEn)
  unfold readWords
  cases first : ports.rdFirstEn <;> cases second : ports.rdSecondEn <;>
    rw [first, second] at present
  · rfl
  · rcases contents with _ | ⟨word, rest⟩
    · simp [amount] at present
    · rw [List.length_cons, window_succ] at cells
      simpa [accepted, amount, secondData] using (List.cons.inj cells).1
  · rcases contents with _ | ⟨word, rest⟩
    · simp [amount] at present
    · simp [accepted, amount, valid.rdataFirst_eq false]
  · rcases contents with _ | ⟨word, _ | ⟨following, rest⟩⟩
    · simp [amount] at present
    · simp [amount] at present
    · rw [List.length_cons, List.length_cons, window_succ, window_succ] at cells
      have behind := (List.cons.inj (List.cons.inj cells).2).1
      simpa [accepted, amount, valid.rdataFirst_eq true, secondData, lineAfter_eq] using behind

end Sizes

section Runs

theorem cleared_contains (blank : α) : (cleared blank : F2if2o n α).Contains [] := by
  refine ⟨Nat.zero_le n, rfl, (advance_zero _).symm, ?_⟩
  have positive := NeZero.pos n
  simp [cleared]
  omega

/-- A run of requests that heed the flags is the run of the queue. -/
theorem run_contains {fifo : F2if2o n α} {contents : List α} (run : List (Ports α))
    (valid : fifo.Contains contents) (heeds : PermitsRun fifo run) :
    (run.foldl cycle fifo).Contains (BoundedQueue.after contents (run.map exchange)) ∧
      readRun fifo run = BoundedQueue.left contents (run.map exchange) := by
  induction run generalizing fifo contents with
  | nil => exact ⟨valid, rfl⟩
  | cons ports run ih =>
    have fits := heeds.1.fits valid
    obtain ⟨holds, reads⟩ := ih (cycle_contains valid fits) heeds.2
    refine ⟨holds, ?_⟩
    rw [readRun, readWords_eq valid fits, reads]
    rfl

/-- `f2if2o` is a bounded queue at every size: whatever a run that heeds the flags writes is read in
order or still stored, the next reads deliver the oldest words, and the flags and the count are
those of the stored list. -/
theorem queue_refines (blank : α) (run : List (Ports α))
    (heeds : PermitsRun (cleared blank : F2if2o n α) run) :
    let fifo : F2if2o n α := run.foldl cycle (cleared blank)
    let contents := BoundedQueue.after [] (run.map exchange)
    readRun (cleared blank : F2if2o n α) run ++ contents =
        (run.map exchange).flatMap BoundedQueue.Exchange.pushed ∧
      (∀ ports, fifo.Permits ports → fifo.readWords ports = (exchange ports).leaving contents) ∧
      contents.length ≤ n ∧ fifo.fifoNum = contents.length ∧
      fifo.fifoFull = decide (contents.length = n) ∧
      fifo.fifoAlmostFull = decide (n ≤ contents.length + 1) ∧
      fifo.fifoEmpty = decide (contents = []) ∧
      fifo.fifoAlmostEmpty = decide (contents.length ≤ 1) := by
  intro fifo contents
  obtain ⟨valid, reads⟩ := run_contains run (cleared_contains blank) heeds
  have count : fifo.fifoNum = contents.length := valid.fifoNum_eq
  refine ⟨?_, fun ports permits => readWords_eq valid (permits.fits valid), valid.fits, count,
    ?_, ?_, ?_, ?_⟩
  · rw [reads]
    exact BoundedQueue.conservation [] (run.map exchange)
  · rw [fifoFull, count]
    rfl
  · rw [fifoAlmostFull, count, decide_eq_decide]
    omega
  · rw [fifoEmpty, count, Bool.eq_iff_iff, beq_iff_eq, decide_eq_true_iff,
      List.length_eq_zero_iff]
  · rw [fifoAlmostEmpty, count]

/-- Three lines: both pointers wrap, one of them by two and the other through its second port. -/
def wrapRun : List (Ports Nat) :=
  [⟨true, true, false, false, 1, 2⟩, ⟨false, true, true, false, 0, 3⟩,
    ⟨true, false, false, true, 4, 0⟩, ⟨true, false, true, true, 5, 0⟩]

theorem queue_refines_wrap :
    PermitsRun (cleared 0 : F2if2o 3 Nat) wrapRun ∧
      readRun (cleared 0 : F2if2o 3 Nat) wrapRun = [1, 2, 3, 4] ∧
      readRun (cleared 0 : F2if2o 3 Nat) wrapRun ++
        BoundedQueue.after [] (wrapRun.map exchange) = [1, 2, 3, 4, 5] := by
  have heeds : PermitsRun (cleared 0 : F2if2o 3 Nat) wrapRun :=
    ⟨⟨by decide, by decide, by decide, by decide⟩, ⟨by decide, by decide, by decide, by decide⟩,
      ⟨by decide, by decide, by decide, by decide⟩, ⟨by decide, by decide, by decide, by decide⟩,
      trivial⟩
  exact ⟨heeds, by decide, (queue_refines 0 wrapRun heeds).1⟩

end Runs

end GreenRio.F2if2o
