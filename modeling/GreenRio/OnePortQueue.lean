import Mathlib.Data.List.Induction
import Mathlib.Data.List.Infix
import GreenRio.BoundedQueue
import GreenRio.Fifo

set_option autoImplicit false

namespace GreenRio

open Circular Fifo

variable {n : Nat} {α : Type}

/-- The registers of `fifo`. -/
structure OnePort (n : Nat) (α : Type) where
  fifoQueue : Fin n → α
  wrLine : Fin n
  rdLine : Fin n
  fifoRecount : Bool

/-- One cycle's requests. -/
structure FifoAccess (α : Type) where
  wrEn : Bool
  rdEn : Bool
  wdata : α

namespace OnePort

def fifoNum (fifo : OnePort n α) : Nat := Fifo.fifoNum fifo.wrLine fifo.rdLine fifo.fifoRecount

def fifoFull (fifo : OnePort n α) : Bool := fifo.fifoNum == n

def fifoEmpty (fifo : OnePort n α) : Bool := fifo.fifoNum == 0

def rdata (fifo : OnePort n α) : α := fifo.fifoQueue fifo.rdLine

/-- `cnt_end_o` of `counter`: it is set for as long as the counter rests on the last line. -/
def cntEnd (line : Fin n) : Bool := line.val == n - 1

variable [NeZero n]

def cntNext (line : Fin n) (add : Bool) : Fin n :=
  if add then if cntEnd line then 0 else Fin.ofNat n (line.val + 1) else line

/-- The state under `rst`; `blank` is the all-zero word. -/
def reset (blank : α) : OnePort n α where
  fifoQueue := fun _ => blank
  wrLine := 0
  rdLine := 0
  fifoRecount := false

/-- One clock edge outside reset. -/
def step (fifo : OnePort n α) (access : FifoAccess α) : OnePort n α :=
  let wrCntFlag := access.wrEn && !fifo.fifoFull
  let rdCntFlag := access.rdEn && !fifo.fifoEmpty
  { fifoQueue :=
      if wrCntFlag then Function.update fifo.fifoQueue fifo.wrLine access.wdata
      else fifo.fifoQueue
    wrLine := cntNext fifo.wrLine wrCntFlag
    rdLine := cntNext fifo.rdLine rdCntFlag
    fifoRecount := recountNext fifo.fifoRecount (cntEnd fifo.wrLine) (cntEnd fifo.rdLine) }

theorem cntNext_eq (line : Fin n) (add : Bool) : cntNext line add = advance line add.toNat := by
  have inside := line.isLt
  cases add with
  | false => simp [cntNext]
  | true =>
    unfold cntNext cntEnd
    rw [if_pos rfl]
    split
    · rename_i last
      rw [beq_iff_eq] at last
      apply Fin.ext
      rw [advance_val_wrapped line _ (by simp; omega) (by simp; omega)]
      change 0 % n = _
      rw [Nat.zero_mod, Bool.toNat_true]
      omega
    · rfl

end OnePort

/-- The queue that `fifo` is to be, and how many words were ever written to it. -/
structure Log (α : Type) where
  contents : List α
  written : Nat

namespace Log

def empty : Log α where
  contents := []
  written := 0

/-- A write counts unless the queue is full, a read unless it is empty. -/
def exchange (n : Nat) (log : Log α) (access : FifoAccess α) : BoundedQueue.Exchange α where
  pushed := if access.wrEn && decide (log.contents.length < n) then [access.wdata] else []
  popped := if access.rdEn && decide (0 < log.contents.length) then 1 else 0

def next (n : Nat) (log : Log α) (access : FifoAccess α) : Log α where
  contents := (log.exchange n access).next log.contents
  written := log.written + (log.exchange n access).pushed.length

/-- The queue is not left empty or full with both pointers on the last line. A single line is
always the last, but there only an empty queue is misread. -/
def Clear (n : Nat) (log : Log α) : Prop :=
  if n = 1 then log.contents ≠ []
  else log.contents = [] ∨ log.contents.length = n → log.written % n ≠ n - 1

instance (n : Nat) (log : Log α) : Decidable (log.Clear n) :=
  inferInstanceAs (Decidable (if n = 1 then log.contents ≠ []
    else log.contents = [] ∨ log.contents.length = n → log.written % n ≠ n - 1))

end Log

namespace OnePort

/-- The outputs are those of the queue. -/
structure Agrees (fifo : OnePort n α) (log : Log α) : Prop where
  num : fifo.fifoNum = log.contents.length
  full : fifo.fifoFull = decide (log.contents.length = n)
  empty : fifo.fifoEmpty = decide (log.contents = [])
  data : ∀ word rest, log.contents = word :: rest → fifo.rdata = word

/-- Where the queue lies in the lines. -/
structure Layout (fifo : OnePort n α) (log : Log α) : Prop where
  fits : log.contents.length ≤ n
  cells : window fifo.fifoQueue fifo.rdLine log.contents.length = log.contents
  tail : fifo.wrLine = advance fifo.rdLine log.contents.length
  count : fifo.wrLine.val = log.written % n

/-- While neither pointer rests on the last line the flag tells how often they have passed it, and
they never rest there together. With a single line the flag is set when the queue is full. -/
structure Sound (fifo : OnePort n α) (log : Log α) : Prop extends Layout fifo log where
  apart : n ≠ 1 → ¬ (fifo.wrLine.val = n - 1 ∧ fifo.rdLine.val = n - 1)
  flag : n ≠ 1 → fifo.wrLine.val ≠ n - 1 → fifo.rdLine.val ≠ n - 1 →
    (fifo.fifoRecount = true ↔ n ≤ fifo.rdLine.val + log.contents.length)
  single : n = 1 → (fifo.fifoRecount = true ↔ log.contents.length = 1)

section Invariant

variable {fifo : OnePort n α} {log : Log α}

theorem Layout.wrLine_val (layout : fifo.Layout log) :
    (fifo.wrLine.val = fifo.rdLine.val + log.contents.length ∧
        fifo.rdLine.val + log.contents.length < n) ∨
      fifo.wrLine.val + n = fifo.rdLine.val + log.contents.length := by
  have inside := fifo.rdLine.isLt
  have room := layout.fits
  rcases Nat.lt_or_ge (fifo.rdLine.val + log.contents.length) n with low | high
  · left
    rw [layout.tail, advance_val_below _ _ low]
    exact ⟨rfl, low⟩
  · right
    rw [layout.tail, advance_val_wrapped _ _ high (by omega)]
    omega

theorem fifoNum_cases (fifo : OnePort n α) :
    (fifo.rdLine.val < fifo.wrLine.val ∧
        fifo.fifoNum = fifo.wrLine.val - fifo.rdLine.val) ∨
      (fifo.wrLine.val = fifo.rdLine.val ∧ fifo.fifoNum = if fifo.fifoRecount then n else 0) ∨
      (fifo.wrLine.val < fifo.rdLine.val ∧
        fifo.fifoNum = n + fifo.wrLine.val - fifo.rdLine.val) := by
  unfold fifoNum Fifo.fifoNum
  rcases Nat.lt_trichotomy fifo.wrLine.val fifo.rdLine.val with below | same | above
  · right
    right
    rw [if_neg (by omega), if_neg (fun equal => by rw [equal] at below; omega)]
    exact ⟨below, rfl⟩
  · right
    left
    rw [if_neg (by omega), if_pos (Fin.ext same)]
    exact ⟨same, rfl⟩
  · left
    rw [if_pos above]
    exact ⟨above, rfl⟩

theorem Sound.fifoNum_eq (sound : fifo.Sound log) : fifo.fifoNum = log.contents.length := by
  have inside := fifo.rdLine.isLt
  have inside' := fifo.wrLine.isLt
  have room := sound.fits
  have place := sound.wrLine_val
  rcases fifo.fifoNum_cases with ⟨order, num⟩ | ⟨same, num⟩ | ⟨order, num⟩
  · omega
  · rw [num]
    by_cases one : n = 1
    · have single := sound.single one
      split_ifs with recount
      · have := single.mp recount
        omega
      · have := mt single.mpr recount
        omega
    · have apart := sound.apart one
      have flag := sound.flag one (by omega) (by omega)
      split_ifs with recount
      · have := flag.mp recount
        omega
      · have := mt flag.mpr recount
        omega
  · omega

theorem Sound.agrees (sound : fifo.Sound log) : fifo.Agrees log where
  num := sound.fifoNum_eq
  full := by rw [fifoFull, sound.fifoNum_eq]; rfl
  empty := by
    rw [fifoEmpty, sound.fifoNum_eq, Bool.eq_iff_iff, beq_iff_eq, decide_eq_true_iff,
      List.length_eq_zero_iff]
  data := by
    intro word rest shape
    have cells := sound.cells
    rw [shape, List.length_cons, window_succ] at cells
    exact (List.cons.inj cells).1

end Invariant

section Cycle

variable {fifo : OnePort n α} {log : Log α} (access : FifoAccess α)

/-- Whether a write and a read of this cycle count. -/
def writes (n : Nat) (log : Log α) (access : FifoAccess α) : Bool :=
  access.wrEn && decide (log.contents.length < n)

def reads (log : Log α) (access : FifoAccess α) : Bool :=
  access.rdEn && decide (0 < log.contents.length)

theorem next_contents : (log.next n access).contents =
    log.contents.drop (reads log access).toNat ++
      (if writes n log access then [access.wdata] else []) := by
  unfold Log.next Log.exchange BoundedQueue.Exchange.next reads writes
  cases access.rdEn && decide (0 < log.contents.length) <;> rfl

theorem next_length : (log.next n access).contents.length =
    log.contents.length - (reads log access).toNat + (writes n log access).toNat := by
  rw [next_contents, List.length_append, List.length_drop]
  cases writes n log access <;> rfl

theorem next_written : (log.next n access).written =
    log.written + (writes n log access).toNat := by
  unfold Log.next Log.exchange writes
  cases access.wrEn && decide (log.contents.length < n) <;> rfl

theorem writes_room (fits : log.contents.length ≤ n) :
    log.contents.length + (writes n log access).toNat ≤ n := by
  cases asks : writes n log access with
  | false => simpa using fits
  | true =>
    simp only [writes, Bool.and_eq_true, decide_eq_true_eq] at asks
    exact asks.2

theorem reads_present : (reads log access).toNat ≤ log.contents.length := by
  cases asks : reads log access with
  | false => simp
  | true =>
    simp only [reads, Bool.and_eq_true, decide_eq_true_eq] at asks
    exact asks.2

variable [NeZero n]

/-- While the outputs are right, the requests that count are those of the queue. -/
theorem step_eq (sound : fifo.Sound log) : fifo.step access =
    { fifoQueue :=
        if writes n log access then Function.update fifo.fifoQueue fifo.wrLine access.wdata
        else fifo.fifoQueue
      wrLine := advance fifo.wrLine (writes n log access).toNat
      rdLine := advance fifo.rdLine (reads log access).toNat
      fifoRecount := recountNext fifo.fifoRecount (cntEnd fifo.wrLine) (cntEnd fifo.rdLine) } := by
  have room := sound.fits
  have full : (!fifo.fifoFull) = decide (log.contents.length < n) := by
    rw [sound.agrees.full, ← decide_not, decide_eq_decide]
    omega
  have empty : (!fifo.fifoEmpty) = decide (0 < log.contents.length) := by
    rw [sound.agrees.empty, ← decide_not, decide_eq_decide, List.length_pos_iff]
  simp only [step, full, empty, cntNext_eq]
  rfl

omit [NeZero n] in
theorem advance_bit (line : Fin n) (add : Bool) : (advance line add.toNat).val =
    if line.val = n - 1 ∧ add = true then 0 else line.val + add.toNat := by
  have inside := line.isLt
  cases add with
  | false => simp
  | true =>
    rw [Bool.toNat_true]
    split_ifs with last
    · rw [advance_val_wrapped line 1 (by omega) (by omega)]
      omega
    · exact advance_val_below line 1 (by simp at last; omega)

/-- A cycle moves the queue through the lines, whatever the flag says afterwards. -/
theorem Sound.step_layout (sound : fifo.Sound log) :
    (fifo.step access).Layout (log.next n access) := by
  have room := writes_room access sound.fits
  have present : (reads log access).toNat ≤ log.contents.length := reads_present access
  rw [step_eq access sound]
  constructor
  · rw [next_length]
    omega
  · rw [next_length, next_contents]
    have rest : window fifo.fifoQueue (advance fifo.rdLine (reads log access).toNat)
        (log.contents.length - (reads log access).toNat) =
          log.contents.drop (reads log access).toNat := by
      have parts := window_take fifo.fifoQueue fifo.rdLine (reads log access).toNat
        (log.contents.length - (reads log access).toNat)
      rw [Nat.add_sub_cancel' present, sound.cells] at parts
      exact (List.drop_left' (window_length _ _ _)).symm.trans
        (congrArg (List.drop (reads log access).toNat) parts.symm)
    cases asks : writes n log access with
    | false =>
      rw [if_neg (by simp), if_neg (by simp), List.append_nil, Bool.toNat_false, Nat.add_zero]
      exact rest
    | true =>
      rw [asks, Bool.toNat_true] at room
      have line : fifo.wrLine = advance (advance fifo.rdLine (reads log access).toNat)
          (log.contents.length - (reads log access).toNat) := by
        rw [sound.tail, advance_advance, Nat.add_sub_cancel' present]
      rw [if_pos rfl, if_pos rfl, Bool.toNat_true, line, window_push _ _ _ _ (by omega), rest]
  · change advance fifo.wrLine _ = advance (advance fifo.rdLine _) _
    rw [next_length, sound.tail, advance_advance, advance_advance]
    congr 1
    omega
  · rw [next_written]
    change (fifo.wrLine.val + _) % n = _
    rw [sound.count, Nat.mod_add_mod]

/-- The flag after a cycle that leaves both pointers on the last line: it is set when the queue is
empty and clear when it is full. -/
theorem Sound.step_flag (sound : fifo.Sound log) (large : n ≠ 1)
    (write : (fifo.step access).wrLine.val = n - 1)
    (read : (fifo.step access).rdLine.val = n - 1) :
    ((log.next n access).contents.length = 0 ∧ (fifo.step access).fifoRecount = true) ∨
      ((log.next n access).contents.length = n ∧ (fifo.step access).fifoRecount = false) := by
  have apart := sound.apart large
  have place := sound.wrLine_val
  have room := writes_room access sound.fits
  have present : (reads log access).toNat ≤ log.contents.length := reads_present access
  have positive := NeZero.pos n
  have inside := fifo.rdLine.isLt
  have inside' := fifo.wrLine.isLt
  rw [step_eq access sound] at write read ⊢
  simp only [advance_bit] at write read
  rw [next_length]
  cases writing : writes n log access <;> cases reading : reads log access <;>
    simp only [writing, reading, Bool.false_eq_true, and_false, and_true, ↓reduceIte,
      Bool.toNat_false, Bool.toNat_true, Nat.add_zero, Nat.sub_zero] at write read room present ⊢
  · omega
  · -- the last word is read while the write pointer rests on the last line
    left
    split_ifs at read
    · omega
    · have last : cntEnd fifo.wrLine = true := by simpa [cntEnd] using write
      exact ⟨by omega, by rw [last]; rfl⟩
  · -- the last free line is written while the read pointer rests on the last line
    right
    split_ifs at write
    · omega
    · have resting : cntEnd fifo.rdLine = true := by simpa [cntEnd] using read
      have moving : cntEnd fifo.wrLine = false := by simp [cntEnd]; omega
      rw [resting, moving]
      refine ⟨by omega, ?_⟩
      cases fifo.fifoRecount <;> rfl
  · split_ifs at write read <;> omega

omit [NeZero n] in
/-- A queue that lies in the lines is empty or full exactly when the pointers meet. -/
theorem Layout.meet_iff (layout : fifo.Layout log) :
    fifo.wrLine.val = fifo.rdLine.val ↔ log.contents = [] ∨ log.contents.length = n := by
  have place := layout.wrLine_val
  have room := layout.fits
  have inside := fifo.wrLine.isLt
  have inside' := fifo.rdLine.isLt
  rw [← List.length_eq_zero_iff]
  omega

theorem Sound.step_sound (sound : fifo.Sound log) (clear : (log.next n access).Clear n) :
    (fifo.step access).Sound (log.next n access) := by
  have layout := sound.step_layout access
  refine ⟨layout, ?_, ?_, ?_⟩
  · rintro large ⟨write, read⟩
    rw [Log.Clear, if_neg large] at clear
    have away := clear (layout.meet_iff.mp (write.trans read.symm))
    rw [← layout.count] at away
    exact away write
  · intro large write read
    have apart := sound.apart large
    have flag := sound.flag large
    have place := sound.wrLine_val
    have room := writes_room access sound.fits
    have present : (reads log access).toNat ≤ log.contents.length := reads_present access
    have inside := fifo.rdLine.isLt
    have inside' := fifo.wrLine.isLt
    rw [step_eq access sound] at write read ⊢
    simp only [advance_bit] at write read ⊢
    rw [next_length]
    generalize writes n log access = writing at write read room ⊢
    generalize reads log access = reading at write read present ⊢
    by_cases wrLast : fifo.wrLine.val = n - 1
    · have resting : cntEnd fifo.wrLine = true := by simpa [cntEnd] using wrLast
      have leaves : writing = true := by
        by_contra stays
        simp [wrLast, stays] at write
      rw [resting, leaves, if_neg (by omega), Bool.toNat_true]
      simp only [recountNext, ↓reduceIte, true_iff]
      omega
    · have moving : cntEnd fifo.wrLine = false := by simpa [cntEnd] using wrLast
      rw [moving]
      by_cases rdLast : fifo.rdLine.val = n - 1
      · have resting : cntEnd fifo.rdLine = true := by simpa [cntEnd] using rdLast
        have leaves : reading = true := by
          by_contra stays
          simp [rdLast, stays] at read
        rw [resting, leaves, if_pos ⟨rdLast, rfl⟩, Bool.toNat_true]
        have few := Bool.toNat_le writing
        have cleared : recountNext fifo.fifoRecount false true = false := by
          cases fifo.fifoRecount <;> rfl
        rw [leaves, Bool.toNat_true] at present
        rw [cleared]
        simp only [Bool.false_eq_true, false_iff]
        omega
      · have idle : cntEnd fifo.rdLine = false := by simpa [cntEnd] using rdLast
        have kept : recountNext fifo.fifoRecount false false = fifo.fifoRecount := by
          simp [recountNext]
        have few := Bool.toNat_le writing
        rw [idle, kept, flag wrLast rdLast, if_neg (fun both => rdLast both.1)]
        omega
  · rintro rfl
    have resting : cntEnd fifo.wrLine = true := by
      rw [Subsingleton.elim fifo.wrLine 0]
      rfl
    rw [Log.Clear, if_pos rfl, ne_eq, ← List.length_eq_zero_iff] at clear
    have room := layout.fits
    rw [step_eq access sound, resting]
    simp only [recountNext, ↓reduceIte, true_iff]
    omega

/-- Left empty or full on the last line, the queue is misread. -/
theorem Sound.step_misread (sound : fifo.Sound log) (stuck : ¬ (log.next n access).Clear n) :
    ¬ (fifo.step access).Agrees (log.next n access) := by
  intro agrees
  have layout := sound.step_layout access
  have num := agrees.num
  by_cases one : n = 1
  · subst one
    rw [Log.Clear, if_pos rfl, not_not] at stuck
    have resting : cntEnd fifo.wrLine = true := by
      rw [Subsingleton.elim fifo.wrLine 0]
      rfl
    have raised : (fifo.step access).fifoRecount = true := by
      rw [step_eq access sound, resting]
      rfl
    have meet := layout.meet_iff.mpr (Or.inl stuck)
    rcases (fifo.step access).fifoNum_cases with ⟨order, -⟩ | ⟨-, value⟩ | ⟨order, -⟩
    · omega
    · rw [num, stuck, raised] at value
      simp at value
    · omega
  · rw [Log.Clear, if_neg one] at stuck
    push Not at stuck
    obtain ⟨edge, last⟩ := stuck
    have meet := layout.meet_iff.mpr edge
    have write := layout.count.trans last
    have positive := NeZero.pos n
    rcases (fifo.step access).fifoNum_cases with ⟨order, -⟩ | ⟨-, value⟩ | ⟨order, -⟩
    · omega
    · rcases sound.step_flag access one write (meet.symm.trans write) with
        ⟨size, raised⟩ | ⟨size, lowered⟩
      · rw [num, size, raised] at value
        simp at value
        omega
      · rw [num, size, lowered] at value
        simp at value
        omega
    · omega

end Cycle

section Runs

variable [NeZero n]

theorem reset_sound (blank : α) : (reset blank : OnePort n α).Sound Log.empty where
  fits := Nat.zero_le n
  cells := rfl
  tail := (advance_zero _).symm
  count := by simp [reset, Log.empty]
  apart := by
    intro large both
    have positive := NeZero.pos n
    simp [reset] at both
    omega
  flag := by
    intro large write read
    have positive := NeZero.pos n
    simp [reset, Log.empty]
    omega
  single := by simp [reset, Log.empty]

/-- The registers and the queue after a run from reset. -/
def after (n : Nat) [NeZero n] (blank : α) (run : List (FifoAccess α)) : OnePort n α :=
  run.foldl step (reset blank)

def logged (n : Nat) (run : List (FifoAccess α)) : Log α := run.foldl (Log.next n) Log.empty

theorem after_append (blank : α) (run : List (FifoAccess α)) (access : FifoAccess α) :
    after n blank (run ++ [access]) = (after n blank run).step access := by
  rw [after, List.foldl_append]
  rfl

omit [NeZero n] in
theorem logged_append (run : List (FifoAccess α)) (access : FifoAccess α) :
    logged n (run ++ [access]) = (logged n run).next n access := by
  rw [logged, List.foldl_append]
  rfl

/-- As long as no cycle leaves the queue stuck, the registers are sound. -/
theorem after_sound (blank : α) (run : List (FifoAccess α))
    (clear : ∀ earlier, earlier <+: run → earlier ≠ [] → (logged n earlier).Clear n) :
    (after n blank run).Sound (logged n run) := by
  induction run using List.reverseRecOn with
  | nil => exact reset_sound blank
  | append_singleton run access ih =>
    have sound := ih fun earlier inside => clear earlier (inside.trans (List.prefix_append _ _))
    have last := clear (run ++ [access]) List.prefix_rfl (by simp)
    rw [logged_append] at last
    rw [after_append, logged_append]
    exact sound.step_sound access last

/-- `fifo` is a bounded queue in every cycle of a run. -/
def AlwaysAgrees (n : Nat) [NeZero n] (blank : α) (run : List (FifoAccess α)) : Prop :=
  ∀ earlier, earlier <+: run → (after n blank earlier).Agrees (logged n earlier)

/-- `fifo` is a bounded queue throughout a run exactly when no cycle of it leaves the queue empty or
full with both pointers on the last line. -/
theorem agrees_iff_clear (blank : α) (run : List (FifoAccess α)) :
    AlwaysAgrees n blank run ↔
      ∀ earlier, earlier <+: run → earlier ≠ [] → (logged n earlier).Clear n := by
  unfold AlwaysAgrees
  constructor
  · induction run using List.reverseRecOn with
    | nil =>
      intro _ earlier inside started
      exact absurd (List.prefix_nil.mp inside) started
    | append_singleton run access ih =>
      intro agrees
      have before := ih fun earlier inside =>
        agrees earlier (inside.trans (List.prefix_append _ _))
      have sound := after_sound blank run before
      intro earlier inside started
      rcases List.prefix_concat_iff.mp inside with rfl | short
      · by_contra stuck
        rw [logged_append] at stuck
        have misread := sound.step_misread access stuck
        rw [← after_append, ← logged_append] at misread
        exact misread (agrees _ List.prefix_rfl)
      · exact before earlier short started
  · intro clear earlier inside
    have sound := after_sound blank earlier fun first shorter =>
      clear first (shorter.trans inside)
    exact sound.agrees

theorem agrees_iff_clear_wrap :
    AlwaysAgrees 3 0 [⟨true, false, 7⟩, ⟨true, true, 8⟩, ⟨true, true, 9⟩, ⟨false, true, 0⟩] := by
  apply (agrees_iff_clear 0 _).mpr
  intro earlier inside
  rw [← List.mem_inits] at inside
  revert earlier
  decide

/-- Four lines: three words are written and read again, and the empty queue reads as full. -/
theorem drained_reads_full :
    ¬ AlwaysAgrees 4 0 (List.replicate 3 ⟨true, false, 7⟩ ++
      List.replicate 3 ⟨false, true, 0⟩) := by
  intro agrees
  have full := (agrees _ List.prefix_rfl).full
  revert full
  decide

end Runs

end OnePort

end GreenRio
