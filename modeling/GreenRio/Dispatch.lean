import GreenRio.Core

set_option autoImplicit false

namespace GreenRio.Core

open Circular Counter Fifo

variable {core : Core} {waiting : List Decoded} {length : Nat}

/-- The instructions fetch hands over in one cycle. -/
def pushed (core : Core) (input : CoreInput) : List Decoded :=
  accepted (core.hasFirstInst input) (core.hasFullInst input) input.supply.first
    input.supply.second

/-- The instructions written into the reorder buffer in one cycle. -/
def entered (core : Core) (input : CoreInput) : List Decoded :=
  accepted (core.rcu.doRobWriteFirst (core.rcuInput input))
    (core.rcu.doRobWriteSecond (core.rcuInput input)) core.offer.first core.offer.second

/-- The entries retired in one cycle. -/
def retired (core : Core) (input : CoreInput) : List RobEntry :=
  Rcu.retiring core.rcu (core.rcuInput input)

theorem full_room (valid : core.fifo.Contains waiting) :
    (core.fifo.fifoFull = false ↔ waiting.length < 8) ∧
      (core.fifo.fifoAlmostFull = false ↔ waiting.length < 7) := by
  have size := valid.fits
  simp only [F2if2o.fifoFull, F2if2o.fifoAlmostFull, valid.fifoNum_eq]
  constructor
  · rw [beq_eq_false_iff_ne]
    omega
  · rw [decide_eq_false_iff_not]
    omega

theorem empty_iff (valid : core.fifo.Contains waiting) :
    (core.fifo.fifoEmpty = false ↔ 0 < waiting.length) ∧
      (core.fifo.fifoAlmostEmpty = false ↔ 1 < waiting.length) := by
  simp only [F2if2o.fifoEmpty, F2if2o.fifoAlmostEmpty, valid.fifoNum_eq]
  constructor
  · rw [beq_eq_false_iff_ne]
    omega
  · rw [decide_eq_false_iff_not]
    omega

/-- The queue takes exactly what fetch hands over. -/
theorem write_enables (valid : core.fifo.Contains waiting) (input : CoreInput) :
    core.wrFirstEn input = core.hasFirstInst input ∧
      core.wrSecondEn input = core.hasFullInst input := by
  obtain ⟨full, almostFull⟩ := full_room valid
  have ordered := input.supply.ordered
  have ready : core.fifo.fifoAlmostFull = false → core.fifo.fifoFull = false := by
    rw [full, almostFull]
    omega
  unfold wrFirstEn wrSecondEn hasFirstInst hasFullInst singleReady doubleReady globalWfi
  cases first : input.supply.available <;> cases second : input.supply.availableFull <;>
    cases isFull : core.fifo.fifoFull <;> cases isAlmostFull : core.fifo.fifoAlmostFull <;>
    simp_all

/-- The pop enables derived from the ready bits agree with the reorder-buffer writes. -/
theorem read_enables (window : Rcu.Window core.rcu length) (input : CoreInput)
    (quiet : core.flush input = false) :
    core.rdFirstEn = core.rcu.doRobWriteFirst (core.rcuInput input) ∧
      core.rdSecondEn = core.rcu.doRobWriteSecond (core.rcuInput input) := by
  have ordered := window.first_ready
  have fault : core.rcu.globalSpeculateFault (core.rcuInput input) = false := quiet
  have wfi : (core.rcuInput input).globalWfi = false := rfl
  have first : (core.rcuInput input).offer.validFirst = !core.fifo.fifoEmpty := rfl
  have second : (core.rcuInput input).offer.validSecond = !core.fifo.fifoAlmostEmpty := rfl
  unfold rdFirstEn rdSecondEn Rcu.doRobWriteFirst Rcu.doRobWriteSecond
  cases readyFirst : core.rcu.robFirstWriteReady <;>
    cases readySecond : core.rcu.robSecondWriteReady <;> simp_all

/-- What the ports pop are the oldest waiting instructions, offered in their order. -/
theorem entered_eq (valid : core.fifo.Contains waiting) (window : Rcu.Window core.rcu length)
    (input : CoreInput) (quiet : core.flush input = false) :
    amount core.rdFirstEn core.rdSecondEn ≤ waiting.length ∧
      entered core input = waiting.take (amount core.rdFirstEn core.rdSecondEn) := by
  obtain ⟨first, second⟩ := read_enables window input quiet
  obtain ⟨empty, almostEmpty⟩ := empty_iff valid
  have ordered := window.write_ordered (core.rcuInput input)
  have present : core.rdFirstEn = true → core.fifo.fifoEmpty = false := by
    unfold rdFirstEn
    split <;> simp_all
  have present' : core.rdSecondEn = true → core.fifo.fifoAlmostEmpty = false := by
    unfold rdSecondEn
    split <;> simp_all
  unfold entered
  rw [← first, ← second] at *
  rcases readFirst : core.rdFirstEn <;> rcases readSecond : core.rdSecondEn
  · exact ⟨Nat.zero_le _, rfl⟩
  · simp [readFirst, readSecond] at ordered
  · have some := empty.mp (present readFirst)
    rcases waiting with _ | ⟨word, rest⟩
    · simp at some
    · refine ⟨by simp [amount], ?_⟩
      simp [accepted, amount, offer, readFirst, readSecond, valid.rdataFirst_eq]
  · have two := almostEmpty.mp (present' readSecond)
    rcases waiting with _ | ⟨word, _ | ⟨following, rest⟩⟩
    · simp at two
    · simp at two
    · refine ⟨by simp [amount], ?_⟩
      simp [accepted, amount, offer, readFirst, readSecond, valid.rdataFirst_eq,
        valid.rdataSecond_eq]

/-- One cycle of the queue: pops at the front, pushes at the back, none of them lost. -/
theorem step_fifo (valid : core.fifo.Contains waiting) (window : Rcu.Window core.rcu length)
    (input : CoreInput) (quiet : core.flush input = false) :
    ∃ left, (core.step input).fifo.Contains left ∧
      waiting ++ pushed core input = entered core input ++ left := by
  obtain ⟨present, popped⟩ := entered_eq valid window input quiet
  obtain ⟨writeFirst, writeSecond⟩ := write_enables valid input
  obtain ⟨full, almostFull⟩ := full_room valid
  have room : waiting.length + amount (core.wrFirstEn input) (core.wrSecondEn input) ≤ 8 := by
    have size := valid.fits
    have free : core.wrFirstEn input = true → core.fifo.fifoFull = false := by
      unfold wrFirstEn
      split <;> simp_all
    have free' : core.wrSecondEn input = true → core.fifo.fifoAlmostFull = false := by
      unfold wrSecondEn
      split <;> simp_all
    cases enableFirst : core.wrFirstEn input <;> cases enableSecond : core.wrSecondEn input <;>
      simp only [amount, Bool.toNat_true, Bool.toNat_false]
    · omega
    · have := almostFull.mp (free' enableSecond)
      omega
    · have := full.mp (free enableFirst)
      omega
    · have := almostFull.mp (free' enableSecond)
      omega
  have moved := F2if2o.step_contains valid (core.fifoPorts input) present (by
    change waiting.length - amount core.rdFirstEn core.rdSecondEn +
      amount (core.wrFirstEn input) (core.wrSecondEn input) ≤ 8
    omega)
  refine ⟨_, by simpa only [step, quiet, Bool.false_eq_true, ↓reduceIte] using moved, ?_⟩
  rw [popped, ← List.append_assoc]
  change waiting ++ pushed core input =
    waiting.take (amount core.rdFirstEn core.rdSecondEn) ++
        waiting.drop (amount core.rdFirstEn core.rdSecondEn) ++
      accepted (core.wrFirstEn input) (core.wrSecondEn input) input.supply.first
        input.supply.second
  rw [List.take_append_drop, writeFirst, writeSecond]
  rfl

/-- The fields a reorder-buffer entry copies from its instruction. -/
theorem dispatched_op (core : Core) (input : CoreInput) :
    (Rcu.dispatched core.rcu (core.rcuInput input)).map RobEntry.toRobOp =
      (entered core input).map Decoded.toRobOp := by
  rw [Rcu.dispatched, entered, accepted_map, accepted_map]
  rfl

/-- What has been pushed, dispatched and retired since the last flush, against the state. -/
structure Flows (core : Core) (pushed entered : List Decoded) (retired : List RobEntry) :
    Prop where
  queued : ∃ waiting, core.fifo.Contains waiting ∧ pushed = entered ++ waiting
  window : ∃ length, Rcu.Window core.rcu length
  stored : entered.map Decoded.toRobOp =
    (retired ++ Rcu.inUse core.rcu).map RobEntry.toRobOp

theorem step_flows {past entry : List Decoded} {gone : List RobEntry}
    (flows : Flows core past entry gone) (input : CoreInput)
    (quiet : core.flush input = false) :
    Flows (core.step input) (past ++ pushed core input) (entry ++ entered core input)
      (gone ++ retired core input) := by
  obtain ⟨⟨waiting, valid, order⟩, ⟨length, window⟩, stored⟩ := flows
  obtain ⟨left, valid', order'⟩ := step_fifo valid window input quiet
  have window' := Rcu.step_window window (core.rcuInput input) quiet
  refine ⟨⟨left, valid', ?_⟩, ⟨_, window'⟩, ?_⟩
  · rw [order, List.append_assoc, order', List.append_assoc]
  · have moved : retired core input ++ Rcu.inUse (core.step input).rcu = _ :=
      Rcu.step_inUse window (core.rcuInput input) quiet
    rw [List.append_assoc, moved, ← List.append_assoc, List.map_append, List.map_append, ← stored,
      dispatched_op]

theorem reset_flows : Flows reset [] [] [] :=
  ⟨⟨[], F2if2o.reset_contains _, rfl⟩, ⟨0, Rcu.reset_window⟩, rfl⟩

theorem step_flows_flush (core : Core) (input : CoreInput) (fault : core.flush input = true) :
    Flows (core.step input) [] [] [] := by
  have window := Rcu.step_window_fault core.rcu (core.rcuInput input) fault
  refine ⟨⟨[], ?_, rfl⟩, ⟨0, window⟩, ?_⟩
  · simpa only [step, fault, ↓reduceIte] using F2if2o.reset_contains Decoded.blank
  · have empty : Rcu.inUse (core.step input).rcu = [] :=
      Rcu.step_inUse_fault core.rcu (core.rcuInput input) fault
    rw [empty]
    rfl

theorem run_flows (inputs : List CoreInput) :
    Flows (machine.run inputs) (machine.since flush pushed inputs)
      (machine.since flush entered inputs) (machine.since flush retired inputs) := by
  induction inputs using List.reverseRecOn with
  | nil => exact reset_flows
  | append_singleton inputs input ih =>
    rw [Synchronous.run_snoc, Synchronous.since_snoc, Synchronous.since_snoc,
      Synchronous.since_snoc]
    cases fault : (machine.run inputs).flush input
    · exact step_flows ih input fault
    · exact step_flows_flush _ input fault

/-- The entries in use are a circular interval, the decode queue pops exactly what the reorder
buffer writes, and since the last flush fetch's instructions are, in order, those retired, those
in the window and those still queued. -/
theorem rob_window_and_dispatch (inputs : List CoreInput) :
    (∃ length, length ≤ 16 ∧
        (machine.run inputs).rcu.wrRobIndex =
          advance (machine.run inputs).rcu.cmtRobIndex length ∧
        ∀ index, (machine.run inputs).rcu.robUsed index = true ↔
          index ∈ slots (machine.run inputs).rcu.cmtRobIndex length) ∧
      (∀ input, (machine.run inputs).flush input = false →
        (machine.run inputs).rdFirstEn =
            (machine.run inputs).rcu.doRobWriteFirst ((machine.run inputs).rcuInput input) ∧
          (machine.run inputs).rdSecondEn =
            (machine.run inputs).rcu.doRobWriteSecond ((machine.run inputs).rcuInput input)) ∧
      (∃ waiting, (machine.run inputs).fifo.Contains waiting ∧
        machine.since flush pushed inputs = machine.since flush entered inputs ++ waiting) ∧
      (machine.since flush entered inputs).map Decoded.toRobOp =
        (machine.since flush retired inputs ++ Rcu.inUse (machine.run inputs).rcu).map
          RobEntry.toRobOp := by
  have flows := run_flows inputs
  obtain ⟨length, window⟩ := flows.window
  refine ⟨⟨length, window.bounded, window.tail, window.used⟩, ?_, flows.queued, flows.stored⟩
  intro input quiet
  exact read_enables window input quiet

end GreenRio.Core
