import Mathlib.Data.List.DropRight
import GreenRio.Endless
import GreenRio.Posted

set_option autoImplicit false

/-- Words at the end that do not count leave what is in front of them. -/
theorem List.rdropWhile_append_of_all {α : Type} (p : α → Bool) (list : List α) {fresh : List α}
    (passed : ∀ item ∈ fresh, p item = true) :
    (list ++ fresh).rdropWhile p = list.rdropWhile p := by
  induction fresh using List.reverseRecOn with
  | nil => rw [List.append_nil]
  | append_singleton fresh item ih =>
    rw [← List.append_assoc, List.rdropWhile_concat_pos]
    · exact ih fun other member => passed other (List.mem_append_left _ member)
    · exact passed item (List.mem_append_right _ (List.mem_singleton_self item))

/-- A word that is taken at the front is one less in front of the last one that counts. -/
theorem List.length_rdropWhile_drop {α : Type} (p : α → Bool) (list : List α) (count : Nat) :
    ((list.drop count).rdropWhile p).length = (list.rdropWhile p).length - count := by
  have rest : ∀ item ∈ (list.rtakeWhile p).drop (count - (list.rdropWhile p).length),
      p item = true := fun item member =>
    List.mem_rtakeWhile_imp (List.mem_of_mem_drop member)
  have kept : ((list.rdropWhile p).drop count).rdropWhile p = (list.rdropWhile p).drop count := by
    rw [List.rdropWhile_eq_self_iff]
    intro some
    rw [List.getLast_drop]
    exact List.rdropWhile_last_not p list _
  have split : (list.rdropWhile p ++ list.rtakeWhile p).drop count = list.drop count := by
    rw [List.rdropWhile_append_rtakeWhile]
  rw [← split, List.drop_append, List.rdropWhile_append_of_all p _ rest, kept, List.length_drop]

namespace GreenRio

open Circular Counter Fifo Filter

namespace F2if2o

variable {n : Nat} {α : Type}

/-- The words in the queue, oldest first. -/
def contents (fifo : F2if2o n α) : List α := window fifo.fifoQueue fifo.rdLine fifo.fifoNum

theorem Contains.contents_eq {fifo : F2if2o n α} {words : List α} (valid : fifo.Contains words) :
    fifo.contents = words := by
  rw [contents, valid.fifoNum_eq]
  exact valid.cells

end F2if2o

namespace Lane

variable {observed : Observed} {input : ProcessorInput} (lane : Lane)

/-- The operations that a cycle adds to the queue. -/
def added (observed : Observed) (input : ProcessorInput) : List Issued :=
  (observed.processor.backend.issues (observed.processor.rcuInput input)).filter
    fun issued => lane.accepts issued.entry.toRobOp

theorem room {issued : Issued} (member : issued ∈ lane.added observed input) :
    (lane.queue observed.issue).fifoAlmostFull = false := by
  obtain ⟨issues, accepts⟩ := List.mem_filter.mp member
  obtain ⟨md, lsu⟩ := Backend.issues_room issues
  cases lane with
  | md => exact md accepts
  | lsu => exact lsu accepts

/-- The unit takes the oldest operation, and those that are selected queue up behind the rest. -/
theorem step_contains (input : ProcessorInput) (quiet : observed.processor.flush = false)
    {waiting : List Issued}
    (contains : (lane.queue observed.issue).Contains waiting) :
    (lane.queue (observed.step input).issue).Contains
      (waiting.drop (lane.takes input && !(lane.queue observed.issue).fifoEmpty).toNat ++
        lane.added observed input) := by
  have fault : observed.processor.backend.rcu.globalSpeculateFault
      (observed.processor.backendInput input).toRcuInput = false := quiet
  have short := observed.processor.backend.issues_length (observed.processor.rcuInput input)
  have free : ∀ issued ∈ observed.processor.backend.issues (observed.processor.rcuInput input),
      lane.accepts issued.entry.toRobOp = true →
      (lane.queue observed.issue).fifoAlmostFull = false := fun issued member accepts =>
    lane.room (List.mem_filter.mpr ⟨member, accepts⟩)
  have moved := Backend.queue_step contains short (fun entry => lane.accepts entry.toRobOp)
    (lane.takes input) free
  cases lane with
  | md =>
    change (if _ then _ else _ : F2if2o 4 Issued).Contains _
    rw [if_neg (by rw [fault]; decide)]
    exact moved
  | lsu =>
    change (if _ then _ else _ : F2if2o 4 Issued).Contains _
    rw [if_neg (by rw [fault]; decide)]
    exact moved

theorem answer_completes (observed : Observed) (answered : (lane.answer input).done = true) :
    (observed.processor.rcuInput input).Completes (lane.answer input).robIndex := by
  have ports : (observed.processor.rcuInput input).completions[2]? = some input.md ∧
      (observed.processor.rcuInput input).completions[3]? = some input.lsu.toFuDone :=
    ⟨rfl, rfl⟩
  cases lane with
  | md => exact ⟨_, List.mem_of_getElem? ports.1, answered, rfl⟩
  | lsu => exact ⟨_, List.mem_of_getElem? ports.2, answered, rfl⟩

end Lane

namespace Observed

variable {program : RiscV.Program 39} {observed : Observed} {input : ProcessorInput}
  {length : Nat} {free : List PhyReg} {past : List (Write 32 PhyReg Word)}
  {waiting : List Decoded} {state : RiscV.State 39} {expected : Pc}

/-- The oldest operation leaves the reorder buffer, or everything is flushed. -/
def Leaves (observed : Observed) : Prop :=
  observed.processor.flush = true ∨ observed.processor.core.doRobCommitFirst = true

/-- A queue in front of a unit holds the operation of a slot. -/
def Waits (observed : Observed) (lane : Lane) (index : RobIndex) : Prop :=
  ∃ issued ∈ (lane.queue observed.issue).contents, issued.robIndex = index

/-- The oldest operation stays where it is. -/
structure Stays (observed after : Observed) : Prop where
  head : after.rcu.cmtRobIndex = observed.rcu.cmtRobIndex
  used : after.rcu.robUsed observed.rcu.cmtRobIndex = true
  entry : after.rcu.headFirst = observed.rcu.headFirst

theorem Stays.trans {middle after : Observed} (first : Stays observed middle)
    (second : Stays middle after) : Stays observed after := by
  refine ⟨second.head.trans first.head, ?_, second.entry.trans first.entry⟩
  rw [← first.head]
  exact second.used

theorem quiet_prompt (quiet : observed.processor.flush = false) :
    observed.rcu.dffCmtMissDelay = false := by
  by_contra delay
  rw [Bool.not_eq_false] at delay
  simp only [Processor.flush, Bool.or_eq_false_iff] at quiet
  have calm : observed.rcu.predictMiss = false := quiet.2
  rw [Rcu.predictMiss, if_pos delay] at calm
  cases calm

section Head

variable (steady : Steady observed expected length free past waiting)
  (ready : Ready observed length)
  (used : observed.rcu.robUsed observed.rcu.cmtRobIndex = true)

include steady ready used

/-- The sources of the oldest operation are committed registers, and ready. -/
theorem head_sources :
    observed.issue.availableTable observed.rcu.headFirst.prs1 = true ∧
      observed.issue.availableTable observed.rcu.headFirst.prs2 = true := by
  have window : Rcu.Window observed.rcu length := steady.tracks.sound.window
  have linked := steady.tracks.linked
  have zero : observed.issue.availableTable 0 = true := steady.tracks.values.zeroReady
  rcases length with _ | length
  · rw [window.used] at used
    simp at used
  · rw [Circular.window_succ] at linked
    obtain ⟨prs1, prs2, -⟩ := linked
    constructor
    · rw [Rcu.headFirst, show (observed.rcu.rob observed.rcu.cmtRobIndex).prs1 = _ from prs1]
      split
      · exact ready.committed _
      · exact zero
    · rw [Rcu.headFirst, show (observed.rcu.rob observed.rcu.cmtRobIndex).prs2 = _ from prs2]
      split
      · exact ready.committed _
      · exact zero

variable (posted : Posted observed) (quiet : observed.processor.flush = false)
  (unfinished : observed.rcu.robFinish observed.rcu.cmtRobIndex = false)
  (unselected : observed.issue.robSelected observed.rcu.cmtRobIndex = false)
  (still : observed.writeCount input = 0)
  (room : ∀ lane : Lane, lane.accepts observed.rcu.headFirst.toRobOp = true →
    (lane.queue observed.issue).fifoAlmostFull = false)

include posted unfinished unselected still room

/-- While nothing is dispatched, the oldest operation only waits for room in the queue of its
unit. -/
theorem head_ready :
    observed.processor.backend.selectReady (observed.processor.rcuInput input)
      (.slot observed.rcu.cmtRobIndex) = true := by
  have settled := steady.settled
  obtain ⟨prs1, prs2⟩ := head_sources steady ready used
  have active : (observed.source observed.rcu.cmtRobIndex).skips = false := by
    by_contra skips
    have done := posted.skipped _ used (by simpa using skips)
    exact absurd (done.symm.trans unfinished) (by decide)
  have calm : observed.rcu.robExp observed.rcu.cmtRobIndex = false := by
    by_contra raised
    have done := posted.raised _ used (by simpa using raised)
    exact absurd (done.symm.trans unfinished) (by decide)
  simp only [Decoded.skips, Bool.or_eq_false_iff] at active
  have copied := settled.copied _ used
  have mret : (observed.rcu.rob observed.rcu.cmtRobIndex).mret = false :=
    (congrArg RobOp.mret copied).trans active.1.1.2
  have sret : (observed.rcu.rob observed.rcu.cmtRobIndex).sret = false :=
    (congrArg RobOp.sret copied).trans active.1.2
  have quietFirst : observed.rcu.doRobWriteFirst (observed.processor.rcuInput input) = false := by
    by_contra write
    rw [Bool.not_eq_false] at write
    rw [writeCount, write, amount, Bool.toNat_true] at still
    omega
  have quietSecond : observed.rcu.doRobWriteSecond (observed.processor.rcuInput input) =
      false := by
    by_contra write
    rw [Bool.not_eq_false] at write
    rw [writeCount, write, amount, Bool.toNat_true] at still
    omega
  have available : ∀ register, observed.issue.availableTable register = true →
      observed.processor.backend.realAvailable (observed.processor.rcuInput input) register =
        true := by
    intro register table
    have first : observed.processor.backend.rcu.doRobWriteFirst
      (observed.processor.rcuInput input) = false := quietFirst
    have second : observed.processor.backend.rcu.doRobWriteSecond
      (observed.processor.rcuInput input) = false := quietSecond
    have listed : observed.processor.backend.issue.availableTable register = true := table
    simp [Backend.realAvailable, first, second, listed]
  have memory : (((observed.rcu.rob observed.rcu.cmtRobIndex).isLoad ||
      (observed.rcu.rob observed.rcu.cmtRobIndex).isStore) &&
        observed.issue.lsuQueue.fifoAlmostFull) = false :=
    Bool.and_eq_false_imp.mpr (room .lsu)
  have multiply : ((observed.rcu.rob observed.rcu.cmtRobIndex).isMd &&
      observed.issue.mdQueue.fifoAlmostFull) = false := Bool.and_eq_false_imp.mpr (room .md)
  have status : (((observed.rcu.rob observed.rcu.cmtRobIndex).isCsr &&
      observed.rcu.cmtRobIndex == observed.rcu.cmtRobIndex) ||
        !(observed.rcu.rob observed.rcu.cmtRobIndex).isCsr) = true := by
    simp
  have shared : observed.processor.backend.ready (observed.processor.rcuInput input)
      (observed.rcu.rob observed.rcu.cmtRobIndex) observed.rcu.cmtRobIndex = true := by
    simp only [Backend.ready, Bool.and_eq_true, Bool.not_eq_true']
    exact ⟨⟨⟨⟨⟨available _ prs1, available _ prs2⟩, memory⟩, multiply⟩, status⟩, rfl⟩
  simp only [Backend.selectReady, Bool.and_eq_true, Bool.not_eq_true']
  exact ⟨⟨⟨⟨⟨shared, used⟩, unselected⟩, calm⟩, mret⟩, sret⟩

include quiet in
/-- Then it is selected. -/
theorem head_selected :
    (observed.step input).issue.robSelected observed.rcu.cmtRobIndex = true := by
  have ready := head_ready steady ready used posted unfinished unselected still room
  have fault : observed.processor.backend.rcu.globalSpeculateFault
      (observed.processor.backendInput input).toRcuInput = false := quiet
  obtain ⟨others, oldest⟩ : ∃ others, observed.processor.backend.requesters =
      .slot observed.rcu.cmtRobIndex :: others := ⟨_, rfl⟩
  have eligible : observed.processor.backend.eligible (observed.processor.rcuInput input)
      (.slot observed.rcu.cmtRobIndex) = true := by
    rw [Backend.eligible, ready, oldest, Bool.true_and]
    cases memory : observed.processor.backend.loadStore (observed.processor.rcuInput input)
        (.slot observed.rcu.cmtRobIndex) with
    | false => rfl
    | true => rw [List.find?_cons_of_pos memory]; simp
  have granted : Requester.slot observed.rcu.cmtRobIndex ∈
      observed.processor.backend.grants (observed.processor.rcuInput input) := by
    rw [Backend.grants, oldest, List.filter_cons_of_pos eligible]
    exact List.mem_cons_self
  have member := List.mem_map_of_mem
    (f := observed.processor.backend.issued (observed.processor.rcuInput input)) granted
  have stays : observed.rcu.cmtRobIndex ∉
      observed.rcu.leaving (observed.processor.rcuInput input) := by
    intro leaves
    have done := leaving_finished observed.rcu (observed.processor.rcuInput input) leaves
    exact absurd (done.symm.trans unfinished) (by decide)
  exact (Backend.step_selected_iff (observed.processor.backendInput input) fault _).mpr
    ⟨Or.inr ⟨_, member, rfl⟩, stays⟩

end Head

section Stay

variable (quiet : observed.processor.flush = false)
  (idle : observed.processor.core.doRobCommitFirst = false)

include idle

theorem leaving_idle (input : ProcessorInput) :
    observed.rcu.leaving (observed.processor.rcuInput input) = [] ∧
      observed.commitCount input = 0 := by
  have first : observed.rcu.doRobCommitFirst (observed.processor.rcuInput input) = false := idle
  have second : observed.rcu.doRobCommitSecond (observed.processor.rcuInput input) = false := by
    by_contra second
    have ordered := Rcu.commit_ordered observed.rcu _ (by simpa using second)
    exact absurd (ordered.symm.trans first) (by decide)
  have none : observed.commitCount input = 0 := by
    rw [commitCount, first, second]
    rfl
  refine ⟨?_, none⟩
  rw [commitCount] at none
  rw [Rcu.leaving, none]
  rfl

include quiet

theorem step_stays (input : ProcessorInput)
    (used : observed.rcu.robUsed observed.rcu.cmtRobIndex = true) :
    Stays observed (observed.step input) := by
  obtain ⟨none, count⟩ := leaving_idle idle input
  have fault : observed.rcu.globalSpeculateFault (observed.processor.rcuInput input) = false :=
    quiet
  have stays : observed.rcu.cmtRobIndex ∉
      observed.rcu.leaving (observed.processor.rcuInput input) := by
    rw [none]
    exact List.not_mem_nil
  have head : (observed.step input).rcu.cmtRobIndex = observed.rcu.cmtRobIndex := by
    rw [step_head quiet, count, advance_zero]
  refine ⟨head, Rcu.step_used_of_stays _ fault used stays, ?_⟩
  rw [Rcu.headFirst, head]
  exact (step_kept quiet used stays).1

/-- What has been selected stays so, and what completes is finished. -/
theorem step_progress (input : ProcessorInput)
    (used : observed.rcu.robUsed observed.rcu.cmtRobIndex = true) :
    (observed.issue.robSelected observed.rcu.cmtRobIndex = true →
        (observed.step input).issue.robSelected observed.rcu.cmtRobIndex = true) ∧
      ((observed.processor.rcuInput input).Completes observed.rcu.cmtRobIndex →
        (observed.step input).rcu.robFinish observed.rcu.cmtRobIndex = true) := by
  have none := (leaving_idle idle input).1
  have fault : observed.processor.backend.rcu.globalSpeculateFault
      (observed.processor.backendInput input).toRcuInput = false := quiet
  have stays : observed.rcu.cmtRobIndex ∉
      observed.rcu.leaving (observed.processor.rcuInput input) := by
    rw [none]
    exact List.not_mem_nil
  constructor
  · intro selected
    exact (Backend.step_selected_iff (observed.processor.backendInput input) fault _).mpr
      ⟨Or.inl selected, stays⟩
  · intro completes
    exact (step_kept quiet used stays).2.2.2.mpr (Or.inr completes)

/-- The window grows by what is dispatched. -/
theorem step_inUse_length (input : ProcessorInput) (window : Rcu.Window observed.rcu length) :
    (Rcu.inUse (observed.step input).rcu).length =
      (Rcu.inUse observed.rcu).length + observed.writeCount input := by
  have window' := Rcu.step_window window (observed.processor.rcuInput input) quiet
  have count := (leaving_idle idle input).2
  rw [commitCount] at count
  rw [step_rcu, window'.inUse_eq, window.inUse_eq, Rcu.entries, Rcu.entries, Circular.window_length,
    Circular.window_length, count]
  rfl

end Stay

section Supply

variable (quiet : observed.processor.flush = false) (empty : Rcu.Window observed.rcu 0)

include quiet empty

/-- An instruction that waits in the decode queue enters an empty reorder buffer. -/
theorem step_enters (input : ProcessorInput)
    (some : observed.processor.fifo.fifoEmpty = false) :
    (observed.step input).rcu.robUsed (observed.step input).rcu.cmtRobIndex = true := by
  have fault : observed.rcu.globalSpeculateFault (observed.processor.rcuInput input) = false :=
    quiet
  have unused : observed.rcu.robUsed observed.rcu.wrRobIndex = false := by
    rw [← Bool.not_eq_true, empty.used]
    exact List.not_mem_nil
  have offered : (observed.processor.rcuInput input).offer.validFirst = true :=
    congrArg (fun none => !none) some
  have write : observed.rcu.doRobWriteFirst (observed.processor.rcuInput input) = true := by
    rw [Rcu.doRobWriteFirst, Rcu.robFirstWriteReady, unused, offered, fault]
    rfl
  have window := Rcu.step_window empty (observed.processor.rcuInput input) fault
  rw [← step_rcu] at window
  have one : 0 < amount (observed.rcu.doRobWriteFirst (observed.processor.rcuInput input))
      (observed.rcu.doRobWriteSecond (observed.processor.rcuInput input)) := by
    rw [write, amount, Bool.toNat_true]
    omega
  have first : (observed.step input).rcu.robUsed
      (advance (observed.step input).rcu.cmtRobIndex 0) = true :=
    slot_used window (Nat.lt_of_lt_of_le one (Nat.le_add_left _ _))
  rw [advance_zero] at first
  exact first

/-- What fetch hands over to an empty decode queue waits there. -/
theorem step_waits (none : observed.processor.fifo.Contains [])
    (supplied : input.buffer.hasFirst = true) :
    (observed.step input).processor.fifo.fifoEmpty = false := by
  have queued : observed.processor.core.fifo.Contains [] := none
  obtain ⟨left, contains, order⟩ := Core.step_fifo queued empty
    (observed.processor.coreInput input) quiet
  have taken := (Core.entered_eq queued empty (observed.processor.coreInput input) quiet).2
  rw [List.take_nil] at taken
  rw [taken, List.nil_append, List.nil_append] at order
  have ready : observed.processor.core.singleReady = true := by
    rw [Core.singleReady, (Core.full_room queued).1.mpr (by simp)]
    rfl
  have handed : observed.processor.core.hasFirstInst (observed.processor.coreInput input) =
      true := by
    have available : (observed.processor.coreInput input).supply.available = true :=
      Bool.and_eq_true _ _ |>.mpr ⟨supplied, by rw [quiet]; rfl⟩
    rw [Core.hasFirstInst, available, ready]
    rfl
  have some : 0 < left.length := by
    rw [← order, Core.pushed, handed]
    simp [accepted]
  have contains' : (observed.step input).processor.fifo.Contains left := contains
  rw [F2if2o.fifoEmpty, contains'.fifoNum_eq, beq_eq_false_iff_ne]
  omega

end Supply

/-- The surroundings of an endless run do their part: the units behind the queues keep taking
operations and answer what they have taken, instructions keep coming while there is nothing in
flight, and only branches and jumps are found mispredicted. -/
structure Fair (inputs : Nat → ProcessorInput) : Prop where
  reports : ∀ cycle, Reports (inputs cycle)
  takes : ∀ lane : Lane, ∃ᶠ cycle in atTop, lane.takes (inputs cycle) = true
  answers : ∀ (lane : Lane) (now : Nat) (index : RobIndex),
    (machine.after inputs now).Pending index →
    lane.accepts ((machine.after inputs now).rcu.rob index).toRobOp = true →
    ¬ (machine.after inputs now).Waits lane index →
    ∃ later, now ≤ later ∧ ((machine.after inputs later).processor.flush = true ∨
      ((lane.answer (inputs later)).done = true ∧ (lane.answer (inputs later)).robIndex = index))
  supplies : ∃ᶠ cycle in atTop, (inputs cycle).buffer.hasFirst = true ∨
    (machine.after inputs cycle).rcu.robUsed (machine.after inputs cycle).rcu.cmtRobIndex = true
  branches : ∀ cycle, (machine.after inputs cycle).rcu.cmtMiss = true →
    (machine.after inputs cycle).rcu.headFirst.aluBranch = true

/-- How long an operation can still wait in front of the select ports: every dispatch fills the
reorder buffer a little more, and otherwise only its queue is in the way. -/
def patience (lane : Lane) (observed : Observed) : Nat :=
  5 * (16 - (Rcu.inUse observed.rcu).length) + (lane.queue observed.issue).contents.length

/-- Where the oldest operation stands in the queue. -/
def place (lane : Lane) (observed : Observed) : Nat :=
  ((lane.queue observed.issue).contents.rdropWhile
    fun issued => issued.robIndex != observed.rcu.cmtRobIndex).length

theorem after_step (inputs : Nat → ProcessorInput) (cycle : Nat) :
    machine.after inputs (cycle + 1) = (machine.after inputs cycle).step (inputs cycle) :=
  machine.after_succ inputs cycle

theorem after_lanes (inputs : Nat → ProcessorInput) (cycle : Nat) (lane : Lane) :
    ∃ waiting, (lane.queue (machine.after inputs cycle).issue).Contains waiting :=
  run_lanes (Synchronous.opening inputs cycle) lane

section Endless

variable {inputs : Nat → ProcessorInput}
  (lawful : ∀ cycle, Lawful program (machine.after inputs cycle) (inputs cycle))
  (fair : Fair inputs)

include lawful

theorem after_holds (cycle : Nat) : ∃ state,
    start.run program (machine.log outcomes (Synchronous.opening inputs cycle)) = some state ∧
      Holds program (machine.after inputs cycle) state :=
  run_holds program _ (Synchronous.obeys_opening lawful cycle)

theorem after_steady (cycle : Nat) : ∃ expected length free past waiting,
    Steady (machine.after inputs cycle) expected length free past waiting ∧
      Supplied program (machine.after inputs cycle) ∧
        Ready (machine.after inputs cycle) length := by
  obtain ⟨state, -, length, free, past, waiting, mirrors, ready⟩ := after_holds lawful cycle
  exact ⟨_, length, free, past, waiting, mirrors.steady, mirrors.supplied, ready⟩

include fair

theorem after_posted (cycle : Nat) : Posted (machine.after inputs cycle) := by
  apply run_posted (Synchronous.obeys_opening lawful cycle)
  intro input member
  obtain ⟨earlier, -, rfl⟩ := List.mem_map.mp member
  exact fair.reports earlier

section Stuck

variable {now : Nat}
  (used : (machine.after inputs now).rcu.robUsed (machine.after inputs now).rcu.cmtRobIndex = true)
  (stuck : ∀ cycle, now ≤ cycle → ¬ (machine.after inputs cycle).Leaves)

include stuck

omit lawful fair in
theorem stuck_quiet {cycle : Nat} (since : now ≤ cycle) :
    (machine.after inputs cycle).processor.flush = false ∧
      (machine.after inputs cycle).processor.core.doRobCommitFirst = false := by
  have stays := stuck cycle since
  rw [Leaves, not_or, Bool.not_eq_true, Bool.not_eq_true] at stays
  exact stays

include used

omit lawful fair in
/-- An operation that never leaves stays at the head. -/
theorem stuck_stays {cycle : Nat} (since : now ≤ cycle) :
    Stays (machine.after inputs now) (machine.after inputs cycle) := by
  induction cycle, since using Nat.le_induction with
  | base => exact ⟨rfl, used, rfl⟩
  | succ cycle since ih =>
    obtain ⟨quiet, idle⟩ := stuck_quiet stuck since
    rw [after_step]
    apply ih.trans
    apply step_stays quiet idle
    rw [ih.head]
    exact ih.used

omit lawful fair in
theorem stuck_used {cycle : Nat} (since : now ≤ cycle) :
    (machine.after inputs cycle).rcu.robUsed (machine.after inputs cycle).rcu.cmtRobIndex =
      true := by
  have stays := stuck_stays used stuck since
  rw [stays.head]
  exact stays.used

omit lawful fair in
/-- It does not finish. -/
theorem stuck_unfinished {cycle : Nat} (since : now ≤ cycle) :
    (machine.after inputs cycle).rcu.robFinish (machine.after inputs cycle).rcu.cmtRobIndex =
      false := by
  by_contra finish
  rw [Bool.not_eq_false] at finish
  obtain ⟨quiet, idle⟩ := stuck_quiet stuck since
  have prompt := quiet_prompt quiet
  have leaves : (machine.after inputs cycle).rcu.commitReady Core.globalWfi = true := by
    rw [Rcu.commitReady, stuck_used used stuck since, finish, prompt]
    rfl
  exact absurd (leaves.symm.trans idle) (by decide)

theorem stuck_patience {cycle : Nat} (since : now ≤ cycle) {lane : Lane}
    (own : ∀ other : Lane,
      other.accepts (machine.after inputs cycle).rcu.headFirst.toRobOp = true → other = lane)
    (unselected : (machine.after inputs (cycle + 1)).issue.robSelected
      (machine.after inputs (cycle + 1)).rcu.cmtRobIndex = false) :
    patience lane (machine.after inputs (cycle + 1)) + (lane.takes (inputs cycle)).toNat ≤
      patience lane (machine.after inputs cycle) := by
  obtain ⟨quiet, idle⟩ := stuck_quiet stuck since
  have here := stuck_used used stuck since
  have unfinished := stuck_unfinished used stuck since
  obtain ⟨expected, length, free, past, waiting, steady, -, ready⟩ := after_steady lawful cycle
  have window := steady.tracks.sound.window
  have posted := after_posted lawful fair cycle
  have stays := step_stays quiet idle (inputs cycle) here
  rw [after_step] at unselected ⊢
  rw [stays.head] at unselected
  have before : (machine.after inputs cycle).issue.robSelected
      (machine.after inputs cycle).rcu.cmtRobIndex = false := by
    by_contra selected
    have kept := (step_progress quiet idle (inputs cycle) here).1 (by simpa using selected)
    exact absurd (kept.symm.trans unselected) (by decide)
  obtain ⟨queued, contains⟩ := after_lanes inputs cycle lane
  have moved := lane.step_contains (inputs cycle) quiet contains
  have grown := step_inUse_length quiet idle (inputs cycle) window
  have bound : (Rcu.inUse ((machine.after inputs cycle).step (inputs cycle)).rcu).length ≤ 16 := by
    rw [Rcu.inUse, List.length_map]
    exact (List.length_filter_le _ _).trans (Nat.le_of_eq (slots_length _ _))
  have most : (lane.queue ((machine.after inputs cycle).step (inputs cycle)).issue).contents.length
      ≤ 4 := by
    rw [moved.contents_eq]
    exact moved.fits
  have taken := Bool.toNat_le (lane.takes (inputs cycle))
  unfold patience
  by_cases still : (machine.after inputs cycle).writeCount (inputs cycle) = 0
  · -- nothing was dispatched: the queue was in the way
    have blocked : (lane.queue (machine.after inputs cycle).issue).fifoAlmostFull = true := by
      by_contra room
      rw [Bool.not_eq_true] at room
      have selected := head_selected steady ready here posted quiet unfinished before still
        fun other accepts => own other accepts ▸ room
      exact absurd (selected.symm.trans unselected) (by decide)
    have none : lane.added (machine.after inputs cycle) (inputs cycle) = [] := by
      rw [List.eq_nil_iff_forall_not_mem]
      intro issued member
      exact absurd (blocked.symm.trans (lane.room member)) (by decide)
    have some : 3 ≤ queued.length := by
      have several := of_decide_eq_true blocked
      rw [contains.fifoNum_eq] at several
      exact several
    have shown : (lane.queue (machine.after inputs cycle).issue).fifoEmpty = false := by
      rw [F2if2o.fifoEmpty, contains.fifoNum_eq, beq_eq_false_iff_ne]
      omega
    rw [moved.contents_eq, contains.contents_eq, none, shown, Bool.not_false, Bool.and_true,
      List.append_nil, List.length_drop, grown, still]
    omega
  · omega

omit fair in
/-- At most one of the queues is that of the oldest operation. -/
theorem stuck_lane : ∃ lane : Lane, ∀ cycle, now ≤ cycle → ∀ other : Lane,
    other.accepts (machine.after inputs cycle).rcu.headFirst.toRobOp = true → other = lane := by
  obtain ⟨expected, length, free, past, waiting, steady, -, -⟩ := after_steady lawful now
  have multiply := (steady.settled.proper _ used).1.multiply
  rw [← steady.settled.copied _ used] at multiply
  have same : ∀ cycle, now ≤ cycle → (machine.after inputs cycle).rcu.headFirst =
      (machine.after inputs now).rcu.headFirst := fun cycle since =>
    (stuck_stays used stuck since).entry
  cases memory : (machine.after inputs now).rcu.headFirst.isMemory with
  | true =>
    refine ⟨.lsu, fun cycle since other accepts => ?_⟩
    rw [same cycle since] at accepts
    cases other with
    | md =>
      obtain ⟨load, store⟩ := multiply accepts
      rw [RobOp.isMemory, Rcu.headFirst, load, store] at memory
      cases memory
    | lsu => rfl
  | false =>
    refine ⟨.md, fun cycle since other accepts => ?_⟩
    rw [same cycle since] at accepts
    cases other with
    | md => rfl
    | lsu => exact absurd (accepts.symm.trans memory) (by decide)

/-- The oldest operation is selected sooner or later. -/
theorem stuck_selects : ∃ later, now ≤ later ∧ (machine.after inputs later).issue.robSelected
    (machine.after inputs later).rcu.cmtRobIndex = true := by
  obtain ⟨lane, own⟩ := stuck_lane lawful used stuck
  have falls : ∀ cycle, now ≤ cycle → ¬ (machine.after inputs (cycle + 1)).issue.robSelected
      (machine.after inputs (cycle + 1)).rcu.cmtRobIndex = true →
      patience lane (machine.after inputs (cycle + 1)) + (lane.takes (inputs cycle)).toNat ≤
        patience lane (machine.after inputs cycle) := fun cycle since waits =>
    stuck_patience lawful fair used stuck since (own cycle since) (by simpa using waits)
  obtain ⟨cycle, since, selected⟩ := (fair.takes lane).descends
    (fun cycle => patience lane (machine.after inputs cycle)) _ now falls
  exact ⟨cycle + 1, by omega, selected⟩

omit lawful fair in
/-- From then on it waits for its unit. -/
theorem stuck_pending {later : Nat} (since : now ≤ later)
    (selected : (machine.after inputs later).issue.robSelected
      (machine.after inputs later).rcu.cmtRobIndex = true) {cycle : Nat} (onward : later ≤ cycle) :
    (machine.after inputs cycle).Pending (machine.after inputs cycle).rcu.cmtRobIndex := by
  have chosen : (machine.after inputs cycle).issue.robSelected
      (machine.after inputs cycle).rcu.cmtRobIndex = true := by
    induction cycle, onward using Nat.le_induction with
    | base => exact selected
    | succ cycle onward ih =>
      have reached : now ≤ cycle := since.trans onward
      obtain ⟨quiet, idle⟩ := stuck_quiet stuck reached
      have here := stuck_used used stuck reached
      rw [after_step, (step_stays quiet idle (inputs cycle) here).head]
      exact (step_progress quiet idle (inputs cycle) here).1 ih
  exact ⟨stuck_used used stuck (since.trans onward), chosen,
    stuck_unfinished used stuck (since.trans onward)⟩

omit lawful fair in
/-- It is never completed. -/
theorem stuck_incomplete {cycle : Nat} (since : now ≤ cycle) :
    ¬ ((machine.after inputs cycle).processor.rcuInput (inputs cycle)).Completes
      (machine.after inputs cycle).rcu.cmtRobIndex := by
  intro completes
  obtain ⟨quiet, idle⟩ := stuck_quiet stuck since
  have here := stuck_used used stuck since
  have finish := (step_progress quiet idle (inputs cycle) here).2 completes
  have unfinished := stuck_unfinished used stuck (Nat.le_succ_of_le since)
  rw [after_step, (step_stays quiet idle (inputs cycle) here).head] at unfinished
  exact absurd (finish.symm.trans unfinished) (by decide)

omit lawful fair in
/-- What is selected meanwhile belongs to other slots. -/
theorem stuck_added {later : Nat} (since : now ≤ later)
    (selected : (machine.after inputs later).issue.robSelected
      (machine.after inputs later).rcu.cmtRobIndex = true) {cycle : Nat} (onward : later ≤ cycle)
    (lane : Lane) {issued : Issued}
    (member : issued ∈ lane.added (machine.after inputs cycle) (inputs cycle)) :
    issued.robIndex ≠ (machine.after inputs cycle).rcu.cmtRobIndex := by
  obtain ⟨here, chosen, -⟩ := stuck_pending used stuck since selected onward
  obtain ⟨free, free'⟩ := (machine.after inputs cycle).rcu.write_unused
    ((machine.after inputs cycle).processor.rcuInput (inputs cycle))
  intro same
  have origin := (Backend.issues_cases
    ((machine.after inputs cycle).processor.backendInput (inputs cycle))
    (List.mem_filter.mp member).1).2
  rw [same] at origin
  rcases origin with ⟨-, waits, -⟩ | ⟨head, write, -⟩ | ⟨head, write, -⟩
  · exact absurd (chosen.symm.trans waits) (by decide)
  · rw [head] at here
    exact absurd (here.symm.trans (free write)) (by decide)
  · rw [head] at here
    exact absurd (here.symm.trans (free' write)) (by decide)

omit lawful in
/-- Its unit takes it out of its queue. -/
theorem stuck_taken {later : Nat} (since : now ≤ later)
    (selected : (machine.after inputs later).issue.robSelected
      (machine.after inputs later).rcu.cmtRobIndex = true) (lane : Lane) :
    ∃ cycle, later ≤ cycle ∧
      ¬ (machine.after inputs cycle).Waits lane (machine.after inputs cycle).rcu.cmtRobIndex := by
  -- the rank is the place of the operation in the queue
  have falls : ∀ cycle, later ≤ cycle →
      ¬ ¬ (machine.after inputs cycle).Waits lane (machine.after inputs cycle).rcu.cmtRobIndex →
      place lane (machine.after inputs (cycle + 1)) + (lane.takes (inputs cycle)).toNat ≤
        place lane (machine.after inputs cycle) := by
    intro cycle onward waits
    obtain ⟨issued, member, own⟩ := not_not.mp waits
    have reached : now ≤ cycle := since.trans onward
    obtain ⟨quiet, idle⟩ := stuck_quiet stuck reached
    have here := stuck_used used stuck reached
    have head := (step_stays quiet idle (inputs cycle) here).head
    obtain ⟨queued, contains⟩ := after_lanes inputs cycle lane
    have moved := lane.step_contains (inputs cycle) quiet contains
    have some : (lane.queue (machine.after inputs cycle).issue).fifoEmpty = false := by
      rw [F2if2o.fifoEmpty, contains.fifoNum_eq, beq_eq_false_iff_ne]
      rw [contains.contents_eq] at member
      exact Nat.ne_of_gt (List.length_pos_of_mem member)
    have placed : 0 < place lane (machine.after inputs cycle) := by
      rw [place, List.length_pos_iff, Ne, List.rdropWhile_eq_nil_iff]
      intro passed
      have other := passed issued member
      rw [own, bne_self_eq_false] at other
      cases other
    have behind : ∀ fresh ∈ lane.added (machine.after inputs cycle) (inputs cycle),
        (fresh.robIndex != (machine.after inputs cycle).rcu.cmtRobIndex) = true :=
      fun fresh added => bne_iff_ne.mpr (stuck_added used stuck since selected onward lane added)
    have one := Bool.toNat_le (lane.takes (inputs cycle))
    rw [after_step, place, head, moved.contents_eq, List.rdropWhile_append_of_all _ _ behind,
      List.length_rdropWhile_drop, some, Bool.not_false, Bool.and_true, ← contains.contents_eq,
      ← place]
    omega
  exact (fair.takes lane).descends (fun cycle => place lane (machine.after inputs cycle)) _ later
    falls

end Stuck

/-- An operation in flight has a unit, unless it is finished. -/
theorem after_classed {cycle : Nat} {index : RobIndex}
    (used : (machine.after inputs cycle).rcu.robUsed index = true)
    (unfinished : (machine.after inputs cycle).rcu.robFinish index = false) :
    ((machine.after inputs cycle).rcu.rob index).isAlu = true ∨
      ∃ lane : Lane, lane.accepts ((machine.after inputs cycle).rcu.rob index).toRobOp = true := by
  obtain ⟨expected, length, free, past, waiting, steady, supplied, -⟩ := after_steady lawful cycle
  have active : ((machine.after inputs cycle).source index).skips = false := by
    by_contra skips
    have done := (after_posted lawful fair cycle).skipped index used (by simpa using skips)
    exact absurd (done.symm.trans unfinished) (by decide)
  obtain ⟨mode, lines, fetched, decoded, -⟩ := supplied.source index used
  have classed := Decoder.decode_classed mode lines fetched
  rw [← decoded, Decoded.classed, active, Bool.false_or, Bool.or_eq_true, Bool.or_eq_true,
    ← steady.settled.copied index used] at classed
  rcases classed with (alu | md) | memory
  · exact Or.inl alu
  · exact Or.inr ⟨.md, md⟩
  · exact Or.inr ⟨.lsu, memory⟩

/-- The reorder buffer never hangs: its oldest operation leaves it, or is flushed. -/
theorem after_leaves {now : Nat} (used : (machine.after inputs now).rcu.robUsed
    (machine.after inputs now).rcu.cmtRobIndex = true) :
    ∃ later, now ≤ later ∧ (machine.after inputs later).Leaves := by
  by_contra never
  have stuck : ∀ cycle, now ≤ cycle → ¬ (machine.after inputs cycle).Leaves :=
    fun cycle since leaves => never ⟨cycle, since, leaves⟩
  obtain ⟨later, since, selected⟩ := stuck_selects lawful fair used stuck
  have pending : ∀ cycle, later ≤ cycle → (machine.after inputs cycle).Pending
      (machine.after inputs cycle).rcu.cmtRobIndex := fun cycle onward =>
    stuck_pending used stuck since selected onward
  have issued := pending later (Nat.le_refl later)
  rcases after_classed lawful fair issued.1 issued.2.2 with alu | ⟨lane, accepts⟩
  · exact stuck_incomplete used stuck since ((after_posted lawful fair later).completes
      (inputs later) (stuck_quiet stuck since).1 issued alu)
  · obtain ⟨taken, onward, free⟩ := stuck_taken fair used stuck since selected lane
    have same : (machine.after inputs taken).rcu.headFirst =
        (machine.after inputs later).rcu.headFirst :=
      (stuck_stays used stuck (since.trans onward)).entry.trans
        (stuck_stays used stuck since).entry.symm
    obtain ⟨cycle, further, flush | ⟨answered, own⟩⟩ := fair.answers lane taken _
      (pending taken onward) (by
        change lane.accepts (machine.after inputs taken).rcu.headFirst.toRobOp = true
        rw [same]
        exact accepts) free
    · exact stuck cycle ((since.trans onward).trans further) (Or.inl flush)
    · have reached : now ≤ cycle := (since.trans onward).trans further
      have head : (machine.after inputs taken).rcu.cmtRobIndex =
          (machine.after inputs cycle).rcu.cmtRobIndex :=
        (stuck_stays used stuck (since.trans onward)).head.trans
          (stuck_stays used stuck reached).head.symm
      have completes := lane.answer_completes (machine.after inputs cycle) answered
      rw [own, head] at completes
      exact stuck_incomplete used stuck reached completes

omit lawful in
/-- What leaves is an outcome, but for the redirection behind a mispredicted jump. -/
theorem leaves_outcome {cycle : Nat} (leaves : (machine.after inputs cycle).Leaves)
    (prompt : (machine.after inputs cycle).rcu.dffCmtMissDelay = false) :
    (machine.after inputs cycle).outcomes (inputs cycle) ≠ [] := by
  unfold outcomes
  cases trap : (machine.after inputs cycle).processor.trap with
  | true => exact List.cons_ne_nil _ _
  | false =>
    cases ret : (machine.after inputs cycle).processor.core.globalRet with
    | true => exact List.cons_ne_nil _ _
    | false =>
      rw [prompt]
      cases miss : (machine.after inputs cycle).rcu.predictMiss with
      | true =>
        rw [Rcu.predictMiss, prompt, if_neg Bool.false_ne_true] at miss
        rw [fair.branches cycle miss]
        exact List.cons_ne_nil _ _
      | false =>
        have commits : (machine.after inputs cycle).rcu.doRobCommitFirst
            ((machine.after inputs cycle).processor.rcuInput (inputs cycle)) = true := by
          rcases leaves with flush | commits
          · have quiet : (machine.after inputs cycle).processor.backend.rcu.predictMiss = false :=
              miss
            rw [Processor.flush, trap, ret, quiet] at flush
            cases flush
          · exact commits
        rw [commitCount, commits]
        simp [amount]

/-- The redirection comes a cycle after the jump has retired. -/
theorem delayed_outcome {cycle : Nat}
    (delay : (machine.after inputs (cycle + 1)).rcu.dffCmtMissDelay = true) :
    (machine.after inputs cycle).outcomes (inputs cycle) ≠ [] := by
  obtain ⟨expected, length, free, past, waiting, steady, -, -⟩ := after_steady lawful cycle
  rw [after_step, step_rcu] at delay
  cases flush : (machine.after inputs cycle).processor.flush with
  | true =>
    have fault : (machine.after inputs cycle).rcu.globalSpeculateFault
      ((machine.after inputs cycle).processor.rcuInput (inputs cycle)) = true := flush
    simp [Rcu.dffCmtMissDelay, Rcu.step, fault, CommitDelay.clear] at delay
  | false =>
    have fault : (machine.after inputs cycle).rcu.globalSpeculateFault
      ((machine.after inputs cycle).processor.rcuInput (inputs cycle)) = false := flush
    simp only [Rcu.dffCmtMissDelay, Rcu.step, fault, Bool.false_eq_true, ↓reduceIte,
      Bool.and_eq_true] at delay
    obtain ⟨used, finish, -⟩ := steady.settled.missed _ delay.2
    have prompt := quiet_prompt flush
    apply leaves_outcome fair (Or.inr ?_) prompt
    change (machine.after inputs cycle).rcu.commitReady Core.globalWfi = true
    rw [Rcu.commitReady, used, finish, prompt]
    rfl

/-- Something happens to the program again and again. -/
theorem outcomes_recur :
    ∃ᶠ cycle in atTop, (machine.after inputs cycle).outcomes (inputs cycle) ≠ [] := by
  rw [frequently_atTop]
  intro now
  by_contra never
  have silent : ∀ cycle, now ≤ cycle →
      ¬ (machine.after inputs cycle).outcomes (inputs cycle) ≠ [] := fun cycle since happens =>
    never ⟨cycle, since, happens⟩
  have stays : ∀ cycle, now < cycle → ¬ (machine.after inputs cycle).Leaves := by
    intro cycle later leaves
    apply silent cycle (Nat.le_of_lt later) (leaves_outcome fair leaves ?_)
    obtain ⟨before, rfl⟩ : ∃ before, cycle = before + 1 := ⟨cycle - 1, by omega⟩
    by_contra delay
    exact silent before (by omega) (delayed_outcome lawful fair (by simpa using delay))
  -- nothing is in flight any more, as it would leave
  have unused : ∀ cycle, now < cycle → (machine.after inputs cycle).rcu.robUsed
      (machine.after inputs cycle).rcu.cmtRobIndex = false := by
    intro cycle later
    by_contra used
    obtain ⟨leaving, since, leaves⟩ := after_leaves lawful fair (by simpa using used)
    exact stays leaving (Nat.lt_of_lt_of_le later since) leaves
  have empty : ∀ cycle, now < cycle → Rcu.Window (machine.after inputs cycle).rcu 0 := by
    intro cycle later
    obtain ⟨expected, length, free, past, waiting, steady, -, -⟩ := after_steady lawful cycle
    have window : Rcu.Window (machine.after inputs cycle).rcu length := steady.tracks.sound.window
    cases length with
    | zero => exact window
    | succ length =>
      have used := slot_used window (Nat.succ_pos length)
      rw [advance_zero, unused cycle later] at used
      cases used
  have quiet : ∀ cycle, now < cycle → (machine.after inputs cycle).processor.flush = false := by
    intro cycle later
    by_contra flush
    exact stays cycle later (Or.inl (by simpa using flush))
  have starved : ∀ cycle, now < cycle →
      (machine.after inputs cycle).processor.fifo.fifoEmpty = true := by
    intro cycle later
    by_contra some
    have used := step_enters (quiet cycle later) (empty cycle later) (inputs cycle)
      (by simpa using some)
    rw [← after_step] at used
    exact absurd (used.symm.trans (unused (cycle + 1) (by omega))) (by decide)
  obtain ⟨cycle, later, supplied | used⟩ := frequently_atTop.mp fair.supplies (now + 1)
  · obtain ⟨expected, length, free, past, waiting, steady, -, -⟩ := after_steady lawful cycle
    have none : waiting = [] := by
      have count := eq_of_beq (starved cycle later)
      rw [steady.queued.fifoNum_eq] at count
      exact List.length_eq_zero_iff.mp count
    have queued := step_waits (quiet cycle later) (empty cycle later) (none ▸ steady.queued)
      supplied
    rw [← after_step] at queued
    exact absurd (queued.symm.trans (starved (cycle + 1) (Nat.lt_succ_of_lt later))) (by decide)
  · exact absurd (used.symm.trans (unused cycle later)) (by decide)

/-- The core never stops executing its program: where the surroundings do their part, it takes the
hart on by as many instructions, returns and traps as one likes. -/
theorem core_progresses (count : Nat) :
    ∃ cycles state,
      start.run program (machine.log outcomes (Synchronous.opening inputs cycles)) = some state ∧
        count ≤ (machine.log outcomes (Synchronous.opening inputs cycles)).length := by
  obtain ⟨cycles, many⟩ := Synchronous.log_grows (outcomes_recur lawful fair) count
  obtain ⟨state, runs, -⟩ := after_holds lawful cycles
  exact ⟨cycles, state, runs, many⟩

end Endless

theorem active_calm {instruction : Decoded} (active : instruction.skips = false) :
    instruction.exception = false := by
  simp only [Decoded.skips, Bool.or_eq_false_iff] at active
  exact active.1.1.1

/-- A memory full of `BNE x0, x0, 8`. -/
def coasting : RiscV.Program 39 where
  word _ := 0x00001463
  size _ := 4

/-- Fetch has the next one in every cycle. -/
def coastingInputs (_ : Nat) : ProcessorInput :=
  { ProcessorInput.idle with buffer := .single 0x00001463 }

theorem coasting_decoded {instruction : Decoded} (sourced : Sourced coasting instruction)
    (calm : instruction.exception = false) :
    instruction.aluBranch = true ∧ instruction.aluJump = false ∧ instruction.isMd = false ∧
      instruction.isMemory = false := by
  obtain ⟨mode, lines, fetched, rfl, served⟩ := sourced
  obtain ⟨plain, raised⟩ := Decoder.decode_calm calm
  have word : fetched.rvInst = 0x00001463 := (served raised).1
  rw [plain, Decoder.rvDecoder_eq mode raised, word]
  exact ⟨rfl, rfl, rfl, rfl⟩

theorem coasting_slot {cycle : Nat} {index : RobIndex}
    (obeys : machine.Obeys (Lawful coasting) (Synchronous.opening coastingInputs cycle))
    (used : (machine.after coastingInputs cycle).rcu.robUsed index = true)
    (calm : ((machine.after coastingInputs cycle).source index).exception = false) :
    ((machine.after coastingInputs cycle).rcu.rob index).aluBranch = true ∧
      ((machine.after coastingInputs cycle).rcu.rob index).aluJump = false ∧
      ((machine.after coastingInputs cycle).rcu.rob index).isMd = false ∧
      ((machine.after coastingInputs cycle).rcu.rob index).isMemory = false := by
  obtain ⟨state, -, length, free, past, waiting, mirrors, -⟩ := run_holds coasting _ obeys
  have decoded := coasting_decoded (mirrors.supplied.source index used) calm
  rw [← mirrors.steady.settled.copied index used] at decoded
  exact decoded

theorem coasting_obeys (cycle : Nat) :
    machine.Obeys (Lawful coasting) (Synchronous.opening coastingInputs cycle) := by
  induction cycle with
  | zero => exact Synchronous.obeys_nil _ _
  | succ cycle ih =>
    rw [Synchronous.opening_succ, Synchronous.obeys_snoc]
    refine ⟨ih, ?_⟩
    obtain ⟨state, -, length, free, past, waiting, mirrors, -⟩ := run_holds coasting _ ih
    have settled := mirrors.steady.settled
    have direct : ∀ stage, Staged (machine.after coastingInputs cycle) stage →
        stage.issued.entry.aluJump = false := by
      intro stage staged
      rw [staged.entry]
      exact (coasting_slot ih staged.pending.1 (active_calm staged.active)).2.1
    refine ⟨⟨⟨?_, ?_⟩, ?_, ?_⟩, ?_, ⟨?_, ?_⟩⟩
    · intro done
      cases done
    · intro done
      cases done
    · intro stage which valid jump
      rcases which with rfl | rfl
      · exact absurd (jump.symm.trans (direct _ (settled.alu1 valid).1)) (by decide)
      · exact absurd (jump.symm.trans (direct _ (settled.alu2 valid).1)) (by decide)
    · intro _ _ redirected
      have cold : (coastingInputs cycle).predictors.predictPcFromPred
          (machine.run (Synchronous.opening coastingInputs cycle)).processor.pc = false := by
        simp [Predictors.predictPcFromPred, Predictors.bufferHit, Predictors.fetchHit,
          coastingInputs, ProcessorInput.idle]
      exact absurd (redirected.symm.trans cold) (by decide)
    · intro valid jump
      exact absurd (jump.symm.trans (direct _ (settled.alu2 valid).1)) (by decide)
    · exact fun _ _ => ⟨rfl, rfl⟩
    · intro valid
      cases valid

theorem coasting_lawful (cycle : Nat) :
    Lawful coasting (machine.after coastingInputs cycle) (coastingInputs cycle) := by
  have obeys := coasting_obeys (cycle + 1)
  rw [Synchronous.opening_succ, Synchronous.obeys_snoc] at obeys
  exact obeys.2

theorem coasting_fair : Fair coastingInputs := by
  have always : ∀ {event : Nat → Prop}, (∀ cycle, event cycle) → ∃ᶠ cycle in atTop, event cycle :=
    fun holds => Frequently.of_forall holds
  have reports : ∀ cycle, Reports (coastingInputs cycle) := by
    intro cycle lane raised
    cases lane <;> cases raised
  refine ⟨reports, ?_, ?_, always fun _ => Or.inl rfl, ?_⟩
  · intro lane
    apply always
    intro cycle
    cases lane <;> rfl
  · intro lane now index pending accepts
    have posted : Posted (machine.after coastingInputs now) := by
      apply run_posted (coasting_obeys now)
      intro input member
      obtain ⟨earlier, -, rfl⟩ := List.mem_map.mp member
      exact reports earlier
    have active : ((machine.after coastingInputs now).source index).skips = false := by
      by_contra skips
      have done := posted.skipped index pending.1 (by simpa using skips)
      exact absurd (done.symm.trans pending.2.2) (by decide)
    obtain ⟨-, -, md, memory⟩ := coasting_slot (coasting_obeys now) pending.1 (active_calm active)
    cases lane with
    | md => exact absurd (accepts.symm.trans md) (by decide)
    | lsu => exact absurd (accepts.symm.trans memory) (by decide)
  · intro cycle miss
    obtain ⟨state, -, length, free, past, waiting, mirrors, -⟩ :=
      run_holds coasting _ (coasting_obeys cycle)
    have settled := mirrors.steady.settled
    simp only [Rcu.cmtMiss, Bool.and_eq_true] at miss
    obtain ⟨used, -, -, calm⟩ := settled.missed _ miss.2
    exact (coasting_slot (coasting_obeys cycle) used calm).1

theorem core_progresses_coasting : ∃ cycles state,
    start.run coasting (machine.log outcomes (Synchronous.opening coastingInputs cycles)) =
        some state ∧
      1000 ≤ (machine.log outcomes (Synchronous.opening coastingInputs cycles)).length :=
  core_progresses coasting_lawful coasting_fair 1000

end Observed

end GreenRio
