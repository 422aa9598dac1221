import GreenRio.IssuePorts
import GreenRio.Conservation
import GreenRio.Selection

set_option autoImplicit false

namespace GreenRio

open Circular Counter Fifo

/-- A load, a store, an atomic operation or a fence. -/
def RobOp.isMemory (op : RobOp) : Bool := op.isLoad || op.isStore

namespace Backend

def machine : Synchronous Backend BackendInput := ⟨reset, step⟩

/-- The ports of `md_queue` and `lsu_queue`. -/
def mdQueuePorts (backend : Backend) (input : BackendInput) : Ports Issued :=
  queuePorts backend.issue.mdQueue (backend.selectFirst input.toRcuInput)
    (backend.selectSecond input.toRcuInput) (fun entry => entry.isMd) input.mdReady

def lsuQueuePorts (backend : Backend) (input : BackendInput) : Ports Issued :=
  queuePorts backend.issue.lsuQueue (backend.selectFirst input.toRcuInput)
    (backend.selectSecond input.toRcuInput) (fun entry => entry.isMemory) input.lsuReady

/-- The words that enabled write ports carry. -/
def written (ports : Ports Issued) : List Issued :=
  accepted ports.wrFirstEn ports.wrSecondEn ports.wdataFirst ports.wdataSecond

/-- The operations that enter `lsu_queue` in one cycle; a flush resets the queue instead. -/
def lsuQueueWrites (backend : Backend) (input : BackendInput) : List Issued :=
  if backend.rcu.globalSpeculateFault input.toRcuInput then []
  else written (backend.lsuQueuePorts input)

theorem issues_length (backend : Backend) (input : RcuInput) :
    (backend.issues input).length ≤ 2 := by
  rw [issues, List.length_map, grants, List.length_take]
  omega

/-- A queue with room for the operations of its class takes all of them, in order. -/
theorem queuePorts_writes (queue : F2if2o 4 Issued) {issues : List Issued}
    (short : issues.length ≤ 2) (accepts : RobEntry → Bool) (unitReady : Bool)
    (room : ∀ issued ∈ issues, accepts issued.entry = true → queue.fifoAlmostFull = false) :
    written (queuePorts queue issues[0]? issues[1]? accepts unitReady) =
      issues.filter fun issued => accepts issued.entry := by
  unfold written
  have full : queue.fifoAlmostFull = false → queue.fifoFull = false :=
    F2if2o.fifoFull_of_almost
  rcases issues with _ | ⟨first, _ | ⟨second, rest⟩⟩
  · simp [queuePorts, accepted]
  · cases takes : accepts first.entry
    · simp [queuePorts, accepted, takes]
    · have free := room first (by simp) takes
      simp [queuePorts, accepted, takes, full free]
  · have last : rest = [] := by
      rw [← List.length_eq_zero_iff]
      simp only [List.length_cons] at short
      omega
    subst last
    cases takes : accepts first.entry <;> cases takes' : accepts second.entry
    · simp [queuePorts, accepted, takes, takes']
    · have free := room second (by simp) takes'
      simp [queuePorts, accepted, takes, takes', full free]
    · have free := room first (by simp) takes
      simp [queuePorts, accepted, takes, takes', full free]
    · have free := room first (by simp) takes
      simp [queuePorts, accepted, takes, takes', full free, free]

/-- Operations of a class are only granted while its queue is not nearly full. -/
theorem issues_room {backend : Backend} {input : RcuInput} {issued : Issued}
    (member : issued ∈ backend.issues input) :
    (issued.entry.isMd = true → backend.issue.mdQueue.fifoAlmostFull = false) ∧
      (issued.entry.isMemory = true → backend.issue.lsuQueue.fifoAlmostFull = false) := by
  obtain ⟨requester, granted, rfl⟩ := List.mem_map.mp member
  have ready := eligible_ready (grants_eligible granted)
  have shared : backend.ready input (backend.entryOf input requester)
      (backend.indexOf requester) = true := by
    cases requester <;> simp only [selectReady, Bool.and_eq_true] at ready
    · exact ready.1.1.1.1.1
    · exact ready.1.1
    · exact ready.1.1
  simp only [Backend.ready, Bool.and_eq_true, Bool.not_eq_true', Bool.and_eq_false_iff] at shared
  obtain ⟨⟨⟨⟨-, memory⟩, md⟩, -⟩, -⟩ := shared
  constructor
  · intro isMd
    rcases md with other | free
    · exact absurd (other.symm.trans isMd) (by simp)
    · exact free
  · intro isMemory
    rcases memory with other | free
    · exact absurd (other.symm.trans isMemory) (by simp)
    · exact free

/-- No selected operation is dropped by its queue. -/
theorem mdQueue_written (backend : Backend) (input : BackendInput) :
    written (backend.mdQueuePorts input) =
      (backend.issues input.toRcuInput).filter fun issued => issued.entry.isMd :=
  queuePorts_writes _ (backend.issues_length _) _ _ fun _ member => (issues_room member).1

theorem lsuQueue_written (backend : Backend) (input : BackendInput) :
    written (backend.lsuQueuePorts input) =
      (backend.issues input.toRcuInput).filter fun issued => issued.entry.isMemory :=
  queuePorts_writes _ (backend.issues_length _) _ _ fun _ member => (issues_room member).2

/-- A granted memory operation is the oldest one that is kept in sequence. -/
theorem memory_oldest {backend : Backend} {input : RcuInput} {requester : Requester}
    (granted : requester ∈ backend.grants input)
    (memory : (backend.entryOf input requester).isMemory = true) :
    backend.requesters.find? (backend.loadStore input) = some requester := by
  have eligible := grants_eligible granted
  have ready := eligible_ready eligible
  have sequenced : backend.loadStore input requester = true := by
    cases requester with
    | slot index =>
      simp only [selectReady, Bool.and_eq_true, Bool.not_eq_true'] at ready
      simp only [RobOp.isMemory, entryOf, Bool.or_eq_true] at memory
      simp only [loadStore, ready.1.1.1.2, Bool.not_false, Bool.and_true, Bool.or_eq_true]
      tauto
    | first => exact memory
    | second => exact memory
  simpa [Backend.eligible, ready, sequenced] using eligible

theorem grants_nodup (backend : Backend) (input : RcuInput) : (backend.grants input).Nodup :=
  (backend.requesters_nodup.filter _).sublist (List.take_sublist _ _)

/-- At most one memory operation is granted in a cycle. -/
theorem memory_single (backend : Backend) (input : RcuInput) :
    ((backend.issues input).filter fun issued => issued.entry.isMemory).length ≤ 1 := by
  have oldest : ∀ requester ∈ (backend.grants input).filter
      (fun requester => (backend.issued input requester).entry.isMemory),
      backend.requesters.find? (backend.loadStore input) = some requester := by
    intro requester member
    obtain ⟨granted, memory⟩ := List.mem_filter.mp member
    exact memory_oldest granted memory
  have nodup := (backend.grants_nodup input).filter
    (fun requester => (backend.issued input requester).entry.isMemory)
  rw [issues, List.filter_map, List.length_map]
  change ((backend.grants input).filter
    (fun requester => (backend.issued input requester).entry.isMemory)).length ≤ 1
  generalize (backend.grants input).filter
    (fun requester => (backend.issued input requester).entry.isMemory) = chosen at oldest nodup ⊢
  rcases chosen with _ | ⟨older, _ | ⟨younger, rest⟩⟩
  · exact Nat.zero_le _
  · exact Nat.le_refl _
  · have same := Option.some.inj ((oldest older (by simp)).symm.trans (oldest younger (by simp)))
    simp [same] at nodup

/-- The oldest request kept in sequence is not behind any other. -/
theorem oldest_before {backend : Backend} {input : RcuInput} {requester : Requester}
    (oldest : backend.requesters.find? (backend.loadStore input) = some requester)
    {position : Nat}
    (sequenced : backend.loadStore input (backend.requesterAt position) = true) :
    ∃ place ≤ position, requester = backend.requesterAt place := by
  rw [requesters_eq, List.find?_map, Option.map_eq_some_iff] at oldest
  obtain ⟨place, first, rfl⟩ := oldest
  rw [List.find?_range_eq_some] at first
  refine ⟨place, ?_, rfl⟩
  by_contra later
  have idle := first.2.2 position (by omega)
  rw [Function.comp_apply, sequenced] at idle
  cases idle

end Backend

/-- The back end with a number for every instruction, counted at dispatch. -/
structure Numbered where
  backend : Backend
  serial : RobIndex → Nat
  count : Nat

namespace Numbered

def reset : Numbered := ⟨Backend.reset, fun _ => 0, 0⟩

def step (numbered : Numbered) (input : BackendInput) : Numbered where
  backend := numbered.backend.step input
  serial := numbered.backend.rcu.dispatchInto input.toRcuInput numbered.serial numbered.count
    (numbered.count + 1)
  count := numbered.count + amount (numbered.backend.rcu.doRobWriteFirst input.toRcuInput)
    (numbered.backend.rcu.doRobWriteSecond input.toRcuInput)

def machine : Synchronous Numbered BackendInput := ⟨reset, step⟩

/-- The number of the instruction in a slot, those dispatched in this cycle included. -/
def label (numbered : Numbered) (input : BackendInput) (index : RobIndex) : Nat :=
  (numbered.step input).serial index

/-- The instructions selected, and those written into the load/store queue, in one cycle. -/
def selections (numbered : Numbered) (input : BackendInput) : List Nat :=
  (numbered.backend.issues input.toRcuInput).map fun issued =>
    numbered.label input issued.robIndex

def memoryWrites (numbered : Numbered) (input : BackendInput) : List Nat :=
  (numbered.backend.lsuQueueWrites input).map fun issued => numbered.label input issued.robIndex

/-- The numbers in the window grow with age, the flags know what has been selected, and every
memory operation that waits is younger than those in the queue. -/
structure Ordered (numbered : Numbered) (length : Nat) (selected memory : List Nat) : Prop where
  window : Rcu.Window numbered.backend.rcu length
  increasing : (Circular.window numbered.serial numbered.backend.rcu.cmtRobIndex length).Pairwise
    (· < ·)
  bounded : ∀ number ∈ Circular.window numbered.serial numbered.backend.rcu.cmtRobIndex length,
    number < numbered.count
  below : ∀ number ∈ selected, number < numbered.count
  flagged : ∀ index, numbered.backend.rcu.robUsed index = true →
    numbered.serial index ∈ selected → numbered.backend.issue.robSelected index = true
  once : selected.Nodup
  subset : memory ⊆ selected
  waiting : ∀ index, numbered.backend.rcu.robUsed index = true →
    (numbered.backend.rcu.rob index).isMemory = true →
    numbered.backend.issue.robSelected index = false →
    ∀ number ∈ memory, number < numbered.serial index
  sorted : memory.Pairwise (· < ·)

variable {numbered : Numbered} {input : BackendInput} {length : Nat} {selected memory : List Nat}

theorem memoryWrites_length (numbered : Numbered) (input : BackendInput) :
    (numbered.memoryWrites input).length ≤ 1 := by
  rw [memoryWrites, List.length_map]
  cases fault : numbered.backend.rcu.globalSpeculateFault input.toRcuInput
  · rw [Backend.lsuQueueWrites, fault, if_neg (by simp), Backend.lsuQueue_written]
    exact numbered.backend.memory_single _
  · simp [Backend.lsuQueueWrites, fault]

theorem memoryWrites_sorted : (numbered.memoryWrites input).Pairwise (· < ·) := by
  have short := numbered.memoryWrites_length input
  generalize numbered.memoryWrites input = writes at short ⊢
  rcases writes with _ | ⟨number, _ | ⟨other, rest⟩⟩
  · exact List.Pairwise.nil
  · exact List.pairwise_singleton _ _
  · simp at short

theorem reset_ordered : Ordered reset 0 [] [] := by
  refine ⟨Rcu.reset_window, List.Pairwise.nil, ?_, ?_, ?_, List.nodup_nil, ?_, ?_, List.Pairwise.nil⟩
  all_goals simp

namespace Ordered

theorem serial_lt (ordered : Ordered numbered length selected memory) {older younger : Nat}
    (order : older < younger) (inside : younger < length) :
    numbered.serial (advance numbered.backend.rcu.cmtRobIndex older) <
      numbered.serial (advance numbered.backend.rcu.cmtRobIndex younger) := by
  have increasing := ordered.increasing
  rw [Circular.window, slots_eq_range, List.map_map, List.pairwise_map] at increasing
  have pair := List.pairwise_iff_getElem.mp increasing older younger (by simp; omega) (by simpa)
    order
  simpa using pair

theorem used_position (ordered : Ordered numbered length selected memory) {index : RobIndex}
    (used : numbered.backend.rcu.robUsed index = true) :
    ∃ position < length, index = advance numbered.backend.rcu.cmtRobIndex position := by
  rwa [ordered.window.used, mem_slots] at used

theorem serial_bounded (ordered : Ordered numbered length selected memory) {index : RobIndex}
    (used : numbered.backend.rcu.robUsed index = true) : numbered.serial index < numbered.count := by
  apply ordered.bounded
  rw [ordered.window.used] at used
  exact List.mem_map_of_mem used

theorem serial_injective (ordered : Ordered numbered length selected memory)
    {left right : RobIndex} (used : numbered.backend.rcu.robUsed left = true)
    (used' : numbered.backend.rcu.robUsed right = true)
    (same : numbered.serial left = numbered.serial right) : left = right := by
  obtain ⟨place, inside, rfl⟩ := ordered.used_position used
  obtain ⟨place', inside', rfl⟩ := ordered.used_position used'
  rcases Nat.lt_trichotomy place place' with before | rfl | after
  · have := ordered.serial_lt before inside'
    omega
  · rfl
  · have := ordered.serial_lt after inside
    omega

/-- The slots that hold an instruction in this cycle: those in use and those being written. -/
def Live (numbered : Numbered) (input : BackendInput) (index : RobIndex) : Prop :=
  numbered.backend.rcu.robUsed index = true ∨
    (index = numbered.backend.rcu.wrRobIndex ∧
      numbered.backend.rcu.doRobWriteFirst input.toRcuInput = true) ∨
    (index = numbered.backend.rcu.wrRobIndexSecond ∧
      numbered.backend.rcu.doRobWriteSecond input.toRcuInput = true)

theorem issued_live {issued : Issued}
    (member : issued ∈ numbered.backend.issues input.toRcuInput) :
    Live numbered input issued.robIndex := by
  rcases (Backend.issues_cases input member).2 with ⟨used, -⟩ | ⟨here, write, -⟩ |
    ⟨here, write, -⟩
  · exact Or.inl used
  · exact Or.inr (Or.inl ⟨here, write⟩)
  · exact Or.inr (Or.inr ⟨here, write⟩)

theorem label_used {index : RobIndex} (used : numbered.backend.rcu.robUsed index = true) :
    numbered.label input index = numbered.serial index :=
  Rcu.dispatchInto_used _ used _ _ _

theorem label_first (write : numbered.backend.rcu.doRobWriteFirst input.toRcuInput = true) :
    numbered.label input numbered.backend.rcu.wrRobIndex = numbered.count :=
  Rcu.dispatchInto_first _ write _ _ _

theorem label_second (write : numbered.backend.rcu.doRobWriteSecond input.toRcuInput = true) :
    numbered.label input numbered.backend.rcu.wrRobIndexSecond = numbered.count + 1 :=
  Rcu.dispatchInto_second _ write _ _ _

theorem label_below (ordered : Ordered numbered length selected memory) {index : RobIndex}
    (live : Live numbered input index) :
    numbered.label input index < (numbered.step input).count := by
  have first := ordered.window.write_ordered input.toRcuInput
  change _ < numbered.count + amount _ _
  unfold amount
  rcases live with used | ⟨rfl, write⟩ | ⟨rfl, write⟩
  · have := ordered.serial_bounded used
    rw [label_used used]
    omega
  · rw [label_first write, write, Bool.toNat_true]
    omega
  · rw [label_second write, write, first write, Bool.toNat_true]
    omega

theorem label_injective (ordered : Ordered numbered length selected memory) {left right : RobIndex}
    (live : Live numbered input left) (live' : Live numbered input right)
    (same : numbered.label input left = numbered.label input right) : left = right := by
  rcases live with used | ⟨rfl, write⟩ | ⟨rfl, write⟩ <;>
    rcases live' with used' | ⟨rfl, write'⟩ | ⟨rfl, write'⟩
  · rw [label_used used, label_used used'] at same
    exact ordered.serial_injective used used' same
  · have := ordered.serial_bounded used
    rw [label_used used, label_first write'] at same
    omega
  · have := ordered.serial_bounded used
    rw [label_used used, label_second write'] at same
    omega
  · have := ordered.serial_bounded used'
    rw [label_used used', label_first write] at same
    omega
  · rfl
  · rw [label_first write, label_second write'] at same
    omega
  · have := ordered.serial_bounded used'
    rw [label_used used', label_second write] at same
    omega
  · rw [label_first write', label_second write] at same
    omega
  · rfl

/-- Nothing is selected that was selected before, and nothing twice in a cycle. -/
theorem selections_fresh (ordered : Ordered numbered length selected memory) :
    (selected ++ numbered.selections input).Nodup := by
  rw [List.nodup_append]
  refine ⟨ordered.once, ?_, ?_⟩
  · rw [selections, Backend.issues, List.map_map,
      List.nodup_map_iff_inj_on (numbered.backend.grants_nodup _)]
    intro left granted right granted' same
    apply Backend.indexOf_injective (Backend.eligible_ready (Backend.grants_eligible granted))
      (Backend.eligible_ready (Backend.grants_eligible granted'))
    exact ordered.label_injective (issued_live (List.mem_map_of_mem granted))
      (issued_live (List.mem_map_of_mem granted')) same
  · rintro number old _ fresh rfl
    obtain ⟨issued, member, rfl⟩ := List.mem_map.mp fresh
    have below := ordered.below _ old
    rcases (Backend.issues_cases input member).2 with ⟨used, idle, -⟩ | ⟨here, write, -⟩ |
      ⟨here, write, -⟩
    · rw [label_used used] at old
      simp [ordered.flagged _ used old] at idle
    · rw [here, label_first write] at below
      omega
    · rw [here, label_second write] at below
      omega

theorem selected_below (ordered : Ordered numbered length selected memory) :
    ∀ number ∈ selected ++ numbered.selections input, number < (numbered.step input).count := by
  intro number member
  rcases List.mem_append.mp member with old | fresh
  · have := ordered.below number old
    change _ < numbered.count + amount _ _
    omega
  · obtain ⟨issued, inside, rfl⟩ := List.mem_map.mp fresh
    exact ordered.label_below (issued_live inside)

/-- A stored operation that is kept in sequence and not selected is younger than the memory
operation that is. -/
theorem selected_before (ordered : Ordered numbered length selected memory) {issued : Issued}
    (member : issued ∈ numbered.backend.issues input.toRcuInput)
    (isMemory : issued.entry.isMemory = true) {index : RobIndex}
    (used : numbered.backend.rcu.robUsed index = true)
    (sequenced : numbered.backend.loadStore input.toRcuInput (.slot index) = true)
    (other : issued.robIndex ≠ index) :
    numbered.label input issued.robIndex < numbered.serial index := by
  obtain ⟨position, inside, rfl⟩ := ordered.used_position used
  have bound := ordered.window.bounded
  obtain ⟨requester, granted, rfl⟩ := List.mem_map.mp member
  rw [← Backend.requesterAt_stored numbered.backend (show position < 16 by omega)] at sequenced
  obtain ⟨place, before, rfl⟩ := Backend.oldest_before (Backend.memory_oldest granted isMemory)
    sequenced
  rw [Backend.requesterAt_stored numbered.backend (by omega)] at other ⊢
  have earlier : place < position := by
    rcases Nat.lt_or_eq_of_le before with earlier | rfl
    · exact earlier
    · exact absurd rfl other
  have busy : numbered.backend.rcu.robUsed
      (advance numbered.backend.rcu.cmtRobIndex place) = true := by
    rw [ordered.window.used, mem_slots]
    exact ⟨place, by omega, rfl⟩
  calc numbered.label input (advance numbered.backend.rcu.cmtRobIndex place)
      = numbered.serial (advance numbered.backend.rcu.cmtRobIndex place) := label_used busy
    _ < numbered.serial (advance numbered.backend.rcu.cmtRobIndex position) :=
      ordered.serial_lt earlier inside

/-- The second of two dispatched memory operations is not granted before the first. -/
theorem second_not_before {issued : Issued}
    (member : issued ∈ numbered.backend.issues input.toRcuInput)
    (isMemory : issued.entry.isMemory = true)
    (first : (numbered.backend.rcu.entryFirst input.toRcuInput).isMemory = true)
    (write : numbered.backend.rcu.doRobWriteSecond input.toRcuInput = true) :
    issued.robIndex ≠ numbered.backend.rcu.wrRobIndexSecond := by
  obtain ⟨requester, granted, rfl⟩ := List.mem_map.mp member
  have ready := Backend.eligible_ready (Backend.grants_eligible granted)
  have sequenced : numbered.backend.loadStore input.toRcuInput
      (numbered.backend.requesterAt 16) = true := first
  obtain ⟨place, before, rfl⟩ := Backend.oldest_before (Backend.memory_oldest granted isMemory)
    sequenced
  rcases Nat.lt_or_eq_of_le before with stored | rfl
  · rw [Backend.requesterAt_stored numbered.backend stored] at ready ⊢
    simp only [Backend.selectReady, Bool.and_eq_true] at ready
    intro here
    have free := (numbered.backend.rcu.write_unused input.toRcuInput).2 write
    change advance numbered.backend.rcu.cmtRobIndex place = _ at here
    simp [here, free] at ready
  · exact numbered.backend.rcu.wrRobIndexSecond_ne

/-- The numbers of the window and of what is dispatched grow with age. -/
theorem dispatched_increasing (ordered : Ordered numbered length selected memory)
    (input : BackendInput) :
    (Circular.window numbered.serial numbered.backend.rcu.cmtRobIndex length ++
        accepted (numbered.backend.rcu.doRobWriteFirst input.toRcuInput)
          (numbered.backend.rcu.doRobWriteSecond input.toRcuInput) numbered.count
          (numbered.count + 1)).Pairwise (· < ·) ∧
      ∀ number ∈ Circular.window numbered.serial numbered.backend.rcu.cmtRobIndex length ++
        accepted (numbered.backend.rcu.doRobWriteFirst input.toRcuInput)
          (numbered.backend.rcu.doRobWriteSecond input.toRcuInput) numbered.count
          (numbered.count + 1), number < (numbered.step input).count := by
  have first := ordered.window.write_ordered input.toRcuInput
  have fresh : ∀ number ∈ accepted (numbered.backend.rcu.doRobWriteFirst input.toRcuInput)
      (numbered.backend.rcu.doRobWriteSecond input.toRcuInput) numbered.count
      (numbered.count + 1), numbered.count ≤ number ∧ number < (numbered.step input).count := by
    intro number member
    change _ ∧ _ < numbered.count + amount _ _
    unfold amount
    rcases accepted_mem member with ⟨write, rfl⟩ | ⟨write, rfl⟩
    · rw [write, Bool.toNat_true]
      omega
    · rw [first write, write, Bool.toNat_true]
      omega
  constructor
  · rw [List.pairwise_append]
    refine ⟨ordered.increasing, ?_, ?_⟩
    · unfold accepted
      split <;> split <;> simp
    · intro older inWindow younger isFresh
      have := ordered.bounded older inWindow
      have := (fresh younger isFresh).1
      omega
  · intro number member
    rcases List.mem_append.mp member with inWindow | isFresh
    · have := ordered.bounded number inWindow
      change _ < numbered.count + amount _ _
      omega
    · exact (fresh number isFresh).2

section Quiet

variable (ordered : Ordered numbered length selected memory)
  (quiet : numbered.backend.rcu.globalSpeculateFault input.toRcuInput = false)

include ordered quiet

omit ordered in
/-- What is known of a slot in use after the cycle. -/
theorem step_live {index : RobIndex}
    (used : (numbered.step input).backend.rcu.robUsed index = true) :
    Live numbered input index ∧
      ((numbered.step input).backend.issue.robSelected index = true ↔
        numbered.backend.issue.robSelected index = true ∨
          ∃ issued ∈ numbered.backend.issues input.toRcuInput, issued.robIndex = index) := by
  have stays := ((Rcu.step_used_iff input.toRcuInput quiet).mp used).2
  refine ⟨(Rcu.step_used_cases input.toRcuInput quiet used).imp And.left id, ?_⟩
  rw [show (numbered.step input).backend = numbered.backend.step input from rfl,
    Backend.step_selected_iff input quiet index]
  exact and_iff_left stays

theorem step_flagged {index : RobIndex}
    (used : (numbered.step input).backend.rcu.robUsed index = true)
    (chosen : (numbered.step input).serial index ∈ selected ++ numbered.selections input) :
    (numbered.step input).backend.issue.robSelected index = true := by
  obtain ⟨live, flag⟩ := step_live quiet used
  rw [flag]
  change numbered.label input index ∈ _ at chosen
  rcases List.mem_append.mp chosen with old | fresh
  · have below := ordered.below _ old
    rcases live with used | ⟨rfl, write⟩ | ⟨rfl, write⟩
    · rw [label_used used] at old
      exact Or.inl (ordered.flagged _ used old)
    · rw [label_first write] at below
      omega
    · rw [label_second write] at below
      omega
  · obtain ⟨issued, member, same⟩ := List.mem_map.mp fresh
    exact Or.inr ⟨issued, member, ordered.label_injective (issued_live member) live same⟩

omit ordered in
theorem memoryWrites_cases {number : Nat} (member : number ∈ numbered.memoryWrites input) :
    ∃ issued ∈ numbered.backend.issues input.toRcuInput, issued.entry.isMemory = true ∧
      numbered.label input issued.robIndex = number := by
  rw [memoryWrites, Backend.lsuQueueWrites, quiet, if_neg (by simp),
    Backend.lsuQueue_written] at member
  obtain ⟨issued, inside, same⟩ := List.mem_map.mp member
  obtain ⟨inside, isMemory⟩ := List.mem_filter.mp inside
  exact ⟨issued, inside, isMemory, same⟩

/-- The memory operations that still wait are younger than the one written. -/
theorem step_waiting {index : RobIndex}
    (used : (numbered.step input).backend.rcu.robUsed index = true)
    (isMemory : ((numbered.step input).backend.rcu.rob index).isMemory = true)
    (idle : (numbered.step input).backend.issue.robSelected index = false) {number : Nat}
    (member : number ∈ memory ++ numbered.memoryWrites input) :
    number < (numbered.step input).serial index := by
  obtain ⟨live, flag⟩ := step_live quiet used
  rw [idle] at flag
  simp only [Bool.false_eq_true, false_iff, not_or, Bool.not_eq_true, not_exists, not_and] at flag
  change number < numbered.label input index
  rcases List.mem_append.mp member with old | fresh
  · have below := ordered.below _ (ordered.subset old)
    rcases live with used | ⟨rfl, write⟩ | ⟨rfl, write⟩
    · rw [label_used used]
      have same : (numbered.step input).backend.rcu.rob index = numbered.backend.rcu.rob index :=
        Rcu.dispatchInto_used _ used _ _ _
      rw [same] at isMemory
      exact ordered.waiting _ used isMemory flag.1 _ old
    · rw [label_first write]
      omega
    · rw [label_second write]
      omega
  · obtain ⟨issued, inside, isMemory', rfl⟩ := memoryWrites_cases quiet fresh
    have other := flag.2 issued inside
    rcases live with used | ⟨rfl, write⟩ | ⟨rfl, write⟩
    · have same : (numbered.step input).backend.rcu.rob index = numbered.backend.rcu.rob index :=
        Rcu.dispatchInto_used _ used _ _ _
      rw [same] at isMemory
      rw [label_used used]
      apply ordered.selected_before inside isMemory' used ?_ other
      simp only [RobOp.isMemory, Bool.or_eq_true] at isMemory
      simp only [Backend.loadStore, flag.1, Bool.not_false, Bool.and_true, Bool.or_eq_true]
      tauto
    · rw [label_first write]
      have new : (numbered.step input).backend.rcu.rob numbered.backend.rcu.wrRobIndex =
          numbered.backend.rcu.entryFirst input.toRcuInput :=
        Rcu.dispatchInto_first _ write _ _ _
      rw [new] at isMemory
      rcases (Backend.issues_cases input inside).2 with ⟨used', -⟩ | ⟨here, -⟩ | ⟨here, write', -⟩
      · rw [label_used used']
        exact ordered.serial_bounded used'
      · exact absurd here other
      · exact absurd here (second_not_before inside isMemory' isMemory write')
    · rw [label_second write]
      rcases (Backend.issues_cases input inside).2 with ⟨used', -⟩ | ⟨here, write', -⟩ | ⟨here, -⟩
      · have := ordered.serial_bounded used'
        rw [label_used used']
        omega
      · rw [here, label_first write']
        omega
      · exact absurd here other

/-- A cycle without a flush. -/
theorem step_quiet : Ordered (numbered.step input)
    (length - amount (numbered.backend.rcu.doRobCommitFirst input.toRcuInput)
        (numbered.backend.rcu.doRobCommitSecond input.toRcuInput) +
      amount (numbered.backend.rcu.doRobWriteFirst input.toRcuInput)
        (numbered.backend.rcu.doRobWriteSecond input.toRcuInput))
    (selected ++ numbered.selections input) (memory ++ numbered.memoryWrites input) := by
  obtain ⟨increasing, bounded⟩ := ordered.dispatched_increasing input
  rw [← Rcu.step_array ordered.window input.toRcuInput quiet] at increasing bounded
  refine ⟨Rcu.step_window ordered.window input.toRcuInput quiet,
    (List.pairwise_append.mp increasing).2.1, fun number member => bounded number
      (List.mem_append_right _ member), ?_, fun index used chosen => ordered.step_flagged quiet used
      chosen, ordered.selections_fresh, ?_, fun index used isMemory idle number member =>
      ordered.step_waiting quiet used isMemory idle member, ?_⟩
  · exact ordered.selected_below
  · intro number member
    rcases List.mem_append.mp member with old | fresh
    · exact List.mem_append_left _ (ordered.subset old)
    · obtain ⟨issued, inside, -, rfl⟩ := memoryWrites_cases quiet fresh
      exact List.mem_append_right _ (List.mem_map_of_mem inside)
  · rw [List.pairwise_append]
    refine ⟨ordered.sorted, memoryWrites_sorted, fun older old younger fresh => ?_⟩
    obtain ⟨issued, inside, isMemory, rfl⟩ := memoryWrites_cases quiet fresh
    have below := ordered.below _ (ordered.subset old)
    obtain ⟨entry, source⟩ := Backend.issues_cases input inside
    rcases source with ⟨used, idle, -⟩ | ⟨here, write, -⟩ | ⟨here, write, -⟩
    · have same : (numbered.backend.step input).rcu.rob issued.robIndex =
          numbered.backend.rcu.rob issued.robIndex := Rcu.dispatchInto_used _ used _ _ _
      rw [entry, same] at isMemory
      rw [label_used used]
      exact ordered.waiting _ used isMemory idle _ old
    · rw [here, label_first write]
      omega
    · rw [here, label_second write]
      omega

end Quiet

/-- A cycle with a flush empties the window; nothing is written into the queue. -/
theorem step_fault (ordered : Ordered numbered length selected memory)
    (fault : numbered.backend.rcu.globalSpeculateFault input.toRcuInput = true) :
    Ordered (numbered.step input) 0 (selected ++ numbered.selections input)
      (memory ++ numbered.memoryWrites input) := by
  have none : numbered.memoryWrites input = [] := by
    simp [memoryWrites, Backend.lsuQueueWrites, fault]
  have window : Rcu.Window (numbered.step input).backend.rcu 0 :=
    Rcu.step_window_fault numbered.backend.rcu input.toRcuInput fault
  have unused : ∀ index, (numbered.step input).backend.rcu.robUsed index = true → False := by
    intro index used
    rw [window.used] at used
    cases used
  rw [none, List.append_nil]
  refine ⟨window, List.Pairwise.nil, by simp, ordered.selected_below, fun index used => ?_,
    ordered.selections_fresh, fun number member => List.mem_append_left _ (ordered.subset member),
    fun index used => ?_, ordered.sorted⟩
  · exact (unused index used).elim
  · exact (unused index used).elim

end Ordered

theorem run_ordered (inputs : List BackendInput) :
    ∃ length, Ordered (machine.run inputs) length (machine.log selections inputs)
      (machine.log memoryWrites inputs) := by
  induction inputs using List.reverseRecOn with
  | nil => exact ⟨0, reset_ordered⟩
  | append_singleton inputs input ih =>
    obtain ⟨length, ordered⟩ := ih
    rw [Synchronous.run_snoc, Synchronous.log_snoc, Synchronous.log_snoc]
    cases fault : (machine.run inputs).backend.rcu.globalSpeculateFault input.toRcuInput
    · exact ⟨_, ordered.step_quiet fault⟩
    · exact ⟨0, ordered.step_fault fault⟩

/-- Numbering changes nothing. -/
theorem run_backend (inputs : List BackendInput) :
    (machine.run inputs).backend = Backend.machine.run inputs := by
  induction inputs using List.reverseRecOn with
  | nil => rfl
  | append_singleton inputs input ih =>
    rw [Synchronous.run_snoc, Synchronous.run_snoc, ← ih]
    rfl

end Numbered

namespace Backend

/-- A queue hands over its oldest word and keeps what it writes behind the others. -/
theorem queuePorts_contains {queue : F2if2o 4 Issued} {waiting : List Issued}
    (valid : queue.Contains waiting) (first second : Option Issued) (accepts : RobEntry → Bool)
    (unitReady : Bool) :
    (queue.step (queuePorts queue first second accepts unitReady)).Contains
      (waiting.drop (unitReady && !queue.fifoEmpty).toNat ++
        written (queuePorts queue first second accepts unitReady)) := by
  have count := valid.fifoNum_eq
  have fits := valid.fits
  have popped : amount (queuePorts queue first second accepts unitReady).rdFirstEn
      (queuePorts queue first second accepts unitReady).rdSecondEn =
        (unitReady && !queue.fifoEmpty).toNat := rfl
  have present : (unitReady && !queue.fifoEmpty).toNat ≤ waiting.length := by
    cases empty : queue.fifoEmpty
    · have some : queue.fifoNum ≠ 0 := by simpa [F2if2o.fifoEmpty] using empty
      have one := Bool.toNat_le (unitReady && !false)
      omega
    · simp
  have room : waiting.length + amount (queuePorts queue first second accepts unitReady).wrFirstEn
      (queuePorts queue first second accepts unitReady).wrSecondEn ≤ 4 := by
    simp only [queuePorts, F2if2o.fifoFull, F2if2o.fifoAlmostFull, count, amount]
    cases first.any (fun issued => accepts issued.entry) <;>
      cases second.any (fun issued => accepts issued.entry) <;>
      cases full : waiting.length == 4 <;> cases almost : decide (4 - 1 ≤ waiting.length) <;>
      simp_all <;> omega
  have moved := F2if2o.step_contains valid (queuePorts queue first second accepts unitReady)
    (by omega) (by omega)
  rw [popped] at moved
  exact moved

/-- A queue whose writes fit keeps them all behind what it holds. -/
theorem queue_step {queue : F2if2o 4 Issued} {waiting : List Issued}
    (valid : queue.Contains waiting) {issues : List Issued} (short : issues.length ≤ 2)
    (accepts : RobEntry → Bool) (unitReady : Bool)
    (room : ∀ issued ∈ issues, accepts issued.entry = true → queue.fifoAlmostFull = false) :
    (queue.step (queuePorts queue issues[0]? issues[1]? accepts unitReady)).Contains
      (waiting.drop (unitReady && !queue.fifoEmpty).toNat ++
        issues.filter fun issued => accepts issued.entry) := by
  rw [← queuePorts_writes queue short accepts unitReady room]
  exact queuePorts_contains valid _ _ accepts unitReady

/-- What the queues hold after a cycle without a flush: the rest, then everything selected. -/
theorem queues_step {backend : Backend} {mdWaiting lsuWaiting : List Issued}
    (md : backend.issue.mdQueue.Contains mdWaiting)
    (lsu : backend.issue.lsuQueue.Contains lsuWaiting) (input : BackendInput)
    (quiet : backend.rcu.globalSpeculateFault input.toRcuInput = false) :
    (backend.step input).issue.mdQueue.Contains
        (mdWaiting.drop (input.mdReady && !backend.issue.mdQueue.fifoEmpty).toNat ++
          (backend.issues input.toRcuInput).filter fun issued => issued.entry.isMd) ∧
      (backend.step input).issue.lsuQueue.Contains
        (lsuWaiting.drop (input.lsuReady && !backend.issue.lsuQueue.fifoEmpty).toNat ++
          (backend.issues input.toRcuInput).filter fun issued => issued.entry.isMemory) := by
  simp only [step, quiet, Bool.false_eq_true, ↓reduceIte]
  constructor
  · exact queue_step md (backend.issues_length _) (fun entry => entry.isMd) _
      fun _ member => (issues_room member).1
  · exact queue_step lsu (backend.issues_length _) (fun entry => entry.isMemory) _
      fun _ member => (issues_room member).2

theorem run_queues (inputs : List BackendInput) :
    ∃ mdWaiting lsuWaiting, (machine.run inputs).issue.mdQueue.Contains mdWaiting ∧
      (machine.run inputs).issue.lsuQueue.Contains lsuWaiting := by
  induction inputs using List.reverseRecOn with
  | nil => exact ⟨[], [], F2if2o.reset_contains _, F2if2o.reset_contains _⟩
  | append_singleton inputs input ih =>
    obtain ⟨mdWaiting, lsuWaiting, md, lsu⟩ := ih
    rw [Synchronous.run_snoc]
    cases fault : (machine.run inputs).rcu.globalSpeculateFault input.toRcuInput
    · exact ⟨_, _, queues_step md lsu input fault⟩
    · refine ⟨[], [], ?_⟩
      simp only [machine, step] at fault ⊢
      rw [fault, if_pos rfl, if_pos rfl]
      exact ⟨F2if2o.reset_contains _, F2if2o.reset_contains _⟩

/-- In every run memory operations enter `lsu_queue` in program order, at most one in a cycle; what
a cycle newly marks as selected is on a select port; and everything on a select port finds room in
its queue, which afterwards holds it behind what was there. -/
theorem memory_program_order_kept (inputs : List BackendInput) :
    (Numbered.machine.log Numbered.memoryWrites inputs).Pairwise (· < ·) ∧
      ∀ input, ((machine.run inputs).lsuQueueWrites input).length ≤ 1 ∧
        ((machine.run inputs).rcu.globalSpeculateFault input.toRcuInput = false →
          (∀ index, (machine.run inputs).issue.robSelected index = false →
            ((machine.run inputs).step input).issue.robSelected index = true →
            ∃ issued ∈ (machine.run inputs).issues input.toRcuInput, issued.robIndex = index ∧
              issued.entry = ((machine.run inputs).step input).rcu.rob index) ∧
          (∀ issued ∈ (machine.run inputs).issues input.toRcuInput,
            (issued.entry.isMd = true → (machine.run inputs).issue.mdQueue.fifoFull = false) ∧
              (issued.entry.isMemory = true →
                (machine.run inputs).issue.lsuQueue.fifoFull = false)) ∧
          ∃ mdWaiting lsuWaiting, (machine.run inputs).issue.mdQueue.Contains mdWaiting ∧
            (machine.run inputs).issue.lsuQueue.Contains lsuWaiting ∧
            ((machine.run inputs).step input).issue.mdQueue.Contains
              (mdWaiting.drop
                (input.mdReady && !(machine.run inputs).issue.mdQueue.fifoEmpty).toNat ++
                ((machine.run inputs).issues input.toRcuInput).filter
                  fun issued => issued.entry.isMd) ∧
            ((machine.run inputs).step input).issue.lsuQueue.Contains
              (lsuWaiting.drop
                (input.lsuReady && !(machine.run inputs).issue.lsuQueue.fifoEmpty).toNat ++
                ((machine.run inputs).issues input.toRcuInput).filter
                  fun issued => issued.entry.isMemory)) := by
  obtain ⟨length, ordered⟩ := Numbered.run_ordered inputs
  refine ⟨ordered.sorted, fun input => ⟨?_, fun quiet => ⟨?_, ?_, ?_⟩⟩⟩
  · have short := (Numbered.machine.run inputs).memoryWrites_length input
    rwa [Numbered.memoryWrites, List.length_map, Numbered.run_backend] at short
  · intro index idle selected
    rw [step_selected_iff input quiet] at selected
    rcases selected.1 with before | ⟨issued, member, here⟩
    · rw [idle] at before
      cases before
    · exact ⟨issued, member, here, here ▸ (issues_cases input member).1⟩
  · intro issued member
    obtain ⟨md, lsu⟩ := issues_room member
    exact ⟨fun isMd => F2if2o.fifoFull_of_almost (md isMd),
      fun isMemory => F2if2o.fifoFull_of_almost (lsu isMemory)⟩
  · obtain ⟨mdWaiting, lsuWaiting, md, lsu⟩ := run_queues inputs
    exact ⟨mdWaiting, lsuWaiting, md, lsu, queues_step md lsu input quiet⟩

end Backend

end GreenRio
