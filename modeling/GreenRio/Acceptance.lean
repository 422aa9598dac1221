import GreenRio.LsqQueue
import GreenRio.Lsu
import GreenRio.Numbering

set_option autoImplicit false

namespace GreenRio

open Circular Fifo

namespace Lsq.Occupied

variable {lsq : Lsq} {input : LsqInput} {length : Nat} (occupied : lsq.Occupied length)
include occupied

theorem full_iff : (∀ i, (lsq.entries i).vld = true) ↔ length = 8 := by
  constructor
  · intro full
    have room := occupied.room
    by_contra some
    exact absurd (full _) ((occupied.vld length (by omega)).not.mpr (by omega))
  · rintro rfl i
    obtain ⟨k, below, rfl⟩ := (mem_slots lsq.head i 8).mp (mem_slots_full lsq.head i)
    exact (occupied.vld k below).mpr below

/-- A presented request enters where there is room, or where an entry leaves. -/
theorem enque_iff : lsq.enque input = true ↔
    input.vld = true ∧ (length < 8 ∨ lsq.deque input = true) := by
  have room := occupied.room
  have free := occupied.tail_vld
  have same := occupied.head_eq_tail
  simp only [enque, wbEnqueBypass, Bool.and_eq_true, Bool.or_eq_true, Bool.not_eq_true',
    beq_iff_eq, ← Bool.not_eq_true, free, same]
  refine and_congr_right fun _ => ⟨?_, ?_⟩
  · rintro (partly | ⟨-, leaves⟩)
    · exact .inl (by omega)
    · exact .inr leaves
  · rintro (partly | leaves)
    · exact .inl (by omega)
    · have := occupied.deque_inside leaves
      rcases Nat.lt_or_ge length 8 with below | full
      · exact .inl (by omega)
      · exact .inr ⟨.inr (by omega), leaves⟩

/-- The queue is ready under the same condition, unless a second `SFENCE.VMA` is presented. -/
theorem rdy_iff : lsq.rdy input = true ↔ (length < 8 ∨ lsq.deque input = true) ∧
    ¬(input.sfenceVma = true ∧ lsq.sfenceVmaAsidVldQ = true) := by
  have room := occupied.room
  have first := occupied.head_vld
  have same := occupied.head_eq_tail
  simp only [rdy, Bool.and_eq_true, Bool.or_eq_true, bne_iff_ne, ne_eq, beq_iff_eq,
    Bool.not_eq_true', ← Bool.not_eq_true, same, first]
  refine and_congr_left fun _ => ⟨?_, ?_⟩
  · rintro ((apart | ⟨-, leaves⟩) | ⟨-, empty⟩)
    · exact .inl (by omega)
    · exact .inr leaves
    · exact .inl (by omega)
  · rintro (partly | leaves)
    · rcases Nat.eq_zero_or_pos length with rfl | some
      · exact .inr (by omega)
      · exact .inl (.inl (by omega))
    · rcases Nat.lt_or_ge length 8 with below | full
      · exact .inl (.inl (by have := occupied.deque_inside leaves; omega))
      · exact .inl (.inr ⟨by omega, leaves⟩)

/-- The two conditions differ in the gate for an `SFENCE.VMA`, which only one of them has. -/
theorem handshake_iff : (lsq.enque input = true ↔ input.vld = true ∧ lsq.rdy input = true) ↔
    (input.sfenceVma = true → lsq.sfenceVmaAsidVldQ = true →
      (∀ i, (lsq.entries i).vld = true) ∧ lsq.deque input = false) := by
  have room := occupied.room
  rw [occupied.enque_iff, occupied.rdy_iff, occupied.full_iff, ← Bool.not_eq_true]
  have presented : input.sfenceVma = true → input.vld = true := fun fence =>
    (Bool.and_eq_true_iff.mp fence).1
  constructor
  · intro coincide fence outstanding
    have shut : ¬(length < 8 ∨ lsq.deque input = true) := fun opened =>
      (coincide.mp ⟨presented fence, opened⟩).2.2 ⟨fence, outstanding⟩
    exact ⟨by omega, fun leaves => shut (.inr leaves)⟩
  · intro gate
    refine ⟨fun ⟨vld, opened⟩ => ⟨vld, opened, ?_⟩, fun ⟨vld, opened, _⟩ => ⟨vld, opened⟩⟩
    rintro ⟨fence, outstanding⟩
    obtain ⟨full, stays⟩ := gate fence outstanding
    exact opened.elim (by omega) stays

end Lsq.Occupied

/-- An operation of `lsu_queue` on the ports of the load/store unit. -/
def Issued.lsuRequest (issued : Issued) : LsuRequest where
  ls := issued.entry.isStore
  ldOpcode := issued.entry.lduOp
  stOpcode := issued.entry.stuOp
  fenced := issued.entry.isFence || issued.entry.aq || issued.entry.rl
  virtBase := issued.rs1Data
  virtOffset := issued.entry.immData.signExtend 64
  robIndex := issued.robIndex
  rdAddr := issued.entry.prd
  data := issued.rs2Data

/-- `lsu_queue` in front of the load/store unit, and how many requests it has handed over. -/
structure LsuFeed where
  queue : F2if2o 4 Issued
  lsu : Lsu
  handed : Nat

/-- What the select ports issue, and the surroundings of the load/store unit, whose request ports
are driven by the queue. -/
structure LsuFeedInput where
  first : Option Issued
  second : Option Issued
  around : LsuInput

namespace LsuFeed

section Cycle

variable (feed : LsuFeed) (input : LsuFeedInput)

/-- `rcu_lsu_req_valid_o`. -/
def reqValid : Bool := !feed.queue.fifoEmpty

/-- `rcu_lsu_package_o`. -/
def package : Issued := feed.queue.rdataFirst false false

def lsuInput : LsuInput :=
  { input.around with vld := feed.reqValid, request := feed.package.lsuRequest }

/-- `rcu_lsu_req_ready_i`. -/
def reqReady : Bool := feed.lsu.rdy (feed.lsuInput input)

def ports : Ports Issued :=
  Backend.queuePorts feed.queue input.first input.second (fun entry => entry.isMemory)
    (feed.reqReady input)

/-- The head of the queue is taken from it. -/
def takes : Bool := !input.around.flush && (feed.reqValid && feed.reqReady input)

/-- `lsq_enque`. -/
def enque : Bool := feed.lsu.lsq.enque (feed.lsu.lsqInput (feed.lsuInput input))

/-- One clock edge outside reset; a flush resets the queue and the load/store queue. -/
def step (counter : Counter2) : LsuFeed where
  queue := if input.around.flush then F2if2o.reset Issued.blank else feed.queue.step (feed.ports input)
  lsu := feed.lsu.step counter (feed.lsuInput input)
  handed := feed.handed + (feed.takes input).toNat

/-- What enters the queue. -/
def entered : List Issued := Backend.written (feed.ports input)

/-- What the load/store queue allocates an entry for, with its number in the queue. -/
def allocated : List (Nat × Issued) :=
  if !input.around.flush && feed.enque input then [(feed.handed, feed.package)] else []

/-- Outside a flush an entry is allocated if and only if a request is presented and the load/store
queue is ready. -/
def Handshake : Prop :=
  input.around.flush = false →
    (feed.enque input = true ↔ feed.reqValid = true ∧ feed.reqReady input = true)

/-- An `SFENCE.VMA` that is presented while another one is outstanding finds the load/store queue
full, and its head staying. -/
def Unfenced : Prop :=
  input.around.flush = false → feed.reqValid = true → feed.package.lsuRequest.isSfenceVma = true →
    feed.lsu.lsq.sfenceVmaAsidVldQ = true →
      (∀ i, (feed.lsu.lsq.entries i).vld = true) ∧
        feed.lsu.lsq.deque (feed.lsu.lsqInput (feed.lsuInput input)) = false

end Cycle

def machine (counter : Counter2) : Synchronous LsuFeed LsuFeedInput where
  reset := ⟨F2if2o.reset Issued.blank, Lsu.reset, 0⟩
  step := fun feed input => feed.step input counter

def flushes (_ : LsuFeed) (input : LsuFeedInput) : Bool := input.around.flush

/-- Every cycle keeps to the handshake; the requests are allocated in their order, each once; and
what entered the queue since the last flush was allocated or waits. -/
structure AcceptsOnce (counter : Counter2) (inputs : List LsuFeedInput) : Prop where
  handshake : (machine counter).Obeys Handshake inputs
  once : ((machine counter).log allocated inputs).map Prod.fst =
    List.range ((machine counter).run inputs).handed
  kept : ∃ waiting, ((machine counter).run inputs).queue.Contains waiting ∧
    (machine counter).since flushes entered inputs =
      ((machine counter).since flushes allocated inputs).map Prod.snd ++ waiting

variable {counter : Counter2} {feed : LsuFeed} {input : LsuFeedInput}

/-- The queue in the back end steps as the queue here. -/
theorem backend_queue (backend : Backend) (cycle : BackendInput)
    (same : backend.issue.lsuQueue = feed.queue)
    (flush : backend.rcu.globalSpeculateFault cycle.toRcuInput = input.around.flush)
    (first : backend.selectFirst cycle.toRcuInput = input.first)
    (second : backend.selectSecond cycle.toRcuInput = input.second)
    (ready : cycle.lsuReady = feed.reqReady input) :
    (backend.step cycle).issue.lsuQueue = (feed.step input counter).queue := by
  simp only [Backend.step, step, ports, same, flush, first, second, ready]
  rfl

/-- Without any assumption on the surroundings the entries in use are those between the pointers. -/
theorem run_occupied (counter : Counter2) (inputs : List LsuFeedInput) :
    ∃ length, ((machine counter).run inputs).lsu.lsq.Occupied length := by
  refine (machine counter).run_invariant (fun feed => ∃ length, feed.lsu.lsq.Occupied length)
    ⟨0, Lsq.reset_occupied⟩ ?_ inputs
  rintro feed input ⟨length, occupied⟩
  cases flush : input.around.flush with
  | false => exact ⟨_, occupied.step flush⟩
  | true =>
    refine ⟨0, ?_⟩
    simp only [machine, step, Lsu.step]
    rw [Lsq.step_flush flush]
    exact Lsq.reset_occupied

theorem handshake_iff {length : Nat} (occupied : feed.lsu.lsq.Occupied length) :
    Handshake feed input ↔ Unfenced feed input := by
  refine forall_congr' fun _ => ?_
  have presented : (feed.lsu.lsqInput (feed.lsuInput input)).sfenceVma = true ↔
      feed.reqValid = true ∧ feed.package.lsuRequest.isSfenceVma = true := Bool.and_eq_true_iff
  have coincide := @Lsq.Occupied.handshake_iff _ (feed.lsu.lsqInput (feed.lsuInput input)) _ occupied
  rw [presented, and_imp] at coincide
  exact coincide

/-- Where the handshake is kept, what is allocated is what is taken. -/
theorem allocated_eq (handshake : Handshake feed input) :
    feed.allocated input = if feed.takes input then [(feed.handed, feed.package)] else [] := by
  have same : (!input.around.flush && feed.enque input) = feed.takes input := by
    unfold takes
    cases flush : input.around.flush with
    | true => rfl
    | false => rw [Bool.eq_iff_iff, Bool.not_false, Bool.true_and, Bool.true_and,
        Bool.and_eq_true, handshake flush]
  rw [allocated, same]

/-- What is taken was the oldest request that waits. -/
theorem step_queue {waiting : List Issued} (valid : feed.queue.Contains waiting)
    (running : input.around.flush = false) :
    ∃ rest, (feed.step input counter).queue.Contains (rest ++ feed.entered input) ∧
      waiting = (if feed.takes input then [feed.package] else []) ++ rest := by
  have moved := Backend.queuePorts_contains valid input.first input.second
    (fun entry => entry.isMemory) (feed.reqReady input)
  have taken : (feed.reqReady input && !feed.queue.fifoEmpty) = feed.takes input := by
    rw [takes, running, Bool.not_false, Bool.true_and, reqValid, Bool.and_comm]
  refine ⟨waiting.drop (feed.takes input).toNat, ?_, ?_⟩
  · simp only [step, running, Bool.false_eq_true, ↓reduceIte]
    rw [← taken]
    exact moved
  · cases takes : feed.takes input with
    | false => simp
    | true =>
      have some : feed.queue.fifoEmpty = false := by
        simp only [LsuFeed.takes, reqValid, Bool.and_eq_true, Bool.not_eq_true'] at takes
        exact takes.2.1
      cases waiting with
      | nil => simp [F2if2o.fifoEmpty, valid.fifoNum_eq] at some
      | cons oldest younger =>
        have driven : feed.package = oldest := valid.rdataFirst_eq false
        simp [driven]

theorem obeys_handshake_iff (counter : Counter2) (inputs : List LsuFeedInput) :
    (machine counter).Obeys Handshake inputs ↔ (machine counter).Obeys Unfenced inputs := by
  apply Synchronous.obeys_congr
  intro past input
  obtain ⟨length, occupied⟩ := run_occupied counter past
  exact handshake_iff occupied

/-- In every run entries are allocated as the handshake says, each request that is taken exactly
once, if and only if no `SFENCE.VMA` meets an outstanding one while an entry is free. -/
theorem accepts_once_iff (counter : Counter2) (inputs : List LsuFeedInput) :
    AcceptsOnce counter inputs ↔ (machine counter).Obeys Unfenced inputs := by
  rw [← obeys_handshake_iff]
  refine ⟨AcceptsOnce.handshake, fun obeys => ?_⟩
  induction inputs using List.reverseRecOn with
  | nil => exact ⟨obeys, rfl, [], F2if2o.reset_contains _, rfl⟩
  | append_singleton inputs input ih =>
    obtain ⟨before, last⟩ := Synchronous.obeys_snoc.mp obeys
    obtain ⟨-, once, waiting, valid, split⟩ := ih before
    refine ⟨obeys, ?_, ?_⟩
    · have handed : ((machine counter).step ((machine counter).run inputs) input).handed =
          ((machine counter).run inputs).handed + (((machine counter).run inputs).takes input).toNat :=
        rfl
      rw [Synchronous.log_snoc, Synchronous.run_snoc, List.map_append, once, allocated_eq last,
        handed]
      cases ((machine counter).run inputs).takes input <;> simp [List.range_succ]
    · rw [Synchronous.since_snoc, Synchronous.since_snoc, Synchronous.run_snoc]
      cases flush : input.around.flush with
      | true =>
        refine ⟨[], ?_, by simp [flushes, flush]⟩
        simp only [machine, step, flush, ↓reduceIte]
        exact F2if2o.reset_contains _
      | false =>
        obtain ⟨rest, contains, oldest⟩ := @step_queue counter _ input waiting valid flush
        refine ⟨_, contains, ?_⟩
        rw [allocated_eq last, flushes, flush, if_neg (by simp), if_neg (by simp), split, oldest]
        cases ((machine counter).run inputs).takes input <;> simp

/-- A cycle in which nothing is issued and nothing answers. -/
def quiet : LsuFeedInput where
  first := none
  second := none
  around :=
    { flush := false
      vld := false
      request := Issued.blank.lsuRequest
      wakeup := false
      wakeupRobIndex := 0
      dtlb := .none
      dcache := ⟨false, false, false, ⟨false, 0⟩, ⟨false, 0⟩, false, 0, 0⟩
      grants := ⟨false, false, false, false⟩
      wbAck := false
      wbDat := 0 }

/-- An `SFENCE.VMA` in a slot of the reorder buffer. -/
def sfenceVma (robIndex : RobIndex) : Issued :=
  ⟨robIndex, { RobEntry.blank with isFence := true, fenceOp := 2, isStore := true, stuOp := Stu.sfenceVma },
    0, 0⟩

/-- Two of them, one after the other. -/
def sfenceTwice : List LsuFeedInput :=
  [{ quiet with first := some (sfenceVma 0) }, { quiet with first := some (sfenceVma 1) }, quiet,
    quiet]

/-- The second one stays in the queue of the `rcu`, and is allocated in every cycle. -/
theorem sfence_allocated_again :
    ((machine Counter2.standard).log allocated sfenceTwice).map
        (fun entry => (entry.1, entry.2.robIndex)) = [(0, 0), (1, 1), (1, 1)] ∧
      ¬ ∀ counter inputs, AcceptsOnce counter inputs := by
  have again : ((machine Counter2.standard).log allocated sfenceTwice).map
      (fun entry => (entry.1, entry.2.robIndex)) = [(0, 0), (1, 1), (1, 1)] := by
    decide
  refine ⟨again, fun accepts => ?_⟩
  have once := (accepts Counter2.standard sfenceTwice).once
  have order := congrArg (List.map Prod.fst) again
  rw [List.map_map] at order
  exact absurd (order.symm.trans once) (by decide)

end LsuFeed

end GreenRio
