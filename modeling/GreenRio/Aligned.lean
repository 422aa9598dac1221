import GreenRio.LsqQueue
import GreenRio.Memory

set_option autoImplicit false

namespace GreenRio

open Circular

namespace Memory

/-- A request accepted in the last cycle, at the issue pointer. -/
structure First (lsq : Lsq) (request : DcacheRequest) : Prop where
  slot : request.slot = lsq.issued
  issued : lsq.l1dIssVldQ = true
  hsk : lsq.l1dIssHskQ = true
  ls : lsq.issuedEntry.ls = !request.load
  plain : lsq.issuedEntry.isFlush = false
  load : request.load = true → lsq.ldIssuedQ = request.slot
  store : request.load = false → lsq.l1dStIssVldQ = true

/-- A load accepted in the last but one cycle, which can be replayed. -/
structure Second (lsq : Lsq) (request : DcacheRequest) : Prop where
  slot : lsq.ldIssuedQq = request.slot
  vld : (lsq.entries request.slot).vld = true
  exec : (lsq.entries request.slot).exec = true
  ls : (lsq.entries request.slot).ls = false
  issued : lsq.issued = advance request.slot 1
  calm : lsq.flushing = false

/-- The queue stands in order, and what the cache can replay stands right before the issue
pointer. -/
structure Aligned (memory : Memory) (length passed : Nat) : Prop where
  window : memory.lsq.Window length passed
  quiet : memory.lsu.Quiet
  first : ∀ request, memory.cache.first = some request → request.live = true →
    First memory.lsq request
  killed : ∀ request, memory.cache.second = some request → request.live = true →
    memory.lsu.l1dKillReqQ = true → memory.lsq.ldReplayVldQ = true
  second : ∀ request, memory.cache.second = some request → request.live = true →
    memory.lsu.l1dKillReqQ = false → request.load = true → Second memory.lsq request

/-- What keeps the pointers in order: a replay is not left over from before a flush, and the load it
concerns is not leaving; a flushing fence is issued when the cache could take a store. -/
structure Steady (memory : Memory) (input : MemoryInput) : Prop where
  replay : input.replay = true →
    ∀ request, memory.cache.second = some request → request.live = true
  stays : memory.lsq.replayVld (memory.lsqInput input) = true →
    memory.lsq.deque (memory.lsqInput input) = true → memory.lsq.ldIssuedQq ≠ memory.lsq.head
  fence : input.flush = false → memory.lsq.stIssVld (memory.lsqInput input) = true →
    memory.lsq.issuedEntry.isFlush = true → input.stReqRdy = true

instance (memory : Memory) (input : MemoryInput) : Decidable (Steady memory input) :=
  let lsq := memory.lsq
  let ports := memory.lsqInput input
  decidable_of_iff
    ((input.replay = true → ∀ request ∈ memory.cache.second, request.live = true) ∧
      (lsq.replayVld ports = true → lsq.deque ports = true → lsq.ldIssuedQq ≠ lsq.head) ∧
      (input.flush = false → lsq.stIssVld ports = true → lsq.issuedEntry.isFlush = true →
        input.stReqRdy = true))
    ⟨fun ⟨replay, stays, fence⟩ => ⟨replay, stays, fence⟩,
      fun ⟨replay, stays, fence⟩ => ⟨replay, stays, fence⟩⟩

section Cycle

variable {memory : Memory} {input : MemoryInput} {length passed : Nat} {counter : Counter2}

@[simp] theorem lsqInput_dtlb : (memory.lsqInput input).dtlb = input.dtlb := rfl

@[simp] theorem lsqInput_request : (memory.lsqInput input).request = input.request := rfl

@[simp] theorem lsqInput_vld : (memory.lsqInput input).vld = input.vld := rfl

@[simp] theorem lsqInput_flush : (memory.lsqInput input).flush = input.flush := rfl

@[simp] theorem lsqInput_ldReqRdy : (memory.lsqInput input).ldReqRdy = input.ldReqRdy := rfl

@[simp] theorem lsqInput_stReqRdy : (memory.lsqInput input).stReqRdy = input.stReqRdy := rfl

@[simp] theorem lsqInput_wbArbRdy : (memory.lsqInput input).wbArbRdy = true := rfl

@[simp] theorem lsqInput_ldReplayVld : (memory.lsqInput input).ldReplayVld = input.replay := rfl

@[simp] theorem step_lsq :
    (memory.step counter input).lsq = memory.lsq.step counter (memory.lsqInput input) := rfl

namespace Aligned

variable (aligned : Aligned memory length passed) (replays : Replays memory input)
  (steady : Steady memory input)
include aligned

@[simp] theorem pmaIsIo_false : (memory.lsqInput input).pmaIsIo = false :=
  aligned.quiet.pmaIsIo_false _

/-- A load is sent back only as the newest of the requests that passed the issue pointer. -/
theorem replayed (replay : memory.lsq.replayVld (memory.lsqInput input) = true)
    (replays : Replays memory input)
    (fresh : input.replay = true → ∀ request, memory.cache.second = some request →
      request.live = true) :
    ∃ request, memory.cache.second = some request ∧ request.live = true ∧ request.load = true ∧
      memory.lsu.l1dKillReqQ = false ∧ Second memory.lsq request := by
  simp only [Lsq.replayVld, lsqInput_ldReplayVld, Bool.and_eq_true, Bool.not_eq_true'] at replay
  obtain ⟨request, second, load⟩ := replays replay.1
  have live := fresh replay.1 request second
  have kept : memory.lsu.l1dKillReqQ = false := by
    rw [← Bool.not_eq_true]
    intro kill
    rw [aligned.killed request second live kill] at replay
    cases replay.2
  exact ⟨request, second, live, load, kept, aligned.second request second live kept load⟩

/-- The entries in the queue are the valid ones. -/
theorem position {i : LsqIndex} (vld : (memory.lsq.entries i).vld = true) :
    ∃ k < length, i = advance memory.lsq.head k := by
  obtain ⟨k, below, same⟩ := (mem_slots memory.lsq.head i 8).mp (mem_slots_full _ _)
  exact ⟨k, (aligned.window.vld k below).mp (same ▸ vld), same⟩

include replays steady

theorem paced : memory.lsq.Paced (memory.lsqInput input) length passed where
  memory := aligned.pmaIsIo_false
  replay := by
    intro replay
    obtain ⟨last, -, -, -, -, place⟩ := aligned.replayed replay replays steady.replay
    have room := aligned.window.room
    have inside := aligned.window.inside
    obtain ⟨k, below, same⟩ := aligned.position place.vld
    have behind : k < passed := by
      rcases (aligned.window.exec k below).mp (same ▸ place.exec) with behind | ⟨-, flushing⟩
      · exact behind
      · rw [place.calm] at flushing
        cases flushing
    have next := place.issued
    rw [same, advance_advance, aligned.window.issued,
      Lsq.advance_eq_iff memory.lsq.head (by omega) (by omega)] at next
    obtain rfl : passed = k + 1 := by omega
    refine ⟨by omega, by rw [place.slot, same, Nat.add_sub_cancel], place.calm, fun deque => ?_, ?_⟩
    · by_contra alone
      obtain rfl : k = 0 := by omega
      rw [advance_zero] at same
      exact steady.stays replay deque (place.slot.trans same)
    · rw [place.slot]
      exact place.ls
  flush := steady.fence

variable (running : input.flush = false)
include running

/-- No flushing fence is issued where the target of the cycle is not one. -/
theorem calm_target {k : Nat} (moved : k + (memory.lsq.replayVld (memory.lsqInput input)).toNat =
      passed + (memory.lsq.lastIssSucc (memory.lsqInput input)).toNat)
    (place : memory.lsq.target (memory.lsqInput input) = advance memory.lsq.head k)
    (other : k < length → (memory.lsq.entries
      (memory.lsq.target (memory.lsqInput input))).isFlush = false) :
    (memory.lsq.step counter (memory.lsqInput input)).flushing = false := by
  have window := aligned.window
  have paced := aligned.paced replays steady
  rw [← Bool.not_eq_true, window.step_flushing paced running]
  rintro ⟨issue, flush⟩
  obtain ⟨⟨inside, -⟩, succ, replay, -⟩ := window.issue_passed issue
  rw [succ, replay] at moved
  obtain rfl : k = passed := moved
  have plain := other inside
  rw [place, ← window.issued, ← Lsq.issuedEntry, flush] at plain
  cases plain

/-- The target of a cycle is the entry at the issue pointer of the next. -/
theorem target_issued {k : Nat} (moved : k + (memory.lsq.replayVld (memory.lsqInput input)).toNat =
      passed + (memory.lsq.lastIssSucc (memory.lsqInput input)).toNat)
    (place : memory.lsq.target (memory.lsqInput input) = advance memory.lsq.head k) :
    memory.lsq.target (memory.lsqInput input) =
      (memory.lsq.step counter (memory.lsqInput input)).issued := by
  rw [aligned.window.step_issued (aligned.paced replays steady) running, place]
  congr 1
  omega

/-- A load that the cache accepts. -/
theorem first_load {request : DcacheRequest} (kind : request.load = true)
    (slot : request.slot = memory.lsq.target (memory.lsqInput input))
    (load : memory.lsq.ldReqVld (memory.lsqInput input) = true)
    (ready : input.ldReqRdy = true) :
    First (memory.lsq.step counter (memory.lsqInput input)) request := by
  have window := aligned.window
  have paced := aligned.paced replays steady
  have issue : memory.lsq.ldIssVld (memory.lsqInput input) = true := by
    simpa [Lsq.ldReqVld] using load
  obtain ⟨k, moved, place, stays, source⟩ := window.load_target paced issue
  have pointer : memory.lsq.target (memory.lsqInput input) =
      (memory.lsq.step counter (memory.lsqInput input)).issued :=
    aligned.target_issued replays steady running moved place
  have ls : (memory.lsq.step counter (memory.lsqInput input)).issuedEntry.ls = false := by
    rw [Lsq.issuedEntry, ← pointer, Lsq.step_entries running]
    rcases source with ⟨inside, ls, -⟩ | ⟨last, enque, ls, -⟩
    · obtain ⟨init, -⟩ := window.kept inside stays
      rw [place, LsqEntry.step_kept init, ← place]
      exact ls
    · have init : (memory.lsq.entryPorts (memory.lsqInput input)
          (memory.lsq.target (memory.lsqInput input))).init = true := by
        simp [Lsq.entryPorts, enque, place, last, window.tail]
      rw [LsqEntry.step_init init]
      exact ls
  refine ⟨slot.trans pointer, ?_, ?_, by rw [ls, kind]; rfl, ?_, fun _ => ?_, fun store => ?_⟩
  · simp [Lsq.step, running, Lsq.l1dIssVld, issue]
  · simp [Lsq.step, running, Lsq.l1dIssHsk, issue, ready]
  · simp [LsqEntry.isFlush, LsqEntry.isFenceReq, ls]
  · rw [slot]
    cases replay : memory.lsq.replayVld (memory.lsqInput input) <;>
      simp [Lsq.step, running, replay, load, Lsq.target]
  · rw [kind] at store
    cases store

/-- A store-class request that the cache accepts. -/
theorem first_store {request : DcacheRequest} (kind : request.load = false)
    (slot : request.slot = memory.lsq.issued)
    (store : memory.lsq.stReqVld (memory.lsqInput input) = true)
    (ready : input.stReqRdy = true) :
    First (memory.lsq.step counter (memory.lsqInput input)) request := by
  have window := aligned.window
  have paced := aligned.paced replays steady
  simp only [Lsq.stReqVld, Bool.and_eq_true, Bool.or_eq_true, Bool.not_eq_true', beq_iff_eq]
    at store
  obtain ⟨⟨⟨issue, -⟩, -⟩, cached⟩ := store
  obtain ⟨⟨inside, -⟩, succ, replay, -⟩ := window.issue_passed issue
  have stays := fun deque => window.deque_behind paced deque succ
  have same : (memory.lsq.step counter (memory.lsqInput input)).issuedEntry = _ :=
    (window.step_issuedEntry paced running (by rw [succ, replay]) inside stays).2
  obtain ⟨init, -⟩ := window.kept inside stays
  rw [LsqEntry.step_kept init, ← window.issued] at same
  have ls : memory.lsq.issuedEntry.ls = true := by
    simp only [Lsq.stIssVld, Bool.and_eq_true] at issue
    exact issue.1.1.1.1.1.1.2
  have plain : memory.lsq.issuedEntry.isFlush = false := by
    rcases cached with other | same
    · simp [LsqEntry.isFlush, other]
    · simp [LsqEntry.isFlush, same]
  have pointer : memory.lsq.issued = (memory.lsq.step counter (memory.lsqInput input)).issued := by
    rw [window.step_issued paced running, succ, replay, window.issued]
    rfl
  refine ⟨slot.trans pointer, ?_, ?_, ?_, ?_, fun load => ?_, fun _ => ?_⟩
  · simp [Lsq.step, running, Lsq.l1dIssVld, issue]
  · simp [Lsq.step, running, Lsq.l1dIssHsk, issue, ready]
  · rw [same, kind]
    exact ls
  · rw [same]
    exact plain
  · rw [kind] at load
    cases load
  · simp [Lsq.step, running, issue]

/-- What the cache accepts in a cycle. -/
theorem step_first {request : DcacheRequest}
    (accepted : (memory.step counter input).cache.first = some request) :
    First (memory.step counter input).lsq request := by
  simp only [step, cacheNext, Option.map_eq_some_iff] at accepted
  obtain ⟨fresh, accepted, rfl⟩ := accepted
  simp only [Memory.accepted] at accepted
  split at accepted
  · rename_i load
    rw [Bool.and_eq_true] at load
    obtain rfl := Option.some.inj accepted
    exact aligned.first_load replays steady running rfl rfl load.1 load.2
  · split at accepted
    · rename_i store
      rw [Bool.and_eq_true] at store
      obtain rfl := Option.some.inj accepted
      exact aligned.first_store replays steady running rfl rfl store.1 store.2
    · cases accepted

omit replays steady running in
/-- A request of the last cycle went through unless it is killed. -/
theorem first_passes {request : DcacheRequest} (first : memory.cache.first = some request)
    (live : request.live = true) (translated : translated input request = true)
    (calm : memory.lsq.replayVld (memory.lsqInput input) = false) :
    memory.lsq.lastIssSucc (memory.lsqInput input) = true := by
  have known := aligned.first request first live
  have window := aligned.window
  have vld := window.issued_vld (window.pending known.issued).1
  have awake := (window.pending known.issued).2
  have ls := known.ls
  cases load : request.load with
  | true =>
    rw [load, Bool.not_true] at ls
    simp only [Memory.translated, load, Bool.not_true, Bool.false_or, Bool.and_eq_true] at translated
    have hit : (memory.lsqInput input).pmaDtlbHit = true := by
      simp [LsqInput.pmaDtlbHit, translated.1.1, translated.1.2]
    simp [Lsq.lastIssSucc, known.issued, known.hsk, calm, Lsq.awakeCheckPass, Lsq.reqNeedCheckAwake,
      ls, aligned.pmaIsIo_false, Lsq.lastIssIsPa, vld, translated.1.1, translated.1.2, hit]
  | false =>
    rw [load, Bool.not_false] at ls
    have store := known.store load
    have woken : memory.lsq.awakeCheckPass (memory.lsqInput input) = true := by
      simp [Lsq.awakeCheckPass, Lsq.issuedEntryAwake, awake ls, vld]
    simp [Lsq.lastIssSucc, known.issued, known.hsk, calm, woken, ls, aligned.pmaIsIo_false,
      Lsq.lastIssIsPa, vld, store]

omit replays steady running in
/-- It is killed only by a replay. -/
theorem kill_replay {request : DcacheRequest} (first : memory.cache.first = some request)
    (live : request.live = true) :
    memory.lsu.killReqD input.lsuInput = memory.lsq.replayVld (memory.lsqInput input) := by
  have known := aligned.first request first live
  have vld := aligned.window.issued_vld (aligned.window.pending known.issued).1
  have awake := (aligned.window.pending known.issued).2
  have pass : memory.lsq.awakeCheckPass (memory.lsqInput input) = true := by
    cases ls : memory.lsq.issuedEntry.ls with
    | true => simp [Lsq.awakeCheckPass, Lsq.issuedEntryAwake, awake ls, vld]
    | false =>
      simp [Lsq.awakeCheckPass, Lsq.reqNeedCheckAwake, ls, aligned.pmaIsIo_false]
  have quiet : memory.lsu.pmaIsIo input.lsuInput = false := aligned.pmaIsIo_false
  change (memory.lsq.wakeupKill (memory.lsqInput input) ||
    memory.lsq.replayKill (memory.lsqInput input) || memory.lsu.pmaIsIo input.lsuInput) = _
  simp [Lsq.wakeupKill, Lsq.replayKill, pass, quiet, known.issued]

/-- A request that is not killed has passed the issue pointer and stays in the queue. -/
theorem passes {request : DcacheRequest} (first : memory.cache.first = some request)
    (live : request.live = true) (translated : translated input request = true)
    (calm : memory.lsq.replayVld (memory.lsqInput input) = false) :
    (memory.lsq.entryPorts (memory.lsqInput input) request.slot).init = false ∧
      (memory.lsq.entryPorts (memory.lsqInput input) request.slot).invld = false ∧
      ((memory.lsq.step counter (memory.lsqInput input)).entries request.slot).exec = true ∧
      (memory.lsq.step counter (memory.lsqInput input)).issued = advance request.slot 1 ∧
      (memory.lsq.step counter (memory.lsqInput input)).flushing = false := by
  have known := aligned.first request first live
  have window := aligned.window
  have paced := aligned.paced replays steady
  have succ := aligned.first_passes first live translated calm
  have inside := (window.pending known.issued).1
  have place : request.slot = advance memory.lsq.head passed := by rw [known.slot, window.issued]
  have quiet : (memory.lsq.step counter (memory.lsqInput input)).flushing = false := by
    rw [← Bool.not_eq_true, window.step_flushing paced running]
    rintro ⟨issue, -⟩
    rw [(window.issue_passed issue).2.1] at succ
    cases succ
  have stays : memory.lsq.deque (memory.lsqInput input) = true → 0 < passed := by
    intro deque
    rcases (window.deque_passed deque).2 with behind | ⟨-, flushing⟩
    · exact behind
    · simp only [Lsq.flushing, known.plain, Bool.and_false, Bool.false_eq_true] at flushing
  obtain ⟨init, invld⟩ := window.kept inside stays
  rw [← place] at init invld
  have exec : (memory.lsq.entryPorts (memory.lsqInput input) request.slot).exec = true :=
    (Lsq.execVld_iff request.slot).mpr ⟨known.slot, .inl ⟨succ, known.slot ▸ known.plain⟩⟩
  have still : (memory.lsq.entryPorts (memory.lsqInput input) request.slot).replay = false := by
    simp [Lsq.entryPorts, calm]
  refine ⟨init, invld, ?_, ?_, quiet⟩
  · rw [Lsq.step_entries running, LsqEntry.step_kept init]
    simp [exec, still]
  · rw [window.step_issued paced running, succ, calm, place, advance_advance]
    rfl

/-- The request accepted in the last cycle, after a cycle that does not kill it. -/
theorem step_second {request : DcacheRequest}
    (second : (memory.step counter input).cache.second = some request)
    (live : request.live = true) :
    memory.cache.first = some request ∧ translated input request = true ∧
      memory.lsu.killReqD input.lsuInput = memory.lsq.replayVld (memory.lsqInput input) ∧
      (memory.lsu.killReqD input.lsuInput = false → request.load = true →
        Second (memory.step counter input).lsq request) := by
  simp only [step, cacheNext, Option.map_eq_some_iff, Option.filter_eq_some_iff] at second
  obtain ⟨old, ⟨first, translated⟩, rfl⟩ := second
  have same : aged input.flush old = old := by simp [aged, running]
  rw [same] at live ⊢
  have kill : memory.lsu.killReqD input.lsuInput =
      memory.lsq.replayVld (memory.lsqInput input) := aligned.kill_replay first live
  refine ⟨first, translated, kill, fun calm load => ?_⟩
  rw [kill] at calm
  have known := aligned.first old first live
  obtain ⟨init, invld, exec, issued, quiet⟩ : _ ∧ _ ∧
      ((memory.lsq.step counter (memory.lsqInput input)).entries old.slot).exec = true ∧ _ ∧ _ :=
    aligned.passes replays steady running first live translated calm
  have vld := aligned.window.issued_vld (aligned.window.pending known.issued).1
  rw [Lsq.issuedEntry, ← known.slot] at vld
  have ls := known.ls
  rw [Lsq.issuedEntry, ← known.slot, load] at ls
  refine ⟨?_, ?_, exec, ?_, issued, quiet⟩
  · rw [step_lsq, ← known.load load]
    simp [Lsq.step, running]
  · rw [step_lsq, Lsq.step_entries running, LsqEntry.step_kept init]
    simp [vld, invld]
  · rw [step_lsq, Lsq.step_entries running, LsqEntry.step_kept init]
    exact ls

/-- A cycle without a flush keeps the queue in order. -/
theorem step : ∃ length' passed', Aligned (memory.step counter input) length' passed' ∧
    length' + (memory.lsq.deque (memory.lsqInput input)).toNat =
      length + (memory.lsq.enque (memory.lsqInput input)).toNat ∧
    passed' + (memory.lsq.deque (memory.lsqInput input)).toNat +
        (memory.lsq.replayVld (memory.lsqInput input)).toNat =
      passed + (memory.lsq.lastIssSucc (memory.lsqInput input)).toNat := by
  obtain ⟨length', passed', window', lengths, counts⟩ : ∃ length' passed',
      (memory.lsq.step counter (memory.lsqInput input)).Window length' passed' ∧ _ ∧ _ :=
    aligned.window.step_window (aligned.paced replays steady) running
  refine ⟨length', passed', ⟨window', aligned.quiet.step _ counter, ?_, ?_, ?_⟩, lengths, counts⟩
  · intro request first _
    exact aligned.step_first replays steady running first
  · intro request second live kill
    obtain ⟨-, -, same, -⟩ := aligned.step_second replays steady running second live
    change memory.lsu.killReqD input.lsuInput = true at kill
    rw [same] at kill
    simpa [Lsq.step, running] using kill
  · intro request second live kept load
    exact (aligned.step_second replays steady running second live).2.2.2 kept load

end Aligned

/-- After a flush no request belongs to the queue any more. -/
theorem flushed (flush : input.flush = true) :
    (memory.step counter input).lsq = Lsq.reset ∧
      (∀ request, (memory.step counter input).cache.first = some request →
        request.live = false) ∧
      (∀ request, (memory.step counter input).cache.second = some request →
        request.live = false) ∧
      (∀ request ∈ (memory.step counter input).cache.waiting, request.live = false) := by
  have gone : ∀ request, (aged input.flush request).live = false := by
    intro request
    simp [aged, flush]
  refine ⟨Lsq.step_flush flush, fun request first => ?_, fun request second => ?_,
    fun request waiting => ?_⟩
  · simp only [step, cacheNext, Option.map_eq_some_iff] at first
    obtain ⟨old, -, rfl⟩ := first
    exact gone old
  · simp only [step, cacheNext, Option.map_eq_some_iff] at second
    obtain ⟨old, -, rfl⟩ := second
    exact gone old
  · simp only [step, cacheNext, List.mem_map] at waiting
    obtain ⟨old, -, rfl⟩ := waiting
    exact gone old

theorem aligned_flush (aligned : Aligned memory length passed) (flush : input.flush = true) :
    Aligned (memory.step counter input) 0 0 := by
  obtain ⟨lsq, first, second, -⟩ : (memory.step counter input).lsq = Lsq.reset ∧ _ ∧ _ ∧ _ :=
    flushed flush
  refine ⟨?_, aligned.quiet.step _ counter, fun request found live => ?_,
    fun request found live => ?_, fun request found live => ?_⟩
  · rw [lsq]
    exact Lsq.reset_window
  · exact Bool.noConfusion ((first request found).symm.trans live)
  · exact Bool.noConfusion ((second request found).symm.trans live)
  · exact Bool.noConfusion ((second request found).symm.trans live)

theorem reset_aligned : Aligned reset 0 0 where
  window := Lsq.reset_window
  quiet := Lsu.reset_quiet
  first := fun _ first => by cases first
  killed := fun _ second => by cases second
  second := fun _ second => by cases second

end Cycle

end Memory

end GreenRio
