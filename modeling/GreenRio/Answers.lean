import GreenRio.Lookup

set_option autoImplicit false

namespace GreenRio

open Circular

/-- The entry a request was accepted for, which has not been answered. -/
structure Owns (lsq : Lsq) (request : DcacheRequest) (exec : Bool) : Prop where
  vld : (lsq.entries request.slot).vld = true
  robIndex : (lsq.entries request.slot).robIndex = request.robIndex
  rdAddr : (lsq.entries request.slot).rdAddr = request.rdAddr
  ls : (lsq.entries request.slot).ls = !request.load
  register : request.register = !(lsq.entries request.slot).noPrfWb
  flush : (lsq.entries request.slot).isFlush = false
  exec : (lsq.entries request.slot).exec = exec
  succ : (lsq.entries request.slot).succ = false

/-- Moreover only what was issued is answered. -/
structure LsqEntry.Regular (entry : LsqEntry) : Prop extends entry.Faithful where
  answered : entry.isFlush = false → entry.succ = true →
    entry.exec = true ∧ entry.exceptionVld = false

/-- The entry says what its ticket says. -/
structure Ticket.Matches (ticket : Ticket) (entry : LsqEntry) : Prop where
  robIndex : entry.robIndex = ticket.robIndex
  index : entry.index = ticket.vaddr.extractLsb' 6 6
  offset : entry.offset = ticket.vaddr.extractLsb' 0 6
  tag : entry.ls = false ∨ entry.virt = true →
    entry.tag = (ticket.vaddr.extractLsb' 12 27).setWidth 44
  fault : ticket.fault = if entry.exceptionVld then some entry.ecause else none

namespace Lsq

/-- The entry still owes a completion: it was not answered, and as the head it has not reported
its exception. -/
def owed (lsq : Lsq) (i : LsqIndex) : Bool :=
  !(!(lsq.entries i).noPrfWb && (lsq.entries i).succ) &&
    !(i == lsq.head && (lsq.entries i).exceptionVld && lsq.exceptionLock)

end Lsq

namespace Memory

/-- The requests of the running instructions that the cache is going to answer. -/
def flying (memory : Memory) : List DcacheRequest :=
  (memory.cache.waiting ++
    (memory.cache.second.filter fun _ => !memory.lsu.l1dKillReqQ).toList).filter fun request =>
      request.live

/-- What holds along a run: the queue, the cache and the tickets tell of the same requests. -/
structure Sound (memory : Memory) (length passed : Nat) : Prop
    extends Looked memory length passed where
  answered : ∀ k < length, (memory.lsq.entries (advance memory.lsq.head k)).isFlush = false →
    (memory.lsq.entries (advance memory.lsq.head k)).succ = true →
      (memory.lsq.entries (advance memory.lsq.head k)).exec = true ∧
        (memory.lsq.entries (advance memory.lsq.head k)).exceptionVld = false
  lock : memory.lsq.exceptionLock = true → 0 < length ∧ memory.lsq.headEntry.exceptionVld = true
  owner : ∀ request, memory.cache.first = some request → request.live = true →
    Owns memory.lsq request false
  flying : ∀ request ∈ memory.flying, Owns memory.lsq request true
  apart : (memory.flying.map DcacheRequest.slot).Nodup
  owed : memory.tickets.map Ticket.slot =
    (slots memory.lsq.head length).filter memory.lsq.owed
  tickets : ∀ ticket ∈ memory.tickets, ticket.Matches (memory.lsq.entries ticket.slot)
  robIndex : (memory.tickets.map Ticket.robIndex).Nodup

/-- The order an undisturbed cycle needs. No answer or replay from before a flush arrives; where a
register is answered, no other entry with that register is taken for the answered one, and its load
had no fault before; an `SFENCE.VMA` that the queue does not accept does not enter it; a flushing
fence is issued when the cache could take a store. -/
structure Clean (memory : Memory) (input : MemoryInput) : Prop
    extends Lookups memory input where
  reply : ∀ request, input.reply = some request →
    request.live = true ∧ (memory.lsq.entries request.slot).exceptionVld = false ∧
      ∀ i, memory.lsq.prfWbRdAddrMatch (memory.lsqInput input) i = true →
        i = request.slot ∨ ((memory.lsq.entries i).noPrfWb = true ∧ i < request.slot)
  ack : ∀ request, input.ack = some request → request.live = true
  replay : input.replay = true →
    ∀ request, memory.cache.second = some request → request.live = true
  room : memory.lsq.enque (memory.lsqInput input) = true → memory.lsq.sfenceVmaAsidVldQ = true →
    input.request.isSfenceVma = false
  fence : memory.lsq.stIssVld (memory.lsqInput input) = true →
    memory.lsq.issuedEntry.isFlush = true → input.stReqRdy = true

section Cycle

variable {memory : Memory} {input : MemoryInput} {length passed : Nat}

theorem mem_flying {request : DcacheRequest} : request ∈ memory.flying ↔
    (request ∈ memory.cache.waiting ∨
      (memory.cache.second = some request ∧ memory.lsu.l1dKillReqQ = false)) ∧
    request.live = true := by
  simp only [flying, List.mem_filter, List.mem_append, Option.mem_toList,
    Option.filter_eq_some_iff, Bool.not_eq_true']

theorem mem_answerable {request : DcacheRequest} : request ∈ memory.answerable input ↔
    request ∈ memory.cache.waiting ∨
      (memory.cache.second = some request ∧ memory.dropped input request = false) := by
  simp only [answerable, List.mem_append, Option.mem_toList,
    Option.filter_eq_some_iff, Bool.not_eq_true']

theorem answerable_flying {request : DcacheRequest} (member : request ∈ memory.answerable input)
    (live : request.live = true) : request ∈ memory.flying := by
  refine mem_flying.mpr ⟨(mem_answerable.mp member).imp id fun ⟨same, kept⟩ => ⟨same, ?_⟩, live⟩
  simp only [dropped, Bool.or_eq_false_iff] at kept
  exact kept.1

/-- Outside the flushing fences an entry is done when it is answered. -/
theorem succVld_of_wbVld {lsq : Lsq} {input : LsqInput} {i : LsqIndex}
    (plain : (lsq.entries i).isFlush = false) : lsq.succVld input i = lsq.wbVld input i := by
  cases fence : (lsq.entries i).isFenceReq with
  | false => simp [Lsq.succVld, fence]
  | true =>
    have opcode : (lsq.entries i).opcode = Stu.fence := by
      simpa [LsqEntry.isFlush, fence] using plain
    have other : (Stu.fence == Stu.sfenceVma) = false ∧ (Stu.fence == Stu.fenceI) = false := by
      decide
    simp [Lsq.succVld, fence, opcode, other.1, other.2]

namespace Sound

variable (sound : Sound memory length passed) (contract : Contract memory input)
  (clean : Clean memory input)
include sound

theorem prfWbVld_eq : (memory.lsqInput input).prfWbVld = input.reply.isSome :=
  sound.quiet.prfWbVld_eq _

omit sound in
theorem prfWbRdAddr_eq {request : DcacheRequest} (reply : input.reply = some request) :
    (memory.lsqInput input).prfWbRdAddr = request.rdAddr := by
  refine (Lsu.Quiet.prfWbRdAddr_eq input.lsuInput ?_).trans ?_
  · simp [MemoryInput.lsuInput, MemoryInput.wires, reply]
  · simp [MemoryInput.lsuInput, MemoryInput.wires, reply]

/-- A load that is sent back is going to be answered otherwise. -/
theorem replayed (replay : memory.lsq.replayVld (memory.lsqInput input) = true)
    (contract : Contract memory input) (clean : Clean memory input) :
    ∃ request, memory.cache.second = some request ∧ request.live = true ∧ request.load = true ∧
      request ∈ memory.flying ∧ Second memory.lsq request := by
  obtain ⟨request, second, live, load, kept, place⟩ :=
    sound.toAligned.replayed replay contract.replay clean.replay
  exact ⟨request, second, live, load, mem_flying.mpr ⟨.inr ⟨second, kept⟩, live⟩, place⟩

/-- While a load is sent back, only older requests are answered. -/
theorem replay_apart (replay : memory.lsq.replayVld (memory.lsqInput input) = true)
    (contract : Contract memory input) (clean : Clean memory input) {request : DcacheRequest}
    (member : request ∈ memory.answerable input) (live : request.live = true) :
    request.slot ≠ memory.lsq.ldIssuedQq := by
  obtain ⟨last, second, lastLive, load, -, place⟩ := sound.replayed replay contract clean
  simp only [Lsq.replayVld, lsqInput_ldReplayVld, Bool.and_eq_true] at replay
  have early : request ∈ memory.cache.waiting := by
    rcases mem_answerable.mp member with early | ⟨same, kept⟩
    · exact early
    · obtain rfl : last = request := Option.some.inj (second.symm.trans same)
      simp [dropped, load, replay.1] at kept
  have kept : memory.lsu.l1dKillReqQ = false := by
    rw [← Bool.not_eq_true]
    intro kill
    have := sound.killed last second lastLive kill
    simp [this] at replay
  have apart := sound.apart
  simp only [Memory.flying, second, kept, List.filter_append, List.map_append, Bool.not_false,
    Option.filter_some, if_true, Option.toList_some, List.filter_cons, lastLive, List.filter_nil,
    List.map_cons, List.map_nil] at apart
  rw [place.slot]
  refine (List.nodup_append.mp apart).2.2 _ ?_ _ (List.mem_singleton.mpr rfl)
  exact List.mem_map_of_mem (List.mem_filter.mpr ⟨early, live⟩)

theorem regular {i : LsqIndex} (vld : (memory.lsq.entries i).vld = true) :
    (memory.lsq.entries i).Regular := by
  obtain ⟨k, inside, rfl⟩ := sound.position vld
  exact ⟨sound.faithful k inside, sound.answered k inside⟩

/-- Every entry that owes a completion has a ticket. -/
theorem ticket_of {i : LsqIndex} (vld : (memory.lsq.entries i).vld = true)
    (owed : memory.lsq.owed i = true) : ∃ ticket ∈ memory.tickets, ticket.slot = i := by
  have member : i ∈ memory.tickets.map Ticket.slot := by
    rw [sound.owed, List.mem_filter]
    exact ⟨(mem_slots _ _ _).mpr (sound.position vld), owed⟩
  obtain ⟨ticket, inside, same⟩ := List.mem_map.mp member
  exact ⟨ticket, inside, same⟩

theorem ticket_vld {ticket : Ticket}
    (member : ticket ∈ memory.tickets) : (memory.lsq.entries ticket.slot).vld = true := by
  have owes : ticket.slot ∈ (slots memory.lsq.head length).filter memory.lsq.owed := by
    rw [← sound.owed]
    exact List.mem_map_of_mem member
  obtain ⟨k, below, place⟩ := (mem_slots _ _ _).mp (List.mem_filter.mp owes).1
  have room := sound.window.room
  rw [place]
  exact (sound.window.vld k (by omega)).mpr below

/-- Entries that owe a completion have indices of their own. -/
theorem unique {i j : LsqIndex} (left : (memory.lsq.entries i).vld = true)
    (right : (memory.lsq.entries j).vld = true) (owedLeft : memory.lsq.owed i = true)
    (owedRight : memory.lsq.owed j = true)
    (same : (memory.lsq.entries i).robIndex = (memory.lsq.entries j).robIndex) : i = j := by
  obtain ⟨ticket, inside, rfl⟩ := sound.ticket_of left owedLeft
  obtain ⟨other, inside', rfl⟩ := sound.ticket_of right owedRight
  rw [(sound.tickets ticket inside).robIndex, (sound.tickets other inside').robIndex] at same
  rw [List.inj_on_of_nodup_map sound.robIndex inside inside' same]

/-- A request without an exception that flies owes its completion. -/
theorem flying_owed {request : DcacheRequest} (flying : request ∈ memory.flying)
    (fault : (memory.lsq.entries request.slot).exceptionVld = false) :
    memory.lsq.owed request.slot = true := by
  simp [Lsq.owed, (sound.flying request flying).succ, fault]

/-- A store that answers with its index owes a completion while anything flies. -/
theorem store_owed {request : DcacheRequest} (flying : request ∈ memory.flying) {i : LsqIndex}
    (vld : (memory.lsq.entries i).vld = true)
    (store : (memory.lsq.entries i).noPrfWb = true) : memory.lsq.owed i = true := by
  have ls : (memory.lsq.entries i).ls = true := by
    simp only [LsqEntry.noPrfWb, Bool.and_eq_true] at store
    exact store.1.2
  simp only [Lsq.owed, store, Bool.not_true, Bool.false_and, Bool.not_false, Bool.true_and,
    Bool.not_eq_true', Bool.and_eq_false_iff, beq_eq_false_iff_ne]
  by_contra reported
  simp only [not_or, ne_eq, not_not, Bool.not_eq_false] at reported
  obtain ⟨⟨rfl, fault⟩, -⟩ := reported
  -- nothing was issued behind a store with an exception
  have owns := sound.flying request flying
  obtain ⟨k, inside, same⟩ := sound.position owns.vld
  have executed := (sound.window.exec k inside).mp (same ▸ owns.exec)
  have idle : (memory.lsq.entries memory.lsq.head).exec = false := by
    rw [← Bool.not_eq_true]
    intro exec
    rw [(sound.regular vld).stored ls exec] at fault
    cases fault
  have behind := (sound.window.exec 0 (by omega)).not.mp (by simp [idle])
  obtain ⟨rfl, -⟩ : k = 0 ∧ memory.lsq.flushing = true := by
    rcases executed with early | ⟨rfl, flushing⟩
    · exact absurd (.inl (by omega)) behind
    · rcases Nat.eq_zero_or_pos k with rfl | positive
      · exact ⟨rfl, flushing⟩
      · exact absurd (.inl positive) behind
  have := owns.exec
  rw [same, advance_zero, idle] at this
  cases this

theorem reply_flying {request : DcacheRequest} (reply : input.reply = some request)
    (contract : Contract memory input) (clean : Clean memory input) :
    request ∈ memory.answerable input ∧ request.live = true ∧ request ∈ memory.flying ∧
      (memory.lsq.entries request.slot).exceptionVld = false ∧
      (memory.lsq.entries request.slot).noPrfWb = false := by
  obtain ⟨member, register⟩ := contract.reply request reply
  obtain ⟨live, fault, -⟩ := clean.reply request reply
  have flying := answerable_flying member live
  have answers := (sound.flying request flying).register
  rw [register, eq_comm, Bool.not_eq_true'] at answers
  exact ⟨member, live, flying, fault, answers⟩

theorem ack_flying {request : DcacheRequest} (ack : input.ack = some request)
    (contract : Contract memory input) (clean : Clean memory input) :
    request ∈ memory.answerable input ∧ request.live = true ∧ request ∈ memory.flying ∧
      (memory.lsq.entries request.slot).exceptionVld = false ∧
      (memory.lsq.entries request.slot).noPrfWb = true := by
  obtain ⟨member, register⟩ := contract.ack request ack
  have live := clean.ack request ack
  have flying := answerable_flying member live
  have owns := sound.flying request flying
  have answers := owns.register
  rw [register, eq_comm, Bool.not_eq_false'] at answers
  have ls : (memory.lsq.entries request.slot).ls = true := by
    simp only [LsqEntry.noPrfWb, Bool.and_eq_true] at answers
    exact answers.1.2
  exact ⟨member, live, flying, (sound.regular owns.vld).stored ls owns.exec, answers⟩

/-- Whatever a writeback marks is the entry of a request that is answered in this cycle. -/
theorem marked {i : LsqIndex} (vld : (memory.lsq.entries i).vld = true)
    (wb : memory.lsq.wbVld (memory.lsqInput input) i = true)
    (contract : Contract memory input) (clean : Clean memory input) :
    ∃ request, (input.reply = some request ∨ input.ack = some request) ∧
      request ∈ memory.answerable input ∧ request.live = true ∧ request ∈ memory.flying ∧
      request.slot = i ∧ (memory.lsq.entries i).exceptionVld = false := by
  have ports : (memory.lsqInput input).wb = memory.lsu.wbPorts input.lsuInput := rfl
  simp only [Lsq.wbVld, ports, Lsu.wbPorts, MemoryInput.lsuInput, MemoryInput.wires,
    MemoryInput.answerPort, BusCtrl.wbVld, sound.quiet.bus, List.any_cons, List.any_nil,
    sound.prfWbVld_eq, vld, Bool.and_false, Bool.and_true, Bool.or_false, Bool.false_and,
    Bool.or_eq_true, Bool.and_eq_true, Bool.not_eq_true', beq_iff_eq] at wb
  rcases wb with (⟨⟨some, store⟩, same⟩ | ⟨⟨some, store⟩, same⟩) | ⟨⟨register, some⟩, same⟩
  · obtain ⟨request, reply⟩ := Option.isSome_iff_exists.mp some
    obtain ⟨member, live, flying, fault, -⟩ := sound.reply_flying reply contract clean
    have owns := sound.flying request flying
    rw [reply, Option.map_some, Option.getD_some, ← owns.robIndex] at same
    have slot := sound.unique owns.vld vld (sound.flying_owed flying fault)
      (sound.store_owed flying vld store) same
    exact ⟨request, .inl reply, member, live, flying, slot, slot ▸ fault⟩
  · obtain ⟨request, ack⟩ := Option.isSome_iff_exists.mp some
    obtain ⟨member, live, flying, fault, -⟩ := sound.ack_flying ack contract clean
    have owns := sound.flying request flying
    rw [ack, Option.map_some, Option.getD_some, ← owns.robIndex] at same
    have slot := sound.unique owns.vld vld (sound.flying_owed flying fault)
      (sound.store_owed flying vld store) same
    exact ⟨request, .inr ack, member, live, flying, slot, slot ▸ fault⟩
  · obtain ⟨request, reply⟩ := Option.isSome_iff_exists.mp some
    obtain ⟨member, live, flying, fault, -⟩ := sound.reply_flying reply contract clean
    have taken : memory.lsq.prfWbRdAddrMatch (memory.lsqInput input) i = true := by
      simp only [Lsq.prfWbRdAddrMatch, vld, same, Bool.true_and, beq_self_eq_true]
    rcases (clean.reply request reply).2.2 i taken with slot | ⟨store, -⟩
    · exact ⟨request, .inl reply, member, live, flying, slot.symm, slot ▸ fault⟩
    · rw [register] at store
      cases store

/-- What is answered is marked. -/
theorem reply_marks {request : DcacheRequest} (reply : input.reply = some request)
    (contract : Contract memory input) (clean : Clean memory input) :
    memory.lsq.wbVld (memory.lsqInput input) request.slot = true := by
  obtain ⟨-, -, flying, -, register⟩ := sound.reply_flying reply contract clean
  have owns := sound.flying request flying
  simp [Lsq.wbVld, register, owns.vld, sound.prfWbVld_eq, reply, prfWbRdAddr_eq reply, owns.rdAddr]

/-- The head leaves without an exception. -/
theorem deque_fault (deque : memory.lsq.deque (memory.lsqInput input) = true)
    (contract : Contract memory input) (clean : Clean memory input) :
    memory.lsq.headEntry.exceptionVld = false := by
  simp only [Lsq.deque, Bool.and_eq_true, Bool.or_eq_true] at deque
  obtain ⟨⟨⟨vld, -⟩, done⟩, -⟩ := deque
  have regular := sound.regular vld
  cases plain : memory.lsq.headEntry.isFlush with
  | true =>
    simp only [LsqEntry.isFlush, Bool.and_eq_true] at plain
    exact regular.fence plain.1
  | false =>
    rcases done with succ | marked
    · exact (regular.answered plain succ).2
    · rw [succVld_of_wbVld plain] at marked
      obtain ⟨-, -, -, -, -, -, fault⟩ := sound.marked vld marked contract clean
      exact fault

/-- A request that flies is only marked when it is answered. -/
theorem flying_unmarked {request : DcacheRequest} (flying : request ∈ memory.flying)
    (marked : memory.lsq.succVld (memory.lsqInput input) request.slot = true)
    (contract : Contract memory input) (clean : Clean memory input) :
    request ∈ memory.answerable input ∧
      (input.reply = some request ∨ input.ack = some request) := by
  have owns := sound.flying request flying
  rw [succVld_of_wbVld owns.flush] at marked
  obtain ⟨other, answer, member, -, flying', same, -⟩ :=
    sound.marked owns.vld marked contract clean
  obtain rfl := List.inj_on_of_nodup_map sound.apart flying' flying same
  exact ⟨member, answer⟩

/-- An entry that was not executed is not marked. -/
theorem idle_unmarked {i : LsqIndex} (vld : (memory.lsq.entries i).vld = true)
    (plain : (memory.lsq.entries i).isFlush = false)
    (idle : (memory.lsq.entries i).exec = false) (contract : Contract memory input)
    (clean : Clean memory input) :
    memory.lsq.succVld (memory.lsqInput input) i = false := by
  rw [← Bool.not_eq_true]
  intro marked
  rw [succVld_of_wbVld plain] at marked
  obtain ⟨request, -, -, -, flying, rfl, -⟩ := sound.marked vld marked contract clean
  rw [(sound.flying request flying).exec] at idle
  cases idle

theorem steady (contract : Contract memory input) (clean : Clean memory input) :
    Steady memory input where
  replay := clean.replay
  stays := by
    intro replay deque same
    obtain ⟨last, -, live, -, flying, place⟩ := sound.replayed replay contract clean
    have owns := sound.flying last flying
    have head : memory.lsq.head = last.slot := same.symm.trans place.slot
    simp only [Lsq.deque, Lsq.headEntry, head, owns.succ, Bool.false_or, Bool.and_eq_true] at deque
    obtain ⟨member, -⟩ := sound.flying_unmarked flying deque.1.2 contract clean
    exact sound.replay_apart replay contract clean member live place.slot.symm
  fence := fun _ => clean.fence

theorem paced (contract : Contract memory input) (clean : Clean memory input) :
    memory.lsq.Paced (memory.lsqInput input) length passed :=
  sound.toAligned.paced contract.replay (sound.steady contract clean)

end Sound

end Cycle

end Memory

end GreenRio
