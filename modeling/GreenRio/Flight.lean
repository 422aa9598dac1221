import GreenRio.Answers

set_option autoImplicit false

namespace GreenRio

open Circular

/-- An entry that stays unmarked still belongs to its request. -/
theorem Owns.step {lsq : Lsq} {input : LsqInput} {request : DcacheRequest} {exec exec' : Bool}
    {counter : Counter2} (owns : Owns lsq request exec) (running : input.flush = false)
    (init : (lsq.entryPorts input request.slot).init = false)
    (invld : (lsq.entryPorts input request.slot).invld = false)
    (unmarked : lsq.succVld input request.slot = false)
    (executed : ((lsq.step counter input).entries request.slot).exec = exec') :
    Owns (lsq.step counter input) request exec' := by
  have still : (lsq.entryPorts input request.slot).succ = false := unmarked
  have kept : (lsq.entries request.slot).step (lsq.entryPorts input request.slot) = _ :=
    LsqEntry.step_kept init
  refine ⟨?_, ?_, ?_, ?_, ?_, ?_, executed, ?_⟩
  all_goals rw [Lsq.step_entries running, kept]
  · simp [owns.vld, invld]
  · exact owns.robIndex
  · exact owns.rdAddr
  · exact owns.ls
  · simpa [LsqEntry.noPrfWb, invld] using owns.register
  · exact owns.flush
  · simp [owns.succ, still]

namespace Memory

section Cycle

variable {memory : Memory} {input : MemoryInput} {length passed : Nat} {counter : Counter2}

theorem unanswered_sublist (requests : List DcacheRequest) (answer : Option DcacheRequest) :
    (unanswered requests answer).Sublist requests := by
  cases answer with
  | none => exact List.Sublist.refl _
  | some request => exact List.erase_sublist

theorem answerable_sublist :
    ((memory.answerable input).filter fun request => request.live).Sublist memory.flying := by
  refine List.Sublist.filter _ (List.Sublist.append (List.Sublist.refl _) ?_)
  cases second : memory.cache.second with
  | none => exact List.Sublist.refl _
  | some request =>
    cases kill : memory.lsu.l1dKillReqQ with
    | false =>
      simp only [Bool.not_false, Option.filter_some, if_true, Option.toList_some]
      split
      · exact List.Sublist.refl _
      · exact List.nil_sublist _
    | true => simp [dropped, kill]

namespace Sound

variable (sound : Sound memory length passed) (contract : Contract memory input)
  (clean : Clean memory input)
include sound contract clean

/-- A replay concerns no entry that is done or answered. -/
theorem done_unreplayed {i : LsqIndex} (vld : (memory.lsq.entries i).vld = true)
    (plain : (memory.lsq.entries i).isFlush = false)
    (done : (memory.lsq.entries i).succ = true ∨
      memory.lsq.succVld (memory.lsqInput input) i = true) :
    (memory.lsq.entryPorts (memory.lsqInput input) i).replay = false := by
  rw [← Bool.not_eq_true]
  intro replay
  simp only [Lsq.entryPorts, Bool.and_eq_true, beq_iff_eq] at replay
  obtain ⟨replay, rfl⟩ := replay
  rcases done with succ | marked
  · obtain ⟨last, -, -, -, flying, place⟩ := sound.replayed replay contract clean
    have unanswered := (sound.flying last flying).succ
    rw [← place.slot, succ] at unanswered
    cases unanswered
  · rw [succVld_of_wbVld plain] at marked
    obtain ⟨request, -, member, live, -, same, -⟩ := sound.marked vld marked contract clean
    exact sound.replay_apart replay contract clean member live same

omit clean in
/-- An entry that stays still says what its ticket says. -/
theorem matches_kept {ticket : Ticket} (member : ticket ∈ memory.tickets)
    (vld : (memory.lsq.entries ticket.slot).vld = true)
    (kept : (memory.lsq.entryPorts (memory.lsqInput input) ticket.slot).init = false) :
    (memory.blamed input ticket).Matches ((memory.lsq.entries ticket.slot).step
      (memory.lsq.entryPorts (memory.lsqInput input) ticket.slot)) := by
  have said := sound.tickets ticket member
  rw [LsqEntry.step_kept kept]
  have slot : (memory.blamed input ticket).slot = ticket.slot ∧
      (memory.blamed input ticket).robIndex = ticket.robIndex ∧
      (memory.blamed input ticket).vaddr = ticket.vaddr := by
    rw [blamed]
    split <;> exact ⟨rfl, rfl, rfl⟩
  refine ⟨slot.2.1 ▸ said.robIndex, slot.2.2 ▸ said.index, slot.2.2 ▸ said.offset, ?_, ?_⟩
  · rw [slot.2.2]
    intro virtual
    cases answer : (memory.lsq.entryPorts (memory.lsqInput input) ticket.slot).dtlbVld with
    | false =>
      simp only [answer, Bool.false_eq_true, if_false] at virtual ⊢
      exact said.tag virtual
    | true =>
      simp only [Lsq.entryPorts, lsqInput_dtlb, Bool.and_eq_true, beq_iff_eq] at answer
      obtain ⟨answer, place⟩ := answer
      obtain ⟨-, known⟩ := sound.answer_asked contract.toTranslates answer vld
      have back : memory.lsq.dtlbVirt (memory.lsqInput input) = true := by
        rcases virtual with load | virt
        · have load' : memory.lsq.issuedEntry.ls = false := by
            rw [Lsq.issuedEntry, ← place]
            exact load
          simp [Lsq.dtlbVirt, load']
        · simpa [Lsq.entryPorts, answer, place] using virt
      have untranslated : (memory.lsq.entries ticket.slot).ls = false ∨
          (memory.lsq.entries ticket.slot).virt = true := by
        rw [place, ← Lsq.issuedEntry]
        cases store : memory.lsq.issuedEntry.ls with
        | false => exact .inl rfl
        | true => exact .inr (known.store store).1
      rw [← said.tag untranslated, place, ← Lsq.issuedEntry, known.tag]
      simp [Lsq.entryPorts, answer, back]
  · cases answer : input.dtlb.vld with
    | false =>
      simp [blamed, Lsq.entryPorts, answer, said.fault]
    | true =>
      obtain ⟨asked, known⟩ := sound.answer_asked contract.toTranslates answer vld
      by_cases place : memory.lsq.issued = ticket.slot
      · cases fault : input.dtlb.exceptionVld with
        | false => simp [blamed, Lsq.entryPorts, fault, said.fault]
        | true => simp [blamed, Lsq.entryPorts, answer, fault, asked, place, known.vld]
      · simp [blamed, Lsq.entryPorts, asked, place, Ne.symm place, said.fault]

omit contract in
/-- The queue takes a request exactly when it is handed over. -/
theorem accepts_eq : memory.accepts input = memory.lsq.enque (memory.lsqInput input) := by
  have window := sound.window
  have full := window.occupied.tail_vld
  have ends := window.occupied.head_eq_tail
  -- the handshake does not look at the misalignment check
  have rdy : memory.lsu.rdy input.lsuInput = memory.lsq.rdy (memory.lsqInput input) := rfl
  have taken : memory.lsq.enque (memory.lsqInput input) = true →
      ((memory.lsqInput input).sfenceVma && memory.lsq.sfenceVmaAsidVldQ) = false := by
    intro enque
    rw [← Bool.not_eq_true, Bool.and_eq_true]
    rintro ⟨sfence, busy⟩
    simp only [LsqInput.sfenceVma, lsqInput_request, Bool.and_eq_true,
      clean.room enque busy] at sfence
    cases sfence.2
  have same : memory.lsq.head = memory.lsq.tail → memory.lsq.headEntry.vld = false →
      (memory.lsq.entries memory.lsq.tail).vld = false := by
    intro same empty
    rw [← same]
    exact empty
  have apart : memory.lsq.head ≠ memory.lsq.tail →
      (memory.lsq.entries memory.lsq.tail).vld = false := by
    intro apart
    rw [← Bool.not_eq_true]
    exact fun vld => apart (ends.mpr (.inr (full.mp vld)))
  have free : (memory.lsq.entries memory.lsq.tail).vld = false →
      memory.lsq.head ≠ memory.lsq.tail ∨ memory.lsq.headEntry.vld = false := by
    intro free
    by_contra wrong
    simp only [ne_eq, not_or, not_not, Bool.not_eq_false] at wrong
    rw [← wrong.1] at free
    change memory.lsq.headEntry.vld = false at free
    rw [wrong.2] at free
    cases free
  rw [Bool.eq_iff_iff]
  constructor
  · intro accepts
    simp only [Memory.accepts, rdy, Lsq.rdy, Bool.and_eq_true, Bool.or_eq_true, beq_iff_eq,
      bne_iff_ne, Bool.not_eq_true'] at accepts
    simp only [Lsq.enque, Lsq.wbEnqueBypass, lsqInput_vld, accepts.1, Bool.true_and,
      Bool.or_eq_true, Bool.not_eq_true', Bool.and_eq_true, beq_iff_eq]
    rcases accepts.2.1 with (off | leaves) | ⟨on, empty⟩
    · exact .inl (apart off)
    · exact .inr leaves
    · exact .inl (same on empty)
  · intro enque
    have admitted := taken enque
    simp only [Lsq.enque, Lsq.wbEnqueBypass, lsqInput_vld, Bool.and_eq_true, Bool.or_eq_true,
      Bool.not_eq_true', beq_iff_eq] at enque
    simp only [Memory.accepts, rdy, Lsq.rdy, enque.1, admitted, Bool.true_and, Bool.not_false,
      Bool.and_true, Bool.or_eq_true, Bool.and_eq_true, beq_iff_eq, bne_iff_ne, Bool.not_eq_true']
    rcases enque.2 with empty | leaves
    · by_cases on : memory.lsq.head = memory.lsq.tail
      · exact .inr ⟨on, (free empty).resolve_left (not_not.mpr on)⟩
      · exact .inl (.inl on)
    · exact .inl (.inr leaves)

omit contract in
/-- A new entry says what its ticket says. -/
theorem enters_matches (enque : memory.lsq.enque (memory.lsqInput input) = true) :
    (memory.ticket input).Matches ((memory.lsq.entries memory.lsq.tail).step
      (memory.lsq.entryPorts (memory.lsqInput input) memory.lsq.tail)) := by
  have init : (memory.lsq.entryPorts (memory.lsqInput input) memory.lsq.tail).init = true := by
    simp [Lsq.entryPorts, enque]
  have checked : (memory.lsqInput input).mcExceptionVld = input.request.misaligned := by
    have accepts := sound.accepts_eq clean
    rw [enque] at accepts
    change (memory.accepts input && input.request.misaligned) = _
    rw [accepts, Bool.true_and]
  rw [LsqEntry.step_init init]
  refine ⟨rfl, rfl, rfl, fun _ => rfl, ?_⟩
  simp only [ticket, Lsq.entryPorts, checked]
  cases input.request.misaligned <;> rfl

variable (running : input.flush = false)
include running

/-- Only what was issued is answered, without an exception. -/
theorem step_answered {k : Nat} (inside : k + (memory.lsq.deque (memory.lsqInput input)).toNat <
      length + (memory.lsq.enque (memory.lsqInput input)).toNat) (below : k < 8) :
    ((memory.lsq.step counter (memory.lsqInput input)).entries
        (advance (memory.lsq.step counter (memory.lsqInput input)).head k)).isFlush = false →
      ((memory.lsq.step counter (memory.lsqInput input)).entries
        (advance (memory.lsq.step counter (memory.lsqInput input)).head k)).succ = true →
      ((memory.lsq.step counter (memory.lsqInput input)).entries
          (advance (memory.lsq.step counter (memory.lsqInput input)).head k)).exec = true ∧
        ((memory.lsq.step counter (memory.lsqInput input)).entries
          (advance (memory.lsq.step counter (memory.lsqInput input)).head k)).exceptionVld =
            false := by
  have window := sound.window
  rw [Lsq.step_at running]
  generalize place : advance memory.lsq.head
    (k + (memory.lsq.deque (memory.lsqInput input)).toNat) = i
  cases init : (memory.lsq.entryPorts (memory.lsqInput input) i).init with
  | true =>
    rw [LsqEntry.step_init init]
    intro _ succ
    cases succ
  | false =>
    have kept := init
    rw [← place] at kept
    have other := (window.occupied.init_iff below).not.mp (Bool.eq_false_iff.mp kept)
    have behind : k + (memory.lsq.deque (memory.lsqInput input)).toNat < length := by
      cases enque : memory.lsq.enque (memory.lsqInput input) <;>
        simp only [enque, Bool.toNat_true, Bool.toNat_false, true_and] at inside other <;> omega
    have room := window.room
    have vld : (memory.lsq.entries i).vld = true :=
      place ▸ (window.vld _ (by omega)).mpr behind
    rw [LsqEntry.step_kept init]
    intro plain succ
    change (memory.lsq.entries i).isFlush = false at plain
    simp only [Bool.or_eq_true] at succ
    have done : (memory.lsq.entries i).exec = true ∧
        (memory.lsq.entries i).exceptionVld = false := by
      rcases succ with succ | marked
      · exact (sound.regular vld).answered plain succ
      · change memory.lsq.succVld (memory.lsqInput input) i = true at marked
        rw [succVld_of_wbVld plain] at marked
        obtain ⟨request, -, -, -, flying, rfl, fault⟩ := sound.marked vld marked contract clean
        exact ⟨(sound.flying request flying).exec, fault⟩
    have still := sound.done_unreplayed contract clean vld plain succ
    have silent : (memory.lsq.entryPorts (memory.lsqInput input) i).dtlbVld = false := by
      rw [← Bool.not_eq_true]
      intro answer
      simp only [Lsq.entryPorts, lsqInput_dtlb, Bool.and_eq_true, beq_iff_eq] at answer
      obtain ⟨answer, rfl⟩ := answer
      have idle := (sound.answer_asked contract.toTranslates answer vld).2.exec
      rw [Lsq.issuedEntry, done.1] at idle
      cases idle
    simp [done.1, done.2, still, silent]


/-- The entry of a load that the cache accepts. -/
theorem owner_load (load : memory.lsq.ldReqVld (memory.lsqInput input) = true) :
    Owns (memory.lsq.step counter (memory.lsqInput input))
      { slot := memory.lsq.target (memory.lsqInput input)
        robIndex := memory.lsq.ldReqRobIndex (memory.lsqInput input)
        rdAddr := memory.lsq.ldReqRdAddr (memory.lsqInput input)
        load := true
        register := true
        live := true } false := by
  have window := sound.window
  have paced := sound.paced contract clean
  have room := window.room
  have issue : memory.lsq.ldIssVld (memory.lsqInput input) = true := by
    simpa [Lsq.ldReqVld] using load
  obtain ⟨k, moved, place, stays, kind⟩ := window.load_target paced issue
  have calm : (memory.lsq.step counter (memory.lsqInput input)).flushing = false := by
    refine sound.toAligned.calm_target contract.replay (sound.steady contract clean) running moved
      place fun inside => ?_
    rcases kind with ⟨-, ls, -⟩ | ⟨last, -⟩
    · simp [LsqEntry.isFlush, LsqEntry.isFenceReq, ls]
    · omega
  have slot : memory.lsq.target (memory.lsqInput input) =
      (memory.lsq.step counter (memory.lsqInput input)).issued :=
    sound.toAligned.target_issued contract.replay (sound.steady contract clean) running moved place
  obtain ⟨length', passed', window', lengths, counts⟩ : ∃ length' passed',
      (memory.lsq.step counter (memory.lsqInput input)).Window length' passed' ∧ _ ∧ _ :=
    window.step_window paced running
  have inside' : passed' < length' := by
    rcases kind with ⟨inside, -⟩ | ⟨last, enque, -⟩
    · omega
    · rw [enque, Bool.toNat_true] at lengths
      omega
  have idle : ((memory.lsq.step counter (memory.lsqInput input)).entries
      (memory.lsq.target (memory.lsqInput input))).exec = false := by
    rw [slot, ← Bool.not_eq_true, window'.issued, window'.exec passed' inside', calm]
    simp
  rcases kind with ⟨inside, ls, source⟩ | ⟨last, enque, ls, replay, taken⟩
  · have vld : (memory.lsq.entries (memory.lsq.target (memory.lsqInput input))).vld = true := by
      rw [place]
      exact (window.vld k (by omega)).mpr inside
    have plain : (memory.lsq.entries
        (memory.lsq.target (memory.lsqInput input))).isFlush = false := by
      simp [LsqEntry.isFlush, LsqEntry.isFenceReq, ls]
    obtain ⟨init, invld⟩ := window.kept inside stays
    rw [← place] at init invld
    -- neither a load that comes back nor one that was not issued has been answered
    have fresh : (memory.lsq.entries (memory.lsq.target (memory.lsqInput input))).succ = false ∧
        memory.lsq.succVld (memory.lsqInput input)
          (memory.lsq.target (memory.lsqInput input)) = false := by
      rcases source with replay | ⟨-, idle, -⟩
      · obtain ⟨request, -, live, -, flying, last⟩ := sound.replayed replay contract clean
        have same : memory.lsq.target (memory.lsqInput input) = request.slot := by
          rw [← last.slot]
          simp [Lsq.target, replay]
        rw [same]
        refine ⟨(sound.flying request flying).succ, ?_⟩
        rw [← Bool.not_eq_true]
        intro marked
        obtain ⟨member, -⟩ := sound.flying_unmarked flying marked contract clean
        exact sound.replay_apart replay contract clean member live last.slot.symm
      · refine ⟨?_, sound.idle_unmarked vld plain idle contract clean⟩
        rw [← Bool.not_eq_true]
        intro succ
        rw [((sound.regular vld).answered plain succ).1] at idle
        cases idle
    have known : memory.lsq.ldReqRobIndex (memory.lsqInput input) =
          (memory.lsq.entries (memory.lsq.target (memory.lsqInput input))).robIndex ∧
        memory.lsq.ldReqRdAddr (memory.lsqInput input) =
          (memory.lsq.entries (memory.lsq.target (memory.lsqInput input))).rdAddr := by
      rcases source with replay | ⟨own, -, -⟩
      · simp [Lsq.ldReqRobIndex, Lsq.ldReqRdAddr, Lsq.target, replay]
      · cases replay : memory.lsq.replayVld (memory.lsqInput input) <;>
          simp [Lsq.ldReqRobIndex, Lsq.ldReqRdAddr, Lsq.target, replay, own]
    have owns : Owns memory.lsq
        { slot := memory.lsq.target (memory.lsqInput input)
          robIndex := memory.lsq.ldReqRobIndex (memory.lsqInput input)
          rdAddr := memory.lsq.ldReqRdAddr (memory.lsqInput input)
          load := true
          register := true
          live := true }
        (memory.lsq.entries (memory.lsq.target (memory.lsqInput input))).exec :=
      ⟨vld, known.1.symm, known.2.symm, ls, by simp [LsqEntry.noPrfWb, ls], plain, rfl, fresh.1⟩
    exact owns.step running init invld fresh.2 idle
  · have init : (memory.lsq.entryPorts (memory.lsqInput input)
        (memory.lsq.target (memory.lsqInput input))).init = true := by
      simp [Lsq.entryPorts, enque, place, last, window.tail]
    rw [lsqInput_request] at ls
    refine ⟨?_, ?_, ?_, ?_, ?_, ?_, idle, ?_⟩
    all_goals rw [Lsq.step_entries running, LsqEntry.step_init init]
    · simp [Lsq.entryPorts, Lsq.ldReqRobIndex, replay, taken]
    · simp [Lsq.entryPorts, Lsq.ldReqRdAddr, replay, taken]
    · simp [Lsq.entryPorts, ls]
    · simp [Lsq.entryPorts, LsqEntry.noPrfWb, ls]
    · simp [Lsq.entryPorts, LsqEntry.isFlush, LsqEntry.isFenceReq, ls]

/-- The entry of a store-class request that the cache accepts. -/
theorem owner_store (store : memory.lsq.stReqVld (memory.lsqInput input) = true) :
    Owns (memory.lsq.step counter (memory.lsqInput input))
      { slot := memory.lsq.issued
        robIndex := memory.lsq.issuedEntry.robIndex
        rdAddr := memory.lsq.issuedEntry.rdAddr
        load := false
        register := !memory.lsq.issuedEntry.noPrfWb
        live := true } false := by
  have window := sound.window
  have paced := sound.paced contract clean
  have room := window.room
  simp only [Lsq.stReqVld, Bool.and_eq_true, Bool.or_eq_true, Bool.not_eq_true', beq_iff_eq]
    at store
  obtain ⟨⟨⟨issue, -⟩, -⟩, cached⟩ := store
  obtain ⟨⟨inside, -⟩, succ, replay, -⟩ := window.issue_passed issue
  have stays := fun deque => window.deque_behind paced deque succ
  obtain ⟨init, invld⟩ := window.kept inside stays
  rw [← window.issued] at init invld
  have vld := window.issued_vld inside
  have plain : memory.lsq.issuedEntry.isFlush = false := by
    rcases cached with other | same
    · simp [LsqEntry.isFlush, other]
    · simp [LsqEntry.isFlush, same]
  have ready' : memory.lsq.issuedEntry.ls = true ∧ memory.lsq.issuedEntry.exec = false := by
    simp only [Lsq.stIssVld, Bool.and_eq_true, Bool.not_eq_true'] at issue
    exact ⟨issue.1.1.1.1.1.1.2, issue.2⟩
  have calm : (memory.lsq.step counter (memory.lsqInput input)).flushing = false := by
    rw [← Bool.not_eq_true, window.step_flushing paced running]
    rintro ⟨-, flush⟩
    rw [plain] at flush
    cases flush
  obtain ⟨length', passed', window', lengths, counts⟩ : ∃ length' passed',
      (memory.lsq.step counter (memory.lsqInput input)).Window length' passed' ∧ _ ∧ _ :=
    window.step_window paced running
  rw [succ, replay] at counts
  have slot : memory.lsq.issued = (memory.lsq.step counter (memory.lsqInput input)).issued := by
    rw [window.step_issued paced running, succ, replay, window.issued]
    rfl
  have idle : ((memory.lsq.step counter (memory.lsqInput input)).entries
      memory.lsq.issued).exec = false := by
    have inside' : passed' < length' := by
      simp only [Bool.toNat_false, Nat.add_zero] at counts
      omega
    rw [slot, ← Bool.not_eq_true, window'.issued, window'.exec passed' inside', calm]
    simp
  have unanswered : memory.lsq.issuedEntry.succ = false := by
    rw [← Bool.not_eq_true]
    intro answered
    have := ((sound.regular vld).answered plain answered).1
    rw [← Lsq.issuedEntry, ready'.2] at this
    cases this
  have owns : Owns memory.lsq
      { slot := memory.lsq.issued
        robIndex := memory.lsq.issuedEntry.robIndex
        rdAddr := memory.lsq.issuedEntry.rdAddr
        load := false
        register := !memory.lsq.issuedEntry.noPrfWb
        live := true } memory.lsq.issuedEntry.exec :=
    ⟨vld, rfl, rfl, ready'.1, rfl, plain, rfl, unanswered⟩
  have unmarked := sound.idle_unmarked vld plain ready'.2 contract clean
  exact owns.step running init invld unmarked idle

/-- The entry of what the cache accepts in a cycle. -/
theorem step_owner {request : DcacheRequest}
    (accepted : (memory.step counter input).cache.first = some request) :
    Owns (memory.step counter input).lsq request false := by
  simp only [step, cacheNext, Option.map_eq_some_iff] at accepted
  obtain ⟨fresh, accepted, rfl⟩ := accepted
  simp only [Memory.accepted] at accepted
  split at accepted
  · rename_i load
    rw [Bool.and_eq_true] at load
    obtain rfl := Option.some.inj accepted
    simpa [aged, running] using sound.owner_load contract clean running load.1
  · split at accepted
    · rename_i store
      rw [Bool.and_eq_true] at store
      obtain rfl := Option.some.inj accepted
      simpa [aged, running] using sound.owner_store contract clean running store.1
    · cases accepted

omit contract clean running in
/-- A request of the running instructions is answered once. -/
theorem answered_once {request : DcacheRequest} (live : request.live = true) :
    request ∉ (memory.answerable input).erase request := by
  intro member
  have kept : request ∈ ((memory.answerable input).filter fun request => request.live).erase
      request := by
    rw [List.erase_filter, List.mem_filter]
    exact ⟨member, live⟩
  have distinct : ((memory.answerable input).filter fun request => request.live).Nodup :=
    (List.Nodup.of_map _ sound.apart).sublist answerable_sublist
  exact distinct.not_mem_erase kept

omit contract clean in
/-- What still waits after a cycle was not answered in it. -/
theorem step_waiting {request : DcacheRequest}
    (waiting : request ∈ (memory.step counter input).cache.waiting)
    (live : request.live = true) :
    request ∈ memory.answerable input ∧ input.reply ≠ some request ∧
      input.ack ≠ some request := by
  simp only [step, cacheNext, List.mem_map] at waiting
  obtain ⟨old, member, rfl⟩ := waiting
  have same : aged input.flush old = old := by simp [aged, running]
  rw [same] at live ⊢
  have early := (unanswered_sublist _ _).subset member
  refine ⟨(unanswered_sublist _ _).subset early, fun reply => ?_, fun ack => ?_⟩
  · rw [reply] at early
    exact sound.answered_once live early
  · rw [ack] at member
    exact sound.answered_once live ((unanswered_sublist _ _).erase _ |>.subset member)

/-- A request that goes on waiting keeps its entry. -/
theorem waits {request : DcacheRequest} (member : request ∈ memory.answerable input)
    (live : request.live = true) (reply : input.reply ≠ some request)
    (ack : input.ack ≠ some request) :
    Owns (memory.lsq.step counter (memory.lsqInput input)) request true := by
  have flying := answerable_flying member live
  have owns := sound.flying request flying
  have unmarked : memory.lsq.succVld (memory.lsqInput input) request.slot = false := by
    rw [← Bool.not_eq_true]
    intro marked
    obtain ⟨-, answer | answer⟩ := sound.flying_unmarked flying marked contract clean
    · exact reply answer
    · exact ack answer
  obtain ⟨k, inside, place⟩ := sound.position owns.vld
  have stays : memory.lsq.deque (memory.lsqInput input) = true → 0 < k := by
    intro deque
    rcases Nat.eq_zero_or_pos k with rfl | positive
    · rw [advance_zero] at place
      simp only [Lsq.deque, Lsq.headEntry, ← place, owns.succ, unmarked, Bool.or_false,
        Bool.and_false, Bool.false_and, Bool.false_eq_true] at deque
    · exact positive
  obtain ⟨init, invld⟩ := sound.window.kept inside stays
  rw [← place] at init invld
  refine owns.step running init invld unmarked ?_
  have still : (memory.lsq.entryPorts (memory.lsqInput input) request.slot).replay = false := by
    rw [← Bool.not_eq_true]
    intro replay
    simp only [Lsq.entryPorts, Bool.and_eq_true, beq_iff_eq] at replay
    exact sound.replay_apart replay.1 contract clean member live replay.2
  rw [Lsq.step_entries running, LsqEntry.step_kept init]
  simp [still, owns.exec]

/-- The entry of the request accepted in the last cycle, after a cycle that does not kill it. -/
theorem step_passed {request : DcacheRequest}
    (second : (memory.step counter input).cache.second = some request)
    (live : request.live = true) (kept : memory.lsu.killReqD input.lsuInput = false) :
    Owns (memory.step counter input).lsq request true ∧
      (memory.lsq.entries request.slot).exec = false := by
  have steady := sound.steady contract clean
  obtain ⟨first, translated, kill, -⟩ :=
    sound.toAligned.step_second contract.replay steady running second live
  rw [kill] at kept
  obtain ⟨init, invld, exec, -⟩ : _ ∧ _ ∧
      ((memory.lsq.step counter (memory.lsqInput input)).entries request.slot).exec = true ∧ _ :=
    sound.toAligned.passes contract.replay steady running first live translated kept
  have owns := sound.owner request first live
  have unmarked := sound.idle_unmarked owns.vld owns.flush owns.exec contract clean
  exact ⟨owns.step running init invld unmarked exec, owns.exec⟩

omit sound contract clean in
theorem waiting_sublist :
    (memory.step counter input).cache.waiting.Sublist (memory.answerable input) := by
  have same : aged input.flush = id := by
    funext request
    simp [aged, running]
  simp only [step, cacheNext, same, List.map_id]
  exact (unanswered_sublist _ _).trans (unanswered_sublist _ _)

theorem step_flying {request : DcacheRequest}
    (flying : request ∈ (memory.step counter input).flying) :
    Owns (memory.step counter input).lsq request true := by
  obtain ⟨waiting | ⟨second, kept⟩, live⟩ := mem_flying.mp flying
  · obtain ⟨member, reply, ack⟩ := sound.step_waiting running waiting live
    exact sound.waits contract clean running member live reply ack
  · exact (sound.step_passed contract clean running second live kept).1

/-- No two requests fly for one entry. -/
theorem step_apart :
    ((memory.step counter input).flying.map DcacheRequest.slot).Nodup := by
  rw [Memory.flying, List.filter_append, List.map_append, List.nodup_append]
  refine ⟨?_, ?_, ?_⟩
  · have less : ((memory.step counter input).cache.waiting.filter fun request =>
        request.live).Sublist memory.flying :=
      ((waiting_sublist running).filter _).trans answerable_sublist
    exact sound.apart.sublist (less.map _)
  · cases (memory.step counter input).cache.second.filter fun _ =>
        !(memory.step counter input).lsu.l1dKillReqQ with
    | none => exact List.nodup_nil
    | some request =>
      simp only [Option.toList_some, List.filter_cons, List.filter_nil]
      split <;> simp
  · intro slot early other late same
    subst same
    obtain ⟨request, waiting, rfl⟩ := List.mem_map.mp early
    obtain ⟨last, newest, same⟩ := List.mem_map.mp late
    rw [List.mem_filter] at waiting newest
    obtain ⟨second, kept⟩ : (memory.step counter input).cache.second = some last ∧
        (memory.step counter input).lsu.l1dKillReqQ = false := by
      simpa [Option.mem_toList, Option.filter_eq_some_iff] using newest.1
    have idle := (sound.step_passed contract clean running second newest.2 kept).2
    have member := (sound.step_waiting running waiting.1 waiting.2).1
    rw [same, (sound.flying request (answerable_flying member waiting.2)).exec] at idle
    cases idle

end Sound

end Cycle

end Memory

end GreenRio
