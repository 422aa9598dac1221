import GreenRio.Aligned

set_option autoImplicit false

namespace GreenRio

open Circular

/-- What keeps an entry's exception and its translation apart: no fence has an exception, a store or
an atomic operation with one was not translated and is not issued, and a virtual tag is kept. -/
structure LsqEntry.Faithful (entry : LsqEntry) : Prop where
  fence : entry.isFenceReq = true → entry.exceptionVld = false
  fault : entry.ls = true → entry.exceptionVld = true → entry.virt = true
  stored : entry.ls = true → entry.exec = true → entry.exceptionVld = false
  tag : entry.ls = false ∨ entry.virt = true →
    (entry.tag.setWidth 27).setWidth 44 = entry.tag

theorem LsuRequest.fence_aligned {request : LsuRequest} (fence : request.isFenceReq = true) :
    request.misaligned = false := by
  simp only [LsuRequest.isFenceReq, Bool.and_eq_true, Bool.or_eq_true, beq_iff_eq] at fence
  obtain ⟨ls, (same | same) | same⟩ := fence <;>
    simp [LsuRequest.misaligned, ls, same, Stu.fence, Stu.sfenceVma, Stu.fenceI, Stu.sh, Stu.sw,
      Stu.scw, Stu.lrw, Stu.sd, Stu.scd, Stu.lrd, Stu.amoWord, Stu.amoDouble]

namespace Memory

/-- The entry the translation is working for, at the issue pointer. -/
structure Asked (lsq : Lsq) (slot : LsqIndex) : Prop where
  slot : slot = lsq.issued
  vld : lsq.issuedEntry.vld = true
  exec : lsq.issuedEntry.exec = false
  store : lsq.issuedEntry.ls = true →
    lsq.issuedEntry.virt = true ∧ lsq.issuedEntry.isFenceReq = false ∧
      lsq.issuedEntry.exceptionVld = false
  tag : lsq.issuedEntry.tag = lsq.dtlbVtagQ.setWidth 44

/-- The translation works for the entry at the issue pointer, and what is issued as a store has been
translated. -/
structure Looked (memory : Memory) (length passed : Nat) : Prop
    extends Aligned memory length passed where
  faithful : ∀ k < length, (memory.lsq.entries (advance memory.lsq.head k)).Faithful
  asked : ∀ slot, memory.asked = some slot → length = 0 ∨ Asked memory.lsq slot
  real : memory.lsq.l1dStIssVldQ = true →
    memory.lsq.issuedEntry.virt = false ∨ memory.lsq.issuedEntry.isFenceReq = true

/-- The translation is asked only for what is not translated and has no exception. -/
structure Lookups (memory : Memory) (input : MemoryInput) : Prop where
  enters : memory.lsq.dtlbIssVld (memory.lsqInput input) = true →
    memory.lsq.enque (memory.lsqInput input) = true →
    memory.lsq.target (memory.lsqInput input) = memory.lsq.tail → input.request.isFenceReq = false
  lookup : memory.lsq.dtlbIssVld (memory.lsqInput input) = true →
    (memory.lsq.enque (memory.lsqInput input) = true →
      memory.lsq.target (memory.lsqInput input) ≠ memory.lsq.tail) →
    (memory.lsq.entries (memory.lsq.target (memory.lsqInput input))).ls = true →
      (memory.lsq.entries (memory.lsq.target (memory.lsqInput input))).virt = true ∧
        (memory.lsq.entries (memory.lsq.target (memory.lsqInput input))).isFenceReq = false ∧
        (memory.lsq.entries (memory.lsq.target (memory.lsqInput input))).exceptionVld = false

instance (memory : Memory) (input : MemoryInput) : Decidable (Lookups memory input) :=
  let lsq := memory.lsq
  let ports := memory.lsqInput input
  let target := lsq.target ports
  decidable_of_iff
    ((lsq.dtlbIssVld ports = true → lsq.enque ports = true → target = lsq.tail →
        input.request.isFenceReq = false) ∧
      (lsq.dtlbIssVld ports = true → (lsq.enque ports = true → target ≠ lsq.tail) →
        (lsq.entries target).ls = true → (lsq.entries target).virt = true ∧
          (lsq.entries target).isFenceReq = false ∧
          (lsq.entries target).exceptionVld = false))
    ⟨fun ⟨enters, lookup⟩ => ⟨enters, lookup⟩, fun ⟨enters, lookup⟩ => ⟨enters, lookup⟩⟩

section Cycle

variable {memory : Memory} {input : MemoryInput} {length passed : Nat} {counter : Counter2}

namespace Looked

variable (looked : Looked memory length passed) (translates : Translates memory input)
  (replays : Replays memory input) (steady : Steady memory input)
  (lookups : Lookups memory input)
include looked

theorem faithful_of {i : LsqIndex} (vld : (memory.lsq.entries i).vld = true) :
    (memory.lsq.entries i).Faithful := by
  obtain ⟨k, inside, rfl⟩ := looked.position vld
  exact looked.faithful k inside

include translates

/-- An answered lookup was made for the entry at the issue pointer. -/
theorem answer_asked (answer : input.dtlb.vld = true) {i : LsqIndex}
    (vld : (memory.lsq.entries i).vld = true) :
    memory.asked = some memory.lsq.issued ∧ Asked memory.lsq memory.lsq.issued := by
  obtain ⟨k, inside, -⟩ := looked.position vld
  obtain ⟨slot, asked⟩ := Option.ne_none_iff_exists'.mp (translates.dtlb answer)
  rcases looked.asked slot asked with empty | known
  · omega
  · exact ⟨known.slot ▸ asked, known.slot ▸ known⟩

/-- A store or an atomic operation is executed without an exception and without a translation in
the same cycle. -/
theorem exec_stored {i : LsqIndex} (ls : (memory.lsq.entries i).ls = true)
    (exec : memory.lsq.execVld (memory.lsqInput input) i = true) :
    i = memory.lsq.issued ∧ (memory.lsq.entries i).exceptionVld = false ∧
      input.dtlb.vld = false := by
  have window := looked.window
  obtain ⟨rfl, event⟩ := Lsq.execVld_iff i |>.mp exec
  have inside : passed < length := by
    rcases event with ⟨succ, -⟩ | ⟨issue, -⟩
    · exact (window.succ_passed succ).1
    · exact (window.issue_passed issue).1.1
  have vld : (memory.lsq.entries memory.lsq.issued).vld = true := window.issued_vld inside
  have faithful := looked.faithful_of vld
  have ready : (memory.lsq.entries memory.lsq.issued).virt = false ∨
      (memory.lsq.entries memory.lsq.issued).isFenceReq = true := by
    rcases event with ⟨succ, -⟩ | ⟨-, flush⟩
    · have store : memory.lsq.l1dStIssVldQ = true := by
        simp only [Lsq.lastIssSucc, window.memory, Lsq.issuedEntry, ls, looked.pmaIsIo_false,
          Bool.false_and, Bool.or_false, Bool.not_true, Bool.and_false, Bool.and_eq_true] at succ
        exact succ.2.2
      exact looked.real store
    · simp only [LsqEntry.isFlush, Bool.and_eq_true] at flush
      exact .inr flush.1
  refine ⟨rfl, ?_, ?_⟩
  · rcases ready with real | fence
    · rw [← Bool.not_eq_true]
      intro fault
      rw [faithful.fault ls fault] at real
      cases real
    · exact faithful.fence fence
  · rw [← Bool.not_eq_true]
    intro answer
    have known := (looked.answer_asked translates answer vld).2.store ls
    rcases ready with real | fence
    · rw [Lsq.issuedEntry, real] at known
      cases known.1
    · rw [Lsq.issuedEntry, fence] at known
      cases known.2.1

/-- An entry that stays remains faithful. -/
theorem faithful_kept {i : LsqIndex} (vld : (memory.lsq.entries i).vld = true)
    (kept : (memory.lsq.entryPorts (memory.lsqInput input) i).init = false) :
    ((memory.lsq.entries i).step (memory.lsq.entryPorts (memory.lsqInput input) i)).Faithful := by
  have faithful := looked.faithful_of vld
  have asked : (memory.lsq.entryPorts (memory.lsqInput input) i).dtlbVld = true →
      i = memory.lsq.issued ∧ input.dtlb.vld = true ∧ (memory.lsq.entries i).exec = false ∧
        ((memory.lsq.entries i).ls = true → (memory.lsq.entries i).isFenceReq = false ∧
          (memory.lsq.entries i).exceptionVld = false) := by
    intro answer
    simp only [Lsq.entryPorts, lsqInput_dtlb, Bool.and_eq_true, beq_iff_eq] at answer
    obtain ⟨answer, rfl⟩ := answer
    obtain ⟨-, known⟩ := looked.answer_asked translates answer vld
    exact ⟨rfl, answer, known.exec, fun ls => (known.store ls).2⟩
  have silent (exec : (memory.lsq.entries i).exec = true) :
      (memory.lsq.entryPorts (memory.lsqInput input) i).dtlbVld = false := by
    rw [← Bool.not_eq_true]
    intro answer
    rw [(asked answer).2.2.1] at exec
    cases exec
  rw [LsqEntry.step_kept kept]
  constructor
  · intro fence
    change (memory.lsq.entries i).isFenceReq = true at fence
    have ls : (memory.lsq.entries i).ls = true := by
      simp only [LsqEntry.isFenceReq, Bool.and_eq_true] at fence
      exact fence.1
    have silent : (memory.lsq.entryPorts (memory.lsqInput input) i).dtlbVld = false := by
      rw [← Bool.not_eq_true]
      intro answer
      rw [((asked answer).2.2.2 ls).1] at fence
      cases fence
    simp [silent, faithful.fence fence]
  · intro ls fault
    change (memory.lsq.entries i).ls = true at ls
    cases answer : (memory.lsq.entryPorts (memory.lsqInput input) i).dtlbVld with
    | false =>
      simp only [answer, Bool.false_and, Bool.or_false] at fault
      simpa [answer] using faithful.fault ls fault
    | true =>
      obtain ⟨rfl, valid, -, store⟩ := asked answer
      have store' : memory.lsq.issuedEntry.ls = true := ls
      simp only [(store ls).2, Bool.false_or, Lsq.entryPorts, lsqInput_dtlb,
        Bool.and_eq_true] at fault
      simp [Lsq.entryPorts, Lsq.dtlbVirt, store', valid, fault.2.1.2]
  · intro ls exec
    change (memory.lsq.entries i).ls = true at ls
    simp only [Bool.and_eq_true, Bool.or_eq_true, Bool.not_eq_true'] at exec
    rcases exec.2 with exec | exec
    · simp [silent exec, faithful.stored ls exec]
    · obtain ⟨-, fault, quiet⟩ := looked.exec_stored translates ls exec
      simp [Lsq.entryPorts, quiet, fault]
  · intro virtual
    cases answer : (memory.lsq.entryPorts (memory.lsqInput input) i).dtlbVld with
    | false =>
      simp only [answer, Bool.false_eq_true, if_false] at virtual ⊢
      exact faithful.tag virtual
    | true =>
      obtain ⟨rfl, -, -⟩ := asked answer
      simp only [answer, if_true] at virtual ⊢
      have back : memory.lsq.dtlbVirt (memory.lsqInput input) = true := by
        rcases virtual with load | virt
        · have load' : memory.lsq.issuedEntry.ls = false := load
          simp [Lsq.dtlbVirt, load']
        · exact virt
      simp [Lsq.entryPorts, back, BitVec.setWidth_setWidth_of_le]

include replays steady

omit translates in
/-- A new entry is faithful. -/
theorem enters (enque : memory.lsq.enque (memory.lsqInput input) = true) :
    ((memory.lsq.entries memory.lsq.tail).step
      (memory.lsq.entryPorts (memory.lsqInput input) memory.lsq.tail)).Faithful := by
  have init : (memory.lsq.entryPorts (memory.lsqInput input) memory.lsq.tail).init = true := by
    simp [Lsq.entryPorts, enque]
  have idle : (memory.lsq.entryPorts (memory.lsqInput input) memory.lsq.tail).exec = false :=
    looked.window.enter_idle (looked.paced replays steady) enque
  rw [LsqEntry.step_init init]
  constructor
  · intro fence
    change input.request.isFenceReq = true at fence
    change (memory.accepts input && input.request.misaligned) = false
    rw [LsuRequest.fence_aligned fence, Bool.and_false]
  · exact fun _ _ => rfl
  · intro _ exec
    simp [idle] at exec
  · intro _
    simp [BitVec.setWidth_setWidth_of_le]

variable (running : input.flush = false)
include running

/-- The entries after a step are faithful. -/
theorem step_faithful {k : Nat} (inside : k + (memory.lsq.deque (memory.lsqInput input)).toNat <
      length + (memory.lsq.enque (memory.lsqInput input)).toNat) :
    ((memory.lsq.step counter (memory.lsqInput input)).entries
      (advance (memory.lsq.step counter (memory.lsqInput input)).head k)).Faithful := by
  have window := looked.window
  have room := window.room
  obtain ⟨-, most, -, -, -⟩ := window.step_counts (looked.paced replays steady)
  rw [Lsq.step_at running]
  cases init : (memory.lsq.entryPorts (memory.lsqInput input) (advance memory.lsq.head
      (k + (memory.lsq.deque (memory.lsqInput input)).toNat))).init with
  | true =>
    obtain ⟨enque, last⟩ := (window.occupied.init_iff (by omega)).mp init
    rw [last, ← window.tail]
    exact (looked.enters replays steady enque)
  | false =>
    have other := (window.occupied.init_iff (by omega)).not.mp (Bool.eq_false_iff.mp init)
    have behind : k + (memory.lsq.deque (memory.lsqInput input)).toNat < length := by
      cases enque : memory.lsq.enque (memory.lsqInput input) <;>
        simp only [enque, Bool.toNat_true, Bool.toNat_false, true_and] at inside other <;> omega
    exact looked.faithful_kept translates ((window.vld _ (by omega)).mpr behind) init

omit translates running in
/-- A lookup that is answered is repeated in the same cycle only for a load, or where it missed. -/
theorem answer_again {k : Nat}
    (lookup : memory.lsq.dtlbIssVld (memory.lsqInput input) = true)
    (moved : k + (memory.lsq.replayVld (memory.lsqInput input)).toNat =
      passed + (memory.lsq.lastIssSucc (memory.lsqInput input)).toNat)
    (place : memory.lsq.target (memory.lsqInput input) = advance memory.lsq.head k)
    (behind : k < length)
    (source : memory.lsq.replayVld (memory.lsqInput input) = true ∨
      memory.lsq.finalIssBypass (memory.lsqInput input) = false)
    (reached : (memory.lsq.entryPorts (memory.lsqInput input)
      (memory.lsq.target (memory.lsqInput input))).dtlbVld = true) :
    memory.lsq.target (memory.lsqInput input) = memory.lsq.issued ∧
      memory.lsq.lastIssSucc (memory.lsqInput input) = false ∧
      memory.lsq.replayVld (memory.lsqInput input) = false ∧ input.dtlb.vld = true ∧
      (memory.lsq.issuedEntry.ls = true → input.dtlb.hit = false) := by
  have window := looked.window
  have room := window.room
  have inside := window.inside
  have single := (window.step_counts (looked.paced replays steady)).2.2.2.2
  simp only [Lsq.entryPorts, lsqInput_dtlb, Bool.and_eq_true, beq_iff_eq] at reached
  obtain ⟨valid, same⟩ := reached
  have count := same
  rw [place, window.issued, Lsq.advance_eq_iff memory.lsq.head (by omega) (by omega)] at count
  have still : memory.lsq.lastIssSucc (memory.lsqInput input) = false ∧
      memory.lsq.replayVld (memory.lsqInput input) = false := by
    cases succ : memory.lsq.lastIssSucc (memory.lsqInput input) <;>
      cases replay : memory.lsq.replayVld (memory.lsqInput input) <;>
      simp only [succ, replay, Bool.toNat_true, Bool.toNat_false, forall_true_left,
        Bool.true_eq_false] at moved single ⊢ <;> first | omega | simp
  obtain ⟨succ, replay⟩ := still
  refine ⟨same, succ, replay, valid, fun ls => ?_⟩
  have own := source.resolve_left (by simp [replay])
  simp only [Lsq.finalIssBypass, succ, Bool.false_eq_true, if_false] at own
  simp only [Lsq.dtlbIssVld, replay, succ, own, ls, lsqInput_dtlb, valid, Bool.false_and,
    Bool.and_true, Bool.true_and, Bool.or_false, Bool.false_or, Bool.not_true, Bool.and_eq_true,
    Bool.not_eq_true'] at lookup
  exact lookup.1.1.2

include lookups

/-- The lookup of a cycle is for the entry at the issue pointer of the next. -/
theorem step_asked {slot : LsqIndex} (asked : (memory.step counter input).asked = some slot) :
    Asked (memory.step counter input).lsq slot := by
  have window := looked.window
  have paced := looked.paced replays steady
  have room := window.room
  simp only [step, Option.ite_none_right_eq_some, Option.some.injEq] at asked
  obtain ⟨lookup, rfl⟩ := asked
  obtain ⟨k, moved, place, stays, kind⟩ := window.lookup_target paced lookup looked.real
  obtain ⟨length', passed', window', lengths, counts⟩ : ∃ length' passed',
      (memory.lsq.step counter (memory.lsqInput input)).Window length' passed' ∧ _ ∧ _ :=
    window.step_window paced running
  have slot : memory.lsq.target (memory.lsqInput input) =
      (memory.lsq.step counter (memory.lsqInput input)).issued := by
    rw [window.step_issued paced running, place]
    congr 1
    omega
  have inside : passed' < length' := by
    rcases kind with ⟨inside, -⟩ | ⟨last, -, taken⟩
    · omega
    · rw [(window.bypass_enters paced taken).2, Bool.toNat_true] at lengths
      omega
  -- the tail is the target only for a request that enters
  have apart (inside : k < length) : memory.lsq.enque (memory.lsqInput input) = true →
      memory.lsq.target (memory.lsqInput input) ≠ memory.lsq.tail := by
    intro enque same
    rw [place, window.tail, Lsq.advance_eq_iff memory.lsq.head (by omega) room] at same
    rcases window.occupied.enque_room enque with partly | ⟨full, deque⟩
    · omega
    · have := stays deque
      omega
  have plain (inside : k < length) : (memory.lsq.entries
      (memory.lsq.target (memory.lsqInput input))).isFlush = false := by
    rw [← Bool.not_eq_true]
    intro flush
    simp only [LsqEntry.isFlush, LsqEntry.isFenceReq, Bool.and_eq_true] at flush
    have other := (lookups.lookup lookup (apart inside) flush.1.1).2.1
    simp [LsqEntry.isFenceReq, flush.1] at other
  have calm : (memory.lsq.step counter (memory.lsqInput input)).flushing = false :=
    looked.toAligned.calm_target replays steady running moved place plain
  have vtag : (memory.lsq.step counter (memory.lsqInput input)).dtlbVtagQ =
      memory.lsq.dtlbIssVtag (memory.lsqInput input) := by
    simp [Lsq.step, running, lookup]
  have exec : (memory.lsq.step counter (memory.lsqInput input)).issuedEntry.exec = false := by
    rw [Lsq.issuedEntry, ← Bool.not_eq_true, window'.issued, window'.exec passed' inside, calm]
    simp
  have entry : (memory.lsq.step counter (memory.lsqInput input)).issuedEntry =
      (memory.lsq.entries (memory.lsq.target (memory.lsqInput input))).step
        (memory.lsq.entryPorts (memory.lsqInput input)
          (memory.lsq.target (memory.lsqInput input))) := by
    rw [Lsq.issuedEntry, ← slot, Lsq.step_entries running]
  rw [step_lsq]
  rcases kind with ⟨behind, source⟩ | ⟨last, replay, taken⟩
  · obtain ⟨init, invld⟩ := window.kept behind stays
    rw [← place] at init
    have vld : (memory.lsq.entries (memory.lsq.target (memory.lsqInput input))).vld = true := by
      rw [place]
      exact (window.vld k (by omega)).mpr behind
    have store (ls : (memory.lsq.entries (memory.lsq.target (memory.lsqInput input))).ls = true) :=
      lookups.lookup lookup (apart behind) ls
    have answer (reached : (memory.lsq.entryPorts (memory.lsqInput input)
        (memory.lsq.target (memory.lsqInput input))).dtlbVld = true) :=
      looked.answer_again replays steady lookup moved place behind source reached
    have back (reached : (memory.lsq.entryPorts (memory.lsqInput input)
        (memory.lsq.target (memory.lsqInput input))).dtlbVld = true) :
        memory.lsq.dtlbVirt (memory.lsqInput input) = true := by
      obtain ⟨-, -, -, valid, missed⟩ := answer reached
      cases ls : memory.lsq.issuedEntry.ls with
      | false => simp [Lsq.dtlbVirt, ls]
      | true => simp [Lsq.dtlbVirt, ls, valid, missed ls]
    rw [LsqEntry.step_kept init] at entry
    refine ⟨slot, window'.issued_vld inside, exec, fun ls => ?_, ?_⟩
    · rw [entry] at ls ⊢
      obtain ⟨virt, fence, fault⟩ := store ls
      refine ⟨?_, fence, ?_⟩
      · cases reached : (memory.lsq.entryPorts (memory.lsqInput input)
            (memory.lsq.target (memory.lsqInput input))).dtlbVld with
        | false => simp [virt]
        | true => simpa [Lsq.entryPorts] using back reached
      · cases reached : (memory.lsq.entryPorts (memory.lsqInput input)
            (memory.lsq.target (memory.lsqInput input))).dtlbVld with
        | false => simp [fault]
        | true =>
          obtain ⟨same, -, -, -, missed⟩ := answer reached
          have ls' : memory.lsq.issuedEntry.ls = true := by
            rw [Lsq.issuedEntry, ← same]
            exact ls
          have quiet : input.dtlb.exceptionVld = false := by
            rw [← Bool.not_eq_true]
            intro exception
            rw [translates.fault exception] at missed
            cases missed ls'
          simp [fault, Lsq.entryPorts, quiet]
    · have narrow : ((memory.lsq.entries (memory.lsq.target (memory.lsqInput input))).tag.setWidth
          27).setWidth 44 = (memory.lsq.entries (memory.lsq.target (memory.lsqInput input))).tag := by
        refine (looked.faithful_of vld).tag ?_
        cases ls : (memory.lsq.entries (memory.lsq.target (memory.lsqInput input))).ls with
        | false => exact .inl rfl
        | true => exact .inr (store ls).1
      rw [entry, vtag, Lsq.Window.dtlbIssVtag_eq]
      cases reached : (memory.lsq.entryPorts (memory.lsqInput input)
          (memory.lsq.target (memory.lsqInput input))).dtlbVld with
      | true =>
        obtain ⟨-, succ, replay, valid, -⟩ := answer reached
        have own := source.resolve_left (by simp [replay])
        have known := (looked.answer_asked translates valid vld).2.tag
        have kept : memory.lsq.issVtag (memory.lsqInput input) = memory.lsq.dtlbVtagQ := by
          simp only [Lsq.issVtag]
          split
          · rfl
          · rw [known]
            simp [BitVec.setWidth_setWidth_of_le]
        simp [replay, own, succ, kept, Lsq.entryPorts, back reached]
      | false =>
        cases replay : memory.lsq.replayVld (memory.lsqInput input) with
        | true =>
          have same : memory.lsq.target (memory.lsqInput input) = memory.lsq.ldIssuedQq := by
            simp [Lsq.target, replay]
          rw [same] at narrow ⊢
          simp [narrow]
        | false =>
          have own := source.resolve_left (by simp [replay])
          have final : memory.lsq.target (memory.lsqInput input) =
              memory.lsq.finalIss (memory.lsqInput input) := by
            simp [Lsq.target, replay, own]
          cases succ : memory.lsq.lastIssSucc (memory.lsqInput input) with
          | true =>
            have same : memory.lsq.finalIss (memory.lsqInput input) = memory.lsq.issueNxt := by
              simp [Lsq.finalIss, succ]
            rw [final, same] at narrow ⊢
            simp [own, Lsq.nxtEntry, narrow]
          | false =>
            have same : memory.lsq.finalIss (memory.lsqInput input) = memory.lsq.issued := by
              simp [Lsq.finalIss, succ]
            rw [final, same] at narrow reached ⊢
            have silent : input.dtlb.vld = false := by
              simpa [Lsq.entryPorts] using reached
            simp [own, Lsq.issVtag, silent, Lsq.issuedEntry, narrow]
  · obtain ⟨-, enque⟩ := window.bypass_enters paced taken
    have tail : memory.lsq.target (memory.lsqInput input) = memory.lsq.tail := by
      rw [place, last, window.tail]
    have init : (memory.lsq.entryPorts (memory.lsqInput input)
        (memory.lsq.target (memory.lsqInput input))).init = true := by
      simp [Lsq.entryPorts, enque, tail]
    have aligned : (memory.lsqInput input).mcExceptionVld = false := by
      simp only [Lsq.finalIssBypass] at taken
      split at taken <;>
        simp only [Lsq.issNxtEntryBypassVld, Lsq.issIssuedEntryBypassVld, Bool.and_eq_true,
          Bool.not_eq_true'] at taken <;> exact taken.2
    have fence := lookups.enters lookup enque tail
    rw [LsqEntry.step_init init] at entry
    refine ⟨slot, window'.issued_vld inside, exec, fun ls => ?_, ?_⟩
    · rw [entry]
      exact ⟨rfl, fence, aligned⟩
    · rw [entry, vtag, Lsq.Window.dtlbIssVtag_eq]
      simp [replay, taken, Lsq.entryPorts]


/-- A cycle without a flush keeps the translation with the entry it works for. -/
theorem step : ∃ length' passed', Looked (memory.step counter input) length' passed' ∧
    length' + (memory.lsq.deque (memory.lsqInput input)).toNat =
      length + (memory.lsq.enque (memory.lsqInput input)).toNat ∧
    passed' + (memory.lsq.deque (memory.lsqInput input)).toNat +
        (memory.lsq.replayVld (memory.lsqInput input)).toNat =
      passed + (memory.lsq.lastIssSucc (memory.lsqInput input)).toNat := by
  obtain ⟨length', passed', aligned', lengths, counts⟩ : ∃ length' passed',
      Aligned (memory.step counter input) length' passed' ∧ _ ∧ _ :=
    looked.toAligned.step replays steady running
  refine ⟨length', passed', ⟨aligned', ?_, ?_, ?_⟩, lengths, counts⟩
  · intro k inside
    exact looked.step_faithful translates replays steady running (by omega)
  · intro slot asked
    exact .inr (looked.step_asked translates replays steady lookups running asked)
  · refine looked.window.step_real (looked.paced replays steady) running fun issue real => ?_
    -- an issued store has its translation, and no answer is under way for it
    obtain ⟨inside, -⟩ := looked.window.issue_passed issue
    rw [← Bool.not_eq_true]
    intro answer
    have ls : memory.lsq.issuedEntry.ls = true := by
      simp only [Lsq.stIssVld, Bool.and_eq_true] at issue
      exact issue.1.1.1.1.1.1.2
    have vld := looked.window.issued_vld inside.1
    rw [((looked.answer_asked translates answer vld).2.store ls).1] at real
    cases real

end Looked

theorem looked_flush (looked : Looked memory length passed) (flush : input.flush = true) :
    Looked (memory.step counter input) 0 0 := by
  obtain ⟨lsq, -⟩ : (memory.step counter input).lsq = Lsq.reset ∧ _ := flushed flush
  refine ⟨aligned_flush looked.toAligned flush, ?_, ?_, ?_⟩
  · exact fun k inside => absurd inside (Nat.not_lt_zero k)
  · exact fun _ _ => .inl rfl
  · rw [lsq]
    exact fun issue => Bool.noConfusion issue

theorem reset_looked : Looked reset 0 0 where
  toAligned := reset_aligned
  faithful := fun k inside => absurd inside (Nat.not_lt_zero k)
  asked := fun _ asked => by cases asked
  real := fun issue => Bool.noConfusion issue

end Cycle

end Memory

end GreenRio
