import GreenRio.Lookup

set_option autoImplicit false

namespace GreenRio

open Circular

/-- The virtual page of an address, and the place in it. -/
def VirtualAddress.page (vaddr : VirtualAddress) : BitVec 27 := vaddr.extractLsb' 12 27

def VirtualAddress.pageOffset (vaddr : VirtualAddress) : BitVec 12 := vaddr.extractLsb' 0 12

/-- For each entry the virtual address of its request, and the physical page that the translation
returned for the virtual page of that address. -/
structure Trail where
  vaddr : LsqIndex → VirtualAddress
  frame : LsqIndex → Option (BitVec 44)

/-- The unit with the trail of its requests. -/
structure Addressing where
  memory : Memory
  trail : Trail

namespace Addressing

def reset : Addressing := ⟨Memory.reset, ⟨fun _ => 0, fun _ => none⟩⟩

section Signals

variable (state : Addressing) (input : MemoryInput)

/-- An answer to a lookup that was made for entry `i` and for the virtual page of its request. -/
def returned (i : LsqIndex) : Bool :=
  input.dtlb.vld && input.dtlb.hit && !input.dtlb.exceptionVld && state.memory.asked == some i &&
    state.memory.lsq.dtlbVtagQ == (state.trail.vaddr i).page

def enters (i : LsqIndex) : Bool :=
  state.memory.lsq.enque (state.memory.lsqInput input) && i == state.memory.lsq.tail

def trailNext : Trail where
  vaddr i := if state.enters input i then input.request.vaddr else state.trail.vaddr i
  frame i :=
    if state.enters input i then none
    else if state.returned input i then some input.dtlb.ptag else state.trail.frame i

end Signals

def step (counter : Counter2) (state : Addressing) (input : MemoryInput) : Addressing where
  memory := state.memory.step counter input
  trail := state.trailNext input

def machine (counter : Counter2) : Synchronous Addressing MemoryInput := ⟨reset, step counter⟩

/-- The address of the request in entry `i` in the physical page that was returned for it. -/
def Translated (state : Addressing) (i : LsqIndex) (paddr : PhysicalAddress) : Prop :=
  ∃ frame, state.trail.frame i = some frame ∧
    paddr = frame ++ (state.trail.vaddr i).pageOffset

/-- The store port and the bus are given translated addresses, fences apart, which have none; and
a load is classified by the address that is being returned for it, a store in the cycle after its
request by the address that was given to the port. -/
structure Addressed (state : Addressing) (input : MemoryInput) : Prop where
  store : state.memory.lsq.stReqVld (state.memory.lsqInput input) = true →
    state.memory.lsq.issuedEntry.isFenceReq = false →
      state.Translated state.memory.lsq.issued state.memory.lsq.issuedEntry.address
  bus : state.memory.lsq.busCtrlIssVld (state.memory.lsqInput input) = true →
    state.Translated state.memory.lsq.issued state.memory.lsu.busRequest.paddr
  load : state.memory.lsu.pmaLdVldQ = true → input.dtlb.vld = true → input.dtlb.hit = true →
    input.dtlb.exceptionVld = false →
      state.returned input state.memory.lsq.issued = true ∧
        state.memory.lsq.pmaPaddr (state.memory.lsqInput input) =
          input.dtlb.ptag ++ (state.trail.vaddr state.memory.lsq.issued).pageOffset
  classified : state.memory.lsu.pmaStVldQ = true →
    state.memory.lsq.issuedEntry.isFenceReq = false → ∃ paddr,
      state.Translated state.memory.lsq.issued paddr ∧
        state.memory.lsu.pmaIsIo input.lsuInput = Lsu.isIo paddr

/-- The entry holds the address of its request, with the virtual page until it is a store that was
translated, and then with the page that was returned. -/
structure Held (entry : LsqEntry) (vaddr : VirtualAddress) (frame : Option (BitVec 44)) : Prop where
  index : entry.index = vaddr.extractLsb' 6 6
  offset : entry.offset = vaddr.extractLsb' 0 6
  virtual : entry.ls = false ∨ entry.virt = true → entry.tag = vaddr.page.setWidth 44
  real : entry.ls = true → entry.virt = false → frame = some entry.tag

theorem Held.low {entry : LsqEntry} {vaddr : VirtualAddress} {frame : Option (BitVec 44)}
    (held : Held entry vaddr frame) : entry.index ++ entry.offset = vaddr.pageOffset := by
  rw [held.index, held.offset, VirtualAddress.pageOffset]
  exact BitVec.extractLsb'_append_extractLsb'_eq_extractLsb' rfl

theorem Held.address {entry : LsqEntry} {vaddr : VirtualAddress} {frame : Option (BitVec 44)}
    (held : Held entry vaddr frame) (ls : entry.ls = true) (virt : entry.virt = false) :
    ∃ page, frame = some page ∧ entry.address = page ++ vaddr.pageOffset := by
  exact ⟨_, held.real ls virt, by rw [LsqEntry.address, ← held.low]⟩

/-- A translated store is at the issue pointer, and its address is the one that was classified. -/
structure Stores (state : Addressing) : Prop where
  vld : state.memory.lsq.issuedEntry.vld = true
  ls : state.memory.lsq.issuedEntry.ls = true
  virt : state.memory.lsq.issuedEntry.virt = false
  kind : state.memory.lsu.pmaStIsIoQ = Lsu.isIo state.memory.lsq.issuedEntry.address

/-- What holds along a run. -/
structure Kept (state : Addressing) (length passed : Nat) : Prop where
  looked : state.memory.Looked length passed
  held : ∀ k < length, Held (state.memory.lsq.entries (advance state.memory.lsq.head k))
    (state.trail.vaddr (advance state.memory.lsq.head k))
    (state.trail.frame (advance state.memory.lsq.head k))
  pma : state.memory.lsu.pmaLdVldQ = true → state.memory.lsq.l1dIssVldQ = true
  pmaStore : state.memory.lsu.pmaStVldQ = true →
    state.memory.lsq.issuedEntry.isFenceReq = false → Stores state

section Cycle

variable {state : Addressing} {input : MemoryInput} {length passed : Nat} {counter : Counter2}

namespace Kept

variable (kept : Kept state length passed) (translates : state.memory.Translates input)
include kept

theorem held_of {i : LsqIndex} (vld : (state.memory.lsq.entries i).vld = true) :
    Held (state.memory.lsq.entries i) (state.trail.vaddr i) (state.trail.frame i) := by
  obtain ⟨k, inside, rfl⟩ := kept.looked.position vld
  exact kept.held k inside

include translates

/-- An answer is for the virtual page of the request at the issue pointer. -/
theorem answer_page (answer : input.dtlb.vld = true) {i : LsqIndex}
    (vld : (state.memory.lsq.entries i).vld = true) :
    state.memory.asked = some state.memory.lsq.issued ∧
      Memory.Asked state.memory.lsq state.memory.lsq.issued ∧
      state.memory.lsq.dtlbVtagQ = (state.trail.vaddr state.memory.lsq.issued).page := by
  obtain ⟨asked, known⟩ := kept.looked.answer_asked translates answer vld
  refine ⟨asked, known, ?_⟩
  have untranslated : state.memory.lsq.issuedEntry.ls = false ∨
      state.memory.lsq.issuedEntry.virt = true := by
    cases store : state.memory.lsq.issuedEntry.ls with
    | false => exact .inl rfl
    | true => exact .inr (known.store store).1
  have same := (kept.held_of known.vld).virtual untranslated
  have tag := known.tag
  rw [Lsq.issuedEntry, same] at tag
  have narrow := congrArg (BitVec.setWidth 27) tag
  simpa [BitVec.setWidth_setWidth_of_le] using narrow.symm

/-- An entry that stays holds what its trail says. -/
theorem held_kept {i : LsqIndex} (vld : (state.memory.lsq.entries i).vld = true)
    (stays : (state.memory.lsq.entryPorts (state.memory.lsqInput input) i).init = false) :
    Held ((state.memory.lsq.entries i).step
        (state.memory.lsq.entryPorts (state.memory.lsqInput input) i))
      ((state.trailNext input).vaddr i) ((state.trailNext input).frame i) := by
  have held := kept.held_of vld
  have old : state.enters input i = false := stays
  have vaddr : (state.trailNext input).vaddr i = state.trail.vaddr i := by
    simp [trailNext, old]
  have frame : (state.trailNext input).frame i =
      if state.returned input i then some input.dtlb.ptag else state.trail.frame i := by
    simp [trailNext, old]
  rw [vaddr, frame, LsqEntry.step_kept stays]
  cases answer : input.dtlb.vld with
  | false =>
    have silent : (state.memory.lsq.entryPorts (state.memory.lsqInput input) i).dtlbVld =
        false := by
      simp [Lsq.entryPorts, answer]
    have none : state.returned input i = false := by simp [returned, answer]
    refine ⟨held.index, held.offset, ?_, ?_⟩
    · simpa [silent] using held.virtual
    · simpa [silent, none] using held.real
  | true =>
    obtain ⟨asked, -, page⟩ := kept.answer_page translates answer vld
    by_cases place : i = state.memory.lsq.issued
    · subst place
      refine ⟨held.index, held.offset, fun virtual => ?_, fun ls real => ?_⟩
      · have back : state.memory.lsq.dtlbVirt (state.memory.lsqInput input) = true := by
          rcases virtual with load | virt
          · have load' : state.memory.lsq.issuedEntry.ls = false := load
            simp [Lsq.dtlbVirt, load']
          · simpa [Lsq.entryPorts, answer] using virt
        simp [Lsq.entryPorts, answer, back, page]
      · change state.memory.lsq.issuedEntry.ls = true at ls
        have through : state.memory.lsq.dtlbVirt (state.memory.lsqInput input) = false := by
          simpa [Lsq.entryPorts, answer] using real
        have hit : input.dtlb.hit = true ∧ input.dtlb.exceptionVld = false := by
          simpa [Lsq.dtlbVirt, ls, answer] using through
        have own : state.returned input state.memory.lsq.issued = true := by
          simp [returned, answer, hit, asked, page]
        simp [own, Lsq.entryPorts, answer, through]
    · have silent : (state.memory.lsq.entryPorts (state.memory.lsqInput input) i).dtlbVld =
          false := by
        simp [Lsq.entryPorts, place]
      have none : state.returned input i = false := by
        simp [returned, asked, Ne.symm place]
      refine ⟨held.index, held.offset, ?_, ?_⟩
      · simpa [silent] using held.virtual
      · simpa [silent, none] using held.real

omit kept translates in
/-- A new entry holds the address of its request. -/
theorem held_enters
    (enque : state.memory.lsq.enque (state.memory.lsqInput input) = true) :
    Held ((state.memory.lsq.entries state.memory.lsq.tail).step
        (state.memory.lsq.entryPorts (state.memory.lsqInput input) state.memory.lsq.tail))
      ((state.trailNext input).vaddr state.memory.lsq.tail)
      ((state.trailNext input).frame state.memory.lsq.tail) := by
  have init : (state.memory.lsq.entryPorts (state.memory.lsqInput input)
      state.memory.lsq.tail).init = true := by
    simp [Lsq.entryPorts, enque]
  have fresh : (state.trailNext input).vaddr state.memory.lsq.tail = input.request.vaddr := by
    simp [trailNext, enters, enque]
  rw [fresh, LsqEntry.step_init init]
  exact ⟨rfl, rfl, fun _ => rfl, fun _ real => Bool.noConfusion real⟩

/-- What goes out in a cycle goes to the translated address. -/
theorem addressed : Addressed state input where
  store := by
    intro request plain
    have issue : state.memory.lsq.stIssVld (state.memory.lsqInput input) = true := by
      simp only [Lsq.stReqVld, Bool.and_eq_true] at request
      exact request.1.1.1
    have inside := (kept.looked.window.issue_passed issue).1.1
    have held := kept.held_of (kept.looked.window.issued_vld inside)
    simp only [Lsq.stIssVld, plain, Bool.or_false, Bool.and_eq_true, Bool.not_eq_true'] at issue
    have ls : state.memory.lsq.issuedEntry.ls = true := issue.1.1.1.1.1.1.2
    have virt : state.memory.lsq.issuedEntry.virt = false := issue.1.1.1.1.2
    exact held.address ls virt
  bus := by
    intro request
    simp [Lsq.busCtrlIssVld, kept.looked.pmaIsIo_false] at request
  load := by
    intro loads answer hit fine
    have inside := (kept.looked.window.pending (kept.pma loads)).1
    have vld := kept.looked.window.issued_vld inside
    obtain ⟨asked, -, page⟩ := kept.answer_page translates answer vld
    have held := kept.held_of vld
    refine ⟨by simp [returned, answer, hit, fine, asked, page], ?_⟩
    rw [Lsq.pmaPaddr, ← held.low]
    rfl
  classified := by
    intro stores plain
    have known := kept.pmaStore stores plain
    refine ⟨_, (kept.held_of known.vld).address known.ls known.virt, ?_⟩
    rw [Lsu.pmaIsIo, if_pos stores]
    exact known.kind

variable (replays : state.memory.Replays input) (steady : state.memory.Steady input)
  (lookups : state.memory.Lookups input) (running : input.flush = false)
include replays steady lookups running

omit lookups in
/-- A store on the port is still at the issue pointer in the next cycle, with its address. -/
theorem step_store (stores : (state.step counter input).memory.lsu.pmaStVldQ = true)
    (plain : (state.step counter input).memory.lsq.issuedEntry.isFenceReq = false) :
    Stores (state.step counter input) := by
  have window := kept.looked.window
  have paced := kept.looked.paced replays steady
  have request : state.memory.lsq.stReqVld (state.memory.lsqInput input) = true :=
    (Bool.and_eq_true_iff.mp stores).2
  have issue : state.memory.lsq.stIssVld (state.memory.lsqInput input) = true := by
    simp only [Lsq.stReqVld, Bool.and_eq_true] at request
    exact request.1.1.1
  obtain ⟨⟨behind, -⟩, succ, replay, -⟩ := window.issue_passed issue
  have stays := fun deque => window.deque_behind paced deque succ
  have vld := window.issued_vld behind
  obtain ⟨init, same⟩ := @Lsq.Window.step_issuedEntry _ _ counter _ _ window paced running
    passed (by rw [succ, replay]) behind stays
  have invld := (window.kept behind stays).2
  rw [← window.issued] at init invld same
  have next : (state.step counter input).memory.lsq.issuedEntry =
      (state.memory.lsq.step counter (state.memory.lsqInput input)).issuedEntry := rfl
  rw [next, same, LsqEntry.step_kept init] at plain
  change state.memory.lsq.issuedEntry.isFenceReq = false at plain
  simp only [Lsq.stIssVld, plain, Bool.or_false, Bool.and_eq_true, Bool.not_eq_true'] at issue
  have ls : state.memory.lsq.issuedEntry.ls = true := issue.1.1.1.1.1.1.2
  have virt : state.memory.lsq.issuedEntry.virt = false := issue.1.1.1.1.2
  -- its translation is known, so that no answer is under way for it
  have silent : input.dtlb.vld = false := by
    rw [← Bool.not_eq_true]
    intro answer
    have known := (kept.answer_page translates answer vld).2.1.store ls
    rw [virt] at known
    cases known.1
  have quiet : (state.memory.lsq.entryPorts (state.memory.lsqInput input)
      state.memory.lsq.issued).dtlbVld = false := by
    simp [Lsq.entryPorts, silent]
  have address : (state.step counter input).memory.lsq.issuedEntry.address =
      state.memory.lsq.issuedEntry.address := by
    rw [next, same, LsqEntry.step_kept init, LsqEntry.address, quiet]
    rfl
  refine ⟨?_, ?_, ?_, ?_⟩
  · rw [next, same, LsqEntry.step_kept init, invld]
    simpa [Lsq.issuedEntry] using vld
  · rw [next, same, LsqEntry.step_kept init]
    exact ls
  · rw [next, same, LsqEntry.step_kept init, quiet]
    exact virt
  · rw [address]
    have flush : input.lsuInput.flush = false := running
    change (!input.lsuInput.flush && Lsu.isIo state.memory.lsq.issuedEntry.address) = _
    rw [flush, Bool.not_false, Bool.true_and]

/-- A cycle without a flush keeps the trail. -/
theorem step : ∃ length' passed', Kept (state.step counter input) length' passed' := by
  obtain ⟨length', passed', looked', lengths, -⟩ : ∃ length' passed',
      (state.memory.step counter input).Looked length' passed' ∧ _ ∧ _ :=
    kept.looked.step translates replays steady lookups running
  refine ⟨length', passed', looked', fun k inside => ?_, fun loads => ?_,
    kept.step_store translates replays steady running⟩
  · have window := kept.looked.window
    have room := window.room
    have room' := looked'.window.room
    have lsq : (state.step counter input).memory.lsq =
        state.memory.lsq.step counter (state.memory.lsqInput input) := rfl
    have place : advance (state.step counter input).memory.lsq.head k =
        advance state.memory.lsq.head
          (k + (state.memory.lsq.deque (state.memory.lsqInput input)).toNat) := by
      rw [lsq, Lsq.step_head running, advance_advance, Nat.add_comm]
    rw [place, lsq, Lsq.step_entries running]
    cases init : (state.memory.lsq.entryPorts (state.memory.lsqInput input)
        (advance state.memory.lsq.head
          (k + (state.memory.lsq.deque (state.memory.lsqInput input)).toNat))).init with
    | true =>
      obtain ⟨enque, last⟩ := (window.occupied.init_iff (by omega)).mp init
      rw [last, ← window.tail]
      exact held_enters enque
    | false =>
      have other := (window.occupied.init_iff (by omega)).not.mp (Bool.eq_false_iff.mp init)
      have behind : k + (state.memory.lsq.deque (state.memory.lsqInput input)).toNat <
          length := by
        cases enque : state.memory.lsq.enque (state.memory.lsqInput input) <;>
          simp only [enque, Bool.toNat_true, Bool.toNat_false, true_and] at lengths other <;> omega
      exact kept.held_kept translates ((window.vld _ (by omega)).mpr behind) init
  · change (!input.flush && state.memory.lsq.ldReqVld (state.memory.lsqInput input)) = true
      at loads
    simp only [Lsq.ldReqVld, Bool.and_eq_true] at loads
    change (state.memory.lsq.step counter (state.memory.lsqInput input)).l1dIssVldQ = true
    simp [Lsq.step, running, Lsq.l1dIssVld, loads.2.1]

end Kept

theorem kept_flush (kept : Kept state length passed) (flush : input.flush = true) :
    Kept (state.step counter input) 0 0 where
  looked := Memory.looked_flush kept.looked flush
  held := fun k inside => absurd inside (Nat.not_lt_zero k)
  pma := by
    intro loads
    change (!input.flush && state.memory.lsq.ldReqVld (state.memory.lsqInput input)) = true
      at loads
    simp [flush] at loads
  pmaStore := by
    intro stores
    change (!input.flush && state.memory.lsq.stReqVld (state.memory.lsqInput input)) = true
      at stores
    simp [flush] at stores

theorem reset_kept : Kept reset 0 0 where
  looked := Memory.reset_looked
  held := fun k inside => absurd inside (Nat.not_lt_zero k)
  pma := fun loads => Bool.noConfusion loads
  pmaStore := fun stores => Bool.noConfusion stores

end Cycle

/-- What is assumed of the translation and of the cache. -/
def Contract (state : Addressing) (input : MemoryInput) : Prop :=
  state.memory.Translates input ∧ state.memory.Replays input

/-- Where nothing is flushed, the pointers keep their order and only what is not translated is
looked up. -/
def Ordered (state : Addressing) (input : MemoryInput) : Prop :=
  input.flush = false → state.memory.Steady input ∧ state.memory.Lookups input

theorem run_kept (counter : Counter2) (inputs : List MemoryInput)
    (contract : (machine counter).Obeys Contract inputs)
    (ordered : (machine counter).Obeys Ordered inputs) :
    ∃ length passed, Kept ((machine counter).run inputs) length passed := by
  induction inputs using List.reverseRecOn with
  | nil => exact ⟨0, 0, reset_kept⟩
  | append_singleton inputs input ih =>
    obtain ⟨contract, translates, replays⟩ := Synchronous.obeys_snoc.mp contract
    obtain ⟨ordered, order⟩ := Synchronous.obeys_snoc.mp ordered
    obtain ⟨length, passed, kept⟩ := ih contract ordered
    rw [Synchronous.run_snoc]
    cases flush : input.flush with
    | true => exact ⟨0, 0, kept_flush kept flush⟩
    | false =>
      obtain ⟨steady, lookups⟩ := order flush
      exact kept.step translates replays steady lookups flush

/-- In a run whose lookups are for what is not translated, every access goes to the address that
was returned for its request. -/
theorem lsu_addresses_translated (counter : Counter2) (inputs : List MemoryInput)
    (contract : (machine counter).Obeys Contract inputs)
    (ordered : (machine counter).Obeys Ordered inputs) :
    (machine counter).Obeys Addressed inputs := by
  intro past input rest split
  obtain ⟨length, passed, kept⟩ := run_kept counter past
    (Synchronous.obeys_prefix contract split) (Synchronous.obeys_prefix ordered split)
  exact kept.addressed (contract past input rest split).1

instance (state : Addressing) (input : MemoryInput) : Decidable (Contract state input) :=
  inferInstanceAs (Decidable (_ ∧ _))

instance (state : Addressing) (input : MemoryInput) : Decidable (Ordered state input) :=
  inferInstanceAs (Decidable (_ → _ ∧ _))

/-- A load and a store behind it, with their translations; the load is sent back once the store is
translated, or not. -/
def loadAndStore (replay : Bool) : List MemoryInput :=
  let load : LsuRequest := ⟨false, Ldu.ld.setWidth 4, 0, false, 0x1000, 0, 0, 2, 0⟩
  let store : LsuRequest := ⟨true, 0, Stu.sd, false, 0x2008, 0, 1, 0, 7⟩
  let hit (ptag : BitVec 44) : DtlbAnswer := ⟨true, true, ptag, false, 0⟩
  let again := if replay then hit 5 else .none
  [ { MemoryInput.quiet with vld := true, request := load },
    { MemoryInput.quiet with vld := true, request := store, dtlb := hit 5 },
    { MemoryInput.quiet with dtlb := hit 6, replay := replay },
    { MemoryInput.quiet with dtlb := again },
    { MemoryInput.quiet with
      dtlb := if replay then hit 9 else .none, wakeup := true, wakeupRobIndex := 1 },
    MemoryInput.quiet ]

theorem lsu_addresses_translated_load_store :
    (machine Counter2.standard).Obeys Addressed (loadAndStore false) :=
  lsu_addresses_translated Counter2.standard (loadAndStore false) (by decide +kernel)
    (by decide +kernel)

/-- The store, translated to page 6, is looked up again with 6 for its virtual page, and goes to
page 9. -/
theorem lsu_addresses_translated_twice :
    (machine Counter2.standard).Obeys Contract (loadAndStore true) ∧
      ¬(machine Counter2.standard).Obeys Addressed (loadAndStore true) := by
  refine ⟨by decide +kernel, fun obeys => ?_⟩
  obtain ⟨frame, known, same⟩ :=
    (obeys ((loadAndStore true).take 5) MemoryInput.quiet [] rfl).store (by decide +kernel)
      (by decide +kernel)
  have returned : ((machine Counter2.standard).run ((loadAndStore true).take 5)).trail.frame
      ((machine Counter2.standard).run ((loadAndStore true).take 5)).memory.lsq.issued = some 6 := by
    decide +kernel
  rw [returned, Option.some.injEq] at known
  subst known
  exact absurd same (by decide +kernel)

end Addressing

end GreenRio
