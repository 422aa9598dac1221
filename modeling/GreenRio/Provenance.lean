import GreenRio.MissAnswers
import GreenRio.Synchronous

set_option autoImplicit false

namespace GreenRio

/-- Where a translation comes from. -/
structure Source where
  /-- The page number its walk began at. -/
  root : Ppn
  /-- A page-table entry has been read for it. -/
  read : Bool
  /-- One was read before its TLB was last flushed in full. -/
  stale : Bool
  deriving DecidableEq

def Source.aged (source : Source) (full : Bool) : Source :=
  { source with stale := source.stale || (full && source.read) }

@[simp] theorem Source.aged_false (source : Source) : source.aged false = source := by
  simp [aged]

@[simp] theorem Source.aged_root (source : Source) (full : Bool) :
    (source.aged full).root = source.root := rfl

@[simp] theorem Source.aged_read (source : Source) (full : Bool) :
    (source.aged full).read = source.read := rfl

/-- The sources of what a TLB holds. -/
structure Sources where
  resp : Source
  entry : Fin 32 → Source
  excp : Source

namespace Sources

variable {n : Nat}

/-- One cycle of a TLB, given the source of what the walker may answer. -/
def step (sources : Sources) (unit : TlbUnit n) (input : TlbInput) (walk : Source) : Sources where
  resp := (if input.nextLvlRespVld then walk else sources.resp).aged input.flush.full
  entry i := (if unit.entryVldSet i then sources.resp else sources.entry i).aged input.flush.full
  excp :=
    (if TlbUnit.refillExceptionEntry input then walk else sources.excp).aged input.flush.full

/-- All that is valid in a TLB has a good source for its address space. -/
structure Sound (sources : Sources) (unit : TlbUnit n) (Good : BitVec 16 → Source → Prop) :
    Prop where
  resp : unit.respVldQ = true → Good unit.respQ.asid sources.resp
  entry : ∀ i, (unit.tlb.entries i).v = true → Good (unit.tlb.entries i).asid (sources.entry i)
  excp : unit.tlb.excp.v = true → Good unit.tlb.excp.asid sources.excp

variable {sources : Sources} {unit : TlbUnit n} {input : TlbInput} {walk : Source}
variable {kind : TlbKind n} {fifo : MultiPortStreamFIFO MissReq}
variable {Good Good' : BitVec 16 → Source → Prop}

theorem clean_full (full : input.flush.full = true) (i : Fin 32) :
    unit.entryVldClean kind input i = true := by
  simp only [TlbFlush.full, Bool.and_eq_true, Bool.not_eq_true'] at full
  simp [TlbUnit.entryVldClean, TlbUnit.clean, full]

/-- It stays so when what the walker answers has a good source. -/
theorem Sound.step (sound : sources.Sound unit Good)
    (grows : ∀ asid source, Good asid source → Good' asid source)
    (answer : input.nextLvlRespVld = true →
      Good' input.nextLvlResp.translateReq.asid (walk.aged input.flush.full)) :
    (sources.step unit input walk).Sound (unit.step kind fifo input) Good' where
  resp := by
    intro vld
    change input.nextLvlRespVld = true at vld
    change Good' (if input.nextLvlRespVld then unit.refillNext input else unit.respQ).asid
      ((if input.nextLvlRespVld then walk else sources.resp).aged input.flush.full)
    rw [if_pos vld, if_pos vld]
    exact answer vld
  entry := by
    intro i valid
    change (unit.entryNext kind input i).v = true at valid
    change Good' (unit.entryNext kind input i).asid
      ((if unit.entryVldSet i then sources.resp else sources.entry i).aged input.flush.full)
    rw [TlbUnit.entryNext_v, Bool.and_eq_true, Bool.not_eq_true'] at valid
    obtain ⟨held, kept⟩ := valid
    have partly : input.flush.full = false := by
      rw [← Bool.not_eq_true]
      intro full
      rw [clean_full full] at kept
      cases kept
    rw [partly, Source.aged_false, TlbUnit.entryNext, kept]
    cases set : unit.entryVldSet i with
    | true =>
      have vld : unit.respVldQ = true := by
        simp only [TlbUnit.entryVldSet, TlbUnit.refillEntry, Bool.and_eq_true] at set
        exact set.1.1
      exact grows _ _ (sound.resp vld)
    | false =>
      rw [set, Bool.false_or] at held
      exact grows _ _ (sound.entry i held)
  excp := by
    intro valid
    change (unit.excpNext kind input).v = true at valid
    change Good' (unit.excpNext kind input).asid
      ((if TlbUnit.refillExceptionEntry input then walk else sources.excp).aged input.flush.full)
    have unflushed : input.flush.vld = false := by
      rw [← Bool.not_eq_true]
      intro flushed
      rw [TlbUnit.excpNext, flushed] at valid
      cases set : TlbUnit.refillExceptionEntry input <;> simp [set] at valid
    have partly : input.flush.full = false := by simp [TlbFlush.full, unflushed]
    cases set : TlbUnit.refillExceptionEntry input with
    | true =>
      have vld : input.nextLvlRespVld = true := by
        simp only [TlbUnit.refillExceptionEntry, Bool.and_eq_true] at set
        exact set.1
      have good := answer vld
      rw [partly] at good ⊢
      simpa [TlbUnit.excpNext, set] using good
    | false =>
      rw [partly, Source.aged_false]
      simp only [TlbUnit.excpNext, set, unflushed, Bool.false_eq_true, if_false] at valid ⊢
      exact grows _ _ (sound.excp valid)

theorem reset_sound (reset : unit.Reset) : sources.Sound unit Good where
  resp := by simp [reset.respVldQ]
  entry := by simp [reset.entries]
  excp := by simp [reset.excp]

end Sources

/-- The memory-management unit with the sources of its translations, and the address spaces and roots
that satp has held. -/
structure Traced where
  mmu : Mmu
  walk : Source
  dtlb : Sources
  itlb : Sources
  satp : List (BitVec 16 × Ppn)

namespace Traced

variable (parts : MmuParts) (state : Traced) (input : MmuInput)

/-- The source of the walk, with what is read in this cycle. -/
def walkRead : Source :=
  { state.walk with
    read := state.walk.read || (state.mmu.ptw.state == .inflight && input.walkRespVld) }

/-- The TLB that the walker works for is flushed in full. -/
def walkFlushed : Bool :=
  if TlbSide.data.mine state.mmu.ptw.translateReq.accessType then input.dtlbFlush.full
  else input.itlbFlush.full

def satpNow : List (BitVec 16 × Ppn) := (input.satpAsid, input.satpPpn) :: state.satp

def walkNext : Source :=
  if state.mmu.ptw.idle2checkpermission (state.mmu.ptwInput parts input) then
    ⟨input.satpPpn, false, false⟩
  else (state.walkRead input).aged (state.walkFlushed input)

def step : Traced where
  mmu := state.mmu.step parts input
  walk := state.walkNext parts input
  dtlb := state.dtlb.step state.mmu.dtlb (state.mmu.dtlbInput parts input) (state.walkRead input)
  itlb := state.itlb.step state.mmu.itlb (state.mmu.itlbInput parts input) (state.walkRead input)
  satp := state.satpNow input

def beginning (mmu : Mmu) : Traced :=
  let nothing : Source := ⟨0, false, false⟩
  ⟨mmu, nothing, ⟨nothing, fun _ => nothing, nothing⟩, ⟨nothing, fun _ => nothing, nothing⟩, []⟩

def machine (mmu : Mmu) : Synchronous Traced MmuInput := ⟨beginning mmu, step parts⟩

section Walk

variable {parts : MmuParts} {mmu : Mmu} {input : MmuInput}

theorem idle2checkpermission_idle
    (accept : mmu.ptw.idle2checkpermission (mmu.ptwInput parts input) = true) :
    mmu.ptw.state = .idle ∧ (mmu.step parts input).ptw.translateReq = mmu.translateReq parts ∧
      (mmu.step parts input).ptw.walkingLvl = 2 := by
  simp only [Ptw.idle2checkpermission, Bool.and_eq_true, beq_iff_eq] at accept
  refine ⟨accept.1, ?_⟩
  change (mmu.ptw.step (mmu.ptwInput parts input)).translateReq = _ ∧
    (mmu.ptw.step (mmu.ptwInput parts input)).walkingLvl = 2
  rw [Ptw.step_accept accept.2]
  exact ⟨rfl, rfl⟩

/-- A walker that is busy after a cycle has just taken a request, or it goes on with its own. -/
theorem busy_cases (busy : (mmu.step parts input).ptw.state ≠ .idle) :
    mmu.ptw.idle2checkpermission (mmu.ptwInput parts input) = true ∨
      (mmu.ptw.idle2checkpermission (mmu.ptwInput parts input) = false ∧ mmu.ptw.state ≠ .idle ∧
        mmu.translateRespVld parts input = false ∧
        (mmu.step parts input).ptw.translateReq = mmu.ptw.translateReq) := by
  cases accept : mmu.ptw.idle2checkpermission (mmu.ptwInput parts input) with
  | true => exact .inl rfl
  | false =>
    by_cases idle : mmu.ptw.state = .idle
    · have none : (mmu.ptwInput parts input).translateReqVld = false := by
        simpa [Ptw.idle2checkpermission, Ptw.translateReqFire, Ptw.translateReqRdy, idle] using accept
      exact absurd (Ptw.step_idle_none idle none) busy
    · rcases Mmu.step_ptw_busy idle with ⟨-, rests⟩ | ⟨quiet, -, same⟩
      · exact absurd rests busy
      · exact .inr ⟨rfl, idle, quiet, same⟩

/-- The walk goes one level down with each entry that it reads and does not end with. -/
theorem step_walkingLvl (busy : mmu.ptw.state ≠ .idle)
    (quiet : mmu.translateRespVld parts input = false) :
    ((mmu.ptw.state == .inflight && input.walkRespVld) = true ∧ mmu.ptw.walkingLvl ≠ 0 ∧
        (mmu.step parts input).ptw.walkingLvl = mmu.ptw.walkingLvl - 1) ∨
      ((mmu.ptw.state == .inflight && input.walkRespVld) = false ∧
        (mmu.step parts input).ptw.walkingLvl = mmu.ptw.walkingLvl) := by
  change _ ∨ (_ ∧ (mmu.ptw.step (mmu.ptwInput parts input)).walkingLvl = _)
  cases back : mmu.ptw.state == .inflight && input.walkRespVld with
  | false =>
    refine .inr ⟨rfl, ?_⟩
    have started : mmu.ptw.idle2checkpermission (mmu.ptwInput parts input) = false := by
      simp [Ptw.idle2checkpermission, busy]
    have stays : mmu.ptw.inflight2checkpermission (mmu.ptwInput parts input) = false := by
      rw [Ptw.inflight2checkpermission]
      change (_ && (input.walkRespVld && _ && _)) = false
      rw [Bool.and_assoc, ← Bool.and_assoc, back, Bool.false_and]
    rw [Ptw.step, started, stays, Bool.or_false, if_neg Bool.false_ne_true]
  | true =>
    simp only [Bool.and_eq_true, beq_iff_eq] at back
    have answered : (mmu.ptwInput parts input).walkRespVld = true := back.2
    have silent : ¬mmu.ptw.translateRespVld (mmu.ptwInput parts input) = true := by
      rw [Bool.not_eq_true]
      exact quiet
    rw [Ptw.answered_iff back.1 answered] at silent
    obtain ⟨pointer, above⟩ := not_not.mp silent
    refine .inl ⟨rfl, above, ?_⟩
    change (mmu.ptw.step (mmu.ptwInput parts input)).walkingLvl = _
    rw [Ptw.step_deeper back.1 back.2 pointer above]

end Walk

section Flush

variable {parts : MmuParts} {state : Traced} {input : MmuInput}

/-- Nothing that a TLB holds and nothing the walker read is from before a full flush. -/
structure Fresh (state : Traced) : Prop where
  walk : state.mmu.ptw.state ≠ .idle → state.walk.stale = false ∧
    state.mmu.ptw.walkingLvl.toNat ≤ 2 ∧ (state.mmu.ptw.walkingLvl = 2 → state.walk.read = false)
  dtlb : state.dtlb.Sound state.mmu.dtlb fun _ source => source.stale = false
  itlb : state.itlb.Sound state.mmu.itlb fun _ source => source.stale = false

/-- No translation or fault answered in this cycle is from before a full flush. -/
structure AnswersFresh (state : Traced) (input : MmuInput) : Prop where
  dtlb : ∀ i, Dtlb.kind.entryHit state.mmu.dtlb.tlb input.status i = true →
    (state.dtlb.entry i).stale = false
  dtlbExcp : Dtlb.kind.excpEntryHit state.mmu.dtlb.tlb input.status = true →
    state.dtlb.excp.stale = false
  itlb : ∀ i, Itlb.kind.entryHit state.mmu.itlb.tlb input.status i = true →
    (state.itlb.entry i).stale = false
  itlbExcp : Itlb.kind.excpEntryHit state.mmu.itlb.tlb input.status = true →
    state.itlb.excp.stale = false

/-- The walker has read no entry of a page table for its request, and gets none in this cycle. -/
def Unread (ptw : Ptw) (input : MmuInput) : Prop :=
  ptw.walkingLvl = 2 ∧ (ptw.state = .inflight → input.walkRespVld = false)

/-- A TLB is flushed in full only while no walk for it has read anything. -/
structure Settled (state : Traced) (input : MmuInput) : Prop where
  dtlb : input.dtlbFlush.full = true → TlbUnit.Walking TlbSide.data.mine state.mmu.ptw →
    Unread state.mmu.ptw input
  itlb : input.itlbFlush.full = true → TlbUnit.Walking TlbSide.instruction.mine state.mmu.ptw →
    Unread state.mmu.ptw input

theorem Fresh.unread (fresh : Fresh state) (busy : state.mmu.ptw.state ≠ .idle)
    (unread : Unread state.mmu.ptw input) : (state.walkRead input).read = false := by
  have before := (fresh.walk busy).2.2 unread.1
  cases flying : state.mmu.ptw.state == .inflight with
  | false => simp [walkRead, before, flying]
  | true => simp [walkRead, before, unread.2 (beq_iff_eq.mp flying)]

/-- What is answered while its TLB is flushed has not been read. -/
theorem Fresh.aged (fresh : Fresh state) (busy : state.mmu.ptw.state ≠ .idle) {full : Bool}
    (settled : full = true → Unread state.mmu.ptw input) :
    ((state.walkRead input).aged full).stale = false := by
  cases flushed : full with
  | false => simpa [walkRead] using (fresh.walk busy).1
  | true =>
    rw [Source.aged, fresh.unread busy (settled flushed)]
    simpa [walkRead] using (fresh.walk busy).1

theorem Fresh.step_walk (fresh : Fresh state) (tracked : state.mmu.Tracked)
    (settled : Settled state input) (busy : (state.step parts input).mmu.ptw.state ≠ .idle) :
    (state.walkNext parts input).stale = false ∧
      (state.mmu.step parts input).ptw.walkingLvl.toNat ≤ 2 ∧
      ((state.mmu.step parts input).ptw.walkingLvl = 2 →
        (state.walkNext parts input).read = false) := by
  rcases busy_cases busy with accept | ⟨goesOn, walking, quiet, -⟩
  · obtain ⟨-, -, top⟩ := idle2checkpermission_idle accept
    rw [walkNext, if_pos accept, top]
    exact ⟨rfl, by decide, fun _ => rfl⟩
  · have flushed : state.walkFlushed input = true → Unread state.mmu.ptw input := by
      intro full
      rcases tracked.served walking with data | fetch
      · rw [walkFlushed, if_pos data.2] at full
        exact settled.dtlb full data
      · have apart : ¬TlbSide.data.mine state.mmu.ptw.translateReq.accessType = true :=
          fun data => Mmu.walking_apart ⟨walking, data⟩ fetch
        rw [walkFlushed, if_neg apart] at full
        exact settled.itlb full fetch
    obtain ⟨-, bound, top⟩ := fresh.walk walking
    rw [walkNext, goesOn, if_neg Bool.false_ne_true]
    refine ⟨fresh.aged walking flushed, ?_⟩
    rcases step_walkingLvl walking quiet with ⟨-, above, down⟩ | ⟨still, same⟩
    · have positive : state.mmu.ptw.walkingLvl.toNat ≠ 0 :=
        fun zero => above (BitVec.eq_of_toNat_eq zero)
      have lower : (state.mmu.ptw.walkingLvl - 1).toNat = state.mmu.ptw.walkingLvl.toNat - 1 := by
        simp only [BitVec.toNat_sub, BitVec.ofNat_eq_ofNat, BitVec.toNat_ofNat]
        omega
      rw [down]
      refine ⟨by omega, fun two => ?_⟩
      have number := congrArg BitVec.toNat two
      rw [lower] at number
      simp only [BitVec.ofNat_eq_ofNat, BitVec.toNat_ofNat] at number
      omega
    · rw [same]
      refine ⟨bound, fun two => ?_⟩
      simp [walkRead, top two, still]

/-- Full flushes that are settled leave nothing stale. -/
theorem Fresh.step (fresh : Fresh state) (tracked : state.mmu.Tracked)
    (settled : Settled state input) : Fresh (state.step parts input) where
  walk := fresh.step_walk tracked settled
  dtlb := fresh.dtlb.step (fun _ _ good => good) fun answer => by
    have walking := (tracked.exchange_dtlb parts input).answer answer
    exact fresh.aged walking.1.1 fun full => settled.dtlb full walking.1
  itlb := fresh.itlb.step (fun _ _ good => good) fun answer => by
    have walking := (tracked.exchange_itlb parts input).answer answer
    exact fresh.aged walking.1.1 fun full => settled.itlb full walking.1

theorem Fresh.answers (fresh : Fresh state) : AnswersFresh state input where
  dtlb := by
    intro i hit
    simp only [Dtlb.kind, Dtlb.entryHit, Bool.and_eq_true] at hit
    exact fresh.dtlb.entry i hit.1.1.2
  dtlbExcp := by
    intro hit
    simp only [Dtlb.kind, Dtlb.excpEntryHit, Bool.and_eq_true] at hit
    exact fresh.dtlb.excp hit.1.1.1.2
  itlb := by
    intro i hit
    simp only [Itlb.kind, Itlb.entryHit, Bool.and_eq_true] at hit
    exact fresh.itlb.entry i hit.1.1.2
  itlbExcp := by
    intro hit
    simp only [Itlb.kind, Itlb.excpEntryHit, Bool.and_eq_true] at hit
    exact fresh.itlb.excp hit.1.1.2

theorem reset_fresh {mmu : Mmu} (reset : mmu.Reset) : Fresh (beginning mmu) where
  walk := fun busy => absurd reset.ptw busy
  dtlb := Sources.reset_sound reset.dtlb
  itlb := Sources.reset_sound reset.itlb

theorem run_fresh {mmu : Mmu} (reset : mmu.Reset) (inputs : List MmuInput)
    (settled : (machine parts mmu).Obeys Settled inputs) :
    ((machine parts mmu).run inputs).mmu.Tracked ∧ Fresh ((machine parts mmu).run inputs) := by
  induction inputs using List.reverseRecOn with
  | nil => exact ⟨Mmu.reset_tracked reset, reset_fresh reset⟩
  | append_singleton inputs input ih =>
    obtain ⟨before, last⟩ := Synchronous.obeys_snoc.mp settled
    obtain ⟨tracked, fresh⟩ := ih before
    rw [Synchronous.run_snoc]
    exact ⟨tracked.step parts input, fresh.step tracked last⟩

/-- When no full flush comes after the walker has begun to read for its TLB, none leaves a
translation behind. -/
theorem full_flush_leaves_nothing {mmu : Mmu} (reset : mmu.Reset) (inputs : List MmuInput)
    (settled : (machine parts mmu).Obeys Settled inputs) :
    (machine parts mmu).Obeys AnswersFresh inputs := by
  intro past input rest split
  exact (run_fresh reset past (Synchronous.obeys_prefix settled split)).2.answers

instance (state : Traced) (input : MmuInput) : Decidable (Settled state input) :=
  decidable_of_iff
    ((input.dtlbFlush.full = true →
        (state.mmu.ptw.state ≠ .idle ∧
          TlbSide.data.mine state.mmu.ptw.translateReq.accessType = true) →
        (state.mmu.ptw.walkingLvl = 2 ∧
          (state.mmu.ptw.state = .inflight → input.walkRespVld = false))) ∧
      (input.itlbFlush.full = true →
        (state.mmu.ptw.state ≠ .idle ∧
          TlbSide.instruction.mine state.mmu.ptw.translateReq.accessType = true) →
        (state.mmu.ptw.walkingLvl = 2 ∧
          (state.mmu.ptw.state = .inflight → input.walkRespVld = false))))
    ⟨fun both => ⟨both.1, both.2⟩, fun settled => ⟨settled.dtlb, settled.itlb⟩⟩

/-- A load from page 5 under the given satp, with or without a full flush of the data TLB and an
answer of the memory. -/
def load (satp : BitVec 16 × Ppn) (flush answer : Bool) : MmuInput :=
  { Mmu.bothMiss with
    satpAsid := satp.1
    satpPpn := satp.2
    itlbReqVld := false
    dtlbFlush := ⟨flush, false, false, 0, 0⟩
    walkRespVld := answer }

/-- Six loads from one page, the TLB being flushed with one of them; the walk is answered with the
fifth. -/
def flushedAt (cycle : Nat) : List MmuInput :=
  (List.range 6).map fun now => load (1, 0x80000) (now == cycle) (now == 4)

theorem full_flush_before_read :
    (machine Mmu.standardParts Mmu.zero).Obeys AnswersFresh
      (flushedAt 3 ++ [load (1, 0x80000) false false]) :=
  full_flush_leaves_nothing Mmu.zero_reset _ (by decide +kernel)

/-- The walk ends in the cycle of the flush; its answer is registered then and written after it. -/
theorem full_flush_leaves_walk :
    ¬(machine Mmu.standardParts Mmu.zero).Obeys AnswersFresh
      (flushedAt 4 ++ [load (1, 0x80000) false false]) := by
  intro obeys
  have fresh :=
    (obeys (flushedAt 4) (load (1, 0x80000) false false) [] rfl).dtlb 0 (by decide +kernel)
  have stale :
      (((machine Mmu.standardParts Mmu.zero).run (flushedAt 4)).dtlb.entry 0).stale = true := by
    decide +kernel
  rw [stale] at fresh
  cases fresh

end Flush

section Tags

variable {parts : MmuParts} {state : Traced} {input : MmuInput}

/-- Each entry that is valid and not global comes from a root that satp held with its address space,
and so does what a lookup of that address space gets. -/
structure Tagged (state : Traced) (input : MmuInput) : Prop where
  dtlb : ∀ i, (state.mmu.dtlb.tlb.entries i).v = true → (state.mmu.dtlb.tlb.entries i).g = false →
    ((state.mmu.dtlb.tlb.entries i).asid, (state.dtlb.entry i).root) ∈ state.satp
  itlb : ∀ i, (state.mmu.itlb.tlb.entries i).v = true → (state.mmu.itlb.tlb.entries i).g = false →
    ((state.mmu.itlb.tlb.entries i).asid, (state.itlb.entry i).root) ∈ state.satp
  dtlbHit : ∀ i, Dtlb.kind.entryHit state.mmu.dtlb.tlb input.status i = true →
    (state.mmu.dtlb.tlb.entries i).g = false →
    (state.mmu.dtlb.tlb.reqAsid, (state.dtlb.entry i).root) ∈ state.satp
  itlbHit : ∀ i, Itlb.kind.entryHit state.mmu.itlb.tlb input.status i = true →
    (state.mmu.itlb.tlb.entries i).g = false →
    (state.mmu.itlb.tlb.reqAsid, (state.itlb.entry i).root) ∈ state.satp

/-- The walker takes a request only when satp has held its address space with the present root. -/
def Paired (parts : MmuParts) (state : Traced) (input : MmuInput) : Prop :=
  state.mmu.ptw.idle2checkpermission (state.mmu.ptwInput parts input) = true →
    ((state.mmu.translateReq parts).asid, input.satpPpn) ∈ state.satpNow input

/-- All that the walker and the TLBs hold comes from a root that satp held with its address space. -/
structure Rooted (state : Traced) : Prop where
  walk : state.mmu.ptw.state ≠ .idle →
    (state.mmu.ptw.translateReq.asid, state.walk.root) ∈ state.satp
  dtlb : state.dtlb.Sound state.mmu.dtlb fun asid source => (asid, source.root) ∈ state.satp
  itlb : state.itlb.Sound state.mmu.itlb fun asid source => (asid, source.root) ∈ state.satp

theorem Rooted.step_walk (rooted : Rooted state) (paired : Paired parts state input)
    (busy : (state.mmu.step parts input).ptw.state ≠ .idle) :
    ((state.mmu.step parts input).ptw.translateReq.asid, (state.walkNext parts input).root) ∈
      state.satpNow input := by
  rcases busy_cases busy with accept | ⟨goesOn, walking, -, same⟩
  · obtain ⟨-, taken, -⟩ := idle2checkpermission_idle accept
    rw [walkNext, if_pos accept, taken]
    exact paired accept
  · rw [walkNext, goesOn, if_neg Bool.false_ne_true, same]
    exact List.mem_cons_of_mem _ (rooted.walk walking)

/-- A cycle keeps the address spaces with their roots. -/
theorem Rooted.step (rooted : Rooted state) (tracked : state.mmu.Tracked)
    (paired : Paired parts state input) : Rooted (state.step parts input) where
  walk := rooted.step_walk paired
  dtlb := rooted.dtlb.step (fun _ _ => List.mem_cons_of_mem _) fun answer =>
    List.mem_cons_of_mem _
      (rooted.walk ((tracked.exchange_dtlb parts input).answer answer).1.1)
  itlb := rooted.itlb.step (fun _ _ => List.mem_cons_of_mem _) fun answer =>
    List.mem_cons_of_mem _
      (rooted.walk ((tracked.exchange_itlb parts input).answer answer).1.1)

theorem Rooted.tagged (rooted : Rooted state) : Tagged state input where
  dtlb i valid _ := rooted.dtlb.entry i valid
  itlb i valid _ := rooted.itlb.entry i valid
  dtlbHit := by
    intro i hit nonglobal
    simp only [Dtlb.kind, Dtlb.entryHit, Bool.and_eq_true, nonglobal, Bool.or_false,
      beq_iff_eq] at hit
    rw [hit.1.2]
    exact rooted.dtlb.entry i hit.1.1.2
  itlbHit := by
    intro i hit nonglobal
    simp only [Itlb.kind, Itlb.entryHit, Bool.and_eq_true, nonglobal, Bool.or_false,
      beq_iff_eq] at hit
    rw [hit.1.2]
    exact rooted.itlb.entry i hit.1.1.2

theorem reset_rooted {mmu : Mmu} (reset : mmu.Reset) : Rooted (beginning mmu) where
  walk := fun busy => absurd reset.ptw busy
  dtlb := Sources.reset_sound reset.dtlb
  itlb := Sources.reset_sound reset.itlb

theorem run_rooted {mmu : Mmu} (reset : mmu.Reset) (inputs : List MmuInput)
    (paired : (machine parts mmu).Obeys (Paired parts) inputs) :
    ((machine parts mmu).run inputs).mmu.Tracked ∧ Rooted ((machine parts mmu).run inputs) := by
  induction inputs using List.reverseRecOn with
  | nil => exact ⟨Mmu.reset_tracked reset, reset_rooted reset⟩
  | append_singleton inputs input ih =>
    obtain ⟨before, last⟩ := Synchronous.obeys_snoc.mp paired
    obtain ⟨tracked, rooted⟩ := ih before
    rw [Synchronous.run_snoc]
    exact ⟨tracked.step parts input, rooted.step tracked last⟩

/-- When the walker takes each request under a root of its address space, all entries keep their
address spaces apart. -/
theorem tags_sound {mmu : Mmu} (reset : mmu.Reset) (inputs : List MmuInput)
    (paired : (machine parts mmu).Obeys (Paired parts) inputs) (input : MmuInput) :
    Tagged ((machine parts mmu).run inputs) input :=
  (run_rooted reset inputs paired).2.tagged

instance (parts : MmuParts) (state : Traced) (input : MmuInput) :
    Decidable (Paired parts state input) :=
  inferInstanceAs (Decidable (_ → _))

/-- Six loads from one page; satp changes from the second address space on. -/
def satpChangesAt (cycle : Nat) : List MmuInput :=
  (List.range 6).map fun now =>
    load (if now < cycle then (1, 0x80000) else (2, 0x90000)) false (now == 4)

theorem tags_sound_after_switch :
    Tagged ((machine Mmu.standardParts Mmu.zero).run (satpChangesAt 3))
      (load (1, 0x80000) false false) :=
  tags_sound Mmu.zero_reset _ (by decide +kernel) _

/-- satp changes while the miss waits for the walker: the entry of the first address space comes from
the root of the second. -/
theorem tag_of_other_root :
    ¬Tagged ((machine Mmu.standardParts Mmu.zero).run (satpChangesAt 2))
      (load (1, 0x80000) false false) := by
  intro tagged
  have held := tagged.dtlb 0 (by decide +kernel) (by decide +kernel)
  exact absurd held (by decide +kernel)

end Tags

end Traced

end GreenRio
