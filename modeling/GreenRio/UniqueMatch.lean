import GreenRio.MissAnswers
import GreenRio.Synchronous

set_option autoImplicit false

namespace GreenRio

/-- Two page numbers are equal under a mask when they keep the same bits of it. -/
theorem vpnEqual_iff {left right mask : Vpn} :
    vpnEqual left right mask = true ↔ left &&& mask = right &&& mask := by
  rw [vpnEqual, beq_iff_eq]
  constructor
  · intro all
    apply BitVec.eq_of_getLsbD_eq
    intro position inside
    have bit := congrArg (fun x => x.getLsbD position) all
    simp only [BitVec.getLsbD_or, BitVec.getLsbD_not, BitVec.getLsbD_xor, BitVec.getLsbD_allOnes,
      inside, decide_true, Bool.true_and] at bit
    rw [BitVec.getLsbD_and, BitVec.getLsbD_and]
    revert bit
    cases left.getLsbD position <;> cases right.getLsbD position <;>
      cases mask.getLsbD position <;> decide
  · intro same
    apply BitVec.eq_of_getLsbD_eq
    intro position inside
    have bit := congrArg (fun x => x.getLsbD position) same
    simp only [BitVec.getLsbD_and] at bit
    simp only [BitVec.getLsbD_or, BitVec.getLsbD_not, BitVec.getLsbD_xor, BitVec.getLsbD_allOnes,
      inside, decide_true, Bool.true_and]
    revert bit
    cases left.getLsbD position <;> cases right.getLsbD position <;>
      cases mask.getLsbD position <;> decide

theorem vpnEqual_comm (left right mask : Vpn) :
    vpnEqual left right mask = vpnEqual right left mask := by
  rw [vpnEqual, vpnEqual, BitVec.xor_comm]

namespace TlbUnit

variable {n : Nat} {kind : TlbKind n} {unit : TlbUnit n} {input : TlbInput} {mask : Vpn}

/-- The entry is valid for the address space and its page number matches. -/
def Matches (unit : TlbUnit n) (mask vpn : Vpn) (asid : BitVec 16) (i : Fin 32) : Prop :=
  (unit.tlb.entries i).v = true ∧
    (asid = (unit.tlb.entries i).asid ∨ (unit.tlb.entries i).g = true) ∧
    vpnEqual vpn (unit.tlb.entries i).vpn mask = true

/-- At most one entry matches any page of any address space. -/
def MatchesUnique (unit : TlbUnit n) (mask : Vpn) : Prop :=
  ∀ vpn asid i j, unit.Matches mask vpn asid i → unit.Matches mask vpn asid j → i = j

/-- No valid entry holds a page. -/
def Lacks (unit : TlbUnit n) (mask vpn : Vpn) : Prop :=
  ∀ i, (unit.tlb.entries i).v = true → vpnEqual (unit.tlb.entries i).vpn vpn mask = false

/-- No entry that is valid after this cycle holds the page: neither one that stays nor the one that
the registered response fills. -/
structure LacksNext (kind : TlbKind n) (unit : TlbUnit n) (input : TlbInput) (mask vpn : Vpn) :
    Prop where
  kept : ∀ i, (unit.tlb.entries i).v = true → unit.entryVldSet i = false →
    unit.entryVldClean kind input i = false → vpnEqual (unit.tlb.entries i).vpn vpn mask = false
  filled : ∀ i, unit.entryVldSet i = true → unit.entryVldClean kind input i = false →
    vpnEqual unit.respQ.vpn vpn mask = false

/-- The entries of a TLB hold different pages, and the page of a registered response is none of
them. -/
structure Distinct (unit : TlbUnit n) (mask : Vpn) : Prop where
  entries : ∀ i j, i ≠ j → (unit.tlb.entries i).v = true → (unit.tlb.entries j).v = true →
    vpnEqual (unit.tlb.entries i).vpn (unit.tlb.entries j).vpn mask = false
  refill : unit.refillEntry = true → unit.Lacks mask unit.respQ.vpn
  slot : unit.respVldQ = true →
    ∃ slot : Fin 32, ∀ i : Fin 32, unit.respQ.entryMask.getLsbD i = true ↔ i = slot

/-- A response goes to one entry. -/
theorem exists_refillEntryMask (unit : TlbUnit n) (input : TlbInput) :
    ∃ slot : Fin 32, ∀ i : Fin 32, (unit.refillEntryMask input).getLsbD i = true ↔ i = slot := by
  rw [refillEntryMask]
  split
  · next invalid =>
    obtain ⟨slot, inside, -, only⟩ := exists_lowest (bne_iff_ne.mp invalid)
    refine ⟨⟨slot, inside⟩, fun i => ?_⟩
    rw [only, Fin.ext_iff]
  · refine ⟨input.evict, fun i => ?_⟩
    rw [BitVec.getLsbD_twoPow, Fin.ext_iff]
    simp [eq_comm]

/-- An entry that is valid after a cycle was filled in it, or has stayed. -/
theorem entryNext_valid {i : Fin 32} (valid : (unit.entryNext kind input i).v = true) :
    unit.entryVldClean kind input i = false ∧
      ((unit.entryVldSet i = true ∧ (unit.entryNext kind input i).vpn = unit.respQ.vpn) ∨
        (unit.entryVldSet i = false ∧ (unit.tlb.entries i).v = true ∧
          (unit.entryNext kind input i).vpn = (unit.tlb.entries i).vpn)) := by
  rw [entryNext_v, Bool.and_eq_true, Bool.not_eq_true'] at valid
  obtain ⟨held, kept⟩ := valid
  refine ⟨kept, ?_⟩
  cases set : unit.entryVldSet i with
  | true => exact .inl ⟨rfl, by simp [entryNext, set, TlbRefill.entry]⟩
  | false =>
    rw [set, Bool.false_or] at held
    exact .inr ⟨rfl, held, by simp [entryNext, set, kept]⟩

variable {fifo : MultiPortStreamFIFO MissReq} {vpn : Vpn}

theorem LacksNext.step (lacks : LacksNext kind unit input mask vpn) :
    (unit.step kind fifo input).Lacks mask vpn := by
  intro i valid
  change vpnEqual (unit.entryNext kind input i).vpn vpn mask = false
  obtain ⟨kept, ⟨set, same⟩ | ⟨unset, held, same⟩⟩ := entryNext_valid valid
  · rw [same]
    exact lacks.filled i set kept
  · rw [same]
    exact lacks.kept i held unset kept

/-- Without a refill no page comes in. -/
theorem Lacks.step_quiet (lacks : unit.Lacks mask vpn) (quiet : unit.respVldQ = false) :
    (unit.step kind fifo input).Lacks mask vpn := by
  apply LacksNext.step
  refine ⟨fun i valid _ _ => lacks i valid, fun i set => ?_⟩
  simp [entryVldSet, refillEntry, quiet] at set

/-- The refill brings a page that the others do not hold. -/
theorem Distinct.step_entries (distinct : unit.Distinct mask) (i j : Fin 32) (apart : i ≠ j)
    (left : (unit.entryNext kind input i).v = true)
    (right : (unit.entryNext kind input j).v = true) :
    vpnEqual (unit.entryNext kind input i).vpn (unit.entryNext kind input j).vpn mask = false := by
  have refill : ∀ k, unit.entryVldSet k = true →
      unit.refillEntry = true ∧ unit.respQ.entryMask.getLsbD k = true := by
    intro k set
    simpa [entryVldSet] using set
  obtain ⟨-, ⟨setLeft, sameLeft⟩ | ⟨-, heldLeft, sameLeft⟩⟩ := entryNext_valid left <;>
    obtain ⟨-, ⟨setRight, sameRight⟩ | ⟨-, heldRight, sameRight⟩⟩ := entryNext_valid right <;>
    rw [sameLeft, sameRight]
  · have vld : unit.respVldQ = true := by
      have fills := (refill i setLeft).1
      simp only [refillEntry, Bool.and_eq_true] at fills
      exact fills.1
    obtain ⟨slot, only⟩ := distinct.slot vld
    have first := (only i).mp (refill i setLeft).2
    have second := (only j).mp (refill j setRight).2
    exact absurd (first.trans second.symm) apart
  · rw [vpnEqual_comm]
    exact distinct.refill (refill i setLeft).1 j heldRight
  · exact distinct.refill (refill j setRight).1 i heldLeft
  · exact distinct.entries i j apart heldLeft heldRight

/-- The walker works only for pages that are missing. -/
theorem Distinct.step (distinct : unit.Distinct mask)
    (answer : input.nextLvlRespVld = true →
      unit.respVldQ = false ∧ unit.Lacks mask input.nextLvlResp.translateReq.vpn) :
    (unit.step kind fifo input).Distinct mask where
  entries := distinct.step_entries
  refill := by
    intro fills
    have vld : input.nextLvlRespVld = true := by
      simp only [refillEntry, Bool.and_eq_true] at fills
      exact fills.1
    obtain ⟨quiet, lacks⟩ := answer vld
    change (unit.step kind fifo input).Lacks mask
      (if input.nextLvlRespVld then unit.refillNext input else unit.respQ).vpn
    rw [if_pos vld]
    exact lacks.step_quiet quiet
  slot := by
    intro vld
    change input.nextLvlRespVld = true at vld
    change ∃ slot : Fin 32, ∀ i : Fin 32,
      (if input.nextLvlRespVld then unit.refillNext input else unit.respQ).entryMask.getLsbD i =
        true ↔ i = slot
    rw [if_pos vld]
    exact unit.exists_refillEntryMask input

theorem reset_distinct (reset : unit.Reset) : unit.Distinct mask where
  entries := by simp [reset.entries]
  refill := by simp [refillEntry, reset.respVldQ]
  slot := by simp [reset.respVldQ]

/-- Of entries with different pages one at most matches. -/
theorem Distinct.matchesUnique (distinct : unit.Distinct mask) : unit.MatchesUnique mask := by
  intro vpn asid i j left right
  by_contra apart
  have differ := distinct.entries i j apart left.1 right.1
  have same := (vpnEqual_iff.mp left.2.2).symm.trans (vpnEqual_iff.mp right.2.2)
  rw [vpnEqual_iff.mpr same] at differ
  cases differ

end TlbUnit

namespace Mmu

variable {parts : MmuParts} {mmu start : Mmu} {input : MmuInput} {mask : Vpn}

/-- A miss of the data TLB is granted only when no entry holds its page. -/
def GrantsMissing (parts : MmuParts) (mmu : Mmu) (input : MmuInput) : Prop :=
  mmu.dtlb.mshr.grantFire parts.fifo (mmu.dtlb.mshrInput Dtlb.kind (mmu.dtlbInput parts input)) =
      true →
    TlbUnit.LacksNext Dtlb.kind mmu.dtlb (mmu.dtlbInput parts input)
      (Dtlb.genPageVpnMask input.status.satpMode) (mmu.dtlb.mshr.grantReq parts.fifo).vpn

/-- The entries of the data TLB hold different pages, and the walker walks for none of them. -/
structure Unique (mmu : Mmu) (mask : Vpn) : Prop where
  dtlb : mmu.dtlb.Distinct mask
  walk : TlbUnit.Walking TlbSide.data.mine mmu.ptw →
    mmu.dtlb.Lacks mask mmu.ptw.translateReq.vpn

theorem Unique.step (unique : mmu.Unique mask) (tracked : mmu.Tracked)
    (grants : GrantsMissing parts mmu input)
    (constant : Dtlb.genPageVpnMask input.status.satpMode = mask) :
    (mmu.step parts input).Unique mask := by
  have exchange := tracked.exchange_dtlb parts input
  have quiet : mmu.ptw.state ≠ .idle → mmu.dtlb.respVldQ = false := by
    intro busy
    rw [← Bool.not_eq_true]
    exact fun vld => busy (tracked.dtlb.rest vld)
  refine ⟨unique.dtlb.step fun answer => ?_, fun walking => ?_⟩
  · obtain ⟨walked, -, same⟩ := exchange.answer answer
    rw [same]
    exact ⟨quiet walked.1, unique.walk walked⟩
  · cases fire : mmu.dtlb.mshr.grantFire parts.fifo
        (mmu.dtlb.mshrInput Dtlb.kind (mmu.dtlbInput parts input)) with
    | true =>
      have missing := grants fire
      rw [constant] at missing
      rw [(exchange.accept fire).2.2]
      exact missing.step
    | false =>
      have busy : mmu.ptw.state ≠ .idle := fun idle => exchange.other idle fire walking
      have walked : TlbUnit.Walking TlbSide.data.mine mmu.ptw := by
        by_contra other
        exact exchange.foreign busy other walking
      have silent : (mmu.dtlbInput parts input).nextLvlRespVld = false := by
        rw [← Bool.not_eq_true]
        exact fun answer => walking.1 (exchange.answer answer).2.1
      rw [(exchange.busy walked silent).2]
      exact (unique.walk walked).step_quiet (quiet busy)

def machine (parts : MmuParts) (start : Mmu) : Synchronous Mmu MmuInput := ⟨start, step parts⟩

theorem run_unique (reset : start.Reset) (mode : BitVec 4) (inputs : List MmuInput)
    (constant : ∀ input ∈ inputs, input.status.satpMode = mode)
    (grants : (machine parts start).Obeys (GrantsMissing parts) inputs) :
    ((machine parts start).run inputs).Tracked ∧
      ((machine parts start).run inputs).Unique (Dtlb.genPageVpnMask mode) := by
  induction inputs using List.reverseRecOn with
  | nil =>
    refine ⟨reset_tracked reset, TlbUnit.reset_distinct reset.dtlb, fun walking => ?_⟩
    exact absurd reset.ptw walking.1
  | append_singleton inputs input ih =>
    obtain ⟨before, last⟩ := Synchronous.obeys_snoc.mp grants
    obtain ⟨tracked, unique⟩ := ih (fun input member => constant input (by simp [member])) before
    have same : input.status.satpMode = mode := constant input (by simp)
    rw [Synchronous.run_snoc]
    exact ⟨tracked.step parts input, unique.step tracked last (by rw [same])⟩

/-- In every run that grants only missing pages, at most one entry of the data TLB matches. -/
theorem matches_unique (reset : start.Reset) (mode : BitVec 4) (inputs : List MmuInput)
    (constant : ∀ input ∈ inputs, input.status.satpMode = mode)
    (grants : (machine parts start).Obeys (GrantsMissing parts) inputs) :
    ((machine parts start).run inputs).dtlb.MatchesUnique (Dtlb.genPageVpnMask mode) :=
  (run_unique reset mode inputs constant grants).2.dtlb.matchesUnique

instance (parts : MmuParts) (mmu : Mmu) (input : MmuInput) :
    Decidable (GrantsMissing parts mmu input) :=
  have : ∀ mask vpn, Decidable
      (TlbUnit.LacksNext Dtlb.kind mmu.dtlb (mmu.dtlbInput parts input) mask vpn) := fun _ _ =>
    decidable_of_iff (_ ∧ _) ⟨fun both => ⟨both.1, both.2⟩, fun lacks => ⟨lacks.kept, lacks.filled⟩⟩
  inferInstanceAs (Decidable (_ → _))

/-- Loads from pages 5 and 6 and from a third page, each answered after two cycles of its walk. -/
def threeLoads (third : Vpn) : List MmuInput :=
  (List.range 12).map fun cycle =>
    { bothMiss with
      dtlbReqVld := decide (cycle < 3)
      dtlbReqVpn := if cycle = 0 then 5 else if cycle = 1 then 6 else third
      itlbReqVld := false
      walkRespVld := decide (cycle = 4 ∨ cycle = 7 ∨ cycle = 10) }

theorem matches_unique_three :
    ((machine standardParts zero).run (threeLoads 7)).dtlb.MatchesUnique (Dtlb.genPageVpnMask 8) :=
  matches_unique zero_reset 8 (threeLoads 7) (by decide) (by decide +kernel)

/-- The second load from page 5 waits behind the load from page 6, and is granted when the first one
has been answered. -/
theorem matches_twice :
    ¬((machine standardParts zero).run (threeLoads 5)).dtlb.MatchesUnique (Dtlb.genPageVpnMask 8) := by
  intro unique
  have same := unique 5 1 0 2 ⟨by decide +kernel, .inl (by decide +kernel), by decide +kernel⟩
    ⟨by decide +kernel, .inl (by decide +kernel), by decide +kernel⟩
  exact absurd same (by decide)

end Mmu

end GreenRio
