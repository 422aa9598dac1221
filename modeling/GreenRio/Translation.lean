import GreenRio.Tlb

set_option autoImplicit false

namespace GreenRio

/-! ### The Sv39 rules -/

inductive Access where
  | load
  | store
  | fetch
  deriving DecidableEq

/-- The bits of a page number below a leaf of the given level. -/
def levelBits (pageLvl : BitVec 2) : Nat := 9 * pageLvl.toNat

/-- The upper part of the leaf's page number and the lower part of the request's. -/
def sv39Ppn (entry : TlbEntry) (vpn : Vpn) : Nat :=
  2 ^ levelBits entry.pageLvl * (entry.ppn.toNat / 2 ^ levelBits entry.pageLvl) +
    vpn.toNat % 2 ^ levelBits entry.pageLvl

def Misaligned (entry : TlbEntry) : Prop := entry.ppn.toNat % 2 ^ levelBits entry.pageLvl ≠ 0

/-- When an access through a leaf page-table entry is a page fault. -/
def Sv39Fault (access : Access) (priv : BitVec 2) (sum mxr : Bool) (entry : TlbEntry) : Prop :=
  entry.a = false ∨
    (access = .store ∧ (entry.d = false ∨ entry.w = false)) ∨
    (access = .load ∧ entry.r = false ∧ ¬ (mxr = true ∧ entry.x = true)) ∨
    (access = .fetch ∧ entry.x = false) ∨
    (priv = 0 ∧ entry.u = false) ∨
    (priv = 1 ∧ entry.u = true ∧ (access = .fetch ∨ sum = false)) ∨
    Misaligned entry

/-! ### Page numbers -/

theorem genPageAlignmentMask_eq (pageLvl : BitVec 2) :
    genPageAlignmentMask pageLvl = BitVec.ofNat 44 (2 ^ levelBits pageLvl - 1) := by
  revert pageLvl
  decide

theorem levelBits_le (pageLvl : BitVec 2) : levelBits pageLvl ≤ 27 := by
  have bound : pageLvl.toNat < 4 := pageLvl.isLt
  unfold levelBits
  omega

theorem genPageAlignmentMask_bit (pageLvl : BitVec 2) (bit : Nat) :
    (genPageAlignmentMask pageLvl).getLsbD bit = decide (bit < levelBits pageLvl) := by
  have bound := levelBits_le pageLvl
  rw [genPageAlignmentMask_eq, BitVec.getLsbD_ofNat, Nat.testBit_two_pow_sub_one]
  by_cases low : bit < levelBits pageLvl
  · have inside : bit < 44 := by omega
    simp [low, inside]
  · simp [low]

/-- The mask of the response multiplexer keeps the upper part of the entry. -/
theorem respPpn_eq (entry : TlbEntry) (vpn : Vpn) :
    (respPpn false true entry.hitEntry vpn).toNat = sv39Ppn entry vpn := by
  have remainder : vpn.toNat % 2 ^ levelBits entry.pageLvl < 2 ^ levelBits entry.pageLvl :=
    Nat.mod_lt _ (Nat.two_pow_pos _)
  have bound := levelBits_le entry.pageLvl
  apply Nat.eq_of_testBit_eq
  intro bit
  rw [sv39Ppn, Nat.testBit_two_pow_mul_add _ remainder, ← BitVec.getLsbD]
  simp only [respPpn, Bool.false_eq_true, ↓reduceIte, TlbEntry.hitEntry, BitVec.getLsbD_or,
    BitVec.getLsbD_and, BitVec.getLsbD_not, BitVec.getLsbD_setWidth, genPageAlignmentMask_bit]
  by_cases low : bit < levelBits entry.pageLvl
  · have inside : bit < 44 := by omega
    simp [low, inside, Nat.testBit_mod_two_pow, BitVec.getLsbD]
  · have shifted : levelBits entry.pageLvl + (bit - levelBits entry.pageLvl) = bit := by omega
    rw [if_neg low, Nat.testBit_div_two_pow, Nat.add_comm, shifted]
    by_cases inside : bit < 44
    · simp [low, inside, BitVec.getLsbD]
    · have high : entry.ppn.toNat.testBit bit = false := BitVec.getLsbD_of_ge _ _ (by omega)
      simp [low, inside, high]

theorem superpageAlignmentCheckFail_iff (entry : TlbEntry) :
    superpageAlignmentCheckFail entry.hitEntry = true ↔ Misaligned entry := by
  have bound := levelBits_le entry.pageLvl
  have small : 2 ^ levelBits entry.pageLvl ≤ 2 ^ 27 := Nat.pow_le_pow_right (by omega) bound
  have mask : (genPageAlignmentMask entry.pageLvl).toNat = 2 ^ levelBits entry.pageLvl - 1 := by
    rw [genPageAlignmentMask_eq, BitVec.toNat_ofNat, Nat.mod_eq_of_lt (by omega)]
  have masked : (entry.ppn &&& genPageAlignmentMask entry.pageLvl).toNat =
      entry.ppn.toNat % 2 ^ levelBits entry.pageLvl := by
    rw [BitVec.toNat_and, mask, Nat.and_two_pow_sub_one_eq_mod]
  simp only [superpageAlignmentCheckFail, TlbEntry.hitEntry, Bool.not_eq_true', beq_eq_false_iff_ne,
    ne_eq, ← BitVec.toNat_inj, masked, Misaligned]
  rfl

/-! ### The two lookups -/

/-- One entry answers the request, and the remembered fault does not. -/
def SingleHit (entryHit : Fin 32 → Bool) (excpEntryHit : Bool) (index : Fin 32) : Prop :=
  (∀ other, entryHit other = true ↔ other = index) ∧ excpEntryHit = false

theorem SingleHit.hit {entryHit : Fin 32 → Bool} {excpEntryHit : Bool} {index : Fin 32}
    (single : SingleHit entryHit excpEntryHit index) : (List.finRange 32).any entryHit = true := by
  rw [List.any_eq_true]
  exact ⟨index, List.mem_finRange index, (single.1 index).mpr rfl⟩

/-- A response that is the untranslated page number while translation is off, and otherwise the
Sv39 page number with `fault` as its page fault. -/
def Answers (response : TlbResponse) (cause : BitVec 5) (off : Bool) (entry : TlbEntry) (vpn : Vpn)
    (fault : Prop) : Prop :=
  response.ppn.toNat = (if off then vpn.toNat else sv39Ppn entry vpn) ∧
    ((response.excpVld = true ∧ response.excpCause = cause) ↔ (off = false ∧ fault))

/-- With a single hit the page number is always right, so only the fault can differ. -/
theorem answers_iff {response : TlbResponse} {cause : BitVec 5} {off fail : Bool} {entry : TlbEntry}
    {vpn : Vpn} {fault : Prop} (ppn : response.ppn = respPpn off true entry.hitEntry vpn)
    (raised : (response.excpVld = true ∧ response.excpCause = cause) ↔ (off = false ∧ fail = true)) :
    Answers response cause off entry vpn fault ↔ (off = true ∨ (fail = true ↔ fault)) := by
  unfold Answers
  rw [ppn, raised]
  cases off
  · simp [respPpn_eq]
  · have bound : vpn.toNat < 17592186044416 := Nat.lt_trans vpn.isLt (by decide)
    simp [respPpn, bound]

/-- A check and Sv39 that share some faults agree where each raises one of its own or neither
does. -/
theorem answers_shared_iff {response : TlbResponse} {cause : BitVec 5} {off fail : Bool}
    {entry : TlbEntry} {vpn : Vpn} {fault shared extra missing : Prop}
    (ppn : response.ppn = respPpn off true entry.hitEntry vpn)
    (raised : (response.excpVld = true ∧ response.excpCause = cause) ↔ (off = false ∧ fail = true))
    (check : off = false → (fail = true ↔ shared ∨ extra)) (format : fault ↔ shared ∨ missing) :
    Answers response cause off entry vpn fault ↔ (off = true ∨ shared ∨ (extra ↔ missing)) := by
  rw [answers_iff ppn raised, format]
  cases off with
  | true => simp
  | false =>
    rw [check rfl]
    by_cases both : shared <;> simp [both]

theorem translatedLevels (level : BitVec 2) (machine : level ≠ 3) :
    level = 0 ∨ level = 1 ∨ level = 2 := by
  revert level
  decide

namespace Dtlb

variable (mux : MuxOH 32 HitEntry) (tlb : Tlb) (status : MmuStatus) (index : Fin 32)

def access : Access := if tlb.reqIsSt then .store else .load

def pageFaultCause : BitVec 5 := if tlb.reqIsSt then 15 else 13

/-- The response is the one Sv39 asks for. -/
def FollowsSv39 : Prop :=
  Answers (translate mux tlb status) (pageFaultCause tlb) (skipTranslation status)
    (tlb.entries index) tlb.reqVpn
    (Sv39Fault (access tlb) (effectivePrivLvl status) status.sum status.mxr (tlb.entries index))

/-- The faults that the permission check and Sv39 both raise. -/
def SharedFault (entry : TlbEntry) : Prop :=
  Misaligned entry ∨ entry.a = false ∨
    (tlb.reqIsSt = true ∧ (entry.d = false ∨ entry.w = false)) ∨
    (tlb.reqIsSt = false ∧ entry.r = false ∧ ¬ (status.mxr = true ∧ entry.x = true)) ∨
    (effectivePrivLvl status = 1 ∧ entry.u = true ∧ status.sum = false)

/-- The check asks for read permission on stores too, and refuses user pages to the reserved
privilege level. -/
def ExtraFault (entry : TlbEntry) : Prop :=
  (tlb.reqIsSt = true ∧ entry.r = false ∧ ¬ (status.mxr = true ∧ entry.x = true)) ∨
    (effectivePrivLvl status = 2 ∧ entry.u = true)

/-- The check has no term for a supervisor page in user mode. -/
def MissingFault (entry : TlbEntry) : Prop := effectivePrivLvl status = 0 ∧ entry.u = false

/-- The requests on which the data TLB does what Sv39 says. -/
def Agrees : Prop :=
  skipTranslation status = true ∨ SharedFault tlb status (tlb.entries index) ∨
    (ExtraFault tlb status (tlb.entries index) ↔ MissingFault status (tlb.entries index))

variable {mux tlb status index}

theorem checkFail_iff (single : SingleHit (entryHit tlb status) (excpEntryHit tlb status) index)
    (on : skipTranslation status = false) :
    checkFail mux tlb status = true ↔ SharedFault tlb status (tlb.entries index) ∨
      ExtraFault tlb status (tlb.entries index) := by
  have selected : hitEntry mux tlb status = (tlb.entries index).hitEntry :=
    mux.selects _ _ index single.1
  have machine : effectivePrivLvl status ≠ 3 := by
    intro level
    simp [skipTranslation, level] at on
  rw [checkFail, accessPermissionCheckFail, selected, Bool.or_eq_true,
    superpageAlignmentCheckFail_iff]
  unfold SharedFault ExtraFault
  generalize effectivePrivLvl status = level at machine ⊢
  rcases translatedLevels level machine with rfl | rfl | rfl <;> simp [TlbEntry.hitEntry] <;>
    cases tlb.reqIsSt <;> cases status.mxr <;> simp <;> grind

theorem sv39Fault_iff :
    Sv39Fault (access tlb) (effectivePrivLvl status) status.sum status.mxr (tlb.entries index) ↔
      SharedFault tlb status (tlb.entries index) ∨ MissingFault status (tlb.entries index) := by
  unfold Sv39Fault SharedFault MissingFault access
  cases tlb.reqIsSt <;> simp <;> grind

theorem followsSv39_iff
    (single : SingleHit (entryHit tlb status) (excpEntryHit tlb status) index) :
    FollowsSv39 mux tlb status index ↔ Agrees tlb status index := by
  have hits : hit tlb status = true := single.hit
  have selected : hitEntry mux tlb status = (tlb.entries index).hitEntry :=
    mux.selects _ _ index single.1
  have ppn : (translate mux tlb status).ppn =
      respPpn (skipTranslation status) true (tlb.entries index).hitEntry tlb.reqVpn := by
    rw [translate, hits, selected]
  have raised : ((translate mux tlb status).excpVld = true ∧
      (translate mux tlb status).excpCause = pageFaultCause tlb) ↔
      (skipTranslation status = false ∧ checkFail mux tlb status = true) := by
    simp only [translate, single.2, hits, pageFaultCause]
    cases skipTranslation status <;> cases checkFail mux tlb status <;> simp
  exact answers_shared_iff ppn raised (checkFail_iff single) sv39Fault_iff

end Dtlb

namespace Itlb

variable (mux : MuxOH 32 HitEntry) (tlb : Tlb) (status : MmuStatus) (index : Fin 32)

def FollowsSv39 : Prop :=
  Answers (translate mux tlb status) 12 (skipTranslation status) (tlb.entries index) tlb.reqVpn
    (Sv39Fault .fetch status.privLvl status.sum status.mxr (tlb.entries index))

def SharedFault (entry : TlbEntry) : Prop :=
  Misaligned entry ∨ entry.a = false ∨ entry.x = false ∨
    (status.privLvl = 1 ∧ entry.u = true ∧ status.sum = false)

def ExtraFault (entry : TlbEntry) : Prop := status.privLvl = 2 ∧ entry.u = true

/-- No term for a supervisor page in user mode, and `SUM` also opens user pages to supervisor
fetches. -/
def MissingFault (entry : TlbEntry) : Prop :=
  (status.privLvl = 0 ∧ entry.u = false) ∨
    (status.privLvl = 1 ∧ entry.u = true ∧ status.sum = true)

def Agrees : Prop :=
  skipTranslation status = true ∨ SharedFault status (tlb.entries index) ∨
    (ExtraFault status (tlb.entries index) ↔ MissingFault status (tlb.entries index))

variable {mux tlb status index}

theorem checkFail_iff (single : SingleHit (entryHit tlb status) (excpEntryHit tlb status) index)
    (on : skipTranslation status = false) :
    checkFail mux tlb status = true ↔ SharedFault status (tlb.entries index) ∨
      ExtraFault status (tlb.entries index) := by
  have selected : hitEntry mux tlb status = (tlb.entries index).hitEntry :=
    mux.selects _ _ index single.1
  have machine : status.privLvl ≠ 3 := by
    intro level
    simp [skipTranslation, level] at on
  rw [checkFail, accessPermissionCheckFail, selected, Bool.or_eq_true,
    superpageAlignmentCheckFail_iff]
  unfold SharedFault ExtraFault
  generalize status.privLvl = level at machine ⊢
  rcases translatedLevels level machine with rfl | rfl | rfl <;> simp [TlbEntry.hitEntry] <;> grind

theorem sv39Fault_iff :
    Sv39Fault .fetch status.privLvl status.sum status.mxr (tlb.entries index) ↔
      SharedFault status (tlb.entries index) ∨ MissingFault status (tlb.entries index) := by
  unfold Sv39Fault SharedFault MissingFault
  cases status.sum <;> simp <;> grind

theorem followsSv39_iff
    (single : SingleHit (entryHit tlb status) (excpEntryHit tlb status) index) :
    FollowsSv39 mux tlb status index ↔ Agrees tlb status index := by
  have hits : hit tlb status = true := single.hit
  have selected : hitEntry mux tlb status = (tlb.entries index).hitEntry :=
    mux.selects _ _ index single.1
  have ppn : (translate mux tlb status).ppn =
      respPpn (skipTranslation status) true (tlb.entries index).hitEntry tlb.reqVpn := by
    rw [translate, hits, selected]
  have raised : ((translate mux tlb status).excpVld = true ∧
      (translate mux tlb status).excpCause = 12) ↔
      (skipTranslation status = false ∧ checkFail mux tlb status = true) := by
    simp only [translate, single.2, hits]
    cases skipTranslation status <;> cases checkFail mux tlb status <;> simp
  exact answers_shared_iff ppn raised (checkFail_iff single) sv39Fault_iff

end Itlb

/-! ### The exact agreement of both TLBs with Sv39 -/

/-- Both TLBs answer a lookup with a single hit as Sv39 says exactly on the requests that
`Agrees` describes. -/
theorem tlbs_follow_sv39_iff (mux : MuxOH 32 HitEntry) (dtlb itlb : Tlb) (status : MmuStatus)
    (dataIndex instructionIndex : Fin 32)
    (dataHit : SingleHit (Dtlb.entryHit dtlb status) (Dtlb.excpEntryHit dtlb status) dataIndex)
    (instructionHit : SingleHit (Itlb.entryHit itlb status) (Itlb.excpEntryHit itlb status)
      instructionIndex) :
    (Dtlb.FollowsSv39 mux dtlb status dataIndex ↔ Dtlb.Agrees dtlb status dataIndex) ∧
      (Itlb.FollowsSv39 mux itlb status instructionIndex ↔
        Itlb.Agrees itlb status instructionIndex) :=
  ⟨Dtlb.followsSv39_iff dataHit, Itlb.followsSv39_iff instructionHit⟩

/-- The selected input; with one select bit set this is what the gates of `MuxOH` drive. -/
def firstSelected : MuxOH 32 HitEntry where
  output := fun select data => data (((List.finRange 32).find? select).getD 0)
  selects := by
    intro select data index single
    cases found : (List.finRange 32).find? select with
    | none =>
      have missed := List.find?_eq_none.mp found index (List.mem_finRange index)
      exact absurd ((single index).mpr rfl) missed
    | some other =>
      have chosen := (single other).mp (List.find?_some found)
      simp [chosen]

/-- A supervisor page at virtual page 5: no user bit, accessed, readable and executable. -/
def supervisorPage : TlbEntry :=
  { asid := 0, vpn := 5, pageLvl := 0, ppn := 9, d := false, a := true, g := false, u := false,
    x := true, w := false, r := true, v := true }

/-- A load, or a fetch, of virtual page 5 with only that page in the TLB. -/
def supervisorPageRequest : Tlb where
  entries := fun index => if index = 0 then supervisorPage else { supervisorPage with v := false }
  excp := ⟨0, 0, 0, false, false, false, false⟩
  reqVld := true
  reqVpn := 5
  reqAsid := 0
  reqIsSt := false

def sv39Status (privLvl : BitVec 2) : MmuStatus := ⟨privLvl, false, 0, false, false, 8⟩

theorem supervisorPageRequest_hit (privLvl : BitVec 2) :
    SingleHit (Dtlb.entryHit supervisorPageRequest (sv39Status privLvl))
        (Dtlb.excpEntryHit supervisorPageRequest (sv39Status privLvl)) 0 ∧
      SingleHit (Itlb.entryHit supervisorPageRequest (sv39Status privLvl))
        (Itlb.excpEntryHit supervisorPageRequest (sv39Status privLvl)) 0 := by
  unfold SingleHit
  revert privLvl
  decide

/-- In supervisor mode both lookups are what Sv39 asks for. -/
theorem tlbs_follow_sv39_supervisor :
    Dtlb.FollowsSv39 firstSelected supervisorPageRequest (sv39Status 1) 0 ∧
      Itlb.FollowsSv39 firstSelected supervisorPageRequest (sv39Status 1) 0 := by
  have hits := supervisorPageRequest_hit 1
  have exact := tlbs_follow_sv39_iff firstSelected supervisorPageRequest supervisorPageRequest
    (sv39Status 1) 0 0 hits.1 hits.2
  refine ⟨exact.1.mpr (Or.inr (Or.inr ?_)), exact.2.mpr (Or.inr (Or.inr ?_))⟩
  · simp [Dtlb.ExtraFault, Dtlb.MissingFault, supervisorPageRequest, supervisorPage, sv39Status,
      Dtlb.effectivePrivLvl]
  · simp [Itlb.ExtraFault, Itlb.MissingFault, supervisorPageRequest, supervisorPage, sv39Status]

/-- A user-mode load of the supervisor page hits and goes through. -/
theorem user_load_of_supervisor_page :
    SingleHit (Dtlb.entryHit supervisorPageRequest (sv39Status 0))
        (Dtlb.excpEntryHit supervisorPageRequest (sv39Status 0)) 0 ∧
      ¬ Dtlb.FollowsSv39 firstSelected supervisorPageRequest (sv39Status 0) 0 := by
  have hits := (supervisorPageRequest_hit 0).1
  refine ⟨hits, fun follows => ?_⟩
  have quiet : (Dtlb.translate firstSelected supervisorPageRequest (sv39Status 0)).excpVld = false := by
    decide
  have raised := follows.2.mpr ⟨by decide, by
    simp [Sv39Fault, supervisorPageRequest, supervisorPage, sv39Status, Dtlb.effectivePrivLvl]⟩
  exact absurd raised.1 (by rw [quiet]; decide)

end GreenRio
