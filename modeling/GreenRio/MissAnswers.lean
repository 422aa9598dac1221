import GreenRio.Mmu

set_option autoImplicit false

namespace GreenRio

namespace Ptw

section Steps

variable {ptw : Ptw} {input : PtwInput}

theorem busy_of_resp (resp : ptw.translateRespVld input = true) : ptw.state ≠ .idle := by
  intro idle
  simp [translateRespVld, checkpermission2idle, inflight2idle, idle] at resp

/-- A walker that answers becomes idle. -/
theorem step_resp (resp : ptw.translateRespVld input = true) : (ptw.step input).state = .idle := by
  cases state : ptw.state with
  | idle => exact absurd state (busy_of_resp resp)
  | checkPermission =>
    have fails : input.permissionCheckFail = true := by
      simpa [translateRespVld, checkpermission2idle, inflight2idle, state] using resp
    simp [step, stateNext, idle2checkpermission, inflight2checkpermission, checkpermission2inflight,
      checkpermission2idle, walkReqVld, permissionCheckPass, state, fails]
  | inflight =>
    have back : input.walkRespVld = true := by
      simp only [translateRespVld, inflight2idle, checkpermission2idle, Bool.or_eq_true,
        Bool.and_eq_true, beq_iff_eq] at resp
      rcases resp with ⟨checking, -⟩ | ⟨-, back, -⟩
      · rw [state] at checking
        cases checking
      · exact back
    have ends := (answered_iff state back).mp resp
    have stops : ptw.inflight2checkpermission input = false := by
      rw [← Bool.not_eq_true]
      intro goesOn
      simp only [inflight2checkpermission, checkOverflowPass, checkOverflowFail, Bool.and_eq_true,
        Bool.not_eq_true', beq_iff_eq] at goesOn
      exact ends ⟨goesOn.2.1.2, by simpa [goesOn.2.1.2] using goesOn.2.2⟩
    have finishes : ptw.inflight2idle input = true := by
      simpa [translateRespVld, checkpermission2idle, state] using resp
    simp [step, stateNext, idle2checkpermission, checkpermission2inflight, state, stops, finishes]

/-- A walker that has not answered keeps its request. -/
theorem step_busy_kept (busy : ptw.state ≠ .idle) (quiet : ptw.translateRespVld input = false) :
    (ptw.step input).state ≠ .idle ∧ (ptw.step input).translateReq = ptw.translateReq := by
  have started : ptw.idle2checkpermission input = false := by simp [idle2checkpermission, busy]
  simp only [translateRespVld, Bool.or_eq_false_iff] at quiet
  refine ⟨?_, by simp [step, started]⟩
  simp only [step, stateNext, started, quiet]
  split_ifs <;> simp_all

theorem step_idle_none (idle : ptw.state = .idle) (none : input.translateReqVld = false) :
    (ptw.step input).state = .idle := by
  simp [step, stateNext, idle2checkpermission, inflight2checkpermission, checkpermission2inflight,
    checkpermission2idle, inflight2idle, translateReqFire, idle, none]

theorem fire_of_idle (idle : ptw.state = .idle) (asked : input.translateReqVld = true) :
    ptw.translateReqFire input = true := by
  simp [translateReqFire, translateReqRdy, idle, asked]

end Steps

section Run

variable {start : Ptw} {inputs : Nat → PtwInput}

/-- The memory takes the reads of the walker and answers them. -/
structure Attended (start : Ptw) (inputs : Nat → PtwInput) : Prop where
  takes : ∀ cycle, (start.after inputs cycle).walkReqVld (inputs cycle) = true →
    ∃ later, cycle ≤ later ∧ (inputs later).walkReqRdy = true
  answers : ∀ cycle, (start.after inputs cycle).state = .inflight →
    ∃ later, cycle ≤ later ∧ (inputs later).walkRespVld = true

/-- A read that is due is refused at some time, or taken. -/
theorem Attended.exists_checked (attended : Attended start inputs) {first : Nat}
    (checking : (start.after inputs first).state = .checkPermission) :
    ∃ later, first ≤ later ∧ start.after inputs later = start.after inputs first ∧
      ((inputs later).permissionCheckFail = true ∨
        ((inputs later).permissionCheckFail = false ∧ (inputs later).walkReqRdy = true)) := by
  have eventually : ∃ later, first ≤ later ∧
      ((inputs later).permissionCheckFail || (inputs later).walkReqRdy) = true := by
    cases fails : (inputs first).permissionCheckFail with
    | true => exact ⟨first, Nat.le_refl _, by simp [fails]⟩
    | false =>
      obtain ⟨later, reached, ready⟩ := attended.takes first (by
        simp [walkReqVld, permissionCheckPass, checking, fails])
      exact ⟨later, reached, by simp [ready]⟩
  obtain ⟨later, reached, event, before⟩ := exists_first eventually
  refine ⟨later, reached, ?_, ?_⟩
  · apply after_eq_of_steady _ reached (Nat.le_refl _)
    intro between low high same
    have neither := before between low high
    rw [Bool.or_eq_false_iff] at neither
    exact step_busy (by rw [same]; exact checking) neither.1 neither.2
  · cases fails : (inputs later).permissionCheckFail with
    | true => exact .inl rfl
    | false => exact .inr ⟨rfl, by simpa [fails] using event⟩

/-- A read that was taken comes back. -/
theorem Attended.exists_answered (attended : Attended start inputs) {first : Nat}
    (flying : (start.after inputs first).state = .inflight) :
    ∃ later, first ≤ later ∧ start.after inputs later = start.after inputs first ∧
      (inputs later).walkRespVld = true := by
  obtain ⟨later, reached, answered, silent⟩ := exists_first (attended.answers first flying)
  refine ⟨later, reached, ?_, answered⟩
  apply after_eq_of_steady _ reached (Nat.le_refl _)
  intro between low high same
  exact step_silent (by rw [same]; exact flying) (silent between low high)

/-- Whatever the memory answers, a walk ends: each pointer leads one level down. -/
theorem Attended.exists_response (attended : Attended start inputs) (level first : Nat)
    (checking : (start.after inputs first).state = .checkPermission)
    (atLevel : (start.after inputs first).walkingLvl.toNat = level) :
    ∃ finish, first ≤ finish ∧ start.responds inputs finish = true := by
  induction level using Nat.strongRecOn generalizing first with
  | ind level ih =>
    obtain ⟨checked, reached, same, outcome⟩ := attended.exists_checked checking
    have still : (start.after inputs checked).state = .checkPermission := by rw [same, checking]
    rcases outcome with fails | ⟨passes, ready⟩
    · exact ⟨checked, reached, (step_refused still fails).1⟩
    · have taken : start.after inputs (checked + 1) =
          { start.after inputs first with state := .inflight } := by
        rw [after, step_taken still passes ready, same]
      obtain ⟨back, waited, kept, answered⟩ :=
        attended.exists_answered (show (start.after inputs (checked + 1)).state = .inflight by
          rw [taken])
      rw [taken] at kept
      have flying : (start.after inputs back).state = .inflight := by rw [kept]
      by_cases goesOn : Pte.walkToNextLvl (inputs back).walkRespPte = true ∧
          (start.after inputs back).walkingLvl ≠ 0
      · have below : start.after inputs (back + 1) =
            (start.after inputs first).deeper (inputs back).walkRespPte := by
          rw [after, step_deeper flying answered goesOn.1 goesOn.2, kept]
          rfl
        have lower := deeper_walkingLvl (start.after inputs first) (inputs back).walkRespPte
          (by simpa [kept] using goesOn.2)
        obtain ⟨finish, later, responds⟩ := ih (level - 1) (by omega) (back + 1)
          (by rw [below]; rfl) (by rw [below]; omega)
        exact ⟨finish, by omega, responds⟩
      · exact ⟨back, by omega, (answered_iff flying answered).mpr goesOn⟩

/-- A busy walker answers. -/
theorem Attended.answers_busy (attended : Attended start inputs) {first : Nat}
    (busy : (start.after inputs first).state ≠ .idle) :
    ∃ finish, first ≤ finish ∧ start.responds inputs finish = true := by
  cases state : (start.after inputs first).state with
  | idle => exact absurd state busy
  | checkPermission => exact attended.exists_response _ first state rfl
  | inflight =>
    obtain ⟨back, reached, kept, answered⟩ := attended.exists_answered state
    have flying : (start.after inputs back).state = .inflight := by rw [kept, state]
    by_cases goesOn : Pte.walkToNextLvl (inputs back).walkRespPte = true ∧
        (start.after inputs back).walkingLvl ≠ 0
    · obtain ⟨finish, later, responds⟩ := attended.exists_response _ (back + 1)
        (by rw [after, step_deeper flying answered goesOn.1 goesOn.2]) rfl
      exact ⟨finish, by omega, responds⟩
    · exact ⟨back, reached, (answered_iff flying answered).mpr goesOn⟩

end Run

end Ptw

namespace TlbUnit

variable {n : Nat} {kind : TlbKind n} {parts : MmuParts} {encoder : OH2UInt n}
variable {mine : BitVec 2 → Bool} {unit : TlbUnit n} {input : TlbInput} {ptw ptw' : Ptw}

/-- The walker has a request of this TLB. -/
def Walking (mine : BitVec 2 → Bool) (ptw : Ptw) : Prop :=
  ptw.state ≠ .idle ∧ mine ptw.translateReq.accessType = true

/-- The request with this id is in the walker, or its answer has been registered. -/
def Outstanding (unit : TlbUnit n) (mine : BitVec 2 → Bool) (ptw : Ptw) (id : Nat) : Prop :=
  (Walking mine ptw ∧ ptw.translateReq.transId.toNat = id) ∨
    (unit.respVldQ = true ∧ unit.respQ.transId.toNat = id)

/-- The miss-status entries are those of the outstanding requests. -/
structure Tracks (unit : TlbUnit n) (mine : BitVec 2 → Bool) (ptw : Ptw) : Prop where
  buffer : ∀ request ∈ unit.mshr.grantBuffer, mine request.accessType = true
  entry : ∀ i < n, unit.mshr.entryVld.getLsbD i = true ↔ unit.Outstanding mine ptw i
  walkId : Walking mine ptw → ptw.translateReq.transId.toNat < n
  respId : unit.respVldQ = true → unit.respQ.transId.toNat < n
  rest : unit.respVldQ = true → ptw.state = .idle

/-- What happens between this TLB and the walker in a cycle. -/
structure Exchange (kind : TlbKind n) (parts : MmuParts) (encoder : OH2UInt n)
    (mine : BitVec 2 → Bool) (unit : TlbUnit n) (input : TlbInput) (ptw ptw' : Ptw) : Prop where
  accept : unit.mshr.grantFire parts.fifo (unit.mshrInput kind input) = true →
    ptw.state = .idle ∧ ptw'.state ≠ .idle ∧ ptw'.translateReq = Mmu.ask parts encoder unit
  other : ptw.state = .idle →
    unit.mshr.grantFire parts.fifo (unit.mshrInput kind input) = false → ¬Walking mine ptw'
  answer : input.nextLvlRespVld = true → Walking mine ptw ∧ ptw'.state = .idle ∧
    input.nextLvlResp.translateReq = ptw.translateReq
  busy : Walking mine ptw → input.nextLvlRespVld = false →
    ptw'.state ≠ .idle ∧ ptw'.translateReq = ptw.translateReq
  foreign : ptw.state ≠ .idle → ¬Walking mine ptw → ¬Walking mine ptw'

theorem Exchange.fire_quiet (exchange : Exchange kind parts encoder mine unit input ptw ptw')
    (fire : unit.mshr.grantFire parts.fifo (unit.mshrInput kind input) = true) :
    input.nextLvlRespVld = false := by
  rw [← Bool.not_eq_true]
  intro answer
  exact (exchange.answer answer).1.1 (exchange.accept fire).1

namespace Tracks

variable (tracks : Tracks unit mine ptw)
  (exchange : Exchange kind parts encoder mine unit input ptw ptw')
include tracks exchange

theorem step_entry_fire
    (fire : unit.mshr.grantFire parts.fifo (unit.mshrInput kind input) = true) :
    ∃ slot < n, ptw'.translateReq.transId.toNat = slot ∧
      ∀ i < n, (unit.step kind parts.fifo input).mshr.entryVld.getLsbD i = true ↔ i = slot := by
  have rdy : unit.mshr.rdy = true := by
    simp only [Mshr.grantFire, Mshr.reqGrantVld, Bool.and_eq_true] at fire
    exact fire.1.1.2
  obtain ⟨slot, inside, free, only, encoded⟩ := Mshr.exists_alloc rdy
  obtain ⟨idle, -, asked⟩ := exchange.accept fire
  have small := kind.mshrFew
  refine ⟨slot, inside, ?_, fun i below => ?_⟩
  · rw [asked]
    change (unit.mshr.grantTransId encoder).toNat = slot
    rw [encoded encoder, BitVec.toNat_ofNat, Nat.mod_eq_of_lt (by omega)]
  · change (unit.mshr.entryVldNext parts.fifo (unit.mshrInput kind input)).getLsbD i = true ↔ _
    rw [Mshr.getLsbD_entryVldNext below tracks.respId, fire]
    -- the walker was idle, so an entry that is valid is the one whose answer is registered
    have answered : unit.mshr.entryVld.getLsbD i = true →
        unit.respVldQ = true ∧ unit.respQ.transId.toNat = i := by
      intro valid
      rcases (tracks.entry i below).mp valid with ⟨walking, -⟩ | registered
      · exact absurd idle walking.1
      · exact registered
    cases valid : unit.mshr.entryVld.getLsbD i with
    | true =>
      obtain ⟨vld, same⟩ := answered valid
      have differ : i ≠ slot := by
        rintro rfl
        rw [free] at valid
        cases valid
      simp [mshrInput, vld, same, differ]
    | false => simpa using only i

omit exchange in
theorem step_entry_still
    (still : unit.mshr.grantFire parts.fifo (unit.mshrInput kind input) = false) :
    ∀ i < n, (unit.step kind parts.fifo input).mshr.entryVld.getLsbD i = true ↔
      Walking mine ptw ∧ ptw.translateReq.transId.toNat = i := by
  intro i below
  change (unit.mshr.entryVldNext parts.fifo (unit.mshrInput kind input)).getLsbD i = true ↔ _
  rw [Mshr.getLsbD_entryVldNext below tracks.respId, still, Bool.and_false, Bool.false_and,
    Bool.false_or, Bool.and_eq_true, tracks.entry i below]
  change _ ∧ (!(unit.respVldQ && decide (unit.respQ.transId.toNat ≤ i))) = true ↔ _
  constructor
  · rintro ⟨walking | ⟨vld, same⟩, kept⟩
    · exact walking
    · simp [vld, same] at kept
  · intro walking
    refine ⟨.inl walking, ?_⟩
    have quiet : unit.respVldQ = false := by
      rw [← Bool.not_eq_true]
      exact fun vld => walking.1.1 (tracks.rest vld)
    simp [quiet]

/-- The entries stay those of the outstanding requests. -/
theorem step (types : ∀ isSt, mine (kind.missAccessType isSt) = true) :
    Tracks (unit.step kind parts.fifo input) mine ptw' where
  buffer := by
    intro request member
    rcases MultiPortStreamFIFO.mem_step member with old | ⟨-, rfl⟩
    · exact tracks.buffer request old
    · exact types _
  entry := by
    intro i below
    change _ ↔ (Walking mine ptw' ∧ _) ∨ (input.nextLvlRespVld = true ∧
      (if input.nextLvlRespVld then unit.refillNext input else unit.respQ).transId.toNat = i)
    cases fire : unit.mshr.grantFire parts.fifo (unit.mshrInput kind input) with
    | true =>
      obtain ⟨slot, -, same, entries⟩ := tracks.step_entry_fire exchange fire
      obtain ⟨-, busy, asked⟩ := exchange.accept fire
      have own : mine ptw'.translateReq.accessType = true := by
        rw [asked]
        simp only [Mshr.grantFire, Mshr.reqGrantVld, Mshr.grantVld, Bool.and_eq_true] at fire
        exact tracks.buffer _ (MultiPortStreamFIFO.deqPayload_mem fire.1.1.1)
      rw [entries i below, exchange.fire_quiet fire, same]
      simp [Walking, busy, own, eq_comm]
    | false =>
      rw [tracks.step_entry_still fire i below]
      cases answer : input.nextLvlRespVld with
      | true =>
        obtain ⟨walking, idle, asked⟩ := exchange.answer answer
        have gone : ¬Walking mine ptw' := fun still => still.1 idle
        simp [walking, gone, refillNext, asked]
      | false =>
        by_cases walking : Walking mine ptw
        · obtain ⟨busy, same⟩ := exchange.busy walking answer
          have still : Walking mine ptw' := ⟨busy, same ▸ walking.2⟩
          simp [walking, still, same]
        · have none : ¬Walking mine ptw' := by
            by_cases idle : ptw.state = .idle
            · exact exchange.other idle fire
            · exact exchange.foreign idle walking
          simp [walking, none]
  walkId := by
    intro walking
    cases fire : unit.mshr.grantFire parts.fifo (unit.mshrInput kind input) with
    | true =>
      obtain ⟨slot, inside, same, -⟩ := tracks.step_entry_fire exchange fire
      omega
    | false =>
      by_cases idle : ptw.state = .idle
      · exact absurd walking (exchange.other idle fire)
      · by_cases before : Walking mine ptw
        · cases answer : input.nextLvlRespVld with
          | true => exact absurd (exchange.answer answer).2.1 walking.1
          | false =>
            rw [(exchange.busy before answer).2]
            exact tracks.walkId before
        · exact absurd walking (exchange.foreign idle before)
  respId := by
    intro answer
    change input.nextLvlRespVld = true at answer
    obtain ⟨walking, -, asked⟩ := exchange.answer answer
    change (if input.nextLvlRespVld then unit.refillNext input else unit.respQ).transId.toNat < n
    rw [if_pos answer, refillNext, asked]
    exact tracks.walkId walking
  rest := fun answer => (exchange.answer answer).2.1

end Tracks

theorem reset_tracks (reset : unit.Reset) (idle : ptw.state = .idle) : Tracks unit mine ptw where
  buffer := by simp [reset.grantBuffer]
  entry := by simp [reset.entryVld, Outstanding, Walking, idle, reset.respVldQ]
  walkId := fun walking => absurd idle walking.1
  respId := by simp [reset.respVldQ]
  rest := fun _ => idle

end TlbUnit

/-- The two TLBs, by the port of `rvh_mmu` their misses come to. -/
inductive TlbSide where
  | data
  | instruction
  deriving DecidableEq

/-- The types of access that the side asks for. -/
def TlbSide.mine : TlbSide → BitVec 2 → Bool
  | .data, accessType => accessType == 0 || accessType == 1
  | .instruction, accessType => accessType == 2

theorem TlbSide.mine_apart {accessType : BitVec 2} (data : TlbSide.data.mine accessType = true) :
    TlbSide.instruction.mine accessType = false := by
  revert accessType
  decide

theorem TlbSide.mine_apart_fetch {accessType : BitVec 2}
    (fetch : TlbSide.instruction.mine accessType = true) :
    TlbSide.data.mine accessType = false := by
  revert accessType
  decide

namespace Mmu

variable (parts : MmuParts) (mmu : Mmu) (input : MmuInput)

/-- The miss requests that `rvh_mmu` accepts in a cycle. -/
def accepts : List (TlbSide × TranslateReq) :=
  (if mmu.dtlbMissReqVld parts && mmu.dtlbMissReqRdy parts then
      [(.data, ask parts parts.dtlbEncoder mmu.dtlb)] else []) ++
    if mmu.itlbMissReqVld parts && mmu.itlbMissReqRdy parts then
      [(.instruction, ask parts parts.itlbEncoder mmu.itlb)] else []

/-- The responses that the ports deliver in a cycle, with the request they carry. -/
def answers : List (TlbSide × TranslateReq) :=
  (if mmu.dtlbMissRespVld parts input then
      [(.data, (mmu.translateResp parts input).translateReq)] else []) ++
    if mmu.itlbMissRespVld parts input then
      [(.instruction, (mmu.translateResp parts input).translateReq)] else []

/-- The request in the walker, with the side that asks for its type of access. -/
def working : List (TlbSide × TranslateReq) :=
  if mmu.ptw.state = .idle then []
  else [(if TlbSide.data.mine mmu.ptw.translateReq.accessType then .data else .instruction,
    mmu.ptw.translateReq)]

section Arbitration

variable {parts mmu}

theorem sel_apart (data : mmu.selDtlbReq parts = true) : mmu.selItlbReq parts = false := by
  revert data
  simp only [selDtlbReq, selItlbReq, missPortConflict]
  cases mmu.dtlbMissReqVld parts <;> cases mmu.itlbMissReqVld parts <;> cases mmu.rrArbiter <;>
    decide

theorem sel_apart_itlb (fetch : mmu.selItlbReq parts = true) :
    mmu.selDtlbReq parts = false := by
  rw [← Bool.not_eq_true]
  intro data
  rw [sel_apart data] at fetch
  cases fetch

theorem reqVld_eq_sel : (mmu.dtlbMissReqVld parts || mmu.itlbMissReqVld parts) =
    (mmu.selDtlbReq parts || mmu.selItlbReq parts) := by
  simp only [selDtlbReq, selItlbReq, missPortConflict]
  cases mmu.dtlbMissReqVld parts <;> cases mmu.itlbMissReqVld parts <;> cases mmu.rrArbiter <;> rfl

theorem sel_dtlb (data : mmu.selDtlbReq parts = true) : mmu.dtlbMissReqVld parts = true := by
  simp only [selDtlbReq, missPortConflict] at data
  cases vld : mmu.dtlbMissReqVld parts <;> simp_all

theorem sel_itlb (fetch : mmu.selItlbReq parts = true) : mmu.itlbMissReqVld parts = true := by
  simp only [selItlbReq, missPortConflict] at fetch
  cases vld : mmu.itlbMissReqVld parts <;> simp_all

/-- The or of the masked ports is the request of the selected side. -/
theorem translateReq_dtlb (data : mmu.selDtlbReq parts = true) :
    mmu.translateReq parts = ask parts parts.dtlbEncoder mmu.dtlb := by
  simp [translateReq, masked, data, sel_apart data]

theorem translateReq_itlb (fetch : mmu.selItlbReq parts = true) :
    mmu.translateReq parts = ask parts parts.itlbEncoder mmu.itlb := by
  simp [translateReq, masked, fetch, sel_apart_itlb fetch]

variable (mmu) in
/-- A TLB is granted its request when its side is selected and the walker is idle. -/
theorem dtlb_grantFire : mmu.dtlb.mshr.grantFire parts.fifo
      (mmu.dtlb.mshrInput Dtlb.kind (mmu.dtlbInput parts input)) =
    (mmu.selDtlbReq parts && mmu.ptw.translateReqRdy) := by
  change (mmu.dtlb.mshr.reqGrantVld parts.fifo && mmu.dtlbMissReqRdy parts) = _
  rw [dtlbMissReqRdy]
  cases sel : mmu.selDtlbReq parts with
  | false => simp
  | true => simp [parts.arbiter.dtlb _ _ (sel_dtlb sel)]

variable (mmu) in
theorem itlb_grantFire : mmu.itlb.mshr.grantFire parts.fifo
      (mmu.itlb.mshrInput Itlb.kind (mmu.itlbInput parts input)) =
    (mmu.selItlbReq parts && mmu.ptw.translateReqRdy) := by
  change (mmu.itlb.mshr.reqGrantVld parts.fifo && mmu.itlbMissReqRdy parts) = _
  rw [itlbMissReqRdy]
  cases sel : mmu.selItlbReq parts with
  | false => simp
  | true => simp [parts.arbiter.itlb _ _ (sel_itlb sel)]

end Arbitration

section Cycle

/-- The miss-status entries of both TLBs fit the walker, which works for one of them. -/
structure Tracked (mmu : Mmu) : Prop where
  dtlb : mmu.dtlb.Tracks TlbSide.data.mine mmu.ptw
  itlb : mmu.itlb.Tracks TlbSide.instruction.mine mmu.ptw
  served : mmu.ptw.state ≠ .idle → TlbUnit.Walking TlbSide.data.mine mmu.ptw ∨
    TlbUnit.Walking TlbSide.instruction.mine mmu.ptw

variable {parts : MmuParts} {mmu : Mmu} {input : MmuInput}

theorem walking_apart (data : TlbUnit.Walking TlbSide.data.mine mmu.ptw) :
    ¬TlbUnit.Walking TlbSide.instruction.mine mmu.ptw := by
  rintro ⟨-, fetch⟩
  rw [TlbSide.mine_apart data.2] at fetch
  cases fetch

theorem dtlbMissRespVld_eq : mmu.dtlbMissRespVld parts input =
    (mmu.translateRespVld parts input && TlbSide.data.mine mmu.ptw.translateReq.accessType) := rfl

theorem itlbMissRespVld_eq : mmu.itlbMissRespVld parts input =
    (mmu.translateRespVld parts input &&
      TlbSide.instruction.mine mmu.ptw.translateReq.accessType) := rfl

/-- An idle walker takes the selected request, if there is one. -/
theorem step_ptw_idle (idle : mmu.ptw.state = .idle) :
    (mmu.selDtlbReq parts = true ∧ (mmu.step parts input).ptw.state ≠ .idle ∧
        (mmu.step parts input).ptw.translateReq = ask parts parts.dtlbEncoder mmu.dtlb) ∨
      (mmu.selItlbReq parts = true ∧ (mmu.step parts input).ptw.state ≠ .idle ∧
        (mmu.step parts input).ptw.translateReq = ask parts parts.itlbEncoder mmu.itlb) ∨
      (mmu.selDtlbReq parts = false ∧ mmu.selItlbReq parts = false ∧
        (mmu.step parts input).ptw.state = .idle) := by
  have reqVld : (mmu.ptwInput parts input).translateReqVld =
      (mmu.selDtlbReq parts || mmu.selItlbReq parts) := reqVld_eq_sel
  change (_ ∧ (mmu.ptw.step (mmu.ptwInput parts input)).state ≠ .idle ∧
      (mmu.ptw.step (mmu.ptwInput parts input)).translateReq = _) ∨
    (_ ∧ (mmu.ptw.step (mmu.ptwInput parts input)).state ≠ .idle ∧
      (mmu.ptw.step (mmu.ptwInput parts input)).translateReq = _) ∨
    (_ ∧ _ ∧ (mmu.ptw.step (mmu.ptwInput parts input)).state = .idle)
  cases data : mmu.selDtlbReq parts with
  | true =>
    refine .inl ⟨rfl, ?_⟩
    rw [Ptw.step_accept (Ptw.fire_of_idle idle (by rw [reqVld, data, Bool.true_or]))]
    exact ⟨by simp, translateReq_dtlb data⟩
  | false =>
    cases fetch : mmu.selItlbReq parts with
    | true =>
      refine .inr (.inl ⟨rfl, ?_⟩)
      rw [Ptw.step_accept (Ptw.fire_of_idle idle (by rw [reqVld, fetch, Bool.or_true]))]
      exact ⟨by simp, translateReq_itlb fetch⟩
    | false =>
      exact .inr (.inr ⟨rfl, rfl, Ptw.step_idle_none idle (by rw [reqVld, data, fetch]; rfl)⟩)

/-- A busy walker becomes idle with its answer, and else it keeps its request. -/
theorem step_ptw_busy (busy : mmu.ptw.state ≠ .idle) :
    (mmu.translateRespVld parts input = true ∧ (mmu.step parts input).ptw.state = .idle) ∨
      (mmu.translateRespVld parts input = false ∧ (mmu.step parts input).ptw.state ≠ .idle ∧
        (mmu.step parts input).ptw.translateReq = mmu.ptw.translateReq) := by
  cases resp : mmu.translateRespVld parts input with
  | true => exact .inl ⟨rfl, Ptw.step_resp resp⟩
  | false => exact .inr ⟨rfl, Ptw.step_busy_kept busy resp⟩

theorem resp_busy (resp : mmu.translateRespVld parts input = true) : mmu.ptw.state ≠ .idle :=
  Ptw.busy_of_resp resp

theorem rdy_idle : mmu.ptw.translateReqRdy = true ↔ mmu.ptw.state = .idle := by
  simp [Ptw.translateReqRdy]

/-- What one TLB and the walker do in a cycle, from what selects the TLB and what it is told. -/
theorem exchange_of_side {n : Nat} {kind : TlbKind n} {encoder : OH2UInt n} {mine : BitVec 2 → Bool}
    {unit : TlbUnit n} {told : TlbInput} {sel : Bool}
    (fire : unit.mshr.grantFire parts.fifo (unit.mshrInput kind told) =
      (sel && mmu.ptw.translateReqRdy))
    (chosen : sel = true → mmu.ptw.state = .idle → (mmu.step parts input).ptw.state ≠ .idle ∧
      (mmu.step parts input).ptw.translateReq = ask parts encoder unit)
    (unchosen : sel = false → mmu.ptw.state = .idle →
      ¬TlbUnit.Walking mine (mmu.step parts input).ptw)
    (vld : told.nextLvlRespVld =
      (mmu.translateRespVld parts input && mine mmu.ptw.translateReq.accessType))
    (resp : told.nextLvlResp.translateReq = mmu.ptw.translateReq) :
    TlbUnit.Exchange kind parts encoder mine unit told mmu.ptw (mmu.step parts input).ptw where
  accept := by
    rw [fire, Bool.and_eq_true, rdy_idle]
    rintro ⟨taken, idle⟩
    exact ⟨idle, chosen taken idle⟩
  other := by
    intro idle still
    rw [fire, rdy_idle.mpr idle, Bool.and_true] at still
    exact unchosen still idle
  answer := by
    rw [vld, Bool.and_eq_true]
    rintro ⟨answered, own⟩
    exact ⟨⟨resp_busy answered, own⟩, Ptw.step_resp answered, resp⟩
  busy := by
    rintro ⟨busy, own⟩ quiet
    rw [vld, own, Bool.and_true] at quiet
    exact Ptw.step_busy_kept busy quiet
  foreign := by
    rintro busy foreign ⟨still, own⟩
    rcases step_ptw_busy busy with ⟨-, idle⟩ | ⟨-, -, same⟩
    · exact still idle
    · rw [same] at own
      exact foreign ⟨busy, own⟩

namespace Tracked

variable (tracked : Tracked mmu)
include tracked

theorem ask_dtlb (data : mmu.selDtlbReq parts = true) :
    TlbSide.data.mine (ask parts parts.dtlbEncoder mmu.dtlb).accessType = true := by
  have vld := parts.arbiter.dtlb _ _ (sel_dtlb data)
  simp only [Mshr.reqGrantVld, Mshr.grantVld, Bool.and_eq_true] at vld
  exact tracked.dtlb.buffer _ (MultiPortStreamFIFO.deqPayload_mem vld.1.1)

theorem ask_itlb (fetch : mmu.selItlbReq parts = true) :
    TlbSide.instruction.mine (ask parts parts.itlbEncoder mmu.itlb).accessType = true := by
  have vld := parts.arbiter.itlb _ _ (sel_itlb fetch)
  simp only [Mshr.reqGrantVld, Mshr.grantVld, Bool.and_eq_true] at vld
  exact tracked.itlb.buffer _ (MultiPortStreamFIFO.deqPayload_mem vld.1.1)

variable (parts input)

theorem exchange_dtlb : TlbUnit.Exchange Dtlb.kind parts parts.dtlbEncoder TlbSide.data.mine
    mmu.dtlb (mmu.dtlbInput parts input) mmu.ptw (mmu.step parts input).ptw := by
  apply exchange_of_side (dtlb_grantFire mmu input)
  · intro data idle
    rcases step_ptw_idle idle with taken | ⟨fetch, -⟩ | ⟨none, -⟩
    · exact taken.2
    · rw [sel_apart data] at fetch
      cases fetch
    · rw [none] at data
      cases data
  · rintro still idle ⟨busy, data⟩
    rcases step_ptw_idle idle with ⟨taken, -⟩ | ⟨fetch, -, asked⟩ | ⟨-, -, none⟩
    · rw [still] at taken
      cases taken
    · rw [asked, TlbSide.mine_apart_fetch (tracked.ask_itlb fetch)] at data
      cases data
    · exact busy none
  · exact dtlbMissRespVld_eq
  · rfl

theorem exchange_itlb : TlbUnit.Exchange Itlb.kind parts parts.itlbEncoder TlbSide.instruction.mine
    mmu.itlb (mmu.itlbInput parts input) mmu.ptw (mmu.step parts input).ptw := by
  apply exchange_of_side (itlb_grantFire mmu input)
  · intro fetch idle
    rcases step_ptw_idle idle with ⟨data, -⟩ | taken | ⟨-, none, -⟩
    · rw [sel_apart data] at fetch
      cases fetch
    · exact taken.2
    · rw [none] at fetch
      cases fetch
  · rintro still idle ⟨busy, fetch⟩
    rcases step_ptw_idle idle with ⟨data, -, asked⟩ | ⟨taken, -⟩ | ⟨-, -, none⟩
    · rw [asked, TlbSide.mine_apart (tracked.ask_dtlb data)] at fetch
      cases fetch
    · rw [still] at taken
      cases taken
    · exact busy none
  · exact itlbMissRespVld_eq
  · rfl

theorem step : Tracked (mmu.step parts input) where
  dtlb := tracked.dtlb.step (tracked.exchange_dtlb parts input) (by decide)
  itlb := tracked.itlb.step (tracked.exchange_itlb parts input) (by decide)
  served := by
    intro busy
    by_cases idle : mmu.ptw.state = .idle
    · rcases step_ptw_idle idle with ⟨data, -, asked⟩ | ⟨fetch, -, asked⟩ | ⟨-, -, none⟩
      · exact .inl ⟨busy, by rw [asked]; exact tracked.ask_dtlb data⟩
      · exact .inr ⟨busy, by rw [asked]; exact tracked.ask_itlb fetch⟩
      · exact absurd none busy
    · rcases step_ptw_busy idle with ⟨-, idle⟩ | ⟨-, -, same⟩
      · exact absurd idle busy
      · rcases tracked.served idle with ⟨-, data⟩ | ⟨-, fetch⟩
        · exact .inl ⟨busy, by rw [same]; exact data⟩
        · exact .inr ⟨busy, by rw [same]; exact fetch⟩

end Tracked

theorem reset_tracked (reset : mmu.Reset) : Tracked mmu where
  dtlb := TlbUnit.reset_tracks reset.dtlb reset.ptw
  itlb := TlbUnit.reset_tracks reset.itlb reset.ptw
  served := fun busy => absurd reset.ptw busy

/-- What `rvh_mmu` accepts, in terms of the selected side. -/
theorem accepts_eq : mmu.accepts parts =
    if mmu.ptw.state = .idle then
      if mmu.selDtlbReq parts then [(.data, ask parts parts.dtlbEncoder mmu.dtlb)]
      else if mmu.selItlbReq parts then [(.instruction, ask parts parts.itlbEncoder mmu.itlb)]
      else []
    else [] := by
  have data : (mmu.dtlbMissReqVld parts && mmu.selDtlbReq parts) = mmu.selDtlbReq parts := by
    cases sel : mmu.selDtlbReq parts with
    | false => simp
    | true => simp [sel_dtlb sel]
  have fetch : (mmu.itlbMissReqVld parts && mmu.selItlbReq parts) = mmu.selItlbReq parts := by
    cases sel : mmu.selItlbReq parts with
    | false => simp
    | true => simp [sel_itlb sel]
  rw [accepts, dtlbMissReqRdy, itlbMissReqRdy, ← Bool.and_assoc, data, ← Bool.and_assoc, fetch]
  by_cases idle : mmu.ptw.state = .idle
  · rw [if_pos idle, rdy_idle.mpr idle, Bool.and_true, Bool.and_true]
    cases sel : mmu.selDtlbReq parts with
    | false => simp
    | true => simp [sel_apart sel]
  · have busy : mmu.ptw.translateReqRdy = false := by
      rw [← Bool.not_eq_true, rdy_idle]
      exact idle
    simp [idle, busy]

namespace Tracked

variable (tracked : Tracked mmu)
include tracked

/-- A response is delivered to the side whose request is in the walker, and to no other. -/
theorem answers_eq : mmu.answers parts input =
    if mmu.translateRespVld parts input then mmu.working else [] := by
  rw [answers, dtlbMissRespVld_eq, itlbMissRespVld_eq]
  cases resp : mmu.translateRespVld parts input with
  | false => simp
  | true =>
    have busy := resp_busy resp
    rw [if_pos rfl, working, if_neg busy, Bool.true_and, Bool.true_and]
    rcases tracked.served busy with ⟨-, data⟩ | ⟨-, fetch⟩
    · rw [TlbSide.mine_apart data, if_pos data, if_pos data]
      rfl
    · rw [fetch, TlbSide.mine_apart_fetch fetch]
      rfl

variable (parts input)

/-- What is in the walker or comes in stays there or is answered. -/
theorem conserves : mmu.working ++ mmu.accepts parts =
    mmu.answers parts input ++ (mmu.step parts input).working := by
  rw [accepts_eq, tracked.answers_eq]
  by_cases idle : mmu.ptw.state = .idle
  · have none : ¬mmu.translateRespVld parts input = true := fun resp => resp_busy resp idle
    rw [if_neg none, if_pos idle, working, if_pos idle, List.nil_append, List.nil_append]
    rcases step_ptw_idle idle with ⟨data, busy, asked⟩ | ⟨fetch, busy, asked⟩ | ⟨data, fetch, still⟩
    · rw [if_pos data, working, if_neg busy, asked, if_pos (tracked.ask_dtlb data)]
    · have other := TlbSide.mine_apart_fetch (tracked.ask_itlb fetch)
      rw [sel_apart_itlb fetch, if_neg Bool.false_ne_true, if_pos fetch, working, if_neg busy,
        asked, other]
      rfl
    · rw [data, fetch, working, if_pos still]
      rfl
  · rw [if_neg idle, List.append_nil]
    rcases step_ptw_busy idle with ⟨resp, rests⟩ | ⟨quiet, busy, same⟩
    · rw [if_pos resp, working, working, if_pos rests, List.append_nil]
    · rw [quiet, if_neg Bool.false_ne_true, List.nil_append, working, working, if_neg idle,
        if_neg busy, same]

end Tracked

end Cycle

section Run

/-- The unit at a cycle of an unending run. -/
def after (parts : MmuParts) (start : Mmu) (inputs : Nat → MmuInput) : Nat → Mmu
  | 0 => start
  | cycle + 1 => (after parts start inputs cycle).step parts (inputs cycle)

variable (parts : MmuParts) (start : Mmu) (inputs : Nat → MmuInput)

/-- The requests accepted before a cycle, oldest first. -/
def accepted (cycle : Nat) : List (TlbSide × TranslateReq) :=
  (List.range cycle).flatMap fun past => (after parts start inputs past).accepts parts

/-- The responses delivered before a cycle, oldest first. -/
def answered (cycle : Nat) : List (TlbSide × TranslateReq) :=
  (List.range cycle).flatMap fun past =>
    (after parts start inputs past).answers parts (inputs past)

/-- What the walker receives along the run. -/
def walkerInputs (cycle : Nat) : PtwInput :=
  (after parts start inputs cycle).ptwInput parts (inputs cycle)

/-- No miss is lost, answered twice or mixed up at a cycle of a run. -/
structure MissesKept (cycle : Nat) : Prop where
  /-- All that was accepted has been answered, in order and as it was asked, but for what the walker
  has. -/
  conserved : accepted parts start inputs cycle =
    answered parts start inputs cycle ++ (after parts start inputs cycle).working
  /-- The walker takes a request only when it has none, and one at a time. -/
  single : ((after parts start inputs cycle).working ++
    (after parts start inputs cycle).accepts parts).length ≤ 1
  /-- A response goes to one of the two ports. -/
  delivered : (after parts start inputs cycle).translateRespVld parts (inputs cycle) = true →
    (after parts start inputs cycle).itlbMissRespVld parts (inputs cycle) =
      !(after parts start inputs cycle).dtlbMissRespVld parts (inputs cycle)
  /-- What is accepted is the next to be answered. -/
  answers : ∀ miss ∈ (after parts start inputs cycle).accepts parts, ∃ finish, cycle < finish ∧
    (after parts start inputs finish).answers parts (inputs finish) = [miss] ∧
      ∀ between, cycle < between → between < finish →
        (after parts start inputs between).answers parts (inputs between) = []
  /-- A miss-status entry is valid as long as its own request is outstanding. -/
  dtlbEntry : ∀ i < 4, (after parts start inputs cycle).dtlb.mshr.entryVld.getLsbD i = true ↔
    (after parts start inputs cycle).dtlb.Outstanding TlbSide.data.mine
      (after parts start inputs cycle).ptw i
  itlbEntry : ∀ i < 1, (after parts start inputs cycle).itlb.mshr.entryVld.getLsbD i = true ↔
    (after parts start inputs cycle).itlb.Outstanding TlbSide.instruction.mine
      (after parts start inputs cycle).ptw i

variable {parts start inputs}

theorem after_ptw (cycle : Nat) : (after parts start inputs cycle).ptw =
    start.ptw.after (walkerInputs parts start inputs) cycle := by
  induction cycle with
  | zero => rfl
  | succ cycle ih => rw [Ptw.after, ← ih]; rfl

theorem after_tracked (reset : start.Reset) (cycle : Nat) :
    Tracked (after parts start inputs cycle) := by
  induction cycle with
  | zero => exact reset_tracked reset
  | succ cycle ih => exact ih.step parts (inputs cycle)

theorem accepted_eq (reset : start.Reset) (cycle : Nat) : accepted parts start inputs cycle =
    answered parts start inputs cycle ++ (after parts start inputs cycle).working := by
  induction cycle with
  | zero => simp [accepted, answered, after, working, reset.ptw]
  | succ cycle ih =>
    have tracked : Tracked (after parts start inputs cycle) := after_tracked reset cycle
    have kept := tracked.conserves parts (inputs cycle)
    rw [accepted, List.range_succ, List.flatMap_append, List.flatMap_singleton]
    rw [answered, List.range_succ, List.flatMap_append, List.flatMap_singleton]
    change accepted parts start inputs cycle ++ _ = answered parts start inputs cycle ++ _ ++ _
    rw [ih, List.append_assoc, kept, ← List.append_assoc]
    rfl

/-- The request in the walker is the next to be answered. -/
theorem working_answered (reset : start.Reset)
    (attended : start.ptw.Attended (walkerInputs parts start inputs)) {first : Nat}
    (busy : (after parts start inputs first).ptw.state ≠ .idle) :
    ∃ finish, first ≤ finish ∧
      (after parts start inputs finish).answers parts (inputs finish) =
        (after parts start inputs first).working ∧
      ∀ between, first ≤ between → between < finish →
        (after parts start inputs between).answers parts (inputs between) = [] := by
  have walking : (start.ptw.after (walkerInputs parts start inputs) first).state ≠ .idle := by
    rwa [← after_ptw]
  obtain ⟨finish, reached, responds, silent⟩ := Ptw.exists_first (attended.answers_busy walking)
  have quiet : ∀ between, first ≤ between → between < finish →
      (after parts start inputs between).translateRespVld parts (inputs between) = false := by
    intro between low high
    have before := silent between low high
    rw [Ptw.responds, ← after_ptw] at before
    exact before
  have same : ∀ between, first ≤ between → between ≤ finish →
      (after parts start inputs between).ptw.state ≠ .idle ∧
        (after parts start inputs between).ptw.translateReq =
          (after parts start inputs first).ptw.translateReq := by
    intro between low
    induction between, low using Nat.le_induction with
    | base => exact fun _ => ⟨busy, rfl⟩
    | succ between low ih =>
      intro high
      obtain ⟨still, kept⟩ := ih (by omega)
      have goesOn := Ptw.step_busy_kept still (quiet between low (by omega))
      exact ⟨goesOn.1, goesOn.2.trans kept⟩
  refine ⟨finish, reached, ?_, fun between low high => ?_⟩
  · have tracked : Tracked (after parts start inputs finish) := after_tracked reset finish
    have resp : (after parts start inputs finish).translateRespVld parts (inputs finish) = true := by
      rw [Ptw.responds, ← after_ptw] at responds
      exact responds
    obtain ⟨still, kept⟩ := same finish reached (Nat.le_refl _)
    rw [tracked.answers_eq, if_pos resp, working, working, if_neg still, if_neg busy, kept]
  · have tracked : Tracked (after parts start inputs between) := after_tracked reset between
    rw [tracked.answers_eq, quiet between low high]
    rfl

/-- In every run whose memory answers the walker, no miss is lost, answered twice or mixed up. -/
theorem misses_answered (reset : start.Reset)
    (attended : start.ptw.Attended (walkerInputs parts start inputs)) (cycle : Nat) :
    MissesKept parts start inputs cycle := by
  have tracked : Tracked (after parts start inputs cycle) := after_tracked reset cycle
  have kept := tracked.conserves parts (inputs cycle)
  refine ⟨accepted_eq reset cycle, ?_, fun resp => ?_, fun miss member => ?_,
    tracked.dtlb.entry, tracked.itlb.entry⟩
  · rw [accepts_eq]
    by_cases idle : (after parts start inputs cycle).ptw.state = .idle
    · rw [working, if_pos idle, if_pos idle]
      split_ifs <;> simp
    · rw [working, if_neg idle, if_neg idle]
      simp
  · rw [itlbMissRespVld_eq, dtlbMissRespVld_eq, resp, Bool.true_and, Bool.true_and]
    rcases tracked.served (resp_busy resp) with ⟨-, data⟩ | ⟨-, fetch⟩
    · rw [data, TlbSide.mine_apart data]
      rfl
    · cases data : TlbSide.data.mine (after parts start inputs cycle).ptw.translateReq.accessType with
      | false => rw [fetch]; rfl
      | true =>
        rw [TlbSide.mine_apart data] at fetch
        cases fetch
  · have idle : (after parts start inputs cycle).ptw.state = .idle := by
      by_contra busy
      rw [accepts_eq, if_neg busy] at member
      cases member
    have quiet : (after parts start inputs cycle).answers parts (inputs cycle) = [] := by
      rw [tracked.answers_eq, if_neg fun resp => resp_busy resp idle]
    have taken : (after parts start inputs (cycle + 1)).working =
        (after parts start inputs cycle).accepts parts := by
      rw [working, if_pos idle, List.nil_append, quiet, List.nil_append] at kept
      exact kept.symm
    have busy : (after parts start inputs (cycle + 1)).ptw.state ≠ .idle := by
      intro none
      rw [working, if_pos none] at taken
      rw [← taken] at member
      cases member
    obtain ⟨finish, reached, answer, silent⟩ := working_answered reset attended busy
    refine ⟨finish, reached, ?_, fun between low high => silent between low high⟩
    rw [answer]
    rw [← taken, working, if_neg busy, List.mem_singleton] at member
    rw [working, if_neg busy, member]

end Run

/-- Both TLBs come to the walker, which takes them in turn. -/
def standardParts : MmuParts := ⟨.standard, .standard 4, .standard 1, .none⟩

/-- All registers as after reset, and zero. -/
def zero : Mmu where
  dtlb := TlbUnit.holding 4 TlbEntry.clear
  itlb := TlbUnit.holding 1 TlbEntry.clear
  rrArbiter := false
  ptw := ⟨.idle, 0, 0, ⟨0, 0, 0, 0⟩⟩

theorem zero_reset : zero.Reset :=
  ⟨⟨fun _ => rfl, rfl, rfl, rfl, rfl, rfl, rfl⟩, ⟨fun _ => rfl, rfl, rfl, rfl, rfl, rfl, rfl⟩, rfl,
    rfl⟩

/-- A load from page 5 and a fetch from page 9 in each cycle, and a memory that is always ready and
answers with the same leaf. -/
def bothMiss : MmuInput where
  satpAsid := 1
  satpPpn := 0x80000
  status := ⟨1, false, 0, false, false, 8⟩
  dtlbReqVld := true
  dtlbReqAccessType := 0
  dtlbReqVpn := 5
  itlbReqVld := true
  itlbReqVpn := 9
  dtlbFlush := ⟨false, false, false, 0, 0⟩
  itlbFlush := ⟨false, false, false, 0, 0⟩
  permissionCheckFail := false
  walkReqRdy := true
  walkRespVld := true
  walkRespPte := 0xcf
  dtlbEvict := 0
  itlbEvict := 0

theorem misses_answered_both : MissesKept standardParts zero (fun _ => bothMiss) 7 :=
  misses_answered zero_reset
    ⟨fun cycle _ => ⟨cycle, Nat.le_refl _, rfl⟩, fun cycle _ => ⟨cycle, Nat.le_refl _, rfl⟩⟩ 7

example : answered standardParts zero (fun _ => bothMiss) 8 =
    [(.data, ⟨0, 1, 5, 0⟩), (.instruction, ⟨0, 1, 9, 2⟩)] := by
  decide +kernel

/-- With `rvh_tlb_arbiter` in front of the walker the TLB with the priority is answered first. -/
example : ∀ dtlbPrior,
    (answered { standardParts with arbiter := .prior dtlbPrior } zero (fun _ => bothMiss) 12).map
        Prod.fst =
      if dtlbPrior then [.data, .instruction] else [.instruction, .data] := by
  decide +kernel

end Mmu

end GreenRio
