import GreenRio.PageWalk
import GreenRio.Tlb
import Mathlib.Data.Nat.Find
import Mathlib.Tactic.IntervalCases

set_option autoImplicit false

namespace GreenRio

open PageWalk

abbrev Pte := BitVec 64
abbrev Paddr := BitVec 56

/-- The encodings of `ptw_state_q`. -/
inductive PtwState where
  | idle
  | checkPermission
  | inflight
  deriving DecidableEq

/-- A request of a TLB, as the walker keeps it. -/
structure TranslateReq where
  transId : BitVec 3
  asid : BitVec 16
  vpn : Vpn
  accessType : BitVec 2
  deriving DecidableEq

/-- The registers of the walker. Only the state has a reset value. -/
structure Ptw where
  state : PtwState
  walkingLvl : BitVec 2
  walkingPaddr : Paddr
  translateReq : TranslateReq
  deriving DecidableEq

structure PtwInput where
  satpPpn : Ppn
  translateReqVld : Bool
  translateReq : TranslateReq
  /-- What the PMP says of `permission_check_paddr`. -/
  permissionCheckFail : Bool
  walkReqRdy : Bool
  walkRespVld : Bool
  walkRespPte : Pte

structure TranslateResp where
  translateReq : TranslateReq
  pte : Pte
  pageLvl : BitVec 2
  accessFault : Bool
  pageFault : Bool

def TranslateResp.outcome (resp : TranslateResp) : Outcome Pte :=
  if resp.accessFault then .accessFault
  else if resp.pageFault then .pageFault
  else .leaf resp.pte resp.pageLvl.toNat

namespace Pte

variable (pte : Pte)

def n : BitVec 1 := pte.extractLsb' 63 1
def pbmt : BitVec 2 := pte.extractLsb' 61 2
def reserved : BitVec 7 := pte.extractLsb' 54 7
def ppn : Ppn := pte.extractLsb' 10 44
def rsw : BitVec 2 := pte.extractLsb' 8 2
def x : Bool := pte.getLsbD 3
def w : Bool := pte.getLsbD 2
def r : Bool := pte.getLsbD 1
def v : Bool := pte.getLsbD 0

def checkLegalFail : Bool :=
  !v pte || (!r pte && w pte) || n pte != 0 || pbmt pte != 0 || reserved pte != 0 || rsw pte != 0

def checkLegalPass : Bool := !checkLegalFail pte
def foundPageLeaf : Bool := checkLegalPass pte && (r pte || x pte)
def walkToNextLvl : Bool := checkLegalPass pte && !foundPageLeaf pte

end Pte

/-- `walking_page_root * PAGESIZE + walking_page_offset * PTESIZE`. -/
def walkAddress (root : Ppn) (vpn : Vpn) (level : Nat) : Paddr :=
  root.setWidth 56 * 4096 + (vpn.extractLsb' (level * 9) 9).setWidth 56 * 8

/-- No page number is large enough to wrap the address. -/
theorem walkAddress_toNat (root : Ppn) (vpn : Vpn) (level : Nat) :
    (walkAddress root vpn level).toNat =
      root.toNat * 4096 + (vpn.extractLsb' (level * 9) 9).toNat * 8 := by
  have rootBound := root.isLt
  have indexBound := (vpn.extractLsb' (level * 9) 9).isLt
  have root_eq : (root.setWidth 56 * 4096).toNat = root.toNat * 4096 := by
    rw [BitVec.toNat_mul, BitVec.toNat_setWidth,
      Nat.mod_eq_of_lt (show root.toNat < 2 ^ 56 by omega)]
    exact Nat.mod_eq_of_lt (show root.toNat * 4096 < 2 ^ 56 by omega)
  have index_eq : ((vpn.extractLsb' (level * 9) 9).setWidth 56 * 8).toNat =
      (vpn.extractLsb' (level * 9) 9).toNat * 8 := by
    rw [BitVec.toNat_mul, BitVec.toNat_setWidth,
      Nat.mod_eq_of_lt (show (vpn.extractLsb' (level * 9) 9).toNat < 2 ^ 56 by omega)]
    exact Nat.mod_eq_of_lt (show (vpn.extractLsb' (level * 9) 9).toNat * 8 < 2 ^ 56 by omega)
  rw [walkAddress, BitVec.toNat_add, root_eq, index_eq, Nat.mod_eq_of_lt (by omega)]

namespace Ptw

variable (ptw : Ptw) (input : PtwInput)

def translateReqRdy : Bool := ptw.state == .idle
def translateReqFire : Bool := input.translateReqVld && ptw.translateReqRdy
def permissionCheckPass : Bool := !input.permissionCheckFail
def walkReqVld : Bool := ptw.state == .checkPermission && permissionCheckPass input
def checkOverflowFail : Bool := Pte.walkToNextLvl input.walkRespPte && ptw.walkingLvl == 0
def checkOverflowPass : Bool := !ptw.checkOverflowFail input
def raisePagefault : Bool := Pte.checkLegalFail input.walkRespPte || ptw.checkOverflowFail input

def idle2checkpermission : Bool := ptw.state == .idle && ptw.translateReqFire input
def checkpermission2inflight : Bool :=
  ptw.state == .checkPermission && (ptw.walkReqVld input && input.walkReqRdy)
def checkpermission2idle : Bool := ptw.state == .checkPermission && input.permissionCheckFail
def inflight2checkpermission : Bool :=
  ptw.state == .inflight &&
    (input.walkRespVld && Pte.walkToNextLvl input.walkRespPte && ptw.checkOverflowPass input)
def inflight2idle : Bool :=
  ptw.state == .inflight &&
    (input.walkRespVld && (Pte.foundPageLeaf input.walkRespPte || ptw.raisePagefault input))

def stateNext : PtwState :=
  if ptw.idle2checkpermission input || ptw.inflight2checkpermission input then .checkPermission
  else if ptw.checkpermission2inflight input then .inflight
  else if ptw.checkpermission2idle input || ptw.inflight2idle input then .idle
  else ptw.state

/-- `highest_page_lvl` is the constant 3. -/
def walkingLvlNext : BitVec 2 :=
  if ptw.idle2checkpermission input then 3 - 1 else ptw.walkingLvl - 1

def walkingPaddrNext : Paddr :=
  if ptw.idle2checkpermission input then
    walkAddress input.satpPpn input.translateReq.vpn (ptw.walkingLvlNext input).toNat
  else
    walkAddress (Pte.ppn input.walkRespPte) ptw.translateReq.vpn (ptw.walkingLvlNext input).toNat

def step : Ptw where
  state := ptw.stateNext input
  walkingLvl :=
    if ptw.idle2checkpermission input || ptw.inflight2checkpermission input then
      ptw.walkingLvlNext input
    else ptw.walkingLvl
  walkingPaddr :=
    if ptw.idle2checkpermission input || ptw.inflight2checkpermission input then
      ptw.walkingPaddrNext input
    else ptw.walkingPaddr
  translateReq :=
    if ptw.idle2checkpermission input then input.translateReq else ptw.translateReq

def translateRespVld : Bool := ptw.checkpermission2idle input || ptw.inflight2idle input

def translateResp : TranslateResp where
  translateReq := ptw.translateReq
  pte := input.walkRespPte
  pageLvl := ptw.walkingLvl
  accessFault := ptw.checkpermission2idle input
  pageFault := ptw.inflight2idle input && ptw.raisePagefault input

/-- The walker at a cycle of an unending run. -/
def after (start : Ptw) (inputs : Nat → PtwInput) : Nat → Ptw
  | 0 => start
  | cycle + 1 => (start.after inputs cycle).step (inputs cycle)

/-- A read that the memory takes. -/
def reads (start : Ptw) (inputs : Nat → PtwInput) (cycle : Nat) : Bool :=
  (start.after inputs cycle).walkReqVld (inputs cycle) && (inputs cycle).walkReqRdy

def responds (start : Ptw) (inputs : Nat → PtwInput) (cycle : Nat) : Bool :=
  (start.after inputs cycle).translateRespVld (inputs cycle)

/-- How many reads are taken from one cycle up to another. -/
def readsBetween (start : Ptw) (inputs : Nat → PtwInput) (first last : Nat) : Nat :=
  (List.range' first (last - first)).countP (start.reads inputs)

end Ptw

/-- Page tables in a memory, and the reads the PMP refuses to each type of access. -/
structure PageTables where
  memory : Paddr → Pte
  refused : BitVec 2 → Paddr → Bool

def PageTables.seenBy (tables : PageTables) (accessType : BitVec 2) : Tables Paddr Pte :=
  ⟨tables.memory, tables.refused accessType⟩

/-- The PMP and the memory do their part: every read that is asked for is taken at some time, and
every read that was taken is answered at some time, with what the memory holds there. -/
structure PageTables.Serves (tables : PageTables) (start : Ptw) (inputs : Nat → PtwInput) :
    Prop where
  checks : ∀ cycle, (start.after inputs cycle).state = .checkPermission →
    (inputs cycle).permissionCheckFail =
      tables.refused (start.after inputs cycle).translateReq.accessType
        (start.after inputs cycle).walkingPaddr
  takes : ∀ cycle, (start.after inputs cycle).walkReqVld (inputs cycle) = true →
    ∃ later, cycle ≤ later ∧ (inputs later).walkReqRdy = true
  answers : ∀ cycle, (start.after inputs cycle).state = .inflight →
    ∃ later, cycle ≤ later ∧ (inputs later).walkRespVld = true
  content : ∀ cycle, (start.after inputs cycle).state = .inflight →
    (inputs cycle).walkRespVld = true →
    (inputs cycle).walkRespPte = tables.memory (start.after inputs cycle).walkingPaddr

namespace Sv39

/-- The entries Sv39 has, as far as a walk for a page number looks at them. -/
def format (vpn : Vpn) : Format Paddr Pte where
  legal pte := Pte.v pte && !(!Pte.r pte && Pte.w pte) && pte.extractLsb' 54 10 == 0
  leaf pte := Pte.r pte || Pte.x pte
  next pte level := walkAddress (Pte.ppn pte) vpn level

def walk (tables : Tables Paddr Pte) (root : Ppn) (vpn : Vpn) : Outcome Pte :=
  (format vpn).walk tables 2 (walkAddress root vpn 2)

def path (tables : Tables Paddr Pte) (root : Ppn) (vpn : Vpn) : List (Nat × Paddr) :=
  (format vpn).path tables 2 (walkAddress root vpn 2)

/-- A page fault is a faulty entry on the way, an access fault a refused read. -/
theorem walk_faults (tables : Tables Paddr Pte) (root : Ppn) (vpn : Vpn) :
    (walk tables root vpn = .pageFault ↔
      ∃ step ∈ path tables root vpn, (format vpn).faulty tables step = true) ∧
    (walk tables root vpn = .accessFault ↔
      ∃ step ∈ path tables root vpn, tables.refuses step.2 = true) :=
  ⟨Format.walk_eq_pageFault 2 _, Format.walk_eq_accessFault 2 _⟩

end Sv39

namespace Ptw

/-- The request taken in a cycle is answered in another one: the first response carries the request
and the outcome, and at most three reads were taken for it. -/
structure Answers (start : Ptw) (inputs : Nat → PtwInput) (cycle : Nat) (outcome : Outcome Pte)
    (finish : Nat) : Prop where
  later : cycle < finish
  responds : start.responds inputs finish = true
  first : ∀ between, cycle < between → between < finish → start.responds inputs between = false
  asked : ((start.after inputs finish).translateResp (inputs finish)).translateReq =
    (inputs cycle).translateReq
  outcome : ((start.after inputs finish).translateResp (inputs finish)).outcome = outcome
  reads : start.readsBetween inputs cycle finish ≤ 3

/-- The entries the walker itself accepts: it also wants the software bits clear. -/
def format (vpn : Vpn) : Format Paddr Pte := (Sv39.format vpn).restrict (Pte.rsw · == 0)

end Ptw

namespace Pte

variable (pte : Pte) (vpn : Vpn)

theorem upper_eq_zero :
    (pte.extractLsb' 54 10 == 0) = (n pte == 0 && pbmt pte == 0 && reserved pte == 0) := by
  rw [Bool.eq_iff_iff]
  simp only [n, pbmt, reserved, Bool.and_eq_true, beq_iff_eq, ← BitVec.toNat_inj,
    BitVec.extractLsb'_toNat, Nat.shiftRight_eq_div_pow, BitVec.ofNat_eq_ofNat, BitVec.toNat_ofNat]
  have bound := pte.isLt
  omega

theorem checkLegalPass_eq : checkLegalPass pte = (Ptw.format vpn).legal pte := by
  simp only [checkLegalPass, checkLegalFail, Ptw.format, Format.restrict, Sv39.format,
    upper_eq_zero]
  cases v pte <;> cases r pte <;> cases w pte <;> simp [bne, Bool.and_assoc]

theorem foundPageLeaf_eq : foundPageLeaf pte =
    ((Ptw.format vpn).legal pte && (Ptw.format vpn).leaf pte) := by
  rw [foundPageLeaf, checkLegalPass_eq pte vpn]
  rfl

theorem walkToNextLvl_eq : walkToNextLvl pte =
    ((Ptw.format vpn).legal pte && !(Ptw.format vpn).leaf pte) := by
  rw [walkToNextLvl, foundPageLeaf_eq pte vpn, checkLegalPass_eq pte vpn]
  cases (Ptw.format vpn).legal pte <;> simp

end Pte

namespace Ptw

section Steps

variable {ptw : Ptw} {input : PtwInput}

theorem step_accept (fire : ptw.translateReqFire input = true) :
    ptw.step input =
      ⟨.checkPermission, 2, walkAddress input.satpPpn input.translateReq.vpn 2,
        input.translateReq⟩ := by
  have idle : ptw.state = .idle := by
    simp only [translateReqFire, translateReqRdy, Bool.and_eq_true, beq_iff_eq] at fire
    exact fire.2
  simp [step, stateNext, walkingLvlNext, walkingPaddrNext, idle2checkpermission, fire, idle]

theorem step_refused (checking : ptw.state = .checkPermission)
    (fails : input.permissionCheckFail = true) : ptw.translateRespVld input = true ∧
      (ptw.translateResp input).outcome = .accessFault := by
  simp [translateRespVld, translateResp, TranslateResp.outcome, checkpermission2idle, checking,
    fails]

theorem step_busy (checking : ptw.state = .checkPermission)
    (passes : input.permissionCheckFail = false) (busy : input.walkReqRdy = false) :
    ptw.step input = ptw := by
  cases ptw
  simp_all [step, stateNext, idle2checkpermission, inflight2checkpermission,
    checkpermission2inflight, checkpermission2idle, inflight2idle, walkReqVld]

theorem step_taken (checking : ptw.state = .checkPermission)
    (passes : input.permissionCheckFail = false) (ready : input.walkReqRdy = true) :
    ptw.step input = { ptw with state := .inflight } := by
  simp [step, stateNext, idle2checkpermission, inflight2checkpermission, checkpermission2inflight,
    walkReqVld, permissionCheckPass, checking, passes, ready]

theorem step_silent (flying : ptw.state = .inflight) (silent : input.walkRespVld = false) :
    ptw.step input = ptw := by
  cases ptw
  simp_all [step, stateNext, idle2checkpermission, inflight2checkpermission,
    checkpermission2inflight, checkpermission2idle, inflight2idle]

theorem step_deeper (flying : ptw.state = .inflight) (answered : input.walkRespVld = true)
    (pointer : Pte.walkToNextLvl input.walkRespPte = true) (above : ptw.walkingLvl ≠ 0) :
    ptw.step input =
      { ptw with
        state := .checkPermission
        walkingLvl := ptw.walkingLvl - 1
        walkingPaddr := walkAddress (Pte.ppn input.walkRespPte) ptw.translateReq.vpn
          (ptw.walkingLvl - 1).toNat } := by
  have started : ptw.idle2checkpermission input = false := by simp [idle2checkpermission, flying]
  have goesOn : ptw.inflight2checkpermission input = true := by
    simpa [inflight2checkpermission, checkOverflowPass, checkOverflowFail, flying, answered,
      pointer] using above
  simp only [step, stateNext, walkingLvlNext, walkingPaddrNext, started, goesOn, Bool.false_or,
    Bool.false_eq_true, if_true, if_false]

/-- A read that has come back ends the walk unless it leads to a lower level. -/
theorem answered_iff (flying : ptw.state = .inflight) (answered : input.walkRespVld = true) :
    ptw.translateRespVld input = true ↔
      ¬(Pte.walkToNextLvl input.walkRespPte = true ∧ ptw.walkingLvl ≠ 0) := by
  simp only [translateRespVld, checkpermission2idle, inflight2idle, raisePagefault,
    checkOverflowFail, Pte.walkToNextLvl, Pte.foundPageLeaf, Pte.checkLegalPass, flying, answered]
  cases Pte.checkLegalFail input.walkRespPte <;> cases Pte.r input.walkRespPte <;>
    cases Pte.x input.walkRespPte <;> simp

end Steps

/-- Something that happens from some cycle on happens a first time. -/
theorem exists_first {event : Nat → Bool} {start : Nat}
    (eventually : ∃ later, start ≤ later ∧ event later = true) :
    ∃ later, start ≤ later ∧ event later = true ∧
      ∀ between, start ≤ between → between < later → event between = false := by
  refine ⟨Nat.find eventually, (Nat.find_spec eventually).1, (Nat.find_spec eventually).2, ?_⟩
  intro between reached before
  have earlier := Nat.find_min eventually before
  simpa [reached] using earlier

section Run

variable {start : Ptw} {inputs : Nat → PtwInput}

/-- A walker that keeps its state in each cycle still has it later. -/
theorem after_eq_of_steady {first last : Nat}
    (steady : ∀ between, first ≤ between → between < last →
      start.after inputs between = start.after inputs first →
      (start.after inputs between).step (inputs between) = start.after inputs between)
    {later : Nat} (reached : first ≤ later) (before : later ≤ last) :
    start.after inputs later = start.after inputs first := by
  induction later, reached using Nat.le_induction with
  | base => rfl
  | succ later reached ih =>
    have same := ih (by omega)
    rw [after, steady later reached (by omega) same, same]

theorem readsBetween_append {first middle last : Nat} (low : first ≤ middle)
    (high : middle ≤ last) : start.readsBetween inputs first last =
      start.readsBetween inputs first middle + start.readsBetween inputs middle last := by
  have split : List.range' first (last - first) =
      List.range' first (middle - first) ++ List.range' middle (last - middle) := by
    have lengths : last - first = (middle - first) + (last - middle) := by omega
    have begins : middle = first + (middle - first) := by omega
    rw [lengths, ← List.range'_append_1, ← begins]
  rw [readsBetween, split, List.countP_append]
  rfl

theorem readsBetween_eq_zero {first last : Nat}
    (none : ∀ between, first ≤ between → between < last → start.reads inputs between = false) :
    start.readsBetween inputs first last = 0 := by
  rw [readsBetween, List.countP_eq_zero]
  intro between inside
  rw [List.mem_range'_1] at inside
  simp [none between inside.1 (by omega)]

theorem readsBetween_succ_le (cycle : Nat) : start.readsBetween inputs cycle (cycle + 1) ≤ 1 := by
  rw [readsBetween]
  exact (List.countP_le_length).trans (by simp)

variable {tables : PageTables}

/-- A read that the PMP lets pass is taken, once. -/
theorem exists_taken (served : tables.Serves start inputs) {first : Nat}
    (checking : (start.after inputs first).state = .checkPermission)
    (passes : tables.refused (start.after inputs first).translateReq.accessType
      (start.after inputs first).walkingPaddr = false) :
    ∃ taken, first < taken ∧
      start.after inputs taken = { start.after inputs first with state := .inflight } ∧
      (∀ between, first ≤ between → between < taken → start.responds inputs between = false) ∧
      start.readsBetween inputs first taken ≤ 1 := by
  have checked : ∀ between, start.after inputs between = start.after inputs first →
      (inputs between).permissionCheckFail = false := by
    intro between same
    rw [served.checks between (by rw [same]; exact checking), same]
    exact passes
  have asked : (start.after inputs first).walkReqVld (inputs first) = true := by
    simp [walkReqVld, permissionCheckPass, checking, checked first rfl]
  obtain ⟨taken, reached, ready, busy⟩ := exists_first (served.takes first asked)
  have same : ∀ between, first ≤ between → between ≤ taken →
      start.after inputs between = start.after inputs first := by
    intro between low high
    apply after_eq_of_steady _ low high
    intro earlier low high same
    exact step_busy (by rw [same]; exact checking) (checked earlier same) (busy earlier low high)
  have quiet : ∀ between, first ≤ between → between ≤ taken →
      start.responds inputs between = false := by
    intro between low high
    simp [responds, translateRespVld, checkpermission2idle, inflight2idle, same between low high,
      checking, checked between (same between low high)]
  have unread : start.readsBetween inputs first taken = 0 := by
    apply readsBetween_eq_zero
    intro between low high
    simp [reads, busy between low high]
  refine ⟨taken + 1, by omega, ?_, fun between low high => quiet between low (by omega), ?_⟩
  · rw [after, same taken reached (Nat.le_refl _)]
    exact step_taken checking (checked taken (same taken reached (Nat.le_refl _))) ready
  · rw [readsBetween_append reached (Nat.le_succ taken), unread, Nat.zero_add]
    exact readsBetween_succ_le taken

/-- A read in flight comes back, and nothing else is read meanwhile. -/
theorem exists_back (served : tables.Serves start inputs) {first : Nat}
    (flying : (start.after inputs first).state = .inflight) :
    ∃ back, first ≤ back ∧ start.after inputs back = start.after inputs first ∧
      (inputs back).walkRespVld = true ∧
      (∀ between, first ≤ between → between < back → start.responds inputs between = false) ∧
      start.readsBetween inputs first (back + 1) = 0 := by
  obtain ⟨back, reached, answered, silent⟩ := exists_first (served.answers first flying)
  have same : ∀ between, first ≤ between → between ≤ back →
      start.after inputs between = start.after inputs first := by
    intro between low high
    apply after_eq_of_steady _ low high
    intro earlier low high same
    exact step_silent (by rw [same]; exact flying) (silent earlier low high)
  refine ⟨back, reached, same back reached (Nat.le_refl _), answered, ?_, ?_⟩
  · intro between low high
    simp [responds, translateRespVld, checkpermission2idle, inflight2idle,
      same between low (Nat.le_of_lt high), flying, silent between low high]
  · apply readsBetween_eq_zero
    intro between low high
    simp [reads, walkReqVld, same between low (by omega), flying]

/-- What the walk that a walker is about to take a step of should end with, and its reads. -/
def expected (tables : PageTables) (ptw : Ptw) : Outcome Pte :=
  (format ptw.translateReq.vpn).walk (tables.seenBy ptw.translateReq.accessType)
    ptw.walkingLvl.toNat ptw.walkingPaddr

def route (tables : PageTables) (ptw : Ptw) : List (Nat × Paddr) :=
  (format ptw.translateReq.vpn).path (tables.seenBy ptw.translateReq.accessType)
    ptw.walkingLvl.toNat ptw.walkingPaddr

/-- The walk from a cycle on ends in another one as it should. -/
structure Concludes (tables : PageTables) (start : Ptw) (inputs : Nat → PtwInput)
    (first finish : Nat) : Prop where
  reached : first ≤ finish
  responds : start.responds inputs finish = true
  silent : ∀ between, first ≤ between → between < finish → start.responds inputs between = false
  asked : (start.after inputs finish).translateReq = (start.after inputs first).translateReq
  outcome : ((start.after inputs finish).translateResp (inputs finish)).outcome =
    expected tables (start.after inputs first)
  reads : start.readsBetween inputs first finish ≤ (route tables (start.after inputs first)).length

section Expected

variable {ptw : Ptw} {input : PtwInput}

theorem expected_refused
    (refused : tables.refused ptw.translateReq.accessType ptw.walkingPaddr = true) :
    expected tables ptw = .accessFault := by
  rw [expected]
  cases ptw.walkingLvl.toNat <;>
    simp [Format.walk, Format.visit, PageTables.seenBy, refused]

variable (tables ptw) in
theorem route_pos : 0 < (route tables ptw).length := by
  rw [route]
  cases ptw.walkingLvl.toNat <;> simp [Format.path]

/-- The walker one level down, after it read a pointer. -/
def deeper (ptw : Ptw) (pte : Pte) : Ptw :=
  { ptw with
    state := .checkPermission
    walkingLvl := ptw.walkingLvl - 1
    walkingPaddr := walkAddress (Pte.ppn pte) ptw.translateReq.vpn (ptw.walkingLvl - 1).toNat }

variable (ptw) in
theorem deeper_walkingLvl (pte : Pte) (above : ptw.walkingLvl ≠ 0) :
    (ptw.deeper pte).walkingLvl.toNat + 1 = ptw.walkingLvl.toNat := by
  have positive : ptw.walkingLvl.toNat ≠ 0 := by
    intro none
    exact above (BitVec.eq_of_toNat_eq none)
  have bound := ptw.walkingLvl.isLt
  simp only [deeper, BitVec.toNat_sub, BitVec.ofNat_eq_ofNat, BitVec.toNat_ofNat]
  omega

variable (tables ptw) in
/-- A pointer leaves the rest of the walk to the level below. -/
theorem expected_deeper
    (passes : tables.refused ptw.translateReq.accessType ptw.walkingPaddr = false)
    (pointer : Pte.walkToNextLvl (tables.memory ptw.walkingPaddr) = true)
    (above : ptw.walkingLvl ≠ 0) :
    expected tables ptw = expected tables (ptw.deeper (tables.memory ptw.walkingPaddr)) ∧
      (route tables ptw).length =
        (route tables (ptw.deeper (tables.memory ptw.walkingPaddr))).length + 1 := by
  have levels := deeper_walkingLvl ptw (tables.memory ptw.walkingPaddr) above
  rw [Pte.walkToNextLvl_eq _ ptw.translateReq.vpn, Bool.and_eq_true, Bool.not_eq_true'] at pointer
  rw [expected, expected, route, route, ← levels]
  constructor
  · simp [Format.walk, Format.visit, PageTables.seenBy, passes, pointer]
    rfl
  · simp [Format.path, PageTables.seenBy, passes, pointer]
    rfl

variable (tables) in
/-- Any other entry ends the walk. -/
theorem expected_end (flying : ptw.state = .inflight) (answered : input.walkRespVld = true)
    (content : input.walkRespPte = tables.memory ptw.walkingPaddr)
    (passes : tables.refused ptw.translateReq.accessType ptw.walkingPaddr = false)
    (ends : ¬(Pte.walkToNextLvl input.walkRespPte = true ∧ ptw.walkingLvl ≠ 0)) :
    (ptw.translateResp input).outcome = expected tables ptw := by
  have responds := (answered_iff flying answered).mpr ends
  have finished : ptw.inflight2idle input = true := by
    simpa [translateRespVld, checkpermission2idle, flying] using responds
  have fails : Pte.checkLegalFail input.walkRespPte =
      !(format ptw.translateReq.vpn).legal input.walkRespPte := by
    rw [← Pte.checkLegalPass_eq, Pte.checkLegalPass, Bool.not_not]
  have pointer := Pte.walkToNextLvl_eq input.walkRespPte ptw.translateReq.vpn
  have read : (tables.seenBy ptw.translateReq.accessType).read ptw.walkingPaddr =
      input.walkRespPte := content.symm
  have taken : (tables.seenBy ptw.translateReq.accessType).refuses ptw.walkingPaddr = false := passes
  cases legal : (format ptw.translateReq.vpn).legal input.walkRespPte with
  | false =>
    rw [expected]
    cases ptw.walkingLvl.toNat <;>
      simp [TranslateResp.outcome, translateResp, finished, checkpermission2idle, flying,
        raisePagefault, fails, legal, Format.walk, Format.visit, read, taken]
  | true =>
    cases leaf : (format ptw.translateReq.vpn).leaf input.walkRespPte with
    | true =>
      have overflows : ptw.checkOverflowFail input = false := by
        simp [checkOverflowFail, pointer, legal, leaf]
      rw [expected]
      cases level : ptw.walkingLvl.toNat <;>
        simp [TranslateResp.outcome, translateResp, finished, checkpermission2idle, flying,
          raisePagefault, fails, legal, leaf, overflows, Format.walk, Format.visit, read, taken,
          level]
    | false =>
      have bottom : ptw.walkingLvl = 0 := by
        by_contra above
        exact ends ⟨by simp [pointer, legal, leaf], above⟩
      simp [expected, TranslateResp.outcome, translateResp, finished, checkpermission2idle, flying,
        raisePagefault, checkOverflowFail, pointer, fails, legal, leaf, bottom, Format.walk,
        Format.visit, read, taken]

end Expected

/-- Every walk ends, level by level. -/
theorem exists_concludes (served : tables.Serves start inputs) (level first : Nat)
    (checking : (start.after inputs first).state = .checkPermission)
    (atLevel : (start.after inputs first).walkingLvl.toNat = level) :
    ∃ finish, Concludes tables start inputs first finish := by
  induction level using Nat.strongRecOn generalizing first with
  | ind level ih =>
    cases refused : tables.refused (start.after inputs first).translateReq.accessType
        (start.after inputs first).walkingPaddr with
    | true =>
      have fails : (inputs first).permissionCheckFail = true := by
        rw [served.checks first checking, refused]
      obtain ⟨responds, outcome⟩ := step_refused checking fails
      refine ⟨first, Nat.le_refl _, responds, fun _ _ _ => by omega, rfl, ?_, ?_⟩
      · rw [outcome, expected_refused refused]
      · simp [readsBetween]
    | false =>
      obtain ⟨taken, started, flies, quiet, once⟩ := exists_taken served checking refused
      have flying : (start.after inputs taken).state = .inflight := by rw [flies]
      obtain ⟨back, waited, same, answered, silent, none⟩ := exists_back served flying
      rw [flies] at same
      have content := served.content back (by rw [same]) answered
      have before : ∀ between, first ≤ between → between < back →
          start.responds inputs between = false := by
        intro between low high
        by_cases early : between < taken
        · exact quiet between low early
        · exact silent between (by omega) high
      have readOnce : start.readsBetween inputs first (back + 1) ≤ 1 := by
        rw [readsBetween_append (show first ≤ taken by omega) (by omega), none]
        exact once
      have passes : tables.refused (start.after inputs back).translateReq.accessType
          (start.after inputs back).walkingPaddr = false := by
        rw [same]
        exact refused
      by_cases goesOn : Pte.walkToNextLvl (inputs back).walkRespPte = true ∧
          (start.after inputs back).walkingLvl ≠ 0
      · have below : start.after inputs (back + 1) =
            (start.after inputs first).deeper (inputs back).walkRespPte := by
          rw [after, step_deeper (by rw [same]) answered goesOn.1 goesOn.2, same]
          rfl
        have lower := deeper_walkingLvl (start.after inputs first) (inputs back).walkRespPte
          (by simpa [same] using goesOn.2)
        obtain ⟨finish, ends⟩ := ih (level - 1) (by omega) (back + 1)
          (by rw [below]; rfl) (by rw [below]; omega)
        have unanswered : start.responds inputs back = false := by
          rw [responds, ← Bool.not_eq_true, answered_iff (by rw [same]) answered]
          exact not_not.mpr goesOn
        have shorter := expected_deeper tables (start.after inputs first) refused
          (by simpa [content, same] using goesOn.1) (by simpa [same] using goesOn.2)
        rw [same] at content
        rw [← content, ← below] at shorter
        have reached := ends.reached
        refine ⟨finish, by omega, ends.responds, ?_, ?_, ?_, ?_⟩
        · intro between low high
          rcases Nat.lt_trichotomy between back with early | rfl | late
          · exact before between low early
          · exact unanswered
          · exact ends.silent between late high
        · rw [ends.asked, below]
          rfl
        · rw [ends.outcome, shorter.1]
        · have rest := ends.reads
          rw [readsBetween_append (show first ≤ back + 1 by omega) reached, shorter.2]
          omega
      · have whole := expected_end tables (by rw [same]) answered content passes goesOn
        refine ⟨back, by omega, (answered_iff (by rw [same]) answered).mpr goesOn, before, ?_, ?_, ?_⟩
        · rw [same]
        · rw [whole, same]
          rfl
        · have nonempty := route_pos tables (start.after inputs first)
          rw [readsBetween_append (show first ≤ back by omega) (Nat.le_succ back)] at readOnce
          omega

/-- Every request is answered with the walk that wants clear software bits. -/
theorem exists_answers (served : tables.Serves start inputs) {cycle : Nat}
    (accepted : (start.after inputs cycle).translateReqFire (inputs cycle) = true) :
    ∃ finish, Answers start inputs cycle
      ((format (inputs cycle).translateReq.vpn).walk
        (tables.seenBy (inputs cycle).translateReq.accessType) 2
        (walkAddress (inputs cycle).satpPpn (inputs cycle).translateReq.vpn 2)) finish := by
  have begins : start.after inputs (cycle + 1) = _ := step_accept accepted
  obtain ⟨finish, ends⟩ := exists_concludes served 2 (cycle + 1) (by rw [begins])
    (by rw [begins]; rfl)
  have reached := ends.reached
  have idle : (start.after inputs cycle).state = .idle := by
    simp only [translateReqFire, translateReqRdy, Bool.and_eq_true, beq_iff_eq] at accepted
    exact accepted.2
  have unread : start.readsBetween inputs cycle (cycle + 1) = 0 := by
    apply readsBetween_eq_zero
    intro between low high
    obtain rfl : between = cycle := by omega
    simp [reads, walkReqVld, idle]
  refine ⟨finish, by omega, ends.responds, fun between low high => ends.silent between low high,
    ?_, ?_, ?_⟩
  · rw [translateResp, ends.asked, begins]
  · rw [ends.outcome, begins]
    rfl
  · have short := ends.reads
    rw [begins] at short
    rw [readsBetween_append (Nat.le_succ cycle) reached, unread, Nat.zero_add]
    exact short.trans (Format.path_length 2 _)

/-- A request has one answer. -/
theorem Answers.unique {cycle : Nat} {one other : Outcome Pte} {finish late : Nat}
    (answer : Answers start inputs cycle one finish)
    (again : Answers start inputs cycle other late) : one = other := by
  have same : finish = late := by
    rcases Nat.lt_trichotomy finish late with early | same | early
    · have silent := again.first finish answer.later early
      rw [answer.responds] at silent
      cases silent
    · exact same
    · have silent := answer.first late again.later early
      rw [again.responds] at silent
      cases silent
  subst same
  rw [← answer.outcome, again.outcome]

end Run

end Ptw

/-- The walker answers with the Sv39 walk exactly when no entry it reads has a software bit set, or
the walk faults anyway. -/
theorem ptw_walks_iff {tables : PageTables} {start : Ptw} {inputs : Nat → PtwInput}
    (served : tables.Serves start inputs) {cycle : Nat}
    (accepted : (start.after inputs cycle).translateReqFire (inputs cycle) = true) :
    (∃ finish, Ptw.Answers start inputs cycle
      (Sv39.walk (tables.seenBy (inputs cycle).translateReq.accessType) (inputs cycle).satpPpn
        (inputs cycle).translateReq.vpn) finish) ↔
      (∀ step ∈ Sv39.path (tables.seenBy (inputs cycle).translateReq.accessType)
          (inputs cycle).satpPpn (inputs cycle).translateReq.vpn,
        tables.refused (inputs cycle).translateReq.accessType step.2 = true ∨
          Pte.rsw (tables.memory step.2) = 0) ∨
      ∃ step ∈ Sv39.path (tables.seenBy (inputs cycle).translateReq.accessType)
          (inputs cycle).satpPpn (inputs cycle).translateReq.vpn,
        (Sv39.format (inputs cycle).translateReq.vpn).faulty
          (tables.seenBy (inputs cycle).translateReq.accessType) step = true := by
  obtain ⟨finish, answer⟩ := Ptw.exists_answers served accepted
  have agrees := (Sv39.format (inputs cycle).translateReq.vpn).restrict_walk_iff
    (tables.seenBy (inputs cycle).translateReq.accessType) (Pte.rsw · == 0) 2
    (walkAddress (inputs cycle).satpPpn (inputs cycle).translateReq.vpn 2)
  simp only [beq_iff_eq] at agrees
  constructor
  · intro answered
    obtain ⟨other, standard⟩ := answered
    exact agrees.mp (answer.unique standard)
  · intro clear
    exact ⟨finish, by rw [Sv39.walk, ← agrees.mpr clear]; exact answer⟩

/-- A walker that asks for a page and is served the same entry everywhere. -/
def constantInputs (pte : Pte) (_ : Nat) : PtwInput :=
  ⟨5, true, ⟨1, 0, 7, 1⟩, false, true, true, pte⟩

def constantTables (pte : Pte) : PageTables := ⟨fun _ => pte, fun _ _ => false⟩

theorem constantTables_serves (pte : Pte) (start : Ptw) :
    (constantTables pte).Serves start (constantInputs pte) where
  checks _ _ := rfl
  takes cycle _ := ⟨cycle, Nat.le_refl _, rfl⟩
  answers cycle _ := ⟨cycle, Nat.le_refl _, rfl⟩
  content _ _ _ := rfl

theorem ptw_walks_iff_witness :
    ∃ finish, Ptw.Answers ⟨.idle, 0, 0, ⟨0, 0, 0, 0⟩⟩ (constantInputs 0xcf) 0
      (Sv39.walk ((constantTables 0xcf).seenBy 1) 5 7) finish :=
  (ptw_walks_iff (constantTables_serves 0xcf _)
    (show (Ptw.after _ (constantInputs 0xcf) 0).translateReqFire (constantInputs 0xcf 0) = true by
      decide)).mpr (.inl (by decide))

/-- A page whose entry has a software bit set is a page fault to the walker. -/
theorem ptw_rejects_software_bits :
    ¬∀ (tables : PageTables) (start : Ptw) (inputs : Nat → PtwInput),
      tables.Serves start inputs → start.state = .idle → ∀ cycle,
      (start.after inputs cycle).translateReqFire (inputs cycle) = true →
      ∃ finish, Ptw.Answers start inputs cycle
        (Sv39.walk (tables.seenBy (inputs cycle).translateReq.accessType) (inputs cycle).satpPpn
          (inputs cycle).translateReq.vpn) finish := by
  intro claim
  obtain ⟨finish, answer⟩ := claim (constantTables 0x1cf) ⟨.idle, 0, 0, ⟨0, 0, 0, 0⟩⟩
    (constantInputs 0x1cf) (constantTables_serves 0x1cf _) rfl 0 (by decide)
  have second : finish ≤ 2 := by
    by_contra late
    have silent := answer.first 2 (by decide) (by omega)
    revert silent
    decide
  have responds := answer.responds
  have outcome := answer.outcome
  have later := answer.later
  interval_cases finish
  · revert responds
    decide
  · revert outcome
    decide

end GreenRio
