import GreenRio.Training

set_option autoImplicit false

namespace GreenRio

/-- Two cells of a table that are written one after the other, where both writers read the old
table: the second write is right if and only if it finds what it would have read in its turn. -/
theorem update_update_eq_iff {ι α : Type} [DecidableEq ι] {table : ι → α} {stale turn : ι}
    {left right : α} : Function.update table stale left = Function.update table turn right ↔
      if turn = stale then left = right else left = table stale ∧ table turn = right := by
  by_cases same : turn = stale
  · rw [if_pos same, same, (Function.update_injective table stale).eq_iff]
  · rw [if_neg same, Function.update_eq_iff, Function.update_of_ne (Ne.symm same)]
    refine and_congr_right fun _ => ⟨fun others => ?_, fun found x apart => ?_⟩
    · simpa using others turn same
    · by_cases here : x = turn
      · rw [here, Function.update_self, found]
      · rw [Function.update_of_ne here]

namespace Gshare

/-- A counter from 0 to 3 that stops at its ends. -/
def saturating (taken : Bool) (counter : BitVec 2) : BitVec 2 :=
  if taken then BitVec.ofNat 2 (min (counter.toNat + 1) 3) else BitVec.ofNat 2 (counter.toNat - 1)

/-- The end at which an outcome leaves a counter. -/
def limit (taken : Bool) : BitVec 2 := if taken then 3 else 0

theorem counted_eq (taken : Bool) (counter : BitVec 2) :
    counted taken counter = saturating taken counter := by
  revert taken counter
  decide

/-- Training with a single branch: its counter is the one of its address and the history of that
moment. -/
def train (gshare : Gshare) (reported : Reported) : Gshare where
  ghr := gshare.shifted reported.taken
  pht := Function.update gshare.pht (gshare.prevIdx reported.pc)
    (saturating reported.taken (gshare.pht (gshare.prevIdx reported.pc)))

end Gshare

namespace GshareInput

variable (input : GshareInput)

def first : Reported := ⟨input.prevPcFirst, input.prevTakenFirst⟩

def second : Reported := ⟨input.prevPcSecond, input.prevTakenSecond⟩

/-- The branches of a cycle in program order. -/
def reports : List Reported :=
  (if input.prevBranchInFirst then [input.first] else []) ++
    if input.prevBranchInSecond then [input.second] else []

end GshareInput

namespace Gshare

section Pair

variable (gshare : Gshare) (first second : Reported)

/-- The counter of the second branch in its turn. -/
def turnIdx : BitVec 4 := (gshare.train first).prevIdx second.pc

/-- When two branches can be trained with at once: the last three outcomes of the history are that
of the first branch; if the second one has the same counter with or without it and shares this
counter, the first one makes no difference to where it goes; if it has two counters, the wrong one
loses nothing and the right one misses nothing. -/
structure Together : Prop where
  history : ∀ position < 3, gshare.ghr.getLsbD position = first.taken
  shared : gshare.turnIdx first second = gshare.prevIdx second.pc →
    gshare.prevIdx first.pc = gshare.prevIdx second.pc →
      if first.taken = second.taken then
        (gshare.pht (gshare.prevIdx first.pc)).getLsbD 1 = first.taken
      else (gshare.pht (gshare.prevIdx first.pc)).getLsbD 0 =
        (gshare.pht (gshare.prevIdx first.pc)).getLsbD 1
  wrong : gshare.turnIdx first second ≠ gshare.prevIdx second.pc →
    if gshare.prevIdx first.pc = gshare.prevIdx second.pc then first.taken = second.taken
    else gshare.pht (gshare.prevIdx second.pc) = limit second.taken
  right : gshare.turnIdx first second ≠ gshare.prevIdx second.pc →
    if gshare.prevIdx first.pc = gshare.turnIdx first second then
      first.taken = second.taken ∧
        (gshare.pht (gshare.prevIdx first.pc)).getLsbD 1 = first.taken
    else gshare.pht (gshare.turnIdx first second) = limit second.taken

end Pair

/-- At most one branch is reported, or both can be trained with at once. -/
def Grouped (gshare : Gshare) (input : GshareInput) : Prop :=
  input.prevBranchInFirst = true → input.prevBranchInSecond = true →
    gshare.Together input.first input.second

variable {gshare : Gshare} {input : GshareInput}

/-! ### The counters -/

section Counters

theorem saturating_eq_self_iff : ∀ (taken : Bool) (counter : BitVec 2),
    saturating taken counter = counter ↔ counter = limit taken := by
  decide

theorem saturating_eq_saturating_iff : ∀ (left right : Bool) (counter : BitVec 2),
    saturating left counter = saturating right counter ↔ right = left := by
  decide

theorem saturating_saturating_eq_first_iff : ∀ (first second : Bool) (counter : BitVec 2),
    saturating first counter = saturating second (saturating first counter) ↔
      first = second ∧ counter.getLsbD 1 = first := by
  decide

theorem saturating_saturating_eq_second_iff : ∀ (first second : Bool) (counter : BitVec 2),
    saturating second counter = saturating second (saturating first counter) ↔
      if first = second then counter.getLsbD 1 = first
      else counter.getLsbD 0 = counter.getLsbD 1 := by
  decide

/-- The history keeps the outcome of the first branch only by chance. -/
theorem shifted_eq_iff : ∀ (ghr : BitVec 4) (first second : Bool),
    ghr.extractLsb' 0 3 ++ BitVec.ofBool second =
      (ghr.extractLsb' 0 3 ++ BitVec.ofBool first).extractLsb' 0 3 ++ BitVec.ofBool second ↔
        ∀ position < 3, ghr.getLsbD position = first := by
  decide

end Counters

/-! ### One cycle -/

@[ext] theorem ext {left right : Gshare} (ghr : left.ghr = right.ghr)
    (pht : left.pht = right.pht) : left = right := by
  cases left
  cases right
  exact congrArg₂ _ ghr pht

/-- What a cycle leaves of the pattern table when the second port is idle, and when it is not. -/
theorem step_pht_first (idle : input.prevBranchInSecond = false) :
    (gshare.step input).pht =
      if input.prevBranchInFirst then (gshare.train input.first).pht else gshare.pht := by
  funext index
  cases first : input.prevBranchInFirst with
  | false => simp [step, idle, first]
  | true =>
    by_cases here : index = gshare.prevIdx input.prevPcFirst
    · simp [step, idle, first, train, GshareInput.first, counted_eq, here]
    · simp [step, idle, first, train, GshareInput.first, here]

theorem step_pht_second (gshare : Gshare) (busy : input.prevBranchInSecond = true) :
    (gshare.step input).pht =
      Function.update
        (if input.prevBranchInFirst then (gshare.train input.first).pht else gshare.pht)
        (gshare.prevIdx input.prevPcSecond)
        (saturating input.prevTakenSecond (gshare.pht (gshare.prevIdx input.prevPcSecond))) := by
  funext index
  by_cases last : index = gshare.prevIdx input.prevPcSecond
  · simp [step, busy, counted_eq, last]
  · cases first : input.prevBranchInFirst with
    | false => simp [step, busy, first, last]
    | true =>
      by_cases here : index = gshare.prevIdx input.prevPcFirst
      · subst here
        simp [step, first, last, train, GshareInput.first, counted_eq]
      · simp [step, busy, first, last, train, GshareInput.first, here]

/-- A cycle that reports at most one branch trains with it. -/
theorem step_single (single : input.prevBranchInFirst = true → input.prevBranchInSecond = false) :
    gshare.step input = input.reports.foldl train gshare := by
  cases second : input.prevBranchInSecond with
  | false =>
    apply ext
    · cases first : input.prevBranchInFirst <;>
        simp [step, GshareInput.reports, first, second, train, GshareInput.first]
    · rw [step_pht_first second]
      cases first : input.prevBranchInFirst <;>
        simp [GshareInput.reports, first, second]
  | true =>
    have first : input.prevBranchInFirst = false := by
      rw [← Bool.not_eq_true]
      intro first
      rw [single first] at second
      cases second
    apply ext
    · simp [step, GshareInput.reports, first, second, train, GshareInput.second]
    · rw [step_pht_second gshare second]
      simp [GshareInput.reports, first, second, train, GshareInput.second]

section Pair

variable {first second : Reported}

theorem train_pht (index : BitVec 4) : (gshare.train first).pht index =
    if index = gshare.prevIdx first.pc then
      saturating first.taken (gshare.pht (gshare.prevIdx first.pc))
    else gshare.pht index :=
  Function.update_apply _ _ _ _

/-- The second branch trains the counter that it finds in the old table, which is the one of its
turn. -/
theorem shared_iff : saturating second.taken (gshare.pht (gshare.prevIdx second.pc)) =
    saturating second.taken ((gshare.train first).pht (gshare.prevIdx second.pc)) ↔
      (gshare.prevIdx first.pc = gshare.prevIdx second.pc →
        if first.taken = second.taken then
          (gshare.pht (gshare.prevIdx first.pc)).getLsbD 1 = first.taken
        else (gshare.pht (gshare.prevIdx first.pc)).getLsbD 0 =
          (gshare.pht (gshare.prevIdx first.pc)).getLsbD 1) := by
  rw [train_pht]
  by_cases same : gshare.prevIdx first.pc = gshare.prevIdx second.pc
  · rw [if_pos same.symm, ← same, saturating_saturating_eq_second_iff]
    exact ⟨fun shared _ => shared, fun shared => shared rfl⟩
  · rw [if_neg (Ne.symm same)]
    exact iff_of_true rfl fun equal => absurd equal same

theorem wrong_iff : saturating second.taken (gshare.pht (gshare.prevIdx second.pc)) =
    (gshare.train first).pht (gshare.prevIdx second.pc) ↔
      if gshare.prevIdx first.pc = gshare.prevIdx second.pc then first.taken = second.taken
      else gshare.pht (gshare.prevIdx second.pc) = limit second.taken := by
  rw [train_pht]
  by_cases same : gshare.prevIdx first.pc = gshare.prevIdx second.pc
  · rw [if_pos same.symm, if_pos same, ← same, saturating_eq_saturating_iff]
  · rw [if_neg (Ne.symm same), if_neg same, saturating_eq_self_iff]

theorem right_iff : (gshare.train first).pht (gshare.turnIdx first second) =
    saturating second.taken ((gshare.train first).pht (gshare.turnIdx first second)) ↔
      if gshare.prevIdx first.pc = gshare.turnIdx first second then
        first.taken = second.taken ∧
          (gshare.pht (gshare.prevIdx first.pc)).getLsbD 1 = first.taken
      else gshare.pht (gshare.turnIdx first second) = limit second.taken := by
  rw [train_pht]
  by_cases same : gshare.prevIdx first.pc = gshare.turnIdx first second
  · rw [if_pos same.symm, if_pos same, saturating_saturating_eq_first_iff]
  · rw [if_neg (Ne.symm same), if_neg same, eq_comm, saturating_eq_self_iff]

/-- The second write finds what it would find in its turn. -/
theorem table_iff : Function.update (gshare.train first).pht (gshare.prevIdx second.pc)
      (saturating second.taken (gshare.pht (gshare.prevIdx second.pc))) =
    ((gshare.train first).train second).pht ↔
      if gshare.turnIdx first second = gshare.prevIdx second.pc then
        saturating second.taken (gshare.pht (gshare.prevIdx second.pc)) =
          saturating second.taken ((gshare.train first).pht (gshare.turnIdx first second))
      else saturating second.taken (gshare.pht (gshare.prevIdx second.pc)) =
          (gshare.train first).pht (gshare.prevIdx second.pc) ∧
        (gshare.train first).pht (gshare.turnIdx first second) =
          saturating second.taken ((gshare.train first).pht (gshare.turnIdx first second)) :=
  update_update_eq_iff

/-- A pair is trained with as if in turn exactly under the condition. -/
theorem together_iff : gshare.Together first second ↔
    gshare.shifted second.taken = (gshare.train first).shifted second.taken ∧
      Function.update (gshare.train first).pht (gshare.prevIdx second.pc)
        (saturating second.taken (gshare.pht (gshare.prevIdx second.pc))) =
          ((gshare.train first).train second).pht := by
  have history : gshare.shifted second.taken = (gshare.train first).shifted second.taken ↔
      ∀ position < 3, gshare.ghr.getLsbD position = first.taken :=
    shifted_eq_iff gshare.ghr first.taken second.taken
  rw [history, table_iff]
  by_cases turn : gshare.turnIdx first second = gshare.prevIdx second.pc
  · rw [if_pos turn, turn, shared_iff]
    constructor
    · exact fun together => ⟨together.history, together.shared turn⟩
    · exact fun ⟨history, shared⟩ =>
        ⟨history, fun _ => shared, fun apart => absurd turn apart, fun apart => absurd turn apart⟩
  · rw [if_neg turn, wrong_iff, right_iff]
    constructor
    · exact fun together => ⟨together.history, together.wrong turn, together.right turn⟩
    · exact fun ⟨history, wrong, right⟩ =>
        ⟨history, fun same => absurd same turn, fun _ => wrong, fun _ => right⟩

end Pair

/-- A cycle trains with its branches as if in turn exactly under the condition. -/
theorem step_iff : gshare.step input = input.reports.foldl train gshare ↔ gshare.Grouped input := by
  by_cases pair : input.prevBranchInFirst = true ∧ input.prevBranchInSecond = true
  · obtain ⟨first, second⟩ := pair
    have reports : input.reports = [input.first, input.second] := by
      simp [GshareInput.reports, first, second]
    have shifted : (gshare.step input).ghr = gshare.shifted input.second.taken := if_pos second
    have table := step_pht_second gshare second
    rw [first, if_pos rfl] at table
    rw [reports, List.foldl_cons, List.foldl_cons, List.foldl_nil, Gshare.ext_iff, shifted, table]
    have grouped : gshare.Grouped input ↔ gshare.Together input.first input.second :=
      ⟨fun grouped => grouped first second, fun together _ _ => together⟩
    rw [grouped]
    exact together_iff.symm
  · refine iff_of_true (step_single fun first => ?_) fun first second => absurd ⟨first, second⟩ pair
    rw [← Bool.not_eq_true]
    exact fun second => pair ⟨first, second⟩

/-- A predictor by itself, from any state. -/
def machine (start : Gshare) : Synchronous Gshare GshareInput := ⟨start, step⟩

/-- Every cycle does the same as its branches in turn if and only if it meets the condition; and a
run stands at every moment where the sequence of the branches reported so far leads, however they
were grouped into cycles, if and only if all its cycles do. -/
theorem trained_in_turn_iff (start : Gshare) :
    (∀ input, start.step input = input.reports.foldl train start ↔ start.Grouped input) ∧
      ∀ inputs, (∀ past rest, inputs = past ++ rest →
          (machine start).run past = (past.flatMap GshareInput.reports).foldl train start) ↔
        (machine start).Obeys Grouped inputs := by
  refine ⟨fun input => step_iff, Synchronous.prefixes_iff rfl fun past input before => ?_⟩
  rw [Synchronous.run_snoc, List.flatMap_append, List.foldl_append, ← before, ← step_iff]
  simp only [List.flatMap_cons, List.flatMap_nil, List.append_nil]
  rfl

/-- Two taken branches from reset: the history has room for one of them. -/
theorem pair_shifted_once :
    let pair : GshareInput := ⟨0x80000000#39, true, true, 0x80000010#39, true, true⟩
    (reset.step pair).ghr = 0b0001#4 ∧ (pair.reports.foldl train reset).ghr = 0b0011#4 ∧
      reset.step pair ≠ pair.reports.foldl train reset := by
  refine ⟨by decide, by decide, fun same => ?_⟩
  exact absurd (congrArg ghr same) (by decide)

end Gshare

end GreenRio
