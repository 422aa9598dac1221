import GreenRio.Arbiter
import GreenRio.Issue

set_option autoImplicit false

namespace GreenRio

open Circular Counter Fifo

namespace Backend

section Ports

variable (backend : Backend) (input : RcuInput)

/-- `oldest2_selector` with its connections. -/
def selector : Oldest2Abitter 16 where
  priorityFix := backend.rcu.cmtRobIndex
  req := Oldest2Abitter.ofBits (fun j => backend.selectReady input (.slot (Fin.ofNat 16 j))) 16
  reqLs := Oldest2Abitter.ofBits (fun j => backend.loadStore input (.slot (Fin.ofNat 16 j))) 16
  newReqFirst := backend.selectReady input .first
  newReqSecond := backend.selectReady input .second
  newReqLsFirst := backend.loadStore input .first
  newReqLsSecond := backend.loadStore input .second

def robSelectFirstValid : Bool := (backend.selector input).firstGrantValid

def robSelectFirstIndex : RobIndex :=
  Oldest2Abitter.indexOf 0 (backend.selector input).firstGrantPreindex

def robSelectSecondValid : Bool := (backend.selector input).secondGrantValid

def robSelectSecondIndex : RobIndex :=
  Oldest2Abitter.indexOf 0 (backend.selector input).secondGrantPreindex

def bypassSelectFirstValid : Bool := (backend.selector input).newGrantFirst

def bypassSelectSecondValid : Bool := (backend.selector input).newGrantSecond

/-- The source that the first issue port is connected to. -/
def firstPort : Option Requester :=
  if backend.robSelectFirstValid input then some (.slot (backend.robSelectFirstIndex input))
  else if backend.robSelectSecondValid input then some (.slot (backend.robSelectSecondIndex input))
  else if backend.bypassSelectFirstValid input then some .first
  else if backend.bypassSelectSecondValid input then some .second
  else none

/-- The source of the second port, in the opposite order. -/
def secondPort : Option Requester :=
  if backend.bypassSelectSecondValid input then some .second
  else if backend.bypassSelectFirstValid input then some .first
  else if backend.robSelectSecondValid input then some (.slot (backend.robSelectSecondIndex input))
  else if backend.robSelectFirstValid input then some (.slot (backend.robSelectFirstIndex input))
  else none

def compressSelectFirstValid : Bool :=
  backend.bypassSelectFirstValid input || backend.bypassSelectSecondValid input ||
    backend.robSelectFirstValid input || backend.robSelectSecondValid input

/-- The second port is valid when the number of sources is even. -/
def compressSelectSecondValid : Bool :=
  !(backend.bypassSelectFirstValid input ^^ backend.bypassSelectSecondValid input ^^
      backend.robSelectFirstValid input ^^ backend.robSelectSecondValid input) &&
    backend.compressSelectFirstValid input

/-- `select_is_csr`, which the branch of the second stored grant does not assign. -/
def selectIsCsr (held : Bool) : Bool :=
  if backend.robSelectFirstValid input then
    (backend.rcu.rob (backend.robSelectFirstIndex input)).isCsr
  else if backend.robSelectSecondValid input then held
  else if backend.bypassSelectFirstValid input then input.offer.first.isCsr
  else if backend.bypassSelectSecondValid input then input.offer.second.isCsr
  else false

end Ports

variable (backend : Backend) (input : RcuInput)

/-- The requester at a position of the arbiter. -/
def requesterAt (position : Nat) : Requester :=
  if position = 17 then .second else if position = 16 then .first
  else .slot (advance backend.rcu.cmtRobIndex position)

theorem requesterAt_stored {position : Nat} (inside : position < 16) :
    backend.requesterAt position = .slot (advance backend.rcu.cmtRobIndex position) := by
  rw [requesterAt, if_neg (by omega), if_neg (by omega)]

theorem requesterAt_first : backend.requesterAt 16 = .first := rfl

theorem requesterAt_second : backend.requesterAt 17 = .second := rfl

theorem place_cases {position : Nat} (inside : position < 18) :
    position < 16 ∨ position = 16 ∨ position = 17 := by omega

theorem requesterAt_injective {left right : Nat} (inside : left < 18) (inside' : right < 18)
    (same : backend.requesterAt left = backend.requesterAt right) : left = right := by
  unfold requesterAt at same
  split_ifs at same
  all_goals first
    | omega
    | exact advance_injective _ (by omega) (by omega) (Requester.slot.inj same)

theorem requesters_eq : backend.requesters = (List.range 18).map backend.requesterAt := by
  have stored : (List.range 16).map backend.requesterAt =
      (slots backend.rcu.cmtRobIndex 16).map Requester.slot := by
    rw [slots_eq_range, List.map_map]
    apply List.map_congr_left
    intro position member
    have inside := List.mem_range.mp member
    simp [requesterAt, show position ≠ 17 by omega, show position ≠ 16 by omega]
  rw [requesters, ← stored, List.range_succ, List.range_succ, List.map_append, List.map_append,
    List.append_assoc]
  rfl

theorem selector_bit (flag : RobIndex → Bool) (position : Nat) :
    (Oldest2Abitter.ofBits (fun j => flag (Fin.ofNat 16 j)) 16).getLsbD
        ((backend.rcu.cmtRobIndex.val + position) % 16) =
      flag (advance backend.rcu.cmtRobIndex position) := by
  have bound : (backend.rcu.cmtRobIndex.val + position) % 16 < 16 := Nat.mod_lt _ (by omega)
  rw [Oldest2Abitter.getLsbD_ofBits]
  simp only [bound, decide_true, Bool.true_and]
  congr 1
  exact Fin.ext (Nat.mod_mod _ _)

theorem selector_request (position : Nat) :
    (backend.selector input).request position =
      backend.selectReady input (backend.requesterAt position) := by
  unfold Oldest2Abitter.request requesterAt
  split
  · rfl
  · split
    · rfl
    · exact selector_bit backend (fun slot => backend.selectReady input (.slot slot)) position

theorem selector_sequenced (position : Nat) :
    (backend.selector input).sequenced position =
      backend.loadStore input (backend.requesterAt position) := by
  unfold Oldest2Abitter.sequenced requesterAt
  split
  · rfl
  · split
    · rfl
    · exact selector_bit backend (fun slot => backend.loadStore input (.slot slot)) position

/-- The filter lets the oldest load or store pass. -/
theorem selector_oldest {position : Nat} (inside : position < 18) :
    (backend.requesters.find? (backend.loadStore input) == some (backend.requesterAt position)) =
      (backend.selector input).oldestSequenced position := by
  have found : backend.requesters.find? (backend.loadStore input) =
      some (backend.requesterAt position) ↔
        (List.range 18).find? (backend.loadStore input ∘ backend.requesterAt) = some position := by
    rw [requesters_eq, List.find?_map, Option.map_eq_some_iff]
    constructor
    · rintro ⟨other, first, same⟩
      have below := List.mem_range.mp (List.mem_of_find?_eq_some first)
      rwa [requesterAt_injective backend below inside same] at first
    · intro first
      exact ⟨position, first, rfl⟩
  rw [Bool.eq_iff_iff, beq_iff_eq, found, List.find?_range_eq_some,
    Oldest2Abitter.oldestSequenced, selector_sequenced]
  simp only [Function.comp_apply, List.mem_range, inside, true_and, Bool.and_eq_true,
    Bool.not_eq_true', decide_eq_false_iff_not, not_exists, not_and, Bool.not_eq_true,
    selector_sequenced]

theorem selector_eligible {position : Nat} (inside : position < 18) :
    (backend.selector input).fixedReq.getLsbD position =
      backend.eligible input (backend.requesterAt position) := by
  rw [Oldest2Abitter.fixedReq_bit _ inside, selector_request, eligible,
    selector_oldest backend input inside, selector_sequenced, Bool.or_comm]

/-- The arbiter grants the two oldest eligible requests. -/
theorem grants_eq :
    backend.grants input = (backend.selector input).granted.map backend.requesterAt := by
  rw [grants, Oldest2Abitter.granted, requesters_eq, List.filter_map, ← List.map_take]
  congr 2
  apply List.filter_congr
  intro position member
  exact (selector_eligible backend input (List.mem_range.mp member)).symm

theorem bypassSelect_eq :
    backend.bypassSelectFirstValid input =
        decide ((backend.selector input).granted[0]? = some 16 ∨
          (backend.selector input).granted[1]? = some 16) ∧
      backend.bypassSelectSecondValid input =
        decide ((backend.selector input).granted[0]? = some 17 ∨
          (backend.selector input).granted[1]? = some 17) := by
  rw [bypassSelectFirstValid, bypassSelectSecondValid]
  constructor
  · rw [Bool.eq_iff_iff, decide_eq_true_iff]
    exact (backend.selector input).newGrantFirst_iff
  · rw [Bool.eq_iff_iff, decide_eq_true_iff]
    exact (backend.selector input).newGrantSecond_iff

/-- The granted positions: none, one, or an older and a younger one. -/
theorem granted_cases :
    ((backend.selector input).granted = []) ∨
      (∃ position < 18, (backend.selector input).granted = [position]) ∨
      ∃ older younger, older < younger ∧ younger < 18 ∧
        (backend.selector input).granted = [older, younger] := by
  have order := @Oldest2Abitter.granted_order _ (backend.selector input)
  have inside := @Oldest2Abitter.granted_inside _ (backend.selector input)
  have size : (backend.selector input).granted.length ≤ 2 := by
    rw [Oldest2Abitter.granted, List.length_take]
    omega
  rcases shape : (backend.selector input).granted with _ | ⟨older, _ | ⟨younger, rest⟩⟩
  · exact Or.inl rfl
  · rw [shape] at inside
    exact Or.inr (Or.inl ⟨older, inside rfl, rfl⟩)
  · rw [shape] at order size
    have last : rest = [] := by
      rw [← List.length_eq_zero_iff]
      simp only [List.length_cons] at size
      omega
    obtain ⟨before, below⟩ := order rfl rfl
    exact Or.inr (Or.inr ⟨older, younger, before, below, by rw [last]⟩)

/-- The ports carry the older and the younger grant, and the branch that leaves `select_is_csr`
open is not taken. -/
theorem ports_eq :
    (if backend.compressSelectFirstValid input then backend.firstPort input else none) =
        (backend.grants input)[0]? ∧
      (if backend.compressSelectSecondValid input then backend.secondPort input else none) =
        (backend.grants input)[1]? ∧
      (backend.robSelectFirstValid input = false → backend.robSelectSecondValid input = false) := by
  obtain ⟨first, firstIndex⟩ := (backend.selector input).firstGrant_eq 0
  obtain ⟨second, secondIndex⟩ := (backend.selector input).secondGrant_eq 0
  change ∀ position < 16, _ → backend.robSelectFirstIndex input =
    advance backend.rcu.cmtRobIndex position at firstIndex
  change ∀ position < 16, _ → backend.robSelectSecondIndex input =
    advance backend.rcu.cmtRobIndex position at secondIndex
  obtain ⟨bypassFirst, bypassSecond⟩ := backend.bypassSelect_eq input
  rw [grants_eq, List.getElem?_map, List.getElem?_map]
  unfold compressSelectSecondValid compressSelectFirstValid firstPort secondPort
    robSelectFirstValid robSelectSecondValid
  rw [first, second, bypassFirst, bypassSecond]
  rcases backend.granted_cases input with shape | ⟨position, inside, shape⟩ |
    ⟨older, younger, order, inside, shape⟩
  · simp [shape]
  · rw [shape] at firstIndex ⊢
    rcases place_cases inside with stored | rfl | rfl
    · simp [stored, firstIndex position stored rfl, requesterAt_stored, show position ≠ 16 by omega,
        show position ≠ 17 by omega]
    · simp [requesterAt]
    · simp [requesterAt]
  · rw [shape] at firstIndex secondIndex ⊢
    rcases place_cases (show older < 18 by omega) with stored | rfl | rfl
    · rcases place_cases inside with stored' | rfl | rfl
      · simp [stored, stored', firstIndex older stored rfl, secondIndex younger stored' rfl,
          requesterAt_stored, show older ≠ 16 by omega, show older ≠ 17 by omega,
          show younger ≠ 16 by omega, show younger ≠ 17 by omega]
      · simp [stored, firstIndex older stored rfl, requesterAt_stored, requesterAt_first,
          show older ≠ 16 by omega, show older ≠ 17 by omega]
      · simp [stored, firstIndex older stored rfl, requesterAt_stored, requesterAt_second,
          show older ≠ 16 by omega, show older ≠ 17 by omega]
    · have last : younger = 17 := by omega
      subst last
      simp [requesterAt_first, requesterAt_second]
    · omega

/-- The select ports are the two compressed issue ports. -/
theorem selectFirst_eq : backend.selectFirst input =
    (if backend.compressSelectFirstValid input then backend.firstPort input else none).map
      (backend.issued input) := by
  rw [(backend.ports_eq input).1, selectFirst, issues, List.getElem?_map]

/-- What the first port carries goes to the CSR unit by its own class, whatever `select_is_csr`
held before. -/
theorem selectIsCsr_eq (held : Bool) :
    (backend.compressSelectFirstValid input && backend.selectIsCsr input held) =
      (backend.selectFirst input).any fun issued => issued.entry.isCsr := by
  rw [selectFirst_eq]
  cases valid : backend.compressSelectFirstValid input with
  | false => rfl
  | true =>
    have stored := (backend.ports_eq input).2.2
    rw [if_pos rfl, Bool.true_and, selectIsCsr, firstPort]
    split_ifs with first second third fourth
    · rfl
    · exact absurd second (by rw [stored (Bool.eq_false_iff.mpr first)]; decide)
    · rfl
    · rfl
    · rfl

theorem selectSecond_eq : backend.selectSecond input =
    (if backend.compressSelectSecondValid input then backend.secondPort input else none).map
      (backend.issued input) := by
  rw [(backend.ports_eq input).2.1, selectSecond, issues, List.getElem?_map]

/-- A valid second port has a source. -/
theorem secondPort_some (valid : backend.compressSelectSecondValid input = true) :
    ∃ requester, backend.secondPort input = some requester := by
  unfold secondPort
  split_ifs with first second third fourth
  · exact ⟨_, rfl⟩
  · exact ⟨_, rfl⟩
  · exact ⟨_, rfl⟩
  · exact ⟨_, rfl⟩
  · simp [compressSelectSecondValid, compressSelectFirstValid, first, second, third,
      fourth] at valid

end Backend

end GreenRio
