import GreenRio.Arbiter

set_option autoImplicit false

namespace GreenRio.Oldest2Abitter

/-- Who may be granted: a request stored in a slot, or one of the two that arrive. -/
inductive Requester (w : Nat)
  | resident (slot : Fin w)
  | newFirst
  | newSecond
  deriving DecidableEq

variable {w : Nat}

/-- The slot of a stored request. -/
def Requester.slot : Requester w → Option (Fin w)
  | .resident slot => some slot
  | _ => none

section Order

variable (abitter : Oldest2Abitter w)

/-- The slots around the ring from the priority on, then the two new requests. -/
def byAge : List (Requester w) :=
  (Circular.slots abitter.priorityFix w).map Requester.resident ++ [.newFirst, .newSecond]

def requests : Requester w → Bool
  | .resident slot => abitter.req.getLsbD slot.val
  | .newFirst => abitter.newReqFirst
  | .newSecond => abitter.newReqSecond

def memory : Requester w → Bool
  | .resident slot => abitter.reqLs.getLsbD slot.val
  | .newFirst => abitter.newReqLsFirst
  | .newSecond => abitter.newReqLsSecond

/-- A memory operation waits for every memory operation in front of it. -/
def eligible (who : Requester w) : Bool :=
  abitter.requests who &&
    (!abitter.memory who || abitter.byAge.find? abitter.memory == some who)

/-- The two oldest of those that may be granted. -/
def oldestTwo : List (Requester w) := (abitter.byAge.filter abitter.eligible).take 2

/-- `first_grant_index_o` and `second_grant_index_o`. -/
def firstGrantIndex : Fin w := indexOf ⟨0, abitter.priorityFix.pos⟩ abitter.firstGrantPreindex

def secondGrantIndex : Fin w := indexOf ⟨0, abitter.priorityFix.pos⟩ abitter.secondGrantPreindex

/-- The stored request behind a valid bit and an index. -/
def granting (valid : Bool) (index : Fin w) : Option (Fin w) := if valid then some index else none

/-- What the four grant outputs name. -/
def grants : List (Requester w) :=
  (granting abitter.firstGrantValid abitter.firstGrantIndex).toList.map Requester.resident ++
    (granting abitter.secondGrantValid abitter.secondGrantIndex).toList.map Requester.resident ++
    (if abitter.newGrantFirst then [Requester.newFirst] else []) ++
    (if abitter.newGrantSecond then [Requester.newSecond] else [])

/-- The requester at a place in the order of age. -/
def place (position : Nat) : Requester w :=
  if position = w + 1 then .newSecond else if position = w then .newFirst
  else .resident (Circular.advance abitter.priorityFix position)

theorem byAge_eq : abitter.byAge = (List.range (w + 2)).map abitter.place := by
  have stored : (List.range w).map abitter.place =
      (List.range w).map (Requester.resident ∘ Circular.advance abitter.priorityFix) := by
    apply List.map_congr_left
    intro position member
    have inside := List.mem_range.mp member
    rw [place, if_neg (by omega), if_neg (by omega)]
    rfl
  rw [byAge, Circular.slots_eq_range, List.map_map, List.range_succ, List.range_succ,
    List.map_append, List.map_append, stored, List.append_assoc]
  simp [place]

theorem requests_place (position : Nat) :
    abitter.requests (abitter.place position) = abitter.request position := by
  unfold place request
  split
  · rfl
  · split <;> rfl

theorem memory_place (position : Nat) :
    abitter.memory (abitter.place position) = abitter.sequenced position := by
  unfold place sequenced
  split
  · rfl
  · split <;> rfl

theorem place_injective {earlier later : Nat} (left : earlier < w + 2) (right : later < w + 2)
    (same : abitter.place earlier = abitter.place later) : earlier = later := by
  unfold place at same
  split_ifs at same
  · omega
  · omega
  · apply Circular.advance_injective abitter.priorityFix (by omega) (by omega)
    exact Requester.resident.inj same

/-- The first memory operation is the one that the isolated bit marks. -/
theorem oldestSequenced_iff {position : Nat} (inside : position < w + 2) :
    abitter.oldestSequenced position = true ↔
      abitter.byAge.find? abitter.memory = some (abitter.place position) := by
  have marks : ∀ found, (List.range (w + 2)).find? (abitter.memory ∘ abitter.place) = some found ↔
      found < w + 2 ∧ abitter.oldestSequenced found = true := by
    intro found
    rw [List.find?_range_eq_some]
    simp only [Function.comp_apply, oldestSequenced, Bool.and_eq_true, Bool.not_eq_true',
      decide_eq_false_iff_not, not_exists, not_and, List.mem_range]
    constructor
    · rintro ⟨set, below, first⟩
      rw [abitter.memory_place] at set
      refine ⟨below, set, fun earlier before => ?_⟩
      rw [← abitter.memory_place]
      simpa using first earlier before
    · rintro ⟨below, set, first⟩
      rw [abitter.memory_place]
      refine ⟨set, below, fun earlier before => ?_⟩
      rw [abitter.memory_place]
      simpa using first earlier before
  rw [byAge_eq, List.find?_map, Option.map_eq_some_iff]
  constructor
  · intro oldest
    exact ⟨position, (marks position).mpr ⟨inside, oldest⟩, rfl⟩
  · rintro ⟨found, first, same⟩
    obtain ⟨below, oldest⟩ := (marks found).mp first
    rw [← abitter.place_injective below inside same]
    exact oldest

theorem eligible_place {position : Nat} (inside : position < w + 2) :
    abitter.eligible (abitter.place position) = abitter.fixedReq.getLsbD position := by
  have oldest : (abitter.byAge.find? abitter.memory == some (abitter.place position)) =
      abitter.oldestSequenced position := by
    rw [Bool.eq_iff_iff, beq_iff_eq, abitter.oldestSequenced_iff inside]
  rw [eligible, abitter.requests_place, abitter.memory_place, oldest,
    abitter.fixedReq_bit inside, Bool.or_comm]

theorem oldestTwo_eq : abitter.oldestTwo = abitter.granted.map abitter.place := by
  rw [oldestTwo, granted, byAge_eq, List.filter_map, List.map_take]
  congr 2
  apply List.filter_congr
  intro position member
  exact abitter.eligible_place (List.mem_range.mp member)

end Order

section Outputs

variable (abitter : Oldest2Abitter w)

theorem place_below {position : Nat} (inside : position < w) :
    abitter.place position = .resident (Circular.advance abitter.priorityFix position) := by
  rw [place, if_neg (by omega), if_neg (by omega)]

theorem place_first : abitter.place w = .newFirst := by simp [place]

theorem place_second : abitter.place (w + 1) = .newSecond := by simp [place]

/-- An index output reports the slot of its grant, if that grant is a stored request. -/
theorem granting_eq {valid : Bool} {index : Fin w} {chosen : Option Nat}
    (reach : ∀ position, chosen = some position → position < w + 2)
    (validEq : valid = chosen.any fun position => position < w)
    (indexEq : ∀ position < w, chosen = some position →
      index = Circular.advance abitter.priorityFix position) :
    granting valid index = chosen.bind fun position => (abitter.place position).slot := by
  cases chosen with
  | none => simp [granting, validEq]
  | some position =>
    have bound := reach position rfl
    rcases Nat.lt_or_ge position w with below | above
    · rw [granting, validEq, indexEq position below rfl, Option.bind_some,
        abitter.place_below below]
      simp [below, Requester.slot]
    · have outside : ¬ position < w := by omega
      rcases (show position = w ∨ position = w + 1 by omega) with rfl | rfl
      · simp [granting, validEq, place_first, Requester.slot]
      · simp [granting, validEq, place_second, Requester.slot]

theorem granting_first :
    granting abitter.firstGrantValid abitter.firstGrantIndex =
      abitter.granted[0]?.bind fun position => (abitter.place position).slot := by
  obtain ⟨valid, index⟩ := abitter.firstGrant_eq ⟨0, abitter.priorityFix.pos⟩
  exact abitter.granting_eq (fun _ first => abitter.granted_inside first) valid index

theorem granting_second :
    granting abitter.secondGrantValid abitter.secondGrantIndex =
      abitter.granted[1]?.bind fun position => (abitter.place position).slot := by
  obtain ⟨valid, index⟩ := abitter.secondGrant_eq ⟨0, abitter.priorityFix.pos⟩
  refine abitter.granting_eq (fun position second => ?_) valid index
  rw [granted, List.getElem?_take_of_lt (by omega), filter_getElem] at second
  exact second.1

theorem granted_length : abitter.granted.length ≤ 2 := by
  rw [granted, List.length_take]
  exact Nat.min_le_left _ _

theorem mem_granted (position : Nat) : position ∈ abitter.granted ↔
    abitter.granted[0]? = some position ∨ abitter.granted[1]? = some position := by
  rw [List.mem_iff_getElem?]
  constructor
  · rintro ⟨index, found⟩
    obtain ⟨bound, -⟩ := List.getElem?_eq_some_iff.mp found
    have few := abitter.granted_length
    rcases (show index = 0 ∨ index = 1 by omega) with rfl | rfl
    · exact Or.inl found
    · exact Or.inr found
  · rintro (first | second)
    · exact ⟨0, first⟩
    · exact ⟨1, second⟩

theorem newGrantFirst_eq : abitter.newGrantFirst = decide (w ∈ abitter.granted) := by
  rw [Bool.eq_iff_iff, newGrantFirst_iff, decide_eq_true_iff, mem_granted]

theorem newGrantSecond_eq : abitter.newGrantSecond = decide (w + 1 ∈ abitter.granted) := by
  rw [Bool.eq_iff_iff, newGrantSecond_iff, decide_eq_true_iff, mem_granted]

/-- The outputs name the granted places, from the oldest on. -/
theorem grants_eq : abitter.grants = abitter.granted.map abitter.place := by
  rw [grants, granting_first, granting_second, newGrantFirst_eq, newGrantSecond_eq]
  rcases shape : abitter.granted with _ | ⟨older, _ | ⟨younger, _ | ⟨third, rest⟩⟩⟩
  · simp
  · have reach : older < w + 2 := abitter.granted_inside (by simp [shape])
    rcases (show older < w ∨ older = w ∨ older = w + 1 by omega) with below | rfl | rfl
    · simp [place_below _ below, Requester.slot, show ¬ w = older by omega,
        show ¬ w + 1 = older by omega]
    · simp [place_first, Requester.slot]
    · simp [place_second, Requester.slot]
  · obtain ⟨order, reach⟩ : older < younger ∧ younger < w + 2 :=
      abitter.granted_order (by simp [shape]) (by simp [shape])
    rcases (show younger < w ∨ younger = w ∨ younger = w + 1 by omega) with below | rfl | rfl
    · simp [place_below _ below, place_below _ (show older < w by omega), Requester.slot,
        show ¬ w = older by omega, show ¬ w + 1 = older by omega, show ¬ w = younger by omega,
        show ¬ w + 1 = younger by omega]
    · simp [place_first, place_below _ order, Requester.slot, show ¬ younger = older by omega,
        show ¬ younger + 1 = older by omega]
    · rcases (show older < w ∨ older = w by omega) with below | rfl
      · simp [place_second, place_below _ below, Requester.slot, show ¬ w = older by omega,
          show ¬ w + 1 = older by omega]
      · simp [place_first, place_second, Requester.slot]
  · have few := abitter.granted_length
    simp [shape] at few

theorem grants_length : abitter.grants.length =
    abitter.firstGrantValid.toNat + abitter.secondGrantValid.toNat +
      abitter.newGrantFirst.toNat + abitter.newGrantSecond.toNat := by
  unfold grants granting
  cases abitter.firstGrantValid <;> cases abitter.secondGrantValid <;>
    cases abitter.newGrantFirst <;> cases abitter.newGrantSecond <;> rfl

/-- The first output names the oldest of the stored requests that are granted. -/
theorem granting_first_eq : granting abitter.firstGrantValid abitter.firstGrantIndex =
    (abitter.oldestTwo.filterMap Requester.slot)[0]? := by
  rw [granting_first, oldestTwo_eq]
  rcases shape : abitter.granted with _ | ⟨older, rest⟩
  · simp
  · have reach : older < w + 2 := abitter.granted_inside (by simp [shape])
    rcases (show older < w ∨ w ≤ older by omega) with below | above
    · simp [place_below _ below, Requester.slot]
    · have empty : rest.filterMap (Requester.slot ∘ abitter.place) = [] := by
        apply List.filterMap_eq_nil_iff.mpr
        intro younger member
        obtain ⟨index, found⟩ := List.mem_iff_getElem?.mp member
        have few := abitter.granted_length
        have bound := (List.getElem?_eq_some_iff.mp found).1
        rw [shape, List.length_cons] at few
        obtain rfl : index = 0 := by omega
        obtain ⟨order, reach⟩ : older < younger ∧ younger < w + 2 :=
          abitter.granted_order (by simp [shape]) (by simpa [shape] using found)
        obtain rfl : younger = w + 1 := by omega
        simp [place_second, Requester.slot]
      have outside : (abitter.place older).slot = none := by
        rcases (show older = w ∨ older = w + 1 by omega) with rfl | rfl
        · rw [place_first]
          rfl
        · rw [place_second]
          rfl
      rw [List.map_cons, List.filterMap_cons_none outside, List.filterMap_map, empty]
      exact outside

end Outputs

/-- The arbiter grants exactly the two oldest requests that may be granted: its first output names
the oldest stored one of them, at most two outputs are set, and what they name is granted. -/
theorem grants_oldestTwo (abitter : Oldest2Abitter w) :
    abitter.grants = abitter.oldestTwo ∧
      granting abitter.firstGrantValid abitter.firstGrantIndex =
        (abitter.oldestTwo.filterMap Requester.slot)[0]? ∧
      abitter.firstGrantValid.toNat + abitter.secondGrantValid.toNat +
        abitter.newGrantFirst.toNat + abitter.newGrantSecond.toNat ≤ 2 := by
  refine ⟨abitter.grants_eq.trans abitter.oldestTwo_eq.symm, abitter.granting_first_eq, ?_⟩
  rw [← grants_length, grants_eq, List.length_map]
  exact abitter.granted_length

end GreenRio.Oldest2Abitter
