import Mathlib.Data.List.Induction
import GreenRio.Circular

set_option autoImplicit false

namespace GreenRio

/-- The inputs of `oldest2_abitter_bps_lss`: stored requests by slot, two new requests, and which
of them are kept in sequence. -/
structure Oldest2Abitter (w : Nat) where
  priorityFix : Fin w
  req : BitVec w
  reqLs : BitVec w
  newReqFirst : Bool
  newReqSecond : Bool
  newReqLsFirst : Bool
  newReqLsSecond : Bool

/-- The wires of one position of the grant chain. -/
structure GrantCell where
  grant : Bool
  grantLess : Bool
  mid : Bool
  midLess : Bool

namespace Oldest2Abitter

variable {w : Nat}

/-- The vector with the given bits. -/
def ofBits (bit : Nat → Bool) : (n : Nat) → BitVec n
  | 0 => 0#0
  | n + 1 => .cons (bit n) (ofBits bit n)

/-- `{x, x} >> amount`, its lower half. -/
def rotateDown (x : BitVec w) (amount : Nat) : BitVec w := ((x ++ x) >>> amount).setWidth w

/-- `{x, x} << amount`, its middle part. -/
def rotateUp (x : BitVec w) (amount : Nat) : BitVec w :=
  ((x ++ x).setWidth (w + w + w) <<< amount).extractLsb' w w

/-- `{second, first, low}`. -/
def join (second first : Bool) (low : BitVec w) : BitVec (w + 2) := .cons second (.cons first low)

/-- The lowest bit of a vector. -/
def lowest {n : Nat} (x : BitVec n) : BitVec n := x &&& ~~~(x - 1#n)

section Wires

variable (abitter : Oldest2Abitter w)

def fixedLsReqVer : BitVec (w + 2) :=
  ~~~ join abitter.newReqLsSecond abitter.newReqLsFirst abitter.reqLs

def fixedLsReq : BitVec (w + 2) :=
  join abitter.newReqLsSecond abitter.newReqLsFirst
    (rotateDown abitter.reqLs abitter.priorityFix.val)

def doubleFixed2LsGnt : BitVec (w + 2 + (w + 2)) :=
  lowest (abitter.fixedLsReq ++ abitter.fixedLsReq)

def lsGntSequence : BitVec (w + 2) :=
  abitter.doubleFixed2LsGnt.setWidth (w + 2) |||
    abitter.doubleFixed2LsGnt.extractLsb' (w + 2) (w + 2)

def realGnt : BitVec (w + 2) :=
  join (abitter.lsGntSequence.getLsbD (w + 1)) (abitter.lsGntSequence.getLsbD w)
      (rotateUp (abitter.lsGntSequence.setWidth w) abitter.priorityFix.val) |||
    abitter.fixedLsReqVer

def fixedReq : BitVec (w + 2) :=
  join abitter.newReqSecond abitter.newReqFirst
      (rotateDown abitter.req abitter.priorityFix.val) &&&
    join (abitter.realGnt.getLsbD (w + 1)) (abitter.realGnt.getLsbD w)
      (rotateDown (abitter.realGnt.setWidth w) abitter.priorityFix.val)

/-- The chain that finds the two lowest requests. -/
def cell (request : Nat → Bool) : Nat → GrantCell
  | 0 =>
    { grant := request 0
      grantLess := request 0 && !request 0
      mid := request 0
      midLess := request 0 && !request 0 }
  | position + 1 =>
    let before := cell request position
    let grant := request (position + 1) && !before.mid
    { grant := grant
      grantLess := request (position + 1) && !before.midLess && !grant
      mid := request (position + 1) || before.mid
      midLess := (request (position + 1) || before.midLess) && !grant }

def grant (position : Nat) : Bool := (cell abitter.fixedReq.getLsbD position).grant

def grantLess (position : Nat) : Bool := (cell abitter.fixedReq.getLsbD position).grantLess

/-- `first_grant_preindex` and `second_grant_preindex`. -/
def firstGrantPreindex : BitVec w :=
  rotateUp (ofBits abitter.grant w) abitter.priorityFix.val

def secondGrantPreindex : BitVec w :=
  rotateUp (ofBits abitter.grantLess w) abitter.priorityFix.val

def newGrantFirst : Bool := abitter.grant w || abitter.grantLess w

def newGrantSecond : Bool := abitter.grant (w + 1) || abitter.grantLess (w + 1)

/-- The index loop: the last set bit counts, and no bit gives zero. -/
def indexOf (default : Fin w) (preindex : BitVec w) : Fin w :=
  (List.finRange w).foldl (fun index j => if preindex.getLsbD j.val then j else index) default

def firstGrantValid : Bool := abitter.firstGrantPreindex != 0

def secondGrantValid : Bool := abitter.secondGrantPreindex != 0

end Wires

theorem getLsbD_ofBits (bit : Nat → Bool) (n position : Nat) :
    (ofBits bit n).getLsbD position = (decide (position < n) && bit position) := by
  induction n with
  | zero => simp [ofBits]
  | succ n ih =>
    rw [ofBits, BitVec.getLsbD_cons]
    by_cases last : position = n
    · simp [last]
    · rw [if_neg last, ih]
      congr 1
      rw [decide_eq_decide]
      omega

theorem getLsbD_rotateDown (x : BitVec w) {amount position : Nat} (small : amount < w)
    (inside : position < w) :
    (rotateDown x amount).getLsbD position = x.getLsbD ((amount + position) % w) := by
  rw [rotateDown, BitVec.getLsbD_setWidth, BitVec.getLsbD_ushiftRight, BitVec.getLsbD_append]
  simp only [inside, decide_true, Bool.true_and]
  by_cases low : amount + position < w
  · rw [if_pos low, Nat.mod_eq_of_lt low]
  · rw [if_neg low, Nat.mod_eq_sub_mod (by omega), Nat.mod_eq_of_lt (by omega)]

theorem getLsbD_rotateUp (x : BitVec w) {amount position : Nat} (small : amount < w)
    (inside : position < w) :
    (rotateUp x amount).getLsbD position = x.getLsbD ((position + w - amount) % w) := by
  rw [rotateUp, BitVec.getLsbD_extractLsb', BitVec.getLsbD_shiftLeft, BitVec.getLsbD_setWidth,
    BitVec.getLsbD_append]
  have reach : w + position - amount < w + w + w := by omega
  simp only [inside, decide_true, Bool.true_and, reach, show w + position < w + w + w by omega,
    show ¬ w + position < amount by omega, decide_false, Bool.not_false, Bool.and_true]
  by_cases low : w + position - amount < w
  · rw [if_pos low, Nat.mod_eq_of_lt (by omega), Nat.add_comm position w]
  · rw [if_neg low, Nat.mod_eq_sub_mod (by omega), Nat.mod_eq_of_lt (by omega),
      Nat.add_comm position w]

theorem turn_back {amount position : Nat} (small : amount < w) (inside : position < w) :
    ((amount + position) % w + w - amount) % w = position := by
  by_cases low : amount + position < w
  · rw [Nat.mod_eq_of_lt low, show amount + position + w - amount = position + w by omega,
      Nat.add_mod_right, Nat.mod_eq_of_lt inside]
  · rw [Nat.mod_eq_sub_mod (show w ≤ amount + position by omega),
      Nat.mod_eq_of_lt (show amount + position - w < w by omega),
      Nat.mod_eq_of_lt (by omega)]
    omega

/-- Turning down and back up is turning nothing. -/
theorem getLsbD_rotate (x : BitVec w) {amount position : Nat} (small : amount < w)
    (inside : position < w) :
    (rotateUp x amount).getLsbD ((amount + position) % w) = x.getLsbD position := by
  have bound : (amount + position) % w < w := Nat.mod_lt _ (by omega)
  rw [getLsbD_rotateUp x small bound, turn_back small inside]

theorem getLsbD_join (second first : Bool) (low : BitVec w) (position : Nat) :
    (join second first low).getLsbD position =
      if position = w + 1 then second else if position = w then first else low.getLsbD position := by
  rw [join, BitVec.getLsbD_cons, BitVec.getLsbD_cons]

theorem getLsbD_lowest {n : Nat} (x : BitVec n) (position : Nat) :
    (lowest x).getLsbD position =
      (x.getLsbD position && !decide (∃ earlier < position, x.getLsbD earlier = true)) := by
  rw [lowest, BitVec.not_sub_one_eq_not_add_one, ← BitVec.neg_eq_not_add, BitVec.getLsbD_and,
    BitVec.getLsbD_neg]
  by_cases inside : position < n
  · cases x.getLsbD position <;> simp [inside]
  · simp [BitVec.getLsbD_of_ge x position (by omega)]

section Filter

variable (abitter : Oldest2Abitter w)

/-- The requests in the order of age: the slots from the priority on, then the new ones. -/
def request (position : Nat) : Bool :=
  if position = w + 1 then abitter.newReqSecond else if position = w then abitter.newReqFirst
  else abitter.req.getLsbD ((abitter.priorityFix.val + position) % w)

/-- The requests kept in sequence, in the order of age. -/
def sequenced (position : Nat) : Bool :=
  if position = w + 1 then abitter.newReqLsSecond else if position = w then abitter.newReqLsFirst
  else abitter.reqLs.getLsbD ((abitter.priorityFix.val + position) % w)

/-- The oldest of the requests kept in sequence. -/
def oldestSequenced (position : Nat) : Bool :=
  abitter.sequenced position && !decide (∃ earlier < position, abitter.sequenced earlier = true)

theorem fixedLsReq_bit {position : Nat} (inside : position < w + 2) :
    abitter.fixedLsReq.getLsbD position = abitter.sequenced position := by
  rw [fixedLsReq, getLsbD_join, sequenced]
  split
  · rfl
  · split
    · rfl
    · exact getLsbD_rotateDown _ abitter.priorityFix.isLt (by omega)

theorem lsGntSequence_bit {position : Nat} (inside : position < w + 2) :
    abitter.lsGntSequence.getLsbD position = abitter.oldestSequenced position := by
  have doubled : ∀ place, (abitter.fixedLsReq ++ abitter.fixedLsReq).getLsbD place =
      if place < w + 2 then abitter.fixedLsReq.getLsbD place
      else abitter.fixedLsReq.getLsbD (place - (w + 2)) := fun place => BitVec.getLsbD_append
  have low : (abitter.doubleFixed2LsGnt.setWidth (w + 2)).getLsbD position =
      abitter.oldestSequenced position := by
    rw [BitVec.getLsbD_setWidth, doubleFixed2LsGnt, getLsbD_lowest, doubled, if_pos inside,
      abitter.fixedLsReq_bit inside, oldestSequenced]
    simp only [inside, decide_true, Bool.true_and]
    congr 2
    rw [decide_eq_decide]
    constructor
    · rintro ⟨earlier, before, set⟩
      rw [doubled, if_pos (by omega), abitter.fixedLsReq_bit (by omega)] at set
      exact ⟨earlier, before, set⟩
    · rintro ⟨earlier, before, set⟩
      refine ⟨earlier, before, ?_⟩
      rw [doubled, if_pos (by omega), abitter.fixedLsReq_bit (by omega)]
      exact set
  have high : (abitter.doubleFixed2LsGnt.extractLsb' (w + 2) (w + 2)).getLsbD position = false := by
    rw [BitVec.getLsbD_extractLsb', doubleFixed2LsGnt, getLsbD_lowest, doubled,
      if_neg (by omega), Nat.add_sub_cancel_left]
    by_contra set
    simp only [Bool.not_eq_false, Bool.and_eq_true, Bool.not_eq_true', decide_eq_false_iff_not,
      not_exists, not_and] at set
    apply set.2.2 position (by omega)
    rw [doubled, if_pos inside]
    exact set.2.1
  rw [lsGntSequence, BitVec.getLsbD_or, low, high, Bool.or_false]

theorem realGnt_bit {position : Nat} (inside : position < w) :
    (rotateDown (abitter.realGnt.setWidth w) abitter.priorityFix.val).getLsbD position =
      (abitter.oldestSequenced position || !abitter.sequenced position) := by
  have bound : (abitter.priorityFix.val + position) % w < w := Nat.mod_lt _ (by omega)
  rw [getLsbD_rotateDown _ abitter.priorityFix.isLt inside, BitVec.getLsbD_setWidth, realGnt,
    BitVec.getLsbD_or, getLsbD_join, if_neg (by omega), if_neg (by omega),
    getLsbD_rotate _ abitter.priorityFix.isLt inside, BitVec.getLsbD_setWidth,
    abitter.lsGntSequence_bit (by omega), fixedLsReqVer, BitVec.getLsbD_not, getLsbD_join,
    if_neg (by omega), if_neg (by omega), sequenced, if_neg (by omega), if_neg (by omega)]
  simp [bound, inside, show (abitter.priorityFix.val + position) % w < w + 2 by omega]

theorem realGnt_new {position : Nat} (isNew : position = w ∨ position = w + 1) :
    abitter.realGnt.getLsbD position =
      (abitter.oldestSequenced position || !abitter.sequenced position) := by
  rw [realGnt, BitVec.getLsbD_or, getLsbD_join, fixedLsReqVer, BitVec.getLsbD_not, getLsbD_join,
    sequenced, ← abitter.lsGntSequence_bit (by omega)]
  rcases isNew with rfl | rfl <;> simp

/-- A request passes the filter if it is not kept in sequence or is the oldest that is. -/
theorem fixedReq_bit {position : Nat} (inside : position < w + 2) :
    abitter.fixedReq.getLsbD position = (abitter.request position &&
      (abitter.oldestSequenced position || !abitter.sequenced position)) := by
  rw [fixedReq, BitVec.getLsbD_and, getLsbD_join, getLsbD_join, request]
  by_cases second : position = w + 1
  · subst second
    rw [if_pos rfl, if_pos rfl, if_pos rfl, realGnt_new _ (Or.inr rfl)]
  · rw [if_neg second, if_neg second, if_neg second]
    by_cases first : position = w
    · subst first
      rw [if_pos rfl, if_pos rfl, if_pos rfl, realGnt_new _ (Or.inl rfl)]
    · rw [if_neg first, if_neg first, if_neg first, realGnt_bit _ (by omega),
        getLsbD_rotateDown _ abitter.priorityFix.isLt (by omega)]

end Filter

section Chain

variable (requests : Nat → Bool)

/-- How many of the positions below one request. -/
def below (position : Nat) : Nat := (List.range position).countP requests

theorem below_succ (position : Nat) :
    below requests (position + 1) = below requests position + (requests position).toNat := by
  rw [below, below, List.range_succ, List.countP_append, List.countP_singleton]
  cases requests position <;> rfl

/-- The chain counts to two: it grants the position with no request below it, and the one with
exactly one. -/
theorem cell_eq (position : Nat) :
    cell requests position =
      { grant := requests position && below requests position == 0
        grantLess := requests position && below requests position == 1
        mid := decide (0 < below requests (position + 1))
        midLess := decide (1 < below requests (position + 1)) } := by
  induction position with
  | zero =>
    have empty : below requests 0 = 0 := rfl
    rw [cell, below_succ, empty]
    cases requests 0 <;> rfl
  | succ position ih =>
    rw [cell, ih, below_succ requests (position + 1)]
    generalize below requests (position + 1) = count
    cases requests (position + 1) <;> rcases count with _ | _ | count <;> simp

theorem below_mono {earlier later : Nat} (order : earlier ≤ later) :
    below requests earlier ≤ below requests later := by
  induction order with
  | refl => exact Nat.le_refl _
  | step order ih =>
    rw [below_succ]
    omega

/-- The positions that request, in order, by the number of requests below them. -/
theorem filter_getElem (n index position : Nat) :
    ((List.range n).filter requests)[index]? = some position ↔
      position < n ∧ requests position = true ∧ below requests position = index := by
  induction n with
  | zero => simp
  | succ n ih =>
    have size : ((List.range n).filter requests).length = below requests n :=
      (List.countP_eq_length_filter).symm
    have earlier : position < n → requests position = true →
        below requests position < below requests n := by
      intro before asks
      have mono := below_mono requests (show position + 1 ≤ n by omega)
      rw [below_succ, asks, Bool.toNat_true] at mono
      omega
    rw [List.range_succ, List.filter_append, List.getElem?_append, size]
    split
    · rename_i low
      rw [ih]
      constructor
      · rintro ⟨before, asks, count⟩
        exact ⟨by omega, asks, count⟩
      · rintro ⟨before, asks, count⟩
        refine ⟨?_, asks, count⟩
        by_contra last
        have same : position = n := by omega
        rw [same] at count
        omega
    · rename_i high
      cases asks : requests n
      · rw [List.filter_cons_of_neg (by simp [asks])]
        simp only [List.filter_nil, List.getElem?_nil, reduceCtorEq, false_iff, not_and]
        intro before asks' count
        have strict : position < n := by
          rcases Nat.lt_succ_iff_lt_or_eq.mp before with strict | rfl
          · exact strict
          · simp [asks] at asks'
        have := earlier strict asks'
        omega
      · rw [List.filter_cons_of_pos asks, List.filter_nil]
        constructor
        · intro last
          obtain ⟨zero, rfl⟩ : index - below requests n = 0 ∧ n = position := by
            rcases offset : index - below requests n with _ | offset
            · rw [offset] at last
              exact ⟨rfl, Option.some.inj last⟩
            · rw [offset] at last
              cases last
          exact ⟨Nat.lt_succ_self _, asks, by omega⟩
        · rintro ⟨before, asks', count⟩
          rcases Nat.lt_succ_iff_lt_or_eq.mp before with strict | rfl
          · have := earlier strict asks'
            omega
          · rw [count, Nat.sub_self]
            rfl

end Chain

section Grants

variable (abitter : Oldest2Abitter w)

/-- The positions granted, oldest first. -/
def granted : List Nat := ((List.range (w + 2)).filter abitter.fixedReq.getLsbD).take 2

theorem grant_iff (position : Nat) (inside : position < w + 2) :
    abitter.grant position = true ↔ abitter.granted[0]? = some position := by
  rw [granted, List.getElem?_take_of_lt (by omega), filter_getElem, grant, cell_eq]
  simp [inside]

theorem grantLess_iff (position : Nat) (inside : position < w + 2) :
    abitter.grantLess position = true ↔ abitter.granted[1]? = some position := by
  rw [granted, List.getElem?_take_of_lt (by omega), filter_getElem, grantLess, cell_eq]
  simp [inside]

/-- The second grant is younger than the first. -/
theorem granted_order {older younger : Nat} (first : abitter.granted[0]? = some older)
    (second : abitter.granted[1]? = some younger) : older < younger ∧ younger < w + 2 := by
  rw [granted, List.getElem?_take_of_lt (by omega), filter_getElem] at first second
  refine ⟨?_, second.1⟩
  by_contra order
  have mono := below_mono abitter.fixedReq.getLsbD (Nat.le_of_not_lt order)
  omega

theorem granted_inside {position : Nat} (first : abitter.granted[0]? = some position) :
    position < w + 2 := by
  rw [granted, List.getElem?_take_of_lt (by omega), filter_getElem] at first
  exact first.1

end Grants

section Index

variable {start : Fin w} {bit : Nat → Bool}

theorem turned_bit (slot : Fin w) :
    (rotateUp (ofBits bit w) start.val).getLsbD slot.val = bit ((slot.val + w - start.val) % w) := by
  have bound : (slot.val + w - start.val) % w < w := Nat.mod_lt _ slot.pos
  rw [getLsbD_rotateUp _ start.isLt slot.isLt, getLsbD_ofBits]
  simp [bound]

theorem turned_none (none : ∀ position < w, bit position = false) :
    rotateUp (ofBits bit w) start.val = 0 := by
  apply BitVec.eq_of_getLsbD_eq
  intro place inside
  rw [turned_bit ⟨place, inside⟩, none _ (Nat.mod_lt _ (by omega))]
  simp

theorem position_eq_iff (slot : Fin w) {position : Nat} (inside : position < w) :
    (slot.val + w - start.val) % w = position ↔ slot = Circular.advance start position := by
  constructor
  · rintro rfl
    apply Fin.ext
    change slot.val = (start.val + (slot.val + w - start.val) % w) % w
    rw [Nat.add_mod_mod, show start.val + (slot.val + w - start.val) = slot.val + w by omega,
      Nat.add_mod_right, Nat.mod_eq_of_lt slot.isLt]
  · rintro rfl
    exact turn_back start.isLt inside

theorem indexOf_unique {preindex : BitVec w} {slot : Fin w}
    (only : ∀ other : Fin w, preindex.getLsbD other.val = true ↔ other = slot)
    (default : Fin w) : indexOf default preindex = slot := by
  have found : ∀ places : List (Fin w), places.foldl
      (fun index j => if preindex.getLsbD j.val then j else index) default =
        if slot ∈ places then slot else default := by
    intro places
    induction places using List.reverseRecOn with
    | nil => simp
    | append_singleton places last ih =>
      rw [List.foldl_append, ih]
      by_cases same : last = slot
      · simp [same, (only slot).mpr rfl]
      · have idle : preindex.getLsbD last.val = false := by
          rw [Bool.eq_false_iff, ne_eq, only]
          exact same
        rw [List.foldl_cons, List.foldl_nil, idle]
        simp [Ne.symm same]
  rw [indexOf, found, if_pos (List.mem_finRange slot)]

/-- A single granted position is found where it is stored. -/
theorem turned_one {position : Nat} (inside : position < w)
    (only : ∀ other < w, bit other = true ↔ other = position) (default : Fin w) :
    rotateUp (ofBits bit w) start.val ≠ 0 ∧
      indexOf default (rotateUp (ofBits bit w) start.val) = Circular.advance start position := by
  have found : ∀ slot : Fin w, (rotateUp (ofBits bit w) start.val).getLsbD slot.val = true ↔
      slot = Circular.advance start position := by
    intro slot
    rw [turned_bit, only _ (Nat.mod_lt _ slot.pos), position_eq_iff slot inside]
  refine ⟨fun zero => ?_, indexOf_unique found default⟩
  have set := (found (Circular.advance start position)).mpr rfl
  simp [zero] at set

/-- The valid bit and the index of a grant, from the position that was chosen. -/
theorem turned_chosen {chosen : Option Nat}
    (only : ∀ position < w, bit position = true ↔ chosen = some position) (default : Fin w) :
    ((rotateUp (ofBits bit w) start.val != 0) = chosen.any fun position => position < w) ∧
      ∀ position < w, chosen = some position →
        indexOf default (rotateUp (ofBits bit w) start.val) = Circular.advance start position := by
  have single : ∀ position < w, chosen = some position →
      rotateUp (ofBits bit w) start.val ≠ 0 ∧
        indexOf default (rotateUp (ofBits bit w) start.val) =
          Circular.advance start position := by
    intro position inside same
    apply turned_one inside
    intro other below
    rw [only other below, same, Option.some.injEq, eq_comm]
  refine ⟨?_, fun position inside same => (single position inside same).2⟩
  by_cases stored : ∃ position < w, chosen = some position
  · obtain ⟨position, inside, same⟩ := stored
    rw [bne_iff_ne.mpr (single position inside same).1, same]
    simp [inside]
  · push Not at stored
    rw [turned_none fun position inside => by
      rw [Bool.eq_false_iff, ne_eq, only position inside]
      exact stored position inside]
    cases chosen with
    | none => simp
    | some position =>
      have outside : ¬ position < w := fun inside => stored position inside rfl
      simp [outside]

end Index

section Outputs

variable (abitter : Oldest2Abitter w)

theorem firstGrant_eq (default : Fin w) :
    (abitter.firstGrantValid = abitter.granted[0]?.any fun position => position < w) ∧
      ∀ position < w, abitter.granted[0]? = some position →
        indexOf default abitter.firstGrantPreindex =
          Circular.advance abitter.priorityFix position :=
  turned_chosen (fun position inside => abitter.grant_iff position (by omega)) default

theorem secondGrant_eq (default : Fin w) :
    (abitter.secondGrantValid = abitter.granted[1]?.any fun position => position < w) ∧
      ∀ position < w, abitter.granted[1]? = some position →
        indexOf default abitter.secondGrantPreindex =
          Circular.advance abitter.priorityFix position :=
  turned_chosen (fun position inside => abitter.grantLess_iff position (by omega)) default

/-- A new request is granted in one of the two places. -/
theorem newGrantFirst_iff : abitter.newGrantFirst = true ↔
    abitter.granted[0]? = some w ∨ abitter.granted[1]? = some w := by
  rw [newGrantFirst, Bool.or_eq_true, abitter.grant_iff w (by omega),
    abitter.grantLess_iff w (by omega)]

theorem newGrantSecond_iff : abitter.newGrantSecond = true ↔
    abitter.granted[0]? = some (w + 1) ∨ abitter.granted[1]? = some (w + 1) := by
  rw [newGrantSecond, Bool.or_eq_true, abitter.grant_iff (w + 1) (by omega),
    abitter.grantLess_iff (w + 1) (by omega)]

end Outputs

end Oldest2Abitter

end GreenRio
