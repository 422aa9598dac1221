import GreenRio.Fifo

set_option autoImplicit false

namespace GreenRio

open Counter Fifo

variable {n : Nat} {α : Type}

/-- The registers of `f2if2o_freelist`. -/
structure FreeList (n : Nat) (α : Type) where
  fifoQueue : Fin n → α
  wrLine : Fin n
  rdLine : Fin n
  rdExcepLine : Fin n
  fifoRecount : Bool
  fifoRecountFault : Bool

/-- The slow read port, advanced at commit. -/
structure FreeListPorts (α : Type) extends Ports α where
  rdExcepFirstEn : Bool
  rdExcepSecondEn : Bool

namespace FreeList

/-- `rdata_first_o`: the blank word unless the first port reads. -/
def rdataFirst (list : FreeList n α) (blank : α) (rdFirstEn : Bool) : α :=
  if rdFirstEn then list.fifoQueue list.rdLine else blank

/-- `held` is allocated but not committed, `free` can still be allocated: the fast read pointer
starts at `free`, the slow one at `held`. -/
structure Contains (list : FreeList n α) (held free : List α) : Prop where
  fast : Holds list.fifoQueue list.rdLine list.wrLine list.fifoRecount free
  slow : Holds list.fifoQueue list.rdExcepLine list.wrLine list.fifoRecountFault (held ++ free)

/-- The first allocating port receives the oldest free register. -/
theorem Contains.rdataFirst_eq {list : FreeList n α} {held rest : List α} {register : α}
    (valid : list.Contains held (register :: rest)) (blank : α) :
    list.rdataFirst blank true = register := by
  have cells := valid.fast.cells
  rw [List.length_cons, Circular.window_succ] at cells
  simpa [rdataFirst] using (List.cons.inj cells).1

variable [large : n.AtLeastTwo]

/-- The state under `rst`: every line holds its register of `initial`, all of them free. -/
def reset (initial : Fin n → α) : FreeList n α where
  fifoQueue := initial
  wrLine := ⟨0, size_pos⟩
  rdLine := ⟨0, size_pos⟩
  rdExcepLine := ⟨0, size_pos⟩
  fifoRecount := true
  fifoRecountFault := true

def rdataSecond (list : FreeList n α) (blank : α) (rdFirstEn rdSecondEn : Bool) : α :=
  match rdSecondEn, rdFirstEn with
  | true, false => list.fifoQueue list.rdLine
  | true, true => list.fifoQueue (secondLine list.rdLine)
  | false, _ => blank

/-- One clock edge outside reset; `excepRst` rolls the read side back to the slow pointer. -/
def step (list : FreeList n α) (excepRst : Bool) (ports : FreeListPorts α) : FreeList n α where
  fifoQueue := writeQueue list.fifoQueue list.wrLine ports.wrFirstEn ports.wrSecondEn
    ports.wdataFirst ports.wdataSecond
  wrLine := next list.wrLine ports.wrFirstEn ports.wrSecondEn
  rdLine := if excepRst then list.rdExcepLine else next list.rdLine ports.rdFirstEn ports.rdSecondEn
  rdExcepLine := next list.rdExcepLine ports.rdExcepFirstEn ports.rdExcepSecondEn
  fifoRecount := if excepRst then list.fifoRecountFault else
    recountNext list.fifoRecount
      (cntEnd n list.wrLine.val ports.wrFirstEn ports.wrSecondEn)
      (cntEnd n list.rdLine.val ports.rdFirstEn ports.rdSecondEn)
  fifoRecountFault := recountNext list.fifoRecountFault
    (cntEnd n list.wrLine.val ports.wrFirstEn ports.wrSecondEn)
    (cntEnd n list.rdExcepLine.val ports.rdExcepFirstEn ports.rdExcepSecondEn)

theorem reset_contains (initial : Fin n → α) :
    (reset initial).Contains [] (Circular.window initial ⟨0, size_pos⟩ n) := by
  have all : Holds initial (reset initial).rdLine (reset initial).wrLine true
      (Circular.window initial ⟨0, size_pos⟩ n) := by
    refine ⟨by simp, by simp [reset], ?_, by simp⟩
    apply Fin.ext
    simp [reset, Circular.advance]
  exact ⟨all, all⟩

/-- A cycle without rollback allocates from `free`, commits from `held` and releases at the back. -/
theorem Contains.step {list : FreeList n α} {held free : List α} (valid : list.Contains held free)
    (ports : FreeListPorts α) (allocates : amount ports.rdFirstEn ports.rdSecondEn ≤ free.length)
    (commits : amount ports.rdExcepFirstEn ports.rdExcepSecondEn ≤ held.length)
    (room : held.length - amount ports.rdExcepFirstEn ports.rdExcepSecondEn + free.length +
      amount ports.wrFirstEn ports.wrSecondEn ≤ n) :
    (list.step false ports).Contains
      (held.drop (amount ports.rdExcepFirstEn ports.rdExcepSecondEn) ++
        free.take (amount ports.rdFirstEn ports.rdSecondEn))
      (free.drop (amount ports.rdFirstEn ports.rdSecondEn) ++
        accepted ports.wrFirstEn ports.wrSecondEn ports.wdataFirst ports.wdataSecond) := by
  constructor
  · exact valid.fast.step _ _ _ _ _ _ allocates (by omega)
  · have moved := valid.slow.step ports.rdExcepFirstEn ports.rdExcepSecondEn ports.wrFirstEn
      ports.wrSecondEn ports.wdataFirst ports.wdataSecond
      (by rw [List.length_append]; omega) (by rw [List.length_append]; omega)
    rw [List.drop_append_of_le_length commits] at moved
    have same : held.drop (amount ports.rdExcepFirstEn ports.rdExcepSecondEn) ++
        free.take (amount ports.rdFirstEn ports.rdSecondEn) ++
        (free.drop (amount ports.rdFirstEn ports.rdSecondEn) ++
          accepted ports.wrFirstEn ports.wrSecondEn ports.wdataFirst ports.wdataSecond) =
        held.drop (amount ports.rdExcepFirstEn ports.rdExcepSecondEn) ++ free ++
          accepted ports.wrFirstEn ports.wrSecondEn ports.wdataFirst ports.wdataSecond := by
      simp only [List.append_assoc]
      rw [← List.append_assoc (free.take _), List.take_append_drop]
    rw [same]
    exact moved

/-- Rollback without a commit makes everything held allocatable again, in its old order. -/
theorem Contains.rollback {list : FreeList n α} {held free : List α}
    (valid : list.Contains held free) (ports : FreeListPorts α)
    (idle : ports.wrFirstEn = false ∧ ports.wrSecondEn = false ∧
      ports.rdExcepFirstEn = false ∧ ports.rdExcepSecondEn = false) :
    (list.step true ports).Contains [] (held ++ free) := by
  obtain ⟨noFirst, noSecond, noCommit, noCommit'⟩ := idle
  have same : Holds (list.step true ports).fifoQueue list.rdExcepLine
      (list.step true ports).wrLine list.fifoRecountFault (held ++ free) := by
    simpa [FreeList.step, writeQueue, next_eq_advance, amount, noFirst, noSecond] using valid.slow
  refine ⟨by simpa [FreeList.step] using same, ?_⟩
  simpa [FreeList.step, noFirst, noSecond, noCommit, noCommit', next_eq_advance, amount,
    recountNext, cntEnd, cntPreciseEnd, cntOverflowEnd] using same

/-- A second port that allocates alone receives it as well. -/
theorem Contains.rdataSecond_alone {list : FreeList n α} {held rest : List α} {register : α}
    (valid : list.Contains held (register :: rest)) (blank : α) :
    list.rdataSecond blank false true = register := by
  have cells := valid.fast.cells
  rw [List.length_cons, Circular.window_succ] at cells
  simpa [rdataSecond] using (List.cons.inj cells).1

theorem Contains.rdataSecond_eq {list : FreeList n α} {held rest : List α} {register following : α}
    (valid : list.Contains held (register :: following :: rest)) (blank : α) :
    list.rdataSecond blank true true = following := by
  have cells := valid.fast.cells
  rw [List.length_cons, List.length_cons, Circular.window_succ, Circular.window_succ] at cells
  simpa [rdataSecond, secondLine_eq_advance] using (List.cons.inj (List.cons.inj cells).2).1

end FreeList

end GreenRio
