import GreenRio.Override
import GreenRio.RoundRobin
import GreenRio.Training

set_option autoImplicit false

namespace GreenRio

open Circular RoundRobin

/-- What an entry holds. -/
def BtbEntry.cell (entry : BtbEntry) : Option (Pc × Pc) :=
  if entry.valid then some (entry.pc, entry.ppc) else none

theorem BtbEntry.cell_eq_some {entry : BtbEntry} {pc target : Pc} :
    entry.cell = some (pc, target) ↔ entry.valid = true ∧ entry.pc = pc ∧ entry.ppc = target := by
  unfold cell
  cases entry.valid <;> simp

namespace Predictors

variable {predictors : Predictors} {pc : Pc}

theorem fetchHit_iff {line : Fin 4} : predictors.fetchHit pc line = true ↔
    (predictors.btb line).valid = true ∧ (predictors.btb line).pc = pc := by
  rw [fetchHit, Bool.and_eq_true, beq_iff_eq, and_comm, eq_comm (a := pc)]

theorem bufferHit_iff :
    predictors.bufferHit pc = true ↔ ∃ line, predictors.fetchHit pc line = true := by
  simp [bufferHit]

/-- With a single entry that hits, its target is returned. -/
theorem nextPcOut_of_hit {line : Fin 4} (hit : predictors.fetchHit pc line = true)
    (single : ∀ other, predictors.fetchHit pc other = true → other = line) :
    predictors.nextPcOut pc = (predictors.btb line).ppc := by
  rw [nextPcOut, Override.foldl_some _ _ _ _ (List.mem_finRange line) hit]
  intro other _ found
  rw [single other found]

end Predictors

namespace Btb

/-- The entries as a table that is filled in turn. -/
def table (btb : Btb) : Table 4 Pc Pc where
  cells line := (btb.entries line).cell
  next := btb.counter

variable {btb : Btb} {input : BtbInput}

theorem key_iff {line : Fin 4} {pc : Pc} : btb.table.key line = some pc ↔
    (btb.entries line).valid = true ∧ (btb.entries line).pc = pc := by
  rw [Table.key_eq_some]
  simp [table, BtbEntry.cell_eq_some]

theorem gshareHit_iff {line : Fin 4} :
    btb.gshareHit input line = true ↔ btb.table.key line = some input.reqPc := by
  rw [key_iff]
  rw [gshareHit, Bool.and_eq_true, beq_iff_eq, and_comm, eq_comm (a := input.reqPc)]

theorem gotten_iff :
    btb.gotten input = true ↔ ∃ line, btb.table.key line = some input.reqPc := by
  simp [gotten, ← gshareHit_iff]

/-- The counter goes round. -/
theorem counter_next (counter : Fin 4) :
    (if counter = 3 then 0 else counter + 1) = advance counter 1 := by
  revert counter
  decide

theorem step_quiet (quiet : input.isReqPc = false) : btb.step input = btb := by
  simp [step, addConst, quiet]

theorem step_trains (btb : Btb) (input : BtbInput) (asked : input.isReqPc = true) :
    btb.table.Trains (btb.step input).table input.reqPc input.predictTarget := by
  constructor
  · intro held
    have gotten : btb.gotten input = true := gotten_iff.mpr held
    refine ⟨by simp [table, step, addConst, gotten], fun line => ?_⟩
    by_cases hit : btb.table.key line = some input.reqPc
    · rw [if_pos hit]
      obtain ⟨valid, same⟩ := key_iff.mp hit
      simp [table, step, gotten, asked, gshareHit_iff.mpr hit, BtbEntry.cell, same]
    · rw [if_neg hit]
      have miss : btb.gshareHit input line = false := by
        rw [← Bool.not_eq_true, gshareHit_iff]
        exact hit
      simp [table, step, gotten, asked, miss]
  · intro new
    have gotten : btb.gotten input = false := by
      rw [← Bool.not_eq_true, gotten_iff]
      exact new
    refine ⟨?_, funext fun line => ?_⟩
    · simp only [table, step, addConst, gotten, asked, ← counter_next]
      rfl
    · by_cases here : line = btb.counter
      · simp [table, step, addConst, gotten, asked, here, BtbEntry.cell]
      · simp [table, step, addConst, gotten, asked, here]

end Btb

namespace PredictionUnit

/-- The trainings of the branch target buffer. -/
def trainings (inputs : List PredictionInput) : List (Pc × Pc) :=
  inputs.filterMap fun input =>
    if input.branchValidFirst then some (input.btbReqPc, input.btbPredictTarget) else none

theorem run_follows (inputs : List PredictionInput) :
    ∃ start, (machine.run inputs).btb.table.Follows start (trainings inputs) := by
  induction inputs using List.reverseRecOn with
  | nil => exact ⟨_, Table.follows_nil fun _ => rfl⟩
  | append_singleton inputs input ih =>
    obtain ⟨start, follows⟩ := ih
    rw [Synchronous.run_snoc, trainings, List.filterMap_append]
    change ∃ start, ((machine.run inputs).btb.step input.btb).table.Follows start
      (trainings inputs ++ _)
    cases asked : input.branchValidFirst with
    | false =>
      rw [Btb.step_quiet asked]
      refine ⟨start, ?_⟩
      simpa [asked] using follows
    | true =>
      obtain ⟨start, follows⟩ := follows.step (Btb.step_trains _ input.btb asked)
      refine ⟨start, ?_⟩
      simpa [asked, PredictionInput.btb] using follows

/-- At every moment the valid entries have different addresses; a lookup hits exactly the four
addresses that were entered last, and returns the target of the last training. -/
theorem lookup_recent (inputs : List PredictionInput) :
    (∀ line other, ((machine.run inputs).btb.entries line).valid = true →
      ((machine.run inputs).btb.entries other).valid = true →
      ((machine.run inputs).btb.entries line).pc = ((machine.run inputs).btb.entries other).pc →
      line = other) ∧
    (recent 4 (trainings inputs)).Nodup ∧
    ∀ pc, ((machine.run inputs).predictors.bufferHit pc = true ↔
        pc ∈ recent 4 (trainings inputs)) ∧
      ((machine.run inputs).predictors.bufferHit pc = true →
        latest (trainings inputs) pc = some ((machine.run inputs).predictors.nextPcOut pc)) := by
  obtain ⟨start, follows⟩ := run_follows inputs
  refine ⟨?_, follows.nodup, fun pc => ⟨?_, ?_⟩⟩
  · intro line other valid valid' same
    exact follows.key_injective (Btb.key_iff.mpr ⟨valid, same⟩) (Btb.key_iff.mpr ⟨valid', rfl⟩)
  · rw [Predictors.bufferHit_iff, ← follows.holds_iff]
    exact exists_congr fun line => Predictors.fetchHit_iff.trans Btb.key_iff.symm
  · intro hit
    obtain ⟨line, found⟩ := Predictors.bufferHit_iff.mp hit
    obtain ⟨valid, same⟩ := Predictors.fetchHit_iff.mp found
    rw [Predictors.nextPcOut_of_hit found fun other again => follows.key_injective
      (Btb.key_iff.mpr (Predictors.fetchHit_iff.mp again)) (Btb.key_iff.mpr ⟨valid, same⟩)]
    exact follows.values line pc _ (BtbEntry.cell_eq_some.mpr ⟨valid, same, rfl⟩)

end PredictionUnit

end GreenRio
