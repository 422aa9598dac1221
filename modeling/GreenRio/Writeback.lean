import Mathlib.Data.List.Nodup
import Mathlib.Data.List.Pairwise
import GreenRio.Conservation
import GreenRio.Issue
import GreenRio.Override
import GreenRio.Sequential

set_option autoImplicit false

namespace GreenRio

open Circular Counter Fifo

/-- The back end with what an observer remembers of each slot: the instruction it was given and
the value its completion carried. -/
structure Tracked where
  backend : Backend
  source : RobIndex → Decoded
  result : RobIndex → Option Word

/-- The register an instruction writes, `x0` if it writes none. -/
def Decoded.destination (instruction : Decoded) : ArchReg :=
  if instruction.usesRd then instruction.rdAddress else 0

namespace Tracked

def reset (blank : Decoded) : Tracked := ⟨Backend.reset, fun _ => blank, fun _ => none⟩

section Step

variable (tracked : Tracked) (input : RcuInput)

/-- The value of a slot, including a completion in this cycle. -/
def currentResult (index : RobIndex) : Option Word :=
  input.completions.foldl
    (fun value completion =>
      if completion.done && completion.robIndex == index then some completion.wrbData else value)
    (tracked.result index)

def step (tracked : Tracked) (input : BackendInput) : Tracked where
  backend := tracked.backend.step input
  source := tracked.backend.rcu.dispatchInto input.toRcuInput tracked.source input.offer.first
    input.offer.second
  result := tracked.backend.rcu.dispatchInto input.toRcuInput
    (tracked.currentResult input.toRcuInput) none none

end Step

/-- An operation that a unit still has to complete: issued, not flushed, not yet completed. -/
def Outstanding (tracked : Tracked) (index : RobIndex) : Prop :=
  tracked.backend.rcu.robUsed index = true ∧ tracked.backend.issue.robSelected index = true ∧
    tracked.result index = none

/-- What is assumed of the function units: a completion is for an outstanding operation and
carries its register, each operation completes once, and the two units behind a stage complete the
operation in it. -/
structure FunctionUnits (tracked : Tracked) (input : RcuInput) : Prop where
  own : ∀ completion ∈ input.completions, completion.done = true →
    tracked.Outstanding completion.robIndex ∧
      completion.wrbAddr = (tracked.backend.rcu.rob completion.robIndex).prd
  once : input.completions.Pairwise fun earlier later => earlier.done = true →
    later.done = true → earlier.robIndex ≠ later.robIndex
  alu1 : input.alu1.done = true → tracked.backend.issue.alu1.valid = true ∧
    input.alu1.robIndex = tracked.backend.issue.alu1.issued.robIndex
  csru : input.csru.done = true → tracked.backend.issue.csr.valid = true ∧
    input.csru.robIndex = tracked.backend.issue.csr.issued.robIndex

end Tracked

namespace Tracked

variable {tracked : Tracked} {input : RcuInput} {length : Nat} {free : List PhyReg}

theorem FunctionUnits.unique (units : FunctionUnits tracked input) {left right : FuDone}
    (inLeft : left ∈ input.completions) (inRight : right ∈ input.completions)
    (leftDone : left.done = true) (rightDone : right.done = true)
    (same : left.robIndex = right.robIndex) : left = right := by
  have symmetric : Std.Symm fun earlier later : FuDone => earlier.done = true →
      later.done = true → earlier.robIndex ≠ later.robIndex :=
    ⟨fun _ _ distinct done done' => (distinct done' done).symm⟩
  by_contra different
  exact units.once.forall inLeft inRight different leftDone rightDone same

end Tracked

namespace Rcu

open Renaming (live pending mapped)

variable {rcu : Rcu} {length : Nat} {free : List PhyReg}

theorem Sound.storage_nodup (sound : Sound rcu length free) :
    (mapped rcu.renameRegBackup ++ pending (renamings rcu length) ++ free).Nodup := by
  have nodup : physicalRegisters.Nodup := by decide
  exact sound.valid.partition.nodup_iff.mpr nodup

theorem pending_renamings (rcu : Rcu) (length : Nat) :
    pending (renamings rcu length) =
      ((slots rcu.cmtRobIndex length).filter fun index => (rcu.rob index).prd ≠ 0).map
        fun index => (rcu.rob index).prd := by
  simp only [pending, live, renamings, entries, Circular.window, List.map_map, List.filter_map]
  rfl

theorem Sound.mem_pending (sound : Sound rcu length free) {index : RobIndex}
    (used : rcu.robUsed index = true) (nonzero : (rcu.rob index).prd ≠ 0) :
    (rcu.rob index).prd ∈ pending (renamings rcu length) := by
  rw [pending_renamings]
  apply List.mem_map_of_mem (f := fun index => (rcu.rob index).prd)
  simpa [nonzero] using (sound.window.used index).mp used

/-- Different entries in use were given different registers. -/
theorem Sound.prd_injective (sound : Sound rcu length free) {left right : RobIndex}
    (leftUsed : rcu.robUsed left = true) (rightUsed : rcu.robUsed right = true)
    (nonzero : (rcu.rob left).prd ≠ 0) (same : (rcu.rob left).prd = (rcu.rob right).prd) :
    left = right := by
  have nodup := (List.nodup_append.mp (List.nodup_append.mp sound.storage_nodup).1).2.1
  rw [pending_renamings] at nodup
  apply List.inj_on_of_nodup_map nodup
  · simpa [nonzero] using (sound.window.used left).mp leftUsed
  · rw [same] at nonzero
    simpa [nonzero] using (sound.window.used right).mp rightUsed
  · exact same

/-- The committed map names no register of an entry in use. -/
theorem Sound.prd_not_mapped (sound : Sound rcu length free) {index : RobIndex}
    (used : rcu.robUsed index = true) (nonzero : (rcu.rob index).prd ≠ 0) (name : ArchReg) :
    rcu.renameRegBackup name ≠ (rcu.rob index).prd := by
  intro same
  have disjoint := (List.nodup_append.mp (List.nodup_append.mp sound.storage_nodup).1).2.2
  have named : (rcu.rob index).prd ∈ mapped rcu.renameRegBackup := by
    rw [mapped, live, List.mem_filter, List.mem_ofFn]
    exact ⟨⟨name, same⟩, by simpa using nonzero⟩
  exact disjoint _ named _ (sound.mem_pending used nonzero) rfl

end Rcu

namespace Tracked

variable {tracked : Tracked} {input : RcuInput} {length : Nat} {free : List PhyReg}

/-- A register that completes in this cycle belongs to the completing entry. -/
theorem FunctionUnits.owner (units : FunctionUnits tracked input) {completion : FuDone}
    (member : completion ∈ input.completions) {register : PhyReg}
    (writes : completion.writes register = true) :
    tracked.backend.rcu.robUsed completion.robIndex = true ∧
      (tracked.backend.rcu.rob completion.robIndex).prd = register ∧ register ≠ 0 := by
  simp only [FuDone.writes, Bool.and_eq_true, bne_iff_ne, ne_eq, beq_iff_eq] at writes
  obtain ⟨outstanding, own⟩ := units.own completion member writes.1.1
  exact ⟨outstanding.1, by rw [← own, writes.2], by rw [writes.2]; exact writes.1.2⟩

/-- At most one completion of a cycle writes a register. -/
theorem FunctionUnits.writer_unique (units : FunctionUnits tracked input)
    (sound : Rcu.Sound tracked.backend.rcu length free) {left right : FuDone}
    (inLeft : left ∈ input.completions) (inRight : right ∈ input.completions) {register : PhyReg}
    (leftWrites : left.writes register = true) (rightWrites : right.writes register = true) :
    left = right := by
  obtain ⟨leftUsed, leftOwn, nonzero⟩ := units.owner inLeft leftWrites
  obtain ⟨rightUsed, rightOwn, -⟩ := units.owner inRight rightWrites
  simp only [FuDone.writes, Bool.and_eq_true] at leftWrites rightWrites
  apply units.unique inLeft inRight leftWrites.1.1 rightWrites.1.1
  exact sound.prd_injective leftUsed rightUsed (by rwa [leftOwn]) (by rw [leftOwn, rightOwn])

section Registers

variable (backend : Backend)

theorem writePort_apply (registers : PhyReg → Word) (enable : Bool) (address : PhyReg)
    (data : Word) {register : PhyReg} (nonzero : register ≠ 0) :
    Backend.writePort registers enable address data register =
      if enable && address != 0 && register == address then data else registers register := by
  unfold Backend.writePort
  rw [writeIf_apply]
  by_cases same : register = address
  · subst same
    cases enable <;> simp [nonzero]
  · simp [same]

/-- The completions as the four write ports of the register file see them. -/
def portCompletions (input : RcuInput) : List FuDone :=
  [if input.alu1.done then input.alu1.toFuDone else input.csru, input.alu2.toFuDone,
    input.lsu.toFuDone, input.md]

theorem registersNext_fold (input : BackendInput) {register : PhyReg} (nonzero : register ≠ 0) :
    backend.registersNext input register =
      (portCompletions input.toRcuInput).foldl
        (fun data completion => if completion.writes register then completion.wrbData else data)
        (backend.issue.registers register) := by
  simp only [Backend.registersNext, portCompletions, writePort_apply _ _ _ _ nonzero,
    List.foldl_cons, List.foldl_nil, FuDone.writes]
  cases done : input.alu1.done <;> simp [done]

theorem registersNext_zero (input : BackendInput) (zero : backend.issue.registers 0 = 0) :
    backend.registersNext input 0 = 0 := by
  have kept : ∀ (registers : PhyReg → Word) enable address data, registers 0 = 0 →
      Backend.writePort registers enable address data 0 = 0 := by
    intro registers enable address data before
    rw [Backend.writePort, writeIf_apply]
    split
    · rename_i hit
      rw [← hit.2, if_pos rfl]
    · exact before
  exact kept _ _ _ _ (kept _ _ _ _ (kept _ _ _ _ (kept _ _ _ _ zero)))

end Registers

/-- The operand a port drives is what the register file holds after the clock edge. -/
theorem FunctionUnits.operand_eq {input : BackendInput}
    (units : FunctionUnits tracked input.toRcuInput)
    (sound : Rcu.Sound tracked.backend.rcu length free)
    (zero : tracked.backend.issue.registers 0 = 0)
    (exclusive : ¬ (tracked.backend.issue.alu1.valid = true ∧
      tracked.backend.issue.csr.valid = true)) (register : PhyReg) :
    tracked.backend.operand input.toRcuInput register =
      tracked.backend.registersNext input register := by
  by_cases nonzero : register = 0
  · subst nonzero
    rw [registersNext_zero _ _ zero, Backend.operand, Override.foldl_none, zero]
    intro completion member
    by_cases address : completion.wrbAddr = 0
    · simp [FuDone.writes, address]
    · simp [FuDone.writes, Ne.symm address]
  · rw [registersNext_fold _ _ nonzero, Backend.operand]
    have subset : ∀ completion ∈ portCompletions input.toRcuInput,
        completion ∈ input.toRcuInput.completions := by
      intro completion member
      simp only [portCompletions, List.mem_cons, List.not_mem_nil, or_false] at member
      simp only [RcuInput.completions, List.mem_cons, List.not_mem_nil, or_false]
      rcases member with rfl | rfl | rfl | rfl
      · split <;> simp
      · simp
      · simp
      · simp
    by_cases active : ∃ completion ∈ input.toRcuInput.completions,
        completion.writes register = true
    · obtain ⟨completion, member, writes⟩ := active
      have single : ∀ other ∈ input.toRcuInput.completions, other.writes register = true →
          other.wrbData = completion.wrbData := by
        intro other there writes'
        rw [units.writer_unique sound there member writes' writes]
      rw [Override.foldl_some _ _ _ _ member writes single]
      have done : completion.done = true := by
        simp only [FuDone.writes, Bool.and_eq_true] at writes
        exact writes.1.1
      -- The shared port drops a CSR completion only under one of the arithmetic unit.
      have ported : completion ∈ portCompletions input.toRcuInput := by
        simp only [RcuInput.completions, List.mem_cons, List.not_mem_nil, or_false] at member
        simp only [portCompletions, List.mem_cons, List.not_mem_nil, or_false]
        rcases member with rfl | rfl | rfl | rfl | rfl
        · simp [done]
        · simp
        · simp
        · simp
        · have idle : input.alu1.done = false := by
            by_contra busy
            exact exclusive ⟨(units.alu1 (by simpa using busy)).1, (units.csru done).1⟩
          simp [idle]
      rw [Override.foldl_some _ _ _ _ ported writes fun other there => single other (subset other there)]
    · simp only [not_exists, not_and, Bool.not_eq_true] at active
      rw [Override.foldl_none _ _ _ _ active,
        Override.foldl_none _ _ _ _ fun completion member => active completion (subset completion member)]

theorem foldl_ready (completions : List FuDone) (table : PhyReg → Bool) (register : PhyReg) :
    completions.foldl (fun table completion => writeIf completion.done table completion.wrbAddr true)
        table register = true ↔
      table register = true ∨
        ∃ completion ∈ completions, completion.done = true ∧ completion.wrbAddr = register := by
  induction completions generalizing table with
  | nil => simp
  | cons completion rest ih =>
    rw [List.foldl_cons, ih, writeIf_apply]
    by_cases hit : completion.done = true ∧ completion.wrbAddr = register
    · simp [hit]
    · have other : ¬ (completion.done = true ∧ register = completion.wrbAddr) :=
        fun same => hit ⟨same.1, same.2.symm⟩
      simp [hit, other]

theorem availableDone_iff (backend : Backend) (input : BackendInput) (register : PhyReg) :
    backend.availableDone input register = true ↔ backend.issue.availableTable register = true ∨
      ∃ completion ∈ input.toRcuInput.completions, completion.done = true ∧
        completion.wrbAddr = register := by
  rw [Backend.availableDone, foldl_ready]
  simp only [RcuInput.completions, List.mem_cons, List.not_mem_nil, or_false, exists_eq_or_imp,
    exists_eq_left]
  tauto

/-- A slot of the window as a write, with the given values. -/
def write (tracked : Tracked) (result : RobIndex → Option Word) (index : RobIndex) :
    Write 32 PhyReg Word where
  rd := (tracked.source index).destination
  prd := (tracked.backend.rcu.rob index).prd
  lprd := (tracked.backend.rcu.rob index).lprd
  result := result index

/-- What the invariants say of the registers: those that are ready carry the value of their
owner, `p0` is ready and zero, and the two units of the shared port are never both busy. -/
structure Values (tracked : Tracked) (past : List (Write 32 PhyReg Word)) (length : Nat) : Prop where
  carries : Write.Carries tracked.backend.issue.availableTable tracked.backend.issue.registers
    (Write.replay (fun _ => some 0) past) tracked.backend.rcu.renameRegBackup
    ((slots tracked.backend.rcu.cmtRobIndex length).map (tracked.write tracked.result))
  zeroReady : tracked.backend.issue.availableTable 0 = true
  zeroCell : tracked.backend.issue.registers 0 = 0
  exclusive : ¬ (tracked.backend.issue.alu1.valid = true ∧ tracked.backend.issue.csr.valid = true)

variable {past : List (Write 32 PhyReg Word)}

/-- The completions of a cycle keep every ready register at the value of its owner. -/
theorem Values.done {input : BackendInput} (values : Values tracked past length)
    (units : FunctionUnits tracked input.toRcuInput)
    (sound : Rcu.Sound tracked.backend.rcu length free) :
    Write.Carries (tracked.backend.availableDone input) (tracked.backend.registersNext input)
      (Write.replay (fun _ => some 0) past) tracked.backend.rcu.renameRegBackup
      ((slots tracked.backend.rcu.cmtRobIndex length).map
        (tracked.write (tracked.currentResult input.toRcuInput))) := by
  have operand := units.operand_eq sound values.zeroCell values.exclusive
  -- A register that nothing completes keeps its contents and its ready bit.
  have untouched : ∀ register, (∀ completion ∈ input.toRcuInput.completions,
      completion.writes register = false) →
      tracked.backend.registersNext input register = tracked.backend.issue.registers register ∧
      (tracked.backend.availableDone input register = true →
        tracked.backend.issue.availableTable register = true) := by
    intro register quiet
    refine ⟨by rw [← operand, Backend.operand, Override.foldl_none _ _ _ _ quiet], fun available => ?_⟩
    rcases (availableDone_iff _ _ _).mp available with before | ⟨completion, member, done, own⟩
    · exact before
    · by_cases zero : register = 0
      · rw [zero]
        exact values.zeroReady
      · have silent := quiet completion member
        simp [FuDone.writes, done, own, zero] at silent
  refine ⟨fun name available => ?_, fun write member nonzero available => ?_⟩
  · have quiet : ∀ completion ∈ input.toRcuInput.completions,
        completion.writes (tracked.backend.rcu.renameRegBackup name) = false := by
      intro completion member
      by_contra writes
      obtain ⟨used, own, nonzero⟩ := units.owner member (by simpa using writes)
      exact sound.prd_not_mapped used (by rw [own]; exact nonzero) name own.symm
    obtain ⟨cell, ready⟩ := untouched _ quiet
    rw [cell]
    exact values.carries.committed name (ready available)
  · obtain ⟨index, inside, rfl⟩ := List.mem_map.mp member
    have used := (sound.window.used index).mpr inside
    change tracked.currentResult input.toRcuInput index = some _
    change (tracked.backend.rcu.rob index).prd ≠ 0 at nonzero
    by_cases completes : ∃ completion ∈ input.toRcuInput.completions,
        (completion.done && completion.robIndex == index) = true
    · obtain ⟨completion, there, done⟩ := completes
      have single : ∀ other ∈ input.toRcuInput.completions,
          (other.done && other.robIndex == index) = true →
          some other.wrbData = some completion.wrbData := by
        intro other member' done'
        simp only [Bool.and_eq_true, beq_iff_eq] at done done'
        rw [units.unique member' there done'.1 done.1 (done'.2.trans done.2.symm)]
      rw [currentResult, Override.foldl_some _ _ _ _ there done single]
      simp only [Bool.and_eq_true, beq_iff_eq] at done
      have own := (units.own completion there done.1).2
      rw [done.2] at own
      have writes : completion.writes (tracked.backend.rcu.rob index).prd = true := by
        simp [FuDone.writes, done.1, own, nonzero]
      change _ = some (tracked.backend.registersNext input (tracked.backend.rcu.rob index).prd)
      rw [← operand, Backend.operand, Override.foldl_some _ _ _ _ there writes]
      intro other member' writes'
      rw [units.writer_unique sound member' there writes' writes]
    · simp only [not_exists, not_and, Bool.not_eq_true] at completes
      rw [currentResult, Override.foldl_none _ _ _ _ completes]
      have quiet : ∀ completion ∈ input.toRcuInput.completions,
          completion.writes (tracked.backend.rcu.rob index).prd = false := by
        intro completion there
        by_contra writes
        have writes : completion.writes (tracked.backend.rcu.rob index).prd = true := by
          simpa using writes
        obtain ⟨used', own, -⟩ := units.owner there writes
        have same := sound.prd_injective used' used (by rw [own]; exact nonzero) own
        have silent := completes completion there
        simp only [FuDone.writes, Bool.and_eq_true] at writes
        simp [same, writes.1.1] at silent
      obtain ⟨cell, ready⟩ := untouched _ quiet
      change _ = some (tracked.backend.registersNext input (tracked.backend.rcu.rob index).prd)
      rw [cell]
      exact values.carries.pending _ (List.mem_map_of_mem inside) nonzero (ready available)

end Tracked

end GreenRio
