import GreenRio.Refinement

set_option autoImplicit false

/-- A name leads to what it led to, or to one of the renamings. -/
theorem Renaming.apply_cases {m : Nat} {P : Type} (map : Fin m → P) (renames : List (Renaming m P))
    (name : Fin m) :
    Renaming.apply map renames name = map name ∨
      ∃ rename ∈ renames, Renaming.apply map renames name = rename.prd := by
  induction renames using List.reverseRecOn with
  | nil => exact Or.inl rfl
  | append_singleton rest last ih =>
    rw [Renaming.apply_append, Renaming.apply_cons, Renaming.apply_nil]
    by_cases same : name = last.rd
    · refine Or.inr ⟨last, by simp, ?_⟩
      rw [same, Function.update_self]
    · rw [Function.update_of_ne same]
      apply ih.imp id
      rintro ⟨rename, member, here⟩
      exact ⟨rename, by simp [member], here⟩

namespace GreenRio

open Circular Counter Fifo

namespace Observed

variable {program : RiscV.Program 39} {observed : Observed} {input : ProcessorInput}
  {length : Nat} {free : List PhyReg} {past : List (Write 32 PhyReg Word)}
  {waiting : List Decoded} {state : RiscV.State 39} {expected : Pc}

/-- The registers of the committed map have their values, and so have those of what has been
executed. -/
structure Ready (observed : Observed) (length : Nat) : Prop where
  committed : ∀ name, observed.issue.availableTable (observed.rcu.renameRegBackup name) = true
  finished : ∀ position < length,
    observed.rcu.robFinish (advance observed.rcu.cmtRobIndex position) = true →
    (observed.source (advance observed.rcu.cmtRobIndex position)).skips = false →
    observed.issue.availableTable
      (observed.rcu.rob (advance observed.rcu.cmtRobIndex position)).prd = true

section Available

variable (sound : Rcu.Sound observed.rcu length free)

include sound

/-- Registers that are given out are neither committed nor in flight. -/
theorem fresh_apart {entry : RobEntry}
    (member : entry ∈ Rcu.dispatched observed.rcu (observed.processor.rcuInput input))
    (nonzero : entry.prd ≠ 0) :
    (∀ name, observed.rcu.renameRegBackup name ≠ entry.prd) ∧
      ∀ index, observed.rcu.robUsed index = true → (observed.rcu.rob index).prd ≠ entry.prd := by
  have nodup := (sound.dispatch (observed.processor.rcuInput input)).1.partition.nodup_iff.mpr
    (show Rcu.physicalRegisters.Nodup by decide)
  rw [Renaming.pending_append] at nodup
  obtain ⟨-, inner, committed⟩ := List.nodup_append.mp (List.nodup_append.mp nodup).1
  have fresh : entry.prd ∈ Renaming.pending
      ((Rcu.dispatched observed.rcu (observed.processor.rcuInput input)).map
        RobEntry.renaming) := by
    rw [Renaming.pending, Renaming.live, List.mem_filter, List.map_map]
    exact ⟨List.mem_map_of_mem (f := Renaming.prd ∘ RobEntry.renaming) member,
      by simpa using nonzero⟩
  constructor
  · intro name same
    have named : entry.prd ∈ Renaming.mapped observed.rcu.renameRegBackup := by
      rw [Renaming.mapped, Renaming.live, List.mem_filter, List.mem_ofFn]
      exact ⟨⟨name, same⟩, by simpa using nonzero⟩
    exact committed _ named _ (List.mem_append_right _ fresh) rfl
  · intro index used same
    have older := sound.mem_pending used (by rw [same]; exact nonzero)
    rw [same] at older
    exact (List.nodup_append.mp inner).2.2 _ older _ fresh rfl

omit sound in
/-- What is not given out stays ready, and becomes so by a completion. -/
theorem step_available {register : PhyReg}
    (apart : ∀ entry ∈ Rcu.dispatched observed.rcu (observed.processor.rcuInput input),
      entry.prd ≠ 0 → register ≠ entry.prd)
    (ready : observed.issue.availableTable register = true ∨
      ∃ completion ∈ (observed.processor.rcuInput input).completions, completion.done = true ∧
        completion.wrbAddr = register) :
    (observed.step input).issue.availableTable register = true := by
  have done := (Tracked.availableDone_iff observed.processor.backend
    (observed.processor.backendInput input) register).mpr ready
  change observed.processor.backend.availableNext (observed.processor.backendInput input) register =
    true
  have zero : ∀ entry ∈ Rcu.dispatched observed.rcu (observed.processor.rcuInput input),
      register = entry.prd → (entry.prd == 0) = true := by
    intro entry member same
    by_contra nonzero
    exact apart entry member (by simpa using nonzero) same
  simp only [Backend.availableNext, writeIf_apply]
  split_ifs with second first
  · exact zero _ (accepted_second second.1) second.2
  · exact zero _ (accepted_first first.1) first.2
  · exact done

theorem step_ready_committed (ready : Ready observed length) (name : ArchReg) :
    (observed.step input).issue.availableTable (observed.rcu.renameRegBackup name) = true := by
  apply step_available
  · exact fun entry member nonzero => (fresh_apart sound member nonzero).1 name
  · exact Or.inl (ready.committed name)

theorem step_ready_slot {index : RobIndex} (used : observed.rcu.robUsed index = true)
    (ready : observed.issue.availableTable (observed.rcu.rob index).prd = true ∨
      ∃ completion ∈ (observed.processor.rcuInput input).completions, completion.done = true ∧
        completion.wrbAddr = (observed.rcu.rob index).prd) :
    (observed.step input).issue.availableTable (observed.rcu.rob index).prd = true := by
  apply step_available
  · exact fun entry member nonzero => (fresh_apart sound member nonzero).2 index used
  · exact ready

end Available

section Step

variable (steady : Steady observed expected length free past waiting)
  (supplied : Supplied program observed) (ready : Ready observed length)
  (responds : Responds observed input) (quiet : observed.processor.flush = false)

include steady supplied ready quiet

/-- What leaves has its value. -/
theorem leaving_ready {position : Nat} (leaves : position < observed.commitCount input) :
    observed.issue.availableTable
      (observed.rcu.rob (advance observed.rcu.cmtRobIndex position)).prd = true := by
  have window := steady.tracks.sound.window
  obtain ⟨inside, finish, calm, stays⟩ := leaving_calm window steady.settled quiet leaves
  cases skips : (observed.source (advance observed.rcu.cmtRobIndex position)).skips with
  | false => exact ready.finished position inside finish skips
  | true =>
    have used := slot_used window inside
    have none := (supplied.source _ used).skipped calm stays skips
    have member : advance observed.rcu.cmtRobIndex position ∈
        slots observed.rcu.cmtRobIndex length := (mem_slots _ _ _).mpr ⟨position, inside, rfl⟩
    have named := steady.tracks.linked.named (observed.tracked.pairAt _)
      (List.mem_map_of_mem member)
    have zero := (steady.tracks.sound.valid.chain.named
      (observed.rcu.rob (advance observed.rcu.cmtRobIndex position)).renaming
      (List.mem_map_of_mem (List.mem_map_of_mem member))).mp (named.trans none)
    have unnamed : (observed.rcu.rob (advance observed.rcu.cmtRobIndex position)).prd = 0 := zero
    rw [unnamed]
    exact steady.tracks.values.zeroReady

include responds

/-- A cycle without a flush. -/
theorem step_ready :
    Ready (observed.step input)
      (length - observed.commitCount input + observed.writeCount input) := by
  have sound := steady.tracks.sound
  have window := sound.window
  have settled := steady.settled
  have leave : observed.commitCount input ≤ length :=
    window.commit_room (observed.processor.rcuInput input)
  have enter : length + observed.writeCount input ≤ 16 :=
    window.write_room (observed.processor.rcuInput input)
  constructor
  · intro name
    have backup : (observed.step input).rcu.renameRegBackup = _ :=
      Rcu.step_renameRegBackup observed.rcu (observed.processor.rcuInput input) quiet
    rw [backup]
    rcases Renaming.apply_cases observed.rcu.renameRegBackup _ name with
      same | ⟨rename, member, same⟩
    · rw [same]
      exact step_ready_committed sound ready name
    · obtain ⟨entry, retires, rfl⟩ := List.mem_map.mp member
      rw [Rcu.retiring_eq] at retires
      obtain ⟨index, slot, rfl⟩ := List.mem_map.mp retires
      obtain ⟨position, leaves, rfl⟩ := (mem_slots _ _ _).mp slot
      rw [same]
      apply step_ready_slot sound (slot_used window (Nat.lt_of_lt_of_le leaves leave))
      exact Or.inl (leaving_ready steady supplied ready quiet leaves)
  · have window' : Rcu.Window (observed.step input).rcu
        (length - observed.commitCount input + observed.writeCount input) :=
      Rcu.step_window window (observed.processor.rcuInput input) quiet
    intro position below finished active
    have used' := slot_used window' below
    rw [step_head quiet, advance_advance] at finished active used' ⊢
    rcases step_used_cases quiet used' with ⟨used, stays⟩ | ⟨instruction, enters⟩
    · have inside : observed.commitCount input + position < length := by
        obtain ⟨place, low, same⟩ := (mem_slots _ _ _).mp ((window.used _).mp used)
        have equal := advance_injective observed.rcu.cmtRobIndex (by omega) (by omega) same
        omega
      obtain ⟨entry, source, -, finish⟩ := step_kept quiet used stays
      rw [source] at active
      rw [entry]
      apply step_ready_slot sound used
      rcases finish.mp finished with before | ⟨completion, member, done, own⟩
      · exact Or.inl (ready.finished _ inside before active)
      · have address := ((settled.functionUnits responds).own completion member done).2
        rw [own] at address
        exact Or.inr ⟨completion, member, done, address⟩
    · obtain ⟨-, -, -, -, source, -, finish, -⟩ :=
        step_entered quiet window settled responds enters
      rw [source] at active
      exact absurd ((finish.mp finished).symm.trans active) (by decide)

end Step

/-- A flush keeps the committed map. -/
theorem step_ready_flush (sound : Rcu.Sound observed.rcu length free)
    (ready : Ready observed length) (flush : observed.processor.flush = true) : Ready (observed.step input) 0 := by
  have fault : observed.rcu.globalSpeculateFault (observed.processor.rcuInput input) = true := flush
  constructor
  · intro name
    have kept : (observed.step input).rcu.renameRegBackup = observed.rcu.renameRegBackup := by
      rw [step_rcu]
      simp [Rcu.step, fault]
    rw [kept]
    exact step_ready_committed sound ready name
  · exact fun _ below => absurd below (Nat.not_lt_zero _)

theorem reset_ready : Ready reset 0 :=
  ⟨fun _ => rfl, fun _ below => absurd below (Nat.not_lt_zero _)⟩

/-- The machine mirrors the hart, and the registers of its committed map are ready. -/
def Holds (program : RiscV.Program 39) (observed : Observed) (state : RiscV.State 39) : Prop :=
  ∃ length free past waiting,
    Mirrors program observed state length free past waiting ∧ Ready observed length

theorem Holds.step (holds : Holds program observed state) (lawful : Lawful program observed input) :
    ∃ after, state.run program (observed.outcomes input) = some after ∧
      Holds program (observed.step input) after := by
  obtain ⟨length, free, past, waiting, mirrors, ready⟩ := holds
  obtain ⟨after, runs, length', free', past', waiting', mirrors'⟩ := mirrors.step lawful
  refine ⟨after, runs, length', free', past', waiting', mirrors', ?_⟩
  cases flush : observed.processor.flush
  · have length_eq : length' = length - observed.commitCount input + observed.writeCount input :=
      mirrors'.steady.tracks.sound.window.length_unique
        (Rcu.step_window mirrors.steady.tracks.sound.window
          (observed.processor.rcuInput input) flush)
    rw [length_eq]
    exact step_ready mirrors.steady mirrors.supplied ready lawful.benign.responds flush
  · have empty : length' = 0 := mirrors'.steady.tracks.sound.window.length_unique
      (Rcu.step_window_fault observed.rcu (observed.processor.rcuInput input) flush)
    rw [empty]
    exact step_ready_flush mirrors.steady.tracks.sound ready flush

theorem run_holds (program : RiscV.Program 39) (inputs : List ProcessorInput)
    (obeys : machine.Obeys (Lawful program) inputs) :
    ∃ state, start.run program (machine.log outcomes inputs) = some state ∧
      Holds program (machine.run inputs) state :=
  machine.obeys_invariant (Lawful program) outcomes
    (fun observed log => ∃ state, start.run program log = some state ∧
      Holds program observed state)
    ⟨start, rfl, 0, _, [], [], reset_mirrors program, reset_ready⟩
    (fun observed input log lawful ⟨state, runs, holds⟩ => by
      obtain ⟨after, next, holds'⟩ := holds.step lawful
      exact ⟨after, by rw [RiscV.State.run_append, runs]; exact next, holds'⟩) inputs obeys

/-- The out-of-order core executes the program like a hart that takes one instruction after the
other: in every lawful run the hart goes through all that has retired, returned or trapped, the
committed physical registers hold its registers, and the head of the reorder buffer is its next
instruction. -/
theorem core_refines_hart (program : RiscV.Program 39) (inputs : List ProcessorInput)
    (obeys : machine.Obeys (Lawful program) inputs) :
    ∃ state, start.run program (machine.log outcomes inputs) = some state ∧
      (∀ name : RiscV.Reg, (machine.run inputs).issue.registers
        ((machine.run inputs).rcu.renameRegBackup name.toFin) = state.registers name) ∧
      ((machine.run inputs).rcu.robUsed (machine.run inputs).rcu.cmtRobIndex = true →
        (machine.run inputs).rcu.dffCmtMissDelay = false →
        (machine.run inputs).rcu.headFirst.pc = state.pc) := by
  obtain ⟨state, runs, length, free, past, waiting, mirrors, ready⟩ :=
    run_holds program inputs obeys
  refine ⟨state, runs, fun name => ?_, fun used prompt => (mirrors.steady.head used prompt).2⟩
  have carried := mirrors.steady.tracks.values.carries.committed name.toFin (ready.committed _)
  have known := mirrors.agrees name
  rw [mirrors.steady.linked, carried] at known
  exact Option.some.inj known

/-- `ADDI x1, x0, 5`, a jump that links `x3`, and `ADD x2, x1, x3` at its target. -/
def linking : RiscV.Program 39 where
  word pc := if pc = 0x80000000 then 0x00500093 else if pc = 0x80000004 then 0x00c001ef
    else 0x00308133
  size _ := 4

/-- The first two instructions arrive together. -/
def linkedJump : List ProcessorInput :=
  { ProcessorInput.idle with buffer := .pair 0x00500093 0x00c001ef } ::
    List.replicate 4 ProcessorInput.idle

theorem linkedJump_lawful : machine.Obeys (Lawful linking) linkedJump := by decide +kernel

theorem linkedJump_register : (machine.run linkedJump).issue.registers
    ((machine.run linkedJump).rcu.renameRegBackup 3) = 0x80000008 := by decide +kernel

theorem core_refines_hart_linkedJump : ∃ state,
    start.run linking (machine.log outcomes linkedJump) = some state ∧
      state.registers 3 = 0x80000008 := by
  obtain ⟨state, runs, registers, -⟩ := core_refines_hart linking linkedJump linkedJump_lawful
  exact ⟨state, runs, (registers 3).symm.trans linkedJump_register⟩

end Observed

end GreenRio
