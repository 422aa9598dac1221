import GreenRio.Core
import GreenRio.Writeback

set_option autoImplicit false

namespace GreenRio

open Circular Counter Fifo

/-- The sources of each entry are named by the map that the older entries leave. -/
def Linked : (ArchReg → PhyReg) → List (RobEntry × Decoded) → Prop
  | _, [] => True
  | map, (entry, instruction) :: rest =>
    entry.prs1 = (if instruction.usesRs1 then map instruction.rs1Address else 0) ∧
      entry.prs2 = (if instruction.usesRs2 then map instruction.rs2Address else 0) ∧
      entry.rd = instruction.destination ∧ Linked (Function.update map entry.rd entry.prd) rest

theorem linked_append {map : ArchReg → PhyReg} {older younger : List (RobEntry × Decoded)} :
    Linked map (older ++ younger) ↔ Linked map older ∧
      Linked (Renaming.apply map (older.map fun pair => pair.1.renaming)) younger := by
  induction older generalizing map with
  | nil => simp [Linked]
  | cons pair rest ih =>
    simp only [List.cons_append, Linked, ih, List.map_cons, Renaming.apply_cons, RobEntry.renaming]
    tauto

theorem Linked.named {map : ArchReg → PhyReg} {pairs : List (RobEntry × Decoded)}
    (linked : Linked map pairs) : ∀ pair ∈ pairs, pair.1.rd = pair.2.destination := by
  induction pairs generalizing map with
  | nil => intro pair member; cases member
  | cons first rest ih =>
    intro pair member
    obtain ⟨-, -, named, linked⟩ := linked
    rcases List.mem_cons.mp member with rfl | inside
    · exact named
    · exact ih linked pair inside

namespace Tracked

def machine : Synchronous Tracked BackendInput := ⟨reset Decoded.blank, step⟩

/-- An instruction in flight, with the value it has produced up to this cycle. -/
structure InFlight where
  robIndex : RobIndex
  instruction : Decoded
  entry : RobEntry
  result : Option Word

def InFlight.write (op : InFlight) : Write 32 PhyReg Word :=
  ⟨⟨op.instruction.destination, op.entry.prd, op.entry.lprd⟩, op.result⟩

def InFlight.pair (op : InFlight) : RobEntry × Decoded := (op.entry, op.instruction)

section Observations

variable (tracked : Tracked) (input : RcuInput)

def stored (index : RobIndex) : InFlight :=
  ⟨index, tracked.source index, tracked.backend.rcu.rob index, tracked.currentResult input index⟩

def freshFirst : InFlight :=
  ⟨tracked.backend.rcu.wrRobIndex, input.offer.first, tracked.backend.rcu.entryFirst input, none⟩

def freshSecond : InFlight :=
  ⟨tracked.backend.rcu.wrRobIndexSecond, input.offer.second, tracked.backend.rcu.entrySecond input,
    none⟩

/-- The instructions in flight in program order: those in the reorder buffer, then those being
dispatched. -/
def inFlight : List InFlight :=
  ((slots tracked.backend.rcu.cmtRobIndex 16).filter tracked.backend.rcu.robUsed).map
      (tracked.stored input) ++
    accepted (tracked.backend.rcu.doRobWriteFirst input) (tracked.backend.rcu.doRobWriteSecond input)
      (tracked.freshFirst input) (tracked.freshSecond input)

/-- The writes of the instructions committed in this cycle. -/
def commits : List (Write 32 PhyReg Word) :=
  if tracked.backend.rcu.globalSpeculateFault input then [] else
    accepted (tracked.backend.rcu.doRobCommitFirst input)
      (tracked.backend.rcu.doRobCommitSecond input)
      (tracked.write (tracked.currentResult input) tracked.backend.rcu.cmtRobIndex)
      (tracked.write (tracked.currentResult input) tracked.backend.rcu.cmtRobIndexSecond)

end Observations

/-- The slots of the window with the instructions they were given. -/
def pairAt (tracked : Tracked) (index : RobIndex) : RobEntry × Decoded :=
  (tracked.backend.rcu.rob index, tracked.source index)

/-- The invariant of a run: sound renaming, linked sources and carried values. -/
structure Tracks (tracked : Tracked) (past : List (Write 32 PhyReg Word)) (length : Nat)
    (free : List PhyReg) : Prop where
  sound : Rcu.Sound tracked.backend.rcu length free
  linked : Linked tracked.backend.rcu.renameRegBackup
    (window tracked.pairAt tracked.backend.rcu.cmtRobIndex length)
  values : Values tracked past length

variable {tracked : Tracked} {past : List (Write 32 PhyReg Word)} {length : Nat}
  {free : List PhyReg} {input : BackendInput}

theorem reset_tracks : Tracks (reset Decoded.blank) [] 0 Rcu.physicalRegisters := by
  refine ⟨Rcu.reset_sound, trivial, ⟨⟨fun name available => ?_, by simp⟩, rfl, rfl, by simp [reset,
    Backend.reset]⟩⟩
  rfl

namespace Tracks

theorem inFlight_eq (tracks : Tracks tracked past length free) (input : RcuInput) :
    tracked.inFlight input =
      (slots tracked.backend.rcu.cmtRobIndex length).map (tracked.stored input) ++
        accepted (tracked.backend.rcu.doRobWriteFirst input)
          (tracked.backend.rcu.doRobWriteSecond input)
          (tracked.freshFirst input) (tracked.freshSecond input) := by
  rw [inFlight, slots_filter _ _ tracks.sound.window.bounded tracks.sound.window.used]

theorem window_renamings (tracked : Tracked) (length : Nat) :
    (window tracked.pairAt tracked.backend.rcu.cmtRobIndex length).map
        (fun pair => pair.1.renaming) = Rcu.renamings tracked.backend.rcu length := by
  simp [window, Rcu.renamings, Rcu.entries, pairAt, Function.comp_def]

/-- The dispatched instructions are linked behind the window. -/
theorem linked_dispatch (tracks : Tracks tracked past length free) (input : RcuInput) :
    Linked tracked.backend.rcu.renameRegBackup
      (window tracked.pairAt tracked.backend.rcu.cmtRobIndex length ++
        accepted (tracked.backend.rcu.doRobWriteFirst input)
          (tracked.backend.rcu.doRobWriteSecond input)
          (tracked.backend.rcu.entryFirst input, input.offer.first)
          (tracked.backend.rcu.entrySecond input, input.offer.second)) := by
  rw [linked_append, window_renamings, ← tracks.sound.renamed]
  refine ⟨tracks.linked, ?_⟩
  cases writeFirst : tracked.backend.rcu.doRobWriteFirst input
  · have writeSecond : tracked.backend.rcu.doRobWriteSecond input = false := by
      by_contra write
      simp [tracks.sound.window.write_ordered input (by simpa using write)] at writeFirst
    simp [accepted, writeSecond, Linked]
  · cases writeSecond : tracked.backend.rcu.doRobWriteSecond input
    · simp only [accepted, if_true, Bool.false_eq_true, if_false, List.append_nil]
      exact ⟨rfl, rfl, rfl, trivial⟩
    · simp only [accepted, if_true, List.singleton_append]
      refine ⟨rfl, rfl, rfl, ?_⟩
      have seen := (tracks.sound.dispatch_first input writeFirst).2.2
      rw [Renaming.apply_append, ← tracks.sound.renamed] at seen
      change Linked (Renaming.apply tracked.backend.rcu.renameReg
        [(tracked.backend.rcu.entryFirst input).renaming]) _
      have name := Rcu.nameSecond_eq input tracks.sound.unnamed writeFirst
      rw [seen]
      refine ⟨?_, ?_, rfl, trivial⟩
      · simp only [Rcu.entrySecond, name]
      · simp only [Rcu.entrySecond, name]

theorem inFlight_pairs (tracks : Tracks tracked past length free) (input : RcuInput) :
    (tracked.inFlight input).map InFlight.pair =
      window tracked.pairAt tracked.backend.rcu.cmtRobIndex length ++
        accepted (tracked.backend.rcu.doRobWriteFirst input)
          (tracked.backend.rcu.doRobWriteSecond input)
          (tracked.backend.rcu.entryFirst input, input.offer.first)
          (tracked.backend.rcu.entrySecond input, input.offer.second) := by
  rw [tracks.inFlight_eq, List.map_append, accepted_map, List.map_map]
  rfl

theorem linked_inFlight (tracks : Tracks tracked past length free) (input : RcuInput) :
    Linked tracked.backend.rcu.renameRegBackup
      ((tracked.inFlight input).map InFlight.pair) := by
  rw [tracks.inFlight_pairs]
  exact tracks.linked_dispatch input

/-- The renamings of the instructions in flight, read off their entries. -/
theorem inFlight_renamings (tracks : Tracks tracked past length free) (input : RcuInput) :
    ((tracked.inFlight input).map InFlight.pair).map (fun pair => pair.1.renaming) =
      Rcu.renamings tracked.backend.rcu length ++
        (Rcu.dispatched tracked.backend.rcu input).map RobEntry.renaming := by
  rw [tracks.inFlight_pairs, List.map_append, window_renamings, accepted_map, Rcu.dispatched,
    accepted_map]

end Tracks

/-- Linked entries write the register their instruction names. -/
theorem writes_renamings {map : ArchReg → PhyReg} {ops : List InFlight}
    (linked : Linked map (ops.map InFlight.pair)) :
    (ops.map InFlight.write).map Write.toRenaming =
      (ops.map InFlight.pair).map fun pair => pair.1.renaming := by
  rw [List.map_map, List.map_map]
  apply List.map_congr_left
  intro op member
  have named := linked.named op.pair (List.mem_map_of_mem member)
  change op.entry.rd = op.instruction.destination at named
  simp only [Function.comp_apply, InFlight.write, InFlight.pair, RobEntry.renaming, named]

namespace Tracks

/-- A register given out in this cycle is not available in it. -/
theorem fresh_unavailable (tracks : Tracks tracked past length free)
    (units : FunctionUnits tracked input.toRcuInput) {entry : RobEntry}
    (member : entry ∈ Rcu.dispatched tracked.backend.rcu input.toRcuInput)
    (nonzero : entry.prd ≠ 0) :
    tracked.backend.realAvailable input.toRcuInput entry.prd = false := by
  have fresh : ∀ completion ∈ input.toRcuInput.completions,
      completion.writes entry.prd = false := by
    intro completion there
    by_contra writes
    obtain ⟨used, own, -⟩ := units.owner there (by simpa using writes)
    have nodup := (tracks.sound.dispatch input.toRcuInput).1.partition.nodup_iff.mpr
      (show Rcu.physicalRegisters.Nodup by decide)
    rw [Renaming.pending_append] at nodup
    have disjoint := (List.nodup_append.mp (List.nodup_append.mp
      (List.nodup_append.mp nodup).1).2.1).2.2
    have old := tracks.sound.mem_pending used (by rw [own]; exact nonzero)
    rw [own] at old
    have new : entry.prd ∈ Renaming.pending
        ((Rcu.dispatched tracked.backend.rcu input.toRcuInput).map RobEntry.renaming) := by
      rw [Renaming.pending, Renaming.live, List.mem_filter]
      refine ⟨?_, by simpa using nonzero⟩
      rw [List.map_map]
      exact List.mem_map_of_mem (f := Renaming.prd ∘ RobEntry.renaming) member
    exact disjoint _ old _ new rfl
  have silent : (input.toRcuInput.completions.any fun completion =>
      completion.writes entry.prd) = false := by
    rw [List.any_eq_false]
    intro completion there
    simp [fresh completion there]
  unfold Backend.realAvailable
  rw [silent, Bool.or_false]
  unfold Rcu.dispatched accepted at member
  rcases List.mem_append.mp member with first | second
  · split at first
    · rename_i write
      rw [List.mem_singleton.mp first]
      simp [write]
    · cases first
  · split at second
    · rename_i write
      rw [List.mem_singleton.mp second]
      simp [write]
    · cases second

/-- What is available to a select port carries the value of its owner. -/
theorem available (tracks : Tracks tracked past length free)
    (units : FunctionUnits tracked input.toRcuInput) :
    Write.Carries (tracked.backend.realAvailable input.toRcuInput)
      (tracked.backend.operand input.toRcuInput) (Write.replay (fun _ => some 0) past)
      tracked.backend.rcu.renameRegBackup
      ((tracked.inFlight input.toRcuInput).map InFlight.write) := by
  have carries := tracks.values.done units tracks.sound
  have operand := units.operand_eq tracks.sound tracks.values.zeroCell tracks.values.exclusive
  have sooner : ∀ register, tracked.backend.realAvailable input.toRcuInput register = true →
      tracked.backend.availableDone input register = true := by
    intro register available
    simp only [Backend.realAvailable, Bool.or_eq_true, Bool.and_eq_true, List.any_eq_true,
      FuDone.writes, beq_iff_eq] at available
    rw [availableDone_iff]
    rcases available with table | ⟨completion, member, writes⟩
    · exact Or.inl table.1.1
    · exact Or.inr ⟨completion, member, writes.1.1, writes.2.symm⟩
  refine ⟨fun name available => ?_, fun write member nonzero available => ?_⟩
  · rw [operand]
    exact carries.committed name (sooner _ available)
  · rw [operand]
    obtain ⟨op, inside, rfl⟩ := List.mem_map.mp member
    rw [tracks.inFlight_eq] at inside
    rcases List.mem_append.mp inside with old | new
    · obtain ⟨index, slot, rfl⟩ := List.mem_map.mp old
      exact carries.pending _ (List.mem_map_of_mem slot) nonzero (sooner _ available)
    · have entry : op.entry ∈ Rcu.dispatched tracked.backend.rcu input.toRcuInput := by
        rw [Rcu.dispatched]
        have mapped := List.mem_map_of_mem (f := InFlight.entry) new
        rw [accepted_map] at mapped
        exact mapped
      rw [show op.write.prd = op.entry.prd from rfl, tracks.fresh_unavailable units entry nonzero]
        at available
      cases available

/-- A source of an instruction in flight, once available, is driven with the value its most
recent older writer has produced. -/
theorem read (tracks : Tracks tracked past length free)
    (units : FunctionUnits tracked input.toRcuInput) {older younger : List InFlight} {op : InFlight}
    (split : tracked.inFlight input.toRcuInput = older ++ op :: younger) (name : ArchReg)
    (available : tracked.backend.realAvailable input.toRcuInput
      (Renaming.apply tracked.backend.rcu.renameRegBackup
        ((older.map InFlight.pair).map fun pair => pair.1.renaming) name) = true) :
    Write.replay (fun _ => some 0) (past ++ older.map InFlight.write) name =
      some (tracked.backend.operand input.toRcuInput
        (Renaming.apply tracked.backend.rcu.renameRegBackup
          ((older.map InFlight.pair).map fun pair => pair.1.renaming) name)) := by
  have carries := tracks.available units
  have linked := tracks.linked_inFlight input.toRcuInput
  have named := (tracks.sound.dispatch input.toRcuInput).1.chain.named
  rw [← tracks.inFlight_renamings, ← writes_renamings linked, split, List.map_append] at named
  rw [split, List.map_append] at carries linked
  have renamings := writes_renamings (linked_append.mp linked).1
  rw [← renamings] at available ⊢
  rw [Write.replay_append]
  refine carries.read tracks.sound.valid.zero (fun write member => ?_) name available
  apply named write.toRenaming
  rw [List.map_append]
  exact List.mem_append_left _ (List.mem_map_of_mem member)

/-- Every issued operation is one in flight whose operands are available. -/
theorem issued_inFlight (tracks : Tracks tracked past length free) {input : RcuInput}
    {issued : Issued} (member : issued ∈ tracked.backend.issues input) :
    ∃ op ∈ tracked.inFlight input, op.robIndex = issued.robIndex ∧
      tracked.backend.realAvailable input op.entry.prs1 = true ∧
      tracked.backend.realAvailable input op.entry.prs2 = true ∧
      issued.rs1Data = tracked.backend.operand input op.entry.prs1 ∧
      issued.rs2Data = tracked.backend.operand input op.entry.prs2 := by
  obtain ⟨requester, granted, rfl⟩ := List.mem_map.mp member
  have eligible := (List.mem_filter.mp (List.mem_of_mem_take granted)).2
  simp only [Backend.eligible, Bool.and_eq_true] at eligible
  have ready := eligible.1
  rw [tracks.inFlight_eq]
  cases requester with
  | slot index =>
    simp only [Backend.selectReady, Backend.ready, Bool.and_eq_true] at ready
    have slot := (tracks.sound.window.used index).mp ready.1.1.1.1.2
    exact ⟨tracked.stored input index, List.mem_append_left _ (List.mem_map_of_mem slot), rfl,
      ready.1.1.1.1.1.1.1.1.1.1, ready.1.1.1.1.1.1.1.1.1.2, rfl, rfl⟩
  | first =>
    simp only [Backend.selectReady, Backend.ready, Bool.and_eq_true] at ready
    refine ⟨tracked.freshFirst input, List.mem_append_right _ (List.mem_append_left _ ?_), rfl,
      ready.1.1.1.1.1.1.1,
      ready.1.1.1.1.1.1.2, rfl, rfl⟩
    rw [if_pos ready.1.2]
    exact List.mem_singleton_self _
  | second =>
    simp only [Backend.selectReady, Backend.ready, Bool.and_eq_true] at ready
    refine ⟨tracked.freshSecond input, List.mem_append_right _ (List.mem_append_right _ ?_), rfl,
      ready.1.1.1.1.1.1.1,
      ready.1.1.1.1.1.1.2, rfl, rfl⟩
    rw [if_pos ready.1.2]
    exact List.mem_singleton_self _

/-- Whatever is issued is driven, for every source it uses, with the value that the older
instructions leave in that register. -/
theorem issued_reads (tracks : Tracks tracked past length free)
    (units : FunctionUnits tracked input.toRcuInput) {issued : Issued}
    (member : issued ∈ tracked.backend.issues input.toRcuInput) :
    ∃ older op younger, tracked.inFlight input.toRcuInput = older ++ op :: younger ∧
      op.robIndex = issued.robIndex ∧
      (op.instruction.usesRs1 = true →
        Write.replay (fun _ => some 0) (past ++ older.map InFlight.write)
          op.instruction.rs1Address = some issued.rs1Data) ∧
      (op.instruction.usesRs2 = true →
        Write.replay (fun _ => some 0) (past ++ older.map InFlight.write)
          op.instruction.rs2Address = some issued.rs2Data) := by
  obtain ⟨op, inside, slot, ready1, ready2, data1, data2⟩ := tracks.issued_inFlight member
  obtain ⟨older, younger, split⟩ := List.append_of_mem inside
  have linked := tracks.linked_inFlight input.toRcuInput
  rw [split, List.map_append, List.map_cons, linked_append] at linked
  obtain ⟨prs1, prs2, -, -⟩ := linked.2
  -- Both sources go through the same map, that of the older instructions.
  have driven : ∀ (uses : Bool) (name : ArchReg) (register : PhyReg) (data : Word),
      register = (if uses then Renaming.apply tracked.backend.rcu.renameRegBackup
        ((older.map InFlight.pair).map fun pair => pair.1.renaming) name else 0) →
      tracked.backend.realAvailable input.toRcuInput register = true →
      data = tracked.backend.operand input.toRcuInput register → uses = true →
      Write.replay (fun _ => some 0) (past ++ older.map InFlight.write) name = some data := by
    intro uses name register data named ready drives used
    rw [used, if_pos rfl] at named
    rw [named] at ready drives
    rw [drives]
    exact tracks.read units split name ready
  exact ⟨older, op, younger, split, slot, driven _ _ _ _ prs1 ready1 data1,
    driven _ _ _ _ prs2 ready2 data2⟩

end Tracks

/-- A slot as the observer sees it after a cycle. -/
def observedAt (tracked : Tracked) (index : RobIndex) : InFlight :=
  ⟨index, tracked.source index, tracked.backend.rcu.rob index, tracked.result index⟩

/-- The instructions in flight in a cycle, read off the state behind it. -/
theorem Tracks.inFlight_window (tracks : Tracks tracked past length free) :
    tracked.inFlight input.toRcuInput =
      window (tracked.step input).observedAt tracked.backend.rcu.cmtRobIndex
        (length + amount (tracked.backend.rcu.doRobWriteFirst input.toRcuInput)
          (tracked.backend.rcu.doRobWriteSecond input.toRcuInput)) := by
  have array : (tracked.step input).observedAt =
      tracked.backend.rcu.dispatchInto input.toRcuInput (tracked.stored input.toRcuInput)
        (tracked.freshFirst input.toRcuInput) (tracked.freshSecond input.toRcuInput) := by
    funext index
    simp only [observedAt, step, Backend.step, Rcu.step, Rcu.dispatchInto, writeIf_apply]
    split_ifs with second first
    · simp only [second.2]
      rfl
    · simp only [first.2]
      rfl
    · rfl
  rw [tracks.inFlight_eq, array, Rcu.dispatchInto_eq tracks.sound.window, tracks.sound.window.tail,
    Holds.window_writeQueue _ _ _ _ _ _ _ (tracks.sound.window.write_room input.toRcuInput)]
  rfl

/-- The observer's arrays after a cycle, as one array written by the dispatch ports. -/
theorem step_write (tracked : Tracked) (input : BackendInput) :
    (tracked.step input).write (tracked.step input).result =
      tracked.backend.rcu.dispatchInto input.toRcuInput
        (tracked.write (tracked.currentResult input.toRcuInput))
        (tracked.freshFirst input.toRcuInput).write (tracked.freshSecond input.toRcuInput).write := by
  funext index
  simp only [write, step, Backend.step, Rcu.step, Rcu.dispatchInto, writeIf_apply]
  split_ifs <;> rfl

theorem step_pairAt (tracked : Tracked) (input : BackendInput) :
    (tracked.step input).pairAt =
      tracked.backend.rcu.dispatchInto input.toRcuInput tracked.pairAt
        (tracked.backend.rcu.entryFirst input.toRcuInput, input.offer.first)
        (tracked.backend.rcu.entrySecond input.toRcuInput, input.offer.second) := by
  funext index
  simp only [pairAt, step, Backend.step, Rcu.step, Rcu.dispatchInto, writeIf_apply]
  split_ifs <;> rfl

/-- The two stages of the first port are of different classes. -/
theorem step_exclusive (backend : Backend) (input : BackendInput) :
    ¬ ((backend.step input).issue.alu1.valid = true ∧
      (backend.step input).issue.csr.valid = true) := by
  simp only [Backend.step, Backend.loadStage]
  cases backend.selectFirst input.toRcuInput with
  | none => simp
  | some issued => cases csr : issued.entry.isCsr <;> simp [csr]

/-- Giving out registers only takes ready bits away. -/
theorem availableNext_done (zeroReady : tracked.backend.issue.availableTable 0 = true)
    {register : PhyReg} (available : tracked.backend.availableNext input register = true) :
    tracked.backend.availableDone input register = true := by
  have zero : tracked.backend.availableDone input 0 = true :=
    (availableDone_iff _ _ _).mpr (Or.inl zeroReady)
  simp only [Backend.availableNext, writeIf_apply] at available
  split_ifs at available with second first
  · rw [second.2, beq_iff_eq.mp available]
    exact zero
  · rw [first.2, beq_iff_eq.mp available]
    exact zero
  · exact available

theorem availableNext_zero (zeroReady : tracked.backend.issue.availableTable 0 = true) :
    tracked.backend.availableNext input 0 = true := by
  have zero : tracked.backend.availableDone input 0 = true :=
    (availableDone_iff _ _ _).mpr (Or.inl zeroReady)
  simp only [Backend.availableNext, writeIf_apply]
  split_ifs with second first
  · simp [← second.2]
  · simp [← first.2]
  · exact zero

/-- A register given out is not ready afterwards. -/
theorem availableNext_fresh {entry : RobEntry}
    (member : entry ∈ Rcu.dispatched tracked.backend.rcu input.toRcuInput)
    (nonzero : entry.prd ≠ 0) : tracked.backend.availableNext input entry.prd = false := by
  simp only [Backend.availableNext, writeIf_apply]
  unfold Rcu.dispatched accepted at member
  split_ifs with second first
  · rw [← second.2]
    simpa using nonzero
  · rw [← first.2]
    simpa using nonzero
  · rcases List.mem_append.mp member with inside | inside
    · split at inside
      · rename_i write
        exact absurd ⟨write, congrArg RobEntry.prd (List.mem_singleton.mp inside)⟩ first
      · cases inside
    · split at inside
      · rename_i write
        exact absurd ⟨write, congrArg RobEntry.prd (List.mem_singleton.mp inside)⟩ second
      · cases inside

namespace Tracks

/-- The committed writes are the retiring slots of the window. -/
theorem commits_eq (input : RcuInput)
    (quiet : tracked.backend.rcu.globalSpeculateFault input = false) :
    tracked.commits input =
      window (tracked.write (tracked.currentResult input)) tracked.backend.rcu.cmtRobIndex
        (amount (tracked.backend.rcu.doRobCommitFirst input)
          (tracked.backend.rcu.doRobCommitSecond input)) := by
  have ordered := Rcu.commit_ordered tracked.backend.rcu input
  rw [commits, quiet]
  cases first : tracked.backend.rcu.doRobCommitFirst input <;>
    cases second : tracked.backend.rcu.doRobCommitSecond input <;>
    simp_all [accepted, amount, window, slots, Rcu.cmtRobIndexSecond, secondLine_eq_advance]

theorem commits_renamings (tracks : Tracks tracked past length free) (input : RcuInput)
    (quiet : tracked.backend.rcu.globalSpeculateFault input = false) :
    (tracked.commits input).map Write.toRenaming =
      (Rcu.retiring tracked.backend.rcu input).map RobEntry.renaming := by
  have leave := tracks.sound.window.commit_room input
  rw [commits_eq input quiet, Rcu.retiring_eq, window, window, List.map_map, List.map_map]
  apply List.map_congr_left
  intro index member
  have inside : index ∈ slots tracked.backend.rcu.cmtRobIndex length := by
    rw [← Nat.add_sub_cancel' leave, slots_take]
    exact List.mem_append_left _ member
  have named := tracks.linked.named (tracked.pairAt index) (List.mem_map_of_mem inside)
  change (tracked.backend.rcu.rob index).rd = (tracked.source index).destination at named
  simp only [Function.comp_apply, write, RobEntry.renaming, named]

/-- After the clock edge the window and the dispatched instructions carry their values. -/
theorem written (tracks : Tracks tracked past length free)
    (units : FunctionUnits tracked input.toRcuInput) :
    Write.Carries (tracked.backend.availableNext input) (tracked.backend.registersNext input)
      (Write.replay (fun _ => some 0) past) tracked.backend.rcu.renameRegBackup
      (window (tracked.write (tracked.currentResult input.toRcuInput))
          tracked.backend.rcu.cmtRobIndex length ++
        accepted (tracked.backend.rcu.doRobWriteFirst input.toRcuInput)
          (tracked.backend.rcu.doRobWriteSecond input.toRcuInput)
          (tracked.freshFirst input.toRcuInput).write
          (tracked.freshSecond input.toRcuInput).write) := by
  have carries := tracks.values.done units tracks.sound
  have sooner : ∀ register, tracked.backend.availableNext input register = true →
      tracked.backend.availableDone input register = true := fun register =>
    availableNext_done tracks.values.zeroReady
  refine ⟨fun name available => carries.committed name (sooner _ available),
    fun write member nonzero available => ?_⟩
  rcases List.mem_append.mp member with old | new
  · exact carries.pending write old nonzero (sooner _ available)
  · rw [← accepted_map InFlight.write] at new
    obtain ⟨op, inside, rfl⟩ := List.mem_map.mp new
    have entry : op.entry ∈ Rcu.dispatched tracked.backend.rcu input.toRcuInput := by
      have mapped := List.mem_map_of_mem (f := InFlight.entry) inside
      rw [accepted_map] at mapped
      exact mapped
    rw [show op.write.prd = op.entry.prd from rfl, availableNext_fresh entry nonzero] at available
    cases available

theorem step_quiet (tracks : Tracks tracked past length free)
    (units : FunctionUnits tracked input.toRcuInput)
    (quiet : tracked.backend.rcu.globalSpeculateFault input.toRcuInput = false) :
    ∃ length' free', Tracks (tracked.step input) (past ++ tracked.commits input.toRcuInput)
      length' free' := by
  have sound := Rcu.step_sound_quiet tracks.sound input.toRcuInput quiet
  have backup := Rcu.step_renameRegBackup tracked.backend.rcu input.toRcuInput quiet
  refine ⟨_, _, sound, ?_, ⟨?_, availableNext_zero tracks.values.zeroReady,
    registersNext_zero _ _ tracks.values.zeroCell, step_exclusive _ _⟩⟩
  · have linked := tracks.linked_dispatch input.toRcuInput
    rw [← Rcu.step_array tracks.sound.window input.toRcuInput quiet, linked_append,
      window_renamings] at linked
    rw [step_pairAt]
    change Linked (tracked.backend.rcu.step input.toRcuInput).renameRegBackup _
    rw [backup, Rcu.retiring_eq]
    exact linked.2
  · have carries := tracks.written units
    rw [← Rcu.step_array tracks.sound.window input.toRcuInput quiet,
      ← commits_eq input.toRcuInput quiet] at carries
    have named : ∀ write ∈ tracked.commits input.toRcuInput, (write.rd = 0 ↔ write.prd = 0) := by
      intro write member
      have inside := List.mem_map_of_mem (f := Write.toRenaming) member
      rw [tracks.commits_renamings input.toRcuInput quiet] at inside
      apply tracks.sound.valid.chain.named write.toRenaming
      have prefixed := congrArg (List.map RobEntry.renaming)
        (Rcu.entries_split tracks.sound.window input.toRcuInput)
      rw [List.map_append] at prefixed
      rw [Rcu.renamings, prefixed]
      exact List.mem_append_left _ inside
    have committed := carries.commitAll tracks.sound.valid.zero named
    rw [tracks.commits_renamings input.toRcuInput quiet, ← backup, ← Write.replay_append,
      ← step_write] at committed
    exact committed

theorem step_fault (tracks : Tracks tracked past length free)
    (units : FunctionUnits tracked input.toRcuInput)
    (fault : tracked.backend.rcu.globalSpeculateFault input.toRcuInput = true) :
    ∃ length' free', Tracks (tracked.step input) (past ++ tracked.commits input.toRcuInput)
      length' free' := by
  have none : tracked.commits input.toRcuInput = [] := by simp [commits, fault]
  have kept : (tracked.step input).backend.rcu.renameRegBackup =
      tracked.backend.rcu.renameRegBackup := by
    simp [step, Backend.step, Rcu.step, fault]
  rw [none, List.append_nil]
  refine ⟨0, _, Rcu.step_sound_fault tracks.sound input.toRcuInput fault, trivial,
    ⟨⟨?_, by simp⟩, availableNext_zero tracks.values.zeroReady,
      registersNext_zero _ _ tracks.values.zeroCell, step_exclusive _ _⟩⟩
  rw [kept]
  exact (tracks.written units).committed

theorem step (units : FunctionUnits tracked input.toRcuInput)
    (tracks : ∃ length free, Tracks tracked past length free) :
    ∃ length free, Tracks (tracked.step input) (past ++ tracked.commits input.toRcuInput)
      length free := by
  obtain ⟨length, free, tracks⟩ := tracks
  cases fault : tracked.backend.rcu.globalSpeculateFault input.toRcuInput
  · exact tracks.step_quiet units fault
  · exact tracks.step_fault units fault

end Tracks

/-- Every cycle keeps the contract of the function units. -/
def Contract (tracked : Tracked) (input : BackendInput) : Prop :=
  FunctionUnits tracked input.toRcuInput

theorem run_tracks (inputs : List BackendInput) (obeys : machine.Obeys Contract inputs) :
    ∃ length free, Tracks (machine.run inputs)
      (machine.log (fun tracked input => tracked.commits input.toRcuInput) inputs) length free :=
  machine.obeys_invariant Contract _
    (fun tracked past => ∃ length free, Tracks tracked past length free)
    ⟨0, Rcu.physicalRegisters, reset_tracks⟩
    (fun _ _ _ units tracks => Tracks.step units tracks) inputs obeys

/-- The registers before an instruction in flight, executing everything older in program order
from reset. -/
def registersBefore (inputs : List BackendInput) (older : List InFlight) :
    ArchReg → Option Word :=
  Write.replay (fun _ => some 0)
    (machine.log (fun tracked input => tracked.commits input.toRcuInput) inputs ++
      older.map InFlight.write)

theorem registersBefore_zero (inputs : List BackendInput) (older : List InFlight) :
    registersBefore inputs older 0 = some 0 := Write.replay_zero _ _

/-- Whatever is issued is driven, for every source it uses, with the value that the older
instructions in program order leave in that register, and with zero for `x0`. -/
theorem operands_follow_program_order (inputs : List BackendInput) (input : BackendInput)
    (obeys : machine.Obeys Contract (inputs ++ [input])) :
    ∀ issued ∈ (machine.run inputs).backend.issues input.toRcuInput,
      ∃ older op younger, (machine.run inputs).inFlight input.toRcuInput = older ++ op :: younger ∧
        op.robIndex = issued.robIndex ∧
        (op.instruction.usesRs1 = true →
          registersBefore inputs older op.instruction.rs1Address = some issued.rs1Data ∧
          (op.instruction.rs1Address = 0 → issued.rs1Data = 0)) ∧
        (op.instruction.usesRs2 = true →
          registersBefore inputs older op.instruction.rs2Address = some issued.rs2Data ∧
          (op.instruction.rs2Address = 0 → issued.rs2Data = 0)) := by
  obtain ⟨before, units⟩ := Synchronous.obeys_snoc.mp obeys
  obtain ⟨length, free, tracks⟩ := run_tracks inputs before
  intro issued member
  obtain ⟨older, op, younger, split, slot, first, second⟩ := tracks.issued_reads units member
  have zero : ∀ {name : ArchReg} {data : Word}, registersBefore inputs older name = some data →
      name = 0 → data = 0 := by
    intro name data value unnamed
    rw [unnamed, registersBefore_zero] at value
    exact (Option.some.inj value).symm
  refine ⟨older, op, younger, split, slot, fun uses => ?_, fun uses => ?_⟩
  · exact ⟨first uses, zero (first uses)⟩
  · exact ⟨second uses, zero (second uses)⟩

/-- An addition of two registers, or of one register with itself. -/
def addition (rd rs : ArchReg) : Decoded :=
  { Decoded.blank with
    isAlu := true, usesRd := true, rdAddress := rd, usesRs1 := true, rs1Address := rs,
    usesRs2 := true, rs2Address := rs }

/-- A cycle that dispatches one instruction, with the given completion of the first unit. -/
def dispatching (instruction : Decoded) (alu1 : FuDone) : BackendInput where
  globalWfi := false
  globalTrap := false
  globalRet := false
  offer := ⟨true, false, instruction, Decoded.blank, by simp⟩
  alu1 := ⟨alu1, false, false, 0⟩
  alu2 := ⟨FuDone.quiet, false, false, 0⟩
  lsu := ⟨FuDone.quiet, 0⟩
  md := FuDone.quiet
  csru := FuDone.quiet
  mdReady := false
  lsuReady := false

def firstAddition : BackendInput := dispatching (addition 1 0) FuDone.quiet

/-- The first addition completes while one that depends on it is dispatched. -/
def secondAddition : BackendInput := dispatching (addition 2 1) ⟨true, 0, 1, 5, false, 0⟩

theorem additions_obey : machine.Obeys Contract ([firstAddition] ++ [secondAddition]) := by
  have first : machine.Obeys Contract ([] ++ [firstAddition]) := by
    refine Synchronous.obeys_snoc.mpr ⟨Synchronous.obeys_nil _ _, ?_⟩
    refine ⟨fun completion member done => ?_, by decide +kernel, by decide +kernel,
      by decide +kernel⟩
    simp only [RcuInput.completions, List.mem_cons, List.not_mem_nil, or_false] at member
    rcases member with rfl | rfl | rfl | rfl | rfl <;> cases done
  refine Synchronous.obeys_snoc.mpr ⟨first, ?_⟩
  refine ⟨fun completion member done => ?_, by decide +kernel, by decide +kernel, by decide +kernel⟩
  simp only [RcuInput.completions, List.mem_cons, List.not_mem_nil, or_false] at member
  rcases member with rfl | rfl | rfl | rfl | rfl
  · exact ⟨⟨by decide +kernel, by decide +kernel, by decide +kernel⟩, by decide +kernel⟩
  all_goals cases done

/-- The dependent addition is issued as it is dispatched, with the completing value. -/
theorem operands_follow_program_order_bypass :
    ((machine.run [firstAddition]).backend.issues secondAddition.toRcuInput).map Issued.rs1Data =
        [5] ∧
      ∀ issued ∈ (machine.run [firstAddition]).backend.issues secondAddition.toRcuInput,
        ∃ older op younger,
          (machine.run [firstAddition]).inFlight secondAddition.toRcuInput =
            older ++ op :: younger ∧
          op.robIndex = issued.robIndex ∧
          (op.instruction.usesRs1 = true →
            registersBefore [firstAddition] older op.instruction.rs1Address =
              some issued.rs1Data) := by
  refine ⟨by decide +kernel, fun issued member => ?_⟩
  obtain ⟨older, op, younger, split, slot, first, -⟩ :=
    operands_follow_program_order [firstAddition] secondAddition additions_obey issued member
  exact ⟨older, op, younger, split, slot, fun uses => (first uses).1⟩

end Tracked

end GreenRio
