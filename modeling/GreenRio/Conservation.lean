import GreenRio.Renaming
import GreenRio.Synchronous
import GreenRio.Window

set_option autoImplicit false

namespace GreenRio

def RobEntry.renaming (entry : RobEntry) : Renaming 32 PhyReg :=
  ⟨entry.rd, entry.prd, entry.lprd⟩

namespace Rcu

open Circular Counter Fifo
open Renaming (live pending mapped)

/-- The runs of the unit from reset. -/
def machine : Synchronous Rcu RcuInput := ⟨reset, step⟩

/-- Every physical register but `p0`. -/
def physicalRegisters : List PhyReg :=
  (List.finRange 64).filter fun register => 1 ≤ register.val ∧ register.val ≤ 47

variable {rcu : Rcu} {length : Nat} {free : List PhyReg}

def renamings (rcu : Rcu) (length : Nat) : List (Renaming 32 PhyReg) :=
  (entries rcu length).map RobEntry.renaming

/-- The registers of the unit, read as a committed map, a window of pending renamings and the
registers still free. -/
structure Sound (rcu : Rcu) (length : Nat) (free : List PhyReg) : Prop where
  window : Window rcu length
  freeList : rcu.freeList.Contains (pending (renamings rcu length)) free
  valid : Renaming.Valid rcu.renameRegBackup (renamings rcu length) free physicalRegisters
  renamed : rcu.renameReg = Renaming.apply rcu.renameRegBackup (renamings rcu length)

theorem zero_not_physical : (0 : PhyReg) ∉ physicalRegisters := by decide

theorem reset_sound : Sound reset 0 physicalRegisters := by
  have all : Circular.window reset.freeList.fifoQueue 0 47 = physicalRegisters := by
    decide +kernel
  refine ⟨reset_window, ?_, ⟨rfl, trivial, ?_⟩, rfl⟩
  · rw [← all]
    exact FreeList.reset_contains _
  · have blank : mapped reset.renameRegBackup = [] := by decide +kernel
    rw [blank]
    exact List.Perm.refl _

theorem accepted_live (first second : Bool) (older younger : PhyReg) :
    accepted (first && older != 0) (second && younger != 0) older younger =
      live (accepted first second older younger) := by
  by_cases zero : older = 0 <;> by_cases zero' : younger = 0 <;> cases first <;> cases second <;>
    simp [accepted, live, zero, zero']

/-- The second instruction of a pair sees the names the first one leaves behind. -/
theorem nameSecond_eq (input : RcuInput) (unnamed : rcu.renameReg 0 = 0)
    (first : rcu.doRobWriteFirst input = true) (address : ArchReg) :
    rcu.nameSecond input address =
      writeIf (rcu.freeListRdFirstEn input) rcu.renameReg input.offer.first.rdAddress
        (rcu.freeListRdataFirst input) address := by
  have enable : rcu.freeListRdFirstEn input =
      (input.offer.first.usesRd && input.offer.first.rdAddress != 0) := by
    simp [freeListRdFirstEn, first]
  unfold nameSecond
  cases uses : input.offer.first.usesRd
  · simp [enable, uses]
  · by_cases zero : input.offer.first.rdAddress = 0
    · simp only [enable, uses, zero, Bool.true_and, bne_self_eq_false, Bool.false_eq_true,
        ↓reduceIte, and_true, freeListRdataFirst, FreeList.rdataFirst]
      split_ifs with same
      · rw [writeIf_false, same, unnamed]
      · rfl
    · simp [enable, uses, zero, writeIf_apply]

namespace Sound

theorem free_enough (sound : Sound rcu length free) (input : RcuInput) :
    amount (rcu.doRobWriteFirst input) (rcu.doRobWriteSecond input) ≤ free.length := by
  have room := sound.window.write_room input
  have total := sound.valid.storage_length_lt
  have size : physicalRegisters.length = 47 := by decide
  have window : (renamings rcu length).length = length := by simp [renamings, entries]
  omega

/-- Every dispatch finds the registers it takes. -/
theorem allocate_room (sound : Sound rcu length free) (input : RcuInput) :
    amount (rcu.freeListPorts input).rdFirstEn (rcu.freeListPorts input).rdSecondEn ≤
      free.length := by
  have enough := sound.free_enough input
  have fewer : amount (rcu.freeListPorts input).rdFirstEn (rcu.freeListPorts input).rdSecondEn ≤
      amount (rcu.doRobWriteFirst input) (rcu.doRobWriteSecond input) := by
    change amount (rcu.freeListRdFirstEn input) (rcu.freeListRdSecondEn input) ≤ _
    rw [freeListRdFirstEn, freeListRdSecondEn, Bool.and_assoc, Bool.and_assoc]
    exact amount_and_le _ _ _ _
  omega

theorem unnamed (sound : Sound rcu length free) : rcu.renameReg 0 = 0 := by
  rw [sound.renamed]
  exact sound.valid.chain.apply_zero sound.valid.zero

theorem free_front (sound : Sound rcu length free) (input : RcuInput)
    (enable : rcu.freeListRdFirstEn input = true) :
    ∃ rest, free = rcu.freeListRdataFirst input :: rest := by
  have enough := sound.free_enough input
  have write : rcu.doRobWriteFirst input = true := by
    simp only [freeListRdFirstEn, Bool.and_eq_true] at enable
    exact enable.1.1
  rcases free with _ | ⟨register, rest⟩
  · simp [amount, write] at enough
  · refine ⟨rest, ?_⟩
    rw [freeListRdataFirst, enable, sound.freeList.rdataFirst_eq]

theorem free_second (sound : Sound rcu length free) (input : RcuInput)
    (write : rcu.doRobWriteSecond input = true) (enable : rcu.freeListRdSecondEn input = true) :
    ∃ rest, free.drop (rcu.freeListRdFirstEn input).toNat =
      rcu.freeListRdataSecond input :: rest := by
  have enough := sound.free_enough input
  rw [sound.window.write_ordered input write, write] at enough
  rcases free with _ | ⟨register, _ | ⟨following, rest⟩⟩
  · simp [amount] at enough
  · simp [amount] at enough
  · rw [freeListRdataSecond, enable]
    cases rcu.freeListRdFirstEn input
    · exact ⟨following :: rest, by rw [sound.freeList.rdataSecond_alone]; rfl⟩
    · exact ⟨rest, by rw [sound.freeList.rdataSecond_eq]; rfl⟩

/-- The first dispatched instruction alone. -/
theorem dispatch_first (sound : Sound rcu length free) (input : RcuInput)
    (write : rcu.doRobWriteFirst input = true) :
    Renaming.Valid rcu.renameRegBackup
        (renamings rcu length ++ [(rcu.entryFirst input).renaming])
        (free.drop (rcu.freeListRdFirstEn input).toNat) physicalRegisters ∧
      pending [(rcu.entryFirst input).renaming] =
        free.take (rcu.freeListRdFirstEn input).toNat ∧
      Renaming.apply rcu.renameRegBackup
          (renamings rcu length ++ [(rcu.entryFirst input).renaming]) =
        writeIf (rcu.freeListRdFirstEn input) rcu.renameReg input.offer.first.rdAddress
          (rcu.freeListRdataFirst input) := by
  have enable : rcu.freeListRdFirstEn input =
      (input.offer.first.usesRd && input.offer.first.rdAddress != 0) := by
    simp [freeListRdFirstEn, write]
  have enabled : rcu.freeListRdFirstEn input = true ↔ (rcu.entryFirst input).renaming.rd ≠ 0 := by
    rw [enable]
    cases uses : input.offer.first.usesRd <;> simp [RobEntry.renaming, entryFirst, uses]
  have hides : (rcu.entryFirst input).renaming.lprd =
      Renaming.apply rcu.renameRegBackup (renamings rcu length)
        (rcu.entryFirst input).renaming.rd := by
    rw [← sound.renamed]
    cases uses : input.offer.first.usesRd <;>
      simp [RobEntry.renaming, entryFirst, uses, sound.unnamed]
  obtain ⟨valid, taken, current⟩ :=
    sound.valid.dispatch zero_not_physical enabled rfl hides (sound.free_front input)
  refine ⟨valid, taken, ?_⟩
  rw [current, ← sound.renamed]
  cases uses : input.offer.first.usesRd
  · simp [enable, uses]
  · simp [writeIf, RobEntry.renaming, entryFirst, uses]

/-- The second instruction behind the first, with the names the first one leaves. -/
theorem dispatch_second (sound : Sound rcu length free) (input : RcuInput)
    (write : rcu.doRobWriteSecond input = true) :
    Renaming.Valid rcu.renameRegBackup
        (renamings rcu length ++ [(rcu.entryFirst input).renaming] ++
          [(rcu.entrySecond input).renaming])
        ((free.drop (rcu.freeListRdFirstEn input).toNat).drop
          (rcu.freeListRdSecondEn input).toNat) physicalRegisters ∧
      pending [(rcu.entrySecond input).renaming] =
        (free.drop (rcu.freeListRdFirstEn input).toNat).take
          (rcu.freeListRdSecondEn input).toNat ∧
      Renaming.apply rcu.renameRegBackup
          (renamings rcu length ++ [(rcu.entryFirst input).renaming] ++
            [(rcu.entrySecond input).renaming]) =
        writeIf (rcu.freeListRdSecondEn input)
          (writeIf (rcu.freeListRdFirstEn input) rcu.renameReg input.offer.first.rdAddress
            (rcu.freeListRdataFirst input)) input.offer.second.rdAddress
          (rcu.freeListRdataSecond input) := by
  have writeFirst := sound.window.write_ordered input write
  obtain ⟨valid, -, current⟩ := sound.dispatch_first input writeFirst
  have enable : rcu.freeListRdSecondEn input =
      (input.offer.second.usesRd && input.offer.second.rdAddress != 0) := by
    simp [freeListRdSecondEn, write]
  have enabled : rcu.freeListRdSecondEn input = true ↔
      (rcu.entrySecond input).renaming.rd ≠ 0 := by
    rw [enable]
    cases uses : input.offer.second.usesRd <;> simp [RobEntry.renaming, entrySecond, uses]
  have unnamed := valid.chain.apply_zero valid.zero
  have hides : (rcu.entrySecond input).renaming.lprd =
      Renaming.apply rcu.renameRegBackup (renamings rcu length ++
        [(rcu.entryFirst input).renaming]) (rcu.entrySecond input).renaming.rd := by
    cases uses : input.offer.second.usesRd
    · simpa only [RobEntry.renaming, entrySecond, uses, Bool.false_eq_true, ↓reduceIte] using
        unnamed.symm
    · rw [current]
      simpa [RobEntry.renaming, entrySecond, uses] using
        nameSecond_eq input sound.unnamed writeFirst _
  obtain ⟨valid', taken', current'⟩ :=
    valid.dispatch zero_not_physical enabled rfl hides (sound.free_second input write)
  refine ⟨valid', taken', ?_⟩
  rw [current', current]
  cases uses : input.offer.second.usesRd
  · simp [enable, uses]
  · simp [writeIf, RobEntry.renaming, entrySecond, uses]

/-- The dispatched instructions take their registers from the front of the free list, and the
speculative map follows them. -/
theorem dispatch (sound : Sound rcu length free) (input : RcuInput) :
    Renaming.Valid rcu.renameRegBackup
        (renamings rcu length ++ (dispatched rcu input).map RobEntry.renaming)
        (free.drop (amount (rcu.freeListRdFirstEn input) (rcu.freeListRdSecondEn input)))
        physicalRegisters ∧
      pending ((dispatched rcu input).map RobEntry.renaming) =
        free.take (amount (rcu.freeListRdFirstEn input) (rcu.freeListRdSecondEn input)) ∧
      Renaming.apply rcu.renameRegBackup
          (renamings rcu length ++ (dispatched rcu input).map RobEntry.renaming) =
        writeIf (rcu.freeListRdSecondEn input)
          (writeIf (rcu.freeListRdFirstEn input) rcu.renameReg input.offer.first.rdAddress
            (rcu.freeListRdataFirst input)) input.offer.second.rdAddress
          (rcu.freeListRdataSecond input) := by
  have ordered := sound.window.write_ordered input
  cases writeSecond : rcu.doRobWriteSecond input
  · have idle : rcu.freeListRdSecondEn input = false := by
      simp [freeListRdSecondEn, writeSecond]
    cases writeFirst : rcu.doRobWriteFirst input
    · have idle' : rcu.freeListRdFirstEn input = false := by simp [freeListRdFirstEn, writeFirst]
      simpa [dispatched, accepted, writeFirst, writeSecond, idle, idle', amount, sound.renamed]
        using sound.valid
    · have one := sound.dispatch_first input writeFirst
      simpa only [dispatched, accepted, writeFirst, writeSecond, idle, amount, writeIf_false,
        Bool.false_eq_true, ↓reduceIte, List.append_nil, List.map_cons, List.map_nil,
        Bool.toNat_false, Nat.add_zero] using one
  · have writeFirst := ordered writeSecond
    obtain ⟨-, taken, -⟩ := sound.dispatch_first input writeFirst
    obtain ⟨valid, taken', current⟩ := sound.dispatch_second input writeSecond
    simp only [dispatched, accepted, writeFirst, writeSecond, amount, ↓reduceIte,
      List.singleton_append, List.map_cons, List.map_nil]
    refine ⟨?_, ?_, ?_⟩
    · simpa only [List.append_assoc, List.singleton_append, List.drop_drop] using valid
    · rw [← List.singleton_append, Renaming.pending_append, taken, taken', List.take_add]
    · simpa only [List.append_assoc, List.singleton_append] using current

end Sound

/-- What the retiring entries do to the committed map. -/
theorem step_renameRegBackup (rcu : Rcu) (input : RcuInput)
    (quiet : rcu.globalSpeculateFault input = false) :
    (rcu.step input).renameRegBackup =
      Renaming.apply rcu.renameRegBackup ((retiring rcu input).map RobEntry.renaming) := by
  have ordered := commit_ordered rcu input
  cases first : rcu.doRobCommitFirst input <;> cases second : rcu.doRobCommitSecond input <;>
    simp_all [step, retiring, accepted, RobEntry.renaming]

/-- The slow read port moves past the registers the retiring entries were given. -/
theorem slow_amount (rcu : Rcu) (input : RcuInput)
    (quiet : rcu.globalSpeculateFault input = false) :
    amount (rcu.freeListPorts input).rdExcepFirstEn (rcu.freeListPorts input).rdExcepSecondEn =
      (pending ((retiring rcu input).map RobEntry.renaming)).length := by
  rw [pending, retiring, accepted_map, accepted_map, ← accepted_live, accepted_length]
  simp [freeListPorts, quiet, RobEntry.renaming]

/-- The write ports receive the registers the retiring entries have hidden. -/
theorem released_eq (rcu : Rcu) (input : RcuInput)
    (quiet : rcu.globalSpeculateFault input = false) :
    accepted (rcu.freeListPorts input).wrFirstEn (rcu.freeListPorts input).wrSecondEn
        (rcu.freeListPorts input).wdataFirst (rcu.freeListPorts input).wdataSecond =
      live (((retiring rcu input).map RobEntry.renaming).map Renaming.lprd) := by
  rw [retiring, accepted_map, accepted_map, ← accepted_live]
  simp [freeListPorts, quiet, RobEntry.renaming]

theorem step_sound_fault (sound : Sound rcu length free) (input : RcuInput)
    (fault : rcu.globalSpeculateFault input = true) :
    Sound (rcu.step input) 0 (pending (renamings rcu length) ++ free) := by
  have kept : (rcu.step input).renameRegBackup = rcu.renameRegBackup := by simp [step, fault]
  refine ⟨step_window_fault rcu input fault, ?_, ?_, ?_⟩
  · have back := sound.freeList.rollback (rcu.freeListPorts input)
      ⟨by simp [freeListPorts, fault], by simp [freeListPorts, fault],
        by simp [freeListPorts, fault], by simp [freeListPorts, fault]⟩
    simpa [step, fault, renamings, entries] using back
  · rw [kept]
    exact sound.valid.rollback
  · rw [kept]
    simp [step, fault, renamings, entries]

theorem step_sound_quiet (sound : Sound rcu length free) (input : RcuInput)
    (quiet : rcu.globalSpeculateFault input = false) :
    Sound (rcu.step input)
      (length - amount (rcu.doRobCommitFirst input) (rcu.doRobCommitSecond input) +
        amount (rcu.doRobWriteFirst input) (rcu.doRobWriteSecond input))
      (free.drop (amount (rcu.freeListRdFirstEn input) (rcu.freeListRdSecondEn input)) ++
        live (((retiring rcu input).map RobEntry.renaming).map Renaming.lprd)) := by
  obtain ⟨valid, taken, current⟩ := sound.dispatch input
  have window := step_window sound.window input quiet
  have moved := congrArg (List.map RobEntry.renaming) (step_entries sound.window input quiet)
  have prefixed := congrArg (List.map RobEntry.renaming) (entries_split sound.window input)
  generalize (length - amount (rcu.doRobCommitFirst input) (rcu.doRobCommitSecond input) +
    amount (rcu.doRobWriteFirst input) (rcu.doRobWriteSecond input)) = length' at *
  rw [List.map_append, List.map_append] at moved
  rw [List.map_append] at prefixed
  change _ ++ renamings (rcu.step input) length' = renamings rcu length ++ _ at moved
  change renamings rcu length = _ at prefixed
  have committed := step_renameRegBackup rcu input quiet
  rw [← moved] at valid current
  have valid' := valid.commitAll
  rw [← committed] at valid'
  have held : pending (renamings (rcu.step input) length') =
      (pending (renamings rcu length)).drop (amount (rcu.freeListPorts input).rdExcepFirstEn
          (rcu.freeListPorts input).rdExcepSecondEn) ++
        free.take (amount (rcu.freeListRdFirstEn input) (rcu.freeListRdSecondEn input)) := by
    have same := congrArg pending moved
    rw [Renaming.pending_append, Renaming.pending_append, taken] at same
    rw [slow_amount rcu input quiet, ← List.drop_append_of_le_length, ← same, List.drop_left]
    rw [prefixed, Renaming.pending_append, List.length_append]
    exact Nat.le_add_right _ _
  refine ⟨window, ?_, valid', ?_⟩
  · have commits : amount (rcu.freeListPorts input).rdExcepFirstEn
        (rcu.freeListPorts input).rdExcepSecondEn ≤ (pending (renamings rcu length)).length := by
      rw [slow_amount rcu input quiet, prefixed, Renaming.pending_append, List.length_append]
      exact Nat.le_add_right _ _
    have allocates : amount (rcu.freeListRdFirstEn input) (rcu.freeListRdSecondEn input) ≤
        free.length := sound.allocate_room input
    have room : (pending (renamings rcu length)).length -
          amount (rcu.freeListPorts input).rdExcepFirstEn
            (rcu.freeListPorts input).rdExcepSecondEn + free.length +
        amount (rcu.freeListPorts input).wrFirstEn (rcu.freeListPorts input).wrSecondEn ≤ 47 := by
      have total := valid'.partition.length_eq
      have size : physicalRegisters.length = 47 := by decide
      have released := congrArg List.length (released_eq rcu input quiet)
      rw [accepted_length] at released
      rw [held] at total
      simp only [List.length_append, List.length_drop, List.length_take, ← released, size] at total
      omega
    have stepped := sound.freeList.step (rcu.freeListPorts input) allocates commits room
    rw [released_eq rcu input quiet] at stepped
    rw [held]
    change (rcu.freeList.step (rcu.globalSpeculateFault input) _).Contains _ _
    rw [quiet]
    exact stepped
  · rw [committed, ← Renaming.apply_append, current]
    simp only [step, quiet, Bool.false_eq_true, ↓reduceIte]

theorem step_sound (input : RcuInput) (sound : ∃ length free, Sound rcu length free) :
    ∃ length free, Sound (rcu.step input) length free := by
  obtain ⟨length, free, sound⟩ := sound
  cases fault : rcu.globalSpeculateFault input
  · exact ⟨_, _, step_sound_quiet sound input fault⟩
  · exact ⟨_, _, step_sound_fault sound input fault⟩

theorem run_sound (inputs : List RcuInput) :
    ∃ length free, Sound (machine.run inputs) length free :=
  machine.run_invariant (fun rcu => ∃ length free, Sound rcu length free)
    ⟨0, physicalRegisters, reset_sound⟩ (fun _ input => step_sound input) inputs

/-- The entries that update the committed state in one cycle; a flush lets none through. -/
def committed (rcu : Rcu) (input : RcuInput) : List RobEntry :=
  if rcu.globalSpeculateFault input then [] else retiring rcu input

theorem step_committed (rcu : Rcu) (input : RcuInput) :
    (rcu.step input).renameRegBackup =
      Renaming.apply rcu.renameRegBackup ((committed rcu input).map RobEntry.renaming) := by
  cases fault : rcu.globalSpeculateFault input
  · simpa [committed, fault] using step_renameRegBackup rcu input fault
  · simp [committed, fault, step]

/-- The committed map is the result of the committed instructions alone. -/
theorem run_renameRegBackup (inputs : List RcuInput) :
    (machine.run inputs).renameRegBackup =
      Renaming.apply (fun _ => 0) ((machine.log committed inputs).map RobEntry.renaming) := by
  apply machine.log_invariant committed
    (fun rcu past => rcu.renameRegBackup =
      Renaming.apply (fun _ => 0) (past.map RobEntry.renaming))
  · rfl
  · intro rcu past input same
    rw [List.map_append, Renaming.apply_append, ← same]
    exact step_committed rcu input

/-- The registers from the read pointer of the free list to its write pointer. -/
def freeRegisters (rcu : Rcu) : List PhyReg :=
  window rcu.freeList.fifoQueue rcu.freeList.rdLine
    (fifoNum rcu.freeList.wrLine rcu.freeList.rdLine rcu.freeList.fifoRecount)

/-- The registers given to the entries in use. -/
def inFlightRegisters (rcu : Rcu) : List PhyReg := live ((inUse rcu).map RobEntry.prd)

theorem Sound.freeRegisters_eq (sound : Sound rcu length free) : freeRegisters rcu = free := by
  rw [freeRegisters, sound.freeList.fast.fifoNum_eq, sound.freeList.fast.cells]

theorem Sound.inFlightRegisters_eq (sound : Sound rcu length free) :
    inFlightRegisters rcu = pending (renamings rcu length) := by
  rw [inFlightRegisters, sound.window.inUse_eq, pending, renamings, List.map_map]
  rfl

theorem Sound.committed_named (sound : Sound rcu length free) (input : RcuInput) :
    ∀ entry ∈ committed rcu input, (entry.rd = 0 ↔ entry.prd = 0) := by
  intro entry member
  have inside : entry ∈ entries rcu length := by
    rw [entries_split sound.window input]
    apply List.mem_append_left
    unfold committed at member
    split at member
    · cases member
    · exact member
  exact sound.valid.chain.named entry.renaming (List.mem_map_of_mem inside)

theorem run_committed_named (inputs : List RcuInput) :
    ∀ entry ∈ machine.log committed inputs, (entry.rd = 0 ↔ entry.prd = 0) := by
  have both := machine.log_invariant committed
    (fun rcu past => (∃ length free, Sound rcu length free) ∧
      ∀ entry ∈ past, (entry.rd = 0 ↔ entry.prd = 0))
    ⟨⟨0, physicalRegisters, reset_sound⟩, by simp⟩
    (by
      rintro rcu past input ⟨⟨length, free, sound⟩, named⟩
      refine ⟨step_sound input ⟨length, free, sound⟩, fun entry member => ?_⟩
      rcases List.mem_append.mp member with old | fresh
      · exact named entry old
      · exact sound.committed_named input entry fresh) inputs
  exact both.2

/-- The registers that the retiring entries release are not in the free list yet. -/
theorem Sound.release_room (sound : Sound rcu length free) (input : RcuInput) :
    free.length + amount (rcu.freeListPorts input).wrFirstEn (rcu.freeListPorts input).wrSecondEn ≤
      47 := by
  have size : physicalRegisters.length = 47 := by decide
  cases fault : rcu.globalSpeculateFault input
  · have valid := sound.valid
    have prefixed := congrArg (List.map RobEntry.renaming) (entries_split sound.window input)
    rw [List.map_append] at prefixed
    rw [renamings, prefixed] at valid
    have total := valid.commitAll.partition.length_eq
    rw [← released_eq rcu input fault] at total
    simp only [List.length_append, accepted_length, size] at total
    omega
  · have total := sound.valid.partition.length_eq
    simp only [List.length_append, size] at total
    simp only [freeListPorts, fault, Bool.not_true, Bool.and_false, amount, Bool.toNat_false]
    omega

/-- `fifo_num_o` of the free list. -/
def freeListNum (rcu : Rcu) : Nat :=
  fifoNum rcu.freeList.wrLine rcu.freeList.rdLine rcu.freeList.fifoRecount

/-- The physical registers that neither the committed map nor an entry in use holds. -/
def unheldRegisters (rcu : Rcu) : List PhyReg :=
  physicalRegisters.filter fun register =>
    register ∉ mapped rcu.renameRegBackup ++ inFlightRegisters rcu

theorem Sound.unheldRegisters_perm (sound : Sound rcu length free) :
    (unheldRegisters rcu).Perm free := by
  have partition := sound.valid.partition
  rw [← sound.inFlightRegisters_eq] at partition
  have apart : physicalRegisters.Nodup := by decide
  have nodup := partition.nodup_iff.mpr apart
  rw [List.nodup_append] at nodup
  rw [unheldRegisters]
  refine (partition.symm.filter _).trans ?_
  have none : (mapped rcu.renameRegBackup ++ inFlightRegisters rcu).filter (fun register =>
      register ∉ mapped rcu.renameRegBackup ++ inFlightRegisters rcu) = [] := by
    rw [List.filter_eq_nil_iff]
    intro register member
    simpa using fun outside => (List.mem_append.mp member).resolve_left outside
  have all : free.filter (fun register =>
      register ∉ mapped rcu.renameRegBackup ++ inFlightRegisters rcu) = free := by
    rw [List.filter_eq_self]
    intro register member
    exact decide_eq_true fun held => nodup.2.2 register held register member rfl
  rw [List.filter_append, none, all, List.nil_append]

/-- The free list neither underflows nor overflows: a cycle takes no more registers than it has
and returns no more than fit, and its count is the number of registers nothing holds. -/
theorem free_list_bounded (inputs : List RcuInput) (input : RcuInput) :
    amount ((machine.run inputs).freeListPorts input).rdFirstEn
          ((machine.run inputs).freeListPorts input).rdSecondEn ≤
        freeListNum (machine.run inputs) ∧
      freeListNum (machine.run inputs) +
          amount ((machine.run inputs).freeListPorts input).wrFirstEn
            ((machine.run inputs).freeListPorts input).wrSecondEn ≤ 47 ∧
      freeListNum (machine.run inputs) = (unheldRegisters (machine.run inputs)).length := by
  obtain ⟨length, free, sound⟩ := run_sound inputs
  have count : freeListNum (machine.run inputs) = free.length :=
    sound.freeList.fast.fifoNum_eq
  rw [count]
  exact ⟨sound.allocate_room input, sound.release_room input,
    sound.unheldRegisters_perm.length_eq.symm⟩

/-- After every run, each physical register but `p0` is exactly once either named by the
committed map, given to an entry in use, or free; and the committed map names one for exactly the
architectural registers some committed instruction has written. -/
theorem physical_registers_conserved (inputs : List RcuInput) :
    (mapped (machine.run inputs).renameRegBackup ++ inFlightRegisters (machine.run inputs) ++
        freeRegisters (machine.run inputs)).Perm physicalRegisters ∧
      ∀ register, (machine.run inputs).renameRegBackup register ≠ 0 ↔
        register ≠ 0 ∧ ∃ entry ∈ machine.log committed inputs, entry.rd = register := by
  constructor
  · obtain ⟨length, free, sound⟩ := run_sound inputs
    rw [sound.freeRegisters_eq, sound.inFlightRegisters_eq]
    exact sound.valid.partition
  · intro register
    have named := run_committed_named inputs
    rw [run_renameRegBackup, Renaming.apply_ne_zero_iff]
    · simp [RobEntry.renaming]
    · intro rename member
      obtain ⟨entry, past, rfl⟩ := List.mem_map.mp member
      exact named entry past

end Rcu

end GreenRio
