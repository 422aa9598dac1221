import GreenRio.Conservation

set_option autoImplicit false

namespace GreenRio.Rcu

open Circular Counter Fifo
open Renaming (live pending)

variable {rcu : Rcu} {length : Nat} {free : List PhyReg}

/-- The free list after one instruction by itself: it allocates its register on both read ports
and releases the one it hides. -/
def commitAlone (list : FreeList 47 PhyReg) (entry : RobEntry) : FreeList 47 PhyReg :=
  list.step false
    { wrFirstEn := entry.lprd != 0
      wrSecondEn := false
      rdFirstEn := entry.prd != 0
      rdSecondEn := false
      wdataFirst := entry.lprd
      wdataSecond := 0
      rdExcepFirstEn := entry.prd != 0
      rdExcepSecondEn := false }

/-- The free list the committed instructions alone would leave, starting from reset. -/
def committedFreeList (past : List RobEntry) : FreeList 47 PhyReg :=
  past.foldl commitAlone reset.freeList

/-- The array and pointers of the free list that only commits move. -/
def commitSide (list : FreeList 47 PhyReg) : (Fin 47 → PhyReg) × Fin 47 × Fin 47 :=
  (list.fifoQueue, list.wrLine, list.rdExcepLine)

/-- A pair of retiring entries moves them as the two entries one after the other. -/
theorem commitSide_step (rcu : Rcu) (input : RcuInput) (list : FreeList 47 PhyReg)
    (same : commitSide list = commitSide rcu.freeList) :
    commitSide ((committed rcu input).foldl commitAlone list) =
      commitSide (rcu.step input).freeList := by
  simp only [commitSide, Prod.mk.injEq] at same ⊢
  obtain ⟨queue, write, slow⟩ := same
  cases fault : rcu.globalSpeculateFault input
  · have ordered := commit_ordered rcu input
    cases first : rcu.doRobCommitFirst input <;> cases second : rcu.doRobCommitSecond input
    · simp [committed, retiring, accepted, fault, first, second, step, FreeList.step,
        freeListPorts, writeQueue, next_eq_advance, amount, queue, write, slow]
    · simp [first, second] at ordered
    · simp [committed, retiring, accepted, fault, first, second, step, FreeList.step,
        freeListPorts, commitAlone, writeQueue, next_eq_advance, amount, queue, write, slow]
    · cases zero : rcu.headFirst.lprd != 0 <;> cases zero' : rcu.headSecond.lprd != 0 <;>
        simp [committed, retiring, accepted, fault, first, second, step, FreeList.step,
          freeListPorts, commitAlone, writeQueue, next_eq_advance, amount, queue, write, slow,
          zero, zero', secondLine_eq_advance]
  · simp [committed, fault, step, FreeList.step, freeListPorts, writeQueue, next_eq_advance,
      amount, queue, write, slow]

theorem commitAlone_synced (list : FreeList 47 PhyReg) (entry : RobEntry)
    (synced : list.rdLine = list.rdExcepLine) :
    (commitAlone list entry).rdLine = (commitAlone list entry).rdExcepLine := by
  simp [commitAlone, FreeList.step, synced]

theorem accepted_alone (register : PhyReg) :
    accepted (register != 0) false register 0 = live [register] := by
  simpa [accepted] using accepted_live true false register 0

/-- An instruction by itself takes the front register and releases at the back. -/
theorem commitAlone_contains {list : FreeList 47 PhyReg} {entry : RobEntry} {rest : List PhyReg}
    (valid : list.Contains [] (live [entry.prd] ++ rest))
    (room : rest.length + (live [entry.lprd]).length ≤ 47) :
    (commitAlone list entry).Contains [] (rest ++ live [entry.lprd]) := by
  have taken : (live [entry.prd]).length = amount (entry.prd != 0) false := by
    rw [← accepted_alone, accepted_length]
  have pushed : (live [entry.lprd]).length = amount (entry.lprd != 0) false := by
    rw [← accepted_alone, accepted_length]
  have present : amount (entry.prd != 0) false ≤ (live [entry.prd] ++ rest).length := by
    rw [List.length_append]
    omega
  have fits : (live [entry.prd] ++ rest).length - amount (entry.prd != 0) false +
      amount (entry.lprd != 0) false ≤ 47 := by
    rw [List.length_append]
    omega
  have left : (live [entry.prd] ++ rest).drop (amount (entry.prd != 0) false) = rest := by
    rw [← taken, List.drop_left]
  have fast := valid.fast.step _ false _ false entry.lprd 0 present fits
  have slow := valid.slow.step _ false _ false entry.lprd 0 present fits
  rw [List.nil_append, left, accepted_alone] at slow
  rw [left, accepted_alone] at fast
  exact ⟨fast, slow⟩

theorem committedAll_contains {map : ArchReg → PhyReg} {older : List RobEntry}
    {younger : List (Renaming 32 PhyReg)} {list : FreeList 47 PhyReg}
    (valid : Renaming.Valid map (older.map RobEntry.renaming ++ younger) free physicalRegisters)
    (holds : list.Contains [] (pending (older.map RobEntry.renaming ++ younger) ++ free)) :
    (older.foldl commitAlone list).Contains []
      (pending younger ++ (free ++ live ((older.map RobEntry.renaming).map Renaming.lprd))) := by
  induction older generalizing map list free with
  | nil => simpa using holds
  | cons entry rest ih =>
    have next : Renaming.Valid (Function.update map entry.rd entry.prd)
        (rest.map RobEntry.renaming ++ younger) (free ++ live [entry.lprd]) physicalRegisters :=
      valid.commit
    have split : pending ((entry :: rest).map RobEntry.renaming ++ younger) =
        live [entry.prd] ++ pending (rest.map RobEntry.renaming ++ younger) := by
      rw [List.map_cons, List.cons_append, ← List.singleton_append, Renaming.pending_append]
      rfl
    rw [split, List.append_assoc] at holds
    have size : physicalRegisters.length = 47 := by decide
    have total := next.partition.length_eq
    simp only [List.length_append, size] at total
    have one := commitAlone_contains holds (by rw [List.length_append]; omega)
    rw [List.append_assoc] at one
    have all := ih next one
    rw [List.append_assoc, ← Renaming.live_append] at all
    exact all

/-- The commit side of the free list is that of the committed instructions alone, and from there
the registers of the window and the free ones follow. -/
structure Recovers (rcu : Rcu) (past : List RobEntry) (length : Nat) (free : List PhyReg) :
    Prop where
  sound : Sound rcu length free
  side : commitSide (committedFreeList past) = commitSide rcu.freeList
  synced : (committedFreeList past).rdLine = (committedFreeList past).rdExcepLine
  holds : (committedFreeList past).Contains [] (pending (renamings rcu length) ++ free)

theorem reset_recovers : Recovers reset [] 0 physicalRegisters :=
  ⟨reset_sound, rfl, rfl, reset_sound.freeList⟩

theorem foldl_synced (entries : List RobEntry) (list : FreeList 47 PhyReg)
    (synced : list.rdLine = list.rdExcepLine) :
    (entries.foldl commitAlone list).rdLine = (entries.foldl commitAlone list).rdExcepLine := by
  induction entries generalizing list with
  | nil => exact synced
  | cons entry rest ih => exact ih _ (commitAlone_synced list entry synced)

theorem step_recovers {past : List RobEntry} (input : RcuInput)
    (recovers : ∃ length free, Recovers rcu past length free) :
    ∃ length free, Recovers (rcu.step input) (past ++ committed rcu input) length free := by
  obtain ⟨length, free, recovers⟩ := recovers
  have append : committedFreeList (past ++ committed rcu input) =
      (committed rcu input).foldl commitAlone (committedFreeList past) := by
    simp [committedFreeList]
  have side := commitSide_step rcu input (committedFreeList past) recovers.side
  have synced := foldl_synced (committed rcu input) (committedFreeList past) recovers.synced
  rw [← append] at side synced
  cases fault : rcu.globalSpeculateFault input
  · have sound := step_sound_quiet recovers.sound input fault
    refine ⟨_, _, sound, side, synced, ?_⟩
    obtain ⟨valid, taken, -⟩ := recovers.sound.dispatch input
    have moved := congrArg (List.map RobEntry.renaming)
      (step_entries recovers.sound.window input fault)
    rw [List.map_append, List.map_append] at moved
    change _ ++ renamings (rcu.step input) _ = renamings rcu length ++ _ at moved
    have holds : (committedFreeList past).Contains []
        (pending ((retiring rcu input).map RobEntry.renaming ++ renamings (rcu.step input)
            (length - amount (rcu.doRobCommitFirst input) (rcu.doRobCommitSecond input) +
              amount (rcu.doRobWriteFirst input) (rcu.doRobWriteSecond input))) ++
          free.drop (amount (rcu.freeListRdFirstEn input) (rcu.freeListRdSecondEn input))) := by
      rw [moved, Renaming.pending_append, taken, List.append_assoc, List.take_append_drop]
      exact recovers.holds
    rw [← moved] at valid
    rw [append, committed, fault]
    exact committedAll_contains valid holds
  · have sound := step_sound_fault recovers.sound input fault
    refine ⟨_, _, sound, side, synced, ?_⟩
    have none : committed rcu input = [] := by simp [committed, fault]
    rw [none, List.append_nil]
    exact recovers.holds

theorem run_recovers (inputs : List RcuInput) :
    ∃ length free, Recovers (machine.run inputs) (machine.log committed inputs) length free :=
  machine.log_invariant committed (fun rcu past => ∃ length free, Recovers rcu past length free)
    ⟨0, physicalRegisters, reset_recovers⟩ (fun _ _ input => step_recovers input) inputs

theorem step_rolled (rcu : Rcu) (input : RcuInput)
    (fault : rcu.globalSpeculateFault input = true) :
    (rcu.step input).freeList.rdLine = (rcu.step input).freeList.rdExcepLine := by
  simp [step, fault, FreeList.step, freeListPorts, next_eq_advance, amount]

/-- Once the read pointer has been rolled back, nothing of the free list remembers what was
flushed. -/
theorem Recovers.freeList_eq {past : List RobEntry} (recovers : Recovers rcu past 0 free)
    (rolled : rcu.freeList.rdLine = rcu.freeList.rdExcepLine) :
    rcu.freeList = committedFreeList past := by
  obtain ⟨sound, side, synced, holds⟩ := recovers
  simp only [commitSide, Prod.mk.injEq] at side
  obtain ⟨queue, write, slow⟩ := side
  have fast := holds.fast
  have late := holds.slow
  rw [queue, write, synced, slow, ← rolled] at fast
  rw [queue, write, slow] at late
  have recount := Holds.recount_unique sound.freeList.fast fast
  have recountFault := Holds.recount_unique sound.freeList.slow late
  cases list : rcu.freeList
  cases alone : committedFreeList past
  simp_all

/-- The speculative map is the committed one updated in program order by the entries in use; and
after a flush the speculative side is exactly what the committed instructions alone produce. -/
theorem flush_recovers_committed_state (inputs : List RcuInput) :
    (machine.run inputs).renameReg =
        Renaming.apply (machine.run inputs).renameRegBackup
          ((inUse (machine.run inputs)).map RobEntry.renaming) ∧
      ∀ input, (machine.run inputs).globalSpeculateFault input = true →
        (machine.run (inputs ++ [input])).renameReg =
            (machine.run (inputs ++ [input])).renameRegBackup ∧
          (machine.run (inputs ++ [input])).freeList =
            committedFreeList (machine.log committed (inputs ++ [input])) := by
  constructor
  · obtain ⟨length, free, sound⟩ := run_sound inputs
    rw [sound.window.inUse_eq]
    exact sound.renamed
  · intro input fault
    obtain ⟨length', free', recovers'⟩ := run_recovers (inputs ++ [input])
    rw [Synchronous.run_snoc] at recovers' ⊢
    have empty : length' = 0 := by
      have one := recovers'.sound.window.inUse_eq
      have none := (step_window_fault (machine.run inputs) input fault).inUse_eq
      have lengths := congrArg List.length (one.symm.trans none)
      simpa [entries] using lengths
    subst empty
    exact ⟨recovers'.sound.renamed, recovers'.freeList_eq (step_rolled _ input fault)⟩

end GreenRio.Rcu
