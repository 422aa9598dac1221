import GreenRio.EbiBuffers

set_option autoImplicit false

namespace GreenRio

namespace InnerEbi

/-- A transaction was accepted and is not finished. -/
def pending (ebi : InnerEbi) : Bool :=
  ebi.read.valid || ebi.write.wBufferValid || ebi.write.wdataExist

/-- The transfer machine works on a transaction of its own side. -/
def executesMaster (ebi : InnerEbi) : Bool :=
  match ebi.trxCurrentState with
  | .sendAr | .waitR | .recvR | .respR | .sendW | .waitWack | .checkWack => true
  | _ => false

/-- A side that releases the bus, or is without it, has nothing left to do with it. -/
structure KeepsWork (ebi : InnerEbi) : Prop where
  releasing : ebi.bus.releaseSignal = true →
    ebi.pending = false ∧ ebi.trxCurrentState = .idle
  released : ebi.bus.currentBusOccupy = false → ebi.pending = false ∧ ebi.executesMaster = false

/-- The other side asks for the bus only in cycles in which no transaction waits for the idle
transfer machine, unless another request comes in, and no request comes in while the bus is being
released. -/
def Undisturbed (ebi : InnerEbi) (input : InnerInput) (busSwitchI : Bool) : Prop :=
  (ebi.pending = true → ebi.bus.lets busSwitchI (ebi.trxCurrentState == .idle) (request input) = false) ∧
    (ebi.bus.releaseSignal = true → request input = false)

end InnerEbi

namespace OuterEbi

def pending (ebi : OuterEbi) : Bool := ebi.snoop.valid

def executesMaster (ebi : OuterEbi) : Bool :=
  match ebi.trxCurrentState with
  | .sendSnpReq | .waitSnpResp | .recvSnpResp | .readSnpResp => true
  | _ => false

structure KeepsWork (ebi : OuterEbi) : Prop where
  releasing : ebi.bus.releaseSignal = true →
    ebi.pending = false ∧ ebi.trxCurrentState = .idle
  released : ebi.bus.currentBusOccupy = false → ebi.pending = false ∧ ebi.executesMaster = false

def Undisturbed (ebi : OuterEbi) (input : OuterInput) (busSwitchI : Bool) : Prop :=
  (ebi.pending = true →
    ebi.bus.lets busSwitchI (ebi.trxCurrentState == .idle) input.snReqValid = false) ∧
    (ebi.bus.releaseSignal = true → input.snReqValid = false)

end OuterEbi

namespace BusOccupy

variable {bus : BusOccupy} {busSwitchI idle request : Bool}

/-- The release signal comes from letting go. -/
theorem step_releases (signals : bus.releaseSignal = true → bus.currentBusOccupy = true)
    (next : (bus.step busSwitchI idle request).releaseSignal = true) :
    bus.lets busSwitchI idle request = true := by
  revert next signals
  rw [step]
  cases bus with
  | mk owns asking switchO switchOen release =>
    cases owns <;> cases release <;> cases asking <;> cases switchOen <;> cases busSwitchI <;>
      cases idle <;> cases request <;> simp [lets]

/-- An owner is without the bus after the release signal only. -/
theorem step_released (next : (bus.step busSwitchI idle request).currentBusOccupy = false) :
    bus.currentBusOccupy = true ∧ bus.releaseSignal = true ∨ bus.currentBusOccupy = false := by
  revert next
  rw [step]
  cases bus with
  | mk owns asking switchO switchOen release =>
    cases owns <;> cases release <;> cases busSwitchI <;> cases idle <;> cases request <;> simp

/-- Only an owner signals that it releases the bus. -/
theorem step_signals (signals : bus.releaseSignal = true → bus.currentBusOccupy = true)
    (next : (bus.step busSwitchI idle request).releaseSignal = true) :
    (bus.step busSwitchI idle request).currentBusOccupy = true := by
  have lets := step_releases signals next
  simp only [BusOccupy.lets, Bool.and_eq_true, Bool.not_eq_true'] at lets
  simp [step, lets]

theorem step_of_lets (lets : bus.lets busSwitchI idle request = true) :
    (bus.step busSwitchI idle request).releaseSignal = true := by
  simp only [BusOccupy.lets, Bool.and_eq_true, Bool.not_eq_true'] at lets
  simp [step, lets]

theorem step_of_signal (owns : bus.currentBusOccupy = true) (signal : bus.releaseSignal = true) :
    (bus.step busSwitchI idle request).currentBusOccupy = false := by
  simp [step, owns, signal]

end BusOccupy

namespace InnerEbi

variable {ebi : InnerEbi} {input : InnerInput} {busSwitchI : Bool} {ebiI : Beat}

/-- A side without work that takes no request stays without work. -/
theorem pending_next (loaded : ebi.Loaded) (none : ebi.pending = false)
    (refuses : request input = false ∨ ebi.bus.currentBusOccupy = false) :
    (ebi.posedge input busSwitchI ebiI).pending = false := by
  simp only [pending, Bool.or_eq_false_iff] at none
  obtain ⟨⟨noRead, noWrite⟩, noData⟩ := none
  have refusesRead : ¬(input.arvalid && ebi.arready) = true := by
    rcases refuses with silent | without
    · simp only [request, Bool.or_eq_false_iff] at silent
      simp [silent]
    · simp [arready, without]
  have refusesWrite : ¬(ebi.awready = true ∧ input.awvalid = true) := by
    rcases refuses with silent | without
    · simp only [request, Bool.or_eq_false_iff] at silent
      simp [silent]
    · simp [awready, without]
  have read : (ebi.readNext input).valid = false := by
    rw [readNext, if_neg refusesRead]
    split
    · rfl
    · exact noRead
  have write : (ebi.writeNext input).wBufferValid = false ∧
      (ebi.writeNext input).wdataExist = false := by
    rcases writeNext_cases ebi input with ⟨ready, valid, -⟩ | ⟨ready, valid, -⟩ | ⟨filling, -⟩ |
      ⟨-, -, same⟩ | ⟨-, same⟩
    · exact absurd ⟨ready, valid⟩ refusesWrite
    · exact absurd ⟨ready, valid⟩ refusesWrite
    · rw [(loaded.filling filling).1] at noData
      cases noData
    · rw [same]
      exact ⟨rfl, rfl⟩
    · rw [same]
      exact ⟨noWrite, noData⟩
  change ((ebi.readNext input).valid || (ebi.writeNext input).wBufferValid ||
    (ebi.writeNext input).wdataExist) = false
  rw [read, write.1, write.2]
  rfl

/-- An owner at rest without work stays at rest. -/
theorem rests_next (none : ebi.pending = false) (owns : ebi.bus.currentBusOccupy = true)
    (rests : ebi.trxCurrentState = .idle) : ebi.trxNextState input = .idle := by
  simp only [pending, Bool.or_eq_false_iff] at none
  simp [trxNextState, owns, rests, none]

/-- A side without the bus starts no transaction. -/
theorem slave_next (without : ebi.bus.currentBusOccupy = false)
    (slave : ebi.executesMaster = false) :
    (ebi.posedge input busSwitchI ebiI).executesMaster = false := by
  change (match ebi.trxNextState input with
    | .sendAr | .waitR | .recvR | .respR | .sendW | .waitWack | .checkWack => true
    | _ => false) = false
  rw [executesMaster] at slave
  have move := trxNextState_moves ebi input
  generalize ebi.trxCurrentState = current at move slave
  generalize ebi.trxNextState input = next at move
  cases move with
  | stay => exact slave
  | sendAr owns valid =>
    rw [without] at owns
    cases owns
  | sendW owns valid =>
    rw [without] at owns
    cases owns
  | _ => first | rfl | exact slave

variable (ebi) in
/-- What a cycle in which the other side does not disturb keeps. -/
theorem keepsWork_posedge (loaded : ebi.Loaded)
    (signals : ebi.bus.releaseSignal = true → ebi.bus.currentBusOccupy = true)
    (keeps : ebi.KeepsWork) (undisturbed : ebi.Undisturbed input busSwitchI) :
    (ebi.posedge input busSwitchI ebiI).KeepsWork := by
  constructor
  · intro releases
    have lets := BusOccupy.step_releases signals releases
    have none : ebi.pending = false := by
      by_contra work
      rw [Bool.not_eq_false] at work
      rw [undisturbed.1 work] at lets
      cases lets
    simp only [BusOccupy.lets, Bool.and_eq_true, Bool.not_eq_true', beq_iff_eq] at lets
    exact ⟨pending_next loaded none (.inl lets.2.2),
      rests_next none lets.1.1 lets.2.1.2⟩
  · intro released
    rcases BusOccupy.step_released released with ⟨owns, signal⟩ | without
    · obtain ⟨none, rests⟩ := keeps.releasing signal
      refine ⟨pending_next loaded none (.inl (undisturbed.2 signal)), ?_⟩
      have next : (ebi.posedge input busSwitchI ebiI).trxCurrentState = .idle :=
        rests_next none owns rests
      rw [executesMaster, next]
    · obtain ⟨none, slave⟩ := keeps.released without
      exact ⟨pending_next loaded none (.inr without), slave_next without slave⟩

/-- Work that waits for the idle machine is still there when the bus has been let go. -/
theorem pending_of_lets (loaded : ebi.Loaded) (work : ebi.pending = true)
    (lets : ebi.bus.lets busSwitchI (ebi.trxCurrentState == .idle) (request input) = true) :
    (ebi.posedge input busSwitchI ebiI).pending = true := by
  simp only [BusOccupy.lets, request, Bool.and_eq_true, Bool.not_eq_true', Bool.or_eq_false_iff,
    beq_iff_eq] at lets
  obtain ⟨-, ⟨-, rests⟩, noRead, noWrite⟩ := lets
  have read : (ebi.readNext input) = ebi.read := by
    simp [readNext, noRead, rRespDone, rvalid, rests]
  have write : (ebi.write.wBufferValid || ebi.write.wdataExist) = true →
      ((ebi.writeNext input).wBufferValid || (ebi.writeNext input).wdataExist) = true := by
    intro waits
    rcases writeNext_cases ebi input with ⟨-, valid, -⟩ | ⟨-, valid, -⟩ | ⟨filling, same⟩ |
      ⟨-, acks, -⟩ | ⟨-, same⟩
    · rw [noWrite] at valid
      cases valid
    · rw [noWrite] at valid
      cases valid
    · rw [same]
      simp [(loaded.filling filling).1]
    · rw [rests] at acks
      cases acks
    · rw [same]
      simpa using waits
  change ((ebi.readNext input).valid || (ebi.writeNext input).wBufferValid ||
    (ebi.writeNext input).wdataExist) = true
  rw [pending, Bool.or_assoc, Bool.or_eq_true] at work
  rw [read, Bool.or_assoc, Bool.or_eq_true]
  exact work.imp_right write

/-- A request that comes in while an idle side releases the bus is accepted. -/
theorem pending_of_request (none : ebi.pending = false) (owns : ebi.bus.currentBusOccupy = true)
    (asks : request input = true) : (ebi.posedge input busSwitchI ebiI).pending = true := by
  simp only [pending, Bool.or_eq_false_iff] at none
  change ((ebi.readNext input).valid || (ebi.writeNext input).wBufferValid ||
    (ebi.writeNext input).wdataExist) = true
  rw [request, Bool.or_eq_true] at asks
  rcases asks with reads | writes
  · simp [readNext, arready, reads, owns, none]
  · have ready : ebi.awready = true := by simp [awready, owns, none]
    have taken : ((ebi.writeNext input).wBufferValid || (ebi.writeNext input).wdataExist) = true := by
      rw [writeNext, if_pos (by rw [ready, writes]; rfl)]
      split <;> simp
    rw [Bool.or_assoc, taken, Bool.or_true]

variable (ebi) in
/-- The work is kept by a cycle only if the other side did not disturb. -/
theorem undisturbed_of_keepsWork (loaded : ebi.Loaded)
    (signals : ebi.bus.releaseSignal = true → ebi.bus.currentBusOccupy = true)
    (keeps : ebi.KeepsWork) (next : (ebi.posedge input busSwitchI ebiI).KeepsWork) :
    ebi.Undisturbed input busSwitchI := by
  constructor
  · intro work
    by_contra lets
    rw [Bool.not_eq_false] at lets
    have none := (next.releasing (BusOccupy.step_of_lets lets)).1
    rw [pending_of_lets loaded work lets] at none
    cases none
  · intro signal
    by_contra asks
    rw [Bool.not_eq_false] at asks
    have owns := signals signal
    have none := (next.released (BusOccupy.step_of_signal owns signal)).1
    rw [pending_of_request (keeps.releasing signal).1 owns asks] at none
    cases none

end InnerEbi

namespace OuterEbi

variable {ebi : OuterEbi} {input : OuterInput} {busSwitchI : Bool} {ebiI : Beat}

theorem pending_next (none : ebi.pending = false)
    (refuses : input.snReqValid = false ∨ ebi.bus.currentBusOccupy = false) :
    (ebi.posedge input busSwitchI ebiI).pending = false := by
  change ebi.snoop.valid = false at none
  change (ebi.snoopNext input).valid = false
  have refused : ¬(input.snReqValid && ebi.snReqReady) = true := by
    rcases refuses with silent | without
    · simp [silent]
    · simp [snReqReady, without]
  rw [snoopNext, if_neg refused]
  split
  · rfl
  · exact none

theorem rests_next (none : ebi.pending = false) (owns : ebi.bus.currentBusOccupy = true)
    (rests : ebi.trxCurrentState = .idle) : ebi.trxNextState input = .idle := by
  change ebi.snoop.valid = false at none
  simp [trxNextState, owns, rests, none]

theorem slave_next (without : ebi.bus.currentBusOccupy = false)
    (slave : ebi.executesMaster = false) :
    (ebi.posedge input busSwitchI ebiI).executesMaster = false := by
  change (match ebi.trxNextState input with
    | .sendSnpReq | .waitSnpResp | .recvSnpResp | .readSnpResp => true
    | _ => false) = false
  rw [executesMaster] at slave
  have move := trxNextState_moves ebi input
  generalize ebi.trxCurrentState = current at move slave
  generalize ebi.trxNextState input = next at move
  cases move with
  | stay => exact slave
  | sendSnpReq owns valid =>
    rw [without] at owns
    cases owns
  | _ => first | rfl | exact slave

variable (ebi) in
theorem keepsWork_posedge
    (signals : ebi.bus.releaseSignal = true → ebi.bus.currentBusOccupy = true)
    (keeps : ebi.KeepsWork) (undisturbed : ebi.Undisturbed input busSwitchI) :
    (ebi.posedge input busSwitchI ebiI).KeepsWork := by
  constructor
  · intro releases
    have lets := BusOccupy.step_releases signals releases
    have none : ebi.pending = false := by
      by_contra work
      rw [Bool.not_eq_false] at work
      rw [undisturbed.1 work] at lets
      cases lets
    simp only [BusOccupy.lets, Bool.and_eq_true, Bool.not_eq_true', beq_iff_eq] at lets
    exact ⟨pending_next none (.inl lets.2.2), rests_next none lets.1.1 lets.2.1.2⟩
  · intro released
    rcases BusOccupy.step_released released with ⟨owns, signal⟩ | without
    · obtain ⟨none, rests⟩ := keeps.releasing signal
      refine ⟨pending_next none (.inl (undisturbed.2 signal)), ?_⟩
      have next : (ebi.posedge input busSwitchI ebiI).trxCurrentState = .idle :=
        rests_next none owns rests
      rw [executesMaster, next]
    · obtain ⟨none, slave⟩ := keeps.released without
      exact ⟨pending_next none (.inr without), slave_next without slave⟩

variable (ebi) in
theorem undisturbed_of_keepsWork
    (signals : ebi.bus.releaseSignal = true → ebi.bus.currentBusOccupy = true)
    (keeps : ebi.KeepsWork) (next : (ebi.posedge input busSwitchI ebiI).KeepsWork) :
    ebi.Undisturbed input busSwitchI := by
  constructor
  · intro work
    by_contra lets
    rw [Bool.not_eq_false] at lets
    have none := (next.releasing (BusOccupy.step_of_lets lets)).1
    simp only [BusOccupy.lets, Bool.and_eq_true, beq_iff_eq] at lets
    change (ebi.snoopNext input).valid = false at none
    rw [snoopNext_idle work lets.2.1.2] at none
    cases none
  · intro signal
    by_contra asks
    rw [Bool.not_eq_false] at asks
    have owns := signals signal
    have rests := (keeps.releasing signal).2
    have none := (next.released (BusOccupy.step_of_signal owns signal)).1
    have taken : (input.snReqValid && ebi.snReqReady) = true := by
      simp [asks, snReqReady, rests, owns]
    change (ebi.snoopNext input).valid = false at none
    rw [snoopNext, if_pos taken] at none
    cases none

end OuterEbi

namespace Ebi

/-- Neither side gives the bus up over its work. -/
def KeepsWork (ebi : Ebi) : Prop := ebi.inner.KeepsWork ∧ ebi.outer.KeepsWork

/-- Neither side is disturbed in a cycle. -/
def Undisturbed (ebi : Ebi) (input : EbiInput) : Prop :=
  ebi.inner.Undisturbed input.inner ebi.outer.bus.busSwitchO ∧
    ebi.outer.Undisturbed input.outer ebi.inner.bus.busSwitchO

theorem run_signals (inputs : List EbiInput) :
    ((machine.run inputs).inner.bus.releaseSignal = true →
      (machine.run inputs).inner.bus.currentBusOccupy = true) ∧
    ((machine.run inputs).outer.bus.releaseSignal = true →
      (machine.run inputs).outer.bus.currentBusOccupy = true) := by
  apply machine.run_invariant fun ebi =>
    (ebi.inner.bus.releaseSignal = true → ebi.inner.bus.currentBusOccupy = true) ∧
      (ebi.outer.bus.releaseSignal = true → ebi.outer.bus.currentBusOccupy = true)
  · exact ⟨by decide, by decide⟩
  · intro ebi input signals
    exact ⟨BusOccupy.step_signals signals.1, BusOccupy.step_signals signals.2⟩

/-- A cycle keeps the work exactly if neither side is disturbed in it. -/
theorem keepsWork_step_iff {inputs : List EbiInput} {input : EbiInput}
    (keeps : (machine.run inputs).KeepsWork) :
    (machine.run (inputs ++ [input])).KeepsWork ↔ (machine.run inputs).Undisturbed input := by
  obtain ⟨innerLoaded, -⟩ := run_loaded inputs
  obtain ⟨innerSignals, outerSignals⟩ := run_signals inputs
  rw [Synchronous.run_snoc]
  constructor
  · intro next
    exact ⟨InnerEbi.undisturbed_of_keepsWork
        ((machine.run inputs).inner.negedge input.inner)
        (InnerEbi.negedge_loaded innerLoaded) innerSignals ⟨keeps.1.1, keeps.1.2⟩ next.1,
      OuterEbi.undisturbed_of_keepsWork
        ((machine.run inputs).outer.negedge input.outer) outerSignals
        ⟨keeps.2.1, keeps.2.2⟩ next.2⟩
  · intro undisturbed
    exact ⟨InnerEbi.keepsWork_posedge ((machine.run inputs).inner.negedge input.inner)
        (InnerEbi.negedge_loaded innerLoaded) innerSignals ⟨keeps.1.1, keeps.1.2⟩ undisturbed.1,
      OuterEbi.keepsWork_posedge ((machine.run inputs).outer.negedge input.outer)
        outerSignals ⟨keeps.2.1, keeps.2.2⟩ undisturbed.2⟩

end Ebi

/-- In every run, no side ever gives the bus up over accepted work exactly if it is never disturbed
in its work. -/
theorem ebi_keeps_work_iff (inputs : List EbiInput) :
    (∀ past rest, inputs = past ++ rest → (Ebi.machine.run past).KeepsWork) ↔
      Ebi.machine.Obeys Ebi.Undisturbed inputs := by
  apply Synchronous.prefixes_iff
  · exact ⟨⟨by decide, by decide⟩, ⟨by decide, by decide⟩⟩
  · intro past input keeps
    exact Ebi.keepsWork_step_iff keeps

/-- A cycle in which the cache may start a read and the other side may be asked for a snoop. -/
def ebiRequests (arvalid snReqValid : Bool) : EbiInput where
  inner := ⟨arvalid, 0x80001040, 0, false, 0, 0, false, 0, false, false, false, false, 0⟩
  outer := ⟨false, false, false, false, 0, 0, snReqValid, 0x80002000, 0, false⟩

/-- A read and a snoop come in together, and the bus changes hands under the accepted read. -/
theorem ebi_strands_read :
    ¬∀ inputs : List EbiInput, (Ebi.machine.run inputs).KeepsWork := by
  intro claim
  have keeps := claim [ebiRequests true true, ebiRequests false true, ebiRequests false true]
  have stranded := (keeps.1.released (by decide +kernel)).2
  revert stranded
  decide +kernel

end GreenRio
