import GreenRio.Numbering
import GreenRio.Observed

set_option autoImplicit false

namespace GreenRio

open Circular Counter Fifo

/-- Where an operation may be handed to. -/
inductive FuPort where
  | alu1
  | alu2
  | csr
  | md
  | lsu
  deriving DecidableEq

/-- The class of operations a port serves. -/
def FuPort.functionClass : FuPort → FunctionClass
  | .alu1 => .alu
  | .alu2 => .alu
  | .csr => .csr
  | .md => .md
  | .lsu => .lsu

/-- The class bits of an operation: arithmetic, CSR, multiplication, memory. -/
def FunctionClass.bits : FunctionClass → Bool × Bool × Bool × Bool
  | .alu => (true, false, false, false)
  | .csr => (true, true, false, false)
  | .md => (false, false, true, false)
  | .lsu => (false, false, false, true)
  | .none => (false, false, false, false)

theorem Decoded.Proper.bits {instruction : Decoded} (proper : instruction.Proper) :
    (instruction.isAlu, instruction.isCsr, instruction.isMd, instruction.isMemory) =
      instruction.functionClass.bits := by
  have apart := proper.apart
  have multiply := proper.multiply
  have status := proper.status
  unfold RobOp.functionClass RobOp.arithmetic RobOp.isMemory
  cases alu : instruction.isAlu <;> cases csr : instruction.isCsr <;>
    cases md : instruction.isMd <;> cases load : instruction.isLoad <;>
    cases store : instruction.isStore <;> simp_all [FunctionClass.bits]

/-- What a pipeline register holds as valid. -/
def Stage.content (stage : Stage) : List Issued := if stage.valid then [stage.issued] else []

namespace Backend

/-- What the enables of every port let through. -/
def handed (backend : Backend) (input : BackendInput) : FuPort → List Issued
  | .alu1 => (backend.selectFirst input.toRcuInput).toList.filter
      fun issued => issued.entry.isAlu && !issued.entry.isCsr
  | .alu2 => (backend.selectSecond input.toRcuInput).toList.filter fun issued => issued.entry.isAlu
  | .csr => (backend.selectFirst input.toRcuInput).toList.filter fun issued => issued.entry.isCsr
  | .md => written (backend.mdQueuePorts input)
  | .lsu => written (backend.lsuQueuePorts input)

theorem loadStage_content (stage : Stage) (port : Option Issued) (accepts : RobEntry → Bool)
    (fault : Bool) : (loadStage stage port accepts fault).content =
      if fault then [] else port.toList.filter fun issued => accepts issued.entry := by
  unfold loadStage Stage.content
  cases port with
  | none => simp
  | some issued => cases takes : accepts issued.entry <;> cases fault <;> simp [takes]

/-- A flush takes away what the pipeline registers would have received. -/
theorem step_content (backend : Backend) (input : BackendInput) :
    (backend.step input).issue.alu1.content =
        (if backend.rcu.globalSpeculateFault input.toRcuInput then []
          else backend.handed input .alu1) ∧
      (backend.step input).issue.alu2.content =
        (if backend.rcu.globalSpeculateFault input.toRcuInput then []
          else backend.handed input .alu2) ∧
      (backend.step input).issue.csr.content =
        (if backend.rcu.globalSpeculateFault input.toRcuInput then []
          else backend.handed input .csr) :=
  ⟨loadStage_content _ _ _ _, loadStage_content _ _ _ _, loadStage_content _ _ _ _⟩

section Handed

variable {backend : Backend} {input : BackendInput} {issued : Issued}

theorem mem_handed (port : FuPort) :
    issued ∈ backend.handed input port ↔
      match port with
      | .alu1 => backend.selectFirst input.toRcuInput = some issued ∧ issued.entry.isAlu = true ∧
        issued.entry.isCsr = false
      | .alu2 => backend.selectSecond input.toRcuInput = some issued ∧ issued.entry.isAlu = true
      | .csr => backend.selectFirst input.toRcuInput = some issued ∧ issued.entry.isCsr = true
      | .md => issued ∈ backend.issues input.toRcuInput ∧ issued.entry.isMd = true
      | .lsu => issued ∈ backend.issues input.toRcuInput ∧ issued.entry.isMemory = true := by
  cases port with
  | alu1 => simp [handed]
  | alu2 => simp [handed]
  | csr => simp [handed]
  | md => simp [handed, mdQueue_written]
  | lsu => simp [handed, lsuQueue_written]

theorem issues_nodup (backend : Backend) (input : RcuInput) : (backend.issues input).Nodup := by
  rw [issues, List.nodup_map_iff_inj_on (backend.grants_nodup input)]
  intro left granted right granted' same
  exact indexOf_injective (eligible_ready (grants_eligible granted))
    (eligible_ready (grants_eligible granted')) (congrArg Issued.robIndex same)

theorem handed_nodup (port : FuPort) : (backend.handed input port).Nodup := by
  have short : ∀ port : Option Issued, port.toList.Nodup := by
    rintro (_ | issued) <;> simp
  cases port with
  | alu1 => exact (short _).filter _
  | alu2 => exact (short _).filter _
  | csr => exact (short _).filter _
  | md =>
    rw [handed, mdQueue_written]
    exact (backend.issues_nodup _).filter _
  | lsu =>
    rw [handed, lsuQueue_written]
    exact (backend.issues_nodup _).filter _

/-- A selected operation is on one of the two select ports, a CSR operation on the first. -/
theorem selected_port {length : Nat} (window : Rcu.Window backend.rcu length)
    (member : issued ∈ backend.issues input.toRcuInput) :
    (backend.selectFirst input.toRcuInput = some issued ∧
        backend.selectSecond input.toRcuInput ≠ some issued) ∨
      (backend.selectSecond input.toRcuInput = some issued ∧
        backend.selectFirst input.toRcuInput ≠ some issued ∧ issued.entry.isCsr = false) := by
  have apart := @selectSecond_apart backend length window input.toRcuInput
  obtain ⟨place, here⟩ := List.mem_iff_getElem?.mp member
  rcases place with _ | _ | place
  · refine Or.inl ⟨here, fun again => ?_⟩
    exact (apart here again).1 rfl
  · have first : ∃ other, backend.selectFirst input.toRcuInput = some other := by
      have bound : 1 < (backend.issues input.toRcuInput).length :=
        (List.getElem?_eq_some_iff.mp here).1
      exact ⟨_, List.getElem?_eq_getElem (by omega)⟩
    obtain ⟨other, onFirst⟩ := first
    have both := apart onFirst here
    refine Or.inr ⟨here, fun again => ?_, both.2⟩
    exact (apart again here).1 rfl
  · have bound := (List.getElem?_eq_some_iff.mp here).1
    have short := backend.issues_length input.toRcuInput
    omega

/-- An operation of a class is handed to one port, which serves its class. -/
theorem handed_once {length : Nat} (window : Rcu.Window backend.rcu length)
    (member : issued ∈ backend.issues input.toRcuInput)
    (bits : (issued.entry.isAlu, issued.entry.isCsr, issued.entry.isMd, issued.entry.isMemory) =
      issued.entry.functionClass.bits) (classed : issued.entry.functionClass ≠ .none) :
    ∃ port : FuPort, port.functionClass = issued.entry.functionClass ∧
      ∀ other, issued ∈ backend.handed input other ↔ other = port := by
  have handedTo := @mem_handed backend input issued
  cases kind : issued.entry.functionClass with
  | none => exact absurd kind classed
  | alu =>
    rw [kind] at bits
    simp only [FunctionClass.bits, Prod.mk.injEq] at bits
    rcases selected_port window member with ⟨onFirst, notSecond⟩ | ⟨onSecond, notFirst, -⟩
    · refine ⟨.alu1, rfl, fun other => ?_⟩
      cases other <;> simp [handedTo, bits, onFirst, notSecond]
    · refine ⟨.alu2, rfl, fun other => ?_⟩
      cases other <;> simp [handedTo, bits, onSecond, notFirst]
  | csr =>
    rw [kind] at bits
    simp only [FunctionClass.bits, Prod.mk.injEq] at bits
    rcases selected_port window member with ⟨onFirst, notSecond⟩ | ⟨-, -, csr⟩
    · refine ⟨.csr, rfl, fun other => ?_⟩
      cases other <;> simp [handedTo, bits, onFirst, notSecond]
    · simp [bits] at csr
  | md =>
    rw [kind] at bits
    simp only [FunctionClass.bits, Prod.mk.injEq] at bits
    refine ⟨.md, rfl, fun other => ?_⟩
    cases other <;> simp [handedTo, bits, member]
  | lsu =>
    rw [kind] at bits
    simp only [FunctionClass.bits, Prod.mk.injEq] at bits
    refine ⟨.lsu, rfl, fun other => ?_⟩
    cases other <;> simp [handedTo, bits, member]

end Handed

end Backend

namespace Processor

theorem run_core (inputs : List ProcessorInput) :
    (machine.run inputs).core = Core.machine.run (machine.fed coreInput inputs) :=
  machine.run_part Core.machine core coreInput rfl (fun _ _ => rfl) inputs

theorem run_backend (inputs : List ProcessorInput) :
    (machine.run inputs).backend = Backend.machine.run (machine.fed backendInput inputs) :=
  machine.run_part Backend.machine backend backendInput rfl (fun _ _ => rfl) inputs

/-- Everything handed to the decode queue since the last flush came out of decode. -/
theorem pushed_proper (inputs : List ProcessorInput) :
    ∀ instruction ∈ Core.machine.since Core.flush Core.pushed (machine.fed coreInput inputs),
      instruction.Proper := by
  apply Synchronous.since_forall
  intro core fed member instruction pushed
  obtain ⟨processor, input, rfl⟩ := Synchronous.mem_fed member
  rcases accepted_mem pushed with ⟨-, rfl⟩ | ⟨-, rfl⟩
  · exact Decoder.decode_proper _ _ _
  · exact Decoder.decode_proper _ _ _

/-- Every instruction in use or being dispatched came out of decode. -/
theorem run_proper (inputs : List ProcessorInput) :
    (∀ index, (machine.run inputs).core.rcu.robUsed index = true →
      ∃ instruction : Decoded, instruction.Proper ∧
        ((machine.run inputs).core.rcu.rob index).toRobOp = instruction.toRobOp) ∧
    ∀ input, (machine.run inputs).flush = false →
      ∀ instruction ∈ (machine.run inputs).core.entered ((machine.run inputs).coreInput input),
        instruction.Proper := by
  have proper := pushed_proper inputs
  have flows := Core.run_flows (machine.fed coreInput inputs)
  rw [← run_core] at flows
  obtain ⟨waiting, queued, order⟩ := flows.queued
  obtain ⟨length, window⟩ := flows.window
  rw [order] at proper
  constructor
  · intro index used
    have inside : ((machine.run inputs).core.rcu.rob index).toRobOp ∈
        (Core.machine.since Core.flush Core.entered (machine.fed coreInput inputs)).map
          Decoded.toRobOp := by
      rw [flows.stored]
      apply List.mem_map_of_mem
      apply List.mem_append_right
      exact List.mem_map_of_mem (List.mem_filter.mpr ⟨mem_slots_full _ _, used⟩)
    obtain ⟨instruction, entered, same⟩ := List.mem_map.mp inside
    exact ⟨instruction, proper _ (List.mem_append_left _ entered), same.symm⟩
  · intro input quiet instruction entered
    rw [(Core.entered_eq queued window ((machine.run inputs).coreInput input) quiet).2] at entered
    exact proper _ (List.mem_append_right _ (List.mem_of_mem_take entered))

/-- Every operation that is selected came out of decode. -/
theorem issued_proper (inputs : List ProcessorInput) (input : ProcessorInput) {issued : Issued}
    (member : issued ∈ (machine.run inputs).backend.issues
      ((machine.run inputs).rcuInput input)) :
    ∃ instruction : Decoded, instruction.Proper ∧
      issued.entry.toRobOp = instruction.toRobOp := by
  obtain ⟨stored, entered⟩ := run_proper inputs
  obtain ⟨entry, source⟩ :=
    Backend.issues_cases ((machine.run inputs).backendInput input) member
  rw [entry]
  rcases source with ⟨used, -⟩ | ⟨here, write, -⟩ | ⟨here, write, -⟩
  · obtain ⟨instruction, proper, same⟩ := stored issued.robIndex used
    refine ⟨instruction, proper, ?_⟩
    rw [← same]
    exact congrArg RobEntry.toRobOp (Rcu.dispatchInto_used _ used _ _ _)
  · have quiet := write
    simp only [Rcu.doRobWriteFirst, Bool.and_eq_true, Bool.not_eq_true'] at quiet
    refine ⟨_, entered input quiet.1.2 (machine.run inputs).core.offer.first
      (accepted_first write), ?_⟩
    rw [here]
    exact congrArg RobEntry.toRobOp (Rcu.dispatchInto_first _ write _ _ _)
  · have quiet := write
    simp only [Rcu.doRobWriteSecond, Bool.and_eq_true, Bool.not_eq_true'] at quiet
    refine ⟨_, entered input quiet.1.2 (machine.run inputs).core.offer.second
      (accepted_second write), ?_⟩
    rw [here]
    exact congrArg RobEntry.toRobOp (Rcu.dispatchInto_second _ write _ _ _)

/-- The stages of the first port are never valid together. -/
theorem stages_exclusive (inputs : List ProcessorInput) :
    ¬ ((machine.run inputs).backend.issue.alu1.valid = true ∧
      (machine.run inputs).backend.issue.csr.valid = true) :=
  machine.run_invariant
    (fun processor => ¬ (processor.backend.issue.alu1.valid = true ∧
      processor.backend.issue.csr.valid = true))
    (by simp [machine, reset, Backend.reset])
    (fun processor input _ => Tracked.step_exclusive processor.backend
      (processor.backendInput input)) inputs

/-- In every run no instruction is selected twice. In every cycle each selected operation carries the
fields of its entry, and one that has a class is let through to exactly one port of that class; what
is let through is what the pipeline registers hold behind the clock edge. The branch that leaves
`select_is_csr` open is not taken, the second port never carries a CSR operation, and the two units
that share a write port do not complete together. -/
theorem issue_routing_exactly_once (inputs : List ProcessorInput) :
    (Numbered.machine.log Numbered.selections (machine.fed backendInput inputs)).Nodup ∧
      ∀ input,
        (∀ issued ∈ (machine.run inputs).backend.issues ((machine.run inputs).rcuInput input),
          issued.entry = ((machine.run inputs).step input).core.rcu.rob issued.robIndex ∧
          (issued.entry.functionClass ≠ .none →
            ∃ port : FuPort, port.functionClass = issued.entry.functionClass ∧
              ∀ other, ((machine.run inputs).backend.handed
                ((machine.run inputs).backendInput input) other).count issued =
                  if other = port then 1 else 0)) ∧
        ((machine.run inputs).flush = false →
          ((machine.run inputs).step input).backend.issue.alu1.content =
              (machine.run inputs).backend.handed ((machine.run inputs).backendInput input) .alu1 ∧
            ((machine.run inputs).step input).backend.issue.alu2.content =
              (machine.run inputs).backend.handed ((machine.run inputs).backendInput input) .alu2 ∧
            ((machine.run inputs).step input).backend.issue.csr.content =
              (machine.run inputs).backend.handed
                ((machine.run inputs).backendInput input) .csr) ∧
        ((machine.run inputs).backend.robSelectFirstValid ((machine.run inputs).rcuInput input) =
            false →
          (machine.run inputs).backend.robSelectSecondValid
            ((machine.run inputs).rcuInput input) = false) ∧
        ((machine.run inputs).backend.compressSelectSecondValid
            ((machine.run inputs).rcuInput input) = true →
          ∃ requester, (machine.run inputs).backend.secondPort
              ((machine.run inputs).rcuInput input) = some requester ∧
            ((machine.run inputs).backend.entryOf ((machine.run inputs).rcuInput input)
              requester).isCsr = false) ∧
        ¬ ((machine.run inputs).alu1Done.done = true ∧
          ((machine.run inputs).csruDone input).done = true) := by
  obtain ⟨length, ordered⟩ := Numbered.run_ordered (machine.fed backendInput inputs)
  have window : Rcu.Window (machine.run inputs).backend.rcu length := by
    rw [run_backend, ← Numbered.run_backend]
    exact ordered.window
  refine ⟨ordered.once, fun input => ⟨?_, ?_, ?_, ?_, ?_⟩⟩
  · intro issued member
    refine ⟨(Backend.issues_cases ((machine.run inputs).backendInput input) member).1,
      fun classed => ?_⟩
    obtain ⟨instruction, proper, same⟩ := issued_proper inputs input member
    have bits := proper.bits
    rw [← same] at bits
    obtain ⟨port, serves, only⟩ := @Backend.handed_once _
      ((machine.run inputs).backendInput input) _ _ window member bits classed
    refine ⟨port, serves, fun other => ?_⟩
    rw [(Backend.handed_nodup other).count, if_congr (only other) rfl rfl]
  · intro quiet
    have fault : (machine.run inputs).backend.rcu.globalSpeculateFault
        ((machine.run inputs).backendInput input).toRcuInput = false := quiet
    have content := Backend.step_content (machine.run inputs).backend
      ((machine.run inputs).backendInput input)
    simp only [fault, Bool.false_eq_true, ↓reduceIte] at content
    exact content
  · exact ((machine.run inputs).backend.ports_eq _).2.2
  · intro valid
    obtain ⟨requester, source⟩ := Backend.secondPort_some _ _ valid
    refine ⟨requester, source, ?_⟩
    have port : (machine.run inputs).backend.selectSecond ((machine.run inputs).rcuInput input) =
        some ((machine.run inputs).backend.issued ((machine.run inputs).rcuInput input)
          requester) := by
      rw [Backend.selectSecond_eq, if_pos valid, source]
      rfl
    have member := Backend.selectSecond_mem port
    rcases @Backend.selected_port _ ((machine.run inputs).backendInput input) _ _ window member
      with ⟨-, notSecond⟩ | ⟨-, -, csr⟩
    · exact absurd port notSecond
    · exact csr
  · rintro ⟨alu, csr⟩
    have valid : (machine.run inputs).backend.issue.alu1.valid = true :=
      (Bool.and_eq_true _ _ |>.mp alu).1
    exact stages_exclusive inputs ⟨valid, csr⟩

end Processor

end GreenRio
