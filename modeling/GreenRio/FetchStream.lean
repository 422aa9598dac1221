import GreenRio.InstructionBuffer
import GreenRio.Processor
import GreenRio.Trace

set_option autoImplicit false

namespace GreenRio

open Fifo Trace

namespace FetchUnit

/-- What decode is handed in a cycle: each instruction with the address recorded for the one
behind it. -/
def delivered (unit : FetchUnit) (input : FetchInput) : List (Event Pc) :=
  accepted (unit.hasFirstInst input) (unit.hasFullInst input)
    (.execute unit.pc (some (Fetch.pcSecond (unit.supply input) unit.pc)))
    (.execute (Fetch.pcSecond (unit.supply input) unit.pc) (some (unit.predictPc input)))

/-- Where the stream of instructions starts: at the target of the last flush. -/
def origin (inputs : List FetchInput) : Pc :=
  inputs.foldl (fun start input => if input.flush then input.target else start) Fetch.resetVector

/-- A redirection by the branch target buffer goes with a second instruction, which records it, or
leads to the address behind what is handed over. -/
def Attached (unit : FetchUnit) (input : FetchInput) : Prop :=
  unit.insHit input = true → input.predictors.predictPcFromPred unit.pc = true →
    unit.hasFullInst input = true ∨
      input.predictors.nextPcOut unit.pc =
        Fetch.sequentialPc (unit.supply input) unit.pc (unit.hasFirstInst input) false

variable {unit : FetchUnit} {input : FetchInput}

theorem hasFullInst_hasFirstInst (full : unit.hasFullInst input = true) :
    unit.hasFirstInst input = true := by
  rw [hasFullInst, Bool.and_eq_true] at full
  rw [hasFirstInst, Bool.and_eq_true]
  exact ⟨(unit.supply input).ordered full.1, input.ordered full.2⟩

theorem hasFirstInst_insHit (first : unit.hasFirstInst input = true) :
    unit.insHit input = true := by
  rw [hasFirstInst, Bool.and_eq_true] at first
  exact (unit.supply input).present first.1

theorem insHit_calm (hit : unit.insHit input = true) : input.flush = false := by
  rw [insHit, Bool.and_eq_true, Bool.not_eq_true'] at hit
  exact hit.1

/-- A cycle without a hit hands nothing over. -/
theorem delivered_miss (miss : unit.insHit input = false) : unit.delivered input = [] := by
  have first : unit.hasFirstInst input = false := by
    by_contra first
    simp [hasFirstInst_insHit (by simpa using first)] at miss
  have full : unit.hasFullInst input = false := by
    by_contra full
    simp [hasFullInst_hasFirstInst (by simpa using full)] at first
  simp [delivered, accepted, first, full]

theorem step_pc (calm : input.flush = false) :
    (unit.step input).pc = if unit.insHit input then unit.predictPc input else unit.pc := by
  simp [step, calm]

/-- Without a second instruction the stream goes on behind the first. -/
theorem delivered_single_iff (full : unit.hasFullInst input = false) (stop : Pc) :
    Follows unit.pc (unit.delivered input) stop ↔
      stop = Fetch.sequentialPc (unit.supply input) unit.pc (unit.hasFirstInst input) false := by
  cases first : unit.hasFirstInst input
  · simp only [delivered, accepted, first, full, Bool.false_eq_true, if_false, List.append_nil,
      follows_nil, Fetch.sequentialPc]
    exact eq_comm
  · simp only [delivered, accepted, first, full, Bool.false_eq_true, if_true, if_false,
      List.append_nil, follows_execute, follows_nil, true_and, Fetch.sequentialPc_first]
    exact eq_comm

/-- The fetch address follows what is handed over exactly when redirections are attached. -/
theorem step_follows_iff (calm : input.flush = false) :
    Follows unit.pc (unit.delivered input) (unit.step input).pc ↔ Attached unit input := by
  rw [step_pc calm]
  cases hit : unit.insHit input
  · simp [delivered_miss hit, Attached, hit]
  · cases full : unit.hasFullInst input
    · rw [if_pos rfl, delivered_single_iff full]
      unfold Attached predictPc Fetch.predictPc
      cases redirected : input.predictors.predictPcFromPred unit.pc
      · simp [full]
      · simp [hit, full]
    · have first := hasFullInst_hasFirstInst full
      simp [delivered, accepted, first, full, Attached]

theorem origin_snoc (inputs : List FetchInput) (input : FetchInput) :
    origin (inputs ++ [input]) = if input.flush then input.target else origin inputs := by
  simp [origin]

/-- What has been handed over since the last flush. -/
def handedOver (inputs : List FetchInput) : List (Event Pc) :=
  machine.since (fun _ input => input.flush) delivered inputs

/-- The stream so far leads from where it started to the fetch address. -/
def GapFree (inputs : List FetchInput) : Prop :=
  Follows (origin inputs) (handedOver inputs) (machine.run inputs).pc

theorem gapFree_snoc {inputs : List FetchInput} {input : FetchInput} (gapFree : GapFree inputs) :
    GapFree (inputs ++ [input]) ↔ Attached (machine.run inputs) input := by
  unfold GapFree handedOver
  rw [origin_snoc, Synchronous.since_snoc, Synchronous.run_snoc]
  cases calm : input.flush
  · rw [if_neg (by simp), if_neg (by simp), ← step_follows_iff calm, follows_append]
    constructor
    · rintro ⟨middle, before, after⟩
      rwa [gapFree.stop_unique before]
    · intro after
      exact ⟨_, gapFree, after⟩
  · have target : (machine.step (machine.run inputs) input).pc = input.target := by
      simp [machine, step, calm]
    have attached : Attached (machine.run inputs) input := by
      intro hit
      simp [insHit_calm hit] at calm
    rw [if_pos rfl, if_pos rfl, target]
    exact iff_of_true rfl attached

/-- In every run the instructions handed to decode form a stream without a gap from the last flush
to the fetch address, at every moment, exactly when every redirection is attached. -/
theorem delivered_gap_free_iff (inputs : List FetchInput) :
    (∀ past rest, inputs = past ++ rest → GapFree past) ↔ machine.Obeys Attached inputs := by
  apply Synchronous.prefixes_iff
  · exact rfl
  · intro past input gapFree
    exact gapFree_snoc gapFree

/-- The line at the reset address arrives while decode takes one instruction, and the branch target
buffer has a target in the same line for that address. -/
def singleRedirected : List FetchInput :=
  [FetchInput.idle, FetchInput.idle,
    { FetchInput.idle with
      respVld := true
      doubleRdy := false
      ordered := by simp
      predictors := ⟨fun line => ⟨line = 0, 0x80000000, 0x80000008⟩, 0, fun _ => 0⟩ },
    FetchInput.idle]

/-- The instruction at the reset address records the address behind it, and the next one that is
handed over is the one at the target. -/
theorem redirected_single_leaves_gap :
    (¬ ∃ stop, Follows (origin singleRedirected) (handedOver singleRedirected) stop) ∧
      ¬ ∀ past rest, singleRedirected = past ++ rest → GapFree past := by
  have broken : ¬ ∃ stop, Follows (origin singleRedirected) (handedOver singleRedirected) stop :=
    not_follows (by decide +kernel)
  exact ⟨broken, fun free => broken ⟨_, free singleRedirected [] (List.append_nil _).symm⟩⟩

/-- The processor's program counter is the one of a fetch unit whose buffer it is given: what the
processor takes as an input is what `ins_buffer` supplies. -/
theorem step_pc_processor (processor : Processor) {outside : ProcessorInput} {unit : FetchUnit}
    {input : FetchInput} (pc : unit.pc = processor.pc) (flush : input.flush = processor.flush)
    (target : input.flush = true → input.target = processor.pcNext outside)
    (single : input.singleRdy = processor.core.singleReady)
    (double : input.doubleRdy = processor.core.doubleReady)
    (predictors : outside.predictors = input.predictors)
    (buffer : outside.buffer = unit.supply input) :
    (unit.step input).pc = processor.pcNext outside := by
  cases calm : input.flush
  · have quiet := calm
    rw [flush, Processor.flush, Bool.or_eq_false_iff, Bool.or_eq_false_iff] at quiet
    obtain ⟨⟨ret, trap⟩, miss⟩ := quiet
    have first : processor.firstValid outside = unit.hasFirstInst input := by
      rw [Processor.firstValid, ← flush, calm, buffer, ← single, hasFirstInst]
      simp [supply]
    have second : processor.secondValid outside = unit.hasFullInst input := by
      rw [Processor.secondValid, ← flush, calm, buffer, ← double, hasFullInst]
      simp [supply]
    rw [step_pc calm, Processor.pcNext, trap, ret, miss, buffer, pc, predictPc,
      Processor.predictPc, first, second, buffer, pc, predictors]
    rfl
  · rw [← target calm]
    simp [step, calm]

end FetchUnit

end GreenRio
