import GreenRio.Synchronous

set_option autoImplicit false

/-- A line that carries one message at a time. -/
inductive Flight (α : Type) where
  | clear
  /-- `left` more cycles at most before the one in which the message is received. -/
  | carrying (message : α) (left : Nat) (ended : Bool)

namespace Flight

variable {α : Type}

/-- The message that has begun and is not received yet. -/
def messages : Flight α → List α
  | clear => []
  | carrying message _ _ => [message]

/-- How many messages have begun and not ended. -/
def unended : Flight α → Nat
  | carrying _ _ false => 1
  | _ => 0

def Within (longest : Nat) : Flight α → Prop
  | clear => True
  | carrying _ left _ => left ≤ longest

/-- A cycle of the line: the messages that begin, how many end, and the messages received. -/
inductive Next (longest : Nat) : Flight α → List α → Nat → List α → Flight α → Prop
  | rest : Next longest clear [] 0 [] clear
  | begin (message : α) (left : Nat) (bound : left ≤ longest) :
    Next longest clear [message] 0 [] (carrying message left false)
  | carry (message : α) (left : Nat) (ended : Bool) :
    Next longest (carrying message (left + 1) ended) [] 0 [] (carrying message left ended)
  | finish (message : α) (left : Nat) :
    Next longest (carrying message (left + 1) false) [] 1 [] (carrying message left true)
  | receive (message : α) (left : Nat) :
    Next longest (carrying message left true) [] 0 [message] clear
  | finishReceived (message : α) (left : Nat) :
    Next longest (carrying message left false) [] 1 [message] clear

section Cycle

variable {longest ended : Nat} {flight next : Flight α} {begins receives : List α}

/-- Nothing gets lost and nothing comes from nowhere. -/
theorem Next.conserves (cycle : Next longest flight begins ended receives next) :
    flight.messages ++ begins = receives ++ next.messages := by
  cases cycle <;> rfl

/-- What is received has ended: in the same cycle at the latest. -/
theorem Next.ends_balance (cycle : Next longest flight begins ended receives next) :
    flight.unended + begins.length = ended + next.unended := by
  cases cycle with
  | carry message left ended => cases ended <;> rfl
  | _ => rfl

theorem Next.within (cycle : Next longest flight begins ended receives next)
    (within : flight.Within longest) : next.Within longest := by
  cases cycle with
  | begin message left bound => exact bound
  | carry message left ended => exact Nat.le_of_succ_le within
  | finish message left => exact Nat.le_of_succ_le within
  | _ => trivial

/-- A message of `length` beats of which `count` have been sent: one more, and it goes on. -/
theorem Next.beat (message : α) (length count left : Nat) :
    Next longest (carrying message (left + 1) (decide (length ≤ count))) []
      (if count + 1 = length then 1 else 0) []
      (carrying message left (decide (length ≤ count + 1))) := by
  by_cases last : count + 1 = length
  · rw [if_pos last, decide_eq_false (by omega), decide_eq_true (by omega)]
    exact .finish message left
  · rw [if_neg last, decide_eq_decide.mpr (by omega : length ≤ count ↔ length ≤ count + 1)]
    exact .carry message left _

/-- One more, and it is received: the last beat, or one after it. -/
theorem Next.lastBeat (message : α) (length count left : Nat) (late : length ≤ count + 1) :
    Next longest (carrying message left (decide (length ≤ count))) []
      (if count + 1 = length then 1 else 0) [message] clear := by
  by_cases last : count + 1 = length
  · rw [if_pos last, decide_eq_false (by omega)]
    exact .finishReceived message left
  · rw [if_neg last, decide_eq_true (by omega)]
    exact .receive message left

theorem unended_le (flight : Flight α) : flight.unended ≤ flight.messages.length := by
  cases flight with
  | clear => exact Nat.le_refl 0
  | carrying message left ended =>
    cases ended
    · exact Nat.le_refl 1
    · exact Nat.zero_le 1

end Cycle

end Flight

namespace Synchronous

variable {σ ι β : Type} {machine : Synchronous σ ι}

/-- Everything the states reached report, oldest first. -/
def seen (machine : Synchronous σ ι) (report : σ → List β) (inputs : List ι) : List β :=
  machine.log (fun state input => report (machine.step state input)) inputs

@[simp] theorem seen_nil (report : σ → List β) : machine.seen report [] = [] := rfl

@[simp] theorem seen_snoc (report : σ → List β) (inputs : List ι) (input : ι) :
    machine.seen report (inputs ++ [input]) =
      machine.seen report inputs ++ report (machine.run (inputs ++ [input])) := by
  rw [seen, log_snoc, run_snoc]
  rfl

/-- Reports are never taken back. -/
theorem seen_prefix (report : σ → List β) (inputs more : List ι) :
    machine.seen report inputs <+: machine.seen report (inputs ++ more) := by
  induction more using List.reverseRecOn with
  | nil => simp only [List.append_nil, List.prefix_rfl]
  | append_singleton more input ih =>
    rw [← List.append_assoc, seen_snoc]
    exact ih.trans (List.prefix_append _ _)

theorem obeys_append {Allowed : σ → ι → Prop} {inputs more : List ι}
    (obeys : machine.Obeys Allowed (inputs ++ more)) : machine.Obeys Allowed inputs := by
  rintro past input rest rfl
  exact obeys past input (rest ++ more) (by simp)

/-- The machine runs a line as a part of what it does. -/
structure RunsLine (machine : Synchronous σ ι) (Allowed : σ → ι → Prop)
    (Phase : σ → Flight β → Prop) (begins receives : σ → List β) (ends : σ → ι → List Unit)
    (longest : Nat) : Prop where
  initial : Phase machine.reset .clear
  step : ∀ state input flight, Allowed state input → Phase state flight →
    ∃ next, Phase (machine.step state input) next ∧
      flight.Next longest (begins (machine.step state input)) (ends state input).length
        (receives (machine.step state input)) next

namespace RunsLine

variable {Allowed : σ → ι → Prop} {Phase : σ → Flight β → Prop} {begins receives : σ → List β}
  {ends : σ → ι → List Unit} {longest : Nat}

/-- Where the line is after a run: what has begun was received or is on its way. -/
theorem run_flight (line : machine.RunsLine Allowed Phase begins receives ends longest)
    (inputs : List ι) (obeys : machine.Obeys Allowed inputs) :
    ∃ flight, Phase (machine.run inputs) flight ∧ flight.Within longest ∧
      machine.seen begins inputs = machine.seen receives inputs ++ flight.messages ∧
      (machine.log ends inputs).length + flight.unended = (machine.seen begins inputs).length := by
  induction inputs using List.reverseRecOn with
  | nil => exact ⟨.clear, line.initial, trivial, rfl, rfl⟩
  | append_singleton inputs input ih =>
    obtain ⟨before, allowed⟩ := obeys_snoc.mp obeys
    obtain ⟨flight, phase, within, conserved, ended⟩ := ih before
    obtain ⟨next, nextPhase, cycle⟩ := line.step _ input _ allowed phase
    rw [← run_snoc] at nextPhase cycle
    refine ⟨next, nextPhase, cycle.within within, ?_, ?_⟩
    · rw [seen_snoc, seen_snoc, conserved, List.append_assoc, cycle.conserves, List.append_assoc]
    · have balance := cycle.ends_balance
      rw [seen_snoc, log_snoc, List.length_append, List.length_append]
      omega

/-- Messages are received in order, unchanged, and only what has begun. -/
theorem received_prefix (line : machine.RunsLine Allowed Phase begins receives ends longest)
    {inputs : List ι} (obeys : machine.Obeys Allowed inputs) :
    machine.seen receives inputs <+: machine.seen begins inputs := by
  obtain ⟨flight, -, -, conserved, -⟩ := line.run_flight inputs obeys
  rw [conserved]
  exact List.prefix_append _ _

/-- No message is received before its end. -/
theorem received_ended (line : machine.RunsLine Allowed Phase begins receives ends longest)
    {inputs : List ι} (obeys : machine.Obeys Allowed inputs) :
    (machine.seen receives inputs).length ≤ (machine.log ends inputs).length := by
  obtain ⟨flight, -, -, conserved, ended⟩ := line.run_flight inputs obeys
  have few := flight.unended_le
  rw [conserved, List.length_append] at ended
  omega

/-- A line that has time enough delivers what has begun. -/
theorem arrives (line : machine.RunsLine Allowed Phase begins receives ends longest)
    (more : List ι) (inputs : List ι) (flight : Flight β)
    (obeys : machine.Obeys Allowed (inputs ++ more)) (phase : Phase (machine.run inputs) flight)
    (time : ∀ message left ended, flight = .carrying message left ended → left < more.length) :
    machine.seen receives inputs ++ flight.messages <+:
      machine.seen receives (inputs ++ more) := by
  induction more generalizing inputs flight with
  | nil =>
    cases flight with
    | clear => simp [Flight.messages]
    | carrying message left ended => exact absurd (time message left ended rfl) (Nat.not_lt_zero _)
  | cons input more ih =>
    rw [List.append_cons] at obeys ⊢
    have allowed := (obeys_snoc.mp (obeys_append obeys)).2
    obtain ⟨next, nextPhase, cycle⟩ := line.step _ input _ allowed phase
    rw [← run_snoc] at nextPhase cycle
    generalize starts : begins (machine.run (inputs ++ [input])) = started at cycle
    generalize (ends _ _).length = ended at cycle
    generalize arrived : receives (machine.run (inputs ++ [input])) = received at cycle
    have logged : machine.seen receives (inputs ++ [input]) =
        machine.seen receives inputs ++ received := by
      rw [seen_snoc, arrived]
    cases cycle with
    | rest =>
      rw [Flight.messages, List.append_nil, List.append_assoc]
      exact seen_prefix receives inputs _
    | begin message left bound =>
      rw [Flight.messages, List.append_nil, List.append_assoc]
      exact seen_prefix receives inputs _
    | carry message left ended =>
      have later := ih (inputs ++ [input]) (.carrying message left ended) obeys nextPhase (by
        rintro _ _ _ ⟨⟩
        exact Nat.lt_of_succ_lt_succ (time message (left + 1) ended rfl))
      rwa [logged, List.append_nil] at later
    | finish message left =>
      have later := ih (inputs ++ [input]) (.carrying message left true) obeys nextPhase (by
        rintro _ _ _ ⟨⟩
        exact Nat.lt_of_succ_lt_succ (time message (left + 1) false rfl))
      rwa [logged, List.append_nil] at later
    | receive message left =>
      rw [Flight.messages, ← logged]
      exact seen_prefix receives (inputs ++ [input]) more
    | finishReceived message left =>
      rw [Flight.messages, ← logged]
      exact seen_prefix receives (inputs ++ [input]) more

/-- Every message that has begun is received after the longest time. -/
theorem begun_received (line : machine.RunsLine Allowed Phase begins receives ends longest)
    {inputs more : List ι} (obeys : machine.Obeys Allowed (inputs ++ more))
    (time : longest < more.length) :
    machine.seen begins inputs <+: machine.seen receives (inputs ++ more) := by
  obtain ⟨flight, phase, within, conserved, -⟩ := line.run_flight inputs (obeys_append obeys)
  rw [conserved]
  apply line.arrives more inputs flight obeys phase
  rintro message left ended rfl
  exact Nat.lt_of_le_of_lt within time

end RunsLine

end Synchronous
