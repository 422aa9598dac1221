import Mathlib.Data.ZMod.Defs

set_option autoImplicit false

/-- A synchronous machine: a reset state and the state after one clock edge. -/
structure Synchronous (σ ι : Type) where
  reset : σ
  step : σ → ι → σ

namespace Synchronous

variable {σ ι β : Type}

/-- The state after a sequence of cycles from reset. -/
def run (machine : Synchronous σ ι) (inputs : List ι) : σ :=
  inputs.foldl machine.step machine.reset

/-- Everything `emit` reports along a run, oldest first. -/
def log (machine : Synchronous σ ι) (emit : σ → ι → List β) (inputs : List ι) : List β :=
  (inputs.foldl (fun pair input => (machine.step pair.1 input, pair.2 ++ emit pair.1 input))
    (machine.reset, [])).2

@[simp] theorem run_nil (machine : Synchronous σ ι) : machine.run [] = machine.reset := rfl

@[simp] theorem run_snoc (machine : Synchronous σ ι) (inputs : List ι) (input : ι) :
    machine.run (inputs ++ [input]) = machine.step (machine.run inputs) input := by
  simp [run]

private theorem log_state (machine : Synchronous σ ι) (emit : σ → ι → List β) (inputs : List ι)
    (start : σ) (before : List β) :
    (inputs.foldl (fun pair input => (machine.step pair.1 input, pair.2 ++ emit pair.1 input))
      (start, before)).1 = inputs.foldl machine.step start := by
  induction inputs generalizing start before with
  | nil => rfl
  | cons input rest ih => exact ih _ _

@[simp] theorem log_nil (machine : Synchronous σ ι) (emit : σ → ι → List β) :
    machine.log emit [] = [] := rfl

@[simp] theorem log_snoc (machine : Synchronous σ ι) (emit : σ → ι → List β) (inputs : List ι)
    (input : ι) :
    machine.log emit (inputs ++ [input]) =
      machine.log emit inputs ++ emit (machine.run inputs) input := by
  simp only [log, List.foldl_append, List.foldl_cons, List.foldl_nil, log_state]
  rfl

/-- What holds at reset and is kept by every cycle holds after every run. -/
theorem run_invariant (machine : Synchronous σ ι) (Holds : σ → Prop)
    (initial : Holds machine.reset)
    (preserved : ∀ state input, Holds state → Holds (machine.step state input))
    (inputs : List ι) : Holds (machine.run inputs) := by
  induction inputs using List.reverseRecOn with
  | nil => exact initial
  | append_singleton inputs input ih =>
    rw [run_snoc]
    exact preserved _ _ ih

/-- Every cycle of a run is allowed in the state it starts from. -/
def Obeys (machine : Synchronous σ ι) (Allowed : σ → ι → Prop) (inputs : List ι) : Prop :=
  ∀ past input rest, inputs = past ++ input :: rest → Allowed (machine.run past) input

theorem obeys_nil (machine : Synchronous σ ι) (Allowed : σ → ι → Prop) :
    machine.Obeys Allowed [] := by
  intro past input rest split
  simp at split

theorem obeys_snoc {machine : Synchronous σ ι} {Allowed : σ → ι → Prop} {inputs : List ι}
    {input : ι} : machine.Obeys Allowed (inputs ++ [input]) ↔
      machine.Obeys Allowed inputs ∧ Allowed (machine.run inputs) input := by
  constructor
  · intro obeys
    refine ⟨fun past other rest split => obeys past other (rest ++ [input]) (by simp [split]), ?_⟩
    exact obeys inputs input [] rfl
  · rintro ⟨before, last⟩ past other rest split
    rcases List.eq_nil_or_concat' rest with rfl | ⟨front, final, rfl⟩
    · obtain ⟨rfl, same⟩ := List.append_inj' split rfl
      obtain ⟨rfl, -⟩ := List.cons.inj same
      exact last
    · rw [← List.cons_append, ← List.append_assoc] at split
      exact before past other front (List.append_inj' split rfl).1

/-- What a run obeys, its beginnings obey. -/
theorem obeys_prefix {machine : Synchronous σ ι} {Allowed : σ → ι → Prop} {inputs past : List ι}
    {input : ι} {rest : List ι} (obeys : machine.Obeys Allowed inputs)
    (split : inputs = past ++ input :: rest) : machine.Obeys Allowed past := by
  rintro earlier other between rfl
  exact obeys earlier other (between ++ input :: rest) (by simp [split])

/-- Rules that agree on every state of a run are obeyed by the same runs. -/
theorem obeys_congr {machine : Synchronous σ ι} {Allowed Other : σ → ι → Prop}
    (same : ∀ past input, Allowed (machine.run past) input ↔ Other (machine.run past) input)
    (inputs : List ι) : machine.Obeys Allowed inputs ↔ machine.Obeys Other inputs := by
  constructor
  · intro obeys past input rest split
    exact (same past input).mp (obeys past input rest split)
  · intro obeys past input rest split
    exact (same past input).mpr (obeys past input rest split)

/-- A rule that keeps an invariant is as strict as every rule that follows from it there. -/
theorem obeys_of_invariant {machine : Synchronous σ ι} {Allowed Other : σ → ι → Prop}
    {Holds : σ → Prop} (initial : Holds machine.reset)
    (follows : ∀ state input, Holds state → Allowed state input → Other state input)
    (kept : ∀ state input, Holds state → Allowed state input → Holds (machine.step state input))
    {inputs : List ι} (obeys : machine.Obeys Allowed inputs) : machine.Obeys Other inputs := by
  suffices both : Holds (machine.run inputs) ∧ machine.Obeys Other inputs from both.2
  induction inputs using List.reverseRecOn with
  | nil => exact ⟨initial, obeys_nil _ _⟩
  | append_singleton inputs input ih =>
    obtain ⟨before, last⟩ := obeys_snoc.mp obeys
    obtain ⟨holds, obeyed⟩ := ih before
    rw [run_snoc, obeys_snoc]
    exact ⟨kept _ _ holds last, obeyed, follows _ _ holds last⟩

/-- Two rules that agree under an invariant, which both of them keep, are obeyed by the same runs. -/
theorem obeys_iff_of_invariant {machine : Synchronous σ ι} {Allowed Other : σ → ι → Prop}
    {Holds : σ → Prop} (initial : Holds machine.reset)
    (same : ∀ state input, Holds state → (Allowed state input ↔ Other state input))
    (kept : ∀ state input, Holds state → Other state input → Holds (machine.step state input))
    (inputs : List ι) : machine.Obeys Allowed inputs ↔ machine.Obeys Other inputs := by
  suffices both : (machine.Obeys Other inputs → Holds (machine.run inputs)) ∧
      (machine.Obeys Allowed inputs ↔ machine.Obeys Other inputs) from both.2
  induction inputs using List.reverseRecOn with
  | nil => exact ⟨fun _ => initial, iff_of_true (obeys_nil _ _) (obeys_nil _ _)⟩
  | append_singleton inputs input ih =>
    obtain ⟨holds, before⟩ := ih
    constructor
    · intro obeys
      obtain ⟨obeyed, last⟩ := obeys_snoc.mp obeys
      rw [run_snoc]
      exact kept _ _ (holds obeyed) last
    · rw [obeys_snoc, obeys_snoc, before]
      exact and_congr_right fun obeyed => same _ _ (holds obeyed)

/-- A property that exactly the allowed cycles keep holds at every moment of exactly the runs whose
cycles are all allowed. -/
theorem prefixes_iff {machine : Synchronous σ ι} {Allowed : σ → ι → Prop} {Holds : List ι → Prop}
    (initial : Holds [])
    (kept : ∀ past input, Holds past →
      (Holds (past ++ [input]) ↔ Allowed (machine.run past) input)) (inputs : List ι) :
    (∀ past rest, inputs = past ++ rest → Holds past) ↔ machine.Obeys Allowed inputs := by
  constructor
  · intro holds past input rest split
    have before := holds past (input :: rest) split
    exact (kept past input before).mp (holds (past ++ [input]) rest (by simp [split]))
  · rintro obeys past rest rfl
    induction past using List.reverseRecOn generalizing rest with
    | nil => exact initial
    | append_singleton past input ih =>
      rw [List.append_assoc, List.singleton_append] at obeys
      exact (kept past input (ih _ obeys)).mpr (obeys past input rest rfl)

/-- The same, decided cycle by cycle. -/
def ObeysFrom (machine : Synchronous σ ι) (Allowed : σ → ι → Prop) : σ → List ι → Prop
  | _, [] => True
  | state, input :: rest => Allowed state input ∧ machine.ObeysFrom Allowed (machine.step state input) rest

theorem obeysFrom_snoc {machine : Synchronous σ ι} {Allowed : σ → ι → Prop} {inputs : List ι}
    {input : ι} {state : σ} : machine.ObeysFrom Allowed state (inputs ++ [input]) ↔
      machine.ObeysFrom Allowed state inputs ∧ Allowed (inputs.foldl machine.step state) input := by
  induction inputs generalizing state with
  | nil => simp [ObeysFrom]
  | cons first rest ih => simp [ObeysFrom, ih, and_assoc]

theorem obeys_iff {machine : Synchronous σ ι} {Allowed : σ → ι → Prop} {inputs : List ι} :
    machine.Obeys Allowed inputs ↔ machine.ObeysFrom Allowed machine.reset inputs := by
  induction inputs using List.reverseRecOn with
  | nil => exact iff_of_true (machine.obeys_nil Allowed) trivial
  | append_singleton inputs input ih => rw [obeys_snoc, obeysFrom_snoc, ih, run]

instance decidableObeysFrom (machine : Synchronous σ ι) (Allowed : σ → ι → Prop)
    [∀ state input, Decidable (Allowed state input)] (state : σ) :
    ∀ inputs, Decidable (machine.ObeysFrom Allowed state inputs)
  | [] => isTrue trivial
  | input :: rest =>
    have := decidableObeysFrom machine Allowed (machine.step state input) rest
    inferInstanceAs (Decidable (_ ∧ _))

instance decidableObeys (machine : Synchronous σ ι) (Allowed : σ → ι → Prop)
    [∀ state input, Decidable (Allowed state input)] (inputs : List ι) :
    Decidable (machine.Obeys Allowed inputs) :=
  decidable_of_iff _ obeys_iff.symm

/-- The same rule for a property of the state together with the log so far. -/
theorem log_invariant (machine : Synchronous σ ι) (emit : σ → ι → List β)
    (Holds : σ → List β → Prop) (initial : Holds machine.reset [])
    (preserved : ∀ state past input, Holds state past →
      Holds (machine.step state input) (past ++ emit state input))
    (inputs : List ι) : Holds (machine.run inputs) (machine.log emit inputs) := by
  induction inputs using List.reverseRecOn with
  | nil => exact initial
  | append_singleton inputs input ih =>
    rw [run_snoc, log_snoc]
    exact preserved _ _ _ ih

/-- The rule for runs whose cycles are all allowed. -/
theorem obeys_invariant (machine : Synchronous σ ι) (Allowed : σ → ι → Prop)
    (emit : σ → ι → List β) (Holds : σ → List β → Prop) (initial : Holds machine.reset [])
    (preserved : ∀ state past input, Allowed state input → Holds state past →
      Holds (machine.step state input) (past ++ emit state input))
    (inputs : List ι) (obeys : machine.Obeys Allowed inputs) :
    Holds (machine.run inputs) (machine.log emit inputs) := by
  induction inputs using List.reverseRecOn with
  | nil => exact initial
  | append_singleton inputs input ih =>
    obtain ⟨before, allowed⟩ := obeys_snoc.mp obeys
    rw [run_snoc, log_snoc]
    exact preserved _ _ _ allowed (ih before)

/-- What `emit` reports since the last cycle that `clear` marks; that cycle reports nothing. -/
def since (machine : Synchronous σ ι) (clear : σ → ι → Bool) (emit : σ → ι → List β)
    (inputs : List ι) : List β :=
  (inputs.foldl
    (fun pair input => (machine.step pair.1 input,
      if clear pair.1 input then [] else pair.2 ++ emit pair.1 input))
    (machine.reset, [])).2

private theorem since_state (machine : Synchronous σ ι) (clear : σ → ι → Bool)
    (emit : σ → ι → List β) (inputs : List ι) (start : σ) (before : List β) :
    (inputs.foldl
      (fun pair input => (machine.step pair.1 input,
        if clear pair.1 input then [] else pair.2 ++ emit pair.1 input))
      (start, before)).1 = inputs.foldl machine.step start := by
  induction inputs generalizing start before with
  | nil => rfl
  | cons input rest ih => exact ih _ _

@[simp] theorem since_nil (machine : Synchronous σ ι) (clear : σ → ι → Bool)
    (emit : σ → ι → List β) : machine.since clear emit [] = [] := rfl

theorem since_snoc (machine : Synchronous σ ι) (clear : σ → ι → Bool) (emit : σ → ι → List β)
    (inputs : List ι) (input : ι) :
    machine.since clear emit (inputs ++ [input]) =
      if clear (machine.run inputs) input then []
      else machine.since clear emit inputs ++ emit (machine.run inputs) input := by
  simp only [since, List.foldl_append, List.foldl_cons, List.foldl_nil, since_state]
  rfl

/-- What every report satisfies holds of all that is remembered. -/
theorem since_forall (machine : Synchronous σ ι) (clear : σ → ι → Bool) (emit : σ → ι → List β)
    {Holds : β → Prop} {inputs : List ι}
    (each : ∀ state, ∀ input ∈ inputs, ∀ report ∈ emit state input, Holds report) :
    ∀ report ∈ machine.since clear emit inputs, Holds report := by
  induction inputs using List.reverseRecOn with
  | nil => simp
  | append_singleton inputs input ih =>
    intro report member
    rw [since_snoc] at member
    split at member
    · cases member
    · rcases List.mem_append.mp member with old | fresh
      · exact ih (fun state earlier inside => each state earlier (by simp [inside])) report old
      · exact each _ input (by simp) report fresh

/-- Some cycle of the run had the event, and no cycle behind it ended what the event began. -/
def Standing (machine : Synchronous σ ι) (event ends : σ → ι → Prop) (inputs : List ι) : Prop :=
  ∃ past input rest, inputs = past ++ input :: rest ∧ event (machine.run past) input ∧
    ∀ between next after, rest = between ++ next :: after →
      ¬ ends (machine.run (past ++ input :: between)) next

theorem standing_nil (machine : Synchronous σ ι) (event ends : σ → ι → Prop) :
    ¬ machine.Standing event ends [] := by
  rintro ⟨past, input, rest, split, -⟩
  simp at split

theorem standing_snoc {machine : Synchronous σ ι} {event ends : σ → ι → Prop} {inputs : List ι}
    {input : ι} : machine.Standing event ends (inputs ++ [input]) ↔
      event (machine.run inputs) input ∨
        (machine.Standing event ends inputs ∧ ¬ ends (machine.run inputs) input) := by
  constructor
  · rintro ⟨past, first, rest, split, happened, stays⟩
    rcases List.eq_nil_or_concat' rest with rfl | ⟨front, final, rfl⟩
    · obtain ⟨rfl, same⟩ := List.append_inj' split rfl
      obtain ⟨rfl, -⟩ := List.cons.inj same
      exact Or.inl happened
    · rw [← List.cons_append, ← List.append_assoc] at split
      obtain ⟨rfl, same⟩ := List.append_inj' split rfl
      obtain ⟨rfl, -⟩ := List.cons.inj same
      refine Or.inr ⟨⟨past, first, front, rfl, happened, ?_⟩, stays front input [] rfl⟩
      intro between next after inside
      exact stays between next (after ++ [input]) (by simp [inside])
  · rintro (happened | ⟨⟨past, first, rest, rfl, happened, stays⟩, remains⟩)
    · exact ⟨inputs, input, [], rfl, happened, fun between next after split => by simp at split⟩
    · refine ⟨past, first, rest ++ [input], by simp, happened, ?_⟩
      intro between next after split
      rcases List.eq_nil_or_concat' after with rfl | ⟨front, final, rfl⟩
      · obtain ⟨rfl, same⟩ := List.append_inj' split rfl
        obtain ⟨rfl, -⟩ := List.cons.inj same
        exact remains
      · rw [← List.cons_append, ← List.append_assoc] at split
        exact stays between next front (List.append_inj' split rfl).1

/-- A flag that the event sets and nothing but an end clears tells whether the event stands. -/
theorem standing_iff {machine : Synchronous σ ι} {event ends : σ → ι → Prop} (raised : σ → Prop)
    (initial : ¬ raised machine.reset)
    (stepped : ∀ state input, raised (machine.step state input) ↔
      event state input ∨ (raised state ∧ ¬ ends state input)) (inputs : List ι) :
    raised (machine.run inputs) ↔ machine.Standing event ends inputs := by
  induction inputs using List.reverseRecOn with
  | nil => exact iff_of_false initial (machine.standing_nil event ends)
  | append_singleton inputs input ih => rw [run_snoc, stepped, standing_snoc, ih]

section Part

variable {σ' ι' : Type}

/-- The inputs a part of a machine receives along a run. -/
def fed (outer : Synchronous σ ι) (feed : σ → ι → ι') (inputs : List ι) : List ι' :=
  outer.log (fun state input => [feed state input]) inputs

@[simp] theorem fed_snoc (outer : Synchronous σ ι) (feed : σ → ι → ι') (inputs : List ι) (input : ι) :
    outer.fed feed (inputs ++ [input]) =
      outer.fed feed inputs ++ [feed (outer.run inputs) input] := by
  simp [fed]

theorem mem_fed {outer : Synchronous σ ι} {feed : σ → ι → ι'} {inputs : List ι} {fed : ι'}
    (member : fed ∈ outer.fed feed inputs) : ∃ state input, fed = feed state input := by
  induction inputs using List.reverseRecOn with
  | nil => cases member
  | append_singleton inputs input ih =>
    rw [fed_snoc, List.mem_append, List.mem_singleton] at member
    exact member.elim ih fun last => ⟨_, _, last⟩

variable (outer : Synchronous σ ι) (inner : Synchronous σ' ι') (project : σ → σ')
  (feed : σ → ι → ι')

/-- A part that steps on what it is fed runs as it would by itself. -/
theorem run_part (initial : project outer.reset = inner.reset)
    (commutes : ∀ state input, project (outer.step state input) =
      inner.step (project state) (feed state input)) (inputs : List ι) :
    project (outer.run inputs) = inner.run (outer.fed feed inputs) := by
  induction inputs using List.reverseRecOn with
  | nil => exact initial
  | append_singleton inputs input ih =>
    rw [fed_snoc, run_snoc, run_snoc, commutes, ih]

/-- It also reports what it would report by itself. -/
theorem log_part (initial : project outer.reset = inner.reset)
    (commutes : ∀ state input, project (outer.step state input) =
      inner.step (project state) (feed state input))
    (emit : σ' → ι' → List β) (inputs : List ι) :
    outer.log (fun state input => emit (project state) (feed state input)) inputs =
      inner.log emit (outer.fed feed inputs) := by
  induction inputs using List.reverseRecOn with
  | nil => rfl
  | append_singleton inputs input ih =>
    rw [fed_snoc, log_snoc, log_snoc, ih,
      run_part outer inner project feed initial commutes]

end Part

end Synchronous
