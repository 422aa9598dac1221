import GreenRio.UartFrames

set_option autoImplicit false

namespace GreenRio

open Segments Synchronous

/-- The clocks of a transmitter and a receiver: how long their cycles take, and how much later the
transmitter starts. -/
structure Clocks where
  txTick : Nat
  rxTick : Nat
  lag : Nat

namespace Clocks

variable {baudRate : Nat} {clocks : Clocks}

/-- The cycle of the transmitter in which the receiver samples the line. -/
def seen (clocks : Clocks) (cycle : Nat) : Nat :=
  (cycle * clocks.rxTick - clocks.lag) / clocks.txTick

/-- The clocks with which the bits of a frame are read. -/
structure Legible (baudRate : Nat) (clocks : Clocks) : Prop where
  runs : 0 < clocks.txTick
  slow : 9 * bitTime baudRate * clocks.rxTick ≤ (9 * bitTime baudRate + 1) * clocks.txTick
  fast : (8 * bitTime baudRate + 1) * clocks.txTick ≤ (9 * bitTime baudRate - 1) * clocks.rxTick

/-- The clocks with which a byte can follow another one at once. -/
structure Matched (baudRate : Nat) (clocks : Clocks) : Prop where
  runs : 0 < clocks.txTick
  slow : (11 * bitTime baudRate + 1) * clocks.rxTick ≤ (11 * bitTime baudRate + 2) * clocks.txTick
  fast : (8 * bitTime baudRate + 1) * clocks.txTick ≤ (9 * bitTime baudRate - 1) * clocks.rxTick

/-- The first cycle of the receiver that samples the line in or after a cycle of the transmitter. -/
structure Meets (clocks : Clocks) (start edge : Nat) : Prop where
  some : 0 < start
  reached : clocks.lag + start * clocks.txTick ≤ edge * clocks.rxTick
  before : edge * clocks.rxTick < clocks.lag + start * clocks.txTick + clocks.rxTick

@[simp] theorem seen_zero : clocks.seen 0 = 0 := by
  rw [seen, Nat.zero_mul, Nat.zero_sub, Nat.zero_div]

theorem seen_mono {cycle later : Nat} (order : cycle ≤ later) :
    clocks.seen cycle ≤ clocks.seen later :=
  Nat.div_le_div_right (Nat.sub_le_sub_right (Nat.mul_le_mul_right _ order) _)

theorem meets_of_seen (runs : 0 < clocks.txTick) {start edge : Nat}
    (unseen : clocks.seen edge < start) (seen : start ≤ clocks.seen (edge + 1)) :
    clocks.Meets start (edge + 1) := by
  rw [Clocks.seen, Nat.div_lt_iff_lt_mul runs] at unseen
  rw [Clocks.seen, Nat.le_div_iff_mul_le runs] at seen
  have some : 0 < start := by
    apply Nat.pos_of_ne_zero
    rintro rfl
    rw [Nat.zero_mul] at unseen
    exact Nat.not_lt_zero _ unseen
  have positive := Nat.mul_pos some runs
  rw [Nat.succ_mul] at seen
  refine ⟨some, ?_, ?_⟩
  · rw [Nat.succ_mul]
    omega
  · rw [Nat.succ_mul]
    omega

section Meets

variable (runs : 0 < clocks.txTick) {start edge : Nat} (meets : clocks.Meets start edge)
include runs meets

theorem Meets.le_seen {ahead age : Nat} (enough : age * clocks.txTick ≤ ahead * clocks.rxTick) :
    start + age ≤ clocks.seen (edge + ahead) := by
  have reached := meets.reached
  rw [seen, Nat.le_div_iff_mul_le runs, Nat.add_mul, Nat.add_mul]
  omega

theorem Meets.seen_lt {ahead age : Nat}
    (few : (ahead + 1) * clocks.rxTick ≤ age * clocks.txTick) :
    clocks.seen (edge + ahead) < start + age := by
  have before := meets.before
  have positive := Nat.mul_pos meets.some runs
  rw [Nat.succ_mul] at few
  rw [seen, Nat.div_lt_iff_lt_mul runs, Nat.add_mul, Nat.add_mul]
  omega

theorem Meets.seen_before : clocks.seen (edge - 1) < start := by
  have before := meets.before
  have positive := Nat.mul_pos meets.some runs
  have less := Nat.sub_mul edge 1 clocks.rxTick
  rw [Nat.one_mul] at less
  rw [seen, Nat.div_lt_iff_lt_mul runs]
  omega

end Meets

/-- A receiver that falls behind by less than a cycle falls behind by less before. -/
theorem behind_of {total count : Nat}
    (slow : total * clocks.rxTick ≤ (total + 1) * clocks.txTick) (few : count ≤ total) :
    count * clocks.rxTick ≤ (count + 1) * clocks.txTick := by
  obtain ⟨rest, rfl⟩ := Nat.exists_eq_add_of_le few
  rw [Nat.add_mul, Nat.succ_mul, Nat.add_mul] at slow
  rw [Nat.succ_mul]
  rcases Nat.le_total clocks.rxTick clocks.txTick with faster | slower
  · have less := Nat.mul_le_mul_left count faster
    omega
  · have more := Nat.mul_le_mul_left rest slower
    omega

/-- The receiver is not ahead by as much as a bit, less the two cycles that sampling takes. -/
theorem Legible.ahead (legible : Legible baudRate clocks) {age lead : Nat} (timed : Timed baudRate)
    (few : age ≤ 8 * bitTime baudRate + 1) (single : lead ≤ 1)
    (late : lead = 1 → clocks.txTick < clocks.rxTick) :
    age * clocks.txTick ≤ (age + bitTime baudRate - 2 - lead) * clocks.rxTick := by
  have slow := timed.slow
  rcases Nat.lt_or_ge clocks.txTick clocks.rxTick with slower | faster
  · exact Nat.mul_le_mul (by omega) (Nat.le_of_lt slower)
  · have none : lead = 0 := by
      by_contra some
      exact absurd (late (by omega)) (Nat.not_lt.mpr faster)
    have fast := legible.fast
    obtain ⟨rest, whole⟩ := Nat.exists_eq_add_of_le few
    have less := Nat.mul_le_mul_left rest faster
    rw [show 9 * bitTime baudRate - 1 = age + bitTime baudRate - 2 - lead + rest by omega, whole,
      Nat.add_mul, Nat.add_mul] at fast
    omega

namespace Matched

variable (matched : Matched baudRate clocks)
include matched

theorem behind {count : Nat} (few : count ≤ 11 * bitTime baudRate + 1) :
    count * clocks.rxTick ≤ (count + 1) * clocks.txTick :=
  behind_of matched.slow few

theorem legible : Legible baudRate clocks :=
  ⟨matched.runs, matched.behind (by omega), matched.fast⟩

/-- The receiver gets to see every cycle of the transmitter, or a later one. -/
theorem seen_reaches (start : Nat) : ∃ cycle, start ≤ clocks.seen cycle := by
  have rx : 0 < clocks.rxTick := by
    have fast := matched.fast
    have some : 0 < (8 * bitTime baudRate + 1) * clocks.txTick :=
      Nat.mul_pos (Nat.succ_pos _) matched.runs
    apply Nat.pos_of_ne_zero
    intro none
    rw [none, Nat.mul_zero] at fast
    omega
  refine ⟨clocks.lag + start * clocks.txTick, ?_⟩
  have enough := Nat.le_mul_of_pos_right (clocks.lag + start * clocks.txTick) rx
  rw [seen, Nat.le_div_iff_mul_le matched.runs]
  omega

/-- What the receiver sees moves on by two cycles at most. -/
theorem seen_succ (timed : Timed baudRate) (cycle : Nat) :
    clocks.seen (cycle + 1) ≤ clocks.seen cycle + 2 := by
  have slow := timed.slow
  have few : 1 * clocks.rxTick ≤ (1 + 1) * clocks.txTick := matched.behind (by omega)
  rw [seen, seen, ← Nat.add_mul_div_right _ _ matched.runs, Nat.succ_mul]
  apply Nat.div_le_div_right
  omega

end Matched

end Clocks

namespace UartTx

variable {baudRate : Nat} {txs : Nat → UartTx} {inputs : Nat → UartTxInput} {begin later : Nat}
  (timed : Timed baudRate) (runs : Runs baudRate txs inputs)
include timed runs

theorem rests_of_takes {byte : BitVec 8} (taken : takes txs inputs begin = [byte]) :
    (txs begin).Rests := by
  rcases rests_or_sends timed runs begin with rests | ⟨_, _, _, _, _, _, _, sends⟩
  · exact rests
  · exact absurd (taken.symm.trans sends.taken) (List.cons_ne_nil _ _)

/-- The next byte is taken when its frame can follow. -/
theorem takes_apart (first : takes txs inputs begin ≠ []) (second : takes txs inputs later ≠ [])
    (order : begin < later) : begin + 11 * bitTime baudRate + 2 ≤ later := by
  rcases takes_cases txs inputs begin with none | ⟨byte, taken⟩
  · exact absurd none first
  by_contra early
  obtain ⟨age, rfl⟩ := Nat.exists_eq_add_of_le order
  have sends := sends_after timed runs (rests_of_takes timed runs taken) taken age (by omega)
  exact second sends.taken

/-- The line is high for two cycles before a frame. -/
theorem txO_before {byte : BitVec 8} (taken : takes txs inputs begin = [byte]) {cycle : Nat}
    (near : begin ≤ cycle + 1) (before : cycle ≤ begin) : (txs cycle).txO = true := by
  have rests := rests_of_takes timed runs taken
  rcases rests_or_sends timed runs cycle with idle | ⟨first, age, other, rfl, within, -, -, sends⟩
  · exact idle.txO
  · have next : first + 1 + age + 1 = begin := by
      rcases Nat.eq_or_lt_of_le before with same | less
      · exact absurd (same ▸ rests.cs) sends.active
      · omega
    have ended := sends.step timed within (runs.enabled _ sends.active)
    rw [← runs.follows, next] at ended
    rcases ended with ⟨late, -⟩ | ⟨-, still⟩
    · have positive := timed.positive
      have stop : 10 ≤ Segments.segment (bitTime baudRate) age := le_segment positive (by omega)
      rw [sends.txO, frameBit, if_neg (by omega), if_neg (by omega), if_neg (by omega)]
    · exact absurd rests.cs still.active

/-- The bytes are taken one by one. -/
theorem takes_window {stop : Nat} (order : begin ≤ stop)
    (few : stop ≤ begin + 11 * bitTime baudRate + 2) :
    ∃ fresh, fresh.length ≤ 1 ∧
      upTo (takes txs inputs) stop = upTo (takes txs inputs) begin ++ fresh := by
  refine upTo_window order (fun cycle => ?_) fun cycle later since after before some => ?_
  · rcases takes_cases txs inputs cycle with none | ⟨byte, taken⟩
    · rw [none]
      exact Nat.zero_le 1
    · rw [taken]
      exact Nat.le_refl 1
  · by_contra again
    have apart := takes_apart timed runs some again after
    omega

/-- While a frame is on the line no other byte is taken. -/
theorem upTo_takes_frame {byte : BitVec 8} (taken : takes txs inputs begin = [byte])
    (order : begin < later) (within : later ≤ begin + 11 * bitTime baudRate + 2) :
    upTo (takes txs inputs) later = upTo (takes txs inputs) begin ++ [byte] := by
  rw [← taken, ← upTo_succ]
  apply upTo_of_silent order
  intro cycle since before
  by_contra again
  have apart := takes_apart timed runs (taken ▸ List.cons_ne_nil _ _) again since
  omega

end UartTx

/-- A transmitter and a receiver on two clocks. -/
structure SerialLink where
  clocks : Clocks
  txs : Nat → UartTx
  txInputs : Nat → UartTxInput
  rxs : Nat → UartRx
  rxInputs : Nat → UartRxInput

namespace SerialLink

open UartTx (takes_apart takes_cases takes_window upTo_takes_frame rests_of_takes)

/-- The cycle of the transmitter that is sampled in a cycle of the receiver. -/
def seen (link : SerialLink) (cycle : Nat) : Nat := link.clocks.seen cycle

/-- The bytes that are taken in a cycle of the transmitter. -/
def takes (link : SerialLink) (cycle : Nat) : List (BitVec 8) :=
  UartTx.takes link.txs link.txInputs cycle

/-- The bytes that are handed over in a cycle of the receiver. -/
def stores (link : SerialLink) (cycle : Nat) : List (BitVec 8) :=
  UartRx.stores link.rxs link.rxInputs cycle

/-- The receiver is connected to the transmitter. -/
structure Runs (baudRate : Nat) (link : SerialLink) : Prop where
  tx : UartTx.Runs baudRate link.txs link.txInputs
  rx : UartRx.Runs baudRate link.rxs link.rxInputs
  wired : ∀ cycle, (link.rxInputs cycle).rxI = (link.txs (link.seen cycle)).txO

/-- The receiver waits, and has every byte whose frame it could have seen the start of. -/
structure Waits (baudRate : Nat) (link : SerialLink) (lead cycle : Nat) : Prop where
  rests : (link.rxs cycle).Rests baudRate lead
  few : lead ≤ 1
  stored : upTo link.stores cycle = upTo link.takes (link.seen (cycle - 3))
  past : ∀ begin, link.takes begin ≠ [] → begin < link.seen (cycle - 3) →
    begin + 1 + (9 * bitTime baudRate + 1) ≤ link.seen (cycle - 3)
  fresh : lead = 1 → link.clocks.rxTick ≤ link.clocks.txTick → ∀ begin, link.takes begin ≠ [] →
    link.seen (cycle - 3) ≤ begin → link.seen (cycle - 2) ≤ begin

/-- The frame of a byte has been seen to start. -/
structure Meets (baudRate : Nat) (link : SerialLink) (lead begin edge : Nat) (byte : BitVec 8) :
    Prop where
  taken : link.takes begin = [byte]
  meets : link.clocks.Meets (begin + 1) edge
  rests : (link.rxs (edge + 2)).Rests baudRate lead
  falls : (link.rxs (edge + 2)).sRxFall = true
  few : lead ≤ 1
  late : lead = 1 → link.clocks.txTick < link.clocks.rxTick
  stored : upTo link.stores (edge + 2) = upTo link.takes begin

variable {baudRate : Nat} {link : SerialLink} (runs : Runs baudRate link)

include runs in
theorem heard_eq (cycle : Nat) :
    UartRx.heard link.rxInputs cycle = (link.txs (link.seen (cycle - 1))).txO := by
  cases cycle with
  | zero =>
    rw [Nat.zero_sub, seen, Clocks.seen_zero, runs.tx.initial]
    rfl
  | succ cycle => exact runs.wired cycle

include runs in
theorem sRxFall_iff (cycle : Nat) : (link.rxs cycle).sRxFall = true ↔
    (link.txs (link.seen (cycle - 2))).txO = false ∧
      (link.txs (link.seen (cycle - 3))).txO = true := by
  rw [UartRx.sRxFall_eq runs.rx, heard_eq runs, heard_eq runs, Bool.and_eq_true, Bool.not_eq_true',
    Nat.sub_sub, Nat.sub_sub]

variable (timed : Timed baudRate) (matched : link.clocks.Matched baudRate)

namespace Meets

variable {lead begin edge : Nat} {byte : BitVec 8}
  (meets : Meets baudRate link lead begin edge byte)
include meets

theorem some : link.takes begin ≠ [] := by
  rw [meets.taken]
  exact List.cons_ne_nil _ _

/-- Where the bit clock would have been at its start. -/
theorem base_lead : edge + 2 - lead + lead = edge + 2 :=
  Nat.sub_add_cancel (Nat.le_trans meets.few (by omega))

theorem rests_base : (link.rxs (edge + 2 - lead + lead)).Rests baudRate lead := by
  rw [meets.base_lead]
  exact meets.rests

theorem falls_base : (link.rxs (edge + 2 - lead + lead)).sRxFall = true := by
  rw [meets.base_lead]
  exact meets.falls

include runs timed

/-- What the receiver reads is the byte that was taken. -/
theorem sampled (legible : link.clocks.Legible baudRate) :
    UartRx.Sampled baudRate link.rxInputs (edge + 2 - lead) byte := by
  have slow := timed.slow
  have few := meets.few
  refine ⟨fun bit inside => ?_⟩
  have most : (bit + 2) * bitTime baudRate ≤ 9 * bitTime baudRate :=
    Nat.mul_le_mul_right _ (by omega)
  have next : (bit + 2) * bitTime baudRate = (bit + 1) * bitTime baudRate + bitTime baudRate :=
    Nat.succ_mul _ _
  have least : bitTime baudRate ≤ (bit + 1) * bitTime baudRate :=
    Nat.le_mul_of_pos_left _ (Nat.succ_pos bit)
  have lower := meets.meets.le_seen legible.runs
    (legible.ahead timed (show (bit + 1) * bitTime baudRate + 1 ≤ _ by omega) few meets.late)
  have upper :
      link.seen (edge + ((bit + 1) * bitTime baudRate + 1 + bitTime baudRate - 2 - lead)) <
        begin + 1 + ((bit + 2) * bitTime baudRate + 1) := by
    apply meets.meets.seen_lt legible.runs
    refine Nat.le_trans (Nat.mul_le_mul_right _ ?_) (Clocks.behind_of legible.slow (by omega))
    omega
  rw [heard_eq runs, show edge + 2 - lead + (bit + 2) * bitTime baudRate - 2 - 1 =
    edge + ((bit + 1) * bitTime baudRate + 1 + bitTime baudRate - 2 - lead) by omega]
  change begin + 1 + _ ≤ link.seen _ at lower
  obtain ⟨age, seen⟩ := Nat.exists_eq_add_of_le (Nat.le_trans (Nat.le_add_right _ _) lower)
  have segment : Segments.segment (bitTime baudRate) age = bit + 1 :=
    segment_eq (by omega) (show age ≤ (bit + 2) * bitTime baudRate by omega)
  have sends := UartTx.sends_after timed runs.tx (rests_of_takes timed runs.tx meets.taken)
    meets.taken age (by omega)
  rw [segment] at sends
  rw [seen, sends.txO, frameBit, if_neg (Nat.succ_ne_zero bit), if_pos (by omega),
    Nat.add_sub_cancel]

include matched

/-- The receiver has the byte from the cycle after it has read the last bit. -/
theorem stored_after (age : Nat) (later : lead ≤ age) (within : age ≤ 11 * bitTime baudRate + 1) :
    upTo link.stores (edge + 2 - lead + age) =
      upTo link.takes begin ++ if 9 * bitTime baudRate + 1 < age then [byte] else [] := by
  have slow := timed.slow
  have few := meets.few
  have sampled := meets.sampled runs timed matched.legible
  induction age, later using Nat.le_induction with
  | base =>
    rw [if_neg (by omega), List.append_nil, meets.base_lead]
    exact meets.stored
  | succ age later ih =>
    have stores := UartRx.stores_after timed runs.rx few meets.rests_base meets.falls_base sampled
      age later (by omega)
    rw [← Nat.add_assoc, upTo_succ, ih (by omega)]
    change _ ++ UartRx.stores link.rxs link.rxInputs _ = _
    rw [stores]
    by_cases now : age = 9 * bitTime baudRate + 1
    · rw [if_pos now, if_neg (by omega), if_pos (by omega), List.append_nil]
    · rw [if_neg now, List.append_nil]
      by_cases had : 9 * bitTime baudRate + 1 < age
      · rw [if_pos had, if_pos (by omega)]
      · rw [if_neg had, if_neg (by omega)]

/-- The receiver waits again before the next frame, and after the data bits of this one. -/
theorem waits_after : Waits baudRate link 1 (edge + 2 - lead + 11 * bitTime baudRate + 1) := by
  have slow := timed.slow
  have few := meets.few
  have sampled := meets.sampled runs timed matched.legible
  have oldest : edge + 2 - lead + 11 * bitTime baudRate + 1 - 3 =
      edge + (11 * bitTime baudRate - lead) := by omega
  have middle : edge + 2 - lead + 11 * bitTime baudRate + 1 - 2 =
      edge + (11 * bitTime baudRate + 1 - lead) := by omega
  have high : link.seen (edge + (11 * bitTime baudRate - lead)) <
      begin + 1 + (11 * bitTime baudRate + 2) := by
    apply meets.meets.seen_lt matched.runs
    refine Nat.le_trans (matched.behind (by omega)) (Nat.mul_le_mul_right _ ?_)
    omega
  have low : begin + 1 + (9 * bitTime baudRate + 1) ≤
      link.seen (edge + (11 * bitTime baudRate - lead)) := by
    apply meets.meets.le_seen matched.runs
    have most : (8 * bitTime baudRate + 1) * _ ≤ _ :=
      matched.legible.ahead timed (Nat.le_refl _) (Nat.zero_le 1)
        (fun none => absurd none (by decide))
    have more : bitTime baudRate * _ ≤ _ :=
      matched.legible.ahead timed (by omega) (Nat.zero_le 1) (fun none => absurd none (by decide))
    have both := Nat.add_le_add most more
    rw [← Nat.add_mul, ← Nat.add_mul] at both
    rw [show 9 * bitTime baudRate + 1 = 8 * bitTime baudRate + 1 + bitTime baudRate by omega]
    exact Nat.le_trans both (Nat.mul_le_mul_right _ (by omega))
  have apart : ∀ later, link.takes later ≠ [] → begin < later →
      begin + 11 * bitTime baudRate + 2 ≤ later := fun later some after =>
    takes_apart timed runs.tx meets.some some after
  refine ⟨UartRx.rests_after timed runs.rx few meets.rests_base meets.falls_base sampled,
    Nat.le_refl 1, ?_, ?_, ?_⟩
  · have stored := stored_after runs timed matched meets (11 * bitTime baudRate + 1) (by omega)
      (Nat.le_refl _)
    rw [← Nat.add_assoc, if_pos (by omega)] at stored
    rw [stored, oldest]
    exact (upTo_takes_frame timed runs.tx meets.taken (by omega) (by omega)).symm
  · rw [oldest]
    intro other some before
    rcases Nat.lt_or_ge begin other with after | not_after
    · have := apart other some after
      omega
    · omega
  · rw [oldest, middle]
    intro _ faster other some since
    have next := apart other some (by omega)
    have near : link.seen (edge + (11 * bitTime baudRate + 1 - lead)) <
        begin + 1 + (11 * bitTime baudRate + 2) := by
      apply meets.meets.seen_lt matched.runs
      exact Nat.mul_le_mul (by omega) faster
    omega

end Meets

include timed matched in
theorem seen_near (cycle : Nat) : link.seen (cycle - 2) ≤ link.seen (cycle - 3) + 2 := by
  by_cases some : 3 ≤ cycle
  · have next := matched.seen_succ timed (cycle - 3)
    rw [show cycle - 3 + 1 = cycle - 2 by omega] at next
    exact next
  · rw [show cycle - 2 = cycle - 3 by omega]
    exact Nat.le_add_right _ 2

namespace Waits

variable {lead cycle : Nat} (waits : Waits baudRate link lead cycle)
include runs timed matched waits

/-- Where the line does not fall no frame has started. -/
theorem step (steady : (link.rxs cycle).sRxFall = false) : Waits baudRate link 0 (cycle + 1) := by
  have slow := timed.slow
  have near : link.seen (cycle - 2) ≤ link.seen (cycle - 3) + 2 := seen_near timed matched cycle
  have order : link.seen (cycle - 3) ≤ link.seen (cycle - 2) := Clocks.seen_mono (by omega)
  have none : ∀ begin, link.takes begin ≠ [] → link.seen (cycle - 3) ≤ begin →
      link.seen (cycle - 2) ≤ begin := by
    intro begin some since
    by_contra started
    rcases takes_cases link.txs link.txInputs begin with none | ⟨byte, taken⟩
    · exact some none
    obtain ⟨age, seen⟩ := Nat.exists_eq_add_of_le (Nat.not_le.mp started)
    have first : Segments.segment (bitTime baudRate) age = 0 :=
      Nat.le_zero.mp (segment_le (by omega) (by omega))
    have sends := UartTx.sends_after timed runs.tx (rests_of_takes timed runs.tx taken) taken age
      (by omega)
    rw [first] at sends
    have low : (link.txs (link.seen (cycle - 2))).txO = false := by
      rw [seen]
      exact sends.txO
    have high : (link.txs (link.seen (cycle - 3))).txO = true :=
      UartTx.txO_before timed runs.tx taken (by omega) since
    have falls := (sRxFall_iff runs cycle).mpr ⟨low, high⟩
    exact absurd (steady.symm.trans falls) (by decide)
  have oldest : cycle + 1 - 3 = cycle - 2 := by omega
  refine ⟨?_, Nat.zero_le 1, ?_, ?_, fun one => absurd one (by decide)⟩
  · rw [runs.rx.follows]
    exact waits.rests.step timed steady
  · have nothing : link.stores cycle = [] := waits.rests.stored
    rw [oldest, upTo_succ, nothing, List.append_nil, waits.stored]
    symm
    apply upTo_of_silent order
    intro begin since before
    by_contra some
    exact absurd (none begin some since) (Nat.not_le.mpr before)
  · rw [oldest]
    intro begin some before
    rcases Nat.lt_or_ge begin (link.seen (cycle - 3)) with earlier | since
    · exact Nat.le_trans (waits.past begin some earlier) order
    · exact absurd (none begin some since) (Nat.not_le.mpr before)

/-- Where it falls the frame of a new byte has started, for the last frame is past its data bits. -/
theorem step_fall (falls : (link.rxs cycle).sRxFall = true) :
    ∃ begin edge byte, edge + 2 = cycle ∧ Meets baudRate link lead begin edge byte := by
  have slow := timed.slow
  have positive := timed.positive
  have near : link.seen (cycle - 2) ≤ link.seen (cycle - 3) + 2 := seen_near timed matched cycle
  have order : link.seen (cycle - 3) ≤ link.seen (cycle - 2) := Clocks.seen_mono (by omega)
  obtain ⟨low, high⟩ := (sRxFall_iff runs cycle).mp falls
  rcases UartTx.rests_or_sends timed runs.tx (link.seen (cycle - 2)) with
    idle | ⟨begin, age, byte, seen, within, rests, taken, sends⟩
  · exact absurd (low.symm.trans idle.txO) (by decide)
  have some : link.takes begin ≠ [] := by
    rw [takes, taken]
    exact List.cons_ne_nil _ _
  have new : link.seen (cycle - 3) ≤ begin := by
    by_contra old
    have past := waits.past begin some (Nat.not_le.mp old)
    obtain ⟨before, earlier⟩ := Nat.exists_eq_add_of_le (Nat.not_le.mp old)
    have late : 9 ≤ Segments.segment (bitTime baudRate) age := le_segment positive (by omega)
    have parity : Segments.segment (bitTime baudRate) age = 9 := by
      by_contra other
      have bit := sends.txO
      rw [frameBit, if_neg (by omega), if_neg (by omega), if_neg other] at bit
      exact absurd (low.symm.trans bit) (by decide)
    have whole := @position (bitTime baudRate) age
    have offset := @offset_le (bitTime baudRate) age positive
    rw [parity] at whole sends
    have same : Segments.segment (bitTime baudRate) before = 9 :=
      segment_eq (by omega) (by omega)
    have sent := UartTx.sends_after timed runs.tx rests taken before (by omega)
    rw [same] at sent
    rw [earlier] at high
    exact absurd ((sends.txO.symm.trans low).symm.trans (sent.txO.symm.trans high)) (by decide)
  obtain ⟨past, rfl⟩ : ∃ past, cycle = past + 3 := by
    refine ⟨cycle - 3, ?_⟩
    by_contra few
    rw [show cycle - 3 = cycle - 2 by omega] at new
    omega
  refine ⟨begin, past + 1, byte, rfl, taken, ?_, waits.rests, falls, waits.few, ?_, ?_⟩
  · exact Clocks.meets_of_seen matched.runs (Nat.lt_succ_of_le new)
      (show begin + 1 ≤ link.seen (past + 3 - 2) by omega)
  · intro one
    by_contra faster
    have still := waits.fresh one (Nat.not_lt.mp faster) begin some new
    omega
  · change upTo link.stores (past + 3) = _
    rw [waits.stored]
    symm
    apply upTo_of_silent new
    intro other since before
    by_contra again
    have apart := takes_apart timed runs.tx again some before
    omega

end Waits

include runs timed matched in
/-- In every cycle the receiver waits, or it is in the frame of a byte that has been taken. -/
theorem waits_or_reads (cycle : Nat) : (∃ lead, Waits baudRate link lead cycle) ∨
    ∃ lead begin edge byte age, Meets baudRate link lead begin edge byte ∧
      edge + 2 - lead + age = cycle ∧ lead < age ∧ age ≤ 11 * bitTime baudRate := by
  have slow := timed.slow
  induction cycle with
  | zero =>
    refine Or.inl ⟨0, ?_, Nat.zero_le 1, ?_, ?_, fun one => absurd one (by decide)⟩
    · rw [runs.rx.initial]
      exact UartRx.Rests.reset timed
    · rw [seen, Clocks.seen_zero]
      rfl
    · rw [seen, Clocks.seen_zero]
      exact fun begin _ none => absurd none (Nat.not_lt_zero begin)
  | succ cycle ih =>
    rcases ih with ⟨lead, waits⟩ | ⟨lead, begin, edge, byte, age, meets, rfl, later, within⟩
    · cases falls : (link.rxs cycle).sRxFall with
      | false => exact Or.inl ⟨0, waits.step runs timed matched falls⟩
      | true =>
        obtain ⟨begin, edge, byte, rfl, meets⟩ := waits.step_fall runs timed matched falls
        have few := meets.few
        exact Or.inr ⟨lead, begin, edge, byte, lead + 1, meets, by omega, by omega, by omega⟩
    · rcases Nat.eq_or_lt_of_le within with rfl | more
      · exact Or.inl ⟨1, meets.waits_after runs timed matched⟩
      · exact Or.inr ⟨lead, begin, edge, byte, age + 1, meets, by omega, by omega, more⟩

include runs timed matched in
/-- No byte is lost, doubled or changed on the line, and one at most is under way; what was taken
nine bits ago is there. -/
theorem delivers (cycle : Nat) :
    (∃ flight, flight.length ≤ 1 ∧
      upTo link.takes (link.seen cycle) = upTo link.stores cycle ++ flight) ∧
    upTo link.takes (link.seen (cycle - (9 * bitTime baudRate + 4))) <+:
      upTo link.stores cycle := by
  have slow := timed.slow
  rcases waits_or_reads runs timed matched cycle with
    ⟨lead, waits⟩ | ⟨lead, begin, edge, byte, age, meets, rfl, later, within⟩
  · have near : link.seen cycle ≤ link.seen (cycle - 3) + 6 := by
      have first := matched.seen_succ timed (cycle - 3)
      have second := matched.seen_succ timed (cycle - 3 + 1)
      have third := matched.seen_succ timed (cycle - 3 + 1 + 1)
      have last : link.seen cycle ≤ link.seen (cycle - 3 + 1 + 1 + 1) :=
        Clocks.seen_mono (by omega)
      rw [seen, seen] at last ⊢
      omega
    rw [waits.stored]
    exact ⟨takes_window timed runs.tx (Clocks.seen_mono (by omega)) (by omega),
      upTo_mono (Clocks.seen_mono (by omega))⟩
  · have few := meets.few
    have stored := meets.stored_after runs timed matched age (Nat.le_of_lt later) (by omega)
    have reached : begin + 1 + 0 ≤ link.seen (edge + 0) :=
      meets.meets.le_seen matched.runs (by rw [Nat.zero_mul, Nat.zero_mul])
    have order : link.seen (edge + 0) ≤ link.seen (edge + 2 - lead + age) :=
      Clocks.seen_mono (by omega)
    have frame : ∀ stop, begin < stop → stop ≤ begin + 11 * bitTime baudRate + 2 →
        upTo link.takes stop = upTo link.takes begin ++ [byte] := fun stop before within =>
      upTo_takes_frame timed runs.tx meets.taken before within
    rw [stored]
    by_cases had : 9 * bitTime baudRate + 1 < age
    · have near : link.seen (edge + (2 - lead + age)) <
          begin + 1 + (22 * bitTime baudRate + 4) := by
        apply meets.meets.seen_lt matched.runs
        have most : (11 * bitTime baudRate + 1) * _ ≤ _ := matched.behind (Nat.le_refl _)
        have more : 2 * _ ≤ _ := matched.behind (by omega)
        have both := Nat.add_le_add most more
        rw [← Nat.add_mul, ← Nat.add_mul] at both
        exact Nat.le_trans (Nat.mul_le_mul_right _ (by omega))
          (Nat.le_trans both (Nat.mul_le_mul_right _ (by omega)))
      have early : link.seen (edge + 2 * bitTime baudRate) <
          begin + 1 + (2 * bitTime baudRate + 1 + 1) :=
        meets.meets.seen_lt matched.runs (matched.behind (by omega))
      have past : link.seen (edge + 2 - lead + age - (9 * bitTime baudRate + 4)) ≤
          link.seen (edge + 2 * bitTime baudRate) := Clocks.seen_mono (by omega)
      rw [if_pos had, ← frame (begin + 11 * bitTime baudRate + 2) (by omega) (Nat.le_refl _)]
      refine ⟨?_, upTo_mono (by omega)⟩
      rw [show edge + (2 - lead + age) = edge + 2 - lead + age by omega] at near
      rcases Nat.lt_or_ge (begin + 11 * bitTime baudRate + 2)
        (link.seen (edge + 2 - lead + age)) with next | same
      · exact takes_window timed runs.tx (Nat.le_of_lt next) (by omega)
      · refine ⟨[], Nat.zero_le 1, ?_⟩
        rw [frame _ (by omega) same, List.append_nil, frame _ (by omega) (Nat.le_refl _)]
    · have near : link.seen (edge + (2 - lead + age)) <
          begin + 1 + (11 * bitTime baudRate + 2) := by
        apply meets.meets.seen_lt matched.runs
        exact Nat.le_trans (matched.behind (by omega)) (Nat.mul_le_mul_right _ (by omega))
      have past : link.seen (edge + 2 - lead + age - (9 * bitTime baudRate + 4)) ≤
          link.seen (edge - 1) := Clocks.seen_mono (by omega)
      have before : link.seen (edge - 1) < begin + 1 := meets.meets.seen_before matched.runs
      rw [show edge + (2 - lead + age) = edge + 2 - lead + age by omega] at near
      rw [if_neg had, List.append_nil]
      exact ⟨⟨[byte], Nat.le_refl 1, frame _ (by omega) (by omega)⟩, upTo_mono (by omega)⟩

end SerialLink

namespace Uart

variable {fifoTxData : BitVec 8} {uartWbmRdataO : BitVec 32} {uart : Uart} {input : UartInput}

theorem timed : Timed uartBaudRate := ⟨by decide, by decide⟩

/-- The counters and pointers of both queues agree. -/
structure Sound (uart : Uart) : Prop where
  tx : uart.txFifo.Sound
  rx : uart.rxFifo.Sound

theorem run_sound (inputs : List UartInput) :
    ((machine fifoTxData uartWbmRdataO).run inputs).Sound := by
  apply Synchronous.run_invariant
  · exact ⟨IoGenericFifo.reset_sound _ _, IoGenericFifo.reset_sound _ _⟩
  · exact fun _ _ sound => ⟨IoGenericFifo.step_sound sound.tx, IoGenericFifo.step_sound sound.rx⟩

/-- What is sent enters the queue of the transmitter, and what it takes leaves it. -/
theorem step_sent (sound : uart.Sound) :
    uart.txFifo.contents ++ uart.sent input =
      uart.begun input ++ (uart.step input).txFifo.contents := by
  have leaves : (uart.txFifo.exchange uart.txFifoInput).leaving uart.txFifo.contents =
      uart.begun input := IoGenericFifo.leaving_eq
  have next : (uart.step input).txFifo.contents =
      (uart.txFifo.exchange uart.txFifoInput).next uart.txFifo.contents :=
    IoGenericFifo.step_contents sound.tx
  rw [next, ← leaves, BoundedQueue.Exchange.leaving_next]
  rfl

/-- What is received enters the queue of the receiver, and what is taken out leaves it. -/
theorem step_drained (sound : uart.Sound) :
    uart.rxFifo.contents ++ uart.stored input =
      uart.drained input ++ (uart.step input).rxFifo.contents := by
  have next : (uart.step input).rxFifo.contents =
      (uart.rxFifo.exchange (uart.rxFifoInput input)).next uart.rxFifo.contents :=
    IoGenericFifo.step_contents sound.rx
  rw [next, drained, BoundedQueue.Exchange.leaving_next]
  rfl

/-- The queue of the transmitter holds what was sent and is not taken yet. -/
theorem sent_eq (inputs : List UartInput) :
    (machine fifoTxData uartWbmRdataO).log sent inputs =
      (machine fifoTxData uartWbmRdataO).log begun inputs ++
        ((machine fifoTxData uartWbmRdataO).run inputs).txFifo.contents := by
  induction inputs using List.reverseRecOn with
  | nil => rfl
  | append_singleton inputs input ih =>
    rw [log_snoc, log_snoc, run_snoc, ih, List.append_assoc, List.append_assoc,
      step_sent (run_sound inputs)]
    rfl

/-- The queue of the receiver holds what was stored and is not taken out yet. -/
theorem stored_eq (inputs : List UartInput) :
    (machine fifoTxData uartWbmRdataO).log stored inputs =
      (machine fifoTxData uartWbmRdataO).log drained inputs ++
        ((machine fifoTxData uartWbmRdataO).run inputs).rxFifo.contents := by
  induction inputs using List.reverseRecOn with
  | nil => rfl
  | append_singleton inputs input ih =>
    rw [log_snoc, log_snoc, run_snoc, ih, List.append_assoc, List.append_assoc,
      step_drained (run_sound inputs)]
    rfl

/-- A read of the receive data register that is held until it is acknowledged returns the byte that its
first cycle takes out. Its second cycle takes another one, which this read does not return. -/
theorem held_read_drains_two {first second : UartInput} (reads : fifoRxReady first = true)
    (held : fifoRxReady second = true) (stb : second.wbm.stb = true)
    (waits : uart.rxFifo.validO = true) (waits' : (uart.step first).rxFifo.validO = true) :
    (uart.step first).uartWbmAckO second = true ∧
      (uart.step first).uartWbmRdataO = 0#24 ++ uart.rxFifo.dataO ∧
      uart.drained first = [uart.rxFifo.dataO] ∧
      (uart.step first).drained second = [(uart.step first).rxFifo.dataO] := by
  have taken : uart.drained first =
      if fifoRxReady first && uart.rxFifo.validO then [uart.rxFifo.dataO] else [] :=
    IoGenericFifo.leaving_eq
  have taken' : (uart.step first).drained second =
      if fifoRxReady second && (uart.step first).rxFifo.validO
      then [(uart.step first).rxFifo.dataO] else [] := IoGenericFifo.leaving_eq
  rw [reads, waits] at taken
  rw [held, waits'] at taken'
  refine ⟨?_, ?_, taken, taken'⟩
  · simp only [fifoRxReady, Bool.and_eq_true, beq_iff_eq, Bool.not_eq_true'] at reads held
    have other : SocBus.uartRxDataAddr ≠ SocBus.uartTxDataAddr := by decide
    simp [uartWbmAckO, step, ackFfNext, reads, held, stb, other]
  · simp only [fifoRxReady, Bool.and_eq_true, beq_iff_eq, Bool.not_eq_true'] at reads
    have other : SocBus.uartRxDataAddr ≠ SocBus.uartTxDataAddr := by decide
    simp [step, rdataNext, reads, waits, other]

end Uart

/-- Two of the peripherals on two clocks, of which one listens to the other. -/
structure UartPair where
  clocks : Clocks
  senderData : BitVec 8
  senderRdata : BitVec 32
  receiverData : BitVec 8
  receiverRdata : BitVec 32
  sending : Nat → UartInput
  wbm : Nat → Wishbone.Port

namespace UartPair

variable (pair : UartPair)

def senderMachine : Synchronous Uart UartInput := Uart.machine pair.senderData pair.senderRdata

def receiverMachine : Synchronous Uart UartInput :=
  Uart.machine pair.receiverData pair.receiverRdata

/-- The sending side after some of its cycles. -/
def sender (cycle : Nat) : Uart := pair.senderMachine.after pair.sending cycle

/-- The sender's cycle that a cycle of the receiver sees. -/
def seen (cycle : Nat) : Nat := pair.clocks.seen cycle

def receiving (cycle : Nat) : UartInput :=
  ⟨pair.wbm cycle, (pair.sender (pair.seen cycle)).tx.txO⟩

/-- The receiving side after some of its cycles. -/
def receiver (cycle : Nat) : Uart := pair.receiverMachine.after pair.receiving cycle

/-- The bytes that have entered the sender's queue. -/
def sent (cycles : Nat) : List (BitVec 8) :=
  pair.senderMachine.log Uart.sent (opening pair.sending cycles)

/-- Those that have been put on the line. -/
def begun (cycles : Nat) : List (BitVec 8) :=
  pair.senderMachine.log Uart.begun (opening pair.sending cycles)

/-- Those that have been taken out of the receiver's queue. -/
def drained (cycles : Nat) : List (BitVec 8) :=
  pair.receiverMachine.log Uart.drained (opening pair.receiving cycles)

/-- Software turns the sender off only between frames, and makes room for what arrives. -/
structure Lawful : Prop where
  enabled : ∀ cycle, (pair.sender cycle).tx.cs ≠ .idle → (pair.sender cycle).outEn = true
  room : ∀ cycle, (pair.receiver cycle).rx.cs = .saveData →
    (pair.receiver cycle).rxFifo.readyO = true

/-- The two ends of the line. -/
def link : SerialLink where
  clocks := pair.clocks
  txs cycle := (pair.sender cycle).tx
  txInputs cycle := (pair.sender cycle).txInput
  rxs cycle := (pair.receiver cycle).rx
  rxInputs cycle := (pair.receiver cycle).rxInput (pair.receiving cycle)

variable {pair}

theorem sender_succ (cycle : Nat) :
    pair.sender (cycle + 1) = (pair.sender cycle).step (pair.sending cycle) :=
  after_succ _ _ cycle

theorem receiver_succ (cycle : Nat) :
    pair.receiver (cycle + 1) = (pair.receiver cycle).step (pair.receiving cycle) :=
  after_succ _ _ cycle

theorem link_runs (lawful : pair.Lawful) : pair.link.Runs Uart.uartBaudRate where
  tx := ⟨rfl, fun cycle => congrArg Uart.tx (sender_succ cycle), lawful.enabled⟩
  rx := ⟨rfl, fun cycle => congrArg Uart.rx (receiver_succ cycle), fun _ => rfl, lawful.room⟩
  wired _ := rfl

/-- What the line delivers, seen from the queues at its ends. -/
theorem arrives (matched : pair.clocks.Matched Uart.uartBaudRate) (lawful : pair.Lawful)
    (cycle : Nat) :
    (∃ flight, flight.length ≤ 1 ∧ pair.begun (pair.seen cycle) =
      pair.drained cycle ++ (pair.receiver cycle).rxFifo.contents ++ flight) ∧
    pair.begun (pair.seen (cycle - (9 * bitTime Uart.uartBaudRate + 4))) <+:
      pair.drained cycle ++ (pair.receiver cycle).rxFifo.contents := by
  have taken : ∀ cycles, upTo pair.link.takes cycles = pair.begun cycles := fun cycles =>
    (log_opening Uart.begun cycles).symm
  have stored : upTo pair.link.stores cycle =
      pair.drained cycle ++ (pair.receiver cycle).rxFifo.contents :=
    (log_opening Uart.stored cycle).symm.trans (Uart.stored_eq _)
  have delivered := SerialLink.delivers (link_runs lawful) Uart.timed matched cycle
  rw [stored, taken, taken] at delivered
  exact delivered

/-- Every byte that is sent is taken out, on its way or in a queue, unchanged and in order; on the line
there is one at most, for a little more than nine bits. -/
theorem bytes_arrive (matched : pair.clocks.Matched Uart.uartBaudRate) (lawful : pair.Lawful)
    (cycle : Nat) :
    (∃ flight, flight.length ≤ 1 ∧
      pair.sent (pair.seen cycle) =
        pair.drained cycle ++ (pair.receiver cycle).rxFifo.contents ++ flight ++
          (pair.sender (pair.seen cycle)).txFifo.contents) ∧
    pair.begun (pair.seen (cycle - (9 * bitTime Uart.uartBaudRate + 4))) <+:
      pair.drained cycle ++ (pair.receiver cycle).rxFifo.contents := by
  obtain ⟨⟨flight, few, whole⟩, arrived⟩ := arrives matched lawful cycle
  refine ⟨⟨flight, few, ?_⟩, arrived⟩
  rw [← whole]
  exact Uart.sent_eq _

/-- A transmitter that stays on empties its queue. -/
theorem begun_later (lawful : pair.Lawful) (on : ∀ cycle, (pair.sender cycle).outEn = true)
    (cycle : Nat) : ∃ later, pair.sent cycle <+: pair.begun later := by
  have runs := (link_runs lawful).tx
  have sent : ∀ cycle, pair.sent cycle = upTo _ cycle := log_opening Uart.sent
  have begun : ∀ cycle, pair.begun cycle = upTo _ cycle := log_opening Uart.begun
  have kept : ∀ cycle, pair.sent cycle = pair.begun cycle ++ (pair.sender cycle).txFifo.contents :=
    fun cycle => Uart.sent_eq (opening pair.sending cycle)
  have recurs : ∃ᶠ cycle in Filter.atTop, (pair.sender cycle).tx.Rests :=
    Filter.frequently_atTop.mpr (UartTx.rests_later Uart.timed runs)
  simp only [sent, begun] at kept ⊢
  apply upTo_drains kept recurs
  intro later rests some
  have ready : (pair.sender later).tx.txReadyO (pair.sender later).txInput = true := by
    rw [UartTx.txReadyO, rests.cs]
    exact on later
  have valid : (pair.sender later).txFifo.validO = true := by
    rw [IoGenericFifo.validO_iff, ← IoGenericFifo.contents_length]
    exact List.length_pos_iff.mpr some
  change (if (pair.sender later).tx.txReadyO (pair.sender later).txInput &&
    (pair.sender later).txFifo.validO then _ else _) ≠ _
  rw [ready, valid]
  exact List.cons_ne_nil _ _

/-- Reads of the receive data register that recur empty the queue of the receiver. -/
theorem drained_later
    (reads : ∃ᶠ cycle in Filter.atTop, Uart.fifoRxReady (pair.receiving cycle) = true)
    (cycle : Nat) :
    ∃ later, pair.drained cycle ++ (pair.receiver cycle).rxFifo.contents <+: pair.drained later := by
  have drained : ∀ cycle, pair.drained cycle = upTo _ cycle := log_opening Uart.drained
  have stored : ∀ cycle, pair.receiverMachine.log Uart.stored (opening pair.receiving cycle) =
      upTo _ cycle := log_opening Uart.stored
  have kept : ∀ cycle, pair.receiverMachine.log Uart.stored (opening pair.receiving cycle) =
      pair.drained cycle ++ (pair.receiver cycle).rxFifo.contents := fun cycle =>
    Uart.stored_eq (opening pair.receiving cycle)
  rw [← kept]
  simp only [stored, drained] at kept ⊢
  apply upTo_drains kept reads
  intro later ready some
  have valid : (pair.receiver later).rxFifo.validO = true := by
    rw [IoGenericFifo.validO_iff, ← IoGenericFifo.contents_length]
    exact List.length_pos_iff.mpr some
  have leaves : Uart.drained (pair.receiver later) (pair.receiving later) =
      if Uart.fifoRxReady (pair.receiving later) && (pair.receiver later).rxFifo.validO
      then [(pair.receiver later).rxFifo.dataO] else [] := IoGenericFifo.leaving_eq
  rw [ready, valid] at leaves
  exact leaves ▸ List.cons_ne_nil _ _

/-- Every byte that is sent is taken out of the receiver's queue in the end, if the sender stays on and
reads recur. -/
theorem bytes_drained (matched : pair.clocks.Matched Uart.uartBaudRate) (lawful : pair.Lawful)
    (on : ∀ cycle, (pair.sender cycle).outEn = true)
    (reads : ∃ᶠ cycle in Filter.atTop, Uart.fifoRxReady (pair.receiving cycle) = true)
    (cycle : Nat) : ∃ later, pair.sent cycle <+: pair.drained later := by
  obtain ⟨started, taken⟩ := begun_later lawful on cycle
  obtain ⟨seeing, seen⟩ := matched.seen_reaches started
  have begun : ∀ cycle, pair.begun cycle = upTo _ cycle := log_opening Uart.begun
  have more : pair.begun started <+: pair.begun (pair.seen seeing) := by
    rw [begun, begun]
    exact upTo_mono seen
  obtain ⟨-, arrived⟩ := arrives matched lawful
    (seeing + (9 * bitTime Uart.uartBaudRate + 4))
  rw [Nat.add_sub_cancel] at arrived
  obtain ⟨later, all⟩ := drained_later reads (seeing + (9 * bitTime Uart.uartBaudRate + 4))
  exact ⟨later, taken.trans (more.trans (arrived.trans all))⟩

/-- A sender that is written to in every cycle, and a receiver that is read in every cycle by a
clock that is a little slower. -/
def busy : UartPair where
  clocks := ⟨10000, 10001, 5⟩
  senderData := 0
  senderRdata := 0
  receiverData := 0
  receiverRdata := 0
  sending cycle := ⟨⟨⟨SocBus.uartTxDataAddr, BitVec.ofNat 32 cycle, true⟩, true, true⟩, true⟩
  wbm _ := ⟨⟨SocBus.uartRxDataAddr, 0, false⟩, true, true⟩

theorem busy_enabled (cycle : Nat) : (busy.sender cycle).outEn = true := by
  induction cycle with
  | zero => rfl
  | succ cycle ih =>
    rw [sender_succ]
    exact ih

theorem busy_room (cycle : Nat) : (busy.receiver cycle).rxFifo.elements ≤ 1 := by
  induction cycle with
  | zero => exact Nat.zero_le 1
  | succ cycle ih =>
    have count : (busy.receiver (cycle + 1)).rxFifo.elements +
        ((busy.receiver cycle).rxFifo.validO).toNat = (busy.receiver cycle).rxFifo.elements +
          ((busy.receiver cycle).stored (busy.receiving cycle)).length := by
      rw [receiver_succ]
      exact IoGenericFifo.step_elements rfl
    have single : ((busy.receiver cycle).stored (busy.receiving cycle)).length ≤ 1 := by
      rw [Uart.stored, UartRx.stored]
      split
      · exact Nat.le_refl 1
      · exact Nat.zero_le 1
    rcases Nat.eq_zero_or_pos (busy.receiver cycle).rxFifo.elements with none | some
    · omega
    · rw [IoGenericFifo.validO_iff.mpr some, Bool.toNat_true] at count
      omega

theorem busy_lawful : busy.Lawful where
  enabled cycle _ := busy_enabled cycle
  room cycle _ := by
    have few := busy_room cycle
    rw [IoGenericFifo.readyO, IoGenericFifo.full, beq_eq_false_iff_ne.mpr (by omega)]
    rfl

theorem bytes_arrive_busy : (∃ flight, flight.length ≤ 1 ∧
      busy.sent (busy.seen 1000000) =
        busy.drained 1000000 ++ (busy.receiver 1000000).rxFifo.contents ++ flight ++
          (busy.sender (busy.seen 1000000)).txFifo.contents) ∧
    busy.begun (busy.seen (1000000 - (9 * bitTime Uart.uartBaudRate + 4))) <+:
      busy.drained 1000000 ++ (busy.receiver 1000000).rxFifo.contents :=
  bytes_arrive ⟨by decide, by decide, by decide⟩ busy_lawful 1000000

theorem bytes_drained_busy : ∃ later, busy.sent 1000000 <+: busy.drained later :=
  bytes_drained ⟨by decide, by decide, by decide⟩ busy_lawful busy_enabled
    (Filter.Frequently.of_forall fun _ => rfl) 1000000

end UartPair

end GreenRio
