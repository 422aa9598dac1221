import Mathlib.Tactic.IntervalCases
import GreenRio.Endless
import GreenRio.Segments
import GreenRio.Uart

set_option autoImplicit false

namespace GreenRio

open Segments Synchronous

/-- How many cycles a bit stays on the line. -/
def bitTime (baudRate : Nat) : Nat := baudCntEnd baudRate + 1

/-- The rates at which the counter of nine bits reaches its end, and takes its time for it. -/
structure Timed (baudRate : Nat) : Prop where
  slow : 3 ≤ bitTime baudRate
  fits : bitTime baudRate ≤ 512

theorem Timed.positive {baudRate : Nat} (timed : Timed baudRate) : 0 < bitTime baudRate :=
  Nat.lt_of_lt_of_le (by decide) timed.slow

namespace BaudGen

variable {baudRate offset : Nat}

/-- The bit clock at an offset; the last cycle of a bit is the one with `bit_done`. -/
def into (baudRate offset : Nat) : BaudGen :=
  ⟨BitVec.ofNat 9 (offset % bitTime baudRate), offset == bitTime baudRate⟩

theorem step_within (timed : Timed baudRate) (inside : offset < bitTime baudRate) :
    (into baudRate offset).step baudRate true = into baudRate (offset + 1) := by
  have fits := timed.fits
  have counted : (BitVec.ofNat 9 offset).toNat = offset :=
    Nat.mod_eq_of_lt (Nat.lt_of_lt_of_le inside fits)
  rw [into, into, step, if_pos rfl, Nat.mod_eq_of_lt inside]
  change (if (BitVec.ofNat 9 offset).toNat = _ then _ else _) = _
  rw [counted]
  by_cases last : offset + 1 = bitTime baudRate
  · have reached : offset = baudCntEnd baudRate := Nat.succ_injective last
    rw [if_pos reached, last, Nat.mod_self, BEq.rfl]
    rfl
  · have before : ¬ offset = baudCntEnd baudRate := fun same => last (congrArg Nat.succ same)
    rw [if_neg before, Nat.mod_eq_of_lt (by omega), beq_eq_false_iff_ne.mpr last,
      BitVec.ofNat_add]
    rfl

theorem step_across (timed : Timed baudRate) :
    (into baudRate (bitTime baudRate)).step baudRate true = into baudRate 1 := by
  have slow := timed.slow
  have before : ¬ 0 = baudCntEnd baudRate := by
    rw [bitTime] at slow
    omega
  have short : (1 == bitTime baudRate) = false := beq_eq_false_iff_ne.mpr (by omega)
  rw [into, into, step, if_pos rfl, Nat.mod_self, Nat.mod_eq_of_lt (by omega), short]
  exact if_neg before

theorem step_stopped (timed : Timed baudRate) (baud : BaudGen) :
    baud.step baudRate false = into baudRate 0 := by
  have slow := timed.slow
  have short : (0 == bitTime baudRate) = false := beq_eq_false_iff_ne.mpr (by omega)
  rw [step, into, if_neg Bool.false_ne_true, Nat.zero_mod, short]
  rfl

theorem bitDone_within {baud : BaudGen} (here : baud = into baudRate offset)
    (inside : offset < bitTime baudRate) : baud.bitDone = false := by
  rw [here]
  exact beq_eq_false_iff_ne.mpr (Nat.ne_of_lt inside)

theorem bitDone_last {baud : BaudGen} (here : baud = into baudRate offset)
    (last : offset = bitTime baudRate) : baud.bitDone = true := by
  rw [here]
  exact beq_iff_eq.mpr last

end BaudGen

/-- The parity of the first bits of a byte. -/
def frameParity (byte : BitVec 8) : Nat → Bool
  | 0 => false
  | count + 1 => frameParity byte count ^^ byte.getLsbD count

/-- What a frame puts on the line, bit by bit: a start bit, the byte, its parity and stop bits. -/
def frameBit (byte : BitVec 8) (segment : Nat) : Bool :=
  if segment = 0 then false
  else if segment ≤ 8 then byte.getLsbD (segment - 1)
  else if segment = 9 then frameParity byte 8
  else true

/-- How many data bits are done with, before the last one. -/
def bitCount (segment : Nat) : BitVec 3 :=
  if segment ≤ 8 then BitVec.ofNat 3 (segment - 1) else 0

namespace UartTx

variable {baudRate segment offset : Nat} {byte : BitVec 8} {tx : UartTx} {input : UartTxInput}

def stateAt (segment : Nat) : UartTxState :=
  if segment = 0 then .startBit
  else if segment ≤ 8 then .data
  else if segment = 9 then .parity
  else if segment = 10 then .stopBitFirst
  else .stopBitLast

/-- Between frames. -/
structure Rests (tx : UartTx) : Prop where
  cs : tx.cs = .idle
  regBitCount : tx.regBitCount = 0

/-- Some way into the frame of a byte. -/
structure Sends (baudRate : Nat) (byte : BitVec 8) (segment offset : Nat) (tx : UartTx) :
    Prop where
  cs : tx.cs = stateAt segment
  regBitCount : tx.regBitCount = bitCount segment
  regData : ∀ bit, bit + (segment - 1) < 8 →
    tx.regData.getLsbD bit = byte.getLsbD (bit + (segment - 1))
  parityBit : 0 < segment → segment ≤ 9 → tx.parityBit = frameParity byte (segment - 1)
  baud : tx.baud = .into baudRate offset

theorem stateAt_ne_idle : stateAt segment ≠ .idle := by
  unfold stateAt
  split_ifs <;> decide

namespace Rests

theorem reset : UartTx.reset.Rests := ⟨rfl, rfl⟩

theorem txO (rests : tx.Rests) : tx.txO = true := by
  rw [UartTx.txO, rests.cs]

theorem step (rests : tx.Rests) (silent : tx.taken input = []) :
    (tx.step input baudRate).Rests := by
  constructor
  · change (if input.cfgEnI then tx.ns input else .idle) = _
    rw [ns, rests.cs]
    rw [taken, txReadyO, rests.cs] at silent
    cases enabled : input.cfgEnI <;> cases valid : input.txValidI <;> simp_all
  · change tx.regBitCountNext = 0
    rw [regBitCountNext, rests.cs, if_neg (by simp)]
    exact rests.regBitCount

/-- A byte that is taken goes on the line. -/
theorem step_taken (timed : Timed baudRate) (rests : tx.Rests) (taken : tx.taken input = [byte]) :
    (tx.step input baudRate).Sends baudRate byte 0 0 := by
  rw [UartTx.taken] at taken
  cases ready : tx.txReadyO input && input.txValidI with
  | false =>
    rw [ready] at taken
    cases taken
  | true =>
    rw [ready, if_pos rfl] at taken
    obtain ⟨enabled, valid⟩ := Bool.and_eq_true_iff.mp ready
    rw [txReadyO, Bool.and_eq_true] at enabled
    have cs := rests.cs
    refine ⟨?_, ?_, ?_, fun some => absurd some (Nat.lt_irrefl 0), ?_⟩
    · change (if input.cfgEnI then tx.ns input else .idle) = _
      rw [enabled.2, if_pos rfl, ns, cs, valid]
      rfl
    · change tx.regBitCountNext = 0
      rw [regBitCountNext, cs, if_neg (by simp)]
      exact rests.regBitCount
    · intro bit _
      change (if tx.sampleData input then tx.regDataNext input else tx.regData).getLsbD bit = _
      rw [sampleData, cs]
      change BitVec.getLsbD (if input.txValidI then _ else _) bit = _
      rw [valid, if_pos rfl, regDataNext, cs, if_pos ⟨rfl, valid⟩, (List.cons.inj taken).1]
      rfl
    · change tx.baud.step baudRate tx.baudgenEn = _
      rw [baudgenEn, cs]
      exact BaudGen.step_stopped timed tx.baud

end Rests

theorem regDataNext_data (cs : tx.cs = .data) {bit : Nat} (inside : bit < 7) :
    (tx.regDataNext input).getLsbD bit = tx.regData.getLsbD (bit + 1) := by
  rw [regDataNext, cs, if_neg (by simp), BitVec.getLsbD_append, if_pos inside,
    BitVec.getLsbD_extractLsb', decide_eq_true inside, Bool.true_and, Nat.add_comm]

namespace Sends

variable (sends : tx.Sends baudRate byte segment offset)

include sends

theorem active : tx.cs ≠ .idle := sends.cs ▸ stateAt_ne_idle

theorem taken : tx.taken input = [] := by
  rw [UartTx.taken, txReadyO, beq_eq_false_iff_ne.mpr sends.active]
  rfl

theorem txO : tx.txO = frameBit byte segment := by
  have bit := sends.regData 0
  have parity := sends.parityBit
  rw [UartTx.txO, sends.cs, stateAt, frameBit]
  by_cases start : segment = 0
  · rw [if_pos start, if_pos start]
  by_cases data : segment ≤ 8
  · rw [if_neg start, if_pos data, if_neg start, if_pos data]
    exact (bit (by omega)).trans (by rw [Nat.zero_add])
  by_cases last : segment = 9
  · rw [if_neg start, if_neg data, if_pos last, if_neg start, if_neg data, if_pos last]
    exact (parity (by omega) (by omega)).trans (by rw [last])
  rw [if_neg start, if_neg data, if_neg last, if_neg start, if_neg data, if_neg last]
  split_ifs <;> rfl

/-- Within a bit only the bit clock moves. -/
theorem step_within (timed : Timed baudRate) (inside : offset < bitTime baudRate)
    (enabled : input.cfgEnI = true) :
    (tx.step input baudRate).Sends baudRate byte segment (offset + 1) := by
  have running := BaudGen.bitDone_within sends.baud inside
  have active := sends.active
  refine ⟨?_, ?_, ?_, ?_, ?_⟩
  · change (if input.cfgEnI then tx.ns input else .idle) = _
    rw [enabled, if_pos rfl, ← sends.cs, ns, running]
    cases cs : tx.cs <;> simp_all
  · change tx.regBitCountNext = _
    rw [regBitCountNext, running, if_neg (by simp)]
    exact sends.regBitCount
  · have kept : tx.sampleData input = false := by
      rw [sampleData, running]
      cases cs : tx.cs <;> simp_all
    change ∀ bit, _ → BitVec.getLsbD (if tx.sampleData input then _ else _) bit = _
    rw [kept, if_neg Bool.false_ne_true]
    exact sends.regData
  · change _ → _ → (if tx.baud.bitDone then _ else _) = _
    rw [running, if_neg Bool.false_ne_true]
    exact sends.parityBit
  · change tx.baud.step baudRate tx.baudgenEn = _
    rw [baudgenEn, bne_iff_ne.mpr active, sends.baud]
    exact BaudGen.step_within timed inside

/-- The end of a bit before the stop bits. -/
theorem step_across (timed : Timed baudRate) (last : offset = bitTime baudRate)
    (before : segment < 10) (enabled : input.cfgEnI = true) :
    (tx.step input baudRate).Sends baudRate byte (segment + 1) 1 := by
  have done := BaudGen.bitDone_last sends.baud last
  have active := sends.active
  refine ⟨?_, ?_, ?_, ?_, ?_⟩
  · change (if input.cfgEnI then tx.ns input else .idle) = _
    rw [enabled, if_pos rfl, ns, sends.cs, done, sends.regBitCount]
    interval_cases segment <;> rfl
  · change tx.regBitCountNext = _
    rw [regBitCountNext, sends.cs, done, sends.regBitCount]
    interval_cases segment <;> rfl
  · have data : tx.sampleData input = (decide (0 < segment) && decide (segment < 8)) := by
      rw [sampleData, sends.cs, done, sends.regBitCount]
      interval_cases segment <;> rfl
    intro bit inside
    change BitVec.getLsbD (if tx.sampleData input then tx.regDataNext input else _) bit = _
    rw [data, Nat.add_sub_cancel]
    by_cases start : segment = 0
    · have kept := sends.regData bit
      rw [start] at kept inside ⊢
      exact kept inside
    · have shifted := sends.regData (bit + 1)
      have cs : tx.cs = .data := by
        rw [sends.cs, stateAt, if_neg start, if_pos (by omega)]
      rw [if_pos (by simp; omega), regDataNext_data cs (by omega), shifted (by omega)]
      congr 1
      omega
  · intro _ few
    change (if tx.baud.bitDone then tx.parityBitNext else _) = _
    rw [done, if_pos rfl, parityBitNext, sends.cs, Nat.add_sub_cancel]
    by_cases start : segment = 0
    · rw [start]
      rfl
    · obtain ⟨count, rfl⟩ := Nat.exists_eq_succ_of_ne_zero start
      have parity := sends.parityBit (Nat.succ_pos count) (by omega)
      have bit := sends.regData 0 (by omega)
      rw [Nat.succ_sub_one] at parity bit
      rw [stateAt, if_neg start, if_pos (by omega), parity, bit, Nat.zero_add]
      rfl
  · change tx.baud.step baudRate tx.baudgenEn = _
    rw [baudgenEn, bne_iff_ne.mpr active, sends.baud, last]
    exact BaudGen.step_across timed

/-- After the stop bit comes the second one, or the line is free again. -/
theorem step_stop (timed : Timed baudRate) (last : offset = bitTime baudRate)
    (stop : 10 ≤ segment) (few : segment ≤ 11) (enabled : input.cfgEnI = true) :
    (tx.step input baudRate).Rests ∨
      segment = 10 ∧ (tx.step input baudRate).Sends baudRate byte 11 1 := by
  have done := BaudGen.bitDone_last sends.baud last
  have active := sends.active
  have counted : tx.regBitCountNext = 0 := by
    rw [regBitCountNext, sends.cs, sends.regBitCount]
    interval_cases segment <;> rfl
  have moves : (tx.step input baudRate).cs = tx.ns input := if_pos enabled
  rw [ns, sends.cs, done] at moves
  have second : segment = 10 → input.cfgStopBitsI = true →
      (tx.step input baudRate).Sends baudRate byte 11 1 := by
    rintro rfl two
    refine ⟨moves.trans (if_pos two), counted, fun bit inside => ?_, fun _ few => ?_, ?_⟩
    · omega
    · omega
    · change tx.baud.step baudRate tx.baudgenEn = _
      rw [baudgenEn, bne_iff_ne.mpr active, sends.baud, last]
      exact BaudGen.step_across timed
  rcases Nat.lt_or_ge segment 11 with first | final
  · obtain rfl : segment = 10 := by omega
    cases two : input.cfgStopBitsI with
    | true => exact Or.inr ⟨rfl, second rfl two⟩
    | false =>
      rw [two] at moves
      exact Or.inl ⟨moves, counted⟩
  · obtain rfl : segment = 11 := by omega
    exact Or.inl ⟨moves, counted⟩

omit sends in
/-- A frame goes on for eleven bits at least, and for twelve at most. -/
theorem step (timed : Timed baudRate) {age : Nat} (within : age ≤ 12 * bitTime baudRate)
    (sends : tx.Sends baudRate byte (Segments.segment (bitTime baudRate) age)
      (Segments.offset (bitTime baudRate) age))
    (enabled : input.cfgEnI = true) :
    (11 * bitTime baudRate ≤ age ∧ (tx.step input baudRate).Rests) ∨
      (age + 1 ≤ 12 * bitTime baudRate ∧
        (tx.step input baudRate).Sends baudRate byte (Segments.segment (bitTime baudRate) (age + 1))
          (Segments.offset (bitTime baudRate) (age + 1))) := by
  have positive := timed.positive
  have few : Segments.segment (bitTime baudRate) age ≤ 11 := segment_le positive within
  have whole := @position (bitTime baudRate) age
  rcases Nat.lt_or_ge (Segments.offset (bitTime baudRate) age) (bitTime baudRate) with
    inside | last
  · obtain ⟨same, next⟩ := succ_within inside
    have most := Nat.mul_le_mul_right (bitTime baudRate) few
    rw [same, next]
    exact Or.inr ⟨by omega, sends.step_within timed inside enabled⟩
  · have last := Nat.le_antisymm (offset_le positive) last
    obtain ⟨next, one⟩ := succ_across positive last
    rw [next, one]
    rcases Nat.lt_or_ge (Segments.segment (bitTime baudRate) age) 10 with before | stop
    · have most := Nat.mul_le_mul_right (bitTime baudRate) (Nat.le_of_lt before)
      exact Or.inr ⟨by omega, sends.step_across timed last before enabled⟩
    · have least := Nat.mul_le_mul_right (bitTime baudRate) stop
      rcases sends.step_stop timed last stop few enabled with rests | ⟨first, second⟩
      · exact Or.inl ⟨by omega, rests⟩
      · rw [first] at whole ⊢
        exact Or.inr ⟨by omega, second⟩

end Sends

section History

variable {txs : Nat → UartTx} {inputs : Nat → UartTxInput}

/-- A transmitter that runs from reset on, and is only disabled between frames. -/
structure Runs (baudRate : Nat) (txs : Nat → UartTx) (inputs : Nat → UartTxInput) : Prop where
  initial : txs 0 = UartTx.reset
  follows : ∀ cycle, txs (cycle + 1) = (txs cycle).step (inputs cycle) baudRate
  enabled : ∀ cycle, (txs cycle).cs ≠ .idle → (inputs cycle).cfgEnI = true

/-- The bytes that are taken in a cycle. -/
def takes (txs : Nat → UartTx) (inputs : Nat → UartTxInput) (cycle : Nat) : List (BitVec 8) :=
  (txs cycle).taken (inputs cycle)

variable (timed : Timed baudRate) (runs : Runs baudRate txs inputs)
include timed runs

/-- From the cycle after a byte is taken its frame is on the line, for eleven bits at least. -/
theorem sends_after {cycle : Nat} (rests : (txs cycle).Rests)
    (taken : takes txs inputs cycle = [byte]) (age : Nat) (within : age ≤ 11 * bitTime baudRate) :
    (txs (cycle + 1 + age)).Sends baudRate byte (Segments.segment (bitTime baudRate) age)
      (Segments.offset (bitTime baudRate) age) := by
  induction age with
  | zero =>
    rw [segment_zero, offset_zero, Nat.add_zero, runs.follows]
    exact rests.step_taken timed taken
  | succ age ih =>
    have sends := ih (by omega)
    rw [← Nat.add_assoc, runs.follows]
    rcases sends.step timed (by omega) (runs.enabled _ sends.active) with ⟨late, -⟩ | ⟨-, next⟩
    · omega
    · exact next

omit timed runs in
theorem takes_cases (txs : Nat → UartTx) (inputs : Nat → UartTxInput) (cycle : Nat) :
    takes txs inputs cycle = [] ∨ ∃ byte, takes txs inputs cycle = [byte] := by
  rw [takes, UartTx.taken]
  split
  · exact Or.inr ⟨_, rfl⟩
  · exact Or.inl rfl

/-- In every cycle the transmitter rests, or it is in the frame of a byte that it has taken. -/
theorem rests_or_sends (cycle : Nat) : (txs cycle).Rests ∨ ∃ begin age byte,
    begin + 1 + age = cycle ∧ age ≤ 12 * bitTime baudRate ∧ (txs begin).Rests ∧
      takes txs inputs begin = [byte] ∧
      (txs cycle).Sends baudRate byte (Segments.segment (bitTime baudRate) age)
        (Segments.offset (bitTime baudRate) age) := by
  induction cycle with
  | zero => exact Or.inl (runs.initial ▸ Rests.reset)
  | succ cycle ih =>
    rw [runs.follows]
    rcases ih with rests | ⟨begin, age, byte, rfl, within, rests, taken, sends⟩
    · rcases takes_cases txs inputs cycle with silent | ⟨byte, taken⟩
      · exact Or.inl (rests.step silent)
      · refine Or.inr ⟨cycle, 0, byte, rfl, Nat.zero_le _, rests, taken, ?_⟩
        rw [segment_zero, offset_zero]
        exact rests.step_taken timed taken
    · rcases sends.step timed within (runs.enabled _ sends.active) with ⟨-, rests⟩ | ⟨more, next⟩
      · exact Or.inl rests
      · exact Or.inr ⟨begin, age + 1, byte, rfl, more, rests, taken, next⟩

/-- No frame goes on for ever. -/
theorem rests_later (cycle : Nat) : ∃ later, cycle ≤ later ∧ (txs later).Rests := by
  rcases rests_or_sends timed runs (cycle + 12 * bitTime baudRate + 1) with
    rests | ⟨begin, age, byte, same, within, rests, -⟩
  · exact ⟨_, by omega, rests⟩
  · exact ⟨begin, by omega, rests⟩

end History

end UartTx

namespace UartRx

variable {baudRate segment offset lead : Nat} {byte : BitVec 8} {rx : UartRx}
  {input : UartRxInput}

def stateAt (segment offset : Nat) : UartRxState :=
  if segment = 0 then .startBit
  else if segment ≤ 8 then .data
  else if segment = 9 then if offset = 1 then .saveData else .parity
  else .stopBit

/-- How many data bits have been read. -/
def bitsRead (segment : Nat) : Nat := min (segment - 1) 8

/-- Waiting for a start bit; right after a frame the bit clock is a cycle ahead. -/
structure Rests (baudRate lead : Nat) (rx : UartRx) : Prop where
  cs : rx.cs = .idle
  regBitCount : rx.regBitCount = 0
  baud : rx.baud = .into baudRate lead

/-- Some way into a frame in which a byte is read. -/
structure Receives (baudRate : Nat) (byte : BitVec 8) (segment offset : Nat) (rx : UartRx) :
    Prop where
  cs : rx.cs = stateAt segment offset
  regBitCount : rx.regBitCount = bitCount segment
  regData : ∀ bit, bit < bitsRead segment →
    rx.regData.getLsbD (8 - bitsRead segment + bit) = byte.getLsbD bit
  baud : rx.baud = .into baudRate offset

theorem stateAt_ne_idle : stateAt segment offset ≠ .idle := by
  unfold stateAt
  split_ifs <;> decide

theorem regDataNext_low {bit : Nat} (inside : bit < 7) :
    rx.regDataNext.getLsbD bit = rx.regData.getLsbD (bit + 1) := by
  rw [regDataNext, BitVec.getLsbD_append, if_pos inside, BitVec.getLsbD_extractLsb',
    decide_eq_true inside, Bool.true_and, Nat.add_comm]

theorem regDataNext_high : rx.regDataNext.getLsbD 7 = rx.regRxSync.getLsbD 2 := by
  rw [regDataNext, BitVec.getLsbD_append, if_neg (Nat.lt_irrefl 7), BitVec.getLsbD_ofBool]
  rfl

namespace Rests

theorem reset (timed : Timed baudRate) : UartRx.reset.Rests baudRate 0 :=
  ⟨rfl, rfl, BaudGen.step_stopped timed ⟨0, false⟩⟩

variable (timed : Timed baudRate) (rests : rx.Rests baudRate lead)
include rests

theorem counted : (rx.step input baudRate).regBitCount = 0 := by
  change rx.regBitCountNext = 0
  rw [regBitCountNext, rests.cs, if_neg (by simp)]
  exact rests.regBitCount

include timed in
theorem step (steady : rx.sRxFall = false) : (rx.step input baudRate).Rests baudRate 0 := by
  refine ⟨?_, rests.counted, ?_⟩
  · change (if input.cfgEnI then rx.ns input else .idle) = _
    rw [ns, rests.cs, steady]
    exact ite_self _
  · change rx.baud.step baudRate rx.baudgenEn = _
    rw [baudgenEn, if_pos rests.cs, steady]
    exact BaudGen.step_stopped timed rx.baud

include timed in
/-- A falling edge starts a frame. -/
theorem step_fall (few : lead ≤ 1) (falls : rx.sRxFall = true) (enabled : input.cfgEnI = true) :
    (rx.step input baudRate).Receives baudRate byte 0 (lead + 1) := by
  have slow := timed.slow
  refine ⟨?_, rests.counted, fun bit none => absurd none (Nat.not_lt_zero bit), ?_⟩
  · change (if input.cfgEnI then rx.ns input else .idle) = _
    rw [enabled, if_pos rfl, ns, rests.cs, falls]
    rfl
  · change rx.baud.step baudRate rx.baudgenEn = _
    rw [baudgenEn, if_pos rests.cs, falls, rests.baud]
    exact BaudGen.step_within timed (by omega)

theorem stored : rx.stored input = [] := by
  rw [UartRx.stored, rxValidO, rests.cs]
  rfl

end Rests

namespace Receives

section Step

variable (receives : rx.Receives baudRate byte segment offset)
include receives

theorem active : rx.cs ≠ .idle := receives.cs ▸ stateAt_ne_idle

/-- The byte is handed over in the cycle after its last bit. -/
theorem stored (ready : rx.cs = .saveData → input.rxReadyI = true) :
    rx.stored input = if segment = 9 ∧ offset = 1 then [byte] else [] := by
  have state := receives.cs
  rw [stateAt] at state
  by_cases saves : segment = 9 ∧ offset = 1
  · obtain ⟨rfl, rfl⟩ := saves
    have whole : rx.regData = byte := by
      apply BitVec.eq_of_getLsbD_eq
      intro bit inside
      have same := receives.regData bit inside
      rw [← same]
      exact congrArg _ (Nat.zero_add bit).symm
    have saving : rx.cs = .saveData := state
    rw [if_pos ⟨rfl, rfl⟩, UartRx.stored, rxValidO, saving, ready saving, whole]
    rfl
  · have other : rx.cs ≠ .saveData := by
      rw [state]
      split_ifs with start data last one
      · decide
      · decide
      · exact absurd ⟨last, one⟩ saves
      · decide
      · decide
    rw [if_neg saves, UartRx.stored, rxValidO, beq_eq_false_iff_ne.mpr other]
    rfl

/-- Within a bit only the bit clock moves, and the byte is handed over. -/
theorem step_within (timed : Timed baudRate) (some : 0 < offset)
    (inside : offset < bitTime baudRate) (enabled : input.cfgEnI = true)
    (ready : rx.cs = .saveData → input.rxReadyI = true) :
    (rx.step input baudRate).Receives baudRate byte segment (offset + 1) := by
  have running := BaudGen.bitDone_within receives.baud inside
  have state := receives.cs
  refine ⟨?_, ?_, ?_, ?_⟩
  · have later : ¬ offset + 1 = 1 := by omega
    change (if input.cfgEnI then rx.ns input else .idle) = _
    rw [stateAt] at state ⊢
    rw [enabled, if_pos rfl, ns, running, if_neg later]
    by_cases start : segment = 0
    · rw [if_pos start] at state ⊢
      rw [state]
      rfl
    by_cases data : segment ≤ 8
    · rw [if_neg start, if_pos data] at state ⊢
      rw [state]
      rfl
    by_cases last : segment = 9
    · rw [if_neg start, if_neg data, if_pos last] at state ⊢
      by_cases one : offset = 1
      · rw [if_pos one] at state
        rw [state, ready state]
        rfl
      · rw [if_neg one] at state
        rw [state]
        rfl
    · rw [if_neg start, if_neg data, if_neg last] at state ⊢
      rw [state]
      rfl
  · change rx.regBitCountNext = _
    rw [regBitCountNext, running, if_neg (by simp)]
    exact receives.regBitCount
  · change ∀ bit, _ → BitVec.getLsbD (if rx.sampleData then _ else _) _ = _
    rw [sampleData, running, Bool.and_false, if_neg Bool.false_ne_true]
    exact receives.regData
  · change rx.baud.step baudRate rx.baudgenEn = _
    rw [baudgenEn, if_neg receives.active, receives.baud]
    exact BaudGen.step_within timed inside

/-- The end of a bit before the stop bit; that of a data bit is when it is read. -/
theorem step_across (timed : Timed baudRate) (last : offset = bitTime baudRate)
    (before : segment < 10) (enabled : input.cfgEnI = true)
    (sampled : 0 < segment → segment ≤ 8 →
      rx.regRxSync.getLsbD 2 = byte.getLsbD (segment - 1)) :
    (rx.step input baudRate).Receives baudRate byte (segment + 1) 1 := by
  have slow := timed.slow
  have done := BaudGen.bitDone_last receives.baud last
  have state := receives.cs
  have later : ¬ offset = 1 := by omega
  rw [stateAt, if_neg later] at state
  refine ⟨?_, ?_, ?_, ?_⟩
  · change (if input.cfgEnI then rx.ns input else .idle) = _
    rw [enabled, if_pos rfl, ns, state, done, receives.regBitCount]
    interval_cases segment <;> rfl
  · change rx.regBitCountNext = _
    rw [regBitCountNext, state, done, receives.regBitCount]
    interval_cases segment <;> rfl
  · have data : rx.sampleData = (decide (0 < segment) && decide (segment ≤ 8)) := by
      rw [sampleData, state, done]
      interval_cases segment <;> rfl
    intro bit inside
    change BitVec.getLsbD (if rx.sampleData then rx.regDataNext else _) _ = _
    have old := receives.regData bit
    rw [data]
    rw [bitsRead] at inside old ⊢
    by_cases reads : 0 < segment ∧ segment ≤ 8
    · rw [if_pos (by simp only [reads, decide_true, Bool.and_self])]
      have count : min (segment + 1 - 1) 8 = segment := by omega
      rw [count] at inside ⊢
      by_cases newest : bit = segment - 1
      · have top : 8 - segment + bit = 7 := by omega
        rw [top, regDataNext_high, sampled reads.1 reads.2, newest]
      · have shifted : 8 - segment + bit + 1 = 8 - min (segment - 1) 8 + bit := by omega
        rw [regDataNext_low (by omega), shifted, old (by omega)]
    · rw [if_neg (by simpa only [Bool.and_eq_true, decide_eq_true_eq] using reads)]
      have count : min (segment + 1 - 1) 8 = min (segment - 1) 8 := by omega
      rw [count] at inside ⊢
      exact old inside
  · change rx.baud.step baudRate rx.baudgenEn = _
    rw [baudgenEn, if_neg receives.active, receives.baud, last]
    exact BaudGen.step_across timed

theorem step_stop (timed : Timed baudRate) (last : offset = bitTime baudRate)
    (stop : segment = 10) (enabled : input.cfgEnI = true) :
    (rx.step input baudRate).Rests baudRate 1 := by
  have done := BaudGen.bitDone_last receives.baud last
  have state : rx.cs = .stopBit := by
    rw [receives.cs, stop]
    rfl
  refine ⟨?_, ?_, ?_⟩
  · change (if input.cfgEnI then rx.ns input else .idle) = _
    rw [enabled, if_pos rfl, ns, state, done]
    rfl
  · change rx.regBitCountNext = _
    rw [regBitCountNext, state, if_neg (by simp), receives.regBitCount, stop]
    rfl
  · change rx.baud.step baudRate rx.baudgenEn = _
    rw [baudgenEn, if_neg receives.active, receives.baud, last]
    exact BaudGen.step_across timed

end Step

/-- A frame is read for eleven bits, each data bit in the last cycle of its time. -/
theorem step (timed : Timed baudRate) {age : Nat} (some : 0 < age)
    (within : age < 11 * bitTime baudRate)
    (receives : rx.Receives baudRate byte (Segments.segment (bitTime baudRate) age)
      (Segments.offset (bitTime baudRate) age))
    (enabled : input.cfgEnI = true) (ready : rx.cs = .saveData → input.rxReadyI = true)
    (sampled : ∀ bit, bit < 8 → age = (bit + 2) * bitTime baudRate →
      rx.regRxSync.getLsbD 2 = byte.getLsbD bit) :
    (rx.step input baudRate).Receives baudRate byte (Segments.segment (bitTime baudRate) (age + 1))
      (Segments.offset (bitTime baudRate) (age + 1)) := by
  have positive := timed.positive
  have whole := @position (bitTime baudRate) age
  rcases Nat.lt_or_ge (Segments.offset (bitTime baudRate) age) (bitTime baudRate) with
    inside | last
  · obtain ⟨same, next⟩ := succ_within inside
    rw [same, next]
    exact receives.step_within timed (offset_pos some) inside enabled ready
  · have last := Nat.le_antisymm (offset_le positive) last
    obtain ⟨next, one⟩ := succ_across positive last
    have before : Segments.segment (bitTime baudRate) age < 10 := by
      have few : Segments.segment (bitTime baudRate) (age + 1) ≤ 10 := segment_le positive within
      omega
    rw [next, one]
    refine receives.step_across timed last before enabled fun data few => ?_
    apply sampled _ (by omega)
    rw [show Segments.segment (bitTime baudRate) age - 1 + 2 =
      Segments.segment (bitTime baudRate) age + 1 by omega, Nat.succ_mul]
    omega

end Receives

section History

variable {rxs : Nat → UartRx} {inputs : Nat → UartRxInput}

/-- A receiver that runs from reset on, and always finds room for what it has read. -/
structure Runs (baudRate : Nat) (rxs : Nat → UartRx) (inputs : Nat → UartRxInput) : Prop where
  initial : rxs 0 = UartRx.reset
  follows : ∀ cycle, rxs (cycle + 1) = (rxs cycle).step (inputs cycle) baudRate
  enabled : ∀ cycle, (inputs cycle).cfgEnI = true
  ready : ∀ cycle, (rxs cycle).cs = .saveData → (inputs cycle).rxReadyI = true

/-- The line a cycle earlier, which is high before the first one. -/
def heard (inputs : Nat → UartRxInput) : Nat → Bool
  | 0 => true
  | cycle + 1 => (inputs cycle).rxI

/-- The bytes that are handed over in a cycle. -/
def stores (rxs : Nat → UartRx) (inputs : Nat → UartRxInput) (cycle : Nat) : List (BitVec 8) :=
  (rxs cycle).stored (inputs cycle)

/-- What the receiver reads of a frame if the bit clock had been at the start in cycle `base`. -/
structure Sampled (baudRate : Nat) (inputs : Nat → UartRxInput) (base : Nat) (byte : BitVec 8) :
    Prop where
  bits : ∀ bit, bit < 8 →
    heard inputs (base + (bit + 2) * bitTime baudRate - 2) = byte.getLsbD bit

theorem exists_word (bits : Nat → Bool) (width : Nat) :
    ∃ word : BitVec width, ∀ bit, bit < width → bits bit = word.getLsbD bit := by
  induction width with
  | zero => exact ⟨0, fun bit none => absurd none (Nat.not_lt_zero bit)⟩
  | succ width ih =>
    obtain ⟨word, same⟩ := ih
    refine ⟨.cons (bits width) word, fun bit inside => ?_⟩
    rw [BitVec.getLsbD_cons]
    rcases Nat.lt_succ_iff_lt_or_eq.mp inside with low | rfl
    · rw [if_neg (Nat.ne_of_lt low), same bit low]
    · rw [if_pos rfl]

theorem exists_sampled (baudRate : Nat) (inputs : Nat → UartRxInput) (base : Nat) :
    ∃ byte, Sampled baudRate inputs base byte :=
  (exists_word (fun bit => heard inputs (base + (bit + 2) * bitTime baudRate - 2)) 8).imp
    fun _ bits => ⟨bits⟩

variable (timed : Timed baudRate) (runs : Runs baudRate rxs inputs)

include runs in
/-- The three synchronising registers hold the line of the last three cycles. -/
theorem synced (cycle : Nat) :
    (rxs cycle).regRxSync.getLsbD 0 = heard inputs cycle ∧
      (rxs cycle).regRxSync.getLsbD 1 = heard inputs (cycle - 1) ∧
      (rxs cycle).regRxSync.getLsbD 2 = heard inputs (cycle - 2) := by
  induction cycle with
  | zero =>
    rw [runs.initial]
    exact ⟨rfl, rfl, rfl⟩
  | succ cycle ih =>
    have shifts : (rxs (cycle + 1)).regRxSync =
        (rxs cycle).regRxSync.extractLsb' 0 2 ++ BitVec.ofBool (inputs cycle).rxI := by
      rw [runs.follows]
      exact if_pos (runs.enabled cycle)
    obtain ⟨newest, middle, -⟩ := ih
    rw [shifts]
    refine ⟨?_, ?_, ?_⟩
    · rw [BitVec.getLsbD_append, if_pos Nat.zero_lt_one, BitVec.getLsbD_ofBool]
      rfl
    · rw [BitVec.getLsbD_append, if_neg (Nat.lt_irrefl 1), BitVec.getLsbD_extractLsb']
      exact newest
    · rw [BitVec.getLsbD_append, if_neg (by decide), BitVec.getLsbD_extractLsb']
      exact middle

include runs in
theorem sRxFall_eq (cycle : Nat) :
    (rxs cycle).sRxFall = (!heard inputs (cycle - 1) && heard inputs (cycle - 2)) := by
  obtain ⟨-, middle, oldest⟩ := synced runs cycle
  rw [sRxFall, middle, oldest]

section Frame

variable {base : Nat} (few : lead ≤ 1) (rests : (rxs (base + lead)).Rests baudRate lead)
  (falls : (rxs (base + lead)).sRxFall = true) (sampled : Sampled baudRate inputs base byte)
include timed runs few rests falls sampled

/-- A falling edge starts a frame, and the byte is what the line is at eight moments. -/
theorem receives_after (age : Nat) (later : lead < age) (within : age ≤ 11 * bitTime baudRate) :
    (rxs (base + age)).Receives baudRate byte (Segments.segment (bitTime baudRate) age)
      (Segments.offset (bitTime baudRate) age) := by
  have slow := timed.slow
  induction age, later using Nat.le_induction with
  | base =>
    have first : Segments.segment (bitTime baudRate) (lead + 1) = 0 :=
      segment_eq (by omega) (by omega)
    have whole := @position (bitTime baudRate) (lead + 1)
    rw [first, Nat.zero_mul, Nat.zero_add] at whole
    rw [Nat.succ_eq_add_one, first, whole, ← Nat.add_assoc, runs.follows]
    exact rests.step_fall timed few falls (runs.enabled _)
  | succ age later ih =>
    rw [← Nat.add_assoc, runs.follows]
    refine (ih (by omega)).step timed (by omega) (by omega) (runs.enabled _) (runs.ready _) ?_
    rintro bit inside rfl
    obtain ⟨-, -, oldest⟩ := synced runs (base + (bit + 2) * bitTime baudRate)
    rw [oldest]
    exact sampled.bits bit inside

/-- After eleven bits the receiver waits for the next frame. -/
theorem rests_after : (rxs (base + 11 * bitTime baudRate + 1)).Rests baudRate 1 := by
  have slow := timed.slow
  have final := receives_after timed runs few rests falls sampled (11 * bitTime baudRate) (by omega)
    (Nat.le_refl _)
  have stop : Segments.segment (bitTime baudRate) (11 * bitTime baudRate) = 10 :=
    segment_eq (by omega) (Nat.le_refl _)
  have whole := @position (bitTime baudRate) (11 * bitTime baudRate)
  rw [stop] at whole
  rw [runs.follows]
  exact final.step_stop timed (by omega) stop (runs.enabled _)

/-- The byte is handed over once, a cycle after its last bit. -/
theorem stores_after (age : Nat) (later : lead ≤ age) (within : age ≤ 11 * bitTime baudRate) :
    stores rxs inputs (base + age) = if age = 9 * bitTime baudRate + 1 then [byte] else [] := by
  have slow := timed.slow
  rcases Nat.eq_or_lt_of_le later with rfl | later
  · rw [if_neg (by omega)]
    exact rests.stored
  · have receives := receives_after timed runs few rests falls sampled age later within
    have whole := @position (bitTime baudRate) age
    rw [stores, receives.stored (runs.ready _)]
    by_cases saves : age = 9 * bitTime baudRate + 1
    · have nine : Segments.segment (bitTime baudRate) age = 9 := segment_eq (by omega) (by omega)
      rw [nine] at whole ⊢
      rw [if_pos saves, if_pos ⟨rfl, by omega⟩]
    · rw [if_neg saves, if_neg]
      rintro ⟨nine, one⟩
      rw [nine, one] at whole
      omega

end Frame

end History

end UartRx

end GreenRio
