import GreenRio.UartLink

set_option autoImplicit false

namespace GreenRio.SerialLink

open Segments Synchronous

/-- A transmitter that takes one byte in its first cycle, and then none. -/
def once (byte : BitVec 8) (cycle : Nat) : UartTxInput := ⟨true, false, byte, cycle == 0⟩

/-- It sends to a receiver that always finds room. -/
def lone (baudRate : Nat) (clocks : Clocks) (byte : BitVec 8) : SerialLink :=
  let txs := (UartTx.machine baudRate).after (once byte)
  let rxInputs := fun cycle => ⟨(txs (clocks.seen cycle)).txO, true, true⟩
  ⟨clocks, txs, once byte, (UartRx.machine baudRate).after rxInputs, rxInputs⟩

variable {baudRate : Nat} {clocks : Clocks} {byte : BitVec 8}

theorem lone_runs : (lone baudRate clocks byte).Runs baudRate where
  tx := ⟨rfl, fun cycle => after_succ _ _ cycle, fun _ _ => rfl⟩
  rx := ⟨rfl, fun cycle => after_succ _ _ cycle, fun _ => rfl, fun _ _ => rfl⟩
  wired _ := rfl

theorem lone_takes : (lone baudRate clocks byte).takes 0 = [byte] := rfl

theorem lone_silent {cycle : Nat} (later : 0 < cycle) :
    (lone baudRate clocks byte).takes cycle = [] := by
  have invalid : (cycle == 0) = false := beq_eq_false_iff_ne.mpr (Nat.ne_of_gt later)
  change (if _ && (cycle == 0) then _ else _) = _
  rw [invalid, Bool.and_false]
  rfl

section Line

variable (timed : Timed baudRate)
include timed

theorem lone_sends {age : Nat} (within : age ≤ 11 * bitTime baudRate) :
    ((lone baudRate clocks byte).txs (1 + age)).txO =
      frameBit byte (segment (bitTime baudRate) age) := by
  have runs : (lone baudRate clocks byte).Runs baudRate := lone_runs
  have rests : ((lone baudRate clocks byte).txs 0).Rests := UartTx.Rests.reset
  have sends := UartTx.sends_after timed runs.tx rests lone_takes age within
  rw [Nat.zero_add] at sends
  exact sends.txO

/-- After the data bits comes the parity, and then the line stays high. -/
theorem lone_ends (odd : frameParity byte 8 = true) {age : Nat}
    (late : 9 * bitTime baudRate < age) :
    ((lone baudRate clocks byte).txs (1 + age)).txO = true := by
  have positive := timed.positive
  have runs : (lone baudRate clocks byte).Runs baudRate := lone_runs
  rcases UartTx.rests_or_sends timed runs.tx (1 + age) with
    rests | ⟨begin, other, sent, same, within, -, taken, sends⟩
  · exact rests.txO
  · have first : begin = 0 := by
      by_contra later
      exact absurd ((lone_silent (Nat.pos_of_ne_zero later)).symm.trans taken)
        (List.cons_ne_nil _ _).symm
    obtain rfl : other = age := by omega
    have whole : sent = byte := by
      rw [first] at taken
      exact (List.cons.inj (taken.symm.trans lone_takes)).1
    have segment : 9 ≤ segment (bitTime baudRate) other := le_segment positive late
    rw [sends.txO, whole, frameBit, if_neg (by omega), if_neg (by omega), odd]
    exact ite_self _

end Line

section First

variable {edge : Nat} (timed : Timed baudRate) (runs : 0 < clocks.txTick)
  (reach : clocks.Meets 1 edge)
include timed runs reach

omit timed in
theorem edge_pos : 0 < edge := by
  have reached := reach.reached
  apply Nat.pos_of_ne_zero
  rintro rfl
  rw [Nat.zero_mul] at reached
  omega

omit timed in
/-- Before the frame the line is high. -/
theorem lone_before {cycle : Nat} (before : cycle < edge) :
    ((lone baudRate clocks byte).txs (clocks.seen cycle)).txO = true := by
  have unseen := reach.seen_before runs
  have order : clocks.seen cycle ≤ clocks.seen (edge - 1) := Clocks.seen_mono (by omega)
  rw [show clocks.seen cycle = 0 by omega]
  rfl

theorem lone_rests (cycle : Nat) (before : cycle ≤ edge + 2) :
    ((lone baudRate clocks byte).rxs cycle).Rests baudRate 0 ∧
      upTo (lone baudRate clocks byte).stores cycle = [] := by
  have some := edge_pos runs reach
  have link : (lone baudRate clocks byte).Runs baudRate := lone_runs
  induction cycle with
  | zero => exact ⟨UartRx.Rests.reset timed, rfl⟩
  | succ cycle ih =>
    obtain ⟨rests, none⟩ := ih (by omega)
    have high : ((lone baudRate clocks byte).txs (clocks.seen (cycle - 2))).txO = true :=
      lone_before runs reach (by omega)
    have steady : ((lone baudRate clocks byte).rxs cycle).sRxFall = false := by
      by_contra falls
      obtain ⟨low, -⟩ := (sRxFall_iff link cycle).mp (by simpa using falls)
      exact absurd (low.symm.trans high) (by decide)
    have nothing : (lone baudRate clocks byte).stores cycle = [] := rests.stored
    rw [link.rx.follows, upTo_succ, none, nothing]
    exact ⟨rests.step timed steady, rfl⟩

variable (low : ((lone baudRate clocks byte).txs (clocks.seen edge)).txO = false)
include low

theorem lone_meets : Meets baudRate (lone baudRate clocks byte) 0 0 edge byte := by
  have some := edge_pos runs reach
  obtain ⟨rests, none⟩ := lone_rests timed runs reach (edge + 2) (Nat.le_refl _)
  refine ⟨lone_takes, reach, rests, ?_, Nat.zero_le 1, fun one => absurd one (by decide), none⟩
  apply (sRxFall_iff lone_runs (edge + 2)).mpr
  exact ⟨low, lone_before runs reach (show edge + 2 - 3 < edge by omega)⟩

/-- What is read first is what the line is at the eight moments. -/
theorem lone_first {other : BitVec 8}
    (sampled : UartRx.Sampled baudRate (lone baudRate clocks byte).rxInputs (edge + 2) other) :
    upTo (lone baudRate clocks byte).stores (edge + 2 + (9 * bitTime baudRate + 1)) = [] ∧
      upTo (lone baudRate clocks byte).stores (edge + 2 + (9 * bitTime baudRate + 1) + 1) =
        [other] := by
  have slow := timed.slow
  have meets := lone_meets timed runs reach low
  have link : (lone baudRate clocks byte).Runs baudRate := lone_runs
  have stores : ∀ age, age ≤ 11 * bitTime baudRate →
      (lone baudRate clocks byte).stores (edge + 2 + age) =
        if age = 9 * bitTime baudRate + 1 then [other] else [] := fun age within =>
    UartRx.stores_after timed link.rx (Nat.zero_le 1) meets.rests meets.falls sampled age
      (Nat.zero_le age) within
  have none : upTo (lone baudRate clocks byte).stores (edge + 2 + (9 * bitTime baudRate + 1)) =
      [] := by
    rw [upTo_of_silent (Nat.le_add_right (edge + 2) _), meets.stored]
    · rfl
    · intro cycle since before
      obtain ⟨age, rfl⟩ := Nat.exists_eq_add_of_le since
      rw [stores age (by omega), if_neg (by omega)]
  refine ⟨none, ?_⟩
  rw [upTo_succ, none, stores _ (by omega), if_pos rfl]
  rfl

/-- Whoever gets the byte has seen its last bit nine bits after the start. -/
theorem lone_reads {cycle : Nat}
    (received : upTo (lone baudRate clocks byte).stores cycle = [byte]) :
    ((lone baudRate clocks byte).txs (clocks.seen (edge + (9 * bitTime baudRate - 1)))).txO =
      byte.getLsbD 7 := by
  have slow := timed.slow
  obtain ⟨other, sampled⟩ := UartRx.exists_sampled baudRate
    (lone baudRate clocks byte).rxInputs (edge + 2)
  obtain ⟨none, first⟩ := lone_first timed runs reach low sampled
  have same : byte = other := by
    rcases Nat.lt_or_ge (edge + 2 + (9 * bitTime baudRate + 1)) cycle with after | before
    · have order : upTo (lone baudRate clocks byte).stores _ <+: upTo _ _ := upTo_mono after
      rw [Nat.succ_eq_add_one, first, received] at order
      obtain ⟨rest, whole⟩ := order
      exact (List.cons.inj whole).1.symm
    · have order : upTo (lone baudRate clocks byte).stores _ <+: upTo _ _ := upTo_mono before
      rw [none, received] at order
      exact absurd (List.prefix_nil.mp order) (List.cons_ne_nil _ _)
  have bit := sampled.bits 7 (by decide)
  rw [heard_eq lone_runs, show edge + 2 + (7 + 2) * bitTime baudRate - 2 - 1 =
    edge + (9 * bitTime baudRate - 1) by omega] at bit
  rw [same] at bit ⊢
  exact bit

end First

section Phases

variable {txTick spare : Nat}

/-- The receiver samples the line just as the frame starts. -/
def prompt (txTick spare : Nat) : Clocks := ⟨txTick, spare + 1, txTick * spare⟩

/-- It has sampled the line just before. -/
def tardy (txTick spare : Nat) : Clocks := ⟨txTick, spare + 1, txTick * spare + 1⟩

theorem prompt_meets : (prompt txTick spare).Meets 1 txTick := by
  refine ⟨Nat.zero_lt_one, ?_, ?_⟩
  · change txTick * spare + 1 * txTick ≤ txTick * (spare + 1)
    rw [Nat.mul_succ]
    omega
  · change txTick * (spare + 1) < txTick * spare + 1 * txTick + (spare + 1)
    rw [Nat.mul_succ]
    omega

theorem tardy_meets : (tardy txTick spare).Meets 1 (txTick + 1) := by
  refine ⟨Nat.zero_lt_one, ?_, ?_⟩
  · change txTick * spare + 1 + 1 * txTick ≤ (txTick + 1) * (spare + 1)
    rw [Nat.succ_mul txTick, Nat.mul_succ txTick]
    omega
  · change (txTick + 1) * (spare + 1) < txTick * spare + 1 + 1 * txTick + (spare + 1)
    rw [Nat.succ_mul txTick, Nat.mul_succ txTick]
    omega

variable (tx : 0 < txTick)
include tx

theorem prompt_seen (ahead : Nat) :
    (prompt txTick spare).seen (txTick + ahead) = 1 + ahead * (spare + 1) / txTick := by
  change ((txTick + ahead) * (spare + 1) - txTick * spare) / txTick = _
  rw [Nat.add_mul, Nat.mul_succ, show txTick * spare + txTick + ahead * (spare + 1) -
    txTick * spare = txTick + ahead * (spare + 1) by omega, Nat.add_div_left _ tx, Nat.add_comm]

theorem tardy_seen (ahead : Nat) :
    (tardy txTick spare).seen (txTick + 1 + ahead) =
      1 + (spare + ahead * (spare + 1)) / txTick := by
  change ((txTick + 1 + ahead) * (spare + 1) - (txTick * spare + 1)) / txTick = _
  rw [Nat.add_mul, Nat.succ_mul, Nat.mul_succ, show txTick * spare + txTick + (spare + 1) +
    ahead * (spare + 1) - (txTick * spare + 1) = txTick + (spare + ahead * (spare + 1)) by omega,
    Nat.add_div_left _ tx, Nat.add_comm]

end Phases

section Bounds

theorem frameBit_last {segment : Nat} (early : segment ≤ 7) : frameBit 0x80 segment = false := by
  interval_cases segment <;> rfl

variable (timed : Timed baudRate) {txTick spare : Nat} (tx : 0 < txTick)
include timed tx

/-- A prompt receiver sees the start of the frame. -/
theorem prompt_low (byte : BitVec 8) :
    ((lone baudRate (prompt txTick spare) byte).txs ((prompt txTick spare).seen txTick)).txO =
      false := by
  have start : (prompt txTick spare).seen (txTick + 0) = _ := prompt_seen tx 0
  rw [Nat.add_zero, Nat.zero_mul, Nat.zero_div] at start
  rw [start, lone_sends timed (Nat.zero_le _), segment_zero]
  rfl

/-- So does a tardy one, unless it is far too slow. -/
theorem tardy_low (slow : spare < 2 * txTick) (byte : BitVec 8) :
    ((lone baudRate (tardy txTick spare) byte).txs
      ((tardy txTick spare).seen (txTick + 1))).txO = false := by
  have wide := timed.slow
  have start : (tardy txTick spare).seen (txTick + 1 + 0) = _ := tardy_seen tx 0
  have near : spare / txTick < 2 := (Nat.div_lt_iff_lt_mul tx).mpr slow
  have first : segment (bitTime baudRate) (spare / txTick) = 0 :=
    Nat.le_zero.mp (segment_le (by omega) (by omega))
  rw [Nat.add_zero, Nat.zero_mul, Nat.add_zero spare] at start
  rw [start, lone_sends timed (by omega), first]
  rfl

variable (reads : ∀ byte lag, ∃ cycle,
    upTo (lone baudRate ⟨txTick, spare + 1, lag⟩ byte).stores cycle = [byte])
include reads

/-- Where the last bit is sampled the line is not still at what comes before. -/
theorem fast_of_reads : (8 * bitTime baudRate + 1) * txTick ≤
    (9 * bitTime baudRate - 1) * (spare + 1) := by
  have wide := timed.slow
  by_contra fast
  obtain ⟨cycle, received⟩ := reads 0x80 (txTick * spare)
  have early : (9 * bitTime baudRate - 1) * (spare + 1) / txTick < 8 * bitTime baudRate + 1 :=
    (Nat.div_lt_iff_lt_mul tx).mpr (Nat.not_le.mp fast)
  have before : segment (bitTime baudRate)
      ((9 * bitTime baudRate - 1) * (spare + 1) / txTick) ≤ 7 :=
    segment_le (by omega) (by omega)
  have bit := lone_reads timed tx prompt_meets (prompt_low timed tx 0x80) received
  rw [prompt_seen tx, lone_sends timed (by omega), frameBit_last before] at bit
  exact absurd bit (by decide)

/-- Nor is it at what comes after. -/
theorem slow_of_reads : 9 * bitTime baudRate * (spare + 1) ≤
    (9 * bitTime baudRate + 1) * txTick := by
  have wide := timed.slow
  by_contra slow
  rcases Nat.lt_or_ge ((9 * bitTime baudRate - 1) * (spare + 1))
    ((9 * bitTime baudRate + 1) * txTick) with near | far
  · obtain ⟨cycle, received⟩ := reads 0x01 (txTick * spare + 1)
    have slower : spare < 2 * txTick := by
      by_contra more
      have least := Nat.mul_le_mul_left (9 * bitTime baudRate - 1)
        (Nat.le_succ_of_le (Nat.not_lt.mp more))
      have most := Nat.mul_le_mul_right txTick
        (show 9 * bitTime baudRate + 1 ≤ (9 * bitTime baudRate - 1) * 2 by omega)
      rw [Nat.mul_assoc] at most
      exact absurd near (Nat.not_lt.mpr (Nat.le_trans most least))
    have total := Nat.succ_mul (9 * bitTime baudRate - 1) (spare + 1)
    rw [show (9 * bitTime baudRate - 1).succ = 9 * bitTime baudRate by omega] at total
    have late : 9 * bitTime baudRate + 1 ≤
        (spare + (9 * bitTime baudRate - 1) * (spare + 1)) / txTick :=
      (Nat.le_div_iff_mul_le tx).mpr (by omega)
    have bit := lone_reads timed tx tardy_meets (tardy_low timed tx slower 0x01)
      received
    rw [tardy_seen tx, lone_ends timed rfl late] at bit
    exact absurd bit (by decide)
  · obtain ⟨cycle, received⟩ := reads 0x01 (txTick * spare)
    have late : 9 * bitTime baudRate + 1 ≤ (9 * bitTime baudRate - 1) * (spare + 1) / txTick :=
      (Nat.le_div_iff_mul_le tx).mpr far
    have bit := lone_reads timed tx prompt_meets (prompt_low timed tx 0x01)
      received
    rw [prompt_seen tx, lone_ends timed rfl late] at bit
    exact absurd bit (by decide)

end Bounds

theorem exists_meets (runs : 0 < clocks.txTick) (rx : 0 < clocks.rxTick) :
    ∃ edge, clocks.Meets 1 edge := by
  have low : (clocks.lag + 1 * clocks.txTick - 1) / clocks.rxTick * clocks.rxTick ≤ _ :=
    Nat.div_mul_le_self _ _
  have high : clocks.lag + 1 * clocks.txTick - 1 < _ := Nat.lt_div_mul_add rx
  refine ⟨(clocks.lag + 1 * clocks.txTick - 1) / clocks.rxTick + 1, Nat.zero_lt_one, ?_, ?_⟩ <;>
    generalize (clocks.lag + 1 * clocks.txTick - 1) / clocks.rxTick = count at low high ⊢
  · rw [Nat.succ_mul count]
    omega
  · rw [Nat.succ_mul count]
    omega

/-- A frame between two clocks is read whatever the byte and the phase are if and only if the
receiver is slower by no more than a cycle in nine bits, and ahead by less than a bit, and two
cycles. -/
theorem lone_read_iff (timed : Timed baudRate) {txTick rxTick : Nat} (tx : 0 < txTick)
    (rx : 0 < rxTick) :
    (∀ byte lag, ∃ cycle,
      upTo (lone baudRate ⟨txTick, rxTick, lag⟩ byte).stores cycle = [byte]) ↔
      9 * bitTime baudRate * rxTick ≤ (9 * bitTime baudRate + 1) * txTick ∧
        (8 * bitTime baudRate + 1) * txTick ≤ (9 * bitTime baudRate - 1) * rxTick := by
  constructor
  · intro reads
    obtain ⟨spare, rfl⟩ := Nat.exists_eq_succ_of_ne_zero (Nat.ne_of_gt rx)
    exact ⟨slow_of_reads timed tx reads, fast_of_reads timed tx reads⟩
  · rintro ⟨slow, fast⟩ byte lag
    have wide := timed.slow
    have legible : Clocks.Legible baudRate ⟨txTick, rxTick, lag⟩ := ⟨tx, slow, fast⟩
    obtain ⟨edge, reach⟩ : ∃ edge, Clocks.Meets ⟨txTick, rxTick, lag⟩ 1 edge := exists_meets tx rx
    have low : ((lone baudRate ⟨txTick, rxTick, lag⟩ byte).txs
        (Clocks.seen ⟨txTick, rxTick, lag⟩ edge)).txO = false := by
      have reached : 1 + 0 ≤ Clocks.seen ⟨txTick, rxTick, lag⟩ (edge + 0) :=
        reach.le_seen tx (by rw [Nat.zero_mul, Nat.zero_mul])
      have near : Clocks.seen ⟨txTick, rxTick, lag⟩ (edge + 0) < 1 + (1 + 1) :=
        reach.seen_lt tx (Clocks.behind_of slow (by omega))
      obtain ⟨age, seen⟩ := Nat.exists_eq_add_of_le reached
      rw [Nat.add_zero, Nat.add_zero] at seen
      rw [Nat.add_zero, seen] at near
      have first : segment (bitTime baudRate) age = 0 :=
        Nat.le_zero.mp (segment_le (by omega) (by omega))
      rw [seen, lone_sends timed (by omega), first]
      rfl
    have meets := lone_meets timed tx reach low
    obtain ⟨-, received⟩ := lone_first timed tx reach low (meets.sampled lone_runs timed legible)
    exact ⟨_, received⟩

theorem lone_read_iff_bound :
    (∀ byte lag, ∃ cycle,
      upTo (lone Uart.uartBaudRate ⟨3915, 3916, lag⟩ byte).stores cycle = [byte]) ↔
      9 * bitTime Uart.uartBaudRate * 3916 ≤ (9 * bitTime Uart.uartBaudRate + 1) * 3915 ∧
        (8 * bitTime Uart.uartBaudRate + 1) * 3915 ≤
          (9 * bitTime Uart.uartBaudRate - 1) * 3916 :=
  lone_read_iff Uart.timed (by decide) (by decide)

end GreenRio.SerialLink
