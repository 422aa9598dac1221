import GreenRio.Lsu
import GreenRio.Synchronous

set_option autoImplicit false

namespace GreenRio

/-- A beat on the bus: what the controller drives, and the word of the device. -/
structure BusBeat where
  adr : PhysicalAddress
  we : Bool
  sel : BitVec 4
  dat : BitVec 32
  reads : BitVec 32

namespace BusBeat

/-- The bytes a beat writes. The byte selects count from its address. -/
def writes (beat : BusBeat) : List (PhysicalAddress × BitVec 8) :=
  if beat.we then
    ((List.range 4).filter beat.sel.getLsbD).map fun place =>
      (beat.adr + BitVec.ofNat 56 place, beat.dat.extractLsb' (8 * place) 8)
  else []

/-- What the device answers to the beats of an access, low word first. -/
def answered : List BusBeat → Word
  | [] => 0
  | [beat] => beat.reads.setWidth 64
  | low :: high :: _ => high.reads ++ low.reads

end BusBeat

/-- An access to a device: a load or a store of `2 ^ size` bytes. -/
structure IoAccess where
  store : Bool
  size : Nat
  signed : Bool
  deriving DecidableEq

namespace IoAccess

variable (access : IoAccess)

/-- The addresses and byte selects of the beats. -/
def beats (paddr : PhysicalAddress) : List (PhysicalAddress × Bool × BitVec 4) :=
  match access.size with
  | 0 => [(paddr, access.store, 0b0001)]
  | 1 => [(paddr, access.store, 0b0011)]
  | 2 => [(paddr, access.store, 0b1111)]
  | _ => [(paddr, access.store, 0b1111), (paddr + 4, access.store, 0b1111)]

/-- The bytes of a register at their addresses. -/
def stores (paddr : PhysicalAddress) (data : Word) : List (PhysicalAddress × BitVec 8) :=
  (List.range (2 ^ access.size)).map fun place =>
    (paddr + BitVec.ofNat 56 place, data.extractLsb' (8 * place) 8)

/-- The value of a register after a load. -/
def extend (word : Word) : Word :=
  if access.signed then (word.setWidth (8 * 2 ^ access.size)).signExtend 64
  else (word.setWidth (8 * 2 ^ access.size)).setWidth 64

/-- What an access does: its beats, and the bytes it writes or the value it brings back. -/
structure Transfers (paddr : PhysicalAddress) (data : Word) (performed : List BusBeat)
    (value : Word) : Prop where
  beats : performed.map (fun beat => (beat.adr, beat.we, beat.sel)) = access.beats paddr
  stored : access.store = true → performed.flatMap BusBeat.writes = access.stores paddr data
  loaded : access.store = false → value = access.extend (BusBeat.answered performed)

/-- An access that does not show what is left in the data register: no unsigned load, or one with
nothing above the bytes it addresses. -/
def Clean (data : Word) (performed : List BusBeat) : Prop :=
  access.store = false → access.signed = false → access.size < 3 →
    data.extractLsb' 32 32 = 0 ∧
      ∀ beat ∈ performed, beat.reads.toNat < 2 ^ (8 * 2 ^ access.size)

end IoAccess

/-- The loads and stores of integer registers. -/
def BusRequest.access (request : BusRequest) : Option IoAccess :=
  if request.loadOrStore then
    match request.opcode with
    | 0 => some ⟨true, 0, false⟩
    | 1 => some ⟨true, 1, false⟩
    | 2 => some ⟨true, 2, false⟩
    | 3 => some ⟨true, 3, false⟩
    | _ => none
  else
    match request.opcode with
    | 0 => some ⟨false, 0, true⟩
    | 1 => some ⟨false, 1, true⟩
    | 2 => some ⟨false, 2, true⟩
    | 3 => some ⟨false, 3, true⟩
    | 4 => some ⟨false, 0, false⟩
    | 5 => some ⟨false, 1, false⟩
    | 6 => some ⟨false, 2, false⟩
    | _ => none

/-- One cycle of what surrounds the controller. -/
structure BusInput where
  flush : Bool
  reqVld : Bool
  request : BusRequest
  reqData : Word
  wbRdy : Bool
  ack : Bool
  wbDat : BitVec 32

/-- The controller with what an observer remembers of the access it performs: the data it was
handed, and its beats. -/
structure BusTrace where
  bus : BusCtrl
  data : Word
  beats : List BusBeat

namespace BusTrace

def reset : BusTrace := ⟨BusCtrl.reset, 0, []⟩

variable (trace : BusTrace) (input : BusInput)

/-- A request is taken. -/
def accepts : Bool :=
  input.reqVld && trace.bus.rdy (trace.bus.wbVld && input.wbRdy)

/-- The beat that an acknowledgement ends. -/
def beat : BusBeat :=
  ⟨trace.bus.adr, trace.bus.request.loadOrStore, trace.bus.sel, trace.bus.dat, input.wbDat⟩

def step : BusTrace where
  bus := trace.bus.step input.flush input.reqVld input.request input.reqData input.wbRdy input.ack
    input.wbDat
  data := if trace.accepts input then input.reqData else trace.data
  beats :=
    if trace.accepts input then []
    else if input.ack && trace.bus.vld then trace.beats ++ [trace.beat input] else trace.beats

def machine : Synchronous BusTrace BusInput := ⟨reset, step⟩

/-- While an access is in progress the bus acknowledges only the beats it is asked for. The
controller takes its request back in the cycle of the acknowledgement. -/
def Answers : Prop := input.ack = true → trace.bus.vld = true → trace.bus.cyc false = true

section Request

variable (request : BusRequest) (data : Word)

/-- The request is taken with its data. -/
def Enters : Prop :=
  trace.accepts input = true ∧ input.flush = false ∧ input.request = request ∧ input.reqData = data

/-- The access in progress is flushed, or its result is taken. -/
def Leaves : Prop := input.flush = true ∨ (trace.bus.wbVld = true ∧ input.wbRdy = true)

/-- The access in progress is that of the request. -/
def Performs : Prop :=
  trace.bus.vld = true ∧ trace.bus.request = request ∧ trace.data = data

/-- The result of the request is presented. -/
def Presents : Prop :=
  trace.bus.wbVld = true ∧ trace.bus.request = request ∧ trace.data = data

end Request

/-- How far an access is: its acknowledgements, its beats and what the data register holds. -/
inductive Progress (bus : BusCtrl) (data : Word) : List BusBeat → Prop where
  | start (ack : bus.ack = 0) (held : bus.data = data) : Progress bus data []
  | low (reads : BitVec 32) (ack : bus.ack = 1)
      (held : bus.data = if bus.request.loadOrStore then data
        else data.extractLsb' 32 32 ++ reads) :
      Progress bus data [⟨bus.request.paddr, bus.request.loadOrStore, bus.sel, data.setWidth 32,
        reads⟩]
  | high (reads upper : BitVec 32) (double : bus.size = 3) (ack : bus.ack = 2)
      (held : bus.data = if bus.request.loadOrStore then data else upper ++ reads) :
      Progress bus data [⟨bus.request.paddr, bus.request.loadOrStore, bus.sel, data.setWidth 32,
        reads⟩, ⟨bus.request.paddr + 4, bus.request.loadOrStore, bus.sel,
        data.extractLsb' 32 32, upper⟩]

theorem append_low (upper lower : BitVec 32) {width : Nat} (inside : width ≤ 32) :
    (upper ++ lower).setWidth width = lower.setWidth width := by
  rw [BitVec.setWidth_append, dif_pos inside]

theorem append_high (upper lower : BitVec 32) : (upper ++ lower).extractLsb' 32 32 = upper := by
  rw [BitVec.extractLsb'_append_eq_of_le (Nat.le_refl 32)]
  simp

/-- One more beat. -/
theorem Progress.next {bus : BusCtrl} {data : Word} {beats : List BusBeat}
    (progress : Progress bus data beats) (asked : bus.done = false) (reads : BitVec 32) :
    Progress
      { bus with
        ack := bus.ack + 1
        data :=
          if !bus.request.loadOrStore then
            if bus.ack == 0 then bus.data.extractLsb' 32 32 ++ reads
            else reads ++ bus.data.setWidth 32
          else bus.data }
      data
      (beats ++ [⟨bus.adr, bus.request.loadOrStore, bus.sel, bus.dat, reads⟩]) := by
  cases progress with
  | start ack held =>
    have adr : bus.adr = bus.request.paddr := by simp [BusCtrl.adr, ack]
    have dat : bus.dat = data.setWidth 32 := by simp [BusCtrl.dat, ack, held]
    rw [adr, dat]
    refine .low reads (by rw [ack]; rfl) ?_
    rw [held, ack]
    cases bus.request.loadOrStore <;> rfl
  | low first ack held =>
    have double : bus.size = 3 := by
      by_contra single
      simp [BusCtrl.done, single, ack] at asked
    have adr : bus.adr = bus.request.paddr + 4 := by simp [BusCtrl.adr, ack, double]
    have dat : bus.dat = data.extractLsb' 32 32 := by
      simp only [BusCtrl.dat, ack, double, held]
      cases bus.request.loadOrStore
      · exact append_high _ _
      · rfl
    rw [adr, dat]
    refine .high first reads double (by rw [ack]; rfl) ?_
    rw [held, ack]
    cases bus.request.loadOrStore
    · exact congrArg (reads ++ ·) ((append_low _ _ (Nat.le_refl 32)).trans
        (BitVec.setWidth_eq first))
    · rfl
  | high _ _ double ack => simp [BusCtrl.done, double, ack] at asked

variable {trace : BusTrace} {input : BusInput}

/-- A request that is taken starts with the data handed over. -/
theorem step_taken (flush : input.flush = false) (accepts : trace.accepts input = true) :
    (trace.step input).bus = ⟨true, input.request, 0, input.reqData⟩ := by
  simp only [BusTrace.accepts, BusCtrl.rdy] at accepts
  simp [step, BusCtrl.step, flush, accepts]

/-- Without a new request the controller keeps the one it has, and collects what is answered. -/
theorem step_waits (flush : input.flush = false) (accepts : trace.accepts input = false)
    (vld : (trace.step input).bus.vld = true) :
    trace.bus.vld = true ∧ (trace.step input).bus =
      { trace.bus with
        ack := if input.ack then trace.bus.ack + 1 else trace.bus.ack
        data :=
          if input.ack && !trace.bus.request.loadOrStore then
            if trace.bus.ack == 0 then trace.bus.data.extractLsb' 32 32 ++ input.wbDat
            else input.wbDat ++ trace.bus.data.setWidth 32
          else trace.bus.data } := by
  have idle : (input.reqVld && (!trace.bus.vld ||
      (trace.bus.vld && (trace.bus.wbVld && input.wbRdy)))) = false := accepts
  have next : (trace.step input).bus.vld =
      if (trace.bus.wbVld && input.wbRdy) && trace.bus.vld then false else trace.bus.vld := by
    simp [step, BusCtrl.step, flush, idle]
  rw [next] at vld
  split at vld
  · cases vld
  · rename_i held
    refine ⟨vld, ?_⟩
    rw [Bool.not_eq_true] at held
    simp [step, BusCtrl.step, flush, idle, held]

section Request

variable {request : BusRequest} {data : Word}

/-- An access begins with the request that is taken and goes on until it is flushed or its result
is taken. -/
theorem step_performs : (trace.step input).Performs request data ↔
    trace.Enters input request data ∨
      (trace.Performs request data ∧ ¬ trace.Leaves input) := by
  cases flush : input.flush with
  | true =>
    have cleared : (trace.step input).bus.vld = false := by
      simp [step, BusCtrl.step, flush, BusCtrl.reset]
    refine iff_of_false (fun performs => ?_) ?_
    · exact absurd performs.1 (by rw [cleared]; decide)
    · rintro (enters | ⟨-, stays⟩)
      · exact absurd (flush.symm.trans enters.2.1) (by decide)
      · exact stays (Or.inl flush)
  | false =>
    cases accepts : trace.accepts input with
    | true =>
      have handed : (trace.step input).data = input.reqData := if_pos accepts
      have ended : trace.bus.vld = true → trace.Leaves input := by
        intro active
        right
        simpa [BusTrace.accepts, BusCtrl.rdy, active] using (Bool.and_eq_true_iff.mp accepts).2
      rw [Performs, step_taken flush accepts, handed]
      constructor
      · rintro ⟨-, named, given⟩
        exact Or.inl ⟨accepts, flush, named, given⟩
      · rintro (⟨-, -, named, given⟩ | ⟨performs, stays⟩)
        · exact ⟨rfl, named, given⟩
        · exact absurd (ended performs.1) stays
    | false =>
      have handed : (trace.step input).data = trace.data := by simp [step, accepts]
      have kept : trace.bus.vld = true → ¬ trace.Leaves input →
          (trace.step input).bus.vld = true := by
        intro active stays
        have held : (trace.bus.wbVld && input.wbRdy) = false := by
          rw [Bool.eq_false_iff]
          exact fun taken => stays (Or.inr (Bool.and_eq_true_iff.mp taken))
        simp [step, BusCtrl.step, flush, active, held]
      constructor
      · rintro ⟨vld, named, given⟩
        obtain ⟨active, bus⟩ := step_waits flush accepts vld
        rw [bus] at named
        refine Or.inr ⟨⟨active, named, handed ▸ given⟩, ?_⟩
        rintro (flushed | ⟨done, ready⟩)
        · exact absurd (flush.symm.trans flushed) (by decide)
        · have idle := accepts
          simp only [BusTrace.accepts, BusCtrl.rdy, done, ready, active, Bool.and_self,
            Bool.or_true, Bool.and_true] at idle
          simp [step, BusCtrl.step, flush, idle, done, ready, active] at vld
      · rintro (⟨taken, -⟩ | ⟨⟨active, named, given⟩, stays⟩)
        · exact absurd (accepts.symm.trans taken) (by decide)
        · have vld := kept active stays
          refine ⟨vld, ?_, handed.trans given⟩
          rw [(step_waits flush accepts vld).2]
          exact named

theorem run_performs (inputs : List BusInput) :
    (machine.run inputs).Performs request data ↔
      machine.Standing (fun trace input => trace.Enters input request data) Leaves inputs :=
  Synchronous.standing_iff (Performs · request data) (fun performs => Bool.noConfusion performs.1)
    (fun _ _ => step_performs) inputs

end Request

theorem step_progress
    (progress : trace.bus.vld = true → Progress trace.bus trace.data trace.beats)
    (answers : trace.Answers input) (vld : (trace.step input).bus.vld = true) :
    Progress (trace.step input).bus (trace.step input).data (trace.step input).beats := by
  have flush : input.flush = false := by
    by_contra flush
    rw [Bool.not_eq_false] at flush
    simp [step, BusCtrl.step, flush, BusCtrl.reset] at vld
  cases accepts : trace.accepts input with
  | true =>
    have handed : (trace.step input).data = input.reqData := if_pos accepts
    have none : (trace.step input).beats = [] := if_pos accepts
    rw [step_taken flush accepts, handed, none]
    exact .start rfl rfl
  | false =>
    obtain ⟨active, bus⟩ := step_waits flush accepts vld
    have handed : (trace.step input).data = trace.data := by
      simp [step, accepts]
    have performed : (trace.step input).beats =
        if input.ack then trace.beats ++ [trace.beat input] else trace.beats := by
      simp [step, accepts, active]
    rw [bus, handed, performed]
    cases ack : input.ack with
    | false => exact progress active
    | true =>
      have asked : trace.bus.done = false := by
        simpa [BusCtrl.cyc, active] using answers ack active
      exact (progress active).next asked input.wbDat

theorem run_progress (inputs : List BusInput) (obeys : machine.Obeys Answers inputs) :
    (machine.run inputs).bus.vld = true →
      Progress (machine.run inputs).bus (machine.run inputs).data (machine.run inputs).beats := by
  induction inputs using List.reverseRecOn with
  | nil => exact fun vld => Bool.noConfusion vld
  | append_singleton inputs input ih =>
    obtain ⟨before, answers⟩ := Synchronous.obeys_snoc.mp obeys
    rw [Synchronous.run_snoc]
    exact step_progress (ih before) answers

section Access

variable {bus : BusCtrl} {access : IoAccess}

/-- The controller knows the size of an access, and what is not extended with its sign. -/
structure Knows (bus : BusCtrl) (access : IoAccess) : Prop where
  store : access.store = bus.request.loadOrStore
  size : bus.size = access.size
  inside : access.size ≤ 3
  unsigned : access.store = false → bus.unsigned = !access.signed
  double : access.size = 3 → access.store = false → access.signed = true

theorem access_knows (kind : bus.request.access = some access) : Knows bus access := by
  revert kind
  unfold BusRequest.access
  split
  · rename_i store
    split
    all_goals
      rename_i opcode
      first
        | rintro ⟨⟩; done
        | rintro ⟨rfl⟩
          refine ⟨store.symm, ?_, by decide, nofun, nofun⟩
          rw [BusCtrl.size, opcode]
          rfl
  · rename_i load
    split
    all_goals
      rename_i opcode
      first
        | rintro ⟨⟩; done
        | rintro ⟨rfl⟩
          refine ⟨((Bool.not_eq_true _).mp load).symm, ?_, by decide, fun _ => ?_, by decide⟩
          · rw [BusCtrl.size, opcode]
            rfl
          · rw [BusCtrl.unsigned, opcode]
            rfl

variable {data : Word} {reads upper : BitVec 32}

/-- A word is its own lower part extended with zeros if there is nothing above. -/
theorem zero_extends (width : Nat) (inside : width ≤ 32) :
    upper ++ reads = ((reads.setWidth 64).setWidth width).setWidth 64 ↔
      upper = 0 ∧ reads.toNat < 2 ^ width := by
  have word : (upper ++ reads).toNat = 2 ^ 32 * upper.toNat + reads.toNat := by
    rw [BitVec.toNat_append, ← Nat.shiftLeft_add_eq_or_of_lt reads.isLt, Nat.shiftLeft_eq,
      Nat.mul_comm]
  have below : 2 ^ width ≤ 2 ^ 32 := Nat.pow_le_pow_right (by decide) inside
  have lower : (((reads.setWidth 64).setWidth width).setWidth 64).toNat =
      reads.toNat % 2 ^ width := by
    have small : reads.toNat % 2 ^ width < 2 ^ width := Nat.mod_lt _ (Nat.two_pow_pos width)
    rw [BitVec.toNat_setWidth, BitVec.toNat_setWidth, BitVec.toNat_setWidth,
      Nat.mod_eq_of_lt (show reads.toNat < 2 ^ 64 by omega), Nat.mod_eq_of_lt (by omega)]
  rw [← BitVec.toNat_inj, word, lower, ← BitVec.toNat_inj]
  constructor
  · intro same
    have small : reads.toNat % 2 ^ width < 2 ^ width := Nat.mod_lt _ (Nat.two_pow_pos width)
    have none : upper.toNat = 0 := by omega
    rw [none, Nat.mul_zero, Nat.zero_add] at same
    exact ⟨none, by omega⟩
  · rintro ⟨none, small⟩
    rw [none, Nat.mod_eq_of_lt small]
    exact Nat.zero_add _

/-- The value of a load of less than eight bytes. -/
theorem prfWbData_single (knows : Knows bus access) (load : access.store = false)
    (single : access.size < 3) (held : bus.data = upper ++ reads) :
    bus.prfWbData = access.extend (reads.setWidth 64) ↔
      (access.signed = false → upper = 0 ∧ reads.toNat < 2 ^ (8 * 2 ^ access.size)) := by
  have narrow : (bus.size == 3) = false := by
    rw [knows.size, beq_eq_false_iff_ne]
    omega
  have inside : 8 * 2 ^ access.size ≤ 32 := by
    have power : 2 ^ access.size ≤ 2 ^ 2 := Nat.pow_le_pow_right (by decide) (by omega)
    omega
  rw [BusCtrl.prfWbData, knows.unsigned load, narrow, Bool.or_false, IoAccess.extend, held]
  cases signed : access.signed with
  | false => exact (zero_extends _ inside).trans ⟨fun clean _ => clean, fun clean => clean rfl⟩
  | true =>
    refine iff_of_true ?_ nofun
    have cut : ∀ width ≤ 32,
        (upper ++ reads).setWidth width = (reads.setWidth 64).setWidth width := by
      intro width narrow
      rw [append_low _ _ narrow, BitVec.setWidth_setWidth_of_le _ (by omega)]
    rw [knows.size]
    obtain byte | half | word : access.size = 0 ∨ access.size = 1 ∨ access.size = 2 := by omega
    · rw [byte]
      exact congrArg (BitVec.signExtend 64) (cut 8 (by decide))
    · rw [half]
      exact congrArg (BitVec.signExtend 64) (cut 16 (by decide))
    · rw [word]
      exact congrArg (BitVec.signExtend 64) (cut 32 (by decide))

/-- The value of a load of eight bytes. -/
theorem prfWbData_double (knows : Knows bus access) (load : access.store = false)
    (double : access.size = 3) (held : bus.data = upper ++ reads) :
    bus.prfWbData = access.extend (upper ++ reads) := by
  have wide : (bus.size == 3) = true := by
    rw [knows.size, double]
    rfl
  have whole : ∀ word : Word, (word.setWidth 64).signExtend 64 = word := by
    intro word
    rw [BitVec.setWidth_eq, BitVec.signExtend_eq]
  rw [BusCtrl.prfWbData, wide, Bool.or_true, if_pos rfl, IoAccess.extend, knows.double double load,
    if_pos rfl, held, double]
  exact (whole _).symm

theorem byte_low (data : Word) {place : Nat} (inside : place < 4) :
    (data.setWidth 32).extractLsb' (8 * place) 8 = data.extractLsb' (8 * place) 8 := by
  apply BitVec.eq_of_getLsbD_eq
  intro bit low
  have short : 8 * place + bit < 32 := by omega
  simp only [BitVec.getLsbD_extractLsb', BitVec.getLsbD_setWidth, low, short, decide_true,
    Bool.true_and]

theorem byte_high (data : Word) {place : Nat} (inside : place < 4) :
    (data.extractLsb' 32 32).extractLsb' (8 * place) 8 = data.extractLsb' (8 * (4 + place)) 8 := by
  apply BitVec.eq_of_getLsbD_eq
  intro bit low
  have short : 8 * place + bit < 32 := by omega
  have same : 32 + (8 * place + bit) = 8 * (4 + place) + bit := by omega
  simp only [BitVec.getLsbD_extractLsb', low, short, decide_true, Bool.true_and, same]

/-- The beat of an access of less than eight bytes, and what it writes. -/
theorem beat_single (knows : Knows bus access) (single : access.size < 3) (data : Word)
    (reads : BitVec 32) :
    [(bus.request.paddr, bus.request.loadOrStore, bus.sel)] = access.beats bus.request.paddr ∧
      (access.store = true →
        BusBeat.writes ⟨bus.request.paddr, true, bus.sel, data.setWidth 32, reads⟩ =
          access.stores bus.request.paddr data) := by
  have selected : (List.range 4).filter bus.sel.getLsbD = List.range (2 ^ access.size) ∧
      [(bus.request.paddr, access.store, bus.sel)] = access.beats bus.request.paddr := by
    rw [BusCtrl.sel, knows.size, IoAccess.beats]
    obtain byte | half | word : access.size = 0 ∨ access.size = 1 ∨ access.size = 2 := by omega
    · rw [byte]
      exact ⟨by decide, rfl⟩
    · rw [half]
      exact ⟨by decide, rfl⟩
    · rw [word]
      exact ⟨by decide, rfl⟩
  have few : 2 ^ access.size ≤ 2 ^ 2 := Nat.pow_le_pow_right (by decide) (by omega)
  refine ⟨knows.store ▸ selected.2, fun _ => ?_⟩
  unfold BusBeat.writes IoAccess.stores
  rw [if_pos rfl, selected.1]
  refine List.map_congr_left fun place member => ?_
  rw [byte_low data (Nat.lt_of_lt_of_le (List.mem_range.mp member) few)]

/-- A beat with all bytes selected writes a word. -/
theorem writes_word (paddr : PhysicalAddress) (dat reads : BitVec 32) :
    BusBeat.writes ⟨paddr, true, 0b1111, dat, reads⟩ =
      (List.range 4).map fun place =>
        (paddr + BitVec.ofNat 56 place, dat.extractLsb' (8 * place) 8) := by
  have selected : (List.range 4).filter (0b1111#4).getLsbD = List.range 4 := by decide
  exact congrArg (List.map _) selected

/-- The beats of an access of eight bytes, and what they write. -/
theorem beats_double (knows : Knows bus access) (double : access.size = 3) (data : Word)
    (reads upper : BitVec 32) :
    [(bus.request.paddr, bus.request.loadOrStore, bus.sel),
        (bus.request.paddr + 4, bus.request.loadOrStore, bus.sel)] =
        access.beats bus.request.paddr ∧
      (access.store = true →
        BusBeat.writes ⟨bus.request.paddr, true, bus.sel, data.setWidth 32, reads⟩ ++
            BusBeat.writes ⟨bus.request.paddr + 4, true, bus.sel, data.extractLsb' 32 32, upper⟩ =
          access.stores bus.request.paddr data) := by
  have all : bus.sel = 0b1111 := by
    rw [BusCtrl.sel, knows.size, double]
    rfl
  have split : List.range (2 ^ 3) = List.range 4 ++ (List.range 4).map (4 + ·) := rfl
  rw [IoAccess.beats, double, all, ← knows.store]
  refine ⟨rfl, fun _ => ?_⟩
  rw [IoAccess.stores, double, split, List.map_append, List.map_map, writes_word, writes_word]
  refine congrArg₂ (· ++ ·) (List.map_congr_left fun place member => ?_)
    (List.map_congr_left fun place member => ?_)
  · rw [byte_low data (List.mem_range.mp member)]
  · have four : (4 : BitVec 56) = BitVec.ofNat 56 4 := rfl
    rw [byte_high data (List.mem_range.mp member), Function.comp_apply, BitVec.add_assoc, four,
      ← BitVec.ofNat_add]

/-- An access is done when the beats it asks for are acknowledged, and it asks for no more. -/
theorem progress_done {beats : List BusBeat} (progress : Progress bus data beats)
    (knows : Knows bus access) (paddr : PhysicalAddress) :
    (bus.done = true ↔ beats.length = (access.beats paddr).length) ∧
      beats.length ≤ (access.beats paddr).length := by
  have asked : (access.beats paddr).length = if bus.size = 3 then 2 else 1 := by
    have inside := knows.inside
    rw [knows.size, IoAccess.beats]
    obtain byte | half | word | double : access.size = 0 ∨ access.size = 1 ∨ access.size = 2 ∨
      access.size = 3 := by omega
    · rw [byte]; rfl
    · rw [half]; rfl
    · rw [word]; rfl
    · rw [double]; rfl
  rw [asked, BusCtrl.done]
  cases progress with
  | start ack held =>
    rw [ack]
    split <;> simp
  | low reads ack held =>
    rw [ack]
    split <;> simp
  | high reads upper double ack held =>
    rw [ack, if_pos double, if_pos double]
    simp

/-- An access that is done has made its transfer if and only if it is clean. -/
theorem progress_transfers {beats : List BusBeat} (progress : Progress bus data beats)
    (knows : Knows bus access) (done : bus.done = true) :
    access.Transfers bus.request.paddr data beats bus.prfWbData ↔ access.Clean data beats := by
  cases progress with
  | start ack held =>
    rw [BusCtrl.done, ack] at done
    split at done <;> exact absurd done (by decide)
  | low reads ack held =>
    have single : access.size < 3 := by
      have inside := knows.inside
      by_contra double
      have size : bus.size = 3 := by rw [knows.size]; omega
      simp [BusCtrl.done, size, ack] at done
    obtain ⟨beat, stored⟩ := beat_single knows single data reads
    have writes : access.store = true → [(⟨bus.request.paddr, bus.request.loadOrStore, bus.sel,
        data.setWidth 32, reads⟩ : BusBeat)].flatMap BusBeat.writes =
          access.stores bus.request.paddr data := fun store => by
      rw [List.flatMap_singleton, ← knows.store, store]
      exact stored store
    have loads : access.store = false → (bus.prfWbData = access.extend (reads.setWidth 64) ↔
        (access.signed = false → data.extractLsb' 32 32 = 0 ∧
          reads.toNat < 2 ^ (8 * 2 ^ access.size))) := fun load => by
      rw [← knows.store, load] at held
      exact prfWbData_single knows load single held
    constructor
    · intro transfers load signed _
      obtain ⟨none, small⟩ := (loads load).mp (transfers.loaded load) signed
      refine ⟨none, fun other member => ?_⟩
      rw [List.mem_singleton.mp member]
      exact small
    · intro clean
      refine ⟨beat, writes, fun load => (loads load).mpr fun signed => ?_⟩
      obtain ⟨none, small⟩ := clean load signed single
      exact ⟨none, small _ (List.mem_singleton.mpr rfl)⟩
  | high reads upper double ack held =>
    have size : access.size = 3 := knows.size.symm.trans double
    obtain ⟨both, stored⟩ := beats_double knows size data reads upper
    refine iff_of_true ⟨both, fun store => ?_, fun load => ?_⟩ fun _ _ single => ?_
    · rw [List.flatMap_cons, List.flatMap_singleton, ← knows.store, store]
      exact stored store
    · rw [← knows.store, load] at held
      exact prfWbData_double knows load size held
    · omega

end Access

/-- In every run in which the bus acknowledges only the beats it is asked for: the result of a
request is presented if and only if the request has been taken, neither flushed nor handed over
since, and all its beats are acknowledged, the bus being asked for a beat as long as one is
missing; and an access whose result is presented has transferred the right bytes if and only if it
is clean. -/
theorem transfers_iff (inputs : List BusInput) (obeys : machine.Obeys Answers inputs)
    (request : BusRequest) (data : Word) (access : IoAccess)
    (kind : request.access = some access) :
    ((machine.run inputs).Presents request data ↔
      machine.Standing (fun trace input => trace.Enters input request data) Leaves inputs ∧
        (machine.run inputs).beats.length = (access.beats request.paddr).length) ∧
    (machine.Standing (fun trace input => trace.Enters input request data) Leaves inputs →
      ∀ ack, (machine.run inputs).bus.cyc ack = true ↔
        ack = false ∧
          (machine.run inputs).beats.length < (access.beats request.paddr).length) ∧
    ((machine.run inputs).Presents request data →
      (access.Transfers request.paddr data (machine.run inputs).beats
          (machine.run inputs).bus.prfWbData ↔
        access.Clean data (machine.run inputs).beats)) := by
  rw [← run_performs]
  have counted : (machine.run inputs).Performs request data →
      ((machine.run inputs).bus.done = true ↔
        (machine.run inputs).beats.length = (access.beats request.paddr).length) ∧
      (machine.run inputs).beats.length ≤ (access.beats request.paddr).length := by
    rintro ⟨vld, named, -⟩
    exact progress_done (run_progress inputs obeys vld) (access_knows (named ▸ kind)) _
  refine ⟨⟨?_, ?_⟩, ?_, ?_⟩
  · rintro ⟨presented, same⟩
    obtain ⟨done, vld⟩ := Bool.and_eq_true_iff.mp presented
    exact ⟨⟨vld, same⟩, (counted ⟨vld, same⟩).1.mp done⟩
  · rintro ⟨performs, all⟩
    exact ⟨Bool.and_eq_true_iff.mpr ⟨(counted performs).1.mpr all, performs.1⟩, performs.2⟩
  · intro performs ack
    obtain ⟨done, most⟩ := counted performs
    rw [BusCtrl.cyc, performs.1, Bool.true_and, Bool.and_eq_true_iff, Bool.not_eq_true',
      Bool.not_eq_true', ← Bool.not_eq_true, done, and_comm]
    exact and_congr_right fun _ => ⟨fun differ => by omega, fun fewer => by omega⟩
  · rintro ⟨presented, named, given⟩
    obtain ⟨done, vld⟩ := Bool.and_eq_true_iff.mp presented
    rw [← named, ← given]
    exact progress_transfers (run_progress inputs obeys vld) (access_knows (named ▸ kind)) done

/-- A cycle in which nothing arrives. -/
def quiet : BusInput := ⟨false, false, ⟨false, false, 0, 0, 0, 0⟩, 0, false, false, 0⟩

/-- `LD`, answered with a wait in each beat. -/
def loadDouble : List BusInput :=
  [{ quiet with reqVld := true, request := ⟨false, false, 3, 5, 3, 0x1000⟩ }, quiet,
    { quiet with ack := true, wbDat := 0x89abcdef }, quiet,
    { quiet with ack := true, wbDat := 0x01234567 }]

instance (trace : BusTrace) (input : BusInput) : Decidable (Answers trace input) :=
  inferInstanceAs (Decidable (_ → _ → _))

theorem loadDouble_transfers :
    machine.Standing
        (fun trace input => trace.Enters input ⟨false, false, 3, 5, 3, 0x1000⟩ 0) Leaves
        loadDouble ∧
      (machine.run (loadDouble.take 3)).bus.cyc false = true ∧
      (machine.run loadDouble).bus.prfWbData = 0x0123456789abcdef ∧
      IoAccess.Transfers ⟨false, 3, true⟩ 0x1000 0 (machine.run loadDouble).beats
        (machine.run loadDouble).bus.prfWbData := by
  have presented : (machine.run loadDouble).Presents ⟨false, false, 3, 5, 3, 0x1000⟩ 0 :=
    ⟨by decide, rfl, rfl⟩
  have started : (machine.run (loadDouble.take 3)).Performs ⟨false, false, 3, 5, 3, 0x1000⟩ 0 :=
    ⟨by decide, rfl, rfl⟩
  obtain ⟨result, -, right⟩ := transfers_iff loadDouble (by decide) ⟨false, false, 3, 5, 3, 0x1000⟩
    0 ⟨false, 3, true⟩ (by decide)
  obtain ⟨-, asked, -⟩ := transfers_iff (loadDouble.take 3) (by decide)
    ⟨false, false, 3, 5, 3, 0x1000⟩ 0 ⟨false, 3, true⟩ (by decide)
  refine ⟨(result.mp presented).1, ?_, by decide, (right presented).mpr ?_⟩
  · exact (asked ((run_performs _).mp started) false).mpr ⟨rfl, by decide⟩
  · exact fun _ signed _ => Bool.noConfusion signed

/-- `LBU` of a device that drives its whole word. -/
def loadByteUnsigned : List BusInput :=
  [{ quiet with reqVld := true, request := ⟨false, false, 3, 5, 4, 0x1000⟩ },
    { quiet with ack := true, wbDat := 0x1280 }]

/-- It brings back two bytes. -/
theorem load_byte_unsigned : machine.Obeys Answers loadByteUnsigned ∧
    (machine.run loadByteUnsigned).bus.wbVld = true ∧
    (machine.run loadByteUnsigned).bus.request.access = some ⟨false, 0, false⟩ ∧
    ¬ IoAccess.Transfers ⟨false, 0, false⟩ (machine.run loadByteUnsigned).bus.request.paddr
      (machine.run loadByteUnsigned).data (machine.run loadByteUnsigned).beats
      (machine.run loadByteUnsigned).bus.prfWbData := by
  refine ⟨by decide, by decide, by decide, fun transfers => ?_⟩
  exact absurd (transfers.loaded rfl) (by decide)

end BusTrace

end GreenRio
