import GreenRio.BoundedQueue
import GreenRio.Gray
import GreenRio.Synchronous

set_option autoImplicit false

namespace GreenRio

/-- `do_grey`: two bits of a code, below the bit that `bin[2]` is. -/
def doGrey (bin : BitVec 3) : BitVec 2 :=
  if bin.getLsbD 2 then
    match bin.extractLsb' 0 2 with
    | 0b00 => 0b10
    | 0b01 => 0b11
    | 0b10 => 0b01
    | 0b11 => 0b00
  else
    match bin.extractLsb' 0 2 with
    | 0b00 => 0b00
    | 0b01 => 0b01
    | 0b10 => 0b11
    | 0b11 => 0b10

/-- `do_bin`, the way back. -/
def doBin (grey : BitVec 3) : BitVec 2 :=
  if grey.getLsbD 2 then
    match grey.extractLsb' 0 2 with
    | 0b10 => 0b00
    | 0b11 => 0b01
    | 0b01 => 0b10
    | 0b00 => 0b11
  else
    match grey.extractLsb' 0 2 with
    | 0b00 => 0b00
    | 0b01 => 0b01
    | 0b11 => 0b10
    | 0b10 => 0b11

section Codes

variable {w : Nat}

/-- `bin2grey`, by way of nine bits. -/
def bin2grey (bin : BitVec w) : BitVec w :=
  let bin8 : BitVec 9 := bin.setWidth 9
  let grey8 : BitVec 9 := bin8.extractLsb' 8 1 ++ doGrey (bin8.extractLsb' 6 3) ++
    doGrey (bin8.extractLsb' 4 3) ++ doGrey (bin8.extractLsb' 2 3) ++ doGrey (bin8.extractLsb' 0 3)
  grey8.setWidth w

/-- `grey2bin`. -/
def grey2bin (grey : BitVec w) : BitVec w :=
  let grey8 : BitVec 9 := grey.setWidth 9
  let top := grey8.extractLsb' 8 1
  let bin76 := doBin (top ++ grey8.extractLsb' 6 2)
  let bin54 := doBin (bin76.extractLsb' 0 1 ++ grey8.extractLsb' 4 2)
  let bin32 := doBin (bin54.extractLsb' 0 1 ++ grey8.extractLsb' 2 2)
  let bin10 := doBin (bin32.extractLsb' 0 1 ++ grey8.extractLsb' 0 2)
  let bin8 : BitVec 9 := top ++ bin76 ++ bin54 ++ bin32 ++ bin10
  bin8.setWidth w

theorem bin2grey_nine : ∀ bin : BitVec 9, bin2grey bin = Gray.encode bin := by
  decide +kernel

theorem grey2bin_nine : ∀ bin : BitVec 9, grey2bin (Gray.encode bin) = bin := by
  decide +kernel

theorem bin2grey_eq (narrow : w ≤ 9) (bin : BitVec w) : bin2grey bin = Gray.encode bin := by
  have wide : bin2grey bin = (bin2grey (bin.setWidth 9)).setWidth w := by
    simp only [bin2grey, BitVec.setWidth_eq]
  rw [wide, bin2grey_nine, Gray.encode_setWidth bin narrow,
    BitVec.setWidth_setWidth (by omega), BitVec.setWidth_eq]

theorem grey2bin_encode (narrow : w ≤ 9) (bin : BitVec w) : grey2bin (Gray.encode bin) = bin := by
  have wide : grey2bin (Gray.encode bin) =
      (grey2bin ((Gray.encode bin).setWidth 9)).setWidth w := by
    simp only [grey2bin, BitVec.setWidth_eq]
  rw [wide, ← Gray.encode_setWidth bin narrow, grey2bin_nine,
    BitVec.setWidth_setWidth (by omega), BitVec.setWidth_eq]

end Codes

variable {α : Type} {aw : Nat}

/-- `async_fifo` with `WR_FAST` and `RD_FAST`, `2 ^ aw` words deep: of each clock its pointer, the
reflected code of it that crosses over, and what the two synchronizer flops hold of the other
side's. -/
structure AsyncFifo (α : Type) (aw : Nat) where
  mem : BitVec aw → α
  wrPtr : BitVec (aw + 1)
  greyWrPtr : BitVec (aw + 1)
  syncRdPtr0 : BitVec (aw + 1)
  syncRdPtr1 : BitVec (aw + 1)
  rdPtr : BitVec (aw + 1)
  greyRdPtr : BitVec (aw + 1)
  syncWrPtr0 : BitVec (aw + 1)
  syncWrPtr1 : BitVec (aw + 1)

/-- What the writer drives at its clock edge. -/
structure WrEdge (α : Type) where
  wrEn : Bool
  wrData : α

/-- A moment at which `wr_clk`, `rd_clk` or both rise. Where both do, a synchronizer flop may
already see some of the bits that change; `earlyRd` and `earlyWr` mark them, and with none marked
the flops see the registers as they were. -/
structure Moment (α : Type) (aw : Nat) where
  wr : Option (WrEdge α)
  rd : Option Bool
  earlyRd : BitVec (aw + 1)
  earlyWr : BitVec (aw + 1)

namespace Moment

def wrData (moment : Moment α aw) : Option α :=
  moment.wr.bind fun edge => if edge.wrEn then some edge.wrData else none

def rdEn (moment : Moment α aw) : Bool := moment.rd.getD false

end Moment

namespace AsyncFifo

/-- Under reset the pointers are zero; `mem` keeps what it had. -/
def reset (mem : BitVec aw → α) : AsyncFifo α aw where
  mem := mem
  wrPtr := 0
  greyWrPtr := 0
  syncRdPtr0 := 0
  syncRdPtr1 := 0
  rdPtr := 0
  greyRdPtr := 0
  syncWrPtr0 := 0
  syncWrPtr1 := 0

/-- `get_cnt`; `DP * 2` loses its only bit in a pointer's width. -/
def getCnt (wrPtr rdPtr : BitVec (aw + 1)) : BitVec (aw + 1) :=
  if wrPtr ≥ rdPtr then wrPtr - rdPtr
  else BitVec.ofNat (aw + 1) (2 ^ aw * 2) - (rdPtr - wrPtr)

theorem getCnt_eq (wrPtr rdPtr : BitVec (aw + 1)) : getCnt wrPtr rdPtr = wrPtr - rdPtr := by
  have wraps : BitVec.ofNat (aw + 1) (2 ^ aw * 2) = 0 := by
    apply BitVec.eq_of_toNat_eq
    rw [BitVec.toNat_ofNat, ← Nat.pow_succ, Nat.mod_self]
    rfl
  unfold getCnt
  split
  · rfl
  · rw [wraps, zero_sub, neg_sub]

def wrCnt (fifo : AsyncFifo α aw) : BitVec (aw + 1) :=
  getCnt fifo.wrPtr (grey2bin fifo.syncRdPtr1)

def full (fifo : AsyncFifo α aw) : Bool := fifo.wrCnt.toNat == 2 ^ aw

def afull (fifo : AsyncFifo α aw) : Bool := fifo.wrCnt.toNat == 2 ^ aw - 1

def rdCnt (fifo : AsyncFifo α aw) : BitVec (aw + 1) :=
  getCnt (grey2bin fifo.syncWrPtr1) fifo.rdPtr

def empty (fifo : AsyncFifo α aw) : Bool := fifo.rdCnt.toNat == 0

def rdData (fifo : AsyncFifo α aw) : α := fifo.mem (fifo.rdPtr.setWidth aw)

/-- The writer's own registers at an edge with `wr_en`. -/
def write (fifo : AsyncFifo α aw) : Option α → AsyncFifo α aw
  | none => fifo
  | some wrData =>
    let wrPtrInc := fifo.wrPtr + 1
    { fifo with
      mem := Function.update fifo.mem (fifo.wrPtr.setWidth aw) wrData
      wrPtr := wrPtrInc
      greyWrPtr := bin2grey wrPtrInc }

/-- The reader's own registers. -/
def read (fifo : AsyncFifo α aw) (rdEn : Bool) : AsyncFifo α aw :=
  if rdEn then
    let rdPtrInc := fifo.rdPtr + 1
    { fifo with rdPtr := rdPtrInc, greyRdPtr := bin2grey rdPtrInc }
  else fifo

/-- The synchronizer on `wr_clk`. -/
def syncRd (fifo : AsyncFifo α aw) (seen : BitVec (aw + 1)) : AsyncFifo α aw :=
  { fifo with syncRdPtr0 := seen, syncRdPtr1 := fifo.syncRdPtr0 }

/-- The synchronizer on `rd_clk`. -/
def syncWr (fifo : AsyncFifo α aw) (seen : BitVec (aw + 1)) : AsyncFifo α aw :=
  { fifo with syncWrPtr0 := seen, syncWrPtr1 := fifo.syncWrPtr0 }

/-- The registers after a moment. The two sides write different ones. -/
def step (fifo : AsyncFifo α aw) (moment : Moment α aw) : AsyncFifo α aw :=
  let moved := (fifo.write moment.wrData).read moment.rdEn
  let caught := if moment.wr.isSome then
    moved.syncRd (Gray.sample moment.earlyRd fifo.greyRdPtr moved.greyRdPtr) else moved
  if moment.rd.isSome then
    caught.syncWr (Gray.sample moment.earlyWr fifo.greyWrPtr moved.greyWrPtr) else caught

/-- How many words each side has handled, and as how many the flops of the other side show them. -/
structure Progress where
  written : Nat
  writtenAt0 : Nat
  writtenAt1 : Nat
  read : Nat
  readAt0 : Nat
  readAt1 : Nat

namespace Progress

/-- What a side shows comes late, but is never ahead; the writer keeps within the lines that it
has seen to be free, the reader within the words that it has seen to be there. -/
structure Ordered (depth : Nat) (progress : Progress) : Prop where
  readSeen : progress.readAt1 ≤ progress.readAt0
  readShown : progress.readAt0 ≤ progress.read
  reading : progress.read ≤ progress.writtenAt1
  writtenSeen : progress.writtenAt1 ≤ progress.writtenAt0
  writtenShown : progress.writtenAt0 ≤ progress.written
  room : progress.written ≤ progress.readAt1 + depth

end Progress

/-- The registers show this progress, and `mem` holds the words between the two pointers. -/
structure Shows (fifo : AsyncFifo α aw) (contents : List α) (progress : Progress) : Prop where
  wrPtr : fifo.wrPtr = BitVec.ofNat (aw + 1) progress.written
  greyWrPtr : fifo.greyWrPtr = Gray.encode (BitVec.ofNat (aw + 1) progress.written)
  syncWrPtr0 : fifo.syncWrPtr0 = Gray.encode (BitVec.ofNat (aw + 1) progress.writtenAt0)
  syncWrPtr1 : fifo.syncWrPtr1 = Gray.encode (BitVec.ofNat (aw + 1) progress.writtenAt1)
  rdPtr : fifo.rdPtr = BitVec.ofNat (aw + 1) progress.read
  greyRdPtr : fifo.greyRdPtr = Gray.encode (BitVec.ofNat (aw + 1) progress.read)
  syncRdPtr0 : fifo.syncRdPtr0 = Gray.encode (BitVec.ofNat (aw + 1) progress.readAt0)
  syncRdPtr1 : fifo.syncRdPtr1 = Gray.encode (BitVec.ofNat (aw + 1) progress.readAt1)
  between : progress.written = progress.read + contents.length
  cells : ∀ place (inside : place < contents.length),
    fifo.mem (BitVec.ofNat aw (progress.read + place)) = contents[place]

section Counts

variable {fifo : AsyncFifo α aw} {contents : List α} {progress : Progress}

theorem ofNat_sub (total part : Nat) (below : part ≤ total) :
    BitVec.ofNat aw total - BitVec.ofNat aw part = BitVec.ofNat aw (total - part) := by
  have whole : total = (total - part) + part := by omega
  rw [whole, BitVec.ofNat_add, add_sub_cancel_right, Nat.add_sub_cancel]

theorem wrCnt_eq (narrow : aw ≤ 8) (shows : fifo.Shows contents progress)
    (ordered : progress.Ordered (2 ^ aw)) :
    fifo.wrCnt.toNat = progress.written - progress.readAt1 := by
  have ⟨seen, shown, reading, caught, sent, room⟩ := ordered
  have twice : 2 ^ (aw + 1) = 2 * 2 ^ aw := by rw [Nat.pow_succ, Nat.mul_comm]
  have deep := Nat.two_pow_pos aw
  rw [wrCnt, getCnt_eq, shows.wrPtr, shows.syncRdPtr1, grey2bin_encode (by omega),
    ofNat_sub _ _ (by omega), BitVec.toNat_ofNat, Nat.mod_eq_of_lt (by omega)]

theorem rdCnt_eq (narrow : aw ≤ 8) (shows : fifo.Shows contents progress)
    (ordered : progress.Ordered (2 ^ aw)) :
    fifo.rdCnt.toNat = progress.writtenAt1 - progress.read := by
  have ⟨seen, shown, reading, caught, sent, room⟩ := ordered
  have twice : 2 ^ (aw + 1) = 2 * 2 ^ aw := by rw [Nat.pow_succ, Nat.mul_comm]
  have deep := Nat.two_pow_pos aw
  rw [rdCnt, getCnt_eq, shows.rdPtr, shows.syncWrPtr1, grey2bin_encode (by omega),
    ofNat_sub _ _ (by omega), BitVec.toNat_ofNat, Nat.mod_eq_of_lt (by omega)]

theorem ofNat_near {base left right : Nat} (first : left < 2 ^ aw) (second : right < 2 ^ aw)
    (same : BitVec.ofNat aw (base + left) = BitVec.ofNat aw (base + right)) : left = right := by
  have equal := congrArg BitVec.toNat same
  rw [BitVec.toNat_ofNat, BitVec.toNat_ofNat] at equal
  exact (Nat.ModEq.add_left_cancel' base equal).eq_of_lt_of_lt first second

theorem setWidth_ofNat (count : Nat) :
    (BitVec.ofNat (aw + 1) count).setWidth aw = BitVec.ofNat aw count :=
  BitVec.setWidth_ofNat_of_le (Nat.le_succ aw) count

/-- A word that is written joins the end. -/
theorem Shows.write (shows : fifo.Shows contents progress) (narrow : aw ≤ 8) (wrData : Option α)
    (room : wrData.isSome = true → contents.length < 2 ^ aw) :
    (fifo.write wrData).Shows (contents ++ wrData.toList)
      { progress with written := progress.written + wrData.toList.length } := by
  cases wrData with
  | none => simpa [AsyncFifo.write] using shows
  | some word =>
    have next : fifo.wrPtr + 1 = BitVec.ofNat (aw + 1) (progress.written + 1) := by
      rw [shows.wrPtr, BitVec.ofNat_add]
      rfl
    have line : fifo.wrPtr.setWidth aw = BitVec.ofNat aw (progress.read + contents.length) := by
      rw [shows.wrPtr, setWidth_ofNat, shows.between]
    refine { shows with wrPtr := next, greyWrPtr := ?_, between := ?_, cells := ?_ }
    · change bin2grey (fifo.wrPtr + 1) = _
      rw [bin2grey_eq (by omega), next]
      rfl
    · simp [shows.between, Nat.add_assoc]
    · intro place inside
      change Function.update fifo.mem (fifo.wrPtr.setWidth aw) word _ = _
      have bound : place < contents.length + 1 := by simpa using inside
      by_cases last : place = contents.length
      · simp [last, line]
      · have other : BitVec.ofNat aw (progress.read + place) ≠
            BitVec.ofNat aw (progress.read + contents.length) := by
          intro same
          have free := room rfl
          exact last (ofNat_near (by omega) free same)
        rw [line, Function.update_of_ne other, shows.cells place (by omega),
          List.getElem_append_left (by omega)]

/-- A word that is read leaves the front. -/
theorem Shows.read (shows : fifo.Shows contents progress) (narrow : aw ≤ 8) (rdEn : Bool)
    (present : rdEn.toNat ≤ contents.length) :
    (fifo.read rdEn).Shows (contents.drop rdEn.toNat)
      { progress with read := progress.read + rdEn.toNat } := by
  cases rdEn with
  | false => simpa [AsyncFifo.read] using shows
  | true =>
    have next : fifo.rdPtr + 1 = BitVec.ofNat (aw + 1) (progress.read + 1) := by
      rw [shows.rdPtr, BitVec.ofNat_add]
      rfl
    refine { shows with rdPtr := next, greyRdPtr := ?_, between := ?_, cells := ?_ }
    · change bin2grey (fifo.rdPtr + 1) = _
      rw [bin2grey_eq (by omega), next]
      rfl
    · have total := shows.between
      simp only [Bool.toNat_true, List.length_drop] at present ⊢
      omega
    · intro place inside
      change fifo.mem (BitVec.ofNat aw (progress.read + 1 + place)) = _
      rw [List.length_drop, Bool.toNat_true] at inside
      rw [List.getElem_drop, Nat.add_assoc, shows.cells (1 + place) (by omega)]
      rfl

theorem Shows.syncRd (shows : fifo.Shows contents progress) (rises : Bool) (caught : Nat) :
    (if rises then fifo.syncRd (Gray.encode (BitVec.ofNat (aw + 1) caught)) else fifo).Shows
      contents
      { progress with
        readAt0 := if rises then caught else progress.readAt0
        readAt1 := if rises then progress.readAt0 else progress.readAt1 } := by
  cases rises with
  | false => exact shows
  | true => exact { shows with syncRdPtr0 := rfl, syncRdPtr1 := shows.syncRdPtr0 }

theorem Shows.syncWr (shows : fifo.Shows contents progress) (rises : Bool) (caught : Nat) :
    (if rises then fifo.syncWr (Gray.encode (BitVec.ofNat (aw + 1) caught)) else fifo).Shows
      contents
      { progress with
        writtenAt0 := if rises then caught else progress.writtenAt0
        writtenAt1 := if rises then progress.writtenAt0 else progress.writtenAt1 } := by
  cases rises with
  | false => exact shows
  | true => exact { shows with syncWrPtr0 := rfl, syncWrPtr1 := shows.syncWrPtr0 }

/-- A flop that catches a pointer while it moves shows a count in between. -/
theorem sample_count (early : BitVec (aw + 1)) (count moves : Nat) (single : moves ≤ 1) :
    ∃ caught, count ≤ caught ∧ caught ≤ count + moves ∧
      Gray.sample early (Gray.encode (BitVec.ofNat (aw + 1) count))
        (Gray.encode (BitVec.ofNat (aw + 1) (count + moves))) =
      Gray.encode (BitVec.ofNat (aw + 1) caught) := by
  by_cases still : moves = 0
  · refine ⟨count, by omega, by omega, ?_⟩
    subst still
    exact Gray.sample_self _ _
  · obtain rfl : moves = 1 := by omega
    have next : BitVec.ofNat (aw + 1) (count + 1) = BitVec.ofNat (aw + 1) count + 1 := by
      rw [BitVec.ofNat_add]
      rfl
    rw [next]
    rcases Gray.sample_encode early (BitVec.ofNat (aw + 1) count) with old | new
    · exact ⟨count, by omega, by omega, old⟩
    · exact ⟨count + 1, by omega, by omega, by rw [new, next]⟩

end Counts

/-- What a moment passes through the queue. -/
def exchange (moment : Moment α aw) : BoundedQueue.Exchange α where
  pushed := moment.wrData.toList
  popped := moment.rdEn.toNat

/-- The words that the reader takes. -/
def taken (fifo : AsyncFifo α aw) (moment : Moment α aw) : List α :=
  if moment.rdEn then [fifo.rdData] else []

/-- The rule of both sides: no write while `full`, no read while `empty`. -/
def Permitted (fifo : AsyncFifo α aw) (moment : Moment α aw) : Prop :=
  (moment.wrData.isSome = true → fifo.full = false) ∧
    (moment.rdEn = true → fifo.empty = false)

instance (fifo : AsyncFifo α aw) (moment : Moment α aw) : Decidable (fifo.Permitted moment) :=
  inferInstanceAs (Decidable (_ ∧ _))

/-- How a moment moves the counts. -/
structure Moves (moment : Moment α aw) (before after : Progress) : Prop where
  written : after.written = before.written + moment.wrData.toList.length
  read : after.read = before.read + moment.rdEn.toNat
  readAt1 : after.readAt1 = if moment.wr.isSome then before.readAt0 else before.readAt1
  readKept : moment.wr.isSome = false → after.readAt0 = before.readAt0
  readCaught : moment.wr.isSome = true → before.read ≤ after.readAt0 ∧ after.readAt0 ≤ after.read
  writtenAt1 : after.writtenAt1 = if moment.rd.isSome then before.writtenAt0 else before.writtenAt1
  writtenKept : moment.rd.isSome = false → after.writtenAt0 = before.writtenAt0
  writtenCaught : moment.rd.isSome = true →
    before.written ≤ after.writtenAt0 ∧ after.writtenAt0 ≤ after.written

theorem length_wrData (moment : Moment α aw) : moment.wrData.toList.length ≤ 1 := by
  cases moment.wrData <;> simp

section Run

variable {fifo : AsyncFifo α aw} {contents : List α} {progress : Progress}
  {moment : Moment α aw}

theorem full_eq (narrow : aw ≤ 8) (shows : fifo.Shows contents progress)
    (ordered : progress.Ordered (2 ^ aw)) :
    fifo.full = decide (progress.written = progress.readAt1 + 2 ^ aw) := by
  have ⟨seen, shown, reading, caught, sent, room⟩ := ordered
  rw [full, wrCnt_eq narrow shows ordered]
  exact decide_eq_decide.mpr (by omega)

theorem empty_eq (narrow : aw ≤ 8) (shows : fifo.Shows contents progress)
    (ordered : progress.Ordered (2 ^ aw)) :
    fifo.empty = decide (progress.read = progress.writtenAt1) := by
  have reading := ordered.reading
  rw [empty, rdCnt_eq narrow shows ordered]
  exact decide_eq_decide.mpr (by omega)

/-- One moment keeps the registers true to the queue. -/
theorem Shows.step (shows : fifo.Shows contents progress) (narrow : aw ≤ 8)
    (room : moment.wrData.isSome = true → contents.length < 2 ^ aw)
    (present : moment.rdEn.toNat ≤ contents.length) :
    ∃ after, (fifo.step moment).Shows ((exchange moment).next contents) after ∧
      Moves moment progress after := by
  have moved := (shows.write narrow moment.wrData room).read narrow moment.rdEn
    (by rw [List.length_append]; omega)
  rw [List.drop_append_of_le_length present] at moved
  obtain ⟨caughtRd, oldRd, newRd, seenRd⟩ := sample_count moment.earlyRd progress.read
    moment.rdEn.toNat (Bool.toNat_le _)
  obtain ⟨caughtWr, oldWr, newWr, seenWr⟩ := sample_count moment.earlyWr progress.written
    moment.wrData.toList.length (length_wrData moment)
  rw [← shows.greyRdPtr, ← moved.greyRdPtr] at seenRd
  rw [← shows.greyWrPtr, ← moved.greyWrPtr] at seenWr
  unfold AsyncFifo.step
  dsimp only
  rw [seenRd, seenWr]
  refine ⟨_, (moved.syncRd moment.wr.isSome caughtRd).syncWr moment.rd.isSome caughtWr, ?_⟩
  exact {
    written := rfl
    read := rfl
    readAt1 := rfl
    readKept := fun still => by simp [still]
    readCaught := fun rises => by simp [rises, oldRd, newRd]
    writtenAt1 := rfl
    writtenKept := fun still => by simp [still]
    writtenCaught := fun rises => by simp [rises, oldWr, newWr] }

/-- Neither side overtakes what it has seen of the other. -/
theorem Moves.ordered {after : Progress} {depth : Nat} (moves : Moves moment progress after)
    (ordered : progress.Ordered depth)
    (room : moment.wrData.isSome = true → progress.written < progress.readAt1 + depth)
    (present : moment.rdEn = true → progress.read < progress.writtenAt1) :
    after.Ordered depth := by
  have ⟨seen, shown, reading, caught, sent, free⟩ := ordered
  have written : after.written ≤ progress.readAt1 + depth := by
    rw [moves.written]
    cases data : moment.wrData with
    | none => exact free
    | some word => exact room (by rw [data]; rfl)
  have read : after.read ≤ progress.writtenAt1 := by
    rw [moves.read]
    cases taking : moment.rdEn with
    | false => exact reading
    | true => exact present taking
  have onward : progress.written ≤ after.written := by rw [moves.written]; omega
  have further : progress.read ≤ after.read := by rw [moves.read]; omega
  have readAt1 := moves.readAt1
  have writtenAt1 := moves.writtenAt1
  have readAt0 : after.readAt1 ≤ after.readAt0 ∧ after.readAt0 ≤ after.read ∧
      progress.readAt1 ≤ after.readAt1 := by
    cases rises : moment.wr.isSome with
    | false =>
      rw [rises, if_neg Bool.false_ne_true] at readAt1
      have kept := moves.readKept rises
      omega
    | true =>
      rw [rises, if_pos rfl] at readAt1
      have between := moves.readCaught rises
      omega
  have writtenAt0 : after.writtenAt1 ≤ after.writtenAt0 ∧ after.writtenAt0 ≤ after.written ∧
      progress.writtenAt1 ≤ after.writtenAt1 := by
    cases rises : moment.rd.isSome with
    | false =>
      rw [rises, if_neg Bool.false_ne_true] at writtenAt1
      have kept := moves.writtenKept rises
      omega
    | true =>
      rw [rises, if_pos rfl] at writtenAt1
      have between := moves.writtenCaught rises
      omega
  constructor <;> omega

end Run

/-- The FIFO holds the queue, at some progress of its two sides. -/
structure Holds (fifo : AsyncFifo α aw) (contents : List α) (progress : Progress) : Prop where
  shows : fifo.Shows contents progress
  ordered : progress.Ordered (2 ^ aw)

namespace Holds

variable {fifo : AsyncFifo α aw} {contents : List α} {progress : Progress}

theorem reset (mem : BitVec aw → α) : (AsyncFifo.reset mem).Holds [] ⟨0, 0, 0, 0, 0, 0⟩ where
  shows := by
    have zero : (0 : BitVec (aw + 1)) = Gray.encode (BitVec.ofNat (aw + 1) 0) := by
      simp [Gray.encode]
    exact ⟨rfl, zero, zero, zero, rfl, zero, zero, zero, rfl, fun place inside => by simp at inside⟩
  ordered := by constructor <;> simp

theorem length_le (holds : fifo.Holds contents progress) : contents.length ≤ 2 ^ aw := by
  have ⟨seen, shown, reading, caught, sent, room⟩ := holds.ordered
  have between := holds.shows.between
  omega

theorem room (holds : fifo.Holds contents progress) (narrow : aw ≤ 8)
    (free : fifo.full = false) : progress.written < progress.readAt1 + 2 ^ aw := by
  have bound := holds.ordered.room
  rw [full_eq narrow holds.shows holds.ordered, decide_eq_false_iff_not] at free
  omega

theorem present (holds : fifo.Holds contents progress) (narrow : aw ≤ 8)
    (shown : fifo.empty = false) : progress.read < progress.writtenAt1 := by
  have bound := holds.ordered.reading
  rw [empty_eq narrow holds.shows holds.ordered, decide_eq_false_iff_not] at shown
  omega

theorem length_lt (holds : fifo.Holds contents progress) (narrow : aw ≤ 8)
    (free : fifo.full = false) : contents.length < 2 ^ aw := by
  have ⟨seen, shown, reading, caught, sent, _⟩ := holds.ordered
  have between := holds.shows.between
  have room := holds.room narrow free
  omega

theorem length_pos (holds : fifo.Holds contents progress) (narrow : aw ≤ 8)
    (shown : fifo.empty = false) : 0 < contents.length := by
  have ⟨seen, _, reading, caught, sent, room⟩ := holds.ordered
  have between := holds.shows.between
  have present := holds.present narrow shown
  omega

theorem rdData_eq (holds : fifo.Holds contents progress) (inside : 0 < contents.length) :
    fifo.rdData = contents[0] := by
  rw [rdData, holds.shows.rdPtr, setWidth_ofNat]
  exact holds.shows.cells 0 inside

theorem taken_eq (holds : fifo.Holds contents progress) {moment : Moment α aw}
    (present : moment.rdEn.toNat ≤ contents.length) :
    fifo.taken moment = (exchange moment).leaving contents := by
  unfold taken BoundedQueue.Exchange.leaving exchange
  cases taking : moment.rdEn with
  | false => rfl
  | true =>
    rw [taking, Bool.toNat_true] at present
    rw [if_pos rfl, holds.rdData_eq present]
    cases contents with
    | nil => cases present
    | cons word rest => rfl

/-- A permitted moment is one exchange of the queue. -/
theorem fits (holds : fifo.Holds contents progress) (narrow : aw ≤ 8) {moment : Moment α aw}
    (permitted : fifo.Permitted moment) : (exchange moment).Fits (2 ^ aw) contents where
  present := by
    change moment.rdEn.toNat ≤ contents.length
    cases taking : moment.rdEn with
    | false => exact Nat.zero_le _
    | true => exact holds.length_pos narrow (permitted.2 taking)
  room := by
    change contents.length + moment.wrData.toList.length ≤ 2 ^ aw
    cases data : moment.wrData with
    | none => exact holds.length_le
    | some word => exact holds.length_lt narrow (permitted.1 (by rw [data]; rfl))

theorem step (holds : fifo.Holds contents progress) (narrow : aw ≤ 8) {moment : Moment α aw}
    (permitted : fifo.Permitted moment) :
    ∃ after, (fifo.step moment).Holds ((exchange moment).next contents) after ∧
      Moves moment progress after := by
  obtain ⟨after, shows, moves⟩ := holds.shows.step narrow
    (fun writing => holds.length_lt narrow (permitted.1 writing)) (holds.fits narrow permitted).present
  have ordered := moves.ordered holds.ordered
    (fun writing => holds.room narrow (permitted.1 writing))
    (fun taking => holds.present narrow (permitted.2 taking))
  exact ⟨after, ⟨shows, ordered⟩, moves⟩

end Holds

/-- The FIFO over the moments at which a clock rises, from reset. -/
def machine (mem : BitVec aw → α) : Synchronous (AsyncFifo α aw) (Moment α aw) where
  reset := reset mem
  step := step

/-- The queue that a run leaves. -/
def waiting (moments : List (Moment α aw)) : List α := BoundedQueue.after [] (moments.map exchange)

theorem waiting_snoc (moments : List (Moment α aw)) (moment : Moment α aw) :
    waiting (moments ++ [moment]) = (exchange moment).next (waiting moments) := by
  rw [waiting, List.map_append, List.map_singleton, BoundedQueue.after_snoc]
  rfl

section Runs

variable {mem : BitVec aw → α} {moments : List (Moment α aw)}

theorem run_holds (narrow : aw ≤ 8) (obeys : (machine mem).Obeys Permitted moments) :
    ∃ progress, ((machine mem).run moments).Holds (waiting moments) progress := by
  induction moments using List.reverseRecOn with
  | nil => exact ⟨_, Holds.reset mem⟩
  | append_singleton moments moment ih =>
    obtain ⟨before, permitted⟩ := Synchronous.obeys_snoc.mp obeys
    obtain ⟨progress, holds⟩ := ih before
    obtain ⟨after, next, -⟩ := holds.step narrow permitted
    rw [Synchronous.run_snoc, waiting_snoc]
    exact ⟨after, next⟩

theorem log_taken (narrow : aw ≤ 8) (obeys : (machine mem).Obeys Permitted moments) :
    (machine mem).log taken moments = BoundedQueue.left [] (moments.map exchange) := by
  induction moments using List.reverseRecOn with
  | nil => rfl
  | append_singleton moments moment ih =>
    obtain ⟨before, permitted⟩ := Synchronous.obeys_snoc.mp obeys
    obtain ⟨progress, holds⟩ := run_holds narrow before
    rw [Synchronous.log_snoc, List.map_append, List.map_singleton, BoundedQueue.left_snoc,
      ih before, holds.taken_eq (holds.fits narrow permitted).present]
    rfl

/-- Two clocks share a queue through `async_fifo`, however their edges fall and whatever a flop
catches of a pointer that moves: the words that are read are those that were written, in order,
none lost and none twice; no more wait than there are lines; and the flags, late as they are, err
on the safe side. -/
theorem async_fifo_queue (narrow : aw ≤ 8) (obeys : (machine mem).Obeys Permitted moments) :
    let fifo := (machine mem).run moments
    (machine mem).log taken moments ++ waiting moments =
        moments.flatMap (fun moment => moment.wrData.toList) ∧
      (waiting moments).length ≤ 2 ^ aw ∧
      (fifo.full = false → (waiting moments).length < 2 ^ aw) ∧
      (fifo.empty = false → (waiting moments).head? = some fifo.rdData) := by
  intro fifo
  obtain ⟨progress, holds⟩ := run_holds narrow obeys
  refine ⟨?_, holds.length_le, holds.length_lt narrow, fun shown => ?_⟩
  · rw [log_taken narrow obeys, waiting, BoundedQueue.conservation, List.nil_append,
      List.flatMap_map]
    rfl
  · have inside := holds.length_pos narrow shown
    rw [holds.rdData_eq inside, List.head?_eq_getElem?, List.getElem?_eq_getElem inside]

/-- Two words that the reader sees late, and moments at which both clocks rise while a pointer
moves. -/
def meetings : List (Moment Nat 1) :=
  [⟨some ⟨true, 5⟩, none, 0, 0⟩, ⟨some ⟨true, 6⟩, some false, 0, 0b11⟩,
    ⟨none, some false, 0, 0⟩, ⟨some ⟨false, 0⟩, some true, 0b11, 0⟩,
    ⟨some ⟨false, 0⟩, some true, 0, 0⟩]

theorem async_fifo_queue_meetings :
    (machine fun _ : BitVec 1 => 0).Obeys Permitted meetings ∧
      (machine fun _ => 0).log taken meetings ++ waiting meetings = [5, 6] := by
  have obeys : (machine fun _ : BitVec 1 => 0).Obeys Permitted meetings := by decide +kernel
  refine ⟨obeys, (async_fifo_queue (by decide) obeys).1.trans ?_⟩
  rfl

/-- What has happened since, and how much of it the two sides have seen. -/
structure Since (start : Progress) (later : List (Moment α aw)) (progress : Progress) : Prop where
  written : progress.written = start.written + later.countP fun moment => moment.wrData.isSome
  read : progress.read = start.read + later.countP Moment.rdEn
  readAt0 : 1 ≤ later.countP (fun moment => moment.wr.isSome) → start.read ≤ progress.readAt0
  readAt1 : 2 ≤ later.countP (fun moment => moment.wr.isSome) → start.read ≤ progress.readAt1
  writtenAt0 : 1 ≤ later.countP (fun moment => moment.rd.isSome) →
    start.written ≤ progress.writtenAt0
  writtenAt1 : 2 ≤ later.countP (fun moment => moment.rd.isSome) →
    start.written ≤ progress.writtenAt1

theorem Since.step {start progress after : Progress} {later : List (Moment α aw)}
    {moment : Moment α aw} {depth : Nat} (since : Since start later progress)
    (ordered : progress.Ordered depth) (moves : Moves moment progress after) :
    Since start (later ++ [moment]) after := by
  have length : moment.wrData.toList.length = if moment.wrData.isSome then 1 else 0 := by
    cases moment.wrData <;> rfl
  have ⟨seen, shown, reading, caught, sent, room⟩ := ordered
  have written := since.written
  have read := since.read
  have readAt0 := since.readAt0
  have readAt1 := since.readAt1
  have writtenAt0 := since.writtenAt0
  have writtenAt1 := since.writtenAt1
  have movedRd := moves.readAt1
  have movedWr := moves.writtenAt1
  refine ⟨?_, ?_, ?_, ?_, ?_, ?_⟩ <;> rw [List.countP_append, List.countP_singleton]
  · rw [moves.written, written, length, Nat.add_assoc]
  · rw [moves.read, read, Nat.add_assoc]
    cases moment.rdEn <;> rfl
  · intro rises
    cases edge : moment.wr.isSome with
    | false =>
      rw [moves.readKept edge]
      exact readAt0 (by simpa [edge] using rises)
    | true =>
      have between := moves.readCaught edge
      omega
  · intro rises
    cases edge : moment.wr.isSome with
    | false =>
      rw [movedRd, edge, if_neg Bool.false_ne_true]
      exact readAt1 (by simpa [edge] using rises)
    | true =>
      rw [movedRd, edge, if_pos rfl]
      exact readAt0 (by simpa [edge] using rises)
  · intro rises
    cases edge : moment.rd.isSome with
    | false =>
      rw [moves.writtenKept edge]
      exact writtenAt0 (by simpa [edge] using rises)
    | true =>
      have between := moves.writtenCaught edge
      omega
  · intro rises
    cases edge : moment.rd.isSome with
    | false =>
      rw [movedWr, edge, if_neg Bool.false_ne_true]
      exact writtenAt1 (by simpa [edge] using rises)
    | true =>
      rw [movedWr, edge, if_pos rfl]
      exact writtenAt0 (by simpa [edge] using rises)

theorem run_since {past later : List (Moment α aw)} (narrow : aw ≤ 8)
    (obeys : (machine mem).Obeys Permitted (past ++ later)) :
    ∃ start progress, ((machine mem).run past).Holds (waiting past) start ∧
      ((machine mem).run (past ++ later)).Holds (waiting (past ++ later)) progress ∧
      Since start later progress := by
  induction later using List.reverseRecOn with
  | nil =>
    rw [List.append_nil] at obeys ⊢
    obtain ⟨start, holds⟩ := run_holds narrow obeys
    exact ⟨start, start, holds, holds, by constructor <;> simp⟩
  | append_singleton later moment ih =>
    rw [← List.append_assoc] at obeys ⊢
    obtain ⟨before, permitted⟩ := Synchronous.obeys_snoc.mp obeys
    obtain ⟨start, progress, begun, holds, since⟩ := ih before
    obtain ⟨after, next, moves⟩ := holds.step narrow permitted
    rw [Synchronous.run_snoc, waiting_snoc]
    exact ⟨start, after, begun, next, since.step holds.ordered moves⟩

/-- Neither flag stays late: after two edges of its clock the reader counts every word that was
there, less those it has taken since, and the writer every line that was free. -/
theorem async_fifo_settles (past later : List (Moment α aw)) (narrow : aw ≤ 8)
    (obeys : (machine mem).Obeys Permitted (past ++ later)) :
    let fifo := (machine mem).run (past ++ later)
    (2 ≤ later.countP (fun moment => moment.rd.isSome) →
        (waiting past).length ≤ fifo.rdCnt.toNat + later.countP Moment.rdEn) ∧
      (2 ≤ later.countP (fun moment => moment.wr.isSome) →
        fifo.wrCnt.toNat ≤
          (waiting past).length + later.countP fun moment => moment.wrData.isSome) := by
  intro fifo
  obtain ⟨start, progress, begun, holds, since⟩ := run_since narrow obeys
  have between := begun.shows.between
  have written := since.written
  have read := since.read
  constructor
  · intro rises
    have seen := since.writtenAt1 rises
    rw [rdCnt_eq narrow holds.shows holds.ordered]
    omega
  · intro rises
    have seen := since.readAt1 rises
    rw [wrCnt_eq narrow holds.shows holds.ordered]
    omega

theorem async_fifo_settles_meetings :
    (machine fun _ : BitVec 1 => 0).Obeys Permitted meetings ∧
      (waiting (meetings.take 2)).length ≤
        ((machine fun _ => 0).run meetings).rdCnt.toNat + 2 := by
  have obeys : (machine fun _ : BitVec 1 => 0).Obeys Permitted meetings := by decide +kernel
  exact ⟨obeys, (async_fifo_settles (meetings.take 2) (meetings.drop 2) (by decide)
    obeys).1 (by decide)⟩

end Runs

end AsyncFifo

end GreenRio
