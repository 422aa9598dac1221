import GreenRio.Arbiter
import GreenRio.Tlb
import Mathlib.Data.Nat.Find

set_option autoImplicit false

namespace GreenRio

open Oldest2Abitter (lowest getLsbD_lowest)

/-- The lowest bit of a vector that is not zero is one bit. -/
theorem exists_lowest {n : Nat} {x : BitVec n} (some : x ≠ 0) :
    ∃ position < n, x.getLsbD position = true ∧
      ∀ other, (lowest x).getLsbD other = true ↔ other = position := by
  have found : ∃ position, x.getLsbD position = true := by
    by_contra none
    apply some
    apply BitVec.eq_of_getLsbD_eq
    intro position inside
    have clear : x.getLsbD position = false := by
      rw [← Bool.not_eq_true]
      exact fun set => none ⟨position, set⟩
    exact clear.trans BitVec.getLsbD_zero.symm
  have first := Nat.find_spec found
  have before := fun earlier => Nat.find_min found (m := earlier)
  refine ⟨Nat.find found, BitVec.lt_of_getLsbD first, first, fun other => ?_⟩
  rw [getLsbD_lowest]
  constructor
  · intro set
    simp only [Bool.and_eq_true, Bool.not_eq_true', decide_eq_false_iff_not, not_exists,
      not_and] at set
    have reached : Nat.find found ≤ other := Nat.find_min' found set.1
    by_contra differ
    exact set.2 (Nat.find found) (by omega) first
  · rintro rfl
    rw [first, Bool.true_and, Bool.not_eq_true', decide_eq_false_iff_not]
    rintro ⟨earlier, less, set⟩
    exact before earlier less set

/-- A miss as the grant buffer keeps it. -/
structure MissReq where
  accessType : BitVec 2
  vpn : Vpn
  asid : BitVec 16
  deriving DecidableEq

/-- `MultiPortStreamFIFO` of depth 2 with one port on each side, a cell that is not part of the
sources. What it does with a word that arrives when it is full is left open, and so is the word it
shows when it is empty. -/
structure MultiPortStreamFIFO (α : Type) where
  takes : (content : List α) → (deqRdy : Bool) → Bool
  room : ∀ content deqRdy, content.length < 2 → takes content deqRdy = true
  idle : α

namespace MultiPortStreamFIFO

variable {α : Type} (fifo : MultiPortStreamFIFO α) (content : List α)

def deqVld : Bool := !content.isEmpty

def deqPayload : α := content.headD fifo.idle

def step (enqVld : Bool) (enqPayload : α) (deqRdy : Bool) : List α :=
  (if deqRdy then content.tail else content) ++
    if enqVld && fifo.takes content deqRdy then [enqPayload] else []

variable {fifo content}

theorem deqPayload_mem (vld : deqVld content = true) : fifo.deqPayload content ∈ content := by
  cases content with
  | nil => cases vld
  | cons word rest => simp [deqPayload]

/-- A word in the queue was there before, or it has just been written. -/
theorem mem_step {enqVld deqRdy : Bool} {enqPayload word : α}
    (member : word ∈ fifo.step content enqVld enqPayload deqRdy) :
    word ∈ content ∨ (enqVld = true ∧ word = enqPayload) := by
  rcases List.mem_append.mp member with old | new
  · split at old
    · exact .inl (List.mem_of_mem_tail old)
    · exact .inl old
  · split at new
    · next write =>
      simp only [Bool.and_eq_true] at write
      exact .inr ⟨write.1, List.mem_singleton.mp new⟩
    · cases new

end MultiPortStreamFIFO

/-- A buffer that takes what it has room for. -/
def MultiPortStreamFIFO.standard : MultiPortStreamFIFO MissReq where
  takes content _ := decide (content.length < 2)
  room _ _ short := decide_eq_true short
  idle := ⟨0, 0, 0⟩

/-- `OH2UInt`, a cell that is not part of the sources: the index of a one-hot mask. -/
structure OH2UInt (n : Nat) where
  result : BitVec n → BitVec 3
  index : ∀ (mask : BitVec n) (position : Nat), position < n →
    (∀ other, mask.getLsbD other = true ↔ other = position) → result mask = BitVec.ofNat 3 position

/-- The position of the highest bit. -/
def OH2UInt.standard (n : Nat) : OH2UInt n where
  result mask := BitVec.ofNat 3 mask.toNat.log2
  index mask position inside only := by
    have same : mask = BitVec.twoPow n position := by
      apply BitVec.eq_of_getLsbD_eq
      intro other _
      rw [Bool.eq_iff_iff, only other, BitVec.getLsbD_twoPow]
      simp [inside, eq_comm]
    rw [same, BitVec.toNat_twoPow_of_lt inside, Nat.log2_two_pow]

/-- The registers of `rvh_mmu_mshr` with `n` entries, and the content of its grant buffer. -/
structure Mshr (n : Nat) where
  entryVld : BitVec n
  entryVpn : Fin n → Vpn
  grantBuffer : List MissReq

structure MshrInput where
  missReqVld : Bool
  missReq : MissReq
  grantRdy : Bool
  responseVld : Bool
  responseTransId : BitVec 3

namespace Mshr

/-- `MSHR_ENTRY_ID_WIDTH`: `$clog2`, and 1 for a single entry. -/
def entryIdWidth (n : Nat) : Nat := (n - 1).log2 + 1

section Signals

variable {n : Nat} (fifo : MultiPortStreamFIFO MissReq) (mshr : Mshr n) (input : MshrInput)

def grantVld : Bool := MultiPortStreamFIFO.deqVld mshr.grantBuffer

def grantReq : MissReq := fifo.deqPayload mshr.grantBuffer

/-- `tlb_miss_requset_waived`. -/
def requestWaived : Bool :=
  (List.finRange n).any fun i =>
    mshr.entryVld.getLsbD i && mshr.entryVpn i == (mshr.grantReq fifo).vpn

def rdy : Bool := ~~~mshr.entryVld != 0

/-- `tlb_miss_req_grant_vld_o`. -/
def reqGrantVld : Bool := mshr.grantVld && mshr.rdy && !mshr.requestWaived fifo

def allocMask : BitVec n := lowest (~~~mshr.entryVld)

def grantFire : Bool := mshr.reqGrantVld fifo && input.grantRdy

/-- `'1 << trans_id`: the entry that is answered and every entry above it. -/
def deallocMask : BitVec n :=
  BitVec.allOnes n <<< (input.responseTransId.setWidth (entryIdWidth n)).toNat

def existInflightReq : Bool := input.missReqVld || mshr.entryVld != 0 || mshr.grantVld

def entryVldNext : BitVec n :=
  (~~~mshr.entryVld &&& (if mshr.grantFire fifo input then mshr.allocMask else 0)) |||
    (mshr.entryVld &&& ~~~(if input.responseVld then deallocMask input else 0))

/-- The enable of the page numbers is one bit wide, and so it reaches entry 0 only. -/
def payloadClkEn (i : Fin n) : Bool :=
  i.val == 0 && (mshr.grantFire fifo input || input.responseVld)

def entryVpnNext (i : Fin n) : Vpn :=
  if mshr.payloadClkEn fifo input i then
    if (mshr.entryVldNext fifo input).getLsbD i then
      if mshr.allocMask.getLsbD i then (mshr.grantReq fifo).vpn else mshr.entryVpn i
    else 0
  else mshr.entryVpn i

/-- The valid bits are written under an enable that changes nothing when it is low. -/
def step : Mshr n where
  entryVld := mshr.entryVldNext fifo input
  entryVpn := mshr.entryVpnNext fifo input
  grantBuffer :=
    fifo.step mshr.grantBuffer (input.missReqVld && !input.responseVld) input.missReq
      (mshr.grantFire fifo input || mshr.requestWaived fifo)

variable (encoder : OH2UInt n)

/-- What the walker is asked. -/
def grantTransId : BitVec 3 := encoder.result mshr.allocMask

end Signals

section Entries

variable {n : Nat} {fifo : MultiPortStreamFIFO MissReq} {mshr : Mshr n} {input : MshrInput}

/-- A request is granted to a free entry, whose index is its transaction id. -/
theorem exists_alloc (rdy : mshr.rdy = true) :
    ∃ slot < n, mshr.entryVld.getLsbD slot = false ∧
      (∀ other, mshr.allocMask.getLsbD other = true ↔ other = slot) ∧
      ∀ encoder : OH2UInt n, mshr.grantTransId encoder = BitVec.ofNat 3 slot := by
  obtain ⟨slot, inside, free, only⟩ := exists_lowest (bne_iff_ne.mp rdy)
  refine ⟨slot, inside, ?_, only, fun encoder => encoder.index _ slot inside only⟩
  simpa [inside] using free

/-- The ids fit their field. -/
theorem transId_toNat {transId : BitVec 3} (bound : transId.toNat < n) :
    (transId.setWidth (entryIdWidth n)).toNat = transId.toNat := by
  have fits : n - 1 < 2 ^ entryIdWidth n := Nat.lt_log2_self
  rw [BitVec.toNat_setWidth, Nat.mod_eq_of_lt (by omega)]

theorem getLsbD_deallocMask {i : Nat} (inside : i < n)
    (bound : input.responseTransId.toNat < n) :
    (deallocMask input : BitVec n).getLsbD i = decide (input.responseTransId.toNat ≤ i) := by
  rw [deallocMask, transId_toNat bound, BitVec.getLsbD_shiftLeft, BitVec.getLsbD_allOnes]
  by_cases above : input.responseTransId.toNat ≤ i
  · simp [inside, above, show ¬i < input.responseTransId.toNat by omega,
      show i - input.responseTransId.toNat < n by omega]
  · simp [above, show i < input.responseTransId.toNat by omega]

/-- An entry is valid after a cycle in which it was allocated, or if it was valid and neither it nor
an entry below it was answered. -/
theorem getLsbD_entryVldNext {i : Nat} (inside : i < n)
    (bound : input.responseVld = true → input.responseTransId.toNat < n) :
    (mshr.entryVldNext fifo input).getLsbD i =
      ((!mshr.entryVld.getLsbD i && mshr.grantFire fifo input && mshr.allocMask.getLsbD i) ||
        (mshr.entryVld.getLsbD i &&
          !(input.responseVld && decide (input.responseTransId.toNat ≤ i)))) := by
  have free : (if input.responseVld then deallocMask input else (0 : BitVec n)).getLsbD i =
      (input.responseVld && decide (input.responseTransId.toNat ≤ i)) := by
    cases answered : input.responseVld with
    | false => simp
    | true => simp [getLsbD_deallocMask inside (bound answered)]
  have taken : (if mshr.grantFire fifo input then mshr.allocMask else 0).getLsbD i =
      (mshr.grantFire fifo input && mshr.allocMask.getLsbD i) := by
    cases mshr.grantFire fifo input <;> simp
  rw [entryVldNext, BitVec.getLsbD_or, BitVec.getLsbD_and, BitVec.getLsbD_and, BitVec.getLsbD_not,
    BitVec.getLsbD_not, free, taken]
  simp [inside, Bool.and_assoc]

end Entries

end Mshr

end GreenRio
