import GreenRio.CsrFile
import Mathlib.Tactic.IntervalCases

set_option autoImplicit false

namespace GreenRio

namespace CsrRegfile

/-- The bits of `mstatus` that supervisor mode sees. -/
def sstatusMask : Word := 0x80000003000de762

/-- The interrupts of supervisor mode. -/
def supervisorInterrupts : Word := 0x222

/-- A register with the bits of a mask replaced. -/
def merge (mask old data : Word) : Word := (old &&& ~~~mask) ||| (data &&& mask)

theorem merge_getLsbD (mask old data : Word) {bit : Nat} (inside : bit < 64) :
    (merge mask old data).getLsbD bit =
      if mask.getLsbD bit then data.getLsbD bit else old.getLsbD bit := by
  simp only [merge, BitVec.getLsbD_or, BitVec.getLsbD_and, BitVec.getLsbD_not, inside,
    decide_true, Bool.true_and]
  cases mask.getLsbD bit <;> simp

/-- The fields that belong to machine mode. -/
structure MachineFields where
  statusMie : Bool
  statusMpie : Bool
  statusMpp : BitVec 2
  statusMprv : Bool
  statusTvm : Bool
  statusTw : Bool
  statusTsr : Bool
  mtie : Bool
  meie : Bool

def machineFields (csr : CsrRegfile) : MachineFields :=
  ⟨csr.statusMie, csr.statusMpie, csr.statusMpp, csr.statusMprv, csr.statusTvm, csr.statusTw,
    csr.statusTsr, csr.mtie, csr.meie⟩

variable (csr : CsrRegfile)

/-- The bits of `mstatus`. -/
def statusBit : Nat → Bool
  | 1 => csr.statusSie
  | 3 => csr.statusMie
  | 5 => csr.statusSpie
  | 7 => csr.statusMpie
  | 8 => csr.statusSpp
  | 11 => csr.statusMpp.getLsbD 0
  | 12 => csr.statusMpp.getLsbD 1
  | 17 => csr.statusMprv
  | 18 => csr.statusSum
  | 19 => csr.statusMxr
  | 20 => csr.statusTvm
  | 21 => csr.statusTw
  | 22 => csr.statusTsr
  | 33 | 35 => true
  | _ => false

theorem mstatus_getLsbD {bit : Nat} (inside : bit < 64) :
    csr.mstatus.getLsbD bit = csr.statusBit bit := by
  unfold mstatus
  simp only [BitVec.getLsbD_append, BitVec.getLsbD_ofBool, BitVec.getLsbD_zero]
  interval_cases bit <;> rfl

theorem sstatus_getLsbD {bit : Nat} (inside : bit < 64) :
    csr.sstatus.getLsbD bit = (csr.statusBit bit && sstatusMask.getLsbD bit) := by
  unfold sstatus
  simp only [BitVec.getLsbD_append, BitVec.getLsbD_ofBool, BitVec.getLsbD_zero]
  -- What the mask leaves out is closed on both sides.
  interval_cases bit
  all_goals first
    | rfl
    | exact (Bool.and_true _).symm
    | exact (Bool.and_false _).symm

/-- `sstatus` shows what the mask leaves of `mstatus`. -/
theorem sstatus_eq : csr.sstatus = csr.mstatus &&& sstatusMask := by
  apply BitVec.eq_of_getLsbD_eq
  intro bit inside
  rw [sstatus_getLsbD csr inside, BitVec.getLsbD_and, mstatus_getLsbD csr inside]

theorem interruptWord_restricted (machineExt supervisorExt machineTimer supervisorTimer
    supervisorSoft : Bool) :
    interruptWord machineExt supervisorExt machineTimer supervisorTimer supervisorSoft &&&
        supervisorInterrupts =
      interruptWord false supervisorExt false supervisorTimer supervisorSoft := by
  revert machineExt supervisorExt machineTimer supervisorTimer supervisorSoft
  decide

theorem sie_eq : csr.sie = csr.mie &&& supervisorInterrupts :=
  (interruptWord_restricted _ _ _ _ _).symm

theorem sip_eq : csr.sip ||| csr.sipEx = (csr.mip ||| csr.mipEx) &&& supervisorInterrupts := by
  have hardware : csr.sip = csr.mip &&& supervisorInterrupts :=
    (interruptWord_restricted _ _ _ _ _).symm
  have software : csr.sipEx = csr.mipEx &&& supervisorInterrupts :=
    (interruptWord_restricted _ _ _ _ _).symm
  rw [hardware, software]
  exact BitVec.eq_of_getLsbD_eq fun bit _ => by
    simp only [BitVec.getLsbD_or, BitVec.getLsbD_and, Bool.and_or_distrib_right]

theorem mie_getLsbD_seven : csr.mie.getLsbD 7 = csr.mtie := by
  unfold mie interruptWord
  simp only [BitVec.getLsbD_append, BitVec.getLsbD_ofBool, BitVec.getLsbD_zero]
  rfl

theorem mie_getLsbD_eleven : csr.mie.getLsbD 11 = csr.meie := by
  unfold mie interruptWord
  simp only [BitVec.getLsbD_append, BitVec.getLsbD_ofBool, BitVec.getLsbD_zero]
  rfl

/-- A write of `sstatus` is one of `mstatus` that keeps what supervisor mode does not see. -/
theorem write_sstatus (data : Word) :
    csr.write 0x100 data = csr.write 0x300 (merge sstatusMask csr.mstatus data) := by
  have kept : ∀ bit < 64, sstatusMask.getLsbD bit = false →
      (merge sstatusMask csr.mstatus data).getLsbD bit = csr.statusBit bit := by
    intro bit inside hidden
    rw [merge_getLsbD _ _ _ inside, hidden, mstatus_getLsbD csr inside]
    rfl
  have taken : ∀ bit < 64, sstatusMask.getLsbD bit = true →
      (merge sstatusMask csr.mstatus data).getLsbD bit = data.getLsbD bit := by
    intro bit inside seen
    rw [merge_getLsbD _ _ _ inside, seen]
    rfl
  have mpp : (merge sstatusMask csr.mstatus data).extractLsb' 11 2 = csr.statusMpp := by
    apply BitVec.eq_of_getLsbD_eq
    intro bit inside
    rw [BitVec.getLsbD_extractLsb']
    obtain rfl | rfl : bit = 0 ∨ bit = 1 := by omega
    · exact kept 11 (by decide) (by decide)
    · exact kept 12 (by decide) (by decide)
  generalize merge sstatusMask csr.mstatus data = word at kept taken mpp
  have machine : csr.write 0x300 word =
      { csr with
        statusSie := word.getLsbD 1
        statusMie := word.getLsbD 3
        statusSpie := word.getLsbD 5
        statusMpie := word.getLsbD 7
        statusSpp := word.getLsbD 8
        statusMpp := word.extractLsb' 11 2
        statusMprv := word.getLsbD 17
        statusSum := word.getLsbD 18
        statusMxr := word.getLsbD 19
        statusTvm := word.getLsbD 20
        statusTw := word.getLsbD 21
        statusTsr := word.getLsbD 22 } := rfl
  rw [machine, mpp, taken 1 (by decide) (by decide), kept 3 (by decide) (by decide),
    taken 5 (by decide) (by decide), kept 7 (by decide) (by decide),
    taken 8 (by decide) (by decide), kept 17 (by decide) (by decide),
    taken 18 (by decide) (by decide), taken 19 (by decide) (by decide),
    kept 20 (by decide) (by decide), kept 21 (by decide) (by decide),
    kept 22 (by decide) (by decide)]
  rfl

/-- The same for `sie` and `mie`. -/
theorem write_sie (data : Word) :
    csr.write 0x104 data = csr.write 0x304 (merge supervisorInterrupts csr.mie data) := by
  have taken : ∀ bit < 64, supervisorInterrupts.getLsbD bit = true →
      (merge supervisorInterrupts csr.mie data).getLsbD bit = data.getLsbD bit := by
    intro bit inside seen
    rw [merge_getLsbD _ _ _ inside, seen]
    rfl
  have timer : (merge supervisorInterrupts csr.mie data).getLsbD 7 = csr.mtie :=
    (merge_getLsbD _ _ _ (by decide)).trans csr.mie_getLsbD_seven
  have external : (merge supervisorInterrupts csr.mie data).getLsbD 11 = csr.meie :=
    (merge_getLsbD _ _ _ (by decide)).trans csr.mie_getLsbD_eleven
  generalize merge supervisorInterrupts csr.mie data = word at taken timer external
  have machine : csr.write 0x304 word =
      { csr with
        ssie := word.getLsbD 1
        stie := word.getLsbD 5
        mtie := word.getLsbD 7
        seie := word.getLsbD 9
        meie := word.getLsbD 11 } := rfl
  rw [machine, timer, external, taken 1 (by decide) (by decide), taken 5 (by decide) (by decide),
    taken 9 (by decide) (by decide)]
  rfl

/-- No write through an address of supervisor mode reaches a field of machine mode. -/
theorem write_machineFields {address : BitVec 12} (supervisor : address.extractLsb' 8 2 = 1)
    (data : Word) : (csr.write address data).machineFields = csr.machineFields := by
  unfold write
  split
  all_goals first
    | rfl
    | exact absurd supervisor (by decide)

/-- Two writes with one effect make for one cycle. -/
theorem step_write_eq {input : CsrInput} {address other : BitVec 12} {data word : Word}
    (same : csr.write address data = csr.write other word) :
    csr.step { input with csrAddrW := address, csrDataW := data } =
      csr.step { input with csrAddrW := other, csrDataW := word } := by
  have written : csr.written { input with csrAddrW := address, csrDataW := data } =
      csr.written { input with csrAddrW := other, csrDataW := word } := by
    unfold written
    rw [same]
  unfold step
  rw [written]
  rfl

/-- The supervisor registers are restricted views of those of machine mode: for reads in every
state, and for the whole effect of a cycle that writes one. -/
theorem supervisor_views (file : CsrFile) (input : CsrInput) (data : Word) :
    ((file.answer 0x100).opData = (file.answer 0x300).opData &&& sstatusMask ∧
      (file.answer 0x104).opData = (file.answer 0x304).opData &&& supervisorInterrupts ∧
      (file.answer 0x144).opData = (file.answer 0x344).opData &&& supervisorInterrupts) ∧
    (file.regs.step { input with csrAddrW := 0x100, csrDataW := data } =
        file.regs.step { input with
          csrAddrW := 0x300
          csrDataW := merge sstatusMask (file.answer 0x300).opData data } ∧
      file.regs.step { input with csrAddrW := 0x104, csrDataW := data } =
        file.regs.step { input with
          csrAddrW := 0x304
          csrDataW := merge supervisorInterrupts (file.answer 0x304).opData data }) ∧
    ∀ address : BitVec 12, address.extractLsb' 8 2 = 1 →
      (file.regs.write address data).machineFields = file.regs.machineFields := by
  refine ⟨⟨file.regs.sstatus_eq, file.regs.sie_eq, file.regs.sip_eq⟩, ⟨?_, ?_⟩,
    fun address supervisor => file.regs.write_machineFields supervisor data⟩
  · exact file.regs.step_write_eq (file.regs.write_sstatus data)
  · exact file.regs.step_write_eq (file.regs.write_sie data)

end CsrRegfile

end GreenRio
