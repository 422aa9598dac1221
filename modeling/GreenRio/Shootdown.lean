import GreenRio.FenceOrder
import GreenRio.TlbUnit

set_option autoImplicit false

namespace GreenRio

/-- The operands of an `SFENCE.VMA`; one that is absent is register `x0`. -/
structure SfenceOperands where
  vaddr : Option Word
  asid : Option Word

/-- The fence with these operands is on the ports of the unit. -/
structure SfenceOperands.OnPorts (operands : SfenceOperands) (request : LsuRequest) : Prop where
  fence : request.isSfenceVma = true
  vaddr : request.virtBase = operands.vaddr.getD 0
  asid : request.virtOffset = operands.asid.getD 0

namespace SfenceOperands

variable {operands : SfenceOperands} {request : LsuRequest}

/-- The page number on its way: the low 27 bits of the address are shifted down by 12, and then the
tag is taken from bit 12 on. -/
theorem OnPorts.vtag (ports : operands.OnPorts request) :
    request.vtag = ((operands.vaddr.getD 0).extractLsb' 24 3).setWidth 27 := by
  rw [LsuRequest.vtag, LsuRequest.vaddr, if_pos ports.fence, ports.vaddr]
  apply BitVec.eq_of_getLsbD_eq
  intro bit inside
  simp only [BitVec.getLsbD_extractLsb', BitVec.getLsbD_setWidth, BitVec.getLsbD_ushiftRight]
  by_cases low : bit < 3
  · have place : 12 + (12 + bit) = 24 + bit := by omega
    simp [place, low, inside, show 12 + bit < 39 by omega, show 24 + bit < 27 by omega]
  · simp [low, show ¬12 + (12 + bit) < 27 by omega]

end SfenceOperands

namespace TlbUnit

variable {n : Nat} {kind : TlbKind n} {fifo : MultiPortStreamFIFO MissReq}

end TlbUnit

/-- What the TLBs receive for a tag and an address space. -/
def TlbFlush.carrying (tag : BitVec 44) (asid : BitVec 16) : TlbFlush :=
  ⟨true, asid != 0, tag != 0, tag.setWidth 27, asid⟩

namespace SfenceOperands

variable {operands : SfenceOperands} {satpMode : BitVec 4} {tag : BitVec 44} {asid : BitVec 16}

end SfenceOperands

/-- Entry `i` holds an `SFENCE.VMA`. -/
def Lsq.Fences (lsq : Lsq) (i : LsqIndex) : Prop :=
  (lsq.entries i).vld = true ∧ (lsq.entries i).ls = true ∧ (lsq.entries i).opcode = Stu.sfenceVma

/-- The register of the address space belongs to the one `SFENCE.VMA` in the queue. -/
structure Lsq.Owned (lsq : Lsq) : Prop where
  only : ∀ i j, lsq.Fences i → lsq.Fences j → i = j
  taken : ∀ i, lsq.Fences i → lsq.sfenceVmaAsidVldQ = true

namespace Memory

/-- A request enters the queue at entry `i`. -/
def EntersAt (i : LsqIndex) (request : LsuRequest) (memory : Memory) (input : MemoryInput) : Prop :=
  input.flush = false ∧ memory.lsq.enque (memory.lsqInput input) = true ∧ memory.lsq.tail = i ∧
    input.request = request

section Fence

variable {memory : Memory} {input : MemoryInput} {counter : Counter2} {i : LsqIndex}
  {request : LsuRequest} {inputs : List MemoryInput}

theorem lsq_step (counter : Counter2) (memory : Memory) (input : MemoryInput) :
    (memory.step counter input).lsq = memory.lsq.step counter (memory.lsqInput input) := rfl

/-- An entry holds the operation and the tag of the request that enters it. -/
theorem step_entered (enters : memory.EntersAt i request input) :
    ((memory.step counter input).lsq.Fences i ↔ request.isSfenceVma = true) ∧
      ((memory.step counter input).lsq.entries i).tag = request.vtag.setWidth 44 := by
  obtain ⟨running, enque, rfl, rfl⟩ := enters
  have init : (memory.lsq.entryPorts (memory.lsqInput input) memory.lsq.tail).init = true := by
    simp [Lsq.entryPorts, enque]
  have quiet : (memory.lsqInput input).flush = false := running
  rw [lsq_step, Lsq.Fences, Lsq.step_entries quiet, LsqEntry.step_init init]
  refine ⟨?_, rfl⟩
  change true = true ∧ input.request.ls = true ∧ input.request.opcode = Stu.sfenceVma ↔ _
  simp only [LsuRequest.isSfenceVma, LsuRequest.opcode, true_and, Bool.and_eq_true, beq_iff_eq]
  constructor
  · rintro ⟨store, code⟩
    rw [if_pos store] at code
    exact ⟨store, code⟩
  · rintro ⟨store, code⟩
    exact ⟨store, by rwa [if_pos store]⟩

end Fence

end Memory

/-- An `SFENCE.VMA` on the ports of the unit. -/
def sfenceVma (vaddr asid : Word) : LsuRequest :=
  ⟨true, 0, Stu.sfenceVma, true, vaddr, asid, 0, 0, 0⟩

end GreenRio
