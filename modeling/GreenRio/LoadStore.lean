import GreenRio.Instruction

set_option autoImplicit false

namespace GreenRio

abbrev VirtualAddress := BitVec 39
abbrev PhysicalAddress := BitVec 56
abbrev LsOpcode := BitVec 5
abbrev LsqIndex := Fin 8

-- `STU_*`: the opcodes of store-class requests.
namespace Stu

def sb : LsOpcode := 0
def sh : LsOpcode := 1
def sw : LsOpcode := 2
def sd : LsOpcode := 3
def fence : LsOpcode := 4
def sfenceVma : LsOpcode := 5
def fenceI : LsOpcode := 6

/-- `SC`, `LR` and the atomic operations on words and on double words, which alternate. -/
def scw : LsOpcode := 7
def scd : LsOpcode := 8
def lrw : LsOpcode := 9
def lrd : LsOpcode := 10

def amoWord : List LsOpcode := [11, 13, 15, 17, 19, 21, 23, 25, 27]

def amoDouble : List LsOpcode := [12, 14, 16, 18, 20, 22, 24, 26, 28]

end Stu

-- `LDU_*`: the opcodes of loads.
namespace Ldu

def lb : LsOpcode := 0
def lh : LsOpcode := 1
def lw : LsOpcode := 2
def ld : LsOpcode := 3
def lbu : LsOpcode := 4
def lhu : LsOpcode := 5
def lwu : LsOpcode := 6

end Ldu

/-- What the `rcu` presents to the load and store unit. -/
structure LsuRequest where
  ls : Bool
  ldOpcode : BitVec 4
  stOpcode : BitVec 5
  fenced : Bool
  virtBase : Word
  virtOffset : Word
  robIndex : RobIndex
  rdAddr : PhyReg
  data : Word
  deriving DecidableEq

namespace LsuRequest

variable (request : LsuRequest)

/-- `rcu_opcode`. -/
def opcode : LsOpcode := if request.ls then request.stOpcode else request.ldOpcode.setWidth 5

def isSfenceVma : Bool := request.ls && request.stOpcode == Stu.sfenceVma

/-- `bypass_req_is_fence_req`. -/
def isFenceReq : Bool :=
  request.ls && (request.opcode == Stu.fence || request.opcode == Stu.sfenceVma ||
    request.opcode == Stu.fenceI)

/-- `lsu_agu`. -/
def aguAddr : VirtualAddress := request.virtBase.setWidth 39 + request.virtOffset.setWidth 39

/-- `lsq_vaddr`: an `SFENCE.VMA` carries a page number instead of an address. -/
def vaddr : VirtualAddress :=
  if request.isSfenceVma then (request.virtBase.setWidth 27 >>> 12).setWidth 39 else request.aguAddr

/-- `rcu_lsq_sfence_vma_asid`. -/
def asid : BitVec 16 := if request.isSfenceVma then request.virtOffset.setWidth 16 else 0

def vtag : BitVec 27 := request.vaddr.extractLsb' 12 27

def index : BitVec 6 := request.vaddr.extractLsb' 6 6

def offset : BitVec 6 := request.vaddr.extractLsb' 0 6

/-- `ac_misalign_fault` of `lsu_mc`. -/
def misaligned : Bool :=
  let half := request.aguAddr.extractLsb' 0 1 != 0
  let word := request.aguAddr.extractLsb' 0 2 != 0
  let double := request.aguAddr.extractLsb' 0 3 != 0
  if request.ls then
    (request.opcode == Stu.sh && half) ||
      ((Stu.sw :: Stu.scw :: Stu.lrw :: Stu.amoWord).contains request.opcode && word) ||
      ((Stu.sd :: Stu.scd :: Stu.lrd :: Stu.amoDouble).contains request.opcode && double)
  else
    ((request.opcode == Ldu.lh || request.opcode == Ldu.lhu) && half) ||
      ((request.opcode == Ldu.lw || request.opcode == Ldu.lwu) && word) ||
      (request.opcode == Ldu.ld && double)

/-- `ac_ecause_o`: a misaligned store or load. -/
def misalignedCause : BitVec 5 :=
  if request.misaligned then (if request.ls then 6 else 4) else 0

end LsuRequest

/-- The registers of `lsu_lsq_entry`. -/
structure LsqEntry where
  vld : Bool
  ls : Bool
  opcode : LsOpcode
  fenced : Bool
  tag : BitVec 44
  index : BitVec 6
  offset : BitVec 6
  robIndex : RobIndex
  virt : Bool
  awake : Bool
  exec : Bool
  succ : Bool
  rdAddr : PhyReg
  data : Word
  exceptionVld : Bool
  ecause : BitVec 5
  deriving DecidableEq

namespace LsqEntry

def clear : LsqEntry where
  vld := false
  ls := false
  opcode := 0
  fenced := false
  tag := 0
  index := 0
  offset := 0
  robIndex := 0
  virt := false
  awake := false
  exec := false
  succ := false
  rdAddr := 0
  data := 0
  exceptionVld := false
  ecause := 0

variable (entry : LsqEntry)

/-- `lsq_entry_is_fence_req_vec`. -/
def isFenceReq : Bool :=
  entry.ls && (entry.opcode == Stu.fence || entry.opcode == Stu.sfenceVma ||
    entry.opcode == Stu.fenceI)

/-- `lsq_entry_no_prf_wb_vec`: requests that do not answer with a register. -/
def noPrfWb : Bool :=
  entry.vld && entry.ls &&
    (entry.opcode == Stu.sb || entry.opcode == Stu.sh || entry.opcode == Stu.sw ||
      entry.opcode == Stu.sd || entry.opcode == Stu.fence || entry.opcode == Stu.sfenceVma ||
      entry.opcode == Stu.fenceI)

/-- The address the entry holds, translated or not. -/
def address : PhysicalAddress := entry.tag ++ (entry.index ++ entry.offset)

/-- The fences that are not sent to the data cache. -/
def isFlush : Bool := entry.isFenceReq && entry.opcode != Stu.fence

end LsqEntry

/-- What one entry of the queue receives in a cycle. -/
structure LsqEntryPorts where
  init : Bool
  invld : Bool
  request : LsuRequest
  exceptionVld : Bool
  ecause : BitVec 5
  dtlbVld : Bool
  dtlbVirt : Bool
  dtlbTag : BitVec 44
  dtlbExceptionVld : Bool
  dtlbEcause : BitVec 5
  awake : Bool
  exec : Bool
  replay : Bool
  succ : Bool

/-- One clock edge of an entry outside reset and flush. -/
def LsqEntry.step (entry : LsqEntry) (ports : LsqEntryPorts) : LsqEntry where
  vld := if ports.init || ports.invld then ports.init || !ports.invld else entry.vld
  ls := if ports.init then ports.request.ls else entry.ls
  opcode := if ports.init then ports.request.opcode else entry.opcode
  fenced := if ports.init then ports.request.fenced else entry.fenced
  tag :=
    if ports.dtlbVld || ports.init then
      if ports.init then ports.request.vtag.setWidth 44 else ports.dtlbTag
    else entry.tag
  index := if ports.init then ports.request.index else entry.index
  offset := if ports.init then ports.request.offset else entry.offset
  robIndex := if ports.init then ports.request.robIndex else entry.robIndex
  virt :=
    if ports.dtlbVld || ports.init then (if ports.init then true else ports.dtlbVirt)
    else entry.virt
  awake := if ports.awake || ports.init then ports.awake else entry.awake
  exec :=
    if ports.exec || ports.init || ports.replay then !ports.replay && ports.exec else entry.exec
  succ := if ports.succ || ports.init then (if ports.init then false else ports.succ) else entry.succ
  rdAddr := if ports.init then ports.request.rdAddr else entry.rdAddr
  data := if ports.init then ports.request.data else entry.data
  exceptionVld :=
    if ports.init || (ports.dtlbVld && ports.dtlbExceptionVld) then
      if ports.init then ports.exceptionVld else ports.dtlbExceptionVld
    else entry.exceptionVld
  ecause :=
    if ports.init || (ports.dtlbVld && ports.dtlbExceptionVld) then
      if ports.init then ports.ecause else ports.dtlbEcause
    else entry.ecause

end GreenRio
