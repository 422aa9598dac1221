import GreenRio.Lsq

set_option autoImplicit false

namespace GreenRio

/-- What the data cache drives. Its two writeback ports are those of its load and store pipes. -/
structure DcacheWires where
  ldReqRdy : Bool
  stReqRdy : Bool
  ldReplayVld : Bool
  wbLoad : WbPort
  wbStore : WbPort
  prfWbVld : Bool
  prfWbRdAddr : PhyReg
  prfWbData : Word

/-- A request to the bus controller. -/
structure BusRequest where
  loadOrStore : Bool
  isFence : Bool
  robIndex : RobIndex
  rdAddr : PhyReg
  opcode : LsOpcode
  paddr : PhysicalAddress

/-- The registers of `lsu_bus_ctrl`. -/
structure BusCtrl where
  vld : Bool
  request : BusRequest
  ack : BitVec 2
  data : Word

namespace BusCtrl

def reset : BusCtrl := ⟨false, ⟨false, false, 0, 0, 0, 0⟩, 0, 0⟩

section Signals

variable (bus : BusCtrl)

/-- `bus_ctrl_req_size`; loads and stores share the opcode space here. -/
def size : Nat :=
  let opcode := bus.request.opcode
  if [Ldu.lb, Ldu.lbu, Stu.sb].contains opcode then 0
  else if [Ldu.lh, Ldu.lhu, Stu.sh].contains opcode then 1
  else if (Ldu.lw :: Stu.lrw :: Stu.sw :: Stu.scw :: Ldu.lwu :: Stu.amoWord).contains opcode then 2
  else if (Ldu.ld :: Stu.lrd :: Stu.sd :: Stu.scd :: Stu.amoDouble).contains opcode then 3
  else 0

/-- `bus_ctrl_req_unsigned`. -/
def unsigned : Bool :=
  [Ldu.lbu, Ldu.lhu, Ldu.lwu, Stu.lrd, 23, 24, 27, 28].contains bus.request.opcode

def done : Bool := if bus.size = 3 then bus.ack == 2 else bus.ack == 1

def wbVld : Bool := bus.done && bus.vld

def prfWbVld : Bool := bus.wbVld && !bus.request.loadOrStore

def prfWbData : Word :=
  if bus.unsigned || bus.size == 3 then bus.data
  else if bus.size = 0 then (bus.data.setWidth 8).signExtend 64
  else if bus.size = 1 then (bus.data.setWidth 16).signExtend 64
  else (bus.data.setWidth 32).signExtend 64

/-- `bus_ctrl_wb_cyc_o`. -/
def cyc (ack : Bool) : Bool := bus.vld && !bus.done && !ack

def adr : PhysicalAddress :=
  if bus.size == 3 && bus.ack == 1 then bus.request.paddr + 4 else bus.request.paddr

def dat : BitVec 32 :=
  if bus.size == 3 && bus.ack == 1 then bus.data.extractLsb' 32 32 else bus.data.setWidth 32

def sel : BitVec 4 := if bus.size = 0 then 0b0001 else if bus.size = 1 then 0b0011 else 0b1111

/-- `bus_ctrl_lsq_rdy_o`, given that the result is taken in this cycle or not. -/
def rdy (wbHsk : Bool) : Bool := !bus.vld || (bus.vld && wbHsk)

end Signals

/-- One clock edge outside reset. -/
def step (bus : BusCtrl) (flush reqVld : Bool) (request : BusRequest) (reqData : Word)
    (wbRdy ack : Bool) (wbDat : BitVec 32) : BusCtrl :=
  let wbHsk := bus.wbVld && wbRdy
  let initEn := reqVld && (!bus.vld || (bus.vld && wbHsk))
  if flush then reset else
    { vld := if initEn || (wbHsk && bus.vld) then initEn else bus.vld
      request := if initEn then request else bus.request
      ack := if initEn || ack then (if initEn then 0 else bus.ack + 1) else bus.ack
      data :=
        if initEn || (ack && !bus.request.loadOrStore) then
          if initEn then reqData
          else if bus.ack == 0 then bus.data.extractLsb' 32 32 ++ wbDat
          else wbDat ++ bus.data.setWidth 32
        else bus.data }

end BusCtrl

/-- The registers of `lsuv1`: the queue, the classification of accesses, the bus controller and
the delayed kill. -/
structure Lsu where
  lsq : Lsq
  pmaStVldQ : Bool
  pmaStIsIoQ : Bool
  pmaLdVldQ : Bool
  bus : BusCtrl
  l1dKillReqQ : Bool

/-- One cycle of what surrounds the unit. -/
structure LsuInput where
  flush : Bool
  vld : Bool
  request : LsuRequest
  wakeup : Bool
  wakeupRobIndex : RobIndex
  dtlb : DtlbAnswer
  dcache : DcacheWires
  grants : FlushGrants
  wbAck : Bool
  wbDat : BitVec 32

namespace Lsu

def reset : Lsu := ⟨Lsq.reset, false, false, false, BusCtrl.reset, false⟩

/-- `IO_ADDR_LOW` and `IO_ADDR_UPP`. -/
def ioAddrLow : PhysicalAddress := 0x1004

def ioAddrUpp : PhysicalAddress := 0x1000

/-- The comparison of `lsu_pma_checker`. -/
def isIo (paddr : PhysicalAddress) : Bool := ioAddrLow.ule paddr && paddr.ult ioAddrUpp

section Signals

variable (lsu : Lsu) (input : LsuInput)

/-- `wb_arb_bus_rdy_o`: the cache goes first. -/
def wbArbBusRdy : Bool :=
  !(input.dcache.wbLoad.vld || input.dcache.wbStore.vld) &&
    (!lsu.bus.prfWbVld || (lsu.bus.prfWbVld && !input.dcache.prfWbVld))

/-- `wb_arb_prf_wb_*`. -/
def prfWbVld : Bool := input.dcache.prfWbVld || lsu.bus.prfWbVld

def prfWbRdAddr : PhyReg :=
  if input.dcache.prfWbVld then input.dcache.prfWbRdAddr
  else if lsu.bus.prfWbVld then lsu.bus.request.rdAddr else 0

def prfWbData : Word :=
  if input.dcache.prfWbVld then input.dcache.prfWbData
  else if lsu.bus.prfWbVld then lsu.bus.prfWbData else 0

/-- `wb_arb_lsq_wb_*`; `fifo_deque_vld` is not driven and counts as low. -/
def wbPorts : List WbPort :=
  [input.dcache.wbLoad, input.dcache.wbStore,
    ⟨!(input.dcache.wbLoad.vld || input.dcache.wbStore.vld) && lsu.bus.wbVld,
      lsu.bus.request.robIndex⟩]

/-- `lr_lsq_is_io_o`. -/
def pmaIsIo : Bool :=
  if lsu.pmaStVldQ then lsu.pmaStIsIoQ
  else lsu.pmaLdVldQ && (input.dtlb.vld && input.dtlb.hit) &&
    isIo (input.dtlb.ptag ++ (lsu.lsq.issuedEntry.index ++ lsu.lsq.issuedEntry.offset))

/-- The queue without the misalignment check, which waits for its ready bit. -/
def lsqQuery : LsqInput where
  flush := input.flush
  vld := input.vld
  request := input.request
  wakeup := input.wakeup
  wakeupRobIndex := input.wakeupRobIndex
  wb := lsu.wbPorts input
  prfWbVld := lsu.prfWbVld input
  prfWbRdAddr := lsu.prfWbRdAddr input
  wbArbRdy := true
  mcExceptionVld := false
  mcEcause := 0
  dtlb := input.dtlb
  ldReqRdy := input.dcache.ldReqRdy
  stReqRdy := input.dcache.stReqRdy
  ldReplayVld := input.dcache.ldReplayVld
  grants := input.grants
  pmaIsIo := lsu.pmaIsIo input
  busCtrlRdy := lsu.bus.rdy (lsu.bus.wbVld && lsu.wbArbBusRdy input)

/-- `lsu_rdy_o`. -/
def rdy : Bool := lsu.lsq.rdy (lsu.lsqQuery input)

def lsqInput : LsqInput :=
  { lsu.lsqQuery input with
    mcExceptionVld := (input.vld && lsu.rdy input) && input.request.misaligned
    mcEcause := input.request.misalignedCause }

/-- The completion the `rcu` sees. -/
def comm : LsuDone :=
  let entry := lsu.lsq.commEntry (lsu.lsqInput input)
  { done := lsu.lsq.commVld (lsu.lsqInput input)
    robIndex := entry.robIndex
    wrbAddr := (lsu.lsqInput input).commRdAddr
    wrbData := lsu.prfWbData input
    exp := entry.exceptionVld
    ecause := entry.ecause
    etval := entry.address.setWidth 64 }

def killReqD : Bool :=
  lsu.lsq.wakeupKill (lsu.lsqInput input) || lsu.lsq.replayKill (lsu.lsqInput input) ||
    lsu.pmaIsIo input

def busRequest : BusRequest where
  loadOrStore := lsu.lsq.issuedEntry.ls
  isFence := lsu.lsq.issuedEntry.fenced
  robIndex := lsu.lsq.issuedEntry.robIndex
  rdAddr := lsu.lsq.issuedEntry.rdAddr
  opcode := lsu.lsq.issuedEntry.opcode
  paddr := lsu.lsq.issuedEntry.address

end Signals

/-- One clock edge outside reset. -/
def step (counter : Counter2) (lsu : Lsu) (input : LsuInput) : Lsu where
  lsq := lsu.lsq.step counter (lsu.lsqInput input)
  pmaStVldQ := !input.flush && lsu.lsq.stReqVld (lsu.lsqInput input)
  pmaStIsIoQ := !input.flush && isIo lsu.lsq.issuedEntry.address
  pmaLdVldQ := !input.flush && lsu.lsq.ldReqVld (lsu.lsqInput input)
  bus :=
    lsu.bus.step input.flush (lsu.lsq.busCtrlIssVld (lsu.lsqInput input)) lsu.busRequest
      lsu.lsq.issuedEntry.data (lsu.wbArbBusRdy input) input.wbAck input.wbDat
  l1dKillReqQ := lsu.killReqD input

/-- With the parameters of the sources no address is an IO address. -/
theorem isIo_false (paddr : PhysicalAddress) : isIo paddr = false := by
  rw [← Bool.not_eq_true]
  simp only [isIo, ioAddrLow, ioAddrUpp, Bool.and_eq_true, BitVec.ule_iff_le, BitVec.ult_iff_lt]
  bv_omega

/-- Nothing is on its way to the bus. -/
structure Quiet (lsu : Lsu) : Prop where
  store : lsu.pmaStIsIoQ = false
  bus : lsu.bus.vld = false

theorem reset_quiet : Quiet reset := ⟨rfl, rfl⟩

namespace Quiet

variable {lsu : Lsu} (quiet : Quiet lsu) (input : LsuInput)
include quiet

theorem pmaIsIo_false : lsu.pmaIsIo input = false := by
  simp [pmaIsIo, quiet.store, isIo_false]

theorem prfWbVld_eq : lsu.prfWbVld input = input.dcache.prfWbVld := by
  simp [prfWbVld, BusCtrl.prfWbVld, BusCtrl.wbVld, quiet.bus]

omit quiet in
theorem prfWbRdAddr_eq (answer : input.dcache.prfWbVld = true) :
    lsu.prfWbRdAddr input = input.dcache.prfWbRdAddr := by
  simp [prfWbRdAddr, answer]

theorem step (counter : Counter2) : Quiet (lsu.step counter input) := by
  have idle : lsu.lsq.busCtrlIssVld (lsu.lsqInput input) = false := by
    simp [Lsq.busCtrlIssVld, lsqInput, lsqQuery, quiet.pmaIsIo_false input]
  constructor
  · simp [Lsu.step, isIo_false]
  · cases flush : input.flush <;>
      simp [Lsu.step, BusCtrl.step, BusCtrl.wbVld, BusCtrl.reset, idle, quiet.bus, flush]

end Quiet

end Lsu

end GreenRio
