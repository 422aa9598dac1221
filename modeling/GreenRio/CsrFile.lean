import GreenRio.CsrRegfile
import GreenRio.FunctionUnit
import GreenRio.Pmp

set_option autoImplicit false

namespace GreenRio

namespace CsrRegfile

/-- The addresses of `validata_address` that may be read but not written. -/
def readOnlyAddresses : List (BitVec 12) :=
  [0xc00, 0xc01, 0xc02, 0xc03, 0xc04, 0xc05, 0xc06, 0xc07, 0xc08, 0xc09, 0xc0a, 0xc0b, 0xc0c,
    0xc0d, 0xc0e, 0xc0f, 0xf11, 0xf12, 0xf13, 0xf14, 0xf15]

/-- The other addresses it names in full. -/
def readWriteAddresses : List (BitVec 12) :=
  [0x100, 0x104, 0x105, 0x106, 0x10a, 0x140, 0x141, 0x142, 0x143, 0x144, 0x180, 0x5a8,
    0x300, 0x301, 0x302, 0x303, 0x304, 0x305, 0x306, 0x340, 0x341, 0x342, 0x343, 0x344, 0x34a,
    0x34b, 0x30a, 0x747, 0x3a0, 0x3a2, 0x3a4, 0x3a6, 0x3a8, 0x3aa, 0x3ac, 0x3ae, 0x7a0, 0x7a1,
    0x7a2, 0x7a3, 0x7a8, 0x7b0, 0x7b1, 0x7b2, 0x7b3, 0xb00, 0xb01, 0xb02, 0xb03, 0xb04, 0xb05,
    0xb06, 0xb07, 0xb08, 0xb09, 0xb0a, 0xb0b, 0xb0c, 0xb0d, 0xb0e, 0xb0f, 0x320, 0x323, 0x324,
    0x325, 0x326, 0x327, 0x328, 0x329, 0x32a, 0x32b, 0x32c, 0x32d, 0x32e, 0x32f]

/-- The patterns that leave the lowest digit open. -/
def readOnlyRows : List (BitVec 8) := [0xc1]

def readWriteRows : List (BitVec 8) := [0x3b, 0x3c, 0x3d, 0x3e, 0xb1, 0x33]

def readOnly (address : BitVec 12) : Bool :=
  readOnlyAddresses.contains address || readOnlyRows.contains (address.extractLsb' 4 8)

/-- `writeable_o`. -/
def writeable (address : BitVec 12) : Bool :=
  readWriteAddresses.contains address || readWriteRows.contains (address.extractLsb' 4 8)

/-- `readable_o`. -/
def readable (address : BitVec 12) : Bool := readOnly address || writeable address

section Words

variable (csr : CsrRegfile)

def misa : Word := 0b10#2 ++ 0#36 ++ 0b00000101000001000100000100#26

def mstatus : Word :=
  0#1 ++ 0#25 ++ 0#1 ++ 0#1 ++ 0b10#2 ++ 0b10#2 ++ 0#9 ++ BitVec.ofBool csr.statusTsr ++
    BitVec.ofBool csr.statusTw ++ BitVec.ofBool csr.statusTvm ++ BitVec.ofBool csr.statusMxr ++
    BitVec.ofBool csr.statusSum ++ BitVec.ofBool csr.statusMprv ++ 0#2 ++ 0#2 ++ csr.statusMpp ++
    0#2 ++ BitVec.ofBool csr.statusSpp ++ BitVec.ofBool csr.statusMpie ++ 0#1 ++
    BitVec.ofBool csr.statusSpie ++ 0#1 ++ BitVec.ofBool csr.statusMie ++ 0#1 ++
    BitVec.ofBool csr.statusSie ++ 0#1

def sstatus : Word :=
  0#1 ++ 0#29 ++ 0b10#2 ++ 0#12 ++ BitVec.ofBool csr.statusMxr ++ BitVec.ofBool csr.statusSum ++
    0#1 ++ 0#2 ++ 0#2 ++ 0#2 ++ 0#2 ++ BitVec.ofBool csr.statusSpp ++ 0#1 ++ 0#1 ++
    BitVec.ofBool csr.statusSpie ++ 0#3 ++ BitVec.ofBool csr.statusSie ++ 0#1

/-- The layout that the interrupt registers share. -/
def interruptWord (machineExt supervisorExt machineTimer supervisorTimer supervisorSoft : Bool) :
    Word :=
  0#52 ++ BitVec.ofBool machineExt ++ 0#1 ++ BitVec.ofBool supervisorExt ++ 0#1 ++
    BitVec.ofBool machineTimer ++ 0#1 ++ BitVec.ofBool supervisorTimer ++ 0#1 ++ 0#1 ++ 0#1 ++
    BitVec.ofBool supervisorSoft ++ 0#1

def mip : Word :=
  interruptWord csr.mExtInt csr.sExtInt csr.mTimerInt csr.sTimerInt csr.sSoftInt

/-- `mip_ex`, which shows the software interrupt in the place of the external one. -/
def mipEx : Word := interruptWord false csr.sSoftIntEx false csr.sTimerIntEx csr.sSoftIntEx

def mie : Word := interruptWord csr.meie csr.seie csr.mtie csr.stie csr.ssie

def sip : Word := interruptWord false csr.sExtInt false csr.sTimerInt csr.sSoftInt

def sipEx : Word := interruptWord false csr.sSoftIntEx false csr.sTimerIntEx csr.sSoftIntEx

def sie : Word := interruptWord false csr.seie false csr.stie csr.ssie

/-- `mcause` and `scause`. -/
def causeWord (interrupt : Bool) (code : BitVec 4) : Word :=
  BitVec.ofBool interrupt ++ 0#59 ++ code

/-- `csr_data_r_o`. -/
def readData (csr : CsrRegfile) (mcycle minstret : Word) (address : BitVec 12) : Word :=
  match address with
  | 0x301 => misa
  | 0x300 => csr.mstatus
  | 0x302 => csr.medeleg.setWidth 64
  | 0x303 => csr.mideleg.setWidth 64
  | 0x304 => csr.mie
  | 0x305 => csr.mtvec
  | 0x340 => csr.mscratch
  | 0x341 => csr.mepc.extractLsb' 1 63 ++ 0#1
  | 0x342 => causeWord csr.mcauseInterrupt csr.mcauseCode
  | 0x343 => csr.mtval
  | 0x344 => csr.mip ||| csr.mipEx
  | 0x100 => csr.sstatus
  | 0x104 => csr.sie
  | 0x105 => csr.stvec
  | 0x140 => csr.sscratch
  | 0x141 => csr.sepc.extractLsb' 1 63 ++ 0#1
  | 0x142 => causeWord csr.scauseInterrupt csr.scauseCode
  | 0x143 => csr.stval
  | 0x144 => csr.sip ||| csr.sipEx
  | 0x180 => csr.satp
  | 0xb00 => mcycle
  | 0xb02 => minstret
  | 0xc00 => mcycle
  | _ => 0

end Words

end CsrRegfile

/-- All control and status registers: those of `csr_regfile`, its two counters, and the ones that
`rvh_pmp` keeps. -/
structure CsrFile where
  regs : CsrRegfile
  mcycle : Word
  minstret : Word
  pmp : Pmp

/-- What reaches the registers from the reorder buffer and `excep_ctrl`. -/
structure CsrOutside where
  excpPending : Bool
  excpCause : BitVec 5
  excpTval : Word
  excpPc : Pc
  mRet : Bool
  sRet : Bool
  doRobCommitFirst : Bool
  doRobCommitSecond : Bool

namespace CsrUnit

/-- `is_pmpcfg`. -/
def isPmpcfg (address : BitVec 12) : Bool := address.extractLsb' 4 8 == 0x3a

/-- `is_pmp`. -/
def isPmp (address : BitVec 12) : Bool := decide (0x3b0 ≤ address) && decide (address ≤ 0x3ef)

/-- `pmp_cfg_addr_o`. -/
def pmpCfgAddr (address : BitVec 12) : BitVec 3 := address.extractLsb' 1 3

/-- `pmp_addr_addr_o`. -/
def pmpAddrAddr (address : BitVec 12) : BitVec 6 := (address - 0x3b0).setWidth 6

end CsrUnit

namespace CsrFile

def reset : CsrFile := ⟨CsrRegfile.reset, 0, 0, Pmp.reset⟩

section Signals

variable (file : CsrFile)

/-- What the registers answer to the CSR unit. -/
def answer (address : BitVec 12) : CsrAnswer where
  opData :=
    if CsrUnit.isPmpcfg address then file.pmp.cfgOriginPayload (CsrUnit.pmpCfgAddr address)
    else if CsrUnit.isPmp address then file.pmp.addrOriginPayload (CsrUnit.pmpAddrAddr address)
    else file.regs.readData file.mcycle file.minstret address
  readable := CsrRegfile.readable address
  writable := CsrRegfile.writeable address

variable (stage : Stage)

/-- `illegal_csr` of the operation in the stage of the CSR unit. -/
def illegal : Bool := CsrUnit.illegal stage (file.answer stage.issued.entry.csrAddress)

/-- `csr_wrdata_o`. -/
def wrData : Word := CsrUnit.wrData stage (file.answer stage.issued.entry.csrAddress)

/-- `do_csr_write_o`. -/
def doCsrWrite (stage : Stage) : Bool := stage.issued.entry.csrWrite && stage.valid

def csrInput (outside : CsrOutside) : CsrInput where
  csrW := doCsrWrite stage
  csrAddrW := stage.issued.entry.csrAddress
  csrDataW := file.wrData stage
  excpPending := outside.excpPending
  excpCause := outside.excpCause
  excpTval := outside.excpTval
  excpPc := outside.excpPc
  mRet := outside.mRet
  sRet := outside.sRet

/-- The write strobes of the PMP registers, raised by reads as well. -/
def pmpPorts : PmpPorts where
  cfgSetVld := stage.valid && CsrUnit.isPmpcfg stage.issued.entry.csrAddress
  cfgSetAddr := CsrUnit.pmpCfgAddr stage.issued.entry.csrAddress
  cfgSetPayload := file.wrData stage
  addrSetVld := stage.valid && CsrUnit.isPmp stage.issued.entry.csrAddress
  addrSetAddr := CsrUnit.pmpAddrAddr stage.issued.entry.csrAddress
  addrSetPayload := file.wrData stage

/-- One clock edge outside reset, with an operation in the stage of the CSR unit or none. -/
def step (outside : CsrOutside) : CsrFile where
  regs := file.regs.step (file.csrInput stage outside)
  mcycle :=
    if stage.issued.entry.csrAddress = 0xb00 ∧ doCsrWrite stage = true then file.wrData stage
    else file.mcycle + 1
  minstret :=
    if outside.doRobCommitFirst && outside.doRobCommitSecond then file.minstret + 2
    else if outside.doRobCommitFirst then file.minstret + 1
    else file.minstret
  pmp := file.pmp.step (file.pmpPorts stage)

end Signals

end CsrFile

end GreenRio
