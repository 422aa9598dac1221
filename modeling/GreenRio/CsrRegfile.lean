import GreenRio.Instruction

set_option autoImplicit false

namespace GreenRio

/-- The registers of `csr_regfile` outside the two counters. -/
structure CsrRegfile where
  currentMode : BitVec 2
  statusSie : Bool
  statusMie : Bool
  statusSpie : Bool
  statusMpie : Bool
  statusSpp : Bool
  statusMpp : BitVec 2
  statusMprv : Bool
  statusSum : Bool
  statusMxr : Bool
  statusTvm : Bool
  statusTw : Bool
  statusTsr : Bool
  meie : Bool
  seie : Bool
  mtie : Bool
  stie : Bool
  ssie : Bool
  mExtInt : Bool
  sExtInt : Bool
  mTimerInt : Bool
  sTimerInt : Bool
  mSoftInt : Bool
  sSoftInt : Bool
  sSoftIntEx : Bool
  sTimerIntEx : Bool
  sExtIntEx : Bool
  mcauseInterrupt : Bool
  mcauseCode : BitVec 4
  scauseInterrupt : Bool
  scauseCode : BitVec 4
  mtvec : Word
  stvec : Word
  mscratch : Word
  sscratch : Word
  mepc : Word
  sepc : Word
  mtval : Word
  stval : Word
  medeleg : BitVec 16
  mideleg : BitVec 12
  satp : Word
  dffInterrupt : Bool
  /-- The value that the incomplete assignment of `dff_ecause` holds. -/
  heldEcause : BitVec 5
  /-- The value that the incomplete assignment of `tvec_out` holds. -/
  heldTvec : Word

/-- The write port, the exception port and the two return wires. -/
structure CsrInput where
  csrW : Bool
  csrAddrW : BitVec 12
  csrDataW : Word
  excpPending : Bool
  excpCause : BitVec 5
  excpTval : Word
  excpPc : Pc
  mRet : Bool
  sRet : Bool

namespace CsrRegfile

def reset : CsrRegfile where
  currentMode := 3
  statusSie := false
  statusMie := false
  statusSpie := false
  statusMpie := false
  statusSpp := false
  statusMpp := 3
  statusMprv := false
  statusSum := false
  statusMxr := false
  statusTvm := false
  statusTw := false
  statusTsr := false
  meie := false
  seie := false
  mtie := false
  stie := false
  ssie := false
  mExtInt := false
  sExtInt := false
  mTimerInt := false
  sTimerInt := false
  mSoftInt := false
  sSoftInt := false
  sSoftIntEx := false
  sTimerIntEx := false
  sExtIntEx := false
  mcauseInterrupt := false
  mcauseCode := 0
  scauseInterrupt := false
  scauseCode := 0
  mtvec := 0
  stvec := 0
  mscratch := 0
  sscratch := 0
  mepc := 0
  sepc := 0
  mtval := 0
  stval := 0
  medeleg := 0
  mideleg := 0
  satp := 0
  dffInterrupt := false
  heldEcause := 0
  heldTvec := 0

/-- A program counter as the exception registers keep it: sign-extended, without its lowest bit. -/
def epc (pc : Pc) : Word := (pc.extractLsb' 1 38 ++ 0#1).signExtend 64

/-- The case statement of the write port. -/
def write (csr : CsrRegfile) (address : BitVec 12) (data : Word) : CsrRegfile :=
  match address with
  | 0x300 =>
    { csr with
      statusSie := data.getLsbD 1
      statusMie := data.getLsbD 3
      statusSpie := data.getLsbD 5
      statusMpie := data.getLsbD 7
      statusSpp := data.getLsbD 8
      statusMpp := data.extractLsb' 11 2
      statusMprv := data.getLsbD 17
      statusSum := data.getLsbD 18
      statusMxr := data.getLsbD 19
      statusTvm := data.getLsbD 20
      statusTw := data.getLsbD 21
      statusTsr := data.getLsbD 22 }
  | 0x305 => { csr with mtvec := data }
  | 0x304 =>
    { csr with
      ssie := data.getLsbD 1
      stie := data.getLsbD 5
      mtie := data.getLsbD 7
      seie := data.getLsbD 9
      meie := data.getLsbD 11 }
  | 0x340 => { csr with mscratch := data }
  | 0x341 => { csr with mepc := epc (data.setWidth 39) }
  | 0x342 => { csr with mcauseCode := data.setWidth 4, mcauseInterrupt := data.getLsbD 63 }
  | 0x343 => { csr with mtval := data }
  | 0x344 =>
    { csr with
      sSoftIntEx := data.getLsbD 1
      sTimerIntEx := data.getLsbD 5
      sExtIntEx := data.getLsbD 9 }
  | 0x302 => { csr with medeleg := data.setWidth 16 }
  | 0x303 => { csr with mideleg := data.setWidth 12 }
  | 0x100 =>
    { csr with
      statusMxr := data.getLsbD 19
      statusSum := data.getLsbD 18
      statusSpp := data.getLsbD 8
      statusSpie := data.getLsbD 5
      statusSie := data.getLsbD 1 }
  | 0x105 => { csr with stvec := data }
  | 0x141 => { csr with sepc := data.extractLsb' 1 63 ++ 0#1 }
  | 0x142 => { csr with scauseCode := data.setWidth 4, scauseInterrupt := data.getLsbD 63 }
  | 0x143 => { csr with stval := data }
  | 0x104 =>
    { csr with
      ssie := data.getLsbD 1
      stie := data.getLsbD 5
      seie := data.getLsbD 9 }
  | 0x140 => { csr with sscratch := data }
  | 0x042 => { csr with mcauseCode := data.setWidth 4, mcauseInterrupt := data.getLsbD 63 }
  | 0x180 => { csr with satp := data }
  | _ => csr

/-- Both return instructions forget every pending interrupt. -/
def clearPending (csr : CsrRegfile) : CsrRegfile :=
  { csr with
    mSoftInt := false
    mTimerInt := false
    mExtInt := false
    sSoftInt := false
    sTimerInt := false
    sExtInt := false
    sSoftIntEx := false
    sTimerIntEx := false
    sExtIntEx := false }

section Signals

variable (csr : CsrRegfile) (input : CsrInput)

def interruptEx : Bool :=
  csr.statusMie &&
    ((csr.seie && csr.sExtIntEx) || (csr.stie && csr.sTimerIntEx) || (csr.ssie && csr.sSoftIntEx))

/-- `|(mie & mip)`. -/
def machinePending : Bool :=
  (csr.meie && csr.mExtInt) || (csr.seie && csr.sExtInt) || (csr.mtie && csr.mTimerInt) ||
    (csr.stie && csr.sTimerInt) || (csr.ssie && csr.sSoftInt)

/-- `|(sie & sip)`. -/
def supervisorPending : Bool :=
  (csr.seie && csr.sExtInt) || (csr.stie && csr.sTimerInt) || (csr.ssie && csr.sSoftInt)

/-- `dff_ecause`. -/
def dffEcause : BitVec 5 :=
  if csr.interruptEx then
    if csr.sSoftInt then 0x11
    else if csr.sTimerInt then 0x15
    else if csr.sExtInt then 0x19
    else csr.heldEcause
  else 0

/-- The top bit of a cause code marks an interrupt. -/
def isInterrupt (cause : BitVec 5) : Bool := cause.getLsbD 4

def delegated (cause : BitVec 5) : Bool :=
  if isInterrupt cause then csr.mideleg.getLsbD (cause.setWidth 4).toNat
  else csr.medeleg.getLsbD (cause.setWidth 4).toNat

/-- `next_mode`. -/
def nextMode : BitVec 2 :=
  if input.excpPending then (if csr.delegated input.excpCause then 1 else 3)
  else if input.mRet then csr.statusMpp
  else if input.sRet then BitVec.ofBool csr.statusSpp |>.setWidth 2
  else if csr.statusMie && csr.machinePending then 3
  else csr.currentMode

def vectorOffset (cause : BitVec 5) : Word := (cause.setWidth 4 ++ 0b100#3).setWidth 64

def tvecBase (tvec : Word) : Word := tvec.extractLsb' 2 62 ++ 0#2

/-- `tvec_out`. -/
def tvecOut : Word :=
  if csr.nextMode input = 3 then
    if csr.dffInterrupt || (csr.statusMie && csr.machinePending) ||
        (input.excpPending && isInterrupt input.excpCause && csr.mtvec.getLsbD 0)
    then tvecBase csr.mtvec + vectorOffset input.excpCause else tvecBase csr.mtvec
  else if csr.nextMode input = 1 then
    if (csr.statusSie && csr.supervisorPending) ||
        (input.excpPending && isInterrupt input.excpCause && csr.stvec.getLsbD 0)
    then tvecBase csr.stvec + vectorOffset input.excpCause else tvecBase csr.stvec
  else csr.heldTvec

/-- `excp_pc_o`. -/
def excpPcOut : Pc :=
  match input.mRet && !input.excpPending, input.sRet && !input.excpPending with
  | true, false => csr.mepc.setWidth 39
  | false, true => csr.sepc.setWidth 39
  | _, _ => (csr.tvecOut input).setWidth 39

/-- The condition of the block that saves a trap into machine mode. -/
def machineEntry : Bool :=
  csr.interruptEx ||
    (input.excpPending && (csr.statusMie || !isInterrupt input.excpCause) &&
      csr.nextMode input == 3 && !input.mRet)

/-- The condition of the block that saves a trap into supervisor mode. -/
def supervisorEntry : Bool :=
  !csr.machineEntry input &&
    (input.excpPending && (csr.statusSie || !isInterrupt input.excpCause) &&
      csr.nextMode input == 1 && !input.sRet)

/-- The codes for which the supervisor trap value is kept. -/
def keepsTval (cause : BitVec 5) : Bool :=
  !isInterrupt cause &&
    [0x1, 0x5, 0x7, 0xc, 0xd, 0xf].contains (cause.setWidth 4)

end Signals

section Step

variable (csr : CsrRegfile) (input : CsrInput)

/-- The write port and the two returns, which a trap suppresses. -/
def written : CsrRegfile :=
  if input.excpPending then csr
  else if input.csrW then csr.write input.csrAddrW input.csrDataW
  else if input.mRet then
    { csr.clearPending with statusMie := csr.statusMpie, statusMpie := true, statusMpp := 0 }
  else if input.sRet then
    { csr.clearPending with statusSie := csr.statusSpie, statusSpie := true, statusSpp := false }
  else csr

/-- The pending bit of an interrupt that traps. -/
def marked (current : CsrRegfile) : CsrRegfile :=
  if input.excpPending && isInterrupt input.excpCause then
    { current with
      mSoftInt := input.excpCause == 0x13
      mTimerInt := input.excpCause == 0x17
      mExtInt := input.excpCause == 0x1b
      sSoftInt := input.excpCause == 0x11
      sTimerInt := input.excpCause == 0x15
      sExtInt := input.excpCause == 0x19 }
  else current

/-- The trap state of the target mode. -/
def entered (current : CsrRegfile) : CsrRegfile :=
  if csr.machineEntry input then
    { current with
      mepc := epc input.excpPc
      statusMie := false
      statusMpie := csr.statusMie
      statusMpp := csr.currentMode
      mcauseInterrupt := if csr.interruptEx then false else isInterrupt input.excpCause
      mcauseCode :=
        if csr.interruptEx then csr.dffEcause.setWidth 4 else input.excpCause.setWidth 4
      mtval := 0 }
  else if csr.supervisorEntry input then
    { current with
      sepc := epc input.excpPc
      statusSie := false
      statusSpie := csr.statusSie
      statusSpp := csr.currentMode.getLsbD 0
      scauseInterrupt := isInterrupt input.excpCause
      scauseCode := input.excpCause.setWidth 4
      stval := if keepsTval input.excpCause then input.excpTval else 0 }
  else current

/-- One clock edge outside reset; the later blocks overwrite the earlier ones. -/
def step : CsrRegfile :=
  { csr.entered input (marked input (csr.written input)) with
    currentMode := csr.nextMode input
    dffInterrupt := csr.interruptEx
    heldEcause := csr.dffEcause
    heldTvec := csr.tvecOut input }

end Step

end CsrRegfile

end GreenRio
