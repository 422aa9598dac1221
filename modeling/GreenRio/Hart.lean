import GreenRio.Core
import GreenRio.CsrRegfile
import GreenRio.Decoder

set_option autoImplicit false

namespace GreenRio

/-- The core with its control and status registers. -/
structure Hart where
  core : Core
  csr : CsrRegfile

/-- One cycle of the outside of a hart: what the instruction buffer has, the interrupt lines, the
write port of the CSR unit and the function units. -/
structure HartInput where
  first : Fetched
  second : Fetched
  available : Bool
  availableFull : Bool
  ordered : availableFull = true → available = true
  lines : InterruptLines
  csrW : Bool
  csrAddrW : BitVec 12
  csrDataW : Word
  alu1 : AluDone
  alu2 : AluDone
  lsu : LsuDone
  md : FuDone
  csru : FuDone

namespace Hart

def reset : Hart := ⟨Core.reset, CsrRegfile.reset⟩

section Signals

variable (hart : Hart) (input : HartInput)

def decodeMode : DecodeMode :=
  ⟨hart.csr.statusTsr, hart.csr.statusTvm, hart.csr.statusTw, hart.csr.currentMode⟩

def coreInput : CoreInput where
  supply :=
    { first := Decoder.decode hart.decodeMode input.lines input.first
      second := Decoder.decode hart.decodeMode input.lines input.second
      available := input.available
      availableFull := input.availableFull
      ordered := input.ordered }
  interrupt := hart.csr.dffInterrupt
  alu1 := input.alu1
  alu2 := input.alu2
  lsu := input.lsu
  md := input.md
  csru := input.csru

/-- `excep_ctrl`: the head of the reorder buffer as the CSR registers see it. -/
def csrInput : CsrInput where
  csrW := input.csrW
  csrAddrW := input.csrAddrW
  csrDataW := input.csrDataW
  excpPending := hart.core.globalTrap (hart.coreInput input)
  excpCause := hart.core.rcu.robEcause hart.core.rcu.cmtRobIndex
  excpTval := hart.core.rcu.robEtval hart.core.rcu.cmtRobIndex
  excpPc := if hart.core.rcu.headFirst.wfi then hart.core.rcu.headFirst.pc + 4
    else hart.core.rcu.headFirst.pc
  mRet := hart.core.doRobCommitFirst && hart.core.rcu.headFirst.mret
  sRet := hart.core.doRobCommitFirst && hart.core.rcu.headFirst.sret

/-- `excp_pc_o`, wired to both the trap and the return vector of fetch. -/
def trapVector : Pc := hart.csr.excpPcOut (hart.csrInput input)

end Signals

def step (hart : Hart) (input : HartInput) : Hart where
  core := hart.core.step (hart.coreInput input)
  csr := hart.csr.step (hart.csrInput input)

def machine : Synchronous Hart HartInput := ⟨reset, step⟩

end Hart

end GreenRio
