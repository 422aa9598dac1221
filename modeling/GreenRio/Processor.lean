import GreenRio.Fetch
import GreenRio.FunctionUnit
import GreenRio.Hart

set_option autoImplicit false

namespace GreenRio

/-- Fetch, decode, the back end and the control and status registers. -/
structure Processor where
  pc : Pc
  fifo : F2if2o 8 Decoded
  backend : Backend
  csr : CsrRegfile

/-- One cycle of the outside: predictors, instruction buffer, interrupt lines, the registers the
CSR unit reads, and the two units with a latency of their own. -/
structure ProcessorInput where
  predictors : Predictors
  buffer : InsBuffer
  lines : InterruptLines
  csrAnswer : CsrAnswer
  lsu : LsuDone
  md : FuDone
  lsuReady : Bool
  mdReady : Bool

namespace Processor

def reset : Processor := ⟨Fetch.resetVector, Core.reset.fifo, Backend.reset, CsrRegfile.reset⟩

section State

variable (processor : Processor)

def core : Core := ⟨processor.fifo, processor.backend.rcu⟩

def hart : Hart := ⟨processor.core, processor.csr⟩

/-- `global_trap_o`. -/
def trap : Bool := processor.core.exception || processor.csr.dffInterrupt

def flush : Bool :=
  processor.core.globalRet || processor.trap || processor.backend.rcu.predictMiss

/-- `rcu_bpu_cmt_final_pc_first_o`, read while a misprediction is signalled. -/
def realBranch : Pc :=
  if processor.backend.rcu.dffCmtMissDelay then processor.backend.rcu.dff.finalPcFirst
  else if processor.backend.rcu.cmtMiss then
    processor.backend.rcu.robFinalBranchPc processor.backend.rcu.cmtRobIndex
  else 0

def alu1Done : AluDone :=
  Alu.done processor.backend.issue.alu1 processor.backend.issue.alu1.issued.entry.nextPc
    processor.flush

/-- The second unit extends its return address with the sign of the first one's. -/
def alu2Done : AluDone :=
  Alu.done processor.backend.issue.alu2 processor.backend.issue.alu1.issued.entry.nextPc
    processor.flush

end State

section Signals

variable (processor : Processor) (input : ProcessorInput)

/-- `is_first_valid_o` and `is_second_valid_o`. -/
def firstValid : Bool := input.buffer.hasFirst && !processor.flush && processor.core.singleReady

def secondValid : Bool := input.buffer.hasFull && !processor.flush && processor.core.doubleReady

/-- `predict_pc` outside a flush. -/
def predictPc : Pc :=
  Fetch.predictPc input.buffer processor.pc input.predictors (processor.firstValid input)
    (processor.secondValid input)

def csruDone : FuDone := CsrUnit.done processor.backend.issue.csr input.csrAnswer

def hartInput : HartInput where
  first := Fetch.fetchedFirst input.buffer processor.pc
  second := Fetch.fetchedSecond input.buffer processor.pc (processor.predictPc input)
  available := input.buffer.hasFirst && !processor.flush
  availableFull := input.buffer.hasFull && !processor.flush
  ordered := by
    intro full
    rw [Bool.and_eq_true] at full ⊢
    exact ⟨input.buffer.ordered full.1, full.2⟩
  lines := input.lines
  csrW := processor.backend.issue.csr.valid && processor.backend.issue.csr.issued.entry.csrWrite
  csrAddrW := processor.backend.issue.csr.issued.entry.csrAddress
  csrDataW := CsrUnit.wrData processor.backend.issue.csr input.csrAnswer
  alu1 := processor.alu1Done
  alu2 := processor.alu2Done
  lsu := input.lsu
  md := input.md
  csru := processor.csruDone input

def coreInput : CoreInput := processor.hart.coreInput (processor.hartInput input)

def rcuInput : RcuInput := processor.core.rcuInput (processor.coreInput input)

def backendInput : BackendInput :=
  { processor.rcuInput input with mdReady := input.mdReady, lsuReady := input.lsuReady }

/-- `trap_vector_i` and `mret_vector_i`. -/
def trapVector : Pc := processor.hart.trapVector (processor.hartInput input)

/-- The program counter after the clock edge. -/
def pcNext : Pc :=
  if processor.trap then processor.trapVector input
  else if processor.core.globalRet then processor.trapVector input
  else if processor.backend.rcu.predictMiss then processor.realBranch
  else if input.buffer.insHit then processor.predictPc input
  else processor.pc

/-- One clock edge outside reset. -/
def step : Processor where
  pc := processor.pcNext input
  fifo := (processor.hart.step (processor.hartInput input)).core.fifo
  backend := processor.backend.step (processor.backendInput input)
  csr := (processor.hart.step (processor.hartInput input)).csr

end Signals

def machine : Synchronous Processor ProcessorInput := ⟨reset, step⟩

variable (processor : Processor) (input : ProcessorInput)

/-- The queue and the `rcu` of the processor step as the core does. -/
theorem step_core : (processor.step input).core = processor.core.step (processor.coreInput input) :=
  rfl

theorem core_flush : processor.core.flush (processor.coreInput input) = processor.flush := rfl

end Processor

end GreenRio
