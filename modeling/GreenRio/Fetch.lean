import GreenRio.Decoder

set_option autoImplicit false

namespace GreenRio

structure BtbEntry where
  valid : Bool
  pc : Pc
  ppc : Pc

/-- The state of the two branch predictors. How they are trained is left open: a cycle may find
them in any state. -/
structure Predictors where
  btb : Fin 4 → BtbEntry
  ghr : BitVec 4
  pht : BitVec 4 → BitVec 2

namespace Predictors

variable (predictors : Predictors) (pc : Pc)

def fetchHit (line : Fin 4) : Bool := pc == (predictors.btb line).pc && (predictors.btb line).valid

/-- `btb_taken`. -/
def bufferHit : Bool := (List.finRange 4).any (predictors.fetchHit pc)

/-- `pc_from_btb`: of several hits the last line counts. -/
def nextPcOut : Pc :=
  (List.finRange 4).foldl
    (fun target line => if predictors.fetchHit pc line then (predictors.btb line).ppc else target) pc

/-- `judge_from_gshare`. -/
def curPred : Bool := (predictors.pht (pc.extractLsb' 2 4 ^^^ predictors.ghr)).getLsbD 1

/-- The branch target buffer redirects fetch while the direction predictor says no. -/
def predictPcFromPred : Bool := predictors.bufferHit pc && !predictors.curPred pc

end Predictors

/-- One instruction of the buffer. A compressed one is already expanded; `isRv` says that it takes
four bytes. -/
structure Buffered where
  instruction : BitVec 32
  isRv : Bool
  exception : Bool
  ecause : BitVec 5
  etval : Word

/-- What the instruction buffer has for the fetch address: a line that hits, and one or two whole
instructions of it. -/
structure InsBuffer where
  insHit : Bool
  hasFirst : Bool
  hasFull : Bool
  first : Buffered
  second : Buffered
  ordered : hasFull = true → hasFirst = true
  present : hasFirst = true → insHit = true

namespace Fetch

def resetVector : Pc := 0x80000000#39

/-- The bytes of an instruction. -/
def size (buffered : Buffered) : Pc := if buffered.isRv then 4 else 2

section Signals

variable (buffer : InsBuffer) (pc : Pc)

def pcSecond : Pc := pc + size buffer.first

/-- The address behind what is handed over. -/
def sequentialPc (firstValid secondValid : Bool) : Pc :=
  if secondValid then
    if buffer.first.isRv && buffer.second.isRv then pc + 8
    else if buffer.first.isRv || buffer.second.isRv then pc + 6
    else pc + 4
  else if firstValid then
    if buffer.first.isRv then pc + 4 else pc + 2
  else pc

/-- `predict_pc` in a cycle without a flush. -/
def predictPc (predictors : Predictors) (firstValid secondValid : Bool) : Pc :=
  if predictors.predictPcFromPred pc then predictors.nextPcOut pc
  else sequentialPc buffer pc firstValid secondValid

/-- The first instruction is always predicted to fall through. -/
def fetchedFirst : Fetched where
  pc := pc
  nextPc := pcSecond buffer pc
  predictPc := pcSecond buffer pc
  rvInst := buffer.first.instruction
  exception := buffer.first.exception
  ecause := buffer.first.ecause
  etval := buffer.first.etval

/-- The second one carries the prediction made for the address of the pair. -/
def fetchedSecond (predicted : Pc) : Fetched where
  pc := pcSecond buffer pc
  nextPc := pcSecond buffer pc + size buffer.second
  predictPc := predicted
  rvInst := buffer.second.instruction
  exception := buffer.second.exception
  ecause := buffer.second.ecause
  etval := buffer.second.etval

end Signals

theorem sequentialPc_pair (buffer : InsBuffer) (pc : Pc) (firstValid : Bool) :
    sequentialPc buffer pc firstValid true = pcSecond buffer pc + size buffer.second := by
  simp only [sequentialPc, pcSecond, size, if_true]
  cases buffer.first.isRv <;> cases buffer.second.isRv <;> simp [BitVec.add_assoc]

theorem sequentialPc_first (buffer : InsBuffer) (pc : Pc) :
    sequentialPc buffer pc true false = pcSecond buffer pc := by
  simp only [sequentialPc, pcSecond, size]
  cases buffer.first.isRv <;> simp

end Fetch

end GreenRio
