import GreenRio.Fetch
import GreenRio.Synchronous

set_option autoImplicit false

namespace GreenRio

/-- The registers of `btb`. -/
structure Btb where
  entries : Fin 4 → BtbEntry
  counter : Fin 4

/-- The training port of `btb`. -/
structure BtbInput where
  isReqPc : Bool
  reqPc : Pc
  predictTarget : Pc

namespace Btb

def reset : Btb where
  entries _ := ⟨false, 0, 0⟩
  counter := 0

section Signals

variable (btb : Btb) (input : BtbInput)

def gshareHit (line : Fin 4) : Bool :=
  input.reqPc == (btb.entries line).pc && (btb.entries line).valid

def gotten : Bool := (List.finRange 4).any (btb.gshareHit input)

/-- `add_const`: a new address is entered. -/
def addConst : Bool := !btb.gotten input && input.isReqPc

/-- One clock edge outside reset. -/
def step : Btb where
  entries line :=
    if btb.gotten input && input.isReqPc then
      if btb.gshareHit input line then
        { btb.entries line with valid := true, ppc := input.predictTarget }
      else btb.entries line
    else if btb.addConst input && line == btb.counter then ⟨true, input.reqPc, input.predictTarget⟩
    else btb.entries line
  counter :=
    if btb.addConst input then (if btb.counter = 3 then 0 else btb.counter + 1) else btb.counter

end Signals

end Btb

/-- A branch that is reported to `gshare`. -/
structure Reported where
  pc : Pc
  taken : Bool

/-- The training ports of `gshare`. -/
structure GshareInput where
  prevPcFirst : Pc
  prevBranchInFirst : Bool
  prevTakenFirst : Bool
  prevPcSecond : Pc
  prevBranchInSecond : Bool
  prevTakenSecond : Bool

/-- The registers of `gshare`: the history of outcomes, newest in the lowest bit, and the pattern
table. -/
structure Gshare where
  ghr : BitVec 4
  pht : BitVec 4 → BitVec 2

namespace Gshare

def reset : Gshare where
  ghr := 0
  pht _ := 0b10

/-- What a two-bit counter becomes after an outcome. -/
def counted (taken : Bool) (counter : BitVec 2) : BitVec 2 :=
  if taken then
    match counter with
    | 0b00 => 0b01
    | 0b01 => 0b10
    | 0b10 => 0b11
    | 0b11 => 0b11
  else
    match counter with
    | 0b00 => 0b00
    | 0b01 => 0b00
    | 0b10 => 0b01
    | 0b11 => 0b10

/-- `prev_idx_first` and `prev_idx_second`. -/
def prevIdx (gshare : Gshare) (pc : Pc) : BitVec 4 := pc.extractLsb' 2 4 ^^^ gshare.ghr

/-- The history register with one more outcome. -/
def shifted (gshare : Gshare) (taken : Bool) : BitVec 4 :=
  gshare.ghr.extractLsb' 0 3 ++ BitVec.ofBool taken

section Signals

variable (gshare : Gshare) (input : GshareInput)

/-- One clock edge outside reset: both ports compute from the registers before the edge, and where
they assign the same register the second one counts. -/
def step : Gshare where
  ghr :=
    if input.prevBranchInSecond then gshare.shifted input.prevTakenSecond
    else if input.prevBranchInFirst then gshare.shifted input.prevTakenFirst
    else gshare.ghr
  pht index :=
    if input.prevBranchInSecond && index == gshare.prevIdx input.prevPcSecond then
      counted input.prevTakenSecond (gshare.pht index)
    else if input.prevBranchInFirst && index == gshare.prevIdx input.prevPcFirst then
      counted input.prevTakenFirst (gshare.pht index)
    else gshare.pht index

end Signals

end Gshare

/-- Both predictors of `fetch`. -/
structure PredictionUnit where
  btb : Btb
  gshare : Gshare

/-- The ports of `fetch` that train them. -/
structure PredictionInput where
  branchValidFirst : Bool
  branchValidSecond : Bool
  btbReqPc : Pc
  btbPredictTarget : Pc
  prevPcFirst : Pc
  prevTakenFirst : Bool
  prevPcSecond : Pc
  prevTakenSecond : Bool

namespace PredictionUnit

def reset : PredictionUnit := ⟨Btb.reset, Gshare.reset⟩

/-- What fetch looks its predictions up in. -/
def predictors (unit : PredictionUnit) : Predictors where
  btb := unit.btb.entries
  ghr := unit.gshare.ghr
  pht := unit.gshare.pht

end PredictionUnit

namespace PredictionInput

variable (input : PredictionInput)

def btb : BtbInput := ⟨input.branchValidFirst, input.btbReqPc, input.btbPredictTarget⟩

def gshare : GshareInput where
  prevPcFirst := input.prevPcFirst
  prevBranchInFirst := input.branchValidFirst
  prevTakenFirst := input.prevTakenFirst
  prevPcSecond := input.prevPcSecond
  prevBranchInSecond := input.branchValidSecond
  prevTakenSecond := input.prevTakenSecond

end PredictionInput

namespace PredictionUnit

def step (unit : PredictionUnit) (input : PredictionInput) : PredictionUnit where
  btb := unit.btb.step input.btb
  gshare := unit.gshare.step input.gshare

def machine : Synchronous PredictionUnit PredictionInput := ⟨reset, step⟩

end PredictionUnit

end GreenRio
