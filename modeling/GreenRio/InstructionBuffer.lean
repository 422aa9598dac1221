import GreenRio.Circular
import GreenRio.Fetch
import GreenRio.Synchronous
import Mathlib.Tactic.Tauto

set_option autoImplicit false

namespace GreenRio

open Circular

/-- One of the two lines of the instruction buffer. -/
abbrev BufferLine := Fin 2

/-- The exception wires of one instruction. -/
structure Raised where
  exception : Bool
  ecause : BitVec 5
  etval : Word

/-- The registers of `fetch` and of `ins_buffer`, with what the incomplete assignments hold. -/
structure FetchUnit where
  pc : Pc
  instBuffer : Fin 16 → BitVec 16
  excpValid : BufferLine → Bool
  excpCause : BufferLine → BitVec 5
  basePc : BufferLine → Pc
  valid : BufferLine → Bool
  fetched : BufferLine → Bool
  popPtr : Fin 16
  activeFetchLine : BufferLine
  fetchReqVld : Bool
  fetchReqPc : Pc
  fetchRespPc : Pc
  icachePrefetchValid : Bool
  heldElements : Fin 4 → BitVec 16
  heldFirst : Raised
  heldSecond : Raised

/-- One cycle of the outside of fetch: a flush with its target, the ready bits of decode, the
predictors, and the instruction cache with its TLB. -/
structure FetchInput where
  flush : Bool
  target : Pc
  singleRdy : Bool
  doubleRdy : Bool
  ordered : doubleRdy = true → singleRdy = true
  predictors : Predictors
  l1iReqRdy : Bool
  itlbReqRdy : Bool
  itlbMiss : Bool
  respVld : Bool
  line : Fin 8 → BitVec 16
  exceptionValid : Bool
  ecause : BitVec 5

/-- A cycle in which everybody is ready and nothing arrives. -/
def FetchInput.idle : FetchInput where
  flush := false
  target := 0
  singleRdy := true
  doubleRdy := true
  ordered := Bool.le_refl true
  predictors := ⟨fun _ => ⟨false, 0, 0⟩, 0, fun _ => 0⟩
  l1iReqRdy := true
  itlbReqRdy := true
  itlbMiss := false
  respVld := false
  line := fun _ => 0x0013
  exceptionValid := false
  ecause := 0

namespace Fetch

/-- The bits of an address that name its line, and the halfword inside it. -/
def lineOf (pc : Pc) : BitVec 35 := pc.extractLsb' 4 35

def halfOf (pc : Pc) : Fin 8 := ⟨(pc.extractLsb' 1 3).toNat, (pc.extractLsb' 1 3).isLt⟩

/-- The first address of a line. -/
def lineStart (pc : Pc) : Pc := lineOf pc ++ 0#4

end Fetch

namespace FetchUnit

def reset : FetchUnit where
  pc := Fetch.resetVector
  instBuffer := fun _ => 0
  excpValid := fun _ => false
  excpCause := fun _ => 0
  basePc := fun _ => 0
  valid := fun _ => false
  fetched := fun _ => false
  popPtr := 0
  activeFetchLine := 0
  fetchReqVld := false
  fetchReqPc := 0
  fetchRespPc := 0
  icachePrefetchValid := false
  heldElements := fun _ => 0
  heldFirst := ⟨false, 0, 0⟩
  heldSecond := ⟨false, 0, 0⟩

section Pointers

variable (unit : FetchUnit)

/-- The line of a halfword of the buffer. -/
def lineAt (pointer : Fin 16) : BufferLine := ⟨pointer.val / 8, by omega⟩

def halfAt (pointer : Fin 16) : Fin 8 := ⟨pointer.val % 8, by omega⟩

/-- A pointer from a line and a halfword in it. -/
def pointerOf (line : BufferLine) (half : Fin 8) : Fin 16 := ⟨line.val * 8 + half.val, by omega⟩

def popLine : BufferLine := lineAt unit.popPtr

def nextPopLine : BufferLine := unit.popLine + 1

/-- `prefetch_vpc`. -/
def prefetchVpc : Pc := Fetch.lineStart unit.pc + 16

end Pointers

section Signals

variable (unit : FetchUnit) (input : FetchInput)

/-- `if_bypass`: the line of the fetch address arrives. -/
def ifBypass : Bool := input.respVld && Fetch.lineOf unit.fetchRespPc == Fetch.lineOf unit.pc

def insHit : Bool :=
  !input.flush &&
    (unit.ifBypass input ||
      (Fetch.lineOf unit.pc == Fetch.lineOf (unit.basePc unit.popLine) && unit.valid unit.popLine))

/-- The four halfwords from the pop pointer on: out of the arriving line as far as it reaches, else
out of the buffer, else what was there before. -/
def element (number : Fin 4) : BitVec 16 :=
  if unit.ifBypass input then
    if inside : (halfAt unit.popPtr).val + number.val < 8
    then input.line ⟨(halfAt unit.popPtr).val + number.val, inside⟩
    else unit.instBuffer
      (pointerOf unit.nextPopLine (advance (halfAt unit.popPtr) number.val))
  else if unit.icachePrefetchValid then unit.instBuffer (advance unit.popPtr number.val)
  else unit.heldElements number

/-- A halfword that is an instruction by itself. -/
def isRvc (half : BitVec 16) : Bool := half.extractLsb' 0 2 != 3

def isRvFirst : Bool := !isRvc (unit.element input 0)

def isRvSecond : Bool :=
  !((isRvc (unit.element input 0) && isRvc (unit.element input 1)) ||
    (!isRvc (unit.element input 0) && isRvc (unit.element input 2)))

/-- Both instructions end in the line of the pop pointer. -/
def inALine : Bool :=
  if unit.popLine != lineAt (advance unit.popPtr 1) then false
  else if lineAt (advance unit.popPtr 1) != lineAt (advance unit.popPtr 2) &&
      (unit.isRvFirst input || unit.isRvSecond input) then false
  else if lineAt (advance unit.popPtr 2) != lineAt (advance unit.popPtr 3) &&
      (unit.isRvFirst input && unit.isRvSecond input) then false
  else true

/-- Two instructions, or one, are in the buffer; the ready bits of decode gate both. -/
def fullPresent : Bool :=
  unit.insHit input && (unit.inALine input || unit.valid unit.nextPopLine)

def firstPresent : Bool :=
  unit.insHit input &&
    (unit.inALine input || unit.valid unit.nextPopLine || isRvc (unit.element input 0) ||
      unit.popLine == lineAt (advance unit.popPtr 1))

def hasFirstInst : Bool := unit.firstPresent input && input.singleRdy

def hasFullInst : Bool := unit.fullPresent input && input.doubleRdy

/-- The halfwords of the two instructions that lie in a line with an exception. -/
def halfExcp (number : Fin 4) : Bool :=
  if unit.ifBypass input then input.exceptionValid
  else
    let stored := unit.excpValid (lineAt (advance unit.popPtr number.val))
    let first := isRvc (unit.element input 0)
    let second := isRvc (unit.element input 1)
    match number with
    | 0 | 1 => stored
    | 2 => !(first && second) && stored
    | 3 => !(first || second) && stored

/-- The exception of the line of a halfword. -/
def lineExcp (number : Fin 4) : Raised :=
  let line := lineAt (advance unit.popPtr number.val)
  if unit.ifBypass input then ⟨true, input.ecause, unit.fetchRespPc.setWidth 64⟩
  else ⟨true, unit.excpCause line, (unit.basePc line).setWidth 64⟩

/-- The exception wires of both instructions; what a branch leaves out is held. -/
def raised : Raised × Raised :=
  if unit.halfExcp input 0 then (unit.lineExcp input 0, unit.heldSecond)
  else if unit.halfExcp input 1 then
    if isRvc (unit.element input 0) then (unit.heldFirst, unit.lineExcp input 1)
    else (unit.lineExcp input 1, unit.heldSecond)
  else if unit.halfExcp input 2 then (unit.heldFirst, unit.lineExcp input 2)
  else if unit.halfExcp input 3 then (unit.heldFirst, unit.lineExcp input 3)
  else ({ unit.heldFirst with exception := false }, { unit.heldSecond with exception := false })

/-- An instruction of one or two halfwords; the compressed ones are expanded behind the buffer. -/
def word (low high : BitVec 16) : BitVec 32 := if isRvc low then low.setWidth 32 else high ++ low

def firstWord : BitVec 32 := word (unit.element input 0) (unit.element input 1)

def secondWord : BitVec 32 :=
  if isRvc (unit.element input 0) then word (unit.element input 1) (unit.element input 2)
  else word (unit.element input 2) (unit.element input 3)

/-- What the buffer has for decode. -/
def supply : InsBuffer where
  insHit := unit.insHit input
  hasFirst := unit.firstPresent input
  hasFull := unit.fullPresent input
  first := ⟨unit.firstWord input, unit.isRvFirst input, (unit.raised input).1.exception,
    (unit.raised input).1.ecause, (unit.raised input).1.etval⟩
  second := ⟨unit.secondWord input, unit.isRvSecond input, (unit.raised input).2.exception,
    (unit.raised input).2.ecause, (unit.raised input).2.etval⟩
  ordered := by
    simp only [fullPresent, firstPresent, Bool.and_eq_true, Bool.or_eq_true]
    tauto
  present := by
    simp only [firstPresent, Bool.and_eq_true]
    tauto

/-- `predict_pc` outside a flush. -/
def predictPc : Pc :=
  Fetch.predictPc (unit.supply input) unit.pc input.predictors (unit.hasFirstInst input)
    (unit.hasFullInst input)

/-- `pop_size` in halfwords. -/
def popSize : Nat :=
  if unit.hasFullInst input then
    if !unit.isRvFirst input && !unit.isRvSecond input then 2
    else if !unit.isRvFirst input || !unit.isRvSecond input then 3
    else 4
  else if unit.hasFirstInst input then
    if !unit.isRvFirst input then 1 else 2
  else 0

def nextPopPtr : Fin 16 := advance unit.popPtr (unit.popSize input)

/-- `pop_enable`. -/
def popEnable : Bool := lineAt (unit.nextPopPtr input) != unit.popLine

def reqRdy : Bool := input.l1iReqRdy && input.itlbReqRdy

def handshake : Bool := reqRdy input && unit.fetchReqVld

def fetchEnable : Bool := !unit.fetched unit.popLine && reqRdy input

def fetchInflight : Bool := unit.fetched unit.popLine && !unit.valid unit.popLine

def fetchIncoming : Bool := unit.fetchInflight && (!input.itlbMiss && input.respVld)

def prefetchEnable : Bool :=
  !unit.fetched unit.nextPopLine && !unit.valid unit.nextPopLine &&
    (unit.fetchIncoming input || unit.valid unit.popLine) && reqRdy input

def prefetchInflight : Bool := unit.fetched unit.nextPopLine && !unit.valid unit.nextPopLine

def prefetchIncoming : Bool := unit.prefetchInflight && (!input.itlbMiss && input.respVld)

end Signals

section Step

variable (unit : FetchUnit) (input : FetchInput)

/-- A line is marked as requested. -/
def request (line : BufferLine) (pc : Pc) : FetchUnit :=
  { unit with
    fetched := Function.update unit.fetched line true
    basePc := Function.update unit.basePc line (Fetch.lineStart pc)
    fetchReqVld := true
    fetchReqPc := pc }

/-- The arriving line is stored. -/
def fill (line next : BufferLine) : FetchUnit :=
  { unit with
    valid := Function.update unit.valid line true
    excpValid := Function.update unit.excpValid line input.exceptionValid
    excpCause := Function.update unit.excpCause line input.ecause
    instBuffer := fun pointer =>
      if lineAt pointer = line then input.line (halfAt pointer) else unit.instBuffer pointer
    activeFetchLine := next
    fetchReqVld := false }

/-- The fetch and prefetch state machine. -/
def refill : FetchUnit :=
  if unit.fetchEnable input then unit.request unit.activeFetchLine unit.pc
  else if unit.fetchInflight then
    if unit.fetchIncoming input then
      let filled := unit.fill input unit.activeFetchLine unit.nextPopLine
      if unit.prefetchEnable input then filled.request unit.nextPopLine unit.prefetchVpc else filled
    else { unit with fetchReqVld := !unit.handshake input }
  else if unit.prefetchEnable input then unit.request unit.activeFetchLine unit.prefetchVpc
  else if unit.prefetchInflight then
    if unit.prefetchIncoming input then
      unit.fill input unit.activeFetchLine (unit.activeFetchLine + 1)
    else { unit with fetchReqVld := !unit.handshake input }
  else { unit with fetchReqVld := false }

/-- A line that is used up is given free. -/
def release (line : BufferLine) : FetchUnit :=
  { unit with
    valid := Function.update unit.valid line false
    excpValid := Function.update unit.excpValid line false
    excpCause := Function.update unit.excpCause line 0
    fetched := Function.update unit.fetched line false
    instBuffer := fun pointer => if lineAt pointer = line then 0 else unit.instBuffer pointer }

/-- Both in one cycle; the release counts last. -/
def turned : FetchUnit :=
  if unit.popEnable input then (unit.refill input).release unit.popLine else unit.refill input

/-- One clock edge outside reset. A flush empties the buffer and takes the pop pointer from the
address that is left. -/
def step : FetchUnit :=
  if input.flush then
    { reset with
      pc := input.target
      popPtr := pointerOf 0 (Fetch.halfOf unit.pc)
      heldElements := unit.element input
      heldFirst := (unit.raised input).1
      heldSecond := (unit.raised input).2 }
  else
    { unit.turned input with
      pc := if unit.insHit input then unit.predictPc input else unit.pc
      popPtr := if unit.insHit input then unit.nextPopPtr input
        else pointerOf unit.popLine (Fetch.halfOf unit.pc)
      fetchRespPc := unit.fetchReqPc
      icachePrefetchValid := unit.insHit input
      heldElements := unit.element input
      heldFirst := (unit.raised input).1
      heldSecond := (unit.raised input).2 }

end Step

def machine : Synchronous FetchUnit FetchInput := ⟨reset, step⟩

end FetchUnit

end GreenRio
