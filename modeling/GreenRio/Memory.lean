import GreenRio.Lsu
import GreenRio.Synchronous

set_option autoImplicit false

namespace GreenRio

/-- A request the data cache has accepted: the queue entry it was issued for, what it answers
with, and whether no flush has happened since. -/
structure DcacheRequest where
  slot : LsqIndex
  robIndex : RobIndex
  rdAddr : PhyReg
  load : Bool
  register : Bool
  live : Bool
  deriving DecidableEq

/-- The data cache as the queue knows it: requests accepted in the last cycle, requests that
were translated and can still be killed or replayed, and requests that will be answered. -/
structure Dcache where
  first : Option DcacheRequest
  second : Option DcacheRequest
  waiting : List DcacheRequest

/-- What the unit owes for a request it has accepted: a completion, with the fault found for the
request so far. -/
structure Ticket where
  slot : LsqIndex
  robIndex : RobIndex
  vaddr : VirtualAddress
  fault : Option (BitVec 5)
  deriving DecidableEq

/-- The load and store unit with the data cache, the entry whose translation was asked for in the
last cycle, and the requests that are owed a completion. -/
structure Memory where
  lsu : Lsu
  cache : Dcache
  asked : Option LsqIndex
  tickets : List Ticket

/-- One cycle of the outside, with the choices of the data cache. -/
structure MemoryInput where
  flush : Bool
  vld : Bool
  request : LsuRequest
  wakeup : Bool
  wakeupRobIndex : RobIndex
  dtlb : DtlbAnswer
  ldReqRdy : Bool
  stReqRdy : Bool
  replay : Bool
  reply : Option DcacheRequest
  replyData : Word
  ack : Option DcacheRequest
  grants : FlushGrants
  wbAck : Bool
  wbDat : BitVec 32

namespace MemoryInput

/-- A cycle in which nothing happens, with a cache that is ready. -/
def quiet : MemoryInput where
  flush := false
  vld := false
  request := ⟨false, 0, 0, false, 0, 0, 0, 0, 0⟩
  wakeup := false
  wakeupRobIndex := 0
  dtlb := .none
  ldReqRdy := true
  stReqRdy := true
  replay := false
  reply := none
  replyData := 0
  ack := none
  grants := ⟨false, false, false, false⟩
  wbAck := false
  wbDat := 0

variable (input : MemoryInput)

def answerPort (answer : Option DcacheRequest) : WbPort :=
  ⟨answer.isSome, (answer.map DcacheRequest.robIndex).getD 0⟩

/-- An answer carries the index and the register of its request. -/
def wires : DcacheWires where
  ldReqRdy := input.ldReqRdy
  stReqRdy := input.stReqRdy
  ldReplayVld := input.replay
  wbLoad := answerPort input.reply
  wbStore := answerPort input.ack
  prfWbVld := input.reply.isSome
  prfWbRdAddr := (input.reply.map DcacheRequest.rdAddr).getD 0
  prfWbData := input.replyData

def lsuInput : LsuInput where
  flush := input.flush
  vld := input.vld
  request := input.request
  wakeup := input.wakeup
  wakeupRobIndex := input.wakeupRobIndex
  dtlb := input.dtlb
  dcache := input.wires
  grants := input.grants
  wbAck := input.wbAck
  wbDat := input.wbDat

end MemoryInput

namespace Memory

def reset : Memory := ⟨Lsu.reset, ⟨none, none, []⟩, none, []⟩

section Signals

variable (memory : Memory) (input : MemoryInput)

def lsq : Lsq := memory.lsu.lsq

def lsqInput : LsqInput := memory.lsu.lsqInput input.lsuInput

def comm : LsuDone := memory.lsu.comm input.lsuInput

/-- The handshake with the `rcu`. -/
def accepts : Bool := input.vld && memory.lsu.rdy input.lsuInput

/-- The request the cache accepts in this cycle. -/
def accepted : Option DcacheRequest :=
  if memory.lsq.ldReqVld (memory.lsqInput input) && input.ldReqRdy then
    some
      { slot := memory.lsq.target (memory.lsqInput input)
        robIndex := memory.lsq.ldReqRobIndex (memory.lsqInput input)
        rdAddr := memory.lsq.ldReqRdAddr (memory.lsqInput input)
        load := true
        register := true
        live := true }
  else if memory.lsq.stReqVld (memory.lsqInput input) && input.stReqRdy then
    some
      { slot := memory.lsq.issued
        robIndex := memory.lsq.issuedEntry.robIndex
        rdAddr := memory.lsq.issuedEntry.rdAddr
        load := false
        register := !memory.lsq.issuedEntry.noPrfWb
        live := true }
  else none

/-- A load needs its translation in the cycle after its acceptance. -/
def translated (request : DcacheRequest) : Bool :=
  !request.load || (input.dtlb.vld && input.dtlb.hit && !input.dtlb.exceptionVld)

/-- A request is dropped when it is killed or replayed. -/
def dropped (request : DcacheRequest) : Bool :=
  memory.lsu.l1dKillReqQ || (request.load && input.replay)

/-- The requests that may be answered in this cycle. -/
def answerable : List DcacheRequest :=
  memory.cache.waiting ++
    (memory.cache.second.filter fun request => !memory.dropped input request).toList

def unanswered (requests : List DcacheRequest) : Option DcacheRequest → List DcacheRequest
  | some answer => requests.erase answer
  | none => requests

/-- Requests outlive a flush, but no longer belong to the queue. -/
def aged (flush : Bool) (request : DcacheRequest) : DcacheRequest :=
  { request with live := request.live && !flush }

def cacheNext : Dcache where
  first := (memory.accepted input).map (aged input.flush)
  second := (memory.cache.first.filter (translated input)).map (aged input.flush)
  waiting :=
    (unanswered (unanswered (memory.answerable input) input.reply) input.ack).map (aged input.flush)

/-- The ticket of a request, which goes to the tail of the queue. -/
def ticket : Ticket where
  slot := memory.lsq.tail
  robIndex := input.request.robIndex
  vaddr := input.request.vaddr
  fault := if input.request.misaligned then some input.request.misalignedCause else none

/-- A translation fault goes to the ticket that asked. -/
def blamed (ticket : Ticket) : Ticket :=
  if input.dtlb.vld && input.dtlb.exceptionVld && memory.asked == some ticket.slot then
    { ticket with fault := some input.dtlb.ecause }
  else ticket

/-- A completion settles the tickets with its index. -/
def unsettled (ticket : Ticket) : Bool :=
  !((memory.comm input).done && (memory.comm input).robIndex == ticket.robIndex)

def ticketsNext : List Ticket :=
  if input.flush then [] else
    (memory.tickets.filter (memory.unsettled input)).map (memory.blamed input) ++
      if memory.accepts input then [memory.ticket input] else []

end Signals

/-- One clock edge outside reset. -/
def step (counter : Counter2) (memory : Memory) (input : MemoryInput) : Memory where
  lsu := memory.lsu.step counter input.lsuInput
  cache := memory.cacheNext input
  asked :=
    if memory.lsq.dtlbIssVld (memory.lsqInput input) then
      some (memory.lsq.target (memory.lsqInput input))
    else none
  tickets := memory.ticketsNext input

def machine (counter : Counter2) : Synchronous Memory MemoryInput := ⟨reset, step counter⟩

/-- The cache replays only loads it was given. -/
def Replays (memory : Memory) (input : MemoryInput) : Prop :=
  input.replay = true → ∃ request, memory.cache.second = some request ∧ request.load = true

/-- Translations answer the lookup of the previous cycle, and a fault is a hit. -/
structure Translates (memory : Memory) (input : MemoryInput) : Prop where
  dtlb : input.dtlb.vld = true → memory.asked ≠ none
  fault : input.dtlb.exceptionVld = true → input.dtlb.hit = true

/-- What is assumed of the translation, of the data cache and of the `rcu`: the cache replays only
loads and answers only what it holds, once; and the reorder buffer does not give out an index it is
owed a completion for. -/
structure Contract (memory : Memory) (input : MemoryInput) : Prop
    extends Translates memory input where
  replay : Replays memory input
  reply : ∀ request, input.reply = some request →
    request ∈ memory.answerable input ∧ request.register = true
  ack : ∀ request, input.ack = some request →
    request ∈ memory.answerable input ∧ request.register = false
  robIndex : memory.accepts input = true →
    ∀ ticket ∈ memory.tickets, ticket.robIndex ≠ input.request.robIndex

instance (memory : Memory) (input : MemoryInput) : Decidable (Translates memory input) :=
  decidable_of_iff
    ((input.dtlb.vld = true → memory.asked ≠ none) ∧
      (input.dtlb.exceptionVld = true → input.dtlb.hit = true))
    ⟨fun ⟨dtlb, fault⟩ => ⟨dtlb, fault⟩, fun ⟨dtlb, fault⟩ => ⟨dtlb, fault⟩⟩

instance (memory : Memory) (input : MemoryInput) : Decidable (Replays memory input) :=
  decidable_of_iff
    (input.replay = true → ∃ request ∈ memory.cache.second, request.load = true) Iff.rfl

end Memory

end GreenRio
