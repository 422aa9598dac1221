import GreenRio.AsyncFifo

set_option autoImplicit false

namespace GreenRio

/-- What goes over to the slave: `{wbm_adr_i, wbm_we_i, wbm_dat_i, wbm_sel_i}`. -/
structure WbCommand where
  adr : BitVec 32
  we : Bool
  dat : BitVec 32
  sel : BitVec 4
  deriving DecidableEq

/-- What comes back: `{wbs_err_i, wbs_dat_i}`. -/
structure WbResponse where
  err : Bool
  dat : BitVec 32
  deriving DecidableEq

/-- The master's wires at an edge of `wbm_clk_i`. -/
structure MasterEdge where
  stb : Bool
  command : WbCommand

/-- The slave's wires at an edge of `wbs_clk_i`. -/
structure SlaveEdge where
  ack : Bool
  response : WbResponse

/-- A moment at which one of the clocks rises, or both; the masks are those of the two FIFOs. -/
structure WbMoment where
  wbm : Option MasterEdge
  wbs : Option SlaveEdge
  cmdEarlyRd : BitVec 3
  cmdEarlyWr : BitVec 3
  respEarlyRd : BitVec 2
  respEarlyWr : BitVec 2

/-- `async_wb`, with its FIFOs of four commands and of two responses. -/
structure AsyncWb where
  pendingRd : Bool
  wbsAckF : Bool
  cmdIf : AsyncFifo WbCommand 2
  respIf : AsyncFifo WbResponse 1

namespace AsyncWb

def reset (cmdMem : BitVec 2 → WbCommand) (respMem : BitVec 1 → WbResponse) : AsyncWb where
  pendingRd := false
  wbsAckF := false
  cmdIf := AsyncFifo.reset cmdMem
  respIf := AsyncFifo.reset respMem

def mCmdWrEn (wb : AsyncWb) (edge : MasterEdge) : Bool :=
  ((!wb.pendingRd && edge.stb) && !wb.cmdIf.full) && !wb.cmdIf.afull

def wbmAck (wb : AsyncWb) (edge : MasterEdge) : Bool :=
  if edge.stb && edge.command.we then wb.mCmdWrEn edge
  else if edge.stb && !edge.command.we then !wb.respIf.empty
  else false

def mRespRdEn (wb : AsyncWb) : Bool := !wb.respIf.empty

def pendingNext (wb : AsyncWb) (edge : MasterEdge) : Bool :=
  if ((!wb.pendingRd && edge.stb) && !edge.command.we) && wb.mCmdWrEn edge then true
  else if ((wb.pendingRd && edge.stb) && !edge.command.we) && wb.wbmAck edge then false
  else wb.pendingRd

/-- The command wires to the slave, which are zero while there is none. -/
def wbsCommand (wb : AsyncWb) : WbCommand :=
  if wb.cmdIf.empty then ⟨0, false, 0, 0⟩ else wb.cmdIf.rdData

/-- `wbs_stb_o` and `wbs_cyc_o`. -/
def wbsStb (wb : AsyncWb) : Bool :=
  if wb.wbsAckF then false else if wb.cmdIf.empty then false else true

def sRespWrEn (wb : AsyncWb) (edge : SlaveEdge) : Bool :=
  ((wb.wbsStb && !wb.wbsCommand.we) && edge.ack) && !wb.respIf.full

def cmdMoment (wb : AsyncWb) (moment : WbMoment) : Moment WbCommand 2 where
  wr := moment.wbm.map fun edge => ⟨wb.mCmdWrEn edge, edge.command⟩
  rd := moment.wbs.map SlaveEdge.ack
  earlyRd := moment.cmdEarlyRd
  earlyWr := moment.cmdEarlyWr

def respMoment (wb : AsyncWb) (moment : WbMoment) : Moment WbResponse 1 where
  wr := moment.wbs.map fun edge => ⟨wb.sRespWrEn edge, edge.response⟩
  rd := moment.wbm.map fun _ => wb.mRespRdEn
  earlyRd := moment.respEarlyRd
  earlyWr := moment.respEarlyWr

def step (wb : AsyncWb) (moment : WbMoment) : AsyncWb where
  pendingRd := (moment.wbm.map wb.pendingNext).getD wb.pendingRd
  wbsAckF := (moment.wbs.map SlaveEdge.ack).getD wb.wbsAckF
  cmdIf := wb.cmdIf.step (wb.cmdMoment moment)
  respIf := wb.respIf.step (wb.respMoment moment)

def machine (cmdMem : BitVec 2 → WbCommand) (respMem : BitVec 1 → WbResponse) :
    Synchronous AsyncWb WbMoment where
  reset := reset cmdMem respMem
  step := step

/-- The slave answers only what it is asked, and a master whose read was taken in waits for its
answer. -/
def Lawful (wb : AsyncWb) (moment : WbMoment) : Prop :=
  (∀ edge ∈ moment.wbm, wb.pendingRd = true → edge.stb = true ∧ edge.command.we = false) ∧
    (∀ edge ∈ moment.wbs, edge.ack = true → wb.wbsStb = true)

instance (wb : AsyncWb) (moment : WbMoment) : Decidable (wb.Lawful moment) :=
  inferInstanceAs (Decidable (_ ∧ _))

/-- The commands that the bridge takes in. A write is acknowledged with it. -/
def accepted (wb : AsyncWb) (moment : WbMoment) : List WbCommand :=
  (wb.cmdMoment moment).wrData.toList

/-- The commands that the slave carries out, each with the response on its wires. -/
def performed (wb : AsyncWb) (moment : WbMoment) : List (WbCommand × WbResponse) :=
  (moment.wbs.filter SlaveEdge.ack).toList.map fun edge => (wb.wbsCommand, edge.response)

/-- The read data that the master gets with an acknowledgement. -/
def answered (wb : AsyncWb) (moment : WbMoment) : List WbResponse :=
  (moment.wbm.filter fun edge => !edge.command.we && wb.wbmAck edge).toList.map fun _ =>
    wb.respIf.rdData

/-- What comes of an edge of the master's clock. -/
structure Gives (wb : AsyncWb) (moment : WbMoment) (edge : MasterEdge) (ack : Bool)
    (commands : List WbCommand) (answers : List WbResponse) (pending : Bool) : Prop where
  ack : wb.wbmAck edge = ack
  accepted : wb.accepted moment = commands
  answered : wb.answered moment = answers
  pending : (wb.step moment).pendingRd = pending

/-- All that an edge of the master's clock can do. -/
inductive Handles (wb : AsyncWb) (moment : WbMoment) (edge : MasterEdge) : Prop where
  | waits (gives : wb.Gives moment edge false [] [] wb.pendingRd)
  | takesRead (idle : wb.pendingRd = false) (strobed : edge.stb = true)
      (reading : edge.command.we = false)
      (gives : wb.Gives moment edge false [edge.command] [] true)
  | takesWrite (idle : wb.pendingRd = false) (strobed : edge.stb = true)
      (writing : edge.command.we = true)
      (gives : wb.Gives moment edge true [edge.command] [] false)
  | answers (pending : wb.pendingRd = true) (strobed : edge.stb = true)
      (reading : edge.command.we = false)
      (gives : wb.Gives moment edge true [] [wb.respIf.rdData] false)

/-- How many of the first commands are reads. -/
def reads (commands : List WbCommand) (count : Nat) : Nat :=
  (commands.take count).countP fun command => !command.we

section Reads

variable {commands : List WbCommand}

theorem reads_mono {first second : Nat} (ahead : first ≤ second) :
    reads commands first ≤ reads commands second :=
  (List.take_sublist_take_left ahead).countP_le

theorem reads_le (commands : List WbCommand) (count : Nat) : reads commands count ≤ reads commands commands.length := by
  rw [reads, reads, List.take_length]
  exact (List.take_sublist _ _).countP_le

theorem reads_append (more : List WbCommand) {count : Nat} (inside : count ≤ commands.length) :
    reads (commands ++ more) count = reads commands count := by
  rw [reads, List.take_append_of_le_length inside, reads]

theorem reads_all (more : List WbCommand) :
    reads (commands ++ more) (commands ++ more).length =
      reads commands commands.length + more.countP fun command => !command.we := by
  rw [reads, reads, List.take_length, List.take_length, List.countP_append]

end Reads

/-- How the bridge stands to what it has taken in, carried out and answered: the commands in
between wait in one FIFO and the responses in the other, and what the slave's side has seen of the
taken responses is at most one behind the commands that it has seen. -/
structure Linked (wb : AsyncWb) (accepted waiting : List WbCommand)
    (performed : List (WbCommand × WbResponse)) (answered flight : List WbResponse)
    (cmd resp : AsyncFifo.Progress) : Prop where
  cmdHolds : wb.cmdIf.Holds waiting cmd
  respHolds : wb.respIf.Holds flight resp
  spare : cmd.Ordered 3
  commands : accepted = performed.map Prod.fst ++ waiting
  responses : (performed.filter fun done => !done.1.we).map Prod.snd = answered ++ flight
  written : cmd.written = accepted.length
  taken : resp.read = answered.length
  outstanding : reads accepted accepted.length = answered.length + wb.pendingRd.toNat
  behind0 : reads accepted cmd.writtenAt0 ≤ resp.readAt0 + 1
  behind1 : reads accepted cmd.writtenAt1 ≤ resp.readAt1 + 1
  last : wb.pendingRd = true → ∃ before read, accepted = before ++ [read] ∧ read.we = false

namespace Linked

variable {wb : AsyncWb} {accepted waiting : List WbCommand}
  {performed : List (WbCommand × WbResponse)} {answered flight : List WbResponse}
  {cmd resp : AsyncFifo.Progress}

theorem cmd_read (linked : wb.Linked accepted waiting performed answered flight cmd resp) :
    cmd.read = performed.length := by
  have between := linked.cmdHolds.shows.between
  have total := congrArg List.length linked.commands
  rw [List.length_append, List.length_map] at total
  have written := linked.written
  omega

/-- Every read that the slave has carried out has put its response into the FIFO. -/
theorem resp_written (linked : wb.Linked accepted waiting performed answered flight cmd resp) :
    resp.written = reads accepted performed.length := by
  have between := linked.respHolds.shows.between
  have total := congrArg List.length linked.responses
  have reading : reads accepted performed.length =
      (performed.filter fun done => !done.1.we).length := by
    have length : performed.length = (performed.map Prod.fst).length := (List.length_map _).symm
    rw [linked.commands, length, reads_append _ (Nat.le_refl _), reads, List.take_length,
      List.countP_map, List.countP_eq_length_filter]
    rfl
  rw [List.length_map, List.length_append] at total
  rw [reading, total, between, linked.taken]

theorem due (linked : wb.Linked accepted waiting performed answered flight cmd resp)
    (shown : wb.respIf.empty = false) :
    wb.pendingRd = true ∧ reads accepted performed.length = reads accepted accepted.length := by
  have present := linked.respHolds.present (by decide) shown
  have ⟨_, _, _, caught, sent, _⟩ := linked.respHolds.ordered
  have written := linked.resp_written
  have taken := linked.taken
  have outstanding := linked.outstanding
  have bound := reads_le accepted performed.length
  cases pending : wb.pendingRd with
  | false =>
    rw [pending, Bool.toNat_false] at outstanding
    omega
  | true =>
    rw [pending, Bool.toNat_true] at outstanding
    exact ⟨rfl, by omega⟩

/-- When an answer shows, everything that was taken in before it has been carried out. -/
theorem settled (linked : wb.Linked accepted waiting performed answered flight cmd resp)
    (shown : wb.respIf.empty = false) : waiting = [] := by
  obtain ⟨pending, all⟩ := linked.due shown
  obtain ⟨before, read, split, reading⟩ := linked.last pending
  rcases List.eq_nil_or_concat' waiting with none | ⟨front, final, shape⟩
  · exact none
  · exfalso
    have commands := linked.commands
    rw [shape, ← List.append_assoc, split] at commands
    obtain ⟨same, final⟩ := List.append_inj' commands rfl
    have bound : performed.length ≤ before.length := by
      rw [same, List.length_append, List.length_map]
      omega
    rw [split, reads_all, reads_append _ bound] at all
    have fewer := reads_le before performed.length
    simp [reading] at all
    omega

/-- The response of a read always finds room. -/
theorem respIf_full (linked : wb.Linked accepted waiting performed answered flight cmd resp)
    (shown : wb.cmdIf.empty = false) (reading : wb.cmdIf.rdData.we = false) :
    wb.respIf.full = false := by
  have present := linked.cmdHolds.present (by decide) shown
  have inside := linked.cmdHolds.length_pos (by decide) shown
  have head := linked.cmdHolds.rdData_eq inside
  have next : reads accepted (performed.length + 1) = reads accepted performed.length + 1 := by
    have long : performed.length < accepted.length := by
      rw [linked.commands, List.length_append, List.length_map]
      omega
    have here : accepted[performed.length] = waiting[0] := by
      simp only [linked.commands]
      rw [List.getElem_append_right (by rw [List.length_map])]
      simp
    rw [reads, List.take_add_one, List.countP_append, List.getElem?_eq_getElem long, here, ← head]
    simp [reads, reading]
  have ahead : reads accepted (performed.length + 1) ≤ reads accepted cmd.writtenAt1 := by
    apply reads_mono
    rw [← linked.cmd_read]
    exact present
  have behind := linked.behind1
  have written := linked.resp_written
  rw [AsyncFifo.full_eq (by decide) linked.respHolds.shows linked.respHolds.ordered]
  exact decide_eq_false (by omega)

end Linked

section Lawful

variable {wb : AsyncWb} {moment : WbMoment}

theorem mCmdWrEn_room {edge : MasterEdge} (taking : wb.mCmdWrEn edge = true) :
    edge.stb = true ∧ wb.cmdIf.full = false ∧ wb.cmdIf.afull = false := by
  simp only [mCmdWrEn, Bool.and_eq_true, Bool.not_eq_true'] at taking
  exact ⟨taking.1.1.2, taking.1.2, taking.2⟩

/-- A strobe shows the oldest command. -/
theorem strobe (asked : wb.wbsStb = true) :
    wb.cmdIf.empty = false ∧ wb.wbsCommand = wb.cmdIf.rdData := by
  cases shown : wb.cmdIf.empty with
  | false => simp [wbsCommand, shown]
  | true => simp [wbsStb, shown] at asked

theorem wrData_cmdMoment (wb : AsyncWb) (moment : WbMoment) :
    (wb.cmdMoment moment).wrData = (moment.wbm.filter wb.mCmdWrEn).map MasterEdge.command := by
  unfold Moment.wrData cmdMoment
  cases moment.wbm with
  | none => rfl
  | some edge => cases writing : wb.mCmdWrEn edge <;> simp [writing]

theorem wrData_respMoment :
    (wb.respMoment moment).wrData = (moment.wbs.filter wb.sRespWrEn).map SlaveEdge.response := by
  unfold Moment.wrData respMoment
  cases moment.wbs with
  | none => rfl
  | some edge => cases writing : wb.sRespWrEn edge <;> simp [writing]

theorem cmd_permitted (lawful : wb.Lawful moment) : wb.cmdIf.Permitted (wb.cmdMoment moment) := by
  constructor
  · intro writing
    rw [wrData_cmdMoment, Option.isSome_map, Option.isSome_filter, Option.any_eq_true] at writing
    obtain ⟨edge, -, taken⟩ := writing
    exact (mCmdWrEn_room taken).2.1
  · intro reading
    unfold Moment.rdEn cmdMoment at reading
    cases slave : moment.wbs with
    | none => simp [slave] at reading
    | some edge =>
      have ack : edge.ack = true := by simpa [slave] using reading
      exact (strobe (lawful.2 edge slave ack)).1

theorem resp_permitted : wb.respIf.Permitted (wb.respMoment moment) := by
  constructor
  · intro writing
    rw [wrData_respMoment, Option.isSome_map, Option.isSome_filter, Option.any_eq_true] at writing
    obtain ⟨edge, -, taken⟩ := writing
    simp only [sRespWrEn, Bool.and_eq_true, Bool.not_eq_true'] at taken
    exact taken.2
  · intro reading
    unfold Moment.rdEn respMoment mRespRdEn at reading
    cases master : moment.wbm with
    | none => simp [master] at reading
    | some edge => simpa [master] using reading

theorem performed_commands (lawful : wb.Lawful moment) :
    (wb.performed moment).map Prod.fst = wb.cmdIf.taken (wb.cmdMoment moment) := by
  unfold performed AsyncFifo.taken cmdMoment Moment.rdEn
  cases slave : moment.wbs with
  | none => rfl
  | some edge =>
    cases ack : edge.ack with
    | false => simp [ack]
    | true => simp [ack, (strobe (lawful.2 edge slave ack)).2]

end Lawful

namespace Linked

variable {wb : AsyncWb} {accepted waiting : List WbCommand}
  {performed : List (WbCommand × WbResponse)} {answered flight : List WbResponse}
  {cmd resp : AsyncFifo.Progress} {moment : WbMoment}

theorem performed_responses (lawful : wb.Lawful moment)
    (linked : wb.Linked accepted waiting performed answered flight cmd resp) :
    ((wb.performed moment).filter fun done => !done.1.we).map Prod.snd =
      (wb.respMoment moment).wrData.toList := by
  rw [wrData_respMoment]
  unfold AsyncWb.performed
  cases slave : moment.wbs with
  | none => rfl
  | some edge =>
    cases ack : edge.ack with
    | false => simp [Option.filter_some, ack, sRespWrEn]
    | true =>
      have asked := lawful.2 edge slave ack
      obtain ⟨shown, command⟩ := strobe asked
      cases kind : wb.cmdIf.rdData.we with
      | false =>
        have room := linked.respIf_full shown kind
        simp [Option.filter_some, ack, sRespWrEn, asked, command, kind, room]
      | true => simp [Option.filter_some, ack, sRespWrEn, command, kind]

theorem answered_taken (lawful : wb.Lawful moment)
    (linked : wb.Linked accepted waiting performed answered flight cmd resp) :
    wb.answered moment = wb.respIf.taken (wb.respMoment moment) := by
  unfold AsyncWb.answered AsyncFifo.taken respMoment Moment.rdEn mRespRdEn
  cases master : moment.wbm with
  | none => rfl
  | some edge =>
    cases shown : wb.respIf.empty with
    | true => cases we : edge.command.we <;> simp [wbmAck, shown, we]
    | false =>
      obtain ⟨strobed, reading⟩ := lawful.1 edge master (linked.due shown).1
      simp [Option.filter_some, wbmAck, shown, strobed, reading]

theorem quiet (linked : wb.Linked accepted waiting performed answered flight cmd resp)
    (idle : wb.pendingRd = false) : wb.respIf.empty = true := by
  by_contra shown
  rw [(linked.due (Bool.eq_false_of_not_eq_true shown)).1] at idle
  cases idle

theorem handles (lawful : wb.Lawful moment)
    (linked : wb.Linked accepted waiting performed answered flight cmd resp) {edge : MasterEdge}
    (master : moment.wbm = some edge) : wb.Handles moment edge := by
  have command := wrData_cmdMoment wb moment
  rw [master] at command
  cases pending : wb.pendingRd with
  | true =>
    obtain ⟨strobed, reading⟩ := lawful.1 edge master pending
    have blocked : wb.mCmdWrEn edge = false := by simp [mCmdWrEn, pending]
    cases shown : wb.respIf.empty with
    | true =>
      apply Handles.waits
      constructor <;> simp [AsyncWb.accepted, AsyncWb.answered, AsyncWb.step, wbmAck, pendingNext,
        Option.filter_some, command, master, blocked, pending, strobed, reading, shown]
    | false =>
      apply Handles.answers pending strobed reading
      constructor <;> simp [AsyncWb.accepted, AsyncWb.answered, AsyncWb.step, wbmAck, pendingNext,
        Option.filter_some, command, master, blocked, pending, strobed, reading, shown]
  | false =>
    have shown := linked.quiet pending
    cases taking : wb.mCmdWrEn edge with
    | true =>
      have strobed := (mCmdWrEn_room taking).1
      cases kind : edge.command.we with
      | true =>
        apply Handles.takesWrite pending strobed kind
        constructor <;> simp [AsyncWb.accepted, AsyncWb.answered, AsyncWb.step, wbmAck, pendingNext,
          Option.filter_some, command, master, taking, pending, strobed, kind]
      | false =>
        apply Handles.takesRead pending strobed kind
        constructor <;> simp [AsyncWb.accepted, AsyncWb.answered, AsyncWb.step, wbmAck, pendingNext,
          Option.filter_some, command, master, taking, pending, strobed, kind, shown]
    | false =>
      apply Handles.waits
      constructor <;> cases kind : edge.command.we <;>
        simp [AsyncWb.accepted, AsyncWb.answered, AsyncWb.step, wbmAck, pendingNext,
          Option.filter_some, command, master, taking, pending, kind, shown]

/-- Without an edge the master's side rests. -/
theorem rests (wb : AsyncWb) (master : moment.wbm = none) :
    wb.accepted moment = [] ∧ wb.answered moment = [] ∧
      (wb.step moment).pendingRd = wb.pendingRd := by
  unfold AsyncWb.accepted AsyncWb.answered AsyncWb.step
  rw [wrData_cmdMoment, master]
  exact ⟨rfl, rfl, rfl⟩

/-- A read is outstanding from the moment it is taken in to the moment it is answered. -/
theorem outstanding_next (lawful : wb.Lawful moment)
    (linked : wb.Linked accepted waiting performed answered flight cmd resp) :
    reads (accepted ++ wb.accepted moment) (accepted ++ wb.accepted moment).length =
      (answered ++ wb.answered moment).length + (wb.step moment).pendingRd.toNat := by
  have outstanding := linked.outstanding
  rw [reads_all, outstanding, List.length_append]
  cases master : moment.wbm with
  | none =>
    obtain ⟨accepted, answered, pending⟩ := rests wb master
    rw [accepted, answered, pending]
    rfl
  | some edge =>
    cases linked.handles lawful master with
    | waits gives => simp [gives.accepted, gives.answered, gives.pending]
    | takesRead idle _ reading gives =>
      simp [gives.accepted, gives.answered, gives.pending, idle, reading]
    | takesWrite idle _ writing gives =>
      simp [gives.accepted, gives.answered, gives.pending, idle, writing]
    | answers pending _ _ gives => simp [gives.accepted, gives.answered, gives.pending, pending]

/-- While a read is outstanding it is the last command that was taken in. -/
theorem last_next (lawful : wb.Lawful moment)
    (linked : wb.Linked accepted waiting performed answered flight cmd resp)
    (pending : (wb.step moment).pendingRd = true) :
    ∃ before read, accepted ++ wb.accepted moment = before ++ [read] ∧ read.we = false := by
  cases master : moment.wbm with
  | none =>
    obtain ⟨none, -, same⟩ := rests wb master
    rw [none, List.append_nil]
    exact linked.last (same ▸ pending)
  | some edge =>
    cases linked.handles lawful master with
    | waits gives =>
      rw [gives.accepted, List.append_nil]
      exact linked.last (gives.pending ▸ pending)
    | takesRead _ _ reading gives =>
      rw [gives.accepted]
      exact ⟨accepted, edge.command, rfl, reading⟩
    | takesWrite _ _ _ gives =>
      rw [gives.pending] at pending
      cases pending
    | answers _ _ _ gives =>
      rw [gives.pending] at pending
      cases pending

/-- The bridge never takes the fourth line of its command FIFO. -/
theorem room (linked : wb.Linked accepted waiting performed answered flight cmd resp)
    (writing : (wb.cmdMoment moment).wrData.isSome = true) : cmd.written < cmd.readAt1 + 3 := by
  rw [wrData_cmdMoment, Option.isSome_map, Option.isSome_filter, Option.any_eq_true] at writing
  obtain ⟨edge, -, taken⟩ := writing
  have count := AsyncFifo.wrCnt_eq (by decide) linked.cmdHolds.shows linked.cmdHolds.ordered
  have spare := linked.spare.room
  have almost := (mCmdWrEn_room taken).2.2
  rw [AsyncFifo.afull, count, beq_eq_false_iff_ne] at almost
  omega

/-- The slave's flops catch the read pointer of the responses no earlier than the write pointer of
the commands, and by the time a command is taken in all answers but one have been given. -/
theorem behind_next {cmd' resp' : AsyncFifo.Progress} (lawful : wb.Lawful moment)
    (linked : wb.Linked accepted waiting performed answered flight cmd resp)
    (cmdMoves : AsyncFifo.Moves (wb.cmdMoment moment) cmd cmd')
    (respMoves : AsyncFifo.Moves (wb.respMoment moment) resp resp') :
    reads (accepted ++ wb.accepted moment) cmd'.writtenAt0 ≤ resp'.readAt0 + 1 ∧
      reads (accepted ++ wb.accepted moment) cmd'.writtenAt1 ≤ resp'.readAt1 + 1 := by
  have ⟨_, _, _, caught, sent, _⟩ := linked.cmdHolds.ordered
  have written := linked.written
  have writtenAt1 := cmdMoves.writtenAt1
  have readAt1 := respMoves.readAt1
  have cmdRises : (wb.cmdMoment moment).rd.isSome = moment.wbs.isSome := Option.isSome_map
  have respRises : (wb.respMoment moment).wr.isSome = moment.wbs.isSome := Option.isSome_map
  rw [cmdRises] at writtenAt1
  rw [respRises] at readAt1
  cases rises : moment.wbs.isSome with
  | false =>
    rw [rises, if_neg Bool.false_ne_true] at writtenAt1 readAt1
    rw [cmdMoves.writtenKept (cmdRises.trans rises), respMoves.readKept (respRises.trans rises),
      writtenAt1, readAt1, reads_append _ (by omega), reads_append _ (by omega)]
    exact ⟨linked.behind0, linked.behind1⟩
  | true =>
    rw [rises, if_pos rfl] at writtenAt1 readAt1
    rw [writtenAt1, readAt1, reads_append _ (show cmd.writtenAt0 ≤ _ by omega)]
    refine ⟨?_, linked.behind0⟩
    have shown := (respMoves.readCaught (respRises.trans rises)).1
    have bound := reads_le (accepted ++ wb.accepted moment) cmd'.writtenAt0
    have outstanding := linked.outstanding
    have taken := linked.taken
    have fresh : (wb.accepted moment).countP (fun command => !command.we) +
        wb.pendingRd.toNat ≤ 1 := by
      cases master : moment.wbm with
      | none =>
        rw [(rests wb master).1]
        simpa using Bool.toNat_le _
      | some edge =>
        cases linked.handles lawful master with
        | waits gives => simpa [gives.accepted] using Bool.toNat_le _
        | takesRead idle _ reading gives => simp [gives.accepted, idle, reading]
        | takesWrite idle _ writing gives => simp [gives.accepted, idle, writing]
        | answers pending _ _ gives => simp [gives.accepted, pending]
    rw [reads_all] at bound
    omega

/-- One moment keeps the bridge in step with its logs. -/
theorem step (lawful : wb.Lawful moment)
    (linked : wb.Linked accepted waiting performed answered flight cmd resp) :
    ∃ waiting' flight' cmd' resp',
      (wb.step moment).Linked (accepted ++ wb.accepted moment) waiting'
        (performed ++ wb.performed moment) (answered ++ wb.answered moment) flight' cmd' resp' := by
  have cmdAllowed := cmd_permitted lawful
  have respAllowed : wb.respIf.Permitted (wb.respMoment moment) := resp_permitted
  obtain ⟨cmd', cmdHolds, cmdMoves⟩ := linked.cmdHolds.step (by decide) cmdAllowed
  obtain ⟨resp', respHolds, respMoves⟩ := linked.respHolds.step (by decide) respAllowed
  have cmdFits := linked.cmdHolds.fits (by decide) cmdAllowed
  have respFits := linked.respHolds.fits (by decide) respAllowed
  have cmdTaken := linked.cmdHolds.taken_eq cmdFits.present
  have respTaken := linked.respHolds.taken_eq respFits.present
  have outstanding := linked.outstanding_next lawful
  have behind := linked.behind_next lawful cmdMoves respMoves
  refine ⟨_, _, cmd', resp', ⟨cmdHolds, respHolds, ?_, ?_, ?_, ?_, ?_, outstanding, ?_, ?_,
    linked.last_next lawful⟩⟩
  · exact cmdMoves.ordered linked.spare linked.room
      fun reading => linked.cmdHolds.present (by decide) (cmdAllowed.2 reading)
  · rw [List.map_append, performed_commands lawful, cmdTaken, List.append_assoc,
      BoundedQueue.Exchange.leaving_next, ← List.append_assoc, ← linked.commands]
    rfl
  · rw [List.filter_append, List.map_append, linked.responses, linked.performed_responses lawful,
      linked.answered_taken lawful, respTaken, List.append_assoc, List.append_assoc,
      BoundedQueue.Exchange.leaving_next]
    rfl
  · rw [cmdMoves.written, linked.written, List.length_append]
    rfl
  · rw [respMoves.read, linked.taken, linked.answered_taken lawful, List.length_append]
    unfold AsyncFifo.taken
    cases (wb.respMoment moment).rdEn <;> rfl
  · exact behind.1
  · exact behind.2

end Linked

section Runs

variable {cmdMem : BitVec 2 → WbCommand} {respMem : BitVec 1 → WbResponse}
  {moments : List WbMoment}

theorem run_linked (obeys : (machine cmdMem respMem).Obeys Lawful moments) :
    let bridge := machine cmdMem respMem
    ∃ waiting flight cmd resp, (bridge.run moments).Linked (bridge.log accepted moments) waiting
      (bridge.log performed moments) (bridge.log answered moments) flight cmd resp := by
  induction moments using List.reverseRecOn with
  | nil =>
    refine ⟨[], [], _, _, AsyncFifo.Holds.reset cmdMem, AsyncFifo.Holds.reset respMem, ?_, rfl, rfl,
      rfl, rfl, rfl, Nat.zero_le _, Nat.zero_le _, fun pending => by cases pending⟩
    constructor <;> simp
  | append_singleton moments moment ih =>
    obtain ⟨before, lawful⟩ := Synchronous.obeys_snoc.mp obeys
    obtain ⟨_, _, _, _, linked⟩ := ih before
    dsimp only
    rw [Synchronous.run_snoc, Synchronous.log_snoc, Synchronous.log_snoc, Synchronous.log_snoc]
    exact linked.step lawful

/-- Accesses cross to the other clock and back: the slave carries out the accepted commands, each
once and in order, never more than three behind; every accepted read but at most one has got the
very response that the slave gave to it; and by then everything accepted before it is carried out
as well. -/
theorem async_wb_transactions (obeys : (machine cmdMem respMem).Obeys Lawful moments) :
    let bridge := machine cmdMem respMem
    let accepted := bridge.log accepted moments
    let performed := bridge.log performed moments
    let answered := bridge.log answered moments
    performed.map Prod.fst <+: accepted ∧ accepted.length ≤ performed.length + 3 ∧
      answered <+: (performed.filter fun done => !done.1.we).map Prod.snd ∧
      accepted.countP (fun command => !command.we) =
        answered.length + (bridge.run moments).pendingRd.toNat ∧
      ((bridge.run moments).respIf.empty = false → performed.map Prod.fst = accepted) := by
  intro bridge accepted performed answered
  obtain ⟨waiting, flight, cmd, resp, linked⟩ := run_linked obeys
  refine ⟨⟨waiting, linked.commands.symm⟩, ?_, ⟨flight, linked.responses.symm⟩, ?_, fun shown => ?_⟩
  · have ⟨_, shown, reading, caught, sent, room⟩ := linked.spare
    have seen := linked.spare.readSeen
    have written : cmd.written = accepted.length := linked.written
    have read : cmd.read = performed.length := linked.cmd_read
    omega
  · have outstanding := linked.outstanding
    rw [reads, List.take_length] at outstanding
    exact outstanding
  · have commands := linked.commands
    rw [linked.settled shown, List.append_nil] at commands
    exact commands.symm

end Runs

/-- A write and, behind it, a read of the same place. The slave takes its time over both, and once
its flop catches a pointer that moves. -/
def roundTrip : List WbMoment :=
  let write : MasterEdge := ⟨true, ⟨0x40, true, 7, 0b1111⟩⟩
  let read : MasterEdge := ⟨true, ⟨0x40, false, 0, 0b1111⟩⟩
  let resting : SlaveEdge := ⟨false, ⟨false, 0⟩⟩
  [⟨some write, none, 0, 0, 0, 0⟩, ⟨some read, some resting, 0, 0b111, 0, 0⟩,
    ⟨none, some resting, 0, 0, 0, 0⟩, ⟨some read, some ⟨true, ⟨false, 0⟩⟩, 0b001, 0, 0, 0⟩,
    ⟨none, some resting, 0, 0, 0, 0⟩, ⟨none, some ⟨true, ⟨false, 7⟩⟩, 0, 0, 0, 0⟩,
    ⟨some read, none, 0, 0, 0, 0⟩, ⟨some read, none, 0, 0, 0, 0⟩, ⟨some read, none, 0, 0, 0, 0⟩]

theorem async_wb_transactions_roundTrip :
    let bridge := machine (fun _ => ⟨0, false, 0, 0⟩) (fun _ => ⟨false, 0⟩)
    bridge.Obeys Lawful roundTrip ∧
      bridge.log answered roundTrip = [⟨false, 7⟩] ∧
      (bridge.log accepted roundTrip).length ≤ (bridge.log performed roundTrip).length + 3 := by
  intro bridge
  have obeys : bridge.Obeys Lawful roundTrip := by decide +kernel
  exact ⟨obeys, by decide +kernel, (async_wb_transactions obeys).2.1⟩

end AsyncWb

end GreenRio
