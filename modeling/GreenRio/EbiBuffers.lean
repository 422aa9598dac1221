import GreenRio.Ebi

set_option autoImplicit false

namespace GreenRio

open PartSelect

/-- Start and opcode, the first two beats of a buffer that can be sent. -/
def frameHead (opcode : BitVec 4) : BitVec 32 := (opcode.setWidth 16 : Beat) ++ (0 : Beat)

theorem requestWord_head (field : Beat) (address : BitVec 32) (opcode : BitVec 4) :
    (requestWord field address opcode).extractLsb' 0 32 = frameHead opcode := by
  apply BitVec.eq_of_getLsbD_eq
  intro index bound
  rw [BitVec.getLsbD_extractLsb', requestWord, frameHead]
  simp only [BitVec.getLsbD_append, bound, decide_true, Bool.true_and, Nat.zero_add]
  by_cases low : index < 16
  · simp [low]
  · have high : index - 16 < 16 := by omega
    simp [low, high]

/-- Data goes behind the head of a buffer. -/
theorem extract_put_behind {n w low : Nat} (vector : BitVec n) (part : BitVec w)
    (behind : 32 ≤ low) : (put vector low part).extractLsb' 0 32 = vector.extractLsb' 0 32 :=
  extract_put_of_disjoint vector low part (.inl (by omega))

theorem setWidth_head {n m : Nat} (vector : BitVec n) (wide : n ≤ m) :
    (vector.setWidth m).extractLsb' 0 32 = vector.extractLsb' 0 32 := by
  apply BitVec.eq_of_getLsbD_eq
  intro index bound
  simp only [BitVec.getLsbD_extractLsb', BitVec.getLsbD_setWidth, Nat.zero_add, bound,
    decide_true, Bool.true_and]
  by_cases inside : index < m
  · simp [inside]
  · simp [BitVec.getLsbD_of_ge vector index (by omega)]

namespace InnerEbi

/-- What the buffers of the inner side hold while the transfer machine works on them. -/
structure Loaded (ebi : InnerEbi) : Prop where
  reading : ebi.trxCurrentState = .sendAr → ebi.read.valid = true
  readHead : ebi.read.valid = true → ebi.read.buffer.extractLsb' 0 32 = frameHead hostDr
  filling : ebi.write.wready = true →
    ebi.write.wdataExist = true ∧ ebi.write.wBufferValid = false
  writing : ebi.trxCurrentState = .sendW ∨ ebi.trxCurrentState = .waitWack ∨
    ebi.trxCurrentState = .checkWack ∧ ebi.trxPreState = .waitWack →
    ebi.write.wBufferValid = true
  writeHead : ebi.write.wBufferValid = true ∨ ebi.write.wready = true →
    ebi.write.wBuffer.extractLsb' 0 32 =
      frameHead (if ebi.write.wdataExist then hostDw1 else hostDw2)
  counting : ebi.trxCurrentState ≠ .respR → ebi.readCounter = 0
  answering : ebi.trxCurrentState = .sendSnpResp →
    ebi.trxPreState = .waitSnpResp ∧ ebi.snoop.snpBufferValid = true ∨
      ebi.trxPreState = .sendSnpResp
  snoopHead : ebi.snoop.snpBufferValid = true →
    ebi.snoop.snpBuffer.extractLsb' 0 32 =
      frameHead (if ebi.snoop.snpdataExist then slaveSnpResp1 else slaveSnpResp2)
  answerHead : ebi.trxCurrentState = .sendSnpResp →
    ebi.snoop.snpBuffer.extractLsb' 0 32 = frameHead slaveSnpResp1 ∨
      ebi.snoop.snpBuffer.extractLsb' 0 32 = frameHead slaveSnpResp2

/-- Both edges of a cycle. -/
def cycle (ebi : InnerEbi) (input : InnerInput) (busSwitchI : Bool) (ebiI : Beat) : InnerEbi :=
  (ebi.negedge input).posedge input busSwitchI ebiI

theorem reset_loaded : Loaded reset := by
  constructor <;> simp [reset]

section Cycle

variable {ebi : InnerEbi} {input : InnerInput} {busSwitchI : Bool} {ebiI : Beat}

/-- The transitions of the transfer machine, with what the later proofs need of their guards. -/
inductive Move (ebi : InnerEbi) (input : InnerInput) : InnerTrxState → InnerTrxState → Prop
  | stay (state : InnerTrxState) : Move ebi input state state
  | sendAr (owns : ebi.bus.currentBusOccupy = true) (valid : ebi.read.valid = true) :
    Move ebi input .idle .sendAr
  | waitR : Move ebi input .sendAr .waitR
  | recvR : Move ebi input .waitR .recvR
  | respR : Move ebi input .recvR .respR
  | readDone (done : ebi.rRespDone input = true) : Move ebi input .respR .idle
  | sendW (owns : ebi.bus.currentBusOccupy = true) (valid : ebi.write.wBufferValid = true) :
    Move ebi input .idle .sendW
  | waitWack : Move ebi input .sendW .waitWack
  | checkWack : Move ebi input .waitWack .checkWack
  | writeDone : Move ebi input .checkWack .idle
  | recvSnp : Move ebi input .idle .recvSnp
  | waitSnpReqRead : Move ebi input .recvSnp .waitSnpReqRead
  | waitSnpResp : Move ebi input .waitSnpReqRead .waitSnpResp
  | sendSnpResp (valid : ebi.snoop.snpBufferValid = true) :
    Move ebi input .waitSnpResp .sendSnpResp
  | snoopDone : Move ebi input .sendSnpResp .idle

theorem trxNextState_moves (ebi : InnerEbi) (input : InnerInput) :
    Move ebi input ebi.trxCurrentState (ebi.trxNextState input) := by
  rw [trxNextState]
  cases owns : ebi.bus.currentBusOccupy <;> cases state : ebi.trxCurrentState
  all_goals simp only [Bool.false_eq_true, if_true, if_false]
  all_goals repeat' split
  all_goals constructor
  all_goals assumption

theorem readNext_head (loaded : ebi.Loaded) (valid : (ebi.readNext input).valid = true) :
    (ebi.readNext input).buffer.extractLsb' 0 32 = frameHead hostDr := by
  revert valid
  rw [readNext]
  split
  · intro _
    exact requestWord_head _ _ _
  · split
    · intro valid
      cases valid
    · exact loaded.readHead

/-- What a cycle does to the write buffer. -/
theorem writeNext_cases (ebi : InnerEbi) (input : InnerInput) :
    (ebi.awready = true ∧ input.awvalid = true ∧
      ebi.writeNext input = ⟨(requestWord (input.awmesi.setWidth 16) input.awaddr hostDw1).setWidth 592,
        ebi.write.wBufferValid, true, true, 0⟩) ∨
    (ebi.awready = true ∧ input.awvalid = true ∧
      ebi.writeNext input = { ebi.write with
        wBuffer := (requestWord (input.awmesi.setWidth 16) input.awaddr hostDw2).setWidth 592
        wBufferValid := true
        wdataExist := false }) ∨
    (ebi.write.wready = true ∧
      ebi.writeNext input = { ebi.write with
        wBuffer := put ebi.write.wBuffer (16 * 3 + 32 + ebi.write.wBufFillCount * 64) input.wdata
        wBufFillCount := (ebi.write.wBufFillCount + 1) % 32
        wready := !(ebi.write.wBufFillCount == 512 / 64 - 1)
        wBufferValid := ebi.write.wBufferValid || ebi.write.wBufFillCount == 512 / 64 - 1 }) ∨
    (ebi.trxPreState = .waitWack ∧ ebi.trxCurrentState = .checkWack ∧
      ebi.writeNext input = { ebi.write with wBufferValid := false, wdataExist := false }) ∨
    (¬(ebi.awready = true ∧ input.awvalid = true) ∧ ebi.writeNext input = ebi.write) := by
  rw [writeNext]
  split
  · next accepted =>
    rw [Bool.and_eq_true] at accepted
    split
    · exact .inl ⟨accepted.1, accepted.2, rfl⟩
    · exact .inr (.inl ⟨accepted.1, accepted.2, rfl⟩)
  · next refused =>
    rw [Bool.and_eq_true] at refused
    split
    · next taken =>
      rw [Bool.and_eq_true] at taken
      exact .inr (.inr (.inl ⟨taken.1, rfl⟩))
    · split
      · next acknowledged =>
        simp only [Bool.and_eq_true, beq_iff_eq] at acknowledged
        exact .inr (.inr (.inr (.inl ⟨acknowledged.1, acknowledged.2, rfl⟩)))
      · exact .inr (.inr (.inr (.inr ⟨refused, rfl⟩)))

theorem awready_empty (ready : ebi.awready = true) :
    ebi.write.wBufferValid = false ∧ ebi.bus.currentBusOccupy = true ∧
      ebi.write.wdataExist = false := by
  simpa [awready, and_assoc] using ready

theorem writeNext_filling (loaded : ebi.Loaded) (ready : (ebi.writeNext input).wready = true) :
    (ebi.writeNext input).wdataExist = true ∧ (ebi.writeNext input).wBufferValid = false := by
  rcases writeNext_cases ebi input with ⟨empty, -, same⟩ | ⟨empty, -, same⟩ | ⟨filling, same⟩ |
    ⟨before, now, same⟩ | ⟨-, same⟩ <;> rw [same] at ready ⊢
  · exact ⟨rfl, (awready_empty empty).1⟩
  · have present := (loaded.filling ready).1
    rw [(awready_empty empty).2.2] at present
    cases present
  · obtain ⟨present, open_⟩ := loaded.filling filling
    simp only [Bool.not_eq_true'] at ready
    exact ⟨present, by simp [open_, ready]⟩
  · have full := loaded.writing (.inr (.inr ⟨now, before⟩))
    rw [(loaded.filling ready).2] at full
    cases full
  · exact loaded.filling ready

theorem writeNext_head (loaded : ebi.Loaded)
    (used : (ebi.writeNext input).wBufferValid = true ∨ (ebi.writeNext input).wready = true) :
    (ebi.writeNext input).wBuffer.extractLsb' 0 32 =
      frameHead (if (ebi.writeNext input).wdataExist then hostDw1 else hostDw2) := by
  rcases writeNext_cases ebi input with ⟨-, -, same⟩ | ⟨-, -, same⟩ | ⟨filling, same⟩ |
    ⟨before, now, same⟩ | ⟨-, same⟩ <;> rw [same] at used ⊢
  · simp [setWidth_head, requestWord_head]
  · simp [setWidth_head, requestWord_head]
  · exact (extract_put_behind _ _ (by omega)).trans (loaded.writeHead (.inr filling))
  · have full := loaded.writing (.inr (.inr ⟨now, before⟩))
    have ready : ebi.write.wready = true := by simpa using used
    rw [(loaded.filling ready).2] at full
    cases full
  · exact loaded.writeHead used

/-- A buffer that is being sent, or about to be, stays as it is. -/
theorem writeNext_writing (loaded : ebi.Loaded) (valid : ebi.write.wBufferValid = true)
    (unfinished : ebi.trxCurrentState ≠ .checkWack) : ebi.writeNext input = ebi.write := by
  rcases writeNext_cases ebi input with ⟨empty, -, -⟩ | ⟨empty, -, -⟩ | ⟨filling, -⟩ |
    ⟨-, now, -⟩ | ⟨-, same⟩
  · rw [(awready_empty empty).1] at valid
    cases valid
  · rw [(awready_empty empty).1] at valid
    cases valid
  · rw [(loaded.filling filling).2] at valid
    cases valid
  · exact absurd now unfinished
  · exact same

/-- What a cycle does to the snoop buffer. -/
theorem snoopNext_cases (ebi : InnerEbi) (input : InnerInput) :
    (ebi.trxCurrentState = .waitSnpResp ∧
      ebi.snoopNext input = { ebi.snoop with
        snpBuffer := (frameHead slaveSnpResp2).setWidth 544
        snpBufferValid := true
        snpdataExist := false }) ∨
    (ebi.trxCurrentState = .waitSnpResp ∧
      ebi.snoopNext input =
        { snpBufferValid := ebi.snoop.snpBufferValid || ebi.snoop.snpBufFillCount == 512 / 64 - 2
          snpBuffer :=
            put (put ebi.snoop.snpBuffer 0 (frameHead slaveSnpResp1))
              (2 * 16 + ebi.snoop.snpBufFillCount * 64) input.snRespDat
          snpdataExist := true
          snpBufFillCount := ebi.snoop.snpBufFillCount + 1 }) ∨
    (ebi.trxPreState = .waitSnpResp ∧ ebi.trxCurrentState = .sendSnpResp ∧
      ebi.snoopNext input =
        { ebi.snoop with snpBufFillCount := 0, snpBufferValid := false, snpdataExist := false }) ∨
    ebi.snoopNext input = ebi.snoop := by
  rw [snoopNext]
  split
  · next answered =>
    simp only [snRespReady, Bool.and_eq_true, beq_iff_eq] at answered
    split
    · exact .inl ⟨answered.1.1, rfl⟩
    · by_cases room : ebi.snoop.snpBufFillCount < 512 / 64
      · refine .inr (.inl ⟨answered.1.1, ?_⟩)
        simp only [room, if_true, decide_true, Bool.or_true, frameHead]
      · have late : (ebi.snoop.snpBufFillCount == 512 / 64 - 2) = false := by
          rw [beq_eq_false_iff_ne]
          omega
        refine .inr (.inr (.inr ?_))
        simp only [room, if_false, decide_false, Bool.or_false, late]
  · split
    · next sent =>
      simp only [Bool.and_eq_true, beq_iff_eq] at sent
      exact .inr (.inr (.inl ⟨sent.1, sent.2, rfl⟩))
    · exact .inr (.inr (.inr rfl))

theorem snoopNext_head (loaded : ebi.Loaded)
    (valid : (ebi.snoopNext input).snpBufferValid = true) :
    (ebi.snoopNext input).snpBuffer.extractLsb' 0 32 =
      frameHead (if (ebi.snoopNext input).snpdataExist then slaveSnpResp1 else slaveSnpResp2) := by
  rcases snoopNext_cases ebi input with ⟨-, same⟩ | ⟨-, same⟩ | ⟨-, -, same⟩ | same <;>
    rw [same] at valid ⊢
  · simp [setWidth_head]
  · exact (extract_put_behind _ _ (by omega)).trans (extract_put _ 0 _ (by omega))
  · cases valid
  · exact loaded.snoopHead valid

theorem snoopNext_sending (ebi : InnerEbi) (input : InnerInput)
    (sending : ebi.trxCurrentState = .sendSnpResp) :
    (ebi.snoopNext input).snpBuffer = ebi.snoop.snpBuffer := by
  rcases snoopNext_cases ebi input with ⟨waits, -⟩ | ⟨waits, -⟩ | ⟨-, -, same⟩ | same
  · rw [sending] at waits
    cases waits
  · rw [sending] at waits
    cases waits
  · rw [same]
  · rw [same]

theorem snoopNext_waiting (waits : ebi.trxCurrentState = .waitSnpResp)
    (valid : ebi.snoop.snpBufferValid = true) : (ebi.snoopNext input).snpBufferValid = true := by
  rcases snoopNext_cases ebi input with ⟨-, same⟩ | ⟨-, same⟩ | ⟨-, sends, -⟩ | same
  · rw [same]
  · rw [same, valid]
    rfl
  · rw [waits] at sends
    cases sends
  · rw [same, valid]

theorem readNext_sending (loaded : ebi.Loaded) (sending : ebi.trxCurrentState = .sendAr) :
    ebi.readNext input = ebi.read := by
  have valid := loaded.reading sending
  simp [readNext, arready, valid, rRespDone, rvalid, sending]

theorem readNext_idle (valid : ebi.read.valid = true) (rests : ebi.trxCurrentState = .idle) :
    ebi.readNext input = ebi.read := by
  simp [readNext, arready, valid, rRespDone, rvalid, rests]

theorem readCounterNext_of_not_resp (loaded : ebi.Loaded) (other : ebi.trxCurrentState ≠ .respR) :
    ebi.readCounterNext input = 0 := by
  simp [readCounterNext, rRespDone, rvalid, other, loaded.counting other]

theorem readCounterNext_of_done (done : ebi.rRespDone input = true) :
    ebi.readCounterNext input = 0 := by
  simp [readCounterNext, done]

theorem negedge_loaded (loaded : ebi.Loaded) : (ebi.negedge input).Loaded :=
  ⟨loaded.reading, loaded.readHead, loaded.filling, loaded.writing, loaded.writeHead,
    loaded.counting, loaded.answering, loaded.snoopHead, loaded.answerHead⟩

theorem posedge_loaded (loaded : ebi.Loaded) :
    (ebi.posedge input busSwitchI ebiI).Loaded := by
  have move := trxNextState_moves ebi input
  refine ⟨?_, readNext_head loaded, writeNext_filling loaded, ?_, writeNext_head loaded, ?_, ?_,
    snoopNext_head loaded, ?_⟩
  · intro sends
    change ebi.trxNextState input = .sendAr at sends
    change (ebi.readNext input).valid = true
    rw [sends] at move
    generalize state : ebi.trxCurrentState = current at move
    cases move with
    | stay => rw [readNext_sending loaded state, loaded.reading state]
    | sendAr owns valid => rw [readNext_idle valid state, valid]
  · intro writes
    change ebi.trxNextState input = .sendW ∨ ebi.trxNextState input = .waitWack ∨
      ebi.trxNextState input = .checkWack ∧ ebi.trxCurrentState = .waitWack at writes
    change (ebi.writeNext input).wBufferValid = true
    have before : ebi.write.wBufferValid = true ∧ ebi.trxCurrentState ≠ .checkWack := by
      generalize state : ebi.trxCurrentState = current at move writes
      rcases writes with next | next | ⟨-, waits⟩
      · rw [next] at move
        cases move with
        | stay => exact ⟨loaded.writing (.inl state), by decide⟩
        | sendW owns valid => exact ⟨valid, by decide⟩
      · rw [next] at move
        cases move with
        | stay => exact ⟨loaded.writing (.inr (.inl state)), by decide⟩
        | waitWack => exact ⟨loaded.writing (.inl state), by decide⟩
      · subst waits
        exact ⟨loaded.writing (.inr (.inl state)), by decide⟩
    rw [writeNext_writing loaded before.1 before.2]
    exact before.1
  · intro other
    change ebi.trxNextState input ≠ .respR at other
    change ebi.readCounterNext input = 0
    by_cases responds : ebi.trxCurrentState = .respR
    · rw [responds] at move
      generalize ebi.trxNextState input = next at move other
      cases move with
      | stay => exact absurd rfl other
      | readDone done => exact readCounterNext_of_done done
    · exact readCounterNext_of_not_resp loaded responds
  · intro sends
    change ebi.trxNextState input = .sendSnpResp at sends
    change ebi.trxCurrentState = .waitSnpResp ∧ (ebi.snoopNext input).snpBufferValid = true ∨
      ebi.trxCurrentState = .sendSnpResp
    rw [sends] at move
    generalize state : ebi.trxCurrentState = current at move
    cases move with
    | stay => exact .inr rfl
    | sendSnpResp valid =>
      exact .inl ⟨rfl, snoopNext_waiting state valid⟩
  · intro sends
    change ebi.trxNextState input = .sendSnpResp at sends
    change (ebi.snoopNext input).snpBuffer.extractLsb' 0 32 = _ ∨
      (ebi.snoopNext input).snpBuffer.extractLsb' 0 32 = _
    rw [sends] at move
    generalize state : ebi.trxCurrentState = current at move
    cases move with
    | stay =>
      rw [snoopNext_sending ebi input state]
      exact loaded.answerHead state
    | sendSnpResp valid =>
      rw [snoopNext_head loaded (snoopNext_waiting state valid)]
      cases (ebi.snoopNext input).snpdataExist
      · exact .inr rfl
      · exact .inl rfl

end Cycle

end InnerEbi

namespace OuterEbi

/-- What the buffers of the outer side hold while the transfer machine works on them. -/
structure Loaded (ebi : OuterEbi) : Prop where
  readHead : ebi.read.rBufferValid = true ∨ ebi.trxCurrentState = .rResp →
    ebi.read.rBuffer.extractLsb' 0 32 = frameHead slaveRdResp
  asking : ebi.trxCurrentState = .sendSnpReq → ebi.snoop.valid = true
  snoopHead : ebi.snoop.valid = true → ebi.snoop.buffer.extractLsb' 0 32 = frameHead hostSnpReq

/-- Both edges of a cycle. -/
def cycle (ebi : OuterEbi) (input : OuterInput) (busSwitchI : Bool) (ebiI : Beat) : OuterEbi :=
  (ebi.negedge input).posedge input busSwitchI ebiI

theorem reset_loaded : Loaded reset := by
  constructor <;> simp [reset]

section Cycle

variable {ebi : OuterEbi} {input : OuterInput} {busSwitchI : Bool} {ebiI : Beat}

/-- The transitions of the transfer machine, with what the later proofs need of their guards. -/
inductive Move (ebi : OuterEbi) (input : OuterInput) : OuterTrxState → OuterTrxState → Prop
  | stay (state : OuterTrxState) : Move ebi input state state
  | sendSnpReq (owns : ebi.bus.currentBusOccupy = true) (valid : ebi.snoop.valid = true) :
    Move ebi input .idle .sendSnpReq
  | waitSnpResp (owns : ebi.bus.currentBusOccupy = true) : Move ebi input .sendSnpReq .waitSnpResp
  | recvSnpResp (owns : ebi.bus.currentBusOccupy = true) : Move ebi input .waitSnpResp .recvSnpResp
  | readSnpResp (owns : ebi.bus.currentBusOccupy = true) : Move ebi input .recvSnpResp .readSnpResp
  | snoopDone : Move ebi input .readSnpResp .idle
  | recvWr : Move ebi input .idle .recvWr
  | checkOpcode : Move ebi input .recvWr .checkOpcode
  | forwardRreq : Move ebi input .checkOpcode .forwardRreq
  | waitRContent (accepted : (input.arready && ebi.arvalid) = true) :
    Move ebi input .forwardRreq .waitRContent
  | rResp (valid : ebi.read.rBufferValid = true) : Move ebi input .waitRContent .rResp
  | readDone : Move ebi input .rResp .idle
  | forwardWreq : Move ebi input .checkOpcode .forwardWreq
  | forwardWContent : Move ebi input .forwardWreq .forwardWContent
  | writeDone : Move ebi input .forwardWreq .respAck
  | contentDone : Move ebi input .forwardWContent .respAck
  | ackDone : Move ebi input .respAck .idle

theorem trxNextState_moves (ebi : OuterEbi) (input : OuterInput) :
    Move ebi input ebi.trxCurrentState (ebi.trxNextState input) := by
  rw [trxNextState]
  cases owns : ebi.bus.currentBusOccupy <;> cases state : ebi.trxCurrentState
  all_goals simp only [Bool.false_eq_true, if_true, if_false]
  all_goals repeat' split
  all_goals constructor
  all_goals assumption

/-- What a cycle does to the read buffer. -/
theorem readNext_cases (ebi : OuterEbi) (input : OuterInput) :
    (ebi.trxCurrentState = .waitRContent ∧ ebi.bus.currentBusOccupy = false ∧
      input.rvalid = true ∧ ebi.read.rBufFillCount < 8 ∧
      ebi.readNext input =
        { rBufferValid := ebi.read.rBufferValid || ebi.read.rBufFillCount == 6
          rBuffer :=
            put (put (put ebi.read.rBuffer 0 (frameHead slaveRdResp))
              (2 * 16 + 512) (input.mesiSta.setWidth 16 : Beat))
              (2 * 16 + ebi.read.rBufFillCount * 64) input.rdata
          rBufFillCount := ebi.read.rBufFillCount + 1 }) ∨
    (ebi.trxPreState = .waitRContent ∧ ebi.trxCurrentState = .rResp ∧
      ebi.readNext input = { ebi.read with rBufferValid := false }) ∨
    (¬(ebi.rready = true ∧ input.rvalid = true ∧ ebi.read.rBufFillCount < 8) ∧
      ebi.readNext input = ebi.read) := by
  rw [readNext]
  split
  · next accepted =>
    rw [Bool.and_eq_true] at accepted
    have ready := accepted.2
    simp only [rready, Bool.and_eq_true, beq_iff_eq, Bool.not_eq_true'] at ready
    by_cases room : ebi.read.rBufFillCount < 512 / 64
    · refine .inl ⟨ready.1, ready.2, accepted.1, room, ?_⟩
      simp only [room, if_true]
      rfl
    · have late : (ebi.read.rBufFillCount == 512 / 64 - 2) = false := by
        rw [beq_eq_false_iff_ne]
        omega
      refine .inr (.inr ⟨fun taken => room taken.2.2, ?_⟩)
      simp only [room, if_false, late, Bool.or_false]
  · next refused =>
    have untaken : ¬(ebi.rready = true ∧ input.rvalid = true ∧ ebi.read.rBufFillCount < 8) := by
      intro taken
      exact refused (by rw [taken.1, taken.2.1]; rfl)
    split
    · next sends =>
      simp only [Bool.and_eq_true, beq_iff_eq] at sends
      exact .inr (.inl ⟨sends.1, sends.2, rfl⟩)
    · exact .inr (.inr ⟨untaken, rfl⟩)

theorem readNext_head (loaded : ebi.Loaded)
    (used : (ebi.readNext input).rBufferValid = true ∨ ebi.trxNextState input = .rResp) :
    (ebi.readNext input).rBuffer.extractLsb' 0 32 = frameHead slaveRdResp := by
  rcases readNext_cases ebi input with ⟨-, -, -, -, same⟩ | ⟨-, responds, same⟩ | ⟨-, same⟩
  · rw [same]
    exact (extract_put_behind _ _ (by omega)).trans
      ((extract_put_behind _ _ (by omega)).trans (extract_put _ 0 _ (by omega)))
  · rw [same]
    exact loaded.readHead (.inr responds)
  · rw [same] at used ⊢
    apply loaded.readHead
    rcases used with valid | next
    · exact .inl valid
    · have move := trxNextState_moves ebi input
      rw [next] at move
      generalize ebi.trxCurrentState = current at move
      cases move with
      | stay => exact .inr rfl
      | rResp valid => exact .inl valid

theorem snoopNext_sending (sending : ebi.trxCurrentState = .sendSnpReq) :
    ebi.snoopNext input = ebi.snoop := by
  simp [snoopNext, snReqReady, sending]

theorem snoopNext_idle (valid : ebi.snoop.valid = true) (rests : ebi.trxCurrentState = .idle) :
    (ebi.snoopNext input).valid = true := by
  rw [snoopNext]
  split
  · rfl
  · simp [rests, valid]

theorem snoopNext_head (loaded : ebi.Loaded) (valid : (ebi.snoopNext input).valid = true) :
    (ebi.snoopNext input).buffer.extractLsb' 0 32 = frameHead hostSnpReq := by
  revert valid
  rw [snoopNext]
  split
  · intro _
    exact requestWord_head _ _ _
  · split
    · intro valid
      cases valid
    · exact loaded.snoopHead

theorem negedge_loaded (loaded : ebi.Loaded) : (ebi.negedge input).Loaded :=
  ⟨loaded.readHead, loaded.asking, loaded.snoopHead⟩

theorem posedge_loaded (loaded : ebi.Loaded) : (ebi.posedge input busSwitchI ebiI).Loaded := by
  refine ⟨readNext_head loaded, ?_, snoopNext_head loaded⟩
  intro sends
  change ebi.trxNextState input = .sendSnpReq at sends
  change (ebi.snoopNext input).valid = true
  have move := trxNextState_moves ebi input
  rw [sends] at move
  generalize state : ebi.trxCurrentState = current at move
  cases move with
  | stay => rw [snoopNext_sending state, loaded.asking state]
  | sendSnpReq owns valid => rw [snoopNext_idle valid state]

end Cycle

end OuterEbi

namespace Ebi

theorem step_eq (ebi : Ebi) (input : EbiInput) :
    ebi.step input =
      ⟨ebi.inner.cycle input.inner ebi.outer.bus.busSwitchO (ebi.outer.negedge input.outer).ebiO,
        ebi.outer.cycle input.outer ebi.inner.bus.busSwitchO (ebi.inner.negedge input.inner).ebiO⟩ :=
  rfl

/-- Both sides are loaded in every state reached. -/
theorem run_loaded (inputs : List EbiInput) :
    (machine.run inputs).inner.Loaded ∧ (machine.run inputs).outer.Loaded := by
  apply machine.run_invariant (fun ebi => ebi.inner.Loaded ∧ ebi.outer.Loaded)
  · exact ⟨InnerEbi.reset_loaded, OuterEbi.reset_loaded⟩
  · intro ebi input loaded
    exact ⟨InnerEbi.posedge_loaded (InnerEbi.negedge_loaded loaded.1),
      OuterEbi.posedge_loaded (OuterEbi.negedge_loaded loaded.2)⟩

end Ebi

end GreenRio
