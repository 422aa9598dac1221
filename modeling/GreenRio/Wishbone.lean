set_option autoImplicit false

namespace Wishbone

/-- The lines that accompany a request. -/
structure Lines where
  addr : BitVec 32
  wdata : BitVec 32
  we : Bool

/-- What a slave sees of the bus. -/
structure Port extends Lines where
  cyc : Bool
  stb : Bool

variable {τ : Type}

/-- What a master asks for: the transaction it is waiting for, or else the one it starts. -/
def request (outstanding start : Option τ) : Option τ := outstanding.or start

/-- A master holds its request until it is acknowledged. -/
def outstandingNext (outstanding start : Option τ) (ack : Bool) : Option τ :=
  if ack then none else request outstanding start

/-- What a master drives; its lines are of no account in an idle cycle. -/
def drive (lines : τ → Lines) (asked : Option τ) (idle : Lines) : Port where
  toLines := asked.elim idle lines
  cyc := asked.isSome
  stb := asked.isSome

@[simp] theorem request_some (transaction : τ) (start : Option τ) :
    request (some transaction) start = some transaction := rfl

@[simp] theorem request_none (start : Option τ) : request none start = start := rfl

@[simp] theorem outstandingNext_ack (outstanding start : Option τ) :
    outstandingNext outstanding start true = none := rfl

@[simp] theorem outstandingNext_wait (outstanding start : Option τ) :
    outstandingNext outstanding start false = request outstanding start := rfl

@[simp] theorem drive_none (lines : τ → Lines) (idle : Lines) :
    drive lines none idle = ⟨idle, false, false⟩ := rfl

@[simp] theorem drive_some (lines : τ → Lines) (transaction : τ) (idle : Lines) :
    drive lines (some transaction) idle = ⟨lines transaction, true, true⟩ := rfl

end Wishbone
