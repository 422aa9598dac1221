import GreenRio.Ebi

set_option autoImplicit false

namespace GreenRio

/-- Who owns the bus, and how far the other side has come in taking it over. -/
inductive Handover where
  | innerOwns | outerAsks | outerListens | innerReleases
  | outerOwns | innerAsks | innerListens | outerReleases
  deriving DecidableEq

namespace Handover

def owner : BusOccupy := ⟨true, false, false, true, false⟩
def released : BusOccupy := ⟨false, false, false, false, false⟩
def asks : BusOccupy := ⟨false, true, true, false, false⟩
def listens : BusOccupy := ⟨false, true, true, true, false⟩
def releases : BusOccupy := ⟨true, false, true, false, true⟩

/-- The registers of the inner and the outer side. -/
def registers : Handover → BusOccupy × BusOccupy
  | innerOwns => (owner, released)
  | outerAsks => (owner, asks)
  | outerListens => (owner, listens)
  | innerReleases => (releases, listens)
  | outerOwns => (released, owner)
  | innerAsks => (asks, owner)
  | innerListens => (listens, owner)
  | outerReleases => (listens, releases)

/-- The takeover as a protocol: ask, wait until the owner is at rest, let it release. -/
def next (innerLets outerLets innerRequest outerRequest : Bool) : Handover → Handover
  | innerOwns => if outerRequest then outerAsks else innerOwns
  | outerAsks | outerListens => if innerLets then innerReleases else outerListens
  | innerReleases => outerOwns
  | outerOwns => if innerRequest then innerAsks else outerOwns
  | innerAsks | innerListens => if outerLets then outerReleases else innerListens
  | outerReleases => innerOwns

/-- The registers of the two sides, each on what the other one drives, follow the protocol. -/
theorem step_registers (handover : Handover)
    (innerIdle innerRequest outerIdle outerRequest : Bool) :
    (handover.registers.1.step handover.registers.2.busSwitchO innerIdle innerRequest,
      handover.registers.2.step handover.registers.1.busSwitchO outerIdle outerRequest) =
      (handover.next (innerIdle && !innerRequest) (outerIdle && !outerRequest) innerRequest
        outerRequest).registers := by
  cases handover <;> cases innerIdle <;> cases innerRequest <;> cases outerIdle <;>
    cases outerRequest <;> rfl

/-- The protocol has one owner at a time. -/
theorem exclusive (handover : Handover) :
    ¬(handover.registers.1.currentBusOccupy = true ∧
      handover.registers.2.currentBusOccupy = true) := by
  cases handover <;> decide

end Handover

namespace Ebi

def buses (ebi : Ebi) : BusOccupy × BusOccupy := (ebi.inner.bus, ebi.outer.bus)

/-- A cycle of the two sides is one of the protocol. -/
theorem step_handover {ebi : Ebi} (input : EbiInput)
    (reached : ∃ handover : Handover, ebi.buses = handover.registers) :
    ∃ handover : Handover, (ebi.step input).buses = handover.registers := by
  obtain ⟨handover, same⟩ := reached
  have inner : ebi.inner.bus = handover.registers.1 := congrArg Prod.fst same
  have outer : ebi.outer.bus = handover.registers.2 := congrArg Prod.snd same
  have follows := handover.step_registers (ebi.inner.trxCurrentState == .idle)
    (InnerEbi.request input.inner) (ebi.outer.trxCurrentState == .idle) input.outer.snReqValid
  rw [← inner, ← outer] at follows
  exact ⟨_, follows⟩

/-- Every state reached is one of the protocol. -/
theorem run_handover (inputs : List EbiInput) :
    ∃ handover : Handover, (machine.run inputs).buses = handover.registers := by
  apply machine.run_invariant (fun ebi => ∃ handover : Handover, ebi.buses = handover.registers)
  · exact ⟨.innerOwns, rfl⟩
  · intro ebi input
    exact step_handover input

end Ebi

/-- The two sides never own the bus in the same cycle. -/
theorem ebi_bus_exclusive (inputs : List EbiInput) :
    ¬((Ebi.machine.run inputs).inner.bus.currentBusOccupy = true ∧
      (Ebi.machine.run inputs).outer.bus.currentBusOccupy = true) := by
  obtain ⟨handover, same⟩ := Ebi.run_handover inputs
  intro both
  apply handover.exclusive
  rw [← same]
  exact both

end GreenRio
