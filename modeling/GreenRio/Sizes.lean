import Mathlib.Data.ZMod.Defs

set_option autoImplicit false

namespace GreenRio

-- The tables of the design have an entry `0`, and the queues with two ports a second entry.

instance twoEntries : NeZero 2 := ⟨by decide⟩
instance fourEntries : NeZero 4 := ⟨by decide⟩
instance eightEntries : NeZero 8 := ⟨by decide⟩
instance sixteenEntries : NeZero 16 := ⟨by decide⟩
instance thirtyTwoEntries : NeZero 32 := ⟨by decide⟩
instance sixtyFourEntries : NeZero 64 := ⟨by decide⟩
instance fourLarge : Nat.AtLeastTwo 4 := ⟨by decide⟩
instance freeListLarge : Nat.AtLeastTwo 47 := ⟨by decide⟩

end GreenRio
