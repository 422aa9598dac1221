import Mathlib.Data.ZMod.Defs

set_option autoImplicit false

namespace Override

variable {α β : Type} (applies : α → Bool) (value : α → β)

theorem foldl_none (list : List α) (initial : β) (none : ∀ item ∈ list, applies item = false) :
    list.foldl (fun current item => if applies item then value item else current) initial =
      initial := by
  induction list generalizing initial with
  | nil => rfl
  | cons item rest ih =>
    rw [List.foldl_cons, none item (by simp)]
    exact ih initial fun other member => none other (by simp [member])

/-- With a single value among the items that apply, their order does not matter. -/
theorem foldl_some (list : List α) (initial : β) {item : α} (member : item ∈ list)
    (active : applies item = true)
    (single : ∀ other ∈ list, applies other = true → value other = value item) :
    list.foldl (fun current item => if applies item then value item else current) initial =
      value item := by
  induction list using List.reverseRecOn with
  | nil => cases member
  | append_singleton rest last ih =>
    rw [List.foldl_append, List.foldl_cons, List.foldl_nil]
    by_cases final : applies last = true
    · rw [if_pos final]
      exact single last (by simp) final
    · rw [if_neg final]
      rcases List.mem_append.mp member with inside | same
      · exact ih inside fun other there => single other (by simp [there])
      · rw [List.mem_singleton.mp same] at active
        exact absurd active final

end Override
