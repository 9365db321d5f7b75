/-
Lists without repetition, read from the front.

A loop that refuses duplicates compares each entry with the entries before it, or
keeps the entries it has seen and compares with those. `Fresh seen l` is what such
a loop asks of the entries that are left: none was seen, and none comes twice. One
turn of the loop is `Fresh.cons_iff`, and a loop that has seen nothing asks for
`l.Nodup`.
-/
import Mathlib.Data.List.Nodup

set_option autoImplicit false

variable {α : Type*}

/-- No entry of `l` was seen before, and none comes twice. -/
def Fresh (seen l : List α) : Prop := (∀ a ∈ l, a ∉ seen) ∧ l.Nodup

namespace Fresh

theorem nil (seen : List α) : Fresh seen [] := ⟨by simp, List.nodup_nil⟩

/-- A list is fresh after `seen` when its head was not seen and its tail is fresh once the head has
been. -/
theorem cons_iff {seen l : List α} {a : α} :
    Fresh seen (a :: l) ↔ a ∉ seen ∧ Fresh (seen ++ [a]) l := by
  unfold Fresh
  rw [List.forall_mem_cons, List.nodup_cons]
  constructor
  · rintro ⟨⟨hnew, hrest⟩, hfirst, hnodup⟩
    refine ⟨hnew, ?_, hnodup⟩
    intro b hb hseen
    rcases List.mem_append.mp hseen with hold | hsame
    · exact hrest b hb hold
    · rw [List.mem_singleton.mp hsame] at hb
      exact hfirst hb
  · rintro ⟨hnew, hrest, hnodup⟩
    refine ⟨⟨hnew, ?_⟩, ?_, hnodup⟩
    · intro b hb hold
      exact hrest b hb (List.mem_append_left [a] hold)
    · intro ha
      exact hrest a ha (List.mem_append_right seen List.mem_cons_self)

/-- Fresh after nothing is the same as free of repetition. -/
theorem nil_iff {l : List α} : Fresh [] l ↔ l.Nodup :=
  ⟨fun h => h.2, fun h => ⟨fun _ _ => List.not_mem_nil, h⟩⟩

end Fresh
