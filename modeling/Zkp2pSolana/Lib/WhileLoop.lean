/-
While loops.

A loop is a guard and a body on a state, and `While guard body s t` says that it
ends in `t` when it starts in `s`. A loop that does not end has no such `t`, so
termination is a statement of its own: a measure that every turn decreases
gives the end state (`While.exists_end`), and what every turn keeps holds there
(`While.keeps`).
-/
import Mathlib.Order.Basic

set_option autoImplicit false

/-- `while guard { body }`, from its first state to its last. -/
inductive While {σ : Type} (guard : σ → Prop) (body : σ → σ) : σ → σ → Prop
  | done {s : σ} (h : ¬ guard s) : While guard body s s
  | turn {s t : σ} (h : guard s) (hrest : While guard body (body s) t) : While guard body s t

namespace While

variable {σ : Type} {guard : σ → Prop} {body : σ → σ}

/-- A loop whose turns decrease a measure ends. -/
theorem exists_end (measure : σ → ℕ) (hturn : ∀ s, guard s → measure (body s) < measure s) (s : σ) :
    ∃ t, While guard body s t := by
  induction hm : measure s using Nat.strongRecOn generalizing s with
  | ind m ih =>
    by_cases hgo : guard s
    · have hlt : measure (body s) < m := by
        rw [← hm]
        exact hturn s hgo
      obtain ⟨t, ht⟩ := ih (measure (body s)) hlt (body s) rfl
      exact ⟨t, turn hgo ht⟩
    · exact ⟨s, done hgo⟩

/-- What every turn keeps holds at the end, where the guard does not. -/
theorem keeps {P : σ → Prop} (hturn : ∀ s, guard s → P s → P (body s)) {s t : σ}
    (h : While guard body s t) (hs : P s) : P t ∧ ¬ guard t := by
  induction h with
  | done hstop => exact ⟨hs, hstop⟩
  | turn hgo _ ih => exact ih (hturn _ hgo hs)

end While
