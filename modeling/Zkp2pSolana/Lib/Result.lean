/-
The fallible-handler vocabulary: `require` and `ok_or` over `Except`, and the
inversion lemmas that turn "this handler returned `ok`" into the list of the
guards it passed.

A handler is a `do` block over `Except ε`. Read backwards, a successful run
says that every `require` held, that every `ok_or` found its value and what the
last line returned; the lemmas below say that one constructor at a time, so
that one `simp only` with [`Result.inversion`]'s four members peels a whole
handler. Nothing here mentions a program.
-/
import Mathlib.Logic.Basic

set_option autoImplicit false

namespace Result

variable {ε α β : Type}

/-- Rust's `require!(c, e)`. -/
def require (c : Prop) [Decidable c] (e : ε) : Except ε Unit :=
  if c then .ok () else .error e

/-- Rust's `o.ok_or(e)?`. -/
def ok_or (o : Option α) (e : ε) : Except ε α :=
  match o with
  | some a => .ok a
  | none => .error e

/-! ## Inversion: what a successful block has passed -/

/-- A sequenced block succeeds exactly when both halves do. -/
theorem bind_eq_ok {x : Except ε α} {f : α → Except ε β} {b : β} :
    (x >>= f) = .ok b ↔ ∃ a, x = .ok a ∧ f a = .ok b := by
  cases x with
  | error e => simp [bind, Except.bind]
  | ok a => simp [bind, Except.bind]

/-- A `require` succeeds exactly when its condition holds. -/
theorem require_eq_ok {c : Prop} [Decidable c] {e : ε} {u : Unit} :
    require c e = .ok u ↔ c := by
  unfold require
  by_cases hc : c <;> simp [hc]

/-- An `ok_or` succeeds exactly with the value it was given. -/
theorem ok_or_eq_ok {o : Option α} {e : ε} {a : α} : ok_or o e = .ok a ↔ o = some a := by
  cases o <;> simp [ok_or]

/-- The last line of a block. -/
theorem pure_eq_ok {a b : α} : (pure a : Except ε α) = .ok b ↔ a = b := by
  simp [pure, Except.pure]

theorem ok_eq_ok {a b : α} : (Except.ok a : Except ε α) = .ok b ↔ a = b := by
  simp

/-- A branch taken on a condition, read backwards. -/
theorem ite_eq_ok {c : Prop} [Decidable c] {x y : Except ε α} {a : α} :
    (if c then x else y) = .ok a ↔ (c ∧ x = .ok a) ∨ (¬ c ∧ y = .ok a) := by
  by_cases hc : c <;> simp [hc]

/-- What a computed check of the result says. -/
theorem exists_of_isSome {x : Except ε α} (h : x.toOption.isSome = true) : ∃ a, x = .ok a := by
  cases x with
  | error e => cases h
  | ok a => exact ⟨a, rfl⟩

/-- A result whose option is present was a success with that value. -/
theorem eq_ok_of_toOption {x : Except ε α} {a : α} (h : x.toOption = some a) : x = .ok a := by
  cases x with
  | error e => cases h
  | ok b => exact congrArg Except.ok (Option.some.inj h)

/-! ## Inversion of failures: which line of a block returned an error -/

/-- A sequenced block fails when its first half does, or when its second half does after it. -/
theorem bind_eq_error {x : Except ε α} {f : α → Except ε β} {e : ε} :
    (x >>= f) = .error e ↔ x = .error e ∨ ∃ a, x = .ok a ∧ f a = .error e := by
  cases x with
  | error e' => simp [bind, Except.bind]
  | ok a => simp [bind, Except.bind]

/-- A requirement fails exactly when its condition does, and with its own error. -/
theorem require_eq_error {c : Prop} [Decidable c] {e e' : ε} :
    (require c e : Except ε Unit) = .error e' ↔ ¬ c ∧ e = e' := by
  unfold require
  by_cases hc : c <;> simp [hc]

/-- The conversion from an option fails exactly on the absent one, and with its own error. -/
theorem ok_or_eq_error {o : Option α} {e e' : ε} :
    (ok_or o e : Except ε α) = .error e' ↔ o = none ∧ e = e' := by
  cases o <;> simp [ok_or]

theorem pure_eq_error {a : α} {e : ε} : (pure a : Except ε α) = .error e ↔ False := by
  simp [pure, Except.pure]

/-! ## Execution: running a block whose guards are known -/

@[simp] theorem require_true {c : Prop} [Decidable c] {e : ε} (h : c) :
    require c e = .ok () := if_pos h

@[simp] theorem ok_or_some {a : α} {e : ε} : ok_or (some a) e = .ok a := rfl

@[simp] theorem ok_bind {a : α} {f : α → Except ε β} : (Except.ok a >>= f) = f a := rfl

end Result
