/-
Checked machine arithmetic over `ℕ` and `ℤ`.

The modelled code never wraps: every sum, difference and product goes through
`checked_add`, `checked_sub` or `checked_mul`, and a `None` is turned into an
error. Unsigned words are therefore natural numbers and the width appears only
as the bound an operation is checked against; a signed word is an integer
checked against both ends. One loop saturates instead, and converts its bytes
back with a default.
-/
import Mathlib.Algebra.Order.Ring.Int

set_option autoImplicit false

namespace Checked

/-- `checked_add` on `w`-bit unsigned words. -/
def add (w a b : ℕ) : Option ℕ := if a + b < 2 ^ w then some (a + b) else none

/-- `checked_sub` on unsigned words of any width. -/
def sub (a b : ℕ) : Option ℕ := if b ≤ a then some (a - b) else none

/-- `checked_mul` on `w`-bit unsigned words. -/
def mul (w a b : ℕ) : Option ℕ := if a * b < 2 ^ w then some (a * b) else none

/-- `checked_add` on `i64`. -/
def add_i64 (a b : ℤ) : Option ℤ :=
  if -(2 ^ 63) ≤ a + b ∧ a + b < 2 ^ 63 then some (a + b) else none

/-- `checked_sub` on `i64`. -/
def sub_i64 (a b : ℤ) : Option ℤ :=
  if -(2 ^ 63) ≤ a - b ∧ a - b < 2 ^ 63 then some (a - b) else none

/-- A checked addition answers exactly when the sum fits the width, and then with the sum. -/
theorem add_eq_some {w a b c : ℕ} : add w a b = some c ↔ a + b < 2 ^ w ∧ a + b = c := by
  simp only [add, Option.ite_none_right_eq_some, Option.some.injEq]

/-- A checked subtraction answers exactly when it does not go below zero. -/
theorem sub_eq_some {a b c : ℕ} : sub a b = some c ↔ b ≤ a ∧ a - b = c := by
  simp only [sub, Option.ite_none_right_eq_some, Option.some.injEq]

/-- A checked multiplication answers exactly when the product fits the width. -/
theorem mul_eq_some {w a b c : ℕ} : mul w a b = some c ↔ a * b < 2 ^ w ∧ a * b = c := by
  simp only [mul, Option.ite_none_right_eq_some, Option.some.injEq]

theorem add_eq_none {w a b : ℕ} : add w a b = none ↔ ¬ a + b < 2 ^ w := by
  simp only [add, ite_eq_right_iff, reduceCtorEq, imp_false]

theorem sub_eq_none {a b : ℕ} : sub a b = none ↔ ¬ b ≤ a := by
  simp only [sub, ite_eq_right_iff, reduceCtorEq, imp_false]

/-- The signed addition answers exactly between the two bounds of the type. -/
theorem add_i64_eq_some {a b c : ℤ} :
    add_i64 a b = some c ↔ (-(2 ^ 63) ≤ a + b ∧ a + b < 2 ^ 63) ∧ a + b = c := by
  simp only [add_i64, Option.ite_none_right_eq_some, Option.some.injEq]

end Checked

namespace Saturating

/-- `saturating_add` on `w`-bit unsigned words. -/
def add (w a b : ℕ) : ℕ := min (a + b) (2 ^ w - 1)

/-- `saturating_sub` on unsigned words of any width. -/
def sub (a b : ℕ) : ℕ := a - b

end Saturating
