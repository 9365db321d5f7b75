/-
Rust's `str`: characters, indexed by their UTF-8 bytes.

A `&str` is the list of its characters, which are the Unicode scalar values
`Char` ranges over. Lengths and slices count bytes, and a slice whose ends are
not between two characters does not exist. The integer parser is
`u8::from_str_radix` at radix 16 as documented: an optional `+`, then digits of
either case, each step checked against the width.
-/
import Zkp2pSolana.Lib.Bytes
import Zkp2pSolana.Lib.Checked

set_option autoImplicit false

namespace Str

/-- `str::len`. -/
def len : List Char → ℕ
  | [] => 0
  | c :: s => c.utf8Size + len s

/-- `str::split_at_checked`: the first `n` bytes and the rest, when a character ends there. -/
def split_at : ℕ → List Char → Option (List Char × List Char)
  | 0, s => some ([], s)
  | _ + 1, [] => none
  | n + 1, c :: s =>
    if c.utf8Size ≤ n + 1 then (split_at (n + 1 - c.utf8Size) s).map fun r => (c :: r.1, r.2)
    else none

/-- `str::get(start..stop)`. -/
def get (s : List Char) (start stop : ℕ) : Option (List Char) := do
  let before ← split_at start s
  let slice ← split_at (stop - start) before.2
  return slice.1

/-- `str::strip_prefix("0x")`, with the string itself when there is none. -/
def strip_0x : List Char → List Char
  | '0' :: 'x' :: rest => rest
  | s => s

/-- `char::to_digit(16)`. -/
def to_digit (c : Char) : Option ℕ :=
  if '0' ≤ c ∧ c ≤ '9' then some (c.toNat - '0'.toNat)
  else if 'a' ≤ c ∧ c ≤ 'f' then some (c.toNat - 'a'.toNat + 10)
  else if 'A' ≤ c ∧ c ≤ 'F' then some (c.toNat - 'A'.toNat + 10)
  else none

/-- The digits of `u8::from_str_radix(_, 16)`, most significant first. -/
def digits_u8 (acc : ℕ) : List Char → Option ℕ
  | [] => some acc
  | c :: rest => do
    let acc ← Checked.mul 8 acc 16
    let digit ← to_digit c
    let acc ← Checked.add 8 acc digit
    digits_u8 acc rest

/-- `u8::from_str_radix(_, 16)`. -/
def from_str_radix : List Char → Option ℕ
  | [] => none
  -- a sign alone is no number
  | ['+'] => none
  | ['-'] => none
  | '+' :: rest => digits_u8 0 rest
  | s => digits_u8 0 s

/-- The two lower-case hexadecimal digits of a byte. -/
def hex_digit (n : ℕ) : Char := if n < 10 then Char.ofNat (48 + n) else Char.ofNat (87 + n)

/-- Lower-case hexadecimal encoding. -/
def hex_encode (bytes : List UInt8) : List Char :=
  bytes.flatMap fun b => [hex_digit (b.toNat / 16), hex_digit (b.toNat % 16)]

/-! ## Slices -/

/-- The length in bytes adds up, because each character is encoded on its own. -/
theorem len_append (s t : List Char) : len (s ++ t) = len s + len t := by
  induction s with
  | nil => simp [len]
  | cons c s ih => rw [List.cons_append, len, len, ih, Nat.add_assoc]

/-- Only the empty text takes no bytes: every character takes at least one. -/
theorem eq_nil_of_len {s : List Char} (h : len s = 0) : s = [] := by
  cases s with
  | nil => rfl
  | cons c s =>
    have hpos := c.utf8Size_pos
    rw [len] at h
    omega

/-- The cut after a given prefix. -/
theorem split_at_len (s t : List Char) : split_at (len s) (s ++ t) = some (s, t) := by
  induction s with
  | nil => simp [len, split_at]
  | cons c s ih =>
    have hpos := c.utf8Size_pos
    obtain ⟨n, hn⟩ : ∃ n, c.utf8Size + len s = n + 1 := ⟨c.utf8Size + len s - 1, by omega⟩
    have hrest : n + 1 - c.utf8Size = len s := by omega
    rw [len, hn, List.cons_append, split_at, if_pos (by omega), hrest, ih]
    rfl

/-- A cut splits the string and its length. -/
theorem of_split_at {n : ℕ} {s t u : List Char} (h : split_at n s = some (t, u)) :
    s = t ++ u ∧ len t = n := by
  induction s generalizing n t with
  | nil =>
    cases n with
    | zero =>
      simp only [split_at, Option.some.injEq, Prod.mk.injEq] at h
      obtain ⟨rfl, rfl⟩ := h
      exact ⟨rfl, rfl⟩
    | succ n => cases h
  | cons c s ih =>
    cases n with
    | zero =>
      simp only [split_at, Option.some.injEq, Prod.mk.injEq] at h
      obtain ⟨rfl, rfl⟩ := h
      exact ⟨rfl, rfl⟩
    | succ n =>
      rw [split_at] at h
      split_ifs at h with hle
      rw [Option.map_eq_some_iff] at h
      obtain ⟨r, hr, heq⟩ := h
      obtain ⟨rfl, rfl⟩ := Prod.mk.inj heq
      obtain ⟨hs, hlen⟩ := ih hr
      refine ⟨by rw [hs, List.cons_append], ?_⟩
      rw [len, hlen]
      omega

/-- A slice that starts after a given prefix. -/
theorem get_append (s t : List Char) (n : ℕ) :
    get (s ++ t) (len s) (len s + n) = (split_at n t).map Prod.fst := by
  simp only [get, split_at_len, Nat.add_sub_cancel_left, Option.bind_eq_bind, Option.bind_some]
  cases split_at n t <;> rfl

/-! ## Digits -/

/-- What a digit is: its value is below sixteen, its lower-case form is the digit of that value, it
takes one byte and it is no sign. -/
structure IsDigit (c : Char) (d : ℕ) : Prop where
  lt : d < 16
  lower : hex_digit d = c.toLower
  size : c.utf8Size = 1
  not_plus : c ≠ '+'
  not_minus : c ≠ '-'

/-- A digit is an ASCII character. -/
theorem toNat_of_to_digit {c : Char} {d : ℕ} (h : to_digit c = some d) : c.toNat < 128 := by
  unfold to_digit at h
  split_ifs at h with hdigit hlower hupper
  · exact (Char.le_def.mp hdigit.2).trans_lt (by decide : '9'.toNat < 128)
  · exact (Char.le_def.mp hlower.2).trans_lt (by decide : 'f'.toNat < 128)
  · exact (Char.le_def.mp hupper.2).trans_lt (by decide : 'F'.toNat < 128)

/-- What the digit reader accepts is a digit of that value. -/
theorem of_to_digit {c : Char} {d : ℕ} (h : to_digit c = some d) : IsDigit c d := by
  -- one look at each ASCII character
  have htable : ∀ n < 128, ∀ d ∈ to_digit (Char.ofNat n), d < 16
      ∧ hex_digit d = (Char.ofNat n).toLower ∧ (Char.ofNat n).utf8Size = 1 ∧ Char.ofNat n ≠ '+'
      ∧ Char.ofNat n ≠ '-' := by decide +kernel
  have hentry := htable c.toNat (toNat_of_to_digit h) d
  rw [Char.ofNat_toNat] at hentry
  obtain ⟨hlt, hlower, hsize, hplus, hminus⟩ := hentry h
  exact ⟨hlt, hlower, hsize, hplus, hminus⟩

end Str
