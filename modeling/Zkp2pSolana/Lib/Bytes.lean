/-
Fixed-width byte strings and the two integer encodings.

`Bytes n` is Rust's `[u8; n]`: a list of bytes that carries its length, so a
value of the wrong width cannot be built. `le_bytes` and `be_bytes` are
`to_le_bytes` and `to_be_bytes`; a signed word is encoded as the unsigned word
of its two's complement.
-/
import Mathlib.Algebra.Order.Ring.Int

set_option autoImplicit false

/-- Rust's `[u8; n]`. -/
def Bytes (n : ℕ) : Type := { l : List UInt8 // l.length = n }

namespace Bytes

variable {n : ℕ}

instance : DecidableEq (Bytes n) := inferInstanceAs (DecidableEq { l : List UInt8 // l.length = n })

instance (b : Bytes n) (l : List (Bytes n)) : Decidable (b ∈ l) := inferInstance

/-- The bytes themselves. -/
def toList (b : Bytes n) : List UInt8 := b.val

@[simp] theorem length_toList (b : Bytes n) : b.toList.length = n := b.property

theorem toList_injective {a b : Bytes n} (h : a.toList = b.toList) : a = b := Subtype.ext h

/-- Two streams that start with fields of one width agree field by field. -/
theorem append_inj {a b : Bytes n} {x y : List UInt8} (h : a.toList ++ x = b.toList ++ y) :
    a = b ∧ x = y := by
  have hlength : a.toList.length = b.toList.length := by rw [length_toList, length_toList]
  obtain ⟨hab, hxy⟩ := List.append_inj h hlength
  exact ⟨toList_injective hab, hxy⟩

/-- Rust's `[x; n]`. -/
def replicate (n : ℕ) (x : UInt8) : Bytes n := ⟨List.replicate n x, List.length_replicate⟩

/-- The all-zero value, written `[0; n]` in the source. -/
def zero (n : ℕ) : Bytes n := replicate n 0

instance : Inhabited (Bytes n) := ⟨zero n⟩

/-- A list cut or zero-padded on the right to `n` bytes. -/
def ofList (n : ℕ) (l : List UInt8) : Bytes n :=
  ⟨l.take n ++ List.replicate (n - l.length) 0, by
    rw [List.length_append, List.length_take, List.length_replicate]; omega⟩

/-- A list of the right length survives the way into an array and back. -/
theorem toList_ofList {l : List UInt8} (h : l.length = n) : (ofList n l).toList = l := by
  have htake : l.take n = l := List.take_of_length_le h.le
  show l.take n ++ List.replicate (n - l.length) 0 = l
  rw [htake, h, Nat.sub_self, List.replicate_zero, List.append_nil]

end Bytes

/-! ## Integer encodings -/

/-- `to_le_bytes` on a `k`-byte unsigned word. -/
def le_bytes : ℕ → ℕ → List UInt8
  | 0, _ => []
  | k + 1, v => UInt8.ofNat (v % 256) :: le_bytes k (v / 256)

/-- `to_be_bytes` on a `k`-byte unsigned word. -/
def be_bytes (k v : ℕ) : List UInt8 := (le_bytes k v).reverse

/-- `to_le_bytes` on `i64`: the word of the two's complement. -/
def le_bytes_i64 (v : ℤ) : List UInt8 := le_bytes 8 (v % 2 ^ 64).toNat

/-- `u8::try_from` on a wider word. -/
def u8_try_from (n : ℕ) : Option UInt8 := if n < 256 then some (UInt8.ofNat n) else none

/-- `from_le_bytes`. -/
def of_le_bytes : List UInt8 → ℕ
  | [] => 0
  | b :: bs => b.toNat + 256 * of_le_bytes bs

/-- The little-endian writer fills exactly the width it is given. -/
theorem length_le_bytes (k v : ℕ) : (le_bytes k v).length = k := by
  induction k generalizing v with
  | zero => rfl
  | succ k ih => rw [le_bytes, List.length_cons, ih]

theorem length_be_bytes (k v : ℕ) : (be_bytes k v).length = k := by
  rw [be_bytes, List.length_reverse, length_le_bytes]

/-- A word that fits is read back from its bytes. -/
theorem of_le_bytes_le_bytes (k : ℕ) {v : ℕ} (h : v < 256 ^ k) :
    of_le_bytes (le_bytes k v) = v := by
  induction k generalizing v with
  | zero =>
    rw [Nat.pow_zero] at h
    rw [le_bytes, of_le_bytes]
    omega
  | succ k ih =>
    have hdiv : v / 256 < 256 ^ k := by
      rw [Nat.pow_succ] at h
      exact Nat.div_lt_of_lt_mul (by omega)
    rw [le_bytes, of_le_bytes, ih hdiv, UInt8.toNat_ofNat']
    omega

/-- Numbers that fit the width are told apart by their little-endian bytes. -/
theorem le_bytes_injective (k : ℕ) {v w : ℕ} (hv : v < 256 ^ k) (hw : w < 256 ^ k)
    (h : le_bytes k v = le_bytes k w) : v = w := by
  rw [← of_le_bytes_le_bytes k hv, h, of_le_bytes_le_bytes k hw]

theorem be_bytes_injective (k : ℕ) {v w : ℕ} (hv : v < 256 ^ k) (hw : w < 256 ^ k)
    (h : be_bytes k v = be_bytes k w) : v = w := by
  have hle : le_bytes k v = le_bytes k w := List.reverse_inj.mp h
  exact le_bytes_injective k hv hw hle

/-- A stream determines a word it starts with. -/
theorem be_bytes_append_inj {k v w : ℕ} {x y : List UInt8} (hv : v < 256 ^ k) (hw : w < 256 ^ k)
    (h : be_bytes k v ++ x = be_bytes k w ++ y) : v = w ∧ x = y := by
  have hlength : (be_bytes k v).length = (be_bytes k w).length := by
    rw [length_be_bytes, length_be_bytes]
  obtain ⟨hvw, hxy⟩ := List.append_inj h hlength
  exact ⟨be_bytes_injective k hv hw hvw, hxy⟩
