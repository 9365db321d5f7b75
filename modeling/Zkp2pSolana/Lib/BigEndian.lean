/-
The number a byte string denotes, most significant byte first.

Rust compares byte arrays lexicographically. On arrays of one length that is
the order of the numbers they denote (`of_be_bytes_le_iff`), which is why a
comparison of arrays can stand for a comparison of words.
-/
import Zkp2pSolana.Lib.Bytes

set_option autoImplicit false

/-- `from_be_bytes`. -/
def of_be_bytes (l : List UInt8) : ℕ := of_le_bytes l.reverse

/-! ## Little-endian strings -/

/-- The bytes that follow `a` weigh `256` to the length of `a`. -/
theorem of_le_bytes_append (a b : List UInt8) :
    of_le_bytes (a ++ b) = of_le_bytes a + 256 ^ a.length * of_le_bytes b := by
  induction a with
  | nil => simp [of_le_bytes]
  | cons x a ih =>
    rw [List.cons_append, of_le_bytes, of_le_bytes, ih, List.length_cons, Nat.pow_succ,
      Nat.mul_add, Nat.mul_comm (256 ^ a.length) 256, Nat.mul_assoc, Nat.add_assoc]

/-- `n` bytes read to a number below `256 ^ n`. -/
theorem of_le_bytes_lt (l : List UInt8) : of_le_bytes l < 256 ^ l.length := by
  induction l with
  | nil => simp [of_le_bytes]
  | cons b l ih =>
    have hbyte : b.toNat < 256 := b.toNat_lt
    rw [of_le_bytes, List.length_cons, Nat.pow_succ]
    omega

/-! ## Big-endian strings -/

theorem of_be_bytes_lt (l : List UInt8) : of_be_bytes l < 256 ^ l.length := by
  have hlt := of_le_bytes_lt l.reverse
  rw [List.length_reverse] at hlt
  exact hlt

/-- The first byte of a big-endian number is its most significant one. -/
theorem of_be_bytes_cons (b : UInt8) (l : List UInt8) :
    of_be_bytes (b :: l) = b.toNat * 256 ^ l.length + of_be_bytes l := by
  unfold of_be_bytes
  rw [List.reverse_cons, of_le_bytes_append, List.length_reverse, of_le_bytes, of_le_bytes,
    Nat.mul_zero, Nat.add_zero, Nat.mul_comm, Nat.add_comm]

/-- A word that fits is read back from its bytes. -/
theorem of_be_bytes_be_bytes (k : ℕ) {v : ℕ} (h : v < 256 ^ k) : of_be_bytes (be_bytes k v) = v := by
  rw [of_be_bytes, be_bytes, List.reverse_reverse, of_le_bytes_le_bytes k h]

/-- Strings of one length compare as the numbers they denote. -/
theorem of_be_bytes_le_iff {a b : List UInt8} (h : a.length = b.length) :
    a ≤ b ↔ of_be_bytes a ≤ of_be_bytes b := by
  induction a generalizing b with
  | nil =>
    rw [List.length_nil] at h
    rw [List.length_eq_zero_iff.mp h.symm]
    exact ⟨fun _ => le_rfl, fun _ => List.le_refl []⟩
  | cons x a ih =>
    cases b with
    | nil => cases h
    | cons y b =>
      rw [List.length_cons, List.length_cons, Nat.add_right_cancel_iff] at h
      have ha := of_be_bytes_lt a
      have hb := of_be_bytes_lt b
      rw [List.cons_le_cons_iff, of_be_bytes_cons, of_be_bytes_cons, ih h, h]
      rw [h] at ha
      -- the first byte decides, unless it is the same in both
      rcases Nat.lt_trichotomy x.toNat y.toNat with hlt | heq | hgt
      · have hmul : (x.toNat + 1) * 256 ^ b.length ≤ y.toNat * 256 ^ b.length :=
          Nat.mul_le_mul_right _ hlt
        rw [Nat.add_mul, Nat.one_mul] at hmul
        exact ⟨fun _ => by omega, fun _ => .inl (UInt8.lt_iff_toNat_lt.mpr hlt)⟩
      · have hxy : x = y := UInt8.toNat_inj.mp heq
        subst hxy
        constructor
        · rintro (hlt | ⟨-, hle⟩)
          · exact absurd hlt (UInt8.lt_irrefl x)
          · omega
        · intro hle
          exact .inr ⟨rfl, by omega⟩
      · have hmul : (y.toNat + 1) * 256 ^ b.length ≤ x.toNat * 256 ^ b.length :=
          Nat.mul_le_mul_right _ hgt
        rw [Nat.add_mul, Nat.one_mul] at hmul
        constructor
        · rintro (hlt | ⟨rfl, -⟩)
          · have hlt' := UInt8.lt_iff_toNat_lt.mp hlt
            omega
          · omega
        · intro hle
          omega

/-- Strings of one length that denote one number are the same string. -/
theorem of_be_bytes_injective {a b : List UInt8} (hlength : a.length = b.length)
    (h : of_be_bytes a = of_be_bytes b) : a = b := by
  have hab : a ≤ b := (of_be_bytes_le_iff hlength).mpr h.le
  have hba : b ≤ a := (of_be_bytes_le_iff hlength.symm).mpr h.ge
  exact List.le_antisymm hab hba
