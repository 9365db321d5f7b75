/-
What `reduce_circom_field` computes, and in which field its results lie.

The `while` loop subtracts `MODULUS` from a 32-byte value until it is smaller:
one pass over a value that is not smaller takes off exactly the modulus and
leaves no borrow, so the loop ends, with the remainder, after at most five
turns. The saturating operations and the default of the byte conversion that it
is written with are never needed. The documentation of
`derive_intent_hash` names the Circom scalar field. The array is the base field
prime of the same curve, which is the larger of the two, so a remainder need not
be in the scalar field: it is the scalar remainder exactly for the values that
need no reduction at all.
-/
import Zkp2pSolana.Lib.BigEndian
import Zkp2pSolana.Lib.WhileLoop
import Zkp2pSolana.Instructions.Orchestrator

set_option autoImplicit false

namespace Zkp2pSolana

/-- The number the array `MODULUS` denotes. -/
def MODULUS_VALUE : ℕ := of_be_bytes MODULUS

/-- The Circom (BN254) scalar field order, the field `derive_intent_hash` is documented to reduce
into. -/
def CIRCOM_SCALAR_ORDER : ℕ :=
  21888242871839275222246405745257275088548364400416034343698204186575808495617

theorem modulus_value_eq : MODULUS_VALUE
    = 21888242871839275222246405745257275088696311157297823662689037894645226208583 := by
  decide +kernel

/-! ## The inner loop as it is written

The source computes in `u16` with saturating operations and converts every byte
back with `unwrap_or(0)`. Beside it stands the loop that has none of this to fall
back on and stops where one of the operations would need it. -/

/-- The body of the inner loop: the byte it writes and the borrow it leaves. -/
def subtract_byte (left_byte modulus_byte : UInt8) (borrow : ℕ) : UInt8 × ℕ :=
  let left := left_byte.toNat
  let right := Saturating.add 16 modulus_byte.toNat borrow
  if right ≤ left then ((u8_try_from (Saturating.sub left right)).getD 0, 0)
  else ((u8_try_from (Saturating.sub (Saturating.add 16 left 256) right)).getD 0, 1)

/-- The body without fallbacks. -/
def checked_byte (left_byte modulus_byte : UInt8) (borrow : ℕ) : Option (UInt8 × ℕ) := do
  let left := left_byte.toNat
  let right ← Checked.add 16 modulus_byte.toNat borrow
  if right ≤ left then
    let byte ← u8_try_from (← Checked.sub left right)
    return (byte, 0)
  else
    let byte ← u8_try_from (← Checked.sub (← Checked.add 16 left 256) right)
    return (byte, 1)

/-- The inner loop, from the last byte to the first: the bytes written and the final borrow. -/
def subtract_bytes : List UInt8 → List UInt8 → ℕ → List UInt8 × ℕ
  | left_byte :: left, modulus_byte :: modulus, borrow =>
    let turn := subtract_byte left_byte modulus_byte borrow
    let rest := subtract_bytes left modulus turn.2
    (turn.1 :: rest.1, rest.2)
  | left, _, borrow => (left, borrow)

/-- The inner loop without fallbacks. -/
def checked_bytes : List UInt8 → List UInt8 → ℕ → Option (List UInt8 × ℕ)
  | left_byte :: left, modulus_byte :: modulus, borrow => do
    let turn ← checked_byte left_byte modulus_byte borrow
    let rest ← checked_bytes left modulus turn.2
    return (turn.1 :: rest.1, rest.2)
  | left, _, borrow => some (left, borrow)

/-- Either branch writes a number below 256, also where the modulus byte is `0xff` and a borrow comes
in. -/
theorem subtract_byte_eq (l m : UInt8) {borrow : ℕ} (hborrow : borrow ≤ 1) :
    subtract_byte l m borrow
      = if m.toNat + borrow ≤ l.toNat then (UInt8.ofNat (l.toNat - (m.toNat + borrow)), 0)
        else (UInt8.ofNat (l.toNat + 256 - (m.toNat + borrow)), 1) := by
  have hl : l.toNat < 256 := l.toNat_lt
  have hm : m.toNat < 256 := m.toNat_lt
  have hright : Saturating.add 16 m.toNat borrow = m.toNat + borrow := by
    unfold Saturating.add
    omega
  have hleft : Saturating.add 16 l.toNat 256 = l.toNat + 256 := by
    unfold Saturating.add
    omega
  unfold subtract_byte
  simp only [hright, hleft, Saturating.sub, u8_try_from]
  by_cases hle : m.toNat + borrow ≤ l.toNat
  · rw [if_pos hle, if_pos hle, if_pos (by omega), Option.getD_some]
  · rw [if_neg hle, if_neg hle, if_pos (by omega), Option.getD_some]

/-- No fallback is taken on a byte. -/
theorem checked_byte_eq (l m : UInt8) {borrow : ℕ} (hborrow : borrow ≤ 1) :
    checked_byte l m borrow = some (subtract_byte l m borrow) := by
  have hl : l.toNat < 256 := l.toNat_lt
  have hm : m.toNat < 256 := m.toNat_lt
  have hright : Checked.add 16 m.toNat borrow = some (m.toNat + borrow) :=
    Checked.add_eq_some.mpr ⟨by omega, rfl⟩
  have hleft : Checked.add 16 l.toNat 256 = some (l.toNat + 256) :=
    Checked.add_eq_some.mpr ⟨by omega, rfl⟩
  rw [subtract_byte_eq l m hborrow]
  unfold checked_byte
  simp only [hright, hleft, Option.bind_eq_bind, Option.bind_some, Option.pure_def]
  by_cases hle : m.toNat + borrow ≤ l.toNat
  · rw [if_pos hle, if_pos hle, Checked.sub_eq_some.mpr ⟨hle, rfl⟩, Option.bind_some, u8_try_from,
      if_pos (by omega), Option.bind_some]
  · have hsub : Checked.sub (l.toNat + 256) (m.toNat + borrow)
        = some (l.toNat + 256 - (m.toNat + borrow)) := Checked.sub_eq_some.mpr ⟨by omega, rfl⟩
    rw [if_neg hle, if_neg hle, hsub, Option.bind_some, u8_try_from, if_pos (by omega),
      Option.bind_some]

/-- The byte written, the byte taken off and the borrow that came in make up the byte that was
there and the borrow that is left. -/
theorem subtract_byte_exact (l m : UInt8) {borrow : ℕ} (hborrow : borrow ≤ 1) :
    (subtract_byte l m borrow).1.toNat + m.toNat + borrow
        = l.toNat + 256 * (subtract_byte l m borrow).2
      ∧ (subtract_byte l m borrow).2 ≤ 1 := by
  have hl : l.toNat < 256 := l.toNat_lt
  have hm : m.toNat < 256 := m.toNat_lt
  rw [subtract_byte_eq l m hborrow]
  by_cases hle : m.toNat + borrow ≤ l.toNat
  · rw [if_pos hle, UInt8.toNat_ofNat']
    omega
  · rw [if_neg hle, UInt8.toNat_ofNat']
    omega

theorem length_subtract_bytes (left modulus : List UInt8) (borrow : ℕ) :
    (subtract_bytes left modulus borrow).1.length = left.length := by
  induction left generalizing modulus borrow with
  | nil => rfl
  | cons l left ih =>
    cases modulus with
    | nil => rfl
    | cons m modulus => rw [subtract_bytes, List.length_cons, ih, List.length_cons]

/-- The `u8` fallbacks of the source are never taken: every byte of the difference is in range. -/
theorem checked_bytes_eq (left modulus : List UInt8) {borrow : ℕ} (hborrow : borrow ≤ 1) :
    checked_bytes left modulus borrow = some (subtract_bytes left modulus borrow) := by
  induction left generalizing modulus borrow with
  | nil => rfl
  | cons l left ih =>
    cases modulus with
    | nil => rfl
    | cons m modulus =>
      have hrest := ih modulus (subtract_byte_exact l m hborrow).2
      rw [checked_bytes, checked_byte_eq l m hborrow]
      show (checked_bytes left modulus (subtract_byte l m borrow).2).bind _ = _
      rw [hrest]
      rfl

/-- What the loop has subtracted when it ends, up to the borrow that is left. -/
theorem subtract_bytes_exact {left modulus : List UInt8} {borrow : ℕ}
    (hlength : left.length = modulus.length) (hborrow : borrow ≤ 1) :
    of_le_bytes (subtract_bytes left modulus borrow).1 + of_le_bytes modulus + borrow
        = of_le_bytes left + 256 ^ left.length * (subtract_bytes left modulus borrow).2
      ∧ (subtract_bytes left modulus borrow).2 ≤ 1 := by
  -- induction from the last byte on: the borrow a byte leaves is the one the next byte takes in
  induction left generalizing modulus borrow with
  | nil =>
    cases modulus with
    | nil =>
      simp only [subtract_bytes, of_le_bytes, List.length_nil, Nat.pow_zero]
      omega
    | cons m modulus => cases hlength
  | cons l left ih =>
    cases modulus with
    | nil => cases hlength
    | cons m modulus =>
      rw [List.length_cons, List.length_cons, Nat.add_right_cancel_iff] at hlength
      obtain ⟨hbyte, hleft⟩ := subtract_byte_exact l m hborrow
      obtain ⟨hrest, hfinal⟩ := ih hlength hleft
      refine ⟨?_, hfinal⟩
      simp only [subtract_bytes, of_le_bytes, List.length_cons, Nat.pow_succ]
      rw [Nat.mul_comm (256 ^ left.length) 256, Nat.mul_assoc]
      omega

/-- The number a 32-byte value denotes. -/
def word_value (value : Bytes 32) : ℕ := of_be_bytes value.toList

theorem word_value_lt (value : Bytes 32) : word_value value < 2 ^ 256 := by
  have hlt := of_be_bytes_lt value.toList
  rw [Bytes.length_toList] at hlt
  exact hlt

theorem word_value_injective {a b : Bytes 32} (h : word_value a = word_value b) : a = b := by
  have hlength : a.toList.length = b.toList.length := by
    rw [Bytes.length_toList, Bytes.length_toList]
  exact Bytes.toList_injective (of_be_bytes_injective hlength h)

/-- One pass of the inner loop over the value: the new value and the final borrow. -/
def subtract_pass (value : Bytes 32) : Bytes 32 × ℕ :=
  let pass := subtract_bytes value.toList.reverse MODULUS.reverse 0
  (Bytes.ofList 32 pass.1.reverse, pass.2)

/-- One pass without fallbacks. -/
def checked_pass (value : Bytes 32) : Option (Bytes 32 × ℕ) := do
  let pass ← checked_bytes value.toList.reverse MODULUS.reverse 0
  return (Bytes.ofList 32 pass.1.reverse, pass.2)

theorem checked_pass_eq (value : Bytes 32) : checked_pass value = some (subtract_pass value) := by
  rw [checked_pass, checked_bytes_eq _ _ (Nat.zero_le 1)]
  rfl

/-- The pass on a word is the pass on its bytes, least significant first. -/
theorem toList_subtract_pass (value : Bytes 32) :
    (subtract_pass value).1.toList
      = (subtract_bytes value.toList.reverse MODULUS.reverse 0).1.reverse := by
  apply Bytes.toList_ofList
  rw [List.length_reverse, length_subtract_bytes, List.length_reverse, Bytes.length_toList]

/-- A pass over a value that is not below the modulus takes off exactly the modulus. -/
theorem subtract_pass_exact {value : Bytes 32} (h : MODULUS_VALUE ≤ word_value value) :
    word_value (subtract_pass value).1 + MODULUS_VALUE = word_value value
      ∧ (subtract_pass value).2 = 0 := by
  have hlengths : value.toList.reverse.length = MODULUS.reverse.length := by
    rw [List.length_reverse, Bytes.length_toList]
    rfl
  obtain ⟨hexact, hborrow⟩ := subtract_bytes_exact hlengths (Nat.zero_le 1)
  have hword : word_value (subtract_pass value).1
      = of_le_bytes (subtract_bytes value.toList.reverse MODULUS.reverse 0).1 := by
    rw [word_value, toList_subtract_pass, of_be_bytes, List.reverse_reverse]
  have hlt := word_value_lt (subtract_pass value).1
  have hfinal : (subtract_pass value).2
      = (subtract_bytes value.toList.reverse MODULUS.reverse 0).2 := rfl
  rw [← hword, ← hfinal, List.length_reverse, Bytes.length_toList] at hexact
  rw [← hfinal] at hborrow
  unfold MODULUS_VALUE word_value of_be_bytes at *
  -- a borrow that is left would make the new value larger than 32 bytes hold
  have hnone : (subtract_pass value).2 = 0 := by
    by_contra hsome
    have hone : (subtract_pass value).2 = 1 := by omega
    rw [hone] at hexact
    omega
  rw [hnone] at hexact
  exact ⟨by omega, hnone⟩

/-! ## The outer loop -/

/-- The guard of the loop: arrays are compared lexicographically. -/
def above_modulus (value : Bytes 32) : Prop := MODULUS ≤ value.toList

instance (value : Bytes 32) : Decidable (above_modulus value) :=
  inferInstanceAs (Decidable (MODULUS ≤ value.toList))

/-- Comparing the bytes in order is comparing the numbers. -/
theorem above_modulus_iff {value : Bytes 32} :
    above_modulus value ↔ MODULUS_VALUE ≤ word_value value := by
  have hlength : MODULUS.length = value.toList.length := by
    rw [Bytes.length_toList]
    rfl
  exact of_be_bytes_le_iff hlength

/-- `while value >= MODULUS`, from the value it starts with to the value it leaves. -/
def ReductionLoop (value result : Bytes 32) : Prop :=
  While above_modulus (fun v => (subtract_pass v).1) value result

/-- The loop ends: every pass makes the value smaller. -/
theorem reduction_loop_ends (value : Bytes 32) : ∃ result, ReductionLoop value result := by
  apply While.exists_end word_value
  intro v hv
  have hpass := subtract_pass_exact (above_modulus_iff.mp hv)
  have hpos : 0 < MODULUS_VALUE := by
    rw [modulus_value_eq]
    decide
  omega

/-- The loop leaves the remainder: every pass keeps it, and the value left is below the modulus. -/
theorem word_value_of_loop {value result : Bytes 32} (h : ReductionLoop value result) :
    word_value result = word_value value % MODULUS_VALUE := by
  have hturn : ∀ v, above_modulus v →
      word_value v % MODULUS_VALUE = word_value value % MODULUS_VALUE →
      word_value (subtract_pass v).1 % MODULUS_VALUE = word_value value % MODULUS_VALUE := by
    intro v hv hrem
    obtain ⟨hpass, -⟩ := subtract_pass_exact (above_modulus_iff.mp hv)
    rw [← hrem, ← hpass, Nat.add_mod_right]
  obtain ⟨hrem, hbelow⟩ := While.keeps hturn h rfl
  rw [above_modulus_iff, Nat.not_le] at hbelow
  rw [← hrem, Nat.mod_eq_of_lt hbelow]

theorem reduction_loop_iff {value result : Bytes 32} :
    ReductionLoop value result ↔ word_value result = word_value value % MODULUS_VALUE := by
  constructor
  · exact word_value_of_loop
  · intro h
    obtain ⟨last, hlast⟩ := reduction_loop_ends value
    have hsame : last = result := word_value_injective (by rw [word_value_of_loop hlast, h])
    rw [← hsame]
    exact hlast

/-! ## The bounded loop

`reduce_circom_field` runs the loop with a bound on its turns and with the byte
arithmetic simplified; both are the loop as it is written. -/

/-- `sub_borrow` writes the same bytes; it only leaves the last borrow unreturned. -/
theorem sub_borrow_eq (left modulus : List UInt8) {borrow : ℕ} (hborrow : borrow ≤ 1) :
    sub_borrow left modulus borrow = (subtract_bytes left modulus borrow).1 := by
  induction left generalizing modulus borrow with
  | nil => rfl
  | cons l left ih =>
    cases modulus with
    | nil => rfl
    | cons m modulus =>
      rw [subtract_bytes, subtract_byte_eq l m hborrow, sub_borrow]
      by_cases hle : m.toNat + borrow ≤ l.toNat
      · simp only [if_pos hle]
        rw [ih modulus (Nat.zero_le 1)]
      · simp only [if_neg hle]
        rw [ih modulus le_rfl]

/-- And `sub_modulus` is one such pass over the word. -/
theorem sub_modulus_eq (value : Bytes 32) :
    sub_modulus value.toList = (subtract_pass value).1.toList := by
  rw [toList_subtract_pass, sub_modulus, sub_borrow_eq _ _ (Nat.zero_le 1)]

/-- With a turn for every modulus that fits in the value, the bound is not noticed. -/
theorem reduce_loop_end {fuel : ℕ} {value : Bytes 32}
    (h : word_value value < (fuel + 1) * MODULUS_VALUE) :
    ∃ result, ReductionLoop value result ∧ result.toList = reduce_loop fuel value.toList := by
  induction fuel generalizing value with
  | zero =>
    rw [Nat.zero_add, Nat.one_mul] at h
    have hbelow : ¬ above_modulus value := by
      rw [above_modulus_iff, Nat.not_le]
      exact h
    exact ⟨value, .done hbelow, rfl⟩
  | succ fuel ih =>
    unfold reduce_loop
    by_cases habove : above_modulus value
    · obtain ⟨hpass, -⟩ := subtract_pass_exact (above_modulus_iff.mp habove)
      have hnext : word_value (subtract_pass value).1 < (fuel + 1) * MODULUS_VALUE := by
        rw [Nat.add_mul, Nat.one_mul] at h
        omega
      obtain ⟨result, hloop, hsame⟩ := ih hnext
      refine ⟨result, .turn habove hloop, ?_⟩
      rw [if_pos (show MODULUS ≤ value.toList from habove), hsame, sub_modulus_eq]
    · exact ⟨value, .done habove, (if_neg habove).symm⟩

/-- `reduce_circom_field` is the loop of the source. -/
theorem reduction_loop_reduce (value : Bytes 32) :
    ReductionLoop value (reduce_circom_field value) := by
  have hword := word_value_lt value
  have hfuel : 2 ^ 256 ≤ (5 + 1) * MODULUS_VALUE := by
    rw [modulus_value_eq]
    decide
  obtain ⟨result, hloop, hsame⟩ := reduce_loop_end (hword.trans_le hfuel)
  have hlength : (reduce_loop 5 value.toList).length = 32 := by
    rw [← hsame, Bytes.length_toList]
  have hresult : reduce_circom_field value = result := by
    apply Bytes.toList_injective
    rw [hsame]
    exact Bytes.toList_ofList hlength
  rw [hresult]
  exact hloop

/-- `reduce_circom_field` is the remainder by its own constant. -/
theorem word_value_reduce (value : Bytes 32) :
    word_value (reduce_circom_field value) = word_value value % MODULUS_VALUE :=
  word_value_of_loop (reduction_loop_reduce value)

theorem word_value_be_bytes {n : ℕ} (h : n < 2 ^ 256) :
    word_value (Bytes.ofList 32 (be_bytes 32 n)) = n := by
  rw [word_value, Bytes.toList_ofList (length_be_bytes 32 n), of_be_bytes_be_bytes 32 h]

/-- The loop is exact for its own constant: it ends with the remainder and nothing else, every pass
over a value that is not below the modulus takes off the modulus and leaves no borrow, and no pass
takes a fallback. -/
theorem reduction_exact (value : Bytes 32) :
    (∀ result, ReductionLoop value result
        ↔ result = Bytes.ofList 32 (be_bytes 32 (word_value value % MODULUS_VALUE)))
      ∧ reduce_circom_field value
        = Bytes.ofList 32 (be_bytes 32 (word_value value % MODULUS_VALUE))
      ∧ (MODULUS_VALUE ≤ word_value value →
        word_value (subtract_pass value).1 + MODULUS_VALUE = word_value value
          ∧ (subtract_pass value).2 = 0)
      ∧ checked_pass value = some (subtract_pass value) := by
  have hlt : word_value value % MODULUS_VALUE < 2 ^ 256 :=
    (Nat.mod_le _ _).trans_lt (word_value_lt value)
  have hunique : ∀ result : Bytes 32, word_value result = word_value value % MODULUS_VALUE
      ↔ result = Bytes.ofList 32 (be_bytes 32 (word_value value % MODULUS_VALUE)) := by
    intro result
    constructor
    · intro h
      apply word_value_injective
      rw [h, word_value_be_bytes hlt]
    · intro h
      rw [h, word_value_be_bytes hlt]
  refine ⟨?_, ?_, subtract_pass_exact, checked_pass_eq value⟩
  · intro result
    rw [reduction_loop_iff, hunique]
  · exact (hunique _).mp (word_value_reduce value)

/-! ## The two primes -/

/-- The reduction of a digest lies in the scalar field, as its scalar remainder, exactly when the
digest was already below the scalar order. -/
theorem reduces_to_scalar_field_iff (digest : Bytes 32) :
    (word_value (reduce_circom_field digest) = word_value digest % CIRCOM_SCALAR_ORDER
        ∧ word_value (reduce_circom_field digest) < CIRCOM_SCALAR_ORDER)
      ↔ word_value digest < CIRCOM_SCALAR_ORDER := by
  have hword := word_value_lt digest
  rw [word_value_reduce, modulus_value_eq]
  unfold CIRCOM_SCALAR_ORDER
  constructor
  · rintro ⟨hequal, -⟩
    -- the two remainders differ by the quotient times the gap between the primes, which is smaller
    -- than either of them, so they agree only when nothing was taken off
    omega
  · intro hsmall
    omega

/-- The scalar order itself is left as it is. -/
theorem scalar_order_not_reduced :
    ∃ digest : Bytes 32, word_value digest = CIRCOM_SCALAR_ORDER
      ∧ word_value (reduce_circom_field digest) ≠ word_value digest % CIRCOM_SCALAR_ORDER
      ∧ ¬ word_value (reduce_circom_field digest) < CIRCOM_SCALAR_ORDER := by
  refine ⟨Bytes.ofList 32 (be_bytes 32 CIRCOM_SCALAR_ORDER), ?_, ?_, ?_⟩
  all_goals decide +kernel

end Zkp2pSolana
