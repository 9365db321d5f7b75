/-
Sums over finite maps.

Mathlib's `Finmap` is the finite map with extensional equality; what it has no
lemmas for is adding up its entries, which is what every ledger invariant is
about. `total f m` adds `f k v` over the entries of `m`, and `owed owner amount m o`
is the sum of the `amount`s of the entries that belong to `o`: the outstanding
principal of one deposit, the locked stake of one owner, or, at `amount = 1`, a
number of live records. Each comes with one equation per map operation, stated
additively so that no truncated subtraction appears.
-/
import Mathlib.Data.Finmap
import Mathlib.Algebra.BigOperators.Group.Finset.Basic
import Mathlib.Algebra.Order.BigOperators.Group.Finset

set_option autoImplicit false

namespace Finmap

variable {K V O : Type*} [DecidableEq K] [DecidableEq O]

/-! ## Lookups after an update, as one conditional -/

/-- Looking up after an insertion, with the two cases in one equation. -/
theorem lookup_insert_ite (m : Finmap (fun _ : K => V)) (k k' : K) (v : V) :
    (m.insert k v).lookup k' = if k' = k then some v else m.lookup k' := by
  by_cases h : k' = k
  · subst h; simp
  · rw [if_neg h, lookup_insert_of_ne m h]

/-- The same for keys that are computed, one for each name. -/
theorem lookup_insert_key {N : Type*} [DecidableEq N] {key : N → K} (hkey : Function.Injective key)
    (m : Finmap (fun _ : K => V)) (n n' : N) (v : V) :
    (m.insert (key n) v).lookup (key n') = if n = n' then some v else m.lookup (key n') := by
  rw [lookup_insert_ite]
  by_cases hn : n = n'
  · rw [if_pos hn, if_pos (by rw [hn])]
  · rw [if_neg hn, if_neg fun heq => hn (hkey heq).symm]

/-- Looking up after an erasure, with the two cases in one equation. -/
theorem lookup_erase_ite (m : Finmap (fun _ : K => V)) (k k' : K) :
    (m.erase k).lookup k' = if k' = k then none else m.lookup k' := by
  by_cases h : k' = k
  · subst h; simp
  · rw [if_neg h, lookup_erase_ne h]

/-! ## `total` -/

/-- The sum of `f k v` over the entries of `m`. -/
def total (f : K → V → ℕ) (m : Finmap (fun _ : K => V)) : ℕ :=
  ∑ k ∈ m.keys, (m.lookup k).elim 0 (f k)

@[simp] theorem total_empty (f : K → V → ℕ) : total f (∅ : Finmap (fun _ : K => V)) = 0 := by
  simp [total]

private theorem keys_insert (m : Finmap (fun _ : K => V)) (k : K) (v : V) :
    (m.insert k v).keys = Insert.insert k m.keys := by
  ext a
  simp only [mem_keys, mem_insert, Finset.mem_insert]

/-- The entries away from `k` contribute the same to `m` and to any map that
agrees with it there. -/
private theorem sum_off_congr (f : K → V → ℕ) (m m' : Finmap (fun _ : K => V)) (k : K)
    (h : ∀ a, a ≠ k → m'.lookup a = m.lookup a) :
    ∑ a ∈ m.keys.erase k, (m'.lookup a).elim 0 (f a)
      = ∑ a ∈ m.keys.erase k, (m.lookup a).elim 0 (f a) :=
  Finset.sum_congr rfl fun a ha => by rw [h a (Finset.ne_of_mem_erase ha)]

/-- Removing an entry takes its contribution out. -/
theorem total_erase (f : K → V → ℕ) {m : Finmap (fun _ : K => V)} {k : K} {v : V}
    (h : m.lookup k = some v) : total f (m.erase k) + f k v = total f m := by
  have hk : k ∈ m.keys := mem_keys.mpr (mem_of_lookup_eq_some h)
  have hoff := sum_off_congr f m (m.erase k) k
    fun a ha => lookup_erase_ne ha
  unfold total
  rw [keys_erase, hoff, ← Finset.sum_erase_add _ _ hk, h]
  rfl

/-- A new entry adds its contribution. -/
theorem total_insert (f : K → V → ℕ) {m : Finmap (fun _ : K => V)} {k : K} {v : V}
    (h : m.lookup k = none) : total f (m.insert k v) = total f m + f k v := by
  have hk : k ∉ m.keys := fun hmem => (lookup_eq_none.mp h) (mem_keys.mp hmem)
  have hoff := sum_off_congr f m (m.insert k v) k
    fun a ha => lookup_insert_of_ne m ha
  rw [Finset.erase_eq_of_notMem hk] at hoff
  unfold total
  rw [keys_insert, Finset.sum_insert hk, hoff, lookup_insert]
  exact Nat.add_comm _ _

/-- Overwriting an entry exchanges its contribution. -/
theorem total_update (f : K → V → ℕ) {m : Finmap (fun _ : K => V)} {k : K} {v w : V}
    (h : m.lookup k = some w) : total f (m.insert k v) + f k w = total f m + f k v := by
  have hk : k ∈ m.keys := mem_keys.mpr (mem_of_lookup_eq_some h)
  have hoff := sum_off_congr f m (m.insert k v) k
    fun a ha => lookup_insert_of_ne m ha
  unfold total
  rw [keys_insert, Finset.insert_eq_of_mem hk, ← Finset.sum_erase_add _ _ hk,
    ← Finset.sum_erase_add m.keys _ hk, hoff, lookup_insert, h]
  exact Nat.add_right_comm _ _ _

/-- Writing an entry exchanges what was there, if anything, for the new contribution. -/
theorem total_set (f : K → V → ℕ) (m : Finmap (fun _ : K => V)) (k : K) (v : V) :
    total f (m.insert k v) + (m.lookup k).elim 0 (f k) = total f m + f k v := by
  cases hv : m.lookup k with
  | none => exact total_insert f hv
  | some w => exact total_update f hv

/-- One entry contributes at most the total. -/
theorem le_total (f : K → V → ℕ) {m : Finmap (fun _ : K => V)} {k : K} {v : V}
    (h : m.lookup k = some v) : f k v ≤ total f m := by
  have := total_erase f h
  omega

/-- The total only depends on the entries present. -/
theorem total_congr {f g : K → V → ℕ} {m : Finmap (fun _ : K => V)}
    (h : ∀ k v, m.lookup k = some v → f k v = g k v) : total f m = total g m := by
  refine Finset.sum_congr rfl fun k _ => ?_
  cases hv : m.lookup k with
  | none => rfl
  | some v => exact h k v hv

theorem total_eq_zero {f : K → V → ℕ} {m : Finmap (fun _ : K => V)}
    (h : ∀ k v, m.lookup k = some v → f k v = 0) : total f m = 0 := by
  rw [total_congr (g := fun _ _ => 0) h]
  refine Finset.sum_eq_zero fun k _ => ?_
  cases m.lookup k <;> rfl

/-! ## `owed`: the part of a total that belongs to one owner -/

/-- The sum of `amount` over the entries of `m` owned by `o`. -/
def owed (owner : V → O) (amount : V → ℕ) (m : Finmap (fun _ : K => V)) (o : O) : ℕ :=
  total (fun _ v => if owner v = o then amount v else 0) m

variable (owner : V → O) (amount : V → ℕ)

@[simp] theorem owed_empty (o : O) :
    owed owner amount (∅ : Finmap (fun _ : K => V)) o = 0 := total_empty _

/-- A new entry adds its amount to its owner's sum and to no other. -/
theorem owed_insert {m : Finmap (fun _ : K => V)} {k : K} {v : V} (h : m.lookup k = none)
    (o : O) :
    owed owner amount (m.insert k v) o
      = owed owner amount m o + if owner v = o then amount v else 0 :=
  total_insert _ h

/-- An erased entry takes its amount out of its owner's sum and out of no other. -/
theorem owed_erase {m : Finmap (fun _ : K => V)} {k : K} {v : V} (h : m.lookup k = some v)
    (o : O) :
    owed owner amount (m.erase k) o + (if owner v = o then amount v else 0)
      = owed owner amount m o :=
  total_erase (fun _ v => if owner v = o then amount v else 0) h

/-- Removing an entry, if there is one, leaves no more. -/
theorem owed_erase_le (m : Finmap (fun _ : K => V)) (k : K) (o : O) :
    owed owner amount (m.erase k) o ≤ owed owner amount m o := by
  cases hv : m.lookup k with
  | none =>
    have hsame : m.erase k = m := by
      refine ext_lookup fun k' => ?_
      rw [lookup_erase_ite]
      split_ifs with hk
      · rw [hk, hv]
      · rfl
    rw [hsame]
  | some v =>
    have herase := owed_erase owner amount hv o
    omega

/-- Overwriting an entry moves the old amount out of the old owner's sum and the new one into the
new owner's. The equation is additive so that no subtraction can truncate. -/
theorem owed_update {m : Finmap (fun _ : K => V)} {k : K} {v w : V} (h : m.lookup k = some w)
    (o : O) :
    owed owner amount (m.insert k v) o + (if owner w = o then amount w else 0)
      = owed owner amount m o + if owner v = o then amount v else 0 :=
  total_update (fun _ v => if owner v = o then amount v else 0) h

/-- An entry of `o` is covered by what `o` owes. -/
theorem le_owed {m : Finmap (fun _ : K => V)} {k : K} {v : V} (h : m.lookup k = some v) :
    amount v ≤ owed owner amount m (owner v) := by
  have := le_total (fun _ v' => if owner v' = owner v then amount v' else 0) h
  simpa [owed] using this

/-- An owner that owns nothing owes nothing. -/
theorem owed_eq_zero {m : Finmap (fun _ : K => V)} {o : O}
    (h : ∀ k v, m.lookup k = some v → owner v ≠ o) : owed owner amount m o = 0 :=
  total_eq_zero fun k v hv => if_neg (h k v hv)

end Finmap
