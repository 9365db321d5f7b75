/-
A market of reservations.

Makers put up deposits, and takers reserve parts of them. What is free of a
deposit its maker may take out again. A reserved part waits until the reservation
ends; then what is paid of it leaves and the rest is free again. Deposits and
reservations come in numbered and are named after their numbers. A book carries
the fact that it holds only reservations that it has numbered, so what a deposit
has reserved ([`Book.reserved`]) is a sum over those numbers, with one equation for
each way to write a book. [`Book.act`] is the market: it says which orders are
good and what they do.
-/
import Mathlib.Algebra.BigOperators.Group.Finset.Basic
import Mathlib.Algebra.BigOperators.Intervals
import Mathlib.Logic.Function.Basic

set_option autoImplicit false

namespace Market

variable {P D I : Type}

/-- How deposits and reservations are named after their numbers. -/
structure Naming (D I : Type) where
  deposit : ℕ → D
  reservation : ℕ → I
  reservation_injective : Function.Injective reservation

/-- The part `amount` of `deposit`, reserved for `taker`. -/
structure Reservation (P D : Type) where
  deposit : D
  taker : P
  amount : ℕ

/-- What a reservation takes of the deposit `d`. -/
def Reservation.part [DecidableEq D] (r : Reservation P D) (d : D) : ℕ :=
  if r.deposit = d then r.amount else 0

/-- The state of a market: how many deposits and reservations it has numbered, who put up each
deposit, what is free of it, and the reservations that wait. -/
structure Book (P : Type) {D I : Type} (N : Naming D I) where
  deposits : ℕ
  reservations : ℕ
  maker : D → Option P
  free : D → ℕ
  held : I → Option (Reservation P D)
  numbered : ∀ i r, held i = some r → ∃ n < reservations, N.reservation n = i

/-- What the parties ask of a market. -/
inductive Order (P D I : Type)
  | opens (maker : P) (amount : ℕ)
  | adds (deposit : D) (amount : ℕ)
  | takes (who : P) (deposit : D) (amount : ℕ)
  | takes_all (who : P) (deposit : D)
  | reserves (taker : P) (deposit : D) (amount : ℕ)
  | cancels (who : P) (reservation : I)
  | lapses (reservation : I)
  | pays (reservation : I) (amount : ℕ)
  | releases (who : P) (reservation : I)
  | rests

variable {N : Naming D I}

namespace Book

/-- The market before anybody came. -/
def empty (P : Type) (N : Naming D I) : Book P N where
  deposits := 0
  reservations := 0
  maker := fun _ => none
  free := fun _ => 0
  held := fun _ => none
  numbered := fun _ _ h => nomatch h

/-! ## Writing a book -/

section Writes

variable [DecidableEq D] [DecidableEq I] (b : Book P N)

/-- A new deposit. -/
def open_deposit (maker : P) (amount : ℕ) : Book P N :=
  { b with
    deposits := b.deposits + 1
    maker := Function.update b.maker (N.deposit b.deposits) (some maker)
    free := Function.update b.free (N.deposit b.deposits) amount }

/-- `amount` is free of the deposit `d`. -/
def set_free (d : D) (amount : ℕ) : Book P N :=
  { b with free := Function.update b.free d amount }

/-- A new reservation, out of what is free. -/
def reserve (taker : P) (d : D) (amount : ℕ) : Book P N where
  deposits := b.deposits
  reservations := b.reservations + 1
  maker := b.maker
  free := Function.update b.free d (b.free d - amount)
  held := Function.update b.held (N.reservation b.reservations) (some ⟨d, taker, amount⟩)
  numbered := by
    intro i r hi
    by_cases hnew : i = N.reservation b.reservations
    · exact ⟨b.reservations, Nat.lt_succ_self _, hnew.symm⟩
    · rw [Function.update_of_ne hnew] at hi
      obtain ⟨n, hn, hname⟩ := b.numbered i r hi
      exact ⟨n, Nat.lt_succ_of_lt hn, hname⟩

/-- The reservation `r` at `i` ends: `paid` of it leaves, the rest is free again. -/
def settle (i : I) (r : Reservation P D) (paid : ℕ) : Book P N where
  deposits := b.deposits
  reservations := b.reservations
  maker := b.maker
  free := Function.update b.free r.deposit (b.free r.deposit + (r.amount - paid))
  held := Function.update b.held i none
  numbered := by
    intro j q hj
    by_cases hends : j = i
    · rw [hends, Function.update_self] at hj
      cases hj
    · rw [Function.update_of_ne hends] at hj
      exact b.numbered j q hj

end Writes

/-! ## Reading a written book -/

section Reads

variable [DecidableEq D] (b : Book P N)

@[simp] theorem open_deposit_maker (maker : P) (amount : ℕ) (d : D) :
    (b.open_deposit maker amount).maker d
      = if d = N.deposit b.deposits then some maker else b.maker d :=
  Function.update_apply b.maker _ _ d

@[simp] theorem open_deposit_free (maker : P) (amount : ℕ) (d : D) :
    (b.open_deposit maker amount).free d
      = if d = N.deposit b.deposits then amount else b.free d :=
  Function.update_apply b.free _ _ d

@[simp] theorem set_free_free (d : D) (amount : ℕ) (d' : D) :
    (b.set_free d amount).free d' = if d' = d then amount else b.free d' :=
  Function.update_apply b.free _ _ d'

variable [DecidableEq I]

@[simp] theorem reserve_free (taker : P) (d : D) (amount : ℕ) (d' : D) :
    (b.reserve taker d amount).free d' = if d' = d then b.free d - amount else b.free d' :=
  Function.update_apply b.free _ _ d'

@[simp] theorem reserve_held (taker : P) (d : D) (amount : ℕ) (i : I) :
    (b.reserve taker d amount).held i
      = if i = N.reservation b.reservations then some ⟨d, taker, amount⟩ else b.held i :=
  Function.update_apply b.held _ _ i

@[simp] theorem settle_free (i : I) (r : Reservation P D) (paid : ℕ) (d : D) :
    (b.settle i r paid).free d
      = if d = r.deposit then b.free r.deposit + (r.amount - paid) else b.free d :=
  Function.update_apply b.free _ _ d

@[simp] theorem settle_held (i : I) (r : Reservation P D) (paid : ℕ) (j : I) :
    (b.settle i r paid).held j = if j = i then none else b.held j :=
  Function.update_apply b.held _ _ j

end Reads

/-! ## What is reserved -/

section Reserved

variable [DecidableEq D] (b : Book P N)

/-- What the reservations take of the deposit `d`. -/
def reserved (d : D) : ℕ :=
  ∑ n ∈ Finset.range b.reservations, (b.held (N.reservation n)).elim 0 (·.part d)

@[simp] theorem empty_reserved (d : D) : (empty P N).reserved d = 0 := by
  simp [reserved, empty]

@[simp] theorem open_deposit_reserved (maker : P) (amount : ℕ) (d : D) :
    (b.open_deposit maker amount).reserved d = b.reserved d := rfl

@[simp] theorem set_free_reserved (d : D) (amount : ℕ) (d' : D) :
    (b.set_free d amount).reserved d' = b.reserved d' := rfl

variable [DecidableEq I]

/-- A reservation adds its amount to its own deposit and to no other. -/
theorem reserve_reserved (taker : P) (d : D) (amount : ℕ) (d' : D) :
    (b.reserve taker d amount).reserved d' = b.reserved d' + if d = d' then amount else 0 := by
  -- the earlier numbers name other reservations
  have hearlier : ∀ n ∈ Finset.range b.reservations,
      ((b.reserve taker d amount).held (N.reservation n)).elim 0 (·.part d')
        = (b.held (N.reservation n)).elim 0 (·.part d') := by
    intro n hn
    have hne : N.reservation n ≠ N.reservation b.reservations := by
      intro heq
      rw [N.reservation_injective heq] at hn
      exact absurd (Finset.mem_range.mp hn) (Nat.lt_irrefl _)
    rw [reserve_held, if_neg hne]
  have hnew : (b.reserve taker d amount).held (N.reservation b.reservations)
      = some ⟨d, taker, amount⟩ := by
    rw [reserve_held, if_pos rfl]
  unfold reserved
  show ∑ n ∈ Finset.range (b.reservations + 1), _ = _
  rw [Finset.sum_range_succ, Finset.sum_congr rfl hearlier, hnew]
  rfl

/-- Settling takes the reservation's part out of its deposit, whatever amount of it is paid out. -/
theorem settle_reserved {i : I} {r : Reservation P D} (h : b.held i = some r) (paid : ℕ) (d : D) :
    (b.settle i r paid).reserved d + r.part d = b.reserved d := by
  obtain ⟨n, hn, rfl⟩ := b.numbered i r h
  -- the other numbers name other reservations
  have hothers : ∀ m ∈ (Finset.range b.reservations).erase n,
      ((b.settle (N.reservation n) r paid).held (N.reservation m)).elim 0 (·.part d)
        = (b.held (N.reservation m)).elim 0 (·.part d) := by
    intro m hm
    have hne : N.reservation m ≠ N.reservation n := by
      intro heq
      exact (Finset.mem_erase.mp hm).1 (N.reservation_injective heq)
    rw [settle_held, if_neg hne]
  have hgone : (b.settle (N.reservation n) r paid).held (N.reservation n) = none := by
    rw [settle_held, if_pos rfl]
  have hmem : n ∈ Finset.range b.reservations := Finset.mem_range.mpr hn
  unfold reserved
  show ∑ m ∈ Finset.range b.reservations, _ + _ = _
  rw [← Finset.sum_erase_add _ _ hmem, ← Finset.sum_erase_add (Finset.range b.reservations) _ hmem,
    Finset.sum_congr rfl hothers, hgone, h]
  rfl

end Reserved

/-! ## The market -/

/-- What an order does, where it is good. -/
def act [DecidableEq P] [DecidableEq D] [DecidableEq I] (b : Book P N) :
    Order P D I → Option (Book P N)
  | .opens maker amount => some (b.open_deposit maker amount)
  | .adds d amount =>
    if (b.maker d).isSome then some (b.set_free d (b.free d + amount)) else none
  | .takes who d amount =>
    if b.maker d = some who ∧ amount ≤ b.free d then some (b.set_free d (b.free d - amount)) else none
  | .takes_all who d => if b.maker d = some who then some (b.set_free d 0) else none
  | .reserves taker d amount =>
    if (b.maker d).isSome ∧ amount ≤ b.free d then some (b.reserve taker d amount) else none
  | .cancels who i => do
    let r ← b.held i
    if r.taker = who then some (b.settle i r 0) else none
  | .lapses i => do
    let r ← b.held i
    some (b.settle i r 0)
  | .pays i amount => do
    let r ← b.held i
    some (b.settle i r (min amount r.amount))
  | .releases who i => do
    let r ← b.held i
    if b.maker r.deposit = some who then some (b.settle i r r.amount) else none
  | .rests => some b

/-! ## Good orders -/

section Good

variable [DecidableEq P] [DecidableEq D] [DecidableEq I] {b : Book P N} {d : D} {i : I}
  {r : Reservation P D}

/-- Anybody may add to a deposit that exists. -/
theorem act_adds (h : (b.maker d).isSome) (amount : ℕ) :
    b.act (.adds d amount) = some (b.set_free d (b.free d + amount)) := if_pos h

/-- Its maker may take what is free of it. -/
theorem act_takes {who : P} {amount : ℕ} (h : b.maker d = some who) (hle : amount ≤ b.free d) :
    b.act (.takes who d amount) = some (b.set_free d (b.free d - amount)) := if_pos ⟨h, hle⟩

theorem act_takes_all {who : P} (h : b.maker d = some who) :
    b.act (.takes_all who d) = some (b.set_free d 0) := if_pos h

/-- A taker may reserve what is free. -/
theorem act_reserves (taker : P) {amount : ℕ} (h : (b.maker d).isSome) (hle : amount ≤ b.free d) :
    b.act (.reserves taker d amount) = some (b.reserve taker d amount) := if_pos ⟨h, hle⟩

/-- A reservation that waits is ended by its taker, or lapses: nothing of it is paid. -/
theorem act_cancels (h : b.held i = some r) : b.act (.cancels r.taker i) = some (b.settle i r 0) := by
  simp [act, h]

theorem act_lapses (h : b.held i = some r) : b.act (.lapses i) = some (b.settle i r 0) := by
  simp [act, h]

/-- A payment ends a reservation, and never takes more than was reserved. -/
theorem act_pays (h : b.held i = some r) (amount : ℕ) :
    b.act (.pays i amount) = some (b.settle i r (min amount r.amount)) := by
  simp [act, h]

/-- The maker may let all of it go. -/
theorem act_releases {who : P} (h : b.held i = some r) (hmaker : b.maker r.deposit = some who) :
    b.act (.releases who i) = some (b.settle i r r.amount) := by
  simp [act, h, hmaker]

end Good

end Book

end Market
