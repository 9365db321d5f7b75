/-
What an instruction can do to the stake ledger.

`StakeMove` is the abstract stake vault: positions, collateral locks, claims, the
two aggregates and the custody balance move together in one of nine ways. A lock
is written together with the position it is taken from and removed together with
the position it is returned to. One way is not what a vault is for: a release may
return a lock to a position that is not its owner's (`misreleased`).

The handlers of `stake.rs` and the lifecycle instructions are read backwards into
these moves.
-/
import Zkp2pSolana.Lib.Fresh
import Zkp2pSolana.LifecycleSteps

set_option autoImplicit false

namespace Zkp2pSolana

open Result Zkp2pError

/-! ## The abstract stake vault -/

/-- The principal of an owner. -/
def StakeRecords.balance_of (r : StakeRecords) (o : Pubkey) : ℕ :=
  (r.stake_positions.lookup (position_of o)).elim 0 StakePosition.balance

/-- The locked part of an owner's principal. -/
def StakeRecords.locked_of (r : StakeRecords) (o : Pubkey) : ℕ :=
  (r.stake_positions.lookup (position_of o)).elim 0 StakePosition.locked

/-- What the live locks take from an owner. -/
def StakeRecords.locks_of (r : StakeRecords) (o : Pubkey) : ℕ :=
  Finmap.owed StakeLock.stake_owner StakeLock.amount r.stake_locks o

/-- What a beneficiary can claim. -/
def StakeRecords.claim_of (r : StakeRecords) (b : Pubkey) : ℕ :=
  (r.claims.lookup (claim_balance_address stake_vault_address b)).elim 0 ClaimBalance.amount

/-- Stake records sit at the addresses their own fields derive. -/
structure StakeCanonical (r : StakeRecords) : Prop where
  position : ∀ k p, r.stake_positions.lookup k = some p →
    k = position_of p.owner ∧ p.vault = stake_vault_address
  lock : ∀ k l, r.stake_locks.lookup k = some l → k = lock_of l.id ∧ l.vault = stake_vault_address
  claim : ∀ k c, r.claims.lookup k = some c →
    k = claim_balance_address stake_vault_address c.beneficiary ∧ c.vault = stake_vault_address

/-- The claims after an amount `c` was credited to them. -/
structure Credited (m m' : Accounts ClaimBalance) (c : ℕ) : Prop where
  total : m'.total (fun _ b => b.amount) = m.total (fun _ b => b.amount) + c
  canonical : ∀ k b, m'.lookup k = some b →
    m.lookup k = some b ∨ (k = claim_balance_address stake_vault_address b.beneficiary
      ∧ b.vault = stake_vault_address)

/-- The aggregates and the configuration of the vault that a lock does not move. -/
structure SameTotals (s s' : State) : Prop where
  claims : s'.claims = s.claims
  total_staked : s'.stake_vault.total_staked = s.stake_vault.total_staked
  total_claimable : s'.stake_vault.total_claimable = s.stake_vault.total_claimable
  vault : balance s.tokens stake_token_vault ≤ balance s'.tokens stake_token_vault

/-- The identity fields of a position stay what its address says. -/
structure PositionAt (o : Pubkey) (p : StakePosition) : Prop where
  owner : p.owner = o
  vault : p.vault = stake_vault_address

/-- One move of the abstract stake vault, made by the top-level instruction `ix`. -/
inductive StakeMove (ix : TopLevel) (s s' : State) : Prop
  /-- Nothing of the ledger changes; the custody account may only grow. -/
  | quiet (positions : s'.stake_positions = s.stake_positions)
      (locks : s'.stake_locks = s.stake_locks) (totals : SameTotals s s')
  /-- An owner's free stake grows by tokens received. -/
  | deposited (o : Pubkey) (p' : StakePosition) (x : ℕ) (at_o : PositionAt o p')
      (positions : s'.stake_positions = s.stake_positions.insert (position_of o) p')
      (balance_eq : p'.balance = (init_if_needed s.stake_positions (position_of o)).balance + x)
      (locked_eq : p'.locked = (init_if_needed s.stake_positions (position_of o)).locked)
      (locks : s'.stake_locks = s.stake_locks) (claims : s'.claims = s.claims)
      (total_staked : s'.stake_vault.total_staked = s.stake_vault.total_staked + x)
      (total_claimable : s'.stake_vault.total_claimable = s.stake_vault.total_claimable)
      (vault : balance s.tokens stake_token_vault + x ≤ balance s'.tokens stake_token_vault)
  /-- An owner takes free stake out. -/
  | withdrawn (accounts : WithdrawStake) (p p' : StakePosition) (x : ℕ)
      (ix_eq : ix = .program (.stake (.withdraw_stake accounts x)))
      (at_o : PositionAt accounts.owner p')
      (position : s.stake_positions.lookup (position_of accounts.owner) = some p)
      (positions : s'.stake_positions
        = s.stake_positions.insert (position_of accounts.owner) p')
      (free : x + p.locked ≤ p.balance) (balance_eq : p'.balance + x = p.balance)
      (locked_eq : p'.locked = p.locked)
      (locks : s'.stake_locks = s.stake_locks) (claims : s'.claims = s.claims)
      (total_staked : s'.stake_vault.total_staked + x = s.stake_vault.total_staked)
      (total_claimable : s'.stake_vault.total_claimable = s.stake_vault.total_claimable)
      (vault : balance s.tokens stake_token_vault ≤ balance s'.tokens stake_token_vault + x)
  /-- A beneficiary takes a whole claim out. -/
  | claimed (k : Pubkey) (c : ClaimBalance) (claim : s.claims.lookup k = some c)
      (claims : s'.claims = s.claims.insert k { c with amount := 0 })
      (positions : s'.stake_positions = s.stake_positions)
      (locks : s'.stake_locks = s.stake_locks)
      (total_staked : s'.stake_vault.total_staked = s.stake_vault.total_staked)
      (total_claimable :
        s'.stake_vault.total_claimable + c.amount = s.stake_vault.total_claimable)
      (vault : balance s.tokens stake_token_vault
        ≤ balance s'.tokens stake_token_vault + c.amount)
  /-- A claim account is prepared; nothing is credited. -/
  | prepared (credited : Credited s.claims s'.claims 0)
      (positions : s'.stake_positions = s.stake_positions)
      (locks : s'.stake_locks = s.stake_locks)
      (total_staked : s'.stake_vault.total_staked = s.stake_vault.total_staked)
      (total_claimable : s'.stake_vault.total_claimable = s.stake_vault.total_claimable)
      (vault : balance s.tokens stake_token_vault ≤ balance s'.tokens stake_token_vault)
  /-- Free stake, `x` of it just received, goes under a new lock. -/
  | locked (o : Pubkey) (id : Bytes 32) (p' : StakePosition) (l : StakeLock) (x : ℕ)
      (at_o : PositionAt o p') (lock_at : l.id = id ∧ l.vault = stake_vault_address)
      (owner : l.stake_owner = o)
      (positions : s'.stake_positions = s.stake_positions.insert (position_of o) p')
      (balance_eq : p'.balance = (init_if_needed s.stake_positions (position_of o)).balance + x)
      (locked_eq :
        p'.locked = (init_if_needed s.stake_positions (position_of o)).locked + l.amount)
      (covered : p'.locked ≤ p'.balance) (fresh : s.stake_locks.lookup (lock_of id) = none)
      (locks : s'.stake_locks = s.stake_locks.insert (lock_of id) l)
      (claims : s'.claims = s.claims)
      (total_staked : s'.stake_vault.total_staked = s.stake_vault.total_staked + x)
      (total_claimable : s'.stake_vault.total_claimable = s.stake_vault.total_claimable)
      (vault : balance s.tokens stake_token_vault + x ≤ balance s'.tokens stake_token_vault)
  /-- A lock is resized against its owner's free stake. -/
  | relocked (id : Bytes 32) (p p' : StakePosition) (l l' : StakeLock)
      (lock : s.stake_locks.lookup (lock_of id) = some l)
      (position : s.stake_positions.lookup (position_of l.stake_owner) = some p)
      (at_o : PositionAt l.stake_owner p')
      (lock_at : l'.id = l.id ∧ l'.vault = l.vault ∧ l'.stake_owner = l.stake_owner)
      (positions : s'.stake_positions = s.stake_positions.insert (position_of l.stake_owner) p')
      (balance_eq : p'.balance = p.balance)
      (locked_eq : p'.locked + l.amount = p.locked + l'.amount)
      (covered : p.locked ≤ p.balance → p'.locked ≤ p'.balance)
      (locks : s'.stake_locks = s.stake_locks.insert (lock_of id) l')
      (totals : SameTotals s s')
  /-- A lock is removed; `c` of it becomes claims and the rest its owner's free stake. Only a
  dispute or a controller that signs turns stake into claims. -/
  | removed (id : Bytes 32) (p p' : StakePosition) (l : StakeLock) (c : ℕ)
      (lock : s.stake_locks.lookup (lock_of id) = some l)
      (position : s.stake_positions.lookup (position_of l.stake_owner) = some p)
      (at_o : PositionAt l.stake_owner p')
      (positions : s'.stake_positions = s.stake_positions.insert (position_of l.stake_owner) p')
      (balance_eq : p'.balance + c = p.balance) (locked_eq : p'.locked + l.amount = p.locked)
      (bounded : c ≤ l.amount) (locks : s'.stake_locks = s.stake_locks.erase (lock_of id))
      (credited : Credited s.claims s'.claims c)
      (total_staked : s'.stake_vault.total_staked + c = s.stake_vault.total_staked)
      (total_claimable : s'.stake_vault.total_claimable = s.stake_vault.total_claimable + c)
      (vault : balance s.tokens stake_token_vault ≤ balance s'.tokens stake_token_vault)
      (charge : c = 0 ∨ s.stake_vault.controller.can_sign = true
        ∨ ∃ accounts args, ix = .program (.submit_dispute accounts args))
  /-- `release_matured_dispute` removes a lock but frees the stake of the disputed intent's
  owner, who is not the owner of the lock. -/
  | misreleased (accounts : ReleaseMaturedDispute) (dispute : DisputeIntent)
      (p p' : StakePosition) (l : StakeLock)
      (ix_eq : ix = .program (.release_matured_dispute accounts))
      (dispute_eq : s.dispute_intents.lookup accounts.dispute_intent = some dispute)
      (lock : s.stake_locks.lookup (lock_of dispute.intent_hash) = some l)
      (mismatch : l.stake_owner ≠ dispute.stake_owner)
      (position : s.stake_positions.lookup (position_of dispute.stake_owner) = some p)
      (at_o : PositionAt dispute.stake_owner p')
      (positions : s'.stake_positions
        = s.stake_positions.insert (position_of dispute.stake_owner) p')
      (balance_eq : p'.balance = p.balance) (locked_eq : p'.locked + l.amount = p.locked)
      (locks : s'.stake_locks = s.stake_locks.erase (lock_of dispute.intent_hash))
      (totals : SameTotals s s')

/-! ## A move keeps every record at its address -/

section Canonical

variable {s s' : State}

/-- Writing a position at its owner's address keeps every position at its owner's address. -/
theorem StakeCanonical.insert_position (hr : StakeCanonical s.toStakeRecords) {o : Pubkey}
    {p' : StakePosition} (hp' : PositionAt o p')
    (h : s'.stake_positions = s.stake_positions.insert (position_of o) p') (k : Pubkey)
    (p : StakePosition) (hp : s'.stake_positions.lookup k = some p) :
    k = position_of p.owner ∧ p.vault = stake_vault_address := by
  rw [h, Finmap.lookup_insert_ite] at hp
  split_ifs at hp with hk
  · cases hp
    rw [hp'.owner]
    exact ⟨hk, hp'.vault⟩
  · exact hr.position k p hp

/-- Writing a lock at the address of its id keeps every lock at the address of its id. -/
theorem StakeCanonical.insert_lock (hr : StakeCanonical s.toStakeRecords) {id : Bytes 32}
    {l' : StakeLock} (hl' : l'.id = id ∧ l'.vault = stake_vault_address)
    (h : s'.stake_locks = s.stake_locks.insert (lock_of id) l') (k : Pubkey)
    (l : StakeLock) (hl : s'.stake_locks.lookup k = some l) :
    k = lock_of l.id ∧ l.vault = stake_vault_address := by
  rw [h, Finmap.lookup_insert_ite] at hl
  split_ifs at hl with hk
  · cases hl
    rw [hl'.1]
    exact ⟨hk, hl'.2⟩
  · exact hr.lock k l hl

theorem StakeCanonical.erase_lock (hr : StakeCanonical s.toStakeRecords) {k₀ : Pubkey}
    (h : s'.stake_locks = s.stake_locks.erase k₀) (k : Pubkey)
    (l : StakeLock) (hl : s'.stake_locks.lookup k = some l) :
    k = lock_of l.id ∧ l.vault = stake_vault_address := by
  rw [h, Finmap.lookup_erase_ite] at hl
  split_ifs at hl
  exact hr.lock k l hl

/-- Credited claims sit where their beneficiary derives them. -/
theorem StakeCanonical.credited (hr : StakeCanonical s.toStakeRecords) {c : ℕ}
    (h : Credited s.claims s'.claims c) (k : Pubkey) (b : ClaimBalance)
    (hb : s'.claims.lookup k = some b) :
    k = claim_balance_address stake_vault_address b.beneficiary ∧ b.vault = stake_vault_address :=
  (h.canonical k b hb).elim (hr.claim k b) id

/-- Every move of the vault keeps each record at the address its own fields derive. -/
theorem StakeMove.canonical {ix : TopLevel} (h : StakeMove ix s s')
    (hr : StakeCanonical s.toStakeRecords) : StakeCanonical s'.toStakeRecords := by
  cases h with
  | quiet positions locks totals =>
    exact ⟨positions ▸ hr.position, locks ▸ hr.lock, totals.claims ▸ hr.claim⟩
  | deposited o p' x at_o positions _ _ locks claims =>
    exact ⟨hr.insert_position at_o positions, locks ▸ hr.lock, claims ▸ hr.claim⟩
  | withdrawn accounts p p' x _ at_o _ positions _ _ _ locks claims =>
    exact ⟨hr.insert_position at_o positions, locks ▸ hr.lock, claims ▸ hr.claim⟩
  | claimed k c claim claims positions locks =>
    refine ⟨positions ▸ hr.position, locks ▸ hr.lock, fun k' b hb => ?_⟩
    rw [claims, Finmap.lookup_insert_ite] at hb
    split_ifs at hb with hk
    · cases hb
      rw [hk]
      exact hr.claim k c claim
    · exact hr.claim k' b hb
  | prepared credited positions locks =>
    exact ⟨positions ▸ hr.position, locks ▸ hr.lock, hr.credited credited⟩
  | locked o id p' l x at_o lock_at _ positions _ _ _ _ locks claims =>
    exact ⟨hr.insert_position at_o positions, hr.insert_lock lock_at locks, claims ▸ hr.claim⟩
  -- the rewritten lock keeps its id, and the address it is found at already fixed that id
  | relocked id p p' l l' lock _ at_o lock_at positions _ _ _ locks totals =>
    obtain ⟨hkey, hvault⟩ := hr.lock _ _ lock
    injection hkey with _ _ hid
    exact ⟨hr.insert_position at_o positions,
      hr.insert_lock ⟨lock_at.1.trans hid.symm, lock_at.2.1.trans hvault⟩ locks,
      totals.claims ▸ hr.claim⟩
  | removed id p p' l c _ _ at_o positions _ _ _ locks credited =>
    exact ⟨hr.insert_position at_o positions, hr.erase_lock locks, hr.credited credited⟩
  | misreleased accounts dispute p p' l _ _ _ _ _ at_o positions _ _ locks totals =>
    exact ⟨hr.insert_position at_o positions, hr.erase_lock locks, totals.claims ▸ hr.claim⟩

end Canonical

/-! ## The accounting methods of `StakePosition` -/

/-- `lock` takes a positive amount out of the free part and leaves the principal alone. -/
theorem StakePosition.lock_ok {p p' : StakePosition} {x : ℕ} (h : p.lock x = .ok p') :
    0 < x ∧ p.locked + x ≤ p.balance ∧ p' = { p with locked := p.locked + x } := by
  simp only [StakePosition.lock, StakePosition.free, bind_eq_ok, require_eq_ok, exists_const,
    ok_or_eq_ok, Checked.add_eq_some, Checked.sub_eq_some, pure_eq_ok] at h
  obtain ⟨hpos, _, ⟨hle, rfl⟩, hfree, _, ⟨-, rfl⟩, rfl⟩ := h
  exact ⟨hpos, by omega, rfl⟩

/-- `unlock` returns at most what is locked and leaves the principal alone. -/
theorem StakePosition.unlock_ok {p p' : StakePosition} {x : ℕ} (h : p.unlock x = .ok p') :
    x ≤ p.locked ∧ p' = { p with locked := p.locked - x } := by
  simp only [StakePosition.unlock, bind_eq_ok, ok_or_eq_ok, Checked.sub_eq_some, pure_eq_ok] at h
  obtain ⟨_, ⟨hle, rfl⟩, rfl⟩ := h
  exact ⟨hle, rfl⟩

/-- `resolve` frees the whole lock and takes the charge, which is part of it, out of the
principal. -/
theorem StakePosition.resolve_ok {p p' : StakePosition} {x c : ℕ} (h : p.resolve x c = .ok p') :
    c ≤ x ∧ x ≤ p.locked ∧ c ≤ p.balance
      ∧ p' = { p with balance := p.balance - c, locked := p.locked - x } := by
  simp only [StakePosition.resolve, bind_eq_ok, require_eq_ok, exists_const, ok_or_eq_ok,
    Checked.sub_eq_some, pure_eq_ok] at h
  obtain ⟨hle, q, hunlock, _, ⟨hbal, rfl⟩, rfl⟩ := h
  obtain ⟨hlocked, rfl⟩ := StakePosition.unlock_ok hunlock
  exact ⟨hle, hlocked, hbal, rfl⟩

/-- A position opened or found at its owner's address is that owner's. -/
theorem opened_position_at {r : StakeRecords} (hr : StakeCanonical r) (o : Pubkey) :
    PositionAt o (opened_position (init_if_needed r.stake_positions (position_of o)) o) := by
  cases hp : r.stake_positions.lookup (position_of o) with
  | none =>
    have hdefault : (default : StakePosition).owner = Pubkey.default := rfl
    simp only [init_if_needed, hp, Option.getD_none, opened_position, if_pos hdefault]
    exact ⟨rfl, rfl⟩
  | some p =>
    obtain ⟨hkey, hvault⟩ := hr.position _ _ hp
    -- addresses are injective in their seeds, so the position found is the owner's own
    have howner : p.owner = o := by
      injection hkey with _ _ h
      exact h.symm
    simp only [init_if_needed, hp, Option.getD_some, opened_position]
    split_ifs
    · exact ⟨rfl, rfl⟩
    · exact ⟨howner, hvault⟩

/-- Opening a position gives it an owner; it does not move the principal. -/
theorem opened_position_balance (p : StakePosition) (o : Pubkey) :
    (opened_position p o).balance = p.balance := by
  unfold opened_position
  split_ifs <;> rfl

theorem opened_position_locked (p : StakePosition) (o : Pubkey) :
    (opened_position p o).locked = p.locked := by
  unfold opened_position
  split_ifs <;> rfl

/-- The position found at an owner's address is that owner's. -/
theorem StakeCanonical.position_at {r : StakeRecords} (hr : StakeCanonical r) {o : Pubkey}
    {p : StakePosition} (hp : r.stake_positions.lookup (position_of o) = some p) :
    PositionAt o p := by
  obtain ⟨hkey, hvault⟩ := hr.position _ _ hp
  injection hkey with _ _ howner
  exact ⟨howner.symm, hvault⟩

/-- The positions after the one of `o` is written. -/
theorem lookup_position_insert {m m' : Accounts StakePosition} {o : Pubkey} {p' : StakePosition}
    (h : m' = m.insert (position_of o) p') (o' : Pubkey) :
    m'.lookup (position_of o') = if o = o' then some p' else m.lookup (position_of o') := by
  have hkey : Function.Injective position_of := by
    intro o o' heq
    injection heq
  rw [h, Finmap.lookup_insert_key hkey]

/-- The principal an address stands for does not depend on whether its account exists yet. -/
theorem init_position_balance (m : Accounts StakePosition) (k : Pubkey) :
    (m.lookup k).elim 0 StakePosition.balance = (init_if_needed m k).balance := by
  unfold init_if_needed
  cases m.lookup k <;> rfl

theorem init_position_locked (m : Accounts StakePosition) (k : Pubkey) :
    (m.lookup k).elim 0 StakePosition.locked = (init_if_needed m k).locked := by
  unfold init_if_needed
  cases m.lookup k <;> rfl

section Owner

variable {r r' : StakeRecords} {o : Pubkey} {p p' : StakePosition}

/-- The principal of each owner after the position of `o` is written. -/
theorem balance_of_insert (h : r'.stake_positions = r.stake_positions.insert (position_of o) p')
    (o' : Pubkey) : r'.balance_of o' = if o = o' then p'.balance else r.balance_of o' := by
  unfold StakeRecords.balance_of
  rw [lookup_position_insert h]
  split_ifs <;> rfl

theorem balance_of_some (h : r.stake_positions.lookup (position_of o) = some p) :
    r.balance_of o = p.balance := by
  unfold StakeRecords.balance_of
  rw [h]
  rfl

/-- The principal of an owner whose position may still have to be opened. -/
theorem balance_of_init (r : StakeRecords) (o : Pubkey) :
    r.balance_of o = (init_if_needed r.stake_positions (position_of o)).balance :=
  init_position_balance _ _

/-- The locked stake of each owner after the position of `o` is written. -/
theorem locked_of_insert (h : r'.stake_positions = r.stake_positions.insert (position_of o) p')
    (o' : Pubkey) : r'.locked_of o' = if o = o' then p'.locked else r.locked_of o' := by
  unfold StakeRecords.locked_of
  rw [lookup_position_insert h]
  split_ifs <;> rfl

/-- The locked part of an owner whose position is known. -/
theorem locked_of_some (h : r.stake_positions.lookup (position_of o) = some p) :
    r.locked_of o = p.locked := by
  unfold StakeRecords.locked_of
  rw [h]
  rfl

/-- The locked part of an owner whose position may still have to be opened. -/
theorem locked_of_init (r : StakeRecords) (o : Pubkey) :
    r.locked_of o = (init_if_needed r.stake_positions (position_of o)).locked :=
  init_position_locked _ _

end Owner

theorem init_if_needed_some {α : Type} [Inhabited α] {m : Accounts α} {k : Pubkey} {a : α}
    (h : m.lookup k = some a) : init_if_needed m k = a := by
  simp only [init_if_needed, h, Option.getD_some]

/-! ## The claims loop -/

/-- What the allocations add up to. -/
def claims_total (claims : List StakeClaim) : ℕ := (claims.map StakeClaim.amount).sum

/-- The first loop accepts exactly the lists of nonzero allocations to distinct beneficiaries that
add up within a word. -/
theorem total_claims_eq_ok {prior : List Pubkey} {total total' : ℕ} {claims : List StakeClaim}
    (htotal : total < 2 ^ 64) :
    total_claims prior total claims = .ok total'
      ↔ (∀ c ∈ claims, c.beneficiary ≠ Pubkey.default ∧ 0 < c.amount)
        ∧ Fresh prior (claims.map StakeClaim.beneficiary)
        ∧ total + claims_total claims < 2 ^ 64 ∧ total' = total + claims_total claims := by
  -- induction on the allocations, with the accumulator and the seen beneficiaries free
  induction claims generalizing prior total with
  | nil =>
    simp only [total_claims, ok_eq_ok, claims_total, List.map_nil, List.sum_nil, Fresh.nil,
      List.not_mem_nil, false_implies, implies_true, true_and, Nat.add_zero]
    exact ⟨fun h => ⟨htotal, h.symm⟩, fun h => h.2.symm⟩
  | cons c rest ih =>
    have hsum : claims_total (c :: rest) = c.amount + claims_total rest := by
      rw [claims_total, List.map_cons, List.sum_cons, claims_total]
    simp only [total_claims, bind_eq_ok, require_eq_ok, exists_const, ok_or_eq_ok,
      Checked.add_eq_some]
    rw [hsum, List.forall_mem_cons, List.map_cons, Fresh.cons_iff, ← Nat.add_assoc]
    constructor
    · rintro ⟨hvalid, hnew, _, ⟨hword, rfl⟩, hrest⟩
      obtain ⟨hall, hfresh, hfits, heq⟩ := (ih hword).mp hrest
      exact ⟨⟨hvalid, hall⟩, ⟨hnew, hfresh⟩, hfits, heq⟩
    · rintro ⟨⟨hvalid, hall⟩, ⟨hnew, hfresh⟩, hfits, heq⟩
      have hword : total + c.amount < 2 ^ 64 := by omega
      exact ⟨hvalid, hnew, _, ⟨hword, rfl⟩, (ih hword).mpr ⟨hall, hfresh, hfits, heq⟩⟩

/-- The allocations of the pairs are the allocations. -/
theorem map_zip_claims {claims : List StakeClaim} {accounts : List AccountInfo}
    (hlength : claims.length = accounts.length) {β : Type} (g : StakeClaim → β) :
    (claims.zip accounts).map (fun c => g c.1) = claims.map g := by
  conv_rhs => rw [← List.map_fst_zip hlength.le, List.map_map]
  rfl

/-- The two loops run over the same list, so what is charged is what is credited. -/
theorem total_claims_zip {claims : List StakeClaim} {total : ℕ} {accounts : List AccountInfo}
    (h : total_claims [] 0 claims = .ok total) (hlength : claims.length = accounts.length) :
    ((claims.zip accounts).map fun c => c.1.amount).sum = total := by
  obtain ⟨-, -, -, htotal⟩ := (total_claims_eq_ok (by decide)).mp h
  rw [map_zip_claims hlength StakeClaim.amount, htotal, Nat.zero_add]
  rfl

theorem Credited.refl (m : Accounts ClaimBalance) : Credited m m 0 :=
  ⟨rfl, fun _ _ hb => .inl hb⟩

theorem Credited.trans {m m' m'' : Accounts ClaimBalance} {c c' : ℕ} (h : Credited m m' c)
    (h' : Credited m' m'' c') : Credited m m'' (c + c') := by
  refine ⟨by rw [h'.total, h.total, Nat.add_assoc], fun k b hb => ?_⟩
  rcases h'.canonical k b hb with hb | hb
  · exact h.canonical k b hb
  · exact .inr hb

/-- One claim account, found or fresh, is written back with `c` more. -/
theorem Credited.insert {m : Accounts ClaimBalance} {k : Pubkey} {b : ClaimBalance} {c : ℕ}
    (hamount : b.amount = (init_if_needed m k).amount + c)
    (hkey : k = claim_balance_address stake_vault_address b.beneficiary)
    (hvault : b.vault = stake_vault_address) : Credited m (m.insert k b) c := by
  refine ⟨?_, fun k' b' hb' => ?_⟩
  -- the total after one write, in terms of what the key held before
  · have hset := Finmap.total_set (fun _ (b : ClaimBalance) => b.amount) m k b
    have hold : (m.lookup k).elim 0 (fun b => b.amount) = (init_if_needed m k).amount := by
      unfold init_if_needed
      cases m.lookup k <;> rfl
    rw [hold] at hset
    simp only [hamount] at hset
    omega
  · rw [Finmap.lookup_insert_ite] at hb'
    split_ifs at hb' with hk
    · cases hb'
      exact .inr ⟨hk.trans hkey, hvault⟩
    · exact .inl hb'

/-- The loop of `resolve_stake_lock` over its claims credits the sum of the allocations, whatever
accounts they go to. -/
theorem credit_claims_ok {m m' : Accounts ClaimBalance} {claims : List (StakeClaim × AccountInfo)}
    (h : credit_claims m claims = .ok m') :
    Credited m m' ((claims.map fun c => c.1.amount).sum) := by
  -- each turn credits one account of the map the turns before it left
  induction claims generalizing m with
  | nil =>
    simp only [credit_claims, ok_eq_ok] at h
    subst h
    exact .refl m
  | cons entry rest ih =>
    obtain ⟨allocation, account⟩ := entry
    simp only [credit_claims, bind_eq_ok, require_eq_ok, exists_const, load_eq_ok, ok_or_eq_ok,
      Checked.add_eq_some] at h
    obtain ⟨-, -, b, hb, hvault, hbeneficiary, _, ⟨-, rfl⟩, hrest⟩ := h
    rw [List.map_cons, List.sum_cons]
    refine Credited.trans (Credited.insert ?_ ?_ ?_) (ih hrest)
    · rw [init_if_needed_some hb]
    · rw [hbeneficiary]
    · exact hvault

/-! ## The handlers of `stake.rs` -/

/-- Tokens enter stake custody from an account a signer controls. -/
theorem stake_transfer_in {T T' : Accounts TokenAccount} {src mint authority : Pubkey} {x : ℕ}
    (h : transfer_in T src stake_token_vault mint authority x = .ok T') :
    balance T stake_token_vault + x ≤ balance T' stake_token_vault :=
  (transfer_in_ok h).2.ge

/-- A deposit raises the owner's principal and the total by what custody receives. -/
theorem deposit_stake_move {accounts : DepositStake} {amount : ℕ} {s : State} {r' : StakeRecords}
    {T' : Accounts TokenAccount} (hr : StakeCanonical s.toStakeRecords)
    (h : handle_deposit_stake accounts amount s.toStakeRecords s.tokens = .ok (r', T'))
    (ix : TopLevel) : StakeMove ix s { s with toStakeRecords := r', tokens := T' } := by
  simp only [handle_deposit_stake, bind_eq_ok, signer_eq_ok, require_eq_ok, exists_const,
    ok_or_eq_ok, Checked.add_eq_some, pure_eq_ok, Prod.mk.injEq] at h
  obtain ⟨-, _, -, _, -, -, T₁, htransfer, _, ⟨-, rfl⟩, _, ⟨-, rfl⟩, rfl, rfl⟩ := h
  refine .deposited accounts.owner _ amount ?_ rfl ?_ ?_ rfl rfl rfl rfl
    (stake_transfer_in htransfer)
  · obtain ⟨ho, hv⟩ := opened_position_at hr accounts.owner
    exact ⟨ho, hv⟩
  · exact congrArg (· + amount) (opened_position_balance _ _)
  · exact opened_position_locked _ _

/-- A withdrawal takes free stake only, and takes the same amount off the principal, the total and
custody. -/
theorem withdraw_stake_move {accounts : WithdrawStake} {amount : ℕ} {s : State}
    {r' : StakeRecords} {T' : Accounts TokenAccount}
    (h : handle_withdraw_stake accounts amount s.toStakeRecords s.tokens = .ok (r', T')) :
    StakeMove (.program (.stake (.withdraw_stake accounts amount))) s
      { s with toStakeRecords := r', tokens := T' } := by
  simp only [handle_withdraw_stake, StakePosition.free, bind_eq_ok, signer_eq_ok, load_eq_ok,
    require_eq_ok, exists_const, ok_or_eq_ok, Checked.sub_eq_some, pure_eq_ok, Prod.mk.injEq] at h
  obtain ⟨-, p, hp, hvault, howner, _, -, _, -, -, _, ⟨hlocked, rfl⟩, hfree, _, ⟨hbalance, rfl⟩, _,
    ⟨hstaked, rfl⟩, T₁, htransfer, rfl, rfl⟩ := h
  refine .withdrawn accounts p _ amount rfl ?_ hp rfl ?_ ?_ rfl rfl rfl ?_ rfl
    (transfer_checked_balance htransfer)
  · exact ⟨howner, hvault⟩
  · omega
  · exact Nat.sub_add_cancel hbalance
  · exact Nat.sub_add_cancel hstaked

theorem claim_stake_move {accounts : ClaimStake} {s : State} {r' : StakeRecords}
    {T' : Accounts TokenAccount}
    (h : handle_claim_stake accounts s.toStakeRecords s.tokens = .ok (r', T')) (ix : TopLevel) :
    StakeMove ix s { s with toStakeRecords := r', tokens := T' } := by
  simp only [handle_claim_stake, bind_eq_ok, signer_eq_ok, load_eq_ok, require_eq_ok,
    exists_const, ok_or_eq_ok, Checked.sub_eq_some, pure_eq_ok, Prod.mk.injEq] at h
  obtain ⟨-, c, hc, -, -, _, -, _, -, -, _, ⟨hclaimable, rfl⟩, T₁, htransfer, rfl, rfl⟩ := h
  refine .claimed _ c hc rfl rfl rfl rfl ?_ (transfer_checked_balance htransfer)
  exact Nat.sub_add_cancel hclaimable

theorem initialize_claim_balance_move {accounts : InitializeClaimBalance} {s : State}
    {r' : StakeRecords} (hr : StakeCanonical s.toStakeRecords)
    (h : handle_initialize_claim_balance accounts s.toStakeRecords = .ok r') (ix : TopLevel) :
    StakeMove ix s { s with toStakeRecords := r' } := by
  simp only [handle_initialize_claim_balance, bind_eq_ok, signer_eq_ok, require_eq_ok,
    exists_const, pure_eq_ok] at h
  obtain ⟨-, hzero, rfl⟩ := h
  refine .prepared ?_ rfl rfl rfl rfl le_rfl
  -- a claim that was already there has its beneficiary written, so it is left as it was
  cases hc : s.claims.lookup (claim_balance_address stake_vault_address accounts.beneficiary) with
  | none =>
    have hdefault : (default : ClaimBalance).beneficiary = Pubkey.default := rfl
    refine Credited.insert ?_ ?_ ?_ <;>
      simp only [init_if_needed, hc, Option.getD_none, opened_claim, if_pos hdefault]
    rfl
  | some c =>
    obtain ⟨hkey, hvault⟩ := hr.claim _ _ hc
    have hbeneficiary : c.beneficiary = accounts.beneficiary := by
      injection hkey with _ _ h
      exact h.symm
    have hne : c.beneficiary ≠ Pubkey.default := hbeneficiary ▸ hzero
    refine Credited.insert ?_ ?_ ?_ <;>
      simp only [init_if_needed, hc, Option.getD_some, opened_claim, if_neg hne, Nat.add_zero]
    · exact hkey
    · exact hvault

/-- The controller locks stake its owner already has free. -/
theorem controller_lock_stake_move {ctx : TxContext} {accounts : ControllerLockStake}
    {args : ControllerLockArgs} {s : State} {r' : StakeRecords}
    (hr : StakeCanonical s.toStakeRecords)
    (h : handle_controller_lock_stake ctx accounts args s.toStakeRecords = .ok r')
    (ix : TopLevel) : StakeMove ix s { s with toStakeRecords := r' } := by
  simp only [handle_controller_lock_stake, bind_eq_ok, signer_eq_ok, load_eq_ok, init_eq_ok,
    require_eq_ok, exists_const, pure_eq_ok] at h
  obtain ⟨-, -, p, hp, -, hfresh, -, -, p', hlock, rfl⟩ := h
  obtain ⟨-, hle, rfl⟩ := StakePosition.lock_ok hlock
  obtain ⟨ho, hv⟩ := hr.position_at hp
  have hinit := init_if_needed_some hp
  refine .locked accounts.stake_owner args.lock_id _ _ 0 ?_ ?_ ?_ rfl ?_ ?_ hle hfresh rfl rfl rfl
    rfl le_rfl
  · exact ⟨ho, hv⟩
  · exact ⟨rfl, rfl⟩
  · rfl
  · rw [hinit, Nat.add_zero]
  · rw [hinit]
    rfl

/-- The controller funds a lock with its own tokens, so the principal and the lock grow together. -/
theorem controller_fund_lock_move {ctx : TxContext} {accounts : ControllerFundLock}
    {args : ControllerLockArgs} {s : State} {r' : StakeRecords} {T' : Accounts TokenAccount}
    (hr : StakeCanonical s.toStakeRecords)
    (h : handle_controller_fund_lock ctx accounts args s.toStakeRecords s.tokens = .ok (r', T'))
    (ix : TopLevel) : StakeMove ix s { s with toStakeRecords := r', tokens := T' } := by
  simp only [handle_controller_fund_lock, bind_eq_ok, signer_eq_ok, init_eq_ok, require_eq_ok,
    exists_const, ok_or_eq_ok, Checked.add_eq_some, pure_eq_ok, Prod.mk.injEq] at h
  obtain ⟨-, -, hfresh, _, -, _, -, -, -, -, T₁, htransfer, _, ⟨-, rfl⟩, p', hlock, _, ⟨-, rfl⟩, rfl,
    rfl⟩ := h
  obtain ⟨-, hle, rfl⟩ := StakePosition.lock_ok hlock
  obtain ⟨ho, hv⟩ := opened_position_at hr accounts.stake_owner
  -- the received tokens enter the balance and the lock in one move
  refine .locked accounts.stake_owner args.lock_id _ _ args.amount ?_ ?_ ?_ rfl ?_ ?_ hle hfresh rfl
    rfl rfl rfl (stake_transfer_in htransfer)
  · exact ⟨ho, hv⟩
  · exact ⟨rfl, rfl⟩
  · rfl
  · exact congrArg (· + args.amount) (opened_position_balance _ _)
  · exact congrArg (· + args.amount) (opened_position_locked _ _)

/-- Increasing a lock takes the difference out of its owner's free stake. -/
theorem increase_stake_lock_move {ctx : TxContext} {accounts : ManageStakeLock}
    {lock_id : Bytes 32} {additional_amount : ℕ} {s : State} {r' : StakeRecords}
    (hr : StakeCanonical s.toStakeRecords)
    (h : handle_increase_stake_lock ctx accounts lock_id additional_amount s.toStakeRecords
      = .ok r') (ix : TopLevel) : StakeMove ix s { s with toStakeRecords := r' } := by
  simp only [handle_increase_stake_lock, bind_eq_ok, Prod.exists, require_eq_ok, exists_const,
    ok_or_eq_ok, Checked.add_eq_some, pure_eq_ok] at h
  obtain ⟨l, p, hmanaged, -, -, p', hlock, _, ⟨-, rfl⟩, rfl⟩ := h
  obtain ⟨-, -, hl, hp, -⟩ := managed_stake_lock_ok hmanaged
  obtain ⟨-, hle, rfl⟩ := StakePosition.lock_ok hlock
  obtain ⟨ho, hv⟩ := hr.position_at hp
  refine .relocked lock_id p _ l _ hl hp ?_ ?_ rfl rfl ?_ (fun _ => hle) rfl
    ⟨rfl, rfl, rfl, le_rfl⟩
  · exact ⟨ho, hv⟩
  · exact ⟨rfl, rfl, rfl⟩
  show p.locked + additional_amount + l.amount = p.locked + (l.amount + additional_amount)
  omega

/-- A lock that shrinks returns the difference to its owner's free stake. -/
theorem shrunk_position {p p' : StakePosition} {old new : ℕ} (hle : new ≤ old)
    (h : (if 0 < old - new then p.unlock (old - new) else .ok p) = .ok p') :
    p' = { p with locked := p'.locked } ∧ p'.locked + old = p.locked + new := by
  -- `unlock` is skipped for a difference of zero, where the equation holds anyway
  rw [ite_eq_ok] at h
  rcases h with ⟨-, h⟩ | ⟨hzero, h⟩
  · obtain ⟨hlocked, rfl⟩ := StakePosition.unlock_ok h
    refine ⟨rfl, ?_⟩
    show p.locked - (old - new) + old = p.locked + new
    omega
  · rw [ok_eq_ok] at h
    subst h
    exact ⟨rfl, by omega⟩

/-- Resizing takes or returns the difference, as the new amount is above or below the old one. -/
theorem resize_stake_lock_move {ctx : TxContext} {accounts : ManageStakeLock} {lock_id : Bytes 32}
    {new_amount : ℕ} {new_matures_at : ℤ} {s : State} {r' : StakeRecords}
    (hr : StakeCanonical s.toStakeRecords)
    (h : handle_resize_stake_lock ctx accounts lock_id new_amount new_matures_at s.toStakeRecords
      = .ok r') (ix : TopLevel) : StakeMove ix s { s with toStakeRecords := r' } := by
  simp only [handle_resize_stake_lock, bind_eq_ok, Prod.exists, require_eq_ok, exists_const,
    ok_or_eq_ok, Checked.sub_eq_some, pure_eq_ok] at h
  obtain ⟨l, p, hmanaged, -, -, hle, -, _, ⟨-, rfl⟩, p', hunlock, rfl⟩ := h
  obtain ⟨-, -, hl, hp, -⟩ := managed_stake_lock_ok hmanaged
  obtain ⟨hp', hlocked⟩ := shrunk_position hle hunlock
  obtain ⟨ho, hv⟩ := hr.position_at hp
  have hbalance : p'.balance = p.balance := by rw [hp']
  refine .relocked lock_id p p' l _ hl hp ?_ ?_ rfl hbalance hlocked ?_ rfl
    ⟨rfl, rfl, rfl, le_rfl⟩
  · rw [hp']
    exact ⟨ho, hv⟩
  · exact ⟨rfl, rfl, rfl⟩
  · intro hcovered
    omega

/-- A lock removed with its whole amount returned to its owner. -/
theorem removed_move {id : Bytes 32} {p p' : StakePosition} {l : StakeLock} {s s' : State}
    (hr : StakeCanonical s.toStakeRecords)
    (hl : s.stake_locks.lookup (lock_of id) = some l)
    (hp : s.stake_positions.lookup (position_of l.stake_owner) = some p)
    (hunlock : p.unlock l.amount = .ok p')
    (hpositions : s'.stake_positions = s.stake_positions.insert (position_of l.stake_owner) p')
    (hlocks : s'.stake_locks = s.stake_locks.erase (lock_of id)) (htotals : SameTotals s s')
    (ix : TopLevel) : StakeMove ix s s' := by
  obtain ⟨hle, rfl⟩ := StakePosition.unlock_ok hunlock
  obtain ⟨ho, hv⟩ := hr.position_at hp
  obtain ⟨hclaims, hstaked, hclaimable, hvault⟩ := htotals
  refine .removed id p _ l 0 hl hp ?_ hpositions rfl ?_ (Nat.zero_le _) hlocks ?_ hstaked
    hclaimable hvault (.inl rfl)
  · exact ⟨ho, hv⟩
  · exact Nat.sub_add_cancel hle
  · rw [hclaims]
    exact .refl _

theorem controller_unlock_stake_move {accounts : ManageStakeLock} {lock_id : Bytes 32} {s : State}
    {r' : StakeRecords} (hr : StakeCanonical s.toStakeRecords)
    (h : handle_controller_unlock_stake accounts lock_id s.toStakeRecords = .ok r')
    (ix : TopLevel) : StakeMove ix s { s with toStakeRecords := r' } := by
  simp only [handle_controller_unlock_stake, bind_eq_ok, Prod.exists, pure_eq_ok] at h
  obtain ⟨l, p, hmanaged, p', hunlock, rfl⟩ := h
  obtain ⟨-, -, hl, hp, -⟩ := managed_stake_lock_ok hmanaged
  refine removed_move hr hl hp hunlock ?_ ?_ ⟨?_, ?_, ?_, ?_⟩ ix
  all_goals rfl

/-- A resolution removes the lock, turns the allocations into claims and frees the rest; the vault's
controller signs it. -/
theorem resolve_stake_lock_move {accounts : ResolveStakeLock} {lock_id : Bytes 32}
    {claims : List StakeClaim} {s : State} {r' : StakeRecords}
    (hr : StakeCanonical s.toStakeRecords)
    (h : handle_resolve_stake_lock accounts lock_id claims s.toStakeRecords = .ok r')
    (ix : TopLevel) : StakeMove ix s { s with toStakeRecords := r' } := by
  simp only [handle_resolve_stake_lock, bind_eq_ok, signer_eq_ok, load_eq_ok, require_eq_ok,
    exists_const, ok_or_eq_ok, Checked.add_eq_some, Checked.sub_eq_some, pure_eq_ok] at h
  obtain ⟨hsign, hcontroller, l, hl, p, hp, -, hlength, total, htotal, p', hresolve, _,
    ⟨hstaked, rfl⟩, _, ⟨-, rfl⟩, credited, hcredit, rfl⟩ := h
  obtain ⟨hbounded, hlocked, hbalance, rfl⟩ := StakePosition.resolve_ok hresolve
  obtain ⟨ho, hv⟩ := hr.position_at hp
  have hcredited := credit_claims_ok hcredit
  rw [total_claims_zip htotal hlength] at hcredited
  refine .removed lock_id p _ l total hl hp ?_ rfl ?_ ?_ hbounded rfl hcredited ?_ rfl le_rfl
    (.inr (.inl ?_))
  · exact ⟨ho, hv⟩
  · exact Nat.sub_add_cancel hbalance
  · exact Nat.sub_add_cancel hlocked
  · exact Nat.sub_add_cancel hstaked
  · rw [← hcontroller]
    exact hsign

/-! ## The lifecycle instructions

A closing intent writes the stake ledger through its coverage only: `s₁` is the
state with the coverage resolved, `s'` the state the whole instruction leaves. -/

theorem CoverageCancelled.move {s s₁ s' : State} {hash : Bytes 32} {dispute : DisputeIntent}
    {l : StakeLock} {p p' : StakePosition} (h : CoverageCancelled s s₁ hash dispute l p p')
    (hr : StakeCanonical s.toStakeRecords) (hrecords : s'.toStakeRecords = s₁.toStakeRecords)
    (hvault : balance s.tokens stake_token_vault ≤ balance s'.tokens stake_token_vault)
    (ix : TopLevel) : StakeMove ix s s' := by
  -- the lock's owner is compared with the position's, and the position's address carries the
  -- owner the coverage names: the three agree
  have howner : dispute.stake_owner = l.stake_owner :=
    (hr.position_at h.position).owner.symm.trans h.owner.symm
  have hposition := h.position
  have hpost := h.post
  rw [howner] at hposition hpost
  rw [hpost] at hrecords
  refine removed_move hr h.lock hposition h.unlocked ?_ ?_ ⟨?_, ?_, ?_, hvault⟩ ix
  all_goals rw [hrecords]

/-- Settled coverage keeps a lock of the amount released; the rest of it is free again. -/
theorem CoverageSettled.move {ctx : TxContext} {s s₁ s' : State} {i : Intent} {released : ℕ}
    {dispute : DisputeIntent} {l : StakeLock} {p p' : StakePosition}
    (h : CoverageSettled ctx s s₁ i released dispute l p p')
    (hr : StakeCanonical s.toStakeRecords) (hrecords : s'.toStakeRecords = s₁.toStakeRecords)
    (hvault : balance s.tokens stake_token_vault ≤ balance s'.tokens stake_token_vault)
    (ix : TopLevel) : StakeMove ix s s' := by
  obtain ⟨ho, hv⟩ := hr.position_at h.position
  have howner : dispute.stake_owner = l.stake_owner := ho.symm.trans h.owner.symm
  obtain ⟨hp', hlocked⟩ := shrunk_position h.bounded h.shrunk
  have hbalance : p'.balance = p.balance := by rw [hp']
  have hposition := h.position
  have hpost := h.post
  rw [howner] at hposition hpost ho
  rw [hpost] at hrecords
  refine .relocked i.intent_hash p p' l
    { l with amount := released, matures_at := ctx.now + dispute.risk_window } h.lock hposition ?_
    ⟨rfl, rfl, rfl⟩ ?_ hbalance hlocked ?_ ?_ ⟨?_, ?_, ?_, hvault⟩
  · rw [hp']
    exact ⟨ho, hv⟩
  · rw [hrecords]
  · have := h.bounded
    intro hcovered
    omega
  all_goals rw [hrecords]

theorem CoveragePrepared.move {rt : Runtime} {accounts : PrepareDispute}
    {args : PrepareDisputeArgs} {s s' : State} {d : Deposit} {risk : RiskWindow}
    {p p' : StakePosition} (h : CoveragePrepared rt accounts args s s' d risk p p')
    (hr : StakeCanonical s.toStakeRecords) (ix : TopLevel) : StakeMove ix s s' := by
  obtain ⟨-, hle, rfl⟩ := StakePosition.lock_ok h.locked
  obtain ⟨ho, hv⟩ := hr.position_at h.position
  have hinit := init_if_needed_some h.position
  have hpost := h.post
  subst hpost
  refine .locked accounts.stake_owner args.expected_intent_hash _ _ 0 ?_ ?_ ?_ rfl ?_ ?_ hle
    h.lock_fresh rfl rfl rfl rfl le_rfl
  · exact ⟨ho, hv⟩
  · exact ⟨rfl, rfl⟩
  · rfl
  · rw [hinit, Nat.add_zero]
  · rw [hinit]

/-- The depositor's claim account, found or fresh, is written back with the amount more. -/
theorem credited_claim_ok {r : StakeRecords} (hr : StakeCanonical r) {depositor : Pubkey}
    {amount : ℕ} {c : ClaimBalance}
    (h : credited_claim
      (init_if_needed r.claims (claim_balance_address stake_vault_address depositor)) depositor
      amount = .ok c) :
    Credited r.claims
      (r.claims.insert (claim_balance_address stake_vault_address depositor) c) amount := by
  simp only [credited_claim, bind_eq_ok, ok_or_eq_ok, Checked.add_eq_some, ite_eq_ok,
    pure_eq_ok] at h
  obtain ⟨_, ⟨-, rfl⟩, ⟨-, rfl⟩ | ⟨hset, rfl⟩⟩ := h
  · exact .insert rfl rfl rfl
  · cases hc : r.claims.lookup (claim_balance_address stake_vault_address depositor) with
    -- a fresh account has no beneficiary yet, so it takes the other branch
    | none =>
      rw [init_if_needed, hc] at hset
      exact absurd rfl hset
    | some b =>
      obtain ⟨hkey, hvault⟩ := hr.claim _ _ hc
      refine .insert rfl ?_ ?_ <;> rw [init_if_needed_some hc]
      · exact hkey
      · exact hvault

/-- A dispute turns its whole lock into a claim of the depositor. -/
theorem CoverageDisputed.move {s s' : State} {hash seed nullifier : Bytes 32}
    {dispute : DisputeIntent} {l : StakeLock} {p p' : StakePosition} {c' : ClaimBalance}
    (h : CoverageDisputed s s' hash seed nullifier dispute l p p' c')
    (hr : StakeCanonical s.toStakeRecords) (accounts : SubmitDispute) (args : SubmitDisputeArgs) :
    StakeMove (.program (.submit_dispute accounts args)) s s' := by
  obtain ⟨-, hlocked, hbalance, rfl⟩ := StakePosition.resolve_ok h.resolved
  obtain ⟨ho, hv⟩ := hr.position_at h.position
  have hposition := h.position
  have hpost := h.post
  rw [← h.owner] at hposition hpost ho
  subst hpost
  -- the whole amount of the lock becomes a claim
  refine .removed hash p _ l l.amount h.lock hposition ?_ rfl ?_ ?_ le_rfl rfl ?_ ?_ rfl le_rfl
    (.inr (.inr ⟨accounts, args, rfl⟩))
  · exact ⟨ho, hv⟩
  · exact Nat.sub_add_cancel hbalance
  · exact Nat.sub_add_cancel hlocked
  · exact credited_claim_ok hr h.credited
  · exact Nat.sub_add_cancel h.staked

/-- A release returns the lock to its owner, or, where the lock is another owner's, to the owner
the coverage names. -/
theorem release_matured_dispute_move {ctx : TxContext} {accounts : ReleaseMaturedDispute}
    {s s' : State} (hr : StakeCanonical s.toStakeRecords)
    (h : handle_release_matured_dispute ctx accounts s = .ok s') :
    StakeMove (.program (.release_matured_dispute accounts)) s s' := by
  obtain ⟨dispute, l, p, p', hdispute, -, -, -, hl, -, hp, hunlock, rfl⟩ :=
    release_matured_dispute_ok h
  -- the handler never compares the two owners, so both cases are real
  by_cases howner : l.stake_owner = dispute.stake_owner
  · rw [← howner] at hp ⊢
    refine removed_move hr hl hp hunlock ?_ ?_ ⟨?_, ?_, ?_, ?_⟩ _
    all_goals rfl
  · obtain ⟨hle, rfl⟩ := StakePosition.unlock_ok hunlock
    obtain ⟨ho, hv⟩ := hr.position_at hp
    refine .misreleased accounts dispute p _ l rfl hdispute hl howner hp ?_ rfl rfl
      (Nat.sub_add_cancel hle) rfl ⟨rfl, rfl, rfl, le_rfl⟩
    exact ⟨ho, hv⟩

/-- An instruction that leaves the stake records alone and does not drain the custody account. -/
theorem StakeMove.of_frame {ix : TopLevel} {s s' : State}
    (hrecords : s'.toStakeRecords = s.toStakeRecords)
    (hvault : Keeps s.tokens s'.tokens stake_token_vault) : StakeMove ix s s' := by
  refine .quiet ?_ ?_ ⟨?_, ?_, ?_, hvault.balance_le⟩
  all_goals rw [hrecords]

/-- Settling an intent moves the stake of its coverage and nothing else of the stake ledger. -/
theorem settle_intent_move {ctx : TxContext} {k : Pubkey} {live : LiveIntent}
    {tokens : SettlementTokenAccounts} {dispute : SettlementDisputeAccounts}
    {remaining_accounts : List AccountInfo} {released : ℕ} {s s₁ s' : State}
    (hr : StakeCanonical s.toStakeRecords)
    (h : settle_intent ctx k live tokens dispute remaining_accounts released s = .ok s₁)
    (hrecords : s'.toStakeRecords = s₁.toStakeRecords) (htokens : s'.tokens = s₁.tokens)
    (ix : TopLevel) : StakeMove ix s s' := by
  obtain ⟨s₂, deposit, T, hdispute, -, hpaid, rfl⟩ := settle_intent_ok h
  -- a settlement pays out of a deposit's vault, never out of the stake vault
  have hvault : Keeps s.tokens s'.tokens stake_token_vault := by
    rw [htokens]
    exact hpaid.keeps _ (by simp)
  rcases settle_dispute_ok hdispute with ⟨-, rfl⟩ | ⟨-, -, _, _, _, _, hsettled⟩
  · exact .of_frame hrecords hvault
  · exact hsettled.move hr hrecords hvault.balance_le ix

/-! ## Every instruction is a move -/

/-- Each instruction of `stake.rs` is one move of the vault. -/
theorem stake_instruction_move {ctx : TxContext} {ix : StakeInstruction} {s : State}
    {r' : StakeRecords} {T' : Accounts TokenAccount} (hr : StakeCanonical s.toStakeRecords)
    (h : ix.execute ctx s.toStakeRecords s.tokens = .ok (r', T')) :
    StakeMove (.program (.stake ix)) s { s with toStakeRecords := r', tokens := T' } := by
  cases ix with
  | initialize_stake_token_vault accounts =>
    simp only [StakeInstruction.execute, handle_initialize_stake_token_vault, bind_eq_ok,
      signer_eq_ok, init_eq_ok, exists_const, pure_eq_ok, Prod.mk.injEq] at h
    obtain ⟨_, ⟨-, hfresh, rfl⟩, rfl, rfl⟩ := h
    -- the custody account is opened empty
    exact .of_frame rfl (Keeps.insert hfresh)
  | deposit_stake accounts amount => exact deposit_stake_move hr h _
  | withdraw_stake accounts amount => exact withdraw_stake_move h
  | claim_stake accounts => exact claim_stake_move h _
  | controller_fund_lock accounts args => exact controller_fund_lock_move hr h _
  | initialize_claim_balance accounts =>
    simp only [StakeInstruction.execute, bind_eq_ok, pure_eq_ok, Prod.mk.injEq] at h
    obtain ⟨_, h, rfl, rfl⟩ := h
    exact initialize_claim_balance_move hr h _
  | controller_lock_stake accounts args =>
    simp only [StakeInstruction.execute, bind_eq_ok, pure_eq_ok, Prod.mk.injEq] at h
    obtain ⟨_, h, rfl, rfl⟩ := h
    exact controller_lock_stake_move hr h _
  | increase_stake_lock accounts lock_id additional_amount =>
    simp only [StakeInstruction.execute, bind_eq_ok, pure_eq_ok, Prod.mk.injEq] at h
    obtain ⟨_, h, rfl, rfl⟩ := h
    exact increase_stake_lock_move hr h _
  | resize_stake_lock accounts lock_id new_amount new_matures_at =>
    simp only [StakeInstruction.execute, bind_eq_ok, pure_eq_ok, Prod.mk.injEq] at h
    obtain ⟨_, h, rfl, rfl⟩ := h
    exact resize_stake_lock_move hr h _
  | controller_unlock_stake accounts lock_id =>
    simp only [StakeInstruction.execute, bind_eq_ok, pure_eq_ok, Prod.mk.injEq] at h
    obtain ⟨_, h, rfl, rfl⟩ := h
    exact controller_unlock_stake_move hr h _
  | resolve_stake_lock accounts lock_id claims =>
    simp only [StakeInstruction.execute, bind_eq_ok, pure_eq_ok, Prod.mk.injEq] at h
    obtain ⟨_, h, rfl, rfl⟩ := h
    exact resolve_stake_lock_move hr h _

/-- Every top-level instruction is one move of the abstract stake vault. -/
theorem stake_move {rt : Runtime} {ctx : TxContext} {before after : List TopLevel} {s s' : State}
    {ix : TopLevel} (hT : TokensOk s.tokens) (hr : StakeCanonical s.toStakeRecords)
    (hc : CoverageCanonical s.toDisputeRecords)
    (h : ix.execute rt ctx before after s = .ok s') : StakeMove ix s s' := by
  cases ix with
  | ed25519 data =>
    simp only [TopLevel.execute, bind_eq_ok, require_eq_ok, exists_const, pure_eq_ok] at h
    obtain ⟨-, rfl⟩ := h
    exact .of_frame rfl (.refl _ _)
  | external tokens =>
    simp only [TopLevel.execute, bind_eq_ok, require_eq_ok, exists_const, pure_eq_ok] at h
    obtain ⟨hext, rfl⟩ := h
    exact .of_frame rfl (external_ok_keeps hext rfl)
  | program ix =>
    cases ix with
    | open_records ix | rate_managers ix | whitelists ix | verifier ix | dispute_policy ix
    | deposit_config ix =>
      simp only [TopLevel.execute, Instruction.execute, bind_eq_ok, pure_eq_ok] at h
      obtain ⟨_, -, rfl⟩ := h
      exact .of_frame rfl (.refl _ _)
    | governance ix =>
      obtain ⟨hframe, -⟩ := governance_ok h
      refine .quiet hframe.stake_positions hframe.stake_locks
        ⟨hframe.claims, hframe.total_staked, hframe.total_claimable, ?_⟩
      rw [hframe.tokens]
    | custody ix =>
      simp only [TopLevel.execute, Instruction.execute, bind_eq_ok, pure_eq_ok, Prod.exists] at h
      obtain ⟨_, _, h, rfl⟩ := h
      exact .of_frame rfl (custody_tokens hT h).2
    | stake ix =>
      simp only [TopLevel.execute, Instruction.execute, bind_eq_ok, pure_eq_ok, Prod.exists] at h
      obtain ⟨_, _, h, rfl⟩ := h
      exact stake_instruction_move hr h
    | signal_intent accounts args =>
      obtain ⟨_, _, _, _, _, _, hsignaled⟩ := signal_intent_ok h
      rw [hsignaled.post]
      exact .of_frame rfl (.refl _ _)
    | cancel_intent accounts =>
      obtain ⟨_, _, _, -, -, -, -, -, -, rfl⟩ := cancel_intent_ok h
      exact .of_frame rfl (.refl _ _)
    -- of the closing instructions only those of a covered intent touch the stake ledger
    | prune_expired_intent accounts =>
      obtain ⟨_, _, _, -, -, hprune, -, rfl⟩ := prune_expired_intent_ok h
      rcases prune_dispute_ok hprune with ⟨-, rfl⟩ | ⟨-, _, _, _, _, hcancelled⟩
      · exact .of_frame rfl (.refl _ _)
      · refine hcancelled.move hr ?_ ?_ _
        · rfl
        · rw [hcancelled.post]
          rfl
    | prepare_dispute accounts args =>
      obtain ⟨_, _, _, _, _, _, hprepared, -⟩ := prepare_dispute_ok h
      exact hprepared.move hr _
    | cancel_dispute accounts =>
      obtain ⟨_, _, _, _, _, _, -, -, hcancelled, -⟩ := cancel_dispute_ok hc h
      refine hcancelled.move hr rfl ?_ _
      rw [hcancelled.post]
    | release_matured_dispute accounts => exact release_matured_dispute_move hr h
    | submit_dispute accounts args =>
      obtain ⟨_, _, _, _, _, _, hdisputed, -⟩ := submit_dispute_ok h
      exact hdisputed.move hr accounts args
    | fulfill_intent accounts args =>
      obtain ⟨_, _, -, -, -, -, -, hsettle, rfl⟩ := fulfill_intent_ok h
      refine settle_intent_move hr hsettle ?_ ?_ _
      all_goals rfl
    | manual_release accounts =>
      obtain ⟨_, -, -, -, hsettle⟩ := manual_release_ok h
      exact settle_intent_move hr hsettle rfl rfl _

end Zkp2pSolana
