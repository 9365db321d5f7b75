/-
The stake vault is solvent, and what its locks are backed by.

`Solvent` ties the two aggregates to the positions and claims they stand for and
to the tokens in custody. It is kept by every move of the abstract vault, whoever
the controller is, so it holds in every state of every run.

`Backed` says that the stake an owner has locked is exactly the sum of the locks
taken from that owner. Every move keeps it but one: `release_matured_dispute`
returns a lock to the owner its coverage names without comparing it to the owner
the lock names, so a successor controller that re-creates a lock under the hash of
a settled intent can have it released against the wrong position.
-/
import Zkp2pSolana.LifecycleMoves

set_option autoImplicit false

namespace Zkp2pSolana

open Result Zkp2pError

/-! ## Solvency -/

/-- The aggregates are the sums they stand for, and custody covers them. -/
structure Solvent (s : State) : Prop where
  staked : s.stake_vault.total_staked
    = s.stake_positions.total fun _ p => p.balance
  claimable : s.stake_vault.total_claimable = s.claims.total fun _ c => c.amount
  custody : s.stake_vault.total_staked + s.stake_vault.total_claimable
    ≤ balance s.tokens stake_token_vault
  covered : ∀ k p, s.stake_positions.lookup k = some p → p.locked ≤ p.balance

/-- The total of the balances after one position is written. -/
theorem staked_insert {m m' : Accounts StakePosition} {k : Pubkey} {p' : StakePosition}
    (h : m' = m.insert k p') :
    m'.total (fun _ p => p.balance) + (init_if_needed m k).balance
      = m.total (fun _ p => p.balance) + p'.balance := by
  have hset := Finmap.total_set (fun _ (p : StakePosition) => p.balance) m k p'
  rw [← init_position_balance, h]
  exact hset

section Positions

variable {s s' : State}

/-- An account that is still to be opened is covered: it has nothing locked. -/
theorem Solvent.init_covered (hs : Solvent s) (k : Pubkey) :
    (init_if_needed s.stake_positions k).locked
      ≤ (init_if_needed s.stake_positions k).balance := by
  unfold init_if_needed
  cases hp : s.stake_positions.lookup k with
  | none => exact le_rfl
  | some p => exact hs.covered k p hp

/-- Writing one covered position keeps all of them covered. -/
theorem Solvent.insert_covered (hs : Solvent s) {k₀ : Pubkey} {p' : StakePosition}
    (h : s'.stake_positions = s.stake_positions.insert k₀ p') (hp' : p'.locked ≤ p'.balance)
    (k : Pubkey) (p : StakePosition) (hp : s'.stake_positions.lookup k = some p) :
    p.locked ≤ p.balance := by
  rw [h, Finmap.lookup_insert_ite] at hp
  split_ifs at hp
  · cases hp
    exact hp'
  · exact hs.covered k p hp

/-- Solvency depends only on these sums; a move that shifts `x` of stake and `c` of claims in step
with custody keeps it. -/
theorem StakeMove.solvent {ix : TopLevel} (h : StakeMove ix s s') (hs : Solvent s) :
    Solvent s' := by
  obtain ⟨hstaked, hclaimable, hcustody, hcovered⟩ := id hs
  cases h with
  | quiet positions locks totals =>
    obtain ⟨claims, staked, claimable, vault⟩ := totals
    exact ⟨by rw [staked, positions, hstaked], by rw [claimable, claims, hclaimable],
      by omega, positions ▸ hcovered⟩
  -- positions, aggregate and custody grow by the same amount
  | deposited o p' x _ positions balance_eq locked_eq locks claims staked claimable vault =>
    have hsum := staked_insert positions
    have hinit := hs.init_covered (position_of o)
    exact ⟨by omega, by rw [claimable, claims, hclaimable], by omega,
      hs.insert_covered positions (by omega)⟩
  | withdrawn accounts p p' x _ _ position positions free balance_eq locked_eq locks claims staked
      claimable vault =>
    have hsum := staked_insert positions
    rw [init_if_needed_some position] at hsum
    exact ⟨by omega, by rw [claimable, claims, hclaimable], by omega,
      hs.insert_covered positions (by omega)⟩
  -- what leaves custody leaves the claims and their aggregate
  | claimed k c claim claims positions locks staked claimable vault =>
    have hsum := Finmap.total_update (fun _ (c : ClaimBalance) => c.amount) (v := { c with amount := 0 })
      claim
    rw [← claims] at hsum
    simp only [Nat.add_zero] at hsum
    exact ⟨by rw [staked, positions, hstaked], by omega, by omega, positions ▸ hcovered⟩
  | prepared credited positions locks staked claimable vault =>
    have hsum := credited.total
    exact ⟨by rw [staked, positions, hstaked], by omega, by omega, positions ▸ hcovered⟩
  | locked o id p' l x _ _ _ positions balance_eq locked_eq covered fresh locks claims staked claimable
      vault =>
    have hsum := staked_insert positions
    exact ⟨by omega, by rw [claimable, claims, hclaimable], by omega,
      hs.insert_covered positions covered⟩
  | relocked id p p' l l' lock position _ _ positions balance_eq locked_eq covered locks totals =>
    obtain ⟨claims, staked, claimable, vault⟩ := totals
    have hsum := staked_insert positions
    rw [init_if_needed_some position] at hsum
    exact ⟨by omega, by rw [claimable, claims, hclaimable], by omega,
      hs.insert_covered positions (covered (hcovered _ _ position))⟩
  -- `c` goes from staked to claimable, so what custody must cover is unchanged
  | removed id p p' l c lock position _ positions balance_eq locked_eq bounded locks credited staked
      claimable vault =>
    have hsum := staked_insert positions
    rw [init_if_needed_some position] at hsum
    have hclaims := credited.total
    have hold := hcovered _ _ position
    exact ⟨by omega, by omega, by omega, hs.insert_covered positions (by omega)⟩
  -- the wrong position is freed, but no balance moves: solvency does not notice
  | misreleased accounts dispute p p' l _ _ _ _ position _ positions balance_eq locked_eq locks
      totals =>
    obtain ⟨claims, staked, claimable, vault⟩ := totals
    have hsum := staked_insert positions
    rw [init_if_needed_some position] at hsum
    have hold := hcovered _ _ position
    exact ⟨by omega, by rw [claimable, claims, hclaimable], by omega,
      hs.insert_covered positions (by omega)⟩

end Positions

theorem genesis_solvent {rt : Runtime} {s : State} (h : genesis rt s) : Solvent s := by
  obtain ⟨_, _, _, _, _, _, tokens, rfl, -⟩ := genesis_ok h
  refine ⟨?_, ?_, Nat.zero_le _, fun k p hp => ?_⟩
  · exact (Finmap.total_empty _).symm
  · exact (Finmap.total_empty _).symm
  · exact absurd hp (by simp [initial_state])

/-- Around every event of a run the ledger is in order and the vault solvent. -/
theorem Run.solvent {rt : Runtime} {es : List Event} {s : State} (h : Run rt es s) :
    (LedgerOk s ∧ Solvent s)
      ∧ ∀ e ∈ es, (LedgerOk e.pre ∧ Solvent e.pre) ∧ LedgerOk e.post ∧ Solvent e.post :=
  -- the moves are available only where records sit at their addresses, hence the pair
  TxMachine.Run.invariant (G := fun _ => True)
    (I := fun s => LedgerOk s ∧ Solvent s) (fun _ h0 => ⟨genesis_ledgerOk h0, genesis_solvent h0⟩)
    (fun _ _ hv hs => ⟨LedgerOk.step hs.1 hv,
      (stake_move hs.1.tokens hs.1.stake hs.1.coverage hv).solvent hs.2⟩)
    h fun _ _ => trivial

/-- The stake vault is solvent in every state of every run, whoever controls it. -/
theorem stake_vault_solvent {rt : Runtime} {es : List Event} {s : State} (h : Run rt es s) :
    Solvent s ∧ ∀ e ∈ es, Solvent e.pre ∧ Solvent e.post := by
  obtain ⟨hs, hes⟩ := Run.solvent h
  exact ⟨hs.2, fun e he => ⟨(hes e he).1.2, (hes e he).2.2⟩⟩

/-- The vault with collateral under a lock. -/
theorem stake_vault_solvent_covered :
    ∃ es s, Run sample_runtime es s ∧ 0 < s.locked_of sample_taker
      ∧ Solvent s ∧ ∀ e ∈ es, Solvent e.pre ∧ Solvent e.post := by
  obtain ⟨es, s, hrun, hlocked⟩ := sample_reaches [sample_setup, sample_cover]
    (fun _ s => decide (0 < s.locked_of sample_taker)) (by decide +kernel)
  exact ⟨es, s, hrun, of_decide_eq_true hlocked, stake_vault_solvent hrun⟩

/-! ## What is locked is what the locks say -/

/-- The stake an owner has locked is the sum of the live locks taken from that owner. -/
def Backed (s : State) : Prop := ∀ o, s.locked_of o = s.locks_of o

/-- A release, if the event is one, frees the position of the owner its lock was taken from. -/
def ReleasesOwnLock (e : Event) : Prop :=
  ∀ accounts, e.ix = .program (.release_matured_dispute accounts) →
    ∀ d l, e.pre.dispute_intents.lookup accounts.dispute_intent = some d →
      e.pre.stake_locks.lookup (lock_of d.intent_hash) = some l → l.stake_owner = d.stake_owner

/-- The same, computed. -/
def releases_own_lock (e : Event) : Bool :=
  match e.ix with
  | .program (.release_matured_dispute accounts) =>
    (e.pre.dispute_intents.lookup accounts.dispute_intent).all fun d =>
      (e.pre.stake_locks.lookup (lock_of d.intent_hash)).all fun l =>
        decide (l.stake_owner = d.stake_owner)
  | _ => true

theorem releases_own_lock_sound {e : Event} (h : releases_own_lock e = true) :
    ReleasesOwnLock e := by
  intro accounts hix d l hd hl
  unfold releases_own_lock at h
  rw [hix] at h
  simp only [hd, hl, Option.all_some] at h
  exact of_decide_eq_true h

/-- Every move but a misdirected release keeps the locks backed. -/
theorem StakeMove.backed {e : Event} (h : StakeMove e.ix e.pre e.post) (hs : Backed e.pre)
    (hown : ReleasesOwnLock e) : Backed e.post := by
  intro o'
  have hold := hs o'
  unfold StakeRecords.locks_of at hold ⊢
  cases h with
  | quiet positions locks totals =>
    unfold StakeRecords.locked_of at hold ⊢
    rw [positions, locks, hold]
  | deposited o p' x _ positions _ locked_eq locks =>
    rw [locked_of_insert positions, locks, ← hold]
    split_ifs with ho
    · rw [← ho, locked_of_init, locked_eq]
    · rfl
  | withdrawn accounts p p' x _ _ position positions _ _ locked_eq locks =>
    rw [locked_of_insert positions, locks, ← hold]
    split_ifs with ho
    · rw [← ho, locked_of_some position, locked_eq]
    · rfl
  | claimed k c _ _ positions locks =>
    unfold StakeRecords.locked_of at hold ⊢
    rw [positions, locks, hold]
  | prepared _ positions locks =>
    unfold StakeRecords.locked_of at hold ⊢
    rw [positions, locks, hold]
  -- the new lock and the raised counter name the same owner
  | locked o id p' l x _ _ owner positions _ locked_eq _ fresh locks =>
    rw [locked_of_insert positions, locks, Finmap.owed_insert _ _ fresh, ← hold, owner]
    split_ifs with ho
    · rw [← ho, locked_of_init, locked_eq]
    · rfl
  | relocked id p p' l l' lock position _ lock_at positions _ locked_eq _ locks =>
    have howed := Finmap.owed_update StakeLock.stake_owner StakeLock.amount (v := l') lock o'
    rw [locked_of_insert positions, locks]
    rw [lock_at.2.2] at howed
    split_ifs at howed ⊢ with ho
    · rw [← ho, locked_of_some position, ho] at hold
      omega
    · omega
  | removed id p p' l c lock position _ positions _ locked_eq _ locks =>
    have howed := Finmap.owed_erase StakeLock.stake_owner StakeLock.amount lock o'
    rw [locked_of_insert positions, locks]
    split_ifs at howed ⊢ with ho
    · rw [← ho, locked_of_some position, ho] at hold
      omega
    · omega
  -- the one move the condition on releases rules out
  | misreleased accounts dispute p p' l ix_eq dispute_eq lock mismatch =>
    exact absurd (hown accounts ix_eq dispute l dispute_eq lock) mismatch

/-- At the start nothing is locked and there are no locks. -/
theorem genesis_backed {rt : Runtime} {s : State} (h : genesis rt s) : Backed s := by
  obtain ⟨_, _, _, _, _, _, tokens, rfl, -⟩ := genesis_ok h
  intro o
  unfold StakeRecords.locked_of StakeRecords.locks_of initial_state
  rw [Finmap.owed_empty, Finmap.lookup_empty]
  rfl

/-- In a run whose releases all free the owner of the lock they close, the stake of every owner is
locked exactly as far as the live locks say, in every state reached. -/
theorem locked_eq_locks_of_releases_own {rt : Runtime} {es : List Event} {s : State}
    (h : Run rt es s) (hown : ∀ e ∈ es, ReleasesOwnLock e) :
    Backed s ∧ ∀ e ∈ es, Backed e.pre ∧ Backed e.post := by
  obtain ⟨hs, hes⟩ := TxMachine.Run.invariant (G := ReleasesOwnLock)
    (I := fun s => LedgerOk s ∧ Backed s) (fun s h0 => ⟨genesis_ledgerOk h0, genesis_backed h0⟩)
    (fun e hG hv hs => ⟨LedgerOk.step hs.1 hv,
      StakeMove.backed (stake_move hs.1.tokens hs.1.stake hs.1.coverage hv) hs.2 hG⟩)
    h hown
  exact ⟨hs.2, fun e he => ⟨(hes e he).1.2, (hes e he).2.2⟩⟩

/-- The settled coverage of the sample cluster is released after its window. -/
def sample_release : TxContext × List TopLevel :=
  (sample_ctx 6600, [.program (.release_matured_dispute ⟨sample_taker, coverage_of sample_hash⟩)])

/-- A release that returns a lock to its owner. -/
theorem locked_eq_locks_released :
    ∃ es s, Run sample_runtime es s ∧ (∀ e ∈ es, ReleasesOwnLock e)
      ∧ s.stake_locks.lookup (lock_of sample_hash) = none
      ∧ Backed s ∧ ∀ e ∈ es, Backed e.pre ∧ Backed e.post := by
  obtain ⟨es, s, hrun, hgood⟩ := sample_reaches
    [sample_setup, sample_cover, sample_manual_release, sample_release]
    (fun es s => es.all releases_own_lock
      && (s.stake_locks.lookup (lock_of sample_hash)).isNone) (by decide +kernel)
  rw [Bool.and_eq_true, List.all_eq_true] at hgood
  have hown : ∀ e ∈ es, ReleasesOwnLock e := fun e he => releases_own_lock_sound (hgood.1 e he)
  exact ⟨es, s, hrun, hown, Option.isNone_iff_eq_none.mp hgood.2,
    locked_eq_locks_of_releases_own hrun hown⟩

/-- The successor controller of the sample cluster replaces the collateral of a settled intent by a
lock on another owner, and the release of that intent frees the wrong position. -/
def sample_replace_lock : TxContext × List TopLevel :=
  (sample_ctx 90000,
    [.program (.governance (.accept_stake_controller ⟨sample_successor⟩)),
      .program (.stake (.controller_unlock_stake ⟨sample_successor⟩ sample_hash)),
      .program (.stake (.controller_lock_stake ⟨sample_successor, sample_staker⟩
        ⟨sample_hash, 100, 100000⟩)),
      .program (.stake (.controller_lock_stake ⟨sample_successor, sample_taker⟩
        ⟨sample_word 77, 100, 100000⟩)),
      .program (.release_matured_dispute ⟨sample_taker, coverage_of sample_hash⟩)])

/-- Stake stays locked with no lock to free it, and a lock stays live with no stake behind it. -/
theorem locks_not_backed_after_handover :
    ∃ es s, Run sample_runtime es s ∧ s.locks_of sample_staker < s.locked_of sample_staker
      ∧ s.locked_of sample_taker < s.locks_of sample_taker
      ∧ ¬ ∀ o, s.locked_of o = s.locks_of o := by
  obtain ⟨es, s, hrun, hgood⟩ := sample_reaches
    [sample_setup, sample_propose, sample_cover, sample_manual_release, sample_replace_lock]
    (fun _ s => decide (s.locks_of sample_staker < s.locked_of sample_staker)
      && decide (s.locked_of sample_taker < s.locks_of sample_taker)) (by decide +kernel)
  rw [Bool.and_eq_true, decide_eq_true_eq, decide_eq_true_eq] at hgood
  refine ⟨es, s, hrun, hgood.1, hgood.2, fun hbacked => ?_⟩
  have := hbacked sample_staker
  omega

end Zkp2pSolana
