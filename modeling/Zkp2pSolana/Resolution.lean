/-
What `resolve_stake_lock` distributes.

The controller names beneficiaries and amounts, and passes the claim accounts as
loose accounts beside them. One loop checks the list and adds it up, a second
one loads the accounts one by one, credits them and writes them back; the lock
is then removed as a whole, and what was not claimed of it is free stake again.
The second loop is right only because the first refuses a beneficiary that is
named twice: distinct beneficiaries have distinct claim accounts, so no credit is
written over another. Both directions are proved: when the instruction succeeds,
and what it leaves.
-/
import Zkp2pSolana.StakeMoves
import Zkp2pSolana.Lib.FinmapAlter

set_option autoImplicit false

namespace Zkp2pSolana

open Result Zkp2pError

/-- The canonical claim account of an allocation. -/
abbrev StakeClaim.address (c : StakeClaim) : Pubkey :=
  claim_balance_address stake_vault_address c.beneficiary

/-- Different beneficiaries have different claim accounts. -/
theorem claim_address_injective : Function.Injective (claim_balance_address stake_vault_address) := by
  intro b b' h
  injection h

/-! ## The loop over the accounts -/

/-- The claim account of an allocation is open and takes it. -/
def StakeClaim.Open (m : Accounts ClaimBalance) (c : StakeClaim) : Prop :=
  ∃ b, m.lookup c.address = some b ∧ b.vault = stake_vault_address ∧ b.beneficiary = c.beneficiary
    ∧ b.amount + c.amount < 2 ^ 64

/-- An allocation and the account it is paired with. -/
structure ClaimPrepared (m : Accounts ClaimBalance) (c : StakeClaim × AccountInfo) : Prop where
  writable : c.2.is_writable = true
  key : c.2.key = c.1.address
  claim : c.1.Open m

/-- What an allocation does to the claims. -/
def StakeClaim.credit (c : StakeClaim) : Pubkey × (Option ClaimBalance → Option ClaimBalance) :=
  (c.address, Option.map fun b => { b with amount := b.amount + c.amount })

/-- The second loop succeeds exactly if every pair is prepared, and credits every allocation. -/
theorem credit_claims_eq_ok {m m' : Accounts ClaimBalance} {pairs : List (StakeClaim × AccountInfo)}
    (hdistinct : (pairs.map fun c => c.1.beneficiary).Nodup) :
    credit_claims m pairs = .ok m'
      ↔ (∀ c ∈ pairs, ClaimPrepared m c) ∧ m' = m.alter_all (pairs.map fun c => c.1.credit) := by
  -- each turn credits one account of the map the turns before it left
  induction pairs generalizing m with
  | nil =>
    simp only [credit_claims, ok_eq_ok, List.not_mem_nil, false_implies, implies_true, true_and]
    exact eq_comm
  | cons entry rest ih =>
    obtain ⟨c, account⟩ := entry
    rw [List.map_cons, List.nodup_cons] at hdistinct
    obtain ⟨hnew, hdistinct⟩ := hdistinct
    -- the account credited here is none of those still to come
    have hkept : ∀ b : ClaimBalance, ∀ d ∈ rest, ClaimPrepared (m.insert c.address b) d
        ↔ ClaimPrepared m d := by
      intro b d hd
      have hne : d.1.address ≠ c.address := by
        intro heq
        apply hnew
        rw [← claim_address_injective heq]
        exact List.mem_map_of_mem (f := fun c : StakeClaim × AccountInfo => c.1.beneficiary) hd
      have hopen : d.1.Open (m.insert c.address b) ↔ d.1.Open m := by
        unfold StakeClaim.Open
        rw [Finmap.lookup_insert_of_ne m hne]
      exact ⟨fun h => ⟨h.writable, h.key, hopen.mp h.claim⟩,
        fun h => ⟨h.writable, h.key, hopen.mpr h.claim⟩⟩
    simp only [credit_claims, bind_eq_ok, require_eq_ok, exists_const, load_eq_ok, ok_or_eq_ok,
      Checked.add_eq_some]
    rw [List.forall_mem_cons, List.map_cons]
    constructor
    · rintro ⟨hwritable, hkey, b, hb, hvault, hbeneficiary, _, ⟨hword, rfl⟩, hrest⟩
      obtain ⟨hall, heq⟩ := (ih hdistinct).mp hrest
      refine ⟨⟨⟨hwritable, hkey, b, hb, hvault, hbeneficiary, hword⟩, fun d hd => ?_⟩, ?_⟩
      · exact (hkept _ d hd).mp (hall d hd)
      · rw [heq, Finmap.insert_eq_alter hb fun b => { b with amount := b.amount + c.amount }]
        rfl
    · rintro ⟨⟨⟨hwritable, hkey, b, hb, hvault, hbeneficiary, hword⟩, hall⟩, heq⟩
      refine ⟨hwritable, hkey, b, hb, hvault, hbeneficiary, _, ⟨hword, rfl⟩, (ih hdistinct).mpr ⟨?_, ?_⟩⟩
      · intro d hd
        exact (hkept _ d hd).mpr (hall d hd)
      · rw [heq, Finmap.insert_eq_alter hb fun b => { b with amount := b.amount + c.amount }]
        rfl

/-- Pairing the loose accounts with the allocations. -/
theorem zip_prepared_iff {m : Accounts ClaimBalance} {claims : List StakeClaim}
    {accounts : List AccountInfo} (hlength : claims.length = accounts.length) :
    (∀ c ∈ claims.zip accounts, ClaimPrepared m c)
      ↔ (∀ a ∈ accounts, a.is_writable = true)
        ∧ accounts.map AccountInfo.key = claims.map StakeClaim.address
        ∧ ∀ c ∈ claims, c.Open m := by
  induction claims generalizing accounts with
  | nil =>
    rw [List.length_nil] at hlength
    rw [List.length_eq_zero_iff.mp hlength.symm]
    simp
  | cons c claims ih =>
    cases accounts with
    | nil => cases hlength
    | cons a accounts =>
      rw [List.length_cons, List.length_cons, Nat.add_right_cancel_iff] at hlength
      rw [List.zip_cons_cons, List.forall_mem_cons, List.forall_mem_cons, List.forall_mem_cons,
        List.map_cons, List.map_cons, List.cons.injEq, ih hlength]
      constructor
      · rintro ⟨⟨hwritable, hkey, hopen⟩, hwritables, hkeys, hopens⟩
        exact ⟨⟨hwritable, hwritables⟩, ⟨hkey, hkeys⟩, hopen, hopens⟩
      · rintro ⟨⟨hwritable, hwritables⟩, ⟨hkey, hkeys⟩, hopen, hopens⟩
        exact ⟨⟨hwritable, hkey, hopen⟩, hwritables, hkeys, hopens⟩

/-! ## The instruction -/

/-- What the instruction asks for: the controller signs, the allocations are nonzero and for distinct
beneficiaries, each is paired with its open canonical claim account, and together they stay within
the lock and within what the aggregates can follow. -/
structure Resolvable (accounts : ResolveStakeLock) (claims : List StakeClaim) (l : StakeLock)
    (s : StakeRecords) : Prop where
  signer : accounts.controller.can_sign = true
  controller : accounts.controller = s.stake_vault.controller
  nonempty : claims ≠ []
  nonzero : ∀ c ∈ claims, c.beneficiary ≠ Pubkey.default
  positive : ∀ c ∈ claims, 0 < c.amount
  distinct : (claims.map StakeClaim.beneficiary).Nodup
  writable : ∀ a ∈ accounts.remaining_accounts, a.is_writable = true
  paired : accounts.remaining_accounts.map AccountInfo.key = claims.map StakeClaim.address
  prepared : ∀ c ∈ claims, c.Open s.claims
  no_wrap : claims_total claims < 2 ^ 64
  bounded : claims_total claims ≤ l.amount
  staked : claims_total claims ≤ s.stake_vault.total_staked
  claimable : s.stake_vault.total_claimable + claims_total claims < 2 ^ 64

/-- What the instruction leaves: the lock is gone, its owner's position has the whole lock less
locked and the claims less in balance, every named claim has grown by its own allocation and every
other one is as it was, and the aggregates have moved by the claims. -/
structure Resolved (lock_id : Bytes 32) (claims : List StakeClaim) (l : StakeLock)
    (p : StakePosition) (s s' : StakeRecords) : Prop where
  lock : s'.stake_locks = s.stake_locks.erase (lock_of lock_id)
  position : ∃ p', s'.stake_positions = s.stake_positions.insert (position_of l.stake_owner) p'
    ∧ p'.locked + l.amount = p.locked ∧ p'.balance + claims_total claims = p.balance
    ∧ p'.owner = p.owner ∧ p'.vault = p.vault
  named : ∀ c ∈ claims, ∃ b, s.claims.lookup c.address = some b
    ∧ s'.claims.lookup c.address = some { b with amount := b.amount + c.amount }
  others : ∀ k, k ∉ claims.map StakeClaim.address → s'.claims.lookup k = s.claims.lookup k
  staked : s'.stake_vault.total_staked + claims_total claims = s.stake_vault.total_staked
  claimable : s'.stake_vault.total_claimable = s.stake_vault.total_claimable + claims_total claims

/-- `resolve` succeeds exactly when the lock covers the charge and the position covers both. -/
theorem StakePosition.resolve_eq_ok {p p' : StakePosition} {x c : ℕ} :
    p.resolve x c = .ok p' ↔ c ≤ x ∧ x ≤ p.locked ∧ c ≤ p.balance
      ∧ p' = { p with balance := p.balance - c, locked := p.locked - x } := by
  constructor
  · exact StakePosition.resolve_ok
  · rintro ⟨hle, hlocked, hbalance, rfl⟩
    simp only [StakePosition.resolve, StakePosition.unlock, require_true hle, ok_bind,
      Checked.sub_eq_some.mpr ⟨hlocked, rfl⟩, ok_or_some, pure_bind,
      Checked.sub_eq_some.mpr ⟨hbalance, rfl⟩]
    rfl

section Instruction

variable {accounts : ResolveStakeLock} {lock_id : Bytes 32} {claims : List StakeClaim}
  {s : StakeRecords} {l : StakeLock} {p : StakePosition}

/-- The credits are at distinct keys. -/
theorem credits_distinct (h : (claims.map StakeClaim.beneficiary).Nodup) :
    ((claims.map StakeClaim.credit).map Prod.fst).Nodup := by
  have hkeys : (claims.map StakeClaim.credit).map Prod.fst
      = (claims.map StakeClaim.beneficiary).map (claim_balance_address stake_vault_address) := by
    rw [List.map_map, List.map_map]
    rfl
  rw [hkeys]
  exact h.map claim_address_injective

/-- The claims after every allocation is credited. -/
theorem lookup_credited (hdistinct : (claims.map StakeClaim.beneficiary).Nodup)
    (hopen : ∀ c ∈ claims, c.Open s.claims) :
    (∀ c ∈ claims, ∃ b, s.claims.lookup c.address = some b
        ∧ (s.claims.alter_all (claims.map StakeClaim.credit)).lookup c.address
          = some { b with amount := b.amount + c.amount })
      ∧ ∀ k, k ∉ claims.map StakeClaim.address →
        (s.claims.alter_all (claims.map StakeClaim.credit)).lookup k = s.claims.lookup k := by
  constructor
  · intro c hc
    obtain ⟨b, hb, -⟩ := hopen c hc
    refine ⟨b, hb, ?_⟩
    have hmem : c.credit ∈ claims.map StakeClaim.credit := List.mem_map_of_mem hc
    rw [Finmap.lookup_alter_all_of_mem (credits_distinct hdistinct) hmem, hb, Option.map_some]
  · intro k hk
    apply Finmap.lookup_alter_all_of_not_mem
    rw [List.map_map]
    exact hk

/-- What succeeds was resolvable, and ends in the state written out in `Resolved`. -/
theorem resolve_stake_lock_ok (hl : s.stake_locks.lookup (lock_of lock_id) = some l)
    (hp : s.stake_positions.lookup (position_of l.stake_owner) = some p) {s' : StakeRecords}
    (h : handle_resolve_stake_lock accounts lock_id claims s = .ok s') :
    Resolvable accounts claims l s ∧ Resolved lock_id claims l p s s' := by
  simp only [handle_resolve_stake_lock, bind_eq_ok, signer_eq_ok, load_eq_ok, require_eq_ok,
    exists_const, ok_or_eq_ok, Checked.add_eq_some, Checked.sub_eq_some, pure_eq_ok] at h
  obtain ⟨hsign, hcontroller, l', hl', p', hp', hnonempty, hlength, total, htotal, q, hresolve, _,
    ⟨hstaked, rfl⟩, _, ⟨hclaimable, rfl⟩, credited, hcredit, rfl⟩ := h
  obtain rfl : l = l' := Option.some.inj (hl.symm.trans hl')
  obtain rfl : p = p' := Option.some.inj (hp.symm.trans hp')
  obtain ⟨hall, hfresh, hword, rfl⟩ := (total_claims_eq_ok (by decide)).mp htotal
  have hdistinct := Fresh.nil_iff.mp hfresh
  rw [Nat.zero_add] at hword hresolve hstaked hclaimable ⊢
  obtain ⟨hbounded, hlocked, hbalance, rfl⟩ := StakePosition.resolve_ok hresolve
  -- the second loop pairs allocations with accounts, so distinct beneficiaries mean distinct
  -- accounts
  have hzip : ((claims.zip accounts.remaining_accounts).map fun c => c.1.beneficiary).Nodup := by
    rw [map_zip_claims hlength StakeClaim.beneficiary]
    exact hdistinct
  rw [credit_claims_eq_ok hzip, zip_prepared_iff hlength,
    map_zip_claims hlength StakeClaim.credit] at hcredit
  obtain ⟨⟨hwritable, hpaired, hopen⟩, rfl⟩ := hcredit
  obtain ⟨hnamed, hothers⟩ := lookup_credited hdistinct hopen
  constructor
  · exact ⟨hsign, hcontroller, hnonempty, fun c hc => (hall c hc).1, fun c hc => (hall c hc).2,
      hdistinct, hwritable, hpaired, hopen, hword, hbounded, hstaked, hclaimable⟩
  · refine ⟨rfl, ⟨_, rfl, ?_, ?_, rfl, rfl⟩, hnamed, hothers, ?_, rfl⟩
    · exact Nat.sub_add_cancel hlocked
    · exact Nat.sub_add_cancel hbalance
    · exact Nat.sub_add_cancel hstaked

/-- What is resolvable succeeds: no addition overflows and no account is missing. -/
theorem resolve_stake_lock_goes (hl : s.stake_locks.lookup (lock_of lock_id) = some l)
    (hp : s.stake_positions.lookup (position_of l.stake_owner) = some p) (hlocked : l.amount ≤ p.locked)
    (hbalance : p.locked ≤ p.balance) (h : Resolvable accounts claims l s) :
    ∃ s', handle_resolve_stake_lock accounts lock_id claims s = .ok s' := by
  have hlength : claims.length = accounts.remaining_accounts.length := by
    have hlengths := congrArg List.length h.paired
    rw [List.length_map, List.length_map] at hlengths
    exact hlengths.symm
  have htotal : total_claims [] 0 claims = .ok (claims_total claims) := by
    rw [total_claims_eq_ok (by decide), Nat.zero_add]
    exact ⟨fun c hc => ⟨h.nonzero c hc, h.positive c hc⟩, Fresh.nil_iff.mpr h.distinct, h.no_wrap,
      rfl⟩
  -- the lock is within the balance, and the claims are within the lock
  have hresolve : ∃ q, p.resolve l.amount (claims_total claims) = .ok q :=
    ⟨_, StakePosition.resolve_eq_ok.mpr
      ⟨h.bounded, hlocked, h.bounded.trans (hlocked.trans hbalance), rfl⟩⟩
  obtain ⟨q, hq⟩ := hresolve
  have hcredit : ∃ credited, credit_claims s.claims (claims.zip accounts.remaining_accounts)
      = .ok credited := by
    refine ⟨_, (credit_claims_eq_ok ?_).mpr ⟨?_, rfl⟩⟩
    · rw [map_zip_claims hlength StakeClaim.beneficiary]
      exact h.distinct
    · exact (zip_prepared_iff hlength).mpr ⟨h.writable, h.paired, h.prepared⟩
  obtain ⟨credited, hcredited⟩ := hcredit
  simp only [handle_resolve_stake_lock, bind_eq_ok, signer_eq_ok, load_eq_ok, require_eq_ok,
    exists_const, ok_or_eq_ok, Checked.add_eq_some, Checked.sub_eq_some, pure_eq_ok]
  exact ⟨_, h.signer, h.controller, l, hl, p, hp, h.nonempty, hlength, _, htotal, q, hq, _,
    ⟨h.staked, rfl⟩, _, ⟨h.claimable, rfl⟩, credited, hcredited, rfl⟩

/-- A lock is distributed exactly: the instruction succeeds just for the lists it can pay from the
lock, and then leaves every party with its own share. -/
theorem resolve_distributes_exactly (hl : s.stake_locks.lookup (lock_of lock_id) = some l)
    (hp : s.stake_positions.lookup (position_of l.stake_owner) = some p)
    (hlocked : l.amount ≤ p.locked) (hbalance : p.locked ≤ p.balance) :
    ((∃ s', handle_resolve_stake_lock accounts lock_id claims s = .ok s')
        ↔ Resolvable accounts claims l s)
      ∧ ∀ s', handle_resolve_stake_lock accounts lock_id claims s = .ok s' →
        Resolved lock_id claims l p s s' := by
  refine ⟨⟨?_, resolve_stake_lock_goes hl hp hlocked hbalance⟩, ?_⟩
  · rintro ⟨s', hs'⟩
    exact (resolve_stake_lock_ok hl hp hs').1
  · intro s' hs'
    exact (resolve_stake_lock_ok hl hp hs').2

end Instruction

/-! ## A lock with two beneficiaries -/

section Sample

/-- The new controller locks stake of the sample staker and opens two claim accounts. -/
def sample_stake_lock : TxContext × List TopLevel :=
  (sample_ctx 90001,
    [.program (.stake (.controller_lock_stake ⟨sample_successor, sample_staker⟩
        ⟨sample_word 40, 60, 95000⟩)),
      .program (.stake (.initialize_claim_balance ⟨sample_successor, sample_depositor⟩)),
      .program (.stake (.initialize_claim_balance ⟨sample_successor, sample_taker⟩))])

/-- Fifty of the sixty that are locked. -/
def sample_claims : List StakeClaim := [⟨sample_depositor, 30⟩, ⟨sample_taker, 20⟩]

def sample_resolution : ResolveStakeLock where
  controller := sample_successor
  remaining_accounts :=
    [⟨claim_balance_address stake_vault_address sample_depositor, false, true⟩,
      ⟨claim_balance_address stake_vault_address sample_taker, false, true⟩]

end Sample

/-- The controller of a handed over vault resolves a lock into two claims. -/
theorem resolve_distributes_two :
    ∃ es s l p s', Run sample_runtime es s
      ∧ s.stake_locks.lookup (lock_of (sample_word 40)) = some l
      ∧ s.stake_positions.lookup (position_of l.stake_owner) = some p
      ∧ l.amount = 60 ∧ claims_total sample_claims = 50
      ∧ handle_resolve_stake_lock sample_resolution (sample_word 40) sample_claims s.toStakeRecords
        = .ok s'
      ∧ Resolved (sample_word 40) sample_claims l p s.toStakeRecords s' := by
  obtain ⟨es, s, hrun, hgood⟩ := sample_reaches
    [sample_setup, sample_propose, sample_handover, sample_stake_lock]
    (fun _ s => (s.stake_locks.lookup (lock_of (sample_word 40))).any fun l : StakeLock =>
      (s.stake_positions.lookup (position_of l.stake_owner)).any fun p : StakePosition =>
        decide (l.amount = 60) && decide (l.amount ≤ p.locked) && decide (p.locked ≤ p.balance)
          && (handle_resolve_stake_lock sample_resolution (sample_word 40) sample_claims
            s.toStakeRecords).toOption.isSome)
    (by decide +kernel)
  obtain ⟨l, hl, hgood⟩ := (Option.any_eq_true _ _).mp hgood
  obtain ⟨p, hp, hgood⟩ := (Option.any_eq_true _ _).mp hgood
  simp only [Bool.and_eq_true, decide_eq_true_eq] at hgood
  obtain ⟨⟨⟨hamount, hlocked⟩, hbalance⟩, hgoes⟩ := hgood
  obtain ⟨s', hs'⟩ := exists_of_isSome hgoes
  exact ⟨es, s, l, p, s', hrun, hl, hp, hamount, rfl, hs',
    (resolve_distributes_exactly hl hp hlocked hbalance).2 s' hs'⟩

end Zkp2pSolana
