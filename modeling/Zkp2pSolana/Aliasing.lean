/-
Destinations of a settlement that are one token account.

`distribute_funds` pays up to thirteen shares and checks after each transfer that
the destination holds exactly the share more than the handle's copy says. The
handles of the recipient, the protocol and the manager are made before the first
transfer, those of the referrers when their turn comes. So an account may serve
two referrers, or a referrer and the manager, but a handle made at the start is
stale once another one has credited its account, and the settlement fails where it
is used. This module says exactly when that happens, and that every other settlement
credits each account with the sum of its shares. It takes the function by itself: that
no declared account is supplied twice is checked before it is called, and the accounts
of the referrers, which are remaining accounts, are not part of that check.
-/
import Zkp2pSolana.Fees
import Zkp2pSolana.Replay

set_option autoImplicit false

namespace Zkp2pSolana

open Result Zkp2pError

/-! ## What is assigned to whom -/

/-- What the payments bring to one account, together. -/
def credited (ps : List Payment) (k : Pubkey) : ℕ :=
  total_paid (ps.filter fun p => p.destination = k)

/-- The part of a released amount that a rate takes. -/
def share (release_amount rate : ℕ) : ℕ := release_amount * rate / PRECISE_UNIT

/-- A share that fits a word is what the program computes. -/
theorem precise_mul_floor_share {r rate : ℕ} (h : share r rate < 2 ^ 64) :
    precise_mul_floor r rate = .ok (share r rate) :=
  precise_mul_floor_eq_ok.mpr ⟨h, rfl⟩

/-- The fees of a settlement, each with the account it is assigned to. -/
def fee_shares (intent : Intent) (orchestrator : OrchestratorConfig) (t : SettlementTokens)
    (remaining_accounts : List AccountInfo) (release_amount : ℕ) : List Payment :=
  [⟨t.protocol_fee_token.key, share release_amount orchestrator.protocol_fee⟩]
    ++ t.manager_fee_token.toList.map (fun a => ⟨a.key, share release_amount intent.manager_fee⟩)
    ++ (intent.referral_fees.zip remaining_accounts).map fun entry =>
      ⟨entry.2.key, share release_amount entry.1.fee⟩

/-- All the shares: the recipient gets what the fees leave. -/
def shares (intent : Intent) (orchestrator : OrchestratorConfig) (t : SettlementTokens)
    (remaining_accounts : List AccountInfo) (release_amount : ℕ) : List Payment :=
  fee_shares intent orchestrator t remaining_accounts release_amount
    ++ [⟨t.recipient_token.key, release_amount
      - total_paid (fee_shares intent orchestrator t remaining_accounts release_amount)⟩]

/-- The accounts of a settlement pass its checks: the handles are those made when the instruction
starts, every destination has the mint and the owner asked for, a manager account is there exactly
when the manager has a share, and no destination is the vault. The deposit can sign for its vault and
the supply of the mint fits in a word, as the token program keeps it. -/
structure Assignable (intent : Intent) (orchestrator : OrchestratorConfig) (deposit_key : Pubkey)
    (deposit : Deposit) (t : SettlementTokens) (remaining_accounts : List AccountInfo)
    (release_amount : ℕ) (T : Accounts TokenAccount) : Prop where
  supply_lt : supply T t.mint < 2 ^ 64
  fresh : t.Fresh T
  seeds : deposit_address deposit.escrow_config deposit.id = deposit_key
  checks : check_settlement_tokens intent orchestrator deposit_key deposit t = .ok ()
  manager : 0 < share release_amount intent.manager_fee → ∃ a, t.manager_fee_token = some a
    ∧ a.data.mint = t.mint ∧ intent.manager_fee_recipient = some a.data.owner
  no_manager : share release_amount intent.manager_fee = 0 → t.manager_fee_token = none
  length : remaining_accounts.length = intent.referral_fees.length
  referrals : ∀ entry ∈ intent.referral_fees.zip remaining_accounts,
    ∃ a, T.lookup entry.2.key = some a ∧ a.mint = t.mint ∧ a.owner = entry.1.recipient
  not_vault : ∀ p ∈ shares intent orchestrator t remaining_accounts release_amount,
    p.destination ≠ t.deposit_vault.key

/-- The settlement goes through, the vault pays what is released, and every other account is
credited with the sum of its shares. -/
def DistributesExactly (intent : Intent) (orchestrator : OrchestratorConfig) (deposit_key : Pubkey)
    (deposit : Deposit) (t : SettlementTokens) (remaining_accounts : List AccountInfo)
    (release_amount : ℕ) (T : Accounts TokenAccount) : Prop :=
  ∃ T', distribute_funds intent orchestrator deposit_key deposit t remaining_accounts
      release_amount T = .ok T'
    ∧ balance T' t.deposit_vault.key + release_amount = balance T t.deposit_vault.key
    ∧ ∀ k, k ≠ t.deposit_vault.key → balance T' k = balance T k
      + credited (shares intent orchestrator t remaining_accounts release_amount) k

/-- No account of a handle made at the start is credited before the handle's turn: the recipient's is
not that of a fee of at least one unit, the manager's is not that of such a protocol fee. -/
structure HandlesApart (intent : Intent) (orchestrator : OrchestratorConfig) (t : SettlementTokens)
    (remaining_accounts : List AccountInfo) (release_amount : ℕ) : Prop where
  recipient : ∀ p ∈ fee_shares intent orchestrator t remaining_accounts release_amount,
    0 < p.amount → p.destination ≠ t.recipient_token.key
  manager : 0 < share release_amount orchestrator.protocol_fee →
    ∀ a ∈ t.manager_fee_token, a.key ≠ t.protocol_fee_token.key

/-! ## Payments, account by account -/

section Payments

variable {vault mint authority : Pubkey} {T T' : Accounts TokenAccount}

/-- What an account is paid by two batches is the sum of what each pays it. -/
theorem credited_append (ps qs : List Payment) (k : Pubkey) :
    credited (ps ++ qs) k = credited ps k + credited qs k := by
  unfold credited
  rw [List.filter_append, total_paid_append]

theorem credited_nonzero (ps : List Payment) (k : Pubkey) :
    credited (nonzero ps) k = credited ps k := by
  unfold credited nonzero
  rw [List.filter_comm]
  exact total_paid_nonzero _

/-- The first payment goes to its destination and to nobody else. -/
theorem credited_cons (p : Payment) (ps : List Payment) (k : Pubkey) :
    credited (p :: ps) k = (if k = p.destination then p.amount else 0) + credited ps k := by
  unfold credited total_paid
  rw [List.filter_cons]
  by_cases hk : p.destination = k
  · rw [if_pos (decide_eq_true hk), if_pos hk.symm, List.map_cons, List.sum_cons]
  · rw [if_neg (by simpa using hk), if_neg (Ne.symm hk), Nat.zero_add]

/-- An account is credited with nothing exactly when each of its payments is of nothing. -/
theorem credited_eq_zero {ps : List Payment} {k : Pubkey} :
    credited ps k = 0 ↔ ∀ p ∈ ps, 0 < p.amount → p.destination ≠ k := by
  unfold credited total_paid
  rw [List.sum_eq_zero_iff, List.forall_mem_map]
  constructor
  · intro h p hp hpos hk
    have hzero := h p (List.mem_filter.mpr ⟨hp, decide_eq_true hk⟩)
    omega
  · intro h p hp
    obtain ⟨hp, hk⟩ := List.mem_filter.mp hp
    by_contra hpos
    exact h p hp (Nat.pos_of_ne_zero hpos) (of_decide_eq_true hk)

/-- Payments out of the vault to other accounts add up, for the vault and for each of them. -/
theorem pay_all_balances {ps : List Payment} (h : pay_all vault mint authority ps T = .ok T')
    (hvault : ∀ p ∈ ps, p.destination ≠ vault) :
    balance T' vault + total_paid ps = balance T vault
      ∧ ∀ k, k ≠ vault → balance T' k = balance T k + credited ps k := by
  induction ps generalizing T with
  | nil =>
    simp only [pay_all, ok_eq_ok] at h
    subst h
    exact ⟨rfl, fun k _ => rfl⟩
  | cons p rest ih =>
    simp only [pay_all, bind_eq_ok] at h
    obtain ⟨T₁, htransfer, hrest⟩ := h
    have hmoved := transfer_checked_moved (hvault p List.mem_cons_self).symm htransfer
    obtain ⟨hpaid, hothers⟩ := ih hrest fun q hq => hvault q (List.mem_cons_of_mem _ hq)
    constructor
    · have hsource := hmoved.source
      unfold total_paid at hpaid ⊢
      rw [List.map_cons, List.sum_cons]
      omega
    · intro k hk
      rw [hothers k hk, hmoved.other k hk, credited_cons, Nat.add_assoc]

/-- After payments, the copy a handle made before them is up to date exactly when none of them
credited its account. -/
theorem copy_current_iff {ps : List Payment}
    (h : pay_all vault mint authority (nonzero ps) T = .ok T')
    (hvault : ∀ p ∈ ps, p.destination ≠ vault) {handle : Account TokenAccount}
    (hfresh : T.lookup handle.key = some handle.data) (hne : handle.key ≠ vault) :
    handle.data.amount = balance T' handle.key
      ↔ ∀ p ∈ ps, 0 < p.amount → p.destination ≠ handle.key := by
  obtain ⟨-, hothers⟩ := pay_all_balances h fun p hp => hvault p (List.mem_of_mem_filter hp)
  have hbalance := hothers _ hne
  rw [balance_eq hfresh, credited_nonzero] at hbalance
  rw [← credited_eq_zero]
  omega

/-- A cached handle still agrees with the ledger as long as no payment so far went to its
account. -/
theorem copy_current {ps : List Payment}
    (h : pay_all vault mint authority (nonzero ps) T = .ok T')
    (hvault : ∀ p ∈ ps, p.destination ≠ vault) {handle : Account TokenAccount}
    (hfresh : T.lookup handle.key = some handle.data) (hne : handle.key ≠ vault)
    (hapart : ∀ p ∈ ps, 0 < p.amount → p.destination ≠ handle.key) :
    ∃ b, T'.lookup handle.key = some b ∧ b.mint = handle.data.mint
      ∧ handle.data.amount = b.amount := by
  obtain ⟨b, hb, hmint, -⟩ := (pay_all_accounts h).lookup hfresh
  have hcopy := (copy_current_iff h hvault hfresh hne).mpr hapart
  rw [balance_eq hb] at hcopy
  exact ⟨b, hb, hmint, hcopy⟩

end Payments

/-! ## One transfer, checked against a copy -/

/-- The handle of the vault is up to date and the vault covers `x`. -/
structure VaultReady (T : Accounts TokenAccount) (deposit_key mint : Pubkey)
    (vault : Account TokenAccount) (x : ℕ) : Prop where
  supply_lt : supply T mint < 2 ^ 64
  fresh : T.lookup vault.key = some vault.data
  mint : vault.data.mint = mint
  owner : vault.data.owner = deposit_key
  enough : x ≤ vault.data.amount

section Transfer

variable {deposit_key mint : Pubkey} {deposit : Deposit} {T T' : Accounts TokenAccount}
  {vault destination vault' destination' : Account TokenAccount} {x y : ℕ}

/-- A vault that can pay two amounts can, after the first, pay the second. -/
theorem VaultReady.rest (h : VaultReady T deposit_key mint vault (x + y)) :
    VaultReady T deposit_key mint vault y :=
  ⟨h.supply_lt, h.fresh, h.mint, h.owner, (Nat.le_add_left y x).trans h.enough⟩

/-- A transfer passes its check only if the copy of the destination was up to date. -/
theorem transfer_exact_copy
    (h : transfer_exact deposit_key deposit vault destination mint x T
      = .ok (T', vault', destination')) (hne : vault.key ≠ destination.key) :
    0 < x ∧ destination.data.amount = balance T destination.key := by
  simp only [transfer_exact, Account.reload, bind_eq_ok, load_eq_ok, require_eq_ok, exists_const,
    pure_eq_ok, ok_or_eq_ok, Checked.sub_eq_some, Prod.mk.injEq] at h
  obtain ⟨hpos, -, _, htransfer, _, -, _, ⟨b, hb, rfl⟩, _, -, _, ⟨hle, rfl⟩, ⟨-, hcredited⟩, rfl, -,
    -⟩ := h
  have hbalance := transfer_checked_balances htransfer hne destination.key
  rw [if_neg (Ne.symm hne), if_pos rfl, balance_eq hb] at hbalance
  dsimp only at hle hcredited
  refine ⟨hpos, ?_⟩
  omega

/-- If the copy is up to date, the transfer goes through, and the handle of the vault is up to date
for the next one. -/
theorem transfer_exact_goes {b : TokenAccount} (hvault : VaultReady T deposit_key mint vault (x + y))
    (hseeds : deposit_address deposit.escrow_config deposit.id = deposit_key) (hx : 0 < x)
    (hne : vault.key ≠ destination.key) (hb : T.lookup destination.key = some b)
    (hmint : b.mint = mint) (hcopy : destination.data.amount = b.amount) :
    ∃ T' vault' destination', transfer_exact deposit_key deposit vault destination mint x T
        = .ok (T', vault', destination')
      ∧ VaultReady T' deposit_key mint vault' y := by
  have henough := hvault.enough
  -- the token program accepts; what is left are the two comparisons of balances
  obtain ⟨T', htransfer⟩ := transfer_checked_goes hne hvault.fresh hb hvault.mint hmint hvault.owner
    ((Nat.le_add_right x y).trans henough) hvault.supply_lt
  have hmoved := transfer_checked_moved hne htransfer
  obtain ⟨a', ha', hma, hoa⟩ := hmoved.accounts.lookup hvault.fresh
  obtain ⟨b', hb', -, -⟩ := hmoved.accounts.lookup hb
  have hdebit := hmoved.source
  have hcredit := hmoved.other destination.key (Ne.symm hne)
  rw [balance_eq ha', balance_eq hvault.fresh] at hdebit
  rw [if_pos rfl, balance_eq hb', balance_eq hb] at hcredit
  refine ⟨T', ⟨vault.key, a'⟩, ⟨destination.key, b'⟩, ?_, ?_⟩
  · simp only [transfer_exact, Account.reload, bind_eq_ok, load_eq_ok, require_eq_ok, exists_const,
      pure_eq_ok, ok_or_eq_ok, Checked.sub_eq_some, Prod.mk.injEq]
    refine ⟨hx, hseeds, T', htransfer, _, ⟨a', ha', rfl⟩, _, ⟨b', hb', rfl⟩, _, ⟨?_, rfl⟩, _,
      ⟨?_, rfl⟩, ⟨?_, ?_⟩, rfl, rfl, rfl⟩
    -- both deltas are the amount, as the two cached copies were current before the transfer
    all_goals
      dsimp only
      omega
  · refine ⟨?_, ha', hma.trans hvault.mint, hoa.trans hvault.owner, by dsimp only; omega⟩
    rw [hmoved.supply_eq]
    exact hvault.supply_lt

end Transfer

/-! ## The turns of a settlement -/

section Turns

variable {intent : Intent} {deposit_key mint : Pubkey} {deposit : Deposit} {t : SettlementTokens}
  {r fee y : ℕ} {T : Accounts TokenAccount}

/-- The first payment goes through when the vault can pay it, and leaves the vault ready for the
rest. -/
theorem pay_protocol_goes (hvault : VaultReady T deposit_key t.mint t.deposit_vault (fee + y))
    (hseeds : deposit_address deposit.escrow_config deposit.id = deposit_key)
    (hne : t.deposit_vault.key ≠ t.protocol_fee_token.key)
    (hfresh : T.lookup t.protocol_fee_token.key = some t.protocol_fee_token.data)
    (hmint : t.protocol_fee_token.data.mint = t.mint) :
    ∃ T' t', pay_protocol deposit_key deposit t fee T = .ok (T', t')
      ∧ VaultReady T' deposit_key t.mint t'.deposit_vault y := by
  unfold pay_protocol
  by_cases hpos : 0 < fee
  · obtain ⟨T', vault', destination', hpay, hready⟩ :=
      transfer_exact_goes hvault hseeds hpos hne hfresh hmint rfl
    rw [if_pos hpos, hpay]
    exact ⟨_, _, rfl, hready⟩
  · rw [if_neg hpos]
    exact ⟨T, t, rfl, hvault.rest⟩

/-- The manager's turn goes through if the copy made at the start still is up to date. -/
theorem pay_manager_goes (hvault : VaultReady T deposit_key t.mint t.deposit_vault (fee + y))
    (hseeds : deposit_address deposit.escrow_config deposit.id = deposit_key)
    (hmanager : 0 < fee → ∃ a, t.manager_fee_token = some a ∧ a.data.mint = t.mint
      ∧ intent.manager_fee_recipient = some a.data.owner ∧ t.deposit_vault.key ≠ a.key
      ∧ ∃ b, T.lookup a.key = some b ∧ b.mint = t.mint ∧ a.data.amount = b.amount)
    (hnone : fee = 0 → t.manager_fee_token = none) :
    ∃ T' t', pay_manager intent deposit_key deposit t fee T = .ok (T', t')
      ∧ VaultReady T' deposit_key t.mint t'.deposit_vault y := by
  unfold pay_manager
  by_cases hpos : 0 < fee
  · obtain ⟨a, ha, hmint, howner, hne, b, hb, hmint', hcopy⟩ := hmanager hpos
    obtain ⟨T', vault', destination', hpay, hready⟩ :=
      transfer_exact_goes hvault hseeds hpos hne hb hmint' hcopy
    rw [if_pos hpos]
    simp only [bind_eq_ok, ok_or_eq_ok, require_eq_ok, exists_const, pure_eq_ok]
    exact ⟨_, _, ⟨_, howner, a, ha, hmint, rfl, _, hpay, rfl⟩, hready⟩
  · rw [if_neg hpos, hnone (Nat.eq_zero_of_not_pos hpos)]
    exact ⟨T, t, rfl, hvault.rest⟩

/-- The referral loop goes through whichever accounts it meets again: it reads each afresh. -/
theorem pay_referrals_goes {fees : List (ReferralFee × AccountInfo)}
    {vault : Account TokenAccount} {total : ℕ}
    (hvault : VaultReady T deposit_key mint vault
      ((fees.map fun entry => share r entry.1.fee).sum + y))
    (hseeds : deposit_address deposit.escrow_config deposit.id = deposit_key)
    (haccounts : ∀ entry ∈ fees, vault.key ≠ entry.2.key
      ∧ ∃ a, T.lookup entry.2.key = some a ∧ a.mint = mint ∧ a.owner = entry.1.recipient)
    (htotal : total + (fees.map fun entry => share r entry.1.fee).sum < 2 ^ 64) :
    ∃ T' vault', pay_referrals r deposit_key deposit mint fees vault total T
        = .ok (T', vault', total + (fees.map fun entry => share r entry.1.fee).sum)
      ∧ VaultReady T' deposit_key mint vault' y := by
  -- induction on the fees still to pay; a turn leaves the vault ready for the rest
  induction fees generalizing vault total T with
  | nil =>
    rw [List.map_nil, List.sum_nil, Nat.zero_add] at hvault
    exact ⟨T, vault, rfl, hvault⟩
  | cons entry rest ih =>
    obtain ⟨fee, account⟩ := entry
    rw [List.map_cons, List.sum_cons] at htotal hvault ⊢
    rw [Nat.add_assoc] at hvault
    rw [← Nat.add_assoc] at htotal ⊢
    obtain ⟨hne, a, ha, hmint, howner⟩ := haccounts _ List.mem_cons_self
    dsimp only at htotal hvault hne ha howner ⊢
    have hamount := precise_mul_floor_share (show share r fee.fee < 2 ^ 64 by omega)
    have hadd : Checked.add 64 total (share r fee.fee) = some (total + share r fee.fee) :=
      Checked.add_eq_some.mpr ⟨by omega, rfl⟩
    simp only [pay_referrals, hamount, hadd, load_eq_ok, bind_eq_ok, ok_or_eq_ok, require_eq_ok,
      exists_const, ok_eq_ok, Option.some.injEq, exists_eq_left', ha, hmint, howner, true_and]
    by_cases hpos : 0 < share r fee.fee
    · have hhandle : vault.key ≠ (⟨account.key, a⟩ : Account TokenAccount).key := hne
      obtain ⟨T₁, vault₁, destination', hpay, hready⟩ :=
        transfer_exact_goes hvault hseeds hpos hhandle ha hmint rfl
      obtain ⟨htransfer, hkey⟩ := transfer_exact_ok hpay
      have hsame := transfer_checked_accounts htransfer
      have hrest : ∀ entry ∈ rest, vault₁.key ≠ entry.2.key
          ∧ ∃ a, T₁.lookup entry.2.key = some a ∧ a.mint = mint ∧ a.owner = entry.1.recipient := by
        intro entry hentry
        obtain ⟨hne', b, hb, hmb, hob⟩ := haccounts entry (List.mem_cons_of_mem _ hentry)
        obtain ⟨b', hb', hmint', howner'⟩ := hsame.lookup hb
        rw [hkey]
        exact ⟨hne', b', hb', hmint'.trans hmb, howner'.trans hob⟩
      obtain ⟨T', vault', hloop, hready'⟩ := ih hready hrest htotal
      refine ⟨T', vault', ?_, hready'⟩
      rw [if_pos hpos]
      simp only [bind_eq_ok]
      exact ⟨_, hpay, hloop⟩
    · rw [if_neg hpos]
      exact ih hvault.rest (fun entry hentry => haccounts entry (List.mem_cons_of_mem _ hentry))
        htotal

end Turns

/-! ## The plan of a settlement and the shares -/

/-- The plan computes each referral's share and adds them up. -/
theorem referral_plan_shares {r : ℕ} {fees : List ReferralFee} {total total' : ℕ}
    {amounts : List ℕ} (h : referral_plan r fees total = .ok (amounts, total')) :
    amounts = fees.map (fun fee => share r fee.fee) ∧ total' = total + amounts.sum := by
  induction fees generalizing total amounts with
  | nil =>
    simp only [referral_plan, ok_eq_ok, Prod.mk.injEq] at h
    obtain ⟨rfl, rfl⟩ := h
    exact ⟨rfl, rfl⟩
  | cons fee rest ih =>
    simp only [referral_plan, bind_eq_ok, ok_or_eq_ok, Checked.add_eq_some, precise_mul_floor_eq_ok,
      pure_eq_ok, Prod.mk.injEq, Prod.exists] at h
    obtain ⟨_, ⟨-, rfl⟩, _, ⟨-, rfl⟩, amounts', total'', hrest, rfl, rfl⟩ := h
    obtain ⟨hamounts, htotal⟩ := ih hrest
    refine ⟨?_, ?_⟩
    · rw [List.map_cons, ← hamounts]
      rfl
    · rw [List.sum_cons, htotal, Nat.add_assoc]

section Plan

variable {intent : Intent} {o : OrchestratorConfig} {t : SettlementTokens}
  {remaining_accounts : List AccountInfo} {r : ℕ} {plan : FeePlan}

/-- The parts of a plan are the shares. -/
theorem fee_plan_shares (h : fee_plan o.protocol_fee intent r = .ok plan) :
    plan.protocol = share r o.protocol_fee ∧ plan.manager = share r intent.manager_fee
      ∧ plan.referrals = intent.referral_fees.map (fun fee => share r fee.fee)
      ∧ plan.fees + plan.net = r := by
  simp only [fee_plan, bind_eq_ok, ok_or_eq_ok, Checked.add_eq_some, Checked.sub_eq_some,
    precise_mul_floor_eq_ok, pure_eq_ok, Prod.exists] at h
  obtain ⟨_, ⟨-, rfl⟩, _, ⟨-, rfl⟩, _, ⟨-, rfl⟩, amounts, total, hreferrals, net, ⟨hle, rfl⟩, rfl⟩ := h
  obtain ⟨hamounts, htotal⟩ := referral_plan_shares hreferrals
  refine ⟨rfl, rfl, hamounts, ?_⟩
  unfold FeePlan.fees
  dsimp only
  omega

/-- The optional destination as a list of payments of at most one. -/
theorem manager_payments (destination : Option (Account TokenAccount)) (x : ℕ) :
    (destination.map Account.key).toList.map (fun k => (⟨k, x⟩ : Payment))
      = destination.toList.map fun a => ⟨a.key, x⟩ := by
  cases destination
  · rfl
  · rfl

/-- Referral payments go to the remaining accounts in their order, each with its own share. -/
theorem referral_payments (r : ℕ) (fees : List ReferralFee) (accounts : List AccountInfo) :
    List.zipWith Payment.mk (accounts.map AccountInfo.key) (fees.map fun fee => share r fee.fee)
      = (fees.zip accounts).map fun entry => ⟨entry.2.key, share r entry.1.fee⟩ := by
  rw [List.zipWith_map, List.zipWith_comm, List.zip_eq_zipWith, List.map_zipWith]

/-- The fees that are sent are the shares that are not zero. -/
theorem nonzero_fee_shares :
    nonzero (fee_shares intent o t remaining_accounts r)
      = nonzero [⟨t.protocol_fee_token.key, share r o.protocol_fee⟩]
        ++ nonzero ((t.manager_fee_token.map Account.key).toList.map
          fun k => ⟨k, share r intent.manager_fee⟩)
        ++ nonzero ((intent.referral_fees.zip remaining_accounts).map
          fun entry => ⟨entry.2.key, share r entry.1.fee⟩) := by
  rw [manager_payments]
  unfold fee_shares nonzero
  rw [List.filter_append, List.filter_append]

/-- What is sent: the fees, then the recipient's part. -/
theorem payments_eq (h : fee_plan o.protocol_fee intent r = .ok plan) :
    t.payments remaining_accounts plan
      = nonzero (fee_shares intent o t remaining_accounts r)
        ++ [⟨t.recipient_token.key, plan.net⟩] := by
  obtain ⟨hprotocol, hmanager, hreferrals, -⟩ := fee_plan_shares h
  unfold SettlementTokens.payments FeePlan.payments
  rw [nonzero_fee_shares, hprotocol, hmanager, hreferrals, referral_payments]

/-- The shares are the whole released amount, and the recipient's is the plan's. -/
theorem total_fee_shares (h : fee_plan o.protocol_fee intent r = .ok plan)
    (hlength : remaining_accounts.length = intent.referral_fees.length)
    (hmanager : 0 < plan.manager → t.manager_fee_token.isSome = true) :
    total_paid (fee_shares intent o t remaining_accounts r) + plan.net = r := by
  have htotal := total_paid_payments h hlength hmanager
  rw [payments_eq h, total_paid_append, total_paid_nonzero] at htotal
  obtain ⟨-, -, -, hsum⟩ := fee_plan_shares h
  rw [hsum] at htotal
  exact htotal

/-- The referral loop sends the shares of the referrers. -/
theorem pay_referrals_shares {deposit_key mint : Pubkey} {deposit : Deposit}
    {fees : List (ReferralFee × AccountInfo)} {vault vault' : Account TokenAccount}
    {total total' : ℕ} {T T' : Accounts TokenAccount}
    (h : pay_referrals r deposit_key deposit mint fees vault total T = .ok (T', vault', total')) :
    pay_all vault.key mint deposit_key
        (nonzero (fees.map fun entry => ⟨entry.2.key, share r entry.1.fee⟩)) T = .ok T'
      ∧ vault'.key = vault.key := by
  obtain ⟨amounts, hplan, hpaid, hkey, -⟩ := pay_referrals_ok h
  obtain ⟨rfl, -⟩ := referral_plan_shares hplan
  rw [List.map_map, List.zipWith_map, List.zipWith_self] at hpaid
  exact ⟨hpaid, hkey⟩

end Plan

/-! ## Exactly when the settlement goes through -/

section Distribution

variable {intent : Intent} {o : OrchestratorConfig} {deposit_key : Pubkey} {deposit : Deposit}
  {t : SettlementTokens} {remaining_accounts : List AccountInfo} {r : ℕ}
  {T T' : Accounts TokenAccount}

theorem Assignable.vault_key
    (h : Assignable intent o deposit_key deposit t remaining_accounts r T) :
    t.deposit_vault.key = deposit_vault_address deposit_key :=
  (check_settlement_tokens_ok h.checks).2.1

/-- What the vault holds fits in a word, being part of the supply. -/
theorem Assignable.vault_word
    (h : Assignable intent o deposit_key deposit t remaining_accounts r T) :
    t.deposit_vault.data.amount < 2 ^ 64 := by
  obtain ⟨-, -, hmint, -⟩ := check_settlement_tokens_ok h.checks
  have hle := le_supply h.fresh.vault
  rw [hmint] at hle
  have hsupply := h.supply_lt
  omega

theorem Assignable.fee_not_vault
    (h : Assignable intent o deposit_key deposit t remaining_accounts r T) {p : Payment}
    (hp : p ∈ fee_shares intent o t remaining_accounts r) : p.destination ≠ t.deposit_vault.key :=
  h.not_vault p (List.mem_append_left _ hp)

theorem mem_protocol_share :
    ⟨t.protocol_fee_token.key, share r o.protocol_fee⟩
      ∈ fee_shares intent o t remaining_accounts r := by
  simp [fee_shares]

/-- The manager's fee is one of them, where a destination is supplied. -/
theorem mem_manager_share {a : Account TokenAccount} (ha : t.manager_fee_token = some a) :
    ⟨a.key, share r intent.manager_fee⟩ ∈ fee_shares intent o t remaining_accounts r := by
  simp [fee_shares, ha]

theorem mem_referral_share {entry : ReferralFee × AccountInfo}
    (h : entry ∈ intent.referral_fees.zip remaining_accounts) :
    ⟨entry.2.key, share r entry.1.fee⟩ ∈ fee_shares intent o t remaining_accounts r := by
  exact List.mem_append_right _ (List.mem_map.mpr ⟨entry, h, rfl⟩)

/-- The protocol's fee does not go into the vault. -/
theorem Assignable.protocol_not_vault
    (h : Assignable intent o deposit_key deposit t remaining_accounts r T) :
    ∀ p ∈ [(⟨t.protocol_fee_token.key, share r o.protocol_fee⟩ : Payment)],
      p.destination ≠ t.deposit_vault.key := by
  intro p hp
  rw [List.mem_singleton.mp hp]
  exact h.fee_not_vault mem_protocol_share

theorem Assignable.recipient_not_vault
    (h : Assignable intent o deposit_key deposit t remaining_accounts r T) :
    t.recipient_token.key ≠ t.deposit_vault.key :=
  h.not_vault _ (List.mem_append_right _ List.mem_cons_self)

/-- A settlement that goes through pays out the shares, account by account. -/
theorem distribute_funds_balances
    (h : Assignable intent o deposit_key deposit t remaining_accounts r T)
    (hok : distribute_funds intent o deposit_key deposit t remaining_accounts r T = .ok T') :
    balance T' t.deposit_vault.key + r = balance T t.deposit_vault.key
      ∧ ∀ k, k ≠ t.deposit_vault.key →
        balance T' k = balance T k + credited (shares intent o t remaining_accounts r) k := by
  obtain ⟨plan, hplan, hpaid, hlength, hsupplied, -⟩ := distribute_funds_ok hok
  have htotal := total_fee_shares hplan hlength hsupplied
  rw [← h.vault_key, payments_eq hplan] at hpaid
  have hnet : plan.net = r - total_paid (fee_shares intent o t remaining_accounts r) := by omega
  -- nothing is paid into the vault, so the sum of the payments is what it loses
  have hvault : ∀ p ∈ nonzero (fee_shares intent o t remaining_accounts r)
      ++ [⟨t.recipient_token.key, plan.net⟩], p.destination ≠ t.deposit_vault.key := by
    intro p hp
    rcases List.mem_append.mp hp with hp | hp
    · exact h.fee_not_vault (List.mem_of_mem_filter hp)
    · rw [hnet] at hp
      exact h.not_vault p (List.mem_append_right _ hp)
  obtain ⟨hsource, hothers⟩ := pay_all_balances hpaid hvault
  refine ⟨?_, fun k hk => ?_⟩
  · rw [total_paid_append, total_paid_nonzero] at hsource
    have hlast : total_paid [⟨t.recipient_token.key, plan.net⟩] = plan.net := by simp [total_paid]
    omega
  · rw [hothers k hk, credited_append, credited_nonzero, hnet]
    unfold shares
    rw [credited_append]

/-- The manager's turn passes only if the copy made at the start is up to date. -/
theorem pay_manager_copy {t' : SettlementTokens} {fee : ℕ}
    (h : pay_manager intent deposit_key deposit t fee T = .ok (T', t'))
    (hne : ∀ a ∈ t.manager_fee_token, t.deposit_vault.key ≠ a.key) :
    ∀ a ∈ t.manager_fee_token, a.data.amount = balance T a.key := by
  simp only [pay_manager, ite_eq_ok, bind_eq_ok, require_eq_ok, exists_const, ok_or_eq_ok,
    pure_eq_ok, Prod.mk.injEq, Prod.exists] at h
  intro a ha
  rcases h with ⟨-, _, -, destination, hdestination, -, -, _, _, _, hpay, -, -⟩ | ⟨-, hnone, -, -⟩
  · obtain rfl : destination = a := Option.some.inj (hdestination.symm.trans ha)
    exact (transfer_exact_copy hpay (hne _ ha)).2
  · rw [Option.isNone_iff_eq_none.mp hnone] at ha
    cases ha

/-- The turns before the recipient's send the fees. -/
theorem fee_turns_paid {T₁ T₂ T₃ : Accounts TokenAccount} {t₁ t₂ : SettlementTokens}
    (hpay₁ : pay_protocol deposit_key deposit t (share r o.protocol_fee) T = .ok (T₁, t₁))
    (hpay₂ : pay_manager intent deposit_key deposit t₁ (share r intent.manager_fee) T₁
      = .ok (T₂, t₂))
    (hpaid₃ : pay_all t₂.deposit_vault.key t₂.mint deposit_key
      (nonzero ((intent.referral_fees.zip remaining_accounts).map
        fun entry => ⟨entry.2.key, share r entry.1.fee⟩)) T₂ = .ok T₃) :
    pay_all t.deposit_vault.key t.mint deposit_key
      (nonzero (fee_shares intent o t remaining_accounts r)) T = .ok T₃ := by
  obtain ⟨hpaid₁, hkey₁, hmint₁, hmanager₁, -⟩ := pay_protocol_ok hpay₁
  obtain ⟨hpaid₂, hkey₂, hmint₂, -, -, -⟩ := pay_manager_ok hpay₂
  rw [hkey₂, hkey₁, hmint₂, hmint₁] at hpaid₃
  rw [hkey₁, hmint₁, hmanager₁] at hpaid₂
  rw [nonzero_fee_shares]
  exact pay_all_append (pay_all_append hpaid₁ hpaid₂) hpaid₃

/-- A settlement that goes through leaves the recipient something and uses no stale copy. -/
theorem distribute_funds_apart
    (h : Assignable intent o deposit_key deposit t remaining_accounts r T)
    (hok : distribute_funds intent o deposit_key deposit t remaining_accounts r T = .ok T') :
    total_paid (fee_shares intent o t remaining_accounts r) < r
      ∧ HandlesApart intent o t remaining_accounts r := by
  obtain ⟨plan, T₁, t₁, T₂, t₂, T₃, vault₃, _, _, -, hlength, hplan, hpay₁, hpay₂, hpaid₃, hkey₃,
    hpay₄, -⟩ := distribute_funds_turns hok
  obtain ⟨hprotocol, hmanager, hreferrals, -⟩ := fee_plan_shares hplan
  rw [hreferrals, referral_payments] at hpaid₃
  rw [hmanager] at hpay₂
  rw [hprotocol] at hpay₁
  have hfees := fee_turns_paid hpay₁ hpay₂ hpaid₃
  obtain ⟨hpaid₁, hkey₁, hmint₁, hmanager₁, hrecipient₁⟩ := pay_protocol_ok hpay₁
  obtain ⟨-, hkey₂, -, hrecipient₂, -, hsupplied⟩ := pay_manager_ok hpay₂
  rw [hmanager₁, ← hmanager] at hsupplied
  have htotal := total_fee_shares hplan hlength hsupplied
  have hmanager_vault : ∀ a ∈ t.manager_fee_token, a.key ≠ t.deposit_vault.key :=
    fun a ha => h.fee_not_vault (mem_manager_share ha)
  -- the last transfer compares the recipient's copy with what all the fees have left there
  have hne₃ : vault₃.key ≠ t₂.recipient_token.key := by
    rw [hkey₃, hkey₂, hkey₁, hrecipient₂, hrecipient₁]
    exact h.recipient_not_vault.symm
  obtain ⟨hpos, hcopy⟩ := transfer_exact_copy hpay₄ hne₃
  rw [hrecipient₂, hrecipient₁] at hcopy
  refine ⟨by omega, ?_, fun hshare a ha => ?_⟩
  · exact (copy_current_iff hfees (fun p hp => h.fee_not_vault hp) h.fresh.recipient
      h.recipient_not_vault).mp hcopy
  · -- the manager's transfer compares its copy with what the protocol's has left there
    have hcopy_manager : a.data.amount = balance T₁ a.key := by
      rw [← hmanager₁] at ha
      refine pay_manager_copy hpay₂ (fun c hc => ?_) a ha
      rw [hmanager₁] at hc
      rw [hkey₁]
      exact (hmanager_vault c hc).symm
    have hapart := (copy_current_iff hpaid₁ h.protocol_not_vault (h.fresh.manager a ha)
      (hmanager_vault a ha)).mp hcopy_manager
    exact (hapart _ List.mem_cons_self hshare).symm

/-- The fees of a settlement, added up. -/
theorem Assignable.total_fees (h : Assignable intent o deposit_key deposit t remaining_accounts r T) :
    total_paid (fee_shares intent o t remaining_accounts r)
      = share r o.protocol_fee + share r intent.manager_fee
        + ((intent.referral_fees.zip remaining_accounts).map fun entry => share r entry.1.fee).sum := by
  have hmanager : total_paid (t.manager_fee_token.toList.map
      fun a => ⟨a.key, share r intent.manager_fee⟩) = share r intent.manager_fee := by
    rcases Nat.eq_zero_or_pos (share r intent.manager_fee) with hzero | hpos
    · rw [h.no_manager hzero, hzero]
      rfl
    · obtain ⟨a, ha, -⟩ := h.manager hpos
      simp [total_paid, ha]
  unfold fee_shares
  rw [total_paid_append, total_paid_append, hmanager]
  simp only [total_paid, List.map_cons, List.map_nil, List.sum_cons, List.sum_nil, Nat.add_zero,
    List.map_map]
  rfl

/-- In the manager's turn its copy is still up to date. -/
theorem Assignable.manager_turn {T₁ : Accounts TokenAccount} {t₁ : SettlementTokens}
    (h : Assignable intent o deposit_key deposit t remaining_accounts r T)
    (hapart : HandlesApart intent o t remaining_accounts r)
    (hpay : pay_protocol deposit_key deposit t (share r o.protocol_fee) T = .ok (T₁, t₁))
    (hpos : 0 < share r intent.manager_fee) :
    ∃ a, t₁.manager_fee_token = some a ∧ a.data.mint = t₁.mint
      ∧ intent.manager_fee_recipient = some a.data.owner ∧ t₁.deposit_vault.key ≠ a.key
      ∧ ∃ b, T₁.lookup a.key = some b ∧ b.mint = t₁.mint ∧ a.data.amount = b.amount := by
  obtain ⟨hpaid, hkey, hmint, hmanager, -⟩ := pay_protocol_ok hpay
  obtain ⟨a, ha, hma, hrecipient⟩ := h.manager hpos
  have hne := h.fee_not_vault (mem_manager_share ha)
  have huncredited : ∀ p ∈ [(⟨t.protocol_fee_token.key, share r o.protocol_fee⟩ : Payment)],
      0 < p.amount → p.destination ≠ a.key := by
    intro p hp hshare
    rw [List.mem_singleton.mp hp] at hshare ⊢
    exact (hapart.manager hshare a ha).symm
  obtain ⟨b, hb, hmb, hcopy⟩ := copy_current hpaid h.protocol_not_vault
    (h.fresh.manager a ha) hne huncredited
  rw [hmanager, hmint, hkey]
  exact ⟨a, ha, hma, hrecipient, hne.symm, b, hb, hmb.trans hma, hcopy⟩

/-- The referral accounts are what they were when the loop begins. -/
theorem Assignable.referral_turns {T₁ T₂ : Accounts TokenAccount} {t₁ t₂ : SettlementTokens}
    (h : Assignable intent o deposit_key deposit t remaining_accounts r T)
    (hpay₁ : pay_protocol deposit_key deposit t (share r o.protocol_fee) T = .ok (T₁, t₁))
    (hpay₂ : pay_manager intent deposit_key deposit t₁ (share r intent.manager_fee) T₁
      = .ok (T₂, t₂)) :
    ∀ entry ∈ intent.referral_fees.zip remaining_accounts, t₂.deposit_vault.key ≠ entry.2.key
      ∧ ∃ a, T₂.lookup entry.2.key = some a ∧ a.mint = t₂.mint ∧ a.owner = entry.1.recipient := by
  obtain ⟨hpaid₁, hkey₁, hmint₁, -, -⟩ := pay_protocol_ok hpay₁
  obtain ⟨hpaid₂, hkey₂, hmint₂, -, -, -⟩ := pay_manager_ok hpay₂
  have hsame := (pay_all_accounts hpaid₁).trans (pay_all_accounts hpaid₂)
  intro entry hentry
  obtain ⟨a, ha, hma, hoa⟩ := h.referrals entry hentry
  obtain ⟨a', ha', hma', hoa'⟩ := hsame.lookup ha
  rw [hkey₂, hkey₁, hmint₂, hmint₁]
  exact ⟨(h.fee_not_vault (mem_referral_share hentry)).symm, a', ha', hma'.trans hma, hoa'.trans hoa⟩

/-- Where the fees leave something and no copy is stale in its turn, the settlement goes through. -/
theorem distribute_funds_goes
    (h : Assignable intent o deposit_key deposit t remaining_accounts r T)
    (henough : r ≤ balance T t.deposit_vault.key)
    (hfees : total_paid (fee_shares intent o t remaining_accounts r) < r)
    (hapart : HandlesApart intent o t remaining_accounts r) :
    ∃ T', distribute_funds intent o deposit_key deposit t remaining_accounts r T = .ok T' := by
  obtain ⟨-, -, hmint, howner, hrecipient_mint, -, hprotocol_mint, -⟩ :=
    check_settlement_tokens_ok h.checks
  have htotal := h.total_fees
  rw [balance_eq h.fresh.vault] at henough
  have hword := h.vault_word
  generalize hS : ((intent.referral_fees.zip remaining_accounts).map
    fun entry => share r entry.1.fee).sum = S at htotal
  obtain ⟨net, hnet⟩ := Nat.exists_eq_add_of_le hfees.le
  -- the vault covers what each turn and all that follow it take
  have hready : VaultReady T deposit_key t.mint t.deposit_vault
      (share r o.protocol_fee + (share r intent.manager_fee + (S + (net + 0)))) :=
    ⟨h.supply_lt, h.fresh.vault, hmint, howner, by omega⟩
  obtain ⟨T₁, t₁, hpay₁, hready₁⟩ := pay_protocol_goes hready h.seeds
    (h.fee_not_vault mem_protocol_share).symm h.fresh.protocol hprotocol_mint
  obtain ⟨-, hkey₁, hmint₁, hmanager₁, hrecipient₁⟩ := pay_protocol_ok hpay₁
  rw [← hmint₁] at hready₁
  obtain ⟨T₂, t₂, hpay₂, hready₂⟩ := pay_manager_goes hready₁ h.seeds (h.manager_turn hapart hpay₁)
    fun hzero => hmanager₁.trans (h.no_manager hzero)
  obtain ⟨-, hkey₂, hmint₂, hrecipient₂, -, -⟩ := pay_manager_ok hpay₂
  rw [← hmint₂, ← hS] at hready₂
  obtain ⟨T₃, vault₃, hpay₃, hready₃⟩ := pay_referrals_goes hready₂ h.seeds
    (h.referral_turns hpay₁ hpay₂)
    (show share r o.protocol_fee + share r intent.manager_fee + _ < 2 ^ 64 by rw [hS]; omega)
  obtain ⟨hpaid₃, hkey₃⟩ := pay_referrals_shares hpay₃
  obtain ⟨b, hb, hmb, hcopy⟩ := copy_current (fee_turns_paid hpay₁ hpay₂ hpaid₃)
    (fun p hp => h.fee_not_vault hp) h.fresh.recipient h.recipient_not_vault hapart.recipient
  rw [← hrecipient₁, ← hrecipient₂] at hb hcopy
  have hne₃ : vault₃.key ≠ t₂.recipient_token.key := by
    rw [hkey₃, hkey₂, hkey₁, hrecipient₂, hrecipient₁]
    exact h.recipient_not_vault.symm
  obtain ⟨T', vault', destination', hpay₄, -⟩ := transfer_exact_goes hready₃ h.seeds
    (show 0 < net by omega) hne₃ hb (by rw [hmb, hrecipient_mint, hmint₂, hmint₁]) hcopy
  refine ⟨T', ?_⟩
  have hprotocol := precise_mul_floor_share (show share r o.protocol_fee < 2 ^ 64 by omega)
  have hmanager_fee := precise_mul_floor_share (show share r intent.manager_fee < 2 ^ 64 by omega)
  simp only [distribute_funds, h.checks, hprotocol, hmanager_fee, ok_bind, bind_eq_ok, require_eq_ok,
    exists_const, ok_or_eq_ok, Checked.add_eq_some, Checked.sub_eq_some, pure_eq_ok, Prod.exists]
  exact ⟨h.length, _, ⟨by omega, rfl⟩, T₁, t₁, hpay₁, T₂, t₂, hpay₂, T₃, vault₃, _, hpay₃, net,
    ⟨by rw [hS]; omega, by rw [hS]; omega⟩, T', vault', destination', hpay₄, rfl⟩

/-- The fees of every intent the program stores leave something for the recipient. -/
theorem Assignable.fees_lt (h : Assignable intent o deposit_key deposit t remaining_accounts r T)
    (henough : r ≤ balance T t.deposit_vault.key) (hprotocol : o.protocol_fee ≤ MAX_FEE)
    (hintent : IntentRates intent) (hpos : 0 < r) :
    total_paid (fee_shares intent o t remaining_accounts r) < r := by
  rw [balance_eq h.fresh.vault] at henough
  have hword := h.vault_word
  obtain ⟨plan, hplan, -, hnet, -⟩ := fee_plan_ok hprotocol hintent hpos (by omega)
  have hmanager : 0 < plan.manager → t.manager_fee_token.isSome = true := by
    intro hshare
    rw [(fee_plan_shares hplan).2.1] at hshare
    obtain ⟨a, ha, -⟩ := h.manager hshare
    rw [ha]
    rfl
  have htotal := total_fee_shares (t := t) hplan h.length hmanager
  omega

/-- `distribute_funds`, on accounts that pass its checks and a vault that covers the release, pays every
account the sum of its shares exactly when the fees leave something for the recipient, the recipient's
account is not also that of a fee, and the manager's is not also the protocol's. This is about the
function. The framework refuses a settlement in which one account is declared twice before the function
runs (`SettlementTokenAccounts.load`), so on chain only the account of a referrer can be one of the
others. -/
theorem distribute_funds_exact_iff
    (h : Assignable intent o deposit_key deposit t remaining_accounts r T)
    (henough : r ≤ balance T t.deposit_vault.key) :
    DistributesExactly intent o deposit_key deposit t remaining_accounts r T
      ↔ total_paid (fee_shares intent o t remaining_accounts r) < r
        ∧ HandlesApart intent o t remaining_accounts r := by
  constructor
  · rintro ⟨T', hok, -⟩
    exact distribute_funds_apart h hok
  · rintro ⟨hfees, hapart⟩
    obtain ⟨T', hok⟩ := distribute_funds_goes h henough hfees hapart
    exact ⟨T', hok, distribute_funds_balances h hok⟩

end Distribution

/-! ## Two settlements that reuse an account -/

/-- The manager's account of a settlement, checked. -/
def assignable_manager (intent : Intent) (t : SettlementTokens) (release_amount : ℕ) : Bool :=
  match t.manager_fee_token with
  | none => decide (share release_amount intent.manager_fee = 0)
  | some a => decide (0 < share release_amount intent.manager_fee ∧ a.data.mint = t.mint
      ∧ intent.manager_fee_recipient = some a.data.owner)

/-- The checks of `Assignable`, computed. -/
def assignable (intent : Intent) (orchestrator : OrchestratorConfig) (deposit_key : Pubkey)
    (deposit : Deposit) (t : SettlementTokens) (remaining_accounts : List AccountInfo)
    (release_amount : ℕ) (T : Accounts TokenAccount) : Bool :=
  decide (deposit_address deposit.escrow_config deposit.id = deposit_key)
    && (check_settlement_tokens intent orchestrator deposit_key deposit t).toOption.isSome
    && assignable_manager intent t release_amount
    && decide (remaining_accounts.length = intent.referral_fees.length)
    && (intent.referral_fees.zip remaining_accounts).all (fun entry =>
      (T.lookup entry.2.key).any fun a => decide (a.mint = t.mint ∧ a.owner = entry.1.recipient))
    && (shares intent orchestrator t remaining_accounts release_amount).all
      (fun p => decide (p.destination ≠ t.deposit_vault.key))

theorem assignable_sound {intent : Intent} {o : OrchestratorConfig} {deposit_key : Pubkey}
    {deposit : Deposit} {t : SettlementTokens} {remaining_accounts : List AccountInfo} {r : ℕ}
    {T : Accounts TokenAccount} (hsupply : supply T t.mint < 2 ^ 64) (hfresh : t.Fresh T)
    (h : assignable intent o deposit_key deposit t remaining_accounts r T = true) :
    Assignable intent o deposit_key deposit t remaining_accounts r T := by
  simp only [assignable, Bool.and_eq_true, decide_eq_true_eq, List.all_eq_true,
    Option.any_eq_true] at h
  obtain ⟨⟨⟨⟨⟨hseeds, hchecks⟩, hmanager⟩, hlength⟩, hreferrals⟩, hvault⟩ := h
  obtain ⟨_, hchecks⟩ := exists_of_isSome hchecks
  refine ⟨hsupply, hfresh, hseeds, hchecks, fun hpos => ?_, fun hzero => ?_, hlength, hreferrals, hvault⟩
  -- a manager's fee needs a destination, and a destination needs a fee
  · unfold assignable_manager at hmanager
    cases ha : t.manager_fee_token with
    | none =>
      rw [ha] at hmanager
      have hzero : share r intent.manager_fee = 0 := of_decide_eq_true hmanager
      omega
    | some a =>
      rw [ha] at hmanager
      obtain ⟨-, hmint, howner⟩ := of_decide_eq_true hmanager
      exact ⟨a, rfl, hmint, howner⟩
  · unfold assignable_manager at hmanager
    cases ha : t.manager_fee_token with
    | none => rfl
    | some a =>
      rw [ha] at hmanager
      obtain ⟨hpos, -, -⟩ := of_decide_eq_true hmanager
      omega

/-- With a protocol fee of one percent and the lifecycle policy off, the taker signals an intent that
gives a referrer ten percent. -/
def sample_referred (referrer : Pubkey) : TxContext × List TopLevel :=
  (sample_ctx 2000,
    [.program (.governance (.configure_orchestrator ⟨sample_authority⟩
        { protocol_fee := some (10 ^ 16)
          protocol_fee_recipient := none
          lifecycle_policy := some .None
          allow_multiple_intents := none
          paused := none })),
      .program (.signal_intent sample_signal
        { sample_signal_args with referral_fees := [⟨referrer, 10 ^ 17⟩] })])

/-- A settlement of the sample intent with one referral account, computed. -/
def sample_distribution (s : State) (account : Pubkey)
    (good : Intent → Deposit → SettlementTokens → Bool) : Bool :=
  (s.intents.lookup sample_intent).any fun i => (s.deposits.lookup i.deposit).any fun d =>
    (sample_settlement_tokens.load s.tokens).toOption.any fun t => decide (0 < i.amount)
      && decide (i.amount ≤ balance s.tokens t.deposit_vault.key)
      && assignable i s.orchestrator i.deposit d t [⟨account, false, true⟩] i.amount s.tokens
      && good i d t

/-- What the sample check finds out about a state, as the facts the theorem above asks for. -/
theorem sample_distribution_sound {es : List Event} {s : State} (hrun : Run sample_runtime es s)
    {account : Pubkey} {good : Intent → Deposit → SettlementTokens → Bool}
    (h : sample_distribution s account good = true) :
    ∃ i d t, s.intents.lookup sample_intent = some i ∧ s.deposits.lookup i.deposit = some d
      ∧ sample_settlement_tokens.load s.tokens = .ok t ∧ 0 < i.amount
      ∧ i.amount ≤ balance s.tokens t.deposit_vault.key
      ∧ Assignable i s.orchestrator i.deposit d t [⟨account, false, true⟩] i.amount s.tokens
      ∧ good i d t = true := by
  simp only [sample_distribution, Option.any_eq_true, Bool.and_eq_true, decide_eq_true_eq] at h
  obtain ⟨i, hi, d, hd, t, ht, ⟨⟨hpos, henough⟩, hchecks⟩, hgood⟩ := h
  have hload := eq_ok_of_toOption ht
  have hassigned := assignable_sound ((Run.ledgerOk hrun).1.tokens.supply_lt t.mint)
    (SettlementTokenAccounts.load_fresh hload) hchecks
  exact ⟨i, d, t, hi, hd, hload, hpos, henough, hassigned, hgood⟩

/-- The referrer's account is also the protocol's: the depositor gets both fees. -/
theorem distribute_funds_exact_shared :
    ∃ es s i d t, Run sample_runtime es s ∧ s.intents.lookup sample_intent = some i
      ∧ s.deposits.lookup i.deposit = some d ∧ sample_settlement_tokens.load s.tokens = .ok t
      ∧ credited (shares i s.orchestrator t [⟨t.protocol_fee_token.key, false, true⟩] i.amount)
        t.protocol_fee_token.key = 11
      ∧ DistributesExactly i s.orchestrator i.deposit d t [⟨t.protocol_fee_token.key, false, true⟩]
        i.amount s.tokens := by
  obtain ⟨es, s, hrun, hgood⟩ := sample_reaches [sample_setup, sample_referred sample_depositor]
    (fun _ s => sample_distribution s (sample_key 103) fun i _ t =>
      decide (t.protocol_fee_token.key = sample_key 103) && t.manager_fee_token.isNone
        && (fee_shares i s.orchestrator t [⟨sample_key 103, false, true⟩] i.amount).all
          (fun p => decide (p.destination ≠ t.recipient_token.key))
        && decide (credited (shares i s.orchestrator t [⟨sample_key 103, false, true⟩] i.amount)
          (sample_key 103) = 11)) (by decide +kernel)
  obtain ⟨i, d, t, hi, hd, hload, hpos, henough, hassigned, hgood⟩ :=
    sample_distribution_sound hrun hgood
  simp only [Bool.and_eq_true, decide_eq_true_eq, List.all_eq_true,
    Option.isNone_iff_eq_none] at hgood
  obtain ⟨⟨⟨hkey, hnone⟩, hapart⟩, hcredited⟩ := hgood
  rw [← hkey] at hassigned hapart hcredited
  have hfees := (Run.fees hrun).1
  have hlt := hassigned.fees_lt henough hfees.protocol (hfees.intents _ _ hi) hpos
  -- the fees share one account; the one handle that is read later is the recipient's, and it is
  -- apart
  have hhandles : HandlesApart i s.orchestrator t [⟨t.protocol_fee_token.key, false, true⟩]
      i.amount := by
    refine ⟨fun p hp _ => hapart p hp, fun _ a ha => ?_⟩
    rw [hnone] at ha
    cases ha
  exact ⟨es, s, i, d, t, hrun, hi, hd, hload, hcredited,
    (distribute_funds_exact_iff hassigned henough).mpr ⟨hlt, hhandles⟩⟩

/-- The referrer is the recipient and is paid into the same account: the copy of it made at the start
is stale in the last turn, and the settlement fails. -/
theorem distribute_funds_stale_recipient :
    ∃ es s i d t, Run sample_runtime es s ∧ s.intents.lookup sample_intent = some i
      ∧ s.deposits.lookup i.deposit = some d ∧ sample_settlement_tokens.load s.tokens = .ok t
      ∧ Assignable i s.orchestrator i.deposit d t [⟨t.recipient_token.key, false, true⟩] i.amount
        s.tokens
      ∧ 0 < i.amount ∧ i.amount ≤ balance s.tokens t.deposit_vault.key
      ∧ distribute_funds i s.orchestrator i.deposit d t [⟨t.recipient_token.key, false, true⟩]
        i.amount s.tokens = .error (.zkp2p InvalidTokenBalanceDelta)
      ∧ ¬ DistributesExactly i s.orchestrator i.deposit d t [⟨t.recipient_token.key, false, true⟩]
        i.amount s.tokens := by
  obtain ⟨es, s, hrun, hgood⟩ := sample_reaches [sample_setup, sample_referred sample_taker]
    (fun _ s => sample_distribution s (sample_key 101) fun i d t =>
      decide (t.recipient_token.key = sample_key 101)
        && match distribute_funds i s.orchestrator i.deposit d t [⟨sample_key 101, false, true⟩]
            i.amount s.tokens with
          | .error e => decide (e = .zkp2p InvalidTokenBalanceDelta)
          | .ok _ => false) (by decide +kernel)
  obtain ⟨i, d, t, hi, hd, hload, hpos, henough, hassigned, hgood⟩ :=
    sample_distribution_sound hrun hgood
  rw [Bool.and_eq_true, decide_eq_true_eq] at hgood
  obtain ⟨hkey, hfails⟩ := hgood
  rw [← hkey] at hassigned hfails
  -- the referral fee moves the account under the recipient's cached copy, and the last delta comes
  -- out wrong
  have herror : distribute_funds i s.orchestrator i.deposit d t
      [⟨t.recipient_token.key, false, true⟩] i.amount s.tokens
      = .error (.zkp2p InvalidTokenBalanceDelta) := by
    split at hfails
    · rename_i e he
      rw [he, of_decide_eq_true hfails]
    · cases hfails
  refine ⟨es, s, i, d, t, hrun, hi, hd, hload, hassigned, hpos, henough, herror, ?_⟩
  rintro ⟨T', hok, -⟩
  rw [herror] at hok
  cases hok

end Zkp2pSolana
