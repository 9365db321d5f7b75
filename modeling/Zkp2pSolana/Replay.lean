/-
A settlement, replayed from another state.

Two results compare executions of one instruction from two states: after a change
of configuration, and after another transaction. What the second execution needs
is collected here. Token accounts may have moved in between, each by its own
`shift`; the exact-delta checks of a settlement compare amounts with copies of
them, so they pass again, and the payments go through as long as the vault still
covers what is released. No credit overflows, because the two accounts of a
transfer are part of one supply.
-/
import Zkp2pSolana.LifecycleSteps

set_option autoImplicit false

namespace Zkp2pSolana

open Result Zkp2pError

/-! ## Token accounts that moved -/

/-- The same token accounts, the amount of each moved by `shift`. -/
structure Shifted (shift : Pubkey → ℤ) (T U : Accounts TokenAccount) : Prop where
  accounts : SameAccounts T U
  amount : ∀ k, (balance U k : ℤ) = balance T k + shift k

section Shift

variable {shift : Pubkey → ℤ} {T T' U U' : Accounts TokenAccount}

theorem balance_eq {k : Pubkey} {a : TokenAccount} (ha : T.lookup k = some a) :
    balance T k = a.amount := by
  unfold balance
  rw [ha]
  rfl

theorem Shifted.lookup (h : Shifted shift T U) {k : Pubkey} {a : TokenAccount}
    (ha : T.lookup k = some a) :
    ∃ b, U.lookup k = some b ∧ b.mint = a.mint ∧ b.owner = a.owner
      ∧ (b.amount : ℤ) = a.amount + shift k := by
  obtain ⟨b, hb, hmint, howner⟩ := h.accounts.lookup ha
  have hamount := h.amount k
  rw [balance_eq ha, balance_eq hb] at hamount
  exact ⟨b, hb, hmint, howner, hamount⟩

/-- What two ledgers differ by. -/
theorem SameAccounts.shifted (h : SameAccounts T U) :
    Shifted (fun k => (balance U k : ℤ) - balance T k) T U :=
  ⟨h, fun k => by omega⟩

/-- Any two accounts of a mint hold at most its supply. -/
theorem add_le_supply {k k' : Pubkey} {a b : TokenAccount} (hne : k ≠ k')
    (ha : T.lookup k = some a) (hb : T.lookup k' = some b) (hmint : b.mint = a.mint) :
    a.amount + b.amount ≤ supply T a.mint := by
  have herase := Finmap.owed_erase TokenAccount.mint TokenAccount.amount ha a.mint
  rw [if_pos rfl] at herase
  have hb' : (T.erase k).lookup k' = some b := by
    rw [Finmap.lookup_erase_ne (Ne.symm hne), hb]
  have hle := le_supply hb'
  unfold supply at hle ⊢
  rw [hmint] at hle
  omega

/-! ## One transfer -/

variable {src dst mint authority : Pubkey} {x : ℕ}

/-- The balances after a transfer between two accounts. -/
theorem transfer_checked_balances (h : transfer_checked T src dst mint authority x = .ok T')
    (hne : src ≠ dst) (k : Pubkey) :
    (balance T' k : ℤ) = balance T k - (if k = src then (x : ℤ) else 0)
      + if k = dst then (x : ℤ) else 0 := by
  obtain ⟨a, b, ha, hb, hx, -, -, -, ⟨heq, -⟩ | ⟨-, -, rfl⟩⟩ := transfer_checked_ok h
  · exact absurd heq hne
  -- by the account asked about: the destination, the source, or another one
  · by_cases hd : k = dst
    · subst hd
      rw [if_neg (Ne.symm hne), if_pos rfl, balance_eq (Finmap.lookup_insert _), balance_eq hb]
      push_cast
      omega
    · rw [if_neg hd]
      by_cases hs : k = src
      · subst hs
        have hk : ((T.insert k { a with amount := a.amount - x }).insert dst
            { b with amount := b.amount + x }).lookup k
              = some { a with amount := a.amount - x } := by
          rw [Finmap.lookup_insert_of_ne _ hd, Finmap.lookup_insert]
        rw [if_pos rfl, balance_eq hk, balance_eq ha]
        push_cast [hx]
        omega
      · rw [if_neg hs]
        unfold balance
        rw [Finmap.lookup_insert_of_ne _ hd, Finmap.lookup_insert_of_ne _ hs]
        omega

/-- A transfer between two accounts of the mint goes through if the source has the amount: both are
part of one supply, so the credit fits. -/
theorem transfer_checked_goes {a b : TokenAccount} (hne : src ≠ dst) (ha : T.lookup src = some a)
    (hb : T.lookup dst = some b) (hma : a.mint = mint) (hmb : b.mint = mint)
    (howner : a.owner = authority) (hx : x ≤ a.amount) (hsupply : supply T mint < 2 ^ 64) :
    ∃ T', transfer_checked T src dst mint authority x = .ok T' := by
  have hword : b.amount + x < 2 ^ 64 := by
    have hsum := add_le_supply hne ha hb (hmb.trans hma.symm)
    rw [hma] at hsum
    omega
  simp only [transfer_checked, bind_eq_ok, load_eq_ok, require_eq_ok, exists_const, ite_eq_ok,
    pure_eq_ok, ok_or_eq_ok, Checked.add_eq_some]
  exact ⟨_, a, ha, b, hb, hx, ⟨hma, hmb⟩, howner, .inr ⟨hne, _, ⟨hword, rfl⟩, rfl⟩⟩

/-- The ledger after `x` has gone from one account to another. -/
structure Moved (T T' : Accounts TokenAccount) (src dst : Pubkey) (x : ℕ) : Prop where
  accounts : SameAccounts T T'
  supply_eq : ∀ m, supply T' m = supply T m
  source : balance T' src + x = balance T src
  other : ∀ k, k ≠ src → balance T' k = balance T k + if k = dst then x else 0

theorem Moved.zero (T : Accounts TokenAccount) (src dst : Pubkey) : Moved T T src dst 0 :=
  ⟨.refl T, fun _ => rfl, rfl, fun k _ => by rw [ite_self, Nat.add_zero]⟩

/-- A transfer between two accounts moves its amount and keeps the supply. -/
theorem transfer_checked_moved (hne : src ≠ dst)
    (h : transfer_checked T src dst mint authority x = .ok T') : Moved T T' src dst x := by
  have hbalances := transfer_checked_balances h hne
  refine ⟨transfer_checked_accounts h, transfer_checked_supply h, ?_, fun k hk => ?_⟩
  · have hsource := hbalances src
    rw [if_pos rfl, if_neg hne] at hsource
    omega
  · have hother := hbalances k
    rw [if_neg hk] at hother
    split_ifs at hother ⊢ with hd
    · omega
    · omega

/-- A transfer that went through goes through between the same accounts moved, if the source still
has the amount. -/
theorem transfer_checked_shift (h : transfer_checked T src dst mint authority x = .ok T')
    (hne : src ≠ dst) (hU : Shifted shift T U) (hok : TokensOk U)
    (henough : 0 ≤ balance T' src + shift src) :
    ∃ U', transfer_checked U src dst mint authority x = .ok U' ∧ Shifted shift T' U' := by
  have hsource := transfer_checked_balances h hne src
  rw [if_pos rfl, if_neg hne] at hsource
  obtain ⟨a, b, ha, hb, hx, hma, hmb, howner, -⟩ := transfer_checked_ok h
  obtain ⟨c, hc, hmc, hoc, hcx⟩ := hU.lookup ha
  obtain ⟨d, hd, hmd, -, hdx⟩ := hU.lookup hb
  rw [balance_eq ha] at hsource
  have hxc : x ≤ c.amount := by omega
  obtain ⟨U', hgo⟩ := transfer_checked_goes hne hc hd (hmc.trans hma) (hmd.trans hmb)
    (hoc.trans howner) hxc (hok.supply_lt mint)
  refine ⟨U', hgo, ?_, fun k => ?_⟩
  · exact ((transfer_checked_accounts h).symm.trans hU.accounts).trans
      (transfer_checked_accounts hgo)
  · rw [transfer_checked_balances hgo hne, transfer_checked_balances h hne, hU.amount k]
    omega

/-! ## One settlement -/

/-- The same handle, its copy moved like the account. -/
structure ShiftedHandle (shift : Pubkey → ℤ) (h h' : Account TokenAccount) : Prop where
  key : h'.key = h.key
  mint : h'.data.mint = h.data.mint
  owner : h'.data.owner = h.data.owner
  amount : (h'.data.amount : ℤ) = h.data.amount + shift h.key

/-- So a handle loaded from one ledger has its shifted counterpart. -/
theorem Shifted.handle (hU : Shifted shift T U) {k : Pubkey} {a : TokenAccount}
    (ha : T.lookup k = some a) :
    ∃ b, U.lookup k = some b ∧ ShiftedHandle shift ⟨k, a⟩ ⟨k, b⟩ := by
  obtain ⟨b, hb, hmint, howner, hamount⟩ := hU.lookup ha
  exact ⟨b, hb, rfl, hmint, howner, hamount⟩

/-- What a settlement reads of a deposit. -/
structure SameSeeds (d d' : Deposit) : Prop where
  escrow_config : d'.escrow_config = d.escrow_config
  id : d'.id = d.id
  token_mint : d'.token_mint = d.token_mint

variable {deposit_key : Pubkey} {deposit deposit' : Deposit}
  {source destination source₁ destination₁ source' destination' : Account TokenAccount}

/-- The transfer is replayed on the shifted ledger, as long as the source can still afford it; the
check of the two deltas does not see the shift. -/
theorem transfer_exact_shift
    (h : transfer_exact deposit_key deposit source destination mint x T
      = .ok (T', source₁, destination₁))
    (hfresh : T.lookup source.key = some source.data) (hd : SameSeeds deposit deposit')
    (hU : Shifted shift T U) (hok : TokensOk U)
    (henough : 0 ≤ balance T' source.key + shift source.key)
    (hsource : ShiftedHandle shift source source')
    (hdestination : ShiftedHandle shift destination destination') :
    ∃ U' source₁' destination₁',
      transfer_exact deposit_key deposit' source' destination' mint x U
        = .ok (U', source₁', destination₁')
      ∧ Shifted shift T' U' ∧ TokensOk U' ∧ ShiftedHandle shift source₁ source₁'
      ∧ ShiftedHandle shift destination₁ destination₁' := by
  have hne : source.key ≠ destination.key := by
    intro heq
    obtain ⟨hpaid, -⟩ := transfer_exact_paid h hfresh
    obtain ⟨htransfer, -⟩ := transfer_exact_ok h
    obtain ⟨a', ha', -, -, hx⟩ := hpaid.source _ hfresh
    obtain ⟨_, _, _, _, _, _, _, _, ⟨-, rfl⟩ | ⟨hne, -⟩⟩ := transfer_checked_ok htransfer
    · rw [hfresh] at ha'
      cases ha'
      simp only [transfer_exact, bind_eq_ok, require_eq_ok, exists_const] at h
      have hpos := h.1
      omega
    · exact hne heq
  simp only [transfer_exact, Account.reload, bind_eq_ok, load_eq_ok, require_eq_ok, exists_const,
    pure_eq_ok, ok_or_eq_ok, Checked.sub_eq_some, Prod.mk.injEq] at h
  obtain ⟨hpos, hseeds, T₁, htransfer, _, ⟨a, ha, rfl⟩, _, ⟨b, hb, rfl⟩, debited, ⟨hle, rfl⟩,
    credited, ⟨hle', rfl⟩, ⟨hdebited, hcredited⟩, rfl, rfl, rfl⟩ := h
  obtain ⟨U', hgo, hU'⟩ := transfer_checked_shift htransfer hne hU hok henough
  obtain ⟨c, hc, hhandle⟩ := hU'.handle ha
  obtain ⟨d, hd', hhandle'⟩ := hU'.handle hb
  refine ⟨U', ⟨source'.key, c⟩, ⟨destination'.key, d⟩, ?_, hU', transfer_checked_tokensOk hgo hok,
    ⟨hsource.key, hhandle.mint, hhandle.owner, hhandle.amount⟩,
    ⟨hdestination.key, hhandle'.mint, hhandle'.owner, hhandle'.amount⟩⟩
  · -- the copies and the accounts moved by the same, so the deltas are the same
    have hamount := hsource.amount
    have hamount' := hdestination.amount
    have hmoved := hhandle.amount
    have hmoved' := hhandle'.amount
    dsimp only at hle hle' hdebited hcredited hmoved hmoved'
    simp only [transfer_exact, Account.reload, bind_eq_ok, load_eq_ok, require_eq_ok, exists_const,
      pure_eq_ok, ok_or_eq_ok, Checked.sub_eq_some, Prod.mk.injEq, hsource.key, hdestination.key,
      hd.escrow_config, hd.id]
    refine ⟨hpos, hseeds, U', hgo, _, ⟨c, hc, rfl⟩, _, ⟨d, hd', rfl⟩, _, ⟨?_, rfl⟩, _, ⟨?_, rfl⟩,
      ⟨?_, ?_⟩, rfl, rfl, rfl⟩
    all_goals
      dsimp only
      omega

/-- The same handles of a settlement, each moved like its account. -/
structure ShiftedTokens (shift : Pubkey → ℤ) (t t' : SettlementTokens) : Prop where
  mint : t'.mint = t.mint
  vault : ShiftedHandle shift t.deposit_vault t'.deposit_vault
  recipient : ShiftedHandle shift t.recipient_token t'.recipient_token
  protocol : ShiftedHandle shift t.protocol_fee_token t'.protocol_fee_token
  manager : Option.Rel (ShiftedHandle shift) t.manager_fee_token t'.manager_fee_token

/-- The accounts of a settlement load shifted. Which keys coincide has not changed. -/
theorem load_shift {accounts : SettlementTokenAccounts} {t : SettlementTokens}
    (h : accounts.load T = .ok t) (hU : Shifted shift T U) :
    ∃ t', accounts.load U = .ok t' ∧ ShiftedTokens shift t t' := by
  simp only [SettlementTokenAccounts.load, bind_eq_ok, load_eq_ok, mutable_once_eq_ok, exists_const,
    pure_eq_ok] at h
  obtain ⟨vault, hvault, recipient, hrecipient, protocol, hprotocol, manager, hmanager, honce, rfl⟩ := h
  obtain ⟨vault', hvault', hshifted⟩ := hU.handle hvault
  obtain ⟨recipient', hrecipient', hshifted₁⟩ := hU.handle hrecipient
  obtain ⟨protocol', hprotocol', hshifted₂⟩ := hU.handle hprotocol
  -- the manager's destination is optional and shifted where it is there
  have hload : ∃ manager', load_opt U accounts.manager_fee_token = .ok manager'
      ∧ Option.Rel (ShiftedHandle shift) manager manager' := by
    obtain ⟨hkey, hfound⟩ := load_opt_eq_ok.mp hmanager
    cases manager with
    | none =>
      refine ⟨none, load_opt_eq_ok.mpr ⟨hkey, by simp⟩, .none⟩
    | some a =>
      obtain ⟨b, hb, hhandle⟩ := hU.handle (hfound a rfl)
      refine ⟨some ⟨a.key, b⟩, load_opt_eq_ok.mpr ⟨hkey, ?_⟩, .some hhandle⟩
      intro c hc
      cases hc
      exact hb
  obtain ⟨manager', hmanager', hshifted₃⟩ := hload
  simp only [SettlementTokenAccounts.load, bind_eq_ok, load_eq_ok, mutable_once_eq_ok, exists_const,
    pure_eq_ok]
  exact ⟨_, ⟨vault', hvault', recipient', hrecipient', protocol', hprotocol', manager', hmanager',
    honce, rfl⟩, rfl, hshifted, hshifted₁, hshifted₂, hshifted₃⟩

variable {t t₁ t' : SettlementTokens} {fee : ℕ}

theorem pay_protocol_shift (h : pay_protocol deposit_key deposit t fee T = .ok (T', t₁))
    (hfresh : T.lookup t.deposit_vault.key = some t.deposit_vault.data)
    (hd : SameSeeds deposit deposit') (hU : Shifted shift T U) (hok : TokensOk U)
    (henough : 0 ≤ balance T' t.deposit_vault.key + shift t.deposit_vault.key)
    (ht : ShiftedTokens shift t t') :
    ∃ U' t₁', pay_protocol deposit_key deposit' t' fee U = .ok (U', t₁')
      ∧ Shifted shift T' U' ∧ TokensOk U' ∧ ShiftedTokens shift t₁ t₁' := by
  unfold pay_protocol at h ⊢
  by_cases hpos : 0 < fee
  · rw [if_pos hpos] at h ⊢
    simp only [bind_eq_ok, pure_eq_ok, Prod.exists, Prod.mk.injEq] at h
    obtain ⟨_, vault, destination, hpay, rfl, rfl⟩ := h
    obtain ⟨U', vault', destination', hgo, hU', hok', hvault, hdestination⟩ :=
      transfer_exact_shift hpay hfresh hd hU hok henough ht.vault ht.protocol
    refine ⟨U', { t' with deposit_vault := vault', protocol_fee_token := destination' }, ?_, hU', hok',
      ⟨ht.mint, hvault, ht.recipient, hdestination, ht.manager⟩⟩
    simp only [bind_eq_ok, pure_eq_ok, Prod.exists, Prod.mk.injEq]
    refine ⟨U', vault', destination', ?_, rfl, rfl⟩
    rw [ht.mint, hgo]
  · rw [if_neg hpos] at h ⊢
    cases h
    exact ⟨U, t', rfl, hU, hok, ht⟩

theorem pay_manager_shift {intent : Intent}
    (h : pay_manager intent deposit_key deposit t fee T = .ok (T', t₁))
    (hfresh : T.lookup t.deposit_vault.key = some t.deposit_vault.data)
    (hd : SameSeeds deposit deposit') (hU : Shifted shift T U) (hok : TokensOk U)
    (henough : 0 ≤ balance T' t.deposit_vault.key + shift t.deposit_vault.key)
    (ht : ShiftedTokens shift t t') :
    ∃ U' t₁', pay_manager intent deposit_key deposit' t' fee U = .ok (U', t₁')
      ∧ Shifted shift T' U' ∧ TokensOk U' ∧ ShiftedTokens shift t₁ t₁' := by
  have hmanager := ht.manager
  unfold pay_manager at h ⊢
  -- the amount of the fee is the same on both ledgers, so both take the same branch
  by_cases hpos : 0 < fee
  · rw [if_pos hpos] at h ⊢
    simp only [bind_eq_ok, ok_or_eq_ok, require_eq_ok, exists_const, pure_eq_ok, Prod.exists,
      Prod.mk.injEq] at h
    obtain ⟨recipient, hrecipient, destination, hdestination, hmint, howner, _, vault, destination₁,
      hpay, rfl, rfl⟩ := h
    rw [hdestination] at hmanager
    obtain ⟨destination', hdestination', hhandle⟩ :
        ∃ b, t'.manager_fee_token = some b ∧ ShiftedHandle shift destination b := by
      cases hm : t'.manager_fee_token with
      | none =>
        rw [hm] at hmanager
        cases hmanager
      | some b =>
        rw [hm] at hmanager
        cases hmanager with
        | some hhandle => exact ⟨b, rfl, hhandle⟩
    obtain ⟨U', vault', destination₁', hgo, hU', hok', hvault, hdestination₁⟩ :=
      transfer_exact_shift hpay hfresh hd hU hok henough ht.vault hhandle
    refine ⟨U', { t' with deposit_vault := vault', manager_fee_token := some destination₁' }, ?_, hU',
      hok', ⟨ht.mint, hvault, ht.recipient, ht.protocol, .some hdestination₁⟩⟩
    simp only [bind_eq_ok, ok_or_eq_ok, require_eq_ok, exists_const, pure_eq_ok, Prod.exists,
      Prod.mk.injEq]
    refine ⟨recipient, hrecipient, destination', hdestination', ?_, ?_, U', vault', destination₁', ?_,
      rfl, rfl⟩
    · rw [hhandle.mint, ht.mint, hmint]
    · rw [hhandle.owner, howner]
    · rw [ht.mint, hgo]
  · rw [if_neg hpos] at h ⊢
    simp only [bind_eq_ok, require_eq_ok, exists_const, pure_eq_ok, Prod.mk.injEq] at h
    obtain ⟨hnone, rfl, rfl⟩ := h
    refine ⟨U, t', ?_, hU, hok, ht⟩
    simp only [bind_eq_ok, require_eq_ok, exists_const, pure_eq_ok, and_true]
    -- nothing is paid, and nothing may be supplied on either side
    cases hm : t'.manager_fee_token with
    | none => rfl
    | some b =>
      rw [Option.isNone_iff_eq_none.mp hnone, hm] at hmanager
      cases hmanager

/-- A vault that pays has no more afterwards. -/
theorem Paid.balance_le {vault : Pubkey} {a : TokenAccount} (h : Paid T T' vault x)
    (ha : T.lookup vault = some a) : balance T' vault ≤ balance T vault := by
  obtain ⟨a', ha', -, -, hx⟩ := h.source a ha
  rw [balance_eq ha, balance_eq ha']
  omega

/-- The referral payments are replayed, one after the other. -/
theorem pay_referrals_shift {r : ℕ} {fees : List (ReferralFee × AccountInfo)}
    {vault vault₁ vault' : Account TokenAccount} {total total' : ℕ}
    (h : pay_referrals r deposit_key deposit mint fees vault total T = .ok (T', vault₁, total'))
    (hfresh : T.lookup vault.key = some vault.data) (hd : SameSeeds deposit deposit')
    (hU : Shifted shift T U) (hok : TokensOk U)
    (henough : 0 ≤ balance T' vault.key + shift vault.key)
    (hvault : ShiftedHandle shift vault vault') :
    ∃ U' vault₁', pay_referrals r deposit_key deposit' mint fees vault' total U
        = .ok (U', vault₁', total')
      ∧ Shifted shift T' U' ∧ TokensOk U' ∧ ShiftedHandle shift vault₁ vault₁' := by
  -- induction on the fees still to pay, the two ledgers in step
  induction fees generalizing vault vault' total T U with
  | nil =>
    simp only [pay_referrals, ok_eq_ok, Prod.mk.injEq] at h
    obtain ⟨rfl, rfl, rfl⟩ := h
    exact ⟨U, vault', rfl, hU, hok, hvault⟩
  | cons entry rest ih =>
    obtain ⟨fee, account⟩ := entry
    simp only [pay_referrals, bind_eq_ok, load_eq_ok, require_eq_ok, exists_const] at h ⊢
    obtain ⟨y, hy, subtotal, hsubtotal, destination, hdestination, hmint, howner, h⟩ := h
    obtain ⟨destination', hdestination', hhandle⟩ := hU.handle hdestination
    have hmint' : destination'.mint = mint := hhandle.mint.trans hmint
    have howner' : destination'.owner = fee.recipient := hhandle.owner.trans howner
    by_cases hpos : 0 < y
    · rw [if_pos hpos] at h
      simp only [bind_eq_ok, Prod.exists] at h
      obtain ⟨T₁, vault₂, destination₂, hpay, hrest⟩ := h
      obtain ⟨hpaid, hkey, hfresh₁⟩ := transfer_exact_paid hpay hfresh
      rw [← hkey] at hfresh₁
      obtain ⟨x, -, hpaid', hkey', -⟩ := pay_referrals_paid hrest hfresh₁
      -- what the vault has left at the end it has left now
      have hleft : balance T' vault.key ≤ balance T₁ vault.key := by
        rw [← hkey]
        exact hpaid'.balance_le hfresh₁
      obtain ⟨U₁, vault₂', destination₂', hgo, hU₁, hok₁, hvault₂, -⟩ :=
        transfer_exact_shift hpay hfresh hd hU hok (by omega) hvault hhandle
      obtain ⟨U', vault₁', hgo', hU', hok', hvault₁⟩ :=
        ih hrest hfresh₁ hU₁ hok₁ (by rw [hkey]; exact henough) hvault₂
      refine ⟨U', vault₁', ⟨y, hy, subtotal, hsubtotal, destination', hdestination', hmint', howner',
        ?_⟩, hU', hok', hvault₁⟩
      rw [if_pos hpos]
      simp only [bind_eq_ok, Prod.exists]
      exact ⟨U₁, vault₂', destination₂', hgo, hgo'⟩
    · rw [if_neg hpos] at h
      obtain ⟨U', vault₁', hgo', hU', hok', hvault₁⟩ := ih h hfresh hU hok henough hvault
      refine ⟨U', vault₁', ⟨y, hy, subtotal, hsubtotal, destination', hdestination', hmint', howner',
        ?_⟩, hU', hok', hvault₁⟩
      rw [if_neg hpos]
      exact hgo'

/-- What a settlement reads of the orchestrator. -/
structure SameFees (o o' : OrchestratorConfig) : Prop where
  protocol_fee : o'.protocol_fee = o.protocol_fee
  protocol_fee_recipient : o'.protocol_fee_recipient = o.protocol_fee_recipient

/-- A settlement that paid pays again from the same accounts moved, if the vault still covers it. -/
theorem distribute_funds_shift {intent : Intent} {o o' : OrchestratorConfig}
    {remaining_accounts : List AccountInfo} {r : ℕ}
    (h : distribute_funds intent o deposit_key deposit t remaining_accounts r T = .ok T')
    (hfresh : t.Fresh T) (ho : SameFees o o') (hd : SameSeeds deposit deposit')
    (hU : Shifted shift T U) (hok : TokensOk U)
    (henough : 0 ≤ balance T' (deposit_vault_address deposit_key)
      + shift (deposit_vault_address deposit_key))
    (ht : ShiftedTokens shift t t') :
    ∃ U', distribute_funds intent o' deposit_key deposit' t' remaining_accounts r U = .ok U'
      ∧ Shifted shift T' U' := by
  simp only [distribute_funds, check_settlement_tokens, bind_eq_ok, require_eq_ok, exists_const,
    pure_eq_ok, Prod.exists] at h
  obtain ⟨⟨hmint, hvault, hvault_mint, hvault_owner, hrecipient_mint, hrecipient, hprotocol_mint,
    hprotocol⟩, hlength, protocol, hprotocol_fee, manager, hmanager_fee, fees, hfees, T₁, t₁, hpay₁,
    T₂, t₂, hpay₂, T₃, vault₃, total, hpay₃, net, hnet, T₄, source₄, destination₄, hpay₄, rfl⟩ := h
  obtain ⟨hpaid₁, hkey₁, hfresh₁⟩ := pay_protocol_paid hpay₁ hfresh.vault
  rw [← hkey₁] at hfresh₁
  obtain ⟨hpaid₂, hkey₂, hfresh₂⟩ := pay_manager_paid hpay₂ hfresh₁
  rw [← hkey₂] at hfresh₂
  obtain ⟨x, -, hpaid₃, hkey₃, hfresh₃⟩ := pay_referrals_paid hpay₃ hfresh₂
  rw [← hkey₃] at hfresh₃
  obtain ⟨hpaid₄, -, -⟩ := transfer_exact_paid hpay₄ hfresh₃
  -- the vault only goes down, so what is left at the end was left at each stage
  rw [← hvault] at henough
  have hleft₃ := hpaid₄.balance_le hfresh₃
  have hleft₂ := hpaid₃.balance_le hfresh₂
  have hleft₁ := hpaid₂.balance_le hfresh₁
  rw [hkey₃] at hleft₃
  rw [hkey₂] at hleft₂ hleft₃
  rw [hkey₁] at hleft₁ hleft₂ hleft₃
  obtain ⟨U₁, t₁', hgo₁, hU₁, hok₁, ht₁⟩ :=
    pay_protocol_shift hpay₁ hfresh.vault hd hU hok (by omega) ht
  obtain ⟨U₂, t₂', hgo₂, hU₂, hok₂, ht₂⟩ :=
    pay_manager_shift hpay₂ hfresh₁ hd hU₁ hok₁ (by rw [hkey₁]; omega) ht₁
  obtain ⟨U₃, vault₃', hgo₃, hU₃, hok₃, hvault₃⟩ :=
    pay_referrals_shift hpay₃ hfresh₂ hd hU₂ hok₂ (by rw [hkey₂, hkey₁]; omega) ht₂.vault
  obtain ⟨U₄, source₄', destination₄', hgo₄, hU₄, -, -, -⟩ :=
    transfer_exact_shift hpay₄ hfresh₃ hd hU₃ hok₃ (by rw [hkey₃, hkey₂, hkey₁]; exact henough)
      hvault₃ ht₂.recipient
  refine ⟨U₄, ?_, hU₄⟩
  simp only [distribute_funds, check_settlement_tokens, bind_eq_ok, require_eq_ok, exists_const,
    pure_eq_ok, Prod.exists, ht.mint, ht.vault.key, ht.vault.mint, ht.vault.owner, ht.recipient.mint,
    ht.recipient.owner, ht.protocol.mint, ht.protocol.owner, hd.token_mint, ho.protocol_fee,
    ho.protocol_fee_recipient]
  refine ⟨⟨hmint, hvault, hvault_mint, hvault_owner, hrecipient_mint, hrecipient, hprotocol_mint,
    hprotocol⟩, hlength, protocol, hprotocol_fee, manager, hmanager_fee, fees, hfees, U₁, t₁', hgo₁,
    U₂, t₂', hgo₂, U₃, vault₃', total, ?_, net, hnet, U₄, source₄', destination₄', ?_, rfl⟩
  · rw [ht₂.mint, hgo₃]
  · rw [ht₂.mint, hgo₄]

end Shift

/-! ## Coverage of an intent that ends -/

/-- An optional account that was supplied is found again where the ledger has one. -/
theorem load_opt_again {α : Type} {m m' : Accounts α} {k : Option Pubkey} {a : Account α} {v : α}
    (h : load_opt m k = .ok (some a)) (hv : m'.lookup a.key = some v) :
    load_opt m' k = .ok (some ⟨a.key, v⟩) := by
  obtain ⟨hkey, -⟩ := load_opt_eq_ok.mp h
  refine load_opt_eq_ok.mpr ⟨hkey, ?_⟩
  intro b hb
  cases hb
  exact hv

/-- One that was not supplied is not found. -/
theorem load_opt_none_again {α : Type} {m m' : Accounts α} {k : Option Pubkey}
    {o : Option (Account α)} (h : load_opt m k = .ok o) (hnone : o.isNone = true) :
    load_opt m' k = .ok o := by
  cases o with
  | none =>
    obtain ⟨hkey, -⟩ := load_opt_eq_ok.mp h
    exact load_opt_eq_ok.mpr ⟨hkey, by simp⟩
  | some a => cases hnone

/-- The vault that was supplied can be supplied again. -/
theorem load_stake_vault_again {r r' : StakeRecords} {k : Option Pubkey}
    {a : Account StakeVaultConfig} (h : load_stake_vault r k = .ok (some a)) :
    load_stake_vault r' k = .ok (some ⟨a.key, r'.stake_vault⟩) := by
  cases k with
  | none => simp [load_stake_vault] at h
  | some key =>
    simp only [load_stake_vault, bind_eq_ok, require_eq_ok, exists_const, pure_eq_ok,
      Option.some.injEq] at h ⊢
    obtain ⟨hkey, rfl⟩ := h
    exact ⟨hkey, rfl⟩

theorem load_stake_vault_none_again {r r' : StakeRecords} {k : Option Pubkey}
    {o : Option (Account StakeVaultConfig)} (h : load_stake_vault r k = .ok o)
    (hnone : o.isNone = true) : load_stake_vault r' k = .ok o := by
  cases k with
  | none => exact h
  | some key =>
    simp only [load_stake_vault, bind_eq_ok, require_eq_ok, exists_const, pure_eq_ok] at h
    obtain ⟨-, rfl⟩ := h
    cases hnone

/-- Coverage that was settled is settled again in a state that has the same record, the same lock
and a position of the same owner. -/
theorem settle_dispute_replay {ctx : TxContext} {i : Intent} {accounts : SettlementDisputeAccounts}
    {r : ℕ} {s s₁ : State} (h : settle_dispute_if_covered ctx i accounts r s = .ok s₁) :
    (i.dispute_covered = false ∧ s₁ = s
        ∧ ∀ t, settle_dispute_if_covered ctx i accounts r t = .ok t)
      ∨ i.dispute_covered = true ∧ ∃ d l p p', CoverageSettled ctx s s₁ i r d l p p'
        ∧ ∀ t t₁ q q', t.stake_vault.controller = s.stake_vault.controller →
          CoverageSettled ctx t t₁ i r d l q q' →
          settle_dispute_if_covered ctx i accounts r t = .ok t₁ := by
  simp only [settle_dispute_if_covered, bind_eq_ok, ite_eq_ok, require_eq_ok, exists_const,
    ok_or_eq_ok, Checked.sub_eq_some, pure_eq_ok, Prod.exists] at h ⊢
  obtain ⟨dispute, hdispute, vault, hvault, position, hposition, lock, hlock, h⟩ := h
  rcases h with ⟨hcovered, hnone, rfl⟩ | ⟨hcovered, d, rfl, v, rfl, p, rfl, l, rfl, hconfig, hd, hv,
    hcontroller, hp, hl, hhash, hdeposit, htaker, hid, hlock_vault, howner, hle, settled, maturity,
    hsettle, _, ⟨-, rfl⟩, p', hshrunk, rfl⟩
  · obtain ⟨hnone₁, hnone₂, hnone₃, hnone₄⟩ := hnone
    refine .inl ⟨hcovered, rfl, fun t => ?_⟩
    exact ⟨_, load_opt_none_again hdispute hnone₁, _, load_stake_vault_none_again hvault hnone₂, _,
      load_opt_none_again hposition hnone₃, _, load_opt_none_again hlock hnone₄,
      .inl ⟨hcovered, ⟨hnone₁, hnone₂, hnone₃, hnone₄⟩, trivial⟩⟩
  · have hsettle' := hsettle
    obtain ⟨hpending, hpos, rfl, rfl⟩ := DisputeIntent.settle_ok hsettle'
    have hfound := load_opt_some hdispute
    have hfound₁ := load_opt_some hposition
    have hfound₂ := load_opt_some hlock
    obtain ⟨hkey, hdata⟩ := load_stake_vault_some hvault
    rw [hdata] at hcontroller
    have hd' : d.key = coverage_of i.intent_hash := by rw [hd, hconfig]
    have hp' : p.key = position_of d.data.stake_owner := by rw [hp, hv]
    have hl' : l.key = lock_of i.intent_hash := by rw [hl, hv]
    rw [hd'] at hfound
    rw [hp'] at hfound₁
    rw [hl'] at hfound₂
    refine .inr ⟨by simpa using hcovered, d.data, l.data, p.data, p', ⟨hfound, hpending, hpos,
      hfound₂, hfound₁, howner, hle, ite_eq_ok.mpr hshrunk, by rw [hd', hp', hl']⟩, ?_⟩
    intro t t₁ q q' hsame hsettled
    -- the other state has the record and the lock; only the position may be another
    have hdispute' := load_opt_again hdispute (by rw [hd']; exact hsettled.dispute_eq)
    have hposition' := load_opt_again hposition (by rw [hp']; exact hsettled.position)
    have hlock' := load_opt_again hlock (by rw [hl']; exact hsettled.lock)
    refine ⟨_, hdispute', _, load_stake_vault_again hvault, _, hposition', _, hlock', .inr ⟨hcovered,
      _, rfl, _, rfl, _, rfl, _, rfl, hconfig, hd, hv, hsame.trans hcontroller, hp, hl, hhash,
      hdeposit, htaker, hid, hlock_vault, hsettled.owner, hle, _, _, hsettle, _, ⟨hle, rfl⟩, q',
      ite_eq_ok.mp hsettled.shrunk, ?_⟩⟩
    rw [hsettled.post, hd', hp', hl']

/-- Coverage that was pruned with its intent is pruned again wherever it can be cancelled. -/
theorem prune_dispute_replay {i : Intent} {accounts : PruneDisputeAccounts} {s s₁ : State}
    (h : prune_dispute accounts i s = .ok s₁) :
    (i.dispute_covered = false ∧ s₁ = s ∧ ∀ t, prune_dispute accounts i t = .ok t)
      ∨ i.dispute_covered = true ∧ ∃ d l p p', CoverageCancelled s s₁ i.intent_hash d l p p'
        ∧ ∀ t t₁ q q', t.dispute_config = s.dispute_config →
          CoverageCancelled t t₁ i.intent_hash d l q q' → prune_dispute accounts i t = .ok t₁ := by
  simp only [prune_dispute, bind_eq_ok, ite_eq_ok, require_eq_ok, exists_const, ok_or_eq_ok,
    pure_eq_ok] at h ⊢
  obtain ⟨dispute, hdispute, position, hposition, lock, hlock, h⟩ := h
  rcases h with ⟨hcovered, hconfig, d, rfl, hvault, p, rfl, l, rfl, hstake, hd, hp, hl, howner, _,
    hcancel, p', hunlock, rfl⟩ | ⟨hcovered, hnone, rfl⟩
  · have hcancel' := hcancel
    obtain ⟨hpending, rfl⟩ := DisputeIntent.cancel_ok hcancel'
    -- the accounts were supplied at the addresses the hash derives, and are found there again
    have hfound := load_opt_some hdispute
    have hfound₁ := load_opt_some hposition
    have hfound₂ := load_opt_some hlock
    rw [hd] at hfound
    rw [hp] at hfound₁
    rw [hl] at hfound₂
    refine .inr ⟨hcovered, d.data, l.data, p.data, p', ⟨hfound, hpending, hfound₂, hfound₁, howner,
      hunlock, by rw [hd, hp, hl]⟩, ?_⟩
    intro t t₁ q q' hsame hcancelled
    have hdispute' := load_opt_again hdispute (by rw [hd]; exact hcancelled.dispute_eq)
    have hposition' := load_opt_again hposition (by rw [hp]; exact hcancelled.position)
    have hlock' := load_opt_again hlock (by rw [hl]; exact hcancelled.lock)
    refine ⟨_, hdispute', _, hposition', _, hlock', .inl ⟨hcovered, hconfig, _, rfl, hvault, _, rfl,
      _, rfl, ?_, hd, hp, hl, hcancelled.owner, _, hcancel, q', hcancelled.unlocked, ?_⟩⟩
    · rw [hsame]
      exact hstake
    · rw [hcancelled.post, hd, hp, hl]
  · obtain ⟨hnone₁, hnone₂, hnone₃, hnone₄, hnone₅⟩ := hnone
    refine .inl ⟨by simpa using hcovered, rfl, fun t => ?_⟩
    exact ⟨_, load_opt_none_again hdispute hnone₂, _, load_opt_none_again hposition hnone₄, _,
      load_opt_none_again hlock hnone₅,
      .inr ⟨hcovered, ⟨hnone₁, hnone₂, hnone₃, hnone₄, hnone₅⟩, trivial⟩⟩

/-- Coverage that its owner cancelled is cancelled again for the same intent. -/
theorem cancel_dispute_replay {following : Option CancelIntent} {accounts : CancelDispute}
    {s s₁ : State} (hcanonical : CoverageCanonical s.toDisputeRecords)
    (h : handle_cancel_dispute following accounts s = .ok s₁) :
    ∃ i d l p p' cancel, s.intents.lookup accounts.intent = some i ∧ following = some cancel
      ∧ cancel.intent = accounts.intent ∧ CoverageCancelled s s₁ i.intent_hash d l p p'
      ∧ ∀ t t₁ q q', t.intents.lookup accounts.intent = some i →
        CoverageCancelled t t₁ i.intent_hash d l q q' →
        handle_cancel_dispute following accounts t = .ok t₁ := by
  simp only [handle_cancel_dispute, require_atomic_cancel_follows, bind_eq_ok, signer_eq_ok,
    load_eq_ok, require_eq_ok, exists_const, ok_or_eq_ok, pure_eq_ok] at h ⊢
  obtain ⟨hsign, i, hi, hto, d, hd, p, hp, l, hl, howner, hkey, hhash,
    ⟨cancel, hnext, hnext_owner, hnext_intent, hnext_dispute⟩, _, hcancel, p', hunlock, rfl⟩ := h
  have hcancel' := hcancel
  obtain ⟨hpending, rfl⟩ := DisputeIntent.cancel_ok hcancel'
  -- the handler takes any coverage account; canonical addresses leave only the intent's own
  have hcoverage : accounts.dispute_intent = coverage_of i.intent_hash := by
    rw [hkey, (hcanonical _ _ hd).2]
  rw [hcoverage] at hd
  refine ⟨i, d, l, p, p', cancel, hi, hnext, hnext_intent, ⟨hd, hpending, hl, hp, howner, hunlock,
    by rw [hcoverage]⟩, ?_⟩
  intro t t₁ q q' hi' hcancelled
  refine ⟨hsign, i, hi', hto, d, ?_, q, hcancelled.position, l, hcancelled.lock, hcancelled.owner,
    hkey, hhash, ⟨cancel, hnext, hnext_owner, hnext_intent, hnext_dispute⟩, _, hcancel, q',
    hcancelled.unlocked, ?_⟩
  · rw [hcoverage]
    exact hcancelled.dispute_eq
  · rw [hcancelled.post, hcoverage]

/-- Having the same seeds is transitive. -/
theorem SameSeeds.trans {d d' d'' : Deposit} (h : SameSeeds d d') (h' : SameSeeds d' d'') :
    SameSeeds d d'' :=
  ⟨h'.escrow_config.trans h.escrow_config, h'.id.trans h.id, h'.token_mint.trans h.token_mint⟩

theorem SameSeeds.symm {d d' : Deposit} (h : SameSeeds d d') : SameSeeds d' d :=
  ⟨h.escrow_config.symm, h.id.symm, h.token_mint.symm⟩

theorem Deposit.settle_seeds {d d' : Deposit} {locked released : ℕ}
    (h : d.settle locked released = .ok d') : SameSeeds d d' := by
  simp only [Deposit.settle, bind_eq_ok, require_eq_ok, exists_const, pure_eq_ok] at h
  obtain ⟨-, -, _, -, _, -, _, -, _, -, rfl⟩ := h
  exact ⟨rfl, rfl, rfl⟩

/-- What another state offers the settlement of `live` that went through from `s` to `s'`: the same
fees, the same token accounts moved by `shift`, a vault that still covers the release, and the same
intent on a deposit with the same seeds. -/
structure OffersSettlement (shift : Pubkey → ℤ) (s s' t : State) (live live' : LiveIntent) :
    Prop where
  fees : SameFees s.orchestrator t.orchestrator
  tokens : Shifted shift s.tokens t.tokens
  tokensOk : TokensOk t.tokens
  enough : 0 ≤ balance s'.tokens (deposit_vault_address live.intent.deposit)
    + shift (deposit_vault_address live.intent.deposit)
  intent : live'.intent = live.intent
  seeds : SameSeeds live.deposit live'.deposit
  active : 1 ≤ live'.taker_state.active_intents

/-- A settlement that went through goes through wherever its coverage and its deposit settle. -/
theorem settle_intent_replay {ctx : TxContext} {k : Pubkey} {live live' : LiveIntent}
    {tokens : SettlementTokenAccounts} {dispute : SettlementDisputeAccounts}
    {remaining_accounts : List AccountInfo} {r : ℕ} {s s' t t₁ : State} {deposit' : Deposit}
    {shift : Pubkey → ℤ}
    (h : settle_intent ctx k live tokens dispute remaining_accounts r s = .ok s')
    (hoffers : OffersSettlement shift s s' t live live')
    (hdispute : settle_dispute_if_covered ctx live.intent dispute r t = .ok t₁)
    (hdeposit : live'.deposit.settle live'.lock.amount r = .ok deposit') :
    ∃ U, settle_intent ctx k live' tokens dispute remaining_accounts r t
        = .ok (closed_state k live' deposit' { t₁ with tokens := U })
      ∧ Shifted shift s'.tokens U := by
  simp only [settle_intent, bind_eq_ok, close_intent_ok] at h
  obtain ⟨handles, hload, s₁, hsettle, deposit, hdeposit₁, T, hpay, -, rfl⟩ := h
  -- settling the coverage first changes neither the tokens nor the fees
  have htokens : s₁.tokens = s.tokens := by rw [settle_dispute_rest hsettle]
  have horchestrator : s₁.orchestrator = s.orchestrator :=
    by rw [settle_dispute_rest hsettle]
  have htokens' : t₁.tokens = t.tokens := by rw [settle_dispute_rest hdispute]
  have horchestrator' : t₁.orchestrator = t.orchestrator :=
    by rw [settle_dispute_rest hdispute]
  obtain ⟨handles', hload', hshifted⟩ := load_shift hload hoffers.tokens
  rw [htokens, horchestrator] at hpay
  have hseeds := (Deposit.settle_seeds hdeposit₁).symm.trans
    (hoffers.seeds.trans (Deposit.settle_seeds hdeposit))
  obtain ⟨U, hgo, hU⟩ := distribute_funds_shift hpay (SettlementTokenAccounts.load_fresh hload)
    hoffers.fees hseeds hoffers.tokens hoffers.tokensOk hoffers.enough hshifted
  refine ⟨U, ?_, hU⟩
  simp only [settle_intent, bind_eq_ok, close_intent_ok, hoffers.intent]
  refine ⟨handles', hload', t₁, hdispute, deposit', hdeposit, U, ?_, hoffers.active, ?_⟩
  · rw [htokens', horchestrator', hgo]
  · rfl

end Zkp2pSolana
