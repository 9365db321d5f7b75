/-
What the program can do to token accounts.

`Keeps T T' k` says that the account at `k`, if there is one, keeps its owner and
mint and loses nothing. A transfer keeps every account but its source, so a
custody account is only ever drained by a transfer signed for its own authority;
since the authority of a vault is a derived address, no signer outside the
program can be it. The settlement's sequence of payments is reduced here to the
one fact custody needs: the vault pays exactly the released amount.
-/
import Zkp2pSolana.Program

set_option autoImplicit false

namespace Zkp2pSolana

open Result Zkp2pError

/-- The account at `k`, if there is one, keeps its owner and mint and loses nothing. -/
def Keeps (T T' : Accounts TokenAccount) (k : Pubkey) : Prop :=
  ∀ a, T.lookup k = some a →
    ∃ a', T'.lookup k = some a' ∧ a'.owner = a.owner ∧ a'.mint = a.mint ∧ a.amount ≤ a'.amount

theorem Keeps.refl (T : Accounts TokenAccount) (k : Pubkey) : Keeps T T k :=
  fun a ha => ⟨a, ha, rfl, rfl, le_rfl⟩

/-- What loses nothing twice loses nothing. -/
theorem Keeps.trans {T T' T'' : Accounts TokenAccount} {k : Pubkey} (h : Keeps T T' k)
    (h' : Keeps T' T'' k) : Keeps T T'' k := by
  intro a ha
  obtain ⟨a', ha', ho, hm, hle⟩ := h a ha
  obtain ⟨a'', ha'', ho', hm', hle'⟩ := h' a' ha'
  exact ⟨a'', ha'', ho'.trans ho, hm'.trans hm, hle.trans hle'⟩

theorem Keeps.balance_le {T T' : Accounts TokenAccount} {k : Pubkey} (h : Keeps T T' k) :
    balance T k ≤ balance T' k := by
  unfold balance
  cases ha : T.lookup k with
  | none => exact Nat.zero_le _
  | some a =>
    obtain ⟨a', ha', -, -, hle⟩ := h a ha
    rw [ha']
    exact hle

/-- What holds of the token accounts in every state: the supply of a mint is a word, and an
account at a derived address belongs to a derived address. -/
structure TokensOk (T : Accounts TokenAccount) : Prop where
  supply_lt : ∀ mint, supply T mint < 2 ^ 64
  owner : ∀ k a, T.lookup k = some a → k.is_pda = true → a.owner.is_pda = true

/-- One account holds at most the supply of its mint. -/
theorem le_supply {T : Accounts TokenAccount} {k : Pubkey} {a : TokenAccount}
    (ha : T.lookup k = some a) : a.amount ≤ supply T a.mint :=
  Finmap.le_owed TokenAccount.mint TokenAccount.amount ha

theorem TokensOk.word {T : Accounts TokenAccount} (h : TokensOk T) (k : Pubkey) (a : TokenAccount)
    (ha : T.lookup k = some a) : a.amount < 2 ^ 64 :=
  lt_of_le_of_lt (le_supply ha) (h.supply_lt a.mint)

/-- A bound for the mints of the accounts there are is a bound for all. -/
theorem supply_lt_of_accounts {T : Accounts TokenAccount}
    (h : ∀ k a, T.lookup k = some a → supply T a.mint < 2 ^ 64) (mint : Pubkey) :
    supply T mint < 2 ^ 64 := by
  by_cases hmint : ∃ k a, T.lookup k = some a ∧ a.mint = mint
  · obtain ⟨k, a, ha, rfl⟩ := hmint
    exact h k a ha
  · have hzero : supply T mint = 0 :=
      Finmap.owed_eq_zero _ _ fun k a ha hm => hmint ⟨k, a, ha, hm⟩
    rw [hzero]
    exact Nat.two_pow_pos 64

/-- Writing back an account of the same mint moves the supply by what its amount moves. -/
theorem supply_update {T : Accounts TokenAccount} {k : Pubkey} {a : TokenAccount} (x : ℕ)
    (ha : T.lookup k = some a) (mint : Pubkey) :
    supply (T.insert k { a with amount := x }) mint + (if a.mint = mint then a.amount else 0)
      = supply T mint + if a.mint = mint then x else 0 :=
  Finmap.owed_update TokenAccount.mint TokenAccount.amount ha mint

/-- An account a signer controls is not at a derived address. -/
theorem TokensOk.ne_of_signer {T : Accounts TokenAccount} (h : TokensOk T) {k v : Pubkey}
    {a : TokenAccount} (ha : T.lookup k = some a) (hsign : a.owner.can_sign = true)
    (hv : v.is_pda = true) : k ≠ v := by
  rintro rfl
  have := h.owner k a ha hv
  rw [Pubkey.is_pda_of_can_sign hsign] at this
  exact absurd this (by simp)

/-! ## Single transfers -/

/-- A successful transfer, read backwards. -/
theorem transfer_checked_ok {T T' : Accounts TokenAccount} {src dst mint authority : Pubkey} {x : ℕ}
    (h : transfer_checked T src dst mint authority x = .ok T') :
    ∃ a b, T.lookup src = some a ∧ T.lookup dst = some b ∧ x ≤ a.amount
      ∧ a.mint = mint ∧ b.mint = mint ∧ a.owner = authority
      ∧ ((src = dst ∧ T' = T) ∨ (src ≠ dst ∧ b.amount + x < 2 ^ 64
        ∧ T' = (T.insert src { a with amount := a.amount - x }).insert dst
            { b with amount := b.amount + x })) := by
  simp only [transfer_checked, bind_eq_ok, load_eq_ok, require_eq_ok, exists_const, ite_eq_ok,
    pure_eq_ok, ok_or_eq_ok, Checked.add_eq_some] at h
  obtain ⟨a, ha, b, hb, hx, ⟨hma, hmb⟩, ho, h⟩ := h
  refine ⟨a, b, ha, hb, hx, hma, hmb, ho, ?_⟩
  rcases h with ⟨heq, rfl⟩ | ⟨hne, c, ⟨hlt, rfl⟩, rfl⟩
  · exact .inl ⟨heq, rfl⟩
  · exact .inr ⟨hne, hlt, rfl⟩

/-- A transfer that fails does so with an error of the token program or of a missing account. -/
theorem transfer_checked_ne_zkp2p {T : Accounts TokenAccount} {src dst mint authority : Pubkey}
    {x : ℕ} {e : Zkp2pError} :
    transfer_checked T src dst mint authority x ≠ .error (.zkp2p e) := by
  intro h
  simp only [transfer_checked, load, bind_eq_error, require_eq_error, ok_or_eq_error,
    reduceCtorEq, and_false, false_or] at h
  obtain ⟨_, -, _, -, _, -, _, -, _, -, h⟩ := h
  by_cases hself : src = dst
  · rw [if_pos hself] at h
    exact pure_eq_error.mp h
  · rw [if_neg hself] at h
    simp only [bind_eq_error, ok_or_eq_error, pure_eq_error, reduceCtorEq, and_false, or_false,
      exists_false] at h

theorem transfer_checked_keeps {T T' : Accounts TokenAccount} {src dst mint authority : Pubkey}
    {x : ℕ} (h : transfer_checked T src dst mint authority x = .ok T') {k : Pubkey}
    (hk : k ≠ src) : Keeps T T' k := by
  obtain ⟨a, b, -, hb, -, -, -, -, ⟨-, rfl⟩ | ⟨-, -, rfl⟩⟩ := transfer_checked_ok h
  · exact .refl _ _
  · intro c hc
    -- only the destination is left to look at, and it is credited
    by_cases hd : k = dst
    · subst hd
      rw [hb] at hc
      cases hc
      exact ⟨_, Finmap.lookup_insert _, rfl, rfl, Nat.le_add_right _ _⟩
    · refine ⟨c, ?_, rfl, rfl, le_rfl⟩
      rw [Finmap.lookup_insert_of_ne _ hd, Finmap.lookup_insert_of_ne _ hk, hc]

/-- A transfer keeps the supply of every mint. -/
theorem transfer_checked_supply {T T' : Accounts TokenAccount} {src dst mint authority : Pubkey}
    {x : ℕ} (h : transfer_checked T src dst mint authority x = .ok T') (m : Pubkey) :
    supply T' m = supply T m := by
  obtain ⟨a, b, ha, hb, hx, hma, hmb, -, ⟨-, rfl⟩ | ⟨hne, -, rfl⟩⟩ := transfer_checked_ok h
  · rfl
  · have hdebit := supply_update (a.amount - x) ha m
    have hb' : (T.insert src { a with amount := a.amount - x }).lookup dst = some b := by
      rw [Finmap.lookup_insert_of_ne _ (Ne.symm hne), hb]
    have hcredit := supply_update (b.amount + x) hb' m
    have hmint : b.mint = m ↔ a.mint = m := by rw [hma, hmb]
    -- the debit and the credit are of one mint, so they cancel or neither counts
    by_cases hm : a.mint = m
    · rw [if_pos hm, if_pos hm] at hdebit
      rw [if_pos (hmint.mpr hm), if_pos (hmint.mpr hm)] at hcredit
      omega
    · rw [if_neg hm, if_neg hm] at hdebit
      rw [if_neg (mt hmint.mp hm), if_neg (mt hmint.mp hm)] at hcredit
      omega

theorem transfer_checked_tokensOk {T T' : Accounts TokenAccount}
    {src dst mint authority : Pubkey} {x : ℕ}
    (h : transfer_checked T src dst mint authority x = .ok T') (hT : TokensOk T) : TokensOk T' := by
  refine ⟨fun m => ?_, fun k c hc => ?_⟩
  · rw [transfer_checked_supply h]
    exact hT.supply_lt m
  · obtain ⟨a, b, ha, hb, -, -, -, -, ⟨-, rfl⟩ | ⟨-, -, rfl⟩⟩ := transfer_checked_ok h
    · exact hT.owner k c hc
    · rw [Finmap.lookup_insert_ite, Finmap.lookup_insert_ite] at hc
      split_ifs at hc with hd hs
      · cases hc; subst hd; exact hT.owner _ b hb
      · cases hc; subst hs; exact hT.owner _ a ha
      · exact hT.owner _ _ hc

/-- The source of a transfer loses at most the amount, and keeps its owner and mint. -/
theorem transfer_checked_source {T T' : Accounts TokenAccount} {src dst mint authority : Pubkey}
    {x : ℕ} (h : transfer_checked T src dst mint authority x = .ok T') {a : TokenAccount}
    (ha : T.lookup src = some a) :
    ∃ a', T'.lookup src = some a' ∧ a'.owner = a.owner ∧ a'.mint = a.mint
      ∧ a.amount ≤ a'.amount + x := by
  obtain ⟨a₀, b, ha₀, -, hx, -, -, -, ⟨-, rfl⟩ | ⟨hne, -, rfl⟩⟩ := transfer_checked_ok h
  · exact ⟨a, ha, rfl, rfl, Nat.le_add_right _ _⟩
  · rw [ha] at ha₀
    cases ha₀
    refine ⟨{ a with amount := a.amount - x }, ?_, rfl, rfl, ?_⟩
    · rw [Finmap.lookup_insert_of_ne _ hne, Finmap.lookup_insert]
    · show a.amount ≤ a.amount - x + x
      omega

/-- The source loses at most the amount; where it is also the destination it loses nothing. -/
theorem transfer_checked_balance {T T' : Accounts TokenAccount} {src dst mint authority : Pubkey}
    {x : ℕ} (h : transfer_checked T src dst mint authority x = .ok T') :
    balance T src ≤ balance T' src + x := by
  obtain ⟨a, -, ha, -⟩ := transfer_checked_ok h
  obtain ⟨a', ha', -, -, hle⟩ := transfer_checked_source h ha
  unfold balance
  rw [ha, ha']
  exact hle

/-! ## Transfers into and out of custody -/

/-- A transfer into custody leaves the vault with exactly the amount more. -/
theorem transfer_in_ok {T T' : Accounts TokenAccount} {src vault mint authority : Pubkey} {x : ℕ}
    (h : transfer_in T src vault mint authority x = .ok T') :
    transfer_checked T src vault mint authority x = .ok T'
      ∧ balance T' vault = balance T vault + x := by
  simp only [transfer_in, bind_eq_ok, load_eq_ok, require_eq_ok, exists_const, pure_eq_ok,
    ok_or_eq_ok, Checked.sub_eq_some] at h
  obtain ⟨b, hb, T₁, htransfer, b', hb', _, ⟨hle, rfl⟩, hx, rfl⟩ := h
  refine ⟨htransfer, ?_⟩
  unfold balance
  rw [hb, hb']
  show b'.amount = b.amount + x
  omega

/-- A transfer into custody from an account a signer controls keeps every custody account. -/
theorem transfer_in_keeps {T T' : Accounts TokenAccount} {src vault mint authority : Pubkey} {x : ℕ}
    (h : transfer_in T src vault mint authority x = .ok T') (hT : TokensOk T)
    (hsign : authority.can_sign = true) {k : Pubkey} (hk : k.is_pda = true) : Keeps T T' k := by
  obtain ⟨htransfer, -⟩ := transfer_in_ok h
  obtain ⟨a, -, ha, -, -, -, -, ho, -⟩ := transfer_checked_ok htransfer
  -- the source is owned by a signer, so it is no custody account and `k` is not debited
  have hne := hT.ne_of_signer ha (ho ▸ hsign) hk
  exact transfer_checked_keeps htransfer hne.symm

/-- A token account that loads has the mint and the owner it was asked for. -/
theorem token_account_ok {T : Accounts TokenAccount} {k mint authority : Pubkey} {a : TokenAccount}
    (h : token_account T k mint authority = .ok a) :
    T.lookup k = some a ∧ a.mint = mint ∧ a.owner = authority := by
  simp only [token_account, bind_eq_ok, load_eq_ok, require_eq_ok, exists_const, pure_eq_ok] at h
  obtain ⟨b, hb, hm, ho, rfl⟩ := h
  exact ⟨hb, hm, ho⟩

theorem close_account_ok {T T' : Accounts TokenAccount} {k authority : Pubkey}
    (h : close_account T k authority = .ok T') : T' = T.erase k := by
  simp only [close_account, bind_eq_ok, load_eq_ok, require_eq_ok, exists_const, pure_eq_ok] at h
  obtain ⟨a, -, -, -, rfl⟩ := h
  rfl

/-- Removing an account keeps the ledger within range. -/
theorem TokensOk.erase {T : Accounts TokenAccount} (h : TokensOk T) (k : Pubkey) :
    TokensOk (T.erase k) := by
  refine ⟨fun mint => ?_, fun k' a ha => ?_⟩
  · exact lt_of_le_of_lt (Finmap.owed_erase_le _ _ T k mint) (h.supply_lt mint)
  · rw [Finmap.lookup_erase_ite] at ha
    split_ifs at ha
    exact h.owner k' a ha

theorem Keeps.erase (T : Accounts TokenAccount) {k k' : Pubkey} (h : k' ≠ k) :
    Keeps T (T.erase k) k' := by
  intro a ha
  exact ⟨a, by rw [Finmap.lookup_erase_ne h, ha], rfl, rfl, le_rfl⟩

/-- A fresh empty account of a derived authority. -/
theorem TokensOk.insert {T : Accounts TokenAccount} (h : TokensOk T) {k : Pubkey}
    {a : TokenAccount} (hfresh : T.lookup k = none) (hempty : a.amount = 0)
    (howner : a.owner.is_pda = true) : TokensOk (T.insert k a) := by
  refine ⟨fun mint => ?_, fun k' b hb => ?_⟩
  · have hsupply : supply (T.insert k a) mint = supply T mint := by
      unfold supply
      rw [Finmap.owed_insert _ _ hfresh, hempty, ite_self, Nat.add_zero]
    rw [hsupply]
    exact h.supply_lt mint
  · rw [Finmap.lookup_insert_ite] at hb
    split_ifs at hb with hk
    · cases hb
      exact fun _ => howner
    · exact h.owner k' b hb

theorem Keeps.insert {T : Accounts TokenAccount} {k k' : Pubkey} {a : TokenAccount}
    (h : T.lookup k = none) : Keeps T (T.insert k a) k' := by
  intro b hb
  have hne : k' ≠ k := by
    rintro rfl
    rw [h] at hb
    exact absurd hb (by simp)
  exact ⟨b, by rw [Finmap.lookup_insert_of_ne _ hne, hb], rfl, rfl, le_rfl⟩

/-! ## Payments out of a vault -/

/-- The account at `vault` pays out exactly `x` and every other account keeps what it has. -/
structure Paid (T T' : Accounts TokenAccount) (vault : Pubkey) (x : ℕ) : Prop where
  keeps : ∀ k, k ≠ vault → Keeps T T' k
  tokensOk : TokensOk T → TokensOk T'
  source : ∀ a, T.lookup vault = some a → ∃ a', T'.lookup vault = some a' ∧ a'.owner = a.owner
    ∧ a'.mint = a.mint ∧ a'.amount + x = a.amount

theorem Paid.refl (T : Accounts TokenAccount) (vault : Pubkey) : Paid T T vault 0 :=
  ⟨fun _ _ => .refl _ _, id, fun a ha => ⟨a, ha, rfl, rfl, rfl⟩⟩

theorem Paid.trans {T T' T'' : Accounts TokenAccount} {vault : Pubkey} {x y : ℕ}
    (h : Paid T T' vault x) (h' : Paid T' T'' vault y) : Paid T T'' vault (x + y) := by
  refine ⟨fun k hk => (h.keeps k hk).trans (h'.keeps k hk), fun hT => h'.tokensOk (h.tokensOk hT),
    fun a ha => ?_⟩
  obtain ⟨a', ha', ho, hm, hx⟩ := h.source a ha
  obtain ⟨a'', ha'', ho', hm', hy⟩ := h'.source a' ha'
  exact ⟨a'', ha'', ho'.trans ho, hm'.trans hm, by omega⟩

theorem transfer_checked_paid {T T' : Accounts TokenAccount} {src dst mint authority : Pubkey}
    {x : ℕ} (h : transfer_checked T src dst mint authority x = .ok T') (hne : src ≠ dst) :
    Paid T T' src x := by
  refine ⟨fun k hk => transfer_checked_keeps h hk, transfer_checked_tokensOk h, fun a ha => ?_⟩
  obtain ⟨a₀, b, ha₀, -, hx, -, -, -, ⟨heq, -⟩ | ⟨-, -, rfl⟩⟩ := transfer_checked_ok h
  · exact absurd heq hne
  · rw [ha] at ha₀
    cases ha₀
    refine ⟨{ a with amount := a.amount - x }, ?_, rfl, rfl, Nat.sub_add_cancel hx⟩
    rw [Finmap.lookup_insert_of_ne _ hne, Finmap.lookup_insert]

/-- A payment through a handle that agrees with the ledger leaves one that does. -/
theorem transfer_exact_paid {deposit_key mint : Pubkey} {deposit : Deposit} {x : ℕ}
    {source destination source' destination' : Account TokenAccount}
    {T T' : Accounts TokenAccount}
    (h : transfer_exact deposit_key deposit source destination mint x T
      = .ok (T', source', destination')) (hfresh : T.lookup source.key = some source.data) :
    Paid T T' source.key x ∧ source'.key = source.key
      ∧ T'.lookup source.key = some source'.data := by
  simp only [transfer_exact, Account.reload, bind_eq_ok, require_eq_ok, exists_const, pure_eq_ok,
    load_eq_ok, ok_or_eq_ok, Checked.sub_eq_some, Prod.mk.injEq] at h
  obtain ⟨hpos, -, T₁, htransfer, s', ⟨a', ha', rfl⟩, d', -, debited, ⟨hle, rfl⟩, _, -,
    ⟨hdebited, -⟩, rfl, rfl, rfl⟩ := h
  refine ⟨transfer_checked_paid htransfer ?_, rfl, ha'⟩
  -- a transfer of the vault to itself would have debited nothing
  intro heq
  obtain ⟨-, -, -, -, -, -, -, -, ⟨-, rfl⟩ | ⟨hne, -⟩⟩ := transfer_checked_ok htransfer
  · rw [hfresh] at ha'
    cases ha'
    simp only [Nat.sub_self] at hdebited
    omega
  · exact hne heq

/-- The protocol's fee is paid out of the vault, and the handle of the vault is reloaded. -/
theorem pay_protocol_paid {deposit_key : Pubkey} {deposit : Deposit} {t t' : SettlementTokens}
    {fee : ℕ} {T T' : Accounts TokenAccount}
    (h : pay_protocol deposit_key deposit t fee T = .ok (T', t'))
    (hfresh : T.lookup t.deposit_vault.key = some t.deposit_vault.data) :
    Paid T T' t.deposit_vault.key fee ∧ t'.deposit_vault.key = t.deposit_vault.key
      ∧ T'.lookup t.deposit_vault.key = some t'.deposit_vault.data := by
  simp only [pay_protocol, ite_eq_ok, bind_eq_ok, pure_eq_ok, ok_eq_ok, Prod.mk.injEq] at h
  rcases h with ⟨-, ⟨T₁, vault, destination⟩, hpay, rfl, rfl⟩ | ⟨hzero, rfl, rfl⟩
  · exact transfer_exact_paid hpay hfresh
  · obtain rfl : fee = 0 := by omega
    exact ⟨.refl _ _, rfl, hfresh⟩

theorem pay_manager_paid {intent : Intent} {deposit_key : Pubkey} {deposit : Deposit}
    {t t' : SettlementTokens} {fee : ℕ} {T T' : Accounts TokenAccount}
    (h : pay_manager intent deposit_key deposit t fee T = .ok (T', t'))
    (hfresh : T.lookup t.deposit_vault.key = some t.deposit_vault.data) :
    Paid T T' t.deposit_vault.key fee ∧ t'.deposit_vault.key = t.deposit_vault.key
      ∧ T'.lookup t.deposit_vault.key = some t'.deposit_vault.data := by
  simp only [pay_manager, ite_eq_ok, bind_eq_ok, require_eq_ok, exists_const, ok_or_eq_ok,
    pure_eq_ok, Prod.mk.injEq] at h
  rcases h with ⟨-, -, -, destination, -, -, -, ⟨T₁, vault, destination'⟩, hpay, rfl, rfl⟩
    | ⟨hzero, -, rfl, rfl⟩
  · exact transfer_exact_paid hpay hfresh
  · obtain rfl : fee = 0 := by omega
    exact ⟨.refl _ _, rfl, hfresh⟩

/-- The referral loop pays out what it adds to the fee total. -/
theorem pay_referrals_paid {release_amount : ℕ} {deposit_key mint : Pubkey} {deposit : Deposit}
    {fees : List (ReferralFee × AccountInfo)} {vault vault' : Account TokenAccount}
    {total total' : ℕ} {T T' : Accounts TokenAccount}
    (h : pay_referrals release_amount deposit_key deposit mint fees vault total T
      = .ok (T', vault', total'))
    (hfresh : T.lookup vault.key = some vault.data) :
    ∃ x, total' = total + x ∧ Paid T T' vault.key x ∧ vault'.key = vault.key
      ∧ T'.lookup vault.key = some vault'.data := by
  -- induction on the fees still to pay; the vault handle must stay fresh from turn to turn, or
  -- the exact-delta check of the next payment would say nothing about the ledger
  induction fees generalizing vault total T with
  | nil =>
    simp only [pay_referrals, ok_eq_ok, Prod.mk.injEq] at h
    obtain ⟨rfl, rfl, rfl⟩ := h
    exact ⟨0, rfl, .refl _ _, rfl, hfresh⟩
  | cons entry rest ih =>
    obtain ⟨fee, account⟩ := entry
    simp only [pay_referrals, bind_eq_ok, ok_or_eq_ok, Checked.add_eq_some, load_eq_ok,
      require_eq_ok, exists_const, ite_eq_ok] at h
    obtain ⟨x, -, _, ⟨-, rfl⟩, destination, -, -, -, h⟩ := h
    rcases h with ⟨-, ⟨T₁, vault₁, destination'⟩, hpay, hrest⟩ | ⟨hzero, hrest⟩
    · obtain ⟨hpaid, hkey, hfresh₁⟩ := transfer_exact_paid hpay hfresh
      rw [← hkey] at hfresh₁
      obtain ⟨y, rfl, hpaid', hkey', hfresh'⟩ := ih hrest hfresh₁
      rw [hkey] at hpaid' hkey' hfresh'
      exact ⟨x + y, Nat.add_assoc _ _ _, hpaid.trans hpaid', hkey', hfresh'⟩
    · obtain rfl : x = 0 := by omega
      exact ih hrest hfresh

/-- A settlement pays exactly the released amount out of the deposit's vault, whatever the fees. -/
theorem distribute_funds_paid {intent : Intent} {orchestrator : OrchestratorConfig}
    {deposit_key : Pubkey} {deposit : Deposit} {t : SettlementTokens}
    {remaining_accounts : List AccountInfo} {release_amount : ℕ} {T T' : Accounts TokenAccount}
    (h : distribute_funds intent orchestrator deposit_key deposit t remaining_accounts
      release_amount T = .ok T')
    (hfresh : T.lookup t.deposit_vault.key = some t.deposit_vault.data) :
    Paid T T' (deposit_vault_address deposit_key) release_amount := by
  simp only [distribute_funds, check_settlement_tokens, bind_eq_ok, require_eq_ok, exists_const,
    ok_or_eq_ok, Checked.add_eq_some, Checked.sub_eq_some, pure_eq_ok, Prod.exists] at h
  obtain ⟨⟨-, hvault, -⟩, -, protocol_fee, -, manager_fee, -, _, ⟨-, rfl⟩, T₁, t₁, hprotocol,
    T₂, t₂, hmanager, T₃, vault₃, total, hreferrals, net, ⟨hle, rfl⟩, T₄, _, _, hnet, rfl⟩ := h
  obtain ⟨hpaid₁, hkey₁, hfresh₁⟩ := pay_protocol_paid hprotocol hfresh
  rw [← hkey₁] at hfresh₁
  obtain ⟨hpaid₂, hkey₂, hfresh₂⟩ := pay_manager_paid hmanager hfresh₁
  rw [← hkey₂] at hfresh₂
  obtain ⟨x, rfl, hpaid₃, hkey₃, hfresh₃⟩ := pay_referrals_paid hreferrals hfresh₂
  rw [← hkey₃] at hfresh₃
  obtain ⟨hpaid₄, -, -⟩ := transfer_exact_paid hnet hfresh₃
  rw [hkey₃, hkey₂, hkey₁, hvault] at hpaid₄
  rw [hkey₂, hkey₁, hvault] at hpaid₃
  rw [hkey₁, hvault] at hpaid₂
  rw [hvault] at hpaid₁
  -- four payments in a row; the last one is defined as what the fees leave
  have hsum := ((hpaid₁.trans hpaid₂).trans hpaid₃).trans hpaid₄
  rwa [show protocol_fee + manager_fee + x + (release_amount - (protocol_fee + manager_fee + x))
    = release_amount by omega] at hsum

/-! ## Other programs -/

/-- Other programs take nothing from an account of this one. -/
theorem external_ok_keeps {T T' : Accounts TokenAccount} (h : external_ok T T') {k : Pubkey}
    (hk : k.is_pda = true) : Keeps T T' k := by
  intro a ha
  exact h.1 k (Finmap.mem_keys.mpr (Finmap.mem_of_lookup_eq_some ha)) a ha (.inl hk)

theorem external_ok_tokensOk {T T' : Accounts TokenAccount} (h : external_ok T T')
    (hT : TokensOk T) : TokensOk T' := by
  have hnew : ∀ k a, T'.lookup k = some a →
      supply T' a.mint < 2 ^ 64 ∧ (k.is_pda = true → (T.lookup k).isSome = true) := fun k a ha =>
    h.2 k (Finmap.mem_keys.mpr (Finmap.mem_of_lookup_eq_some ha)) a ha
  -- an account at a derived address was there before, and other programs cannot reassign it
  refine ⟨supply_lt_of_accounts fun k a ha => (hnew k a ha).1, fun k a ha hk => ?_⟩
  obtain ⟨b, hb⟩ := Option.isSome_iff_exists.mp ((hnew k a ha).2 hk)
  obtain ⟨a', ha', ho, -⟩ := external_ok_keeps h hk b hb
  rw [ha] at ha'
  cases ha'
  rw [ho]
  exact hT.owner k b hb hk

/-! ## The two custody groups

Deposit custody moves only deposit vaults and stake custody only the stake vault:
what either does to the other's accounts is at most a credit. -/

/-- A payment out of a deposit is a transfer out of its vault. -/
theorem transfer_from_deposit_ok {T T' : Accounts TokenAccount} {k dst mint : Pubkey}
    {d : Deposit} {x : ℕ} (h : transfer_from_deposit T k d dst mint x = .ok T') :
    deposit_address d.escrow_config d.id = k
      ∧ transfer_checked T (deposit_vault_address k) dst mint k x = .ok T' := by
  simp only [transfer_from_deposit, bind_eq_ok, require_eq_ok, exists_const] at h
  exact h

/-- A payment out of a deposit's vault that may be skipped. -/
theorem transfer_from_deposit_if {T T' : Accounts TokenAccount} {k dst mint : Pubkey}
    {d : Deposit} {x : ℕ}
    (h : (if 0 < x then transfer_from_deposit T k d dst mint x else .ok T) = .ok T') :
    (x = 0 ∧ T' = T)
      ∨ transfer_checked T (deposit_vault_address k) dst mint k x = .ok T' := by
  rw [ite_eq_ok] at h
  rcases h with ⟨-, h⟩ | ⟨hzero, h⟩
  · exact .inr (transfer_from_deposit_ok h).2
  · rw [ok_eq_ok] at h
    exact .inl ⟨by omega, h.symm⟩

/-- Every account but the vault of the deposit at `k` keeps what it has. -/
structure VaultOnly (T T' : Accounts TokenAccount) (k : Pubkey) : Prop where
  tokensOk : TokensOk T → TokensOk T'
  keeps : ∀ k', k' ≠ deposit_vault_address k → Keeps T T' k'

/-- No vault was touched. -/
theorem VaultOnly.refl (T : Accounts TokenAccount) (k : Pubkey) : VaultOnly T T k :=
  ⟨id, fun _ _ => .refl _ _⟩

theorem VaultOnly.trans {T T' T'' : Accounts TokenAccount} {k : Pubkey} (h : VaultOnly T T' k)
    (h' : VaultOnly T' T'' k) : VaultOnly T T'' k :=
  ⟨fun hT => h'.tokensOk (h.tokensOk hT), fun k' hk => (h.keeps k' hk).trans (h'.keeps k' hk)⟩

/-- A transfer out of a deposit's vault takes from no other account. -/
theorem VaultOnly.of_transfer {T T' : Accounts TokenAccount} {k dst mint authority : Pubkey} {x : ℕ}
    (h : transfer_checked T (deposit_vault_address k) dst mint authority x = .ok T') :
    VaultOnly T T' k :=
  ⟨transfer_checked_tokensOk h, fun _ hk => transfer_checked_keeps h hk⟩

/-- The terminal sweep of a withdrawal, read backwards. -/
theorem close_deposit_ok {accounts : WithdrawDeposit} {d : Deposit} {residual : ℕ}
    {r r' : EscrowRecords} {T T' : Accounts TokenAccount}
    (h : close_deposit accounts d residual r T = .ok (r', T')) :
    r' = { r with deposits := r.deposits.erase accounts.deposit }
      ∧ VaultOnly T T' accounts.deposit := by
  simp only [close_deposit, bind_eq_ok, require_eq_ok, exists_const, pure_eq_ok, Prod.mk.injEq] at h
  obtain ⟨T₁, hsweep, -, T₂, hclose, rfl, rfl⟩ := h
  have hswept : VaultOnly T T₁ accounts.deposit := by
    rw [ite_eq_ok] at hsweep
    rcases hsweep with ⟨-, hsweep⟩ | ⟨-, hsweep⟩
    · rw [bind_eq_ok] at hsweep
      obtain ⟨dust, -, hsweep⟩ := hsweep
      exact .of_transfer (transfer_from_deposit_ok hsweep).2
    · rw [ok_eq_ok] at hsweep
      subst hsweep
      exact .refl _ _
  -- the closed account is the vault itself, so every other account still keeps what it has
  refine ⟨rfl, hswept.trans ?_⟩
  rw [close_account_ok hclose]
  exact ⟨fun hT => hT.erase _, fun _ hk => Keeps.erase _ hk⟩

/-- A custody account that was credited, found again with the credit. -/
theorem Keeps.credited {T T' : Accounts TokenAccount} {k : Pubkey} {x : ℕ} (h : Keeps T T' k)
    (hbalance : balance T' k = balance T k + x) {a : TokenAccount} (ha : T.lookup k = some a) :
    ∃ a', T'.lookup k = some a' ∧ a'.owner = a.owner ∧ a'.mint = a.mint
      ∧ a'.amount = a.amount + x := by
  obtain ⟨a', ha', ho, hm, -⟩ := h a ha
  refine ⟨a', ha', ho, hm, ?_⟩
  unfold balance at hbalance
  rw [ha, ha'] at hbalance
  exact hbalance

/-- `create_deposit` read backwards: the deposit is new, and its vault holds what the depositor
signed for. -/
theorem create_deposit_ok {accounts : CreateDeposit} {args : CreateDepositArgs}
    {r r' : EscrowRecords} {T T' : Accounts TokenAccount} (hT : TokensOk T)
    (h : handle_create_deposit accounts args r T = .ok (r', T')) :
    ∃ key a, key = deposit_address escrow_config_address r.escrow_config.next_deposit_id
      ∧ accounts.depositor.can_sign = true ∧ 0 < args.intent_amount_range.min
      ∧ r.deposits.lookup key = none
      ∧ r'.deposits
        = r.deposits.insert key (new_deposit accounts.depositor args r.escrow_config)
      ∧ r'.intent_locks = r.intent_locks
      ∧ T'.lookup (deposit_vault_address key) = some a ∧ a.owner = key
      ∧ a.mint = r.escrow_config.token_mint ∧ a.amount = args.amount
      ∧ TokensOk T' ∧ ∀ k : Pubkey, k.is_pda = true → Keeps T T' k := by
  simp only [handle_create_deposit, check_create_deposit_args, bind_eq_ok, signer_eq_ok, init_eq_ok,
    require_eq_ok, exists_const, ok_or_eq_ok, Checked.add_eq_some, pure_eq_ok, Prod.mk.injEq] at h
  obtain ⟨hsign, hfresh, -, -, _, -, hvault, -, ⟨-, hmin, -⟩, _, ⟨-, rfl⟩, T₁, htransfer, rfl, rfl⟩ := h
  -- the vault is inserted empty first, and the transfer then credits it
  have hT₁ := hT.insert (a := ⟨r.escrow_config.token_mint,
    deposit_address escrow_config_address r.escrow_config.next_deposit_id, 0⟩) hvault rfl rfl
  have hkeeps : ∀ k : Pubkey, k.is_pda = true → Keeps _ T₁ k :=
    fun k hk => transfer_in_keeps htransfer hT₁ hsign hk
  obtain ⟨htransferred, hbalance⟩ := transfer_in_ok htransfer
  obtain ⟨a, ha, ho, hm, hamount⟩ := (hkeeps _ rfl).credited hbalance (Finmap.lookup_insert _)
  refine ⟨_, a, rfl, hsign, hmin, hfresh, rfl, rfl, ha, ho, hm, ?_,
    transfer_checked_tokensOk htransferred hT₁, fun k hk => (Keeps.insert hvault).trans (hkeeps k hk)⟩
  rw [hamount]
  exact Nat.zero_add _

/-- `add_funds` read backwards: liquidity and vault grow by the same amount. -/
theorem add_funds_ok {accounts : AddFunds} {amount : ℕ} {r r' : EscrowRecords}
    {T T' : Accounts TokenAccount} (hT : TokensOk T)
    (h : handle_add_funds accounts amount r T = .ok (r', T')) :
    ∃ d, r.deposits.lookup accounts.deposit = some d
      ∧ r' = { r with
          deposits := r.deposits.insert accounts.deposit
            { d with remaining_deposits := d.remaining_deposits + amount } }
      ∧ balance T' (deposit_vault_address accounts.deposit)
        = balance T (deposit_vault_address accounts.deposit) + amount
      ∧ TokensOk T' ∧ ∀ k : Pubkey, k.is_pda = true → Keeps T T' k := by
  simp only [handle_add_funds, bind_eq_ok, signer_eq_ok, load_eq_ok, require_eq_ok, exists_const,
    ok_or_eq_ok, Checked.add_eq_some, pure_eq_ok, Prod.mk.injEq] at h
  obtain ⟨hsign, -, d, hd, -, _, -, -, T₁, htransfer, _, ⟨-, rfl⟩, rfl, rfl⟩ := h
  obtain ⟨htransferred, hbalance⟩ := transfer_in_ok htransfer
  exact ⟨d, hd, rfl, hbalance, transfer_checked_tokensOk htransferred hT,
    fun k hk => transfer_in_keeps htransfer hT hsign hk⟩

/-- A payment out of a deposit's vault to an account a signer controls is exact. -/
theorem paid_to_signer {T T' : Accounts TokenAccount} {k dst mint owner : Pubkey} {x : ℕ}
    {a : TokenAccount} (hT : TokensOk T) (ha : T.lookup dst = some a) (howner : a.owner = owner)
    (hsign : owner.can_sign = true)
    (h : transfer_checked T (deposit_vault_address k) dst mint k x = .ok T') :
    Paid T T' (deposit_vault_address k) x :=
  transfer_checked_paid h (hT.ne_of_signer ha (howner ▸ hsign) rfl).symm

/-- `remove_funds` read backwards: only free liquidity leaves. -/
theorem remove_funds_ok {accounts : RemoveFunds} {amount : ℕ} {r r' : EscrowRecords}
    {T T' : Accounts TokenAccount} (hT : TokensOk T)
    (h : handle_remove_funds accounts amount r T = .ok (r', T')) :
    ∃ d, r.deposits.lookup accounts.deposit = some d ∧ amount ≤ d.remaining_deposits
      ∧ r' = { r with
          deposits := r.deposits.insert accounts.deposit
            { d with remaining_deposits := d.remaining_deposits - amount } }
      ∧ Paid T T' (deposit_vault_address accounts.deposit) amount := by
  simp only [handle_remove_funds, bind_eq_ok, signer_eq_ok, load_eq_ok, require_eq_ok, exists_const,
    ok_or_eq_ok, Checked.sub_eq_some, pure_eq_ok, Prod.mk.injEq] at h
  obtain ⟨hsign, d, hd, -, -, -, _, -, a, ha, -, hle, _, ⟨-, rfl⟩, T₁, htransfer, rfl, rfl⟩ := h
  obtain ⟨ha, -, howner⟩ := token_account_ok ha
  exact ⟨d, hd, hle, rfl, paid_to_signer hT ha howner hsign (transfer_from_deposit_ok htransfer).2⟩

/-- The deposit a withdrawal leaves when it does not close it. -/
def drained (d : Deposit) (retain : Bool) : Deposit :=
  { d with remaining_deposits := 0, accepting_intents := false, retain_on_empty := retain }

/-- `withdraw_deposit` read backwards: the free liquidity leaves, and the deposit is kept or
closed. -/
theorem withdraw_deposit_ok {accounts : WithdrawDeposit} {r r' : EscrowRecords}
    {T T' : Accounts TokenAccount} (hT : TokensOk T)
    (h : handle_withdraw_deposit accounts r T = .ok (r', T')) :
    ∃ d, r.deposits.lookup accounts.deposit = some d
      ∧ ((∃ retain, r' = { r with
            deposits := r.deposits.insert accounts.deposit (drained d retain) }
          ∧ Paid T T' (deposit_vault_address accounts.deposit) d.remaining_deposits)
        ∨ (d.active_intents = 0 ∧ d.outstanding_intent_amount = 0 ∧ d.retain_on_empty = false
          ∧ r' = { r with deposits := r.deposits.erase accounts.deposit }
          ∧ VaultOnly T T' accounts.deposit)) := by
  simp only [handle_withdraw_deposit, bind_eq_ok, signer_eq_ok, load_eq_ok, require_eq_ok,
    mutable_once_eq_ok, exists_const] at h
  obtain ⟨hsign, d, hd, -, -, _, -, a, ha, _, -, -, T₁, hpay, h⟩ := h
  obtain ⟨ha, -, howner⟩ := token_account_ok ha
  -- whichever branch follows, the available principal has been paid exactly
  have hpaid : Paid T T₁ (deposit_vault_address accounts.deposit) d.remaining_deposits := by
    rcases transfer_from_deposit_if hpay with ⟨hzero, rfl⟩ | htransfer
    · rw [hzero]
      exact .refl _ _
    · exact paid_to_signer hT ha howner hsign htransfer
  refine ⟨d, hd, ?_⟩
  rw [ite_eq_ok] at h
  rcases h with ⟨⟨hactive, houtstanding, hretain⟩, h⟩ | ⟨-, h⟩
  · rw [bind_eq_ok] at h
    obtain ⟨vault, -, h⟩ := h
    rw [ite_eq_ok] at h
    rcases h with ⟨-, h⟩ | ⟨-, h⟩
    · -- the residual is more than dust: the deposit is retained
      simp only [pure_eq_ok, Prod.mk.injEq] at h
      obtain ⟨rfl, rfl⟩ := h
      exact .inl ⟨true, rfl, hpaid⟩
    · obtain ⟨rfl, hclosed⟩ := close_deposit_ok h
      refine .inr ⟨hactive, houtstanding, hretain, rfl, VaultOnly.trans ?_ hclosed⟩
      exact ⟨hpaid.tokensOk, hpaid.keeps⟩
  · simp only [pure_eq_ok, Prod.mk.injEq] at h
    obtain ⟨rfl, rfl⟩ := h
    exact .inl ⟨d.retain_on_empty, rfl, hpaid⟩

/-- Deposit custody keeps the stake vault's tokens. -/
theorem custody_tokens {ix : CustodyInstruction} {r r' : EscrowRecords}
    {T T' : Accounts TokenAccount} (hT : TokensOk T) (h : ix.execute r T = .ok (r', T')) :
    TokensOk T' ∧ Keeps T T' stake_token_vault := by
  have hne : ∀ k, stake_token_vault ≠ deposit_vault_address k := fun k => by simp
  cases ix with
  | create_deposit accounts args =>
    obtain ⟨-, -, -, -, -, -, -, -, -, -, -, -, hT', hkeeps⟩ := create_deposit_ok hT h
    exact ⟨hT', hkeeps _ rfl⟩
  | add_funds accounts amount =>
    obtain ⟨-, -, -, -, hT', hkeeps⟩ := add_funds_ok hT h
    exact ⟨hT', hkeeps _ rfl⟩
  | remove_funds accounts amount =>
    obtain ⟨-, -, -, -, hpaid⟩ := remove_funds_ok hT h
    exact ⟨hpaid.tokensOk hT, hpaid.keeps _ (hne _)⟩
  | withdraw_deposit accounts =>
    obtain ⟨_, -, ⟨_, -, hpaid⟩ | ⟨-, -, -, -, hclosed⟩⟩ := withdraw_deposit_ok hT h
    · exact ⟨hpaid.tokensOk hT, hpaid.keeps _ (hne _)⟩
    · exact ⟨hclosed.tokensOk hT, hclosed.keeps _ (hne _)⟩

/-- Stake custody keeps the tokens of every deposit vault. -/
theorem stake_tokens {ctx : TxContext} {ix : StakeInstruction} {r r' : StakeRecords}
    {T T' : Accounts TokenAccount} (hT : TokensOk T) (h : ix.execute ctx r T = .ok (r', T')) :
    TokensOk T' ∧ ∀ k, Keeps T T' (deposit_vault_address k) := by
  have hne : ∀ k, deposit_vault_address k ≠ stake_token_vault := fun k => by simp
  cases ix with
  | initialize_stake_token_vault accounts =>
    simp only [StakeInstruction.execute, handle_initialize_stake_token_vault, bind_eq_ok,
      signer_eq_ok, init_eq_ok, exists_const, pure_eq_ok, Prod.mk.injEq] at h
    obtain ⟨_, ⟨-, hfresh, rfl⟩, rfl, rfl⟩ := h
    exact ⟨hT.insert hfresh rfl rfl, fun k => Keeps.insert hfresh⟩
  | deposit_stake accounts amount =>
    simp only [StakeInstruction.execute, handle_deposit_stake, bind_eq_ok, signer_eq_ok,
      require_eq_ok, exists_const, pure_eq_ok, Prod.mk.injEq] at h
    obtain ⟨hsign, _, -, _, -, -, T₁, htransfer, _, -, _, -, rfl, rfl⟩ := h
    exact ⟨transfer_checked_tokensOk (transfer_in_ok htransfer).1 hT,
      fun k => transfer_in_keeps htransfer hT hsign rfl⟩
  | withdraw_stake accounts amount =>
    simp only [StakeInstruction.execute, handle_withdraw_stake, bind_eq_ok, pure_eq_ok,
      Prod.mk.injEq] at h
    obtain ⟨_, -, _, -, _, -, _, -, _, -, _, -, _, -, _, -, _, -, _, -, _, -, T₁, htransfer, rfl,
      rfl⟩ := h
    exact ⟨transfer_checked_tokensOk htransfer hT,
      fun k => transfer_checked_keeps htransfer (hne k)⟩
  | claim_stake accounts =>
    simp only [StakeInstruction.execute, handle_claim_stake, bind_eq_ok, pure_eq_ok,
      Prod.mk.injEq] at h
    obtain ⟨_, -, _, -, _, -, _, -, _, -, _, -, _, -, _, -, T₁, htransfer, rfl, rfl⟩ := h
    exact ⟨transfer_checked_tokensOk htransfer hT,
      fun k => transfer_checked_keeps htransfer (hne k)⟩
  | controller_fund_lock accounts args =>
    simp only [StakeInstruction.execute, handle_controller_fund_lock, bind_eq_ok, signer_eq_ok,
      init_eq_ok, require_eq_ok, exists_const, pure_eq_ok, Prod.mk.injEq] at h
    obtain ⟨hsign, -, -, _, -, _, -, -, -, -, T₁, htransfer, _, -, _, -, _, -, rfl, rfl⟩ := h
    exact ⟨transfer_checked_tokensOk (transfer_in_ok htransfer).1 hT,
      fun k => transfer_in_keeps htransfer hT hsign rfl⟩
  -- the remaining instructions return the token accounts they were given
  | initialize_claim_balance | controller_lock_stake | increase_stake_lock | resize_stake_lock
  | controller_unlock_stake | resolve_stake_lock =>
    simp only [StakeInstruction.execute, bind_eq_ok, pure_eq_ok, Prod.mk.injEq] at h
    obtain ⟨_, -, rfl, rfl⟩ := h
    exact ⟨hT, fun k => .refl _ _⟩

end Zkp2pSolana
