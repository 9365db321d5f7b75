/-
Principal leaves a deposit's vault only with authority.

Sixty instructions run against the vaults, and the accounts a settlement pays are
chosen by its caller. The vault of a deposit is debited by four of them: the
depositor removes available funds or withdraws, the depositor releases an intent,
and a payment attested by the witness threshold releases one. In each case the
accounts that gain tokens are read off the handler's checks: nobody who merely
manages, guards, delegates, curates, takes or stakes is among them on the
strength of that role.
-/
import Zkp2pSolana.Witnesses
import Zkp2pSolana.Custody
import Zkp2pSolana.Bindings

set_option autoImplicit false

namespace Zkp2pSolana

open Result Zkp2pError

/-! ## Credits -/

/-- Every account that gains tokens meets `P`, of its owner and what it gains. -/
def Credits (T T' : Accounts TokenAccount) (P : Pubkey → ℕ → Prop) : Prop :=
  ∀ k a, T'.lookup k = some a → balance T k < a.amount → P a.owner (a.amount - balance T k)

section Credits

variable {T T' : Accounts TokenAccount} {mint authority : Pubkey} {x : ℕ}

theorem balance_of {k : Pubkey} {a : TokenAccount} (h : T.lookup k = some a) :
    balance T k = a.amount := by
  rw [balance, h]
  rfl

/-- An account that keeps its owner does so in both ledgers. -/
theorem owner_of {k : Pubkey} {a a' : TokenAccount}
    (h : (T'.lookup k).map TokenAccount.owner = (T.lookup k).map TokenAccount.owner)
    (ha : T.lookup k = some a) (ha' : T'.lookup k = some a') : a'.owner = a.owner := by
  rw [ha, ha'] at h
  exact Option.some.inj h

/-- A transfer credits its destination, by at most the amount. -/
theorem transfer_checked_credit {src dst : Pubkey}
    (h : transfer_checked T src dst mint authority x = .ok T') (k : Pubkey) :
    balance T' k ≤ balance T k ∨ (k = dst ∧ balance T' k ≤ balance T k + x) := by
  by_cases hk : k = dst
  · right
    refine ⟨hk, ?_⟩
    obtain ⟨a, b, -, hb, -, -, -, -, ⟨-, rfl⟩ | ⟨-, -, rfl⟩⟩ := transfer_checked_ok h
    · omega
    · rw [hk, balance_of hb, balance_of (Finmap.lookup_insert _)]
  · exact .inl (transfer_checked_credited h hk)

/-- Payments credit their destinations. -/
theorem pay_all_credits {vault : Pubkey} {ps : List Payment} {P : Pubkey → Prop}
    (h : pay_all vault mint authority ps T = .ok T')
    (hps : ∀ p ∈ ps, ∃ a, T.lookup p.destination = some a ∧ P a.owner) :
    Credits T T' fun owner _ => P owner := by
  intro k a' ha' hcredit
  rw [← balance_of ha'] at hcredit
  -- an account that gained something is the destination of some payment
  have hmem : ∃ p ∈ ps, p.destination = k := by
    by_contra hnone
    push Not at hnone
    exact absurd (pay_all_credited h hnone) (by omega)
  obtain ⟨p, hp, rfl⟩ := hmem
  obtain ⟨a, ha, howner⟩ := hps p hp
  rw [owner_of ((pay_all_accounts h).owners _) ha ha']
  exact howner

end Credits

/-! ## Withdrawals by the depositor -/

section Withdrawals

variable {r r' : EscrowRecords} {T T' : Accounts TokenAccount}

/-- Removed funds reach accounts of the depositor, who signed for it. -/
theorem remove_funds_credits {accounts : RemoveFunds} {amount : ℕ}
    (h : handle_remove_funds accounts amount r T = .ok (r', T')) :
    accounts.depositor.can_sign = true
      ∧ (∀ d, r.deposits.lookup accounts.deposit = some d → accounts.depositor = d.depositor)
      ∧ Credits T T' fun owner _ => owner = accounts.depositor := by
  simp only [handle_remove_funds, bind_eq_ok, signer_eq_ok, load_eq_ok, require_eq_ok, exists_const,
    pure_eq_ok, Prod.mk.injEq] at h
  obtain ⟨hsign, d, hd, hdepositor, -, -, _, -, a, ha, -, -, _, -, T₁, htransfer, -, rfl⟩ := h
  obtain ⟨ha, -, howner⟩ := token_account_ok ha
  obtain ⟨-, htransfer⟩ := transfer_from_deposit_ok htransfer
  refine ⟨hsign, fun d' hd' => ?_, fun k a' ha' hcredit => ?_⟩
  · rw [hd] at hd'
    cases hd'
    exact hdepositor
  · rw [← balance_of ha'] at hcredit
    rcases transfer_checked_credit htransfer k with hle | ⟨rfl, -⟩
    · omega
    · rw [owner_of ((transfer_checked_accounts htransfer).owners _) ha ha', howner]

/-- A dust account that passes belongs to the configured recipient. -/
theorem check_dust_recipient_ok {mint recipient dust : Pubkey}
    (h : check_dust_recipient T mint recipient (some dust) = .ok ()) :
    ∃ a, T.lookup dust = some a ∧ a.owner = recipient := by
  simp only [check_dust_recipient, bind_eq_ok] at h
  obtain ⟨a, ha, -⟩ := h
  obtain ⟨ha, -, howner⟩ := token_account_ok ha
  exact ⟨a, ha, howner⟩

/-- The terminal sweep credits the dust recipient's account, by the residual. -/
theorem close_deposit_credit {accounts : WithdrawDeposit} {d : Deposit} {residual : ℕ}
    (h : close_deposit accounts d residual r T = .ok (r', T')) {k : Pubkey} {a' : TokenAccount}
    (ha' : T'.lookup k = some a') :
    (T'.lookup k).map TokenAccount.owner = (T.lookup k).map TokenAccount.owner
      ∧ (a'.amount ≤ balance T k
        ∨ (accounts.dust_recipient_token = some k ∧ a'.amount ≤ balance T k + residual)) := by
  simp only [close_deposit, bind_eq_ok, require_eq_ok, exists_const, pure_eq_ok, Prod.mk.injEq] at h
  obtain ⟨T₁, hsweep, -, T₂, hclose, -, rfl⟩ := h
  rw [close_account_ok hclose, Finmap.lookup_erase_ite] at ha'
  split_ifs at ha' with hk
  have hsame : T₂.lookup k = T₁.lookup k := by
    rw [close_account_ok hclose, Finmap.lookup_erase_ne hk]
  rw [hsame, ← balance_of ha']
  rw [ite_eq_ok] at hsweep
  -- a residue above zero is swept to the dust account before the vault is closed
  rcases hsweep with ⟨-, hsweep⟩ | ⟨-, hsweep⟩
  · simp only [bind_eq_ok, ok_or_eq_ok] at hsweep
    obtain ⟨dust, hdust, hsweep⟩ := hsweep
    obtain ⟨-, htransfer⟩ := transfer_from_deposit_ok hsweep
    refine ⟨(transfer_checked_accounts htransfer).owners k, ?_⟩
    rcases transfer_checked_credit htransfer k with hle | ⟨rfl, hle⟩
    · exact .inl hle
    · exact .inr ⟨hdust, hle⟩
  · rw [ok_eq_ok] at hsweep
    subst hsweep
    exact ⟨rfl, .inl le_rfl⟩

/-- A withdrawal pays its depositor. The dust recipient gets at most the threshold, and only when no
intent is left. -/
theorem withdraw_deposit_credits {accounts : WithdrawDeposit}
    (h : handle_withdraw_deposit accounts r T = .ok (r', T')) {d : Deposit}
    (hd : r.deposits.lookup accounts.deposit = some d) :
    accounts.depositor.can_sign = true ∧ accounts.depositor = d.depositor
      ∧ Credits T T' fun owner x => owner = d.depositor
        ∨ (owner = r.escrow_config.dust_recipient ∧ x ≤ r.escrow_config.dust_threshold
          ∧ d.active_intents = 0) := by
  simp only [handle_withdraw_deposit, bind_eq_ok, signer_eq_ok, load_eq_ok, require_eq_ok,
    mutable_once_eq_ok, exists_const] at h
  obtain ⟨hsign, d', hd', hdepositor, -, _, -, a, ha, _, hdust, -, T₁, hpay, h⟩ := h
  rw [hd] at hd'
  cases hd'
  obtain ⟨ha, -, howner⟩ := token_account_ok ha
  refine ⟨hsign, hdepositor, ?_⟩
  -- the depositor is paid first; the owner of every account stays what it was
  have hfirst : ∀ k, (T₁.lookup k).map TokenAccount.owner = (T.lookup k).map TokenAccount.owner
      ∧ (k ≠ accounts.depositor_token → balance T₁ k ≤ balance T k) := by
    intro k
    rcases transfer_from_deposit_if hpay with ⟨-, rfl⟩ | htransfer
    · exact ⟨rfl, fun _ => le_rfl⟩
    · exact ⟨(transfer_checked_accounts htransfer).owners k, transfer_checked_credited htransfer⟩
  have hown : ∀ k a', T₁.lookup k = some a' → balance T k < a'.amount → a'.owner = d.depositor := by
    intro k a' ha' hcredit
    by_cases hk : k = accounts.depositor_token
    · subst hk
      rw [owner_of (hfirst _).1 ha ha', howner, hdepositor]
    · have hle := (hfirst k).2 hk
      rw [balance_of ha'] at hle
      omega
  intro k a' ha' hcredit
  rw [ite_eq_ok] at h
  rcases h with ⟨⟨hactive, -, -⟩, h⟩ | ⟨-, h⟩
  · simp only [bind_eq_ok, load_eq_ok] at h
    obtain ⟨vault, -, h⟩ := h
    rw [ite_eq_ok] at h
    rcases h with ⟨-, h⟩ | ⟨hsmall, h⟩
    · simp only [pure_eq_ok, Prod.mk.injEq] at h
      obtain ⟨-, rfl⟩ := h
      exact .inl (hown k a' ha' hcredit)
    · -- the vault is swept and closed: what is left is dust
      obtain ⟨howners, hsweep⟩ := close_deposit_credit h ha'
      have howners := howners.trans (hfirst k).1
      by_cases hk : k = accounts.depositor_token
      · subst hk
        rw [owner_of howners ha ha', howner]
        exact .inl hdepositor
      · have hle := (hfirst k).2 hk
        rcases hsweep with hless | ⟨htoken, hless⟩
        · omega
        · rw [htoken] at hdust
          obtain ⟨b, hb, hrecipient⟩ := check_dust_recipient_ok hdust
          rw [owner_of howners hb ha']
          exact .inr ⟨hrecipient, by omega, hactive⟩
  · simp only [pure_eq_ok, Prod.mk.injEq] at h
    obtain ⟨-, rfl⟩ := h
    exact .inl (hown k a' ha' hcredit)

end Withdrawals

/-! ## Settlements -/

section Settlements

variable {rt : Runtime} {ctx : TxContext} {s s' : State}

/-- Every payment of a plan goes to an account of a payee. -/
theorem payments_payee {i : Intent} {o : OrchestratorConfig} {deposit_key : Pubkey} {d : Deposit}
    {t : SettlementTokens} {remaining_accounts : List AccountInfo} {x : ℕ}
    {T T' : Accounts TokenAccount} (hfresh : t.Fresh T)
    (h : distribute_funds i o deposit_key d t remaining_accounts x T = .ok T') :
    Credits T T' fun owner _ => Payee i o owner := by
  obtain ⟨plan, -, hpaid, hlength, -, hrecipient, hprotocol, hmanager, hreferrals⟩ :=
    distribute_funds_ok h
  refine pay_all_credits hpaid fun p hp => ?_
  simp only [SettlementTokens.payments, FeePlan.payments, nonzero, List.mem_append,
    List.mem_filter] at hp
  rcases hp with ((⟨hp, -⟩ | ⟨hp, -⟩) | ⟨hp, -⟩) | hp
  · rw [List.mem_singleton] at hp
    exact ⟨_, hp ▸ hfresh.protocol, .inr (.inl hprotocol)⟩
  · simp only [List.mem_map, Option.mem_toList, Option.map_eq_some_iff] at hp
    obtain ⟨_, ⟨a, ha, rfl⟩, rfl⟩ := hp
    exact ⟨a.data, hfresh.manager a ha, .inr (.inr (.inl (hmanager a ha)))⟩
  · -- a referral goes to one of the remaining accounts, and each of those has its fee
    rw [← List.map_uncurry_zip_eq_zipWith] at hp
    obtain ⟨⟨k, x⟩, hzip, rfl⟩ := List.mem_map.mp hp
    obtain ⟨account, haccount, rfl⟩ := List.mem_map.mp (List.of_mem_zip hzip).1
    rw [← List.map_snd_zip hlength.le] at haccount
    obtain ⟨⟨fee, account⟩, hentry, rfl⟩ := List.mem_map.mp haccount
    obtain ⟨a, ha, howner⟩ := Option.map_eq_some_iff.mp (hreferrals _ hentry)
    exact ⟨a, ha, .inr (.inr (.inr ⟨fee, (List.of_mem_zip hentry).1, howner.symm⟩))⟩
  · rw [List.mem_singleton] at hp
    exact ⟨_, hp ▸ hfresh.recipient, .inl hrecipient⟩

/-- What a settlement of the live intent takes out of the vault, and where it goes. -/
structure SettledOut (s s' : State) (i : Intent) (released : ℕ) : Prop where
  /-- At most the released amount leaves, which is at most what is locked for the intent. -/
  bounded : ∃ l, s.intent_locks.lookup (intent_lock_address i.deposit i.intent_hash) = some l
    ∧ released ≤ l.amount ∧ balance s.tokens (deposit_vault_address i.deposit)
      ≤ balance s'.tokens (deposit_vault_address i.deposit) + released
  /-- Only accounts of the snapshotted and the protocol's recipients gain. -/
  credits : Credits s.tokens s'.tokens fun owner _ => Payee i s.orchestrator owner
  /-- No other account loses. -/
  keeps : ∀ k, k ≠ deposit_vault_address i.deposit → Keeps s.tokens s'.tokens k

/-- A settlement takes at most the locked amount out of one vault and pays snapshotted payees. -/
theorem settle_intent_out {k : Pubkey} {live : LiveIntent} {tokens : SettlementTokenAccounts}
    {dispute : SettlementDisputeAccounts} {remaining_accounts : List AccountInfo} {released : ℕ}
    (hlive : live_intent k s = .ok live)
    (h : settle_intent ctx k live tokens dispute remaining_accounts released s = .ok s') :
    SettledOut s s' live.intent released := by
  -- who is paid: the payees are fixed by the handles, which were checked against the snapshot
  have hcredits : Credits s.tokens s'.tokens
      fun owner _ => Payee live.intent s.orchestrator owner := by
    simp only [settle_intent, bind_eq_ok, close_intent_ok] at h
    obtain ⟨t, ht, s₁, hs₁, deposit, -, T, hT, -, rfl⟩ := h
    have htokens : s₁.tokens = s.tokens := by rw [settle_dispute_rest hs₁]
    have horchestrator : s₁.orchestrator = s.orchestrator :=
      by rw [settle_dispute_rest hs₁]
    rw [htokens, horchestrator] at hT
    exact payments_payee (SettlementTokenAccounts.load_fresh ht) hT
  obtain ⟨s₁, deposit, T, -, hsettle, hpaid, rfl⟩ := settle_intent_ok h
  obtain ⟨-, -, -, hl, -⟩ := live_intent_ok hlive
  obtain ⟨-, hle, -⟩ := Deposit.settle_ok hsettle
  refine ⟨⟨live.lock, hl, hle, ?_⟩, hcredits, hpaid.keeps⟩
  unfold balance
  -- how much leaves: the vault's own account says it
  cases ha : s.tokens.lookup (deposit_vault_address live.intent.deposit) with
  | none => exact Nat.zero_le _
  | some a =>
    obtain ⟨a', ha', -, -, hx⟩ := hpaid.source a ha
    show a.amount ≤ (T.lookup (deposit_vault_address live.intent.deposit)).elim 0 _ + released
    rw [ha']
    exact hx.ge

/-- At least the required number of distinct configured witnesses signed the digest of the intent
and the attested amount. -/
def Witnessed (rt : Runtime) (verifier : VerifierConfig) (hash : Bytes 32)
    (attestation : PaymentAttestation) : Prop :=
  ∃ ws : List (Bytes 20), ws.Nodup ∧ verifier.required_signatures ≤ ws.length
    ∧ ∀ w ∈ ws, w ∈ verifier.witnesses ∧ ∃ signature ∈ attestation.signatures,
      recover_witness rt (payment_attestation_digest rt verifier_address verifier.domain_chain_id
        hash attestation.release_amount attestation.data_hash) signature = .ok w

/-- A verified attestation was signed by the threshold of witnesses, over the digest of its own
contents. -/
theorem verify_payment_attestation_witnessed {verifier : VerifierConfig} {i : Intent}
    {attestation : PaymentAttestation} {nullifier : Bytes 32}
    (h : verify_payment_attestation rt verifier_address verifier i attestation = .ok nullifier) :
    Witnessed rt verifier i.intent_hash attestation := by
  simp only [verify_payment_attestation, bind_eq_ok, require_eq_ok, exists_const] at h
  obtain ⟨hhash, -, -, -, -, -, -, -, _, -, -, _, hthreshold, -⟩ := h
  rw [hhash] at hthreshold
  obtain ⟨ws, hnodup, hcount, hsigned⟩ := (verify_witness_threshold_ok.mp hthreshold).signers
  refine ⟨ws, hnodup, hcount, fun w hw => ?_⟩
  obtain ⟨hknown, signature, hsignature, hby⟩ := hsigned w hw
  exact ⟨hknown, signature, hsignature, recover_witness_ok.mpr hby⟩

end Settlements

/-! ## Every run -/

/-- The ways tokens leave the vault of the deposit `d` at `k`. -/
inductive Outflow (rt : Runtime) (e : Event) (k : Pubkey) (d : Deposit) : Prop
  | remove_funds (accounts : RemoveFunds) (amount : ℕ)
      (ix : e.ix = .program (.custody (.remove_funds accounts amount)))
      (deposit : accounts.deposit = k) (depositor : accounts.depositor = d.depositor)
      (signed : d.depositor.can_sign = true)
      (credits : Credits e.pre.tokens e.post.tokens fun owner _ => owner = d.depositor)
  /-- The residual that a closing withdrawal sweeps is dust, and no lock is live. -/
  | withdraw_deposit (accounts : WithdrawDeposit)
      (ix : e.ix = .program (.custody (.withdraw_deposit accounts)))
      (deposit : accounts.deposit = k) (depositor : accounts.depositor = d.depositor)
      (signed : d.depositor.can_sign = true)
      (credits : Credits e.pre.tokens e.post.tokens fun owner x => owner = d.depositor
        ∨ (owner = e.pre.escrow_config.dust_recipient
          ∧ x ≤ e.pre.escrow_config.dust_threshold
          ∧ ∀ kl l, e.pre.intent_locks.lookup kl = some l → l.deposit ≠ k))
  | manual_release (accounts : ManualRelease) (i : Intent)
      (ix : e.ix = .program (.manual_release accounts))
      (intent : e.pre.intents.lookup accounts.intent = some i) (deposit : i.deposit = k)
      (depositor : accounts.depositor = d.depositor) (signed : d.depositor.can_sign = true)
      (paid : SettledOut e.pre e.post i i.amount)
  | fulfill_intent (accounts : FulfillIntent) (args : FulfillIntentArgs) (i : Intent)
      (ix : e.ix = .program (.fulfill_intent accounts args))
      (intent : e.pre.intents.lookup accounts.intent = some i) (deposit : i.deposit = k)
      (threshold : 0 < e.pre.verifier.required_signatures)
      (witnessed : Witnessed rt e.pre.verifier i.intent_hash args.attestation)
      (paid : SettledOut e.pre e.post i (Min.min args.attestation.release_amount i.amount))

/-- Deposit custody debits the vault of a deposit for its depositor only. -/
theorem custody_outflow {rt : Runtime} {e : Event} {ix : CustodyInstruction}
    (hix : e.ix = .program (.custody ix)) (hv : e.Valid (step rt)) (hledger : LedgerOk e.pre)
    (hcustody : CustodyInv rt e.pre) {k : Pubkey} {d : Deposit}
    (hd : e.pre.deposits.lookup k = some d) :
    Keeps e.pre.tokens e.post.tokens (deposit_vault_address k) ∨ Outflow rt e k d := by
  have hexec := valid_execute hv hix
  simp only [TopLevel.execute, Instruction.execute, bind_eq_ok, pure_eq_ok, Prod.exists] at hexec
  obtain ⟨r', T', hok, hpost⟩ := hexec
  have htokens : e.post.tokens = T' := (congrArg State.tokens hpost).symm
  rw [htokens]
  cases ix with
  | create_deposit accounts args =>
    obtain ⟨-, -, -, -, -, -, -, -, -, -, -, -, -, hkeeps⟩ := create_deposit_ok hledger.tokens hok
    exact .inl (hkeeps _ rfl)
  | add_funds accounts amount =>
    obtain ⟨-, -, -, -, -, hkeeps⟩ := add_funds_ok hledger.tokens hok
    exact .inl (hkeeps _ rfl)
  | remove_funds accounts amount =>
    by_cases hk : accounts.deposit = k
    · obtain ⟨hsign, hdepositor, hcredits⟩ := remove_funds_credits hok
      have howner : accounts.depositor = d.depositor := hdepositor d (hk ▸ hd)
      rw [howner] at hsign hcredits
      exact .inr (.remove_funds accounts amount hix hk howner hsign (htokens ▸ hcredits))
    · obtain ⟨-, -, -, -, hpaid⟩ := remove_funds_ok hledger.tokens hok
      exact .inl (hpaid.keeps _ (Pubkey.pda_key_ne (Ne.symm hk)))
  | withdraw_deposit accounts =>
    by_cases hk : accounts.deposit = k
    · obtain ⟨hsign, hdepositor, hcredits⟩ := withdraw_deposit_credits hok (hk ▸ hd)
      rw [hdepositor] at hsign
      refine .inr (.withdraw_deposit accounts hix hk hdepositor hsign (htokens ▸ ?_))
      intro key a ha hcredit
      rcases hcredits key a ha hcredit with howner | ⟨howner, hdust, hactive⟩
      · exact .inl howner
      · -- a deposit without active intents has no live lock
        refine .inr ⟨howner, hdust, fun kl l hl heq => ?_⟩
        have hcount : 1 ≤ e.pre.lock_count l.deposit :=
          Finmap.le_owed EscrowIntentLock.deposit (fun _ => 1) hl
        rw [heq, ← (hcustody.deposits k d hd).active, hactive] at hcount
        exact absurd hcount (by decide)
    · obtain ⟨_, -, ⟨_, -, hpaid⟩ | ⟨-, -, -, -, hclosed⟩⟩ :=
        withdraw_deposit_ok hledger.tokens hok
      · exact .inl (hpaid.keeps _ (Pubkey.pda_key_ne (Ne.symm hk)))
      · exact .inl (hclosed.keeps _ (Pubkey.pda_key_ne (Ne.symm hk)))

/-- A vault keeps what it has, or it is debited in one of the four ways. -/
theorem vault_outflow {rt : Runtime} {e : Event} (hv : e.Valid (step rt)) (hledger : LedgerOk e.pre)
    (hcustody : CustodyInv rt e.pre) (hthreshold : 0 < e.pre.verifier.required_signatures)
    {k : Pubkey} {d : Deposit} (hd : e.pre.deposits.lookup k = some d) :
    Keeps e.pre.tokens e.post.tokens (deposit_vault_address k) ∨ Outflow rt e k d := by
  -- an instruction that leaves the token accounts alone
  have hsame : e.post.tokens = e.pre.tokens →
      Keeps e.pre.tokens e.post.tokens (deposit_vault_address k) ∨ Outflow rt e k d := by
    intro heq
    rw [heq]
    exact .inl (.refl _ _)
  cases hix : e.ix with
  | ed25519 data =>
    have hexec := valid_execute hv hix
    simp only [TopLevel.execute, bind_eq_ok, require_eq_ok, exists_const, pure_eq_ok] at hexec
    exact hsame (congrArg State.tokens hexec.2).symm
  | external tokens =>
    have hexec := valid_execute hv hix
    simp only [TopLevel.execute, bind_eq_ok, require_eq_ok, exists_const, pure_eq_ok] at hexec
    rw [← hexec.2]
    exact .inl (external_ok_keeps hexec.1 rfl)
  | program ix =>
    have hexec := valid_execute hv hix
    cases ix with
    | custody ix => exact custody_outflow hix hv hledger hcustody hd
    | open_records ix | rate_managers ix | whitelists ix | verifier ix | dispute_policy ix
    | deposit_config ix =>
      simp only [TopLevel.execute, Instruction.execute, bind_eq_ok, pure_eq_ok] at hexec
      obtain ⟨_, -, hpost⟩ := hexec
      exact hsame (congrArg State.tokens hpost).symm
    | governance ix => exact hsame (governance_ok hexec).1.tokens
    | stake ix =>
      simp only [TopLevel.execute, Instruction.execute, bind_eq_ok, pure_eq_ok,
        Prod.exists] at hexec
      obtain ⟨_, _, hok, hpost⟩ := hexec
      rw [← hpost]
      exact .inl ((stake_tokens hledger.tokens hok).2 k)
    | signal_intent accounts args =>
      obtain ⟨_, _, _, _, _, _, hsignaled⟩ := signal_intent_ok hexec
      exact hsame (by rw [hsignaled.post])
    | cancel_intent accounts =>
      obtain ⟨_, _, _, -, -, -, -, -, -, hpost⟩ := cancel_intent_ok hexec
      exact hsame (by rw [hpost]; rfl)
    | prune_expired_intent accounts =>
      obtain ⟨_, _, _, -, -, hprune, -, hpost⟩ := prune_expired_intent_ok hexec
      apply hsame
      rw [hpost]
      rcases prune_dispute_ok hprune with ⟨-, rfl⟩ | ⟨-, _, _, _, _, hcancelled⟩
      · rfl
      · have hcoverage := hcancelled.post
        subst hcoverage
        rfl
    | prepare_dispute accounts args =>
      obtain ⟨_, _, _, _, _, _, hprepared, -⟩ := prepare_dispute_ok hexec
      exact hsame (by rw [hprepared.post])
    | cancel_dispute accounts =>
      obtain ⟨_, _, _, _, _, _, -, -, hcancelled, -⟩ := cancel_dispute_ok hledger.coverage hexec
      exact hsame (by rw [hcancelled.post])
    | release_matured_dispute accounts =>
      obtain ⟨_, _, _, _, -, -, -, -, -, -, -, -, hpost⟩ := release_matured_dispute_ok hexec
      exact hsame (by rw [hpost])
    | submit_dispute accounts args =>
      obtain ⟨_, _, _, _, _, _, hdisputed, -⟩ := submit_dispute_ok hexec
      exact hsame (by rw [hdisputed.post])
    | manual_release accounts =>
      obtain ⟨live, hlive, hsign, howner, hsettle⟩ := manual_release_ok hexec
      obtain ⟨hi, -, hdeposit, -⟩ := live_intent_ok hlive
      have hout := settle_intent_out hlive hsettle
      by_cases hk : live.intent.deposit = k
      · rw [hk, hd] at hdeposit
        cases hdeposit
        rw [howner] at hsign
        exact .inr (.manual_release accounts live.intent hix hi hk howner hsign hout)
      · exact .inl (hout.keeps _ (Pubkey.pda_key_ne (Ne.symm hk)))
    | fulfill_intent accounts args =>
      obtain ⟨live, s₁, hlive, -, -, -, hverify, hsettle, hpost⟩ := fulfill_intent_ok hexec
      obtain ⟨hi, -⟩ := live_intent_ok hlive
      -- the bindings written after the settlement touch no token account
      have htokens : e.post.tokens = s₁.tokens := by rw [hpost]
      have hout : SettledOut e.pre e.post live.intent
          (Min.min args.attestation.release_amount live.intent.amount) := by
        obtain ⟨hbounded, hcredits, hkeeps⟩ := settle_intent_out hlive hsettle
        rw [← htokens] at hbounded hcredits hkeeps
        exact ⟨hbounded, hcredits, hkeeps⟩
      by_cases hk : live.intent.deposit = k
      · exact .inr (.fulfill_intent accounts args live.intent hix hi hk hthreshold
          (verify_payment_attestation_witnessed hverify) hout)
      · exact .inl (hout.keeps _ (Pubkey.pda_key_ne (Ne.symm hk)))

/-- In every run, an instruction after which the vault of a live deposit holds less is one of the
four: the depositor signed it, or the witness threshold attested the payment, and the tokens went
where each of them says. The same for any instruction that may come next. -/
theorem outflow_authorised {rt : Runtime} {es : List Event} {s : State} (h : Run rt es s)
    (e : Event) (he : e ∈ es ∨ (e.pre = s ∧ e.Valid (step rt))) {k : Pubkey} {d : Deposit}
    (hd : e.pre.deposits.lookup k = some d)
    (hless : balance e.post.tokens (deposit_vault_address k)
      < balance e.pre.tokens (deposit_vault_address k)) :
    Outflow rt e k d := by
  obtain ⟨⟨hledger, hcustody, -⟩, hes⟩ := Run.own_locks h
  obtain ⟨hthreshold, hthresholds⟩ := Run.witnesses h
  have hcases : Keeps e.pre.tokens e.post.tokens (deposit_vault_address k) ∨ Outflow rt e k d := by
    rcases he with he | ⟨rfl, hv⟩
    · obtain ⟨⟨hpre, hcpre, -⟩, -⟩ := hes e he
      exact vault_outflow (h.valid e he) hpre hcpre (hthresholds e he).1.positive hd
    · exact vault_outflow hv hledger hcustody hthreshold.positive hd
  rcases hcases with hkeeps | hout
  · exact absurd hkeeps.balance_le (by omega)
  · exact hout

/-- The covered intent of the sample cluster is released by a witnessed payment, out of the vault. -/
theorem outflow_authorised_fulfilled :
    ∃ es s e d, Run sample_runtime es s ∧ e ∈ es
      ∧ e.pre.deposits.lookup sample_deposit = some d
      ∧ balance e.post.tokens (deposit_vault_address sample_deposit)
        < balance e.pre.tokens (deposit_vault_address sample_deposit)
      ∧ Outflow sample_runtime e sample_deposit d := by
  obtain ⟨es, s, hrun, hgood⟩ := sample_reaches [sample_setup, sample_cover, sample_fulfill]
    (fun es _ => es.any fun e => (e.pre.deposits.lookup sample_deposit).isSome
      && decide (balance e.post.tokens (deposit_vault_address sample_deposit)
        < balance e.pre.tokens (deposit_vault_address sample_deposit))) (by decide +kernel)
  simp only [List.any_eq_true, Bool.and_eq_true, decide_eq_true_eq] at hgood
  obtain ⟨e, he, hfound, hless⟩ := hgood
  obtain ⟨d, hd⟩ := Option.isSome_iff_exists.mp hfound
  exact ⟨es, s, e, d, hrun, he, hd, hless, outflow_authorised hrun e (.inl he) hd hless⟩

end Zkp2pSolana
