/-
The nine lifecycle instructions, read backwards.

For each of `signal_intent`, `cancel_intent`, `prune_expired_intent`,
`prepare_dispute`, `cancel_dispute`, `release_matured_dispute`, `submit_dispute`,
`fulfill_intent` and `manual_release`, one lemma says what held when it returned
`ok` and what the state became. The governance instructions, which write the
configuration of several components, get one frame. The custody, stake and
coverage arguments start from these and never open a handler again.
-/
import Zkp2pSolana.Payout

set_option autoImplicit false

namespace Zkp2pSolana

open Result Zkp2pError

/-! ## Addresses of the lifecycle records -/

/-- The position of an owner. -/
abbrev position_of (o : Pubkey) : Pubkey := stake_position_address stake_vault_address o

/-- The collateral lock under an identifier. -/
abbrev lock_of (id : Bytes 32) : Pubkey := stake_lock_address stake_vault_address id

/-- The coverage record of an intent hash. -/
abbrev coverage_of (hash : Bytes 32) : Pubkey := dispute_intent_address dispute_config_address hash

/-- Coverage records sit at the address of the hash they name. -/
def CoverageCanonical (r : DisputeRecords) : Prop :=
  ∀ k d, r.dispute_intents.lookup k = some d →
    k = coverage_of d.intent_hash ∧ d.dispute_config = dispute_config_address

/-! ## Signaling -/

/-- The evidence of an admission is what the ledger holds at the supplied keys. -/
structure AdmissionOf (accounts : SignalIntent) (args : SignalIntentArgs) (hash : Bytes 32)
    (s : State) (a : LifecycleAdmission) : Prop where
  policy : a.policy = s.orchestrator.lifecycle_policy
  deposit : a.deposit = accounts.deposit
  intent_hash : a.intent_hash = hash
  taker : a.taker = accounts.taker
  payment_method : a.payment_method = args.payment_method
  amount : a.amount = args.amount
  whitelist : load_opt s.deposit_whitelists accounts.deposit_whitelist = .ok a.whitelist
  direct_member : load_opt s.whitelist_members accounts.direct_whitelist_member
    = .ok a.direct_member
  allowed_group : load_opt s.address_groups accounts.allowed_group = .ok a.allowed_group
  group_member : load_opt s.group_members accounts.group_member = .ok a.group_member
  dispute_intent : load_opt s.dispute_intents accounts.dispute_intent = .ok a.dispute_intent
  deposit_dispute_setting : load_opt s.dispute_settings accounts.deposit_dispute_setting
    = .ok a.deposit_dispute_setting
  risk_window : load_opt s.risk_windows accounts.risk_window = .ok a.risk_window

/-- The evidence admission decides from is what the optional accounts hold, each read at the address
it was supplied at. -/
theorem load_admission_ok {accounts : SignalIntent} {args : SignalIntentArgs} {hash : Bytes 32}
    {s : State} {a : LifecycleAdmission} (h : load_admission accounts args hash s = .ok a) :
    AdmissionOf accounts args hash s a := by
  simp only [load_admission, bind_eq_ok, pure_eq_ok] at h
  obtain ⟨_, hwhitelist, _, hmember, _, hgroup, _, hgroup_member, _, hdispute, _, hsetting, _, hrisk,
    rfl⟩ := h
  exact ⟨rfl, rfl, rfl, rfl, rfl, rfl, hwhitelist, hmember, hgroup, hgroup_member, hdispute,
    hsetting, hrisk⟩

/-- The lock `signal_intent` writes. -/
def new_intent_lock (i : Intent) (expiry : ℤ) : EscrowIntentLock where
  deposit := i.deposit
  intent_hash := i.intent_hash
  orchestrator := orchestrator_address
  amount := i.amount
  timestamp := i.timestamp
  expiry_time := expiry

/-- What a successful `signal_intent` went through: the deposit before and after, the evidence
admission was decided from, and the intent written. -/
structure Signaled (rt : Runtime) (ctx : TxContext) (accounts : SignalIntent)
    (args : SignalIntentArgs) (s s' : State) (d d' : Deposit) (a : LifecycleAdmission) (i : Intent)
    (expiry : ℤ) (state : TakerIntentState) : Prop where
  signs : accounts.taker.can_sign = true
  deposit : s.deposits.lookup accounts.deposit = some d
  intent_fresh : s.intents.lookup (intent_address orchestrator_address i.nonce) = none
  lock_fresh : s.intent_locks.lookup (intent_lock_address i.deposit i.intent_hash) = none
  hash : derive_intent_hash rt orchestrator_address s.orchestrator.next_intent_id
    = args.expected_intent_hash
  admission : AdmissionOf accounts args args.expected_intent_hash s a
  admitted : validate_lifecycle_admission rt ctx a = .ok ()
  locked : d.lock args.amount s.escrow_config.max_intents_per_deposit = .ok d'
  word : s.orchestrator.next_intent_id + 1 < 2 ^ 64
  intent : ∃ method terms, i = new_intent accounts args a method terms
    s.orchestrator.next_intent_id ctx.now
  expiry_eq : ctx.now + s.escrow_config.intent_expiration_period = expiry
  raised : raised_taker_state
    (init_if_needed s.taker_states (taker_state_address orchestrator_address accounts.taker))
    accounts.taker = .ok state
  post : s' = { s with
    deposits := s.deposits.insert accounts.deposit d'
    intent_locks := s.intent_locks.insert
      (intent_lock_address accounts.deposit args.expected_intent_hash) (new_intent_lock i expiry)
    orchestrator := { s.orchestrator with
      next_intent_id := s.orchestrator.next_intent_id + 1 }
    intents := s.intents.insert
      (intent_address orchestrator_address s.orchestrator.next_intent_id) i
    taker_states := s.taker_states.insert
      (taker_state_address orchestrator_address accounts.taker) state }

/-- The intent carries the terms of the call. -/
structure SignaledTerms (accounts : SignalIntent) (args : SignalIntentArgs) (s : State) (i : Intent) :
    Prop where
  owner : i.owner = accounts.taker
  deposit : i.deposit = accounts.deposit
  intent_hash : i.intent_hash = args.expected_intent_hash
  nonce : i.nonce = s.orchestrator.next_intent_id
  orchestrator : i.orchestrator = orchestrator_address
  payment_method : i.payment_method = args.payment_method
  amount : i.amount = args.amount

/-- The part of `Signaled` that says which terms the new intent carries. -/
theorem Signaled.terms {rt : Runtime} {ctx : TxContext} {accounts : SignalIntent}
    {args : SignalIntentArgs} {s s' : State} {d d' : Deposit} {a : LifecycleAdmission} {i : Intent}
    {expiry : ℤ} {state : TakerIntentState}
    (h : Signaled rt ctx accounts args s s' d d' a i expiry state) :
    SignaledTerms accounts args s i := by
  obtain ⟨method, terms, rfl⟩ := h.intent
  exact ⟨rfl, rfl, h.admission.intent_hash, rfl, rfl, rfl, rfl⟩

/-- `signal_intent` read backwards: what held before, and the whole state after. -/
theorem signal_intent_ok {rt : Runtime} {ctx : TxContext} {ed25519 : List (List UInt8)}
    {accounts : SignalIntent} {args : SignalIntentArgs} {s s' : State}
    (h : handle_signal_intent rt ctx ed25519 accounts args s = .ok s') :
    ∃ d d' a i expiry state, Signaled rt ctx accounts args s s' d d' a i expiry state := by
  simp only [handle_signal_intent, bind_eq_ok, signer_eq_ok, load_eq_ok, init_eq_ok, require_eq_ok,
    exists_const, Prod.exists, ok_or_eq_ok, Checked.add_eq_some, Checked.add_i64_eq_some,
    pure_eq_ok] at h
  obtain ⟨hsign, -, d, hd, -, hintent, hlock, -, -, -, method, currency, -, _, -, _, -, -, hhash,
    terms₁, terms₂, -, a, ha, _, hvalid, d', hdlock, expiry, ⟨-, hexpiry⟩, state, hstate, _,
    ⟨hword, rfl⟩, rfl⟩ := h
  rw [hhash] at ha
  have hadmission := load_admission_ok ha
  have hi : (new_intent accounts args a method (terms₁, terms₂) s.orchestrator.next_intent_id
      ctx.now).intent_hash = args.expected_intent_hash := hadmission.intent_hash
  refine ⟨d, d', a, new_intent accounts args a method (terms₁, terms₂)
    s.orchestrator.next_intent_id ctx.now, expiry, state, ⟨hsign, hd, hintent, ?_, hhash, hadmission,
    hvalid, hdlock, hword, ⟨method, (terms₁, terms₂), rfl⟩, hexpiry, hstate, ?_⟩⟩
  · rw [hi]
    exact hlock
  · rw [hhash]
    unfold new_intent_lock
    rw [hi]
    rfl

/-- The terms a successful signal passed: the tuple it names, the gating signature and the floor. -/
theorem signal_intent_checks {rt : Runtime} {ctx : TxContext} {ed25519 : List (List UInt8)}
    {accounts : SignalIntent} {args : SignalIntentArgs} {s s' : State}
    (h : handle_signal_intent rt ctx ed25519 accounts args s = .ok s') :
    ∃ d method currency terms, s.deposits.lookup accounts.deposit = some d
      ∧ signaled_tuple accounts args s.toEscrowRecords = .ok (method, currency)
      ∧ validate_gating_signature rt ctx ed25519 method.gating_service s.orchestrator.domain_chain_id
          accounts.deposit accounts.taker args = .ok ()
      ∧ signaled_terms ctx accounts args d currency s = .ok terms := by
  simp only [handle_signal_intent, bind_eq_ok, load_eq_ok] at h
  obtain ⟨_, -, _, -, d, hd, _, -, _, -, _, -, _, -, _, -, _, -, tuple, htuple, _, -, _, hgating, _, -,
    _, -, terms, hterms, -⟩ := h
  exact ⟨d, tuple.1, tuple.2, terms, hd, htuple, hgating, hterms⟩

/-! ## Closing an intent -/

/-- What the terminals load for an intent: it, its deposit, its lock and its taker's counter, each
at the address the intent's own fields derive. -/
theorem live_intent_ok {k : Pubkey} {s : State} {live : LiveIntent}
    (h : live_intent k s = .ok live) :
    s.intents.lookup k = some live.intent
      ∧ k = intent_address orchestrator_address live.intent.nonce
      ∧ s.deposits.lookup live.intent.deposit = some live.deposit
      ∧ s.intent_locks.lookup (intent_lock_address live.intent.deposit live.intent.intent_hash)
        = some live.lock
      ∧ s.taker_states.lookup (taker_state_address orchestrator_address live.intent.owner)
        = some live.taker_state := by
  simp only [live_intent, bind_eq_ok, load_eq_ok, require_eq_ok, exists_const, pure_eq_ok] at h
  obtain ⟨i, hi, hkey, d, hd, l, hl, t, ht, rfl⟩ := h
  exact ⟨hi, hkey, hd, hl, ht⟩

/-- The state after an intent is closed and its deposit written back. -/
def closed_state (k : Pubkey) (live : LiveIntent) (deposit : Deposit) (s : State) : State :=
  { s with
    deposits := s.deposits.insert live.intent.deposit deposit
    intent_locks := s.intent_locks.erase
      (intent_lock_address live.intent.deposit live.intent.intent_hash)
    intents := s.intents.erase k
    taker_states := s.taker_states.insert
      (taker_state_address orchestrator_address live.intent.owner)
      { live.taker_state with active_intents := live.taker_state.active_intents - 1 } }

/-- Closing fails only on a counter that is zero already. -/
theorem close_intent_ok {k : Pubkey} {live : LiveIntent} {deposit : Deposit} {s s' : State} :
    close_intent k live deposit s = .ok s' ↔
      1 ≤ live.taker_state.active_intents ∧ closed_state k live deposit s = s' := by
  simp only [close_intent, bind_eq_ok, ok_or_eq_ok, Checked.sub_eq_some, pure_eq_ok]
  constructor
  · rintro ⟨_, ⟨hle, rfl⟩, rfl⟩
    exact ⟨hle, rfl⟩
  · rintro ⟨hle, rfl⟩
    exact ⟨_, ⟨hle, rfl⟩, rfl⟩

/-- `cancel_intent` read backwards: its owner signs, and a covered intent's coverage has been
resolved before. -/
theorem cancel_intent_ok {accounts : CancelIntent} {s s' : State}
    (h : handle_cancel_intent accounts s = .ok s') :
    ∃ live resolved deposit, live_intent accounts.intent s = .ok live
      ∧ accounts.owner.can_sign = true ∧ accounts.owner = live.intent.owner
      ∧ load_opt s.dispute_intents accounts.resolved_dispute = .ok resolved
      ∧ check_resolved live.intent resolved = .ok ()
      ∧ live.deposit.unlock live.lock.amount = .ok deposit
      ∧ s' = closed_state accounts.intent live deposit s := by
  simp only [handle_cancel_intent, bind_eq_ok, signer_eq_ok, require_eq_ok, exists_const,
    close_intent_ok] at h
  obtain ⟨hsign, live, hlive, howner, -, -, -, resolved, hresolved, -, _, hcheck, deposit, hunlock, -,
    rfl⟩ := h
  exact ⟨live, resolved, deposit, hlive, hsign, howner, hresolved, hcheck, hunlock, rfl⟩

/-! ## Coverage of a closing intent -/

/-- Pending coverage at `hash` is cancelled and its whole lock returned to the stake owner. -/
structure CoverageCancelled (s s' : State) (hash : Bytes 32) (dispute : DisputeIntent)
    (l : StakeLock) (p p' : StakePosition) : Prop where
  dispute_eq : s.dispute_intents.lookup (coverage_of hash) = some dispute
  pending : dispute.status = .Pending
  lock : s.stake_locks.lookup (lock_of hash) = some l
  position : s.stake_positions.lookup (position_of dispute.stake_owner) = some p
  owner : l.stake_owner = p.owner
  unlocked : p.unlock l.amount = .ok p'
  post : s' = { s with
    stake_positions := s.stake_positions.insert (position_of dispute.stake_owner) p'
    stake_locks := s.stake_locks.erase (lock_of hash)
    dispute_intents := s.dispute_intents.insert (coverage_of hash)
      { dispute with status := .Cancelled } }

theorem DisputeIntent.cancel_ok {d d' : DisputeIntent} (h : d.cancel = .ok d') :
    d.status = .Pending ∧ d' = { d with status := .Cancelled } := by
  simp only [DisputeIntent.cancel, bind_eq_ok, require_eq_ok, exists_const, pure_eq_ok] at h
  exact ⟨h.1, h.2.symm⟩

/-- A supplied optional account is the live one at its key. -/
theorem load_opt_some {α : Type} {m : Accounts α} {k : Option Pubkey} {a : Account α}
    (h : load_opt m k = .ok (some a)) : m.lookup a.key = some a.data :=
  (load_opt_eq_ok.mp h).2 a rfl

/-- Pruning cancels the coverage of a covered intent on the way, and asks for no accounts of an
uncovered one. -/
theorem prune_dispute_ok {accounts : PruneDisputeAccounts} {i : Intent} {s s' : State}
    (h : prune_dispute accounts i s = .ok s') :
    (i.dispute_covered = false ∧ s' = s) ∨ (i.dispute_covered = true
      ∧ ∃ dispute l p p', CoverageCancelled s s' i.intent_hash dispute l p p') := by
  simp only [prune_dispute, bind_eq_ok, ite_eq_ok, require_eq_ok, exists_const, ok_or_eq_ok,
    pure_eq_ok] at h
  obtain ⟨dispute, hdispute, position, hposition, lock, hlock, h⟩ := h
  rcases h with ⟨hcovered, -, d, rfl, -, p, rfl, l, rfl, -, hd, hp, hl, howner, cancelled, hcancel, p',
    hunlock, rfl⟩ | ⟨hcovered, -, rfl⟩
  · obtain ⟨hpending, rfl⟩ := DisputeIntent.cancel_ok hcancel
    have hdispute := load_opt_some hdispute
    have hposition := load_opt_some hposition
    have hlock := load_opt_some hlock
    rw [hd] at hdispute
    rw [hp] at hposition
    rw [hl] at hlock
    refine .inr ⟨hcovered, d.data, l.data, p.data, p', hdispute, hpending, hlock, hposition, howner,
      hunlock, ?_⟩
    rw [hd, hp, hl]
  · exact .inl ⟨by simpa using hcovered, rfl⟩

/-- `prune_expired_intent` read backwards: the lock has expired, strictly. -/
theorem prune_expired_intent_ok {ctx : TxContext} {accounts : PruneExpiredIntent} {s s' : State}
    (h : handle_prune_expired_intent ctx accounts s = .ok s') :
    ∃ live s₁ deposit, live_intent accounts.intent s = .ok live
      ∧ live.lock.expiry_time < ctx.now
      ∧ prune_dispute accounts.dispute live.intent s = .ok s₁
      ∧ live.deposit.unlock live.lock.amount = .ok deposit
      ∧ s' = closed_state accounts.intent live deposit s₁ := by
  simp only [handle_prune_expired_intent, bind_eq_ok, signer_eq_ok, require_eq_ok, exists_const,
    close_intent_ok] at h
  obtain ⟨-, live, hlive, -, hexpired, s₁, hprune, deposit, hunlock, -, rfl⟩ := h
  exact ⟨live, s₁, deposit, hlive, hexpired, hprune, hunlock, rfl⟩

/-- Pending coverage of the intent is settled: its lock shrinks to the released amount and matures
when the snapshotted window has passed. -/
structure CoverageSettled (ctx : TxContext) (s s' : State) (i : Intent) (released : ℕ)
    (dispute : DisputeIntent) (l : StakeLock) (p p' : StakePosition) : Prop where
  dispute_eq : s.dispute_intents.lookup (coverage_of i.intent_hash) = some dispute
  pending : dispute.status = .Pending
  positive : 0 < released
  lock : s.stake_locks.lookup (lock_of i.intent_hash) = some l
  position : s.stake_positions.lookup (position_of dispute.stake_owner) = some p
  owner : l.stake_owner = p.owner
  bounded : released ≤ l.amount
  shrunk : (if 0 < l.amount - released then p.unlock (l.amount - released) else .ok p) = .ok p'
  post : s' = { s with
    stake_positions := s.stake_positions.insert (position_of dispute.stake_owner) p'
    stake_locks := s.stake_locks.insert (lock_of i.intent_hash)
      { l with amount := released, matures_at := ctx.now + dispute.risk_window }
    dispute_intents := s.dispute_intents.insert (coverage_of i.intent_hash)
      { dispute with
        release_amount := released
        release_eligible_at := ctx.now + dispute.risk_window
        status := .Settled } }

/-- Only pending coverage is settled. The settlement fixes the covered amount and the time its
release is due. -/
theorem DisputeIntent.settle_ok {d d' : DisputeIntent} {released : ℕ} {now at_ : ℤ}
    (h : d.settle released now = .ok (d', at_)) :
    d.status = .Pending ∧ 0 < released ∧ at_ = now + d.risk_window
      ∧ d' = { d with
          release_amount := released
          release_eligible_at := now + d.risk_window
          status := .Settled } := by
  simp only [DisputeIntent.settle, bind_eq_ok, require_eq_ok, exists_const, ok_or_eq_ok,
    Checked.add_i64_eq_some, pure_eq_ok, Prod.mk.injEq] at h
  obtain ⟨hpending, hpos, _, ⟨-, rfl⟩, rfl, rfl⟩ := h
  exact ⟨hpending, hpos, rfl, rfl⟩

/-- The only stake vault that can be supplied is the protocol's own. -/
theorem load_stake_vault_some {r : StakeRecords} {k : Option Pubkey}
    {a : Account StakeVaultConfig} (h : load_stake_vault r k = .ok (some a)) :
    a.key = stake_vault_address ∧ a.data = r.stake_vault := by
  cases k with
  | none => simp [load_stake_vault] at h
  | some key =>
    simp only [load_stake_vault, bind_eq_ok, require_eq_ok, exists_const, pure_eq_ok,
      Option.some.injEq] at h
    obtain ⟨rfl, rfl⟩ := h
    exact ⟨rfl, rfl⟩

/-- Settlement touches the coverage of a covered intent only, and there it asks that the dispute
configuration still controls the vault. -/
theorem settle_dispute_ok {ctx : TxContext} {i : Intent} {accounts : SettlementDisputeAccounts}
    {released : ℕ} {s s' : State}
    (h : settle_dispute_if_covered ctx i accounts released s = .ok s') :
    (i.dispute_covered = false ∧ s' = s) ∨ (i.dispute_covered = true
      ∧ s.stake_vault.controller = dispute_config_address
      ∧ ∃ dispute l p p', CoverageSettled ctx s s' i released dispute l p p') := by
  simp only [settle_dispute_if_covered, bind_eq_ok, ite_eq_ok, require_eq_ok, exists_const,
    ok_or_eq_ok, Checked.sub_eq_some, pure_eq_ok, Prod.exists] at h
  obtain ⟨dispute, hdispute, vault, hvault, position, hposition, lock, hlock, h⟩ := h
  rcases h with ⟨hcovered, -, rfl⟩ | ⟨hcovered, d, rfl, v, rfl, p, rfl, l, rfl, hconfig, hd, hv,
    hcontroller, hp, hl, -, -, -, -, -, howner, hle, settled, maturity, hsettle, _, ⟨-, rfl⟩, p',
    hshrunk, rfl⟩
  · exact .inl ⟨hcovered, rfl⟩
  -- the accounts supplied are the ones the intent's hash derives, so each stands for the record
  -- there
  · obtain ⟨hpending, hpos, rfl, rfl⟩ := DisputeIntent.settle_ok hsettle
    have hdispute := load_opt_some hdispute
    have hposition := load_opt_some hposition
    have hlock := load_opt_some hlock
    obtain ⟨-, hvault⟩ := load_stake_vault_some hvault
    rw [hconfig] at hd
    rw [hv] at hp hl
    rw [hd] at hdispute
    rw [hp] at hposition
    rw [hl] at hlock
    rw [hvault] at hcontroller
    refine .inr ⟨by simpa using hcovered, hcontroller, d.data, l.data, p.data, p', hdispute, hpending,
      hpos, hlock, hposition, howner, hle, ite_eq_ok.mpr hshrunk, ?_⟩
    rw [hd, hp, hl]

/-- Settling coverage writes coverage and collateral only. -/
theorem settle_dispute_rest {ctx : TxContext} {i : Intent} {accounts : SettlementDisputeAccounts}
    {r : ℕ} {s s₁ : State} (h : settle_dispute_if_covered ctx i accounts r s = .ok s₁) :
    s₁ = { s with
      toStakeRecords := s₁.toStakeRecords
      dispute_intents := s₁.dispute_intents } := by
  rcases settle_dispute_ok h with ⟨-, rfl⟩ | ⟨-, -, _, _, _, _, hsettled⟩
  · rfl
  · rw [hsettled.post]

/-- What both settlement paths do: settle the coverage, settle the deposit, pay exactly the
released amount out of the vault and close the intent. -/
theorem settle_intent_ok {ctx : TxContext} {k : Pubkey} {live : LiveIntent}
    {tokens : SettlementTokenAccounts} {dispute : SettlementDisputeAccounts}
    {remaining_accounts : List AccountInfo} {released : ℕ} {s s' : State}
    (h : settle_intent ctx k live tokens dispute remaining_accounts released s = .ok s') :
    ∃ s₁ deposit T, settle_dispute_if_covered ctx live.intent dispute released s = .ok s₁
      ∧ live.deposit.settle live.lock.amount released = .ok deposit
      ∧ Paid s.tokens T (deposit_vault_address live.intent.deposit) released
      ∧ s' = closed_state k live deposit { s₁ with tokens := T } := by
  simp only [settle_intent, bind_eq_ok, close_intent_ok] at h
  obtain ⟨t, ht, s₁, hs₁, deposit, hdeposit, T, hT, -, rfl⟩ := h
  have htokens : s₁.tokens = s.tokens := by rw [settle_dispute_rest hs₁]
  rw [htokens] at hT
  have hpaid := distribute_funds_paid hT (SettlementTokenAccounts.load_fresh ht).vault
  exact ⟨s₁, deposit, T, hs₁, hdeposit, hpaid, rfl⟩

/-- The tokens move by payments out of the deposit's vault. -/
theorem settle_intent_payments {ctx : TxContext} {k : Pubkey} {live : LiveIntent}
    {tokens : SettlementTokenAccounts} {dispute : SettlementDisputeAccounts}
    {remaining_accounts : List AccountInfo} {released : ℕ} {s s' : State}
    (h : settle_intent ctx k live tokens dispute remaining_accounts released s = .ok s') :
    ∃ vault mint authority ps, pay_all vault mint authority ps s.tokens = .ok s'.tokens := by
  simp only [settle_intent, bind_eq_ok, close_intent_ok] at h
  obtain ⟨t, -, s₁, hs₁, deposit, -, T, hT, -, rfl⟩ := h
  have htokens : s₁.tokens = s.tokens := by rw [settle_dispute_rest hs₁]
  rw [htokens] at hT
  obtain ⟨plan, -, hpaid, -⟩ := distribute_funds_ok hT
  exact ⟨_, _, _, _, hpaid⟩

/-- `manual_release` read backwards: the depositor signs, and the whole intent amount is
released. -/
theorem manual_release_ok {ctx : TxContext} {accounts : ManualRelease} {s s' : State}
    (h : handle_manual_release ctx accounts s = .ok s') :
    ∃ live, live_intent accounts.intent s = .ok live
      ∧ accounts.depositor.can_sign = true ∧ accounts.depositor = live.deposit.depositor
      ∧ settle_intent ctx accounts.intent live accounts.tokens accounts.dispute
        accounts.remaining_accounts live.intent.amount s = .ok s' := by
  simp only [handle_manual_release, bind_eq_ok, signer_eq_ok, require_eq_ok, exists_const] at h
  obtain ⟨hsign, live, hlive, howner, -, hsettle⟩ := h
  exact ⟨live, hlive, hsign, howner, hsettle⟩

/-- `fulfill_intent` read backwards: both bindings are new, the attestation verifies, and the amount
released is the lesser of the attested one and the intent's. -/
theorem fulfill_intent_ok {rt : Runtime} {ctx : TxContext} {accounts : FulfillIntent}
    {args : FulfillIntentArgs} {s s' : State}
    (h : handle_fulfill_intent rt ctx accounts args s = .ok s') :
    ∃ live s₁, live_intent accounts.intent s = .ok live
      ∧ live.intent.intent_hash = args.attestation.intent_hash
      ∧ s.payment_bindings.lookup
          (payment_binding_address verifier_address args.expected_nullifier) = none
      ∧ s.intent_payment_bindings.lookup
          (intent_payment_binding_address verifier_address live.intent.intent_hash) = none
      ∧ verify_payment_attestation rt verifier_address s.verifier live.intent args.attestation
        = .ok args.expected_nullifier
      ∧ settle_intent ctx accounts.intent live accounts.tokens accounts.dispute
        accounts.remaining_accounts
        (Min.min args.attestation.release_amount live.intent.amount) s = .ok s₁
      ∧ s' = { s₁ with toVerifierRecords :=
          s₁.toVerifierRecords.bind_payment args.expected_nullifier live.intent.intent_hash } := by
  simp only [handle_fulfill_intent, bind_eq_ok, signer_eq_ok, init_eq_ok, require_eq_ok,
    exists_const, pure_eq_ok] at h
  obtain ⟨-, -, -, live, hlive, hhash, -, hpayment, hintent, nullifier, hverify, rfl, s₁, hsettle,
    rfl⟩ := h
  exact ⟨live, s₁, hlive, hhash, hpayment, hintent, hverify, hsettle, rfl⟩

/-! ## Coverage by itself -/

/-- Coverage of the next intent is prepared: the full amount goes under a lock that never
matures, taken from the free stake of the selected owner. -/
structure CoveragePrepared (rt : Runtime) (accounts : PrepareDispute) (args : PrepareDisputeArgs)
    (s s' : State) (d : Deposit) (risk : RiskWindow) (p p' : StakePosition) : Prop where
  controller : s.stake_vault.controller = dispute_config_address
  deposit : s.deposits.lookup accounts.deposit = some d
  setting : ∃ setting, load_opt s.dispute_settings accounts.deposit_setting = .ok setting
    ∧ (∀ a ∈ setting, a.data.deposit = accounts.deposit) ∧ ∀ a ∈ setting, a.data.enabled = true
  risk_eq : s.risk_windows.lookup
    (risk_window_address dispute_config_address args.payment_method) = some risk
  window : 0 < risk.seconds
  position : s.stake_positions.lookup (position_of accounts.stake_owner) = some p
  owner : p.owner = accounts.stake_owner
  lock_fresh : s.stake_locks.lookup (lock_of args.expected_intent_hash) = none
  coverage_fresh : s.dispute_intents.lookup (coverage_of args.expected_intent_hash) = none
  hash : derive_intent_hash rt orchestrator_address s.orchestrator.next_intent_id
    = args.expected_intent_hash
  locked : p.lock args.amount = .ok p'
  post : s' = { s with
    stake_positions := s.stake_positions.insert (position_of accounts.stake_owner) p'
    stake_locks := s.stake_locks.insert (lock_of args.expected_intent_hash)
      { vault := stake_vault_address
        id := args.expected_intent_hash
        stake_owner := accounts.stake_owner
        amount := args.amount
        matures_at := NEVER_MATURES }
    dispute_intents := s.dispute_intents.insert (coverage_of args.expected_intent_hash)
      (new_dispute_intent accounts args accounts.stake_owner d risk) }

/-- The `signal_intent` that must follow a `prepare_dispute`. -/
structure SignalFollows (following : Option (SignalIntent × SignalIntentArgs))
    (accounts : PrepareDispute) (args : PrepareDisputeArgs) (signal : SignalIntent)
    (signal_args : SignalIntentArgs) : Prop where
  next : following = some (signal, signal_args)
  taker : signal.taker = accounts.taker
  deposit : signal.deposit = accounts.deposit
  dispute_intent : signal.dispute_intent = some (coverage_of args.expected_intent_hash)
  hash : signal_args.expected_intent_hash = args.expected_intent_hash
  payment_method : signal_args.payment_method = args.payment_method
  amount : signal_args.amount = args.amount

/-- `prepare_dispute` read backwards, with the signal its transaction goes on with. -/
theorem prepare_dispute_ok {rt : Runtime} {following : Option (SignalIntent × SignalIntentArgs)}
    {accounts : PrepareDispute} {args : PrepareDisputeArgs} {s s' : State}
    (h : handle_prepare_dispute rt following accounts args s = .ok s') :
    ∃ d risk p p' signal signal_args,
      CoveragePrepared rt accounts args s s' d risk p p'
      ∧ SignalFollows following accounts args signal signal_args := by
  simp only [handle_prepare_dispute, require_atomic_signal_follows, bind_eq_ok, signer_eq_ok,
    load_eq_ok, init_eq_ok, require_eq_ok, exists_const, ok_or_eq_ok, Prod.exists,
    pure_eq_ok] at h
  obtain ⟨-, -, hcontroller, d, hd, -, setting, hsetting, risk, hrisk, -, p, hp, howner, hlock, hdispute,
    -, -, hwindow, -, ⟨signal, signal_args, hnext, htaker, hdeposit, hkey, hhash', hmethod, hamount⟩,
    hof, henabled, hhash, owner, -, rfl, p', hlocked, rfl⟩ := h
  exact ⟨d, risk, p, p', signal, signal_args,
    ⟨hcontroller, hd, ⟨setting, hsetting, hof, henabled⟩, hrisk, hwindow, hp, howner, hlock, hdispute,
      hhash, hlocked, rfl⟩,
    ⟨hnext, htaker, hdeposit, hkey, hhash', hmethod, hamount⟩⟩

/-- `cancel_dispute` read backwards, with the cancellation its transaction goes on with. -/
theorem cancel_dispute_ok {following : Option CancelIntent} {accounts : CancelDispute}
    {s s' : State} (hcanonical : CoverageCanonical s.toDisputeRecords)
    (h : handle_cancel_dispute following accounts s = .ok s') :
    ∃ i dispute l p p' cancel, s.intents.lookup accounts.intent = some i
      ∧ accounts.dispute_intent = coverage_of i.intent_hash
      ∧ CoverageCancelled s s' i.intent_hash dispute l p p'
      ∧ following = some cancel ∧ cancel.intent = accounts.intent
      ∧ cancel.resolved_dispute = some (coverage_of i.intent_hash) := by
  simp only [handle_cancel_dispute, require_atomic_cancel_follows, bind_eq_ok, signer_eq_ok,
    load_eq_ok, require_eq_ok, exists_const, ok_or_eq_ok, pure_eq_ok] at h
  obtain ⟨-, i, hi, -, dispute, hdispute, p, hp, l, hl, howner, hkey, -,
    ⟨cancel, hnext, -, hintent, hresolved⟩, cancelled, hcancel, p', hunlock, rfl⟩ := h
  obtain ⟨hpending, rfl⟩ := DisputeIntent.cancel_ok hcancel
  rw [(hcanonical _ _ hdispute).2] at hkey
  rw [hkey] at hdispute hresolved
  exact ⟨i, dispute, l, p, p', cancel, hi, hkey,
    ⟨hdispute, hpending, hl, hp, howner, hunlock, by rw [hkey]⟩, hnext, hintent, hresolved⟩

/-- Cancelling coverage writes coverage and collateral only. -/
theorem cancel_dispute_rest {following : Option CancelIntent} {accounts : CancelDispute}
    {s s' : State} (h : handle_cancel_dispute following accounts s = .ok s') :
    s' = { s with
      toStakeRecords := s'.toStakeRecords
      dispute_intents := s'.dispute_intents } := by
  simp only [handle_cancel_dispute, bind_eq_ok, pure_eq_ok] at h
  obtain ⟨_, -, _, -, _, -, _, -, _, -, _, -, _, -, _, -, _, -, _, -, _, -, _, -, rfl⟩ := h
  rfl

/-- Settled coverage is released once its window has passed. -/
theorem DisputeIntent.release_ok {d d' : DisputeIntent} {now : ℤ} {amount : ℕ}
    (h : d.release now = .ok (d', amount)) :
    d.status = .Settled ∧ d.release_eligible_at ≤ now ∧ amount = d.release_amount
      ∧ d' = { d with status := .Released } := by
  simp only [DisputeIntent.release, bind_eq_ok, require_eq_ok, exists_const, pure_eq_ok,
    Prod.mk.injEq] at h
  obtain ⟨hsettled, hnow, rfl, rfl⟩ := h
  exact ⟨hsettled, hnow, rfl, rfl⟩

/-- Only settled coverage is disputed, for the amount it was settled with. -/
theorem DisputeIntent.dispute_ok {d d' : DisputeIntent} {amount : ℕ}
    (h : d.dispute = .ok (d', amount)) :
    d.status = .Settled ∧ amount = d.release_amount ∧ d' = { d with status := .Disputed } := by
  simp only [DisputeIntent.dispute, bind_eq_ok, require_eq_ok, exists_const, pure_eq_ok,
    Prod.mk.injEq] at h
  obtain ⟨hsettled, rfl, rfl⟩ := h
  exact ⟨hsettled, rfl, rfl⟩

/-- `release_matured_dispute` read backwards. Nothing here compares the lock's owner with the
coverage's. -/
theorem release_matured_dispute_ok {ctx : TxContext} {accounts : ReleaseMaturedDispute}
    {s s' : State} (h : handle_release_matured_dispute ctx accounts s = .ok s') :
    ∃ dispute l p p', s.dispute_intents.lookup accounts.dispute_intent = some dispute
      ∧ accounts.dispute_intent
        = dispute_intent_address dispute.dispute_config dispute.intent_hash
      ∧ dispute.status = .Settled ∧ dispute.release_eligible_at ≤ ctx.now
      ∧ s.stake_locks.lookup (lock_of dispute.intent_hash) = some l
      ∧ l.amount = dispute.release_amount
      ∧ s.stake_positions.lookup (position_of dispute.stake_owner) = some p
      ∧ p.unlock l.amount = .ok p'
      ∧ s' = { s with
          stake_positions := s.stake_positions.insert (position_of dispute.stake_owner) p'
          stake_locks := s.stake_locks.erase (lock_of dispute.intent_hash)
          dispute_intents := s.dispute_intents.insert accounts.dispute_intent
            { dispute with status := .Released } } := by
  simp only [handle_release_matured_dispute, bind_eq_ok, signer_eq_ok, load_eq_ok, require_eq_ok,
    exists_const, Prod.exists, pure_eq_ok] at h
  obtain ⟨-, dispute, hdispute, p, hp, l, hl, hkey, released, amount, hrelease, hamount, p', hunlock,
    rfl⟩ := h
  obtain ⟨hsettled, hnow, rfl, rfl⟩ := DisputeIntent.release_ok hrelease
  exact ⟨dispute, l, p, p', hdispute, hkey, hsettled, hnow, hl, hamount.symm, hp, hamount ▸ hunlock,
    rfl⟩

/-- Settled coverage is converted into a claim of the depositor. -/
structure CoverageDisputed (s s' : State) (hash nullifier_seed nullifier : Bytes 32)
    (dispute : DisputeIntent) (l : StakeLock) (p p' : StakePosition) (c' : ClaimBalance) :
    Prop where
  controller : s.stake_vault.controller = dispute_config_address
  dispute_eq : s.dispute_intents.lookup (coverage_of hash) = some dispute
  settled : dispute.status = .Settled
  lock : s.stake_locks.lookup (lock_of hash) = some l
  owner : l.stake_owner = dispute.stake_owner
  amount : l.amount = dispute.release_amount
  position : s.stake_positions.lookup (position_of dispute.stake_owner) = some p
  resolved : p.resolve l.amount l.amount = .ok p'
  staked : l.amount ≤ s.stake_vault.total_staked
  credited : credited_claim
    (init_if_needed s.claims (claim_balance_address stake_vault_address dispute.depositor))
    dispute.depositor l.amount = .ok c'
  post : s' = { s with
    stake_vault := { s.stake_vault with
      total_staked := s.stake_vault.total_staked - l.amount
      total_claimable := s.stake_vault.total_claimable + l.amount }
    stake_positions := s.stake_positions.insert (position_of dispute.stake_owner) p'
    stake_locks := s.stake_locks.erase (lock_of hash)
    claims := s.claims.insert
      (claim_balance_address stake_vault_address dispute.depositor) c'
    dispute_intents := s.dispute_intents.insert (coverage_of hash)
      { dispute with status := .Disputed }
    dispute_nullifiers := s.dispute_nullifiers.insert
      (dispute_nullifier_address dispute_config_address nullifier_seed)
      { dispute_config := dispute_config_address, nullifier := nullifier, intent_hash := hash } }

/-- `submit_dispute` read backwards: the nullifier is new and the evidence verifies. -/
theorem submit_dispute_ok {rt : Runtime} {accounts : SubmitDispute} {args : SubmitDisputeArgs}
    {s s' : State} (h : handle_submit_dispute rt accounts args s = .ok s') :
    ∃ dispute l p p' c' nullifier,
      CoverageDisputed s s' args.attestation.intent_hash args.expected_dispute_nullifier nullifier
        dispute l p p' c'
      ∧ s.dispute_nullifiers.lookup
          (dispute_nullifier_address dispute_config_address args.expected_dispute_nullifier) = none
      ∧ verify_dispute_evidence rt args dispute s = .ok nullifier := by
  simp only [handle_submit_dispute, submit_dispute_controller, bind_eq_ok, signer_eq_ok, load_eq_ok,
    init_eq_ok, require_eq_ok, exists_const, Prod.exists, ok_or_eq_ok, Checked.sub_eq_some,
    Checked.add_eq_some, pure_eq_ok] at h
  obtain ⟨-, -, dispute, hdispute, -, hfresh, ⟨-, hcontroller⟩, p, hp, l, hl, howner, nullifier, hverify,
    disputed, amount, hdisputed, hamount, p', hresolve, _, ⟨hstaked, rfl⟩, _, ⟨-, rfl⟩, c', hcredit,
    rfl⟩ := h
  obtain ⟨hsettled, rfl, rfl⟩ := DisputeIntent.dispute_ok hdisputed
  rw [hamount] at hresolve hstaked hcredit
  refine ⟨dispute, l, p, p', c', nullifier, ⟨hcontroller, hdispute, hsettled, hl, howner, hamount.symm,
    hp, hresolve, hstaked, hcredit, ?_⟩, hfresh, hverify⟩
  rw [hamount]

/-! ## Governance -/

/-- What a governance instruction leaves alone. -/
structure GovernanceFrame (s s' : State) : Prop where
  deposits : s'.deposits = s.deposits
  intent_locks : s'.intent_locks = s.intent_locks
  intents : s'.intents = s.intents
  taker_states : s'.taker_states = s.taker_states
  nonce : s'.orchestrator.next_intent_id = s.orchestrator.next_intent_id
  stake_positions : s'.stake_positions = s.stake_positions
  stake_locks : s'.stake_locks = s.stake_locks
  claims : s'.claims = s.claims
  total_staked : s'.stake_vault.total_staked = s.stake_vault.total_staked
  total_claimable : s'.stake_vault.total_claimable = s.stake_vault.total_claimable
  verifier : s'.toVerifierRecords = s.toVerifierRecords
  whitelist : s'.toWhitelistRecords = s.toWhitelistRecords
  dispute : s'.toDisputeRecords = s.toDisputeRecords
  tokens : s'.tokens = s.tokens

/-- What one governance instruction writes. -/
inductive GovernanceWrite (s s' : State) : GovernanceInstruction → Prop
  /-- The two steps of a change of authority. -/
  | protocol (ix : GovernanceInstruction) (p : ProtocolConfig) (post : s' = { s with protocol := p }) :
      GovernanceWrite s s' ix
  | orchestrator (accounts : ConfigureOrchestrator) (args : ConfigureOrchestratorArgs)
      (o : OrchestratorConfig) (nonce : o.next_intent_id = s.orchestrator.next_intent_id)
      (post : s' = { s with orchestrator := o }) :
      GovernanceWrite s s' (.configure_orchestrator accounts args)
  | escrow (accounts : ConfigureEscrow) (args : ConfigureEscrowArgs) (e : EscrowConfig)
      (post : s' = { s with escrow_config := e }) :
      GovernanceWrite s s' (.configure_escrow accounts args)
  /-- A proposal writes the pending slot and its date; the controller itself stays. -/
  | proposed (accounts : ProposeStakeController) (pending candidate : Option Pubkey) (valid_at : ℤ)
      (post : s' = { s with stake_vault := { s.stake_vault with
        pending_controller := candidate
        pending_controller_valid_at := valid_at } }) :
      GovernanceWrite s s' (.propose_stake_controller accounts pending)
  | accepted (accounts : AcceptStakeController)
      (post : s' = { s with stake_vault := { s.stake_vault with
        controller := accounts.pending_controller
        pending_controller := none
        pending_controller_valid_at := 0 } }) :
      GovernanceWrite s s' (.accept_stake_controller accounts)

/-- Each governance instruction writes what `GovernanceWrite` says and nothing else. -/
theorem governance_write {ctx : TxContext} {s s' : State} {ix : GovernanceInstruction}
    (h : ix.execute ctx s = .ok s') : GovernanceWrite s s' ix := by
  cases ix with
  | propose_protocol_authority accounts pending =>
    simp only [GovernanceInstruction.execute, handle_propose_protocol_authority, bind_eq_ok,
      require_eq_ok, signer_eq_ok, exists_const, pure_eq_ok] at h
    obtain ⟨-, -, -, -, -, hpost⟩ := h
    exact .protocol _ _ hpost.symm
  | accept_protocol_authority accounts =>
    simp only [GovernanceInstruction.execute, handle_accept_protocol_authority, bind_eq_ok,
      require_eq_ok, signer_eq_ok, exists_const, pure_eq_ok] at h
    obtain ⟨-, -, hpost⟩ := h
    exact .protocol _ _ hpost.symm
  | configure_orchestrator accounts args =>
    simp only [GovernanceInstruction.execute, handle_configure_orchestrator, bind_eq_ok,
      require_eq_ok, signer_eq_ok, exists_const, pure_eq_ok] at h
    obtain ⟨-, -, -, -, -, hpost⟩ := h
    refine .orchestrator accounts args _ ?_ hpost.symm
    rfl
  | configure_escrow accounts args =>
    simp only [GovernanceInstruction.execute, handle_configure_escrow, bind_eq_ok,
      require_eq_ok, signer_eq_ok, exists_const, pure_eq_ok] at h
    obtain ⟨-, -, -, -, -, -, -, hpost⟩ := h
    exact .escrow accounts args _ hpost.symm
  | propose_stake_controller accounts pending =>
    simp only [GovernanceInstruction.execute, handle_propose_stake_controller, bind_eq_ok,
      require_eq_ok, signer_eq_ok, exists_const] at h
    obtain ⟨-, -, -, h⟩ := h
    -- withdrawing a candidate resets the date as well
    cases pending with
    | none =>
      simp only [bind_eq_ok, require_eq_ok, exists_const, pure_eq_ok] at h
      obtain ⟨-, hpost⟩ := h
      exact .proposed accounts none none 0 hpost.symm
    | some candidate =>
      simp only [bind_eq_ok, require_eq_ok, exists_const, ok_or_eq_ok, pure_eq_ok] at h
      obtain ⟨-, -, valid_at, -, hpost⟩ := h
      exact .proposed accounts (some candidate) (some candidate) valid_at hpost.symm
  | accept_stake_controller accounts =>
    simp only [GovernanceInstruction.execute, handle_accept_stake_controller, bind_eq_ok,
      require_eq_ok, signer_eq_ok, exists_const, pure_eq_ok] at h
    obtain ⟨-, -, -, hpost⟩ := h
    exact .accepted accounts hpost.symm

/-- A governance instruction keeps its frame, and only an accepted handover changes the stake
controller. -/
theorem governance_ok {ctx : TxContext} {s s' : State} {ix : GovernanceInstruction}
    (h : ix.execute ctx s = .ok s') :
    GovernanceFrame s s' ∧ (s'.stake_vault.controller = s.stake_vault.controller
      ∨ ∃ accounts, ix = .accept_stake_controller accounts) := by
  cases governance_write h with
  | protocol _ p post | escrow accounts args e post | proposed accounts pending candidate valid_at post =>
    subst post
    exact ⟨by constructor <;> rfl, .inl rfl⟩
  | orchestrator accounts args o nonce post =>
    subst post
    refine ⟨?_, .inl rfl⟩
    constructor
    case nonce => exact nonce
    all_goals rfl
  | accepted accounts post =>
    subst post
    exact ⟨by constructor <;> rfl, .inr ⟨accounts, rfl⟩⟩

/-! ## Stake instructions -/

/-- The controller's view of a lock, read backwards. -/
theorem managed_stake_lock_ok {accounts : ManageStakeLock} {lock_id : Bytes 32} {r : StakeRecords}
    {l : StakeLock} {p : StakePosition}
    (h : managed_stake_lock accounts lock_id r = .ok (l, p)) :
    accounts.controller.can_sign = true ∧ accounts.controller = r.stake_vault.controller
      ∧ r.stake_locks.lookup (lock_of lock_id) = some l
      ∧ r.stake_positions.lookup (position_of l.stake_owner) = some p ∧ l.id = lock_id := by
  simp only [managed_stake_lock, bind_eq_ok, signer_eq_ok, load_eq_ok, require_eq_ok,
    exists_const, pure_eq_ok, Prod.mk.injEq] at h
  obtain ⟨hsign, hcontroller, l', hl, p', hp, hid, rfl, rfl⟩ := h
  exact ⟨hsign, hcontroller, hl, hp, hid⟩

/-- A stake instruction moves the totals of the vault and nothing else of its configuration, and
writes a lock only under the controller's signature. -/
theorem stake_instruction_frame {ctx : TxContext} {ix : StakeInstruction} {r r' : StakeRecords}
    {T T' : Accounts TokenAccount} (h : ix.execute ctx r T = .ok (r', T')) :
    r'.stake_vault = { r.stake_vault with
        total_staked := r'.stake_vault.total_staked
        total_claimable := r'.stake_vault.total_claimable }
      ∧ (r'.stake_locks = r.stake_locks ∨ r.stake_vault.controller.can_sign = true) := by
  cases ix with
  -- custody never writes a lock
  | initialize_stake_token_vault accounts =>
    simp only [StakeInstruction.execute, bind_eq_ok, pure_eq_ok, Prod.mk.injEq] at h
    obtain ⟨_, -, rfl, -⟩ := h
    exact ⟨rfl, .inl rfl⟩
  | deposit_stake accounts amount =>
    simp only [StakeInstruction.execute, handle_deposit_stake, bind_eq_ok, pure_eq_ok,
      Prod.mk.injEq] at h
    obtain ⟨_, -, _, -, _, -, _, -, _, -, _, -, _, -, rfl, -⟩ := h
    exact ⟨rfl, .inl rfl⟩
  | withdraw_stake accounts amount =>
    simp only [StakeInstruction.execute, handle_withdraw_stake, bind_eq_ok, pure_eq_ok,
      Prod.mk.injEq] at h
    obtain ⟨_, -, _, -, _, -, _, -, _, -, _, -, _, -, _, -, _, -, _, -, _, -, _, -, rfl, -⟩ := h
    exact ⟨rfl, .inl rfl⟩
  | claim_stake accounts =>
    simp only [StakeInstruction.execute, handle_claim_stake, bind_eq_ok, pure_eq_ok,
      Prod.mk.injEq] at h
    obtain ⟨_, -, _, -, _, -, _, -, _, -, _, -, _, -, _, -, _, -, rfl, -⟩ := h
    exact ⟨rfl, .inl rfl⟩
  | initialize_claim_balance accounts =>
    simp only [StakeInstruction.execute, handle_initialize_claim_balance, bind_eq_ok, pure_eq_ok,
      Prod.mk.injEq] at h
    obtain ⟨_, ⟨_, -, _, -, rfl⟩, rfl, -⟩ := h
    exact ⟨rfl, .inl rfl⟩
  -- the six instructions below write locks, and each first asks for the controller's signature
  | controller_lock_stake accounts args =>
    simp only [StakeInstruction.execute, handle_controller_lock_stake, bind_eq_ok, signer_eq_ok,
      require_eq_ok, exists_const, pure_eq_ok, Prod.mk.injEq] at h
    obtain ⟨_, ⟨hsign, hcontroller, h⟩, rfl, -⟩ := h
    obtain ⟨_, -, -, _, -, -, -, _, -, rfl⟩ := h
    exact ⟨rfl, .inr (hcontroller ▸ hsign)⟩
  | controller_fund_lock accounts args =>
    simp only [StakeInstruction.execute, handle_controller_fund_lock, bind_eq_ok, signer_eq_ok,
      require_eq_ok, exists_const, pure_eq_ok, Prod.mk.injEq] at h
    obtain ⟨hsign, hcontroller, h⟩ := h
    obtain ⟨_, -, _, -, _, -, -, -, -, _, -, _, -, _, -, _, -, rfl, -⟩ := h
    exact ⟨rfl, .inr (hcontroller ▸ hsign)⟩
  | increase_stake_lock accounts lock_id additional_amount =>
    simp only [StakeInstruction.execute, handle_increase_stake_lock, bind_eq_ok, Prod.exists,
      pure_eq_ok, Prod.mk.injEq] at h
    obtain ⟨_, ⟨_, _, hmanaged, _, -, _, -, _, -, _, -, rfl⟩, rfl, -⟩ := h
    obtain ⟨hsign, hcontroller, -⟩ := managed_stake_lock_ok hmanaged
    exact ⟨rfl, .inr (hcontroller ▸ hsign)⟩
  | resize_stake_lock accounts lock_id new_amount new_matures_at =>
    simp only [StakeInstruction.execute, handle_resize_stake_lock, bind_eq_ok, Prod.exists,
      pure_eq_ok, Prod.mk.injEq] at h
    obtain ⟨_, ⟨_, _, hmanaged, _, -, _, -, _, -, _, -, _, -, _, -, rfl⟩, rfl, -⟩ := h
    obtain ⟨hsign, hcontroller, -⟩ := managed_stake_lock_ok hmanaged
    exact ⟨rfl, .inr (hcontroller ▸ hsign)⟩
  | controller_unlock_stake accounts lock_id =>
    simp only [StakeInstruction.execute, handle_controller_unlock_stake, bind_eq_ok, Prod.exists,
      pure_eq_ok, Prod.mk.injEq] at h
    obtain ⟨_, ⟨_, _, hmanaged, _, -, rfl⟩, rfl, -⟩ := h
    obtain ⟨hsign, hcontroller, -⟩ := managed_stake_lock_ok hmanaged
    exact ⟨rfl, .inr (hcontroller ▸ hsign)⟩
  | resolve_stake_lock accounts lock_id claims =>
    simp only [StakeInstruction.execute, handle_resolve_stake_lock, bind_eq_ok, signer_eq_ok,
      require_eq_ok, exists_const, pure_eq_ok, Prod.mk.injEq] at h
    obtain ⟨_, ⟨hsign, hcontroller, h⟩, rfl, -⟩ := h
    obtain ⟨_, -, _, -, _, -, _, -, _, -, _, -, _, -, _, -, _, -, rfl⟩ := h
    exact ⟨rfl, .inr (hcontroller ▸ hsign)⟩

end Zkp2pSolana
