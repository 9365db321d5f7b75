/-
What an instruction can do to intents, coverage and collateral locks together.

`LifecycleMove` sorts the top-level instructions by what they do to the records
of an intent: one case for each of the nine lifecycle instructions, and `idle` for
everything else. An idle instruction leaves intents, coverage and payment
bindings alone; it can only touch a collateral lock under a stake controller that
signs, which the program's own controller, a derived address, never does.

The second half is what holds of the ledger's addresses in every state of every
run: records sit at the address their own fields derive.
-/
import Zkp2pSolana.Genesis
import Zkp2pSolana.StakeMoves

set_option autoImplicit false

namespace Zkp2pSolana

open Result Zkp2pError

/-- What an instruction outside the lifecycle of an intent leaves alone. -/
structure LifecycleFrame (ix : TopLevel) (s s' : State) : Prop where
  no_signal : following_signal [ix] = none
  no_cancel : following_cancel [ix] = none
  intents : s'.intents = s.intents
  taker_states : s'.taker_states = s.taker_states
  nonce : s'.orchestrator.next_intent_id = s.orchestrator.next_intent_id
  dispute_intents : s'.dispute_intents = s.dispute_intents
  dispute_settings : s'.dispute_settings = s.dispute_settings
    ∨ ∃ k enabled, s'.dispute_settings
      = s.dispute_settings.insert (dispute_setting_address k) ⟨k, enabled⟩
  payment_bindings : s'.payment_bindings = s.payment_bindings
  intent_payment_bindings : s'.intent_payment_bindings = s.intent_payment_bindings
  stake_locks : s'.stake_locks = s.stake_locks ∨ s.stake_vault.controller.can_sign = true
  controller : s'.stake_vault.controller = s.stake_vault.controller
    ∨ ∃ accounts, ix = .program (.governance (.accept_stake_controller accounts))
  collateral_vault : s'.dispute_config.stake_vault = s.dispute_config.stake_vault

/-- While the program controls the collateral, no lock is written: a derived address signs nothing. -/
theorem LifecycleFrame.locks_kept {ix : TopLevel} {s s' : State} (h : LifecycleFrame ix s s')
    (hcontroller : s.stake_vault.controller = dispute_config_address) :
    s'.stake_locks = s.stake_locks := by
  rcases h.stake_locks with hlocks | hsign
  · exact hlocks
  · rw [hcontroller] at hsign
    have hnever : dispute_config_address.can_sign = false := rfl
    rw [hnever] at hsign
    cases hsign

/-- One top-level instruction, followed by `after` in its transaction, as a move of the records
of an intent. -/
inductive LifecycleMove (rt : Runtime) (ctx : TxContext) (after : List TopLevel) (s s' : State) :
    TopLevel → Prop
  | idle {ix : TopLevel} (frame : LifecycleFrame ix s s') : LifecycleMove rt ctx after s s' ix
  | signal_intent {accounts : SignalIntent} {args : SignalIntentArgs} {d d' : Deposit}
      {a : LifecycleAdmission} {i : Intent} {expiry : ℤ} {state : TakerIntentState}
      (signaled : Signaled rt ctx accounts args s s' d d' a i expiry state) :
      LifecycleMove rt ctx after s s' (.program (.signal_intent accounts args))
  | cancel_intent {accounts : CancelIntent} (ok : handle_cancel_intent accounts s = .ok s') :
      LifecycleMove rt ctx after s s' (.program (.cancel_intent accounts))
  | prune_expired_intent {accounts : PruneExpiredIntent}
      (ok : handle_prune_expired_intent ctx accounts s = .ok s') :
      LifecycleMove rt ctx after s s' (.program (.prune_expired_intent accounts))
  | prepare_dispute {accounts : PrepareDispute} {args : PrepareDisputeArgs} {d : Deposit}
      {risk : RiskWindow} {p p' : StakePosition} {signal : SignalIntent}
      {signal_args : SignalIntentArgs}
      (prepared : CoveragePrepared rt accounts args s s' d risk p p')
      (follows : SignalFollows (following_signal after) accounts args signal signal_args) :
      LifecycleMove rt ctx after s s' (.program (.prepare_dispute accounts args))
  | cancel_dispute {accounts : CancelDispute}
      (ok : handle_cancel_dispute (following_cancel after) accounts s = .ok s') :
      LifecycleMove rt ctx after s s' (.program (.cancel_dispute accounts))
  | release_matured_dispute {accounts : ReleaseMaturedDispute}
      (ok : handle_release_matured_dispute ctx accounts s = .ok s') :
      LifecycleMove rt ctx after s s' (.program (.release_matured_dispute accounts))
  | submit_dispute {accounts : SubmitDispute} {args : SubmitDisputeArgs}
      (ok : handle_submit_dispute rt accounts args s = .ok s') :
      LifecycleMove rt ctx after s s' (.program (.submit_dispute accounts args))
  | fulfill_intent {accounts : FulfillIntent} {args : FulfillIntentArgs}
      (ok : handle_fulfill_intent rt ctx accounts args s = .ok s') :
      LifecycleMove rt ctx after s s' (.program (.fulfill_intent accounts args))
  | manual_release {accounts : ManualRelease}
      (ok : handle_manual_release ctx accounts s = .ok s') :
      LifecycleMove rt ctx after s s' (.program (.manual_release accounts))

/-! ## Instructions outside the lifecycle -/

/-- A stake instruction never changes the controller, and it writes a lock only when the
controller can sign. -/
theorem stake_instruction_keeps {ctx : TxContext} {ix : StakeInstruction} {r r' : StakeRecords}
    {T T' : Accounts TokenAccount} (h : ix.execute ctx r T = .ok (r', T')) :
    (r'.stake_locks = r.stake_locks ∨ r.stake_vault.controller.can_sign = true)
      ∧ r'.stake_vault.controller = r.stake_vault.controller := by
  obtain ⟨hvault, hlocks⟩ := stake_instruction_frame h
  refine ⟨hlocks, ?_⟩
  rw [hvault]

/-- Dispute policy leaves coverage alone and writes a setting at its own address. -/
theorem dispute_policy_keeps {protocol : ProtocolConfig} {deposits : Accounts Deposit}
    {ix : DisputePolicyInstruction} {r r' : DisputeRecords}
    (h : ix.execute protocol deposits r = .ok r') :
    r'.dispute_intents = r.dispute_intents ∧ r'.dispute_nullifiers = r.dispute_nullifiers
      ∧ r'.dispute_config.stake_vault = r.dispute_config.stake_vault
      ∧ (r'.dispute_settings = r.dispute_settings
      ∨ ∃ k enabled, r'.dispute_settings
        = r.dispute_settings.insert (dispute_setting_address k) ⟨k, enabled⟩) := by
  -- the one setting written is the deposit's own; pausing and windows are other records
  cases ix with
  | set_risk_window accounts payment_method seconds =>
    simp only [DisputePolicyInstruction.execute, handle_set_risk_window, bind_eq_ok,
      pure_eq_ok] at h
    obtain ⟨_, -, _, -, _, -, _, -, rfl⟩ := h
    exact ⟨rfl, rfl, rfl, .inl rfl⟩
  | set_dispute_admissions_paused accounts paused =>
    simp only [DisputePolicyInstruction.execute, handle_set_dispute_admissions_paused, bind_eq_ok,
      pure_eq_ok] at h
    obtain ⟨_, -, _, -, rfl⟩ := h
    exact ⟨rfl, rfl, rfl, .inl rfl⟩
  | set_deposit_dispute_protection accounts enabled =>
    simp only [DisputePolicyInstruction.execute, handle_set_deposit_dispute_protection, bind_eq_ok,
      pure_eq_ok] at h
    obtain ⟨_, -, rfl⟩ := h
    exact ⟨rfl, rfl, rfl, .inr ⟨accounts.deposit, enabled, rfl⟩⟩

/-- Every top-level instruction is one move of the records of an intent. -/
theorem lifecycle_move {rt : Runtime} {ctx : TxContext} {before after : List TopLevel}
    {s s' : State} {ix : TopLevel} (h : ix.execute rt ctx before after s = .ok s') :
    LifecycleMove rt ctx after s s' ix := by
  cases ix with
  | ed25519 data =>
    simp only [TopLevel.execute, bind_eq_ok, require_eq_ok, exists_const, pure_eq_ok] at h
    obtain ⟨-, rfl⟩ := h
    exact .idle ⟨rfl, rfl, rfl, rfl, rfl, rfl, .inl rfl, rfl, rfl, .inl rfl, .inl rfl, rfl⟩
  | external tokens =>
    simp only [TopLevel.execute, bind_eq_ok, require_eq_ok, exists_const, pure_eq_ok] at h
    obtain ⟨-, rfl⟩ := h
    exact .idle ⟨rfl, rfl, rfl, rfl, rfl, rfl, .inl rfl, rfl, rfl, .inl rfl, .inl rfl, rfl⟩
  | program ix =>
    cases ix with
    | open_records ix | rate_managers ix | whitelists ix | verifier ix | deposit_config ix =>
      simp only [TopLevel.execute, Instruction.execute, bind_eq_ok, pure_eq_ok] at h
      obtain ⟨_, -, rfl⟩ := h
      exact .idle ⟨rfl, rfl, rfl, rfl, rfl, rfl, .inl rfl, rfl, rfl, .inl rfl, .inl rfl, rfl⟩
    | governance ix =>
      obtain ⟨hframe, hcontroller⟩ := governance_ok h
      refine .idle ⟨rfl, rfl, hframe.intents, hframe.taker_states, hframe.nonce, ?_, .inl ?_, ?_, ?_,
        .inl hframe.stake_locks, ?_, ?_⟩
      · rw [hframe.dispute]
      · rw [hframe.dispute]
      · rw [hframe.verifier]
      · rw [hframe.verifier]
      · rcases hcontroller with hsame | ⟨accounts, rfl⟩
        · exact .inl hsame
        · exact .inr ⟨accounts, rfl⟩
      · rw [hframe.dispute]
    | dispute_policy ix =>
      simp only [TopLevel.execute, Instruction.execute, bind_eq_ok, pure_eq_ok] at h
      obtain ⟨_, h, rfl⟩ := h
      obtain ⟨hcoverage, -, hvault, hsettings⟩ := dispute_policy_keeps h
      exact .idle ⟨rfl, rfl, rfl, rfl, rfl, hcoverage, hsettings, rfl, rfl, .inl rfl, .inl rfl,
        hvault⟩
    -- the two custody groups write their own records, so most of the frame is definitional
    | custody ix =>
      simp only [TopLevel.execute, Instruction.execute, bind_eq_ok, pure_eq_ok, Prod.exists] at h
      obtain ⟨_, _, -, rfl⟩ := h
      exact .idle ⟨rfl, rfl, rfl, rfl, rfl, rfl, .inl rfl, rfl, rfl, .inl rfl, .inl rfl, rfl⟩
    | stake ix =>
      simp only [TopLevel.execute, Instruction.execute, bind_eq_ok, pure_eq_ok, Prod.exists] at h
      obtain ⟨_, _, h, rfl⟩ := h
      obtain ⟨hlocks, hcontroller⟩ := stake_instruction_keeps h
      exact .idle ⟨rfl, rfl, rfl, rfl, rfl, rfl, .inl rfl, rfl, rfl, hlocks, .inl hcontroller, rfl⟩
    | signal_intent accounts args =>
      obtain ⟨_, _, _, _, _, _, hsignaled⟩ := signal_intent_ok h
      exact .signal_intent hsignaled
    | cancel_intent accounts => exact .cancel_intent h
    | prune_expired_intent accounts => exact .prune_expired_intent h
    | prepare_dispute accounts args =>
      obtain ⟨_, _, _, _, _, _, hprepared, hfollows⟩ := prepare_dispute_ok h
      exact .prepare_dispute hprepared hfollows
    | cancel_dispute accounts => exact .cancel_dispute h
    | release_matured_dispute accounts => exact .release_matured_dispute h
    | submit_dispute accounts args => exact .submit_dispute h
    | fulfill_intent accounts args => exact .fulfill_intent h
    | manual_release accounts => exact .manual_release h

/-! ## What a lifecycle instruction leaves alone

The settings and the configuration an admission is decided from are no
lifecycle instruction's to write. -/

/-- The policy records of the components a lifecycle instruction touches. -/
structure PolicyFrame (s s' : State) : Prop where
  dispute_settings : s'.dispute_settings = s.dispute_settings
  risk_windows : s'.risk_windows = s.risk_windows
  dispute_config : s'.dispute_config = s.dispute_config
  controller : s'.stake_vault.controller = s.stake_vault.controller

/-- An intent was closed and its owner's counter lowered. -/
def IntentClosed (s s' : State) : Prop :=
  ∃ k live, live_intent k s = .ok live ∧ s'.intents = s.intents.erase k
    ∧ s'.taker_states = s.taker_states.insert
      (taker_state_address orchestrator_address live.intent.owner)
      { live.taker_state with active_intents := live.taker_state.active_intents - 1 }

/-- Settling closes its intent and leaves the configuration alone. -/
theorem settle_intent_policy {ctx : TxContext} {k : Pubkey} {live : LiveIntent}
    {tokens : SettlementTokenAccounts} {dispute : SettlementDisputeAccounts}
    {remaining_accounts : List AccountInfo} {released : ℕ} {s s' : State}
    (hlive : live_intent k s = .ok live)
    (h : settle_intent ctx k live tokens dispute remaining_accounts released s = .ok s') :
    PolicyFrame s s' ∧ IntentClosed s s' := by
  obtain ⟨s₂, deposit, T, hdispute, -, -, rfl⟩ := settle_intent_ok h
  rcases settle_dispute_ok hdispute with ⟨-, rfl⟩ | ⟨-, -, _, _, _, _, hsettled⟩
  · exact ⟨⟨rfl, rfl, rfl, rfl⟩, k, live, hlive, rfl, rfl⟩
  · have hpost := hsettled.post
    subst hpost
    exact ⟨⟨rfl, rfl, rfl, rfl⟩, k, live, hlive, rfl, rfl⟩

/-- How an instruction writes intents and the counters of their owners, with the policy frame of
those that are not idle: a signal adds an intent, a closing instruction removes one. -/
theorem LifecycleMove.intent_write {rt : Runtime} {ctx : TxContext} {after : List TopLevel}
    {s s' : State} {ix : TopLevel} (h : LifecycleMove rt ctx after s s' ix)
    (hc : CoverageCanonical s.toDisputeRecords) :
    LifecycleFrame ix s s' ∨ PolicyFrame s s'
      ∧ ((s'.intents = s.intents ∧ s'.taker_states = s.taker_states) ∨ IntentClosed s s'
        ∨ ∃ accounts args d d' a i expiry state, ix = .program (.signal_intent accounts args)
          ∧ Signaled rt ctx accounts args s s' d d' a i expiry state) := by
  cases h with
  | idle frame => exact .inl frame
  | signal_intent signaled =>
    refine .inr ⟨?_, .inr (.inr ⟨_, _, _, _, _, _, _, _, rfl, signaled⟩)⟩
    rw [signaled.post]
    exact ⟨rfl, rfl, rfl, rfl⟩
  | cancel_intent ok =>
    obtain ⟨live, _, _, hlive, -, -, -, -, -, rfl⟩ := cancel_intent_ok ok
    exact .inr ⟨⟨rfl, rfl, rfl, rfl⟩, .inr (.inl ⟨_, live, hlive, rfl, rfl⟩)⟩
  | prune_expired_intent ok =>
    obtain ⟨live, _, _, hlive, -, hprune, -, rfl⟩ := prune_expired_intent_ok ok
    rcases prune_dispute_ok hprune with ⟨-, rfl⟩ | ⟨-, _, _, _, _, hcancelled⟩
    · exact .inr ⟨⟨rfl, rfl, rfl, rfl⟩, .inr (.inl ⟨_, live, hlive, rfl, rfl⟩)⟩
    · have hpost := hcancelled.post
      subst hpost
      exact .inr ⟨⟨rfl, rfl, rfl, rfl⟩, .inr (.inl ⟨_, live, hlive, rfl, rfl⟩)⟩
  -- coverage moves without its intent: the intents and the counters stay
  | prepare_dispute prepared follows =>
    rw [prepared.post]
    exact .inr ⟨⟨rfl, rfl, rfl, rfl⟩, .inl ⟨rfl, rfl⟩⟩
  | cancel_dispute ok =>
    obtain ⟨_, _, _, _, _, _, -, -, hcancelled, -⟩ := cancel_dispute_ok hc ok
    rw [hcancelled.post]
    exact .inr ⟨⟨rfl, rfl, rfl, rfl⟩, .inl ⟨rfl, rfl⟩⟩
  | release_matured_dispute ok =>
    obtain ⟨_, _, _, _, -, -, -, -, -, -, -, -, rfl⟩ := release_matured_dispute_ok ok
    exact .inr ⟨⟨rfl, rfl, rfl, rfl⟩, .inl ⟨rfl, rfl⟩⟩
  | submit_dispute ok =>
    obtain ⟨_, _, _, _, _, _, hdisputed, -⟩ := submit_dispute_ok ok
    rw [hdisputed.post]
    exact .inr ⟨⟨rfl, rfl, rfl, rfl⟩, .inl ⟨rfl, rfl⟩⟩
  | fulfill_intent ok =>
    obtain ⟨_, _, hlive, -, -, -, -, hsettle, rfl⟩ := fulfill_intent_ok ok
    obtain ⟨⟨h₁, h₂, h₃, h₄⟩, hclosed⟩ := settle_intent_policy hlive hsettle
    exact .inr ⟨⟨h₁, h₂, h₃, h₄⟩, .inr (.inl hclosed)⟩
  | manual_release ok =>
    obtain ⟨_, hlive, -, -, hsettle⟩ := manual_release_ok ok
    obtain ⟨hframe, hclosed⟩ := settle_intent_policy hlive hsettle
    exact .inr ⟨hframe, .inr (.inl hclosed)⟩

/-- An instruction after which a new intent is live is its signal. -/
theorem LifecycleMove.intent_created {rt : Runtime} {ctx : TxContext} {after : List TopLevel}
    {s s' : State} {ix : TopLevel} (h : LifecycleMove rt ctx after s s' ix)
    (hc : CoverageCanonical s.toDisputeRecords) {k : Pubkey} {i : Intent}
    (hfresh : s.intents.lookup k = none) (hi : s'.intents.lookup k = some i) :
    ∃ accounts args d d' a expiry state, ix = .program (.signal_intent accounts args)
      ∧ Signaled rt ctx accounts args s s' d d' a i expiry state := by
  have hnew : s'.intents ≠ s.intents := by
    intro heq
    rw [heq, hfresh] at hi
    cases hi
  -- of the four ways to write intents, only a signal puts one where none was
  rcases h.intent_write hc with hframe | ⟨-, ⟨hsame, -⟩ | ⟨k', _, -, herase, -⟩
    | ⟨accounts, args, d, d', a, i', expiry, state, hix, hsignaled⟩⟩
  · exact absurd hframe.intents hnew
  · exact absurd hsame hnew
  · rw [herase, Finmap.lookup_erase_ite] at hi
    split_ifs at hi
    rw [hfresh] at hi
    cases hi
  · have hpost := hsignaled.post
    rw [hpost, Finmap.lookup_insert_ite] at hi
    split_ifs at hi with hk
    · cases hi
      exact ⟨accounts, args, d, d', a, expiry, state, hix, hsignaled⟩
    · rw [hfresh] at hi
      cases hi

/-- An intent that stays live stays what it is. -/
theorem LifecycleMove.intent_kept {rt : Runtime} {ctx : TxContext} {after : List TopLevel}
    {s s' : State} {ix : TopLevel} (h : LifecycleMove rt ctx after s s' ix)
    (hc : CoverageCanonical s.toDisputeRecords) {k : Pubkey} {i i' : Intent}
    (hi : s.intents.lookup k = some i) (hi' : s'.intents.lookup k = some i') : i' = i := by
  rcases h.intent_write hc with hframe | ⟨-, ⟨hsame, -⟩ | ⟨k', _, -, herase, -⟩
    | ⟨accounts, args, d, d', a, j, expiry, state, hix, hsignaled⟩⟩
  · rw [hframe.intents, hi] at hi'
    exact (Option.some.inj hi').symm
  · rw [hsame, hi] at hi'
    exact (Option.some.inj hi').symm
  · rw [herase, Finmap.lookup_erase_ite] at hi'
    split_ifs at hi'
    rw [hi] at hi'
    exact (Option.some.inj hi').symm
  -- a signal asks for a fresh address, so it overwrites nothing
  · have hfresh := hsignaled.intent_fresh
    rw [hsignaled.terms.nonce] at hfresh
    rw [hsignaled.post, Finmap.lookup_insert_ite] at hi'
    split_ifs at hi' with hk
    · rw [← hk, hi] at hfresh
      cases hfresh
    · rw [hi] at hi'
      exact (Option.some.inj hi').symm

/-! ## Coverage records

Every write of a coverage record is one step of its state machine, or creates it. -/

/-- One step of the state machine of a coverage record, taken at time `now`. -/
inductive DisputeStep (now : ℤ) : DisputeIntent → DisputeIntent → Prop
  | cancel {d : DisputeIntent} (pending : d.status = .Pending) :
      DisputeStep now d { d with status := .Cancelled }
  | settle {d : DisputeIntent} {released : ℕ} (pending : d.status = .Pending)
      (positive : 0 < released) :
      DisputeStep now d
        { d with
          release_amount := released
          release_eligible_at := now + d.risk_window
          status := .Settled }
  | release {d : DisputeIntent} (settled : d.status = .Settled)
      (matured : d.release_eligible_at ≤ now) : DisputeStep now d { d with status := .Released }
  | dispute {d : DisputeIntent} (settled : d.status = .Settled) :
      DisputeStep now d { d with status := .Disputed }

/-- Coverage keeps its intent through every step of its life. -/
theorem DisputeStep.intent_hash {now : ℤ} {d d' : DisputeIntent} (h : DisputeStep now d d') :
    d'.intent_hash = d.intent_hash := by
  cases h <;> rfl

theorem DisputeStep.dispute_config {now : ℤ} {d d' : DisputeIntent} (h : DisputeStep now d d') :
    d'.dispute_config = d.dispute_config := by
  cases h <;> rfl

/-- A record written at the address it derives keeps the coverage records canonical. -/
theorem CoverageCanonical.insert {r r' : DisputeRecords} (h : CoverageCanonical r) {hash : Bytes 32}
    {d : DisputeIntent}
    (hr : r'.dispute_intents = r.dispute_intents.insert (coverage_of hash) d)
    (hhash : d.intent_hash = hash) (hconfig : d.dispute_config = dispute_config_address) :
    CoverageCanonical r' := by
  intro k d' hd'
  rw [hr, Finmap.lookup_insert_ite] at hd'
  split_ifs at hd' with hk
  · cases hd'
    exact ⟨hhash ▸ hk, hconfig⟩
  · exact h k d' hd'

/-- The record at the coverage address of a hash names that hash. -/
theorem CoverageCanonical.at_hash {r : DisputeRecords} (h : CoverageCanonical r) {hash : Bytes 32}
    {d : DisputeIntent} (hd : r.dispute_intents.lookup (coverage_of hash) = some d) :
    d.intent_hash = hash ∧ d.dispute_config = dispute_config_address := by
  obtain ⟨hkey, hconfig⟩ := h _ _ hd
  injection hkey with _ _ hhash
  exact ⟨hhash.symm, hconfig⟩

/-- No principal changes hands between owners and claimants. -/
structure PrincipalKept (r r' : StakeRecords) : Prop where
  balance_of : ∀ o, r'.balance_of o = r.balance_of o
  total_staked : r'.stake_vault.total_staked = r.stake_vault.total_staked
  claim_of : ∀ b, r'.claim_of b = r.claim_of b
  total_claimable : r'.stake_vault.total_claimable = r.stake_vault.total_claimable

/-- The settled amount of `d` leaves its stake owner's principal for its depositor's claims. -/
structure PrincipalCharged (r r' : StakeRecords) (d : DisputeIntent) : Prop where
  owner : r'.balance_of d.stake_owner + d.release_amount = r.balance_of d.stake_owner
  other_owners : ∀ o, o ≠ d.stake_owner → r'.balance_of o = r.balance_of o
  total_staked : r'.stake_vault.total_staked + d.release_amount = r.stake_vault.total_staked
  depositor : r'.claim_of d.depositor = r.claim_of d.depositor + d.release_amount
  other_claims : ∀ b, b ≠ d.depositor → r'.claim_of b = r.claim_of b
  total_claimable : r'.stake_vault.total_claimable
    = r.stake_vault.total_claimable + d.release_amount

/-- What a step from `d` to `d'` does to principal: a dispute charges, no other step does. -/
def PrincipalStep (r r' : StakeRecords) (d d' : DisputeIntent) : Prop :=
  if d'.status = .Disputed then PrincipalCharged r r' d else PrincipalKept r r'

/-- Writing back a position with the same balance. -/
theorem PrincipalKept.of_position {r r' : StakeRecords} {o : Pubkey} {p p' : StakePosition}
    (hp : r.stake_positions.lookup (position_of o) = some p)
    (hpositions : r'.stake_positions = r.stake_positions.insert (position_of o) p')
    (hbalance : p'.balance = p.balance) (hvault : r'.stake_vault = r.stake_vault)
    (hclaims : r'.claims = r.claims) : PrincipalKept r r' := by
  refine ⟨fun o' => ?_, by rw [hvault], fun b => ?_, by rw [hvault]⟩
  · rw [balance_of_insert hpositions]
    split_ifs with ho
    · rw [← ho, balance_of_some hp, hbalance]
    · rfl
  · unfold StakeRecords.claim_of
    rw [hclaims]

/-- A dispute charges the principal of the coverage's own stake owner. -/
theorem CoverageDisputed.principal {s s' : State} {hash seed nullifier : Bytes 32}
    {d : DisputeIntent} {l : StakeLock} {p p' : StakePosition} {c' : ClaimBalance}
    (h : CoverageDisputed s s' hash seed nullifier d l p p' c') :
    PrincipalCharged s.toStakeRecords s'.toStakeRecords d := by
  obtain ⟨-, -, hbalance, hp'⟩ := StakePosition.resolve_ok h.resolved
  -- found or fresh, the claim ends with the lock's amount more than it had
  have hc' : c'.amount = (init_if_needed s.claims
      (claim_balance_address stake_vault_address d.depositor)).amount + l.amount := by
    have hcredited := h.credited
    simp only [credited_claim, bind_eq_ok, ok_or_eq_ok, Checked.add_eq_some, ite_eq_ok,
      pure_eq_ok] at hcredited
    obtain ⟨_, ⟨-, rfl⟩, ⟨-, rfl⟩ | ⟨-, rfl⟩⟩ := hcredited <;> rfl
  have hpositions : s'.stake_positions = _ := congrArg (·.stake_positions) h.post
  have hclaims : s'.claims = _ := congrArg (·.claims) h.post
  have hvault : s'.stake_vault = _ := congrArg (·.stake_vault) h.post
  refine ⟨?_, fun o ho => ?_, ?_, ?_, fun b hb => ?_, ?_⟩
  · rw [balance_of_insert hpositions, if_pos rfl, balance_of_some h.position, ← h.amount, hp']
    exact Nat.sub_add_cancel hbalance
  · rw [balance_of_insert hpositions, if_neg (Ne.symm ho)]
  · rw [hvault, ← h.amount]
    exact Nat.sub_add_cancel h.staked
  · unfold StakeRecords.claim_of
    rw [hclaims, Finmap.lookup_insert, ← h.amount]
    refine hc'.trans ?_
    unfold init_if_needed
    cases s.claims.lookup (claim_balance_address stake_vault_address d.depositor) <;> rfl
  · unfold StakeRecords.claim_of
    rw [hclaims, Finmap.lookup_insert_of_ne _ ?_]
    -- claim addresses are injective, so no other beneficiary is touched
    intro heq
    injection heq with _ _ heq
    exact hb heq
  · rw [hvault, ← h.amount]

theorem CoveragePrepared.principal {rt : Runtime} {accounts : PrepareDispute}
    {args : PrepareDisputeArgs} {s s' : State} {d : Deposit} {risk : RiskWindow}
    {p p' : StakePosition} (h : CoveragePrepared rt accounts args s s' d risk p p') :
    PrincipalKept s.toStakeRecords s'.toStakeRecords := by
  obtain ⟨-, -, hp'⟩ := StakePosition.lock_ok h.locked
  rw [h.post]
  refine .of_position h.position rfl ?_ rfl rfl
  rw [hp']

/-- The coverage record at one hash takes one step. -/
def CoverageStep (ctx : TxContext) (s s' : State) : Prop :=
  ∃ hash d d', s.dispute_intents.lookup (coverage_of hash) = some d ∧ DisputeStep ctx.now d d'
    ∧ s'.dispute_intents = s.dispute_intents.insert (coverage_of hash) d'
    ∧ PrincipalStep s.toStakeRecords s'.toStakeRecords d d'

theorem CoverageCancelled.coverage_step {ctx : TxContext} {s s₁ s' : State} {hash : Bytes 32}
    {d : DisputeIntent} {l : StakeLock} {p p' : StakePosition}
    (h : CoverageCancelled s s₁ hash d l p p') (hs' : s'.dispute_intents = s₁.dispute_intents)
    (hstake : s'.toStakeRecords = s₁.toStakeRecords) : CoverageStep ctx s s' := by
  obtain ⟨-, hp'⟩ := StakePosition.unlock_ok h.unlocked
  refine ⟨hash, d, _, h.dispute_eq, .cancel h.pending, ?_, ?_⟩
  · rw [hs', h.post]
  · rw [hstake, h.post]
    refine PrincipalKept.of_position h.position rfl ?_ rfl rfl
    rw [hp']

/-- A settlement steps the coverage record of its intent, if there is one. -/
theorem settle_intent_coverage {ctx : TxContext} {k : Pubkey} {live : LiveIntent}
    {tokens : SettlementTokenAccounts} {dispute : SettlementDisputeAccounts}
    {remaining_accounts : List AccountInfo} {released : ℕ} {s s₁ s' : State}
    (h : settle_intent ctx k live tokens dispute remaining_accounts released s = .ok s₁)
    (hs' : s'.dispute_intents = s₁.dispute_intents)
    (hstake : s'.toStakeRecords = s₁.toStakeRecords) :
    s'.dispute_intents = s.dispute_intents ∨ CoverageStep ctx s s' := by
  obtain ⟨s₂, deposit, T, hdispute, -, -, rfl⟩ := settle_intent_ok h
  rcases settle_dispute_ok hdispute with ⟨-, rfl⟩ | ⟨-, -, d, _, _, _, hsettled⟩
  · exact .inl hs'
  · obtain ⟨hp', -⟩ := shrunk_position hsettled.bounded hsettled.shrunk
    have hpost := hsettled.post
    subst hpost
    refine .inr ⟨live.intent.intent_hash, d, _, hsettled.dispute_eq,
      .settle hsettled.pending hsettled.positive, hs', ?_⟩
    rw [hstake]
    refine PrincipalKept.of_position hsettled.position rfl ?_ rfl rfl
    rw [hp']

/-- How an instruction writes coverage records: not at all, by one step of one of them, or by
preparing a new one. -/
theorem LifecycleMove.coverage_write {rt : Runtime} {ctx : TxContext} {after : List TopLevel}
    {s s' : State} {ix : TopLevel} (h : LifecycleMove rt ctx after s s' ix)
    (hc : CoverageCanonical s.toDisputeRecords) :
    s'.dispute_intents = s.dispute_intents ∨ CoverageStep ctx s s'
      ∨ ∃ accounts args d risk p p', ix = .program (.prepare_dispute accounts args)
        ∧ CoveragePrepared rt accounts args s s' d risk p p' := by
  cases h with
  | idle frame => exact .inl frame.dispute_intents
  | signal_intent signaled => exact .inl (by rw [signaled.post])
  | cancel_intent ok =>
    obtain ⟨_, _, _, -, -, -, -, -, -, rfl⟩ := cancel_intent_ok ok
    exact .inl rfl
  | prune_expired_intent ok =>
    obtain ⟨_, _, _, -, -, hprune, -, rfl⟩ := prune_expired_intent_ok ok
    rcases prune_dispute_ok hprune with ⟨-, rfl⟩ | ⟨-, _, _, _, _, hcancelled⟩
    · exact .inl rfl
    · exact .inr (.inl (hcancelled.coverage_step rfl rfl))
  | prepare_dispute prepared follows => exact .inr (.inr ⟨_, _, _, _, _, _, rfl, prepared⟩)
  | cancel_dispute ok =>
    obtain ⟨_, _, _, _, _, _, -, -, hcancelled, -⟩ := cancel_dispute_ok hc ok
    exact .inr (.inl (hcancelled.coverage_step rfl rfl))
  | release_matured_dispute ok =>
    obtain ⟨d, _, _, _, hd, hkey, hsettled, hmatured, -, -, hp, hunlock, hpost⟩ :=
      release_matured_dispute_ok ok
    obtain ⟨-, hp'⟩ := StakePosition.unlock_ok hunlock
    -- the record is found by its own seeds; being canonical, it sits at its hash's address
    rw [(hc _ _ hd).2] at hkey
    rw [hkey] at hd
    refine .inr (.inl ⟨d.intent_hash, d, _, hd, .release hsettled hmatured, ?_, ?_⟩)
    · rw [hpost, hkey]
    · rw [hpost]
      refine PrincipalKept.of_position hp rfl ?_ rfl rfl
      rw [hp']
  | submit_dispute ok =>
    obtain ⟨d, _, _, _, _, _, hdisputed, -⟩ := submit_dispute_ok ok
    refine .inr (.inl ⟨_, d, _, hdisputed.dispute_eq, .dispute hdisputed.settled, ?_,
      hdisputed.principal⟩)
    rw [hdisputed.post]
  | fulfill_intent ok =>
    obtain ⟨_, _, -, -, -, -, -, hsettle, rfl⟩ := fulfill_intent_ok ok
    exact (settle_intent_coverage hsettle rfl rfl).imp id .inl
  | manual_release ok =>
    obtain ⟨_, -, -, -, hsettle⟩ := manual_release_ok ok
    exact (settle_intent_coverage hsettle rfl rfl).imp id .inl

/-- An instruction after which a new coverage record exists is its preparation. -/
theorem LifecycleMove.coverage_created {rt : Runtime} {ctx : TxContext} {after : List TopLevel}
    {s s' : State} {ix : TopLevel} (h : LifecycleMove rt ctx after s s' ix)
    (hc : CoverageCanonical s.toDisputeRecords) {k : Pubkey} {c : DisputeIntent}
    (hfresh : s.dispute_intents.lookup k = none) (hk : s'.dispute_intents.lookup k = some c) :
    ∃ accounts args d risk p p', ix = .program (.prepare_dispute accounts args)
      ∧ CoveragePrepared rt accounts args s s' d risk p p'
      ∧ c = new_dispute_intent accounts args accounts.stake_owner d risk := by
  rcases h.coverage_write hc with hsame | ⟨hash, d, d', hd, -, hwrite, -⟩
    | ⟨accounts, args, d, risk, p, p', hix, hprepared⟩
  · rw [hsame, hfresh] at hk
    cases hk
  · -- a step rewrites a record that was there
    rw [hwrite, Finmap.lookup_insert_ite] at hk
    split_ifs at hk with hkey
    · rw [hkey, hd] at hfresh
      cases hfresh
    · rw [hfresh] at hk
      cases hk
  · have hpost := hprepared.post
    rw [hpost, Finmap.lookup_insert_ite] at hk
    split_ifs at hk with hkey
    · cases hk
      exact ⟨accounts, args, d, risk, p, p', hix, hprepared, rfl⟩
    · rw [hfresh] at hk
      cases hk

/-! ## Records sit at the addresses they derive -/

/-- Dispute settings sit at the address of the deposit they name. -/
def SettingsCanonical (r : DisputeRecords) : Prop :=
  ∀ k setting, r.dispute_settings.lookup k = some setting →
    k = dispute_setting_address setting.deposit

/-- What holds of token accounts and addresses in every state. -/
structure LedgerOk (s : State) : Prop where
  tokens : TokensOk s.tokens
  stake : StakeCanonical s.toStakeRecords
  coverage : CoverageCanonical s.toDisputeRecords
  settings : SettingsCanonical s.toDisputeRecords

/-- The first state is canonical and its token accounts are within range. -/
theorem genesis_ledgerOk {rt : Runtime} {s : State} (h : genesis rt s) : LedgerOk s := by
  obtain ⟨_, _, _, _, _, _, tokens, rfl, htokens⟩ := genesis_ok h
  refine ⟨⟨supply_lt_of_accounts fun k a ha => (htokens k a ha).2, fun k a ha hk => ?_⟩,
    ⟨?_, ?_, ?_⟩, ?_, ?_⟩
  -- before the program has acted there is no account at a derived address
  · rw [(htokens k a ha).1] at hk
    exact absurd hk (by simp)
  all_goals
    intro k d hd
    exact absurd hd (by simp [initial_state])

/-- Every write of a coverage record keeps them canonical. -/
theorem LifecycleMove.canonical {rt : Runtime} {ctx : TxContext} {after : List TopLevel}
    {s s' : State} {ix : TopLevel} (h : LifecycleMove rt ctx after s s' ix)
    (hc : CoverageCanonical s.toDisputeRecords) : CoverageCanonical s'.toDisputeRecords := by
  rcases h.coverage_write hc with hsame | ⟨hash, d, d', hd, hstep, hwrite, -⟩
    | ⟨accounts, args, dep, risk, p, p', -, hprepared⟩
  · intro k d hd
    rw [hsame] at hd
    exact hc k d hd
  · obtain ⟨hhash, hconfig⟩ := hc.at_hash hd
    exact hc.insert hwrite (hstep.intent_hash.trans hhash) (hstep.dispute_config.trans hconfig)
  · have hpost : s'.dispute_intents = _ := congrArg (·.dispute_intents) hprepared.post
    exact hc.insert hpost rfl rfl

/-- Protection settings stay at the addresses of their deposits. -/
theorem LifecycleMove.settings {rt : Runtime} {ctx : TxContext} {after : List TopLevel}
    {s s' : State} {ix : TopLevel} (h : LifecycleMove rt ctx after s s' ix)
    (hc : CoverageCanonical s.toDisputeRecords) (hs : SettingsCanonical s.toDisputeRecords) :
    SettingsCanonical s'.toDisputeRecords := by
  -- only the dispute policy writes a setting, and only at the address it derives
  have hwrite : s'.dispute_settings = s.dispute_settings
      ∨ ∃ k enabled, s'.dispute_settings
        = s.dispute_settings.insert (dispute_setting_address k) ⟨k, enabled⟩ := by
    rcases h.intent_write hc with hframe | ⟨hframe, -⟩
    · exact hframe.dispute_settings
    · exact .inl hframe.dispute_settings
  rcases hwrite with hsame | ⟨k, enabled, hinsert⟩ <;> intro k' setting hsetting
  · rw [hsame] at hsetting
    exact hs k' setting hsetting
  · rw [hinsert, Finmap.lookup_insert_ite] at hsetting
    split_ifs at hsetting with hk
    · cases hsetting
      exact hk
    · exact hs k' setting hsetting

/-- Settlement keeps the token ledger within range: it only transfers. -/
theorem settle_intent_tokensOk {ctx : TxContext} {k : Pubkey} {live : LiveIntent}
    {tokens : SettlementTokenAccounts} {dispute : SettlementDisputeAccounts}
    {remaining_accounts : List AccountInfo} {released : ℕ} {s s' : State}
    (h : settle_intent ctx k live tokens dispute remaining_accounts released s = .ok s')
    (hT : TokensOk s.tokens) : TokensOk s'.tokens := by
  obtain ⟨_, _, _, -, -, hpaid, rfl⟩ := settle_intent_ok h
  exact hpaid.tokensOk hT

theorem execute_tokensOk {rt : Runtime} {ctx : TxContext} {before after : List TopLevel}
    {s s' : State} {ix : TopLevel} (h : ix.execute rt ctx before after s = .ok s')
    (hs : LedgerOk s) : TokensOk s'.tokens := by
  cases ix with
  | ed25519 data =>
    simp only [TopLevel.execute, bind_eq_ok, require_eq_ok, exists_const, pure_eq_ok] at h
    obtain ⟨-, rfl⟩ := h
    exact hs.tokens
  | external tokens =>
    simp only [TopLevel.execute, bind_eq_ok, require_eq_ok, exists_const, pure_eq_ok] at h
    obtain ⟨hext, rfl⟩ := h
    exact external_ok_tokensOk hext hs.tokens
  | program ix =>
    cases ix with
    | open_records ix | rate_managers ix | whitelists ix | verifier ix | deposit_config ix
    | dispute_policy ix =>
      simp only [TopLevel.execute, Instruction.execute, bind_eq_ok, pure_eq_ok] at h
      obtain ⟨_, -, rfl⟩ := h
      exact hs.tokens
    | governance ix => exact (governance_ok h).1.tokens ▸ hs.tokens
    | custody ix =>
      simp only [TopLevel.execute, Instruction.execute, bind_eq_ok, pure_eq_ok, Prod.exists] at h
      obtain ⟨_, _, h, rfl⟩ := h
      exact (custody_tokens hs.tokens h).1
    | stake ix =>
      simp only [TopLevel.execute, Instruction.execute, bind_eq_ok, pure_eq_ok, Prod.exists] at h
      obtain ⟨_, _, h, rfl⟩ := h
      exact (stake_tokens hs.tokens h).1
    -- the instructions about intents and coverage transfer only where they settle
    | signal_intent accounts args =>
      obtain ⟨_, _, _, _, _, _, hsignaled⟩ := signal_intent_ok h
      rw [hsignaled.post]
      exact hs.tokens
    | cancel_intent accounts =>
      obtain ⟨_, _, _, -, -, -, -, -, -, rfl⟩ := cancel_intent_ok h
      exact hs.tokens
    | prune_expired_intent accounts =>
      obtain ⟨_, _, _, -, -, hprune, -, rfl⟩ := prune_expired_intent_ok h
      rcases prune_dispute_ok hprune with ⟨-, rfl⟩ | ⟨-, _, _, _, _, hcancelled⟩
      · exact hs.tokens
      · rw [hcancelled.post]
        exact hs.tokens
    | prepare_dispute accounts args =>
      obtain ⟨_, _, _, _, _, _, hprepared, -⟩ := prepare_dispute_ok h
      rw [hprepared.post]
      exact hs.tokens
    | cancel_dispute accounts =>
      obtain ⟨_, _, _, _, _, _, -, -, hcancelled, -⟩ := cancel_dispute_ok hs.coverage h
      rw [hcancelled.post]
      exact hs.tokens
    | release_matured_dispute accounts =>
      obtain ⟨_, _, _, _, -, -, -, -, -, -, -, -, rfl⟩ := release_matured_dispute_ok h
      exact hs.tokens
    | submit_dispute accounts args =>
      obtain ⟨_, _, _, _, _, _, hdisputed, -⟩ := submit_dispute_ok h
      rw [hdisputed.post]
      exact hs.tokens
    | fulfill_intent accounts args =>
      obtain ⟨_, _, -, -, -, -, -, hsettle, rfl⟩ := fulfill_intent_ok h
      have hsettled := settle_intent_tokensOk hsettle hs.tokens
      exact hsettled
    | manual_release accounts =>
      obtain ⟨_, -, -, -, hsettle⟩ := manual_release_ok h
      exact settle_intent_tokensOk hsettle hs.tokens

/-- Every instruction keeps token accounts and addresses in order. -/
theorem LedgerOk.step {rt : Runtime} {e : Event} (hs : LedgerOk e.pre) (h : e.Valid (step rt)) :
    LedgerOk e.post :=
  ⟨execute_tokensOk h hs, (stake_move hs.tokens hs.stake hs.coverage h).canonical hs.stake,
    (lifecycle_move h).canonical hs.coverage, (lifecycle_move h).settings hs.coverage hs.settings⟩

/-- Every state of a run is canonical and within range, at both ends of each of its events. -/
theorem Run.ledgerOk {rt : Runtime} {es : List Event} {s : State} (h : Run rt es s) :
    LedgerOk s ∧ ∀ e ∈ es, LedgerOk e.pre ∧ LedgerOk e.post :=
  TxMachine.Run.invariant (G := fun _ => True) (fun _ => genesis_ledgerOk)
    (fun e _ hv hs => LedgerOk.step (e := e) hs hv) h fun _ _ => trivial

end Zkp2pSolana
