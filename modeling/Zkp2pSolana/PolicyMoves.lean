/-
What an instruction can do to the records that set policy.

Protocol ownership, the escrow settings, the whitelists, the dispute policy and
the payment methods a deposit lists are each written by one group of
instructions, and the nine lifecycle instructions write none of them. One theorem
says so ([`policy_move`]); who may change what, and what a record says because of
whom, is read off it.
-/
import Zkp2pSolana.ConfigMoves
import Zkp2pSolana.EscrowMoves

set_option autoImplicit false

namespace Zkp2pSolana

open Result Zkp2pError

/-- The escrow settings, without the running deposit number. -/
def SameEscrowSettings (c c' : EscrowConfig) : Prop :=
  c' = { c with next_deposit_id := c'.next_deposit_id }

/-- The part of the dispute records that sets policy. -/
structure DisputePolicy where
  dispute_config : DisputeConfig
  risk_windows : Accounts RiskWindow
  dispute_settings : Accounts DepositDisputeSetting

def DisputeRecords.policy (r : DisputeRecords) : DisputePolicy where
  dispute_config := r.dispute_config
  risk_windows := r.risk_windows
  dispute_settings := r.dispute_settings

/-- The root and the mint of the stake vault. -/
def SameVault (v v' : StakeVaultConfig) : Prop :=
  v'.protocol = v.protocol ∧ v'.stake_mint = v.stake_mint

/-- What one top-level instruction writes of the policy records. -/
structure PolicyMove (rt : Runtime) (ctx : TxContext) (ix : TopLevel) (s s' : State) : Prop where
  protocol : s'.protocol = s.protocol
    ∨ (∃ accounts pending, ix = .program (.governance (.propose_protocol_authority accounts pending))
      ∧ handle_propose_protocol_authority accounts pending s = .ok s')
    ∨ ∃ accounts, ix = .program (.governance (.accept_protocol_authority accounts))
      ∧ handle_accept_protocol_authority accounts s = .ok s'
  escrow : SameEscrowSettings s.escrow_config s'.escrow_config
    ∨ ∃ accounts args, ix = .program (.governance (.configure_escrow accounts args))
      ∧ handle_configure_escrow accounts args s = .ok s'
  whitelists : s'.toWhitelistRecords = s.toWhitelistRecords
    ∨ ∃ ix', ix = .program (.whitelists ix')
      ∧ ix'.execute rt ctx s.deposits s.toWhitelistRecords = .ok s'.toWhitelistRecords
  dispute : s'.toDisputeRecords.policy = s.toDisputeRecords.policy
    ∨ ∃ ix', ix = .program (.dispute_policy ix')
      ∧ ix'.execute s.protocol s.deposits s.toDisputeRecords = .ok s'.toDisputeRecords
  listings : (s'.payment_methods = s.payment_methods ∧ s'.currencies = s.currencies)
    ∨ (∃ ix', ix = .program (.deposit_config ix')
      ∧ ix'.execute s.rate_managers s.toEscrowRecords = .ok s'.toEscrowRecords)
    ∨ ∃ ix', ix = .program (.custody ix')
      ∧ ix'.execute s.toEscrowRecords s.tokens = .ok (s'.toEscrowRecords, s'.tokens)
  stake_vault : SameVault s.stake_vault s'.stake_vault

/-- No policy record is written. -/
structure PolicyKept (s s' : State) : Prop where
  protocol : s'.protocol = s.protocol
  escrow : SameEscrowSettings s.escrow_config s'.escrow_config
  whitelists : s'.toWhitelistRecords = s.toWhitelistRecords
  dispute : s'.toDisputeRecords.policy = s.toDisputeRecords.policy
  listings : s'.payment_methods = s.payment_methods ∧ s'.currencies = s.currencies
  stake_vault : SameVault s.stake_vault s'.stake_vault

theorem PolicyKept.move {rt : Runtime} {ctx : TxContext} {ix : TopLevel} {s s' : State}
    (h : PolicyKept s s') : PolicyMove rt ctx ix s s' :=
  ⟨.inl h.protocol, .inl h.escrow, .inl h.whitelists, .inl h.dispute, .inl h.listings,
    h.stake_vault⟩

/-! ## The lifecycle instructions -/

/-- Closing an intent, settling or cancelling coverage and paying out write none of the policy
records. -/
theorem PolicyKept.of_records {s s' : State} {deposits : Accounts Deposit}
    {intent_locks : Accounts EscrowIntentLock} {orchestrator : OrchestratorRecords}
    {stake : StakeRecords} {verifier : VerifierRecords} {dispute_intents : Accounts DisputeIntent}
    {dispute_nullifiers : Accounts DisputeNullifier} {tokens : Accounts TokenAccount}
    (h : s' = { s with
      deposits := deposits
      intent_locks := intent_locks
      toOrchestratorRecords := orchestrator
      toStakeRecords := stake
      toVerifierRecords := verifier
      dispute_intents := dispute_intents
      dispute_nullifiers := dispute_nullifiers
      tokens := tokens })
    (hvault : SameVault s.stake_vault stake.stake_vault) : PolicyKept s s' := by
  subst h
  exact ⟨rfl, rfl, rfl, rfl, ⟨rfl, rfl⟩, hvault⟩

theorem settle_intent_policy_kept {ctx : TxContext} {k : Pubkey} {live : LiveIntent}
    {tokens : SettlementTokenAccounts} {dispute : SettlementDisputeAccounts}
    {remaining_accounts : List AccountInfo} {released : ℕ} {s s' : State}
    (h : settle_intent ctx k live tokens dispute remaining_accounts released s = .ok s') :
    PolicyKept s s' := by
  obtain ⟨s₁, deposit, T, hdispute, -, -, rfl⟩ := settle_intent_ok h
  rcases settle_dispute_ok hdispute with ⟨-, rfl⟩ | ⟨-, -, _, _, _, _, hsettled⟩
  · exact .of_records rfl ⟨rfl, rfl⟩
  · have hpost := hsettled.post
    subst hpost
    exact .of_records rfl ⟨rfl, rfl⟩

theorem prune_expired_intent_policy_kept {ctx : TxContext} {accounts : PruneExpiredIntent}
    {s s' : State} (h : handle_prune_expired_intent ctx accounts s = .ok s') : PolicyKept s s' := by
  obtain ⟨_, s₁, _, -, -, hprune, -, rfl⟩ := prune_expired_intent_ok h
  rcases prune_dispute_ok hprune with ⟨-, rfl⟩ | ⟨-, _, _, _, _, hcancelled⟩
  · exact .of_records rfl ⟨rfl, rfl⟩
  · have hpost := hcancelled.post
    subst hpost
    exact .of_records rfl ⟨rfl, rfl⟩

theorem cancel_dispute_policy_kept {following : Option CancelIntent} {accounts : CancelDispute}
    {s s' : State} (h : handle_cancel_dispute following accounts s = .ok s') : PolicyKept s s' := by
  simp only [handle_cancel_dispute, bind_eq_ok, pure_eq_ok] at h
  obtain ⟨_, -, _, -, _, -, _, -, _, -, _, -, _, -, _, -, _, -, _, -, _, -, _, -, rfl⟩ := h
  exact .of_records rfl ⟨rfl, rfl⟩

/-! ## Governance -/

/-- Governance sets them only through its own instructions. -/
theorem governance_policy {rt : Runtime} {ctx : TxContext} {ix : GovernanceInstruction}
    {s s' : State} (h : ix.execute ctx s = .ok s') :
    PolicyMove rt ctx (.program (.governance ix)) s s' := by
  have hok := h
  cases ix with
  | propose_protocol_authority accounts pending =>
    simp only [GovernanceInstruction.execute, handle_propose_protocol_authority, bind_eq_ok,
      pure_eq_ok] at h
    obtain ⟨_, -, _, -, _, -, _, -, _, -, rfl⟩ := h
    exact ⟨.inr (.inl ⟨accounts, pending, rfl, hok⟩), .inl rfl, .inl rfl, .inl rfl,
      .inl ⟨rfl, rfl⟩, rfl, rfl⟩
  | accept_protocol_authority accounts =>
    simp only [GovernanceInstruction.execute, handle_accept_protocol_authority, bind_eq_ok,
      pure_eq_ok] at h
    obtain ⟨_, -, _, -, rfl⟩ := h
    exact ⟨.inr (.inr ⟨accounts, rfl, hok⟩), .inl rfl, .inl rfl, .inl rfl, .inl ⟨rfl, rfl⟩, rfl, rfl⟩
  | configure_orchestrator accounts args =>
    simp only [GovernanceInstruction.execute, handle_configure_orchestrator, bind_eq_ok,
      pure_eq_ok] at h
    obtain ⟨_, -, _, -, _, -, _, -, _, -, rfl⟩ := h
    exact PolicyKept.move ⟨rfl, rfl, rfl, rfl, ⟨rfl, rfl⟩, rfl, rfl⟩
  | configure_escrow accounts args =>
    simp only [GovernanceInstruction.execute, handle_configure_escrow, bind_eq_ok, pure_eq_ok] at h
    obtain ⟨_, -, _, -, _, -, _, -, _, -, _, -, _, -, rfl⟩ := h
    exact ⟨.inl rfl, .inr ⟨accounts, args, rfl, hok⟩, .inl rfl, .inl rfl, .inl ⟨rfl, rfl⟩, rfl, rfl⟩
  | propose_stake_controller accounts pending =>
    simp only [GovernanceInstruction.execute, handle_propose_stake_controller, bind_eq_ok] at h
    obtain ⟨_, -, _, -, _, -, h⟩ := h
    -- proposing and cancelling write the same slot of the stake vault
    cases pending with
    | none =>
      simp only [bind_eq_ok, pure_eq_ok] at h
      obtain ⟨_, -, rfl⟩ := h
      exact PolicyKept.move ⟨rfl, rfl, rfl, rfl, ⟨rfl, rfl⟩, rfl, rfl⟩
    | some candidate =>
      simp only [bind_eq_ok, pure_eq_ok] at h
      obtain ⟨_, -, _, -, _, -, rfl⟩ := h
      exact PolicyKept.move ⟨rfl, rfl, rfl, rfl, ⟨rfl, rfl⟩, rfl, rfl⟩
  | accept_stake_controller accounts =>
    simp only [GovernanceInstruction.execute, handle_accept_stake_controller, bind_eq_ok,
      pure_eq_ok] at h
    obtain ⟨_, -, _, -, _, -, rfl⟩ := h
    exact PolicyKept.move ⟨rfl, rfl, rfl, rfl, ⟨rfl, rfl⟩, rfl, rfl⟩

/-! ## Every instruction -/

/-- A group that writes the escrow records leaves the settings alone; only a new deposit raises the
running number. -/
theorem custody_settings {ix : CustodyInstruction} {r r' : EscrowRecords}
    {T T' : Accounts TokenAccount} (h : ix.execute r T = .ok (r', T')) :
    SameEscrowSettings r.escrow_config r'.escrow_config := by
  cases custody_write h with
  | opened d m c k km kc next key escrow_config signs currency floor spread records =>
    subst records
    rfl
  | deposit k d d' found terms records =>
    subst records
    rfl
  | closed k records =>
    subst records
    rfl

/-- Configuring a deposit leaves the escrow's settings alone. -/
theorem deposit_config_settings {ix : DepositConfigInstruction} {managers : Accounts RateManager}
    {r r' : EscrowRecords} (h : ix.execute managers r = .ok r') :
    r'.escrow_config = r.escrow_config := by
  cases deposit_config_write h with
  | deposit k d d' found terms counters records =>
    subst records
    rfl
  | payment_method k m records =>
    subst records
    rfl
  | currency k c key floor spread records =>
    subst records
    rfl
  | lock k l expiry found later capped records =>
    subst records
    rfl

/-- Every top-level instruction writes at most the policy records its group owns. -/
theorem policy_move {rt : Runtime} {ctx : TxContext} {before after : List TopLevel} {s s' : State}
    {ix : TopLevel} (h : ix.execute rt ctx before after s = .ok s') :
    PolicyMove rt ctx ix s s' := by
  cases ix with
  | ed25519 data | external tokens =>
    simp only [TopLevel.execute, bind_eq_ok, require_eq_ok, exists_const, pure_eq_ok] at h
    obtain ⟨-, rfl⟩ := h
    exact PolicyKept.move ⟨rfl, rfl, rfl, rfl, ⟨rfl, rfl⟩, rfl, rfl⟩
  | program ix =>
    cases ix with
    | open_records ix | rate_managers ix | verifier ix =>
      simp only [TopLevel.execute, Instruction.execute, bind_eq_ok, pure_eq_ok] at h
      obtain ⟨_, -, rfl⟩ := h
      exact PolicyKept.move ⟨rfl, rfl, rfl, rfl, ⟨rfl, rfl⟩, rfl, rfl⟩
    -- the three groups that own a policy, and governance for the settings
    | whitelists ix =>
      simp only [TopLevel.execute, Instruction.execute, bind_eq_ok, pure_eq_ok] at h
      obtain ⟨_, hok, rfl⟩ := h
      exact ⟨.inl rfl, .inl rfl, .inr ⟨ix, rfl, hok⟩, .inl rfl, .inl ⟨rfl, rfl⟩, rfl, rfl⟩
    | dispute_policy ix =>
      simp only [TopLevel.execute, Instruction.execute, bind_eq_ok, pure_eq_ok] at h
      obtain ⟨_, hok, rfl⟩ := h
      exact ⟨.inl rfl, .inl rfl, .inl rfl, .inr ⟨ix, rfl, hok⟩, .inl ⟨rfl, rfl⟩, rfl, rfl⟩
    | deposit_config ix =>
      simp only [TopLevel.execute, Instruction.execute, bind_eq_ok, pure_eq_ok] at h
      obtain ⟨_, hok, rfl⟩ := h
      refine ⟨.inl rfl, .inl ?_, .inl rfl, .inl rfl, .inr (.inl ⟨ix, rfl, hok⟩), rfl, rfl⟩
      unfold SameEscrowSettings
      rw [deposit_config_settings hok]
    | governance ix => exact governance_policy h
    | custody ix =>
      simp only [TopLevel.execute, Instruction.execute, bind_eq_ok, pure_eq_ok, Prod.exists] at h
      obtain ⟨_, _, hok, rfl⟩ := h
      exact ⟨.inl rfl, .inl (custody_settings hok), .inl rfl, .inl rfl, .inr (.inr ⟨ix, rfl, hok⟩), rfl,
        rfl⟩
    -- from here on nothing sets a policy; of the vault only the totals move
    | stake ix =>
      simp only [TopLevel.execute, Instruction.execute, bind_eq_ok, pure_eq_ok, Prod.exists] at h
      obtain ⟨_, _, hok, rfl⟩ := h
      refine (PolicyKept.of_records rfl ?_).move
      rw [(stake_instruction_frame hok).1]
      exact ⟨rfl, rfl⟩
    | signal_intent accounts args =>
      obtain ⟨_, _, _, _, _, _, hsignaled⟩ := signal_intent_ok h
      exact (PolicyKept.of_records hsignaled.post ⟨rfl, rfl⟩).move
    | cancel_intent accounts =>
      obtain ⟨_, _, _, -, -, -, -, -, -, rfl⟩ := cancel_intent_ok h
      exact (PolicyKept.of_records rfl ⟨rfl, rfl⟩).move
    | prune_expired_intent accounts => exact (prune_expired_intent_policy_kept h).move
    | prepare_dispute accounts args =>
      obtain ⟨_, _, _, _, _, _, hprepared, -⟩ := prepare_dispute_ok h
      exact (PolicyKept.of_records hprepared.post ⟨rfl, rfl⟩).move
    | cancel_dispute accounts => exact (cancel_dispute_policy_kept h).move
    | release_matured_dispute accounts =>
      obtain ⟨_, _, _, _, -, -, -, -, -, -, -, -, hpost⟩ := release_matured_dispute_ok h
      exact (PolicyKept.of_records hpost ⟨rfl, rfl⟩).move
    | submit_dispute accounts args =>
      obtain ⟨_, _, _, _, _, _, hdisputed, -⟩ := submit_dispute_ok h
      exact (PolicyKept.of_records hdisputed.post ⟨rfl, rfl⟩).move
    | fulfill_intent accounts args =>
      obtain ⟨_, _, -, -, -, -, -, hsettle, rfl⟩ := fulfill_intent_ok h
      obtain ⟨hprotocol, hescrow, hwhitelists, hdispute, hlistings, hvault⟩ :=
        settle_intent_policy_kept hsettle
      exact PolicyKept.move ⟨hprotocol, hescrow, hwhitelists, hdispute, hlistings, hvault⟩
    | manual_release accounts =>
      obtain ⟨_, -, -, -, hsettle⟩ := manual_release_ok h
      exact (settle_intent_policy_kept hsettle).move

end Zkp2pSolana
