/-
What an instruction can do to the configuration the lifecycle of an intent rests on.

Five parts of the ledger are each written by one group of instructions only: the
delegation records by the open instructions, the rate managers and the verifier
by theirs, the orchestrator's settings by `configure_orchestrator`, and the stake
vault's controller with the pending handover by the two handover instructions. Whatever
a result says about consent, fees, witnesses, the intent limit or the handover starts from
`config_move` and never opens another group's handler.
-/
import Zkp2pSolana.LifecycleSteps

set_option autoImplicit false

namespace Zkp2pSolana

open Result Zkp2pError

/-- The controller of the stake vault and the handover that may be pending. -/
structure Handover where
  controller : Pubkey
  pending_controller : Option Pubkey
  pending_controller_valid_at : ℤ
  controller_change_delay : ℤ

def StakeVaultConfig.handover (v : StakeVaultConfig) : Handover where
  controller := v.controller
  pending_controller := v.pending_controller
  pending_controller_valid_at := v.pending_controller_valid_at
  controller_change_delay := v.controller_change_delay

/-- The settings of the orchestrator are the same; its counter may have moved. -/
def SameSettings (o o' : OrchestratorConfig) : Prop :=
  o' = { o with next_intent_id := o'.next_intent_id }

theorem SameSettings.refl (o : OrchestratorConfig) : SameSettings o o := rfl

/-- What one top-level instruction does to each of the five parts. -/
structure ConfigMove (rt : Runtime) (ctx : TxContext) (ix : TopLevel) (s s' : State) : Prop where
  open_records : s'.toOpenRecords = s.toOpenRecords
    ∨ ∃ ix', ix = .program (.open_records ix')
      ∧ ix'.execute ctx s.toOpenRecords = .ok s'.toOpenRecords
  rate_managers : s'.toRateManagerRecords = s.toRateManagerRecords
    ∨ ∃ ix', ix = .program (.rate_managers ix')
      ∧ ix'.execute rt s.toRateManagerRecords = .ok s'.toRateManagerRecords
  verifier : s'.verifier = s.verifier ∨ ∃ ix', ix = .program (.verifier ix')
    ∧ ix'.execute s.protocol s.verifier = .ok s'.verifier
  orchestrator : SameSettings s.orchestrator s'.orchestrator
    ∨ ∃ accounts args, ix = .program (.governance (.configure_orchestrator accounts args))
      ∧ handle_configure_orchestrator accounts args s = .ok s'
  handover : s'.stake_vault.handover = s.stake_vault.handover
    ∨ (∃ accounts pending, ix = .program (.governance (.propose_stake_controller accounts pending))
      ∧ handle_propose_stake_controller ctx accounts pending s = .ok s')
    ∨ ∃ accounts, ix = .program (.governance (.accept_stake_controller accounts))
      ∧ handle_accept_stake_controller ctx accounts s = .ok s'

/-- The five parts are as they were. -/
structure ConfigKept (s s' : State) : Prop where
  open_records : s'.toOpenRecords = s.toOpenRecords
  rate_managers : s'.toRateManagerRecords = s.toRateManagerRecords
  verifier : s'.verifier = s.verifier
  orchestrator : SameSettings s.orchestrator s'.orchestrator
  handover : s'.stake_vault.handover = s.stake_vault.handover

theorem ConfigKept.move {rt : Runtime} {ctx : TxContext} {ix : TopLevel} {s s' : State}
    (h : ConfigKept s s') : ConfigMove rt ctx ix s s' :=
  ⟨.inl h.open_records, .inl h.rate_managers, .inl h.verifier, .inl h.orchestrator, .inl h.handover⟩

theorem ConfigKept.refl (s : State) : ConfigKept s s := ⟨rfl, rfl, rfl, rfl, rfl⟩

/-! ## The lifecycle instructions keep all of them -/

/-- Settlement reads the configuration and writes none of it. -/
theorem settle_intent_config {ctx : TxContext} {k : Pubkey} {live : LiveIntent}
    {tokens : SettlementTokenAccounts} {dispute : SettlementDisputeAccounts}
    {remaining_accounts : List AccountInfo} {released : ℕ} {s s' : State}
    (h : settle_intent ctx k live tokens dispute remaining_accounts released s = .ok s') :
    ConfigKept s s' := by
  obtain ⟨s₂, deposit, T, hdispute, -, -, rfl⟩ := settle_intent_ok h
  rcases settle_dispute_ok hdispute with ⟨-, rfl⟩ | ⟨-, -, _, _, _, _, hsettled⟩
  · exact ⟨rfl, rfl, rfl, rfl, rfl⟩
  · have hpost := hsettled.post
    subst hpost
    exact ⟨rfl, rfl, rfl, rfl, rfl⟩

/-- A signal moves the orchestrator's counter and none of its settings. -/
theorem signal_intent_config {rt : Runtime} {ctx : TxContext} {ed25519 : List (List UInt8)}
    {accounts : SignalIntent} {args : SignalIntentArgs} {s s' : State}
    (h : handle_signal_intent rt ctx ed25519 accounts args s = .ok s') : ConfigKept s s' := by
  obtain ⟨_, _, _, _, _, _, hsignaled⟩ := signal_intent_ok h
  rw [hsignaled.post]
  exact ⟨rfl, rfl, rfl, rfl, rfl⟩

/-- Pruning keeps the configuration, also where it cancels coverage. -/
theorem prune_expired_intent_config {ctx : TxContext} {accounts : PruneExpiredIntent}
    {s s' : State} (h : handle_prune_expired_intent ctx accounts s = .ok s') : ConfigKept s s' := by
  obtain ⟨_, _, _, -, -, hprune, -, rfl⟩ := prune_expired_intent_ok h
  rcases prune_dispute_ok hprune with ⟨-, rfl⟩ | ⟨-, _, _, _, _, hcancelled⟩
  · exact ⟨rfl, rfl, rfl, rfl, rfl⟩
  · have hpost := hcancelled.post
    subst hpost
    exact ⟨rfl, rfl, rfl, rfl, rfl⟩

/-- Preparing coverage keeps the configuration. -/
theorem prepare_dispute_config {rt : Runtime} {following : Option (SignalIntent × SignalIntentArgs)}
    {accounts : PrepareDispute} {args : PrepareDisputeArgs} {s s' : State}
    (h : handle_prepare_dispute rt following accounts args s = .ok s') : ConfigKept s s' := by
  obtain ⟨_, _, _, _, _, _, hprepared, -⟩ := prepare_dispute_ok h
  rw [hprepared.post]
  exact ⟨rfl, rfl, rfl, rfl, rfl⟩

theorem cancel_dispute_config {following : Option CancelIntent} {accounts : CancelDispute}
    {s s' : State} (h : handle_cancel_dispute following accounts s = .ok s') : ConfigKept s s' := by
  simp only [handle_cancel_dispute, bind_eq_ok, pure_eq_ok] at h
  obtain ⟨_, -, _, -, _, -, _, -, _, -, _, -, _, -, _, -, _, -, _, -, _, -, _, -, rfl⟩ := h
  exact ⟨rfl, rfl, rfl, rfl, rfl⟩

/-- A dispute moves the vault's totals and not its controller. -/
theorem submit_dispute_config {rt : Runtime} {accounts : SubmitDispute} {args : SubmitDisputeArgs}
    {s s' : State} (h : handle_submit_dispute rt accounts args s = .ok s') : ConfigKept s s' := by
  obtain ⟨_, _, _, _, _, _, hdisputed, -⟩ := submit_dispute_ok h
  rw [hdisputed.post]
  exact ⟨rfl, rfl, rfl, rfl, rfl⟩

/-! ## The other groups -/

/-- No instruction of `stake.rs` touches the handover of the vault. -/
theorem stake_instruction_handover {ctx : TxContext} {ix : StakeInstruction} {r r' : StakeRecords}
    {T T' : Accounts TokenAccount} (h : ix.execute ctx r T = .ok (r', T')) :
    r'.stake_vault.handover = r.stake_vault.handover := by
  rw [(stake_instruction_frame h).1]
  rfl

/-- Of the governance instructions, only two touch the handover and only one the orchestrator's
settings. -/
theorem governance_config {rt : Runtime} {ctx : TxContext} {ix : GovernanceInstruction}
    {s s' : State} (h : ix.execute ctx s = .ok s') :
    ConfigMove rt ctx (.program (.governance ix)) s s' := by
  have hok := h
  cases governance_write h with
  | protocol _ p post | escrow accounts args e post =>
    subst post
    exact ConfigKept.move ⟨rfl, rfl, rfl, rfl, rfl⟩
  | orchestrator accounts args o nonce post =>
    subst post
    exact ⟨.inl rfl, .inl rfl, .inl rfl, .inr ⟨accounts, args, rfl, hok⟩, .inl rfl⟩
  | proposed accounts pending candidate valid_at post =>
    subst post
    exact ⟨.inl rfl, .inl rfl, .inl rfl, .inl rfl, .inr (.inl ⟨accounts, pending, rfl, hok⟩)⟩
  | accepted accounts post =>
    subst post
    exact ⟨.inl rfl, .inl rfl, .inl rfl, .inl rfl, .inr (.inr ⟨accounts, rfl, hok⟩)⟩

/-- Every top-level instruction writes at most the part its group owns. -/
theorem config_move {rt : Runtime} {ctx : TxContext} {before after : List TopLevel} {s s' : State}
    {ix : TopLevel} (h : ix.execute rt ctx before after s = .ok s') :
    ConfigMove rt ctx ix s s' := by
  cases ix with
  | ed25519 data =>
    simp only [TopLevel.execute, bind_eq_ok, require_eq_ok, exists_const, pure_eq_ok] at h
    obtain ⟨-, rfl⟩ := h
    exact (ConfigKept.refl s).move
  | external tokens =>
    simp only [TopLevel.execute, bind_eq_ok, require_eq_ok, exists_const, pure_eq_ok] at h
    obtain ⟨-, rfl⟩ := h
    exact ConfigKept.move ⟨rfl, rfl, rfl, rfl, rfl⟩
  | program ix =>
    cases ix with
    -- three groups of instructions own one part each; governance owns the other two
    | open_records ix =>
      simp only [TopLevel.execute, Instruction.execute, bind_eq_ok, pure_eq_ok] at h
      obtain ⟨_, hok, rfl⟩ := h
      exact ⟨.inr ⟨ix, rfl, hok⟩, .inl rfl, .inl rfl, .inl rfl, .inl rfl⟩
    | rate_managers ix =>
      simp only [TopLevel.execute, Instruction.execute, bind_eq_ok, pure_eq_ok] at h
      obtain ⟨_, hok, rfl⟩ := h
      exact ⟨.inl rfl, .inr ⟨ix, rfl, hok⟩, .inl rfl, .inl rfl, .inl rfl⟩
    | verifier ix =>
      simp only [TopLevel.execute, Instruction.execute, bind_eq_ok, pure_eq_ok] at h
      obtain ⟨_, hok, rfl⟩ := h
      exact ⟨.inl rfl, .inl rfl, .inr ⟨ix, rfl, hok⟩, .inl rfl, .inl rfl⟩
    | whitelists ix | deposit_config ix | dispute_policy ix =>
      simp only [TopLevel.execute, Instruction.execute, bind_eq_ok, pure_eq_ok] at h
      obtain ⟨_, -, rfl⟩ := h
      exact ConfigKept.move ⟨rfl, rfl, rfl, rfl, rfl⟩
    | governance ix => exact governance_config h
    | custody ix =>
      simp only [TopLevel.execute, Instruction.execute, bind_eq_ok, pure_eq_ok, Prod.exists] at h
      obtain ⟨_, _, -, rfl⟩ := h
      exact ConfigKept.move ⟨rfl, rfl, rfl, rfl, rfl⟩
    -- the vault's record is written for its totals, and its handover is carried along
    | stake ix =>
      simp only [TopLevel.execute, Instruction.execute, bind_eq_ok, pure_eq_ok, Prod.exists] at h
      obtain ⟨_, _, hok, rfl⟩ := h
      exact ConfigKept.move ⟨rfl, rfl, rfl, rfl, stake_instruction_handover hok⟩
    | signal_intent accounts args => exact (signal_intent_config h).move
    | cancel_intent accounts =>
      obtain ⟨_, _, _, -, -, -, -, -, -, rfl⟩ := cancel_intent_ok h
      exact ConfigKept.move ⟨rfl, rfl, rfl, rfl, rfl⟩
    | prune_expired_intent accounts => exact (prune_expired_intent_config h).move
    | prepare_dispute accounts args => exact (prepare_dispute_config h).move
    | cancel_dispute accounts => exact (cancel_dispute_config h).move
    | release_matured_dispute accounts =>
      obtain ⟨_, _, _, _, -, -, -, -, -, -, -, -, rfl⟩ := release_matured_dispute_ok h
      exact ConfigKept.move ⟨rfl, rfl, rfl, rfl, rfl⟩
    | submit_dispute accounts args => exact (submit_dispute_config h).move
    | fulfill_intent accounts args =>
      obtain ⟨_, _, -, -, -, -, -, hsettle, rfl⟩ := fulfill_intent_ok h
      obtain ⟨hopen, hmanagers, hverifier, hsettings, hhandover⟩ := settle_intent_config hsettle
      exact ConfigKept.move ⟨hopen, hmanagers, hverifier, hsettings, hhandover⟩
    | manual_release accounts =>
      obtain ⟨_, -, -, -, hsettle⟩ := manual_release_ok h
      exact (settle_intent_config hsettle).move

end Zkp2pSolana
