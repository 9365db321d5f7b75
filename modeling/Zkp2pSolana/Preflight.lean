/-
`deployment/src/lib.rs`: the deployment plan, and its check before any transaction
is built.

`validate` repeats the argument checks of `initialize_protocol` in another order
and with other bounds and errors, and besides asks that the two keys that become
accounts of the instruction are nonzero. The program's account checks (signer,
upgrade authority, slot hash, mint) are not its business. The two validators
accept the same arguments: a plan that passes fails on chain only for its
accounts, and a plan the program would accept is not refused.
-/
import Zkp2pSolana.Genesis

set_option autoImplicit false

namespace Zkp2pSolana

open Result

/-! ## The plan -/

/-- All public inputs that become canonical protocol configuration. -/
structure DeploymentConfig where
  authority : Pubkey
  stake_mint : Pubkey
  protocol_fee : ℕ
  protocol_fee_recipient : Pubkey
  intent_expiration_period : ℤ
  max_intents_per_deposit : ℕ
  controller_change_delay : ℤ
  initial_witnesses : List (Bytes 20)
  required_signatures : ℕ

/-- The loop of `validate` over the witnesses. -/
def validate_witnesses (earlier : List (Bytes 20)) : List (Bytes 20) → Except String Unit
  | [] => .ok ()
  | witness :: rest => do
    require (witness ≠ Bytes.zero 20) "witnesses must be nonzero"
    require (witness ∉ earlier) "witnesses must be unique"
    validate_witnesses (earlier ++ [witness]) rest

/-- Off-chain validation before any transaction can be built. -/
def DeploymentConfig.validate (self : DeploymentConfig) : Except String Unit := do
  require (¬ (self.authority = Pubkey.default ∨ self.stake_mint = Pubkey.default
      ∨ self.protocol_fee_recipient = Pubkey.default))
    "authority, stake mint, and fee recipient must be nonzero"
  require (¬ MAX_FEE < self.protocol_fee) "protocol fee exceeds the immutable 5% ceiling"
  require (¬ (self.intent_expiration_period ≤ 0
      ∨ MAX_INTENT_LIFETIME_SECONDS < self.intent_expiration_period))
    "intent expiration must be in 1..=5 days"
  require (¬ self.max_intents_per_deposit = 0) "maximum intents per deposit must be nonzero"
  require (¬ self.controller_change_delay < MIN_CONTROLLER_CHANGE_DELAY_SECONDS)
    "controller change delay must be at least one day"
  require (¬ (self.initial_witnesses = [] ∨ MAX_WITNESSES < self.initial_witnesses.length))
    "initial witness count must be in 1..=2"
  require (¬ (self.required_signatures = 0
      ∨ self.initial_witnesses.length < self.required_signatures))
    "signature threshold must be in 1..=witness count"
  validate_witnesses [] self.initial_witnesses

/-! ## The instruction -/

/-- Canonical latest-stack PDA topology. -/
structure Topology where
  protocol : Pubkey
  escrow_config : Pubkey
  verifier_config : Pubkey
  orchestrator_config : Pubkey
  stake_vault_config : Pubkey
  rate_manager_config : Pubkey
  whitelist_config : Pubkey
  dispute_config : Pubkey

/-- Derives every canonical component without reading cluster state. -/
def Topology.derive : Topology where
  protocol := .pda .protocol
  escrow_config := .pda .escrow_config
  verifier_config := .pda .verifier_config
  orchestrator_config := .pda .orchestrator_config
  stake_vault_config := .pda .stake_vault_config
  rate_manager_config := .pda .rate_manager_config
  whitelist_config := .pda .whitelist_config
  dispute_config := .pda .dispute_config

/-- The initialization instruction. The program data account, the slot hashes and the system program
are fixed addresses; `InitializeProtocol` has what is loaded from them. -/
structure InitializeInstruction where
  program_id : Pubkey
  authority : Pubkey
  stake_mint : Pubkey
  topology : Topology
  args : InitializeProtocolArgs

/-- The arguments `initialize_instruction` copies from the plan. -/
def DeploymentConfig.initialize_args (self : DeploymentConfig) : InitializeProtocolArgs where
  protocol_fee := self.protocol_fee
  protocol_fee_recipient := self.protocol_fee_recipient
  intent_expiration_period := self.intent_expiration_period
  max_intents_per_deposit := self.max_intents_per_deposit
  controller_change_delay := self.controller_change_delay
  initial_witnesses := self.initial_witnesses
  required_signatures := self.required_signatures

/-- Builds the one latest-stack initialization instruction. -/
def DeploymentConfig.initialize_instruction (self : DeploymentConfig) :
    Except String InitializeInstruction := do
  self.validate
  return {
    program_id := program_id
    authority := self.authority
    stake_mint := self.stake_mint
    topology := Topology.derive
    args := self.initialize_args }

/-! ## The two validators -/

/-- The deployment tool's own loop over the witnesses accepts the same lists as the program's. -/
theorem validate_witnesses_eq_ok {ws : List (Bytes 20)} {u : Unit} :
    validate_witnesses [] ws = .ok u ↔ (∀ w ∈ ws, w ≠ Bytes.zero 20) ∧ ws.Nodup := by
  cases u
  rw [witness_loop_iff (fun _ => rfl), Fresh.nil_iff]
  intro prior w rest
  simp only [validate_witnesses, bind_eq_ok, require_eq_ok, exists_const]

/-- `validate` says what the program will ask of the arguments, and two things more: that the
authority and the mint were filled in. -/
theorem validate_eq_ok {config : DeploymentConfig} {u : Unit} :
    config.validate = .ok u ↔ config.authority ≠ Pubkey.default
      ∧ config.stake_mint ≠ Pubkey.default ∧ InitializeArgsOk config.initialize_args := by
  simp only [DeploymentConfig.validate, bind_eq_ok, require_eq_ok, exists_const,
    validate_witnesses_eq_ok, not_or, Nat.not_lt, Int.not_lt, Int.not_le]
  constructor
  · rintro ⟨⟨hauthority, hmint, hrecipient⟩, hfee, ⟨hpositive, hcapped⟩, hmax, hdelay, ⟨-, hbounded⟩,
      ⟨hthreshold, hmet⟩, hnonzero, hdistinct⟩
    exact ⟨hauthority, hmint, hfee, hrecipient, hpositive, hcapped, Nat.pos_of_ne_zero hmax, hdelay,
      Nat.pos_of_ne_zero hthreshold, hmet, hbounded, hnonzero, hdistinct⟩
  · rintro ⟨hauthority, hmint, h⟩
    exact ⟨⟨hauthority, hmint, h.protocol_fee_recipient⟩, h.protocol_fee,
      ⟨h.expiration_positive, h.expiration_capped⟩, Nat.ne_of_gt h.max_intents_per_deposit,
      h.controller_change_delay, ⟨h.witnesses_ne_nil, h.witnesses_bounded⟩,
      ⟨Nat.ne_of_gt h.threshold_positive, h.threshold_met⟩, h.witnesses_nonzero,
      h.witnesses_distinct⟩

/-- The preflight accepts a plan exactly if its two accounts are nonzero and the program's argument
checks pass on the instruction it builds. The instruction is then built with these arguments, and
on accounts of the plan that the program accepts it succeeds exactly if the preflight does. -/
theorem preflight_agrees (config : DeploymentConfig) :
    (config.validate = .ok ()
        ↔ config.authority ≠ Pubkey.default ∧ config.stake_mint ≠ Pubkey.default
          ∧ check_initialize_args config.initialize_args = .ok ())
      ∧ (∀ ix, config.initialize_instruction = .ok ix
        ↔ config.validate = .ok ()
          ∧ ix = ⟨program_id, config.authority, config.stake_mint, Topology.derive,
            config.initialize_args⟩)
      ∧ ∀ rt accounts slot seed records tokens, InitializeAccountsOk rt accounts slot seed →
        accounts.authority = config.authority → accounts.stake_mint = config.stake_mint →
        config.stake_mint ≠ Pubkey.default →
        ((∃ s, handle_initialize_protocol rt accounts config.initialize_args records tokens = .ok s)
          ↔ config.validate = .ok ()) := by
  refine ⟨?_, ?_, ?_⟩
  · rw [validate_eq_ok, check_initialize_args_eq_ok]
  · intro ix
    simp only [DeploymentConfig.initialize_instruction, bind_eq_ok, pure_eq_ok]
    constructor
    · rintro ⟨⟨⟩, hvalid, rfl⟩
      exact ⟨hvalid, rfl⟩
    · rintro ⟨hvalid, rfl⟩
      exact ⟨(), hvalid, rfl⟩
  · intro rt accounts slot seed records tokens haccounts hauthority hmint hnonzero
    rw [validate_eq_ok]
    constructor
    · rintro ⟨s, hs⟩
      obtain ⟨hargs, -⟩ := initialize_protocol_eq_ok.mp hs
      -- the zero key cannot sign
      have hsigner : config.authority ≠ Pubkey.default := by
        intro hzero
        have hsign := haccounts.authority
        rw [hauthority, hzero] at hsign
        exact absurd hsign (by decide)
      exact ⟨hsigner, hnonzero, hargs⟩
    · rintro ⟨-, -, hargs⟩
      exact ⟨_, initialize_protocol_eq_ok.mpr ⟨hargs, slot, seed, haccounts, rfl⟩⟩

/-- The plan the sample cluster was deployed with. -/
def sample_plan : DeploymentConfig where
  authority := sample_authority
  stake_mint := sample_mint
  protocol_fee := 0
  protocol_fee_recipient := sample_depositor
  intent_expiration_period := 3600
  max_intents_per_deposit := 10
  controller_change_delay := 86400
  initial_witnesses := [Bytes.ofList 20 (sample_public_key_hash.toList.drop 12)]
  required_signatures := 1

/-- The accounts `initialize_protocol` is given on the sample cluster. -/
def sample_initialize_accounts : InitializeProtocol where
  authority := sample_authority
  upgrade_authority := some sample_authority
  slot_hashes := le_bytes 8 1 ++ le_bytes 8 5 ++ (sample_word 9).toList
  stake_mint := sample_mint
  stake_mint_program := token_program_id
  stake_mint_decimals := 6

/-- On the sample cluster the sample plan passes and is accepted; with a threshold above the number of
its witnesses it does neither. -/
theorem preflight_agrees_sample :
    (∃ s, handle_initialize_protocol sample_runtime sample_initialize_accounts
        sample_plan.initialize_args ⟨∅, ∅, ∅⟩ sample_tokens = .ok s)
      ∧ ¬ ∃ s, handle_initialize_protocol sample_runtime sample_initialize_accounts
        { sample_plan with required_signatures := 2 }.initialize_args ⟨∅, ∅, ∅⟩ sample_tokens
          = .ok s := by
  have haccounts : InitializeAccountsOk sample_runtime sample_initialize_accounts 5 (sample_word 9) :=
    ⟨by decide, rfl, by decide, by decide, rfl, rfl⟩
  have hmint : sample_mint ≠ Pubkey.default := by decide
  constructor
  · refine ((preflight_agrees sample_plan).2.2 sample_runtime sample_initialize_accounts 5
      (sample_word 9) ⟨∅, ∅, ∅⟩ sample_tokens haccounts rfl rfl hmint).mpr ?_
    decide
  · rw [(preflight_agrees { sample_plan with required_signatures := 2 }).2.2 sample_runtime
      sample_initialize_accounts 5 (sample_word 9) ⟨∅, ∅, ∅⟩ sample_tokens haccounts rfl rfl hmint]
    decide

end Zkp2pSolana
