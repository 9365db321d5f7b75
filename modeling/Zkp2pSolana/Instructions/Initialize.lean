/-
`programs/zkp2p_solana/src/instructions.rs`: `initialize_protocol`.

It creates the eight configuration accounts at once, so it is not a step on a
`State` but what produces the first one, over the records that may already
exist before it (`OpenRecords`) and the token accounts of the cluster.
-/
import Zkp2pSolana.Ledger

set_option autoImplicit false

namespace Zkp2pSolana

open Result Zkp2pError

/-- Accounts of `initialize_protocol`: the executable's upgrade authority, the SlotHashes
sysvar and the mint. -/
structure InitializeProtocol where
  authority : Pubkey
  upgrade_authority : Option Pubkey
  slot_hashes : List UInt8
  stake_mint : Pubkey
  stake_mint_program : Pubkey
  stake_mint_decimals : ℕ

/-- `slot_hashes::MAX_ENTRIES`. -/
def SLOT_HASHES_MAX_ENTRIES : ℕ := 512

/-- The newest entry of the SlotHashes sysvar: a `u64` count, then 40-byte entries. -/
def newest_slot_hash (data : List UInt8) : ProgramResult (ℕ × Bytes 32) := do
  require (8 ≤ data.length) InvalidDeploymentDomain
  let count := of_le_bytes (data.take 8)
  require (0 < count ∧ count ≤ SLOT_HASHES_MAX_ENTRIES) InvalidDeploymentDomain
  require (8 + count * 40 ≤ data.length) InvalidDeploymentDomain
  -- entries are newest first, so the seed is read right behind the count
  let slot := of_le_bytes ((data.drop 8).take 8)
  let hash := Bytes.ofList 32 ((data.drop 16).take 32)
  require (hash ≠ Bytes.zero 32) InvalidDeploymentDomain
  return (slot, hash)

def derive_deployment_domain (rt : Runtime) (program_id : Pubkey) (domain_seed : Bytes 32) :
    Bytes 32 :=
  rt.keccak (DEPLOYMENT_DOMAIN_PREFIX ++ rt.as_ref program_id ++ domain_seed.toList)

/-- The witness loop: each entry is nonzero and differs from the entries before it. -/
def check_witnesses (prior : List (Bytes 20)) : List (Bytes 20) → ProgramResult Unit
  | [] => .ok ()
  | witness :: rest => do
    require (witness ≠ Bytes.zero 20) ZeroAddress
    require (witness ∉ prior) InvalidSignature
    check_witnesses (prior ++ [witness]) rest

/-- The checks `handle_initialize_protocol` makes on its arguments, in its order. -/
def check_initialize_args (args : InitializeProtocolArgs) : ProgramResult Unit := do
  require (args.protocol_fee ≤ MAX_FEE) FeeExceedsMaximum
  require (args.protocol_fee_recipient ≠ Pubkey.default) ZeroAddress
  require (0 < args.intent_expiration_period) ZeroValue
  require (args.intent_expiration_period ≤ MAX_INTENT_LIFETIME_SECONDS) AmountAboveMaximum
  require (0 < args.max_intents_per_deposit) ZeroValue
  require (MIN_CONTROLLER_CHANGE_DELAY_SECONDS ≤ args.controller_change_delay) ControllerNotReady
  require (args.initial_witnesses ≠ []) ZeroValue
  require (args.required_signatures ≤ args.initial_witnesses.length ∧ 0 < args.required_signatures)
    InvalidSignature
  require (args.initial_witnesses.length ≤ MAX_WITNESSES) AmountAboveMaximum
  check_witnesses [] args.initial_witnesses

/-- The accounts `initialize_protocol` writes, over records and token accounts that were
already there. -/
def initial_state (accounts : InitializeProtocol) (args : InitializeProtocolArgs)
    (slot : ℕ) (seed domain : Bytes 32) (records : OpenRecords) (tokens : Accounts TokenAccount) :
    State where
  toOpenRecords := records
  protocol :=
    { authority := accounts.authority
      pending_authority := none
      version := 1
      domain_seed_slot := slot
      domain_seed := seed
      domain_chain_id := domain }
  escrow_config :=
    { protocol := protocol_address
      token_mint := accounts.stake_mint
      dust_recipient := args.protocol_fee_recipient
      dust_threshold := 0
      max_intents_per_deposit := args.max_intents_per_deposit
      intent_expiration_period := args.intent_expiration_period
      next_deposit_id := 0
      paused := false }
  verifier :=
    { protocol := protocol_address
      domain_chain_id := domain
      required_signatures := args.required_signatures
      witnesses := args.initial_witnesses
      payment_methods := [] }
  orchestrator :=
    { protocol := protocol_address
      escrow_config := escrow_config_address
      verifier_config := verifier_address
      domain_chain_id := domain
      protocol_fee := args.protocol_fee
      protocol_fee_recipient := args.protocol_fee_recipient
      lifecycle_policy := .WhitelistAndDispute
      allow_multiple_intents := false
      next_intent_id := 0
      paused := false }
  stake_vault :=
    { protocol := protocol_address
      stake_mint := accounts.stake_mint
      controller := dispute_config_address
      pending_controller := none
      pending_controller_valid_at := 0
      controller_change_delay := args.controller_change_delay
      total_staked := 0
      total_claimable := 0 }
  rate_manager_config := { protocol := protocol_address, next_manager_id := 0 }
  whitelist_config := { protocol := protocol_address, next_group_id := 0 }
  dispute_config :=
    { protocol := protocol_address
      domain_chain_id := domain
      stake_vault := stake_vault_address
      verifier_config := verifier_address
      admissions_paused := false }
  deposits := ∅
  payment_methods := ∅
  currencies := ∅
  intent_locks := ∅
  intents := ∅
  taker_states := ∅
  stake_positions := ∅
  stake_locks := ∅
  claims := ∅
  payment_bindings := ∅
  intent_payment_bindings := ∅
  address_groups := ∅
  group_members := ∅
  deposit_whitelists := ∅
  whitelist_members := ∅
  dispute_intents := ∅
  risk_windows := ∅
  dispute_settings := ∅
  dispute_nullifiers := ∅
  rate_managers := ∅
  rate_entries := ∅
  tokens := tokens

/-- Creates the only supported protocol version. -/
def handle_initialize_protocol (rt : Runtime) (accounts : InitializeProtocol)
    (args : InitializeProtocolArgs) (records : OpenRecords) (tokens : Accounts TokenAccount) :
    ProgramResult State := do
  signer accounts.authority
  require (accounts.upgrade_authority = some accounts.authority) Unauthorized
  let (slot, seed) ← newest_slot_hash accounts.slot_hashes
  let domain := derive_deployment_domain rt program_id seed
  require (domain ≠ Bytes.zero 32) InvalidDeploymentDomain
  require (accounts.stake_mint_program = token_program_id) Unauthorized
  require (accounts.stake_mint_decimals = 6) Unauthorized
  check_initialize_args args
  return initial_state accounts args slot seed domain records tokens

end Zkp2pSolana
