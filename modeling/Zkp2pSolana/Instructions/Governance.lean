/-
`programs/zkp2p_solana/src/instructions/governance.rs`: protocol ownership,
component parameters and the delayed stake-controller handover.

An optional argument that is absent leaves its field as it was; the checks are
made in the order of the source and no write survives a failed one.
-/
import Zkp2pSolana.Ledger

set_option autoImplicit false

namespace Zkp2pSolana

open Result Zkp2pError

/-! ## Protocol ownership -/

structure ProposeProtocolAuthority where
  authority : Pubkey

/-- Sets a nonzero pending authority, or cancels the current proposal with `none`. -/
def handle_propose_protocol_authority (accounts : ProposeProtocolAuthority)
    (pending : Option Pubkey) (s : State) : ProgramResult State := do
  signer accounts.authority
  require (accounts.authority = s.protocol.authority) AnchorError.ConstraintAddress
  require (∀ candidate ∈ pending, candidate ≠ Pubkey.default) ZeroAddress
  require (∀ candidate ∈ pending, candidate ≠ s.protocol.authority) AlreadyInState
  require (s.protocol.pending_authority ≠ pending) AlreadyInState
  return { s with protocol := { s.protocol with pending_authority := pending } }

structure AcceptProtocolAuthority where
  pending_authority : Pubkey

/-- Completes a two-step protocol ownership transfer. -/
def handle_accept_protocol_authority (accounts : AcceptProtocolAuthority) (s : State) :
    ProgramResult State := do
  signer accounts.pending_authority
  require (s.protocol.pending_authority = some accounts.pending_authority) Unauthorized
  return { s with protocol := { s.protocol with
    authority := accounts.pending_authority
    pending_authority := none } }

/-! ## Component parameters -/

structure ConfigureOrchestratorArgs where
  protocol_fee : Option ℕ
  protocol_fee_recipient : Option Pubkey
  lifecycle_policy : Option LifecyclePolicy
  allow_multiple_intents : Option Bool
  paused : Option Bool

structure ConfigureOrchestrator where
  authority : Pubkey

/-- Applies bounded orchestrator settings without altering already-snapshotted intents. -/
def handle_configure_orchestrator (accounts : ConfigureOrchestrator)
    (args : ConfigureOrchestratorArgs) (s : State) : ProgramResult State := do
  signer accounts.authority
  require (accounts.authority = s.protocol.authority) AnchorError.ConstraintAddress
  require (s.orchestrator.protocol = protocol_address) Unauthorized
  require (∀ fee ∈ args.protocol_fee, fee ≤ MAX_FEE) FeeExceedsMaximum
  require (∀ recipient ∈ args.protocol_fee_recipient, recipient ≠ Pubkey.default) ZeroAddress
  return { s with orchestrator := { s.orchestrator with
    protocol_fee := args.protocol_fee.getD s.orchestrator.protocol_fee
    protocol_fee_recipient :=
      args.protocol_fee_recipient.getD s.orchestrator.protocol_fee_recipient
    lifecycle_policy := args.lifecycle_policy.getD s.orchestrator.lifecycle_policy
    allow_multiple_intents :=
      args.allow_multiple_intents.getD s.orchestrator.allow_multiple_intents
    paused := args.paused.getD s.orchestrator.paused } }

structure ConfigureEscrowArgs where
  dust_recipient : Option Pubkey
  dust_threshold : Option ℕ
  max_intents_per_deposit : Option ℕ
  intent_expiration_period : Option ℤ
  paused : Option Bool

structure ConfigureEscrow where
  authority : Pubkey

/-- Applies bounded escrow settings without mutating live lock snapshots. -/
def handle_configure_escrow (accounts : ConfigureEscrow) (args : ConfigureEscrowArgs) (s : State) :
    ProgramResult State := do
  signer accounts.authority
  require (accounts.authority = s.protocol.authority) AnchorError.ConstraintAddress
  require (s.escrow_config.protocol = protocol_address) Unauthorized
  require (∀ recipient ∈ args.dust_recipient, recipient ≠ Pubkey.default) ZeroAddress
  require (∀ maximum ∈ args.max_intents_per_deposit, 0 < maximum) ZeroValue
  require (∀ expiry ∈ args.intent_expiration_period, 0 < expiry) ZeroValue
  require (∀ expiry ∈ args.intent_expiration_period, expiry ≤ MAX_INTENT_LIFETIME_SECONDS)
    AmountAboveMaximum
  return { s with escrow_config := { s.escrow_config with
    dust_recipient := args.dust_recipient.getD s.escrow_config.dust_recipient
    dust_threshold := args.dust_threshold.getD s.escrow_config.dust_threshold
    max_intents_per_deposit :=
      args.max_intents_per_deposit.getD s.escrow_config.max_intents_per_deposit
    intent_expiration_period :=
      args.intent_expiration_period.getD s.escrow_config.intent_expiration_period
    paused := args.paused.getD s.escrow_config.paused } }

/-! ## Stake-controller handover -/

structure ProposeStakeController where
  authority : Pubkey

/-- Starts a delayed nonzero controller handover, or cancels it with `none`. -/
def handle_propose_stake_controller (ctx : TxContext) (accounts : ProposeStakeController)
    (pending : Option Pubkey) (s : State) : ProgramResult State := do
  signer accounts.authority
  require (accounts.authority = s.protocol.authority) AnchorError.ConstraintAddress
  require (s.stake_vault.protocol = protocol_address) Unauthorized
  match pending with
  | some candidate => do
    require (candidate ≠ Pubkey.default) ZeroAddress
    require (candidate ≠ s.stake_vault.controller) AlreadyInState
    -- a new proposal replaces the pending one and starts the delay again
    let valid_at ← ok_or (Checked.add_i64 ctx.now s.stake_vault.controller_change_delay)
      ArithmeticOverflow
    return { s with stake_vault := { s.stake_vault with
      pending_controller := some candidate
      pending_controller_valid_at := valid_at } }
  | none => do
    require (s.stake_vault.pending_controller.isSome = true) AlreadyInState
    return { s with stake_vault := { s.stake_vault with
      pending_controller := none
      pending_controller_valid_at := 0 } }

structure AcceptStakeController where
  pending_controller : Pubkey

/-- Completes a mature two-step stake-controller handover. -/
def handle_accept_stake_controller (ctx : TxContext) (accounts : AcceptStakeController)
    (s : State) : ProgramResult State := do
  signer accounts.pending_controller
  require (s.stake_vault.pending_controller = some accounts.pending_controller) Unauthorized
  require (s.stake_vault.pending_controller_valid_at ≤ ctx.now) ControllerNotReady
  -- locks of the former controller stay: nothing here looks at them
  return { s with stake_vault := { s.stake_vault with
    controller := accounts.pending_controller
    pending_controller := none
    pending_controller_valid_at := 0 } }

end Zkp2pSolana
