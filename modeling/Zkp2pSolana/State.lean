/-
`programs/zkp2p_solana/src/state.rs`: the account types and the methods of
`Deposit`, `DepositCurrency`, `StakePosition` and `DisputeIntent`.

Unsigned words are natural numbers and `i64` is `ℤ`; every arithmetic step is
checked against the width of the field, as in the source. Fields keep their
names; `bump` fields are left out because an address here is its seeds. The
types that `init_if_needed` creates are `Inhabited` by the zeroed account.
-/
import Zkp2pSolana.Math
import Zkp2pSolana.Address

set_option autoImplicit false

namespace Zkp2pSolana

open Result Zkp2pError

/-! ## Component configurations -/

/-- Root authority and component version marker. -/
structure ProtocolConfig where
  authority : Pubkey
  pending_authority : Option Pubkey
  version : ℕ
  domain_seed_slot : ℕ
  domain_seed : Bytes 32
  domain_chain_id : Bytes 32

/-- The arguments of `initialize_protocol`. -/
structure InitializeProtocolArgs where
  protocol_fee : ℕ
  protocol_fee_recipient : Pubkey
  intent_expiration_period : ℤ
  max_intents_per_deposit : ℕ
  controller_change_delay : ℤ
  initial_witnesses : List (Bytes 20)
  required_signatures : ℕ

/-- Lifecycle policy snapshotted by a newly signaled intent. -/
inductive LifecyclePolicy where
  | None
  | Whitelist
  | WhitelistAndDispute
  deriving DecidableEq, Repr

/-- Escrow-wide configuration. -/
structure EscrowConfig where
  protocol : Pubkey
  token_mint : Pubkey
  dust_recipient : Pubkey
  dust_threshold : ℕ
  max_intents_per_deposit : ℕ
  intent_expiration_period : ℤ
  next_deposit_id : ℕ
  paused : Bool

/-- Orchestrator-wide configuration. -/
structure OrchestratorConfig where
  protocol : Pubkey
  escrow_config : Pubkey
  verifier_config : Pubkey
  domain_chain_id : Bytes 32
  protocol_fee : ℕ
  protocol_fee_recipient : Pubkey
  lifecycle_policy : LifecyclePolicy
  allow_multiple_intents : Bool
  next_intent_id : ℕ
  paused : Bool

/-! ## Escrow -/

/-- Inclusive per-intent amount bounds. -/
structure AmountRange where
  min : ℕ
  max : ℕ

/-- Escrow deposit and liquidity accounting. -/
structure Deposit where
  escrow_config : Pubkey
  id : ℕ
  depositor : Pubkey
  delegate : Option Pubkey
  token_mint : Pubkey
  intent_amount_range : AmountRange
  accepting_intents : Bool
  remaining_deposits : ℕ
  outstanding_intent_amount : ℕ
  active_intents : ℕ
  intent_guardian : Option Pubkey
  retain_on_empty : Bool
  rate_manager : Option Pubkey

namespace Deposit

/-- Total maker principal still represented by this deposit. -/
def total_liquidity (self : Deposit) : Option ℕ :=
  Checked.add 64 self.remaining_deposits self.outstanding_intent_amount

/-- Moves available liquidity into a new escrow lock. -/
def lock (self : Deposit) (amount maximum_intents : ℕ) : ProgramResult Deposit := do
  require (self.accepting_intents = true) DepositNotAcceptingIntents
  require (self.intent_amount_range.min ≤ amount) AmountBelowMinimum
  require (amount ≤ self.intent_amount_range.max) AmountAboveMaximum
  require (amount ≤ self.remaining_deposits) InsufficientBalance
  -- a `u16` counter, and the configured maximum is compared with the raised value
  let new_count ← ok_or (Checked.add 16 self.active_intents 1) ArithmeticOverflow
  require (new_count ≤ maximum_intents) MaximumIntentsExceeded
  let remaining ← ok_or (Checked.sub self.remaining_deposits amount) ArithmeticOverflow
  let outstanding ← ok_or (Checked.add 64 self.outstanding_intent_amount amount) ArithmeticOverflow
  return { self with
    remaining_deposits := remaining
    outstanding_intent_amount := outstanding
    active_intents := new_count }

/-- Cancels a lock and returns its complete principal to available liquidity. -/
def unlock (self : Deposit) (amount : ℕ) : ProgramResult Deposit := do
  let outstanding ← ok_or (Checked.sub self.outstanding_intent_amount amount) ArithmeticOverflow
  let remaining ← ok_or (Checked.add 64 self.remaining_deposits amount) ArithmeticOverflow
  let count ← ok_or (Checked.sub self.active_intents 1) ArithmeticOverflow
  return { self with
    remaining_deposits := remaining
    outstanding_intent_amount := outstanding
    active_intents := count }

/-- Settles a lock and returns any unreleased remainder to available liquidity. -/
def settle (self : Deposit) (locked_amount release_amount : ℕ) : ProgramResult Deposit := do
  require (0 < release_amount) ZeroValue
  require (release_amount ≤ locked_amount) AmountAboveMaximum
  -- the whole lock leaves the liabilities; only what is not released comes back
  let outstanding ← ok_or (Checked.sub self.outstanding_intent_amount locked_amount) ArithmeticOverflow
  let remainder ← ok_or (Checked.sub locked_amount release_amount) ArithmeticOverflow
  let remaining ← ok_or (Checked.add 64 self.remaining_deposits remainder) ArithmeticOverflow
  let count ← ok_or (Checked.sub self.active_intents 1) ArithmeticOverflow
  return { self with
    remaining_deposits := remaining
    outstanding_intent_amount := outstanding
    active_intents := count }

end Deposit

/-- Payment-method configuration for one deposit. -/
structure DepositPaymentMethod where
  deposit : Pubkey
  payment_method : Bytes 32
  payee_details : Bytes 32
  gating_service : Option Pubkey
  active : Bool

/-- Arguments for creating one funded deposit with its first active payment tuple. -/
structure CreateDepositArgs where
  amount : ℕ
  intent_amount_range : AmountRange
  delegate : Option Pubkey
  intent_guardian : Option Pubkey
  retain_on_empty : Bool
  payment_method : Bytes 32
  payee_details : Bytes 32
  gating_service : Option Pubkey
  currency : Bytes 32
  fixed_min_rate : ℕ
  oracle_quote : Option Pubkey
  spread_bps : ℤ
  max_staleness : ℕ

/-- Latest quote written by a trusted oracle authority. -/
structure OracleQuote where
  authority : Pubkey
  market_rate : ℕ
  updated_at : ℤ
  valid : Bool
  deriving Inhabited

/-- Rate configuration for one deposit, payment method, and fiat currency. -/
structure DepositCurrency where
  deposit : Pubkey
  payment_method : Bytes 32
  currency : Bytes 32
  fixed_min_rate : ℕ
  oracle_quote : Option Pubkey
  spread_bps : ℤ
  max_staleness : ℕ
  listed : Bool

/-- The escrow floor, halting at zero for an unusable configured oracle. -/
def DepositCurrency.escrow_floor (self : DepositCurrency) (quote : Option OracleQuote) (now : ℤ) :
    ProgramResult ℕ :=
  if self.listed then
    match self.oracle_quote with
    | none => .ok self.fixed_min_rate
    | some _ => do
      let oracle ← ok_or quote InvalidOracleQuote
      -- an oracle that cannot be used yields zero, which the caller turns into a refusal
      if !oracle.valid || oracle.market_rate = 0 || oracle.updated_at ≤ 0
          || now < oracle.updated_at then
        return 0
      else do
        let age ← ok_or (Checked.sub_i64 now oracle.updated_at) ArithmeticOverflow
        if (self.max_staleness : ℤ) < age then
          return 0
        else do
          let spread_rate ← spread_rate_ceil oracle.market_rate self.spread_bps
          return Max.max self.fixed_min_rate spread_rate
  else .ok 0

/-- Escrow-owned lock for one orchestrator intent. -/
structure EscrowIntentLock where
  deposit : Pubkey
  intent_hash : Bytes 32
  orchestrator : Pubkey
  amount : ℕ
  timestamp : ℤ
  expiry_time : ℤ

/-! ## Orchestrator -/

/-- Fee paid to one referral recipient. -/
structure ReferralFee where
  recipient : Pubkey
  fee : ℕ

/-- Orchestrator-owned canonical intent snapshot. -/
structure Intent where
  orchestrator : Pubkey
  intent_hash : Bytes 32
  nonce : ℕ
  owner : Pubkey
  recipient : Pubkey
  deposit : Pubkey
  amount : ℕ
  timestamp : ℤ
  payment_method : Bytes 32
  fiat_currency : Bytes 32
  conversion_rate : ℕ
  payee_id : Bytes 32
  manager_fee_recipient : Option Pubkey
  manager_fee : ℕ
  lifecycle_policy : LifecyclePolicy
  dispute_covered : Bool
  referral_fees : List ReferralFee

/-- Live intent count for a taker. -/
structure TakerIntentState where
  orchestrator : Pubkey
  taker : Pubkey
  active_intents : ℕ
  deriving Inhabited

/-! ## Rate managers -/

/-- Delegated rate-manager metadata and fee terms. -/
structure RateManager where
  config : Pubkey
  nonce : ℕ
  id : Bytes 32
  manager : Pubkey
  fee_recipient : Option Pubkey
  max_fee : ℕ
  fee : ℕ
  min_liquidity : ℕ
  name : List UInt8
  uri : List UInt8

/-- Arguments for creating one delegated rate manager. -/
structure CreateRateManagerArgs where
  manager : Pubkey
  fee_recipient : Option Pubkey
  max_fee : ℕ
  fee : ℕ
  min_liquidity : ℕ
  name : List UInt8
  uri : List UInt8

/-- One manager-defined payment/currency rate. -/
structure RateEntry where
  rate_manager : Pubkey
  payment_method : Bytes 32
  currency : Bytes 32
  rate : ℕ
  deriving Inhabited

/-- Rate-manager component configuration. -/
structure RateManagerConfig where
  protocol : Pubkey
  next_manager_id : ℕ

/-! ## Stake vault -/

/-- Aggregate stake-vault configuration and liabilities. -/
structure StakeVaultConfig where
  protocol : Pubkey
  stake_mint : Pubkey
  controller : Pubkey
  pending_controller : Option Pubkey
  pending_controller_valid_at : ℤ
  controller_change_delay : ℤ
  total_staked : ℕ
  total_claimable : ℕ

/-- Aggregate principal for one stake owner. -/
structure StakePosition where
  vault : Pubkey
  owner : Pubkey
  balance : ℕ
  locked : ℕ
  deriving Inhabited

namespace StakePosition

/-- Principal available for withdrawal or a new lock. -/
def free (self : StakePosition) : Option ℕ := Checked.sub self.balance self.locked

/-- Commits free principal to a new or increased lock. -/
def lock (self : StakePosition) (amount : ℕ) : ProgramResult StakePosition := do
  require (0 < amount) ZeroValue
  let free ← ok_or self.free ArithmeticOverflow
  require (amount ≤ free) InsufficientFreeStake
  let locked ← ok_or (Checked.add 64 self.locked amount) ArithmeticOverflow
  return { self with locked := locked }

/-- Reduces locked principal without changing total owner principal. -/
def unlock (self : StakePosition) (amount : ℕ) : ProgramResult StakePosition := do
  let locked ← ok_or (Checked.sub self.locked amount) ArithmeticOverflow
  return { self with locked := locked }

/-- Converts part of a removed lock into beneficiary claim liabilities. -/
def resolve (self : StakePosition) (lock_amount claims_amount : ℕ) : ProgramResult StakePosition := do
  require (claims_amount ≤ lock_amount) ClaimsExceedLock
  -- the whole lock is freed and the claims are then charged to the balance
  let self ← self.unlock lock_amount
  let balance ← ok_or (Checked.sub self.balance claims_amount) ArithmeticOverflow
  return { self with balance := balance }

end StakePosition

/-- One stake owner's authorization of one taker. -/
structure TakerAuthorization where
  stake_owner : Pubkey
  taker : Pubkey
  authorized : Bool
  deriving Inhabited

/-- One taker's selected third-party stake owner. -/
structure StakeSelection where
  taker : Pubkey
  selected_owner : Option Pubkey
  deriving Inhabited

/-- Active policy-owned collateral lock. -/
structure StakeLock where
  vault : Pubkey
  id : Bytes 32
  stake_owner : Pubkey
  amount : ℕ
  matures_at : ℤ

/-- Immediately withdrawable beneficiary liability. -/
structure ClaimBalance where
  vault : Pubkey
  beneficiary : Pubkey
  amount : ℕ
  deriving Inhabited

/-! ## Verifier -/

/-- Payment verifier witness and method configuration. -/
structure VerifierConfig where
  protocol : Pubkey
  domain_chain_id : Bytes 32
  required_signatures : ℕ
  witnesses : List (Bytes 20)
  payment_methods : List (Bytes 32)

/-- Immutable payment nullifier-to-intent binding. -/
structure PaymentBinding where
  verifier : Pubkey
  nullifier : Bytes 32
  intent_hash : Bytes 32

/-- Immutable intent-to-payment reverse binding. -/
structure IntentPaymentBinding where
  verifier : Pubkey
  intent_hash : Bytes 32
  nullifier : Bytes 32

/-! ## Whitelist -/

/-- Whitelist and address-group component configuration. -/
structure WhitelistConfig where
  protocol : Pubkey
  next_group_id : ℕ

/-- Whitelist group with two-step curator rotation. -/
structure AddressGroup where
  whitelist_config : Pubkey
  nonce : ℕ
  id : Bytes 32
  curator : Pubkey
  pending_curator : Option Pubkey
  is_public : Bool
  resolver : Option Pubkey
  name : List UInt8

/-- Explicit member record for one group and account. -/
structure GroupMember where
  group : Pubkey
  member : Pubkey
  active : Bool

/-- Per-deposit whitelist configuration. -/
structure DepositWhitelist where
  deposit : Pubkey
  enabled : Bool
  bootstrapped : Bool
  allowed_groups : List (Bytes 32)

/-- Direct whitelist membership for one deposit and taker. -/
structure DepositWhitelistMember where
  deposit_whitelist : Pubkey
  taker : Pubkey
  active : Bool

/-! ## Disputes -/

/-- Stake-backed dispute component configuration. -/
structure DisputeConfig where
  protocol : Pubkey
  domain_chain_id : Bytes 32
  stake_vault : Pubkey
  verifier_config : Pubkey
  admissions_paused : Bool

/-- Dispute protection lifecycle status. -/
inductive DisputeStatus where
  | Pending
  | Cancelled
  | Settled
  | Released
  | Disputed
  deriving DecidableEq, Repr

/-- Stake-backed dispute protection state for one intent. -/
structure DisputeIntent where
  dispute_config : Pubkey
  intent_hash : Bytes 32
  deposit : Pubkey
  taker : Pubkey
  stake_owner : Pubkey
  depositor : Pubkey
  payment_method : Bytes 32
  locked_amount : ℕ
  status : DisputeStatus
  risk_window : ℤ
  release_eligible_at : ℤ
  release_amount : ℕ
  deriving DecidableEq

namespace DisputeIntent

/-- Cancels pending coverage. -/
def cancel (self : DisputeIntent) : ProgramResult DisputeIntent := do
  require (self.status = .Pending) DisputeIntentNotPending
  return { self with status := .Cancelled }

/-- Snapshots settlement exposure and its release-eligibility timestamp. -/
def settle (self : DisputeIntent) (release_amount : ℕ) (now : ℤ) :
    ProgramResult (DisputeIntent × ℤ) := do
  require (self.status = .Pending) DisputeIntentNotPending
  require (0 < release_amount) ZeroValue
  let release_eligible_at ← ok_or (Checked.add_i64 now self.risk_window) ArithmeticOverflow
  return ({ self with
    release_amount := release_amount
    release_eligible_at := release_eligible_at
    status := .Settled }, release_eligible_at)

/-- Releases settled collateral after the snapshotted risk window. -/
def release (self : DisputeIntent) (now : ℤ) : ProgramResult (DisputeIntent × ℕ) := do
  require (self.status = .Settled) DisputeIntentNotSettled
  require (self.release_eligible_at ≤ now) NotReleaseEligible
  return ({ self with status := .Released }, self.release_amount)

/-- Marks settled collateral as converted to a depositor claim. -/
def dispute (self : DisputeIntent) : ProgramResult (DisputeIntent × ℕ) := do
  require (self.status = .Settled) DisputeIntentNotSettled
  return ({ self with status := .Disputed }, self.release_amount)

end DisputeIntent

/-- Payment-method risk configuration. -/
structure RiskWindow where
  dispute_config : Pubkey
  payment_method : Bytes 32
  seconds : ℤ

/-- Deposit opt-out from default-on dispute protection. -/
structure DepositDisputeSetting where
  deposit : Pubkey
  enabled : Bool

/-- Consumed dispute replay key. -/
structure DisputeNullifier where
  dispute_config : Pubkey
  nullifier : Bytes 32
  intent_hash : Bytes 32

end Zkp2pSolana
