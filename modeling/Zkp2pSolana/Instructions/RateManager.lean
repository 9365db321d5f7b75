/-
`programs/zkp2p_solana/src/instructions/rate_manager.rs`: delegated rate managers.

The handlers write only the rate-manager records; the dispatcher puts them back
into the state.
-/
import Zkp2pSolana.Ledger

set_option autoImplicit false

namespace Zkp2pSolana

open Result Zkp2pError

structure CreateRateManager where
  payer : Pubkey

/-- Creates a manager with immutable fee ceiling and monotonic deterministic ID. -/
def handle_create_rate_manager (rt : Runtime) (accounts : CreateRateManager)
    (args : CreateRateManagerArgs) (s : RateManagerRecords) : ProgramResult RateManagerRecords := do
  signer accounts.payer
  let nonce := s.rate_manager_config.next_manager_id
  let key := rate_manager_address rate_manager_config_address nonce
  init s.rate_managers key
  require (args.manager ≠ Pubkey.default) ZeroAddress
  require (args.name.length ≤ 64) AmountAboveMaximum
  require (args.uri.length ≤ 200) AmountAboveMaximum
  require (args.max_fee ≤ MAX_FEE) FeeExceedsMaximum
  require (args.fee ≤ args.max_fee) FeeExceedsMaximum
  require (0 < args.fee → args.fee_recipient.isSome = true) ZeroAddress
  require (∀ recipient ∈ args.fee_recipient, recipient ≠ Pubkey.default) ZeroAddress
  let id := rt.keccak (rt.as_ref program_id ++ rt.as_ref rate_manager_config_address
    ++ le_bytes 8 nonce)
  let next ← ok_or (Checked.add 64 nonce 1) ArithmeticOverflow
  return { s with
    rate_manager_config := { s.rate_manager_config with next_manager_id := next }
    rate_managers := s.rate_managers.insert key
      { config := rate_manager_config_address
        nonce := nonce
        id := id
        manager := args.manager
        fee_recipient := args.fee_recipient
        max_fee := args.max_fee
        fee := args.fee
        min_liquidity := args.min_liquidity
        name := args.name
        uri := args.uri } }

/-- Accounts of the manager-authorized updates. -/
structure ManageRateManager where
  manager : Pubkey
  rate_manager : Pubkey

/-- The constraints of `ManageRateManager` and `SetManagerRate` on the manager account. -/
def managed_rate_manager (accounts : ManageRateManager) (s : RateManagerRecords) :
    ProgramResult RateManager := do
  signer accounts.manager
  let manager ← load s.rate_managers accounts.rate_manager
  require (accounts.rate_manager = rate_manager_address manager.config manager.nonce)
    AnchorError.ConstraintSeeds
  require (manager.manager = accounts.manager) Unauthorized
  return manager

/-- Updates mutable manager identity and metadata fields. -/
def handle_set_rate_manager_config (accounts : ManageRateManager) (manager : Pubkey)
    (fee_recipient : Option Pubkey) (name uri : List UInt8) (s : RateManagerRecords) :
    ProgramResult RateManagerRecords := do
  let state ← managed_rate_manager accounts s
  require (manager ≠ Pubkey.default) ZeroAddress
  require (name.length ≤ 64) AmountAboveMaximum
  require (uri.length ≤ 200) AmountAboveMaximum
  -- a fee in force keeps a recipient; the fee itself is another instruction's
  require (0 < state.fee → fee_recipient.isSome = true) ZeroAddress
  require (∀ recipient ∈ fee_recipient, recipient ≠ Pubkey.default) ZeroAddress
  return { s with rate_managers := s.rate_managers.insert accounts.rate_manager { state with
    manager := manager
    fee_recipient := fee_recipient
    name := name
    uri := uri } }

/-- Updates the current fee within the immutable manager ceiling. -/
def handle_set_manager_fee (accounts : ManageRateManager) (fee : ℕ) (s : RateManagerRecords) :
    ProgramResult RateManagerRecords := do
  let state ← managed_rate_manager accounts s
  require (fee ≤ state.max_fee) FeeExceedsMaximum
  require (0 < fee → state.fee_recipient.isSome = true) ZeroAddress
  return { s with rate_managers :=
    s.rate_managers.insert accounts.rate_manager { state with fee := fee } }

/-- Updates the opt-in liquidity floor for future deposits. -/
def handle_set_manager_min_liquidity (accounts : ManageRateManager) (min_liquidity : ℕ)
    (s : RateManagerRecords) : ProgramResult RateManagerRecords := do
  let state ← managed_rate_manager accounts s
  return { s with rate_managers :=
    s.rate_managers.insert accounts.rate_manager { state with min_liquidity := min_liquidity } }

/-- Sets or disables one manager rate; zero is the canonical disabled value. -/
def handle_set_manager_rate (accounts : ManageRateManager) (payment_method currency : Bytes 32)
    (rate : ℕ) (s : RateManagerRecords) : ProgramResult RateManagerRecords := do
  let _ ← managed_rate_manager accounts s
  require (payment_method ≠ Bytes.zero 32) ZeroValue
  require (currency ≠ Bytes.zero 32) ZeroValue
  let key := rate_entry_address accounts.rate_manager payment_method currency
  let entry := init_if_needed s.rate_entries key
  let entry : RateEntry := if entry.rate_manager = Pubkey.default then
      { entry with
        rate_manager := accounts.rate_manager
        payment_method := payment_method
        currency := currency }
    else entry
  return { s with rate_entries := s.rate_entries.insert key { entry with rate := rate } }

end Zkp2pSolana
