/-
`programs/zkp2p_solana/src/instructions/escrow.rs`: deposit custody and deposit
configuration.

A handler takes the records it may write and returns them, so what it leaves
alone is visible in its type: the custody handlers return the escrow records and
the token accounts, the others the escrow records only. `handle_lock_funds` and
`handle_unlock_funds` of the source are not reachable from `lib.rs` and have no
counterpart here.
-/
import Zkp2pSolana.Ledger

set_option autoImplicit false

namespace Zkp2pSolana

open Result Zkp2pError

/-! ## Oracle quotes -/

structure UpdateOracleQuote where
  authority : Pubkey

/-- Writes a timestamped market rate; invalidation may set zero but valid quotes must be nonzero. -/
def handle_update_oracle_quote (ctx : TxContext) (accounts : UpdateOracleQuote)
    (quote_id : Bytes 32) (market_rate : ℕ) (valid : Bool) (s : OpenRecords) :
    ProgramResult OpenRecords := do
  signer accounts.authority
  let key := oracle_quote_address accounts.authority quote_id
  require (valid = false ∨ 0 < market_rate) ZeroValue
  let quote := init_if_needed s.oracle_quotes key
  -- only a zero authority is adopted; a key another authority wrote stays theirs
  let authority :=
    if quote.authority = Pubkey.default then accounts.authority else quote.authority
  require (authority = accounts.authority) Unauthorized
  return { s with
    oracle_quotes := s.oracle_quotes.insert key
      { authority := authority, market_rate := market_rate, updated_at := ctx.now, valid := valid } }

/-! ## Custody -/

structure CreateDeposit where
  depositor : Pubkey
  depositor_token : Pubkey

/-- The checks `handle_create_deposit` makes on its arguments, in its order. -/
def check_create_deposit_args (depositor : Pubkey) (args : CreateDepositArgs) :
    ProgramResult Unit := do
  require (0 < args.amount) ZeroValue
  require (0 < args.intent_amount_range.min) ZeroValue
  require (args.intent_amount_range.min ≤ args.intent_amount_range.max) InvalidRange
  require (args.intent_amount_range.min ≤ args.amount) AmountBelowMinimum
  require (args.payment_method ≠ Bytes.zero 32) ZeroValue
  require (args.payee_details ≠ Bytes.zero 32) ZeroValue
  require (args.currency ≠ Bytes.zero 32) ZeroValue
  require (0 < args.fixed_min_rate ∨ args.oracle_quote.isSome = true) CurrencyNotSupported
  require (-10000 < args.spread_bps) InvalidSpread
  require (∀ delegate ∈ args.delegate, delegate ≠ Pubkey.default ∧ delegate ≠ depositor) ZeroAddress
  require (∀ guardian ∈ args.intent_guardian, guardian ≠ Pubkey.default) ZeroAddress
  require (∀ gating_service ∈ args.gating_service, gating_service ≠ Pubkey.default) ZeroAddress
  require (∀ oracle_quote ∈ args.oracle_quote, oracle_quote ≠ Pubkey.default) ZeroAddress
  require (args.oracle_quote.isSome = true → 0 < args.max_staleness) ZeroValue

/-- The deposit account `handle_create_deposit` writes. -/
def new_deposit (depositor : Pubkey) (args : CreateDepositArgs) (config : EscrowConfig) :
    Deposit where
  escrow_config := escrow_config_address
  id := config.next_deposit_id
  depositor := depositor
  delegate := args.delegate
  token_mint := config.token_mint
  intent_amount_range := args.intent_amount_range
  accepting_intents := true
  remaining_deposits := args.amount
  outstanding_intent_amount := 0
  active_intents := 0
  intent_guardian := args.intent_guardian
  retain_on_empty := args.retain_on_empty
  rate_manager := none

/-- Creates and funds a deposit with one immediately usable payment/currency tuple. -/
def handle_create_deposit (accounts : CreateDeposit) (args : CreateDepositArgs)
    (s : EscrowRecords) (tokens : Accounts TokenAccount) :
    ProgramResult (EscrowRecords × Accounts TokenAccount) := do
  signer accounts.depositor
  let config := s.escrow_config
  let key := deposit_address escrow_config_address config.next_deposit_id
  let method_key := payment_method_address key args.payment_method
  let currency_key := deposit_currency_address key args.payment_method args.currency
  let vault := deposit_vault_address key
  -- `init` constraints: one of these accounts existing already fails the call before the
  -- handler's own checks are reached
  init s.deposits key
  init s.payment_methods method_key
  init s.currencies currency_key
  let _ ← token_account tokens accounts.depositor_token config.token_mint accounts.depositor
  init tokens vault
  require (config.paused = false) Paused
  check_create_deposit_args accounts.depositor args
  let next ← ok_or (Checked.add 64 config.next_deposit_id 1) ArithmeticOverflow
  -- the vault is created empty, under the deposit's authority
  let tokens := tokens.insert vault { mint := config.token_mint, owner := key, amount := 0 }
  let tokens ← transfer_in tokens accounts.depositor_token vault config.token_mint
    accounts.depositor args.amount
  let records := { s with
    escrow_config := { config with next_deposit_id := next }
    deposits := s.deposits.insert key (new_deposit accounts.depositor args config)
    payment_methods := s.payment_methods.insert method_key
      { deposit := key
        payment_method := args.payment_method
        payee_details := args.payee_details
        gating_service := args.gating_service
        active := true }
    currencies := s.currencies.insert currency_key
      { deposit := key
        payment_method := args.payment_method
        currency := args.currency
        fixed_min_rate := args.fixed_min_rate
        oracle_quote := args.oracle_quote
        spread_bps := args.spread_bps
        max_staleness := args.max_staleness
        listed := true } }
  return (records, tokens)

structure AddFunds where
  funder : Pubkey
  deposit : Pubkey
  funder_token : Pubkey

/-- Adds exact received principal to a deposit. Any token holder may fund it. -/
def handle_add_funds (accounts : AddFunds) (amount : ℕ) (s : EscrowRecords)
    (tokens : Accounts TokenAccount) : ProgramResult (EscrowRecords × Accounts TokenAccount) := do
  signer accounts.funder
  require (s.escrow_config.paused = false) Paused
  let deposit ← load s.deposits accounts.deposit
  require (deposit.escrow_config = escrow_config_address) DepositNotFound
  let _ ← token_account tokens accounts.funder_token deposit.token_mint accounts.funder
  require (0 < amount) ZeroValue
  -- the liability is raised by what the vault received, which `transfer_in` checks is `amount`
  let tokens ← transfer_in tokens accounts.funder_token (deposit_vault_address accounts.deposit)
    deposit.token_mint accounts.funder amount
  let remaining ← ok_or (Checked.add 64 deposit.remaining_deposits amount) ArithmeticOverflow
  return ({ s with
    deposits := s.deposits.insert accounts.deposit
      { deposit with remaining_deposits := remaining } }, tokens)

/-- A transfer out of a deposit's vault, signed with the deposit's seeds. -/
def transfer_from_deposit (tokens : Accounts TokenAccount) (deposit_key : Pubkey)
    (deposit : Deposit) (destination mint : Pubkey) (amount : ℕ) :
    ProgramResult (Accounts TokenAccount) := do
  -- the token program accepts the seeds only when they derive the vault's authority; the
  -- record's own fields supply them, not the account's address
  require (deposit_address deposit.escrow_config deposit.id = deposit_key)
    AnchorError.AccountNotSigner
  transfer_checked tokens (deposit_vault_address deposit_key) destination mint deposit_key amount

structure RemoveFunds where
  depositor : Pubkey
  deposit : Pubkey
  depositor_token : Pubkey

/-- Removes available principal. Expired locks can be pruned earlier in the same transaction. -/
def handle_remove_funds (accounts : RemoveFunds) (amount : ℕ) (s : EscrowRecords)
    (tokens : Accounts TokenAccount) : ProgramResult (EscrowRecords × Accounts TokenAccount) := do
  signer accounts.depositor
  let deposit ← load s.deposits accounts.deposit
  require (accounts.depositor = deposit.depositor) AnchorError.ConstraintAddress
  require (s.escrow_config.paused = false) Paused
  require (deposit.escrow_config = escrow_config_address) DepositNotFound
  let _ ← load tokens (deposit_vault_address accounts.deposit)
  let _ ← token_account tokens accounts.depositor_token deposit.token_mint accounts.depositor
  require (0 < amount) ZeroValue
  require (amount ≤ deposit.remaining_deposits) InsufficientBalance
  let remaining ← ok_or (Checked.sub deposit.remaining_deposits amount) ArithmeticOverflow
  let tokens ← transfer_from_deposit tokens accounts.deposit deposit accounts.depositor_token
    deposit.token_mint amount
  return ({ s with
    deposits := s.deposits.insert accounts.deposit
      { deposit with remaining_deposits := remaining } }, tokens)

structure WithdrawDeposit where
  depositor : Pubkey
  deposit : Pubkey
  depositor_token : Pubkey
  dust_recipient_token : Option Pubkey

/-- The constraints on the dust recipient's token account, when it is supplied. -/
def check_dust_recipient (tokens : Accounts TokenAccount) (mint recipient : Pubkey) :
    Option Pubkey → ProgramResult Unit
  | none => .ok ()
  | some dust => do
    let _ ← token_account tokens dust mint recipient

/-- The terminal branch of `handle_withdraw_deposit`: sweep the residual dust, close the vault
and the deposit. -/
def close_deposit (accounts : WithdrawDeposit) (deposit : Deposit) (residual : ℕ)
    (s : EscrowRecords) (tokens : Accounts TokenAccount) :
    ProgramResult (EscrowRecords × Accounts TokenAccount) := do
  -- tokens sent straight to the vault are no liability of the deposit: the residue is swept
  let tokens ← (
    if 0 < residual then do
      let dust ← ok_or accounts.dust_recipient_token DepositNotFound
      transfer_from_deposit tokens accounts.deposit deposit dust deposit.token_mint residual
    else .ok tokens)
  require (deposit_address deposit.escrow_config deposit.id = accounts.deposit)
    AnchorError.AccountNotSigner
  let tokens ← close_account tokens (deposit_vault_address accounts.deposit) accounts.deposit
  return ({ s with deposits := s.deposits.erase accounts.deposit }, tokens)

/-- Returns all available principal and closes liability-free, non-retained deposits. -/
def handle_withdraw_deposit (accounts : WithdrawDeposit) (s : EscrowRecords)
    (tokens : Accounts TokenAccount) : ProgramResult (EscrowRecords × Accounts TokenAccount) := do
  signer accounts.depositor
  let deposit ← load s.deposits accounts.deposit
  require (accounts.depositor = deposit.depositor) AnchorError.ConstraintAddress
  require (deposit.escrow_config = escrow_config_address) DepositNotFound
  let _ ← load tokens (deposit_vault_address accounts.deposit)
  let _ ← token_account tokens accounts.depositor_token deposit.token_mint accounts.depositor
  check_dust_recipient tokens deposit.token_mint s.escrow_config.dust_recipient
    accounts.dust_recipient_token
  mutable_once ([deposit_vault_address accounts.deposit, accounts.depositor_token]
    ++ accounts.dust_recipient_token.toList)
  let amount := deposit.remaining_deposits
  -- the record is drained before the transfer; locked principal stays in the vault
  let drained := { deposit with remaining_deposits := 0, accepting_intents := false }
  let tokens ← (
    if 0 < amount then
      transfer_from_deposit tokens accounts.deposit drained accounts.depositor_token
        deposit.token_mint amount
    else .ok tokens)
  -- liability-free and not retained: close, unless the residue is too large to be dust
  if drained.active_intents = 0 ∧ drained.outstanding_intent_amount = 0
      ∧ drained.retain_on_empty = false then do
    let vault ← load tokens (deposit_vault_address accounts.deposit)
    -- the source retains the deposit here instead of failing, so that the depositor's own
    -- withdrawal still goes through
    if s.escrow_config.dust_threshold < vault.amount then
      return ({ s with
        deposits := s.deposits.insert accounts.deposit { drained with retain_on_empty := true } },
        tokens)
    else close_deposit accounts drained vault.amount s tokens
  else
    return ({ s with deposits := s.deposits.insert accounts.deposit drained }, tokens)

/-! ## Deposit configuration -/

/-- An owner-or-delegate signer acting on a deposit while the escrow is unpaused. -/
structure ConfigureDeposit where
  authority : Pubkey
  deposit : Pubkey

/-- The constraints `UpdateDeposit`, `ConfigurePaymentMethod`, `ConfigureCurrency` and
`SetDepositRateManager` share. -/
def configured_deposit (accounts : ConfigureDeposit) (s : EscrowRecords) :
    ProgramResult Deposit := do
  signer accounts.authority
  require (s.escrow_config.paused = false) Paused
  let deposit ← load s.deposits accounts.deposit
  require (deposit.escrow_config = escrow_config_address) DepositNotFound
  require (deposit.depositor = accounts.authority ∨ deposit.delegate = some accounts.authority)
    Unauthorized
  return deposit

/-- Mutable maker-controlled deposit settings; a nested option distinguishes no change from
removal. -/
structure UpdateDepositArgs where
  delegate : Option (Option Pubkey)
  intent_guardian : Option (Option Pubkey)
  intent_amount_range : Option AmountRange
  accepting_intents : Option Bool
  retain_on_empty : Option Bool

/-- Applies a bounded deposit configuration update. -/
def handle_update_deposit (accounts : ConfigureDeposit) (args : UpdateDepositArgs)
    (s : EscrowRecords) : ProgramResult EscrowRecords := do
  let deposit ← configured_deposit accounts s
  -- a delegate may change the rest but not appoint the next delegate
  require (args.delegate.isSome = true → accounts.authority = deposit.depositor) Unauthorized
  require (∀ delegate ∈ args.delegate, ∀ key ∈ delegate,
    key ≠ Pubkey.default ∧ key ≠ deposit.depositor) ZeroAddress
  require (∀ guardian ∈ args.intent_guardian, ∀ key ∈ guardian, key ≠ Pubkey.default) ZeroAddress
  require (∀ range ∈ args.intent_amount_range, 0 < range.min) ZeroValue
  require (∀ range ∈ args.intent_amount_range, range.min ≤ range.max) InvalidRange
  -- the floor the reopening check reads is the one this call may just have set
  let range := args.intent_amount_range.getD deposit.intent_amount_range
  require (∀ accepting ∈ args.accepting_intents, deposit.accepting_intents ≠ accepting) AlreadyInState
  require (∀ accepting ∈ args.accepting_intents,
    accepting = true → range.min ≤ deposit.remaining_deposits) InsufficientBalance
  require (∀ retain ∈ args.retain_on_empty, deposit.retain_on_empty ≠ retain) AlreadyInState
  let deposit := { deposit with
    delegate := args.delegate.getD deposit.delegate
    intent_guardian := args.intent_guardian.getD deposit.intent_guardian
    intent_amount_range := range
    accepting_intents := args.accepting_intents.getD deposit.accepting_intents
    retain_on_empty := args.retain_on_empty.getD deposit.retain_on_empty }
  return { s with deposits := s.deposits.insert accounts.deposit deposit }

structure ConfigurePaymentMethodArgs where
  payment_method : Bytes 32
  payee_details : Bytes 32
  gating_service : Option Pubkey
  active : Bool

/-- Creates or updates a payment method without leaving stale fields. -/
def handle_configure_payment_method (accounts : ConfigureDeposit)
    (args : ConfigurePaymentMethodArgs) (s : EscrowRecords) : ProgramResult EscrowRecords := do
  let _ ← configured_deposit accounts s
  require (args.payment_method ≠ Bytes.zero 32) ZeroValue
  require (args.payee_details ≠ Bytes.zero 32) ZeroValue
  require (∀ gating ∈ args.gating_service, gating ≠ Pubkey.default) ZeroAddress
  let key := payment_method_address accounts.deposit args.payment_method
  return { s with
    payment_methods := s.payment_methods.insert key
      { deposit := accounts.deposit
        payment_method := args.payment_method
        payee_details := args.payee_details
        gating_service := args.gating_service
        active := args.active } }

structure ConfigureCurrencyArgs where
  payment_method : Bytes 32
  currency : Bytes 32
  fixed_min_rate : ℕ
  oracle_quote : Option Pubkey
  spread_bps : ℤ
  max_staleness : ℕ
  listed : Bool

/-- Creates or updates a fixed/oracle-backed currency tuple. -/
def handle_configure_currency (accounts : ConfigureDeposit) (args : ConfigureCurrencyArgs)
    (s : EscrowRecords) : ProgramResult EscrowRecords := do
  let _ ← configured_deposit accounts s
  let method ← load s.payment_methods (payment_method_address accounts.deposit args.payment_method)
  require (method.deposit = accounts.deposit) PaymentMethodNotSupported
  require (args.currency ≠ Bytes.zero 32) ZeroValue
  -- a listed tuple needs a floor from somewhere; an unlisted one may have none
  require (args.listed = false ∨ 0 < args.fixed_min_rate ∨ args.oracle_quote.isSome = true)
    CurrencyNotSupported
  require (-10000 < args.spread_bps) InvalidSpread
  require (∀ quote ∈ args.oracle_quote, quote ≠ Pubkey.default) ZeroAddress
  require (args.oracle_quote.isSome = true → 0 < args.max_staleness) ZeroValue
  let key := deposit_currency_address accounts.deposit args.payment_method args.currency
  return { s with
    currencies := s.currencies.insert key
      { deposit := accounts.deposit
        payment_method := args.payment_method
        currency := args.currency
        fixed_min_rate := args.fixed_min_rate
        oracle_quote := args.oracle_quote
        spread_bps := args.spread_bps
        max_staleness := args.max_staleness
        listed := args.listed } }

/-- The checks `handle_set_deposit_rate_manager` makes on the manager it selects. -/
def check_selected_manager (deposit : Deposit) (account : Option (Account RateManager)) :
    Option Pubkey → ProgramResult Unit
  | none => .ok ()
  | some key => do
    let account ← ok_or account Unauthorized
    -- a manager account is recognised by its own seeds, not by the escrow that selects it
    require (account.key = rate_manager_address account.data.config account.data.nonce) Unauthorized
    require (account.key = key) Unauthorized
    let total ← ok_or deposit.total_liquidity ArithmeticOverflow
    require (account.data.min_liquidity ≤ total) InsufficientBalance

/-- Selects a live manager after enforcing its liquidity threshold, or clears it. -/
def handle_set_deposit_rate_manager (accounts : ConfigureDeposit) (rate_manager : Option Pubkey)
    (manager : Option Pubkey) (managers : Accounts RateManager) (s : EscrowRecords) :
    ProgramResult EscrowRecords := do
  let deposit ← configured_deposit accounts s
  let account ← load_opt managers rate_manager
  check_selected_manager deposit account manager
  return { s with
    deposits := s.deposits.insert accounts.deposit { deposit with rate_manager := manager } }

structure ExtendIntentExpiry where
  guardian : Pubkey
  deposit : Pubkey
  intent_lock : Pubkey

/-- Extends expiry without exceeding the lifetime cap measured from signal time. -/
def handle_extend_intent_expiry (accounts : ExtendIntentExpiry) (additional_time : ℤ)
    (s : EscrowRecords) : ProgramResult EscrowRecords := do
  signer accounts.guardian
  let deposit ← load s.deposits accounts.deposit
  require (deposit.intent_guardian = some accounts.guardian) Unauthorized
  let lock ← load s.intent_locks accounts.intent_lock
  require (accounts.intent_lock = intent_lock_address accounts.deposit lock.intent_hash)
    AnchorError.ConstraintSeeds
  require (lock.deposit = accounts.deposit) IntentNotFound
  require (0 < additional_time) ZeroValue
  let new_expiry ← ok_or (Checked.add_i64 lock.expiry_time additional_time) ArithmeticOverflow
  -- the cap counts from the signal, so repeated extensions cannot pass it
  let maximum ← ok_or (Checked.add_i64 lock.timestamp MAX_INTENT_LIFETIME_SECONDS) ArithmeticOverflow
  require (new_expiry ≤ maximum) AmountAboveMaximum
  return { s with
    intent_locks := s.intent_locks.insert accounts.intent_lock
      { lock with expiry_time := new_expiry } }

end Zkp2pSolana
