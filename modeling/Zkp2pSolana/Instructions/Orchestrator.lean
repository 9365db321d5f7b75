/-
`programs/zkp2p_solana/src/instructions/orchestrator.rs`: intent admission,
cancellation and expiry pruning.

`signal_intent` takes most of its evidence as optional accounts the taker may
leave out; each is loaded here exactly when its key is supplied, and admission
is decided from what was loaded, in the order of the source. The instruction
sysvar is the list of earlier ed25519 payloads of the transaction.
-/
import Zkp2pSolana.Ledger

set_option autoImplicit false

namespace Zkp2pSolana

open Result Zkp2pError

/-! ## The intent identifier -/

/-- The modulus `reduce_circom_field` reduces by, big-endian. -/
def MODULUS : List UInt8 :=
  [0x30, 0x64, 0x4e, 0x72, 0xe1, 0x31, 0xa0, 0x29, 0xb8, 0x50, 0x45, 0xb6, 0x81, 0x81, 0x58, 0x5d,
    0x97, 0x81, 0x6a, 0x91, 0x68, 0x71, 0xca, 0x8d, 0x3c, 0x20, 0x8c, 0x16, 0xd8, 0x7c, 0xfd, 0x47]

/-- The inner loop: bytewise subtraction with borrow, from the last byte to the first (so both
lists are reversed here). -/
def sub_borrow : List UInt8 → List UInt8 → ℕ → List UInt8
  | left_byte :: left, modulus_byte :: modulus, borrow =>
    let l := left_byte.toNat
    let r := modulus_byte.toNat + borrow
    if r ≤ l then UInt8.ofNat (l - r) :: sub_borrow left modulus 0
    else UInt8.ofNat (l + 256 - r) :: sub_borrow left modulus 1
  | left, _, _ => left

/-- One turn of the `while` loop. -/
def sub_modulus (value : List UInt8) : List UInt8 :=
  (sub_borrow value.reverse MODULUS.reverse 0).reverse

/-- The `while value >= MODULUS` loop, with a bound on its turns. -/
def reduce_loop : ℕ → List UInt8 → List UInt8
  -- out of turns: `reduce_circom_field` passes enough of them for this never to be reached
  | 0, value => value
  | fuel + 1, value => if MODULUS ≤ value then reduce_loop fuel (sub_modulus value) else value

/-- Six times the modulus exceeds `2 ^ 256`, so the loop makes at most five turns. -/
def reduce_circom_field (value : Bytes 32) : Bytes 32 := Bytes.ofList 32 (reduce_loop 5 value.toList)

/-- Derives the intent identifier from the orchestrator and its counter. -/
def derive_intent_hash (rt : Runtime) (orchestrator : Pubkey) (nonce : ℕ) : Bytes 32 :=
  reduce_circom_field (rt.keccak (rt.as_ref orchestrator ++ be_bytes 8 nonce))

/-! ## Rates and fees -/

/-- The supplied quote is exactly the configured one. -/
def check_oracle_quote (supplied : Option (Account OracleQuote)) :
    Option Pubkey → ProgramResult Unit
  | some expected_quote => do
    let supplied_quote ← ok_or supplied InvalidOracleQuote
    require (expected_quote = supplied_quote.key) InvalidOracleQuote
  | none => require (supplied.isNone = true) InvalidOracleQuote

def effective_rate (currency : DepositCurrency) (oracle_quote : Option (Account OracleQuote))
    (configured_manager : Option Pubkey) (rate_manager : Option (Account RateManager))
    (rate_entry : Option (Account RateEntry)) (now : ℤ) : ProgramResult ℕ := do
  check_oracle_quote oracle_quote currency.oracle_quote
  let escrow_floor ← currency.escrow_floor (oracle_quote.map Account.data) now
  -- an unavailable floor is reported as zero, and the manager accounts are then not looked at
  if escrow_floor = 0 then
    return 0
  else
    match configured_manager with
    | none => do
      require (rate_manager.isNone = true ∧ rate_entry.isNone = true) Unauthorized
      return escrow_floor
    | some expected_manager => do
      let manager ← ok_or rate_manager Unauthorized
      let entry ← ok_or rate_entry CurrencyNotSupported
      require (manager.key = rate_manager_address manager.data.config manager.data.nonce)
        Unauthorized
      require (manager.key = expected_manager) Unauthorized
      require (entry.data.rate_manager = manager.key) Unauthorized
      require (entry.data.payment_method = currency.payment_method) PaymentMethodNotSupported
      require (entry.data.currency = currency.currency) CurrencyNotSupported
      require (0 < entry.data.rate) CurrencyNotSupported
      -- the manager may raise the rate above the escrow's floor but never below it
      return Max.max entry.data.rate escrow_floor

/-- The loop of `validate_referral_fees`: nonzero recipients and fees, no recipient repeated
later in the list. -/
def referral_total (total : ℕ) : List ReferralFee → ProgramResult ℕ
  | [] => .ok total
  | fee :: rest => do
    require (fee.recipient ≠ Pubkey.default) ZeroAddress
    require (0 < fee.fee) ZeroValue
    require (∀ other ∈ rest, other.recipient ≠ fee.recipient) AlreadyInState
    let total ← ok_or (Checked.add 128 total fee.fee) ArithmeticOverflow
    referral_total total rest

def validate_referral_fees (fees : List ReferralFee) : ProgramResult Unit := do
  require (fees.length ≤ 10) MaximumIntentsExceeded
  let total ← referral_total 0 fees
  require (total ≤ MAX_REFERRAL_FEE) FeeExceedsMaximum

/-! ## The gating signature -/

/-- Canonical fields supplied when signaling an intent. -/
structure SignalIntentArgs where
  expected_intent_hash : Bytes 32
  amount : ℕ
  recipient : Pubkey
  payment_method : Bytes 32
  fiat_currency : Bytes 32
  conversion_rate : ℕ
  referral_fees : List ReferralFee
  gating_signature_expiration : ℤ

/-- The Borsh encoding of the referral fees: a `u32` length, then the entries. -/
def referral_fee_bytes (rt : Runtime) (fees : List ReferralFee) : List UInt8 :=
  le_bytes 4 fees.length
    ++ (fees.map fun fee => rt.as_ref fee.recipient ++ le_bytes 16 fee.fee).flatten

/-- The message a gating service signs the hash of. -/
def gating_message (rt : Runtime) (domain_chain_id : Bytes 32) (deposit taker : Pubkey)
    (args : SignalIntentArgs) : List UInt8 :=
  rt.as_ref orchestrator_address ++ rt.as_ref deposit ++ rt.as_ref taker
    ++ le_bytes 8 args.amount ++ rt.as_ref args.recipient ++ args.payment_method.toList
    ++ args.fiat_currency.toList ++ le_bytes 16 args.conversion_rate
    ++ referral_fee_bytes rt args.referral_fees ++ le_bytes_i64 args.gating_signature_expiration
    ++ domain_chain_id.toList ++ rt.as_ref program_id

/-- `data.get(start..start + length)`. -/
def get_slice (data : List UInt8) (start length : ℕ) : Option (List UInt8) :=
  if start + length ≤ data.length then some ((data.drop start).take length) else none

def read_u16 (data : List UInt8) (offset : ℕ) : Option ℕ :=
  (get_slice data offset 2).map of_le_bytes

/-- One self-contained signature of `signer` over `message`. -/
def ed25519_instruction_matches (data signer message : List UInt8) : Bool :=
  decide (data.head? = some 1) &&
  match read_u16 data 4, read_u16 data 6, read_u16 data 8, read_u16 data 10, read_u16 data 12,
    read_u16 data 14 with
  | some signature_instruction, some public_key_offset, some public_key_instruction,
    some message_offset, some message_size, some message_instruction =>
    decide (signature_instruction = 65535) && decide (public_key_instruction = 65535)
      && decide (message_instruction = 65535) && decide (message_size = message.length)
      && decide (get_slice data public_key_offset 32 = some signer)
      && decide (get_slice data message_offset message.length = some message)
  | _, _, _, _, _, _ => false

/-- `ed25519` holds the data of the earlier ed25519 instructions of the transaction. -/
def validate_gating_signature (rt : Runtime) (ctx : TxContext) (ed25519 : List (List UInt8))
    (gating_service : Option Pubkey) (domain_chain_id : Bytes 32) (deposit taker : Pubkey)
    (args : SignalIntentArgs) : ProgramResult Unit :=
  match gating_service with
  | none => .ok ()
  | some gating_service => do
    require (ctx.now ≤ args.gating_signature_expiration) SignatureExpired
    let digest := rt.keccak (gating_message rt domain_chain_id deposit taker args)
    require (ed25519.any (fun data =>
      ed25519_instruction_matches data (rt.as_ref gating_service) digest.toList) = true)
      InvalidSignature

/-! ## Admission -/

/-- What `validate_lifecycle_admission` decides from. -/
structure LifecycleAdmission where
  policy : LifecyclePolicy
  deposit : Pubkey
  whitelist : Option (Account DepositWhitelist)
  direct_member : Option (Account DepositWhitelistMember)
  allowed_group : Option (Account AddressGroup)
  group_member : Option (Account GroupMember)
  resolver_program : Option Pubkey
  resolver_accounts : List AccountInfo
  dispute_intent : Option (Account DisputeIntent)
  deposit_dispute_setting : Option (Account DepositDisputeSetting)
  risk_window : Option (Account RiskWindow)
  intent_hash : Bytes 32
  taker : Pubkey
  payment_method : Bytes 32
  amount : ℕ

/-- `b"zkp2p-whitelist-resolver-v1"`. -/
def RESOLVER_PREFIX : List UInt8 :=
  [0x7a, 0x6b, 0x70, 0x32, 0x70, 0x2d, 0x77, 0x68, 0x69, 0x74, 0x65, 0x6c, 0x69, 0x73, 0x74, 0x2d,
    0x72, 0x65, 0x73, 0x6f, 0x6c, 0x76, 0x65, 0x72, 0x2d, 0x76, 0x31]

def resolver_return_is_yes (expected_program : Pubkey)
    (returned : Option (Pubkey × List UInt8)) : Bool :=
  returned.any fun answer => decide (answer.1 = expected_program) && decide (answer.2 = [1])

/-- What the resolver of a group answers about a taker; a failed call is a no. -/
def resolver_answer (rt : Runtime) (ctx : TxContext) (program : Pubkey) (keys : List Pubkey)
    (group_id : Bytes 32) (taker : Pubkey) : Bool :=
  match ctx.invoke program keys (RESOLVER_PREFIX ++ group_id.toList ++ rt.as_ref taker) with
  | none => false
  | some returned => resolver_return_is_yes program returned

def resolver_says_yes (rt : Runtime) (ctx : TxContext) (group : AddressGroup) (taker : Pubkey)
    (resolver_program : Option Pubkey) (resolver_accounts : List AccountInfo) :
    ProgramResult Bool :=
  match group.resolver with
  | none => do
    require (resolver_program.isNone = true ∧ resolver_accounts = []) Unauthorized
    return false
  | some expected_program => do
    let resolver ← ok_or resolver_program TakerNotWhitelisted
    require (resolver = expected_program) Unauthorized
    require (ctx.executable resolver = true) Unauthorized
    require (resolver_accounts.length ≤ MAX_RESOLVER_ACCOUNTS) AmountAboveMaximum
    -- the resolver is a foreign program: nothing it could sign with or write to is handed over
    require (∀ account ∈ resolver_accounts,
      account.is_signer = false ∧ account.is_writable = false) Unauthorized
    return resolver_answer rt ctx resolver (resolver_accounts.map AccountInfo.key) group.id taker

/-- An active direct membership of `taker` in the whitelist at `key`. -/
def is_direct_member (key taker : Pubkey) (member : Account DepositWhitelistMember) : Bool :=
  decide (member.key = whitelist_member_address key taker) && member.data.active
    && decide (member.data.taker = taker) && decide (member.data.deposit_whitelist = key)

/-- An active curated membership of `taker` in the group at `key`. -/
def is_curated_member (key taker : Pubkey) (member : Account GroupMember) : Bool :=
  decide (member.key = group_member_address key taker) && member.data.active
    && decide (member.data.member = taker) && decide (member.data.group = key)

def whitelist_allows (rt : Runtime) (ctx : TxContext) (whitelist : Account DepositWhitelist)
    (direct_member : Option (Account DepositWhitelistMember))
    (allowed_group : Option (Account AddressGroup)) (group_member : Option (Account GroupMember))
    (resolver_program : Option Pubkey) (resolver_accounts : List AccountInfo) (taker : Pubkey) :
    ProgramResult Bool :=
  if direct_member.any (is_direct_member whitelist.key taker) = true then do
    require (allowed_group.isNone = true ∧ group_member.isNone = true
      ∧ resolver_program.isNone = true ∧ resolver_accounts = []) Unauthorized
    return true
  else
    match allowed_group with
    | none => do
      require (group_member.isNone = true ∧ resolver_program.isNone = true
        ∧ resolver_accounts = []) Unauthorized
      return false
    | some group => do
      require (group.key = address_group_address group.data.whitelist_config group.data.nonce)
        Unauthorized
      -- a group the deposit does not allow is a no, not an error; its member and resolver
      -- accounts are then not looked at
      if group.data.id ∉ whitelist.data.allowed_groups then
        return false
      else if group_member.any (is_curated_member group.key taker) = true then do
        require (resolver_program.isNone = true ∧ resolver_accounts = []) Unauthorized
        return true
      else
        resolver_says_yes rt ctx group.data taker resolver_program resolver_accounts

namespace LifecycleAdmission

def no_whitelist_evidence (a : LifecycleAdmission) : Prop :=
  a.direct_member.isNone = true ∧ a.allowed_group.isNone = true ∧ a.group_member.isNone = true
    ∧ a.resolver_program.isNone = true ∧ a.resolver_accounts = []

def no_dispute_evidence (a : LifecycleAdmission) : Prop :=
  a.dispute_intent.isNone = true ∧ a.deposit_dispute_setting.isNone = true
    ∧ a.risk_window.isNone = true

instance (a : LifecycleAdmission) : Decidable a.no_whitelist_evidence :=
  inferInstanceAs (Decidable (_ ∧ _))

instance (a : LifecycleAdmission) : Decidable a.no_dispute_evidence :=
  inferInstanceAs (Decidable (_ ∧ _))

/-- Enforcement as the supplied whitelist account says; off when it is left out. -/
def whitelist_enabled (a : LifecycleAdmission) : ProgramResult Bool :=
  match a.whitelist with
  | some policy_account => do
    require (policy_account.key = deposit_whitelist_address a.deposit) Unauthorized
    require (policy_account.data.deposit = a.deposit) Unauthorized
    return policy_account.data.enabled
  -- an omitted account reads as an off switch: whether one exists on the ledger is not asked
  | none => .ok false

def whitelisted (rt : Runtime) (ctx : TxContext) (a : LifecycleAdmission) (enabled : Bool) :
    ProgramResult Bool :=
  if enabled = true then do
    let whitelist ← ok_or a.whitelist TakerNotWhitelisted
    whitelist_allows rt ctx whitelist a.direct_member a.allowed_group a.group_member
      a.resolver_program a.resolver_accounts a.taker
  else do
    require a.no_whitelist_evidence Unauthorized
    return false

/-- Protection as the supplied setting account says; on when it is left out. -/
def dispute_enabled (a : LifecycleAdmission) : ProgramResult Bool :=
  match a.deposit_dispute_setting with
  -- here the omitted account reads as on, also for a deposit that has opted out
  | none => .ok true
  | some setting => do
    require (setting.key = dispute_setting_address a.deposit) Unauthorized
    require (setting.data.deposit = a.deposit) Unauthorized
    return setting.data.enabled

end LifecycleAdmission

def validate_dispute_admission (a : LifecycleAdmission) : ProgramResult Unit := do
  let risk ← ok_or a.risk_window DisputeProtectionDisabled
  require (risk.data.dispute_config = dispute_config_address) Unauthorized
  require (risk.key = risk_window_address risk.data.dispute_config a.payment_method) Unauthorized
  require (risk.data.payment_method = a.payment_method) PaymentMethodNotSupported
  -- a zero window admits without coverage and then refuses a coverage account
  if risk.data.seconds = 0 then
    require (a.dispute_intent.isNone = true) Unauthorized
  else do
    let dispute ← ok_or a.dispute_intent DisputeProtectionDisabled
    require (dispute.key = dispute_intent_address risk.data.dispute_config a.intent_hash)
      Unauthorized
    require (dispute.data.dispute_config = risk.data.dispute_config) Unauthorized
    require (dispute.data.intent_hash = a.intent_hash ∧ dispute.data.taker = a.taker
      ∧ dispute.data.payment_method = risk.data.payment_method
      ∧ dispute.data.risk_window = risk.data.seconds ∧ dispute.data.deposit = a.deposit
      ∧ dispute.data.locked_amount = a.amount) IntentSnapshotMismatch
    require (dispute.data.status = .Pending) DisputeIntentNotPending

def validate_lifecycle_admission (rt : Runtime) (ctx : TxContext) (a : LifecycleAdmission) :
    ProgramResult Unit :=
  if a.policy = .None then
    require (a.whitelist.isNone = true ∧ a.no_whitelist_evidence ∧ a.no_dispute_evidence)
      Unauthorized
  else do
    let whitelist_enabled ← a.whitelist_enabled
    let whitelisted ← a.whitelisted rt ctx whitelist_enabled
    if a.policy = .Whitelist then do
      require (whitelist_enabled = false ∨ whitelisted = true) TakerNotWhitelisted
      require a.no_dispute_evidence Unauthorized
    -- a whitelisted taker needs no coverage, and may not bring any
    else if whitelisted = true then
      require a.no_dispute_evidence Unauthorized
    else do
      let dispute_enabled ← a.dispute_enabled
      if dispute_enabled = false then do
        require (a.dispute_intent.isNone = true ∧ a.risk_window.isNone = true) Unauthorized
        -- with protection off, the whitelist is the only way left in
        require (whitelist_enabled = false) TakerNotWhitelisted
      else
        validate_dispute_admission a

/-! ## `signal_intent` -/

/-- Accounts of `signal_intent`, without the ones its seeds determine. -/
structure SignalIntent where
  taker : Pubkey
  deposit : Pubkey
  oracle_quote : Option Pubkey
  rate_manager : Option Pubkey
  rate_entry : Option Pubkey
  deposit_whitelist : Option Pubkey
  direct_whitelist_member : Option Pubkey
  allowed_group : Option Pubkey
  group_member : Option Pubkey
  resolver_program : Option Pubkey
  dispute_intent : Option Pubkey
  deposit_dispute_setting : Option Pubkey
  risk_window : Option Pubkey
  remaining_accounts : List AccountInfo

/-- The admission evidence the taker supplied, loaded. -/
def load_admission (accounts : SignalIntent) (args : SignalIntentArgs) (intent_hash : Bytes 32)
    (s : State) : ProgramResult LifecycleAdmission := do
  let whitelist ← load_opt s.deposit_whitelists accounts.deposit_whitelist
  let direct_member ← load_opt s.whitelist_members accounts.direct_whitelist_member
  let allowed_group ← load_opt s.address_groups accounts.allowed_group
  let group_member ← load_opt s.group_members accounts.group_member
  let dispute_intent ← load_opt s.dispute_intents accounts.dispute_intent
  let deposit_dispute_setting ← load_opt s.dispute_settings accounts.deposit_dispute_setting
  let risk_window ← load_opt s.risk_windows accounts.risk_window
  return {
    policy := s.orchestrator.lifecycle_policy
    deposit := accounts.deposit
    whitelist := whitelist
    direct_member := direct_member
    allowed_group := allowed_group
    group_member := group_member
    resolver_program := accounts.resolver_program
    resolver_accounts := accounts.remaining_accounts
    dispute_intent := dispute_intent
    deposit_dispute_setting := deposit_dispute_setting
    risk_window := risk_window
    intent_hash := intent_hash
    taker := accounts.taker
    payment_method := args.payment_method
    amount := args.amount }

/-- The payment method and the currency of the deposit, usable for this call. -/
def signaled_tuple (accounts : SignalIntent) (args : SignalIntentArgs) (s : EscrowRecords) :
    ProgramResult (DepositPaymentMethod × DepositCurrency) := do
  let method ← load s.payment_methods (payment_method_address accounts.deposit args.payment_method)
  require (method.deposit = accounts.deposit) PaymentMethodNotSupported
  let currency ← load s.currencies
    (deposit_currency_address accounts.deposit args.payment_method args.fiat_currency)
  require (currency.deposit = accounts.deposit) CurrencyNotSupported
  require (method.active = true) PaymentMethodNotSupported
  require (currency.listed = true) CurrencyNotSupported
  return (method, currency)

/-- The rate floor check, and the manager terms the intent snapshots. -/
def signaled_terms (ctx : TxContext) (accounts : SignalIntent) (args : SignalIntentArgs)
    (deposit : Deposit) (currency : DepositCurrency) (s : State) :
    ProgramResult (Option Pubkey × ℕ) := do
  let oracle_quote ← load_opt s.oracle_quotes accounts.oracle_quote
  let rate_manager ← load_opt s.rate_managers accounts.rate_manager
  let rate_entry ← load_opt s.rate_entries accounts.rate_entry
  let floor ← effective_rate currency oracle_quote deposit.rate_manager rate_manager rate_entry
    ctx.now
  require (0 < floor) CurrencyNotSupported
  require (floor ≤ args.conversion_rate) RateBelowMinimum
  let terms := rate_manager.elim (none, 0) fun manager =>
    (manager.data.fee_recipient, manager.data.fee)
  require (terms.2 ≤ MAX_FEE) FeeExceedsMaximum
  return terms

/-- The intent account `handle_signal_intent` writes. -/
def new_intent (accounts : SignalIntent) (args : SignalIntentArgs) (a : LifecycleAdmission)
    (method : DepositPaymentMethod) (terms : Option Pubkey × ℕ) (nonce : ℕ) (now : ℤ) : Intent where
  orchestrator := orchestrator_address
  intent_hash := a.intent_hash
  nonce := nonce
  owner := accounts.taker
  recipient := args.recipient
  deposit := accounts.deposit
  amount := args.amount
  timestamp := now
  payment_method := args.payment_method
  fiat_currency := args.fiat_currency
  conversion_rate := args.conversion_rate
  payee_id := method.payee_details
  manager_fee_recipient := terms.1
  manager_fee := terms.2
  lifecycle_policy := a.policy
  -- read off the supplied window a second time, not off the branch admission took; the two
  -- agree because every branch without coverage refuses a window or takes a zero one
  dispute_covered := a.risk_window.any fun window => decide (0 < window.data.seconds)
  referral_fees := args.referral_fees

/-- The taker's counter, opened on first use and raised by one. -/
def raised_taker_state (state : TakerIntentState) (taker : Pubkey) :
    ProgramResult TakerIntentState := do
  let active ← ok_or (Checked.add 16 state.active_intents 1) ArithmeticOverflow
  -- a counter account just created is all zeros, so a zero taker marks first use
  if state.taker = Pubkey.default then
    return { orchestrator := orchestrator_address, taker := taker, active_intents := active }
  else
    return { state with active_intents := active }

/-- Signals one fully snapshotted intent and creates its escrow lock atomically. -/
def handle_signal_intent (rt : Runtime) (ctx : TxContext) (ed25519 : List (List UInt8))
    (accounts : SignalIntent) (args : SignalIntentArgs) (s : State) : ProgramResult State := do
  signer accounts.taker
  require (s.orchestrator.escrow_config = escrow_config_address) Unauthorized
  let deposit ← load s.deposits accounts.deposit
  require (deposit.escrow_config = escrow_config_address) DepositNotFound
  let nonce := s.orchestrator.next_intent_id
  let intent_key := intent_address orchestrator_address nonce
  let lock_key := intent_lock_address accounts.deposit args.expected_intent_hash
  let state_key := taker_state_address orchestrator_address accounts.taker
  -- the lock's address uses the client's hash: it is compared with the derived one below
  init s.intents intent_key
  init s.intent_locks lock_key
  let taker_state := init_if_needed s.taker_states state_key
  require (s.orchestrator.paused = false) Paused
  require (s.escrow_config.paused = false) Paused
  require (args.recipient ≠ Pubkey.default) ZeroAddress
  let (method, currency) ← signaled_tuple accounts args s.toEscrowRecords
  validate_referral_fees args.referral_fees
  validate_gating_signature rt ctx ed25519 method.gating_service s.orchestrator.domain_chain_id
    accounts.deposit accounts.taker args
  -- the counter read here is the taker's own, across all deposits
  require (s.orchestrator.allow_multiple_intents = false → taker_state.active_intents = 0)
    AccountHasActiveIntent
  let intent_hash := derive_intent_hash rt orchestrator_address nonce
  require (intent_hash = args.expected_intent_hash) DataHashMismatch
  let terms ← signaled_terms ctx accounts args deposit currency s
  let admission ← load_admission accounts args intent_hash s
  validate_lifecycle_admission rt ctx admission
  -- from here on nothing is checked but arithmetic: the four records are written together
  let deposit ← deposit.lock args.amount s.escrow_config.max_intents_per_deposit
  let expiry ← ok_or (Checked.add_i64 ctx.now s.escrow_config.intent_expiration_period)
    ArithmeticOverflow
  let intent := new_intent accounts args admission method terms nonce ctx.now
  let lock : EscrowIntentLock :=
    { deposit := accounts.deposit
      intent_hash := intent_hash
      orchestrator := orchestrator_address
      amount := args.amount
      timestamp := ctx.now
      expiry_time := expiry }
  let taker_state ← raised_taker_state taker_state accounts.taker
  let next ← ok_or (Checked.add 64 nonce 1) ArithmeticOverflow
  return { s with
    deposits := s.deposits.insert accounts.deposit deposit
    intent_locks := s.intent_locks.insert lock_key lock
    orchestrator := { s.orchestrator with next_intent_id := next }
    intents := s.intents.insert intent_key intent
    taker_states := s.taker_states.insert state_key taker_state }

/-! ## Closing an intent -/

/-- The accounts every closing instruction loads by the seeds of the intent it names. -/
structure LiveIntent where
  intent : Intent
  deposit : Deposit
  lock : EscrowIntentLock
  taker_state : TakerIntentState

def live_intent (key : Pubkey) (s : State) : ProgramResult LiveIntent := do
  let intent ← load s.intents key
  -- the seeds are the intent's own nonce, so a record cannot be presented under another key
  require (key = intent_address orchestrator_address intent.nonce) AnchorError.ConstraintSeeds
  let deposit ← load s.deposits intent.deposit
  let lock ← load s.intent_locks (intent_lock_address intent.deposit intent.intent_hash)
  let taker_state ← load s.taker_states (taker_state_address orchestrator_address intent.owner)
  return ⟨intent, deposit, lock, taker_state⟩

/-- Lowers the taker's counter, closes the intent and its lock and writes the deposit back. -/
def close_intent (key : Pubkey) (live : LiveIntent) (deposit : Deposit) (s : State) :
    ProgramResult State := do
  let active ← ok_or (Checked.sub live.taker_state.active_intents 1) ArithmeticOverflow
  return { s with
    deposits := s.deposits.insert live.intent.deposit deposit
    intent_locks := s.intent_locks.erase
      (intent_lock_address live.intent.deposit live.intent.intent_hash)
    intents := s.intents.erase key
    taker_states := s.taker_states.insert
      (taker_state_address orchestrator_address live.intent.owner)
      { live.taker_state with active_intents := active } }

structure CancelIntent where
  owner : Pubkey
  intent : Pubkey
  resolved_dispute : Option Pubkey

/-- The dispute evidence `handle_cancel_intent` asks for: cancelled coverage, or none for an
uncovered intent. -/
def check_resolved (intent : Intent) (resolved : Option (Account DisputeIntent)) :
    ProgramResult Unit :=
  if intent.dispute_covered = true then do
    -- the coverage must have been cancelled already, by the preceding `cancel_dispute`
    let dispute ← ok_or resolved DisputeIntentNotPending
    require (dispute.data.intent_hash = intent.intent_hash ∧ dispute.data.status = .Cancelled)
      DisputeIntentNotPending
  else require (resolved.isNone = true) Unauthorized

/-- Cancels one active intent and conserves the complete locked principal. -/
def handle_cancel_intent (accounts : CancelIntent) (s : State) : ProgramResult State := do
  signer accounts.owner
  let live ← live_intent accounts.intent s
  require (accounts.owner = live.intent.owner) AnchorError.ConstraintAddress
  require (live.intent.orchestrator = orchestrator_address) IntentNotFound
  require (live.lock.intent_hash = live.intent.intent_hash) IntentNotFound
  require (live.lock.orchestrator = orchestrator_address) Unauthorized
  let resolved ← load_opt s.dispute_intents accounts.resolved_dispute
  require (live.taker_state.taker = accounts.owner) Unauthorized
  check_resolved live.intent resolved
  let deposit ← live.deposit.unlock live.lock.amount
  close_intent accounts.intent live deposit s

/-- Optional lifecycle accounts of a prune. The configuration accounts are bound by their seeds,
so only their presence is a choice. -/
structure PruneDisputeAccounts where
  dispute_config : Bool
  dispute_intent : Option Pubkey
  stake_vault : Bool
  stake_position : Option Pubkey
  stake_lock : Option Pubkey

structure PruneExpiredIntent where
  caller : Pubkey
  intent : Pubkey
  dispute : PruneDisputeAccounts

/-- The lifecycle part of a prune: cancel the coverage and free its collateral. -/
def prune_dispute (accounts : PruneDisputeAccounts) (intent : Intent) (s : State) :
    ProgramResult State := do
  let dispute_intent ← load_opt s.dispute_intents accounts.dispute_intent
  let stake_position ← load_opt s.stake_positions accounts.stake_position
  let stake_lock ← load_opt s.stake_locks accounts.stake_lock
  if intent.dispute_covered = true then do
    require (accounts.dispute_config = true) DisputeIntentNotPending
    let dispute ← ok_or dispute_intent DisputeIntentNotPending
    require (accounts.stake_vault = true) DisputeIntentNotPending
    let position ← ok_or stake_position DisputeIntentNotPending
    let lock ← ok_or stake_lock DisputeIntentNotPending
    -- the vault's controller is not compared here, unlike in `settle_dispute_if_covered`
    require (s.dispute_config.stake_vault = stake_vault_address) Unauthorized
    require (dispute.key = dispute_intent_address dispute_config_address intent.intent_hash)
      Unauthorized
    require (position.key = stake_position_address stake_vault_address dispute.data.stake_owner)
      Unauthorized
    require (lock.key = stake_lock_address stake_vault_address intent.intent_hash) Unauthorized
    require (lock.data.stake_owner = position.data.owner) UnauthorizedStakeOwner
    let cancelled ← dispute.data.cancel
    let unlocked ← position.data.unlock lock.data.amount
    return { s with
      dispute_intents := s.dispute_intents.insert dispute.key cancelled
      stake_positions := s.stake_positions.insert position.key unlocked
      stake_locks := s.stake_locks.erase lock.key }
  else do
    require (accounts.dispute_config = false ∧ dispute_intent.isNone = true
      ∧ accounts.stake_vault = false ∧ stake_position.isNone = true ∧ stake_lock.isNone = true)
      Unauthorized
    return s

/-- Prunes one strictly expired intent while conserving escrow and collateral accounting. -/
def handle_prune_expired_intent (ctx : TxContext) (accounts : PruneExpiredIntent) (s : State) :
    ProgramResult State := do
  signer accounts.caller
  let live ← live_intent accounts.intent s
  require (live.lock.orchestrator = orchestrator_address) Unauthorized
  -- strictly past the expiry, and open to any caller
  require (live.lock.expiry_time < ctx.now) IntentNotFound
  let s ← prune_dispute accounts.dispute live.intent s
  let deposit ← live.deposit.unlock live.lock.amount
  close_intent accounts.intent live deposit s

end Zkp2pSolana
