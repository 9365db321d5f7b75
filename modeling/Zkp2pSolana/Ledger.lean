/-
The ledger: every account of the program, the token accounts, and the part of
the runtime the handlers call.

Accounts are kept by type. A typed load succeeds exactly when a live account of
that type sits at the key, which is what the owner and discriminator checks of
`Account<'info, T>` establish, and `init` succeeds exactly when none does. The
configuration accounts are created together by `initialize_protocol` and never
closed, so they are plain fields.

Lamports, rent and the fee payer are not modelled: no handler reads them.
-/
import Zkp2pSolana.State
import Zkp2pSolana.Lib.FinmapTotal

set_option autoImplicit false

namespace Zkp2pSolana

open Result Zkp2pError

/-- The live accounts of one type, by address. -/
abbrev Accounts (α : Type) := Finmap (fun _ : Pubkey => α)

/-- A token account of the legacy token program. -/
structure TokenAccount where
  mint : Pubkey
  owner : Pubkey
  amount : ℕ

/-! ## The accounts, component by component -/

/-- Records that exist independently of every configuration account. -/
structure OpenRecords where
  oracle_quotes : Accounts OracleQuote
  taker_authorizations : Accounts TakerAuthorization
  stake_selections : Accounts StakeSelection

/-- EscrowV2: deposits, their configuration and their locks. -/
structure EscrowRecords where
  escrow_config : EscrowConfig
  deposits : Accounts Deposit
  payment_methods : Accounts DepositPaymentMethod
  currencies : Accounts DepositCurrency
  intent_locks : Accounts EscrowIntentLock

/-- OrchestratorV3: live intents and the taker counters. -/
structure OrchestratorRecords where
  orchestrator : OrchestratorConfig
  intents : Accounts Intent
  taker_states : Accounts TakerIntentState

/-- StakeVault: positions, collateral locks and claims. -/
structure StakeRecords where
  stake_vault : StakeVaultConfig
  stake_positions : Accounts StakePosition
  stake_locks : Accounts StakeLock
  claims : Accounts ClaimBalance

/-- UnifiedPaymentVerifierV3 and NullifierRegistryV2. -/
structure VerifierRecords where
  verifier : VerifierConfig
  payment_bindings : Accounts PaymentBinding
  intent_payment_bindings : Accounts IntentPaymentBinding

/-- AddressGroupRegistry and the whitelist policies. -/
structure WhitelistRecords where
  whitelist_config : WhitelistConfig
  address_groups : Accounts AddressGroup
  group_members : Accounts GroupMember
  deposit_whitelists : Accounts DepositWhitelist
  whitelist_members : Accounts DepositWhitelistMember

/-- Dispute protection. -/
structure DisputeRecords where
  dispute_config : DisputeConfig
  dispute_intents : Accounts DisputeIntent
  risk_windows : Accounts RiskWindow
  dispute_settings : Accounts DepositDisputeSetting
  dispute_nullifiers : Accounts DisputeNullifier

/-- RateManagerV1. -/
structure RateManagerRecords where
  rate_manager_config : RateManagerConfig
  rate_managers : Accounts RateManager
  rate_entries : Accounts RateEntry

/-- Everything a transaction can read or write. -/
structure State extends OpenRecords, EscrowRecords, OrchestratorRecords, StakeRecords,
    VerifierRecords, WhitelistRecords, DisputeRecords, RateManagerRecords where
  protocol : ProtocolConfig
  tokens : Accounts TokenAccount

/-! ## The runtime

What the handlers call outside this repository: the hash function, the bytes of
a derived address, secp256k1 recovery, and per transaction the clock, the
executable flag of accounts and the programs a resolver call reaches. -/

structure Runtime where
  /-- `keccak::hashv`, on the concatenation of its slices. -/
  keccak : List UInt8 → Bytes 32
  /-- The 32 bytes of a program-derived address. -/
  pda_bytes : Pubkey → Bytes 32
  /-- `secp256k1_recover`: digest, recovery id, `r || s`. -/
  secp256k1_recover : Bytes 32 → ℕ → List UInt8 → Option (List UInt8)
  /-- Whether the ed25519 precompile accepts an instruction with this data. -/
  ed25519_precompile : List UInt8 → Bool

/-- `Pubkey::as_ref`. -/
def Runtime.as_ref (rt : Runtime) : Pubkey → List UInt8
  | .addr b => b.toList
  | k => (rt.pda_bytes k).toList

/-- An `AccountInfo` passed through to a resolver. -/
structure AccountInfo where
  key : Pubkey
  is_signer : Bool
  is_writable : Bool

/-- What one transaction sees of the cluster. -/
structure TxContext where
  /-- `Clock::get()?.unix_timestamp`. -/
  now : ℤ
  executable : Pubkey → Bool
  /-- `invoke` followed by `get_return_data`, by program, accounts and data: `none` when the
  invoked program fails. -/
  invoke : Pubkey → List Pubkey → List UInt8 → Option (Option (Pubkey × List UInt8))

/-! ## Loading and creating accounts -/

section Accounts

variable {α : Type}

/-- `Account<'info, T>`: an address with the data loaded from it. -/
structure Account (α : Type) where
  key : Pubkey
  data : α

/-- `Account<'info, T>` at a key. -/
def load (m : Accounts α) (k : Pubkey) : ProgramResult α :=
  ok_or (m.lookup k) AnchorError.AccountNotInitialized

/-- `Option<Account<'info, T>>` at an optional key. -/
def load_opt (m : Accounts α) : Option Pubkey → ProgramResult (Option (Account α))
  | none => .ok none
  | some k => do return some ⟨k, ← load m k⟩

/-- The `init` constraint. -/
def init (m : Accounts α) (k : Pubkey) : ProgramResult Unit :=
  require (m.lookup k = none) AnchorError.AccountAlreadyInUse

/-- The `init_if_needed` constraint: the account at the key, zeroed if there was none. -/
def init_if_needed [Inhabited α] (m : Accounts α) (k : Pubkey) : α := (m.lookup k).getD default

/-- `Signer<'info>`. -/
def signer (k : Pubkey) : ProgramResult Unit :=
  require (k.can_sign = true) AnchorError.AccountNotSigner

/-- The framework's check, once the accounts of a context are loaded, that no mutable account of one
type was supplied twice. It covers the declared accounts, not the remaining ones. -/
def mutable_once (keys : List Pubkey) : ProgramResult Unit :=
  require keys.Nodup AnchorError.ConstraintDuplicateMutableAccount

/-- A record's list of distinct entries after one is added or removed: `room` is checked before the
push, `spare` before the removal. -/
def toggle [DecidableEq α] (entries : List α) (entry : α) (enabled : Bool)
    (room spare : ProgramResult Unit) : ProgramResult (List α) :=
  match enabled, decide (entry ∈ entries) with
  | true, false => do
    room
    return entries ++ [entry]
  -- `remove(position)` at the first position of the entry
  | false, true => do
    spare
    return entries.erase entry
  | _, _ => throw (AlreadyInState : ProgramError)

/-- `Account<T>` is accepted exactly where a record of the type sits at the key. -/
theorem load_eq_ok {m : Accounts α} {k : Pubkey} {a : α} :
    load m k = .ok a ↔ m.lookup k = some a := ok_or_eq_ok

/-- `init` is accepted exactly where nothing sits at the key yet. -/
theorem init_eq_ok {m : Accounts α} {k : Pubkey} {u : Unit} :
    init m k = .ok u ↔ m.lookup k = none := require_eq_ok

/-- `Signer` is accepted exactly for a key that can sign. -/
theorem signer_eq_ok {k : Pubkey} {u : Unit} : signer k = .ok u ↔ k.can_sign = true :=
  require_eq_ok

/-- An optional account that loaded is the live account at the key it was named by. -/
theorem mutable_once_eq_ok {keys : List Pubkey} {u : Unit} :
    mutable_once keys = .ok u ↔ keys.Nodup :=
  require_eq_ok

/-- An optional account is accepted when it is absent, or present with a record behind it; what is
handed on carries the key it was found at. -/
theorem load_opt_eq_ok {m : Accounts α} {k : Option Pubkey} {o : Option (Account α)} :
    load_opt m k = .ok o ↔
      o.map Account.key = k ∧ ∀ a ∈ o, m.lookup a.key = some a.data := by
  cases k with
  | none => cases o <;> simp [load_opt]
  | some key =>
    simp only [load_opt, bind_eq_ok, load_eq_ok, pure_eq_ok]
    constructor
    · rintro ⟨a, ha, rfl⟩
      simpa using ha
    · rintro ⟨hkey, hdata⟩
      obtain ⟨a, rfl, rfl⟩ := Option.map_eq_some_iff.mp hkey
      exact ⟨a.data, hdata a rfl, rfl⟩

end Accounts

/-! ## The token program

Legacy semantics: a transfer between two accounts of the mint, signed by the
source's owner, moves exactly `amount`; a transfer from an account to itself
moves nothing. -/

/-- `token::mint` and `token::authority` on a supplied token account. -/
def token_account (tokens : Accounts TokenAccount) (key mint authority : Pubkey) :
    ProgramResult TokenAccount := do
  let account ← load tokens key
  require (account.mint = mint) AnchorError.ConstraintTokenMint
  require (account.owner = authority) AnchorError.ConstraintTokenOwner
  return account

/-- `token_interface::transfer_checked`. -/
def transfer_checked (tokens : Accounts TokenAccount) (source destination mint authority : Pubkey)
    (amount : ℕ) : ProgramResult (Accounts TokenAccount) := do
  let src ← load tokens source
  let dst ← load tokens destination
  require (amount ≤ src.amount) TokenError.InsufficientFunds
  require (src.mint = mint ∧ dst.mint = mint) TokenError.MintMismatch
  require (src.owner = authority) TokenError.OwnerMismatch
  -- the token program checks a self-transfer like any other and then moves nothing
  if source = destination then
    return tokens
  else do
    let credited ← ok_or (Checked.add 64 dst.amount amount) TokenError.Overflow
    return (tokens.insert source { src with amount := src.amount - amount }).insert destination
      { dst with amount := credited }

/-- `token_interface::close_account`. -/
def close_account (tokens : Accounts TokenAccount) (account authority : Pubkey) :
    ProgramResult (Accounts TokenAccount) := do
  let acc ← load tokens account
  require (acc.amount = 0) TokenError.NonNativeHasBalance
  require (acc.owner = authority) TokenError.OwnerMismatch
  return tokens.erase account

/-- A transfer into custody followed by the exact-delta check on the vault. -/
def transfer_in (tokens : Accounts TokenAccount) (source vault mint authority : Pubkey)
    (amount : ℕ) : ProgramResult (Accounts TokenAccount) := do
  let before ← load tokens vault
  let tokens' ← transfer_checked tokens source vault mint authority amount
  let after ← load tokens' vault
  -- a transfer from the vault to itself moves nothing and fails here
  let received ← ok_or (Checked.sub after.amount before.amount) InvalidTokenBalanceDelta
  require (received = amount) InvalidTokenBalanceDelta
  return tokens'

/-- The tokens at an address, zero when there is no token account. -/
def balance (tokens : Accounts TokenAccount) (k : Pubkey) : ℕ :=
  (tokens.lookup k).elim 0 TokenAccount.amount

/-- What the token accounts of a mint hold together. -/
def supply (tokens : Accounts TokenAccount) (mint : Pubkey) : ℕ :=
  Finmap.owed TokenAccount.mint TokenAccount.amount tokens mint

/-! ## What other programs do to the token accounts

Any program may create token accounts at addresses of its own, move tokens
whose owner signs, and send tokens anywhere. It cannot create or close an
account at an address this program derives, nor take tokens from, or reassign,
an account owned by one. The token program keeps the supply of a mint in a
`u64` and mints no more than fits. -/

/-- The token accounts `tokens'` are what other programs may leave of `tokens`. -/
def external_ok (tokens tokens' : Accounts TokenAccount) : Prop :=
  (∀ k ∈ tokens.keys, ∀ a ∈ tokens.lookup k, k.is_pda = true ∨ a.owner.is_pda = true →
    ∃ a' ∈ tokens'.lookup k, a'.owner = a.owner ∧ a'.mint = a.mint ∧ a.amount ≤ a'.amount)
  ∧ ∀ k ∈ tokens'.keys, ∀ a ∈ tokens'.lookup k,
    supply tokens' a.mint < 2 ^ 64 ∧ (k.is_pda = true → (tokens.lookup k).isSome = true)

instance (tokens tokens' : Accounts TokenAccount) : Decidable (external_ok tokens tokens') :=
  inferInstanceAs (Decidable (_ ∧ _))

end Zkp2pSolana
