/-
`programs/zkp2p_solana/src/instructions/settlement.rs`: proof fulfillment and
the depositor's manual release.

A token account of the source is a handle: a key with the copy of the account
deserialized when the handle was made, which a transfer through another handle
does not refresh. The handles are modelled as such (`Account TokenAccount`) and
`reload` replaces the copy by what the ledger holds.
-/
import Zkp2pSolana.Instructions.Escrow
import Zkp2pSolana.Instructions.Orchestrator
import Zkp2pSolana.Instructions.Verifier

set_option autoImplicit false

namespace Zkp2pSolana

open Result Zkp2pError

/-! ## Token movements -/

/-- `account.reload()?`. -/
def Account.reload (handle : Account TokenAccount) (tokens : Accounts TokenAccount) :
    ProgramResult (Account TokenAccount) := do
  return ⟨handle.key, ← load tokens handle.key⟩

/-- A transfer out of the deposit vault whose debit and credit are checked to be exact. -/
def transfer_exact (deposit_key : Pubkey) (deposit : Deposit) (source destination : Account TokenAccount)
    (mint : Pubkey) (amount : ℕ) (tokens : Accounts TokenAccount) :
    ProgramResult (Accounts TokenAccount × Account TokenAccount × Account TokenAccount) := do
  require (0 < amount) ZeroValue
  require (deposit_address deposit.escrow_config deposit.id = deposit_key)
    AnchorError.AccountNotSigner
  let tokens ← transfer_checked tokens source.key destination.key mint deposit_key amount
  let source' ← source.reload tokens
  let destination' ← destination.reload tokens
  -- the copies made before the transfer are compared with the reloaded ones, so a stale copy
  -- fails here even when the transfer itself was exact
  let debited ← ok_or (Checked.sub source.data.amount source'.data.amount) InvalidTokenBalanceDelta
  let credited ← ok_or (Checked.sub destination'.data.amount destination.data.amount)
    InvalidTokenBalanceDelta
  require (debited = amount ∧ credited = amount) InvalidTokenBalanceDelta
  return (tokens, source', destination')

/-- Accounts of a settlement's token transfers. -/
structure SettlementTokenAccounts where
  mint : Pubkey
  deposit_vault : Pubkey
  recipient_token : Pubkey
  protocol_fee_token : Pubkey
  manager_fee_token : Option Pubkey

/-- The same accounts, deserialized when the instruction starts. -/
structure SettlementTokens where
  mint : Pubkey
  deposit_vault : Account TokenAccount
  recipient_token : Account TokenAccount
  protocol_fee_token : Account TokenAccount
  manager_fee_token : Option (Account TokenAccount)

def SettlementTokenAccounts.load (accounts : SettlementTokenAccounts)
    (tokens : Accounts TokenAccount) : ProgramResult SettlementTokens := do
  let deposit_vault ← Zkp2pSolana.load tokens accounts.deposit_vault
  let recipient_token ← Zkp2pSolana.load tokens accounts.recipient_token
  let protocol_fee_token ← Zkp2pSolana.load tokens accounts.protocol_fee_token
  let manager_fee_token ← load_opt tokens accounts.manager_fee_token
  mutable_once ([accounts.deposit_vault, accounts.recipient_token, accounts.protocol_fee_token]
    ++ accounts.manager_fee_token.toList)
  return {
    mint := accounts.mint
    deposit_vault := ⟨accounts.deposit_vault, deposit_vault⟩
    recipient_token := ⟨accounts.recipient_token, recipient_token⟩
    protocol_fee_token := ⟨accounts.protocol_fee_token, protocol_fee_token⟩
    manager_fee_token := manager_fee_token }

/-- The account checks at the head of `distribute_funds`. -/
def check_settlement_tokens (intent : Intent) (orchestrator : OrchestratorConfig)
    (deposit_key : Pubkey) (deposit : Deposit) (t : SettlementTokens) : ProgramResult Unit := do
  require (t.mint = deposit.token_mint) IntentTokenMismatch
  require (t.deposit_vault.key = deposit_vault_address deposit_key) Unauthorized
  require (t.deposit_vault.data.mint = t.mint) IntentTokenMismatch
  require (t.deposit_vault.data.owner = deposit_key) Unauthorized
  require (t.recipient_token.data.mint = t.mint) IntentTokenMismatch
  require (t.recipient_token.data.owner = intent.recipient) Unauthorized
  require (t.protocol_fee_token.data.mint = t.mint) IntentTokenMismatch
  require (t.protocol_fee_token.data.owner = orchestrator.protocol_fee_recipient) Unauthorized

/-- The protocol's part, sent when it is nonzero. -/
def pay_protocol (deposit_key : Pubkey) (deposit : Deposit) (t : SettlementTokens) (fee : ℕ)
    (tokens : Accounts TokenAccount) : ProgramResult (Accounts TokenAccount × SettlementTokens) :=
  if 0 < fee then do
    let (tokens, vault, destination) ← transfer_exact deposit_key deposit t.deposit_vault
      t.protocol_fee_token t.mint fee tokens
    return (tokens, { t with deposit_vault := vault, protocol_fee_token := destination })
  else .ok (tokens, t)

/-- The rate manager's part, sent to the snapshotted recipient when it is nonzero. -/
def pay_manager (intent : Intent) (deposit_key : Pubkey) (deposit : Deposit) (t : SettlementTokens)
    (fee : ℕ) (tokens : Accounts TokenAccount) :
    ProgramResult (Accounts TokenAccount × SettlementTokens) :=
  if 0 < fee then do
    -- the recipient snapshotted when the intent was signaled, not the manager's present one
    let expected_recipient ← ok_or intent.manager_fee_recipient ZeroAddress
    let destination ← ok_or t.manager_fee_token ZeroAddress
    require (destination.data.mint = t.mint) IntentTokenMismatch
    require (destination.data.owner = expected_recipient) Unauthorized
    let (tokens, vault, destination) ← transfer_exact deposit_key deposit t.deposit_vault
      destination t.mint fee tokens
    return (tokens, { t with deposit_vault := vault, manager_fee_token := some destination })
  else do
    require (t.manager_fee_token.isNone = true) Unauthorized
    return (tokens, t)

/-- The referral loop: each fee is added to the total and paid when it is nonzero. -/
def pay_referrals (release_amount : ℕ) (deposit_key : Pubkey) (deposit : Deposit) (mint : Pubkey) :
    List (ReferralFee × AccountInfo) → Account TokenAccount → ℕ → Accounts TokenAccount →
    ProgramResult (Accounts TokenAccount × Account TokenAccount × ℕ)
  | [], vault, total_fees, tokens => .ok (tokens, vault, total_fees)
  | (fee, account) :: rest, vault, total_fees, tokens => do
    let amount ← precise_mul_floor release_amount fee.fee
    let total_fees ← ok_or (Checked.add 64 total_fees amount) ArithmeticOverflow
    -- deserialized inside the loop, so an account an earlier transfer credited is read afresh
    let destination ← load tokens account.key
    require (destination.mint = mint) IntentTokenMismatch
    require (destination.owner = fee.recipient) Unauthorized
    if 0 < amount then do
      let (tokens, vault, _) ← transfer_exact deposit_key deposit vault ⟨account.key, destination⟩
        mint amount tokens
      pay_referrals release_amount deposit_key deposit mint rest vault total_fees tokens
    else
      pay_referrals release_amount deposit_key deposit mint rest vault total_fees tokens

/-- Pays the protocol, the manager, the referrers and the recipient out of the vault. -/
def distribute_funds (intent : Intent) (orchestrator : OrchestratorConfig) (deposit_key : Pubkey)
    (deposit : Deposit) (t : SettlementTokens) (remaining_accounts : List AccountInfo)
    (release_amount : ℕ) (tokens : Accounts TokenAccount) :
    ProgramResult (Accounts TokenAccount) := do
  check_settlement_tokens intent orchestrator deposit_key deposit t
  require (remaining_accounts.length = intent.referral_fees.length) ArrayLengthMismatch
  let protocol_fee ← precise_mul_floor release_amount orchestrator.protocol_fee
  let manager_fee ← precise_mul_floor release_amount intent.manager_fee
  let fees ← ok_or (Checked.add 64 protocol_fee manager_fee) ArithmeticOverflow
  let (tokens, t) ← pay_protocol deposit_key deposit t protocol_fee tokens
  let (tokens, t) ← pay_manager intent deposit_key deposit t manager_fee tokens
  let (tokens, vault, total_fees) ← pay_referrals release_amount deposit_key deposit t.mint
    (intent.referral_fees.zip remaining_accounts) t.deposit_vault fees tokens
  -- a net of zero fails in `transfer_exact`, so the fees may not take everything
  let net ← ok_or (Checked.sub release_amount total_fees) ArithmeticOverflow
  let (tokens, _, _) ← transfer_exact deposit_key deposit vault t.recipient_token t.mint net tokens
  return tokens

/-! ## The lifecycle part -/

/-- Optional dispute accounts of a settlement. -/
structure SettlementDisputeAccounts where
  dispute_intent : Option Pubkey
  stake_vault : Option Pubkey
  stake_position : Option Pubkey
  stake_lock : Option Pubkey

/-- The vault account, when supplied: the one at the canonical address is the only one there is. -/
def load_stake_vault (s : StakeRecords) :
    Option Pubkey → ProgramResult (Option (Account StakeVaultConfig))
  | none => .ok none
  | some key => do
    require (key = stake_vault_address) AnchorError.AccountNotInitialized
    return some ⟨key, s.stake_vault⟩

/-- Settles the coverage of a covered intent: the lock shrinks to the released amount and
matures when the snapshotted window has passed. -/
def settle_dispute_if_covered (ctx : TxContext) (intent : Intent)
    (accounts : SettlementDisputeAccounts) (release_amount : ℕ) (s : State) :
    ProgramResult State := do
  let dispute_intent ← load_opt s.dispute_intents accounts.dispute_intent
  let stake_vault ← load_stake_vault s.toStakeRecords accounts.stake_vault
  let stake_position ← load_opt s.stake_positions accounts.stake_position
  let stake_lock ← load_opt s.stake_locks accounts.stake_lock
  -- an uncovered intent must come without any lifecycle account
  if intent.dispute_covered = false then do
    require (dispute_intent.isNone = true ∧ stake_vault.isNone = true
      ∧ stake_position.isNone = true ∧ stake_lock.isNone = true) Unauthorized
    return s
  else do
    let dispute ← ok_or dispute_intent DisputeProtectionDisabled
    let vault ← ok_or stake_vault DisputeProtectionDisabled
    let position ← ok_or stake_position DisputeProtectionDisabled
    let lock ← ok_or stake_lock DisputeProtectionDisabled
    require (dispute.data.dispute_config = dispute_config_address) Unauthorized
    require (dispute.key = dispute_intent_address dispute.data.dispute_config intent.intent_hash)
      Unauthorized
    require (vault.key = stake_vault_address) Unauthorized
    -- the check that an accepted controller handover makes fail for every covered intent
    require (vault.data.controller = dispute_config_address) Unauthorized
    require (position.key = stake_position_address vault.key dispute.data.stake_owner) Unauthorized
    require (lock.key = stake_lock_address vault.key intent.intent_hash) Unauthorized
    require (dispute.data.intent_hash = intent.intent_hash) IntentSnapshotMismatch
    require (dispute.data.deposit = intent.deposit) IntentSnapshotMismatch
    require (dispute.data.taker = intent.owner) IntentSnapshotMismatch
    require (lock.data.id = intent.intent_hash) IntentSnapshotMismatch
    require (lock.data.vault = vault.key) Unauthorized
    require (lock.data.stake_owner = position.data.owner) UnauthorizedStakeOwner
    require (release_amount ≤ lock.data.amount) AmountAboveMaximum
    let (settled, maturity) ← dispute.data.settle release_amount ctx.now
    let unlocked ← ok_or (Checked.sub lock.data.amount release_amount) ArithmeticOverflow
    -- a full release frees nothing and leaves the position alone
    let position' ← (if 0 < unlocked then position.data.unlock unlocked else .ok position.data)
    return { s with
      stake_positions := s.stake_positions.insert position.key position'
      stake_locks := s.stake_locks.insert lock.key
        { lock.data with amount := release_amount, matures_at := maturity }
      dispute_intents := s.dispute_intents.insert dispute.key settled }

/-! ## The two paths -/

/-- The part both paths share: settle the coverage, settle the deposit, pay out of the vault and
close the intent. -/
def settle_intent (ctx : TxContext) (key : Pubkey) (live : LiveIntent)
    (tokens : SettlementTokenAccounts) (dispute : SettlementDisputeAccounts)
    (remaining_accounts : List AccountInfo) (release_amount : ℕ) (s : State) :
    ProgramResult State := do
  -- the handles are made when the instruction starts, before any of its effects
  let handles ← tokens.load s.tokens
  let s ← settle_dispute_if_covered ctx live.intent dispute release_amount s
  let deposit ← live.deposit.settle live.lock.amount release_amount
  let tokens ← distribute_funds live.intent s.orchestrator live.intent.deposit deposit handles
    remaining_accounts release_amount s.tokens
  close_intent key live deposit { s with tokens := tokens }

/-- Fulfillment payload with a client-derived nullifier cross-check. -/
structure FulfillIntentArgs where
  attestation : PaymentAttestation
  expected_nullifier : Bytes 32

structure FulfillIntent where
  caller : Pubkey
  intent : Pubkey
  tokens : SettlementTokenAccounts
  dispute : SettlementDisputeAccounts
  remaining_accounts : List AccountInfo

/-- The verifier records with both directions of one payment binding added. -/
def VerifierRecords.bind_payment (s : VerifierRecords) (nullifier intent_hash : Bytes 32) :
    VerifierRecords :=
  { s with
    payment_bindings := s.payment_bindings.insert
      (payment_binding_address verifier_address nullifier)
      { verifier := verifier_address, nullifier := nullifier, intent_hash := intent_hash }
    intent_payment_bindings := s.intent_payment_bindings.insert
      (intent_payment_binding_address verifier_address intent_hash)
      { verifier := verifier_address, intent_hash := intent_hash, nullifier := nullifier } }

/-- Verifies and consumes one payment, then settles principal and fees atomically. -/
def handle_fulfill_intent (rt : Runtime) (ctx : TxContext) (accounts : FulfillIntent)
    (args : FulfillIntentArgs) (s : State) : ProgramResult State := do
  signer accounts.caller
  require (s.orchestrator.paused = false) Paused
  require (s.orchestrator.verifier_config = verifier_address) Unauthorized
  let live ← live_intent accounts.intent s
  require (live.intent.intent_hash = args.attestation.intent_hash) IntentSnapshotMismatch
  require (live.lock.intent_hash = live.intent.intent_hash) IntentSnapshotMismatch
  -- replay protection: both directions of the binding must be new
  init s.payment_bindings (payment_binding_address verifier_address args.expected_nullifier)
  init s.intent_payment_bindings
    (intent_payment_binding_address verifier_address live.intent.intent_hash)
  let nullifier ← verify_payment_attestation rt verifier_address s.verifier live.intent
    args.attestation
  require (nullifier = args.expected_nullifier) DataHashMismatch
  -- an attestation for more than was signaled releases the signaled amount
  let release_amount := Min.min args.attestation.release_amount live.intent.amount
  let s ← settle_intent ctx accounts.intent live accounts.tokens accounts.dispute
    accounts.remaining_accounts release_amount s
  return { s with
    toVerifierRecords := s.toVerifierRecords.bind_payment nullifier live.intent.intent_hash }

structure ManualRelease where
  depositor : Pubkey
  intent : Pubkey
  tokens : SettlementTokenAccounts
  dispute : SettlementDisputeAccounts
  remaining_accounts : List AccountInfo

/-- Releases the complete locked amount using the same fee and lifecycle plan as proof
fulfillment. -/
def handle_manual_release (ctx : TxContext) (accounts : ManualRelease) (s : State) :
    ProgramResult State := do
  signer accounts.depositor
  let live ← live_intent accounts.intent s
  require (accounts.depositor = live.deposit.depositor) AnchorError.ConstraintAddress
  require (live.lock.intent_hash = live.intent.intent_hash) IntentSnapshotMismatch
  settle_intent ctx accounts.intent live accounts.tokens accounts.dispute
    accounts.remaining_accounts live.intent.amount s

end Zkp2pSolana
