/-
`programs/zkp2p_solana/src/instructions/dispute.rs`: stake-backed dispute
protection, from its preparation before a signal to its release or its
conversion into a maker's claim.

`prepare_dispute` and `cancel_dispute` read the next instruction of their own
transaction; `following` is that instruction when it is the one they ask for.
The accounts an instruction names by seeds alone are computed here, so of the
accounts the source compares by index only the freely chosen ones remain to be
compared.
-/
import Zkp2pSolana.Instructions.Orchestrator
import Zkp2pSolana.Instructions.Verifier
import Zkp2pSolana.Instructions.Stake
import Zkp2pSolana.Instructions.Whitelist

set_option autoImplicit false

namespace Zkp2pSolana

open Result Zkp2pError

/-! ## Configuration -/

structure SetRiskWindow where
  authority : Pubkey

/-- Sets a bounded risk window; zero preserves pass-through semantics. -/
def handle_set_risk_window (accounts : SetRiskWindow) (payment_method : Bytes 32) (seconds : ℤ)
    (protocol : ProtocolConfig) (s : DisputeRecords) : ProgramResult DisputeRecords := do
  signer accounts.authority
  require (accounts.authority = protocol.authority) AnchorError.ConstraintAddress
  require (payment_method ≠ Bytes.zero 32) ZeroValue
  require (0 ≤ seconds ∧ seconds ≤ MAX_RISK_WINDOW_SECONDS) AmountAboveMaximum
  let key := risk_window_address dispute_config_address payment_method
  return { s with
    risk_windows := s.risk_windows.insert key
      { dispute_config := dispute_config_address
        payment_method := payment_method
        seconds := seconds } }

structure SetDisputeAdmissionsPaused where
  authority : Pubkey

/-- Pauses or resumes new covered admissions without affecting exits. -/
def handle_set_dispute_admissions_paused (accounts : SetDisputeAdmissionsPaused) (paused : Bool)
    (protocol : ProtocolConfig) (s : DisputeRecords) : ProgramResult DisputeRecords := do
  signer accounts.authority
  require (accounts.authority = protocol.authority) AnchorError.ConstraintAddress
  return { s with dispute_config := { s.dispute_config with admissions_paused := paused } }

/-- Explicitly enables or disables coverage for one deposit. -/
def handle_set_deposit_dispute_protection (accounts : DepositAuthority) (enabled : Bool)
    (deposits : Accounts Deposit) (s : DisputeRecords) : ProgramResult DisputeRecords := do
  let _ ← authorized_deposit accounts deposits
  return { s with
    dispute_settings := s.dispute_settings.insert (dispute_setting_address accounts.deposit)
      { deposit := accounts.deposit, enabled := enabled } }

/-! ## Preparing coverage -/

/-- Arguments that bind pre-signal collateral to the upcoming orchestrator intent. -/
structure PrepareDisputeArgs where
  expected_intent_hash : Bytes 32
  payment_method : Bytes 32
  amount : ℕ

/-- Accounts of `prepare_dispute`. The selection is bound by its seeds, so only its presence is
a choice. -/
structure PrepareDispute where
  taker : Pubkey
  deposit : Pubkey
  deposit_setting : Option Pubkey
  selection : Bool
  stake_owner : Pubkey

def require_atomic_signal_follows (following : Option (SignalIntent × SignalIntentArgs))
    (prepared : PrepareDisputeArgs) (taker deposit dispute_intent : Pubkey) :
    ProgramResult Unit := do
  -- the instruction right after this one must be the signal that coverage is prepared for
  let (accounts, signal) ← ok_or following Unauthorized
  require (accounts.taker = taker) Unauthorized
  require (accounts.deposit = deposit) Unauthorized
  require (accounts.dispute_intent = some dispute_intent) Unauthorized
  require (signal.expected_intent_hash = prepared.expected_intent_hash
    ∧ signal.payment_method = prepared.payment_method ∧ signal.amount = prepared.amount)
    IntentSnapshotMismatch

/-- The collateral owner: the taker's selection when it is supplied and set, else the taker. -/
def selected_owner (accounts : PrepareDispute) (selections : Accounts StakeSelection) :
    ProgramResult Pubkey := do
  let selection ← load_opt selections
    (if accounts.selection = true then some (stake_selection_address accounts.taker) else none)
  return (selection.bind fun selection => selection.data.selected_owner).getD accounts.taker

/-- The coverage account `handle_prepare_dispute` writes. -/
def new_dispute_intent (accounts : PrepareDispute) (args : PrepareDisputeArgs) (owner : Pubkey)
    (deposit : Deposit) (risk : RiskWindow) : DisputeIntent where
  dispute_config := dispute_config_address
  intent_hash := args.expected_intent_hash
  deposit := accounts.deposit
  taker := accounts.taker
  stake_owner := owner
  depositor := deposit.depositor
  payment_method := args.payment_method
  locked_amount := args.amount
  status := .Pending
  risk_window := risk.seconds
  release_eligible_at := 0
  release_amount := 0

/-- Locks the exact upcoming intent amount under the snapshotted stake owner and risk window. -/
def handle_prepare_dispute (rt : Runtime) (following : Option (SignalIntent × SignalIntentArgs))
    (accounts : PrepareDispute) (args : PrepareDisputeArgs) (s : State) : ProgramResult State := do
  signer accounts.taker
  require (s.dispute_config.stake_vault = stake_vault_address) Unauthorized
  require (s.stake_vault.controller = dispute_config_address) Unauthorized
  let deposit ← load s.deposits accounts.deposit
  require (deposit.token_mint = s.stake_vault.stake_mint) IntentTokenMismatch
  let deposit_setting ← load_opt s.dispute_settings accounts.deposit_setting
  let risk ← load s.risk_windows (risk_window_address dispute_config_address args.payment_method)
  require (risk.dispute_config = dispute_config_address) Unauthorized
  let position_key := stake_position_address stake_vault_address accounts.stake_owner
  let lock_key := stake_lock_address stake_vault_address args.expected_intent_hash
  let dispute_key := dispute_intent_address dispute_config_address args.expected_intent_hash
  let position ← load s.stake_positions position_key
  require (position.owner = accounts.stake_owner) UnauthorizedStakeOwner
  -- one lock and one coverage record per hash: a second preparation for it fails here
  init s.stake_locks lock_key
  init s.dispute_intents dispute_key
  require (s.dispute_config.admissions_paused = false) AdmissionsPaused
  require (0 < args.amount) ZeroValue
  require (0 < risk.seconds) ZeroValue
  require (s.orchestrator.lifecycle_policy = .WhitelistAndDispute) DisputeProtectionDisabled
  require_atomic_signal_follows following args accounts.taker accounts.deposit dispute_key
  -- a setting left out passes both checks, whatever the ledger holds for the deposit
  require (∀ setting ∈ deposit_setting, setting.data.deposit = accounts.deposit) DepositNotFound
  require (∀ setting ∈ deposit_setting, setting.data.enabled = true) DisputeProtectionDisabled
  -- the hash of the next intent: no other signal may come in between
  require (derive_intent_hash rt orchestrator_address s.orchestrator.next_intent_id
    = args.expected_intent_hash) DataHashMismatch
  let owner ← selected_owner accounts s.stake_selections
  require (owner = accounts.stake_owner) UnauthorizedStakeOwner
  let position ← position.lock args.amount
  let lock := new_stake_lock owner
    { lock_id := args.expected_intent_hash, amount := args.amount, matures_at := NEVER_MATURES }
  return { s with
    stake_positions := s.stake_positions.insert position_key position
    stake_locks := s.stake_locks.insert lock_key lock
    dispute_intents := s.dispute_intents.insert dispute_key
      (new_dispute_intent accounts args owner deposit risk) }

/-! ## Cancelling coverage -/

structure CancelDispute where
  owner : Pubkey
  intent : Pubkey
  dispute_intent : Pubkey

def require_atomic_cancel_follows (following : Option CancelIntent)
    (intent_key owner dispute_intent : Pubkey) : ProgramResult Unit := do
  let accounts ← ok_or following Unauthorized
  require (accounts.owner = owner) Unauthorized
  require (accounts.intent = intent_key) Unauthorized
  require (accounts.resolved_dispute = some dispute_intent) Unauthorized

/-- Cancels pending coverage and restores complete free stake. -/
def handle_cancel_dispute (following : Option CancelIntent) (accounts : CancelDispute)
    (s : State) : ProgramResult State := do
  signer accounts.owner
  let intent ← load s.intents accounts.intent
  require (accounts.owner = intent.owner) AnchorError.ConstraintAddress
  let dispute ← load s.dispute_intents accounts.dispute_intent
  let position_key := stake_position_address stake_vault_address dispute.stake_owner
  let lock_key := stake_lock_address stake_vault_address intent.intent_hash
  let position ← load s.stake_positions position_key
  let lock ← load s.stake_locks lock_key
  require (lock.stake_owner = position.owner) UnauthorizedStakeOwner
  require (accounts.dispute_intent
    = dispute_intent_address dispute.dispute_config intent.intent_hash) AnchorError.ConstraintSeeds
  require (dispute.intent_hash = intent.intent_hash) IntentSnapshotMismatch
  -- coverage may not end while its intent lives on: the cancel of the intent must follow
  require_atomic_cancel_follows following accounts.intent accounts.owner accounts.dispute_intent
  let cancelled ← dispute.cancel
  let unlocked ← position.unlock lock.amount
  return { s with
    stake_positions := s.stake_positions.insert position_key unlocked
    stake_locks := s.stake_locks.erase lock_key
    dispute_intents := s.dispute_intents.insert accounts.dispute_intent cancelled }

/-! ## Release -/

structure ReleaseMaturedDispute where
  caller : Pubkey
  dispute_intent : Pubkey

/-- Releases a settled lock at or after its snapshotted risk-window boundary. -/
def handle_release_matured_dispute (ctx : TxContext) (accounts : ReleaseMaturedDispute)
    (s : State) : ProgramResult State := do
  signer accounts.caller
  let dispute ← load s.dispute_intents accounts.dispute_intent
  let position_key := stake_position_address stake_vault_address dispute.stake_owner
  let lock_key := stake_lock_address stake_vault_address dispute.intent_hash
  let position ← load s.stake_positions position_key
  let lock ← load s.stake_locks lock_key
  require (accounts.dispute_intent
    = dispute_intent_address dispute.dispute_config dispute.intent_hash)
    AnchorError.ConstraintSeeds
  -- neither the vault's controller nor the lock's owner is compared here; the record's own
  -- owner names the position that is freed
  let (released, amount) ← dispute.release ctx.now
  require (amount = lock.amount) IntentSnapshotMismatch
  let unlocked ← position.unlock amount
  return { s with
    stake_positions := s.stake_positions.insert position_key unlocked
    stake_locks := s.stake_locks.erase lock_key
    dispute_intents := s.dispute_intents.insert accounts.dispute_intent released }

/-! ## Dispute evidence -/

/-- Provider identifiers and amount metadata signed into dispute evidence. -/
structure DisputeDetails where
  payment_method : Bytes 32
  original_payment_id : Bytes 32
  dispute_id : Bytes 32
  payment_amount : ℕ
  payment_currency : Bytes 32

/-- Threshold-signed evidence for one settled covered intent. -/
structure DisputeAttestation where
  intent_hash : Bytes 32
  data_hash : Bytes 32
  signatures : List (Bytes 65)
  details : DisputeDetails

/-- Dispute submission with client-derived PDA seed cross-checks. -/
structure SubmitDisputeArgs where
  attestation : DisputeAttestation
  expected_payment_nullifier : Bytes 32
  expected_dispute_nullifier : Bytes 32

def dispute_data_hash (rt : Runtime) (details : DisputeDetails) : Bytes 32 :=
  rt.keccak (details.payment_method.toList ++ details.original_payment_id.toList
    ++ details.dispute_id.toList ++ le_bytes 16 details.payment_amount
    ++ details.payment_currency.toList)

/-- The EIP-712 digest for Solana dispute verifier evidence. -/
def dispute_attestation_digest (rt : Runtime) (dispute_config : Pubkey)
    (domain_chain_id intent_hash data_hash : Bytes 32) : Bytes 32 :=
  eip712_digest rt
    (domain_separator rt DISPUTE_VERIFIER_NAME_HASH domain_chain_id dispute_config)
    (rt.keccak (DISPUTE_ATTESTATION_TYPEHASH.toList ++ intent_hash.toList ++ data_hash.toList))

structure SubmitDispute where
  caller : Pubkey

/-- The evidence checks of `handle_submit_dispute`; the result is the dispute nullifier. -/
def verify_dispute_evidence (rt : Runtime) (args : SubmitDisputeArgs) (dispute : DisputeIntent)
    (s : State) : ProgramResult (Bytes 32) := do
  let attestation := args.attestation
  let details := attestation.details
  let payment_binding ← load s.payment_bindings
    (payment_binding_address verifier_address args.expected_payment_nullifier)
  let intent_payment_binding ← load s.intent_payment_bindings
    (intent_payment_binding_address verifier_address attestation.intent_hash)
  require (details.payment_method = dispute.payment_method) IntentSnapshotMismatch
  require (details.original_payment_id ≠ Bytes.zero 32) ZeroValue
  require (details.dispute_id ≠ Bytes.zero 32) ZeroValue
  require (0 < details.payment_amount) ZeroValue
  require (details.payment_currency ≠ Bytes.zero 32) ZeroValue
  require (dispute_data_hash rt details = attestation.data_hash) DataHashMismatch
  let nullifier := payment_nullifier rt details.payment_method details.original_payment_id
  let dispute_nullifier :=
    rt.keccak (details.payment_method.toList ++ details.dispute_id.toList)
  require (nullifier = args.expected_payment_nullifier) DataHashMismatch
  require (dispute_nullifier = args.expected_dispute_nullifier) DataHashMismatch
  -- the disputed payment is the one that settled this intent: both directions of the binding
  -- are compared, not only the one the seeds reach
  require (payment_binding.nullifier = nullifier) InvalidPaymentBinding
  require (payment_binding.intent_hash = attestation.intent_hash) InvalidPaymentBinding
  require (intent_payment_binding.intent_hash = attestation.intent_hash) InvalidPaymentBinding
  require (intent_payment_binding.nullifier = nullifier) InvalidPaymentBinding
  let digest := dispute_attestation_digest rt dispute_config_address
    s.dispute_config.domain_chain_id attestation.intent_hash attestation.data_hash
  verify_witness_threshold rt s.verifier digest attestation.signatures
  return dispute_nullifier

/-- The claim account `handle_submit_dispute` credits: unlike `opened_claim` it keeps the amount
of an account whose beneficiary was never written. -/
def credited_claim (claim : ClaimBalance) (depositor : Pubkey) (amount : ℕ) :
    ProgramResult ClaimBalance := do
  let total ← ok_or (Checked.add 64 claim.amount amount) ArithmeticOverflow
  if claim.beneficiary = Pubkey.default then
    return { vault := stake_vault_address, beneficiary := depositor, amount := total }
  else
    return { claim with amount := total }

/-- The controller check of `SubmitDispute`, made before the evidence is read. -/
def submit_dispute_controller (s : State) : ProgramResult Unit := do
  require (s.dispute_config.stake_vault = stake_vault_address) Unauthorized
  require (s.stake_vault.controller = dispute_config_address) Unauthorized

/-- Verifies evidence and atomically converts exact settled collateral into a maker liability. -/
def handle_submit_dispute (rt : Runtime) (accounts : SubmitDispute) (args : SubmitDisputeArgs)
    (s : State) : ProgramResult State := do
  signer accounts.caller
  require (s.dispute_config.verifier_config = verifier_address) Unauthorized
  let hash := args.attestation.intent_hash
  let dispute_key := dispute_intent_address dispute_config_address hash
  let lock_key := stake_lock_address stake_vault_address hash
  let nullifier_key :=
    dispute_nullifier_address dispute_config_address args.expected_dispute_nullifier
  let dispute ← load s.dispute_intents dispute_key
  require (dispute.dispute_config = dispute_config_address) Unauthorized
  init s.dispute_nullifiers nullifier_key
  submit_dispute_controller s
  let position_key := stake_position_address stake_vault_address dispute.stake_owner
  let claim_key := claim_balance_address stake_vault_address dispute.depositor
  let position ← load s.stake_positions position_key
  let lock ← load s.stake_locks lock_key
  require (lock.stake_owner = dispute.stake_owner) UnauthorizedStakeOwner
  let nullifier ← verify_dispute_evidence rt args dispute s
  let (disputed, amount) ← dispute.dispute
  require (amount = lock.amount) IntentSnapshotMismatch
  -- the whole lock becomes a claim, so nothing is returned to free stake
  let position ← position.resolve lock.amount amount
  let total_staked ← ok_or (Checked.sub s.stake_vault.total_staked amount) ArithmeticOverflow
  let total_claimable ← ok_or (Checked.add 64 s.stake_vault.total_claimable amount)
    ArithmeticOverflow
  let claim ← credited_claim (init_if_needed s.claims claim_key) dispute.depositor amount
  return { s with
    stake_vault := { s.stake_vault with
      total_staked := total_staked
      total_claimable := total_claimable }
    stake_positions := s.stake_positions.insert position_key position
    stake_locks := s.stake_locks.erase lock_key
    claims := s.claims.insert claim_key claim
    dispute_intents := s.dispute_intents.insert dispute_key disputed
    dispute_nullifiers := s.dispute_nullifiers.insert nullifier_key
      { dispute_config := dispute_config_address, nullifier := nullifier, intent_hash := hash } }

end Zkp2pSolana
