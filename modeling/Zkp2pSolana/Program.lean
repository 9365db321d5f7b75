/-
`programs/zkp2p_solana/src/lib.rs`: the public instructions, and the runs of the
program.

The instructions are grouped by the records they write, so that dispatching a
group leaves every other record alone by construction; the nine lifecycle
instructions, which tie several components together, stand by themselves. A
transaction is a list of top-level instructions of this program, of the ed25519
precompile and of everything else on the cluster; it runs to the end or not at
all. A call of this program from inside another one is not modelled: the two
sysvar checks read the top-level instructions around the caller.
-/
import Zkp2pSolana.Lib.TxMachine
import Zkp2pSolana.Instructions.Initialize
import Zkp2pSolana.Instructions.Governance
import Zkp2pSolana.Instructions.RateManager
import Zkp2pSolana.Instructions.Dispute
import Zkp2pSolana.Instructions.Settlement

set_option autoImplicit false

namespace Zkp2pSolana

open Result Zkp2pError

/-! ## Instructions by group -/

/-- Instructions that need no configuration account. -/
inductive OpenInstruction where
  | update_oracle_quote (accounts : UpdateOracleQuote) (quote_id : Bytes 32) (market_rate : ℕ)
      (valid : Bool)
  | set_taker_authorization (accounts : SetTakerAuthorization) (authorized : Bool)
  | select_stake_owner (accounts : SelectStakeOwner)
  | clear_stake_owner (accounts : ClearStakeOwner)

def OpenInstruction.execute (ctx : TxContext) (s : OpenRecords) :
    OpenInstruction → ProgramResult OpenRecords
  | .update_oracle_quote accounts quote_id market_rate valid =>
    handle_update_oracle_quote ctx accounts quote_id market_rate valid s
  | .set_taker_authorization accounts authorized =>
    handle_set_taker_authorization accounts authorized s
  | .select_stake_owner accounts => handle_select_stake_owner accounts s
  | .clear_stake_owner accounts => handle_clear_stake_owner accounts s

inductive RateManagerInstruction where
  | create_rate_manager (accounts : CreateRateManager) (args : CreateRateManagerArgs)
  | set_rate_manager_config (accounts : ManageRateManager) (manager : Pubkey)
      (fee_recipient : Option Pubkey) (name uri : List UInt8)
  | set_manager_fee (accounts : ManageRateManager) (fee : ℕ)
  | set_manager_min_liquidity (accounts : ManageRateManager) (min_liquidity : ℕ)
  | set_manager_rate (accounts : ManageRateManager) (payment_method currency : Bytes 32) (rate : ℕ)

def RateManagerInstruction.execute (rt : Runtime) (s : RateManagerRecords) :
    RateManagerInstruction → ProgramResult RateManagerRecords
  | .create_rate_manager accounts args => handle_create_rate_manager rt accounts args s
  | .set_rate_manager_config accounts manager fee_recipient name uri =>
    handle_set_rate_manager_config accounts manager fee_recipient name uri s
  | .set_manager_fee accounts fee => handle_set_manager_fee accounts fee s
  | .set_manager_min_liquidity accounts min_liquidity =>
    handle_set_manager_min_liquidity accounts min_liquidity s
  | .set_manager_rate accounts payment_method currency rate =>
    handle_set_manager_rate accounts payment_method currency rate s

inductive WhitelistInstruction where
  | create_address_group (accounts : CreateAddressGroup) (name : List UInt8) (is_public : Bool)
  | configure_address_group (accounts : ConfigureAddressGroup) (is_public : Option Bool)
      (resolver pending_curator : Option (Option Pubkey))
  | accept_group_curator (accounts : AcceptGroupCurator)
  | set_group_member (accounts : SetGroupMember) (active : Bool)
  | set_self_group_member (accounts : SetSelfGroupMember) (active : Bool)
  | initialize_deposit_whitelist (accounts : DepositAuthority) (enabled : Bool)
  | set_whitelist_enabled (accounts : DepositAuthority) (enabled : Bool)
  | set_deposit_allowed_group (accounts : DepositAuthority) (group : Pubkey) (allowed : Bool)
  | set_deposit_whitelist_member (accounts : DepositAuthority) (taker : Pubkey) (active : Bool)

def WhitelistInstruction.execute (rt : Runtime) (ctx : TxContext) (deposits : Accounts Deposit)
    (s : WhitelistRecords) : WhitelistInstruction → ProgramResult WhitelistRecords
  | .create_address_group accounts name is_public =>
    handle_create_address_group rt accounts name is_public s
  | .configure_address_group accounts is_public resolver pending_curator =>
    handle_configure_address_group ctx accounts is_public resolver pending_curator s
  | .accept_group_curator accounts => handle_accept_group_curator accounts s
  | .set_group_member accounts active => handle_set_group_member accounts active s
  | .set_self_group_member accounts active => handle_set_self_group_member accounts active s
  | .initialize_deposit_whitelist accounts enabled =>
    handle_initialize_deposit_whitelist accounts enabled deposits s
  | .set_whitelist_enabled accounts enabled =>
    handle_set_whitelist_enabled accounts enabled deposits s
  | .set_deposit_allowed_group accounts group allowed =>
    handle_set_deposit_allowed_group accounts group allowed deposits s
  | .set_deposit_whitelist_member accounts taker active =>
    handle_set_deposit_whitelist_member accounts taker active deposits s

inductive VerifierInstruction where
  | set_verifier_payment_method (accounts : ConfigureVerifier) (payment_method : Bytes 32)
      (enabled : Bool)
  | set_verifier_witness (accounts : ConfigureVerifier) (witness : Bytes 20) (enabled : Bool)
  | set_required_signatures (accounts : ConfigureVerifier) (required : ℕ)

def VerifierInstruction.execute (protocol : ProtocolConfig) (verifier : VerifierConfig) :
    VerifierInstruction → ProgramResult VerifierConfig
  | .set_verifier_payment_method accounts payment_method enabled =>
    handle_set_verifier_payment_method accounts payment_method enabled protocol verifier
  | .set_verifier_witness accounts witness enabled =>
    handle_set_verifier_witness accounts witness enabled protocol verifier
  | .set_required_signatures accounts required =>
    handle_set_required_signatures accounts required protocol verifier

inductive GovernanceInstruction where
  | propose_protocol_authority (accounts : ProposeProtocolAuthority) (pending : Option Pubkey)
  | accept_protocol_authority (accounts : AcceptProtocolAuthority)
  | configure_orchestrator (accounts : ConfigureOrchestrator) (args : ConfigureOrchestratorArgs)
  | configure_escrow (accounts : ConfigureEscrow) (args : ConfigureEscrowArgs)
  | propose_stake_controller (accounts : ProposeStakeController) (pending : Option Pubkey)
  | accept_stake_controller (accounts : AcceptStakeController)

def GovernanceInstruction.execute (ctx : TxContext) (s : State) :
    GovernanceInstruction → ProgramResult State
  | .propose_protocol_authority accounts pending =>
    handle_propose_protocol_authority accounts pending s
  | .accept_protocol_authority accounts => handle_accept_protocol_authority accounts s
  | .configure_orchestrator accounts args => handle_configure_orchestrator accounts args s
  | .configure_escrow accounts args => handle_configure_escrow accounts args s
  | .propose_stake_controller accounts pending =>
    handle_propose_stake_controller ctx accounts pending s
  | .accept_stake_controller accounts => handle_accept_stake_controller ctx accounts s

/-- Dispute policy: everything of `dispute.rs` that is not the lifecycle of one intent. -/
inductive DisputePolicyInstruction where
  | set_risk_window (accounts : SetRiskWindow) (payment_method : Bytes 32) (seconds : ℤ)
  | set_dispute_admissions_paused (accounts : SetDisputeAdmissionsPaused) (paused : Bool)
  | set_deposit_dispute_protection (accounts : DepositAuthority) (enabled : Bool)

def DisputePolicyInstruction.execute (protocol : ProtocolConfig) (deposits : Accounts Deposit)
    (s : DisputeRecords) : DisputePolicyInstruction → ProgramResult DisputeRecords
  | .set_risk_window accounts payment_method seconds =>
    handle_set_risk_window accounts payment_method seconds protocol s
  | .set_dispute_admissions_paused accounts paused =>
    handle_set_dispute_admissions_paused accounts paused protocol s
  | .set_deposit_dispute_protection accounts enabled =>
    handle_set_deposit_dispute_protection accounts enabled deposits s

/-- Deposit configuration: no tokens move. -/
inductive DepositConfigInstruction where
  | update_deposit (accounts : ConfigureDeposit) (args : UpdateDepositArgs)
  | configure_payment_method (accounts : ConfigureDeposit) (args : ConfigurePaymentMethodArgs)
  | configure_currency (accounts : ConfigureDeposit) (args : ConfigureCurrencyArgs)
  | set_deposit_rate_manager (accounts : ConfigureDeposit) (rate_manager manager : Option Pubkey)
  | extend_intent_expiry (accounts : ExtendIntentExpiry) (additional_time : ℤ)

def DepositConfigInstruction.execute (managers : Accounts RateManager) (s : EscrowRecords) :
    DepositConfigInstruction → ProgramResult EscrowRecords
  | .update_deposit accounts args => handle_update_deposit accounts args s
  | .configure_payment_method accounts args => handle_configure_payment_method accounts args s
  | .configure_currency accounts args => handle_configure_currency accounts args s
  | .set_deposit_rate_manager accounts rate_manager manager =>
    handle_set_deposit_rate_manager accounts rate_manager manager managers s
  | .extend_intent_expiry accounts additional_time =>
    handle_extend_intent_expiry accounts additional_time s

/-- Deposit custody. -/
inductive CustodyInstruction where
  | create_deposit (accounts : CreateDeposit) (args : CreateDepositArgs)
  | add_funds (accounts : AddFunds) (amount : ℕ)
  | remove_funds (accounts : RemoveFunds) (amount : ℕ)
  | withdraw_deposit (accounts : WithdrawDeposit)

def CustodyInstruction.execute (s : EscrowRecords) (tokens : Accounts TokenAccount) :
    CustodyInstruction → ProgramResult (EscrowRecords × Accounts TokenAccount)
  | .create_deposit accounts args => handle_create_deposit accounts args s tokens
  | .add_funds accounts amount => handle_add_funds accounts amount s tokens
  | .remove_funds accounts amount => handle_remove_funds accounts amount s tokens
  | .withdraw_deposit accounts => handle_withdraw_deposit accounts s tokens

/-- Stake custody and the controller's locks. -/
inductive StakeInstruction where
  | initialize_stake_token_vault (accounts : InitializeStakeTokenVault)
  | deposit_stake (accounts : DepositStake) (amount : ℕ)
  | withdraw_stake (accounts : WithdrawStake) (amount : ℕ)
  | claim_stake (accounts : ClaimStake)
  | initialize_claim_balance (accounts : InitializeClaimBalance)
  | controller_lock_stake (accounts : ControllerLockStake) (args : ControllerLockArgs)
  | controller_fund_lock (accounts : ControllerFundLock) (args : ControllerLockArgs)
  | increase_stake_lock (accounts : ManageStakeLock) (lock_id : Bytes 32) (additional_amount : ℕ)
  | resize_stake_lock (accounts : ManageStakeLock) (lock_id : Bytes 32) (new_amount : ℕ)
      (new_matures_at : ℤ)
  | controller_unlock_stake (accounts : ManageStakeLock) (lock_id : Bytes 32)
  | resolve_stake_lock (accounts : ResolveStakeLock) (lock_id : Bytes 32)
      (claims : List StakeClaim)

def StakeInstruction.execute (ctx : TxContext) (s : StakeRecords) (tokens : Accounts TokenAccount) :
    StakeInstruction → ProgramResult (StakeRecords × Accounts TokenAccount)
  | .initialize_stake_token_vault accounts => do
    return (s, ← handle_initialize_stake_token_vault accounts s.stake_vault tokens)
  | .deposit_stake accounts amount => handle_deposit_stake accounts amount s tokens
  | .withdraw_stake accounts amount => handle_withdraw_stake accounts amount s tokens
  | .claim_stake accounts => handle_claim_stake accounts s tokens
  | .initialize_claim_balance accounts => do
    return (← handle_initialize_claim_balance accounts s, tokens)
  | .controller_lock_stake accounts args => do
    return (← handle_controller_lock_stake ctx accounts args s, tokens)
  | .controller_fund_lock accounts args => handle_controller_fund_lock ctx accounts args s tokens
  | .increase_stake_lock accounts lock_id additional_amount => do
    return (← handle_increase_stake_lock ctx accounts lock_id additional_amount s, tokens)
  | .resize_stake_lock accounts lock_id new_amount new_matures_at => do
    return (← handle_resize_stake_lock ctx accounts lock_id new_amount new_matures_at s, tokens)
  | .controller_unlock_stake accounts lock_id => do
    return (← handle_controller_unlock_stake accounts lock_id s, tokens)
  | .resolve_stake_lock accounts lock_id claims => do
    return (← handle_resolve_stake_lock accounts lock_id claims s, tokens)

/-- The public instructions of the program after `initialize_protocol`. -/
inductive Instruction where
  | open_records (ix : OpenInstruction)
  | rate_managers (ix : RateManagerInstruction)
  | whitelists (ix : WhitelistInstruction)
  | verifier (ix : VerifierInstruction)
  | governance (ix : GovernanceInstruction)
  | dispute_policy (ix : DisputePolicyInstruction)
  | deposit_config (ix : DepositConfigInstruction)
  | custody (ix : CustodyInstruction)
  | stake (ix : StakeInstruction)
  | signal_intent (accounts : SignalIntent) (args : SignalIntentArgs)
  | cancel_intent (accounts : CancelIntent)
  | prune_expired_intent (accounts : PruneExpiredIntent)
  | prepare_dispute (accounts : PrepareDispute) (args : PrepareDisputeArgs)
  | cancel_dispute (accounts : CancelDispute)
  | release_matured_dispute (accounts : ReleaseMaturedDispute)
  | submit_dispute (accounts : SubmitDispute) (args : SubmitDisputeArgs)
  | fulfill_intent (accounts : FulfillIntent) (args : FulfillIntentArgs)
  | manual_release (accounts : ManualRelease)

/-! ## Transactions -/

/-- One top-level instruction of a transaction. -/
inductive TopLevel where
  | program (ix : Instruction)
  | ed25519 (data : List UInt8)
  | external (tokens : Accounts TokenAccount)

/-- The data of the ed25519 instructions in a list. -/
def ed25519_data : List TopLevel → List (List UInt8)
  | [] => []
  | .ed25519 data :: rest => data :: ed25519_data rest
  | _ :: rest => ed25519_data rest

/-- The next instruction, when it is a `signal_intent`. -/
def following_signal : List TopLevel → Option (SignalIntent × SignalIntentArgs)
  -- the discriminator and the program id of the next instruction decide which one it is
  | .program (.signal_intent accounts args) :: _ => some (accounts, args)
  | _ => none

/-- The next instruction, when it is a `cancel_intent`. -/
def following_cancel : List TopLevel → Option CancelIntent
  | .program (.cancel_intent accounts) :: _ => some accounts
  | _ => none

/-- One instruction, between the instructions `before` and `after` it in its transaction. -/
def Instruction.execute (rt : Runtime) (ctx : TxContext) (before after : List TopLevel)
    (s : State) : Instruction → ProgramResult State
  | .open_records ix => do
    return { s with toOpenRecords := ← ix.execute ctx s.toOpenRecords }
  | .rate_managers ix => do
    return { s with toRateManagerRecords := ← ix.execute rt s.toRateManagerRecords }
  | .whitelists ix => do
    return { s with toWhitelistRecords := ← ix.execute rt ctx s.deposits s.toWhitelistRecords }
  | .verifier ix => do
    return { s with verifier := ← ix.execute s.protocol s.verifier }
  | .governance ix => ix.execute ctx s
  | .dispute_policy ix => do
    return { s with
      toDisputeRecords := ← ix.execute s.protocol s.deposits s.toDisputeRecords }
  | .deposit_config ix => do
    return { s with toEscrowRecords := ← ix.execute s.rate_managers s.toEscrowRecords }
  -- a group that moves tokens writes its own records and the token accounts, nothing else
  | .custody ix => do
    let (records, tokens) ← ix.execute s.toEscrowRecords s.tokens
    return { s with toEscrowRecords := records, tokens := tokens }
  | .stake ix => do
    let (records, tokens) ← ix.execute ctx s.toStakeRecords s.tokens
    return { s with toStakeRecords := records, tokens := tokens }
  | .signal_intent accounts args =>
    handle_signal_intent rt ctx (ed25519_data before) accounts args s
  | .cancel_intent accounts => handle_cancel_intent accounts s
  | .prune_expired_intent accounts => handle_prune_expired_intent ctx accounts s
  | .prepare_dispute accounts args =>
    handle_prepare_dispute rt (following_signal after) accounts args s
  | .cancel_dispute accounts => handle_cancel_dispute (following_cancel after) accounts s
  | .release_matured_dispute accounts => handle_release_matured_dispute ctx accounts s
  | .submit_dispute accounts args => handle_submit_dispute rt accounts args s
  | .fulfill_intent accounts args => handle_fulfill_intent rt ctx accounts args s
  | .manual_release accounts => handle_manual_release ctx accounts s

/-- One top-level instruction; what other programs do is any change of the token accounts that
`external_ok` allows. -/
def TopLevel.execute (rt : Runtime) (ctx : TxContext) (before after : List TopLevel) (s : State) :
    TopLevel → ProgramResult State
  | .program ix => ix.execute rt ctx before after s
  | .ed25519 data => do
    require (rt.ed25519_precompile data = true) InvalidSignature
    return s
  | .external tokens => do
    require (external_ok s.tokens tokens) TokenError.OwnerMismatch
    return { s with tokens := tokens }

/-! ## Runs -/

/-- The program as a machine that runs transactions. -/
def step (rt : Runtime) : TxMachine.Step State TopLevel TxContext :=
  TxMachine.Step.of fun ctx before after s ix => ix.execute rt ctx before after s

/-- Records that may exist before `initialize_protocol`: what the open instructions made of an
empty ledger. -/
inductive OpenReachable : OpenRecords → Prop
  | empty : OpenReachable ⟨∅, ∅, ∅⟩
  | execute {s s' : OpenRecords} {ctx : TxContext} {ix : OpenInstruction} :
      OpenReachable s → ix.execute ctx s = .ok s' → OpenReachable s'

/-- Token accounts of a cluster the program has not acted on: none sits at an address only the
program can create an account at. -/
def untouched (tokens : Accounts TokenAccount) : Prop :=
  ∀ k a, tokens.lookup k = some a → k.is_pda = false ∧ supply tokens a.mint < 2 ^ 64

/-- The state `initialize_protocol` leaves. -/
def genesis (rt : Runtime) (s : State) : Prop :=
  ∃ accounts args records tokens, OpenReachable records ∧ untouched tokens
    ∧ handle_initialize_protocol rt accounts args records tokens = .ok s

/-- One executed top-level instruction of a run. -/
abbrev Event := TxMachine.Event State TopLevel TxContext

/-- `Run rt es s`: the committed transactions made of the events `es` lead from
`initialize_protocol` to `s`. -/
abbrev Run (rt : Runtime) (es : List Event) (s : State) : Prop :=
  TxMachine.Run (genesis rt) (step rt) es s

/-- The execution of an event whose instruction is known. -/
theorem valid_execute {rt : Runtime} {e : Event} (h : e.Valid (step rt)) {ix : TopLevel}
    (hix : e.ix = ix) : ix.execute rt e.ctx e.before e.after e.pre = .ok e.post := hix ▸ h

/-- The look-ahead of `prepare_dispute` answers only for a `signal_intent` of this program that
comes right after. -/
theorem following_signal_some {ix : TopLevel} {rest : List TopLevel} {accounts : SignalIntent}
    {args : SignalIntentArgs} (h : following_signal (ix :: rest) = some (accounts, args)) :
    ix = .program (.signal_intent accounts args) := by
  unfold following_signal at h
  split at h
  · rename_i heq
    cases h
    cases heq
    rfl
  · cases h

/-! ## A sample cluster

One deployment on which runs are computed. The digests, the derived addresses
and the signature are the real ones of the inputs that occur in these runs. -/

section Sample

def sample_key (n : UInt8) : Pubkey := .addr (Bytes.replicate 32 n)

def sample_word (n : UInt8) : Bytes 32 := Bytes.replicate 32 n

/-- The bytes of the orchestrator address. -/
def sample_orchestrator_bytes : Bytes 32 :=
  ⟨[0xee, 0xea, 0x58, 0x32, 0xef, 0x87, 0x7d, 0x79, 0xd9, 0xb8, 0x08, 0xe6, 0xc8, 0x0e, 0x25, 0x24,
    0xd6, 0xb5, 0x97, 0x28, 0x84, 0xf6, 0x1f, 0xb8, 0x45, 0x2e, 0xf0, 0x7f, 0x23, 0x10, 0xe0, 0xf6],
    rfl⟩

/-- The bytes of the verifier address. -/
def sample_verifier_bytes : Bytes 32 :=
  ⟨[0x40, 0xea, 0x3e, 0x22, 0x09, 0x74, 0x58, 0x12, 0xd3, 0xbf, 0x12, 0x7a, 0x8e, 0x2e, 0x1d, 0x53,
    0x4d, 0xd7, 0x59, 0xe9, 0x29, 0x40, 0xf9, 0x5a, 0x99, 0xb4, 0x29, 0xf5, 0x8a, 0x31, 0x59, 0xd2],
    rfl⟩

/-- The deployment domain of the seed slot. -/
def sample_domain : Bytes 32 :=
  ⟨[0x79, 0x3c, 0xac, 0xc4, 0x4c, 0xa9, 0x47, 0x66, 0x8f, 0x8b, 0xb3, 0x28, 0x2e, 0xf9, 0x4c, 0x93,
    0xc8, 0xdf, 0x2a, 0x42, 0xd7, 0xce, 0x2f, 0x10, 0x19, 0x0a, 0x26, 0x4b, 0xac, 0xa7, 0x4d, 0x85],
    rfl⟩

/-- The digest the first intent hash is reduced from. -/
def sample_first_digest : Bytes 32 :=
  ⟨[0xed, 0x7c, 0xc8, 0x1b, 0xad, 0xd4, 0xc4, 0x01, 0xc4, 0xd7, 0x61, 0x8e, 0x2d, 0x04, 0x6c, 0x66,
    0x2a, 0x37, 0x12, 0x3e, 0x05, 0x5b, 0x5b, 0xe9, 0xdf, 0xf9, 0x3d, 0x75, 0xff, 0x3e, 0xe8, 0xcd],
    rfl⟩

/-- The hash of the attested payment. -/
def sample_data_hash : Bytes 32 :=
  ⟨[0xc1, 0xc3, 0x40, 0x74, 0x0c, 0xf6, 0xaf, 0x34, 0xbe, 0xf5, 0x3d, 0x2e, 0xe8, 0xc3, 0x4e, 0x16,
    0xce, 0x10, 0x69, 0xa8, 0x39, 0xa9, 0xa0, 0x68, 0x2b, 0x6e, 0xd6, 0x07, 0xac, 0xde, 0x82, 0x33],
    rfl⟩

/-- The hash of the verifier address. -/
def sample_verifier_hash : Bytes 32 :=
  ⟨[0x35, 0x22, 0xef, 0x81, 0xd4, 0xac, 0x60, 0xa1, 0x93, 0x61, 0xb3, 0x24, 0x82, 0x51, 0xdd, 0xa7,
    0x0b, 0xdd, 0x58, 0x70, 0x26, 0xe9, 0x52, 0x67, 0x5f, 0x36, 0x9c, 0x23, 0x59, 0x70, 0xd8, 0x37],
    rfl⟩

/-- The domain separator of the verifier. -/
def sample_separator : Bytes 32 :=
  ⟨[0xbb, 0x7c, 0xe5, 0xd9, 0x64, 0x71, 0xa0, 0x8b, 0xd5, 0x72, 0x80, 0xa1, 0x0a, 0x9e, 0x67, 0x17,
    0xfa, 0x46, 0xee, 0x10, 0xe9, 0x6d, 0x3c, 0x4f, 0x96, 0x3e, 0x44, 0xf3, 0x3f, 0x70, 0x77, 0x30],
    rfl⟩

/-- The struct hash of the attestation. -/
def sample_struct_hash : Bytes 32 :=
  ⟨[0x40, 0x01, 0x6e, 0x95, 0x3c, 0xa4, 0xf7, 0xdd, 0xae, 0x66, 0x16, 0x98, 0x1d, 0xef, 0x44, 0x6f,
    0xeb, 0x8a, 0x5c, 0x0f, 0x3d, 0xe4, 0x34, 0x9a, 0x5c, 0xb4, 0x6c, 0xda, 0x7b, 0x57, 0xc8, 0x52],
    rfl⟩

/-- The digest the witness signed. -/
def sample_digest : Bytes 32 :=
  ⟨[0x3a, 0x22, 0xff, 0x93, 0xd2, 0x68, 0xd0, 0x44, 0x64, 0x21, 0x58, 0x0a, 0xa0, 0x3e, 0x52, 0xf5,
    0xcc, 0x83, 0x8b, 0x60, 0xcd, 0x49, 0x79, 0x44, 0x47, 0xfe, 0x84, 0x16, 0x8f, 0xca, 0x36, 0x43],
    rfl⟩

/-- The signature of the witness. -/
def sample_signature : Bytes 65 :=
  ⟨[0xea, 0xbb, 0x78, 0x65, 0x62, 0x01, 0x95, 0x4e, 0x76, 0x78, 0xed, 0xfd, 0x9f, 0x86, 0x57, 0xf1,
    0x55, 0x17, 0x31, 0xa8, 0xaf, 0xe0, 0xce, 0xc4, 0x45, 0xbe, 0xa9, 0x7c, 0xdf, 0x54, 0x83, 0x56,
    0x73, 0xb2, 0xbf, 0x34, 0x82, 0x46, 0x56, 0x7a, 0xb8, 0xe1, 0xd1, 0x71, 0xa5, 0xa0, 0x3c, 0xb3,
    0x07, 0x77, 0xf7, 0x4b, 0x3f, 0x8f, 0x06, 0x07, 0x28, 0x11, 0x67, 0x01, 0x11, 0x94, 0x4a, 0x07,
    0x1b],
    rfl⟩

/-- The public key of the witness. -/
def sample_public_key : Bytes 64 :=
  ⟨[0xd9, 0xe0, 0x98, 0xea, 0x11, 0x9f, 0x52, 0xbf, 0x9c, 0x4d, 0x20, 0xe0, 0x6f, 0xf3, 0xc0, 0x13,
    0x1c, 0x54, 0xc7, 0x14, 0xa9, 0x60, 0xe9, 0x0e, 0xb1, 0xd6, 0x99, 0x1d, 0xf9, 0x9c, 0x41, 0xb8,
    0xdd, 0xa9, 0xf7, 0xd1, 0x8d, 0x65, 0x55, 0xce, 0x3f, 0x3c, 0x98, 0x58, 0x49, 0x38, 0xad, 0xee,
    0xd2, 0xc7, 0x2e, 0xe9, 0xf8, 0x33, 0x95, 0x9d, 0x8e, 0x8d, 0x18, 0xcd, 0xe4, 0x98, 0x4d, 0x8d],
    rfl⟩

/-- The hash of that key; its last 20 bytes are the witness. -/
def sample_public_key_hash : Bytes 32 :=
  ⟨[0x86, 0x27, 0x74, 0x6e, 0x7c, 0xe8, 0x4c, 0xa7, 0x07, 0xa2, 0x7b, 0x3b, 0x53, 0xa4, 0x2e, 0x26,
    0x0e, 0x35, 0xf7, 0xdd, 0x16, 0xfb, 0xc9, 0x66, 0x52, 0x00, 0x2c, 0x43, 0xce, 0x28, 0x36, 0xea],
    rfl⟩

/-- The nullifier of the attested payment. -/
def sample_nullifier : Bytes 32 :=
  ⟨[0x65, 0x0f, 0x48, 0x65, 0x6d, 0xca, 0x83, 0xbe, 0xe8, 0xf4, 0x08, 0x62, 0x75, 0x89, 0x10, 0x76,
    0xe0, 0x19, 0x5d, 0xa8, 0x26, 0x37, 0x26, 0xd5, 0x8b, 0x85, 0xbb, 0x4f, 0xb6, 0xa9, 0x1a, 0x58],
    rfl⟩

/-- `keccak` on the inputs that occur, told apart by their length. -/
def sample_keccak (input : List UInt8) : Bytes 32 :=
  match input.length with
  | 32 => sample_verifier_hash
  | 40 =>
    if input.drop 32 = be_bytes 8 0 then sample_first_digest
    else Bytes.ofList 32 (List.replicate 24 0 ++ input.drop 32)
  | 64 => if input.head? = some 0x15 then sample_nullifier else sample_public_key_hash
  | 66 => sample_digest
  | 97 => sample_domain
  | 128 => sample_struct_hash
  | 160 => sample_separator
  | 320 => sample_data_hash
  | _ => Bytes.zero 32

def sample_runtime : Runtime where
  keccak := sample_keccak
  pda_bytes key :=
    if key = orchestrator_address then sample_orchestrator_bytes else sample_verifier_bytes
  secp256k1_recover digest _ _ :=
    if digest = sample_digest then some sample_public_key.toList else none
  ed25519_precompile _ := false

def sample_ctx (now : ℤ) : TxContext where
  now := now
  executable _ := false
  invoke _ _ _ := none

def sample_authority : Pubkey := sample_key 50
def sample_successor : Pubkey := sample_key 60
def sample_taker : Pubkey := sample_key 1
def sample_staker : Pubkey := sample_key 2
def sample_depositor : Pubkey := sample_key 3
def sample_mint : Pubkey := sample_key 7

def sample_tokens : Accounts TokenAccount :=
  (((∅ : Accounts TokenAccount).insert (sample_key 101) ⟨sample_mint, sample_taker, 1000⟩).insert
    (sample_key 102) ⟨sample_mint, sample_staker, 1000⟩).insert
    (sample_key 103) ⟨sample_mint, sample_depositor, 1000⟩

/-- `initialize_protocol` on the sample cluster. -/
def sample_genesis : ProgramResult State :=
  handle_initialize_protocol sample_runtime
    { authority := sample_authority
      upgrade_authority := some sample_authority
      slot_hashes := le_bytes 8 1 ++ le_bytes 8 5 ++ (sample_word 9).toList
      stake_mint := sample_mint
      stake_mint_program := token_program_id
      stake_mint_decimals := 6 }
    { protocol_fee := 0
      protocol_fee_recipient := sample_depositor
      intent_expiration_period := 3600
      max_intents_per_deposit := 10
      controller_change_delay := 86400
      initial_witnesses := [Bytes.ofList 20 (sample_public_key_hash.toList.drop 12)]
      required_signatures := 1 }
    ⟨∅, ∅, ∅⟩ sample_tokens

/-- The committed transactions, from `initialize_protocol` on. -/
def sample_run (txs : List (TxContext × List TopLevel)) : ProgramResult (List Event × State) := do
  let s ← sample_genesis
  TxMachine.execute_all
    (fun ctx before after s ix => TopLevel.execute sample_runtime ctx before after s ix) txs s

/-- The sample ledger has nothing under the program's custody yet. -/
theorem sample_untouched : untouched sample_tokens := by
  intro k a ha
  simp only [sample_tokens, Finmap.lookup_insert_ite, Finmap.lookup_empty] at ha
  split_ifs at ha with h₁ h₂ h₃
  all_goals
    cases ha
    subst k
    exact ⟨rfl, by decide⟩

/-- The first instruction hashes only the deployment domain, so a runtime that agrees there starts
from the same state. -/
theorem sample_genesis_of {rt : Runtime}
    (hdomain : ∀ seed, derive_deployment_domain rt program_id seed
      = derive_deployment_domain sample_runtime program_id seed)
    {s : State} (h : sample_genesis = .ok s) : genesis rt s := by
  have hsame : ∀ accounts args records tokens,
      handle_initialize_protocol rt accounts args records tokens
        = handle_initialize_protocol sample_runtime accounts args records tokens := by
    intro accounts args records tokens
    simp only [handle_initialize_protocol, hdomain]
  exact ⟨_, _, _, _, .empty, sample_untouched, (hsame _ _ _ _).trans h⟩

/-- A run of the sample cluster can be computed. -/
theorem sample_reaches (txs : List (TxContext × List TopLevel)) (good : List Event → State → Bool)
    (h : (sample_run txs).toOption.any (fun r => good r.1 r.2) = true) :
    ∃ es s, Run sample_runtime es s ∧ good es s = true := by
  refine TxMachine.Run.exists_of_computed ?_ h
  intro s₀ hs₀
  exact ⟨_, _, _, _, .empty, sample_untouched, hs₀⟩

/-- The hash of the first intent. -/
def sample_hash : Bytes 32 := derive_intent_hash sample_runtime orchestrator_address 0

def sample_deposit : Pubkey := deposit_address escrow_config_address 0

def sample_intent : Pubkey := intent_address orchestrator_address 0

/-- Two stake owners fund their positions, and a deposit is opened for a payment method whose
coverage has a window. -/
def sample_setup : TxContext × List TopLevel :=
  (sample_ctx 1000,
    [.program (.stake (.initialize_stake_token_vault ⟨sample_taker⟩)),
      .program (.stake (.deposit_stake ⟨sample_taker, sample_key 101⟩ 200)),
      .program (.stake (.deposit_stake ⟨sample_staker, sample_key 102⟩ 100)),
      .program (.custody (.create_deposit ⟨sample_depositor, sample_key 103⟩
        { amount := 500
          intent_amount_range := ⟨1, 500⟩
          delegate := none
          intent_guardian := none
          retain_on_empty := false
          payment_method := sample_word 21
          payee_details := sample_word 22
          gating_service := none
          currency := sample_word 23
          fixed_min_rate := 10
          oracle_quote := none
          spread_bps := 0
          max_staleness := 0 })),
      .program (.verifier (.set_verifier_payment_method ⟨sample_authority⟩ (sample_word 21) true)),
      .program (.dispute_policy (.set_risk_window ⟨sample_authority⟩ (sample_word 21) 3600))])

/-- A signal of the sample taker that presents nothing. -/
def sample_signal : SignalIntent where
  taker := sample_taker
  deposit := sample_deposit
  oracle_quote := none
  rate_manager := none
  rate_entry := none
  deposit_whitelist := none
  direct_whitelist_member := none
  allowed_group := none
  group_member := none
  resolver_program := none
  dispute_intent := none
  deposit_dispute_setting := none
  risk_window := none
  remaining_accounts := []

def sample_signal_args : SignalIntentArgs where
  expected_intent_hash := sample_hash
  amount := 100
  recipient := sample_taker
  payment_method := sample_word 21
  fiat_currency := sample_word 23
  conversion_rate := 10
  referral_fees := []
  gating_signature_expiration := 0

/-- The taker covers an intent with stake of its own and signals it. -/
def sample_cover : TxContext × List TopLevel :=
  (sample_ctx 2000,
    [.program (.prepare_dispute ⟨sample_taker, sample_deposit, none, false, sample_taker⟩
        ⟨sample_hash, sample_word 21, 100⟩),
      .program (.signal_intent
        { sample_signal with
          dispute_intent := some (dispute_intent_address dispute_config_address sample_hash)
          risk_window := some (risk_window_address dispute_config_address (sample_word 21)) }
        sample_signal_args)])

/-- The accounts both settlements of the covered intent take. -/
def sample_settlement_tokens : SettlementTokenAccounts where
  mint := sample_mint
  deposit_vault := deposit_vault_address sample_deposit
  recipient_token := sample_key 101
  protocol_fee_token := sample_key 103
  manager_fee_token := none

def sample_settlement_dispute : SettlementDisputeAccounts where
  dispute_intent := some (dispute_intent_address dispute_config_address sample_hash)
  stake_vault := some stake_vault_address
  stake_position := some (stake_position_address stake_vault_address sample_taker)
  stake_lock := some (stake_lock_address stake_vault_address sample_hash)

def sample_manual_release : TxContext × List TopLevel :=
  (sample_ctx 3000,
    [.program (.manual_release ⟨sample_depositor, sample_intent, sample_settlement_tokens,
      sample_settlement_dispute, []⟩)])

/-- A successor controller is proposed. -/
def sample_propose : TxContext × List TopLevel :=
  (sample_ctx 1500,
    [.program (.governance (.propose_stake_controller ⟨sample_authority⟩ (some sample_successor)))])

/-- The handover proposed on the sample cluster is accepted. -/
def sample_handover : TxContext × List TopLevel :=
  (sample_ctx 90000, [.program (.governance (.accept_stake_controller ⟨sample_successor⟩))])

end Sample

end Zkp2pSolana
