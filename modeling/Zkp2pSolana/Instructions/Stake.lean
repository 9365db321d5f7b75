/-
`programs/zkp2p_solana/src/instructions/stake.rs`: stake custody, the
owner/taker delegation records and the controller's collateral locks.

The delegation records need no configuration account, so their handlers act on
`OpenRecords`. The custody handlers return the stake records together with the
token accounts, the controller's lock handlers the stake records only.
-/
import Zkp2pSolana.Ledger

set_option autoImplicit false

namespace Zkp2pSolana

open Result Zkp2pError

/-! ## Custody -/

/-- The canonical stake-custody token account. -/
abbrev stake_token_vault : Pubkey := stake_token_vault_address stake_vault_address

structure InitializeStakeTokenVault where
  payer : Pubkey

/-- Creates the canonical stake custody account. -/
def handle_initialize_stake_token_vault (accounts : InitializeStakeTokenVault)
    (vault : StakeVaultConfig) (tokens : Accounts TokenAccount) :
    ProgramResult (Accounts TokenAccount) := do
  signer accounts.payer
  init tokens stake_token_vault
  return tokens.insert stake_token_vault
    { mint := vault.stake_mint, owner := stake_vault_address, amount := 0 }

/-- A position whose identity fields are written on first use. -/
def opened_position (position : StakePosition) (owner : Pubkey) : StakePosition :=
  -- a position just created is all zeros; its balance and locked amount are kept as they are
  if position.owner = Pubkey.default then
    { position with vault := stake_vault_address, owner := owner }
  else position

structure DepositStake where
  owner : Pubkey
  owner_token : Pubkey

/-- Deposits an exact nonzero amount as caller-owned free stake. -/
def handle_deposit_stake (accounts : DepositStake) (amount : ℕ) (s : StakeRecords)
    (tokens : Accounts TokenAccount) : ProgramResult (StakeRecords × Accounts TokenAccount) := do
  signer accounts.owner
  let key := stake_position_address stake_vault_address accounts.owner
  let mint := s.stake_vault.stake_mint
  let _ ← token_account tokens accounts.owner_token mint accounts.owner
  let _ ← token_account tokens stake_token_vault mint stake_vault_address
  require (0 < amount) ZeroValue
  let tokens ← transfer_in tokens accounts.owner_token stake_token_vault mint accounts.owner amount
  let position := opened_position (init_if_needed s.stake_positions key) accounts.owner
  let balance ← ok_or (Checked.add 64 position.balance amount) ArithmeticOverflow
  let total_staked ← ok_or (Checked.add 64 s.stake_vault.total_staked amount) ArithmeticOverflow
  return ({ s with
    stake_vault := { s.stake_vault with total_staked := total_staked }
    stake_positions := s.stake_positions.insert key { position with balance := balance } }, tokens)

structure WithdrawStake where
  owner : Pubkey
  owner_token : Pubkey

/-- Withdraws only caller-owned free principal. -/
def handle_withdraw_stake (accounts : WithdrawStake) (amount : ℕ) (s : StakeRecords)
    (tokens : Accounts TokenAccount) : ProgramResult (StakeRecords × Accounts TokenAccount) := do
  signer accounts.owner
  let key := stake_position_address stake_vault_address accounts.owner
  let mint := s.stake_vault.stake_mint
  let position ← load s.stake_positions key
  require (position.vault = stake_vault_address) AnchorError.ConstraintHasOne
  require (position.owner = accounts.owner) Unauthorized
  let _ ← token_account tokens stake_token_vault mint stake_vault_address
  let _ ← token_account tokens accounts.owner_token mint accounts.owner
  require (0 < amount) ZeroValue
  -- locked principal is out of reach of its owner
  let free ← ok_or position.free ArithmeticOverflow
  require (amount ≤ free) InsufficientFreeStake
  let balance ← ok_or (Checked.sub position.balance amount) ArithmeticOverflow
  let total_staked ← ok_or (Checked.sub s.stake_vault.total_staked amount) ArithmeticOverflow
  let tokens ← transfer_checked tokens stake_token_vault accounts.owner_token mint
    stake_vault_address amount
  return ({ s with
    stake_vault := { s.stake_vault with total_staked := total_staked }
    stake_positions := s.stake_positions.insert key { position with balance := balance } }, tokens)

structure ClaimStake where
  beneficiary : Pubkey
  beneficiary_token : Pubkey

/-- Withdraws the caller's full, nonzero, immediately claimable balance. -/
def handle_claim_stake (accounts : ClaimStake) (s : StakeRecords)
    (tokens : Accounts TokenAccount) : ProgramResult (StakeRecords × Accounts TokenAccount) := do
  signer accounts.beneficiary
  let key := claim_balance_address stake_vault_address accounts.beneficiary
  let mint := s.stake_vault.stake_mint
  let claim ← load s.claims key
  require (claim.vault = stake_vault_address) AnchorError.ConstraintHasOne
  require (claim.beneficiary = accounts.beneficiary) Unauthorized
  let _ ← token_account tokens stake_token_vault mint stake_vault_address
  let _ ← token_account tokens accounts.beneficiary_token mint accounts.beneficiary
  require (0 < claim.amount) ZeroValue
  let total_claimable ← ok_or (Checked.sub s.stake_vault.total_claimable claim.amount)
    ArithmeticOverflow
  let tokens ← transfer_checked tokens stake_token_vault accounts.beneficiary_token mint
    stake_vault_address claim.amount
  return ({ s with
    stake_vault := { s.stake_vault with total_claimable := total_claimable }
    claims := s.claims.insert key { claim with amount := 0 } }, tokens)

/-! ## Delegation -/

structure SetTakerAuthorization where
  stake_owner : Pubkey
  taker : Pubkey

/-- Grants or revokes a taker's ability to select the caller's stake. -/
def handle_set_taker_authorization (accounts : SetTakerAuthorization) (authorized : Bool)
    (s : OpenRecords) : ProgramResult OpenRecords := do
  signer accounts.stake_owner
  let authorization_key := taker_authorization_address accounts.stake_owner accounts.taker
  let selection_key := stake_selection_address accounts.taker
  -- an owner needs no authorization for its own stake
  require (accounts.taker ≠ Pubkey.default ∧ accounts.taker ≠ accounts.stake_owner) ZeroAddress
  let authorization := init_if_needed s.taker_authorizations authorization_key
  let authorization :=
    if authorization.stake_owner = Pubkey.default then
      { authorization with stake_owner := accounts.stake_owner, taker := accounts.taker }
    else authorization
  let selection := init_if_needed s.stake_selections selection_key
  let selection : StakeSelection :=
    if selection.taker = Pubkey.default then { taker := accounts.taker, selected_owner := none }
    else selection
  -- revoking also clears a selection of this owner
  let selection :=
    if authorized = false ∧ selection.selected_owner = some accounts.stake_owner then
      { selection with selected_owner := none }
    else selection
  return { s with
    taker_authorizations := s.taker_authorizations.insert authorization_key
      { authorization with authorized := authorized }
    stake_selections := s.stake_selections.insert selection_key selection }

structure SelectStakeOwner where
  taker : Pubkey
  stake_owner : Pubkey

/-- Selects a currently authorizing third-party owner. -/
def handle_select_stake_owner (accounts : SelectStakeOwner) (s : OpenRecords) :
    ProgramResult OpenRecords := do
  signer accounts.taker
  let authorization ← load s.taker_authorizations
    (taker_authorization_address accounts.stake_owner accounts.taker)
  require (authorization.stake_owner = accounts.stake_owner) UnauthorizedStakeOwner
  require (authorization.taker = accounts.taker) UnauthorizedStakeOwner
  require (authorization.authorized = true) UnauthorizedStakeOwner
  require (accounts.stake_owner ≠ Pubkey.default ∧ accounts.stake_owner ≠ accounts.taker) ZeroAddress
  let key := stake_selection_address accounts.taker
  let selection := init_if_needed s.stake_selections key
  let taker := if selection.taker = Pubkey.default then accounts.taker else selection.taker
  return { s with
    stake_selections := s.stake_selections.insert key
      { taker := taker, selected_owner := some accounts.stake_owner } }

structure ClearStakeOwner where
  taker : Pubkey

/-- Restores caller-owned stake as the live collateral source. -/
def handle_clear_stake_owner (accounts : ClearStakeOwner) (s : OpenRecords) :
    ProgramResult OpenRecords := do
  signer accounts.taker
  let key := stake_selection_address accounts.taker
  let selection ← load s.stake_selections key
  require (selection.taker = accounts.taker) Unauthorized
  return { s with
    stake_selections := s.stake_selections.insert key { selection with selected_owner := none } }

/-! ## Controller locks -/

/-- Controller-defined lock creation arguments. -/
structure ControllerLockArgs where
  lock_id : Bytes 32
  amount : ℕ
  matures_at : ℤ

/-- The lock account both creating instructions write. -/
def new_stake_lock (owner : Pubkey) (args : ControllerLockArgs) : StakeLock where
  vault := stake_vault_address
  id := args.lock_id
  stake_owner := owner
  amount := args.amount
  matures_at := args.matures_at

structure ControllerLockStake where
  controller : Pubkey
  stake_owner : Pubkey

/-- Locks existing free stake under a strictly future controller-defined maturity. -/
def handle_controller_lock_stake (ctx : TxContext) (accounts : ControllerLockStake)
    (args : ControllerLockArgs) (s : StakeRecords) : ProgramResult StakeRecords := do
  signer accounts.controller
  require (accounts.controller = s.stake_vault.controller) AnchorError.ConstraintAddress
  let position_key := stake_position_address stake_vault_address accounts.stake_owner
  let lock_key := stake_lock_address stake_vault_address args.lock_id
  let position ← load s.stake_positions position_key
  require (position.owner = accounts.stake_owner) UnauthorizedStakeOwner
  -- a lock id in use cannot be taken again until its lock is closed
  init s.stake_locks lock_key
  require (args.lock_id ≠ Bytes.zero 32) ZeroValue
  require (ctx.now < args.matures_at) InvalidMaturity
  let position ← position.lock args.amount
  return { s with
    stake_positions := s.stake_positions.insert position_key position
    stake_locks := s.stake_locks.insert lock_key (new_stake_lock accounts.stake_owner args) }

structure ControllerFundLock where
  controller : Pubkey
  stake_owner : Pubkey
  controller_token : Pubkey

/-- Atomically adopts exact controller tokens as owner stake and locks the complete amount. -/
def handle_controller_fund_lock (ctx : TxContext) (accounts : ControllerFundLock)
    (args : ControllerLockArgs) (s : StakeRecords) (tokens : Accounts TokenAccount) :
    ProgramResult (StakeRecords × Accounts TokenAccount) := do
  signer accounts.controller
  require (accounts.controller = s.stake_vault.controller) AnchorError.ConstraintAddress
  let position_key := stake_position_address stake_vault_address accounts.stake_owner
  let lock_key := stake_lock_address stake_vault_address args.lock_id
  let mint := s.stake_vault.stake_mint
  init s.stake_locks lock_key
  let _ ← token_account tokens accounts.controller_token mint accounts.controller
  let _ ← token_account tokens stake_token_vault mint stake_vault_address
  require (args.lock_id ≠ Bytes.zero 32) ZeroValue
  require (0 < args.amount) ZeroValue
  require (ctx.now < args.matures_at) InvalidMaturity
  let tokens ← transfer_in tokens accounts.controller_token stake_token_vault mint
    accounts.controller args.amount
  let position := opened_position (init_if_needed s.stake_positions position_key)
    accounts.stake_owner
  let balance ← ok_or (Checked.add 64 position.balance args.amount) ArithmeticOverflow
  let position ← { position with balance := balance }.lock args.amount
  let total_staked ← ok_or (Checked.add 64 s.stake_vault.total_staked args.amount)
    ArithmeticOverflow
  return ({ s with
    stake_vault := { s.stake_vault with total_staked := total_staked }
    stake_positions := s.stake_positions.insert position_key position
    stake_locks := s.stake_locks.insert lock_key (new_stake_lock accounts.stake_owner args) },
    tokens)

structure ManageStakeLock where
  controller : Pubkey

/-- The lock and its owner's position, as `ManageStakeLock` constrains them. -/
def managed_stake_lock (accounts : ManageStakeLock) (lock_id : Bytes 32) (s : StakeRecords) :
    ProgramResult (StakeLock × StakePosition) := do
  signer accounts.controller
  require (accounts.controller = s.stake_vault.controller) AnchorError.ConstraintAddress
  let lock ← load s.stake_locks (stake_lock_address stake_vault_address lock_id)
  let position ← load s.stake_positions
    (stake_position_address stake_vault_address lock.stake_owner)
  -- the seeds already pin the address; this compares the stored id with them
  require (lock.id = lock_id) LockNotFound
  return (lock, position)

/-- The stake records with a lock and its owner's position written back. -/
def StakeRecords.set_lock (s : StakeRecords) (lock_id : Bytes 32) (lock : StakeLock)
    (position : StakePosition) : StakeRecords :=
  { s with
    stake_positions := s.stake_positions.insert
      (stake_position_address stake_vault_address lock.stake_owner) position
    stake_locks := s.stake_locks.insert (stake_lock_address stake_vault_address lock_id) lock }

/-- Increases a pre-maturity lock from the owner's free stake. -/
def handle_increase_stake_lock (ctx : TxContext) (accounts : ManageStakeLock) (lock_id : Bytes 32)
    (additional_amount : ℕ) (s : StakeRecords) : ProgramResult StakeRecords := do
  let (lock, position) ← managed_stake_lock accounts lock_id s
  require (0 < additional_amount) ZeroValue
  require (ctx.now < lock.matures_at) LockAlreadyMatured
  let position ← position.lock additional_amount
  let amount ← ok_or (Checked.add 64 lock.amount additional_amount) ArithmeticOverflow
  return s.set_lock lock_id { lock with amount := amount } position

/-- Shrinks and re-times a pre-maturity lock without permitting an increase. -/
def handle_resize_stake_lock (ctx : TxContext) (accounts : ManageStakeLock) (lock_id : Bytes 32)
    (new_amount : ℕ) (new_matures_at : ℤ) (s : StakeRecords) : ProgramResult StakeRecords := do
  let (lock, position) ← managed_stake_lock accounts lock_id s
  require (ctx.now < lock.matures_at) LockAlreadyMatured
  require (0 < new_amount) ZeroValue
  require (new_amount ≤ lock.amount) AmountAboveMaximum
  require (ctx.now < new_matures_at) InvalidMaturity
  let unlocked ← ok_or (Checked.sub lock.amount new_amount) ArithmeticOverflow
  -- a resize that only moves the maturity leaves the position alone
  let position ← (if 0 < unlocked then position.unlock unlocked else .ok position)
  return s.set_lock lock_id { lock with amount := new_amount, matures_at := new_matures_at }
    position

/-- Unlocks a complete lock before or after maturity and returns principal to free stake. -/
def handle_controller_unlock_stake (accounts : ManageStakeLock) (lock_id : Bytes 32)
    (s : StakeRecords) : ProgramResult StakeRecords := do
  let (lock, position) ← managed_stake_lock accounts lock_id s
  -- no maturity check: the controller may release early
  let position ← position.unlock lock.amount
  return { s with
    stake_positions := s.stake_positions.insert
      (stake_position_address stake_vault_address lock.stake_owner) position
    stake_locks := s.stake_locks.erase (stake_lock_address stake_vault_address lock_id) }

/-! ## Claims -/

/-- One controller-directed beneficiary allocation. -/
structure StakeClaim where
  beneficiary : Pubkey
  amount : ℕ

structure InitializeClaimBalance where
  payer : Pubkey
  beneficiary : Pubkey

/-- A claim balance whose identity fields are written on first use. -/
def opened_claim (claim : ClaimBalance) (beneficiary : Pubkey) : ClaimBalance :=
  if claim.beneficiary = Pubkey.default then
    { vault := stake_vault_address, beneficiary := beneficiary, amount := 0 }
  else claim

/-- Creates an empty canonical claim balance for later controller resolution. -/
def handle_initialize_claim_balance (accounts : InitializeClaimBalance) (s : StakeRecords) :
    ProgramResult StakeRecords := do
  signer accounts.payer
  let key := claim_balance_address stake_vault_address accounts.beneficiary
  require (accounts.beneficiary ≠ Pubkey.default) InvalidClaim
  return { s with
    claims := s.claims.insert key
      (opened_claim (init_if_needed s.claims key) accounts.beneficiary) }

/-- The first loop of `handle_resolve_stake_lock`: the allocations are nonzero, for distinct
beneficiaries, and add up without overflow. -/
def total_claims (prior : List Pubkey) (total : ℕ) : List StakeClaim → ProgramResult ℕ
  | [] => .ok total
  | allocation :: rest => do
    require (allocation.beneficiary ≠ Pubkey.default ∧ 0 < allocation.amount) InvalidClaim
    require (allocation.beneficiary ∉ prior) InvalidClaim
    let total ← ok_or (Checked.add 64 total allocation.amount) ArithmeticOverflow
    total_claims (prior ++ [allocation.beneficiary]) total rest

/-- The second loop: each allocation is credited to its prepared claim account. -/
def credit_claims (claims : Accounts ClaimBalance) :
    List (StakeClaim × AccountInfo) → ProgramResult (Accounts ClaimBalance)
  | [] => .ok claims
  | (allocation, account) :: rest => do
    require (account.is_writable = true) Unauthorized
    let key := claim_balance_address stake_vault_address allocation.beneficiary
    require (account.key = key) InvalidClaim
    -- loaded from the accounts as already credited, so the fold is the source's loop
    let claim ← load claims key
    require (claim.vault = stake_vault_address) InvalidClaim
    require (claim.beneficiary = allocation.beneficiary) InvalidClaim
    let amount ← ok_or (Checked.add 64 claim.amount allocation.amount) ArithmeticOverflow
    credit_claims (claims.insert key { claim with amount := amount }) rest

structure ResolveStakeLock where
  controller : Pubkey
  remaining_accounts : List AccountInfo

/-- Resolves at most the complete lock into prepared beneficiary claims and frees any
remainder. -/
def handle_resolve_stake_lock (accounts : ResolveStakeLock) (lock_id : Bytes 32)
    (claims : List StakeClaim) (s : StakeRecords) : ProgramResult StakeRecords := do
  signer accounts.controller
  require (accounts.controller = s.stake_vault.controller) AnchorError.ConstraintAddress
  let lock_key := stake_lock_address stake_vault_address lock_id
  let lock ← load s.stake_locks lock_key
  let position_key := stake_position_address stake_vault_address lock.stake_owner
  let position ← load s.stake_positions position_key
  require (claims ≠ []) InvalidClaim
  require (claims.length = accounts.remaining_accounts.length) ArrayLengthMismatch
  let total ← total_claims [] 0 claims
  -- the claims are charged to the balance and the rest of the lock returns to free stake
  let position ← position.resolve lock.amount total
  let total_staked ← ok_or (Checked.sub s.stake_vault.total_staked total) ArithmeticOverflow
  let total_claimable ← ok_or (Checked.add 64 s.stake_vault.total_claimable total)
    ArithmeticOverflow
  let credited ← credit_claims s.claims (claims.zip accounts.remaining_accounts)
  return { s with
    stake_vault := { s.stake_vault with
      total_staked := total_staked
      total_claimable := total_claimable }
    stake_positions := s.stake_positions.insert position_key position
    stake_locks := s.stake_locks.erase lock_key
    claims := credited }

end Zkp2pSolana
