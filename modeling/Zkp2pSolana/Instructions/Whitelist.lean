/-
`programs/zkp2p_solana/src/instructions/whitelist.rs`: address groups and the
per-deposit whitelist policies.

The handlers write only the whitelist records; the ones that act for a deposit
also read it.
-/
import Zkp2pSolana.Ledger

set_option autoImplicit false

namespace Zkp2pSolana

open Result Zkp2pError

/-! ## Address groups -/

structure CreateAddressGroup where
  curator : Pubkey

/-- Creates a group with deterministic identity and two-step curator authority. -/
def handle_create_address_group (rt : Runtime) (accounts : CreateAddressGroup) (name : List UInt8)
    (is_public : Bool) (s : WhitelistRecords) : ProgramResult WhitelistRecords := do
  signer accounts.curator
  let nonce := s.whitelist_config.next_group_id
  let key := address_group_address whitelist_config_address nonce
  init s.address_groups key
  require (name ≠ []) ZeroValue
  require (name.length ≤ 64) AmountAboveMaximum
  let id := rt.keccak (rt.as_ref whitelist_config_address ++ le_bytes 8 nonce)
  let next ← ok_or (Checked.add 64 nonce 1) ArithmeticOverflow
  return { s with
    whitelist_config := { s.whitelist_config with next_group_id := next }
    address_groups := s.address_groups.insert key
      { whitelist_config := whitelist_config_address
        nonce := nonce
        id := id
        curator := accounts.curator
        pending_curator := none
        is_public := is_public
        resolver := none
        name := name } }

/-- The seeds constraint every instruction puts on an `AddressGroup` account. -/
def load_group (s : WhitelistRecords) (key : Pubkey) : ProgramResult AddressGroup := do
  let group ← load s.address_groups key
  require (key = address_group_address group.whitelist_config group.nonce)
    AnchorError.ConstraintSeeds
  return group

structure ConfigureAddressGroup where
  curator : Pubkey
  group : Pubkey
  resolver_program : Option Pubkey

/-- The resolver program is supplied, and executable, exactly when one is being configured. -/
def check_resolver (ctx : TxContext) (resolver_program : Option Pubkey) :
    Option (Option Pubkey) → ProgramResult Unit
  | some (some key) => do
    require (key ≠ Pubkey.default) ZeroAddress
    let program ← ok_or resolver_program Unauthorized
    require (program = key) Unauthorized
    require (ctx.executable program = true) Unauthorized
  -- clearing a resolver, or leaving it, takes no program account
  | _ => require (resolver_program = none) Unauthorized

/-- Updates public admission, resolver, or starts/cancels curator handover. -/
def handle_configure_address_group (ctx : TxContext) (accounts : ConfigureAddressGroup)
    (is_public : Option Bool) (resolver pending_curator : Option (Option Pubkey))
    (s : WhitelistRecords) : ProgramResult WhitelistRecords := do
  signer accounts.curator
  let group ← load_group s accounts.group
  require (accounts.curator = group.curator) AnchorError.ConstraintAddress
  check_resolver ctx accounts.resolver_program resolver
  require (∀ value ∈ pending_curator, ∀ key ∈ value,
    key ≠ Pubkey.default ∧ key ≠ group.curator) ZeroAddress
  return { s with address_groups := s.address_groups.insert accounts.group { group with
    is_public := is_public.getD group.is_public
    resolver := resolver.getD group.resolver
    pending_curator := pending_curator.getD group.pending_curator } }

structure AcceptGroupCurator where
  pending_curator : Pubkey
  group : Pubkey

/-- Completes two-step curator rotation. -/
def handle_accept_group_curator (accounts : AcceptGroupCurator) (s : WhitelistRecords) :
    ProgramResult WhitelistRecords := do
  signer accounts.pending_curator
  let group ← load_group s accounts.group
  require (group.pending_curator = some accounts.pending_curator) Unauthorized
  return { s with address_groups := s.address_groups.insert accounts.group { group with
    curator := accounts.pending_curator
    pending_curator := none } }

structure SetGroupMember where
  curator : Pubkey
  group : Pubkey
  member_address : Pubkey

/-- Adds or removes one explicit group member. -/
def handle_set_group_member (accounts : SetGroupMember) (active : Bool) (s : WhitelistRecords) :
    ProgramResult WhitelistRecords := do
  signer accounts.curator
  let group ← load_group s accounts.group
  require (accounts.curator = group.curator) AnchorError.ConstraintAddress
  require (accounts.member_address ≠ Pubkey.default) ZeroAddress
  let key := group_member_address accounts.group accounts.member_address
  return { s with
    group_members := s.group_members.insert key
      { group := accounts.group, member := accounts.member_address, active := active } }

structure SetSelfGroupMember where
  member_address : Pubkey
  group : Pubkey

/-- Joins or leaves a public group. -/
def handle_set_self_group_member (accounts : SetSelfGroupMember) (active : Bool)
    (s : WhitelistRecords) : ProgramResult WhitelistRecords := do
  signer accounts.member_address
  let group ← load_group s accounts.group
  require (group.is_public = true) Unauthorized
  let key := group_member_address accounts.group accounts.member_address
  return { s with
    group_members := s.group_members.insert key
      { group := accounts.group, member := accounts.member_address, active := active } }

/-! ## Deposit whitelists -/

/-- A deposit together with a signer that must be its owner or delegate. -/
structure DepositAuthority where
  authority : Pubkey
  deposit : Pubkey

/-- `deposit.depositor == authority || deposit.delegate == Some(authority)`. -/
def authorized_deposit (accounts : DepositAuthority) (deposits : Accounts Deposit) :
    ProgramResult Deposit := do
  signer accounts.authority
  let deposit ← load deposits accounts.deposit
  require (deposit.depositor = accounts.authority ∨ deposit.delegate = some accounts.authority)
    Unauthorized
  return deposit

/-- Initializes a latest-stack whitelist; legacy bootstrap is permanently consumed. -/
def handle_initialize_deposit_whitelist (accounts : DepositAuthority) (enabled : Bool)
    (deposits : Accounts Deposit) (s : WhitelistRecords) : ProgramResult WhitelistRecords := do
  let _ ← authorized_deposit accounts deposits
  let key := deposit_whitelist_address accounts.deposit
  init s.deposit_whitelists key
  return { s with
    deposit_whitelists := s.deposit_whitelists.insert key
      { deposit := accounts.deposit
        enabled := enabled
        bootstrapped := true
        allowed_groups := [] } }

/-- Enables or disables whitelist enforcement. -/
def handle_set_whitelist_enabled (accounts : DepositAuthority) (enabled : Bool)
    (deposits : Accounts Deposit) (s : WhitelistRecords) : ProgramResult WhitelistRecords := do
  let _ ← authorized_deposit accounts deposits
  let key := deposit_whitelist_address accounts.deposit
  let whitelist ← load s.deposit_whitelists key
  -- the seeds already determine the deposit; the source compares the stored field as well
  require (whitelist.deposit = accounts.deposit) DepositNotFound
  return { s with deposit_whitelists :=
    s.deposit_whitelists.insert key { whitelist with enabled := enabled } }

/-- The group list after adding or removing one id. -/
def toggle_group (groups : List (Bytes 32)) (id : Bytes 32) (allowed : Bool) :
    ProgramResult (List (Bytes 32)) :=
  toggle groups id allowed (require (groups.length < MAX_GROUPS_PER_DEPOSIT) TooManyGroups) (pure ())

/-- Adds or removes one group while preserving uniqueness and the ten-group cap. -/
def handle_set_deposit_allowed_group (accounts : DepositAuthority) (group : Pubkey)
    (allowed : Bool) (deposits : Accounts Deposit) (s : WhitelistRecords) :
    ProgramResult WhitelistRecords := do
  let _ ← authorized_deposit accounts deposits
  let key := deposit_whitelist_address accounts.deposit
  let whitelist ← load s.deposit_whitelists key
  let group ← load_group s group
  let groups' ← toggle_group whitelist.allowed_groups group.id allowed
  return { s with deposit_whitelists :=
    s.deposit_whitelists.insert key { whitelist with allowed_groups := groups' } }

/-- Adds or removes one direct taker membership. -/
def handle_set_deposit_whitelist_member (accounts : DepositAuthority) (taker : Pubkey)
    (active : Bool) (deposits : Accounts Deposit) (s : WhitelistRecords) :
    ProgramResult WhitelistRecords := do
  let _ ← authorized_deposit accounts deposits
  let key := deposit_whitelist_address accounts.deposit
  let _ ← load s.deposit_whitelists key
  require (taker ≠ Pubkey.default) ZeroAddress
  let member := whitelist_member_address key taker
  return { s with
    whitelist_members := s.whitelist_members.insert member
      { deposit_whitelist := key, taker := taker, active := active } }

end Zkp2pSolana
