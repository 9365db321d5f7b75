/-
What an instruction can do to the address groups and the whitelists.

[`WhitelistWrite`] is everything the nine instructions of `whitelist.rs` can do,
with who signed for it: a group is opened, configured and handed on by its
curator, a member record is written by the curator or, in a public group, by the
member itself, and what belongs to a deposit is written by the depositor or its
delegate. Nothing is ever removed.
-/
import Zkp2pSolana.PolicyMoves

set_option autoImplicit false

namespace Zkp2pSolana

open Result Zkp2pError

/-- The signer acts for the deposit: it is the depositor or the delegate. -/
structure ActsFor (accounts : DepositAuthority) (deposits : Accounts Deposit) (d : Deposit) : Prop where
  signs : accounts.authority.can_sign = true
  deposit : deposits.lookup accounts.deposit = some d
  authority : d.depositor = accounts.authority ∨ d.delegate = some accounts.authority

/-- Who acts for a deposit signs, and is its depositor or its delegate. -/
theorem authorized_deposit_ok {accounts : DepositAuthority} {deposits : Accounts Deposit}
    {d : Deposit} (h : authorized_deposit accounts deposits = .ok d) :
    ActsFor accounts deposits d := by
  simp only [authorized_deposit, bind_eq_ok, signer_eq_ok, load_eq_ok, require_eq_ok, exists_const,
    pure_eq_ok] at h
  obtain ⟨hsigns, d', hd, hauthority, rfl⟩ := h
  exact ⟨hsigns, hd, hauthority⟩

/-- A group loads from the address its own fields derive. -/
theorem load_group_ok {r : WhitelistRecords} {k : Pubkey} {g : AddressGroup} :
    load_group r k = .ok g ↔
      r.address_groups.lookup k = some g ∧ k = address_group_address g.whitelist_config g.nonce := by
  simp only [load_group, bind_eq_ok, load_eq_ok, require_eq_ok, exists_const, pure_eq_ok]
  constructor
  · rintro ⟨g', hg, hkey, rfl⟩
    exact ⟨hg, hkey⟩
  · rintro ⟨hg, hkey⟩
    exact ⟨g, hg, hkey, rfl⟩

/-- The group `create_address_group` writes. -/
def new_group (rt : Runtime) (curator : Pubkey) (name : List UInt8) (is_public : Bool) (nonce : ℕ) :
    AddressGroup where
  whitelist_config := whitelist_config_address
  nonce := nonce
  id := rt.keccak (rt.as_ref whitelist_config_address ++ le_bytes 8 nonce)
  curator := curator
  pending_curator := none
  is_public := is_public
  resolver := none
  name := name

/-- What one whitelist instruction writes, and who signed for it. -/
inductive WhitelistWrite (rt : Runtime) (deposits : Accounts Deposit) (r r' : WhitelistRecords) :
    WhitelistInstruction → Prop
  | opened (accounts : CreateAddressGroup) (name : List UInt8) (is_public : Bool)
      (signs : accounts.curator.can_sign = true)
      (fresh : r.address_groups.lookup
        (address_group_address whitelist_config_address r.whitelist_config.next_group_id) = none)
      (named : name ≠ [] ∧ name.length ≤ 64)
      (word : r.whitelist_config.next_group_id + 1 < 2 ^ 64)
      (records : r' = { r with
        whitelist_config := { r.whitelist_config with
          next_group_id := r.whitelist_config.next_group_id + 1 }
        address_groups := r.address_groups.insert
          (address_group_address whitelist_config_address r.whitelist_config.next_group_id)
          (new_group rt accounts.curator name is_public r.whitelist_config.next_group_id) }) :
      WhitelistWrite rt deposits r r' (.create_address_group accounts name is_public)
  | configured (accounts : ConfigureAddressGroup) (is_public : Option Bool)
      (resolver pending_curator : Option (Option Pubkey)) (g : AddressGroup)
      (signs : accounts.curator.can_sign = true)
      (group : r.address_groups.lookup accounts.group = some g) (curator : accounts.curator = g.curator)
      (candidate : ∀ value ∈ pending_curator, ∀ key ∈ value,
        key ≠ Pubkey.default ∧ key ≠ g.curator)
      (records : r' = { r with address_groups := r.address_groups.insert accounts.group { g with
        is_public := is_public.getD g.is_public
        resolver := resolver.getD g.resolver
        pending_curator := pending_curator.getD g.pending_curator } }) :
      WhitelistWrite rt deposits r r'
        (.configure_address_group accounts is_public resolver pending_curator)
  | accepted (accounts : AcceptGroupCurator) (g : AddressGroup)
      (signs : accounts.pending_curator.can_sign = true)
      (group : r.address_groups.lookup accounts.group = some g)
      (pending : g.pending_curator = some accounts.pending_curator)
      (records : r' = { r with address_groups := r.address_groups.insert accounts.group { g with
        curator := accounts.pending_curator
        pending_curator := none } }) :
      WhitelistWrite rt deposits r r' (.accept_group_curator accounts)
  | member (accounts : SetGroupMember) (active : Bool) (g : AddressGroup)
      (signs : accounts.curator.can_sign = true)
      (group : r.address_groups.lookup accounts.group = some g) (curator : accounts.curator = g.curator)
      (records : r' = { r with
        group_members := r.group_members.insert
          (group_member_address accounts.group accounts.member_address)
          { group := accounts.group, member := accounts.member_address, active := active } }) :
      WhitelistWrite rt deposits r r' (.set_group_member accounts active)
  | self_member (accounts : SetSelfGroupMember) (active : Bool) (g : AddressGroup)
      (signs : accounts.member_address.can_sign = true)
      (group : r.address_groups.lookup accounts.group = some g) (is_public : g.is_public = true)
      (records : r' = { r with
        group_members := r.group_members.insert
          (group_member_address accounts.group accounts.member_address)
          { group := accounts.group, member := accounts.member_address, active := active } }) :
      WhitelistWrite rt deposits r r' (.set_self_group_member accounts active)
  | whitelist (accounts : DepositAuthority) (enabled : Bool) (d : Deposit)
      (authority : ActsFor accounts deposits d)
      (fresh : r.deposit_whitelists.lookup (deposit_whitelist_address accounts.deposit) = none)
      (records : r' = { r with
        deposit_whitelists := r.deposit_whitelists.insert
          (deposit_whitelist_address accounts.deposit)
          { deposit := accounts.deposit
            enabled := enabled
            bootstrapped := true
            allowed_groups := [] } }) :
      WhitelistWrite rt deposits r r' (.initialize_deposit_whitelist accounts enabled)
  | enabled (accounts : DepositAuthority) (enabled : Bool) (d : Deposit) (w : DepositWhitelist)
      (authority : ActsFor accounts deposits d)
      (found : r.deposit_whitelists.lookup (deposit_whitelist_address accounts.deposit) = some w)
      (records : r' = { r with
        deposit_whitelists := r.deposit_whitelists.insert
          (deposit_whitelist_address accounts.deposit) { w with enabled := enabled } }) :
      WhitelistWrite rt deposits r r' (.set_whitelist_enabled accounts enabled)
  | allowed (accounts : DepositAuthority) (group : Pubkey) (allowed : Bool) (d : Deposit)
      (w : DepositWhitelist) (g : AddressGroup) (groups : List (Bytes 32))
      (authority : ActsFor accounts deposits d)
      (found : r.deposit_whitelists.lookup (deposit_whitelist_address accounts.deposit) = some w)
      (group_eq : r.address_groups.lookup group = some g)
      (toggled : toggle_group w.allowed_groups g.id allowed = .ok groups)
      (records : r' = { r with
        deposit_whitelists := r.deposit_whitelists.insert
          (deposit_whitelist_address accounts.deposit) { w with allowed_groups := groups } }) :
      WhitelistWrite rt deposits r r' (.set_deposit_allowed_group accounts group allowed)
  | taker (accounts : DepositAuthority) (taker : Pubkey) (active : Bool) (d : Deposit)
      (w : DepositWhitelist) (authority : ActsFor accounts deposits d)
      (found : r.deposit_whitelists.lookup (deposit_whitelist_address accounts.deposit) = some w)
      (records : r' = { r with
        whitelist_members := r.whitelist_members.insert
          (whitelist_member_address (deposit_whitelist_address accounts.deposit) taker)
          { deposit_whitelist := deposit_whitelist_address accounts.deposit
            taker := taker
            active := active } }) :
      WhitelistWrite rt deposits r r' (.set_deposit_whitelist_member accounts taker active)

/-- The instructions of `whitelist.rs` read backwards, each with what it checked and what it
wrote. -/
theorem whitelist_write {rt : Runtime} {ctx : TxContext} {deposits : Accounts Deposit}
    {r r' : WhitelistRecords} {ix : WhitelistInstruction}
    (h : ix.execute rt ctx deposits r = .ok r') : WhitelistWrite rt deposits r r' ix := by
  cases ix with
  | create_address_group accounts name is_public =>
    simp only [WhitelistInstruction.execute, handle_create_address_group, bind_eq_ok, signer_eq_ok,
      init_eq_ok, require_eq_ok, exists_const, ok_or_eq_ok, Checked.add_eq_some, pure_eq_ok] at h
    obtain ⟨hsigns, hfresh, hname, hlength, _, ⟨hword, rfl⟩, rfl⟩ := h
    exact .opened accounts name is_public hsigns hfresh ⟨hname, hlength⟩ hword rfl
  | configure_address_group accounts is_public resolver pending_curator =>
    simp only [WhitelistInstruction.execute, handle_configure_address_group, bind_eq_ok,
      signer_eq_ok, load_group_ok, require_eq_ok, exists_const, pure_eq_ok] at h
    obtain ⟨hsigns, g, ⟨hg, -⟩, hcurator, _, -, hcandidate, rfl⟩ := h
    exact .configured accounts is_public resolver pending_curator g hsigns hg hcurator hcandidate rfl
  | accept_group_curator accounts =>
    simp only [WhitelistInstruction.execute, handle_accept_group_curator, bind_eq_ok, signer_eq_ok,
      load_group_ok, require_eq_ok, exists_const, pure_eq_ok] at h
    obtain ⟨hsigns, g, ⟨hg, -⟩, hpending, rfl⟩ := h
    exact .accepted accounts g hsigns hg hpending rfl
  | set_group_member accounts active =>
    simp only [WhitelistInstruction.execute, handle_set_group_member, bind_eq_ok, signer_eq_ok,
      load_group_ok, require_eq_ok, exists_const, pure_eq_ok] at h
    obtain ⟨hsigns, g, ⟨hg, -⟩, hcurator, -, rfl⟩ := h
    exact .member accounts active g hsigns hg hcurator rfl
  | set_self_group_member accounts active =>
    simp only [WhitelistInstruction.execute, handle_set_self_group_member, bind_eq_ok, signer_eq_ok,
      load_group_ok, require_eq_ok, exists_const, pure_eq_ok] at h
    obtain ⟨hsigns, g, ⟨hg, -⟩, hpublic, rfl⟩ := h
    exact .self_member accounts active g hsigns hg hpublic rfl
  | initialize_deposit_whitelist accounts enabled =>
    simp only [WhitelistInstruction.execute, handle_initialize_deposit_whitelist, bind_eq_ok,
      init_eq_ok, exists_const, pure_eq_ok] at h
    obtain ⟨d, hd, hfresh, rfl⟩ := h
    exact .whitelist accounts enabled d (authorized_deposit_ok hd) hfresh rfl
  | set_whitelist_enabled accounts enabled =>
    simp only [WhitelistInstruction.execute, handle_set_whitelist_enabled, bind_eq_ok, load_eq_ok,
      require_eq_ok, exists_const, pure_eq_ok] at h
    obtain ⟨d, hd, w, hw, -, rfl⟩ := h
    exact .enabled accounts enabled d w (authorized_deposit_ok hd) hw rfl
  | set_deposit_allowed_group accounts group allowed =>
    simp only [WhitelistInstruction.execute, handle_set_deposit_allowed_group, bind_eq_ok,
      load_eq_ok, load_group_ok, pure_eq_ok] at h
    obtain ⟨d, hd, w, hw, g, ⟨hg, -⟩, groups, htoggle, rfl⟩ := h
    exact .allowed accounts group allowed d w g groups (authorized_deposit_ok hd) hw hg htoggle rfl
  | set_deposit_whitelist_member accounts taker active =>
    simp only [WhitelistInstruction.execute, handle_set_deposit_whitelist_member, bind_eq_ok,
      load_eq_ok, require_eq_ok, exists_const, pure_eq_ok] at h
    obtain ⟨d, hd, w, hw, -, rfl⟩ := h
    exact .taker accounts taker active d w (authorized_deposit_ok hd) hw rfl

end Zkp2pSolana
