/-
Addresses: the account keys a transaction names.

A `Pubkey` is either an address the program does not derive or one of its
program-derived addresses, written by the seeds it is derived from. Deriving an
address is a constructor, so two derivations are equal exactly when their seeds
are: that is the assumption that `find_program_address` is injective in its
seeds, built into the type. Bumps are determined by the seeds and do not appear.

A program-derived address has no private key and this program signs for one
only inside its own token transfers, so it is never the signer of a top-level
instruction (`Pubkey.can_sign`); neither is the all-zero key.
-/
import Zkp2pSolana.Lib.Bytes

set_option autoImplicit false

namespace Zkp2pSolana

/-- The seed strings of `constants.rs`. -/
inductive Seed where
  | protocol
  | escrow_config
  | orchestrator_config
  | stake_vault_config
  | verifier_config
  | whitelist_config
  | dispute_config
  | rate_manager_config
  | stake_position
  | stake_token_vault
  | taker_authorization
  | stake_selection
  | claim_balance
  | rate_manager
  | rate_entry
  | deposit
  | deposit_vault
  | payment_method
  | deposit_currency
  | oracle_quote
  | escrow_intent_lock
  | intent
  | taker_intent_state
  | payment_binding
  | intent_payment_binding
  | address_group
  | group_member
  | deposit_whitelist
  | deposit_whitelist_member
  | stake_lock
  | risk_window
  | deposit_dispute_setting
  | dispute_intent
  | dispute_nullifier
  deriving DecidableEq, Repr

/-- An account address. The constructors after `addr` are the shapes of seed
lists the program derives addresses from: a seed string followed by nothing, by
keys, by a key and a `u64`, or by a key and one or two 32-byte words. -/
inductive Pubkey where
  | addr (bytes : Bytes 32)
  | pda (seed : Seed)
  | pda_key (seed : Seed) (key : Pubkey)
  | pda_keys (seed : Seed) (key key' : Pubkey)
  | pda_nonce (seed : Seed) (key : Pubkey) (nonce : ℕ)
  | pda_word (seed : Seed) (key : Pubkey) (word : Bytes 32)
  | pda_words (seed : Seed) (key : Pubkey) (word word' : Bytes 32)
  deriving DecidableEq

namespace Pubkey

/-- `Pubkey::default()`, the all-zero key. -/
def default : Pubkey := .addr (Bytes.zero 32)

instance : Inhabited Pubkey := ⟨default⟩

/-- An address derived by this program. -/
def is_pda : Pubkey → Bool
  | .addr _ => false
  | _ => true

/-- An address that can be the signer of a top-level instruction. -/
def can_sign (k : Pubkey) : Bool := !k.is_pda && decide (k ≠ default)

/-- No derived address has a private key, so whoever signs a top-level instruction is not one of the
program's own accounts. -/
theorem is_pda_of_can_sign {k : Pubkey} (h : k.can_sign = true) : k.is_pda = false := by
  simp only [can_sign, Bool.and_eq_true, Bool.not_eq_true'] at h
  exact h.1

/-- Addresses derived from different keys are different. -/
theorem pda_key_ne {seed : Seed} {k k' : Pubkey} (h : k ≠ k') : pda_key seed k ≠ pda_key seed k' := by
  intro heq
  injection heq with _ heq
  exact h heq

/-- So are addresses derived from different words. -/
theorem pda_word_ne {seed : Seed} {k k' : Pubkey} {w w' : Bytes 32} (h : w ≠ w') :
    pda_word seed k w ≠ pda_word seed k' w' := by
  intro heq
  injection heq with _ _ heq
  exact h heq

end Pubkey

/-- `declare_id!`: the program's own address. -/
def program_id : Pubkey := .addr
  ⟨[0x42, 0x2b, 0x4e, 0xab, 0x6c, 0xdf, 0xf9, 0x0c, 0xcd, 0x3a, 0xde, 0x46, 0xe9, 0x40, 0xab, 0x72,
    0xf2, 0x1e, 0x28, 0xbb, 0xf6, 0x82, 0xa2, 0xa1, 0x80, 0x47, 0x07, 0x31, 0x71, 0x9e, 0x28, 0x1b],
    rfl⟩

/-- `anchor_spl::token::ID`: the legacy token program. -/
def token_program_id : Pubkey := .addr
  ⟨[0x06, 0xdd, 0xf6, 0xe1, 0xd7, 0x65, 0xa1, 0x93, 0xd9, 0xcb, 0xe1, 0x46, 0xce, 0xeb, 0x79, 0xac,
    0x1c, 0xb4, 0x85, 0xed, 0x5f, 0x5b, 0x37, 0x91, 0x3a, 0x8c, 0xf5, 0x85, 0x7e, 0xff, 0x00, 0xa9],
    rfl⟩

/-! ## The canonical addresses -/

abbrev protocol_address : Pubkey := .pda .protocol
abbrev escrow_config_address : Pubkey := .pda .escrow_config
abbrev orchestrator_address : Pubkey := .pda .orchestrator_config
abbrev stake_vault_address : Pubkey := .pda .stake_vault_config
abbrev verifier_address : Pubkey := .pda .verifier_config
abbrev whitelist_config_address : Pubkey := .pda .whitelist_config
abbrev dispute_config_address : Pubkey := .pda .dispute_config
abbrev rate_manager_config_address : Pubkey := .pda .rate_manager_config

abbrev stake_position_address (vault owner : Pubkey) : Pubkey := .pda_keys .stake_position vault owner
abbrev stake_token_vault_address (vault : Pubkey) : Pubkey := .pda_key .stake_token_vault vault
abbrev taker_authorization_address (owner taker : Pubkey) : Pubkey :=
  .pda_keys .taker_authorization owner taker
abbrev stake_selection_address (taker : Pubkey) : Pubkey := .pda_key .stake_selection taker
abbrev claim_balance_address (vault beneficiary : Pubkey) : Pubkey :=
  .pda_keys .claim_balance vault beneficiary
abbrev rate_manager_address (config : Pubkey) (nonce : ℕ) : Pubkey :=
  .pda_nonce .rate_manager config nonce
abbrev rate_entry_address (manager : Pubkey) (method currency : Bytes 32) : Pubkey :=
  .pda_words .rate_entry manager method currency
abbrev deposit_address (escrow : Pubkey) (id : ℕ) : Pubkey := .pda_nonce .deposit escrow id
abbrev deposit_vault_address (deposit : Pubkey) : Pubkey := .pda_key .deposit_vault deposit
abbrev payment_method_address (deposit : Pubkey) (method : Bytes 32) : Pubkey :=
  .pda_word .payment_method deposit method
abbrev deposit_currency_address (deposit : Pubkey) (method currency : Bytes 32) : Pubkey :=
  .pda_words .deposit_currency deposit method currency
abbrev oracle_quote_address (authority : Pubkey) (quote_id : Bytes 32) : Pubkey :=
  .pda_word .oracle_quote authority quote_id
abbrev intent_lock_address (deposit : Pubkey) (hash : Bytes 32) : Pubkey :=
  .pda_word .escrow_intent_lock deposit hash
abbrev intent_address (orchestrator : Pubkey) (nonce : ℕ) : Pubkey :=
  .pda_nonce .intent orchestrator nonce
abbrev taker_state_address (orchestrator taker : Pubkey) : Pubkey :=
  .pda_keys .taker_intent_state orchestrator taker
abbrev payment_binding_address (verifier : Pubkey) (nullifier : Bytes 32) : Pubkey :=
  .pda_word .payment_binding verifier nullifier
abbrev intent_payment_binding_address (verifier : Pubkey) (hash : Bytes 32) : Pubkey :=
  .pda_word .intent_payment_binding verifier hash
abbrev address_group_address (config : Pubkey) (nonce : ℕ) : Pubkey :=
  .pda_nonce .address_group config nonce
abbrev group_member_address (group account : Pubkey) : Pubkey :=
  .pda_keys .group_member group account
abbrev deposit_whitelist_address (deposit : Pubkey) : Pubkey := .pda_key .deposit_whitelist deposit
abbrev whitelist_member_address (whitelist taker : Pubkey) : Pubkey :=
  .pda_keys .deposit_whitelist_member whitelist taker
abbrev stake_lock_address (vault : Pubkey) (id : Bytes 32) : Pubkey := .pda_word .stake_lock vault id
abbrev risk_window_address (dispute_config : Pubkey) (method : Bytes 32) : Pubkey :=
  .pda_word .risk_window dispute_config method
abbrev dispute_setting_address (deposit : Pubkey) : Pubkey :=
  .pda_key .deposit_dispute_setting deposit
abbrev dispute_intent_address (dispute_config : Pubkey) (hash : Bytes 32) : Pubkey :=
  .pda_word .dispute_intent dispute_config hash
abbrev dispute_nullifier_address (dispute_config : Pubkey) (nullifier : Bytes 32) : Pubkey :=
  .pda_word .dispute_nullifier dispute_config nullifier

end Zkp2pSolana
