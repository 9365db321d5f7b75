/-
`deployment/src/main.rs`: the configuration fingerprint of `run_rpc`.

An upgrade of the program must leave the governance configuration as it was. The
deployment tool compares one hash before and after: twenty-four fields of six
accounts are appended to one buffer without anything between them, and the hash
of the buffer is printed. Two of the fields are optional and two are lists, so a
field does not start at a fixed place. It still starts where the field before it
ends, and every field tells where that is; the buffer therefore determines all
of them, and a hash without collisions on the two buffers at hand tells every
change.
-/
import Zkp2pSolana.Digests
import Zkp2pSolana.Lib.Base58

set_option autoImplicit false

namespace Zkp2pSolana

open Result

/-! ## The fingerprinted fields -/

/-- The fields `run_rpc` fingerprints, in its order; a key is its bytes. -/
structure Configuration where
  authority : Bytes 32
  pending_authority : Option (Bytes 32)
  version : ℕ
  domain_seed_slot : ℕ
  domain_seed : Bytes 32
  domain_chain_id : Bytes 32
  dust_recipient : Bytes 32
  dust_threshold : ℕ
  max_intents_per_deposit : ℕ
  intent_expiration_period : ℤ
  escrow_paused : Bool
  required_signatures : ℕ
  witnesses : List (Bytes 20)
  payment_methods : List (Bytes 32)
  protocol_fee : ℕ
  protocol_fee_recipient : Bytes 32
  lifecycle_policy : LifecyclePolicy
  allow_multiple_intents : Bool
  orchestrator_paused : Bool
  controller : Bytes 32
  pending_controller : Option (Bytes 32)
  pending_controller_valid_at : ℤ
  controller_change_delay : ℤ
  admissions_paused : Bool
  deriving DecidableEq

/-- The fields as the tool reads them from the accounts. -/
def State.configuration (rt : Runtime) (s : State) : Configuration where
  authority := rt.key_bytes s.protocol.authority
  pending_authority := s.protocol.pending_authority.map rt.key_bytes
  version := s.protocol.version
  domain_seed_slot := s.protocol.domain_seed_slot
  domain_seed := s.protocol.domain_seed
  domain_chain_id := s.protocol.domain_chain_id
  dust_recipient := rt.key_bytes s.escrow_config.dust_recipient
  dust_threshold := s.escrow_config.dust_threshold
  max_intents_per_deposit := s.escrow_config.max_intents_per_deposit
  intent_expiration_period := s.escrow_config.intent_expiration_period
  escrow_paused := s.escrow_config.paused
  required_signatures := s.verifier.required_signatures
  witnesses := s.verifier.witnesses
  payment_methods := s.verifier.payment_methods
  protocol_fee := s.orchestrator.protocol_fee
  protocol_fee_recipient := rt.key_bytes s.orchestrator.protocol_fee_recipient
  lifecycle_policy := s.orchestrator.lifecycle_policy
  allow_multiple_intents := s.orchestrator.allow_multiple_intents
  orchestrator_paused := s.orchestrator.paused
  controller := rt.key_bytes s.stake_vault.controller
  pending_controller := s.stake_vault.pending_controller.map rt.key_bytes
  pending_controller_valid_at := s.stake_vault.pending_controller_valid_at
  controller_change_delay := s.stake_vault.controller_change_delay
  admissions_paused := s.dispute_config.admissions_paused

/-- The fields are values of their machine types, as decoding leaves them; a list was decoded with
its length in 32 bits. -/
structure Configuration.Fits (c : Configuration) : Prop where
  version : c.version < 2 ^ 8
  domain_seed_slot : c.domain_seed_slot < 2 ^ 64
  dust_threshold : c.dust_threshold < 2 ^ 64
  max_intents_per_deposit : c.max_intents_per_deposit < 2 ^ 16
  intent_expiration_period :
    -2 ^ 63 ≤ c.intent_expiration_period ∧ c.intent_expiration_period < 2 ^ 63
  required_signatures : c.required_signatures < 2 ^ 8
  witnesses : c.witnesses.length < 2 ^ 32
  payment_methods : c.payment_methods.length < 2 ^ 32
  protocol_fee : c.protocol_fee < 2 ^ 128
  pending_controller_valid_at :
    -2 ^ 63 ≤ c.pending_controller_valid_at ∧ c.pending_controller_valid_at < 2 ^ 63
  controller_change_delay :
    -2 ^ 63 ≤ c.controller_change_delay ∧ c.controller_change_delay < 2 ^ 63

/-! ## The buffer -/

/-- `AnchorSerialize` on `Pubkey`. -/
abbrev key_borsh : Borsh (Bytes 32) := .array 32

/-- `AnchorSerialize` on `LifecyclePolicy`. -/
def LifecyclePolicy.borsh : Borsh LifecyclePolicy :=
  .enumeration [.None, .Whitelist, .WhitelistAndDispute] (by decide)

/-- The calls of `fingerprint_field!`, one after the other. -/
def configuration_bytes (c : Configuration) : List UInt8 :=
  key_borsh.serialize c.authority
    ++ (Borsh.option key_borsh).serialize c.pending_authority
    ++ Borsh.u8.serialize c.version
    ++ Borsh.u64.serialize c.domain_seed_slot
    ++ (Borsh.array 32).serialize c.domain_seed
    ++ (Borsh.array 32).serialize c.domain_chain_id
    ++ key_borsh.serialize c.dust_recipient
    ++ Borsh.u64.serialize c.dust_threshold
    ++ Borsh.u16.serialize c.max_intents_per_deposit
    ++ Borsh.i64.serialize c.intent_expiration_period
    ++ Borsh.bool.serialize c.escrow_paused
    ++ Borsh.u8.serialize c.required_signatures
    ++ (Borsh.vec (.array 20)).serialize c.witnesses
    ++ (Borsh.vec (.array 32)).serialize c.payment_methods
    ++ Borsh.u128.serialize c.protocol_fee
    ++ key_borsh.serialize c.protocol_fee_recipient
    ++ LifecyclePolicy.borsh.serialize c.lifecycle_policy
    ++ Borsh.bool.serialize c.allow_multiple_intents
    ++ Borsh.bool.serialize c.orchestrator_paused
    ++ key_borsh.serialize c.controller
    ++ (Borsh.option key_borsh).serialize c.pending_controller
    ++ Borsh.i64.serialize c.pending_controller_valid_at
    ++ Borsh.i64.serialize c.controller_change_delay
    ++ Borsh.bool.serialize c.admissions_paused

/-- The printed fingerprint: the hash as text. -/
def configuration_fingerprint (rt : Runtime) (c : Configuration) : List Char :=
  Base58.encode (rt.keccak (configuration_bytes c)).toList

/-! ## The buffer as one record -/

/-- The buffer is the serialization of one record with the twenty-four fields. -/
def Configuration.borsh : Borsh Configuration :=
  Borsh.record
    (.field key_borsh <| .field (.option key_borsh) <| .field .u8 <| .field .u64 <|
      .field (.array 32) <| .field (.array 32) <| .field key_borsh <| .field .u64 <| .field .u16 <|
      .field .i64 <| .field .bool <| .field .u8 <| .field (.vec (.array 20)) <|
      .field (.vec (.array 32)) <| .field .u128 <| .field key_borsh <|
      .field LifecyclePolicy.borsh <| .field .bool <| .field .bool <| .field key_borsh <|
      .field (.option key_borsh) <| .field .i64 <| .field .i64 <| .bool)
    (fun c => (c.authority, c.pending_authority, c.version, c.domain_seed_slot, c.domain_seed,
      c.domain_chain_id, c.dust_recipient, c.dust_threshold, c.max_intents_per_deposit,
      c.intent_expiration_period, c.escrow_paused, c.required_signatures, c.witnesses,
      c.payment_methods, c.protocol_fee, c.protocol_fee_recipient, c.lifecycle_policy,
      c.allow_multiple_intents, c.orchestrator_paused, c.controller, c.pending_controller,
      c.pending_controller_valid_at, c.controller_change_delay, c.admissions_paused))
    (fun (authority, pending_authority, version, domain_seed_slot, domain_seed, domain_chain_id,
        dust_recipient, dust_threshold, max_intents_per_deposit, intent_expiration_period,
        escrow_paused, required_signatures, witnesses, payment_methods, protocol_fee,
        protocol_fee_recipient, lifecycle_policy, allow_multiple_intents, orchestrator_paused,
        controller, pending_controller, pending_controller_valid_at, controller_change_delay,
        admissions_paused) =>
      { authority, pending_authority, version, domain_seed_slot, domain_seed, domain_chain_id,
        dust_recipient, dust_threshold, max_intents_per_deposit, intent_expiration_period,
        escrow_paused, required_signatures, witnesses, payment_methods, protocol_fee,
        protocol_fee_recipient, lifecycle_policy, allow_multiple_intents, orchestrator_paused,
        controller, pending_controller, pending_controller_valid_at, controller_change_delay,
        admissions_paused })
    (fun _ => rfl)

/-- The bytes hashed are the Borsh serialization of the whole configuration, field after field. -/
theorem configuration_bytes_eq (c : Configuration) :
    configuration_bytes c = Configuration.borsh.serialize c := by
  unfold configuration_bytes Configuration.borsh
  simp only [Borsh.record, Borsh.field, List.append_assoc]

theorem LifecyclePolicy.borsh_fits (p : LifecyclePolicy) : LifecyclePolicy.borsh.Fits p := by
  show p ∈ [LifecyclePolicy.None, .Whitelist, .WhitelistAndDispute]
  cases p <;> decide

/-- A configuration within its types' ranges can be serialized. -/
theorem Configuration.Fits.borsh {c : Configuration} (h : c.Fits) : Configuration.borsh.Fits c := by
  have hbool : ∀ b : Bool, Borsh.bool.Fits b := by
    intro b
    show b ∈ [false, true]
    cases b <;> decide
  have hkey : ∀ o : Option (Bytes 32), (Borsh.option key_borsh).Fits o := fun _ _ _ => trivial
  have hfee : c.protocol_fee < 256 ^ 16 := by simpa using h.protocol_fee
  exact ⟨trivial, hkey _, h.version, h.domain_seed_slot, trivial, trivial, trivial,
    h.dust_threshold, h.max_intents_per_deposit, h.intent_expiration_period, hbool _,
    h.required_signatures, ⟨h.witnesses, fun _ _ => trivial⟩,
    ⟨h.payment_methods, fun _ _ => trivial⟩, hfee, trivial, LifecyclePolicy.borsh_fits _, hbool _,
    hbool _, trivial, hkey _, h.pending_controller_valid_at, h.controller_change_delay, hbool _⟩

/-- Different configurations are hashed from different bytes: options and vectors carry their tag
and length. -/
theorem configuration_bytes_inj {a b : Configuration} (ha : a.Fits) (hb : b.Fits)
    (h : configuration_bytes a = configuration_bytes b) : a = b := by
  rw [configuration_bytes_eq, configuration_bytes_eq] at h
  exact Configuration.borsh.serialize_injective ha.borsh hb.borsh h

/-- The buffer, and where the hash does not collide the fingerprint, agree exactly when every
field does. -/
theorem fingerprint_detects_changes {a b : Configuration} (ha : a.Fits) (hb : b.Fits) :
    (configuration_bytes a = configuration_bytes b ↔ a = b)
      ∧ ∀ rt : Runtime, rt.CollisionFree [configuration_bytes a, configuration_bytes b] →
        (configuration_fingerprint rt a = configuration_fingerprint rt b ↔ a = b) := by
  refine ⟨⟨configuration_bytes_inj ha hb, fun h => by rw [h]⟩, ?_⟩
  intro rt hfree
  constructor
  · intro h
    have hlength : (rt.keccak (configuration_bytes a)).toList.length
        = (rt.keccak (configuration_bytes b)).toList.length := by
      rw [Bytes.length_toList, Bytes.length_toList]
    have hhash : rt.keccak (configuration_bytes a) = rt.keccak (configuration_bytes b) :=
      Bytes.toList_injective (Base58.encode_injective hlength h)
    exact configuration_bytes_inj ha hb (hfree _ (by simp) _ (by simp) hhash)
  · intro h
    rw [h]

/-! ## A proposal between two fingerprints -/

section Sample

/-- The hash of the sample cluster's buffer after initialization. -/
def sample_initial_hash : Bytes 32 :=
  ⟨[0xf2, 0x5a, 0x2c, 0xce, 0x43, 0x72, 0xc3, 0x4c, 0xd2, 0x79, 0xb9, 0xaa, 0x32, 0xd1, 0xf7, 0x54,
    0x99, 0x71, 0xb8, 0x48, 0x96, 0x7e, 0xe8, 0xb0, 0x3b, 0xd0, 0xaf, 0xd6, 0xc3, 0x0e, 0x19, 0x98],
    rfl⟩

/-- The hash of the buffer while a controller is proposed. -/
def sample_proposed_hash : Bytes 32 :=
  ⟨[0x74, 0xca, 0x43, 0xb1, 0x96, 0x13, 0xb8, 0x41, 0xd0, 0xa3, 0xa7, 0x14, 0x37, 0x0c, 0xd1, 0xf6,
    0x6e, 0x5f, 0x4b, 0x72, 0x3f, 0xd2, 0x73, 0x65, 0x60, 0xbf, 0x88, 0x20, 0x95, 0x56, 0xeb, 0x7b],
    rfl⟩

def sample_fingerprint_runtime : Runtime where
  keccak input :=
    if input.length = 287 then sample_initial_hash
    else if input.length = 319 then sample_proposed_hash
    else sample_keccak input
  pda_bytes key :=
    if key = dispute_config_address then sample_dispute_config_bytes
    else sample_runtime.pda_bytes key
  secp256k1_recover := sample_runtime.secp256k1_recover
  ed25519_precompile _ := false

/-- Initialization computes the same state under this sample runtime. -/
theorem sample_fingerprint_genesis {s : State} (h : sample_genesis = .ok s) :
    genesis sample_fingerprint_runtime s := by
  refine sample_genesis_of (fun seed => ?_) h
  have hlength : (DEPLOYMENT_DOMAIN_PREFIX ++ sample_fingerprint_runtime.as_ref program_id
      ++ seed.toList).length = 97 := by
    rw [List.length_append, Bytes.length_toList]
    decide
  unfold derive_deployment_domain
  show (if _ then _ else if _ then _ else _) = _
  rw [if_neg (by rw [hlength]; decide), if_neg (by rw [hlength]; decide)]
  rfl

/-- The configuration the sample cluster starts with. -/
def sample_configuration : Configuration where
  authority := sample_word 50
  pending_authority := none
  version := 1
  domain_seed_slot := 5
  domain_seed := sample_word 9
  domain_chain_id := sample_domain
  dust_recipient := sample_word 3
  dust_threshold := 0
  max_intents_per_deposit := 10
  intent_expiration_period := 3600
  escrow_paused := false
  required_signatures := 1
  witnesses := [Bytes.ofList 20 (sample_public_key_hash.toList.drop 12)]
  payment_methods := []
  protocol_fee := 0
  protocol_fee_recipient := sample_word 3
  lifecycle_policy := .WhitelistAndDispute
  allow_multiple_intents := false
  orchestrator_paused := false
  controller := sample_dispute_config_bytes
  pending_controller := none
  pending_controller_valid_at := 0
  controller_change_delay := 86400
  admissions_paused := false

/-- The same while the handover to the successor is pending. -/
def sample_proposed_configuration : Configuration :=
  { sample_configuration with
    pending_controller := some (sample_word 60)
    pending_controller_valid_at := 87900 }

/-- The committed transactions on the cluster that is fingerprinted. -/
def sample_fingerprint_run (txs : List (TxContext × List TopLevel)) :
    ProgramResult (List Event × State) := do
  let s ← sample_genesis
  TxMachine.execute_all
    (fun ctx before after s ix => TopLevel.execute sample_fingerprint_runtime ctx before after s ix)
    txs s

theorem sample_fingerprint_reaches (txs : List (TxContext × List TopLevel))
    (good : List Event → State → Bool)
    (h : (sample_fingerprint_run txs).toOption.any (fun r => good r.1 r.2) = true) :
    ∃ es s, Run sample_fingerprint_runtime es s ∧ good es s = true :=
  TxMachine.Run.exists_of_computed (fun _ hs₀ => sample_fingerprint_genesis hs₀) h

end Sample

/-- A proposed controller shows in the fingerprint. -/
theorem fingerprint_detects_proposal :
    ∃ es s es' s', Run sample_fingerprint_runtime es s ∧ Run sample_fingerprint_runtime es' s'
      ∧ s.configuration sample_fingerprint_runtime = sample_configuration
      ∧ s'.configuration sample_fingerprint_runtime = sample_proposed_configuration
      ∧ configuration_fingerprint sample_fingerprint_runtime sample_configuration
        ≠ configuration_fingerprint sample_fingerprint_runtime sample_proposed_configuration := by
  obtain ⟨es, s, hrun, hbefore⟩ := sample_fingerprint_reaches []
    (fun _ s => decide (s.configuration sample_fingerprint_runtime = sample_configuration))
    (by decide +kernel)
  obtain ⟨es', s', hrun', hafter⟩ := sample_fingerprint_reaches [sample_propose]
    (fun _ s => decide (s.configuration sample_fingerprint_runtime = sample_proposed_configuration))
    (by decide +kernel)
  refine ⟨es, s, es', s', hrun, hrun', of_decide_eq_true hbefore, of_decide_eq_true hafter, ?_⟩
  intro heq
  have hfits : sample_configuration.Fits := by constructor <;> decide +kernel
  have hfits' : sample_proposed_configuration.Fits := by constructor <;> decide +kernel
  have hsame := ((fingerprint_detects_changes hfits hfits').2 sample_fingerprint_runtime
    (by decide +kernel)).mp heq
  exact absurd hsame (by decide +kernel)

end Zkp2pSolana
