/-
What a signed digest commits to.

Payments and disputes are attested by the same witnesses, so a signature must
not serve twice: not for another deployment, not for another intent or amount,
and not for the other purpose. Each digest is three layers of hashing over
fields of fixed width. A layer whose inputs do not collide gives back its stream,
and a stream gives back its fields, so the argument walks down the layers; the
two purposes part at the name in the domain separator.

`keccak` is a parameter. What is asked of it is stated for the streams of the
digests at hand, never for all streams: a hash into 32 bytes has collisions.
-/
import Zkp2pSolana.Payloads
import Zkp2pSolana.Program

set_option autoImplicit false

namespace Zkp2pSolana

open Result Zkp2pError

/-- The bytes of a key. -/
def Runtime.key_bytes (rt : Runtime) : Pubkey → Bytes 32
  | .addr b => b
  | k => rt.pda_bytes k

theorem Runtime.as_ref_eq (rt : Runtime) (k : Pubkey) : rt.as_ref k = (rt.key_bytes k).toList := by
  cases k <;> rfl

/-- `keccak` has no collision among the streams. -/
def Runtime.CollisionFree (rt : Runtime) (streams : List (List UInt8)) : Prop :=
  ∀ x ∈ streams, ∀ y ∈ streams, rt.keccak x = rt.keccak y → x = y

instance (rt : Runtime) (streams : List (List UInt8)) : Decidable (rt.CollisionFree streams) :=
  inferInstanceAs (Decidable (∀ x ∈ streams, ∀ y ∈ streams, rt.keccak x = rt.keccak y → x = y))

theorem Runtime.CollisionFree.mono {rt : Runtime} {streams streams' : List (List UInt8)}
    (h : rt.CollisionFree streams) (hsub : streams' ⊆ streams) : rt.CollisionFree streams' :=
  fun x hx y hy => h x (hsub hx) y (hsub hy)

/-! ## The streams -/

/-- What `domain_separator` hashes. -/
def domain_stream (rt : Runtime) (name_hash domain_chain_id : Bytes 32) (key : Pubkey) :
    List UInt8 :=
  EIP712_DOMAIN_TYPEHASH.toList ++ name_hash.toList ++ EIP712_VERSION_ONE_HASH.toList
    ++ domain_chain_id.toList ++ address_word rt key

/-- What `eip712_digest` hashes. -/
def envelope_stream (domain struct_hash : Bytes 32) : List UInt8 :=
  [0x19, 0x01] ++ domain.toList ++ struct_hash.toList

/-- What the struct hash of a payment attestation hashes. -/
def payment_struct_stream (intent_hash : Bytes 32) (release_amount : ℕ) (data_hash : Bytes 32) :
    List UInt8 :=
  PAYMENT_ATTESTATION_TYPEHASH.toList ++ intent_hash.toList
    ++ (List.replicate 24 0 ++ be_bytes 8 release_amount) ++ data_hash.toList

/-- What the struct hash of a dispute attestation hashes. -/
def dispute_struct_stream (intent_hash data_hash : Bytes 32) : List UInt8 :=
  DISPUTE_ATTESTATION_TYPEHASH.toList ++ intent_hash.toList ++ data_hash.toList

/-- The 20 bytes a digest keeps of the hash of a key. -/
def truncated_hash (rt : Runtime) (key : Pubkey) : List UInt8 :=
  (rt.keccak (rt.as_ref key)).toList.drop 12

/-- The envelope is fixed in length, so domain and struct hash can be read back from it. -/
theorem envelope_stream_inj {domain domain' struct_hash struct_hash' : Bytes 32}
    (h : envelope_stream domain struct_hash = envelope_stream domain' struct_hash') :
    domain = domain' ∧ struct_hash = struct_hash' := by
  simp only [envelope_stream, List.append_assoc] at h
  obtain ⟨hdomain, hstruct⟩ := Bytes.append_inj (List.append_cancel_left h)
  exact ⟨hdomain, Bytes.toList_injective hstruct⟩

/-- So can the parts of a domain, up to the truncation of its verifying key. -/
theorem domain_stream_inj {rt : Runtime} {name_hash name_hash' chain chain' : Bytes 32}
    {key key' : Pubkey}
    (h : domain_stream rt name_hash chain key = domain_stream rt name_hash' chain' key') :
    name_hash = name_hash' ∧ chain = chain' ∧ truncated_hash rt key = truncated_hash rt key' := by
  simp only [domain_stream, address_word, List.append_assoc] at h
  obtain ⟨hname, h⟩ := Bytes.append_inj (List.append_cancel_left h)
  obtain ⟨hchain, h⟩ := Bytes.append_inj (List.append_cancel_left h)
  exact ⟨hname, hchain, List.append_cancel_left h⟩

/-- So can the fields of a payment, the amount because it fits its word. -/
theorem payment_struct_stream_inj {hash hash' data data' : Bytes 32} {amount amount' : ℕ}
    (hamount : amount < 2 ^ 64) (hamount' : amount' < 2 ^ 64)
    (h : payment_struct_stream hash amount data = payment_struct_stream hash' amount' data') :
    hash = hash' ∧ amount = amount' ∧ data = data' := by
  simp only [payment_struct_stream, List.append_assoc] at h
  obtain ⟨hhash, h⟩ := Bytes.append_inj (List.append_cancel_left h)
  obtain ⟨heq, h⟩ := be_bytes_append_inj (by omega) (by omega) (List.append_cancel_left h)
  exact ⟨hhash, heq, Bytes.toList_injective h⟩

theorem dispute_struct_stream_inj {hash hash' data data' : Bytes 32}
    (h : dispute_struct_stream hash data = dispute_struct_stream hash' data') :
    hash = hash' ∧ data = data' := by
  simp only [dispute_struct_stream, List.append_assoc] at h
  obtain ⟨hhash, h⟩ := Bytes.append_inj (List.append_cancel_left h)
  exact ⟨hhash, Bytes.toList_injective h⟩

/-! ## The digests -/

/-- The arguments of `payment_attestation_digest`. -/
structure PaymentDigestArgs where
  verifier_key : Pubkey
  domain_chain_id : Bytes 32
  intent_hash : Bytes 32
  release_amount : ℕ
  data_hash : Bytes 32

def PaymentDigestArgs.digest (rt : Runtime) (a : PaymentDigestArgs) : Bytes 32 :=
  payment_attestation_digest rt a.verifier_key a.domain_chain_id a.intent_hash a.release_amount
    a.data_hash

/-- The payment digest as an envelope around its domain and struct. -/
theorem PaymentDigestArgs.digest_eq (rt : Runtime) (a : PaymentDigestArgs) :
    a.digest rt = eip712_digest rt
      (domain_separator rt PAYMENT_VERIFIER_NAME_HASH a.domain_chain_id a.verifier_key)
      (rt.keccak (payment_struct_stream a.intent_hash a.release_amount a.data_hash)) := rfl

/-- The streams a payment digest hashes, from the outside in; the key is hashed besides. -/
def PaymentDigestArgs.streams (rt : Runtime) (a : PaymentDigestArgs) : List (List UInt8) :=
  [envelope_stream
      (domain_separator rt PAYMENT_VERIFIER_NAME_HASH a.domain_chain_id a.verifier_key)
      (rt.keccak (payment_struct_stream a.intent_hash a.release_amount a.data_hash)),
    domain_stream rt PAYMENT_VERIFIER_NAME_HASH a.domain_chain_id a.verifier_key,
    payment_struct_stream a.intent_hash a.release_amount a.data_hash]

/-- The arguments of `dispute_attestation_digest`. -/
structure DisputeDigestArgs where
  dispute_config : Pubkey
  domain_chain_id : Bytes 32
  intent_hash : Bytes 32
  data_hash : Bytes 32

def DisputeDigestArgs.digest (rt : Runtime) (a : DisputeDigestArgs) : Bytes 32 :=
  dispute_attestation_digest rt a.dispute_config a.domain_chain_id a.intent_hash a.data_hash

theorem DisputeDigestArgs.digest_eq (rt : Runtime) (a : DisputeDigestArgs) :
    a.digest rt = eip712_digest rt
      (domain_separator rt DISPUTE_VERIFIER_NAME_HASH a.domain_chain_id a.dispute_config)
      (rt.keccak (dispute_struct_stream a.intent_hash a.data_hash)) := rfl

/-- The streams a dispute digest hashes, from the outside in; the key is hashed besides. -/
def DisputeDigestArgs.streams (rt : Runtime) (a : DisputeDigestArgs) : List (List UInt8) :=
  [envelope_stream
      (domain_separator rt DISPUTE_VERIFIER_NAME_HASH a.domain_chain_id a.dispute_config)
      (rt.keccak (dispute_struct_stream a.intent_hash a.data_hash)),
    domain_stream rt DISPUTE_VERIFIER_NAME_HASH a.domain_chain_id a.dispute_config,
    dispute_struct_stream a.intent_hash a.data_hash]

section Digests

variable {rt : Runtime}

/-- The outer layers: digests that agree have the same domain and the same struct hash. -/
theorem digest_layers {streams : List (List UInt8)} (hfree : rt.CollisionFree streams)
    {name_hash name_hash' chain chain' struct_hash struct_hash' : Bytes 32} {key key' : Pubkey}
    (henvelope : envelope_stream (domain_separator rt name_hash chain key) struct_hash ∈ streams)
    (henvelope' :
      envelope_stream (domain_separator rt name_hash' chain' key') struct_hash' ∈ streams)
    (hdomain : domain_stream rt name_hash chain key ∈ streams)
    (hdomain' : domain_stream rt name_hash' chain' key' ∈ streams)
    (h : eip712_digest rt (domain_separator rt name_hash chain key) struct_hash
      = eip712_digest rt (domain_separator rt name_hash' chain' key') struct_hash') :
    name_hash = name_hash' ∧ chain = chain' ∧ truncated_hash rt key = truncated_hash rt key'
      ∧ struct_hash = struct_hash' := by
  obtain ⟨hsame, hstruct⟩ := envelope_stream_inj (hfree _ henvelope _ henvelope' h)
  obtain ⟨hname, hchain, hkey⟩ := domain_stream_inj (hfree _ hdomain _ hdomain' hsame)
  exact ⟨hname, hchain, hkey, hstruct⟩

/-- Equal payment digests have equal arguments: the hashes are taken off one layer after the
other. -/
theorem payment_digest_inj {a b : PaymentDigestArgs} (ha : a.release_amount < 2 ^ 64)
    (hb : b.release_amount < 2 ^ 64) (hfree : rt.CollisionFree (a.streams rt ++ b.streams rt))
    (h : a.digest rt = b.digest rt) :
    truncated_hash rt a.verifier_key = truncated_hash rt b.verifier_key
      ∧ a.domain_chain_id = b.domain_chain_id ∧ a.intent_hash = b.intent_hash
      ∧ a.release_amount = b.release_amount ∧ a.data_hash = b.data_hash := by
  rw [PaymentDigestArgs.digest_eq, PaymentDigestArgs.digest_eq] at h
  obtain ⟨-, hchain, hkey, hstruct⟩ := digest_layers hfree
    (by simp [PaymentDigestArgs.streams]) (by simp [PaymentDigestArgs.streams])
    (by simp [PaymentDigestArgs.streams]) (by simp [PaymentDigestArgs.streams]) h
  have hstream := hfree (payment_struct_stream a.intent_hash a.release_amount a.data_hash)
    (by simp [PaymentDigestArgs.streams])
    (payment_struct_stream b.intent_hash b.release_amount b.data_hash)
    (by simp [PaymentDigestArgs.streams]) hstruct
  exact ⟨hkey, hchain, payment_struct_stream_inj ha hb hstream⟩

theorem dispute_digest_inj {a b : DisputeDigestArgs}
    (hfree : rt.CollisionFree (a.streams rt ++ b.streams rt)) (h : a.digest rt = b.digest rt) :
    truncated_hash rt a.dispute_config = truncated_hash rt b.dispute_config
      ∧ a.domain_chain_id = b.domain_chain_id ∧ a.intent_hash = b.intent_hash
      ∧ a.data_hash = b.data_hash := by
  rw [DisputeDigestArgs.digest_eq, DisputeDigestArgs.digest_eq] at h
  obtain ⟨-, hchain, hkey, hstruct⟩ := digest_layers hfree
    (by simp [DisputeDigestArgs.streams]) (by simp [DisputeDigestArgs.streams])
    (by simp [DisputeDigestArgs.streams]) (by simp [DisputeDigestArgs.streams]) h
  have hstream := hfree (dispute_struct_stream a.intent_hash a.data_hash)
    (by simp [DisputeDigestArgs.streams]) (dispute_struct_stream b.intent_hash b.data_hash)
    (by simp [DisputeDigestArgs.streams]) hstruct
  exact ⟨hkey, hchain, dispute_struct_stream_inj hstream⟩

/-- The names of the two verifiers tell the purposes apart. -/
theorem name_hashes_differ : PAYMENT_VERIFIER_NAME_HASH ≠ DISPUTE_VERIFIER_NAME_HASH := by decide

/-- A payment's digest is never a dispute's: the two domains differ in their name hash. -/
theorem payment_digest_ne_dispute_digest {a : PaymentDigestArgs} {b : DisputeDigestArgs}
    (hfree : rt.CollisionFree (a.streams rt ++ b.streams rt)) : a.digest rt ≠ b.digest rt := by
  intro h
  rw [PaymentDigestArgs.digest_eq, DisputeDigestArgs.digest_eq] at h
  obtain ⟨hname, -⟩ := digest_layers hfree
    (by simp [PaymentDigestArgs.streams]) (by simp [DisputeDigestArgs.streams])
    (by simp [PaymentDigestArgs.streams]) (by simp [DisputeDigestArgs.streams]) h
  exact name_hashes_differ hname

end Digests

/-! ## Payment data -/

/-- The numbers of the payment are values of their machine types. -/
structure PaymentDetails.Fits (p : PaymentDetails) : Prop where
  amount : p.amount < 2 ^ 128
  timestamp_ms : p.timestamp_ms < 2 ^ 64

/-- The numbers of the snapshot are values of their machine types. -/
structure IntentSnapshot.Fits (i : IntentSnapshot) : Prop where
  amount : i.amount < 2 ^ 64
  conversion_rate : i.conversion_rate < 2 ^ 128
  signal_timestamp : -2 ^ 63 ≤ i.signal_timestamp ∧ i.signal_timestamp < 2 ^ 63
  timestamp_buffer_ms : i.timestamp_buffer_ms < 2 ^ 64

/-- The numbers of the attestation are values of their machine types, as decoding leaves them. -/
structure PaymentAttestation.Fits (a : PaymentAttestation) : Prop where
  release_amount : a.release_amount < 2 ^ 64
  payment : a.payment.Fits
  snapshot : a.snapshot.Fits

/-- A payment within its types' ranges can be serialized. -/
theorem PaymentDetails.Fits.borsh {p : PaymentDetails} (h : p.Fits) :
    PaymentDetails.borsh.Fits p := by
  have hamount : p.amount < 256 ^ 16 := by simpa using h.amount
  exact ⟨trivial, trivial, hamount, trivial, h.timestamp_ms, trivial⟩

theorem IntentSnapshot.Fits.borsh {i : IntentSnapshot} (h : i.Fits) :
    IntentSnapshot.borsh.Fits i := by
  have hrate : i.conversion_rate < 256 ^ 16 := by simpa using h.conversion_rate
  exact ⟨trivial, h.amount, trivial, trivial, trivial, hrate, h.signal_timestamp,
    h.timestamp_buffer_ms⟩

/-- The payload stream determines the payment and the snapshot. -/
theorem payment_data_stream_inj {p p' : PaymentDetails} {i i' : IntentSnapshot} (hp : p.Fits)
    (hp' : p'.Fits) (hi : i.Fits) (hi' : i'.Fits)
    (h : payment_data_stream p i = payment_data_stream p' i') : p = p' ∧ i = i' := by
  rw [payment_data_stream_eq, payment_data_stream_eq] at h
  obtain ⟨hpayment, h⟩ := PaymentDetails.borsh.append_inj hp.borsh hp'.borsh h
  exact ⟨hpayment, IntentSnapshot.borsh.serialize_injective hi.borsh hi'.borsh h⟩

/-- The digest arguments of an attestation presented to a verifier. -/
def PaymentAttestation.digest_args (a : PaymentAttestation) (verifier_key : Pubkey)
    (verifier : VerifierConfig) : PaymentDigestArgs where
  verifier_key := verifier_key
  domain_chain_id := verifier.domain_chain_id
  intent_hash := a.intent_hash
  release_amount := a.release_amount
  data_hash := a.data_hash

/-- The streams the verifier hashes of an attestation, the payload last. -/
def PaymentAttestation.streams (rt : Runtime) (a : PaymentAttestation) (verifier_key : Pubkey)
    (verifier : VerifierConfig) : List (List UInt8) :=
  (a.digest_args verifier_key verifier).streams rt ++ [payment_data_stream a.payment a.snapshot]

section Accepted

variable {rt : Runtime} {verifier_key verifier_key' : Pubkey} {verifier verifier' : VerifierConfig}
  {intent intent' : Intent} {a a' : PaymentAttestation} {nullifier nullifier' : Bytes 32}

/-- What is accepted carries the hash of its own payload. -/
theorem accepted_data_hash
    (h : verify_payment_attestation rt verifier_key verifier intent a = .ok nullifier) :
    rt.keccak (payment_data_stream a.payment a.snapshot) = a.data_hash := by
  simp only [verify_payment_attestation, bind_eq_ok, require_eq_ok, exists_const] at h
  obtain ⟨-, -, -, -, -, -, -, -, _, -, hdata, -⟩ := h
  exact hdata

/-- Two accepted attestations with one digest carry the same payment and the same snapshot. -/
theorem accepted_payload_inj
    (h : verify_payment_attestation rt verifier_key verifier intent a = .ok nullifier)
    (h' : verify_payment_attestation rt verifier_key' verifier' intent' a' = .ok nullifier')
    (ha : a.Fits) (ha' : a'.Fits)
    (hfree : rt.CollisionFree
      (a.streams rt verifier_key verifier ++ a'.streams rt verifier_key' verifier'))
    (heq : (a.digest_args verifier_key verifier).digest rt
      = (a'.digest_args verifier_key' verifier').digest rt) :
    a.payment = a'.payment ∧ a.snapshot = a'.snapshot := by
  have hsub : (a.digest_args verifier_key verifier).streams rt
      ++ (a'.digest_args verifier_key' verifier').streams rt
      ⊆ a.streams rt verifier_key verifier ++ a'.streams rt verifier_key' verifier' := by
    intro x hx
    simp only [PaymentAttestation.streams, List.mem_append] at hx ⊢
    tauto
  obtain ⟨-, -, -, -, hdata⟩ := payment_digest_inj ha.release_amount ha'.release_amount
    (hfree.mono hsub) heq
  -- the data hashes agree, so the payloads do
  have hhashes : rt.keccak (payment_data_stream a.payment a.snapshot)
      = rt.keccak (payment_data_stream a'.payment a'.snapshot) := by
    rw [accepted_data_hash h, accepted_data_hash h']
    exact hdata
  have hstream := hfree (payment_data_stream a.payment a.snapshot)
    (by simp [PaymentAttestation.streams]) (payment_data_stream a'.payment a'.snapshot)
    (by simp [PaymentAttestation.streams]) hhashes
  exact payment_data_stream_inj ha.payment ha'.payment ha.snapshot ha'.snapshot hstream

end Accepted

/-- A digest belongs to one purpose and one context: payment digests and dispute digests are
injective in what they are made for, none is both, and attestations accepted with one digest carry
one payment and one snapshot. -/
theorem digests_commit (rt : Runtime) :
    (∀ a b : PaymentDigestArgs, a.release_amount < 2 ^ 64 → b.release_amount < 2 ^ 64 →
        rt.CollisionFree (a.streams rt ++ b.streams rt) → a.digest rt = b.digest rt →
        truncated_hash rt a.verifier_key = truncated_hash rt b.verifier_key
          ∧ a.domain_chain_id = b.domain_chain_id ∧ a.intent_hash = b.intent_hash
          ∧ a.release_amount = b.release_amount ∧ a.data_hash = b.data_hash)
      ∧ (∀ a b : DisputeDigestArgs, rt.CollisionFree (a.streams rt ++ b.streams rt) →
        a.digest rt = b.digest rt →
        truncated_hash rt a.dispute_config = truncated_hash rt b.dispute_config
          ∧ a.domain_chain_id = b.domain_chain_id ∧ a.intent_hash = b.intent_hash
          ∧ a.data_hash = b.data_hash)
      ∧ (∀ (a : PaymentDigestArgs) (b : DisputeDigestArgs),
        rt.CollisionFree (a.streams rt ++ b.streams rt) → a.digest rt ≠ b.digest rt)
      ∧ ∀ (key key' : Pubkey) (verifier verifier' : VerifierConfig) (intent intent' : Intent)
        (a a' : PaymentAttestation) (nullifier nullifier' : Bytes 32),
        verify_payment_attestation rt key verifier intent a = .ok nullifier →
        verify_payment_attestation rt key' verifier' intent' a' = .ok nullifier' →
        a.Fits → a'.Fits →
        rt.CollisionFree (a.streams rt key verifier ++ a'.streams rt key' verifier') →
        (a.digest_args key verifier).digest rt = (a'.digest_args key' verifier').digest rt →
        a.payment = a'.payment ∧ a.snapshot = a'.snapshot :=
  ⟨fun _ _ => payment_digest_inj, fun _ _ => dispute_digest_inj,
    fun _ _ => payment_digest_ne_dispute_digest,
    fun _ _ _ _ _ _ _ _ _ _ => accepted_payload_inj⟩

/-! ## A cluster with a dispute

The sample cluster, with the digests and the signature of one dispute added. -/

section Sample

/-- The bytes of the dispute configuration address. -/
def sample_dispute_config_bytes : Bytes 32 :=
  ⟨[0x46, 0x38, 0x5e, 0x28, 0x21, 0x05, 0xa3, 0x28, 0x58, 0x9d, 0x8e, 0xac, 0xa5, 0xdb, 0xf6, 0xd7,
    0xd3, 0xf2, 0x19, 0x2f, 0xa2, 0xaf, 0xec, 0xf3, 0x7b, 0xaa, 0x69, 0xca, 0xf2, 0x81, 0x0e, 0x74],
    rfl⟩

/-- The hash of that address. -/
def sample_dispute_config_hash : Bytes 32 :=
  ⟨[0x97, 0x99, 0xfd, 0xc9, 0x46, 0x01, 0x62, 0x65, 0xc3, 0xcd, 0x0b, 0x6f, 0x23, 0x2a, 0x35, 0xc5,
    0x9f, 0xa1, 0xed, 0x3d, 0xa5, 0x80, 0xfb, 0xd9, 0x0d, 0x74, 0xd9, 0x81, 0x96, 0x19, 0x72, 0x67],
    rfl⟩

/-- The hash of the disputed payment. -/
def sample_dispute_data_hash : Bytes 32 :=
  ⟨[0xd3, 0xa9, 0x2e, 0x9f, 0x87, 0xc6, 0xb0, 0xee, 0x5a, 0x15, 0x2c, 0xe9, 0xbe, 0x7a, 0x10, 0xe4,
    0x4d, 0xeb, 0x38, 0xe9, 0xc0, 0xb2, 0x82, 0x85, 0x4d, 0xe7, 0x7d, 0x8b, 0xf2, 0xfa, 0x1c, 0x64],
    rfl⟩

/-- The struct hash of the dispute attestation. -/
def sample_dispute_struct_hash : Bytes 32 :=
  ⟨[0x4f, 0x92, 0x4e, 0xb3, 0xde, 0xfa, 0x64, 0x1a, 0xf3, 0x5f, 0xd1, 0x44, 0x65, 0x3f, 0x77, 0x29,
    0x4e, 0xbf, 0x2a, 0xb3, 0x8b, 0x6e, 0x90, 0x5a, 0x34, 0x54, 0xab, 0x61, 0xf4, 0xb1, 0xe3, 0x89],
    rfl⟩

/-- The domain separator of the dispute verifier. -/
def sample_dispute_separator : Bytes 32 :=
  ⟨[0xb7, 0x02, 0x61, 0x04, 0x56, 0xae, 0xe0, 0xbd, 0x90, 0xe7, 0xfc, 0x00, 0x9b, 0x60, 0xa0, 0x53,
    0xe3, 0x65, 0xe4, 0xf8, 0x72, 0xa0, 0x8b, 0x68, 0x13, 0x63, 0xfc, 0xf8, 0xa3, 0xc9, 0x96, 0xdd],
    rfl⟩

/-- The digest the witness signed for the dispute. -/
def sample_dispute_digest : Bytes 32 :=
  ⟨[0x46, 0x05, 0x32, 0x95, 0xbd, 0x7a, 0x9f, 0xac, 0x43, 0x40, 0xe6, 0x62, 0x1b, 0xd0, 0x2a, 0xe6,
    0x70, 0x53, 0xac, 0x34, 0x25, 0x9d, 0x49, 0xf0, 0x25, 0xd0, 0x7c, 0xbf, 0x92, 0x53, 0x7a, 0xe7],
    rfl⟩

/-- The nullifier of the dispute. -/
def sample_dispute_nullifier : Bytes 32 :=
  ⟨[0x87, 0x94, 0xa7, 0x66, 0x9b, 0xcc, 0xb1, 0x3c, 0xa8, 0x76, 0xab, 0xf4, 0x49, 0x44, 0x90, 0x82,
    0xf7, 0x3f, 0xc8, 0x2a, 0x41, 0xaf, 0x74, 0xea, 0x3c, 0x3f, 0xdb, 0x53, 0x26, 0x28, 0x3e, 0x6f],
    rfl⟩

/-- The signature of the witness on it. -/
def sample_dispute_signature : Bytes 65 :=
  ⟨[0xf0, 0xb0, 0x61, 0x25, 0xe3, 0x64, 0x31, 0x43, 0xd5, 0xfb, 0x08, 0x16, 0xb6, 0x1c, 0x7a, 0x6c,
    0x12, 0xba, 0xf6, 0xdb, 0xd1, 0x5d, 0xd8, 0xd5, 0xe5, 0x4b, 0x3d, 0x12, 0x47, 0x33, 0x44, 0x89,
    0x7b, 0x8b, 0x8a, 0xfc, 0x18, 0x63, 0x83, 0x1b, 0xf9, 0xf4, 0x13, 0x28, 0xfe, 0xbf, 0x52, 0x64,
    0xe7, 0xfc, 0x3d, 0x65, 0xd0, 0xc6, 0xf7, 0xf9, 0x16, 0xeb, 0x4e, 0x9f, 0x05, 0xbe, 0xa2, 0x9f,
    0x1c],
    rfl⟩

/-- `keccak` on the inputs that occur, those of the dispute first. -/
def sample_dispute_keccak (input : List UInt8) : Bytes 32 :=
  if input = sample_dispute_config_bytes.toList then sample_dispute_config_hash
  else if input = (sample_word 21).toList ++ (sample_word 25).toList then sample_dispute_nullifier
  else if input.length = 144 then sample_dispute_data_hash
  else if input.length = 96 then sample_dispute_struct_hash
  else if input.length = 160 ∧ (input.drop 32).take 32 = DISPUTE_VERIFIER_NAME_HASH.toList then
    sample_dispute_separator
  else if input.length = 66 ∧ (input.drop 2).take 32 = sample_dispute_separator.toList then
    sample_dispute_digest
  else sample_keccak input

def sample_dispute_runtime : Runtime where
  keccak := sample_dispute_keccak
  pda_bytes key :=
    if key = dispute_config_address then sample_dispute_config_bytes
    else sample_runtime.pda_bytes key
  secp256k1_recover digest id signature :=
    if digest = sample_dispute_digest then some sample_public_key.toList
    else sample_runtime.secp256k1_recover digest id signature
  ed25519_precompile _ := false

/-- What the witness of the sample cluster signed for the payment and for the dispute. -/
theorem digests_commit_sample :
    (PaymentDigestArgs.digest sample_dispute_runtime
        ⟨verifier_address, sample_domain, sample_hash, 100, sample_data_hash⟩) = sample_digest
      ∧ (DisputeDigestArgs.digest sample_dispute_runtime
        ⟨dispute_config_address, sample_domain, sample_hash, sample_dispute_data_hash⟩)
          = sample_dispute_digest
      ∧ sample_digest ≠ sample_dispute_digest := by
  have hpayment : (PaymentDigestArgs.digest sample_dispute_runtime
      ⟨verifier_address, sample_domain, sample_hash, 100, sample_data_hash⟩) = sample_digest := by
    decide +kernel
  have hdispute : (DisputeDigestArgs.digest sample_dispute_runtime
      ⟨dispute_config_address, sample_domain, sample_hash, sample_dispute_data_hash⟩)
        = sample_dispute_digest := by decide +kernel
  refine ⟨hpayment, hdispute, ?_⟩
  rw [← hpayment, ← hdispute]
  exact (digests_commit sample_dispute_runtime).2.2.1 _ _ (by decide +kernel)

end Sample

end Zkp2pSolana
