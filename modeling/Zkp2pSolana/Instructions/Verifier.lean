/-
`programs/zkp2p_solana/src/instructions/verifier.rs`: witness configuration and
payment attestations.

Hashing is `Runtime.keccak` on the concatenated slices, so what a digest commits
to is visible here byte by byte; recovery is `Runtime.secp256k1_recover`.
-/
import Zkp2pSolana.Ledger

set_option autoImplicit false

namespace Zkp2pSolana

open Result Zkp2pError

/-- Standardized privacy-preserving off-chain payment details. -/
structure PaymentDetails where
  method : Bytes 32
  payee_id : Bytes 32
  amount : ℕ
  currency : Bytes 32
  timestamp_ms : ℕ
  payment_id : Bytes 32

/-- Canonical intent values signed into an attestation payload. -/
structure IntentSnapshot where
  intent_hash : Bytes 32
  amount : ℕ
  payment_method : Bytes 32
  fiat_currency : Bytes 32
  payee_details : Bytes 32
  conversion_rate : ℕ
  signal_timestamp : ℤ
  timestamp_buffer_ms : ℕ

/-- Threshold-signed payment attestation. -/
structure PaymentAttestation where
  intent_hash : Bytes 32
  release_amount : ℕ
  data_hash : Bytes 32
  signatures : List (Bytes 65)
  payment : PaymentDetails
  snapshot : IntentSnapshot

/-! ## Configuration -/

structure ConfigureVerifier where
  authority : Pubkey

/-- The constraints of `ConfigureVerifier`. -/
def verifier_authority (accounts : ConfigureVerifier) (protocol : ProtocolConfig)
    (verifier : VerifierConfig) : ProgramResult Unit := do
  signer accounts.authority
  require (accounts.authority = protocol.authority) AnchorError.ConstraintAddress
  require (verifier.protocol = protocol_address) Unauthorized

/-- Adds or removes one enabled payment method. -/
def handle_set_verifier_payment_method (accounts : ConfigureVerifier) (payment_method : Bytes 32)
    (enabled : Bool) (protocol : ProtocolConfig) (verifier : VerifierConfig) :
    ProgramResult VerifierConfig := do
  verifier_authority accounts protocol verifier
  require (payment_method ≠ Bytes.zero 32) ZeroValue
  let methods := verifier.payment_methods
  let methods' ← toggle methods payment_method enabled
    (require (methods.length < 64) AmountAboveMaximum) (pure ())
  return { verifier with payment_methods := methods' }

/-- Adds or removes one Ethereum witness while preserving threshold satisfiability. -/
def handle_set_verifier_witness (accounts : ConfigureVerifier) (witness : Bytes 20)
    (enabled : Bool) (protocol : ProtocolConfig) (verifier : VerifierConfig) :
    ProgramResult VerifierConfig := do
  verifier_authority accounts protocol verifier
  require (witness ≠ Bytes.zero 20) ZeroAddress
  let witnesses := verifier.witnesses
  let witnesses' ← toggle witnesses witness enabled
    (require (witnesses.length < MAX_WITNESSES) AmountAboveMaximum)
    -- a removal may not leave fewer witnesses than the threshold asks for
    (do
      let remaining ← ok_or (Checked.sub witnesses.length 1) ArithmeticOverflow
      require (verifier.required_signatures ≤ remaining) InvalidSignature)
  return { verifier with witnesses := witnesses' }

/-- Updates the live witness threshold within the current set size. -/
def handle_set_required_signatures (accounts : ConfigureVerifier) (required : ℕ)
    (protocol : ProtocolConfig) (verifier : VerifierConfig) : ProgramResult VerifierConfig := do
  verifier_authority accounts protocol verifier
  require (0 < required) ZeroValue
  require (required ≤ verifier.witnesses.length) InvalidSignature
  return { verifier with required_signatures := required }

/-! ## Hashing -/

/-- The byte stream `payment_data_hash` feeds to keccak. -/
def payment_data_stream (payment : PaymentDetails) (snapshot : IntentSnapshot) : List UInt8 :=
  payment.method.toList ++ payment.payee_id.toList ++ le_bytes 16 payment.amount
    ++ payment.currency.toList ++ le_bytes 8 payment.timestamp_ms ++ payment.payment_id.toList
    ++ snapshot.intent_hash.toList ++ le_bytes 8 snapshot.amount
    ++ snapshot.payment_method.toList ++ snapshot.fiat_currency.toList
    ++ snapshot.payee_details.toList ++ le_bytes 16 snapshot.conversion_rate
    ++ le_bytes_i64 snapshot.signal_timestamp ++ le_bytes 8 snapshot.timestamp_buffer_ms

def payment_data_hash (rt : Runtime) (payment : PaymentDetails) (snapshot : IntentSnapshot) :
    Bytes 32 :=
  rt.keccak (payment_data_stream payment snapshot)

/-- The last 20 bytes of a key's hash, left-padded to a word. -/
def address_word (rt : Runtime) (key : Pubkey) : List UInt8 :=
  List.replicate 12 0 ++ (rt.keccak (rt.as_ref key)).toList.drop 12

/-- The EIP-712 domain separator of a verifying account. -/
def domain_separator (rt : Runtime) (name_hash : Bytes 32) (domain_chain_id : Bytes 32)
    (key : Pubkey) : Bytes 32 :=
  rt.keccak (EIP712_DOMAIN_TYPEHASH.toList ++ name_hash.toList ++ EIP712_VERSION_ONE_HASH.toList
    ++ domain_chain_id.toList ++ address_word rt key)

/-- The EIP-712 envelope `0x19 0x01 || domain || struct`. -/
def eip712_digest (rt : Runtime) (domain struct_hash : Bytes 32) : Bytes 32 :=
  rt.keccak ([0x19, 0x01] ++ domain.toList ++ struct_hash.toList)

/-- The EIP-712 digest for the Solana verifier domain. -/
def payment_attestation_digest (rt : Runtime) (verifier_key : Pubkey) (domain_chain_id : Bytes 32)
    (intent_hash : Bytes 32) (release_amount : ℕ) (data_hash : Bytes 32) : Bytes 32 :=
  let release_word := List.replicate 24 0 ++ be_bytes 8 release_amount
  let struct_hash := rt.keccak (PAYMENT_ATTESTATION_TYPEHASH.toList ++ intent_hash.toList
    ++ release_word ++ data_hash.toList)
  eip712_digest rt (domain_separator rt PAYMENT_VERIFIER_NAME_HASH domain_chain_id verifier_key)
    struct_hash

/-! ## The witness threshold -/

/-- Half the secp256k1 group order. -/
def HALF_ORDER : List UInt8 :=
  [0x7f, 0xff, 0xff, 0xff, 0xff, 0xff, 0xff, 0xff, 0xff, 0xff, 0xff, 0xff, 0xff, 0xff, 0xff, 0xff,
    0x5d, 0x57, 0x6e, 0x73, 0x57, 0xa4, 0x50, 0x1d, 0xdf, 0xe9, 0x2f, 0x46, 0x68, 0x1b, 0x20, 0xa0]

/-- `s <= HALF_ORDER` on the slices, compared lexicographically. -/
def is_low_s (signature : List UInt8) : Bool := decide (signature.drop 32 ≤ HALF_ORDER)

/-- `v` in its two encodings. -/
def recovery_id (v : UInt8) : Option ℕ :=
  if v = 0 ∨ v = 1 then some v.toNat
  else if v = 27 ∨ v = 28 then some (v.toNat - 27)
  else none

/-- The Ethereum address that signed a digest, if the signature is acceptable. -/
def recover_witness (rt : Runtime) (digest : Bytes 32) (signature : Bytes 65) :
    ProgramResult (Bytes 20) := do
  let signature_bytes := signature.toList.take 64
  let id ← ok_or (recovery_id (signature.toList.getD 64 0)) InvalidSignature
  -- the high-`s` twin of a signature is refused, so one witness cannot be counted twice
  require (is_low_s signature_bytes = true) InvalidSignature
  let public_key ← ok_or (rt.secp256k1_recover digest id signature_bytes) InvalidSignature
  return Bytes.ofList 20 ((rt.keccak public_key).toList.drop 12)

/-- The loop of `verify_witness_threshold`, accumulating the recovered addresses. -/
def recover_witnesses (rt : Runtime) (verifier : VerifierConfig) (digest : Bytes 32)
    (recovered : List (Bytes 20)) : List (Bytes 65) → ProgramResult (List (Bytes 20))
  | [] => .ok recovered
  | signature :: rest => do
    let address ← recover_witness rt digest signature
    require (address ∈ verifier.witnesses) InvalidSignature
    -- one witness, one vote: a repeated signer fails the whole threshold
    require (address ∉ recovered) InvalidSignature
    recover_witnesses rt verifier digest (recovered ++ [address]) rest

def verify_witness_threshold (rt : Runtime) (verifier : VerifierConfig) (digest : Bytes 32)
    (signatures : List (Bytes 65)) : ProgramResult Unit := do
  require (verifier.required_signatures ≤ signatures.length) InvalidSignature
  -- extra signatures are not skipped; each must recover to a distinct witness
  require (signatures.length ≤ verifier.witnesses.length) InvalidSignature
  let recovered ← recover_witnesses rt verifier digest [] signatures
  require (verifier.required_signatures ≤ recovered.length) InvalidSignature

/-! ## Payment attestations -/

def validate_snapshot (intent : Intent) (snapshot : IntentSnapshot) : ProgramResult Unit := do
  require (snapshot.intent_hash = intent.intent_hash) IntentSnapshotMismatch
  require (snapshot.amount = intent.amount) IntentSnapshotMismatch
  require (snapshot.payment_method = intent.payment_method) IntentSnapshotMismatch
  require (snapshot.fiat_currency = intent.fiat_currency) IntentSnapshotMismatch
  require (snapshot.payee_details = intent.payee_id) IntentSnapshotMismatch
  require (snapshot.conversion_rate = intent.conversion_rate) IntentSnapshotMismatch
  require (snapshot.signal_timestamp = intent.timestamp) IntentSnapshotMismatch

/-- The replay key of a payment: `keccak(method || payment_id)`. -/
def payment_nullifier (rt : Runtime) (method payment_id : Bytes 32) : Bytes 32 :=
  rt.keccak (method.toList ++ payment_id.toList)

/-- Verifies all payment, snapshot, data-integrity, and witness-threshold conditions. -/
def verify_payment_attestation (rt : Runtime) (verifier_key : Pubkey) (verifier : VerifierConfig)
    (intent : Intent) (attestation : PaymentAttestation) : ProgramResult (Bytes 32) := do
  require (attestation.intent_hash = intent.intent_hash) IntentSnapshotMismatch
  require (0 < attestation.release_amount) ZeroValue
  require (attestation.payment.method ∈ verifier.payment_methods) PaymentMethodNotSupported
  -- the paid method is tied to the intent's only through the snapshot compared below
  require (attestation.payment.method = attestation.snapshot.payment_method) IntentSnapshotMismatch
  require (attestation.payment.payment_id ≠ Bytes.zero 32) ZeroValue
  require (0 < attestation.payment.amount) ZeroValue
  require (attestation.payment.currency ≠ Bytes.zero 32) ZeroValue
  require (attestation.snapshot.timestamp_buffer_ms ≤ MAX_TIMESTAMP_BUFFER_MS) AmountAboveMaximum
  validate_snapshot intent attestation.snapshot
  require (payment_data_hash rt attestation.payment attestation.snapshot = attestation.data_hash)
    DataHashMismatch
  let digest := payment_attestation_digest rt verifier_key verifier.domain_chain_id
    attestation.intent_hash attestation.release_amount attestation.data_hash
  verify_witness_threshold rt verifier digest attestation.signatures
  return payment_nullifier rt attestation.payment.method attestation.payment.payment_id

end Zkp2pSolana
