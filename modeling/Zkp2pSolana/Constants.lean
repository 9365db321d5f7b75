/-
`programs/zkp2p_solana/src/constants.rs`: the numeric bounds and the prehashed
EIP-712 words. The seed strings are the constructors of `Address.Seed`.
-/
import Zkp2pSolana.Lib.Bytes

set_option autoImplicit false

namespace Zkp2pSolana

/-- Fixed-point precision used by fees and conversion rates. -/
def PRECISE_UNIT : ℕ := 1000000000000000000

/-- Basis-point denominator. -/
def BPS : ℤ := 10000

/-- Maximum protocol or delegated manager fee: 5%. -/
def MAX_FEE : ℕ := 50000000000000000

/-- Maximum aggregate referral fee: 50%. -/
def MAX_REFERRAL_FEE : ℕ := 500000000000000000

/-- Maximum lifetime of an escrow intent lock: five days. -/
def MAX_INTENT_LIFETIME_SECONDS : ℤ := 5 * 24 * 60 * 60

/-- Minimum controller handover delay: one day. -/
def MIN_CONTROLLER_CHANGE_DELAY_SECONDS : ℤ := 24 * 60 * 60

/-- Maximum dispute risk window: 365 days. -/
def MAX_RISK_WINDOW_SECONDS : ℤ := 365 * 24 * 60 * 60

/-- Maximum number of address groups configured for one deposit. -/
def MAX_GROUPS_PER_DEPOSIT : ℕ := 10

/-- Maximum read-only accounts exposed to one external whitelist resolver. -/
def MAX_RESOLVER_ACCOUNTS : ℕ := 16

/-- Maximum ECDSA witnesses. -/
def MAX_WITNESSES : ℕ := 2

/-- Maximum signed payment timestamp buffer: 48 hours in milliseconds. -/
def MAX_TIMESTAMP_BUFFER_MS : ℕ := 48 * 60 * 60 * 1000

/-- Sentinel maturity for pending dispute collateral: `i64::MAX`. -/
def NEVER_MATURES : ℤ := 2 ^ 63 - 1

/-- Versioned prefix of the deployment domain, `"ZKP2P_SOLANA_DEPLOYMENT_DOMAIN_V1"`. -/
def DEPLOYMENT_DOMAIN_PREFIX : List UInt8 :=
  [0x5a, 0x4b, 0x50, 0x32, 0x50, 0x5f, 0x53, 0x4f, 0x4c, 0x41, 0x4e, 0x41, 0x5f, 0x44, 0x45, 0x50, 0x4c,
    0x4f, 0x59, 0x4d, 0x45, 0x4e, 0x54, 0x5f, 0x44, 0x4f, 0x4d, 0x41, 0x49, 0x4e, 0x5f, 0x56, 0x31]

/-! ## Prehashed EIP-712 words -/

/-- Keccak-256 of the canonical EIP-712 domain schema. -/
def EIP712_DOMAIN_TYPEHASH : Bytes 32 :=
  ⟨[0x8b, 0x73, 0xc3, 0xc6, 0x9b, 0xb8, 0xfe, 0x3d, 0x51, 0x2e, 0xcc, 0x4c, 0xf7, 0x59, 0xcc, 0x79,
    0x23, 0x9f, 0x7b, 0x17, 0x9b, 0x0f, 0xfa, 0xca, 0xa9, 0xa7, 0x5d, 0x52, 0x2b, 0x39, 0x40, 0x0f],
    rfl⟩

/-- Keccak-256 of the EIP-712 version string `1`. -/
def EIP712_VERSION_ONE_HASH : Bytes 32 :=
  ⟨[0xc8, 0x9e, 0xfd, 0xaa, 0x54, 0xc0, 0xf2, 0x0c, 0x7a, 0xdf, 0x61, 0x28, 0x82, 0xdf, 0x09, 0x50,
    0xf5, 0xa9, 0x51, 0x63, 0x7e, 0x03, 0x07, 0xcd, 0xcb, 0x4c, 0x67, 0x2f, 0x29, 0x8b, 0x8b, 0xc6],
    rfl⟩

/-- Keccak-256 of the unified verifier EIP-712 name. -/
def PAYMENT_VERIFIER_NAME_HASH : Bytes 32 :=
  ⟨[0x48, 0x80, 0x1c, 0xbb, 0xd5, 0x3d, 0x2e, 0x05, 0x48, 0x50, 0xb7, 0xbc, 0x93, 0x5e, 0xcc, 0xe3,
    0x62, 0x86, 0xf2, 0x1c, 0x08, 0x53, 0x67, 0xc2, 0xfb, 0x80, 0x3f, 0x75, 0x81, 0x41, 0xdd, 0x3a],
    rfl⟩

/-- Keccak-256 of the payment-attestation EIP-712 schema. -/
def PAYMENT_ATTESTATION_TYPEHASH : Bytes 32 :=
  ⟨[0x3f, 0xbf, 0x9d, 0xf1, 0x8b, 0x1c, 0x2c, 0xa7, 0xc4, 0x8d, 0x80, 0x9a, 0x8d, 0x8c, 0x6b, 0xbf,
    0x8d, 0x7a, 0xc3, 0x3f, 0x37, 0x41, 0xab, 0x78, 0xda, 0xc0, 0x72, 0xab, 0xa0, 0xf7, 0x71, 0x03],
    rfl⟩

/-- Keccak-256 of the dispute verifier EIP-712 name. -/
def DISPUTE_VERIFIER_NAME_HASH : Bytes 32 :=
  ⟨[0x6d, 0x80, 0xce, 0xfa, 0x38, 0x78, 0x70, 0x94, 0x4c, 0x7c, 0x59, 0xee, 0xce, 0x6e, 0x3f, 0x92,
    0x09, 0x0d, 0x5e, 0x4d, 0xd1, 0xf8, 0xbd, 0xd2, 0x40, 0xff, 0xff, 0xe8, 0x4a, 0xf3, 0x8a, 0xb3],
    rfl⟩

/-- Keccak-256 of the dispute-attestation EIP-712 schema. -/
def DISPUTE_ATTESTATION_TYPEHASH : Bytes 32 :=
  ⟨[0xa8, 0x00, 0x01, 0xb1, 0x3b, 0xc4, 0x51, 0x24, 0x0e, 0xb6, 0x0a, 0x9c, 0x81, 0xc7, 0x1d, 0x67,
    0xe7, 0xcf, 0x79, 0x94, 0xaa, 0x0a, 0xb6, 0x48, 0x92, 0xd9, 0x51, 0x2a, 0xef, 0xb1, 0x89, 0xfa],
    rfl⟩

end Zkp2pSolana
