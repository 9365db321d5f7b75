/-
The payloads of an attestation, and the bytes their hashes are taken of.

`payment_data_hash` and `dispute_data_hash` list the fields of their records by
hand, apart from the declarations of these. Signers hash the Borsh form of the
records, which follows the declarations: fields in order, integers at the width
of their type. The two byte strings are the same for every payload.
-/
import Zkp2pSolana.Lib.Borsh
import Zkp2pSolana.Instructions.Dispute

set_option autoImplicit false

namespace Zkp2pSolana

/-! ## The records as they are declared -/

/-- `#[derive(AnchorSerialize)]` on `PaymentDetails`. -/
def PaymentDetails.borsh : Borsh PaymentDetails :=
  Borsh.record
    (.field (.array 32) <| .field (.array 32) <| .field .u128 <| .field (.array 32) <|
      .field .u64 <| .array 32)
    (fun p => (p.method, p.payee_id, p.amount, p.currency, p.timestamp_ms, p.payment_id))
    (fun (method, payee_id, amount, currency, timestamp_ms, payment_id) =>
      { method, payee_id, amount, currency, timestamp_ms, payment_id })
    (fun _ => rfl)

/-- `#[derive(AnchorSerialize)]` on `IntentSnapshot`. -/
def IntentSnapshot.borsh : Borsh IntentSnapshot :=
  Borsh.record
    (.field (.array 32) <| .field .u64 <| .field (.array 32) <| .field (.array 32) <|
      .field (.array 32) <| .field .u128 <| .field .i64 <| .u64)
    (fun i => (i.intent_hash, i.amount, i.payment_method, i.fiat_currency, i.payee_details,
      i.conversion_rate, i.signal_timestamp, i.timestamp_buffer_ms))
    (fun (intent_hash, amount, payment_method, fiat_currency, payee_details, conversion_rate,
        signal_timestamp, timestamp_buffer_ms) =>
      { intent_hash, amount, payment_method, fiat_currency, payee_details, conversion_rate,
        signal_timestamp, timestamp_buffer_ms })
    (fun _ => rfl)

/-- `#[derive(AnchorSerialize)]` on `DisputeDetails`. -/
def DisputeDetails.borsh : Borsh DisputeDetails :=
  Borsh.record
    (.field (.array 32) <| .field (.array 32) <| .field (.array 32) <| .field .u128 <| .array 32)
    (fun d => (d.payment_method, d.original_payment_id, d.dispute_id, d.payment_amount,
      d.payment_currency))
    (fun (payment_method, original_payment_id, dispute_id, payment_amount, payment_currency) =>
      { payment_method, original_payment_id, dispute_id, payment_amount, payment_currency })
    (fun _ => rfl)

/-! ## The hashed bytes -/

/-- The byte stream `dispute_data_hash` feeds to keccak. -/
def dispute_data_stream (details : DisputeDetails) : List UInt8 :=
  details.payment_method.toList ++ details.original_payment_id.toList ++ details.dispute_id.toList
    ++ le_bytes 16 details.payment_amount ++ details.payment_currency.toList

/-- The bytes hashed for a payment are the Borsh serialization of the two records, one after the
other. -/
theorem payment_data_stream_eq (p : PaymentDetails) (i : IntentSnapshot) :
    payment_data_stream p i = PaymentDetails.borsh.serialize p ++ IntentSnapshot.borsh.serialize i := by
  unfold payment_data_stream PaymentDetails.borsh IntentSnapshot.borsh
  simp only [Borsh.record, Borsh.field, Borsh.array, Borsh.word, Borsh.i64, List.append_assoc]

/-- The bytes hashed for a dispute are the Borsh serialization of the record. -/
theorem dispute_data_stream_eq (d : DisputeDetails) :
    dispute_data_stream d = DisputeDetails.borsh.serialize d := by
  unfold dispute_data_stream DisputeDetails.borsh
  simp only [Borsh.record, Borsh.field, Borsh.array, Borsh.word, List.append_assoc]

/-- The hand-written hashing is the hash of the canonical serialization, on every payload. -/
theorem data_hashes_are_borsh (rt : Runtime) :
    (∀ (p : PaymentDetails) (i : IntentSnapshot),
      payment_data_hash rt p i = rt.keccak (payment_data_stream p i)
        ∧ payment_data_stream p i
          = PaymentDetails.borsh.serialize p ++ IntentSnapshot.borsh.serialize i)
      ∧ ∀ d : DisputeDetails,
        dispute_data_hash rt d = rt.keccak (dispute_data_stream d)
          ∧ dispute_data_stream d = DisputeDetails.borsh.serialize d := by
  constructor
  · intro p i
    exact ⟨rfl, payment_data_stream_eq p i⟩
  · intro d
    exact ⟨rfl, dispute_data_stream_eq d⟩

end Zkp2pSolana
