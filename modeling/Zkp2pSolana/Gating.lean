/-
What a gating signature admits.

A gated payment method admits a signal only if an earlier ed25519 instruction of the
same transaction carries a signature of its gating service on the hash of the call.
Two readers look at the bytes of that instruction: the precompile, which verifies what
its offset records point at and aborts the transaction otherwise, and the program, which
runs later and decides from the same bytes whose signature on what was verified. The
first part states the precompile's reading and shows that an instruction the program
accepts has only one; the second shows that the signed bytes determine the whole call,
though a list of referral fees of any length stands in their middle.
-/
import Zkp2pSolana.Digests
import Zkp2pSolana.LifecycleSteps

set_option autoImplicit false

namespace Zkp2pSolana

open Result Zkp2pError

/-! ## The signed call -/

/-- The values a gating service signs, as they are on chain: a key is its bytes. -/
structure GatingTuple where
  orchestrator : Bytes 32
  deposit : Bytes 32
  taker : Bytes 32
  amount : ℕ
  recipient : Bytes 32
  payment_method : Bytes 32
  fiat_currency : Bytes 32
  conversion_rate : ℕ
  referral_fees : List (Bytes 32 × ℕ)
  expiration : ℤ
  domain_chain_id : Bytes 32
  program_id : Bytes 32

/-- The numbers are values of their machine types, as decoding leaves them. -/
structure GatingTuple.Fits (t : GatingTuple) : Prop where
  amount : t.amount < 2 ^ 64
  conversion_rate : t.conversion_rate < 2 ^ 128
  fees : ∀ fee ∈ t.referral_fees, fee.2 < 2 ^ 128
  length : t.referral_fees.length < 2 ^ 32
  expiration : -2 ^ 63 ≤ t.expiration ∧ t.expiration < 2 ^ 63

/-- One entry of the list. -/
def fee_bytes (fee : Bytes 32 × ℕ) : List UInt8 := fee.1.toList ++ le_bytes 16 fee.2

def GatingTuple.encode (t : GatingTuple) : List UInt8 :=
  t.orchestrator.toList ++ t.deposit.toList ++ t.taker.toList ++ le_bytes 8 t.amount
    ++ t.recipient.toList ++ t.payment_method.toList ++ t.fiat_currency.toList
    ++ le_bytes 16 t.conversion_rate
    ++ (le_bytes 4 t.referral_fees.length ++ (t.referral_fees.map fee_bytes).flatten)
    ++ le_bytes_i64 t.expiration ++ t.domain_chain_id.toList ++ t.program_id.toList

/-- The values of one call of `signal_intent`. -/
def gating_tuple (rt : Runtime) (domain_chain_id : Bytes 32) (deposit taker : Pubkey)
    (args : SignalIntentArgs) : GatingTuple where
  orchestrator := rt.key_bytes orchestrator_address
  deposit := rt.key_bytes deposit
  taker := rt.key_bytes taker
  amount := args.amount
  recipient := rt.key_bytes args.recipient
  payment_method := args.payment_method
  fiat_currency := args.fiat_currency
  conversion_rate := args.conversion_rate
  referral_fees := args.referral_fees.map fun fee => (rt.key_bytes fee.recipient, fee.fee)
  expiration := args.gating_signature_expiration
  domain_chain_id := domain_chain_id
  program_id := rt.key_bytes program_id

/-- The message the program hashes is the encoding of the call. -/
theorem gating_message_eq (rt : Runtime) (domain_chain_id : Bytes 32) (deposit taker : Pubkey)
    (args : SignalIntentArgs) :
    gating_message rt domain_chain_id deposit taker args
      = (gating_tuple rt domain_chain_id deposit taker args).encode := by
  have hfees : referral_fee_bytes rt args.referral_fees
      = le_bytes 4 (args.referral_fees.map fun fee => (rt.key_bytes fee.recipient, fee.fee)).length
        ++ ((args.referral_fees.map fun fee => (rt.key_bytes fee.recipient, fee.fee)).map
          fee_bytes).flatten := by
    rw [referral_fee_bytes, List.length_map, List.map_map]
    simp only [rt.as_ref_eq]
    rfl
  simp only [gating_message, rt.as_ref_eq, hfees]
  rfl

/-- The Borsh form of the tuple; the list carries its length. -/
def GatingTuple.borsh : Borsh GatingTuple :=
  Borsh.record
    (.field (.array 32) <| .field (.array 32) <| .field (.array 32) <| .field .u64 <|
      .field (.array 32) <| .field (.array 32) <| .field (.array 32) <| .field .u128 <|
      .field (.vec (.field (.array 32) .u128)) <| .field .i64 <| .field (.array 32) <| .array 32)
    (fun t => (t.orchestrator, t.deposit, t.taker, t.amount, t.recipient, t.payment_method,
      t.fiat_currency, t.conversion_rate, t.referral_fees, t.expiration, t.domain_chain_id,
      t.program_id))
    (fun (orchestrator, deposit, taker, amount, recipient, payment_method, fiat_currency,
        conversion_rate, referral_fees, expiration, domain_chain_id, program_id) =>
      { orchestrator, deposit, taker, amount, recipient, payment_method, fiat_currency,
        conversion_rate, referral_fees, expiration, domain_chain_id, program_id })
    (fun _ => rfl)

/-- What is signed is the Borsh serialization of the tuple. -/
theorem GatingTuple.encode_eq (t : GatingTuple) : t.encode = GatingTuple.borsh.serialize t := by
  simp only [GatingTuple.encode, List.append_assoc]
  rfl

theorem GatingTuple.Fits.borsh {t : GatingTuple} (h : t.Fits) : GatingTuple.borsh.Fits t := by
  have hrate : t.conversion_rate < 256 ^ 16 := by simpa using h.conversion_rate
  have hfees : ∀ fee ∈ t.referral_fees, fee.2 < 256 ^ 16 := by simpa using h.fees
  exact ⟨trivial, trivial, trivial, h.amount, trivial, trivial, trivial, hrate,
    ⟨h.length, fun fee hfee => ⟨trivial, hfees fee hfee⟩⟩, h.expiration, trivial, trivial⟩

/-- The encoding determines the tuple. -/
theorem GatingTuple.encode_inj {t t' : GatingTuple} (ht : t.Fits) (ht' : t'.Fits)
    (h : t.encode = t'.encode) : t = t' := by
  rw [GatingTuple.encode_eq, GatingTuple.encode_eq] at h
  exact GatingTuple.borsh.serialize_injective ht.borsh ht'.borsh h

/-! ## The precompile's reading -/

/-- One offset record of an ed25519 instruction. -/
structure Ed25519SignatureOffsets where
  signature_offset : ℕ
  signature_instruction_index : ℕ
  public_key_offset : ℕ
  public_key_instruction_index : ℕ
  message_data_offset : ℕ
  message_data_size : ℕ
  message_instruction_index : ℕ

/-- What one record points at. -/
structure SignatureRecord where
  public_key : List UInt8
  message : List UInt8
  signature : List UInt8
  deriving DecidableEq

/-- The seven words of a record. -/
def read_offsets (data : List UInt8) (start : ℕ) : Option Ed25519SignatureOffsets := do
  let signature_offset ← read_u16 data start
  let signature_instruction_index ← read_u16 data (start + 2)
  let public_key_offset ← read_u16 data (start + 4)
  let public_key_instruction_index ← read_u16 data (start + 6)
  let message_data_offset ← read_u16 data (start + 8)
  let message_data_size ← read_u16 data (start + 10)
  let message_instruction_index ← read_u16 data (start + 12)
  return ⟨signature_offset, signature_instruction_index, public_key_offset,
    public_key_instruction_index, message_data_offset, message_data_size, message_instruction_index⟩

/-- A stretch of an instruction of the transaction; the largest index is the instruction itself. -/
def get_data_slice (instruction_datas : List (List UInt8)) (data : List UInt8)
    (index offset size : ℕ) : Option (List UInt8) := do
  let source ← if index = 65535 then some data else instruction_datas[index]?
  get_slice source offset size

def Ed25519SignatureOffsets.record (o : Ed25519SignatureOffsets)
    (instruction_datas : List (List UInt8)) (data : List UInt8) : Option SignatureRecord := do
  let signature ← get_data_slice instruction_datas data o.signature_instruction_index
    o.signature_offset 64
  let public_key ← get_data_slice instruction_datas data o.public_key_instruction_index
    o.public_key_offset 32
  let message ← get_data_slice instruction_datas data o.message_instruction_index
    o.message_data_offset o.message_data_size
  return ⟨public_key, message, signature⟩

/-- The records of an instruction: a count, a padding byte, and that many offset records. -/
def ed25519_records (instruction_datas : List (List UInt8)) (data : List UInt8) :
    Option (List SignatureRecord) := do
  let count ← data.head?
  if data.length < 2 + 14 * count.toNat ∨ (count = 0 ∧ 2 < data.length) then none
  else (List.range count.toNat).mapM fun i => do
    let offsets ← read_offsets data (2 + 14 * i)
    offsets.record instruction_datas data

/-- What the precompile is documented to do: it accepts an instruction only if every signature its
records point at verifies. -/
def Runtime.VerifiesEd25519 (rt : Runtime)
    (verify : List UInt8 → List UInt8 → List UInt8 → Prop) : Prop :=
  ∀ data, rt.ed25519_precompile data = true →
    ∃ instruction_datas records, ed25519_records instruction_datas data = some records
      ∧ ∀ r ∈ records, verify r.public_key r.message r.signature

/-! ## The program's reading -/

section Reading

variable {data signer message : List UInt8}

/-- Two bytes are read exactly where both are inside the data. -/
theorem read_u16_isSome {offset : ℕ} :
    (read_u16 data offset).isSome = true ↔ offset + 2 ≤ data.length := by
  unfold read_u16 get_slice
  split_ifs with h
  · simp [h]
  · simp [h]

/-- The record the program reads. It skips the offset of the signature, which is there whenever the
rest of the record is. -/
theorem matches_offsets (h : ed25519_instruction_matches data signer message = true) :
    data.head? = some 1 ∧ 16 ≤ data.length ∧ ∃ o, read_offsets data 2 = some o
      ∧ o.signature_instruction_index = 65535 ∧ o.public_key_instruction_index = 65535
      ∧ o.message_instruction_index = 65535 ∧ o.message_data_size = message.length
      ∧ get_slice data o.public_key_offset 32 = some signer
      ∧ get_slice data o.message_data_offset message.length = some message := by
  rw [ed25519_instruction_matches, Bool.and_eq_true, decide_eq_true_eq] at h
  obtain ⟨hcount, h⟩ := h
  split at h
  case h_2 => cases h
  case h_1 signature_index key_offset key_index message_offset message_size message_index h4 h6 h8 h10
      h12 h14 =>
    simp only [Bool.and_eq_true, decide_eq_true_eq] at h
    obtain ⟨⟨⟨⟨⟨hsignature, hkey⟩, hmessage⟩, hsize⟩, hsigner⟩, hmessage_slice⟩ := h
    have hlength : 16 ≤ data.length := by
      have hsome : (read_u16 data 14).isSome = true := by rw [h14]; rfl
      exact read_u16_isSome.mp hsome
    have hfirst : 2 + 2 ≤ data.length := by omega
    obtain ⟨signature_offset, h2⟩ := Option.isSome_iff_exists.mp (read_u16_isSome.mpr hfirst)
    refine ⟨hcount, hlength, ⟨signature_offset, signature_index, key_offset, key_index,
      message_offset, message_size, message_index⟩, ?_, hsignature, hkey, hmessage, hsize, hsigner,
      hmessage_slice⟩
    simp only [read_offsets, h2, h4, h6, h8, h10, h12, h14, Option.bind_eq_bind, Option.bind_some,
      Option.pure_def]

/-- The precompile reads an instruction the program accepts as one record of its own bytes: exactly
that key and that message, under the signature the record points at. -/
theorem matches_records (h : ed25519_instruction_matches data signer message = true) :
    ∃ signature_offset, ∀ instruction_datas, ed25519_records instruction_datas data
      = (get_slice data signature_offset 64).map fun signature => [⟨signer, message, signature⟩] := by
  obtain ⟨hcount, hlength, o, ho, hsignature, hkey, hmessage, hsize, hsigner, hmessage_slice⟩ :=
    matches_offsets h
  refine ⟨o.signature_offset, fun instruction_datas => ?_⟩
  have hrecord : o.record instruction_datas data
      = (get_slice data o.signature_offset 64).map fun signature => ⟨signer, message, signature⟩ := by
    simp only [Ed25519SignatureOffsets.record, get_data_slice, hsignature, hkey, hmessage, hsize,
      if_true, Option.bind_eq_bind, Option.bind_some, hsigner, hmessage_slice, Option.pure_def]
    exact Option.map_eq_bind.symm
  have hguard : ¬ (data.length < 2 + 14 * (1 : UInt8).toNat ∨ ((1 : UInt8) = 0 ∧ 2 < data.length)) := by
    rintro (hshort | ⟨hzero, -⟩)
    · have hone : (1 : UInt8).toNat = 1 := rfl
      omega
    · exact absurd hzero (by decide)
  have hrange : List.range (1 : UInt8).toNat = [0] := rfl
  simp only [ed25519_records, hcount, Option.bind_eq_bind, Option.bind_some, if_neg hguard, hrange,
    List.mapM_cons, List.mapM_nil, Nat.mul_zero, Nat.add_zero, ho, hrecord]
  cases get_slice data o.signature_offset 64 with
  | none => rfl
  | some signature => rfl

end Reading

/-! ## Gated admission -/

/-- The numbers of the call are values of their machine types, as decoding leaves them. -/
structure SignalIntentArgs.Fits (args : SignalIntentArgs) : Prop where
  amount : args.amount < 2 ^ 64
  conversion_rate : args.conversion_rate < 2 ^ 128
  fees : ∀ fee ∈ args.referral_fees, fee.fee < 2 ^ 128
  length : args.referral_fees.length < 2 ^ 32
  expiration : -2 ^ 63 ≤ args.gating_signature_expiration
    ∧ args.gating_signature_expiration < 2 ^ 63

/-- The tuple of a well-typed signal is within its ranges. -/
theorem gating_tuple_fits {args : SignalIntentArgs} (h : args.Fits) (rt : Runtime)
    (domain_chain_id : Bytes 32) (deposit taker : Pubkey) :
    (gating_tuple rt domain_chain_id deposit taker args).Fits := by
  refine ⟨h.amount, h.conversion_rate, ?_, ?_, h.expiration⟩
  · intro fee hfee
    obtain ⟨fee, hmem, rfl⟩ := List.mem_map.mp hfee
    exact h.fees fee hmem
  · show (args.referral_fees.map _).length < 2 ^ 32
    rw [List.length_map]
    exact h.length

/-- The values the gating service has to have signed for an event that signals. -/
def signed_tuple (rt : Runtime) (e : Event) (accounts : SignalIntent) (args : SignalIntentArgs) :
    GatingTuple :=
  gating_tuple rt e.pre.orchestrator.domain_chain_id accounts.deposit accounts.taker args

/-- What the parser is shown are the data of the signature instructions of the transaction. -/
theorem mem_ed25519_data {ixs : List TopLevel} {data : List UInt8} (h : data ∈ ed25519_data ixs) :
    TopLevel.ed25519 data ∈ ixs := by
  induction ixs with
  | nil => cases h
  | cons ix rest ih =>
    cases ix with
    | ed25519 data' =>
      rcases List.mem_cons.mp h with rfl | h
      · exact List.mem_cons_self
      · exact List.mem_cons_of_mem _ (ih h)
    | program ix => exact List.mem_cons_of_mem _ (ih h)
    | external tokens => exact List.mem_cons_of_mem _ (ih h)

/-- A gated signal found an instruction it accepts among the earlier ones. -/
theorem signal_intent_gated {rt : Runtime} {e : Event} {accounts : SignalIntent}
    {args : SignalIntentArgs} {method : DepositPaymentMethod} {g : Pubkey}
    (h : handle_signal_intent rt e.ctx (ed25519_data e.before) accounts args e.pre = .ok e.post)
    (hmethod : e.pre.payment_methods.lookup
      (payment_method_address accounts.deposit args.payment_method) = some method)
    (hgated : method.gating_service = some g) :
    e.ctx.now ≤ args.gating_signature_expiration
      ∧ ∃ data, TopLevel.ed25519 data ∈ e.before
        ∧ ed25519_instruction_matches data (rt.as_ref g)
          (rt.keccak (signed_tuple rt e accounts args).encode).toList = true := by
  obtain ⟨d, method', currency, terms, -, htuple, hgating, -⟩ := signal_intent_checks h
  simp only [signaled_tuple, bind_eq_ok, load_eq_ok, require_eq_ok, exists_const, pure_eq_ok,
    Prod.mk.injEq] at htuple
  obtain ⟨_, hfound, -, _, -, -, -, -, rfl, -⟩ := htuple
  rw [hmethod] at hfound
  cases hfound
  rw [hgated] at hgating
  simp only [validate_gating_signature, bind_eq_ok, require_eq_ok, exists_const] at hgating
  obtain ⟨hnow, hany⟩ := hgating
  obtain ⟨data, hdata, hmatches⟩ := List.any_eq_true.mp hany
  rw [gating_message_eq] at hmatches
  exact ⟨hnow, data, mem_ed25519_data hdata, hmatches⟩

/-- The encoding of a call is injective; an ed25519 instruction the program accepts for a key and a
message has, whatever else is in the transaction, one reading: one record, within its own bytes, of
exactly that key and message; and so a gated signal comes after an instruction of its own transaction
that verified a signature of the gating service on the hash of this very call, unexpired, and a
signature on the hash of another call does not admit it. -/
theorem gated_admission (rt : Runtime) :
    (∀ t t' : GatingTuple, t.Fits → t'.Fits → t.encode = t'.encode → t = t')
      ∧ (∀ data signer message, ed25519_instruction_matches data signer message = true →
        data.head? = some 1
          ∧ (∃ o, read_offsets data 2 = some o ∧ o.signature_instruction_index = 65535
            ∧ o.public_key_instruction_index = 65535 ∧ o.message_instruction_index = 65535)
          ∧ ∀ instruction_datas records, ed25519_records instruction_datas data = some records →
            ∃ signature, records = [⟨signer, message, signature⟩])
      ∧ ∀ verify, rt.VerifiesEd25519 verify → ∀ es s, Run rt es s → ∀ e ∈ es, ∀ accounts args,
        e.ix = .program (.signal_intent accounts args) → ∀ method g,
        e.pre.payment_methods.lookup
          (payment_method_address accounts.deposit args.payment_method) = some method →
        method.gating_service = some g →
        e.ctx.now ≤ args.gating_signature_expiration
          ∧ (∃ past tx later e' data signature, es = past ++ tx ++ e :: later
            ∧ tx.map TxMachine.Event.ix = e.before ∧ (∀ e'' ∈ tx, e''.ctx = e.ctx)
            ∧ e' ∈ tx ∧ e'.ix = .ed25519 data
            ∧ (∃ instruction_datas, ed25519_records instruction_datas data
              = some [⟨rt.as_ref g, (rt.keccak (signed_tuple rt e accounts args).encode).toList,
                signature⟩])
            ∧ verify (rt.as_ref g) (rt.keccak (signed_tuple rt e accounts args).encode).toList
              signature)
          ∧ ∀ t : GatingTuple, args.Fits → t.Fits →
            rt.CollisionFree [(signed_tuple rt e accounts args).encode, t.encode] →
            rt.keccak t.encode = rt.keccak (signed_tuple rt e accounts args).encode →
            t = signed_tuple rt e accounts args := by
  refine ⟨fun t t' => GatingTuple.encode_inj, ?_, ?_⟩
  · intro data signer message hmatches
    obtain ⟨hcount, -, o, ho, hsignature, hkey, hmessage, -⟩ := matches_offsets hmatches
    obtain ⟨signature_offset, hrecords⟩ := matches_records hmatches
    refine ⟨hcount, ⟨o, ho, hsignature, hkey, hmessage⟩, fun instruction_datas records hread => ?_⟩
    rw [hrecords] at hread
    obtain ⟨signature, -, rfl⟩ := Option.map_eq_some_iff.mp hread
    exact ⟨signature, rfl⟩
  · intro verify hverify es s hrun e he accounts args hix method g hmethod hgated
    have hvalid := TxMachine.Run.valid hrun
    obtain ⟨hnow, data, hdata, hmatches⟩ :=
      signal_intent_gated (valid_execute (hvalid e he) hix) hmethod hgated
    refine ⟨hnow, ?_, ?_⟩
    · obtain ⟨past, tx, later, rfl, hbefore, hctx⟩ := TxMachine.Run.before_executed hrun e he
      rw [← hbefore] at hdata
      obtain ⟨e', he', hix'⟩ := List.mem_map.mp hdata
      -- the transaction got past the instruction, so the precompile accepted it
      have haccepted : rt.ed25519_precompile data = true := by
        have hexecute := valid_execute (hvalid e' (by simp [he'])) hix'
        simp only [TopLevel.execute, bind_eq_ok, require_eq_ok, exists_const] at hexecute
        exact hexecute.1
      obtain ⟨instruction_datas, records, hread, hall⟩ := hverify data haccepted
      obtain ⟨signature_offset, hrecords⟩ := matches_records hmatches
      have hread' := hread
      rw [hrecords] at hread'
      obtain ⟨signature, -, rfl⟩ := Option.map_eq_some_iff.mp hread'
      exact ⟨past, tx, later, e', data, signature, rfl, hbefore, hctx, he', hix',
        ⟨instruction_datas, hread⟩, hall _ List.mem_cons_self⟩
    · intro t hargs ht hfree heq
      have hencode := hfree _ (by simp) _ (by simp) heq
      exact GatingTuple.encode_inj ht (gating_tuple_fits hargs rt _ _ _) hencode

/-! ## A gated signal

The sample cluster with a gating service; the digest and the signature are the real ones. -/

section Sample

/-- The bytes of the address of the sample deposit. -/
def sample_deposit_bytes : Bytes 32 :=
  ⟨[0x37, 0x0c, 0x62, 0x10, 0x75, 0x9b, 0xf8, 0x1f, 0x38, 0xf4, 0x33, 0x4e, 0xb8, 0xe7, 0x1e, 0xc2,
    0x6d, 0x37, 0x7f, 0x8b, 0x9b, 0xaf, 0x51, 0xe1, 0xd1, 0xe3, 0x86, 0x24, 0x2d, 0x81, 0x9e, 0x88],
    rfl⟩

/-- The key of the gating service. -/
def sample_gate_bytes : Bytes 32 :=
  ⟨[0x5e, 0x5a, 0x42, 0x81, 0x66, 0x78, 0xf4, 0xb2, 0xdb, 0xfd, 0xcb, 0x5c, 0x51, 0x62, 0x7c, 0xba,
    0x5d, 0x36, 0x37, 0x4e, 0xe8, 0x1e, 0xb8, 0x4c, 0x1e, 0xa5, 0xf1, 0xd6, 0xe8, 0xb9, 0x39, 0xd9],
    rfl⟩

/-- The hash of the call it signed. -/
def sample_gate_digest : Bytes 32 :=
  ⟨[0xfc, 0x41, 0xf2, 0x15, 0x6f, 0x6f, 0x15, 0xbc, 0x86, 0xc2, 0x6b, 0x8e, 0xef, 0x34, 0x89, 0x0d,
    0xb0, 0xd8, 0x80, 0x8e, 0x06, 0x66, 0x18, 0xe4, 0xcd, 0x59, 0xb4, 0x9f, 0x57, 0xf6, 0xd8, 0xcd],
    rfl⟩

/-- Its signature. -/
def sample_gate_signature : Bytes 64 :=
  ⟨[0xc9, 0x47, 0xe5, 0xcd, 0xd7, 0x73, 0x28, 0x6d, 0xb1, 0xb8, 0x82, 0x99, 0x06, 0xb9, 0xf6, 0xe8,
    0xcd, 0xe4, 0xfe, 0xb2, 0x5d, 0xc4, 0x1c, 0x0e, 0xbd, 0xa6, 0x28, 0xe1, 0xf3, 0xa9, 0x5a, 0x5e,
    0x1f, 0x06, 0xe2, 0x8d, 0xf4, 0x77, 0x7e, 0x64, 0x5d, 0x67, 0x19, 0x22, 0xa0, 0x35, 0x80, 0x27,
    0xd9, 0x5a, 0x3d, 0x05, 0xad, 0x9f, 0xc0, 0x9a, 0x6e, 0xc7, 0xb1, 0x13, 0x7e, 0xcd, 0xc0, 0x06],
    rfl⟩

def sample_gate : Pubkey := .addr sample_gate_bytes

/-- The one signature of these runs. -/
def sample_gate_record : SignatureRecord :=
  ⟨sample_gate_bytes.toList, sample_gate_digest.toList, sample_gate_signature.toList⟩

/-- An ed25519 instruction that carries it: header, key, signature, message. -/
def sample_gate_data : List UInt8 :=
  [1, 0] ++ le_bytes 2 48 ++ le_bytes 2 65535 ++ le_bytes 2 16 ++ le_bytes 2 65535 ++ le_bytes 2 112
    ++ le_bytes 2 32 ++ le_bytes 2 65535 ++ sample_gate_bytes.toList ++ sample_gate_signature.toList
    ++ sample_gate_digest.toList

def sample_gate_runtime : Runtime where
  keccak input := if input.length = 340 then sample_gate_digest else sample_keccak input
  pda_bytes key :=
    if key = sample_deposit then sample_deposit_bytes else sample_runtime.pda_bytes key
  secp256k1_recover := sample_runtime.secp256k1_recover
  ed25519_precompile data := (ed25519_records [] data).any fun records =>
    records.all fun r => decide (r = sample_gate_record)

/-- The sample precompile accepts exactly the sample record. -/
theorem sample_gate_verifies :
    sample_gate_runtime.VerifiesEd25519 fun key message signature =>
      (⟨key, message, signature⟩ : SignatureRecord) = sample_gate_record := by
  intro data haccepted
  obtain ⟨records, hread, hall⟩ := (Option.any_eq_true _ _).mp haccepted
  refine ⟨[], records, hread, fun r hr => ?_⟩
  exact of_decide_eq_true (List.all_eq_true.mp hall r hr)

/-- Initialization computes the same state under this sample runtime. -/
theorem sample_gate_genesis {s : State} (h : sample_genesis = .ok s) :
    genesis sample_gate_runtime s := by
  refine sample_genesis_of (fun seed => ?_) h
  unfold derive_deployment_domain
  refine if_neg ?_
  rw [List.length_append, Bytes.length_toList]
  decide

/-- A call with a referral fee, which the gating service signed until 2500. -/
def sample_gated_args : SignalIntentArgs :=
  { sample_signal_args with
    referral_fees := [⟨sample_staker, 1000000000000000⟩]
    gating_signature_expiration := 2500 }

/-- The maker adds the gating service, and the taker signals with its signature. -/
def sample_gated_run : ProgramResult (List Event × State) := do
  let s ← sample_genesis
  TxMachine.execute_all
    (fun ctx before after s ix => TopLevel.execute sample_gate_runtime ctx before after s ix)
    [sample_setup,
      (sample_ctx 1500,
        [.program (.deposit_config (.configure_payment_method ⟨sample_depositor, sample_deposit⟩
          { payment_method := sample_word 21
            payee_details := sample_word 22
            gating_service := some sample_gate
            active := true })),
        .program (.governance (.configure_orchestrator ⟨sample_authority⟩
          { protocol_fee := none
            protocol_fee_recipient := none
            lifecycle_policy := some .None
            allow_multiple_intents := none
            paused := none }))]),
      (sample_ctx 2000,
        [.ed25519 sample_gate_data, .program (.signal_intent sample_signal sample_gated_args)])] s

theorem sample_gated_reaches (good : List Event → State → Bool)
    (h : sample_gated_run.toOption.any (fun r => good r.1 r.2) = true) :
    ∃ es s, Run sample_gate_runtime es s ∧ good es s = true :=
  TxMachine.Run.exists_of_computed (fun _ hs₀ => sample_gate_genesis hs₀) h

/-- The signal of that run comes after the service's signature on the hash of its own call. -/
theorem gated_admission_signed :
    ∃ es s e accounts args signature, Run sample_gate_runtime es s ∧ e ∈ es
      ∧ e.ix = .program (.signal_intent accounts args)
      ∧ e.ctx.now ≤ args.gating_signature_expiration
      ∧ (⟨sample_gate_bytes.toList,
        (sample_gate_runtime.keccak (signed_tuple sample_gate_runtime e accounts args).encode).toList,
        signature⟩ : SignatureRecord) = sample_gate_record := by
  obtain ⟨es, s, hrun, hgood⟩ := sample_gated_reaches
    (fun es _ => es.any fun e : Event => (following_signal [e.ix]).any fun signal =>
      (e.pre.payment_methods.lookup
        (payment_method_address signal.1.deposit signal.2.payment_method)).any
          fun method : DepositPaymentMethod => decide (method.gating_service = some sample_gate))
    (by decide +kernel)
  simp only [List.any_eq_true, Option.any_eq_true, decide_eq_true_eq, Prod.exists] at hgood
  obtain ⟨e, he, accounts, args, hsignal, method, hmethod, hgated⟩ := hgood
  have hix := following_signal_some hsignal
  obtain ⟨-, -, hadmission⟩ := gated_admission sample_gate_runtime
  obtain ⟨hnow, ⟨-, -, -, -, -, signature, -, -, -, -, -, -, hverified⟩, -⟩ :=
    hadmission _ sample_gate_verifies es s hrun e he accounts args hix method sample_gate hmethod hgated
  exact ⟨es, s, e, accounts, args, signature, hrun, he, hix, hnow, hverified⟩

end Sample

end Zkp2pSolana
