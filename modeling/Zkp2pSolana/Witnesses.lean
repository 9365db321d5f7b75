/-
The witness threshold: which configurations are reachable and what is accepted.

Initialization and the two witness instructions keep between one and two
distinct nonzero witnesses and a threshold they can meet. Against such a
configuration `verify_witness_threshold` accepts a list of signatures exactly if
it is long enough and not too long, each signature is acceptable and recovers to
a configured witness, and no two recover to the same one. That does not mention
the order of the list, and since the address is what is compared, encoding a
signature differently cannot make its key count twice.
-/
import Zkp2pSolana.Genesis
import Zkp2pSolana.Lib.BigEndian
import Zkp2pSolana.Lib.Fresh
import Zkp2pSolana.ConfigMoves
import Mathlib.Data.List.Forall2

set_option autoImplicit false

namespace Zkp2pSolana

open Result Zkp2pError

/-! ## One signature -/

/-- The order of the secp256k1 group. -/
def SECP256K1_ORDER : ℕ :=
  115792089237316195423570985008687907852837564279074904382605163141518161494337

/-- The parts `r || s`, `s` and `v` of a signature. -/
def signature_rs (signature : Bytes 65) : List UInt8 := signature.toList.take 64

def signature_s (signature : Bytes 65) : ℕ := of_be_bytes ((signature_rs signature).drop 32)

def signature_v (signature : Bytes 65) : UInt8 := signature.toList.getD 64 0

/-- The Ethereum address of a public key. -/
def address_of (rt : Runtime) (public_key : List UInt8) : Bytes 20 :=
  Bytes.ofList 20 ((rt.keccak public_key).toList.drop 12)

/-- The signature is in one of its four encodings, has a low `s`, and the key it recovers to has
this address. -/
structure SignedBy (rt : Runtime) (digest : Bytes 32) (signature : Bytes 65) (address : Bytes 20) :
    Prop where
  encoding : signature_v signature ∈ ([0, 1, 27, 28] : List UInt8)
  low_s : signature_s signature ≤ SECP256K1_ORDER / 2
  recovered : ∃ public_key, rt.secp256k1_recover digest ((signature_v signature).toNat % 27)
      (signature_rs signature) = some public_key
    ∧ address = address_of rt public_key

/-- The recovery byte may be written in either of the two conventions, from 0 or from 27. -/
theorem recovery_id_eq_some {v : UInt8} {id : ℕ} :
    recovery_id v = some id ↔ v ∈ ([0, 1, 27, 28] : List UInt8) ∧ id = v.toNat % 27 := by
  unfold recovery_id
  simp only [List.mem_cons, List.not_mem_nil, or_false]
  by_cases hlow : v = 0 ∨ v = 1
  · rw [if_pos hlow]
    rcases hlow with rfl | rfl
    · simp [eq_comm]
    · simp [eq_comm]
  · rw [if_neg hlow]
    rw [not_or] at hlow
    by_cases hhigh : v = 27 ∨ v = 28
    · rw [if_pos hhigh]
      rcases hhigh with rfl | rfl
      · simp [eq_comm]
      · simp [eq_comm]
    · rw [if_neg hhigh]
      rw [not_or] at hhigh
      simp [hlow, hhigh]

/-- The comparison of the bytes with half the order is a comparison of the numbers. -/
theorem is_low_s_iff (signature : Bytes 65) :
    is_low_s (signature_rs signature) = true ↔ signature_s signature ≤ SECP256K1_ORDER / 2 := by
  have hlength : ((signature_rs signature).drop 32).length = HALF_ORDER.length := by
    rw [signature_rs, List.length_drop, List.length_take, Bytes.length_toList]
    rfl
  have hhalf : of_be_bytes HALF_ORDER = SECP256K1_ORDER / 2 := by decide +kernel
  rw [is_low_s, decide_eq_true_iff, of_be_bytes_le_iff hlength, hhalf]
  rfl

/-- A recovery succeeds exactly on the signatures described by `SignedBy`. -/
theorem recover_witness_ok {rt : Runtime} {digest : Bytes 32} {signature : Bytes 65}
    {address : Bytes 20} :
    recover_witness rt digest signature = .ok address ↔ SignedBy rt digest signature address := by
  have hrs : signature.toList.take 64 = signature_rs signature := rfl
  have hv : signature.toList.getD 64 0 = signature_v signature := rfl
  simp only [recover_witness, hrs, hv, bind_eq_ok, ok_or_eq_ok, require_eq_ok, exists_const,
    pure_eq_ok, recovery_id_eq_some, is_low_s_iff]
  constructor
  · rintro ⟨_, ⟨hencoding, rfl⟩, hlow, public_key, hrecovered, rfl⟩
    exact ⟨hencoding, hlow, public_key, hrecovered, rfl⟩
  · rintro ⟨hencoding, hlow, public_key, hrecovered, rfl⟩
    exact ⟨_, ⟨hencoding, rfl⟩, hlow, public_key, hrecovered, rfl⟩

/-- A signature has one signer. -/
theorem SignedBy.unique {rt : Runtime} {digest : Bytes 32} {signature : Bytes 65}
    {address address' : Bytes 20} (h : SignedBy rt digest signature address)
    (h' : SignedBy rt digest signature address') : address = address' := by
  have hok := recover_witness_ok.mpr h
  rw [recover_witness_ok.mpr h'] at hok
  exact (Except.ok.inj hok).symm

/-! ## The loop -/

section Threshold

variable {rt : Runtime} {verifier : VerifierConfig} {digest : Bytes 32}

/-- The signature is acceptable and its signer is a configured witness. -/
def SignedByWitness (rt : Runtime) (verifier : VerifierConfig) (digest : Bytes 32)
    (signature : Bytes 65) (address : Bytes 20) : Prop :=
  SignedBy rt digest signature address ∧ address ∈ verifier.witnesses

/-- The loop succeeds exactly when every signature has a witness and no witness is met twice. -/
theorem recover_witnesses_ok {signatures : List (Bytes 65)} {recovered ws : List (Bytes 20)} :
    recover_witnesses rt verifier digest recovered signatures = .ok ws ↔
      ∃ addresses, List.Forall₂ (SignedByWitness rt verifier digest) signatures addresses
        ∧ Fresh recovered addresses ∧ ws = recovered ++ addresses := by
  -- induction on the signatures still to come, for every list of addresses met so far
  induction signatures generalizing recovered with
  | nil =>
    simp only [recover_witnesses, ok_eq_ok, List.forall₂_nil_left_iff]
    constructor
    · rintro rfl
      exact ⟨[], rfl, Fresh.nil recovered, by rw [List.append_nil]⟩
    · rintro ⟨_, rfl, -, rfl⟩
      rw [List.append_nil]
  | cons signature rest ih =>
    simp only [recover_witnesses, bind_eq_ok, require_eq_ok, exists_const, recover_witness_ok]
    constructor
    · rintro ⟨address, hsigned, hknown, hnew, hrest⟩
      obtain ⟨addresses, hall, hfresh, rfl⟩ := ih.mp hrest
      exact ⟨address :: addresses, .cons ⟨hsigned, hknown⟩ hall, Fresh.cons_iff.mpr ⟨hnew, hfresh⟩,
        List.append_assoc ..⟩
    · rintro ⟨_, hall, hfresh, rfl⟩
      rw [List.forall₂_cons_left_iff] at hall
      obtain ⟨address, addresses, ⟨hsigned, hknown⟩, hall, rfl⟩ := hall
      obtain ⟨hnew, hfresh⟩ := Fresh.cons_iff.mp hfresh
      refine ⟨address, hsigned, hknown, hnew, ?_⟩
      exact ih.mpr ⟨addresses, hall, hfresh, List.append_cons ..⟩

/-- A list of signatures the configuration should accept: of a length between the threshold and the
number of witnesses, each by a configured witness, no two by the same one. -/
def MeetsThreshold (rt : Runtime) (verifier : VerifierConfig) (digest : Bytes 32)
    (signatures : List (Bytes 65)) : Prop :=
  verifier.required_signatures ≤ signatures.length
    ∧ signatures.length ≤ verifier.witnesses.length
    ∧ ∃ addresses, List.Forall₂ (SignedByWitness rt verifier digest) signatures addresses
      ∧ addresses.Nodup

/-- The verifier accepts a list exactly when it meets the threshold. -/
theorem verify_witness_threshold_ok {signatures : List (Bytes 65)} :
    verify_witness_threshold rt verifier digest signatures = .ok ()
      ↔ MeetsThreshold rt verifier digest signatures := by
  simp only [verify_witness_threshold, MeetsThreshold, bind_eq_ok, require_eq_ok, exists_const,
    recover_witnesses_ok, Fresh.nil_iff, List.nil_append]
  constructor
  · rintro ⟨hlow, hhigh, ws, ⟨addresses, hall, hdistinct, -⟩, -⟩
    exact ⟨hlow, hhigh, addresses, hall, hdistinct⟩
  · rintro ⟨hlow, hhigh, addresses, hall, hdistinct⟩
    refine ⟨hlow, hhigh, _, ⟨addresses, hall, hdistinct, rfl⟩, ?_⟩
    rw [← hall.length_eq]
    exact hlow

/-- Every refusal is the same error. -/
theorem verify_witness_threshold_error {signatures : List (Bytes 65)} {e : ProgramError}
    (h : verify_witness_threshold rt verifier digest signatures = .error e) :
    e = InvalidSignature := by
  have hone : ∀ {signature : Bytes 65} {e : ProgramError},
      recover_witness rt digest signature = .error e → e = InvalidSignature := by
    intro signature e h
    simp only [recover_witness, bind_eq_error, ok_or_eq_error, require_eq_error, pure_eq_error,
      exists_false, and_false, or_false] at h
    rcases h with ⟨-, rfl⟩ | ⟨_, -, ⟨-, rfl⟩ | ⟨_, -, -, rfl⟩⟩
    all_goals rfl
  -- the loop fails at its first bad signature, and each way to be bad has the same error
  have hloop : ∀ {signatures : List (Bytes 65)} {recovered : List (Bytes 20)} {e : ProgramError},
      recover_witnesses rt verifier digest recovered signatures = .error e →
        e = InvalidSignature := by
    intro signatures
    induction signatures with
    | nil =>
      intro recovered e h
      cases h
    | cons signature rest ih =>
      intro recovered e h
      simp only [recover_witnesses, bind_eq_error, require_eq_error] at h
      rcases h with h | ⟨_, -, ⟨-, rfl⟩ | ⟨_, -, ⟨-, rfl⟩ | ⟨_, -, h⟩⟩⟩
      · exact hone h
      · rfl
      · rfl
      · exact ih h
  simp only [verify_witness_threshold, bind_eq_error, require_eq_error] at h
  rcases h with ⟨-, rfl⟩ | ⟨_, -, ⟨-, rfl⟩ | ⟨_, -, h | ⟨_, -, -, rfl⟩⟩⟩
  · rfl
  · rfl
  · exact hloop h
  · rfl

/-- Meeting the threshold does not depend on the order of the signatures. -/
theorem MeetsThreshold.perm {signatures signatures' : List (Bytes 65)}
    (h : MeetsThreshold rt verifier digest signatures) (hperm : signatures'.Perm signatures) :
    MeetsThreshold rt verifier digest signatures' := by
  obtain ⟨hlow, hhigh, addresses, hall, hdistinct⟩ := h
  obtain ⟨addresses', hall', hperm'⟩ := List.perm_comp_forall₂ hperm hall
  rw [← hperm.length_eq] at hlow hhigh
  exact ⟨hlow, hhigh, addresses', hall', hperm'.nodup_iff.mpr hdistinct⟩

/-- The order of the signatures does not matter. -/
theorem verify_witness_threshold_perm {signatures signatures' : List (Bytes 65)}
    (hperm : signatures'.Perm signatures) :
    verify_witness_threshold rt verifier digest signatures'
      = verify_witness_threshold rt verifier digest signatures := by
  cases hok : verify_witness_threshold rt verifier digest signatures with
  | ok u =>
    exact verify_witness_threshold_ok.mpr ((verify_witness_threshold_ok.mp hok).perm hperm)
  | error e =>
    cases hok' : verify_witness_threshold rt verifier digest signatures' with
    | ok u =>
      have hmeets := (verify_witness_threshold_ok.mp hok').perm hperm.symm
      rw [verify_witness_threshold_ok.mpr hmeets] at hok
      cases hok
    | error e' =>
      rw [verify_witness_threshold_error hok, verify_witness_threshold_error hok']

/-- Distinct witnesses, as many as the threshold asks for, signed the digest. -/
theorem MeetsThreshold.signers {signatures : List (Bytes 65)}
    (h : MeetsThreshold rt verifier digest signatures) :
    ∃ ws : List (Bytes 20), ws.Nodup ∧ verifier.required_signatures ≤ ws.length
      ∧ ∀ w ∈ ws, w ∈ verifier.witnesses ∧ ∃ signature ∈ signatures,
        SignedBy rt digest signature w := by
  obtain ⟨hlow, -, addresses, hall, hdistinct⟩ := h
  refine ⟨addresses, hdistinct, hall.length_eq ▸ hlow, fun w hw => ?_⟩
  obtain ⟨n, hn, rfl⟩ := List.getElem_of_mem hw
  have hn' : n < signatures.length := hall.length_eq ▸ hn
  obtain ⟨hsigned, hknown⟩ := hall.get hn' hn
  exact ⟨hknown, signatures[n], List.getElem_mem hn', hsigned⟩

/-- No two signatures of an accepted list have one signer. -/
theorem MeetsThreshold.pairwise {signatures : List (Bytes 65)}
    (h : MeetsThreshold rt verifier digest signatures) :
    signatures.Pairwise fun x y => ∀ address, SignedBy rt digest x address →
      ¬ SignedBy rt digest y address := by
  obtain ⟨-, -, addresses, hall, hdistinct⟩ := h
  induction hall with
  | nil => exact .nil
  | @cons x w rest ws hsigned hall ih =>
    rw [List.nodup_cons] at hdistinct
    refine .cons (fun y hy address hx hy' => ?_) (ih hdistinct.2)
    -- a second signature by the same key would put its address into the rest
    obtain ⟨n, hn, rfl⟩ := List.getElem_of_mem hy
    have hn' : n < ws.length := hall.length_eq ▸ hn
    have hlater := hall.get hn hn'
    have hsame : ws[n] = w := hlater.1.unique (hsigned.1.unique hx ▸ hy')
    exact hdistinct.1 (hsame ▸ List.getElem_mem hn')

end Threshold

/-! ## The reachable configurations -/

/-- A threshold that the configured witnesses can meet. -/
structure WitnessesOk (v : VerifierConfig) : Prop where
  positive : 1 ≤ v.required_signatures
  satisfiable : v.required_signatures ≤ v.witnesses.length
  bounded : v.witnesses.length ≤ 2
  nonzero : ∀ w ∈ v.witnesses, w ≠ Bytes.zero 20
  nodup : v.witnesses.Nodup

/-- What a successful toggle did. -/
theorem toggle_ok {α : Type} [DecidableEq α] {entries entries' : List α} {entry : α} {enabled : Bool}
    {room spare : ProgramResult Unit} (h : toggle entries entry enabled room spare = .ok entries') :
    (entry ∉ entries ∧ room = .ok () ∧ entries' = entries ++ [entry])
      ∨ (entry ∈ entries ∧ spare = .ok () ∧ entries' = entries.erase entry) := by
  by_cases hmem : entry ∈ entries
  · cases enabled with
    | true => simp [toggle, hmem, throw, throwThe, MonadExceptOf.throw] at h
    | false =>
      simp only [toggle, hmem, decide_true, bind_eq_ok, pure_eq_ok] at h
      obtain ⟨_, hspare, rfl⟩ := h
      exact .inr ⟨hmem, hspare, rfl⟩
  · cases enabled with
    | true =>
      simp only [toggle, hmem, decide_false, bind_eq_ok, pure_eq_ok] at h
      obtain ⟨_, hroom, rfl⟩ := h
      exact .inl ⟨hmem, hroom, rfl⟩
    | false => simp [toggle, hmem, throw, throwThe, MonadExceptOf.throw] at h

/-- Adding a witness leaves room for two, removing one leaves enough for the threshold. -/
theorem set_verifier_witness_ok {accounts : ConfigureVerifier} {witness : Bytes 20} {enabled : Bool}
    {protocol : ProtocolConfig} {v v' : VerifierConfig}
    (h : handle_set_verifier_witness accounts witness enabled protocol v = .ok v')
    (hv : WitnessesOk v) : WitnessesOk v' := by
  simp only [handle_set_verifier_witness, bind_eq_ok, require_eq_ok, exists_const, pure_eq_ok] at h
  obtain ⟨_, -, hnonzero, ws, htoggle, rfl⟩ := h
  -- adding asks for room, removing for enough witnesses left to meet the threshold
  rcases toggle_ok htoggle with ⟨hnew, hroom, rfl⟩ | ⟨hold, hspare, rfl⟩
  · rw [require_eq_ok] at hroom
    have hlength : (v.witnesses ++ [witness]).length = v.witnesses.length + 1 := List.length_append
    refine ⟨hv.positive, ?_, ?_, ?_, ?_⟩
    · exact hlength ▸ hv.satisfiable.trans (Nat.le_succ _)
    · exact hlength ▸ hroom
    · intro w hw
      rcases List.mem_append.mp hw with hw | hw
      · exact hv.nonzero w hw
      · exact List.mem_singleton.mp hw ▸ hnonzero
    · show (v.witnesses ++ [witness]).Nodup
      rw [← List.concat_eq_append, List.nodup_concat]
      exact ⟨hnew, hv.nodup⟩
  · simp only [bind_eq_ok, ok_or_eq_ok, Checked.sub_eq_some, require_eq_ok] at hspare
    obtain ⟨_, ⟨-, rfl⟩, hspare⟩ := hspare
    have hlength := List.length_erase_of_mem hold
    refine ⟨hv.positive, ?_, ?_, ?_, hv.nodup.erase witness⟩
    · exact hlength ▸ hspare
    · exact hlength ▸ (Nat.sub_le _ _).trans hv.bounded
    · intro w hw
      exact hv.nonzero w (List.mem_of_mem_erase hw)

/-- Every change of the witness set leaves the threshold reachable. -/
theorem witnesses_step {rt : Runtime} {e : Event} (hv : e.Valid (step rt))
    (hs : WitnessesOk e.pre.verifier) : WitnessesOk e.post.verifier := by
  rcases (config_move hv).verifier with hsame | ⟨ix, -, hok⟩
  · rwa [hsame]
  · cases ix with
    | set_verifier_payment_method accounts payment_method enabled =>
      simp only [VerifierInstruction.execute, handle_set_verifier_payment_method, bind_eq_ok,
        pure_eq_ok] at hok
      obtain ⟨_, -, _, -, _, -, hpost⟩ := hok
      rw [← hpost]
      exact ⟨hs.positive, hs.satisfiable, hs.bounded, hs.nonzero, hs.nodup⟩
    | set_verifier_witness accounts witness enabled => exact set_verifier_witness_ok hok hs
    | set_required_signatures accounts required =>
      simp only [VerifierInstruction.execute, handle_set_required_signatures, bind_eq_ok,
        require_eq_ok, exists_const, pure_eq_ok] at hok
      obtain ⟨_, -, hpositive, hsatisfiable, hpost⟩ := hok
      rw [← hpost]
      exact ⟨hpositive, hsatisfiable, hs.bounded, hs.nonzero, hs.nodup⟩

/-- Initialization checks the same conditions on the first witness set. -/
theorem genesis_witnesses {rt : Runtime} {s : State} (h : genesis rt s) : WitnessesOk s.verifier := by
  obtain ⟨_, args, _, _, _, _, _, hargs, -, -, rfl⟩ := genesis_initialized h
  exact ⟨hargs.threshold_positive, hargs.threshold_met, hargs.witnesses_bounded,
    hargs.witnesses_nonzero, hargs.witnesses_distinct⟩

/-- Around every event of every run the threshold can be met. -/
theorem Run.witnesses {rt : Runtime} {es : List Event} {s : State} (h : Run rt es s) :
    WitnessesOk s.verifier
      ∧ ∀ e ∈ es, WitnessesOk e.pre.verifier ∧ WitnessesOk e.post.verifier :=
  TxMachine.Run.invariant (I := fun s => WitnessesOk s.verifier) (G := fun _ => True)
    (fun _ hs => genesis_witnesses hs) (fun _ _ hv hs => witnesses_step hv hs) h fun _ _ => trivial

/-- Every reachable configuration asks for between one signature and as many as it has witnesses, at
most two, and against it a list of signatures is accepted exactly if it meets the threshold. Then
distinct witnesses, as many as required, signed the digest, no two signatures are by one key, and
any order of the signatures gives the same result. -/
theorem witness_threshold_exact {rt : Runtime} {es : List Event} {s : State} (h : Run rt es s)
    (digest : Bytes 32) (signatures : List (Bytes 65)) :
    WitnessesOk s.verifier
      ∧ (verify_witness_threshold rt s.verifier digest signatures = .ok ()
        ↔ MeetsThreshold rt s.verifier digest signatures)
      ∧ (verify_witness_threshold rt s.verifier digest signatures = .ok () →
        (∃ ws : List (Bytes 20), ws.Nodup ∧ s.verifier.required_signatures ≤ ws.length
          ∧ ∀ w ∈ ws, w ∈ s.verifier.witnesses ∧ ∃ signature ∈ signatures,
            SignedBy rt digest signature w)
        ∧ signatures.Pairwise fun x y => ∀ address, SignedBy rt digest x address →
          ¬ SignedBy rt digest y address)
      ∧ ∀ signatures', signatures'.Perm signatures →
        verify_witness_threshold rt s.verifier digest signatures'
          = verify_witness_threshold rt s.verifier digest signatures := by
  refine ⟨(Run.witnesses h).1, verify_witness_threshold_ok, fun hok => ?_, fun signatures' hperm => ?_⟩
  · have hmeets := verify_witness_threshold_ok.mp hok
    exact ⟨hmeets.signers, hmeets.pairwise⟩
  · exact verify_witness_threshold_perm hperm

/-- After a second witness was added on the sample cluster, the threshold accepts the sample
signature, which one of the two made. -/
theorem witness_threshold_exact_sample :
    ∃ es s, Run sample_runtime es s ∧ s.verifier.witnesses.length = 2
      ∧ MeetsThreshold sample_runtime s.verifier sample_digest [sample_signature]
      ∧ WitnessesOk s.verifier := by
  obtain ⟨es, s, hrun, hgood⟩ := sample_reaches
    [(sample_ctx 1000, [.program (.verifier (.set_verifier_witness ⟨sample_authority⟩
      (Bytes.replicate 20 7) true))])]
    (fun _ s => decide (s.verifier.witnesses.length = 2)
      && (verify_witness_threshold sample_runtime s.verifier sample_digest
        [sample_signature]).toOption.isSome) (by decide +kernel)
  simp only [Bool.and_eq_true, decide_eq_true_eq] at hgood
  obtain ⟨_, hok⟩ := exists_of_isSome hgood.2
  obtain ⟨hinv, hiff, -⟩ := witness_threshold_exact hrun sample_digest [sample_signature]
  exact ⟨es, s, hrun, hgood.1, hiff.mp hok, hinv⟩

end Zkp2pSolana
