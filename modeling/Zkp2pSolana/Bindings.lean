/-
A payment releases escrow at most once.

`fulfill_intent` writes one record from the payment's nullifier to the intent and
one back, both fresh, and nothing else writes either. So the two maps are inverse
to each other in every state, a record that exists stays what it is, and of two
proof releases in a run the later one found the records of the earlier: it is for
another payment and for another intent. None of this rests on the hash function
being free of collisions; a collision would refuse a release, not repeat one.
-/
import Zkp2pSolana.LifecycleMoves

set_option autoImplicit false

namespace Zkp2pSolana

open Result Zkp2pError

/-- Where a nullifier's binding sits. -/
abbrev binding_of (nullifier : Bytes 32) : Pubkey :=
  payment_binding_address verifier_address nullifier

/-- Where an intent's binding sits. -/
abbrev intent_binding_of (hash : Bytes 32) : Pubkey :=
  intent_payment_binding_address verifier_address hash

/-! ## What writes a binding -/

/-- The event is a proof release; it binds the nullifier of its payment and the hash of its
intent, both unbound before. -/
structure ProofRelease (rt : Runtime) (s s' : State) (accounts : FulfillIntent)
    (args : FulfillIntentArgs) (i : Intent) : Prop where
  intent : s.intents.lookup accounts.intent = some i
  hash : i.intent_hash = args.attestation.intent_hash
  nullifier : payment_nullifier rt args.attestation.payment.method
    args.attestation.payment.payment_id = args.expected_nullifier
  payment_fresh : s.payment_bindings.lookup (binding_of args.expected_nullifier) = none
  intent_fresh : s.intent_payment_bindings.lookup (intent_binding_of i.intent_hash) = none
  payment_bound : s'.payment_bindings = s.payment_bindings.insert
    (binding_of args.expected_nullifier) ⟨verifier_address, args.expected_nullifier, i.intent_hash⟩
  intent_bound : s'.intent_payment_bindings = s.intent_payment_bindings.insert
    (intent_binding_of i.intent_hash) ⟨verifier_address, i.intent_hash, args.expected_nullifier⟩

/-- What a verified attestation says about its nullifier: it is the hash of the payment's method and
id. -/
theorem verify_payment_attestation_ok {rt : Runtime} {key : Pubkey} {verifier : VerifierConfig}
    {i : Intent} {attestation : PaymentAttestation} {nullifier : Bytes 32}
    (h : verify_payment_attestation rt key verifier i attestation = .ok nullifier) :
    payment_nullifier rt attestation.payment.method attestation.payment.payment_id
      = nullifier := by
  simp only [verify_payment_attestation, bind_eq_ok, pure_eq_ok] at h
  obtain ⟨_, -, _, -, _, -, _, -, _, -, _, -, _, -, _, -, _, -, _, -, _, -, hnullifier⟩ := h
  exact hnullifier

theorem settle_intent_bindings {ctx : TxContext} {k : Pubkey} {live : LiveIntent}
    {tokens : SettlementTokenAccounts} {dispute : SettlementDisputeAccounts}
    {remaining_accounts : List AccountInfo} {released : ℕ} {s s' : State}
    (h : settle_intent ctx k live tokens dispute remaining_accounts released s = .ok s') :
    s'.toVerifierRecords = s.toVerifierRecords := by
  obtain ⟨s₂, deposit, T, hdispute, -, -, rfl⟩ := settle_intent_ok h
  rcases settle_dispute_ok hdispute with ⟨-, rfl⟩ | ⟨-, -, _, _, _, _, hsettled⟩
  · rfl
  · have hsame : s₂.toVerifierRecords = s.toVerifierRecords := by rw [hsettled.post]
    exact hsame

/-- A fulfilment is a proof release of the intent it names. -/
theorem fulfill_intent_release {rt : Runtime} {ctx : TxContext} {accounts : FulfillIntent}
    {args : FulfillIntentArgs} {s s' : State}
    (h : handle_fulfill_intent rt ctx accounts args s = .ok s') :
    ∃ i, ProofRelease rt s s' accounts args i := by
  obtain ⟨live, s₁, hlive, hhash, hpayment, hintent, hverify, hsettle, rfl⟩ := fulfill_intent_ok h
  obtain ⟨hi, -⟩ := live_intent_ok hlive
  have hsame := settle_intent_bindings hsettle
  refine ⟨live.intent, hi, hhash, verify_payment_attestation_ok hverify, hpayment, hintent, ?_, ?_⟩
  · rw [← hsame]
    rfl
  · rw [← hsame]
    rfl

/-- An instruction leaves the bindings alone or is a proof release. -/
theorem LifecycleMove.binding_write {rt : Runtime} {ctx : TxContext} {after : List TopLevel}
    {s s' : State} {ix : TopLevel} (h : LifecycleMove rt ctx after s s' ix) :
    (s'.payment_bindings = s.payment_bindings
        ∧ s'.intent_payment_bindings = s.intent_payment_bindings)
      ∨ ∃ accounts args i, ix = .program (.fulfill_intent accounts args)
        ∧ ProofRelease rt s s' accounts args i := by
  -- one case for each way an instruction can move intents or coverage; only the fulfilment reaches
  -- the verifier's records
  cases h with
  | idle frame => exact .inl ⟨frame.payment_bindings, frame.intent_payment_bindings⟩
  | signal_intent signaled =>
    rw [signaled.post]
    exact .inl ⟨rfl, rfl⟩
  | cancel_intent ok =>
    obtain ⟨_, _, _, -, -, -, -, -, -, rfl⟩ := cancel_intent_ok ok
    exact .inl ⟨rfl, rfl⟩
  | prune_expired_intent ok =>
    obtain ⟨_, _, _, -, -, hprune, -, rfl⟩ := prune_expired_intent_ok ok
    rcases prune_dispute_ok hprune with ⟨-, rfl⟩ | ⟨-, _, _, _, _, hcancelled⟩
    · exact .inl ⟨rfl, rfl⟩
    · have hpost := hcancelled.post
      subst hpost
      exact .inl ⟨rfl, rfl⟩
  | prepare_dispute prepared follows =>
    rw [prepared.post]
    exact .inl ⟨rfl, rfl⟩
  | cancel_dispute ok =>
    rw [cancel_dispute_rest ok]
    exact .inl ⟨rfl, rfl⟩
  | release_matured_dispute ok =>
    obtain ⟨_, _, _, _, -, -, -, -, -, -, -, -, rfl⟩ := release_matured_dispute_ok ok
    exact .inl ⟨rfl, rfl⟩
  | submit_dispute ok =>
    obtain ⟨_, _, _, _, _, _, hdisputed, -⟩ := submit_dispute_ok ok
    rw [hdisputed.post]
    exact .inl ⟨rfl, rfl⟩
  | fulfill_intent ok =>
    obtain ⟨i, hrelease⟩ := fulfill_intent_release ok
    exact .inr ⟨_, _, i, rfl, hrelease⟩
  | manual_release ok =>
    obtain ⟨_, -, -, -, hsettle⟩ := manual_release_ok ok
    rw [settle_intent_bindings hsettle]
    exact .inl ⟨rfl, rfl⟩

/-! ## The two maps are inverse -/

/-- The binding of a nullifier and the binding of an intent hash name each other. -/
def BindingsInverse (s : State) : Prop :=
  ∀ n hash,
    (∃ b, s.payment_bindings.lookup (binding_of n) = some b ∧ b.intent_hash = hash)
      ↔ ∃ b, s.intent_payment_bindings.lookup (intent_binding_of hash) = some b ∧ b.nullifier = n

/-- Different payments have different binding addresses. -/
theorem binding_of_inj {n n' : Bytes 32} (h : binding_of n = binding_of n') : n = n' := by
  injection h

theorem intent_binding_of_inj {hash hash' : Bytes 32}
    (h : intent_binding_of hash = intent_binding_of hash') : hash = hash' := by
  injection h

/-- A release writes the two bindings together, so they stay inverse to each other. -/
theorem ProofRelease.inverse {rt : Runtime} {s s' : State} {accounts : FulfillIntent}
    {args : FulfillIntentArgs} {i : Intent} (h : ProofRelease rt s s' accounts args i)
    (hs : BindingsInverse s) : BindingsInverse s' := by
  intro n hash
  rw [h.payment_bound, h.intent_bound, Finmap.lookup_insert_ite, Finmap.lookup_insert_ite]
  -- the new pair on both sides, on one side, or on neither
  by_cases hn : n = args.expected_nullifier
  · subst hn
    rw [if_pos rfl]
    by_cases hh : hash = i.intent_hash
    · subst hh
      rw [if_pos rfl]
      exact ⟨fun _ => ⟨_, rfl, rfl⟩, fun _ => ⟨_, rfl, rfl⟩⟩
    · rw [if_neg (fun heq => hh (intent_binding_of_inj heq))]
      constructor
      · rintro ⟨b, hb, rfl⟩
        cases hb
        exact absurd rfl hh
      · -- an old record back to this nullifier would have bound it already
        intro hback
        obtain ⟨b, hb, -⟩ := (hs args.expected_nullifier hash).mpr hback
        rw [h.payment_fresh] at hb
        exact absurd hb (by simp)
  · rw [if_neg (fun heq => hn (binding_of_inj heq))]
    by_cases hh : hash = i.intent_hash
    · subst hh
      rw [if_pos rfl]
      constructor
      · intro hforth
        obtain ⟨b, hb, -⟩ := (hs n i.intent_hash).mp hforth
        rw [h.intent_fresh] at hb
        exact absurd hb (by simp)
      · rintro ⟨b, hb, rfl⟩
        cases hb
        exact absurd rfl hn
    · rw [if_neg (fun heq => hh (intent_binding_of_inj heq))]
      exact hs n hash

/-! ## Runs -/

/-- No event changes or removes a record, and only a proof release creates one. -/
structure BindingsKept (e : Event) : Prop where
  payment : ∀ k b, e.pre.payment_bindings.lookup k = some b →
    e.post.payment_bindings.lookup k = some b
  intent : ∀ k b, e.pre.intent_payment_bindings.lookup k = some b →
    e.post.intent_payment_bindings.lookup k = some b
  created : (∀ accounts args, e.ix ≠ .program (.fulfill_intent accounts args)) →
    e.post.payment_bindings = e.pre.payment_bindings
      ∧ e.post.intent_payment_bindings = e.pre.intent_payment_bindings

/-- Two proof releases are for different payments and for different intents. -/
def DistinctReleases (e e' : Event) : Prop :=
  ∀ accounts args accounts' args', e.ix = .program (.fulfill_intent accounts args) →
    e'.ix = .program (.fulfill_intent accounts' args') →
    (args.attestation.payment.method, args.attestation.payment.payment_id)
        ≠ (args'.attestation.payment.method, args'.attestation.payment.payment_id)
      ∧ ∀ i i', e.pre.intents.lookup accounts.intent = some i →
        e'.pre.intents.lookup accounts'.intent = some i' → i.intent_hash ≠ i'.intent_hash

theorem lookup_insert_fresh {α : Type} {m : Accounts α} {k k' : Pubkey} {v w : α}
    (hfresh : m.lookup k = none) (hw : m.lookup k' = some w) :
    (m.insert k v).lookup k' = some w := by
  rw [Finmap.lookup_insert_of_ne _ ?_, hw]
  rintro rfl
  rw [hfresh] at hw
  exact absurd hw (by simp)

/-- No event removes or rewrites a binding, and only a fulfilment creates one. -/
theorem bindings_kept {rt : Runtime} {e : Event} (hv : e.Valid (step rt)) : BindingsKept e := by
  rcases (lifecycle_move hv).binding_write with ⟨hpayment, hintent⟩
    | ⟨accounts, args, i, hix, hrelease⟩
  · refine ⟨fun k b hb => ?_, fun k b hb => ?_, fun _ => ⟨hpayment, hintent⟩⟩
    · rw [hpayment, hb]
    · rw [hintent, hb]
  · refine ⟨fun k b hb => ?_, fun k b hb => ?_, fun hnot => absurd hix (hnot accounts args)⟩
    · rw [hrelease.payment_bound]
      exact lookup_insert_fresh hrelease.payment_fresh hb
    · rw [hrelease.intent_bound]
      exact lookup_insert_fresh hrelease.intent_fresh hb

/-- What a proof release leaves in the ledger for good. -/
def ReleaseRecorded (e : Event) (s : State) : Prop :=
  ∀ accounts args, e.ix = .program (.fulfill_intent accounts args) →
    (∃ b, s.payment_bindings.lookup (binding_of args.expected_nullifier) = some b)
      ∧ ∃ b, s.intent_payment_bindings.lookup
          (intent_binding_of args.attestation.intent_hash) = some b

theorem proof_release_of_event {rt : Runtime} {e : Event} (hv : e.Valid (step rt))
    {accounts : FulfillIntent} {args : FulfillIntentArgs}
    (hix : e.ix = .program (.fulfill_intent accounts args)) :
    ∃ i, ProofRelease rt e.pre e.post accounts args i := by
  have hok : e.ix.execute rt e.ctx e.before e.after e.pre = .ok e.post := hv
  rw [hix] at hok
  exact fulfill_intent_release hok

/-- Right after a fulfilment both its bindings are on record. -/
theorem release_recorded {rt : Runtime} (e : Event) (hv : e.Valid (step rt)) :
    ReleaseRecorded e e.post := by
  intro accounts args hix
  obtain ⟨i, hrelease⟩ := proof_release_of_event hv hix
  rw [hrelease.payment_bound, hrelease.intent_bound, ← hrelease.hash]
  exact ⟨⟨_, Finmap.lookup_insert _⟩, ⟨_, Finmap.lookup_insert _⟩⟩

/-- Both bindings stay on record: no event removes one. -/
theorem ReleaseRecorded.kept {rt : Runtime} (e e' : Event) (hv : e'.Valid (step rt))
    (h : ReleaseRecorded e e'.pre) : ReleaseRecorded e e'.post := by
  intro accounts args hix
  obtain ⟨⟨b, hb⟩, b', hb'⟩ := h accounts args hix
  have hkept := bindings_kept hv
  exact ⟨⟨b, hkept.payment _ b hb⟩, b', hkept.intent _ b' hb'⟩

/-- A release that finds the records of another one is a different release. -/
theorem ReleaseRecorded.distinct {rt : Runtime} {e e' : Event} (hv : e.Valid (step rt))
    (hv' : e'.Valid (step rt)) (h : ReleaseRecorded e e'.pre) : DistinctReleases e e' := by
  intro accounts args accounts' args' hix hix'
  obtain ⟨i, hrelease⟩ := proof_release_of_event hv hix
  obtain ⟨i', hrelease'⟩ := proof_release_of_event hv' hix'
  obtain ⟨⟨b, hb⟩, b', hb'⟩ := h accounts args hix
  -- a shared payment or intent would meet an account that exists, and `init` refuses it
  constructor
  · intro heq
    obtain ⟨hmethod, hpayment⟩ := Prod.mk.inj heq
    have hsame : args.expected_nullifier = args'.expected_nullifier := by
      rw [← hrelease.nullifier, ← hrelease'.nullifier, hmethod, hpayment]
    rw [hsame, hrelease'.payment_fresh] at hb
    exact absurd hb (by simp)
  · intro j j' hj hj' heq
    rw [hrelease.intent] at hj
    rw [hrelease'.intent] at hj'
    cases hj
    cases hj'
    rw [← hrelease.hash, heq, hrelease'.intent_fresh] at hb'
    exact absurd hb' (by simp)

/-- In every run the bindings are an immutable bijection written by proof releases alone, and no
two proof releases share a payment or an intent. -/
theorem payments_released_once {rt : Runtime} {es : List Event} {s : State} (h : Run rt es s) :
    BindingsInverse s
      ∧ (∀ e ∈ es, BindingsInverse e.pre ∧ BindingsInverse e.post ∧ BindingsKept e)
      ∧ es.Pairwise DistinctReleases := by
  have hinverse := TxMachine.Run.invariant (I := BindingsInverse) (G := fun _ => True) ?_ ?_ h
    fun _ _ => trivial
  · refine ⟨hinverse.1, fun e he => ?_, ?_⟩
    · obtain ⟨hpre, hpost⟩ := hinverse.2 e he
      exact ⟨hpre, hpost, bindings_kept (TxMachine.Run.valid h e he)⟩
    -- a release leaves its records for good, so every later event starts from them
    · obtain ⟨hpairs, -⟩ :=
        TxMachine.Run.pairwise_of_stable (G := fun _ => True) (fun e _ hv => release_recorded e hv)
          (fun e e' _ hv hkept => ReleaseRecorded.kept e e' hv hkept) h fun _ _ => trivial
      refine hpairs.imp_of_mem fun he he' hrecorded => ?_
      exact hrecorded.distinct (TxMachine.Run.valid h _ he) (TxMachine.Run.valid h _ he')
  · intro s₀ h₀ n hash
    obtain ⟨_, _, _, _, _, _, _, rfl, -⟩ := genesis_ok h₀
    simp [initial_state]
  · intro e _ hv hs
    rcases (lifecycle_move hv).binding_write with ⟨hpayment, hintent⟩ | ⟨_, _, _, -, hrelease⟩
    · intro n hash
      rw [hpayment, hintent]
      exact hs n hash
    · exact hrelease.inverse hs

/-- The covered intent of the sample cluster is released by a witnessed payment. -/
def sample_fulfill : TxContext × List TopLevel :=
  (sample_ctx 3000,
    [.program (.fulfill_intent
      ⟨sample_taker, sample_intent, sample_settlement_tokens, sample_settlement_dispute, []⟩
      { attestation :=
          { intent_hash := sample_hash
            release_amount := 100
            data_hash := sample_data_hash
            signatures := [sample_signature]
            payment := ⟨sample_word 21, sample_word 22, 1000, sample_word 23, 2500000, sample_word 24⟩
            snapshot := ⟨sample_hash, 100, sample_word 21, sample_word 23, sample_word 22, 10, 2000,
              0⟩ }
        expected_nullifier := sample_nullifier })])

/-- A run with a proof release. -/
theorem payments_released_once_fulfilled :
    ∃ es s, Run sample_runtime es s
      ∧ (s.payment_bindings.lookup (binding_of sample_nullifier)).isSome = true ∧ BindingsInverse s
      ∧ (∀ e ∈ es, BindingsInverse e.pre ∧ BindingsInverse e.post ∧ BindingsKept e)
      ∧ es.Pairwise DistinctReleases := by
  obtain ⟨es, s, hrun, hbound⟩ := sample_reaches [sample_setup, sample_cover, sample_fulfill]
    (fun _ s => (s.payment_bindings.lookup (binding_of sample_nullifier)).isSome) (by decide +kernel)
  exact ⟨es, s, hrun, hbound, payments_released_once hrun⟩

end Zkp2pSolana
