/-
Which disputes a run can accept.

A dispute is accepted against one settled coverage record, for the payment that
released the escrow, under an identifier of the provider. Four records decide it.
The coverage record ends in `Disputed` and stays there, so a hash is disputed
once. The binding of the intent was written by its proof release, so the payment
is the one that was consumed. The nonce never goes back, so a hash whose intent
ended some other way never gets a binding. The dispute's own nullifier is created
and never closed, so an identifier is used once over all intents.
-/
import Zkp2pSolana.Bindings
import Zkp2pSolana.Custody
import Zkp2pSolana.Digests
import Zkp2pSolana.DisputeHistory

set_option autoImplicit false

namespace Zkp2pSolana

open Result Zkp2pError

/-- The event accepts a dispute against the intent hash. -/
def Submits (e : Event) (hash : Bytes 32) : Prop :=
  ∃ accounts args, e.ix = .program (.submit_dispute accounts args)
    ∧ args.attestation.intent_hash = hash

/-- The event accepts a dispute under the provider's identifier. -/
def Accepts (e : Event) (payment_method dispute_id : Bytes 32) : Prop :=
  ∃ accounts args, e.ix = .program (.submit_dispute accounts args)
    ∧ args.attestation.details.payment_method = payment_method
    ∧ args.attestation.details.dispute_id = dispute_id

/-- The event releases the intent of the hash against a proof of the payment. -/
def Consumes (e : Event) (hash payment_method payment_id : Bytes 32) : Prop :=
  ∃ accounts args i, e.ix = .program (.fulfill_intent accounts args)
    ∧ e.pre.intents.lookup accounts.intent = some i ∧ i.intent_hash = hash
    ∧ args.attestation.payment.method = payment_method
    ∧ args.attestation.payment.payment_id = payment_id

/-- The intent an instruction closes without the proof of a payment. -/
def closed_without_proof : TopLevel → Option Pubkey
  | .program (.manual_release accounts) => some accounts.intent
  | .program (.cancel_intent accounts) => some accounts.intent
  | .program (.prune_expired_intent accounts) => some accounts.intent
  | _ => none

/-- The event ends the intent of the hash through a manual release, a cancellation or a prune. -/
def EndsUnproven (e : Event) (hash : Bytes 32) : Prop :=
  ∃ k i, closed_without_proof e.ix = some k ∧ e.pre.intents.lookup k = some i
    ∧ i.intent_hash = hash

/-- The coverage of the hash was disputed. -/
def IsDisputed (s : State) (hash : Bytes 32) : Prop :=
  ∃ d, s.coverage_at hash = some d ∧ d.status = .Disputed

/-- The stream whose hash is the payment nullifier an instruction checks. -/
def payment_stream : TopLevel → Option (List UInt8)
  | .program (.fulfill_intent _ args) =>
    some (args.attestation.payment.method.toList ++ args.attestation.payment.payment_id.toList)
  | .program (.submit_dispute _ args) =>
    some (args.attestation.details.payment_method.toList
      ++ args.attestation.details.original_payment_id.toList)
  | _ => none

/-- The payment streams of a run. -/
def payment_streams (es : List Event) : List (List UInt8) :=
  es.filterMap fun e => payment_stream e.ix

/-! ## What one event does -/

section Events

variable {rt : Runtime} {e : Event}

/-- An accepted dispute shows the payment that bound its intent. -/
theorem submit_dispute_payment {accounts : SubmitDispute} {args : SubmitDisputeArgs}
    (hv : e.Valid (step rt)) (hix : e.ix = .program (.submit_dispute accounts args)) :
    ∃ b, e.pre.intent_payment_bindings.lookup (intent_binding_of args.attestation.intent_hash)
        = some b
      ∧ payment_nullifier rt args.attestation.details.payment_method
        args.attestation.details.original_payment_id = b.nullifier := by
  have ok : handle_submit_dispute rt accounts args e.pre = .ok e.post := valid_execute hv hix
  obtain ⟨_, _, _, _, _, _, -, -, hverify⟩ := submit_dispute_ok ok
  simp only [verify_dispute_evidence, bind_eq_ok, load_eq_ok, require_eq_ok, exists_const] at hverify
  obtain ⟨_, -, b, hb, -, -, -, -, -, -, -, -, -, -, -, hnullifier, -⟩ := hverify
  exact ⟨b, hb, hnullifier.symm⟩

/-- Its nullifier is the hash of its identifier, fresh before and taken after. -/
theorem submit_dispute_nullifier {accounts : SubmitDispute} {args : SubmitDisputeArgs}
    (hv : e.Valid (step rt)) (hix : e.ix = .program (.submit_dispute accounts args)) :
    rt.keccak (args.attestation.details.payment_method.toList
        ++ args.attestation.details.dispute_id.toList) = args.expected_dispute_nullifier
      ∧ e.pre.dispute_nullifiers.lookup
        (dispute_nullifier_address dispute_config_address args.expected_dispute_nullifier) = none
      ∧ ∃ n, e.post.dispute_nullifiers = e.pre.dispute_nullifiers.insert
        (dispute_nullifier_address dispute_config_address args.expected_dispute_nullifier) n := by
  have ok : handle_submit_dispute rt accounts args e.pre = .ok e.post := valid_execute hv hix
  obtain ⟨_, _, _, _, _, _, hdisputed, hfresh, hverify⟩ := submit_dispute_ok ok
  simp only [verify_dispute_evidence, bind_eq_ok, load_eq_ok, require_eq_ok, exists_const] at hverify
  obtain ⟨_, -, _, -, -, -, -, -, -, -, -, hnullifier, -⟩ := hverify
  exact ⟨hnullifier, hfresh, _, congrArg (·.dispute_nullifiers) hdisputed.post⟩

/-- It finds the coverage settled and leaves it disputed. -/
theorem Submits.coverage {hash : Bytes 32} (hv : e.Valid (step rt)) (h : Submits e hash) :
    ¬ IsDisputed e.pre hash ∧ IsDisputed e.post hash := by
  obtain ⟨accounts, args, hix, rfl⟩ := h
  have ok : handle_submit_dispute rt accounts args e.pre = .ok e.post := valid_execute hv hix
  obtain ⟨d, _, _, _, _, _, hdisputed, -⟩ := submit_dispute_ok ok
  constructor
  · rintro ⟨d', hd', hstatus⟩
    unfold DisputeRecords.coverage_at at hd'
    rw [hdisputed.dispute_eq] at hd'
    cases hd'
    rw [hdisputed.settled] at hstatus
    cases hstatus
  · refine ⟨{ d with status := .Disputed }, ?_, rfl⟩
    unfold DisputeRecords.coverage_at
    rw [hdisputed.post, Finmap.lookup_insert]

/-- Nothing was disputed between the two states. -/
structure Undisputed (s s' : State) : Prop where
  nullifiers : s'.dispute_nullifiers = s.dispute_nullifiers
  coverage : ∀ hash, IsDisputed s' hash → IsDisputed s hash

/-- Untouched dispute records say that nothing was disputed. -/
theorem Undisputed.of_same {s s' : State} (hnullifiers : s'.dispute_nullifiers = s.dispute_nullifiers)
    (hsame : s'.dispute_intents = s.dispute_intents) : Undisputed s s' := by
  refine ⟨hnullifiers, ?_⟩
  rintro hash ⟨d, hd, hstatus⟩
  unfold DisputeRecords.coverage_at at hd
  rw [hsame] at hd
  exact ⟨d, hd, hstatus⟩

/-- A record was written with another status. -/
theorem Undisputed.of_insert {s s' : State} {k : Pubkey} {d : DisputeIntent}
    (hnullifiers : s'.dispute_nullifiers = s.dispute_nullifiers)
    (hinsert : s'.dispute_intents = s.dispute_intents.insert k d) (hne : d.status ≠ .Disputed) :
    Undisputed s s' := by
  refine ⟨hnullifiers, ?_⟩
  rintro hash ⟨d', hd', hstatus⟩
  unfold DisputeRecords.coverage_at at hd'
  rw [hinsert, Finmap.lookup_insert_ite] at hd'
  split_ifs at hd' with hk
  · cases hd'
    exact absurd hstatus hne
  · exact ⟨d', hd', hstatus⟩

theorem settle_intent_undisputed {ctx : TxContext} {k : Pubkey} {live : LiveIntent}
    {tokens : SettlementTokenAccounts} {dispute : SettlementDisputeAccounts}
    {remaining_accounts : List AccountInfo} {released : ℕ} {s s' : State}
    (h : settle_intent ctx k live tokens dispute remaining_accounts released s = .ok s') :
    Undisputed s s' := by
  obtain ⟨s₂, deposit, T, hdispute, -, -, rfl⟩ := settle_intent_ok h
  rcases settle_dispute_ok hdispute with ⟨-, rfl⟩ | ⟨-, -, _, _, _, _, hsettled⟩
  · exact .of_same rfl rfl
  · have hpost := hsettled.post
    subst hpost
    exact .of_insert rfl rfl (by simp)

/-- Only `submit_dispute` disputes. -/
theorem undisputed_or_submits {ctx : TxContext} {before after : List TopLevel} {s s' : State}
    {ix : TopLevel} (hcanonical : CoverageCanonical s.toDisputeRecords)
    (h : ix.execute rt ctx before after s = .ok s') :
    Undisputed s s' ∨ ∃ accounts args, ix = .program (.submit_dispute accounts args) := by
  cases ix with
  | ed25519 data | external tokens =>
    simp only [TopLevel.execute, bind_eq_ok, require_eq_ok, exists_const, pure_eq_ok] at h
    obtain ⟨-, rfl⟩ := h
    exact .inl (.of_same rfl rfl)
  | program ix =>
    cases ix with
    | open_records ix | rate_managers ix | whitelists ix | verifier ix | deposit_config ix =>
      simp only [TopLevel.execute, Instruction.execute, bind_eq_ok, pure_eq_ok] at h
      obtain ⟨_, -, rfl⟩ := h
      exact .inl (.of_same rfl rfl)
    | custody ix | stake ix =>
      simp only [TopLevel.execute, Instruction.execute, bind_eq_ok, pure_eq_ok, Prod.exists] at h
      obtain ⟨_, _, -, rfl⟩ := h
      exact .inl (.of_same rfl rfl)
    | governance ix =>
      obtain ⟨hframe, -⟩ := governance_ok h
      refine .inl (.of_same ?_ ?_)
      · rw [hframe.dispute]
      · rw [hframe.dispute]
    | dispute_policy ix =>
      simp only [TopLevel.execute, Instruction.execute, bind_eq_ok, pure_eq_ok] at h
      obtain ⟨r, h, rfl⟩ := h
      obtain ⟨hcoverage, hnullifiers, -⟩ := dispute_policy_keeps h
      exact .inl (.of_same hnullifiers hcoverage)
    -- of the lifecycle instructions five write a coverage record, each with its own status
    | signal_intent accounts args =>
      obtain ⟨_, _, _, _, _, _, hsignaled⟩ := signal_intent_ok h
      have hpost := hsignaled.post
      subst hpost
      exact .inl (.of_same rfl rfl)
    | cancel_intent accounts =>
      obtain ⟨_, _, _, -, -, -, -, -, -, rfl⟩ := cancel_intent_ok h
      exact .inl (.of_same rfl rfl)
    | prune_expired_intent accounts =>
      obtain ⟨_, _, _, -, -, hprune, -, rfl⟩ := prune_expired_intent_ok h
      rcases prune_dispute_ok hprune with ⟨-, rfl⟩ | ⟨-, _, _, _, _, hcancelled⟩
      · exact .inl (.of_same rfl rfl)
      · have hpost := hcancelled.post
        subst hpost
        exact .inl (.of_insert rfl rfl (by simp))
    | prepare_dispute accounts args =>
      obtain ⟨_, _, _, _, _, _, hprepared, -⟩ := prepare_dispute_ok h
      have hpost := hprepared.post
      subst hpost
      exact .inl (.of_insert rfl rfl (by simp [new_dispute_intent]))
    | cancel_dispute accounts =>
      obtain ⟨_, _, _, _, _, _, -, -, hcancelled, -⟩ := cancel_dispute_ok hcanonical h
      have hpost := hcancelled.post
      subst hpost
      exact .inl (.of_insert rfl rfl (by simp))
    | release_matured_dispute accounts =>
      obtain ⟨_, _, _, _, -, -, -, -, -, -, -, -, rfl⟩ := release_matured_dispute_ok h
      exact .inl (.of_insert rfl rfl (by simp))
    | submit_dispute accounts args => exact .inr ⟨accounts, args, rfl⟩
    | fulfill_intent accounts args =>
      obtain ⟨_, s₁, -, -, -, -, -, hsettle, rfl⟩ := fulfill_intent_ok h
      obtain ⟨hnullifiers, hcoverage⟩ := settle_intent_undisputed hsettle
      exact .inl ⟨hnullifiers, hcoverage⟩
    | manual_release accounts =>
      obtain ⟨_, -, -, -, hsettle⟩ := manual_release_ok h
      exact .inl (settle_intent_undisputed hsettle)

/-- Every way to end an intent removes the intent of the hash. -/
def Closes (e : Event) (hash : Bytes 32) : Prop :=
  ∃ k i, e.pre.intents.lookup k = some i ∧ i.intent_hash = hash
    ∧ e.post.intents = e.pre.intents.erase k

theorem settle_intent_intents {ctx : TxContext} {k : Pubkey} {live : LiveIntent}
    {tokens : SettlementTokenAccounts} {dispute : SettlementDisputeAccounts}
    {remaining_accounts : List AccountInfo} {released : ℕ} {s s' : State}
    (h : settle_intent ctx k live tokens dispute remaining_accounts released s = .ok s') :
    s'.intents = s.intents.erase k := by
  obtain ⟨s₂, deposit, T, hdispute, -, -, rfl⟩ := settle_intent_ok h
  rcases settle_dispute_ok hdispute with ⟨-, rfl⟩ | ⟨-, -, _, _, _, _, hsettled⟩
  · rfl
  · have hpost := hsettled.post
    subst hpost
    rfl

/-- An intent that consumes a payment ends. -/
theorem Consumes.closes {hash method payment_id : Bytes 32} (hv : e.Valid (step rt))
    (h : Consumes e hash method payment_id) : Closes e hash := by
  obtain ⟨accounts, args, i, hix, hi, rfl, -⟩ := h
  have ok : handle_fulfill_intent rt e.ctx accounts args e.pre = .ok e.post := valid_execute hv hix
  obtain ⟨_, _, -, -, -, -, -, hsettle, hpost⟩ := fulfill_intent_ok ok
  have herased := settle_intent_intents hsettle
  refine ⟨accounts.intent, i, hi, rfl, ?_⟩
  rw [hpost]
  exact herased

theorem EndsUnproven.closes {hash : Bytes 32} (hv : e.Valid (step rt)) (h : EndsUnproven e hash) :
    Closes e hash := by
  obtain ⟨k, i, hk, hi, rfl⟩ := h
  refine ⟨k, i, hi, rfl, ?_⟩
  unfold closed_without_proof at hk
  -- the three instructions that end an intent without a proof
  split at hk
  · rename_i accounts hix
    cases hk
    have ok : handle_manual_release e.ctx accounts e.pre = .ok e.post := valid_execute hv hix
    obtain ⟨_, -, -, -, hsettle⟩ := manual_release_ok ok
    exact settle_intent_intents hsettle
  · rename_i accounts hix
    cases hk
    have ok : handle_cancel_intent accounts e.pre = .ok e.post := valid_execute hv hix
    obtain ⟨_, _, _, -, -, -, -, -, -, hpost⟩ := cancel_intent_ok ok
    rw [hpost]
    rfl
  · rename_i accounts hix
    cases hk
    have ok : handle_prune_expired_intent e.ctx accounts e.pre = .ok e.post := valid_execute hv hix
    obtain ⟨_, _, _, -, -, hprune, -, hpost⟩ := prune_expired_intent_ok ok
    rw [hpost]
    rcases prune_dispute_ok hprune with ⟨-, rfl⟩ | ⟨-, _, _, _, _, hcancelled⟩
    · rfl
    · rw [hcancelled.post]
      rfl
  · cases hk

end Events

/-! ## An intent ends once

A hash is derived from the nonce of its intent. Once the intent is gone the nonce
has moved on, so no later intent has the hash. -/

/-- The hash belonged to an intent that is gone. -/
structure Spent (rt : Runtime) (s : State) (hash : Bytes 32) : Prop where
  derived : ∃ n, n < s.orchestrator.next_intent_id ∧ n < 2 ^ 64
    ∧ derive_intent_hash rt orchestrator_address n = hash
  gone : ∀ k i, s.intents.lookup k = some i → i.intent_hash ≠ hash

section Ends

variable {rt : Runtime}

/-- The hash of an ended intent is spent, because the counter has passed the nonce it came from. -/
theorem Closes.spent (hinj : NonceInjective rt) {e : Event} {hash : Bytes 32}
    (hv : e.Valid (step rt)) (hledger : LedgerOk e.pre) (hcustody : CustodyInv rt e.pre)
    (h : Closes e hash) : Spent rt e.post hash := by
  obtain ⟨k, i, hi, rfl, herased⟩ := h
  have hintent := hcustody.intents k i hi
  have hnonce := (custody_move hledger.tokens hledger.coverage hv).nonce_le
  refine ⟨⟨i.nonce, hintent.nonce.trans_le hnonce, hintent.nonce.trans hcustody.nonce,
    hintent.hash.symm⟩, ?_⟩
  intro k' i' hi' hhash
  rw [herased, Finmap.lookup_erase_ite] at hi'
  split_ifs at hi' with hk
  exact hk (hcustody.intent_unique hinj hi' hi hhash)

/-- A new intent takes its hash from a later nonce. -/
theorem Spent.kept (hinj : NonceInjective rt) {e : Event} {hash : Bytes 32}
    (hv : e.Valid (step rt)) (hledger : LedgerOk e.pre) (h : Spent rt e.pre hash) :
    Spent rt e.post hash := by
  obtain ⟨⟨n, hn, hword, hderived⟩, hgone⟩ := h
  have hnonce := (custody_move hledger.tokens hledger.coverage hv).nonce_le
  refine ⟨⟨n, hn.trans_le hnonce, hword, hderived⟩, fun k i hi => ?_⟩
  cases hpre : e.pre.intents.lookup k with
  | some j =>
    have hsame := (lifecycle_move hv).intent_kept hledger.coverage hpre hi
    rw [hsame]
    exact hgone k j hpre
  | none =>
    obtain ⟨accounts, args, d, d', a, expiry, state, -, hsignaled⟩ :=
      (lifecycle_move hv).intent_created hledger.coverage hpre hi
    intro hhash
    rw [hsignaled.terms.intent_hash, ← hsignaled.hash, ← hderived] at hhash
    have hle := hsignaled.word
    have heq := hinj _ _ (by omega) hword hhash
    omega

/-- No two events of a run end an intent of one hash. -/
theorem Run.ends_once (hinj : NonceInjective rt) {es : List Event} {s : State} (h : Run rt es s) :
    es.Pairwise fun e e' => ∀ hash, Closes e hash → ¬ Closes e' hash := by
  obtain ⟨-, hinv⟩ := Run.custody hinj h
  have hpairs := TxMachine.Run.pairwise_of_stable (G := (· ∈ es))
    (Q := fun e s => ∀ hash, Closes e hash → Spent rt s hash) ?_ ?_ h fun _ he => he
  · refine hpairs.1.imp fun hspent hash hcloses hcloses' => ?_
    obtain ⟨k, i, hi, hhash, -⟩ := hcloses'
    exact (hspent hash hcloses).gone k i hi hhash
  · intro e he hv hash hcloses
    exact hcloses.spent hinj hv (hinv e he).1.1 (hinv e he).1.2
  · intro e e' he' hv hspent hash hcloses
    exact (hspent hash hcloses).kept hinj hv (hinv e' he').1.1

end Ends

/-! ## A hash is disputed once, under an identifier of its own -/

section Once

variable {rt : Runtime}

/-- `Disputed` is final. -/
theorem IsDisputed.kept {e : Event} {hash : Bytes 32} (hv : e.Valid (step rt))
    (hledger : LedgerOk e.pre) (h : IsDisputed e.pre hash) : IsDisputed e.post hash := by
  obtain ⟨d, hd, hstatus⟩ := h
  refine ⟨d, ?_, hstatus⟩
  unfold DisputeRecords.coverage_at at hd ⊢
  rcases (lifecycle_move hv).coverage_write hledger.coverage with hsame
    | ⟨hash₀, c, c', hc, hstep, hwrite, -⟩ | ⟨accounts, args, _, _, _, _, -, hprepared⟩
  · rw [hsame, hd]
  · rw [hwrite, Finmap.lookup_insert_of_ne _ ?_, hd]
    -- the record that takes a step is in no terminal status
    intro heq
    rw [← heq, hd] at hc
    cases hc
    refine hstep.not_terminal ?_
    rw [hstatus]
    trivial
  · have hinsert : e.post.dispute_intents = _ := congrArg (·.dispute_intents) hprepared.post
    rw [hinsert]
    exact lookup_insert_fresh hprepared.coverage_fresh hd

theorem Run.submits_once {es : List Event} {s : State} (h : Run rt es s) :
    es.Pairwise fun e e' => ∀ hash, Submits e hash → ¬ Submits e' hash := by
  obtain ⟨-, hledger⟩ := Run.ledgerOk h
  have hpairs := TxMachine.Run.pairwise_of_stable (G := (· ∈ es))
    (Q := fun e s => ∀ hash, Submits e hash → IsDisputed s hash) ?_ ?_ h fun _ he => he
  · refine hpairs.1.imp_of_mem fun _ he' hdisputed hash hsubmits hsubmits' => ?_
    have hv' := TxMachine.Run.valid h _ he'
    exact (hsubmits'.coverage hv').1 (hdisputed hash hsubmits)
  · intro e _ hv hash hsubmits
    exact (hsubmits.coverage hv).2
  · intro e e' he' hv hdisputed hash hsubmits
    exact (hdisputed hash hsubmits).kept hv (hledger e' he').1

/-- The nullifier of an accepted dispute is taken for good. -/
def NullifierTaken (e : Event) (s : State) : Prop :=
  ∀ accounts args, e.ix = .program (.submit_dispute accounts args) →
    ∃ n, s.dispute_nullifiers.lookup
      (dispute_nullifier_address dispute_config_address args.expected_dispute_nullifier) = some n

theorem NullifierTaken.kept {e e' : Event} (hv : e'.Valid (step rt)) (hledger : LedgerOk e'.pre)
    (h : NullifierTaken e e'.pre) : NullifierTaken e e'.post := by
  intro accounts args hix
  obtain ⟨n, hn⟩ := h accounts args hix
  rcases undisputed_or_submits hledger.coverage hv with hsame | ⟨accounts', args', hix'⟩
  · exact ⟨n, by rw [hsame.nullifiers, hn]⟩
  · obtain ⟨-, hfresh, n', hinsert⟩ := submit_dispute_nullifier hv hix'
    refine ⟨n, ?_⟩
    rw [hinsert]
    exact lookup_insert_fresh hfresh hn

theorem Run.accepts_once {es : List Event} {s : State} (h : Run rt es s) :
    es.Pairwise fun e e' => ∀ method dispute_id, Accepts e method dispute_id →
      ¬ Accepts e' method dispute_id := by
  obtain ⟨-, hledger⟩ := Run.ledgerOk h
  have hpairs := TxMachine.Run.pairwise_of_stable (G := (· ∈ es)) (Q := NullifierTaken) ?_ ?_ h
    fun _ he => he
  · refine hpairs.1.imp_of_mem fun he he' htaken method dispute_id haccepts haccepts' => ?_
    obtain ⟨accounts, args, hix, rfl, rfl⟩ := haccepts
    obtain ⟨accounts', args', hix', hmethod, hid⟩ := haccepts'
    obtain ⟨hhash, -⟩ := submit_dispute_nullifier (TxMachine.Run.valid h _ he) hix
    obtain ⟨hhash', hfresh', -⟩ := submit_dispute_nullifier (TxMachine.Run.valid h _ he') hix'
    obtain ⟨n, hn⟩ := htaken accounts args hix
    -- one identifier, one nullifier: the later dispute would have met the account of the earlier
    rw [← hhash, ← hmethod, ← hid, hhash', hfresh'] at hn
    cases hn
  · intro e _ hv accounts args hix
    obtain ⟨-, -, n, hinsert⟩ := submit_dispute_nullifier hv hix
    exact ⟨n, by rw [hinsert, Finmap.lookup_insert]⟩
  · intro e e' he' hv htaken
    exact htaken.kept hv (hledger e' he').1

end Once

/-! ## Where a binding and a dispute come from -/

section Origins

variable {rt : Runtime}

/-- Every binding of an intent was written by the release of a payment with its nullifier. -/
def BoundBy (rt : Runtime) (es : List Event) (s : State) : Prop :=
  ∀ hash b, s.intent_payment_bindings.lookup (intent_binding_of hash) = some b →
    ∃ f ∈ es, ∃ method payment_id, Consumes f hash method payment_id
      ∧ payment_nullifier rt method payment_id = b.nullifier

/-- A binding in the state has an earlier fulfilment behind it. -/
theorem BoundBy.step {es : List Event} {e : Event} (hv : e.Valid (step rt))
    (h : BoundBy rt es e.pre) : BoundBy rt (es ++ [e]) e.post := by
  intro hash b hb
  have hearlier : e.pre.intent_payment_bindings.lookup (intent_binding_of hash) = some b →
      ∃ f ∈ es ++ [e], ∃ method payment_id, Consumes f hash method payment_id
        ∧ payment_nullifier rt method payment_id = b.nullifier := by
    intro hb
    obtain ⟨f, hf, hconsumes⟩ := h hash b hb
    exact ⟨f, List.mem_append_left _ hf, hconsumes⟩
  rcases (lifecycle_move hv).binding_write with ⟨-, hsame⟩ | ⟨accounts, args, i, hix, hrelease⟩
  · rw [hsame] at hb
    exact hearlier hb
  · rw [hrelease.intent_bound, Finmap.lookup_insert_ite] at hb
    split_ifs at hb with hk
    · cases hb
      have hhash := intent_binding_of_inj hk
      refine ⟨e, List.mem_append_right _ (List.mem_singleton_self e), _, _,
        ⟨accounts, args, i, hix, hrelease.intent, hhash.symm, rfl, rfl⟩, hrelease.nullifier⟩
    · exact hearlier hb

/-- Every disputed record was disputed by an event. -/
def DisputedBy (es : List Event) (s : State) : Prop :=
  ∀ hash, IsDisputed s hash → ∃ e ∈ es, Submits e hash

/-- A disputed coverage in the state has an earlier dispute behind it. -/
theorem DisputedBy.step {es : List Event} {e : Event} (hv : e.Valid (step rt))
    (hledger : LedgerOk e.pre) (h : DisputedBy es e.pre) : DisputedBy (es ++ [e]) e.post := by
  intro hash hdisputed
  have hearlier : IsDisputed e.pre hash → ∃ x ∈ es ++ [e], Submits x hash := by
    intro hdisputed
    obtain ⟨x, hx, hsubmits⟩ := h hash hdisputed
    exact ⟨x, List.mem_append_left _ hx, hsubmits⟩
  rcases undisputed_or_submits hledger.coverage hv with hsame | ⟨accounts, args, hix⟩
  · exact hearlier (hsame.coverage hash hdisputed)
  · by_cases hhash : args.attestation.intent_hash = hash
    · exact ⟨e, List.mem_append_right _ (List.mem_singleton_self e), accounts, args, hix, hhash⟩
    · -- the dispute of another hash leaves this record alone
      have ok : handle_submit_dispute rt accounts args e.pre = .ok e.post := valid_execute hv hix
      obtain ⟨_, _, _, _, _, _, hwritten, -⟩ := submit_dispute_ok ok
      obtain ⟨d, hd, hstatus⟩ := hdisputed
      unfold DisputeRecords.coverage_at at hd
      rw [hwritten.post, Finmap.lookup_insert_of_ne _ (Pubkey.pda_word_ne (Ne.symm hhash))] at hd
      exact hearlier ⟨d, hd, hstatus⟩

/-- Every payment hashed in a run is among the inputs that must not collide. -/
theorem mem_payment_streams {es : List Event} {e : Event} {stream : List UInt8} (he : e ∈ es)
    (h : payment_stream e.ix = some stream) : stream ∈ payment_streams es :=
  List.mem_filterMap.mpr ⟨e, he, h⟩

/-- An accepted dispute names the payment that released its intent. -/
theorem Run.submits_consumed {es : List Event} {s : State} (h : Run rt es s)
    (hfree : rt.CollisionFree (payment_streams es)) {past future : List Event} {e : Event}
    (hes : es = past ++ e :: future) {accounts : SubmitDispute} {args : SubmitDisputeArgs}
    (hix : e.ix = .program (.submit_dispute accounts args)) :
    ∃ f ∈ past, Consumes f args.attestation.intent_hash args.attestation.details.payment_method
      args.attestation.details.original_payment_id := by
  have hbound : BoundBy rt past e.pre := by
    refine TxMachine.Run.history_at (P := BoundBy rt) (R := fun past e => BoundBy rt past e.pre)
      (G := fun _ => True) ?_ (fun _ _ _ hv hP => hP.step hv) (fun _ _ _ _ hP => hP) h
      (fun _ _ => trivial) hes
    intro s₀ h₀ hash b hb
    obtain ⟨_, _, _, _, _, _, _, rfl, -⟩ := genesis_ok h₀
    exact absurd hb (by simp [initial_state])
  have he : e ∈ es := by
    rw [hes]
    exact List.mem_append_right _ List.mem_cons_self
  obtain ⟨b, hb, hnullifier⟩ := submit_dispute_payment (TxMachine.Run.valid h e he) hix
  obtain ⟨f, hf, method, payment_id, hconsumes, hbinds⟩ := hbound _ b hb
  have hf' : f ∈ es := by
    rw [hes]
    exact List.mem_append_left _ hf
  obtain ⟨accounts', args', i, hix', hi, hhash, rfl, rfl⟩ := hconsumes
  -- the two nullifiers agree, so the two payments do
  have hstreams := hfree _ (mem_payment_streams hf' (by rw [hix']; rfl)) _
    (mem_payment_streams he (by rw [hix]; rfl)) (hbinds.trans hnullifier.symm)
  obtain ⟨hmethod, hid⟩ := Bytes.append_inj hstreams
  exact ⟨f, hf, accounts', args', i, hix', hi, hhash, hmethod, Bytes.toList_injective hid⟩

/-- A hash whose intent ended without a proof is disputed by no event of the run. -/
theorem Run.unproven_not_submitted (hinj : NonceInjective rt) {es : List Event} {s : State}
    (h : Run rt es s) (hfree : rt.CollisionFree (payment_streams es)) {e e' : Event}
    {hash : Bytes 32} (he : e ∈ es) (hends : EndsUnproven e hash) (he' : e' ∈ es) :
    ¬ Submits e' hash := by
  rintro ⟨accounts, args, hix, rfl⟩
  obtain ⟨past, future, hes⟩ := List.append_of_mem he'
  obtain ⟨f, hf, hconsumes⟩ := Run.submits_consumed h hfree hes hix
  have hf' : f ∈ es := by
    rw [hes]
    exact List.mem_append_left _ hf
  -- two events end the intent, and they are different instructions
  have hne : e ≠ f := by
    rintro rfl
    obtain ⟨k, i, hclosed, -⟩ := hends
    obtain ⟨_, _, _, hix', -⟩ := hconsumes
    rw [hix'] at hclosed
    cases hclosed
  have : Std.Symm fun e e' : Event => ∀ hash, Closes e hash → ¬ Closes e' hash :=
    ⟨fun _ _ hdistinct hash hcloses hcloses' => hdistinct hash hcloses' hcloses⟩
  have hdistinct := (Run.ends_once hinj h).forall he hf' hne
  exact hdistinct _ (hends.closes (TxMachine.Run.valid h e he))
    (hconsumes.closes (TxMachine.Run.valid h f hf'))

/-- A disputed record in the middle of a run was disputed by one of its events. -/
theorem Run.disputed_by {es : List Event} {s : State} (h : Run rt es s) :
    DisputedBy es s ∧ ∀ e ∈ es, DisputedBy es e.pre ∧ DisputedBy es e.post := by
  obtain ⟨-, hledger⟩ := Run.ledgerOk h
  have hinit : ∀ s₀, genesis rt s₀ → DisputedBy [] s₀ := by
    rintro s₀ h₀ hash ⟨d, hd, -⟩
    obtain ⟨_, _, _, _, _, _, _, rfl, -⟩ := genesis_ok h₀
    exact absurd hd (by simp [DisputeRecords.coverage_at, initial_state])
  -- the canonical addresses of the state are what lets one event's record be told from another's
  have hstep : ∀ past (e : Event), e ∈ es → e.Valid (step rt) → DisputedBy past e.pre →
      DisputedBy (past ++ [e]) e.post := fun past e he hv hP => hP.step hv (hledger e he).1
  refine ⟨TxMachine.Run.history hinit hstep h fun _ he => he, fun e he => ?_⟩
  obtain ⟨past, future, hes⟩ := List.append_of_mem he
  have hpast : DisputedBy past e.pre :=
    TxMachine.Run.history_at (R := fun past e => DisputedBy past e.pre) hinit hstep
      (fun _ _ _ _ hP => hP) h (fun _ he => he) hes
  have hpost := hstep past e he (TxMachine.Run.valid h e he) hpast
  constructor
  · intro hash hdisputed
    obtain ⟨x, hx, hsubmits⟩ := hpast hash hdisputed
    refine ⟨x, ?_, hsubmits⟩
    rw [hes]
    exact List.mem_append_left _ hx
  · intro hash hdisputed
    obtain ⟨x, hx, hsubmits⟩ := hpost hash hdisputed
    refine ⟨x, ?_, hsubmits⟩
    rw [hes, List.append_cons]
    exact List.mem_append_left _ hx

end Origins

/-- What holds of the disputes of a run. -/
structure DisputesSound (es : List Event) (s : State) : Prop where
  once : es.Pairwise fun e e' => ∀ hash, Submits e hash → ¬ Submits e' hash
  /-- Before the dispute, the payment it names released its intent. -/
  consumed : ∀ past e future, es = past ++ e :: future →
    ∀ accounts args, e.ix = .program (.submit_dispute accounts args) →
      ∃ f ∈ past, Consumes f args.attestation.intent_hash args.attestation.details.payment_method
        args.attestation.details.original_payment_id
  /-- An intent that ended some other way is disputed nowhere in the run. -/
  unproven : ∀ e ∈ es, ∀ hash, EndsUnproven e hash → ¬ IsDisputed s hash
    ∧ ∀ e' ∈ es, ¬ Submits e' hash ∧ ¬ IsDisputed e'.pre hash ∧ ¬ IsDisputed e'.post hash
  distinct : es.Pairwise fun e e' => ∀ method dispute_id, Accepts e method dispute_id →
    ¬ Accepts e' method dispute_id

/-- The three parts together: what a hash's dispute consumed, what excludes it, and that none is
repeated. -/
theorem disputes_sound {rt : Runtime} (hinj : NonceInjective rt) {es : List Event} {s : State}
    (h : Run rt es s) (hfree : rt.CollisionFree (payment_streams es)) : DisputesSound es s where
  once := Run.submits_once h
  consumed _ _ _ hes _ _ hix := Run.submits_consumed h hfree hes hix
  unproven := by
    intro e he hash hends
    have hnone : ∀ e' ∈ es, ¬ Submits e' hash := fun e' he' =>
      Run.unproven_not_submitted hinj h hfree he hends he'
    -- a disputed record anywhere in the run would have been disputed by one of its events
    have hnot : ∀ s', DisputedBy es s' → ¬ IsDisputed s' hash := by
      intro s' hby hdisputed
      obtain ⟨x, hx, hsubmits⟩ := hby hash hdisputed
      exact hnone x hx hsubmits
    obtain ⟨hlast, hevents⟩ := Run.disputed_by h
    refine ⟨hnot s hlast, fun e' he' => ⟨hnone e' he', ?_, ?_⟩⟩
    · exact hnot _ (hevents e' he').1
    · exact hnot _ (hevents e' he').2
  distinct := Run.accepts_once h

/-! ## A run with a dispute -/

section Sample

/-- Away from the lengths of the dispute's streams the two sample hashes agree. -/
theorem sample_dispute_keccak_eq {input : List UInt8}
    (h : input.length ∉ [32, 64, 66, 96, 144, 160]) :
    sample_dispute_runtime.keccak input = sample_runtime.keccak input := by
  simp only [List.mem_cons, List.not_mem_nil, or_false, not_or] at h
  obtain ⟨h₃₂, h₆₄, h₆₆, h₉₆, h₁₄₄, h₁₆₀⟩ := h
  have hconfig : input ≠ sample_dispute_config_bytes.toList := by
    rintro rfl
    exact h₃₂ (Bytes.length_toList _)
  have hnullifier : input ≠ (sample_word 21).toList ++ (sample_word 25).toList := by
    rintro rfl
    exact h₆₄ (by simp)
  show sample_dispute_keccak input = sample_keccak input
  unfold sample_dispute_keccak
  rw [if_neg hconfig, if_neg hnullifier, if_neg h₁₄₄, if_neg h₉₆, if_neg (fun h => h₁₆₀ h.1),
    if_neg (fun h => h₆₆ h.1)]

/-- The second sample runtime keeps the nonces apart as well. -/
theorem sample_dispute_nonce_injective : NonceInjective sample_dispute_runtime := by
  have hsame : ∀ n, derive_intent_hash sample_dispute_runtime orchestrator_address n
      = derive_intent_hash sample_runtime orchestrator_address n := by
    intro n
    have hkeccak : sample_dispute_runtime.keccak
        (sample_dispute_runtime.as_ref orchestrator_address ++ be_bytes 8 n)
        = sample_runtime.keccak (sample_runtime.as_ref orchestrator_address ++ be_bytes 8 n) := by
      have hbytes : sample_dispute_runtime.as_ref orchestrator_address
          = sample_runtime.as_ref orchestrator_address := by decide
      rw [hbytes]
      refine sample_dispute_keccak_eq ?_
      rw [List.length_append, length_be_bytes]
      decide
    unfold derive_intent_hash
    rw [hkeccak]
  intro m n hm hn heq
  rw [hsame, hsame] at heq
  exact sample_nonce_injective m n hm hn heq

/-- Initialization computes the same state under either sample runtime. -/
theorem sample_dispute_genesis {s : State} (h : sample_genesis = .ok s) :
    genesis sample_dispute_runtime s := by
  refine sample_genesis_of (fun seed => ?_) h
  unfold derive_deployment_domain
  refine sample_dispute_keccak_eq ?_
  rw [List.length_append, Bytes.length_toList]
  decide

/-- The dispute of the payment that released the intent of the sample cluster. -/
def sample_submit : TxContext × List TopLevel :=
  (sample_ctx 3100,
    [.program (.submit_dispute ⟨sample_depositor⟩
      { attestation :=
          { intent_hash := sample_hash
            data_hash := sample_dispute_data_hash
            signatures := [sample_dispute_signature]
            details := ⟨sample_word 21, sample_word 24, sample_word 25, 1000, sample_word 23⟩ }
        expected_payment_nullifier := sample_nullifier
        expected_dispute_nullifier := sample_dispute_nullifier })])

/-- The committed transactions on the cluster of the dispute. -/
def sample_dispute_run (txs : List (TxContext × List TopLevel)) :
    ProgramResult (List Event × State) := do
  let s ← sample_genesis
  TxMachine.execute_all
    (fun ctx before after s ix => TopLevel.execute sample_dispute_runtime ctx before after s ix) txs s

theorem sample_dispute_reaches (txs : List (TxContext × List TopLevel))
    (good : List Event → State → Bool)
    (h : (sample_dispute_run txs).toOption.any (fun r => good r.1 r.2) = true) :
    ∃ es s, Run sample_dispute_runtime es s ∧ good es s = true :=
  TxMachine.Run.exists_of_computed (fun _ hs₀ => sample_dispute_genesis hs₀) h

end Sample

/-- A run that ends in a dispute. -/
theorem disputes_sound_submitted :
    ∃ es s, NonceInjective sample_dispute_runtime ∧ Run sample_dispute_runtime es s
      ∧ sample_dispute_runtime.CollisionFree (payment_streams es)
      ∧ (s.coverage_at sample_hash).map DisputeIntent.status = some .Disputed
      ∧ DisputesSound es s := by
  obtain ⟨es, s, hrun, hgood⟩ := sample_dispute_reaches
    [sample_setup, sample_cover, sample_fulfill, sample_submit]
    (fun es s => decide (sample_dispute_runtime.CollisionFree (payment_streams es))
      && decide ((s.coverage_at sample_hash).map DisputeIntent.status = some .Disputed))
    (by decide +kernel)
  simp only [Bool.and_eq_true, decide_eq_true_eq] at hgood
  exact ⟨es, s, sample_dispute_nonce_injective, hrun, hgood.1, hgood.2,
    disputes_sound sample_dispute_nonce_injective hrun hgood.1⟩

end Zkp2pSolana
