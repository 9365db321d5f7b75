/-
A manual release and a proof release are the same settlement.

The maker's signature and the witnesses' attestation are two ways into one
settlement: an attestation for at least the signaled amount releases exactly that
amount, and what the proof path asks for besides is in order whenever the
attestation verifies. Of the two accounts it creates, the one of the payment is
unused by assumption and the one of the intent because a live intent has never
been released: a bound hash belongs to an earlier nonce whose intent is gone.
-/
import Zkp2pSolana.ConfigMoves
import Zkp2pSolana.EscrowMoves
import Zkp2pSolana.Bindings
import Zkp2pSolana.Availability

set_option autoImplicit false

namespace Zkp2pSolana

open Result Zkp2pError

/-! ## The verifier of the orchestrator -/

/-- The orchestrator names the canonical verifier, in every state. -/
theorem Run.verifier_config {rt : Runtime} {es : List Event} {s : State} (h : Run rt es s) :
    s.orchestrator.verifier_config = verifier_address := by
  refine (TxMachine.Run.invariant (G := fun _ => True)
    (I := fun s => s.orchestrator.verifier_config = verifier_address) ?_ ?_ h fun _ _ => trivial).1
  · intro s₀ h₀
    obtain ⟨_, _, _, _, _, _, _, rfl, -⟩ := genesis_ok h₀
    rfl
  · intro e _ hv hs
    rcases (config_move hv).orchestrator with hsame | ⟨accounts, args, -, hok⟩
    · rw [hsame]
      exact hs
    · simp only [handle_configure_orchestrator, bind_eq_ok, pure_eq_ok] at hok
      obtain ⟨_, -, _, -, _, -, _, -, _, -, hpost⟩ := hok
      rw [← hpost]
      exact hs

/-! ## A live intent is unbound -/

/-- What an escrow move does to the live intents and the nonce. -/
theorem CustodyMove.intents_cases {rt : Runtime} {ix : TopLevel} {s s' : State}
    (h : CustodyMove rt ix s s') :
    SameIntents s s'
      ∨ (∃ i : Intent, s'.intents = s.intents.insert (intent_address orchestrator_address i.nonce) i
        ∧ i.intent_hash
          = derive_intent_hash rt orchestrator_address s.orchestrator.next_intent_id
        ∧ s.orchestrator.next_intent_id < 2 ^ 64)
      ∨ ∃ k, s'.intents = s.intents.erase k := by
  cases h with
  | quiet _ _ intents _ | extended _ _ _ _ _ _ intents _ => exact .inl intents
  | opened _ _ _ _ _ _ intents | touched _ _ _ _ _ _ intents => exact .inl intents
  | closed _ _ _ _ _ _ intents => exact .inl intents
  | locked _ _ _ i _ _ _ _ intents nonce_eq _ word hash =>
    exact .inr (.inl ⟨i, intents, by rw [hash, nonce_eq], by omega⟩)
  | unlocked k _ _ _ _ _ _ _ _ _ intents => exact .inr (.inr ⟨k, intents⟩)

/-- A bound hash is that of an earlier nonce, and of no live intent. -/
def BoundPast (rt : Runtime) (s : State) : Prop :=
  ∀ hash b, s.intent_payment_bindings.lookup (intent_binding_of hash) = some b →
    (∃ n, n < s.orchestrator.next_intent_id
      ∧ hash = derive_intent_hash rt orchestrator_address n)
    ∧ ∀ k i, s.intents.lookup k = some i → i.intent_hash ≠ hash

/-- A payment is bound together with the end of its intent, and hashes of later intents are new, so
no bound hash comes to life again. -/
theorem BoundPast.step {rt : Runtime} (hinj : NonceInjective rt) {e : Event}
    (hv : e.Valid (step rt)) (hledger : LedgerOk e.pre) (hcustody : CustodyInv rt e.pre)
    (hs : BoundPast rt e.pre) : BoundPast rt e.post := by
  have hmove := custody_move hledger.tokens hledger.coverage hv
  have hnonce := hmove.nonce_le
  rcases (lifecycle_move hv).binding_write with ⟨-, hbindings⟩ | ⟨accounts, args, i, hix, hrelease⟩
  · intro hash b hb
    rw [hbindings] at hb
    obtain ⟨⟨n, hn, hhash⟩, hlive⟩ := hs hash b hb
    refine ⟨⟨n, by omega, hhash⟩, fun k i' hi' => ?_⟩
    rcases hmove.intents_cases with hsame | ⟨i, hintents, hnew, hword⟩ | ⟨k', hintents⟩
    · rw [hsame.intents] at hi'
      exact hlive k i' hi'
    · -- the new intent has the next nonce, and a bound hash an earlier one
      rw [hintents, Finmap.lookup_insert_ite] at hi'
      split_ifs at hi' with hk
      · cases hi'
        intro heq
        rw [hnew, hhash] at heq
        have hequal := hinj _ _ hword (by omega) heq
        omega
      · exact hlive k i' hi'
    · rw [hintents, Finmap.lookup_erase_ite] at hi'
      split_ifs at hi'
      exact hlive k i' hi'
  · obtain ⟨live, s₁, hlive, -, -, -, -, hsettle, hpost⟩ := fulfill_intent_ok (valid_execute hv hix)
    obtain ⟨hi, -⟩ := live_intent_ok hlive
    rw [hrelease.intent] at hi
    cases hi
    have hintents : e.post.intents = e.pre.intents.erase accounts.intent := by
      obtain ⟨s₂, d, T, hdispute, -, -, rfl⟩ := settle_intent_ok hsettle
      have hsame : s₂.intents = e.pre.intents := by rw [settle_dispute_rest hdispute]
      rw [hpost, ← hsame]
      rfl
    have hreleased := hcustody.intents _ _ hrelease.intent
    intro hash b hb
    rw [hrelease.intent_bound, Finmap.lookup_insert_ite] at hb
    split_ifs at hb with hk
    · have hhash : hash = live.intent.intent_hash := intent_binding_of_inj hk
      refine ⟨⟨live.intent.nonce, lt_of_lt_of_le hreleased.nonce hnonce, hhash.trans hreleased.hash⟩,
        fun k i' hi' heq => ?_⟩
      rw [hintents, Finmap.lookup_erase_ite] at hi'
      split_ifs at hi' with hne
      -- another live intent of that hash would be the one just closed
      exact hne (hcustody.intent_unique hinj hi' hrelease.intent (heq.trans hhash))
    · obtain ⟨⟨n, hn, hhash⟩, hold⟩ := hs hash b hb
      refine ⟨⟨n, by omega, hhash⟩, fun k i' hi' => ?_⟩
      rw [hintents, Finmap.lookup_erase_ite] at hi'
      split_ifs at hi'
      exact hold k i' hi'

theorem Run.unbound {rt : Runtime} (hinj : NonceInjective rt) {es : List Event} {s : State}
    (h : Run rt es s) {k : Pubkey} {i : Intent} (hi : s.intents.lookup k = some i) :
    s.intent_payment_bindings.lookup (intent_binding_of i.intent_hash) = none := by
  have hbound : BoundPast rt s := by
    obtain ⟨-, hes⟩ := Run.custody hinj h
    refine (TxMachine.Run.invariant (G := (· ∈ es)) (I := BoundPast rt) ?_ ?_ h fun _ he => he).1
    · intro s₀ h₀ hash b hb
      obtain ⟨_, _, _, _, _, _, _, rfl, -⟩ := genesis_ok h₀
      exact absurd hb (by simp [initial_state])
    · intro e he hv hs
      obtain ⟨⟨hledger, hcustody⟩, -⟩ := hes e he
      exact hs.step hinj hv hledger hcustody
  cases hb : s.intent_payment_bindings.lookup (intent_binding_of i.intent_hash) with
  | none => rfl
  | some b => exact absurd rfl ((hbound _ b hb).2 k i hi)

/-! ## The two paths -/

section Paths

variable {rt : Runtime} {ctx : TxContext} {s s' : State} {k : Pubkey} {live : LiveIntent}
  {tokens : SettlementTokenAccounts} {dispute : SettlementDisputeAccounts}
  {remaining_accounts : List AccountInfo}

/-- The depositor's release of a live intent is the settlement of its whole amount. -/
theorem manual_release_iff (hs : Closable s k live) (hsigns : live.deposit.depositor.can_sign = true) :
    handle_manual_release ctx ⟨live.deposit.depositor, k, tokens, dispute, remaining_accounts⟩ s
        = .ok s'
      ↔ settle_intent ctx k live tokens dispute remaining_accounts live.intent.amount s = .ok s' := by
  constructor
  · intro h
    obtain ⟨live', hlive, -, -, hsettle⟩ := manual_release_ok h
    rw [hs.found] at hlive
    cases hlive
    exact hsettle
  · intro hsettle
    simp only [handle_manual_release, bind_eq_ok, signer_eq_ok, require_eq_ok, exists_const]
    exact ⟨hsigns, live, hs.found, rfl, hs.paired.intent_hash, hsettle⟩

/-- So is a proof release whose attestation verifies for at least that amount, with the bindings on
top. -/
theorem fulfill_intent_iff (hs : Closable s k live) {caller : Pubkey}
    (hcaller : caller.can_sign = true) (hpaused : s.orchestrator.paused = false)
    (hverifier : s.orchestrator.verifier_config = verifier_address) {args : FulfillIntentArgs}
    (hverified : verify_payment_attestation rt verifier_address s.verifier live.intent
      args.attestation = .ok args.expected_nullifier)
    (hpayment : s.payment_bindings.lookup (binding_of args.expected_nullifier) = none)
    (hintent : s.intent_payment_bindings.lookup (intent_binding_of live.intent.intent_hash) = none)
    (hamount : live.intent.amount ≤ args.attestation.release_amount) :
    handle_fulfill_intent rt ctx ⟨caller, k, tokens, dispute, remaining_accounts⟩ args s = .ok s'
      ↔ ∃ s₁, settle_intent ctx k live tokens dispute remaining_accounts live.intent.amount s = .ok s₁
        ∧ s' = { s₁ with toVerifierRecords :=
            s₁.toVerifierRecords.bind_payment args.expected_nullifier live.intent.intent_hash } := by
  -- attested for at least the intent's amount, the release is that amount
  have hreleased : Min.min args.attestation.release_amount live.intent.amount = live.intent.amount :=
    Nat.min_eq_right hamount
  have hhash : live.intent.intent_hash = args.attestation.intent_hash := by
    simp only [verify_payment_attestation, bind_eq_ok, require_eq_ok, exists_const] at hverified
    exact hverified.1.symm
  constructor
  · intro h
    obtain ⟨live', s₁, hlive, -, -, -, -, hsettle, hpost⟩ := fulfill_intent_ok h
    rw [hs.found] at hlive
    cases hlive
    rw [hreleased] at hsettle
    exact ⟨s₁, hsettle, hpost⟩
  · rintro ⟨s₁, hsettle, rfl⟩
    rw [← hreleased] at hsettle
    simp only [handle_fulfill_intent, bind_eq_ok, signer_eq_ok, init_eq_ok, require_eq_ok,
      exists_const, pure_eq_ok]
    -- every guard of the fulfilment that is not a guard of the settlement is a hypothesis or an
    -- invariant
    exact ⟨hcaller, hpaused, hverifier, live, hs.found, hhash, hs.paired.intent_hash, hpayment,
      hintent, args.expected_nullifier, hverified, rfl, s₁, hsettle, rfl⟩

end Paths

/-- In every state a run reaches with the orchestrator unpaused, for a live intent and an attestation
that verifies for at least its amount and whose nullifier is unused, the depositor's release and the
proof release on the same accounts succeed or fail together, and the states they leave differ in the
two bindings only. -/
theorem manual_release_iff_fulfill {rt : Runtime} (hinj : NonceInjective rt) {es : List Event}
    {s : State} (h : Run rt es s) (hpaused : s.orchestrator.paused = false) {k : Pubkey} {i : Intent}
    {d : Deposit} (hi : s.intents.lookup k = some i) (hd : s.deposits.lookup i.deposit = some d)
    {args : FulfillIntentArgs}
    (hverified : verify_payment_attestation rt verifier_address s.verifier i args.attestation
      = .ok args.expected_nullifier)
    (hamount : i.amount ≤ args.attestation.release_amount)
    (hunused : s.payment_bindings.lookup (binding_of args.expected_nullifier) = none)
    (ctx : TxContext) {caller : Pubkey} (hcaller : caller.can_sign = true)
    (tokens : SettlementTokenAccounts) (dispute : SettlementDisputeAccounts)
    (remaining_accounts : List AccountInfo) :
    ((∃ s₁, handle_manual_release ctx ⟨d.depositor, k, tokens, dispute, remaining_accounts⟩ s = .ok s₁)
      ↔ ∃ s₂, handle_fulfill_intent rt ctx ⟨caller, k, tokens, dispute, remaining_accounts⟩ args s
        = .ok s₂)
    ∧ ∀ s₁ s₂,
      handle_manual_release ctx ⟨d.depositor, k, tokens, dispute, remaining_accounts⟩ s = .ok s₁ →
      handle_fulfill_intent rt ctx ⟨caller, k, tokens, dispute, remaining_accounts⟩ args s = .ok s₂ →
      s₂ = { s₁ with toVerifierRecords :=
        s₁.toVerifierRecords.bind_payment args.expected_nullifier i.intent_hash } := by
  obtain ⟨live, rfl, hs⟩ := Run.closable h hi
  obtain ⟨-, -, hdeposit, -⟩ := live_intent_ok hs.found
  rw [hdeposit] at hd
  cases hd
  have hsigns := ((Run.escrow h).1.deposit _ _ hdeposit).signs
  -- both handlers come down to the same settlement of the same amount
  have hmanual : ∀ s₁, handle_manual_release ctx
      ⟨live.deposit.depositor, k, tokens, dispute, remaining_accounts⟩ s = .ok s₁ ↔ _ :=
    fun _ => manual_release_iff hs hsigns
  have hproof : ∀ s₂, handle_fulfill_intent rt ctx
      ⟨caller, k, tokens, dispute, remaining_accounts⟩ args s = .ok s₂ ↔ _ :=
    fun _ => fulfill_intent_iff hs hcaller hpaused (Run.verifier_config h) hverified hunused
      (Run.unbound hinj h hi) hamount
  simp only [hmanual, hproof]
  refine ⟨⟨?_, ?_⟩, ?_⟩
  · rintro ⟨s₁, hsettle⟩
    exact ⟨_, s₁, hsettle, rfl⟩
  · rintro ⟨_, s₁, hsettle, -⟩
    exact ⟨s₁, hsettle⟩
  · rintro s₁ s₂ hsettle ⟨s₁', hsettle', rfl⟩
    rw [hsettle] at hsettle'
    cases hsettle'
    rfl

/-- The arguments of the sample proof release. -/
def sample_fulfill_args : FulfillIntentArgs where
  attestation :=
    { intent_hash := sample_hash
      release_amount := 100
      data_hash := sample_data_hash
      signatures := [sample_signature]
      payment := ⟨sample_word 21, sample_word 22, 1000, sample_word 23, 2500000, sample_word 24⟩
      snapshot := ⟨sample_hash, 100, sample_word 21, sample_word 23, sample_word 22, 10, 2000, 0⟩ }
  expected_nullifier := sample_nullifier

/-- The covered intent of the sample cluster can be released either way. -/
theorem manual_release_iff_fulfill_sample :
    ∃ es s i d, NonceInjective sample_runtime ∧ Run sample_runtime es s
      ∧ s.intents.lookup sample_intent = some i ∧ s.deposits.lookup i.deposit = some d
      ∧ (∃ s₁, handle_manual_release (sample_ctx 3000) ⟨d.depositor, sample_intent,
        sample_settlement_tokens, sample_settlement_dispute, []⟩ s = .ok s₁)
      ∧ ∃ s₂, handle_fulfill_intent sample_runtime (sample_ctx 3000) ⟨sample_taker, sample_intent,
        sample_settlement_tokens, sample_settlement_dispute, []⟩ sample_fulfill_args s = .ok s₂ := by
  obtain ⟨es, s, hrun, hgood⟩ := sample_reaches [sample_setup, sample_cover]
    (fun _ s => (s.intents.lookup sample_intent).any fun i : Intent =>
      (s.deposits.lookup i.deposit).any fun d : Deposit => !s.orchestrator.paused
        && decide (i.amount ≤ sample_fulfill_args.attestation.release_amount)
        && (s.payment_bindings.lookup (binding_of sample_nullifier)).isNone
        && (verify_payment_attestation sample_runtime verifier_address s.verifier i
          sample_fulfill_args.attestation).toOption.any (fun n => decide (n = sample_nullifier))
        && (handle_manual_release (sample_ctx 3000) ⟨d.depositor, sample_intent,
          sample_settlement_tokens, sample_settlement_dispute, []⟩ s).toOption.isSome)
    (by decide +kernel)
  simp only [Option.any_eq_true, Bool.and_eq_true, Bool.not_eq_true', decide_eq_true_eq,
    Option.isNone_iff_eq_none] at hgood
  obtain ⟨i, hi, d, hd, ⟨⟨⟨hpaused, hamount⟩, hunused⟩, n, hn, rfl⟩, hreleased⟩ := hgood
  have hverified : verify_payment_attestation sample_runtime verifier_address s.verifier i
      sample_fulfill_args.attestation = .ok sample_fulfill_args.expected_nullifier :=
    eq_ok_of_toOption hn
  have hmanual := exists_of_isSome hreleased
  have hsigns : sample_taker.can_sign = true := rfl
  obtain ⟨hiff, -⟩ := manual_release_iff_fulfill sample_nonce_injective hrun hpaused hi hd hverified
    hamount hunused (sample_ctx 3000) hsigns sample_settlement_tokens sample_settlement_dispute []
  exact ⟨es, s, i, d, sample_nonce_injective, hrun, hi, hd, hmanual, hiff.mp hmanual⟩

end Zkp2pSolana
