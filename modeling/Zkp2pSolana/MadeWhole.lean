/-
What coverage is worth to a maker.

A maker whose payment was reversed after the release holds evidence against the
settled coverage of that intent. Within the window nothing but a dispute ends
settled coverage, so the maker does not race anyone. And whoever hands in
evidence that verifies, the dispute goes through: the lock of the coverage is
there, the owner's position backs it, and the aggregates take it. What it awards
the maker then collects, all of it.
-/
import Zkp2pSolana.Commute
import Zkp2pSolana.Disputes
import Zkp2pSolana.StakeExit

set_option autoImplicit false

namespace Zkp2pSolana

open Result Zkp2pError

/-! ## Settled coverage stands -/

/-- A step of a coverage record is for the same maker. -/
theorem DisputeStep.depositor {now : ℤ} {d d' : DisputeIntent} (h : DisputeStep now d d') :
    d'.depositor = d.depositor := by
  cases h <;> rfl

/-- All coverage is for makers who can sign. -/
def MakersSign (s : State) : Prop :=
  ∀ k c, s.dispute_intents.lookup k = some c → c.depositor.can_sign = true

section Standing

variable {rt : Runtime} {es : List Event} {s : State} {hash : Bytes 32} {c : DisputeIntent}

/-- A deposit is opened by a signature of its depositor, and the depositor never changes. -/
theorem MakersSign.step {e : Event} (hv : e.Valid (step rt)) (hledger : LedgerOk e.pre)
    (hescrow : EscrowOk e.pre.toEscrowRecords) (hs : MakersSign e.pre) : MakersSign e.post := by
  rcases (lifecycle_move hv).coverage_write hledger.coverage with hsame
    | ⟨hash, d, d', hd, hstep, hwrite, -⟩ | ⟨accounts, args, d, risk, p, p', -, hprepared⟩
  · unfold MakersSign
    rw [hsame]
    exact hs
  · unfold MakersSign
    rw [hwrite]
    refine stored_insert hs ?_
    rw [hstep.depositor]
    exact hs _ d hd
  · -- new coverage names the maker of its deposit
    unfold MakersSign
    rw [hprepared.post]
    exact stored_insert hs (hescrow.deposit _ d hprepared.deposit).signs

/-- Every depositor is a key that can sign, so it can collect what it is awarded. -/
theorem Run.makers_sign (h : Run rt es s) : MakersSign s := by
  obtain ⟨-, hledger⟩ := Run.ledgerOk h
  obtain ⟨-, hescrow⟩ := Run.escrow h
  refine (TxMachine.Run.invariant (G := (· ∈ es)) (fun s₀ h₀ => ?_)
    (fun e he hv hs => MakersSign.step hv (hledger e he).1 (hescrow e he).1 hs) h fun _ he => he).1
  obtain ⟨_, _, _, _, _, _, _, rfl, -⟩ := genesis_ok h₀
  intro k c hc
  cases hc

/-- The coverage `c` of `hash` is settled, or a dispute ended it. -/
def StandsOrDisputed (hash : Bytes 32) (c : DisputeIntent) (s : State) : Prop :=
  s.coverage_at hash = some c ∨ s.coverage_at hash = some { c with status := .Disputed }

/-- An event before the window has passed leaves settled coverage as it is, or disputes it. -/
theorem StandsOrDisputed.step {e : Event} (hv : e.Valid (step rt)) (hledger : LedgerOk e.pre)
    (hlaw : CoverageLaw rt e.after e.post) (hsettled : c.status = .Settled)
    (hopen : e.ctx.now < c.release_eligible_at) (hs : StandsOrDisputed hash c e.pre) :
    StandsOrDisputed hash c e.post := by
  rcases coverage_event hv hledger hlaw hash with hsame | ⟨d, hprepares⟩ | ⟨d, d', hadvances⟩
  · unfold StandsOrDisputed
    rw [hsame]
    exact hs
  · -- there is a record, so none is prepared
    unfold StandsOrDisputed at hs
    rw [hprepares.absent] at hs
    rcases hs with hs | hs <;> cases hs
  · have hbefore := hadvances.before
    rcases hs with hs | hs
    · rw [hs] at hbefore
      cases hbefore
      cases hstep : hadvances.step with
      | cancel hpending | settle hpending =>
        rw [hsettled] at hpending
        cases hpending
      | release _ hmatured =>
        exact absurd hmatured (not_le.mpr hopen)
      | dispute => exact .inr hadvances.after
    · rw [hs] at hbefore
      cases hbefore
      exact absurd trivial hadvances.step.not_terminal

/-- Within the window settled coverage stands unless it is disputed. -/
theorem Run.stands_or_disputed (hinj : NonceInjective rt) (h : Run rt es s)
    (hkept : ∀ e ∈ es, ¬ AcceptsController e) {past future : List Event} {t : Event}
    (hes : es = past ++ t :: future) (hc : t.post.coverage_at hash = some c)
    (hsettled : c.status = .Settled) (hwindow : ∀ e ∈ future, e.ctx.now < c.release_eligible_at) :
    StandsOrDisputed hash c s := by
  obtain ⟨-, hledger⟩ := Run.ledgerOk h
  obtain ⟨-, hlaw⟩ := Run.coverage_law hinj h hkept
  refine TxMachine.Run.since (G := fun e => e ∈ es ∧ e.ctx.now < c.release_eligible_at)
    (fun e he hv hs => ?_) h hes (fun e he => ⟨?_, hwindow e he⟩) (.inl hc)
  · exact StandsOrDisputed.step hv (hledger e he.1).1 (hlaw e he.1).2.2 hsettled he.2 hs
  · rw [hes]
    exact List.mem_append_right _ (List.mem_cons_of_mem _ he)

/-- What settled coverage released is not nothing. -/
theorem Run.settled_positive (hinj : NonceInjective rt) (h : Run rt es s)
    (hkept : ∀ e ∈ es, ¬ AcceptsController e) (hc : s.coverage_at hash = some c)
    (hsettled : c.status = .Settled) : 0 < c.release_amount := by
  have hchain := Run.coverage_chain hinj h hkept hash
  rw [hc] at hchain
  obtain ⟨_, _, _, -, hprepares, hadvances⟩ := hchain.of_second (.inr hsettled)
  cases hadvances.step with
  | settle _ hpositive => exact hpositive
  | cancel => cases hsettled
  | release => cases hsettled
  | dispute => cases hsettled

end Standing

/-! ## Handing in the evidence -/

/-- The state accepts the evidence against the coverage `c` of `hash`: it verifies, and its
identifier was not used. -/
structure EvidenceAccepted (rt : Runtime) (s : State) (hash : Bytes 32) (c : DisputeIntent)
    (args : SubmitDisputeArgs) : Prop where
  hash : args.attestation.intent_hash = hash
  verifies : ∃ n, verify_dispute_evidence rt args c s = .ok n
  fresh : s.dispute_nullifiers.lookup
    (dispute_nullifier_address dispute_config_address args.expected_dispute_nullifier) = none

/-- The event hands in the evidence, signed by `caller`, at the time of `ctx`. -/
def HandsIn (ctx : TxContext) (caller : Pubkey) (args : SubmitDisputeArgs) (e : Event) : Prop :=
  e.ctx = ctx ∧ e.ix = .program (.submit_dispute ⟨caller⟩ args)

/-- A dispute charged the owner of the stake behind `c` and credited its maker, and left the tokens
where they are. -/
structure Awarded (hash : Bytes 32) (c : DisputeIntent) (s s' : State) : Prop where
  charged : PrincipalCharged s.toStakeRecords s'.toStakeRecords c
  coverage : s'.coverage_at hash = some { c with status := .Disputed }
  mint : s'.stake_vault.stake_mint = s.stake_vault.stake_mint
  tokens : s'.tokens = s.tokens

/-- The maker of `c` was paid out at `dst` what it had been awarded before and what `c` released. -/
structure MadeWhole (hash : Bytes 32) (c : DisputeIntent) (dst : Pubkey) (s s' : State) : Prop where
  coverage : s'.coverage_at hash = some { c with status := .Disputed }
  collected : s'.claim_of c.depositor = 0
  charged : s'.balance_of c.stake_owner + c.release_amount = s.balance_of c.stake_owner
  other_owners : ∀ o, o ≠ c.stake_owner → s'.balance_of o = s.balance_of o
  other_claims : ∀ b, b ≠ c.depositor → s'.claim_of b = s.claim_of b
  paid : ∀ k, k ≠ stake_token_vault → balance s'.tokens k
    = balance s.tokens k + if k = dst then s.claim_of c.depositor + c.release_amount else 0

section Dispute

variable {rt : Runtime} {es : List Event} {s : State} {hash : Bytes 32} {c : DisputeIntent}

/-- The dispute configuration points at the protocol's own verifier and vault in every state. -/
theorem Run.dispute_wiring (h : Run rt es s) :
    s.dispute_config.verifier_config = verifier_address
      ∧ s.dispute_config.stake_vault = stake_vault_address := by
  obtain ⟨s₀, h₀, hkept⟩ := Run.wiring h
  have hwiring := hkept s (.inl rfl)
  obtain ⟨_, _, _, _, _, _, _, rfl, -⟩ := genesis_ok h₀
  exact ⟨congrArg Wiring.dispute_verifier hwiring, congrArg Wiring.dispute_stake_vault hwiring⟩

/-- Against settled coverage accepted evidence goes through, whoever hands it in. -/
theorem Run.disputable (hinj : NonceInjective rt) (h : Run rt es s)
    (hkept : ∀ e ∈ es, ¬ AcceptsController e) (hc : s.coverage_at hash = some c)
    (hsettled : c.status = .Settled) {args : SubmitDisputeArgs}
    (hevidence : EvidenceAccepted rt s hash c args) {caller : Pubkey}
    (hcaller : caller.can_sign = true) (ctx : TxContext) :
    TxMachine.Reaches (genesis rt) (step rt) (HandsIn ctx caller args) es (Awarded hash c s) := by
  obtain ⟨rfl, ⟨n, hverify⟩, hfresh⟩ := hevidence
  obtain ⟨⟨hledger, hsolvent⟩, -⟩ := Run.solvent h
  have hpositive := Run.settled_positive hinj h hkept hc hsettled
  obtain ⟨-, hconfig⟩ := hledger.coverage.at_hash hc
  obtain ⟨⟨hcontroller, -⟩, -⟩ := Run.coverage_law hinj h hkept
  obtain ⟨-, l, hl, hagrees⟩ := (Run.coverage_ok hinj h hkept _).settled hc hsettled
  have hlocked : 0 < l.amount := by
    rw [hagrees.amount]
    exact hpositive
  -- the position backs the lock, so it can be charged
  obtain ⟨p, hp, hle⟩ := (Run.collateral h hkept).backed.position hl hlocked
  rw [hagrees.stake_owner] at hp
  have hbalance := hsolvent.covered _ p hp
  have hresolve : p.resolve l.amount l.amount = .ok (p.released l.amount l.amount) :=
    StakePosition.resolve_eq hle le_rfl (hle.trans hbalance)
  obtain ⟨hstaked, hclaimable⟩ := hsolvent.resolve hledger.tokens hp hresolve
  have hclaim := hsolvent.init_claim_le (claim_balance_address stake_vault_address c.depositor)
  have hcredit : credited_claim (init_if_needed s.claims
      (claim_balance_address stake_vault_address c.depositor)) c.depositor l.amount = .ok _ :=
    credited_claim_eq (by omega)
  have hdispute : c.dispute = .ok ({ c with status := .Disputed }, l.amount) := by
    simp only [DisputeIntent.dispute, bind_eq_ok, require_eq_ok, exists_const, pure_eq_ok,
      hagrees.amount]
    exact ⟨hsettled, trivial⟩
  obtain ⟨hverifier, hvault⟩ := h.dispute_wiring
  obtain ⟨s', hok⟩ : ∃ s', handle_submit_dispute rt ⟨caller⟩ args s = .ok s' := by
    simp only [handle_submit_dispute, submit_dispute_controller, bind_eq_ok, signer_eq_ok,
      load_eq_ok, init_eq_ok, require_eq_ok, exists_const, Prod.exists, ok_or_eq_ok,
      Checked.sub_eq_some, Checked.add_eq_some, pure_eq_ok]
    exact ⟨_, hcaller, hverifier, c, hc, hconfig, hfresh, ⟨hvault, hcontroller⟩, p, hp, l, hl,
      hagrees.stake_owner, n, hverify, _, _, hdispute, rfl, _, hresolve, _, ⟨hstaked, rfl⟩, _,
      ⟨hclaimable, rfl⟩, _, hcredit, rfl⟩
  have hstep : step rt ctx [] (.program (.submit_dispute ⟨caller⟩ args)) [] s s' := hok
  obtain ⟨d, l', _, _, _, _, hdisputed, -⟩ := submit_dispute_ok hok
  have hd := hdisputed.dispute_eq
  unfold DisputeRecords.coverage_at at hc
  rw [hc] at hd
  cases hd
  refine TxMachine.Reaches.one h hstep ⟨rfl, rfl⟩ ⟨hdisputed.principal, ?_, ?_, ?_⟩
  · unfold DisputeRecords.coverage_at
    rw [hdisputed.post, Finmap.lookup_insert]
  · rw [hdisputed.post]
  · rw [hdisputed.post]

end Dispute

/-- As long as no handover came: within its window settled coverage stands unless it is disputed;
and while it stands, evidence that verifies gets the maker, through one dispute by anyone and one
collection of its own, all that the coverage released, out of the stake behind it and no other. -/
theorem disputes_make_whole {rt : Runtime} (hinj : NonceInjective rt) {es : List Event} {s : State}
    (h : Run rt es s) (hkept : ∀ e ∈ es, ¬ AcceptsController e) (hash : Bytes 32)
    (c : DisputeIntent) (hsettled : c.status = .Settled) :
    (∀ past t future, es = past ++ t :: future → t.post.coverage_at hash = some c →
        (∀ e ∈ future, e.ctx.now < c.release_eligible_at) → StandsOrDisputed hash c s)
      ∧ ∀ args caller dst ctx, s.coverage_at hash = some c → EvidenceAccepted rt s hash c args →
        caller.can_sign = true →
        (∃ a, s.tokens.lookup dst = some a ∧ a.mint = s.stake_vault.stake_mint
          ∧ a.owner = c.depositor) →
        TxMachine.Reaches (genesis rt) (step rt)
          (fun e => HandsIn ctx caller args e ∨ ClaimedBy ctx c.depositor e) es
          (MadeWhole hash c dst s) := by
  refine ⟨fun past t future hes hc hwindow =>
    Run.stands_or_disputed hinj h hkept hes hc hsettled hwindow, ?_⟩
  intro args caller dst ctx hc hevidence hcaller hdst
  have hmaker : c.depositor.can_sign = true := h.makers_sign _ c hc
  have hpositive := Run.settled_positive hinj h hkept hc hsettled
  refine ((Run.disputable hinj h hkept hc hsettled hevidence hcaller ctx).mono
    (fun _ => .inl) fun _ hs => hs).trans fun new s₁ hrun _ hawarded => ?_
  obtain ⟨hcharged, hcoverage, hmint, htokens⟩ := hawarded
  have hcredited := hcharged.depositor
  have hdst₁ : ∃ a, s₁.tokens.lookup dst = some a ∧ a.mint = s₁.stake_vault.stake_mint
      ∧ a.owner = c.depositor := by
    rw [htokens, hmint]
    exact hdst
  refine (Run.collects_claim hrun hmaker hdst₁ (by omega) ctx).mono (fun _ => .inr) fun s' hs' => ?_
  obtain ⟨⟨hstake, hclaim, hothers, hpaid⟩, hrecords⟩ := hs'
  -- collecting takes from no one's stake
  have hbalance : ∀ o, s'.balance_of o = s₁.balance_of o := by
    intro o
    by_cases ho : o = c.depositor
    · rw [ho]
      exact hstake
    · exact (hothers o ho).1
  refine ⟨?_, by omega, ?_, fun o ho => ?_, fun b hb => ?_, fun k hk => ?_⟩
  · rw [hrecords]
    exact hcoverage
  · rw [hbalance]
    exact hcharged.owner
  · rw [hbalance]
    exact hcharged.other_owners o ho
  · exact (hothers b hb).2.2.trans (hcharged.other_claims b hb)
  · rw [hpaid k hk, htokens, hcredited, Nat.zero_add]

/-- The evidence that the sample payment was reversed. -/
def sample_evidence : SubmitDisputeArgs where
  attestation :=
    { intent_hash := sample_hash
      data_hash := sample_dispute_data_hash
      signatures := [sample_dispute_signature]
      details := ⟨sample_word 21, sample_word 24, sample_word 25, 1000, sample_word 23⟩ }
  expected_payment_nullifier := sample_nullifier
  expected_dispute_nullifier := sample_dispute_nullifier

/-- On the sample cluster the covered intent was released against a payment. A stranger hands in
the evidence that it was reversed, and the maker has what it lost. -/
theorem disputes_make_whole_released :
    ∃ es s c, Run sample_dispute_runtime es s ∧ s.coverage_at sample_hash = some c
      ∧ 0 < c.release_amount ∧ ∃ new s', Run sample_dispute_runtime (es ++ new) s'
        ∧ MadeWhole sample_hash c (sample_key 103) s s' := by
  obtain ⟨es, s, hrun, hgood⟩ := sample_dispute_reaches
    [sample_setup, sample_cover, sample_fulfill]
    (fun es s => (es.all fun e => !accepts_controller e)
      && (s.coverage_at sample_hash).any fun c : DisputeIntent => decide (c.status = .Settled)
        && decide (0 < c.release_amount)
        && (verify_dispute_evidence sample_dispute_runtime sample_evidence c s).toOption.isSome
        && (s.dispute_nullifiers.lookup
          (dispute_nullifier_address dispute_config_address sample_dispute_nullifier)).isNone
        && token_account_at s (sample_key 103) s.stake_vault.stake_mint c.depositor)
    (by decide +kernel)
  simp only [Option.any_eq_true, Bool.and_eq_true, decide_eq_true_eq, List.all_eq_true,
    Option.isNone_iff_eq_none] at hgood
  obtain ⟨hkept, c, hc, ⟨⟨⟨hsettled, hpositive⟩, hverifies⟩, hfresh⟩, hdst⟩ := hgood
  obtain ⟨n, hn⟩ := Option.isSome_iff_exists.mp hverifies
  have hevidence : EvidenceAccepted sample_dispute_runtime s sample_hash c sample_evidence :=
    ⟨rfl, ⟨n, eq_ok_of_toOption hn⟩, hfresh⟩
  obtain ⟨-, hpays⟩ := disputes_make_whole sample_dispute_nonce_injective hrun
    (fun e he => not_accepts_controller (hkept e he)) sample_hash c hsettled
  obtain ⟨new, s', hrun', -, hmade⟩ := hpays sample_evidence sample_staker (sample_key 103)
    (sample_ctx 3100) hc hevidence rfl (token_account_at_true hdst)
  exact ⟨es, s, c, hrun, hc, hpositive, new, s', hrun', hmade⟩

end Zkp2pSolana
