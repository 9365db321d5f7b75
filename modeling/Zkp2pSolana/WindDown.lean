/-
A maker can always leave.

Principal reserved by an intent is out of the maker's reach while the intent
lives, but an intent expires, and whoever likes may prune it then. So once the
locks on a deposit have expired its maker gets everything back alone: one prune
for each intent still there and one withdrawal, whoever else signs or not, and
whether or not the protocol is paused. Covered intents need the collateral still
to be under the program's control.
-/
import Zkp2pSolana.Lib.TxProgress
import Zkp2pSolana.Audit
import Zkp2pSolana.Listings
import Zkp2pSolana.Unwind
import Zkp2pSolana.Withdrawal

set_option autoImplicit false

namespace Zkp2pSolana

open Result Zkp2pError

/-! ## One prune -/

/-- What closing the intent of `live` without a payment leaves: coverage, if there is any, is
cancelled first. -/
def IntentPruned (s : State) (k : Pubkey) (live : LiveIntent) (s' : State) : Prop :=
  ∃ d s₁, live.deposit.unlock live.lock.amount = .ok d ∧ s' = closed_state k live d s₁
    ∧ ((live.intent.dispute_covered = false ∧ s₁ = s)
      ∨ ∃ c l p p', CoverageCancelled s s₁ live.intent.intent_hash c l p p')

section Prune

variable {rt : Runtime} {es : List Event} {s s' : State} {k : Pubkey} {live : LiveIntent}

/-- Every record but those of the intent itself and of its collateral is as it was. -/
theorem IntentPruned.records (h : IntentPruned s k live s') :
    s'.tokens = s.tokens ∧ s'.escrow_config = s.escrow_config
      ∧ s'.intents = s.intents.erase k
      ∧ s'.intent_locks
        = s.intent_locks.erase (intent_lock_address live.intent.deposit live.intent.intent_hash)
      ∧ ∃ d, live.deposit.unlock live.lock.amount = .ok d
        ∧ s'.deposits = s.deposits.insert live.intent.deposit d := by
  obtain ⟨d, s₁, hunlock, rfl, ⟨-, rfl⟩ | ⟨_, _, _, _, hcancelled⟩⟩ := h
  · exact ⟨rfl, rfl, rfl, rfl, d, hunlock, rfl⟩
  · have hpost := hcancelled.post
    subst hpost
    exact ⟨rfl, rfl, rfl, rfl, d, hunlock, rfl⟩

/-- An expired intent can be pruned by anyone who signs; one with coverage, as long as the program
controls the collateral. -/
theorem Run.prunable (hinj : NonceInjective rt) (h : Run rt es s) {i : Intent}
    (hi : s.intents.lookup k = some i)
    (hkept : i.dispute_covered = true → ∀ e ∈ es, ¬ AcceptsController e) {l : EscrowIntentLock}
    (hl : s.intent_locks.lookup (intent_lock_address i.deposit i.intent_hash) = some l)
    {ctx : TxContext} (hexpired : l.expiry_time < ctx.now) {caller : Pubkey}
    (hcaller : caller.can_sign = true) :
    ∃ accounts live s', accounts.caller = caller ∧ live.intent = i ∧ live_intent k s = .ok live
      ∧ handle_prune_expired_intent ctx accounts s = .ok s' ∧ IntentPruned s k live s' := by
  -- a covered intent is pruned with its coverage's accounts, an uncovered one without any
  by_cases hcovered : i.dispute_covered = true
  · obtain ⟨live, c, lock, p, rfl, hc⟩ := Run.covered hinj h (hkept hcovered) hi hcovered
    obtain ⟨-, -, -, hfound, -⟩ := live_intent_ok hc.found
    rw [hfound] at hl
    cases hl
    obtain ⟨s₁, p', hcancelled⟩ := hc.cancelled
    obtain ⟨d, hd⟩ := hc.unlock
    have hdispute := hcancelled.prune_dispute (k := k) hcovered hc.collateral_vault caller
    exact ⟨_, live, _, rfl, rfl, hc.found, hc.closable.prune rfl hcaller hexpired hdispute hd, d, s₁,
      hd, rfl, .inr ⟨c, lock, p, p', hcancelled⟩⟩
  · have huncovered : i.dispute_covered = false := by simpa using hcovered
    obtain ⟨live, rfl, hs⟩ := Run.closable h hi
    obtain ⟨-, -, -, hfound, -⟩ := live_intent_ok hs.found
    rw [hfound] at hl
    cases hl
    obtain ⟨d, hd⟩ := hs.unlock
    have hdispute := prune_dispute_uncovered (s := s) huncovered caller k
    exact ⟨_, live, _, rfl, rfl, hs.found, hs.prune rfl hcaller hexpired hdispute hd, d, s, hd, rfl,
      .inl ⟨huncovered, rfl⟩⟩

end Prune

/-! ## Clearing a deposit of its intents -/

/-- Intents on the deposit `k` were given up, and nothing else happened to the escrow. -/
structure ClearedFrom (k : Pubkey) (s s' : State) : Prop where
  deposit : ∀ d, s.deposits.lookup k = some d →
    ∃ d', s'.deposits.lookup k = some d' ∧ d'.liability = d.liability ∧ d'.terms = d.terms
  others : ∀ k', k' ≠ k → s'.deposits.lookup k' = s.deposits.lookup k'
  intents : ∀ ki i, i.deposit ≠ k → (s'.intents.lookup ki = some i ↔ s.intents.lookup ki = some i)
  fewer : ∀ ki i, s'.intents.lookup ki = some i → s.intents.lookup ki = some i
  locks : ∀ kl l, s'.intent_locks.lookup kl = some l → s.intent_locks.lookup kl = some l
  tokens : s'.tokens = s.tokens
  config : s'.escrow_config = s.escrow_config

section Clearing

variable {rt : Runtime} {es : List Event} {s s₁ s' : State} {k : Pubkey}

theorem ClearedFrom.refl (k : Pubkey) (s : State) : ClearedFrom k s s where
  deposit d hd := ⟨d, hd, rfl, rfl⟩
  others _ _ := rfl
  intents _ _ _ := Iff.rfl
  fewer _ _ hi := hi
  locks _ _ hl := hl
  tokens := rfl
  config := rfl

theorem ClearedFrom.trans (h : ClearedFrom k s s₁) (h' : ClearedFrom k s₁ s') :
    ClearedFrom k s s' where
  deposit d hd := by
    obtain ⟨d₁, hd₁, hliability, hterms⟩ := h.deposit d hd
    obtain ⟨d', hd', hliability', hterms'⟩ := h'.deposit d₁ hd₁
    exact ⟨d', hd', hliability'.trans hliability, hterms'.trans hterms⟩
  others k' hk := (h'.others k' hk).trans (h.others k' hk)
  intents ki i hi := (h'.intents ki i hi).trans (h.intents ki i hi)
  fewer ki i hi := h.fewer ki i (h'.fewer ki i hi)
  locks kl l hl := h.locks kl l (h'.locks kl l hl)
  tokens := h'.tokens.trans h.tokens
  config := h'.config.trans h.config

/-- Pruning one intent on the deposit clears it of that one, and its lock is gone. -/
theorem IntentPruned.clears {ki : Pubkey} {live : LiveIntent} (h : IntentPruned s ki live s')
    (hlive : live_intent ki s = .ok live) (hlock : live.lock.deposit = live.intent.deposit) :
    ClearedFrom live.intent.deposit s s'
      ∧ s'.lock_count live.intent.deposit < s.lock_count live.intent.deposit := by
  obtain ⟨htokens, hconfig, hintents, hlocks, d', hunlock, hdeposits⟩ := h.records
  obtain ⟨hi, -, hd, hl, -⟩ := live_intent_ok hlive
  refine ⟨⟨fun d hd₀ => ?_, fun k' hk => ?_, fun k₁ i₁ hk => ?_, fun k₁ i₁ hi₁ => ?_,
    fun kl l hl₁ => ?_, htokens, hconfig⟩, ?_⟩
  · rw [hd] at hd₀
    cases hd₀
    refine ⟨d', ?_, Deposit.unlock_liability hunlock, Deposit.unlock_terms hunlock⟩
    rw [hdeposits]
    exact Finmap.lookup_insert _
  · rw [hdeposits, Finmap.lookup_insert_ite, if_neg hk]
  · rw [hintents, Finmap.lookup_erase_ite]
    by_cases hkey : k₁ = ki
    · -- the intent that goes is one on the deposit
      rw [if_pos hkey, hkey, hi]
      constructor
      · intro hnone
        cases hnone
      · intro hsome
        cases hsome
        exact absurd rfl hk
    · rw [if_neg hkey]
  · rw [hintents, Finmap.lookup_erase_ite] at hi₁
    split_ifs at hi₁
    exact hi₁
  · rw [hlocks, Finmap.lookup_erase_ite] at hl₁
    split_ifs at hl₁
    exact hl₁
  · obtain ⟨-, hcount⟩ := locks_erased hl hlocks live.intent.deposit
    rw [if_pos hlock] at hcount
    omega

/-- The event is a prune signed by `o`, at the time of `ctx`. -/
def PrunedBy (ctx : TxContext) (o : Pubkey) (e : Event) : Prop :=
  e.ctx = ctx ∧ ∃ accounts, e.ix = .program (.prune_expired_intent accounts) ∧ accounts.caller = o

theorem PrunedBy.not_accepts {ctx : TxContext} {o : Pubkey} {e : Event} (h : PrunedBy ctx o e) :
    ¬ AcceptsController e := by
  obtain ⟨-, accounts, hix, -⟩ := h
  rintro ⟨accept, hix'⟩
  rw [hix] at hix'
  cases hix'

/-- Some intent on the deposit `k` is covered. -/
def CoveredOn (s : State) (k : Pubkey) : Prop :=
  ∃ ki i, s.intents.lookup ki = some i ∧ i.deposit = k ∧ i.dispute_covered = true

/-- Whoever signs can prune the expired intents on a deposit one after another, until none is
left. -/
theorem Run.clears (hinj : NonceInjective rt) (h : Run rt es s)
    (hkept : CoveredOn s k → ∀ e ∈ es, ¬ AcceptsController e) {ctx : TxContext}
    (hexpired : ∀ kl l, s.intent_locks.lookup kl = some l → l.deposit = k → l.expiry_time < ctx.now)
    {o : Pubkey} (hsigns : o.can_sign = true) :
    TxMachine.Reaches (genesis rt) (step rt) (PrunedBy ctx o) es fun s' =>
      ClearedFrom k s s' ∧ s'.lock_count k = 0 := by
  refine TxMachine.Reaches.drain (G := fun e => CoveredOn s k → ¬ AcceptsController e)
    (fun e he _ => he.not_accepts) ?_ h (fun e he hcovered => hkept hcovered e he) (.refl k s)
  intro es₁ s₁ hrun hkept₁ hcleared hcount
  -- as long as the count is not zero there is a lock, and its intent is the one to prune
  obtain ⟨-, hcustody, -⟩ := (Run.own_locks hrun).1
  have hlock : ∃ kl l, s₁.intent_locks.lookup kl = some l ∧ l.deposit = k := by
    by_contra hnone
    apply hcount
    exact Finmap.owed_eq_zero _ _ fun kl l hl hdeposit => hnone ⟨kl, l, hl, hdeposit⟩
  obtain ⟨kl, l, hl, hdeposit⟩ := hlock
  obtain ⟨hkl, ki, i, hi, hpaired⟩ := hcustody.locks kl l hl
  have hon : i.deposit = k := hpaired.deposit.symm.trans hdeposit
  have hfound : s₁.intent_locks.lookup (intent_lock_address i.deposit i.intent_hash) = some l := by
    rw [← hpaired.deposit, ← hpaired.intent_hash, ← hkl]
    exact hl
  have hkept_i : i.dispute_covered = true → ∀ e ∈ es₁, ¬ AcceptsController e := by
    intro hcovered e he
    exact hkept₁ e he ⟨ki, i, hcleared.fewer ki i hi, hon, hcovered⟩
  have hover : l.expiry_time < ctx.now := hexpired kl l (hcleared.locks kl l hl) hdeposit
  obtain ⟨accounts, live, s₂, hcaller, rfl, hlive, hok, hpruned⟩ :=
    Run.prunable hinj hrun hi hkept_i hfound hover hsigns
  obtain ⟨-, -, -, hlive_lock, -⟩ := live_intent_ok hlive
  have hsame : live.lock = l := by
    rw [hfound] at hlive_lock
    exact (Option.some.inj hlive_lock).symm
  have hlock_deposit : live.lock.deposit = live.intent.deposit := by
    rw [hsame]
    exact hpaired.deposit
  obtain ⟨hclears, hless⟩ := hpruned.clears hlive hlock_deposit
  rw [hon] at hclears hless
  have hstep : step rt ctx [] (.program (.prune_expired_intent accounts)) [] s₁ s₂ := hok
  exact TxMachine.Reaches.one hrun hstep ⟨rfl, accounts, rfl, hcaller⟩
    ⟨hcleared.trans hclears, hless⟩

end Clearing

/-! ## Leaving -/

/-- The event is a withdrawal of the deposit `k` signed by `o`, at the time of `ctx`. -/
def WithdrawnBy (ctx : TxContext) (o k : Pubkey) (e : Event) : Prop :=
  e.ctx = ctx ∧ ∃ accounts, e.ix = .program (.custody (.withdraw_deposit accounts))
    ∧ accounts.depositor = o ∧ accounts.deposit = k

/-- The deposit `k`, which was `d`, has been paid back to its maker's token account `dst`. -/
structure MakerLeft (k : Pubkey) (d : Deposit) (dst : Pubkey) (dust : Option Pubkey) (s s' : State) :
    Prop where
  no_lock : NoLock s' k
  paid : ∀ c, c ≠ deposit_vault_address k → balance s'.tokens c = balance s.tokens c
    + (if c = dst then d.liability else 0)
    + if s'.deposits.lookup k = none ∧ dust = some c then excess s k d else 0
  closed : s'.deposits.lookup k = none ↔
    d.retain_on_empty = false ∧ excess s k d ≤ s.escrow_config.dust_threshold
  owed : ∀ d', s'.deposits.lookup k = some d' → d'.liability = 0
  others : ∀ k', k' ≠ k → s'.deposits.lookup k' = s.deposits.lookup k'
  intents : ∀ ki i, i.deposit ≠ k → (s'.intents.lookup ki = some i ↔ s.intents.lookup ki = some i)

section Leaving

variable {rt : Runtime} {es : List Event} {s s₁ : State} {k dst : Pubkey} {d : Deposit}
  {dust : Option Pubkey}

/-- The accounts of an exit stay good while only intents are given up. -/
theorem ExitAccounts.same {d' : Deposit} (h : ExitAccounts s d dst dust)
    (htokens : s₁.tokens = s.tokens) (hconfig : s₁.escrow_config = s.escrow_config)
    (hterms : d'.terms = d.terms) : ExitAccounts s₁ d' dst dust := by
  have hmint : d'.token_mint = d.token_mint := congrArg DepositTerms.token_mint hterms
  have hdepositor : d'.depositor = d.depositor := congrArg DepositTerms.depositor hterms
  constructor
  · rw [htokens, hmint, hdepositor]
    exact h.depositor
  · rw [htokens, hmint, hconfig]
    exact h.dust

/-- Once a deposit is clear of intents its maker takes out all of it. -/
theorem Run.leaves (h : Run rt es s₁) (hd : s.deposits.lookup k = some d)
    (hcleared : ClearedFrom k s s₁) (hnone : s₁.lock_count k = 0)
    (haccounts : ExitAccounts s d dst dust)
    (hsupplied : 0 < excess s k d → excess s k d ≤ s.escrow_config.dust_threshold →
      dust.isSome = true)
    (hapart : DustApart k dst dust) (ctx : TxContext) :
    TxMachine.Reaches (genesis rt) (step rt) (WithdrawnBy ctx d.depositor k) es
      (MakerLeft k d dst dust s) := by
  obtain ⟨hledger, hcustody, -⟩ := (Run.own_locks h).1
  obtain ⟨d₁, hd₁, hliability, hterms⟩ := hcleared.deposit d hd
  have hdepositor : d₁.depositor = d.depositor := congrArg DepositTerms.depositor hterms
  have hretain : d₁.retain_on_empty = d.retain_on_empty :=
    congrArg DepositTerms.retain_on_empty hterms
  have hactive : d₁.active_intents = 0 := (hcustody.deposits k d₁ hd₁).active.trans hnone
  have hno : NoLock s₁ k := hcustody.no_lock hd₁ hactive
  obtain ⟨-, houtstanding⟩ := (hcustody.counters_zero hd₁).mpr hno
  -- nothing is reserved any more, so what remains is the whole liability
  have hremaining : d₁.remaining_deposits = d.liability := by
    rw [← hliability]
    unfold Deposit.liability
    omega
  have hresidual : residual s₁ k d₁ = excess s k d := by
    unfold residual excess
    rw [hcleared.tokens, hremaining]
    rfl
  have hdust : 0 < residual s₁ k d₁ → residual s₁ k d₁ ≤ s₁.escrow_config.dust_threshold →
      dust.isSome = true := by
    rw [hresidual, hcleared.config]
    exact hsupplied
  have hexit := withdraw_goes hcustody hledger.tokens hd₁ ((Run.escrow h).1.deposit k d₁ hd₁)
    (haccounts.same hcleared.tokens hcleared.config hterms) hdust hapart
  have hcloses : ExitCloses s₁ k d₁ ↔
      d.retain_on_empty = false ∧ excess s k d ≤ s.escrow_config.dust_threshold := by
    unfold ExitCloses
    rw [hresidual, hcleared.config, hretain]
    exact and_iff_right hno
  have hsigned : ∀ s', WithdrawnBy ctx d.depositor k ⟨ctx, [], .program (.custody (.withdraw_deposit
      ⟨d₁.depositor, k, dst, dust⟩)), [], s₁, s'⟩ := fun s' => ⟨rfl, _, rfl, hdepositor, rfl⟩
  -- the two outcomes of the withdrawal: the deposit is closed, or stays with nothing in it
  rcases hexit with ⟨hclose, T', hok, hgone, hbalances⟩ | ⟨hopen, T', retain, a, hok, -, -, hbalances⟩
  · have hstep : step rt ctx [] (.program (.custody (.withdraw_deposit
        ⟨d₁.depositor, k, dst, dust⟩))) [] s₁
        { s₁ with deposits := s₁.deposits.erase k, tokens := T' } := by
      show (TopLevel.program _).execute rt ctx [] [] s₁ = .ok _
      simp only [TopLevel.execute, Instruction.execute, CustodyInstruction.execute, hok, ok_bind]
      rfl
    have hnot : (s₁.deposits.erase k).lookup k = none := Finmap.lookup_erase _ _
    refine TxMachine.Reaches.one h hstep (hsigned _)
      ⟨hno, fun c hc => ?_, ⟨fun _ => hcloses.mp hclose, fun _ => hnot⟩, fun d' hd' => ?_,
        fun k' hk => ?_, hcleared.intents⟩
    · rw [hbalances c hc, hcleared.tokens, hremaining, hresidual]
      simp only [hnot, true_and]
    · rw [hnot] at hd'
      cases hd'
    · show (s₁.deposits.erase k).lookup k' = _
      rw [Finmap.lookup_erase_ite, if_neg hk]
      exact hcleared.others k' hk
  · have hstep : step rt ctx [] (.program (.custody (.withdraw_deposit
        ⟨d₁.depositor, k, dst, dust⟩))) [] s₁
        { s₁ with deposits := s₁.deposits.insert k (drained d₁ retain), tokens := T' } := by
      show (TopLevel.program _).execute rt ctx [] [] s₁ = .ok _
      simp only [TopLevel.execute, Instruction.execute, CustodyInstruction.execute, hok, ok_bind]
      rfl
    have hleft : (s₁.deposits.insert k (drained d₁ retain)).lookup k = some (drained d₁ retain) :=
      Finmap.lookup_insert _
    refine TxMachine.Reaches.one h hstep (hsigned _)
      ⟨hno, fun c hc => ?_, ⟨fun hnot => ?_, fun hclose => absurd (hcloses.mpr hclose) hopen⟩,
        fun d' hd' => ?_, fun k' hk => ?_, hcleared.intents⟩
    · rw [hbalances c hc, hcleared.tokens, hremaining]
      simp only [hleft, reduceCtorEq, false_and, if_false, Nat.add_zero]
    · rw [hleft] at hnot
      cases hnot
    · rw [hleft] at hd'
      cases hd'
      show 0 + d₁.outstanding_intent_amount = 0
      rw [houtstanding]
    · show (s₁.deposits.insert k (drained d₁ retain)).lookup k' = _
      rw [Finmap.lookup_insert_ite, if_neg hk]
      exact hcleared.others k' hk

end Leaving

/-- From every state of every run, a maker alone can leave once the locks on its deposit have
expired: some prunes and one withdrawal that it signs itself, there and then, bring all its principal
to its token account, and touch no other deposit and no intent on another. -/
theorem principal_recoverable {rt : Runtime} (hinj : NonceInjective rt) {es : List Event} {s : State}
    (h : Run rt es s) {k : Pubkey} {d : Deposit} (hd : s.deposits.lookup k = some d)
    (hkept : CoveredOn s k → ∀ e ∈ es, ¬ AcceptsController e) {ctx : TxContext}
    (hexpired : ∀ kl l, s.intent_locks.lookup kl = some l → l.deposit = k → l.expiry_time < ctx.now)
    {dst : Pubkey} {dust : Option Pubkey} (haccounts : ExitAccounts s d dst dust)
    (hsupplied : 0 < excess s k d → excess s k d ≤ s.escrow_config.dust_threshold →
      dust.isSome = true)
    (hapart : DustApart k dst dust) :
    TxMachine.Reaches (genesis rt) (step rt)
      (fun e => SignedByKey e d.depositor
        ∧ (PrunedBy ctx d.depositor e ∨ WithdrawnBy ctx d.depositor k e))
      es (MakerLeft k d dst dust s) := by
  have hsigns : d.depositor.can_sign = true := ((Run.escrow h).1.deposit k d hd).signs
  have hclears := Run.clears hinj h hkept hexpired hsigns
  refine (hclears.mono ?_ fun _ hs => hs).trans fun new s₁ hrun _ hs₁ => ?_
  · rintro e ⟨htime, accounts, hix, hcaller⟩
    exact ⟨⟨_, hix, hcaller, hsigns⟩, .inl ⟨htime, accounts, hix, hcaller⟩⟩
  · obtain ⟨hcleared, hnone⟩ := hs₁
    refine (Run.leaves hrun hd hcleared hnone haccounts hsupplied hapart ctx).mono ?_ fun _ hs => hs
    rintro e ⟨htime, accounts, hix, hdepositor, hk⟩
    exact ⟨⟨_, hix, hdepositor, hsigns⟩, .inr ⟨htime, accounts, hix, hdepositor, hk⟩⟩

/-- The locks on a deposit have expired, computed. -/
def locks_expired (s : State) (now : ℤ) : Bool :=
  decide (∀ kl ∈ s.intent_locks.keys, ∀ l ∈ s.intent_locks.lookup kl, l.expiry_time < now)

theorem locks_expired_sound {s : State} {now : ℤ} (h : locks_expired s now = true) (kl : Pubkey)
    (l : EscrowIntentLock) (hl : s.intent_locks.lookup kl = some l) : l.expiry_time < now := by
  have hkey : kl ∈ s.intent_locks.keys := Finmap.mem_keys.mpr (Finmap.mem_of_lookup_eq_some hl)
  exact of_decide_eq_true h kl hkey l hl

/-- With the escrow paused, three tokens too many in the vault and a covered intent that nobody
pays, the sample depositor gets the whole principal back. -/
theorem principal_recoverable_paused :
    ∃ es s d, Run sample_runtime es s ∧ s.escrow_config.paused = true
      ∧ s.deposits.lookup sample_deposit = some d ∧ 0 < d.outstanding_intent_amount
      ∧ ∃ new s', Run sample_runtime (es ++ new) s' ∧ (∀ e ∈ new, SignedByKey e d.depositor)
        ∧ balance s'.tokens (sample_key 103) = balance s.tokens (sample_key 103) + d.liability := by
  obtain ⟨es, s, hrun, hgood⟩ := sample_reaches
    [sample_setup, sample_cover, sample_donated sample_staker]
    (fun es s => (es.all fun e => !accepts_controller e) && locks_expired s 90001
      && (s.deposits.lookup sample_deposit).any fun d : Deposit => s.escrow_config.paused
        && decide (0 < d.outstanding_intent_amount)
        && token_account_at s (sample_key 103) d.token_mint d.depositor
        && token_account_at s (sample_key 102) d.token_mint s.escrow_config.dust_recipient)
    (by decide +kernel)
  simp only [Option.any_eq_true, Bool.and_eq_true, decide_eq_true_eq, List.all_eq_true] at hgood
  obtain ⟨⟨hkept, hlocks⟩, d, hd, ⟨⟨hpaused, hreserved⟩, hdepositor⟩, hdust⟩ := hgood
  have hapart : DustApart sample_deposit (sample_key 103) (some (sample_key 102)) := by
    rintro _ ⟨⟩
    decide
  have hexpired : ∀ kl l, s.intent_locks.lookup kl = some l → l.deposit = sample_deposit →
      l.expiry_time < (sample_ctx 90001).now := fun kl l hl _ => locks_expired_sound hlocks kl l hl
  obtain ⟨new, s', hrun', hnew, hleft⟩ := principal_recoverable sample_nonce_injective hrun hd
    (fun _ e he => not_accepts_controller (hkept e he)) hexpired
    (exit_accounts_of hdepositor hdust) (fun _ _ => rfl) hapart
  refine ⟨es, s, d, hrun, hpaused, hd, hreserved, new, s', hrun', fun e he => (hnew e he).1, ?_⟩
  rw [hleft.paid _ (by decide), if_pos rfl, if_neg]
  · rfl
  · rintro ⟨-, heq⟩
    exact absurd heq (by decide)

end Zkp2pSolana
