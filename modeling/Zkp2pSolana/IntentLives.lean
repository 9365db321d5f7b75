/-
The life of an intent.

An intent is opened by its signal, which reserves its amount at the deposit. It
stays as it was signaled. It is ended once, in one of four ways, each of which
has its own authority: the owner cancels it, anybody prunes it once its lock has
expired, a payment that the witnesses attest fulfils it, or the maker releases
it. What is released leaves the vault, the rest of the reservation is liquidity
again, and its number never names an intent again.
-/
import Zkp2pSolana.Issuance
import Zkp2pSolana.Lib.TxLife
import Zkp2pSolana.Replay

set_option autoImplicit false

namespace Zkp2pSolana

open Result Zkp2pError

/-! ## Opening and ending -/

/-- The intent an instruction ends. -/
def ended_intent : TopLevel → Option Pubkey
  | .program (.cancel_intent accounts) => some accounts.intent
  | .program (.prune_expired_intent accounts) => some accounts.intent
  | .program (.fulfill_intent accounts _) => some accounts.intent
  | .program (.manual_release accounts) => some accounts.intent
  | _ => none

/-- The event opens the intent numbered `n` or ends it. -/
def TouchesIntent (n : ℕ) (e : Event) : Prop :=
  Numbered.issues .intent e = some n
    ∨ ended_intent e.ix = some (intent_address orchestrator_address n)

/-- The event opens `i` under the number `n` as its signal says, and reserves its amount at its
deposit, whose terms stay; no other deposit changes. -/
structure IntentOpened (n : ℕ) (e : Event) (i : Intent) : Prop where
  number : e.pre.orchestrator.next_intent_id = n
  signaled : ∃ accounts args, e.ix = .program (.signal_intent accounts args)
    ∧ accounts.taker.can_sign = true ∧ SignaledTerms accounts args e.pre i
  reserved : ∃ d d', e.pre.deposits.lookup i.deposit = some d
    ∧ e.post.deposits.lookup i.deposit = some d'
    ∧ d'.remaining_deposits + i.amount = d.remaining_deposits
    ∧ d'.outstanding_intent_amount = d.outstanding_intent_amount + i.amount ∧ d'.terms = d.terms
  others : ∀ k, k ≠ i.deposit → e.post.deposits.lookup k = e.pre.deposits.lookup k
  locked : ∃ l, e.post.intent_locks.lookup (intent_lock_address i.deposit i.intent_hash) = some l
    ∧ Paired i l

/-- The ways to end the intent `i`: who may, when, and how much of it is released. -/
inductive Ending (rt : Runtime) (e : Event) (i : Intent) : ℕ → Prop
  | cancelled {accounts : CancelIntent} (ix : e.ix = .program (.cancel_intent accounts))
      (owner : accounts.owner = i.owner) (signs : accounts.owner.can_sign = true) : Ending rt e i 0
  | pruned {accounts : PruneExpiredIntent} {l : EscrowIntentLock}
      (ix : e.ix = .program (.prune_expired_intent accounts))
      (lock : e.pre.intent_locks.lookup (intent_lock_address i.deposit i.intent_hash) = some l)
      (expired : l.expiry_time < e.ctx.now) : Ending rt e i 0
  | fulfilled {accounts : FulfillIntent} {args : FulfillIntentArgs}
      (ix : e.ix = .program (.fulfill_intent accounts args))
      (verified : verify_payment_attestation rt verifier_address e.pre.verifier i args.attestation
        = .ok args.expected_nullifier) :
      Ending rt e i (Min.min args.attestation.release_amount i.amount)
  | released {accounts : ManualRelease} {d : Deposit}
      (ix : e.ix = .program (.manual_release accounts))
      (deposit : e.pre.deposits.lookup i.deposit = some d)
      (maker : accounts.depositor = d.depositor) (signs : accounts.depositor.can_sign = true) :
      Ending rt e i i.amount

/-- The event ends the intent `i` at `k`: of its reservation `released` leaves the vault and the
rest is liquidity again. The terms of its deposit stay, and no other deposit changes. -/
structure IntentEnded (rt : Runtime) (k : Pubkey) (e : Event) (i : Intent) (released : ℕ) :
    Prop where
  names : ended_intent e.ix = some k
  how : Ending rt e i released
  bounded : released ≤ i.amount
  vault : balance e.post.tokens (deposit_vault_address i.deposit) + released
    = balance e.pre.tokens (deposit_vault_address i.deposit)
  freed : ∃ d d', e.pre.deposits.lookup i.deposit = some d
    ∧ e.post.deposits.lookup i.deposit = some d'
    ∧ d'.remaining_deposits + released = d.remaining_deposits + i.amount
    ∧ d'.outstanding_intent_amount + i.amount = d.outstanding_intent_amount ∧ d'.terms = d.terms
  others : ∀ k, k ≠ i.deposit → e.post.deposits.lookup k = e.pre.deposits.lookup k
  unlocked : e.post.intent_locks.lookup (intent_lock_address i.deposit i.intent_hash) = none

/-! ## One event -/

section Events

variable {rt : Runtime} {e : Event}

/-- Closing a live intent ends it, if its deposit and its vault add up. -/
theorem IntentEnded.of_closed {k : Pubkey} {live : LiveIntent} {d' : Deposit} {released : ℕ}
    (hs : CustodyInv rt e.pre) (hlive : live_intent k e.pre = .ok live)
    (hends : ended_intent e.ix = some k) (how : Ending rt e live.intent released)
    (hdeposits : e.post.deposits = e.pre.deposits.insert live.intent.deposit d')
    (hlocks : e.post.intent_locks = e.pre.intent_locks.erase
      (intent_lock_address live.intent.deposit live.intent.intent_hash))
    (hle : released ≤ live.lock.amount)
    (hremaining : d'.remaining_deposits + released
      = live.deposit.remaining_deposits + live.lock.amount)
    (houtstanding : d'.outstanding_intent_amount + live.lock.amount
      = live.deposit.outstanding_intent_amount)
    (hterms : d'.terms = live.deposit.terms)
    (hvault : balance e.post.tokens (deposit_vault_address live.intent.deposit) + released
      = balance e.pre.tokens (deposit_vault_address live.intent.deposit)) :
    IntentEnded rt k e live.intent released := by
  obtain ⟨hi, -, hd, hl, -⟩ := live_intent_ok hlive
  -- the lock that is erased is the intent's own
  obtain ⟨l, hl', hpaired⟩ := (hs.intents k _ hi).lock
  rw [hl] at hl'
  cases hl'
  have hamount := hpaired.amount
  refine ⟨hends, how, by omega, hvault, ⟨live.deposit, d', hd, ?_, by omega, by omega, hterms⟩,
    fun k' hk' => ?_, ?_⟩
  · rw [hdeposits, Finmap.lookup_insert]
  · rw [hdeposits, Finmap.lookup_insert_of_ne _ hk']
  · rw [hlocks, Finmap.lookup_erase]

/-- A settlement ends the intent for what it pays. -/
theorem IntentEnded.of_settled {ctx : TxContext} {k : Pubkey} {live : LiveIntent}
    {tokens : SettlementTokenAccounts} {dispute : SettlementDisputeAccounts}
    {remaining_accounts : List AccountInfo} {released : ℕ} {s₁ : State}
    (hs : CustodyInv rt e.pre) (hlive : live_intent k e.pre = .ok live)
    (hends : ended_intent e.ix = some k) (how : Ending rt e live.intent released)
    (h : settle_intent ctx k live tokens dispute remaining_accounts released e.pre = .ok s₁)
    (hescrow : e.post.toEscrowRecords = s₁.toEscrowRecords) (htokens : e.post.tokens = s₁.tokens) :
    IntentEnded rt k e live.intent released := by
  obtain ⟨s₂, d', T, hdispute, hsettle, hpaid, rfl⟩ := settle_intent_ok h
  have hterms := Deposit.settle_terms hsettle
  obtain ⟨-, hle, hout, -, hd'⟩ := Deposit.settle_ok hsettle
  obtain ⟨-, -, hd, -, -⟩ := live_intent_ok hlive
  -- settling the coverage writes no record of the escrow
  have hrest : s₂.toEscrowRecords = e.pre.toEscrowRecords := by
    rw [settle_dispute_rest hdispute]
  have hdeposits : e.post.deposits = e.pre.deposits.insert live.intent.deposit d' := by
    rw [congrArg (·.deposits) hescrow]
    show s₂.deposits.insert live.intent.deposit d' = _
    rw [congrArg (·.deposits) hrest]
  have hlocks : e.post.intent_locks = e.pre.intent_locks.erase
      (intent_lock_address live.intent.deposit live.intent.intent_hash) := by
    rw [congrArg (·.intent_locks) hescrow]
    show s₂.intent_locks.erase _ = _
    rw [congrArg (·.intent_locks) hrest]
  refine .of_closed hs hlive hends how hdeposits hlocks hle ?_ ?_ hterms ?_
  -- what is not released goes back to the free liquidity, and the whole lock leaves the
  -- reservations
  · rw [hd']
    show live.deposit.remaining_deposits + (live.lock.amount - released) + released = _
    omega
  · rw [hd']
    exact Nat.sub_add_cancel hout
  -- the vault pays exactly what is released
  · obtain ⟨a, hvault⟩ := (hs.deposits _ _ hd).vault
    obtain ⟨a', ha', -, -, hamount⟩ := hpaid.source a hvault.found
    rw [htokens, balance_eq hvault.found]
    show balance T _ + released = a.amount
    rw [balance_eq ha']
    exact hamount

/-- A cancellation or a prune ends the intent for nothing. -/
theorem IntentEnded.of_unlocked {k : Pubkey} {live : LiveIntent} {d' : Deposit}
    (hs : CustodyInv rt e.pre) (hlive : live_intent k e.pre = .ok live)
    (hends : ended_intent e.ix = some k) (how : Ending rt e live.intent 0)
    (hunlock : live.deposit.unlock live.lock.amount = .ok d')
    (hdeposits : e.post.deposits = e.pre.deposits.insert live.intent.deposit d')
    (hlocks : e.post.intent_locks = e.pre.intent_locks.erase
      (intent_lock_address live.intent.deposit live.intent.intent_hash))
    (htokens : e.post.tokens = e.pre.tokens) : IntentEnded rt k e live.intent 0 := by
  have hterms := Deposit.unlock_terms hunlock
  obtain ⟨hout, -, -, hd'⟩ := Deposit.unlock_ok hunlock
  refine .of_closed hs hlive hends how hdeposits hlocks (Nat.zero_le _) ?_ ?_ hterms ?_
  · rw [hd']
    rfl
  · rw [hd']
    exact Nat.sub_add_cancel hout
  · rw [htokens]
    rfl

/-- An instruction that ends an intent ends one that is live, and takes it away. -/
theorem intent_ended (hv : e.Valid (step rt)) (hs : CustodyInv rt e.pre) {k : Pubkey}
    (hends : ended_intent e.ix = some k) :
    ∃ i released, e.pre.intents.lookup k = some i ∧ IntentEnded rt k e i released
      ∧ e.post.intents = e.pre.intents.erase k
      ∧ e.post.orchestrator.next_intent_id = e.pre.orchestrator.next_intent_id := by
  unfold ended_intent at hends
  -- the four endings: the first two release nothing, the last two what they pay
  split at hends
  · rename_i accounts hix
    cases hends
    have ok : handle_cancel_intent accounts e.pre = .ok e.post := valid_execute hv hix
    obtain ⟨live, _, d', hlive, hsigns, howner, -, -, hunlock, hpost⟩ := cancel_intent_ok ok
    obtain ⟨hi, -⟩ := live_intent_ok hlive
    refine ⟨live.intent, 0, hi, .of_unlocked hs hlive (by rw [hix]; rfl)
      (.cancelled hix howner hsigns) hunlock ?_ ?_ ?_, ?_, ?_⟩
    all_goals rw [hpost]; rfl
  · rename_i accounts hix
    cases hends
    have ok : handle_prune_expired_intent e.ctx accounts e.pre = .ok e.post := valid_execute hv hix
    obtain ⟨live, s₁, d', hlive, hexpired, hprune, hunlock, hpost⟩ := prune_expired_intent_ok ok
    obtain ⟨hi, -, -, hl, -⟩ := live_intent_ok hlive
    refine ⟨live.intent, 0, hi, .of_unlocked hs hlive (by rw [hix]; rfl)
      (.pruned hix hl hexpired) hunlock ?_ ?_ ?_, ?_, ?_⟩
    all_goals rw [hpost, prune_dispute_rest hprune]; rfl
  · rename_i accounts args hix
    cases hends
    have ok : handle_fulfill_intent rt e.ctx accounts args e.pre = .ok e.post := valid_execute hv hix
    obtain ⟨live, s₁, hlive, -, -, -, hverify, hsettle, hpost⟩ := fulfill_intent_ok ok
    obtain ⟨hi, -⟩ := live_intent_ok hlive
    obtain ⟨hintents, hnonce⟩ := settle_intent_keeps hsettle
    refine ⟨live.intent, _, hi, .of_settled hs hlive (by rw [hix]; rfl)
      (.fulfilled hix hverify) hsettle ?_ ?_, ?_, ?_⟩
    · rw [hpost]
    · rw [hpost]
    · rw [hpost]
      exact hintents
    · rw [hpost]
      exact hnonce
  · rename_i accounts hix
    cases hends
    have ok : handle_manual_release e.ctx accounts e.pre = .ok e.post := valid_execute hv hix
    obtain ⟨live, hlive, hsigns, hmaker, hsettle⟩ := manual_release_ok ok
    obtain ⟨hi, -, hd, -, -⟩ := live_intent_ok hlive
    obtain ⟨hintents, hnonce⟩ := settle_intent_keeps hsettle
    exact ⟨live.intent, _, hi, .of_settled hs hlive (by rw [hix]; rfl)
      (.released hix hd hmaker hsigns) hsettle rfl rfl, hintents, hnonce⟩
  · cases hends

/-- A signal opens the intent of the next number. -/
theorem intent_opened (hv : e.Valid (step rt)) {accounts : SignalIntent} {args : SignalIntentArgs}
    (hix : e.ix = .program (.signal_intent accounts args)) :
    ∃ i, IntentOpened e.pre.orchestrator.next_intent_id e i
      ∧ e.post.intents = e.pre.intents.insert
        (intent_address orchestrator_address e.pre.orchestrator.next_intent_id) i
      ∧ e.post.orchestrator.next_intent_id = e.pre.orchestrator.next_intent_id + 1 := by
  obtain ⟨d, d', a, i, expiry, state, hsignaled⟩ := signal_intent_ok (valid_execute hv hix)
  have hterms := hsignaled.terms
  have hpost := hsignaled.post
  obtain ⟨-, -, -, hle, -, hd'⟩ := Deposit.lock_ok hsignaled.locked
  refine ⟨i, ⟨rfl, ⟨accounts, args, hix, hsignaled.signs, hterms⟩,
    ⟨d, d', ?_, ?_, ?_, ?_, Deposit.lock_terms hsignaled.locked⟩, fun k hk => ?_,
    new_intent_lock i expiry, ?_, ⟨rfl, rfl, hterms.orchestrator.symm, rfl, rfl⟩⟩, ?_, ?_⟩
  · rw [hterms.deposit]
    exact hsignaled.deposit
  · rw [hpost, hterms.deposit, Finmap.lookup_insert]
  · rw [hd', hterms.amount]
    exact Nat.sub_add_cancel hle
  · rw [hd', hterms.amount]
  · rw [hterms.deposit] at hk
    rw [hpost, Finmap.lookup_insert_of_ne _ hk]
  · rw [hpost, hterms.deposit, hterms.intent_hash, Finmap.lookup_insert]
  · rw [hpost]
  · rw [hpost]

/-- Every other instruction leaves the intents and their counter alone. -/
theorem intents_kept (hv : e.Valid (step rt)) (hquiet : Numbered.intent.creates e.ix = false)
    (hends : ended_intent e.ix = none) :
    e.post.intents = e.pre.intents
      ∧ e.post.orchestrator.next_intent_id = e.pre.orchestrator.next_intent_id := by
  have hmove := lifecycle_move hv
  generalize e.ix = ix at hmove hquiet hends
  cases hmove with
  | idle frame => exact ⟨frame.intents, frame.nonce⟩
  | signal_intent => cases hquiet
  | cancel_intent | prune_expired_intent | fulfill_intent | manual_release => cases hends
  | prepare_dispute prepared follows =>
    rw [prepared.post]
    exact ⟨rfl, rfl⟩
  | cancel_dispute ok =>
    rw [cancel_dispute_rest ok]
    exact ⟨rfl, rfl⟩
  | release_matured_dispute ok =>
    obtain ⟨_, _, _, _, -, -, -, -, -, -, -, -, hpost⟩ := release_matured_dispute_ok ok
    rw [hpost]
    exact ⟨rfl, rfl⟩
  | submit_dispute ok =>
    obtain ⟨_, _, _, _, _, _, hdisputed, -⟩ := submit_dispute_ok ok
    rw [hdisputed.post]
    exact ⟨rfl, rfl⟩

/-- An instruction that opens an intent is a signal, and ends none. -/
theorem creates_intent {ix : TopLevel} (h : Numbered.intent.creates ix = true) :
    (∃ accounts args, ix = .program (.signal_intent accounts args)) ∧ ended_intent ix = none := by
  unfold Numbered.creates at h
  split at h
  · contradiction
  · exact ⟨⟨_, _, rfl⟩, rfl⟩
  · contradiction
  · contradiction
  · cases h

/-- Every event leaves the intent numbered `n` as it is, opens it or ends it. -/
theorem intent_life_move (hv : e.Valid (step rt)) (hs : CustodyInv rt e.pre) (n : ℕ) :
    TxMachine.LifeMove (fun s : State => s.intents.lookup (intent_address orchestrator_address n))
      (fun s => n < s.orchestrator.next_intent_id) (TouchesIntent n) (IntentOpened n)
      (fun e i =>
        ∃ released, IntentEnded rt (intent_address orchestrator_address n) e i released) e := by
  by_cases hcreates : Numbered.intent.creates e.ix = true
  · obtain ⟨⟨accounts, args, hix⟩, hends⟩ := creates_intent hcreates
    obtain ⟨i, hopened, hintents, hnext⟩ := intent_opened hv hix
    -- a signal opens the life of the number it issues, and touches no other
    by_cases hn : n = e.pre.orchestrator.next_intent_id
    · subst hn
      refine .opened (Nat.lt_irrefl _) ?_ ?_ hopened
      · rw [hnext]
        exact Nat.lt_succ_self _
      · rw [hintents, Finmap.lookup_insert]
    · have hkey : intent_address orchestrator_address n
          ≠ intent_address orchestrator_address e.pre.orchestrator.next_intent_id :=
        fun heq => hn (Numbered.address_injective .intent heq)
      refine .quiet ?_ ?_ ?_
      · rintro (hissues | hends')
        · unfold Numbered.issues at hissues
          rw [if_pos hcreates] at hissues
          exact hn (Option.some.inj hissues).symm
        · rw [hends] at hends'
          cases hends'
      · rw [hintents, Finmap.lookup_insert_of_ne _ hkey]
      · rw [hnext]
        omega
  have hissues : Numbered.issues .intent e = none := if_neg hcreates
  -- what issues nothing ends an intent or leaves all of them alone
  cases hends : ended_intent e.ix with
  | none =>
    obtain ⟨hintents, hnext⟩ := intents_kept hv (Bool.eq_false_iff.mpr hcreates) hends
    refine .quiet ?_ (by rw [hintents]) (by rw [hnext])
    rintro (h | h)
    · rw [hissues] at h
      cases h
    · rw [hends] at h
      cases h
  | some k =>
    obtain ⟨i, released, hi, hended, hintents, hnext⟩ := intent_ended hv hs hends
    by_cases hk : k = intent_address orchestrator_address n
    · subst hk
      refine .closed hi ?_ (by rw [hnext]) ⟨released, hended⟩
      rw [hintents, Finmap.lookup_erase]
    · refine .quiet ?_ ?_ (by rw [hnext])
      · rintro (h | h)
        · rw [hissues] at h
          cases h
        · rw [hends] at h
          exact hk (Option.some.inj h)
      · rw [hintents, Finmap.lookup_erase_ne (Ne.symm hk)]

end Events

/-- The life of the intent numbered `n` in a log that leads to `s`. -/
def IntentLife (rt : Runtime) (n : ℕ) (es : List Event) (s : State) : Prop :=
  TxMachine.Life (fun s : State => s.intents.lookup (intent_address orchestrator_address n))
    (fun s => n < s.orchestrator.next_intent_id) (TouchesIntent n) (IntentOpened n)
    (fun e i => ∃ released, IntentEnded rt (intent_address orchestrator_address n) e i released) es s

/-- The event that opens an intent issues its number and ends none. -/
theorem IntentOpened.touches {n : ℕ} {e : Event} {i : Intent} (h : IntentOpened n e i) :
    Numbered.issues .intent e = some n ∧ ended_intent e.ix = none := by
  obtain ⟨accounts, args, hix, -⟩ := h.signaled
  have hcreates : Numbered.intent.creates e.ix = true := by
    rw [hix]
    rfl
  refine ⟨?_, (creates_intent hcreates).2⟩
  unfold Numbered.issues
  rw [if_pos hcreates]
  exact congrArg some h.number

/-- From its life it can be told whether an intent is live. -/
theorem IntentLife.live_iff {rt : Runtime} {n : ℕ} {es : List Event} {s : State}
    (h : IntentLife rt n es s) :
    (s.intents.lookup (intent_address orchestrator_address n)).isSome = true
      ↔ (∃ e ∈ es, Numbered.issues .intent e = some n)
        ∧ ∀ e ∈ es, ended_intent e.ix ≠ some (intent_address orchestrator_address n) := by
  -- unborn numbers were never issued, live ones have not been ended, and ended ones have: one
  -- direction each is empty
  cases h with
  | unborn _ absent untouched =>
    constructor
    · intro hlive
      rw [absent] at hlive
      cases hlive
    · rintro ⟨⟨e, he, hissues⟩, -⟩
      exact absurd (.inl hissues) (untouched e he)
  | @live past future o _ i opened _ stored before since =>
    obtain ⟨hissues, hends⟩ := opened.touches
    refine ⟨fun _ => ⟨⟨o, List.mem_append_right _ List.mem_cons_self, hissues⟩, fun e he hended => ?_⟩,
      fun _ => ?_⟩
    · rcases List.mem_append.mp he with he | he
      · exact before e he (.inr hended)
      rcases List.mem_cons.mp he with rfl | he
      · rw [hends] at hended
        cases hended
      · exact since e he (.inr hended)
    · rw [stored]
      rfl
  | @ended past between future o c _ i _ closed _ gone =>
    constructor
    · intro hlive
      rw [gone] at hlive
      cases hlive
    · rintro ⟨-, hnone⟩
      obtain ⟨released, hended⟩ := closed
      have hc : c ∈ past ++ o :: (between ++ c :: future) := by simp
      exact absurd hended.names (hnone c hc)

/-- Every intent number lives once: nothing in the log opens or ends it and it is yet to come; or one
signal opened it, it is live as that left it, and no other event opens or ends it; or one signal opened
it, one later event ended it as it was, in one of the four ways, and no other event opens or ends it.
So the log alone tells whether it is live. -/
theorem intents_live_once {rt : Runtime} {es : List Event} {s : State} (h : Run rt es s) (n : ℕ) :
    IntentLife rt n es s
      ∧ ((s.intents.lookup (intent_address orchestrator_address n)).isSome = true
        ↔ (∃ e ∈ es, Numbered.issues .intent e = some n)
          ∧ ∀ e ∈ es, ended_intent e.ix ≠ some (intent_address orchestrator_address n)) := by
  obtain ⟨-, hcustody⟩ := Run.own_locks h
  have hlife : IntentLife rt n es s := by
    refine TxMachine.Run.life (G := (· ∈ es)) (fun s₀ h₀ => ?_)
      (fun e he hv => intent_life_move hv (hcustody e he).1.2.1 n) h fun _ he => he
    obtain ⟨_, _, _, _, _, _, _, rfl, -⟩ := genesis_ok h₀
    exact ⟨Nat.not_lt_zero n, rfl⟩
  exact ⟨hlife, hlife.live_iff⟩

/-- On the sample cluster the covered intent was released, and a further one is yet to come. -/
theorem intents_live_once_released :
    ∃ es s, Run sample_runtime es s ∧ IntentLife sample_runtime 0 es s
      ∧ IntentLife sample_runtime 1 es s ∧ s.orchestrator.next_intent_id = 1
      ∧ s.intents.lookup (intent_address orchestrator_address 0) = none
      ∧ ∃ e ∈ es, ended_intent e.ix = some (intent_address orchestrator_address 0) := by
  obtain ⟨es, s, hrun, hgood⟩ := sample_reaches [sample_setup, sample_cover, sample_manual_release]
    (fun es s => decide (s.orchestrator.next_intent_id = 1)
      && (s.intents.lookup (intent_address orchestrator_address 0)).isNone
      && es.any fun e => decide (ended_intent e.ix = some (intent_address orchestrator_address 0)))
    (by decide +kernel)
  simp only [Bool.and_eq_true, decide_eq_true_eq, List.any_eq_true,
    Option.isNone_iff_eq_none] at hgood
  obtain ⟨⟨hnext, hgone⟩, hended⟩ := hgood
  exact ⟨es, s, hrun, (intents_live_once hrun 0).1, (intents_live_once hrun 1).1, hnext, hgone, hended⟩

end Zkp2pSolana
