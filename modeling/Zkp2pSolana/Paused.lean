/-
What a pause stops.

Governance has three switches: it pauses the escrow, the orchestrator, or the
admission of coverage. Each is a flag that some instructions check and one
instruction of the authority sets. Coverage is prepared only in front of its
signal in the same transaction, so whatever stops the signal stops it too. While
a switch is off, and until governance sets it again, a run goes one way: nothing
is opened that the switch is for, and what is open only winds down.
-/
import Zkp2pSolana.Audit
import Zkp2pSolana.Bindings
import Zkp2pSolana.DisputeHistory
import Zkp2pSolana.IntentLives
import Zkp2pSolana.Lib.TxHistory
import Zkp2pSolana.Withdrawal

set_option autoImplicit false

namespace Zkp2pSolana

open Result Zkp2pError

/-- The switches of governance. -/
inductive Switch where
  | escrow
  | orchestrator
  | admissions
  deriving DecidableEq, Repr

namespace Switch

/-- The switch is off: what it is for is paused. -/
def off : Switch → State → Bool
  | .escrow, s => s.escrow_config.paused
  | .orchestrator, s => s.orchestrator.paused
  | .admissions, s => s.dispute_config.admissions_paused

/-- The instruction can set the switch. -/
def sets : Switch → TopLevel → Bool
  | .escrow, .program (.governance (.configure_escrow _ _)) => true
  | .orchestrator, .program (.governance (.configure_orchestrator _ _)) => true
  | .admissions, .program (.dispute_policy (.set_dispute_admissions_paused _ _)) => true
  | _, _ => false

/-- The instruction checks the switch. -/
def checks : Switch → TopLevel → Bool
  | .escrow, .program (.custody (.withdraw_deposit _)) => false
  | .escrow, .program (.custody _) => true
  | .escrow, .program (.deposit_config (.extend_intent_expiry _ _)) => false
  | .escrow, .program (.deposit_config _) => true
  | .escrow, .program (.signal_intent _ _) => true
  | .orchestrator, .program (.signal_intent _ _) => true
  | .orchestrator, .program (.fulfill_intent _ _) => true
  | .admissions, .program (.prepare_dispute _ _) => true
  | _, _ => false

end Switch

/-- The instruction prepares coverage. -/
def prepares : TopLevel → Bool
  | .program (.prepare_dispute _ _) => true
  | _ => false

/-! ## What is left alone -/

/-- No coverage was prepared. -/
def NoNewCoverage (s s' : State) : Prop :=
  ∀ hash, s.coverage_at hash = none → s'.coverage_at hash = none

/-- No intent was signaled. -/
structure NoNewIntents (s s' : State) : Prop where
  next : s'.orchestrator.next_intent_id = s.orchestrator.next_intent_id
  intents : ∀ k i, s'.intents.lookup k = some i → s.intents.lookup k = some i

/-- The terms of a deposit that a withdrawal leaves alone. -/
def Deposit.offer (d : Deposit) : DepositTerms :=
  { d.terms with accepting_intents := false, retain_on_empty := false }

/-- No deposit was opened, funded, or offered on other terms. -/
structure OnlyExits (s s' : State) : Prop where
  next : s'.escrow_config.next_deposit_id = s.escrow_config.next_deposit_id
  methods : s'.payment_methods = s.payment_methods
  currencies : s'.currencies = s.currencies
  liability : ∀ k, s'.liability k ≤ s.liability k
  offers : ∀ k d', s'.deposits.lookup k = some d' → ∃ d, s.deposits.lookup k = some d
    ∧ d'.offer = d.offer ∧ (d'.accepting_intents = true → d.accepting_intents = true)

/-- What the switch being off keeps from happening. -/
def Quieted : Switch → State → State → Prop
  | .escrow, s, s' => OnlyExits s s' ∧ NoNewIntents s s' ∧ NoNewCoverage s s'
  | .orchestrator, s, s' => NoNewIntents s s' ∧ NoNewCoverage s s'
    ∧ s'.payment_bindings = s.payment_bindings
  | .admissions, s, s' => NoNewCoverage s s'

section Relations

variable {a b c : State}

/-- No coverage in the first stretch and none in the second is none in both. -/
theorem NoNewCoverage.trans (h : NoNewCoverage a b) (h' : NoNewCoverage b c) : NoNewCoverage a c :=
  fun hash hnone => h' hash (h hash hnone)

/-- The same for intents. -/
theorem NoNewIntents.trans (h : NoNewIntents a b) (h' : NoNewIntents b c) : NoNewIntents a c where
  next := h'.next.trans h.next
  intents k i hi := h.intents k i (h'.intents k i hi)

theorem OnlyExits.trans (h : OnlyExits a b) (h' : OnlyExits b c) : OnlyExits a c where
  next := h'.next.trans h.next
  methods := h'.methods.trans h.methods
  currencies := h'.currencies.trans h.currencies
  liability k := (h'.liability k).trans (h.liability k)
  offers := by
    intro k d'' hd''
    obtain ⟨d', hd', hoffer', haccepts'⟩ := h'.offers k d'' hd''
    obtain ⟨d, hd, hoffer, haccepts⟩ := h.offers k d' hd'
    exact ⟨d, hd, hoffer'.trans hoffer, fun hyes => haccepts (haccepts' hyes)⟩

theorem Quieted.trans {x : Switch} (h : Quieted x a b) (h' : Quieted x b c) : Quieted x a c := by
  cases x with
  | escrow => exact ⟨h.1.trans h'.1, h.2.1.trans h'.2.1, h.2.2.trans h'.2.2⟩
  | orchestrator => exact ⟨h.1.trans h'.1, h.2.1.trans h'.2.1, h'.2.2.trans h.2.2⟩
  | admissions => exact NoNewCoverage.trans h h'

end Relations

/-! ## What a switch stops -/

section Events

variable {rt : Runtime} {e : Event}

/-- A signal goes through only while escrow and orchestrator are on. -/
theorem signal_intent_running {ctx : TxContext} {ed25519 : List (List UInt8)}
    {accounts : SignalIntent} {args : SignalIntentArgs} {s s' : State}
    (h : handle_signal_intent rt ctx ed25519 accounts args s = .ok s') :
    s.orchestrator.paused = false ∧ s.escrow_config.paused = false := by
  simp only [handle_signal_intent, bind_eq_ok, require_eq_ok, exists_const] at h
  obtain ⟨_, -, -, _, -, -, _, -, _, -, horchestrator, hescrow, -⟩ := h
  exact ⟨horchestrator, hescrow⟩

/-- An instruction that checks a switch goes through only while it is on. -/
theorem checks_on (hv : e.Valid (step rt)) {x : Switch} (hchecks : x.checks e.ix = true) :
    x.off e.pre = false := by
  unfold Switch.checks at hchecks
  -- by the switch and the kind of instruction it is asked about; each reads the flag before it
  -- writes
  split at hchecks
  · cases hchecks
  · rename_i ix hwithdraw hix
    have hok := valid_execute hv hix
    simp only [TopLevel.execute, Instruction.execute, bind_eq_ok, Prod.exists] at hok
    obtain ⟨_, _, hok, -⟩ := hok
    cases holding_write hok with
    | listed accounts args k listed => exact listed.running
    | added accounts amount d found running records => exact running
    | taken accounts amount d owns running records => exact running
    -- a withdrawal is the one custody instruction that does not ask
    | drained accounts => exact absurd rfl (hwithdraw accounts)
    | closed accounts => exact absurd rfl (hwithdraw accounts)
  · cases hchecks
  · rename_i ix hextend hix
    have hok := valid_execute hv hix
    simp only [TopLevel.execute, Instruction.execute, bind_eq_ok] at hok
    obtain ⟨_, hok, -⟩ := hok
    cases listing_write hok with
    | updated accounts args d configures => exact configures.running
    | method accounts args d configures => exact configures.running
    | currency accounts args d m configures => exact configures.running
    | manager accounts rate_manager manager d configures => exact configures.running
    -- and an extension the one configuration instruction
    | expiry accounts additional_time => exact absurd rfl (hextend accounts additional_time)
  · rename_i accounts args hix
    exact (signal_intent_running (valid_execute hv hix)).2
  · rename_i accounts args hix
    exact (signal_intent_running (valid_execute hv hix)).1
  · rename_i accounts args hix
    have hok : handle_fulfill_intent rt e.ctx accounts args e.pre = .ok e.post := valid_execute hv hix
    simp only [handle_fulfill_intent, bind_eq_ok, require_eq_ok, exists_const] at hok
    obtain ⟨_, -, hrunning, -⟩ := hok
    exact hrunning
  · rename_i accounts args hix
    have hok : handle_prepare_dispute rt (following_signal e.after) accounts args e.pre = .ok e.post :=
      valid_execute hv hix
    simp only [handle_prepare_dispute, bind_eq_ok, require_eq_ok, exists_const] at hok
    obtain ⟨_, -, -, -, _, -, -, _, -, _, -, -, _, -, -, _, -, _, -, hrunning, -⟩ := hok
    exact hrunning
  · cases hchecks

/-- While a switch is off no instruction that checks it goes through. -/
theorem off_checks (hv : e.Valid (step rt)) {x : Switch} (hoff : x.off e.pre = true) :
    x.checks e.ix = false := by
  by_contra hchecks
  have hon := checks_on hv (Bool.eq_true_of_not_eq_false hchecks)
  rw [hoff] at hon
  cases hon

/-- Only its own instruction sets a switch. -/
theorem switch_kept (hv : e.Valid (step rt)) {x : Switch} (hsets : x.sets e.ix = false) :
    x.off e.post = x.off e.pre := by
  cases x with
  | escrow =>
    rcases (policy_move hv).escrow with hsame | ⟨accounts, args, hix, -⟩
    · unfold SameEscrowSettings at hsame
      show e.post.escrow_config.paused = e.pre.escrow_config.paused
      rw [hsame]
    · rw [hix] at hsets
      cases hsets
  | orchestrator =>
    rcases (config_move hv).orchestrator with hsame | ⟨accounts, args, hix, -⟩
    · unfold SameSettings at hsame
      show e.post.orchestrator.paused = e.pre.orchestrator.paused
      rw [hsame]
    · rw [hix] at hsets
      cases hsets
  -- the admissions flag shares its record with the wiring, and only one instruction writes the flag
  | admissions =>
    rcases policy_event hv with ⟨ix, hix, hwrite⟩ | ⟨-, hsame⟩
    · rw [hix] at hsets
      cases hwrite with
      | window accounts payment_method seconds signs authority range records =>
        exact congrArg (·.dispute_config.admissions_paused) records
      | admissions => cases hsets
      | setting accounts enabled d authority records =>
        exact congrArg (·.dispute_config.admissions_paused) records
    · exact congrArg (fun p : DisputePolicy => p.dispute_config.admissions_paused) hsame

/-- Coverage is prepared only while all switches are on: its signal comes next. -/
theorem prepares_on {es : List Event} {s : State} (h : Run rt es s) (he : e ∈ es)
    (hprepares : prepares e.ix = true) (x : Switch) : x.off e.pre = false := by
  unfold prepares at hprepares
  split at hprepares
  · rename_i accounts args hix
    have hv := TxMachine.Run.valid h e he
    have hok : handle_prepare_dispute rt (following_signal e.after) accounts args e.pre = .ok e.post :=
      valid_execute hv hix
    obtain ⟨_, _, _, _, signal, signal_args, hprepared, hfollows⟩ := prepare_dispute_ok hok
    have hnext := hfollows.next
    unfold following_signal at hnext
    split at hnext
    · rename_i later hafter
      cases hnext
      -- committed with its signal, so the signal's checks of the two other switches were passed as
      -- well
      obtain ⟨s', hsignal⟩ := TxMachine.Run.after_executed h e he _ _ hafter
      have hrunning := signal_intent_running hsignal
      -- what the signal read, the preparation left as it was
      rw [hprepared.post] at hrunning
      cases x with
      | escrow => exact hrunning.2
      | orchestrator => exact hrunning.1
      | admissions =>
        refine checks_on hv ?_
        rw [hix]
        rfl
    · cases hnext
  · cases hprepares

/-- Without a preparation no coverage is new. -/
theorem no_new_coverage (hv : e.Valid (step rt)) (hledger : LedgerOk e.pre)
    (hquiet : prepares e.ix = false) : NoNewCoverage e.pre e.post := by
  intro hash hnone
  by_contra hsome
  obtain ⟨c, hc⟩ := Option.ne_none_iff_exists'.mp hsome
  obtain ⟨accounts, args, _, _, _, _, hix, -⟩ :=
    (lifecycle_move hv).coverage_created hledger.coverage hnone hc
  rw [hix] at hquiet
  cases hquiet

/-- Without a signal no intent is new. -/
theorem no_new_intents (hv : e.Valid (step rt)) (hcustody : CustodyInv rt e.pre)
    (hquiet : Numbered.intent.creates e.ix = false) : NoNewIntents e.pre e.post := by
  cases hends : ended_intent e.ix with
  | none =>
    obtain ⟨hintents, hnext⟩ := intents_kept hv hquiet hends
    refine ⟨hnext, fun k i hi => ?_⟩
    rw [hintents] at hi
    exact hi
  | some k =>
    obtain ⟨_, _, -, -, hintents, hnext⟩ := intent_ended hv hcustody hends
    refine ⟨hnext, fun k' i hi => ?_⟩
    rw [hintents, Finmap.lookup_erase_ite] at hi
    split_ifs at hi
    exact hi

/-- Without a proof release no payment is bound. -/
theorem bindings_quiet (hv : e.Valid (step rt)) (hchecks : Switch.checks .orchestrator e.ix = false) :
    e.post.payment_bindings = e.pre.payment_bindings := by
  rcases (lifecycle_move hv).binding_write with ⟨hsame, -⟩ | ⟨accounts, args, i, hix, -⟩
  · exact hsame
  · rw [hix] at hchecks
    cases hchecks

/-- While the escrow is off nothing is paid in. -/
theorem unfunded (hv : e.Valid (step rt)) (hoff : e.pre.escrow_config.paused = true) (k : Pubkey) :
    funded k e = 0 := by
  have hchecks := off_checks hv (x := .escrow) hoff
  unfold funded
  split
  · rename_i hix
    rw [hix] at hchecks
    cases hchecks
  · rename_i hix
    rw [hix] at hchecks
    cases hchecks
  · rfl

/-- Writing one deposit with the same offer. -/
theorem offers_of_insert {s s' : State} {k : Pubkey} {d d' : Deposit}
    (hd : s.deposits.lookup k = some d) (hdeposits : s'.deposits = s.deposits.insert k d')
    (hoffer : d'.offer = d.offer) (haccepts : d'.accepting_intents = true → d.accepting_intents = true)
    (k₁ : Pubkey) (d₁' : Deposit) (hd' : s'.deposits.lookup k₁ = some d₁') :
    ∃ d₁, s.deposits.lookup k₁ = some d₁ ∧ d₁'.offer = d₁.offer
      ∧ (d₁'.accepting_intents = true → d₁.accepting_intents = true) := by
  rw [hdeposits, Finmap.lookup_insert_ite] at hd'
  by_cases hk : k₁ = k
  · rw [if_pos hk] at hd'
    cases hd'
    rw [hk]
    exact ⟨d, hd, hoffer, haccepts⟩
  · rw [if_neg hk] at hd'
    exact ⟨d₁', hd', rfl, id⟩

/-- While the escrow is off, deposits only exit. -/
theorem only_exits (hv : e.Valid (step rt)) (hledger : LedgerOk e.pre)
    (hoff : e.pre.escrow_config.paused = true) : OnlyExits e.pre e.post := by
  -- nothing is funded while the escrow is paused, so the books can only go down
  have hliability : ∀ k, e.post.liability k ≤ e.pre.liability k := by
    intro k
    have hbooked := deposit_booked hv hledger k
    rw [unfunded hv hoff] at hbooked
    omega
  have hrunning : e.pre.escrow_config.paused ≠ false := by
    rw [hoff]
    exact Bool.noConfusion
  have hkept : ∀ r : State, r.deposits = e.pre.deposits → ∀ k d', r.deposits.lookup k = some d' →
      ∃ d, e.pre.deposits.lookup k = some d ∧ d'.offer = d.offer
        ∧ (d'.accepting_intents = true → d.accepting_intents = true) := by
    intro r hsame k d' hd'
    rw [hsame] at hd'
    exact ⟨d', hd', rfl, id⟩
  cases listing_move hv with
  | kept deposits rest =>
    exact ⟨rest.next, rest.methods, rest.currencies, hliability, hkept e.post deposits⟩
  -- signals are refused by their own check; what is counted here are endings
  | counted k d d' found deposits terms rest =>
    refine ⟨rest.next, rest.methods, rest.currencies, hliability,
      offers_of_insert found deposits ?_ ?_⟩
    · unfold Deposit.offer
      rw [terms]
    · intro haccepts
      exact (congrArg DepositTerms.accepting_intents terms).symm.trans haccepts
  | drained accounts is retain d owns deposits rest =>
    exact ⟨rest.next, rest.methods, rest.currencies, hliability,
      offers_of_insert owns.found deposits rfl Bool.noConfusion⟩
  | closed accounts is d owns idle deposits rest =>
    refine ⟨rest.next, rest.methods, rest.currencies, hliability, fun k d' hd' => ?_⟩
    rw [deposits, Finmap.lookup_erase_ite] at hd'
    split_ifs at hd'
    exact ⟨d', hd', rfl, id⟩
  -- every configuration but the extension reads the switch
  | configured ix is write =>
    cases write with
    | updated accounts args d configures => exact absurd configures.running hrunning
    | method accounts args d configures => exact absurd configures.running hrunning
    | currency accounts args d m configures => exact absurd configures.running hrunning
    | manager accounts rate_manager manager d configures => exact absurd configures.running hrunning
    | expiry accounts additional_time d l signs found guardian lock key records =>
      exact ⟨congrArg (·.escrow_config.next_deposit_id) records,
        congrArg (·.payment_methods) records, congrArg (·.currencies) records, hliability,
        hkept e.post (congrArg (·.deposits) records)⟩
  | listed accounts args k is listed => exact absurd listed.running hrunning

end Events

/-! ## Whole runs -/

/-- The instruction cannot go through while the switch is off. -/
def Switch.stops (x : Switch) (ix : TopLevel) : Bool := x.checks ix || prepares ix

section Runs

variable {rt : Runtime} {es : List Event} {s : State}

/-- While a switch is off, every event of a run leaves alone what the switch is for. -/
theorem Run.stopped (h : Run rt es s) {e : Event} (he : e ∈ es) {x : Switch}
    (hoff : x.off e.pre = true) : x.stops e.ix = false ∧ Quieted x e.pre e.post := by
  have hv := TxMachine.Run.valid h e he
  obtain ⟨⟨hledger, hcustody, -⟩, -⟩ := (Run.own_locks h).2 e he
  have hchecks := off_checks hv hoff
  have hprepares : prepares e.ix = false := by
    by_contra hprepares
    have hon := prepares_on h he (Bool.eq_true_of_not_eq_false hprepares) x
    rw [hoff] at hon
    cases hon
  have hcoverage := no_new_coverage hv hledger hprepares
  have hsignals : x ≠ .admissions → NoNewIntents e.pre e.post := by
    intro hx
    refine no_new_intents hv hcustody (Bool.eq_false_iff.mpr fun hcreates => ?_)
    obtain ⟨⟨accounts, args, hix⟩, -⟩ := creates_intent hcreates
    rw [hix] at hchecks
    cases x with
    | escrow | orchestrator => cases hchecks
    | admissions => exact hx rfl
  refine ⟨by rw [Switch.stops, hchecks, hprepares, Bool.or_false], ?_⟩
  cases x with
  | escrow => exact ⟨only_exits hv hledger hoff, hsignals (by decide), hcoverage⟩
  | orchestrator => exact ⟨hsignals (by decide), hcoverage, bindings_quiet hv hchecks⟩
  | admissions => exact hcoverage

/-- A pause lasts until governance sets the switch again, and holds for all that comes meanwhile. -/
theorem Run.quieted (h : Run rt es s) {x : Switch} {past future : List Event} {e : Event}
    (hes : es = past ++ e :: future) (hoff : x.off e.pre = true)
    (hsets : ∀ q ∈ e :: future, x.sets q.ix = false) : x.off s = true ∧ Quieted x e.pre s := by
  refine TxMachine.Run.span (G := fun q => q ∈ es ∧ x.sets q.ix = false)
    (R := fun a b => x.off a = true → x.off b = true ∧ Quieted x a b) ?_ ?_ h hes
    (fun q hq => ⟨?_, hsets q hq⟩) hoff
  · intro a b c hab hbc ha
    obtain ⟨hb, hquiet⟩ := hab ha
    obtain ⟨hc, hquiet'⟩ := hbc hb
    exact ⟨hc, hquiet.trans hquiet'⟩
  · rintro q ⟨hq, hkept⟩ hv hoff
    exact ⟨(switch_kept hv hkept).trans hoff, (Run.stopped h hq hoff).2⟩
  · rw [hes]
    exact List.mem_append_right _ hq

/-- It lasts at every event in between. -/
theorem Run.off_at (h : Run rt es s) {x : Switch} {past future : List Event} {e q : Event}
    (hes : es = past ++ e :: future) (hoff : x.off e.pre = true)
    (hsets : ∀ q ∈ e :: future, x.sets q.ix = false) (hq : q ∈ e :: future) :
    x.off q.pre = true := by
  rcases List.mem_cons.mp hq with rfl | hq
  · exact hoff
  obtain ⟨between, later, rfl⟩ := List.append_of_mem hq
  refine TxMachine.Run.span_at (G := fun q => x.sets q.ix = false)
    (R := fun a b => x.off a = true → x.off b = true) (fun a b c hab hbc ha => hbc (hab ha)) ?_ h hes
    (fun p hp => ?_) hoff
  · intro p hkept hv hoff
    exact (switch_kept hv hkept).trans hoff
  · rcases List.mem_cons.mp hp with rfl | hp
    · exact hsets p List.mem_cons_self
    · exact hsets p (List.mem_cons_of_mem _ (List.mem_append_left _ hp))

end Runs

/-- From a state of a run in which a switch is off, and until governance sets it again: it stays
off, no instruction goes through that checks it or prepares coverage, and what it is for only winds
down, whatever else is executed and by whom. -/
theorem paused_only_unwinds {rt : Runtime} {es : List Event} {s : State} (h : Run rt es s)
    (x : Switch) {past future : List Event} {e : Event} (hes : es = past ++ e :: future)
    (hoff : x.off e.pre = true) (hsets : ∀ q ∈ e :: future, x.sets q.ix = false) :
    x.off s = true ∧ (∀ q ∈ e :: future, x.stops q.ix = false) ∧ Quieted x e.pre s := by
  obtain ⟨hstill, hquieted⟩ := Run.quieted h hes hoff hsets
  refine ⟨hstill, fun q hq => ?_, hquieted⟩
  have hmem : q ∈ es := by
    rw [hes]
    exact List.mem_append_right _ hq
  exact (Run.stopped h hmem (Run.off_at h hes hoff hsets hq)).1

/-- From the event number `n` on the switch is off and not set, as a check on logs. -/
def Switch.off_from (x : Switch) (n : ℕ) (es : List Event) : Bool :=
  match es.drop n with
  | [] => false
  | e :: future => x.off e.pre && (e :: future).all fun q => !x.sets q.ix

theorem Switch.off_from_sound {x : Switch} {n : ℕ} {es : List Event} (h : x.off_from n es = true) :
    ∃ past e future, es = past ++ e :: future ∧ x.off e.pre = true
      ∧ ∀ q ∈ e :: future, x.sets q.ix = false := by
  have hsplit := List.take_append_drop n es
  unfold Switch.off_from at h
  cases hdrop : es.drop n with
  | nil =>
    rw [hdrop] at h
    cases h
  | cons e future =>
    rw [hdrop] at h hsplit
    simp only [Bool.and_eq_true, List.all_eq_true, Bool.not_eq_true'] at h
    exact ⟨es.take n, e, future, hsplit.symm, h.1, h.2⟩

/-- On the sample cluster the escrow is paused while an intent is live; the maker releases it, and
nothing was opened meanwhile. -/
theorem paused_only_unwinds_released :
    ∃ es s past e future, Run sample_runtime es s ∧ es = past ++ e :: future
      ∧ (e.pre.intents.lookup sample_intent).isSome = true
      ∧ (s.intents.lookup sample_intent).isSome = false ∧ s.escrow_config.paused = true
      ∧ OnlyExits e.pre s := by
  obtain ⟨es, s, hrun, hgood⟩ := sample_reaches
    [sample_setup, sample_cover, sample_donated sample_staker, sample_manual_release]
    (fun es s => Switch.off_from .escrow (es.length - 2) es
      && decide ((s.intents.lookup sample_intent).isSome = false)
      && es.all fun e => !e.pre.escrow_config.paused
        || decide ((e.pre.intents.lookup sample_intent).isSome = true)) (by decide +kernel)
  simp only [Bool.and_eq_true, decide_eq_true_eq, List.all_eq_true, Bool.or_eq_true,
    Bool.not_eq_true'] at hgood
  obtain ⟨⟨hoff, hgone⟩, hlive⟩ := hgood
  obtain ⟨past, e, future, hes, hpaused, hsets⟩ := Switch.off_from_sound hoff
  obtain ⟨hstill, -, hexits, -⟩ := paused_only_unwinds hrun .escrow hes hpaused hsets
  have he : e ∈ es := by
    rw [hes]
    exact List.mem_append_right _ List.mem_cons_self
  refine ⟨es, s, past, e, future, hrun, hes, ?_, hgone, hstill, hexits⟩
  rcases hlive e he with hrunning | hlive
  · have hpaused' : e.pre.escrow_config.paused = true := hpaused
    rw [hrunning] at hpaused'
    cases hpaused'
  · exact hlive

end Zkp2pSolana
