/-
What a successful `signal_intent` says about the taker.

`admission_cases` is the decision of `validate_lifecycle_admission`, read
backwards once for all policies; `Whitelisted` is membership as the ledger has
it. Admission is decided from the accounts the taker supplies, so an enabled
whitelist binds only a signal that presents it (`whitelist_enforced_if_supplied`),
and a disabled dispute setting only a preparation that presents it
(`opt_out_respected_if_supplied`). What holds whatever is left out: on a protected
deposit nobody gets an uncovered intent without being whitelisted
(`protected_signal_whitelisted_or_covered`).

Coverage of an intent that does not exist yet only ever exists between a
`prepare_dispute` and the `signal_intent` right after it. `CoverageAhead` states
this for every point inside a transaction.
-/
import Zkp2pSolana.Custody

set_option autoImplicit false

namespace Zkp2pSolana

open Result Zkp2pError

/-! ## Membership -/

/-- A direct member of the deposit's whitelist. -/
def DirectMember (s : State) (deposit taker : Pubkey) : Prop :=
  ∃ m, s.whitelist_members.lookup
      (whitelist_member_address (deposit_whitelist_address deposit) taker) = some m
    ∧ m.active = true ∧ m.taker = taker

/-- A member of a group: an active record, or a `[1]` of the group's resolver program. -/
def GroupMemberOf (rt : Runtime) (ctx : TxContext) (s : State) (k : Pubkey) (g : AddressGroup)
    (taker : Pubkey) : Prop :=
  (∃ m, s.group_members.lookup (group_member_address k taker) = some m ∧ m.active = true
      ∧ m.member = taker)
    ∨ ∃ program keys, g.resolver = some program
      ∧ resolver_answer rt ctx program keys g.id taker = true

/-- The deposit's whitelist is enabled and has the taker, directly or through a group. -/
def Whitelisted (rt : Runtime) (ctx : TxContext) (s : State) (deposit taker : Pubkey) : Prop :=
  ∃ w, s.deposit_whitelists.lookup (deposit_whitelist_address deposit) = some w
    ∧ w.enabled = true
    ∧ (DirectMember s deposit taker ∨ ∃ k g, s.address_groups.lookup k = some g
      ∧ g.id ∈ w.allowed_groups ∧ GroupMemberOf rt ctx s k g taker)

/-- A resolver that says yes was the configured one and answered. -/
theorem resolver_says_yes_ok {rt : Runtime} {ctx : TxContext} {g : AddressGroup} {taker : Pubkey}
    {program : Option Pubkey} {accounts : List AccountInfo}
    (h : resolver_says_yes rt ctx g taker program accounts = .ok true) :
    ∃ program keys, g.resolver = some program
      ∧ resolver_answer rt ctx program keys g.id taker = true := by
  unfold resolver_says_yes at h
  split at h
  · simp only [bind_eq_ok, require_eq_ok, exists_const, pure_eq_ok] at h
    exact absurd h.2 (by simp)
  · rename_i expected hresolver
    simp only [bind_eq_ok, require_eq_ok, exists_const, ok_or_eq_ok, pure_eq_ok] at h
    obtain ⟨resolver, -, rfl, -, -, -, hanswer⟩ := h
    exact ⟨resolver, _, hresolver, hanswer⟩

/-- A whitelist that allows a taker has the evidence among the supplied accounts. -/
theorem whitelist_allows_ok {rt : Runtime} {ctx : TxContext} {w : Account DepositWhitelist}
    {direct : Option (Account DepositWhitelistMember)} {group : Option (Account AddressGroup)}
    {member : Option (Account GroupMember)} {program : Option Pubkey}
    {accounts : List AccountInfo} {taker : Pubkey}
    (h : whitelist_allows rt ctx w direct group member program accounts taker = .ok true) :
    direct.any (is_direct_member w.key taker) = true
      ∨ ∃ g, group = some g ∧ g.data.id ∈ w.data.allowed_groups
        ∧ (member.any (is_curated_member g.key taker) = true
          ∨ ∃ program keys, g.data.resolver = some program
            ∧ resolver_answer rt ctx program keys g.data.id taker = true) := by
  unfold whitelist_allows at h
  rw [ite_eq_ok] at h
  rcases h with ⟨hdirect, -⟩ | ⟨-, h⟩
  · exact .inl hdirect
  · cases group with
    | none =>
      simp only [bind_eq_ok, require_eq_ok, exists_const, pure_eq_ok] at h
      exact absurd h.2 (by simp)
    | some g =>
      simp only [bind_eq_ok, require_eq_ok, exists_const, ite_eq_ok, pure_eq_ok] at h
      obtain ⟨-, ⟨-, hno⟩ | ⟨hid, hmember⟩⟩ := h
      · exact absurd hno (by simp)
      -- an allowed group: a curated record or the resolver decides
      · refine .inr ⟨g, rfl, by simpa using hid, ?_⟩
        rcases hmember with ⟨hcurated, -⟩ | ⟨-, hresolver⟩
        · exact .inl hcurated
        · exact .inr (resolver_says_yes_ok hresolver)

/-! ## The admission decision -/

/-- How `validate_lifecycle_admission` can return `ok`. -/
theorem admission_cases {rt : Runtime} {ctx : TxContext} {a : LifecycleAdmission}
    (h : validate_lifecycle_admission rt ctx a = .ok ()) :
    (a.policy = .None ∧ a.no_dispute_evidence)
      ∨ ∃ enabled allowed, a.whitelist_enabled = .ok enabled
        ∧ a.whitelisted rt ctx enabled = .ok allowed
        ∧ ((a.policy = .Whitelist ∧ (enabled = false ∨ allowed = true) ∧ a.no_dispute_evidence)
          ∨ (a.policy = .WhitelistAndDispute ∧ allowed = true ∧ a.no_dispute_evidence)
          ∨ (a.policy = .WhitelistAndDispute ∧ allowed = false ∧ a.dispute_enabled = .ok false
            ∧ a.dispute_intent = none ∧ a.risk_window = none ∧ enabled = false)
          ∨ (a.policy = .WhitelistAndDispute ∧ allowed = false ∧ a.dispute_enabled = .ok true
            ∧ validate_dispute_admission a = .ok ())) := by
  unfold validate_lifecycle_admission at h
  rw [ite_eq_ok] at h
  -- the policy `None` asks that no coverage is presented and reads no whitelist
  rcases h with ⟨hpolicy, h⟩ | ⟨hnone, h⟩
  · rw [require_eq_ok] at h
    exact .inl ⟨hpolicy, h.2.2⟩
  · simp only [bind_eq_ok, ite_eq_ok, require_eq_ok, exists_const] at h
    obtain ⟨enabled, henabled, allowed, hallowed, h⟩ := h
    refine .inr ⟨enabled, allowed, henabled, hallowed, ?_⟩
    -- from here the whitelist has been consulted: the policy decides what its answer means
    rcases h with ⟨hpolicy, hok, hevidence⟩ | ⟨hother, h⟩
    · exact .inl ⟨hpolicy, hok, hevidence⟩
    · have hpolicy : a.policy = .WhitelistAndDispute := by
        cases hp : a.policy with
        | None => exact absurd hp hnone
        | Whitelist => exact absurd hp hother
        | WhitelistAndDispute => rfl
      rcases h with ⟨htrue, hevidence⟩ | ⟨hfalse, protected_, hprotected, h⟩
      · exact .inr (.inl ⟨hpolicy, htrue, hevidence⟩)
      · have hallowed : allowed = false := by simpa using hfalse
        -- not whitelisted under the joint policy: protection switched off, or coverage that is
        -- checked
        rcases h with ⟨rfl, ⟨hintent, hrisk⟩, hoff⟩ | ⟨hon, h⟩
        · refine .inr (.inr (.inl ⟨hpolicy, hallowed, hprotected, ?_, ?_, hoff⟩))
          · simpa using hintent
          · simpa using hrisk
        · have : protected_ = true := by simpa using hon
          exact .inr (.inr (.inr ⟨hpolicy, hallowed, this ▸ hprotected, h⟩))

/-- The coverage an admission was backed by. -/
structure DisputeMatches (a : LifecycleAdmission) (window : ℤ) (d : DisputeIntent) : Prop where
  intent_hash : d.intent_hash = a.intent_hash
  taker : d.taker = a.taker
  payment_method : d.payment_method = a.payment_method
  risk_window : d.risk_window = window
  deposit : d.deposit = a.deposit
  amount : d.locked_amount = a.amount
  pending : d.status = .Pending

/-- Admission by coverage: the window of the payment method is presented, and either it is zero and
no coverage comes with it or the coverage presented matches the signal. -/
theorem dispute_admission_ok {a : LifecycleAdmission} (h : validate_dispute_admission a = .ok ()) :
    ∃ risk, a.risk_window = some risk
      ∧ risk.key = risk_window_address dispute_config_address a.payment_method
      ∧ ((risk.data.seconds = 0 ∧ a.dispute_intent = none)
        ∨ (risk.data.seconds ≠ 0 ∧ ∃ d, a.dispute_intent = some d
          ∧ d.key = coverage_of a.intent_hash
          ∧ DisputeMatches a risk.data.seconds d.data)) := by
  simp only [validate_dispute_admission, bind_eq_ok, ok_or_eq_ok, require_eq_ok, exists_const,
    ite_eq_ok] at h
  obtain ⟨risk, hrisk, hconfig, hkey, hmethod, h⟩ := h
  rw [hconfig] at hkey
  refine ⟨risk, hrisk, hkey, ?_⟩
  rcases h with ⟨hzero, hnone⟩ | ⟨hpos, d, hd, hdkey, -, ⟨h₁, h₂, h₃, h₄, h₅, h₆⟩, hpending⟩
  · exact .inl ⟨hzero, by simpa using hnone⟩
  · rw [hconfig] at hdkey
    exact .inr ⟨hpos, d, hd, hdkey, h₁, h₂, h₃.trans hmethod, h₄, h₅, h₆, hpending⟩

/-- A supplied whitelist is the deposit's own, and says whether it is enforced. -/
theorem whitelist_enabled_ok {a : LifecycleAdmission} {enabled : Bool}
    (h : a.whitelist_enabled = .ok enabled) :
    (a.whitelist = none ∧ enabled = false) ∨ ∃ w, a.whitelist = some w
      ∧ w.key = deposit_whitelist_address a.deposit ∧ w.data.enabled = enabled := by
  unfold LifecycleAdmission.whitelist_enabled at h
  split at h
  · rename_i w hw
    simp only [bind_eq_ok, require_eq_ok, exists_const, pure_eq_ok] at h
    exact .inr ⟨w, hw, h.1, h.2.2⟩
  · rename_i hnone
    rw [ok_eq_ok] at h
    exact .inl ⟨hnone, h.symm⟩

/-- A supplied setting is the deposit's own; without one, protection is on. -/
theorem dispute_enabled_ok {a : LifecycleAdmission} {enabled : Bool}
    (h : a.dispute_enabled = .ok enabled) :
    (a.deposit_dispute_setting = none ∧ enabled = true)
      ∨ ∃ setting, a.deposit_dispute_setting = some setting
        ∧ setting.key = dispute_setting_address a.deposit ∧ setting.data.enabled = enabled := by
  unfold LifecycleAdmission.dispute_enabled at h
  split at h
  · rename_i hnone
    rw [ok_eq_ok] at h
    exact .inl ⟨hnone, h.symm⟩
  · rename_i setting hsetting
    simp only [bind_eq_ok, require_eq_ok, exists_const, pure_eq_ok] at h
    exact .inr ⟨setting, hsetting, h.1, h.2.2⟩

section Evidence

variable {rt : Runtime} {ctx : TxContext} {accounts : SignalIntent} {args : SignalIntentArgs}
  {hash : Bytes 32} {s : State} {a : LifecycleAdmission}

/-- A taker admitted as whitelisted is whitelisted on the ledger. -/
theorem AdmissionOf.whitelisted (h : AdmissionOf accounts args hash s a) {enabled : Bool}
    (henabled : a.whitelist_enabled = .ok enabled)
    (hallowed : a.whitelisted rt ctx enabled = .ok true) :
    Whitelisted rt ctx s accounts.deposit accounts.taker := by
  unfold LifecycleAdmission.whitelisted at hallowed
  rw [ite_eq_ok] at hallowed
  rcases hallowed with ⟨rfl, hallowed⟩ | ⟨-, hallowed⟩
  · rw [bind_eq_ok] at hallowed
    obtain ⟨w, hw, hallowed⟩ := hallowed
    rw [ok_or_eq_ok] at hw
    -- an enabled whitelist was presented, and its key was checked against the deposit
    obtain ⟨hnone, -⟩ | ⟨w', hw', hkey, hon⟩ := whitelist_enabled_ok henabled
    · rw [hw] at hnone
      exact absurd hnone (by simp)
    · rw [hw] at hw'
      cases hw'
      have hload := load_opt_some (hw ▸ h.whitelist)
      rw [h.deposit] at hkey
      rw [hkey] at hload
      refine ⟨w.data, hload, hon, ?_⟩
      have htaker := h.taker
      rcases whitelist_allows_ok hallowed with hdirect | ⟨g, hg, hid, hmember⟩
      · obtain ⟨m, hm, hdirect⟩ := (Option.any_eq_true _ _).mp hdirect
        simp only [is_direct_member, Bool.and_eq_true, decide_eq_true_eq] at hdirect
        obtain ⟨⟨⟨hmkey, hactive⟩, hmtaker⟩, -⟩ := hdirect
        have hmember := load_opt_some (hm ▸ h.direct_member)
        rw [hmkey, hkey, htaker] at hmember
        exact .inl ⟨m.data, hmember, hactive, hmtaker.trans htaker⟩
      · rw [htaker] at hmember
        refine .inr ⟨g.key, g.data, load_opt_some (hg ▸ h.allowed_group), hid, ?_⟩
        rcases hmember with hcurated | hresolver
        · obtain ⟨m, hm, hcurated⟩ := (Option.any_eq_true _ _).mp hcurated
          simp only [is_curated_member, Bool.and_eq_true, decide_eq_true_eq] at hcurated
          obtain ⟨⟨⟨hmkey, hactive⟩, hmember⟩, -⟩ := hcurated
          have hload := load_opt_some (hm ▸ h.group_member)
          rw [hmkey] at hload
          exact .inl ⟨m.data, hload, hactive, hmember⟩
        · exact .inr hresolver
  · simp only [bind_eq_ok, require_eq_ok, exists_const, pure_eq_ok] at hallowed
    exact absurd hallowed.2 (by simp)

/-- The coverage a signal presented, as the ledger has it. -/
structure SignalBacked (accounts : SignalIntent) (args : SignalIntentArgs) (s : State)
    (d : DisputeIntent) (risk : RiskWindow) : Prop where
  found : s.dispute_intents.lookup (coverage_of args.expected_intent_hash) = some d
  risk_found : s.risk_windows.lookup
    (risk_window_address dispute_config_address args.payment_method) = some risk
  intent_hash : d.intent_hash = args.expected_intent_hash
  taker : d.taker = accounts.taker
  deposit : d.deposit = accounts.deposit
  payment_method : d.payment_method = args.payment_method
  risk_window : d.risk_window = risk.seconds
  amount : d.locked_amount = args.amount
  pending : d.status = .Pending

/-- An optional account that was named was loaded. -/
theorem load_opt_none {α : Type} {m : Accounts α} {k : Option Pubkey}
    (h : load_opt m k = .ok none) : k = none :=
  (load_opt_eq_ok.mp h).1.symm

variable {s' : State} {d d' : Deposit} {i : Intent} {expiry : ℤ} {state : TakerIntentState}

/-- A signal presents no coverage and is uncovered, or presents pending coverage that matches it
and is covered as the risk window says. -/
theorem Signaled.coverage (h : Signaled rt ctx accounts args s s' d d' a i expiry state) :
    (i.dispute_covered = false ∧ accounts.dispute_intent = none)
      ∨ ∃ c risk, SignalBacked accounts args s c risk
        ∧ i.dispute_covered = decide (0 < risk.seconds) := by
  obtain ⟨method, terms, rfl⟩ := h.intent
  have ha := h.admission
  have hcovered : (new_intent accounts args a method terms s.orchestrator.next_intent_id
      ctx.now).dispute_covered
      = a.risk_window.any fun window => decide (0 < window.data.seconds) := rfl
  -- every branch that asks for no coverage ends here
  have hfree : a.dispute_intent = none → (a.risk_window = none ∨ ∃ risk, a.risk_window = some risk
      ∧ risk.data.seconds = 0) → (new_intent accounts args a method terms
        s.orchestrator.next_intent_id ctx.now).dispute_covered = false
        ∧ accounts.dispute_intent = none := by
    intro hintent hrisk
    refine ⟨?_, load_opt_none (hintent ▸ ha.dispute_intent)⟩
    rw [hcovered]
    rcases hrisk with hrisk | ⟨risk, hrisk, hzero⟩
    · rw [hrisk]
      rfl
    · rw [hrisk, Option.any_some, hzero]
      rfl
  have hevidence : a.no_dispute_evidence → a.dispute_intent = none ∧ a.risk_window = none := by
    intro hno
    exact ⟨by simpa using hno.1, by simpa using hno.2.2⟩
  rcases admission_cases h.admitted with ⟨-, hno⟩ | ⟨enabled, allowed, -, -, hcases⟩
  · exact .inl (hfree (hevidence hno).1 (.inl (hevidence hno).2))
  · rcases hcases with ⟨-, -, hno⟩ | ⟨-, -, hno⟩ | ⟨-, -, -, hintent, hrisk, -⟩ | ⟨-, -, -, hdispute⟩
    · exact .inl (hfree (hevidence hno).1 (.inl (hevidence hno).2))
    · exact .inl (hfree (hevidence hno).1 (.inl (hevidence hno).2))
    · exact .inl (hfree hintent (.inl hrisk))
    · obtain ⟨risk, hrisk, hkey, ⟨hzero, hnone⟩ | ⟨-, c, hc, hckey, hmatch⟩⟩ :=
        dispute_admission_ok hdispute
      · exact .inl (hfree hnone (.inr ⟨risk, hrisk, hzero⟩))
      · have hload := load_opt_some (hc ▸ ha.dispute_intent)
        have hwindow := load_opt_some (hrisk ▸ ha.risk_window)
        rw [hckey, ha.intent_hash] at hload
        rw [hkey, ha.payment_method] at hwindow
        refine .inr ⟨c.data, risk.data, ⟨hload, hwindow, ?_, ?_, ?_, ?_, hmatch.risk_window, ?_,
          hmatch.pending⟩, ?_⟩
        · rw [hmatch.intent_hash, ha.intent_hash]
        · rw [hmatch.taker, ha.taker]
        · rw [hmatch.deposit, ha.deposit]
        · rw [hmatch.payment_method, ha.payment_method]
        · rw [hmatch.amount, ha.amount]
        · rw [hcovered, hrisk, Option.any_some]

end Evidence

/-! ## Coverage of the next intent

The records that exist at the coverage address of an unused nonce. -/

/-- No coverage exists for the intents from nonce `n` on. -/
def NoCoverageFrom (rt : Runtime) (s : State) (n : ℕ) : Prop :=
  ∀ m, n ≤ m → m < 2 ^ 64 →
    s.dispute_intents.lookup (coverage_of (derive_intent_hash rt orchestrator_address m)) = none

/-- The event that prepares coverage, with `rest` after it in its transaction. -/
structure PreparedBy (rt : Runtime) (rest : List TopLevel) (s : State) (e : Event)
    (accounts : PrepareDispute) (args : PrepareDisputeArgs) : Prop where
  valid : e.Valid (step rt)
  ix_eq : e.ix = .program (.prepare_dispute accounts args)
  after_eq : e.after = rest
  post_eq : e.post = s

/-- With `rest` still to run in the transaction, coverage exists for no future intent, or for the
next one, because the last event (`G` holds of it) prepared it. -/
def CoverageAhead (rt : Runtime) (G : Event → Prop) (rest : List TopLevel) (s : State) : Prop :=
  NoCoverageFrom rt s s.orchestrator.next_intent_id
    ∨ NoCoverageFrom rt s (s.orchestrator.next_intent_id + 1)
      ∧ ∃ e accounts args, G e ∧ PreparedBy rt rest s e accounts args

/-- The instruction after a preparation is the signal it was made for. -/
theorem PreparedBy.signal_follows {rt : Runtime} {rest : List TopLevel} {s : State} {e : Event}
    {accounts : PrepareDispute} {args : PrepareDisputeArgs}
    (h : PreparedBy rt rest s e accounts args) :
    ∃ d risk p p' signal signal_args, CoveragePrepared rt accounts args e.pre s d risk p p'
      ∧ SignalFollows (following_signal rest) accounts args signal signal_args := by
  obtain ⟨hvalid, hix, rfl, rfl⟩ := h
  have hok : handle_prepare_dispute rt (following_signal e.after) accounts args e.pre
      = .ok e.post := by
    have : e.ix.execute rt e.ctx e.before e.after e.pre = .ok e.post := hvalid
    rw [hix] at this
    exact this
  exact prepare_dispute_ok hok

section Ahead

variable {rt : Runtime} {G : Event → Prop}

theorem NoCoverageFrom.mono {s s' : State} {m n : ℕ} (h : NoCoverageFrom rt s m) (hmn : m ≤ n)
    (hsame : s'.dispute_intents = s.dispute_intents) : NoCoverageFrom rt s' n := by
  intro k hk hword
  rw [hsame]
  exact h k (hmn.trans hk) hword

/-- Between transactions no coverage waits for a signal. -/
theorem CoverageAhead.start {s : State} (h : CoverageAhead rt G [] s) (ixs : List TopLevel) :
    CoverageAhead rt G ixs s := by
  rcases h with h | ⟨-, e, accounts, args, -, hprepared⟩
  · exact .inl h
  -- a transaction cannot end on a preparation: it asked for a signal after it
  · obtain ⟨_, _, _, _, _, _, -, hfollows⟩ := hprepared.signal_follows
    exact absurd hfollows.next (by simp [following_signal])

/-- One event keeps the look-ahead: coverage exists for an unused nonce only while the signal that
will use it is still to come in the same transaction. -/
theorem CoverageAhead.step (hinj : NonceInjective rt) {e : Event} (hG : G e)
    (hv : e.Valid (step rt)) (hledger : LedgerOk e.pre) (hcustody : CustodyInv rt e.pre)
    (h : CoverageAhead rt G (e.ix :: e.after) e.pre) : CoverageAhead rt G e.after e.post := by
  -- either nothing waits, and at most this event prepares something, or the last event did
  -- and this one is its signal
  rcases h with h | ⟨hahead, e₀, accounts, args, -, hprepared⟩
  · have hnonce := (custody_move hledger.tokens hledger.coverage hv).nonce_le
    rcases (lifecycle_move hv).coverage_write hledger.coverage with hsame | ⟨hash, d, d', hd, -, hwrite, -⟩
      | ⟨accounts, args, d, risk, p, p', hix, hprepared⟩
    · exact .inl (h.mono hnonce hsame)
    · refine .inl fun m hm hword => ?_
      -- a step rewrites a record that was there, and none is there for a future nonce
      have hnone := h m (hnonce.trans hm) hword
      rw [hwrite, Finmap.lookup_insert_of_ne _ ?_, hnone]
      intro heq
      rw [heq, hd] at hnone
      exact absurd hnone (by simp)
    · have hpost := hprepared.post
      have hnext : e.post.orchestrator.next_intent_id = e.pre.orchestrator.next_intent_id := by
        rw [hpost]
      refine .inr ⟨fun m hm hword => ?_, e, accounts, args, hG, hv, hix, rfl, rfl⟩
      rw [hnext] at hm
      have hnone := h m (by omega) hword
      rw [hpost, Finmap.lookup_insert_of_ne _ ?_, hnone]
      -- the prepared hash is the one of the next nonce
      intro heq
      injection heq with _ _ heq
      rw [← hprepared.hash] at heq
      have := hinj _ _ hword hcustody.nonce heq
      omega
  · obtain ⟨_, _, _, _, signal, signal_args, -, hfollows⟩ := hprepared.signal_follows
    have hok := valid_execute hv (following_signal_some hfollows.next)
    obtain ⟨_, _, _, _, _, _, hsignaled⟩ := signal_intent_ok hok
    -- the signal raises the nonce past the prepared hash
    refine .inl (hahead.mono ?_ ?_)
    · rw [hsignaled.post]
    · rw [hsignaled.post]

/-- Around every event of a run, coverage of the next intent exists only right after the event of
the run that prepared it. -/
theorem Run.coverage_ahead (hinj : NonceInjective rt) {es : List Event} {s : State}
    (h : Run rt es s) :
    ∀ e ∈ es, (LedgerOk e.pre ∧ CustodyInv rt e.pre)
      ∧ CoverageAhead rt (· ∈ es) (e.ix :: e.after) e.pre := by
  -- the invariant looks ahead: what is left of the transaction is part of the state
  have hrun := TxMachine.Run.invariant_lookahead (G := (· ∈ es))
    (P := fun rest s => (LedgerOk s ∧ CustodyInv rt s) ∧ CoverageAhead rt (· ∈ es) rest s)
    ?_ ?_ ?_ h fun _ he => he
  · exact fun e he => (hrun.2 e he).1
  · intro s₀ h₀
    refine ⟨⟨genesis_ledgerOk h₀, genesis_custody h₀⟩, .inl fun m _ _ => ?_⟩
    obtain ⟨_, _, _, _, _, _, _, rfl, -⟩ := genesis_ok h₀
    exact Finmap.lookup_empty _
  · exact fun s₀ ixs hs => ⟨hs.1, hs.2.start ixs⟩
  · rintro e he hv ⟨⟨hledger, hcustody⟩, hahead⟩
    exact ⟨⟨hledger.step hv, (custody_move hledger.tokens hledger.coverage hv).inv
      (hcustody.ownLocks hinj) hcustody⟩,
      hahead.step hinj he hv hledger hcustody⟩

end Ahead

/-! ## An enabled whitelist -/

/-- The deposit's whitelist decides a signal: by the policy alone, or because the deposit opted out
of protection for a payment method that has a risk window. -/
def WhitelistDecides (accounts : SignalIntent) (args : SignalIntentArgs) (s : State) : Prop :=
  s.orchestrator.lifecycle_policy = .Whitelist
    ∨ (s.orchestrator.lifecycle_policy = .WhitelistAndDispute
      ∧ (∃ setting, s.dispute_settings.lookup (dispute_setting_address accounts.deposit)
          = some setting ∧ setting.enabled = false)
      ∧ ∃ risk, s.risk_windows.lookup
          (risk_window_address dispute_config_address args.payment_method) = some risk
        ∧ 0 < risk.seconds)

/-- The signal presents the whitelist, and presents no coverage while leaving the setting out. -/
def PresentsWhitelist (accounts : SignalIntent) (s : State) : Prop :=
  accounts.deposit_whitelist.isSome = true
    ∧ (s.orchestrator.lifecycle_policy = .WhitelistAndDispute →
      accounts.deposit_dispute_setting.isSome = true ∨ accounts.dispute_intent = none)

/-- An optional account that was named loads to the record at its key. -/
theorem load_opt_isSome {α : Type} {m : Accounts α} {k : Option Pubkey} {o : Option (Account α)}
    (h : load_opt m k = .ok o) (hk : k.isSome = true) : ∃ a, o = some a := by
  cases o with
  | none =>
    rw [load_opt_none h] at hk
    exact absurd hk (by simp)
  | some a => exact ⟨a, rfl⟩

/-- A presented whitelist is the deposit's own, enabled as the ledger says. -/
theorem AdmissionOf.whitelist_enabled_eq {accounts : SignalIntent} {args : SignalIntentArgs}
    {hash : Bytes 32} {s : State} {a : LifecycleAdmission} (h : AdmissionOf accounts args hash s a)
    (hpresented : accounts.deposit_whitelist.isSome = true) {w : DepositWhitelist}
    (hw : s.deposit_whitelists.lookup (deposit_whitelist_address accounts.deposit) = some w)
    {enabled : Bool} (henabled : a.whitelist_enabled = .ok enabled) : enabled = w.enabled := by
  obtain ⟨w', hw'⟩ := load_opt_isSome h.whitelist hpresented
  rcases whitelist_enabled_ok henabled with ⟨hnone, -⟩ | ⟨w'', hw'', hkey, hon⟩
  · rw [hw'] at hnone
    exact absurd hnone (by simp)
  · have hload := load_opt_some (hw'' ▸ h.whitelist)
    rw [hkey, h.deposit, hw] at hload
    cases hload
    exact hon.symm

/-- In every run, a signal on a deposit with an enabled whitelist that decides it, and that presents
the whitelist, was signed by a whitelisted taker. -/
theorem whitelist_enforced_if_supplied {rt : Runtime} {es : List Event} {s : State}
    (h : Run rt es s) {e : Event} (he : e ∈ es) {accounts : SignalIntent} {args : SignalIntentArgs}
    (hix : e.ix = .program (.signal_intent accounts args)) {w : DepositWhitelist}
    (hw : e.pre.deposit_whitelists.lookup (deposit_whitelist_address accounts.deposit) = some w)
    (henabled : w.enabled = true) (hdecides : WhitelistDecides accounts args e.pre)
    (hpresents : PresentsWhitelist accounts e.pre) :
    Whitelisted rt e.ctx e.pre accounts.deposit accounts.taker := by
  have hok := valid_execute (TxMachine.Run.valid h e he) hix
  obtain ⟨d, d', a, i, expiry, state, hsignaled⟩ := signal_intent_ok hok
  have ha := hsignaled.admission
  -- the four ways in, one by one; the two that do not look at the membership are closed
  rcases admission_cases hsignaled.admitted with ⟨hnone, -⟩ | ⟨enabled, allowed, hen, hall, hcases⟩
  · rw [ha.policy] at hnone
    rcases hdecides with hp | ⟨hp, -⟩ <;> rw [hp] at hnone <;> cases hnone
  · have hon : enabled = true := (ha.whitelist_enabled_eq hpresents.1 hw hen).trans henabled
    rcases hcases with ⟨-, hoff | rfl, -⟩ | ⟨-, rfl, -⟩ | ⟨-, -, -, -, -, hoff⟩
      | ⟨hpolicy, -, hprotected, hdispute⟩
    · rw [hon] at hoff
      cases hoff
    · exact ha.whitelisted hen hall
    · exact ha.whitelisted hen hall
    · rw [hon] at hoff
      cases hoff
    · -- the deposit opted out, so the protected branch needs the setting left out
      rw [ha.policy] at hpolicy
      obtain hp | ⟨-, ⟨setting, hsetting, hoff⟩, risk, hrisk, hpos⟩ := hdecides
      · rw [hp] at hpolicy
        cases hpolicy
      obtain ⟨risk', hrisk', hkey, hcoverage⟩ := dispute_admission_ok hdispute
      have hwindow := load_opt_some (hrisk' ▸ ha.risk_window)
      rw [hkey, ha.payment_method, hrisk] at hwindow
      cases hwindow
      rcases hpresents.2 hpolicy with hsome | hnone
      · obtain ⟨given, hgiven⟩ := load_opt_isSome ha.deposit_dispute_setting hsome
        rcases dispute_enabled_ok hprotected with ⟨habsent, -⟩ | ⟨given', hgiven', hkey', hon'⟩
        · rw [hgiven] at habsent
          exact absurd habsent (by simp)
        · have hload := load_opt_some (hgiven' ▸ ha.deposit_dispute_setting)
          rw [hkey', ha.deposit, hsetting] at hload
          cases hload
          rw [hoff] at hon'
          cases hon'
      · rcases hcoverage with ⟨hzero, -⟩ | ⟨-, c, hc, -⟩
        · omega
        · have hload := (load_opt_eq_ok.mp ha.dispute_intent).1
          rw [hc, hnone] at hload
          exact absurd hload (by simp)

/-- The sample cluster decides by whitelists, and the sample deposit has an enabled one. -/
def sample_whitelist : TxContext × List TopLevel :=
  (sample_ctx 1500,
    [.program (.governance (.configure_orchestrator ⟨sample_authority⟩
        ⟨none, none, some .Whitelist, none, none⟩)),
      .program (.whitelists (.initialize_deposit_whitelist ⟨sample_depositor, sample_deposit⟩ true))])

def sample_admit : TxContext × List TopLevel :=
  (sample_ctx 1600,
    [.program (.whitelists (.set_deposit_whitelist_member ⟨sample_depositor, sample_deposit⟩
      sample_taker true))])

/-- The state in which a signal runs that the enabled whitelist of its deposit decides. -/
def decided_by_whitelist (accounts : SignalIntent) (s : State) : Bool :=
  decide (s.orchestrator.lifecycle_policy = .Whitelist)
    && (s.deposit_whitelists.lookup (deposit_whitelist_address accounts.deposit)).any
      fun w => w.enabled

theorem decided_by_whitelist_sound {accounts : SignalIntent} {s : State}
    (h : decided_by_whitelist accounts s = true) (args : SignalIntentArgs) :
    WhitelistDecides accounts args s
      ∧ ∃ w, s.deposit_whitelists.lookup (deposit_whitelist_address accounts.deposit) = some w
        ∧ w.enabled = true := by
  unfold decided_by_whitelist at h
  rw [Bool.and_eq_true, decide_eq_true_eq, Option.any_eq_true] at h
  exact ⟨.inl h.1, h.2⟩

/-- A member who presents the whitelist and the membership. -/
theorem whitelist_enforced_member :
    ∃ es s e accounts args, Run sample_runtime es s ∧ e ∈ es
      ∧ e.ix = .program (.signal_intent accounts args) ∧ WhitelistDecides accounts args e.pre
      ∧ PresentsWhitelist accounts e.pre
      ∧ Whitelisted sample_runtime e.ctx e.pre accounts.deposit accounts.taker := by
  obtain ⟨es, s, hrun, hgood⟩ := sample_reaches
    [sample_setup, sample_whitelist, sample_admit, (sample_ctx 2000, [.program (.signal_intent
      { sample_signal with
        deposit_whitelist := some (deposit_whitelist_address sample_deposit)
        direct_whitelist_member := some (whitelist_member_address
          (deposit_whitelist_address sample_deposit) sample_taker) } sample_signal_args)])]
    (fun es _ => es.any fun e => (following_signal [e.ix]).any fun signal =>
      decided_by_whitelist signal.1 e.pre && signal.1.deposit_whitelist.isSome
        && signal.1.dispute_intent.isNone) (by decide +kernel)
  obtain ⟨e, he, hgood⟩ := List.any_eq_true.mp hgood
  obtain ⟨⟨accounts, args⟩, hsignal, hgood⟩ := (Option.any_eq_true _ _).mp hgood
  rw [Bool.and_eq_true, Bool.and_eq_true] at hgood
  obtain ⟨⟨hdecided, hwhitelist⟩, hintent⟩ := hgood
  have hix := following_signal_some hsignal
  obtain ⟨hdecides, w, hw, henabled⟩ := decided_by_whitelist_sound hdecided args
  have hpresents : PresentsWhitelist accounts e.pre :=
    ⟨hwhitelist, fun _ => .inr (Option.isNone_iff_eq_none.mp hintent)⟩
  exact ⟨es, s, e, accounts, args, hrun, he, hix, hdecides, hpresents,
    whitelist_enforced_if_supplied hrun he hix hw henabled hdecides hpresents⟩

/-- Anyone who leaves the whitelist out signals as if there were none. -/
theorem whitelist_bypassed :
    ∃ es s e accounts args w, Run sample_runtime es s ∧ e ∈ es
      ∧ e.ix = .program (.signal_intent accounts args)
      ∧ e.pre.deposit_whitelists.lookup (deposit_whitelist_address accounts.deposit) = some w
      ∧ w.enabled = true ∧ WhitelistDecides accounts args e.pre
      ∧ ¬ Whitelisted sample_runtime e.ctx e.pre accounts.deposit accounts.taker := by
  obtain ⟨es, s, hrun, hgood⟩ := sample_reaches
    [sample_setup, sample_whitelist,
      (sample_ctx 2000, [.program (.signal_intent sample_signal sample_signal_args)])]
    (fun es _ => es.any fun e => (following_signal [e.ix]).any fun signal =>
      decided_by_whitelist signal.1 e.pre
        && (e.pre.deposit_whitelists.lookup (deposit_whitelist_address signal.1.deposit)).all
          (fun w => w.allowed_groups.isEmpty)
        && (e.pre.whitelist_members.lookup (whitelist_member_address
          (deposit_whitelist_address signal.1.deposit) signal.1.taker)).isNone) (by decide +kernel)
  obtain ⟨e, he, hgood⟩ := List.any_eq_true.mp hgood
  obtain ⟨⟨accounts, args⟩, hsignal, hgood⟩ := (Option.any_eq_true _ _).mp hgood
  rw [Bool.and_eq_true, Bool.and_eq_true] at hgood
  obtain ⟨⟨hdecided, hgroups⟩, hmember⟩ := hgood
  obtain ⟨hdecides, w, hw, henabled⟩ := decided_by_whitelist_sound hdecided args
  refine ⟨es, s, e, accounts, args, w, hrun, he, following_signal_some hsignal, hw, henabled, hdecides,
    ?_⟩
  -- the whitelist names no group and has no record of the taker
  rintro ⟨w', hw', -, ⟨m, hm, -⟩ | ⟨_, g, -, hid, -⟩⟩
  · rw [Option.isNone_iff_eq_none.mp hmember] at hm
    cases hm
  · rw [hw'] at hgroups
    rw [List.isEmpty_iff.mp hgroups] at hid
    cases hid

/-! ## A protected deposit -/

/-- The intent a signal created is covered: its coverage is pending and matches it, and the last
event of the run locked the whole amount out of the free stake of the coverage's owner. -/
structure CoveredSignal (es : List Event) (e : Event) (window : ℤ) (i : Intent)
    (c : DisputeIntent) (l : StakeLock) : Prop where
  intent : e.post.intents.lookup
    (intent_address orchestrator_address e.pre.orchestrator.next_intent_id) = some i
  covered : i.dispute_covered = true
  coverage : e.post.dispute_intents.lookup (coverage_of i.intent_hash) = some c
  pending : c.status = .Pending
  taker : c.taker = i.owner
  deposit : c.deposit = i.deposit
  payment_method : c.payment_method = i.payment_method
  risk_window : c.risk_window = window
  lock : e.post.stake_locks.lookup (lock_of i.intent_hash) = some l
  amount : l.amount = i.amount
  stake_owner : l.stake_owner = c.stake_owner
  free_stake : ∃ e₀ ∈ es, e₀.post = e.pre ∧ ∃ p,
    e₀.pre.stake_positions.lookup (position_of c.stake_owner) = some p
      ∧ p.locked + i.amount ≤ p.balance
      ∧ e.pre.stake_positions.lookup (position_of c.stake_owner)
        = some { p with locked := p.locked + i.amount }

/-- Coverage presented by a signal of a run was prepared by the event right before it. -/
theorem Run.signal_prepared {rt : Runtime} (hinj : NonceInjective rt) {es : List Event} {s : State}
    (h : Run rt es s) {e : Event} (he : e ∈ es) {accounts : SignalIntent} {args : SignalIntentArgs}
    {d d' : Deposit} {a : LifecycleAdmission} {i : Intent} {expiry : ℤ} {state : TakerIntentState}
    (hsignaled : Signaled rt e.ctx accounts args e.pre e.post d d' a i expiry state)
    {c : DisputeIntent}
    (hc : e.pre.dispute_intents.lookup (coverage_of args.expected_intent_hash) = some c) :
    ∃ e₀ ∈ es, ∃ prepare prepare_args dep risk p p', e₀.post = e.pre
      ∧ e₀.ix = .program (.prepare_dispute prepare prepare_args)
      ∧ CoveragePrepared rt prepare prepare_args e₀.pre e.pre dep risk p p'
      ∧ prepare_args.expected_intent_hash = args.expected_intent_hash := by
  obtain ⟨⟨-, hcustody⟩, hahead⟩ := Run.coverage_ahead hinj h e he
  rcases hahead with hnone | ⟨-, e₀, prepare, prepare_args, he₀, hprepared⟩
  · have := hnone _ le_rfl hcustody.nonce
    rw [hsignaled.hash, hc] at this
    exact absurd this (by simp)
  · obtain ⟨dep, risk, p, p', _, _, hcoverage, -⟩ := hprepared.signal_follows
    refine ⟨e₀, he₀, prepare, prepare_args, dep, risk, p, p', hprepared.post_eq, hprepared.ix_eq,
      hcoverage, ?_⟩
    -- a preparation does not move the nonce its hash was derived from
    have hnonce : e.pre.orchestrator.next_intent_id = e₀.pre.orchestrator.next_intent_id := by
      rw [hcoverage.post]
    rw [← hcoverage.hash, ← hsignaled.hash, hnonce]

/-- A covered intent was covered by stake when it was signaled. -/
theorem Run.covered_signal {rt : Runtime} (hinj : NonceInjective rt) {es : List Event} {s : State}
    (h : Run rt es s) {e : Event} (he : e ∈ es) {accounts : SignalIntent} {args : SignalIntentArgs}
    {d d' : Deposit} {a : LifecycleAdmission} {i : Intent} {expiry : ℤ} {state : TakerIntentState}
    (hsignaled : Signaled rt e.ctx accounts args e.pre e.post d d' a i expiry state)
    {c : DisputeIntent} {risk : RiskWindow} (hbacked : SignalBacked accounts args e.pre c risk)
    (hcovered : i.dispute_covered = true) : ∃ l, CoveredSignal es e risk.seconds i c l := by
  obtain ⟨howner, hdeposit, hhash, hnonce, -, hmethod, hamount⟩ := hsignaled.terms
  obtain ⟨e₀, he₀, prepare, prepare_args, dep, window, p, p', hlast, -, hprepared, hsame⟩ :=
    Run.signal_prepared hinj h he hsignaled hbacked.found
  have hpost := hsignaled.post
  have hfound := hbacked.found
  have hpre := hprepared.post
  rw [hsame] at hpre
  -- the record the signal found is the one just prepared, so its terms are known
  rw [hpre, Finmap.lookup_insert] at hfound
  cases hfound
  obtain ⟨-, hfree, rfl⟩ := StakePosition.lock_ok hprepared.locked
  have hsize : prepare_args.amount = i.amount := hbacked.amount.trans hamount.symm
  refine ⟨⟨stake_vault_address, args.expected_intent_hash, prepare.stake_owner, prepare_args.amount,
    NEVER_MATURES⟩, ⟨?_, hcovered, ?_, rfl, ?_, ?_, ?_, hbacked.risk_window, ?_, hsize, rfl, ?_⟩⟩
  · rw [hpost, Finmap.lookup_insert]
  · rw [hpost, hhash]
    exact hbacked.found
  · rw [howner]
    exact hbacked.taker
  · rw [hdeposit]
    exact hbacked.deposit
  · rw [hmethod]
    exact hbacked.payment_method
  · rw [hpost, hhash]
    show e.pre.stake_locks.lookup _ = _
    rw [hpre, Finmap.lookup_insert]
  · refine ⟨e₀, he₀, hlast, p, hprepared.position, ?_, ?_⟩
    · rw [← hsize]
      exact hfree
    · show e.pre.stake_positions.lookup (position_of prepare.stake_owner) = _
      rw [hpre, Finmap.lookup_insert, hsize]

/-- In every run, whatever accounts a signal on a protected deposit leaves out, its taker is
whitelisted or its intent is covered by stake. -/
theorem protected_signal_whitelisted_or_covered {rt : Runtime} (hinj : NonceInjective rt)
    {es : List Event} {s : State} (h : Run rt es s) {e : Event} (he : e ∈ es)
    {accounts : SignalIntent} {args : SignalIntentArgs}
    (hix : e.ix = .program (.signal_intent accounts args))
    (hpolicy : e.pre.orchestrator.lifecycle_policy = .WhitelistAndDispute)
    (hsetting : ∀ setting, e.pre.dispute_settings.lookup (dispute_setting_address accounts.deposit)
      = some setting → setting.enabled = true)
    {risk : RiskWindow} (hrisk : e.pre.risk_windows.lookup
      (risk_window_address dispute_config_address args.payment_method) = some risk)
    (hpos : 0 < risk.seconds) :
    Whitelisted rt e.ctx e.pre accounts.deposit accounts.taker
      ∨ ∃ i c l, CoveredSignal es e risk.seconds i c l := by
  have hok := valid_execute (TxMachine.Run.valid h e he) hix
  obtain ⟨d, d', a, i, expiry, state, hsignaled⟩ := signal_intent_ok hok
  have ha := hsignaled.admission
  rcases admission_cases hsignaled.admitted with ⟨hnone, -⟩ | ⟨enabled, allowed, hen, hall, hcases⟩
  · rw [ha.policy, hpolicy] at hnone
    cases hnone
  · rcases hcases with ⟨hother, -⟩ | ⟨-, rfl, -⟩ | ⟨-, -, hoff, -⟩ | ⟨-, -, -, hdispute⟩
    · rw [ha.policy, hpolicy] at hother
      cases hother
    · exact .inl (ha.whitelisted hen hall)
    · -- protection is only found off through the deposit's own setting
      rcases dispute_enabled_ok hoff with ⟨-, hcontra⟩ | ⟨given, hgiven, hkey, hvalue⟩
      · cases hcontra
      · have hload := load_opt_some (hgiven ▸ ha.deposit_dispute_setting)
        rw [hkey, ha.deposit] at hload
        have := hsetting _ hload
        rw [hvalue] at this
        cases this
    · right
      obtain ⟨risk', hrisk', hkey, hcoverage⟩ := dispute_admission_ok hdispute
      have hwindow := load_opt_some (hrisk' ▸ ha.risk_window)
      rw [hkey, ha.payment_method, hrisk] at hwindow
      cases hwindow
      rcases hsignaled.coverage with ⟨-, hnone⟩ | ⟨c, risk'', hbacked, hcovered⟩
      · -- a positive window cannot be passed without presenting coverage
        rcases hcoverage with ⟨hzero, -⟩ | ⟨-, c, hc, -⟩
        · omega
        · have hload := (load_opt_eq_ok.mp ha.dispute_intent).1
          rw [hc, hnone] at hload
          exact absurd hload (by simp)
      · have hsame := hbacked.risk_found
        rw [hrisk] at hsame
        cases hsame
        rw [decide_eq_true hpos] at hcovered
        obtain ⟨l, hl⟩ := Run.covered_signal hinj h he hsignaled hbacked hcovered
        exact ⟨i, c, l, hl⟩

/-- The covered signal of the sample cluster. -/
theorem protected_signal_covered :
    ∃ es s e accounts args, ∃ risk : RiskWindow, NonceInjective sample_runtime
      ∧ Run sample_runtime es s ∧ e ∈ es ∧ e.ix = .program (.signal_intent accounts args)
      ∧ e.pre.orchestrator.lifecycle_policy = .WhitelistAndDispute ∧ 0 < risk.seconds
      ∧ (Whitelisted sample_runtime e.ctx e.pre accounts.deposit accounts.taker
        ∨ ∃ i c l, CoveredSignal es e risk.seconds i c l) := by
  obtain ⟨es, s, hrun, hgood⟩ := sample_reaches [sample_setup, sample_cover]
    (fun es _ => es.any fun e => (following_signal [e.ix]).any fun signal =>
      decide (e.pre.orchestrator.lifecycle_policy = .WhitelistAndDispute)
        && (e.pre.dispute_settings.lookup (dispute_setting_address signal.1.deposit)).isNone
        && (e.pre.risk_windows.lookup (risk_window_address dispute_config_address
          signal.2.payment_method)).any fun risk : RiskWindow => decide (0 < risk.seconds))
    (by decide +kernel)
  obtain ⟨e, he, hgood⟩ := List.any_eq_true.mp hgood
  obtain ⟨⟨accounts, args⟩, hsignal, hgood⟩ := (Option.any_eq_true _ _).mp hgood
  rw [Bool.and_eq_true, Bool.and_eq_true, decide_eq_true_eq, Option.any_eq_true] at hgood
  obtain ⟨⟨hpolicy, hsetting⟩, risk, hrisk, hpos⟩ := hgood
  have hix := following_signal_some hsignal
  refine ⟨es, s, e, accounts, args, risk, sample_nonce_injective, hrun, he, hix, hpolicy,
    of_decide_eq_true hpos, protected_signal_whitelisted_or_covered sample_nonce_injective hrun he hix
      hpolicy (fun setting hfound => ?_) hrisk (of_decide_eq_true hpos)⟩
  rw [Option.isNone_iff_eq_none.mp hsetting] at hfound
  cases hfound

/-! ## A deposit that opted out -/

/-- A preparation on a deposit that opted out, if the event is one, presents the deposit's
setting. -/
def PresentsSetting (e : Event) : Prop :=
  ∀ accounts args, e.ix = .program (.prepare_dispute accounts args) →
    (∃ setting, e.pre.dispute_settings.lookup (dispute_setting_address accounts.deposit)
      = some setting ∧ setting.enabled = false) → accounts.deposit_setting.isSome = true

/-- The same, computed. -/
def presents_setting (e : Event) : Bool :=
  match e.ix with
  | .program (.prepare_dispute accounts _) =>
    (e.pre.dispute_settings.lookup (dispute_setting_address accounts.deposit)).all
      fun setting => setting.enabled || accounts.deposit_setting.isSome
  | _ => true

theorem presents_setting_sound {e : Event} (h : presents_setting e = true) : PresentsSetting e := by
  rintro accounts args hix ⟨setting, hsetting, hoff⟩
  unfold presents_setting at h
  rw [hix] at h
  simpa only [hsetting, Option.all_some, hoff, Bool.false_or] using h

/-- Coverage cannot be prepared on a deposit whose presented setting opts out. -/
theorem CoveragePrepared.not_opted_out {rt : Runtime} {accounts : PrepareDispute}
    {args : PrepareDisputeArgs} {s s' : State} {d : Deposit} {risk : RiskWindow}
    {p p' : StakePosition} (h : CoveragePrepared rt accounts args s s' d risk p p')
    (hs : SettingsCanonical s.toDisputeRecords)
    (hpresents : accounts.deposit_setting.isSome = true) {setting : DepositDisputeSetting}
    (hsetting : s.dispute_settings.lookup (dispute_setting_address accounts.deposit)
      = some setting) : setting.enabled = true := by
  obtain ⟨given, hgiven, hof, henabled⟩ := h.setting
  obtain ⟨a, rfl⟩ := load_opt_isSome hgiven hpresents
  have hload := load_opt_some hgiven
  rw [hs _ _ hload, hof a rfl, hsetting] at hload
  cases hload
  exact henabled a rfl

/-- In every run whose preparations on opted-out deposits present the setting, no event creates
coverage or a covered intent for a deposit that has opted out when it runs. -/
theorem opt_out_respected_if_supplied {rt : Runtime} (hinj : NonceInjective rt) {es : List Event}
    {s : State} (h : Run rt es s) (hpresents : ∀ e ∈ es, PresentsSetting e) {e : Event}
    (he : e ∈ es) {k : Pubkey} {setting : DepositDisputeSetting}
    (hsetting : e.pre.dispute_settings.lookup (dispute_setting_address k) = some setting)
    (hoff : setting.enabled = false) :
    (∀ kc c, e.pre.dispute_intents.lookup kc = none → e.post.dispute_intents.lookup kc = some c →
        c.deposit ≠ k)
      ∧ ∀ ki i, e.pre.intents.lookup ki = none → e.post.intents.lookup ki = some i →
        i.dispute_covered = true → i.deposit ≠ k := by
  have hv := TxMachine.Run.valid h e he
  have hledger := (Run.coverage_ahead hinj h e he).1.1
  constructor
  · rintro kc c hfresh hc rfl
    obtain ⟨accounts, args, d, risk, p, p', hix, hprepared, rfl⟩ :=
      (lifecycle_move hv).coverage_created hledger.coverage hfresh hc
    have hsome := hpresents e he accounts args hix ⟨setting, hsetting, hoff⟩
    rw [hprepared.not_opted_out hledger.settings hsome hsetting] at hoff
    cases hoff
  · rintro ki i hfresh hi hcovered rfl
    obtain ⟨accounts, args, d, d', a, expiry, state, -, hsignaled⟩ :=
      (lifecycle_move hv).intent_created hledger.coverage hfresh hi
    rcases hsignaled.coverage with ⟨huncovered, -⟩ | ⟨c, risk, hbacked, -⟩
    · rw [huncovered] at hcovered
      cases hcovered
    · -- the preparation right before the signal already met the setting
      obtain ⟨e₀, he₀, prepare, prepare_args, dep, window, p, p', -, hix₀, hprepared, hsame⟩ :=
        Run.signal_prepared hinj h he hsignaled hbacked.found
      have hdeposit : prepare.deposit = i.deposit := by
        have hfound := hbacked.found
        rw [hprepared.post, hsame, Finmap.lookup_insert] at hfound
        cases hfound
        rw [hsignaled.terms.deposit]
        exact hbacked.deposit
      have hsetting₀ : e₀.pre.dispute_settings.lookup
          (dispute_setting_address prepare.deposit) = some setting := by
        rw [hprepared.post] at hsetting
        rw [hdeposit]
        exact hsetting
      have hledger₀ := (Run.coverage_ahead hinj h e₀ he₀).1.1
      have hsome := hpresents e₀ he₀ prepare prepare_args hix₀ ⟨setting, hsetting₀, hoff⟩
      rw [hprepared.not_opted_out hledger₀.settings hsome hsetting₀] at hoff
      cases hoff

/-- The sample deposit opts out of protection. -/
def sample_opt_out : TxContext × List TopLevel :=
  (sample_ctx 1500,
    [.program (.dispute_policy (.set_deposit_dispute_protection ⟨sample_depositor, sample_deposit⟩
      false))])

/-- The setting of the sample deposit as an event finds it. -/
def finds_opt_out (e : Event) : Bool :=
  (e.pre.dispute_settings.lookup (dispute_setting_address sample_deposit)).any
    fun setting => !setting.enabled

/-- An uncovered signal on a deposit that opted out. -/
theorem opt_out_respected_uncovered :
    ∃ es s e setting, NonceInjective sample_runtime ∧ Run sample_runtime es s
      ∧ (∀ e ∈ es, PresentsSetting e) ∧ e ∈ es
      ∧ e.pre.dispute_settings.lookup (dispute_setting_address sample_deposit) = some setting
      ∧ setting.enabled = false ∧ (following_signal [e.ix]).isSome = true
      ∧ (∀ kc c, e.pre.dispute_intents.lookup kc = none → e.post.dispute_intents.lookup kc = some c →
          c.deposit ≠ sample_deposit)
      ∧ ∀ ki i, e.pre.intents.lookup ki = none → e.post.intents.lookup ki = some i →
        i.dispute_covered = true → i.deposit ≠ sample_deposit := by
  obtain ⟨es, s, hrun, hgood⟩ := sample_reaches
    [sample_setup, sample_opt_out, (sample_ctx 2000, [.program (.signal_intent
      { sample_signal with
        deposit_dispute_setting := some (dispute_setting_address sample_deposit) }
      sample_signal_args)])]
    (fun es _ => es.all presents_setting
      && es.any fun e => finds_opt_out e && (following_signal [e.ix]).isSome) (by decide +kernel)
  rw [Bool.and_eq_true, List.all_eq_true, List.any_eq_true] at hgood
  obtain ⟨hpresents, e, he, hgood⟩ := hgood
  rw [Bool.and_eq_true] at hgood
  obtain ⟨setting, hsetting, hoff⟩ := (Option.any_eq_true _ _).mp hgood.1
  have hoff : setting.enabled = false := by simpa using hoff
  have hpresents : ∀ e ∈ es, PresentsSetting e := fun e he => presents_setting_sound (hpresents e he)
  exact ⟨es, s, e, setting, sample_nonce_injective, hrun, hpresents, he, hsetting, hoff, hgood.2,
    opt_out_respected_if_supplied sample_nonce_injective hrun hpresents he hsetting hoff⟩

/-- Anyone who leaves the setting out gets coverage and a covered intent on a deposit that opted
out. -/
theorem opt_out_bypassed :
    ∃ es s, Run sample_runtime es s
      ∧ (∃ e ∈ es, ∃ setting c, e.pre.dispute_settings.lookup (dispute_setting_address sample_deposit)
          = some setting ∧ setting.enabled = false
        ∧ e.pre.dispute_intents.lookup (coverage_of sample_hash) = none
        ∧ e.post.dispute_intents.lookup (coverage_of sample_hash) = some c
        ∧ c.deposit = sample_deposit)
      ∧ ∃ e ∈ es, ∃ setting i, e.pre.dispute_settings.lookup (dispute_setting_address sample_deposit)
          = some setting ∧ setting.enabled = false
        ∧ e.pre.intents.lookup sample_intent = none
        ∧ e.post.intents.lookup sample_intent = some i
        ∧ i.dispute_covered = true ∧ i.deposit = sample_deposit := by
  obtain ⟨es, s, hrun, hgood⟩ := sample_reaches [sample_setup, sample_opt_out, sample_cover]
    (fun es _ => (es.any fun e => finds_opt_out e
        && (e.pre.dispute_intents.lookup (coverage_of sample_hash)).isNone
        && (e.post.dispute_intents.lookup (coverage_of sample_hash)).any
          fun c => decide (c.deposit = sample_deposit))
      && es.any fun e => finds_opt_out e && (e.pre.intents.lookup sample_intent).isNone
        && (e.post.intents.lookup sample_intent).any
          fun i => i.dispute_covered && decide (i.deposit = sample_deposit)) (by decide +kernel)
  simp only [finds_opt_out, Bool.and_eq_true, List.any_eq_true, Option.any_eq_true,
    Option.isNone_iff_eq_none, decide_eq_true_eq, Bool.not_eq_true'] at hgood
  obtain ⟨⟨e, he, ⟨⟨setting, hsetting, hoff⟩, hfresh⟩, c, hc, hdeposit⟩, e', he',
    ⟨⟨setting', hsetting', hoff'⟩, hfresh'⟩, i, hi, hcovered, hdeposit'⟩ := hgood
  exact ⟨es, s, hrun, ⟨e, he, setting, c, hsetting, hoff, hfresh, hc, hdeposit⟩, e', he', setting', i,
    hsetting', hoff', hfresh', hi, hcovered, hdeposit'⟩

end Zkp2pSolana
