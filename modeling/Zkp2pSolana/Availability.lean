/-
Every live covered intent can be ended, as long as the program controls its collateral.

The terminals of a covered intent are guarded by what other records hold: the
deposit and its lock, the owner's counter, the coverage record, the collateral
lock and the position it was taken from. In a run without an accepted handover
all of them are in order, so cancellation, pruning and the lifecycle part of both
settlements go through on the accounts the seeds determine. An accepted handover
ends that: settlement and disputes ask for the program's own controller, and no
instruction brings it back.
-/
import Zkp2pSolana.Lib.FinmapAlter
import Zkp2pSolana.DisputeHistory

set_option autoImplicit false

namespace Zkp2pSolana

open Result Zkp2pError

/-! ## The counters of intent owners -/

/-- How many live intents an owner has. -/
def OrchestratorRecords.intent_count (r : OrchestratorRecords) (o : Pubkey) : ℕ :=
  Finmap.owed Intent.owner (fun _ => 1) r.intents o

/-- The counter of an owner. -/
def OrchestratorRecords.active_of (r : OrchestratorRecords) (o : Pubkey) : ℕ :=
  (r.taker_states.lookup (taker_state_address orchestrator_address o)).elim 0
    TakerIntentState.active_intents

/-- Owners of live intents sign, and their counters count. -/
structure OwnersOk (s : State) : Prop where
  signs : ∀ k i, s.intents.lookup k = some i → i.owner.can_sign = true
  taker : ∀ o t, s.taker_states.lookup (taker_state_address orchestrator_address o) = some t →
    t.taker = o
  active : ∀ o, s.active_of o = s.intent_count o
  collateral_vault : s.dispute_config.stake_vault = stake_vault_address

section Owners

variable {rt : Runtime} {ctx : TxContext} {s s' : State}

theorem lookup_taker_insert {m m' : Accounts TakerIntentState} {o : Pubkey} {t : TakerIntentState}
    (h : m' = m.insert (taker_state_address orchestrator_address o) t) (o' : Pubkey) :
    m'.lookup (taker_state_address orchestrator_address o')
      = if o = o' then some t else m.lookup (taker_state_address orchestrator_address o') := by
  have hkey : Function.Injective (taker_state_address orchestrator_address) := by
    intro o o' heq
    injection heq
  rw [h, Finmap.lookup_insert_key hkey]

/-- A raised counter is one higher and is its taker's, also when it has just been opened. -/
theorem raised_taker_state_ok {t t' : TakerIntentState} {o : Pubkey}
    (h : raised_taker_state t o = .ok t') :
    t'.active_intents = t.active_intents + 1
      ∧ (t'.taker = o ∨ t'.taker = t.taker ∧ t.taker ≠ Pubkey.default) := by
  simp only [raised_taker_state, bind_eq_ok, ok_or_eq_ok, Checked.add_eq_some, ite_eq_ok,
    pure_eq_ok] at h
  obtain ⟨_, ⟨-, rfl⟩, ⟨-, rfl⟩ | ⟨hset, rfl⟩⟩ := h
  · exact ⟨rfl, .inl rfl⟩
  · exact ⟨rfl, .inr ⟨rfl, hset⟩⟩

/-- A signal raises the counter of the owner it adds an intent for; the owner has signed it. -/
theorem OwnersOk.signaled {accounts : SignalIntent} {args : SignalIntentArgs} {d d' : Deposit}
    {a : LifecycleAdmission} {i : Intent} {expiry : ℤ} {state : TakerIntentState} (hs : OwnersOk s)
    (h : Signaled rt ctx accounts args s s' d d' a i expiry state) : OwnersOk s' := by
  have howner := h.terms.owner
  have hintents : s'.intents = _ := congrArg (·.intents) h.post
  have htakers : s'.taker_states = _ := congrArg (·.taker_states) h.post
  have hfresh := h.intent_fresh
  rw [h.terms.nonce] at hfresh
  obtain ⟨hactive, htaker⟩ := raised_taker_state_ok h.raised
  refine ⟨fun k i' hi' => ?_, fun o t ht => ?_, fun o => ?_, ?_⟩
  · rw [hintents, Finmap.lookup_insert_ite] at hi'
    split_ifs at hi' with hk
    · cases hi'
      rw [howner]
      exact h.signs
    · exact hs.signs k i' hi'
  · rw [lookup_taker_insert htakers] at ht
    split_ifs at ht with ho
    · cases ht
      subst ho
      rcases htaker with htaker | ⟨htaker, hset⟩
      · exact htaker
      · -- a state found at the owner's address is the owner's
        rw [htaker]
        cases hfound : s.taker_states.lookup
            (taker_state_address orchestrator_address accounts.taker) with
        | none =>
          rw [init_if_needed, hfound] at hset
          exact absurd rfl hset
        | some t₀ =>
          rw [init_if_needed_some hfound]
          exact hs.taker _ t₀ hfound
    · exact hs.taker o t ht
  · have hcount := Finmap.owed_insert Intent.owner (fun _ => 1) hfresh (v := i) o
    have hold := hs.active o
    unfold OrchestratorRecords.active_of OrchestratorRecords.intent_count at *
    rw [lookup_taker_insert htakers, hintents, hcount, howner]
    split_ifs with ho
    · subst ho
      rw [Option.elim_some, hactive, ← hold]
      unfold init_if_needed
      cases s.taker_states.lookup (taker_state_address orchestrator_address accounts.taker) <;> rfl
    · exact hold
  · rw [h.post]
    exact hs.collateral_vault

theorem OwnersOk.closed (hs : OwnersOk s) (h : IntentClosed s s')
    (hvault : s'.dispute_config = s.dispute_config) : OwnersOk s' := by
  obtain ⟨k₀, live, hlive, hintents, htakers⟩ := h
  obtain ⟨hi, -, -, -, ht⟩ := live_intent_ok hlive
  refine ⟨fun k i hi => ?_, fun o t ht' => ?_, fun o => ?_, by rw [hvault, hs.collateral_vault]⟩
  · rw [hintents, Finmap.lookup_erase_ite] at hi
    split_ifs at hi
    exact hs.signs k i hi
  · rw [lookup_taker_insert htakers] at ht'
    split_ifs at ht' with ho
    · cases ht'
      subst ho
      exact hs.taker _ live.taker_state ht
    · exact hs.taker o t ht'
  -- one intent less and a counter one lower, for the same owner
  · have hcount := Finmap.owed_erase Intent.owner (fun _ => 1) hi o
    have hold := hs.active o
    unfold OrchestratorRecords.active_of OrchestratorRecords.intent_count at *
    rw [lookup_taker_insert htakers, hintents]
    split_ifs at hcount ⊢ with ho
    · rw [← ho, ht, Option.elim_some, ho] at hold
      rw [Option.elim_some]
      dsimp only
      omega
    · omega

/-- What moves neither intents nor counters keeps the count. -/
theorem OwnersOk.same (hs : OwnersOk s) (hintents : s'.intents = s.intents)
    (htakers : s'.taker_states = s.taker_states)
    (hvault : s'.dispute_config.stake_vault = s.dispute_config.stake_vault) : OwnersOk s' := by
  refine ⟨hintents ▸ hs.signs, htakers ▸ hs.taker, fun o => ?_, hvault.trans hs.collateral_vault⟩
  have hold := hs.active o
  unfold OrchestratorRecords.active_of OrchestratorRecords.intent_count at *
  rw [htakers, hintents, hold]

theorem OwnersOk.step {e : Event} (hs : OwnersOk e.pre) (hv : e.Valid (step rt))
    (hc : CoverageCanonical e.pre.toDisputeRecords) : OwnersOk e.post := by
  rcases (lifecycle_move hv).intent_write hc with hframe | ⟨hframe, ⟨hintents, htakers⟩ | hclosed
    | ⟨_, _, _, _, _, _, _, _, -, hsignaled⟩⟩
  · exact hs.same hframe.intents hframe.taker_states hframe.collateral_vault
  · exact hs.same hintents htakers (by rw [hframe.dispute_config])
  · exact hs.closed hclosed hframe.dispute_config
  · exact hs.signaled hsignaled

end Owners

theorem genesis_owners {rt : Runtime} {s : State} (h : genesis rt s) : OwnersOk s := by
  obtain ⟨_, _, _, _, _, _, tokens, rfl, -⟩ := genesis_ok h
  refine ⟨fun k i hi => ?_, fun o t ht => ?_, fun o => ?_, rfl⟩
  · exact absurd hi (by simp [initial_state])
  · exact absurd ht (by simp [initial_state])
  · unfold OrchestratorRecords.active_of OrchestratorRecords.intent_count initial_state
    rw [Finmap.owed_empty, Finmap.lookup_empty]
    rfl

/-- Counters count live intents in every state of a run. -/
theorem Run.owners {rt : Runtime} {es : List Event} {s : State} (h : Run rt es s) :
    OwnersOk s ∧ ∀ e ∈ es, OwnersOk e.pre ∧ OwnersOk e.post := by
  obtain ⟨hs, hes⟩ := TxMachine.Run.invariant (G := fun _ => True)
    (I := fun s => LedgerOk s ∧ OwnersOk s)
    (fun s h0 => ⟨genesis_ledgerOk h0, genesis_owners h0⟩)
    (fun e _ hv hs => ⟨LedgerOk.step hs.1 hv, hs.2.step hv hs.1.coverage⟩)
    h fun _ _ => trivial
  exact ⟨hs.2, fun e he => ⟨(hes e he).1.2, (hes e he).2.2⟩⟩

/-! ## Collateral without a handover -/

/-- Collateral is locked only for coverage that names the same stake owner. -/
def CollateralNamed (s : State) : Prop :=
  ∀ hash l, s.stake_locks.lookup (lock_of hash) = some l →
    ∃ c, s.dispute_intents.lookup (coverage_of hash) = some c ∧ l.stake_owner = c.stake_owner

section Collateral

variable {rt : Runtime} {ctx : TxContext} {s s₁ s' : State} {hash : Bytes 32}

/-- Writing lock and coverage of one hash together. -/
theorem CollateralNamed.write (hs : CollateralNamed s) {c : DisputeIntent} {o : Option StakeLock}
    (howner : ∀ l ∈ o, l.stake_owner = c.stake_owner)
    (hrecords : s'.dispute_intents = s.dispute_intents.insert (coverage_of hash) c)
    (hlocks : s'.stake_locks = s.stake_locks.alter (lock_of hash) fun _ => o) :
    CollateralNamed s' := by
  intro hash' l hl
  rw [hlocks, Finmap.lookup_alter] at hl
  rw [hrecords, Finmap.lookup_insert_ite]
  by_cases hhash : hash' = hash
  · subst hhash
    rw [if_pos rfl] at hl ⊢
    exact ⟨c, rfl, howner l hl⟩
  · rw [if_neg (Pubkey.pda_word_ne hhash)] at hl
    rw [if_neg (Pubkey.pda_word_ne hhash)]
    exact hs hash' l hl

/-- Cancelling removes the lock, so nothing is left to be named. -/
theorem CoverageCancelled.named {c : DisputeIntent} {l : StakeLock} {p p' : StakePosition}
    (h : CoverageCancelled s s₁ hash c l p p') (hs : CollateralNamed s) : CollateralNamed s₁ := by
  refine hs.write (o := none) ?_ (congrArg (·.dispute_intents) h.post)
    (congrArg (·.stake_locks) h.post)
  intro l hl
  cases hl

/-- Settling keeps the lock under the owner its coverage names. -/
theorem settle_intent_named {k : Pubkey} {live : LiveIntent} {tokens : SettlementTokenAccounts}
    {dispute : SettlementDisputeAccounts} {remaining_accounts : List AccountInfo} {released : ℕ}
    (h : settle_intent ctx k live tokens dispute remaining_accounts released s = .ok s')
    (hs : CollateralNamed s) : CollateralNamed s' := by
  obtain ⟨s₁, deposit, T, hdispute, -, -, rfl⟩ := settle_intent_ok h
  rcases settle_dispute_ok hdispute with ⟨-, rfl⟩ | ⟨-, -, c, l, _, _, hsettled⟩
  · exact hs
  · obtain ⟨c', hc', howner⟩ := hs _ l hsettled.lock
    rw [hsettled.dispute_eq] at hc'
    cases hc'
    -- the lock shrinks, and stays with its owner
    have hnamed : CollateralNamed s₁ := by
      refine hs.write (o := some _) ?_ (congrArg (·.dispute_intents) hsettled.post)
        (congrArg (·.stake_locks) hsettled.post)
      intro l' hl'
      cases hl'
      exact howner
    exact hnamed

/-- While the program controls the collateral, every instruction keeps locks and coverage on one
owner. -/
theorem CollateralNamed.step {e : Event} (hv : e.Valid (step rt)) (hledger : LedgerOk e.pre)
    (hcontroller : e.pre.stake_vault.controller = dispute_config_address)
    (hs : CollateralNamed e.pre) : CollateralNamed e.post := by
  have hmove := lifecycle_move hv
  obtain ⟨ctx, before, ix, after, s, s'⟩ := e
  dsimp only at *
  cases hmove with
  -- the controller is an address that never signs, so no stake instruction moves a lock
  | idle frame =>
    intro hash l hl
    rw [frame.locks_kept hcontroller] at hl
    rw [frame.dispute_intents]
    exact hs hash l hl
  | signal_intent signaled =>
    rw [signaled.post]
    exact hs
  | cancel_intent ok =>
    obtain ⟨_, _, _, _, _, _, _, _, _, rfl⟩ := cancel_intent_ok ok
    exact hs
  | prune_expired_intent ok =>
    obtain ⟨live, s₁, deposit, -, -, hprune, -, rfl⟩ := prune_expired_intent_ok ok
    rcases prune_dispute_ok hprune with ⟨-, rfl⟩ | ⟨-, _, _, _, _, hcancelled⟩
    · exact hs
    · exact hcancelled.named hs
  -- lock and coverage are written together, with one owner
  | prepare_dispute prepared follows =>
    refine hs.write (o := some _) ?_ (congrArg (·.dispute_intents) prepared.post)
      (congrArg (·.stake_locks) prepared.post)
    intro l hl
    cases hl
    rfl
  | cancel_dispute ok =>
    obtain ⟨_, _, _, _, _, _, _, _, hcancelled, _⟩ := cancel_dispute_ok hledger.coverage ok
    exact hcancelled.named hs
  -- both ways out of settled coverage erase the lock of its hash
  | release_matured_dispute ok =>
    obtain ⟨c, l, _, _, hc, -, -, -, -, -, -, -, hpost⟩ := release_matured_dispute_ok ok
    rw [(hledger.coverage _ c hc).1] at hpost
    refine hs.write (o := none) ?_ (congrArg (·.dispute_intents) hpost)
      (congrArg (·.stake_locks) hpost)
    intro l hl
    cases hl
  | submit_dispute ok =>
    obtain ⟨_, _, _, _, _, _, hdisputed, -⟩ := submit_dispute_ok ok
    refine hs.write (o := none) ?_ (congrArg (·.dispute_intents) hdisputed.post)
      (congrArg (·.stake_locks) hdisputed.post)
    intro l hl
    cases hl
  | fulfill_intent ok =>
    obtain ⟨live, s₁, -, -, -, -, -, hsettle, rfl⟩ := fulfill_intent_ok ok
    have hnamed : CollateralNamed s₁ := settle_intent_named hsettle hs
    exact hnamed
  | manual_release ok =>
    obtain ⟨live, -, -, -, hsettle⟩ := manual_release_ok ok
    exact settle_intent_named hsettle hs

/-- A release frees the owner of the lock it closes. -/
theorem CollateralNamed.releases_own {e : Event} (hs : CollateralNamed e.pre)
    (hledger : LedgerOk e.pre) : ReleasesOwnLock e := by
  intro accounts _ c l hc hl
  obtain ⟨c', hc', howner⟩ := hs _ l hl
  rw [(hledger.coverage _ c hc).1, hc'] at hc
  cases hc
  exact howner

end Collateral

/-- Collateral under the program's own controller: locked for coverage of the same owner, and
backed. -/
structure CollateralOk (s : State) : Prop where
  controller : s.stake_vault.controller = dispute_config_address
  named : CollateralNamed s
  backed : Backed s

/-- As long as the vault is not handed over, every lock in it is collateral of coverage. -/
theorem Run.collateral {rt : Runtime} {es : List Event} {s : State} (h : Run rt es s)
    (hkept : ∀ e ∈ es, ¬ AcceptsController e) : CollateralOk s := by
  refine (TxMachine.Run.invariant (G := (· ∈ es)) (I := fun s => LedgerOk s ∧ CollateralOk s)
    ?_ ?_ h fun _ he => he).1.2
  · intro s₀ h₀
    refine ⟨genesis_ledgerOk h₀, ?_, ?_, genesis_backed h₀⟩
    all_goals obtain ⟨_, _, _, _, _, _, _, rfl, -⟩ := genesis_ok h₀
    · rfl
    · intro hash l hl
      exact absurd hl (by simp [initial_state])
  · rintro e he hv ⟨hledger, hcontroller, hnamed, hbacked⟩
    have hmove := stake_move hledger.tokens hledger.stake hledger.coverage hv
    refine ⟨hledger.step hv, ?_, hnamed.step hv hledger hcontroller,
      hmove.backed hbacked (hnamed.releases_own hledger)⟩
    -- only an accepted handover changes the controller
    rcases (lifecycle_move hv).intent_write hledger.coverage with hframe | ⟨hframe, -⟩
    · exact (hframe.controller.resolve_right (hkept e he)).trans hcontroller
    · exact hframe.controller.trans hcontroller

/-! ## The records of a live intent -/

/-- A live lock can be returned to its deposit. -/
theorem CustodyInv.unlock_ok {rt : Runtime} {s : State} (hs : CustodyInv rt s)
    (hT : TokensOk s.tokens) {k kd : Pubkey} {l : EscrowIntentLock} {d : Deposit}
    (hl : s.intent_locks.lookup k = some l) (hdep : l.deposit = kd)
    (hd : s.deposits.lookup kd = some d) : ∃ d', d.unlock l.amount = .ok d' := by
  subst hdep
  obtain ⟨⟨a, ha⟩, houtstanding, hactive, -⟩ := hs.deposits _ d hd
  have hamount : l.amount ≤ s.locked_amount l.deposit :=
    Finmap.le_owed EscrowIntentLock.deposit EscrowIntentLock.amount hl
  have hcount : 1 ≤ s.lock_count l.deposit :=
    Finmap.le_owed EscrowIntentLock.deposit (fun _ => 1) hl
  -- the vault holds the principal, so the sum is a word
  have hword := hT.word _ a ha.found
  have hcovers := ha.covers
  unfold Deposit.liability at hcovers
  simp only [Deposit.unlock, bind_eq_ok, ok_or_eq_ok, Checked.sub_eq_some, Checked.add_eq_some,
    pure_eq_ok]
  exact ⟨_, _, ⟨by omega, rfl⟩, _, ⟨by omega, rfl⟩, _, ⟨by omega, rfl⟩, rfl⟩

/-- The counter of a live intent's owner exists and is at least one. -/
theorem OwnersOk.state {s : State} (hs : OwnersOk s) {k : Pubkey} {i : Intent}
    (hi : s.intents.lookup k = some i) :
    ∃ t, s.taker_states.lookup (taker_state_address orchestrator_address i.owner) = some t
      ∧ t.taker = i.owner ∧ 1 ≤ t.active_intents := by
  have hcount : 1 ≤ s.intent_count i.owner := Finmap.le_owed Intent.owner (fun _ => 1) hi
  have hactive := hs.active i.owner
  unfold OrchestratorRecords.active_of at hactive
  cases ht : s.taker_states.lookup (taker_state_address orchestrator_address i.owner) with
  | none =>
    rw [ht, Option.elim_none] at hactive
    omega
  | some t =>
    rw [ht, Option.elim_some] at hactive
    exact ⟨t, rfl, hs.taker _ t ht, by omega⟩

/-- What the terminals of a live intent read of the escrow and of its owner, all in order. -/
structure Closable (s : State) (k : Pubkey) (live : LiveIntent) : Prop where
  found : live_intent k s = .ok live
  signs : live.intent.owner.can_sign = true
  orchestrator : live.intent.orchestrator = orchestrator_address
  paired : Paired live.intent live.lock
  taker : live.taker_state.taker = live.intent.owner
  counter : 1 ≤ live.taker_state.active_intents
  unlock : ∃ d, live.deposit.unlock live.lock.amount = .ok d

/-- In every state of a run every live intent has all its terminals will load and subtract. -/
theorem Run.closable {rt : Runtime} {es : List Event} {s : State} (h : Run rt es s) {k : Pubkey}
    {i : Intent} (hi : s.intents.lookup k = some i) :
    ∃ live, live.intent = i ∧ Closable s k live := by
  obtain ⟨⟨hledger, hcustody, -⟩, -⟩ := Run.own_locks h
  have howners := (Run.owners h).1
  obtain ⟨hkey, -, -, horchestrator, -, ⟨d, hd⟩, l, hl, hpaired⟩ := hcustody.intents k i hi
  obtain ⟨t, ht, htaker, hcounter⟩ := howners.state hi
  refine ⟨⟨i, d, l, t⟩, rfl, ?_, howners.signs k i hi, horchestrator, hpaired, htaker, hcounter,
    hcustody.unlock_ok hledger.tokens hl hpaired.deposit hd⟩
  simp only [live_intent, bind_eq_ok, load_eq_ok, require_eq_ok, exists_const, pure_eq_ok]
  exact ⟨i, hi, hkey, d, hd, l, hl, t, ht, rfl⟩

/-! ## The records of a live covered intent -/

/-- What the terminals of a live covered intent read, all in order. -/
structure Covered (s : State) (k : Pubkey) (live : LiveIntent) (c : DisputeIntent) (l : StakeLock)
    (p : StakePosition) : Prop where
  found : live_intent k s = .ok live
  covered : live.intent.dispute_covered = true
  signs : live.intent.owner.can_sign = true
  orchestrator : live.intent.orchestrator = orchestrator_address
  paired : Paired live.intent live.lock
  taker : live.taker_state.taker = live.intent.owner
  counter : 1 ≤ live.taker_state.active_intents
  unlock : ∃ d, live.deposit.unlock live.lock.amount = .ok d
  collateral_vault : s.dispute_config.stake_vault = stake_vault_address
  coverage : s.dispute_intents.lookup (coverage_of live.intent.intent_hash) = some c
  pending : c.status = .Pending
  intent_hash : c.intent_hash = live.intent.intent_hash
  dispute_config : c.dispute_config = dispute_config_address
  lock : s.stake_locks.lookup (lock_of live.intent.intent_hash) = some l
  lock_id : l.id = live.intent.intent_hash
  lock_vault : l.vault = stake_vault_address
  agrees : PendingAgrees c l live.intent
  position : s.stake_positions.lookup (position_of c.stake_owner) = some p
  owner : p.owner = c.stake_owner
  backed : l.amount ≤ p.locked

/-- A position has locked what each of its locks takes. -/
theorem Backed.le_locked {s : State} (h : Backed s) {id : Bytes 32} {l : StakeLock}
    {p : StakePosition} (hl : s.stake_locks.lookup (lock_of id) = some l)
    (hp : s.stake_positions.lookup (position_of l.stake_owner) = some p) : l.amount ≤ p.locked := by
  have hlock : l.amount ≤ s.locks_of l.stake_owner :=
    Finmap.le_owed StakeLock.stake_owner StakeLock.amount hl
  have hbacked := h l.stake_owner
  rw [locked_of_some hp] at hbacked
  omega

/-- Backed collateral has a position to return to. -/
theorem Backed.position {s : State} (h : Backed s) {id : Bytes 32} {l : StakeLock}
    (hl : s.stake_locks.lookup (lock_of id) = some l) (hpos : 0 < l.amount) :
    ∃ p, s.stake_positions.lookup (position_of l.stake_owner) = some p ∧ l.amount ≤ p.locked := by
  cases hp : s.stake_positions.lookup (position_of l.stake_owner) with
  -- an owner without a position has nothing locked, and this lock is positive
  | none =>
    have hlock : l.amount ≤ s.locks_of l.stake_owner :=
      Finmap.le_owed StakeLock.stake_owner StakeLock.amount hl
    have hbacked := h l.stake_owner
    unfold StakeRecords.locked_of at hbacked
    rw [hp, Option.elim_none] at hbacked
    omega
  | some p => exact ⟨p, rfl, h.le_locked hl hp⟩

/-- In a run without a handover the records of every live covered intent are in order. -/
theorem Run.covered {rt : Runtime} (hinj : NonceInjective rt) {es : List Event} {s : State}
    (h : Run rt es s) (hkept : ∀ e ∈ es, ¬ AcceptsController e) {k : Pubkey} {i : Intent}
    (hi : s.intents.lookup k = some i) (hcovered : i.dispute_covered = true) :
    ∃ live c l p, live.intent = i ∧ Covered s k live c l p := by
  obtain ⟨⟨hledger, hcustody⟩, -⟩ := Run.custody hinj h
  have hok := Run.coverage_ok hinj h hkept i.intent_hash
  obtain ⟨live, rfl, hclosable⟩ := Run.closable h hi
  rcases hok.live hcustody hinj hi rfl with ⟨huncovered, -⟩ | ⟨-, c, l, hc, hpending, hl, hagrees⟩
  · rw [huncovered] at hcovered
    cases hcovered
  obtain ⟨hhash, hconfig⟩ := hledger.coverage.at_hash hc
  obtain ⟨hlkey, hlvault⟩ := hledger.stake.lock _ l hl
  injection hlkey with _ _ hlid
  -- a lock of a positive amount has a position behind it
  have hlpos : 0 < l.amount := by
    rw [hagrees.lock_amount, hagrees.amount]
    exact (hcustody.intents k live.intent hi).amount
  obtain ⟨p, hp, hlocked⟩ := (Run.collateral h hkept).backed.position hl hlpos
  have howner := (hledger.stake.position_at hp).owner
  -- the position was found for the owner of the lock, which is the coverage's as long as they agree
  rw [hagrees.stake_owner] at hp howner
  refine ⟨live, c, l, p, rfl, ?_⟩
  exact {
    found := hclosable.found
    covered := hcovered
    signs := hclosable.signs
    orchestrator := hclosable.orchestrator
    paired := hclosable.paired
    taker := hclosable.taker
    counter := hclosable.counter
    unlock := hclosable.unlock
    collateral_vault := (Run.owners h).1.collateral_vault
    coverage := hc
    pending := hpending
    intent_hash := hhash
    dispute_config := hconfig
    lock := hl
    lock_id := hlid.symm
    lock_vault := hlvault
    agrees := hagrees
    position := hp
    owner := howner
    backed := hlocked }

/-! ## The terminals

The accounts are the ones the seeds of each instruction determine. -/

/-- Cancellation of the coverage, then of the intent, by the owner. -/
def cancel_transaction (k : Pubkey) (i : Intent) : List TopLevel :=
  [.program (.cancel_dispute
      { owner := i.owner, intent := k, dispute_intent := coverage_of i.intent_hash }),
    .program (.cancel_intent
      { owner := i.owner, intent := k, resolved_dispute := some (coverage_of i.intent_hash) })]

def prune_accounts (caller k : Pubkey) (i : Intent) (c : DisputeIntent) : PruneExpiredIntent where
  caller := caller
  intent := k
  dispute :=
    { dispute_config := true
      dispute_intent := some (coverage_of i.intent_hash)
      stake_vault := true
      stake_position := some (position_of c.stake_owner)
      stake_lock := some (lock_of i.intent_hash) }

def settlement_accounts (i : Intent) (c : DisputeIntent) : SettlementDisputeAccounts where
  dispute_intent := some (coverage_of i.intent_hash)
  stake_vault := some stake_vault_address
  stake_position := some (position_of c.stake_owner)
  stake_lock := some (lock_of i.intent_hash)

/-- The intent `i` at `k`, covered by `c`, can be ended in every way it may be ended: the owner
cancels it, anyone prunes it once it has expired, and either settlement settles its coverage for any
amount up to its own, at any time to which the window can be added. -/
structure TerminalsAvailable (rt : Runtime) (s : State) (k : Pubkey) (i : Intent)
    (c : DisputeIntent) : Prop where
  cancel : ∀ ctx, ∃ es s', TxMachine.Exec (step rt) ctx [] (cancel_transaction k i) s es s'
  prune : ∀ ctx caller l, caller.can_sign = true →
    s.intent_locks.lookup (intent_lock_address i.deposit i.intent_hash) = some l →
    l.expiry_time < ctx.now →
    ∃ s', handle_prune_expired_intent ctx (prune_accounts caller k i c) s = .ok s'
  settle : ∀ ctx released, 1 ≤ released → released ≤ i.amount →
    -(2 ^ 63) ≤ ctx.now + c.risk_window → ctx.now + c.risk_window < 2 ^ 63 →
    ∃ s', settle_dispute_if_covered ctx i (settlement_accounts i c) released s = .ok s'

section Terminals

variable {rt : Runtime} {s : State} {k : Pubkey} {live : LiveIntent} {c : DisputeIntent}
  {l : StakeLock} {p : StakePosition}

/-- A record that exists can be supplied as an optional account. -/
theorem load_opt_found {α : Type} {m : Accounts α} {k : Pubkey} {a : α} (h : m.lookup k = some a) :
    load_opt m (some k) = .ok (some ⟨k, a⟩) := by
  refine load_opt_eq_ok.mpr ⟨rfl, ?_⟩
  rintro _ ⟨⟩
  exact h

theorem StakePosition.unlock_of_le {x : ℕ} (h : x ≤ p.locked) : ∃ p', p.unlock x = .ok p' := by
  simp only [StakePosition.unlock, bind_eq_ok, ok_or_eq_ok, Checked.sub_eq_some, pure_eq_ok]
  exact ⟨_, _, ⟨h, rfl⟩, rfl⟩

theorem DisputeIntent.cancel_of_pending (h : c.status = .Pending) :
    c.cancel = .ok { c with status := .Cancelled } := by
  unfold DisputeIntent.cancel
  rw [require_true h]
  rfl

theorem Covered.owner_eq (h : Covered s k live c l p) : l.stake_owner = p.owner :=
  h.agrees.stake_owner.trans h.owner.symm

/-- What both ways of unwinding the coverage do, whoever asks for it. -/
theorem Covered.cancelled (h : Covered s k live c l p) :
    ∃ s₁ p', CoverageCancelled s s₁ live.intent.intent_hash c l p p' := by
  obtain ⟨p', hunlocked⟩ := StakePosition.unlock_of_le h.backed
  exact ⟨_, p', h.coverage, h.pending, h.lock, h.position, h.owner_eq, hunlocked, rfl⟩

/-- The owner's cancellation of the coverage, on its way to cancelling the intent. -/
theorem CoverageCancelled.cancel_dispute {s₁ : State} {p' : StakePosition} {i : Intent}
    (h : CoverageCancelled s s₁ i.intent_hash c l p p')
    (hcanonical : CoverageCanonical s.toDisputeRecords) (hi : s.intents.lookup k = some i)
    (hsigns : i.owner.can_sign = true) :
    handle_cancel_dispute (following_cancel (cancel_transaction k i).tail)
      ⟨i.owner, k, coverage_of i.intent_hash⟩ s = .ok s₁ := by
  obtain ⟨hhash, hconfig⟩ := hcanonical.at_hash h.dispute_eq
  simp only [handle_cancel_dispute, require_atomic_cancel_follows, bind_eq_ok, signer_eq_ok,
    load_eq_ok, require_eq_ok, exists_const, ok_or_eq_ok, pure_eq_ok]
  exact ⟨hsigns, i, hi, rfl, c, h.dispute_eq, p, h.position, l, h.lock, h.owner, by rw [hconfig],
    hhash, ⟨_, rfl, rfl, rfl, rfl⟩, _, DisputeIntent.cancel_of_pending h.pending, p', h.unlocked,
    h.post.symm⟩

/-- The cancellation of the intent, once its coverage is cancelled or if it has none. -/
theorem Closable.cancel_intent (h : Closable s k live) {resolved : Option Pubkey}
    {dispute : Option (Account DisputeIntent)} (hload : load_opt s.dispute_intents resolved = .ok dispute)
    (hresolved : check_resolved live.intent dispute = .ok ()) {d : Deposit}
    (hd : live.deposit.unlock live.lock.amount = .ok d) :
    handle_cancel_intent ⟨live.intent.owner, k, resolved⟩ s = .ok (closed_state k live d s) := by
  simp only [handle_cancel_intent, bind_eq_ok, signer_eq_ok, require_eq_ok, exists_const,
    close_intent_ok]
  exact ⟨h.signs, live, h.found, rfl, h.orchestrator, h.paired.intent_hash,
    h.paired.orchestrator.trans h.orchestrator, dispute, hload, h.taker, (), hresolved, d, hd,
    h.counter, rfl⟩

/-- Unwinding the coverage leaves the records of the intent alone. -/
theorem CoverageCancelled.closable {s₁ : State} {hash : Bytes 32} {p' : StakePosition}
    (h : CoverageCancelled s s₁ hash c l p p') (hs : Closable s k live) : Closable s₁ k live := by
  refine ⟨?_, hs.signs, hs.orchestrator, hs.paired, hs.taker, hs.counter, hs.unlock⟩
  rw [h.post]
  exact hs.found

/-- After its coverage is cancelled, the intent passes the check of `cancel_intent`. -/
theorem CoverageCancelled.check_resolved {s₁ : State} {p' : StakePosition} {i : Intent}
    (h : CoverageCancelled s s₁ i.intent_hash c l p p')
    (hcanonical : CoverageCanonical s.toDisputeRecords) (hcovered : i.dispute_covered = true) :
    ∃ dispute, load_opt s₁.dispute_intents (some (coverage_of i.intent_hash)) = .ok dispute
      ∧ check_resolved i dispute = .ok () := by
  obtain ⟨hhash, -⟩ := hcanonical.at_hash h.dispute_eq
  have hfound : s₁.dispute_intents.lookup (coverage_of i.intent_hash)
      = some { c with status := .Cancelled } := by
    rw [h.post]
    exact Finmap.lookup_insert _
  refine ⟨_, load_opt_found hfound, ?_⟩
  unfold Zkp2pSolana.check_resolved
  rw [if_pos hcovered]
  exact require_true ⟨hhash, rfl⟩

/-- The owner's transaction unwinds the coverage and then closes the intent. -/
theorem CoverageCancelled.cancel {s₁ : State} {p' : StakePosition}
    (h : CoverageCancelled s s₁ live.intent.intent_hash c l p p') (hs : Closable s k live)
    (hcanonical : CoverageCanonical s.toDisputeRecords)
    (hcovered : live.intent.dispute_covered = true) {d : Deposit}
    (hd : live.deposit.unlock live.lock.amount = .ok d) (ctx : TxContext) :
    ∃ es, TxMachine.Exec (step rt) ctx [] (cancel_transaction k live.intent) s es
      (closed_state k live d s₁) := by
  obtain ⟨hi, -⟩ := live_intent_ok hs.found
  obtain ⟨dispute, hload, hresolved⟩ := h.check_resolved hcanonical hcovered
  have hdispute := h.cancel_dispute hcanonical hi hs.signs
  have hintent := (h.closable hs).cancel_intent hload hresolved hd
  exact ⟨_, .cons hdispute (.cons hintent .nil)⟩

/-- The lifecycle part of a prune unwinds the coverage in the same way. -/
theorem CoverageCancelled.prune_dispute {s₁ : State} {p' : StakePosition} {i : Intent}
    (h : CoverageCancelled s s₁ i.intent_hash c l p p') (hcovered : i.dispute_covered = true)
    (hvault : s.dispute_config.stake_vault = stake_vault_address) (caller : Pubkey) :
    prune_dispute (prune_accounts caller k i c).dispute i s = .ok s₁ := by
  simp only [Zkp2pSolana.prune_dispute, prune_accounts, load_opt_found h.dispute_eq,
    load_opt_found h.position, load_opt_found h.lock, if_pos hcovered, ok_bind, ok_or_some,
    DisputeIntent.cancel_of_pending h.pending, h.unlocked, bind_eq_ok, require_eq_ok, exists_const,
    pure_eq_ok]
  exact ⟨trivial, trivial, hvault, trivial, trivial, trivial, h.owner, h.post.symm⟩

/-- A prune whose lifecycle part goes through closes the intent. -/
theorem Closable.prune (h : Closable s k live) {ctx : TxContext} {accounts : PruneExpiredIntent}
    {s₁ : State} (hintent : accounts.intent = k) (hcaller : accounts.caller.can_sign = true)
    (hexpired : live.lock.expiry_time < ctx.now)
    (hdispute : prune_dispute accounts.dispute live.intent s = .ok s₁) {d : Deposit}
    (hd : live.deposit.unlock live.lock.amount = .ok d) :
    handle_prune_expired_intent ctx accounts s = .ok (closed_state k live d s₁) := by
  simp only [handle_prune_expired_intent, bind_eq_ok, signer_eq_ok, require_eq_ok, exists_const,
    close_intent_ok, hintent]
  exact ⟨hcaller, live, h.found, h.paired.orchestrator.trans h.orchestrator, hexpired, s₁, hdispute,
    d, hd, h.counter, rfl⟩

/-- What a covered intent's terminals read includes what every intent's do. -/
theorem Covered.closable (h : Covered s k live c l p) : Closable s k live :=
  ⟨h.found, h.signs, h.orchestrator, h.paired, h.taker, h.counter, h.unlock⟩

/-- The taker can always leave: the pair of instructions that cancels coverage and intent runs
through. -/
theorem Covered.cancel (h : Covered s k live c l p) (hcanonical : CoverageCanonical s.toDisputeRecords)
    (ctx : TxContext) :
    ∃ es s', TxMachine.Exec (step rt) ctx [] (cancel_transaction k live.intent) s es s' := by
  obtain ⟨s₁, p', hcancelled⟩ := h.cancelled
  obtain ⟨d, hd⟩ := h.unlock
  obtain ⟨es, hexec⟩ := hcancelled.cancel h.closable hcanonical h.covered hd ctx
  exact ⟨es, _, hexec⟩

/-- Anyone can prune it once it has expired. -/
theorem Covered.prune (h : Covered s k live c l p) {ctx : TxContext} {caller : Pubkey}
    (hcaller : caller.can_sign = true) (hexpired : live.lock.expiry_time < ctx.now) :
    ∃ s', handle_prune_expired_intent ctx (prune_accounts caller k live.intent c) s = .ok s' := by
  obtain ⟨s₁, p', hcancelled⟩ := h.cancelled
  obtain ⟨d, hd⟩ := h.unlock
  exact ⟨_, h.closable.prune rfl hcaller hexpired
    (hcancelled.prune_dispute h.covered h.collateral_vault caller) hd⟩

/-- A covered intent's settlement goes through while the dispute configuration controls the vault,
as long as the release time fits the clock's type. -/
theorem Covered.settle (h : Covered s k live c l p)
    (hcontroller : s.stake_vault.controller = dispute_config_address) {ctx : TxContext}
    {released : ℕ} (hpos : 1 ≤ released) (hle : released ≤ live.intent.amount)
    (hlow : -(2 ^ 63) ≤ ctx.now + c.risk_window) (hhigh : ctx.now + c.risk_window < 2 ^ 63) :
    ∃ s', settle_dispute_if_covered ctx live.intent (settlement_accounts live.intent c) released s
      = .ok s' := by
  have hbounded : released ≤ l.amount := by
    rw [h.agrees.lock_amount, h.agrees.amount]
    exact hle
  have hsettled : c.settle released ctx.now = .ok ({ c with
      release_amount := released
      release_eligible_at := ctx.now + c.risk_window
      status := .Settled }, ctx.now + c.risk_window) := by
    simp only [DisputeIntent.settle, bind_eq_ok, require_eq_ok, exists_const, ok_or_eq_ok,
      Checked.add_i64_eq_some, pure_eq_ok]
    exact ⟨h.pending, hpos, _, ⟨⟨hlow, hhigh⟩, rfl⟩, rfl⟩
  have hshrunk : ∃ p', (if 0 < l.amount - released then p.unlock (l.amount - released) else .ok p)
      = .ok p' := by
    split_ifs
    · exact StakePosition.unlock_of_le ((Nat.sub_le _ _).trans h.backed)
    · exact ⟨p, rfl⟩
  obtain ⟨p', hp'⟩ := hshrunk
  have hvault : load_stake_vault s.toStakeRecords (some stake_vault_address)
      = .ok (some ⟨stake_vault_address, s.stake_vault⟩) := by
    simp only [load_stake_vault, require_true, ok_bind]
    rfl
  have hremainder : Checked.sub l.amount released = some (l.amount - released) :=
    Checked.sub_eq_some.mpr ⟨hbounded, rfl⟩
  -- the accounts load, so what is left are the checks
  simp only [settle_dispute_if_covered, settlement_accounts, load_opt_found h.coverage, hvault,
    load_opt_found h.position, load_opt_found h.lock, h.covered, Bool.true_eq_false, if_false,
    ok_bind, ok_or_some, hsettled, hremainder, hp', bind_eq_ok, require_eq_ok, exists_const,
    pure_eq_ok]
  exact ⟨_, h.dispute_config, by rw [h.dispute_config], trivial, hcontroller, trivial, trivial,
    h.intent_hash, h.agrees.deposit, h.agrees.taker, h.lock_id, h.lock_vault, h.owner_eq, hbounded,
    rfl⟩

end Terminals

/-- In a run without a handover every live covered intent can be ended in every way. -/
theorem Run.terminals_available {rt : Runtime} (hinj : NonceInjective rt) {es : List Event}
    {s : State} (h : Run rt es s) (hkept : ∀ e ∈ es, ¬ AcceptsController e) {k : Pubkey} {i : Intent}
    (hi : s.intents.lookup k = some i) (hcovered : i.dispute_covered = true) :
    ∃ c, s.coverage_at i.intent_hash = some c ∧ TerminalsAvailable rt s k i c := by
  obtain ⟨⟨hcontroller, -⟩, -⟩ := Run.coverage_law hinj h hkept
  obtain ⟨live, c, l, p, rfl, hrecords⟩ := Run.covered hinj h hkept hi hcovered
  have hcanonical := (Run.ledgerOk h).1.coverage
  refine ⟨c, hrecords.coverage, fun ctx => hrecords.cancel hcanonical ctx, ?_, ?_⟩
  · intro ctx caller lock hcaller hlock hexpired
    obtain ⟨-, -, -, hfound, -⟩ := live_intent_ok hrecords.found
    rw [hfound] at hlock
    cases hlock
    exact hrecords.prune hcaller hexpired
  · intro ctx released hpos hle hlow hhigh
    exact hrecords.settle hcontroller hpos hle hlow hhigh

/-! ## After a handover -/

/-- A controller that accepted a handover signs, and so does every later one. -/
theorem Run.controller_signs {rt : Runtime} {es : List Event} {s : State} (h : Run rt es s) :
    (∃ e ∈ es, AcceptsController e) → s.stake_vault.controller.can_sign = true := by
  obtain ⟨-, hledger⟩ := Run.ledgerOk h
  refine TxMachine.Run.history (G := (· ∈ es)) (P := fun es s =>
    (∃ e ∈ es, AcceptsController e) → s.stake_vault.controller.can_sign = true) ?_ ?_ h
    fun _ he => he
  · rintro s₀ - ⟨e, he, -⟩
    cases he
  · rintro es₁ e he hv ih ⟨e', he', haccepts⟩
    -- the acceptance is this event, which the new controller signed, or an earlier one
    by_cases hnow : AcceptsController e
    · obtain ⟨accounts, hix⟩ := hnow
      have ok : handle_accept_stake_controller e.ctx accounts e.pre = .ok e.post :=
        valid_execute hv hix
      simp only [handle_accept_stake_controller, bind_eq_ok, signer_eq_ok, require_eq_ok,
        exists_const, pure_eq_ok] at ok
      obtain ⟨hsigns, -, -, hpost⟩ := ok
      rw [← hpost]
      exact hsigns
    · have hearlier : e' ∈ es₁ := by
        rcases List.mem_append.mp he' with he' | he'
        · exact he'
        · cases List.mem_singleton.mp he'
          exact absurd haccepts hnow
      have hsame : e.post.stake_vault.controller = e.pre.stake_vault.controller := by
        rcases (lifecycle_move hv).intent_write (hledger e he).1.coverage with hframe | ⟨hframe, -⟩
        · exact hframe.controller.resolve_right hnow
        · exact hframe.controller
      rw [hsame]
      exact ih ⟨e', hearlier, haccepts⟩

/-- The program's own controller is in office at the end of a run exactly if no handover was
accepted in it. -/
theorem Run.controller_iff {rt : Runtime} {es : List Event} {s : State} (h : Run rt es s) :
    s.stake_vault.controller = dispute_config_address ↔ ∀ e ∈ es, ¬ AcceptsController e := by
  constructor
  · intro hcontroller e he haccepts
    have hsigns := Run.controller_signs h ⟨e, he, haccepts⟩
    rw [hcontroller] at hsigns
    -- the program's controller is a derived address, and those cannot sign
    cases hsigns
  · intro hkept
    exact (Run.collateral h hkept).controller

/-- In every state reached by a run, the terminals of a live covered intent are available, and a
settled one is not rejected for the controller, exactly if no handover of the stake controller was
accepted in the run. -/
theorem terminals_available_iff_no_handover {rt : Runtime} (hinj : NonceInjective rt)
    {es : List Event} {s : State} (h : Run rt es s) :
    (∀ k i, s.intents.lookup k = some i → i.dispute_covered = true →
      ((∃ c, s.coverage_at i.intent_hash = some c ∧ TerminalsAvailable rt s k i c)
        ↔ ∀ e ∈ es, ¬ AcceptsController e))
      ∧ ∀ hash c, s.coverage_at hash = some c → c.status = .Settled →
        (submit_dispute_controller s = .ok () ↔ ∀ e ∈ es, ¬ AcceptsController e) := by
  obtain ⟨⟨-, hcustody⟩, -⟩ := Run.custody hinj h
  refine ⟨fun k i hi hcovered => ⟨?_, fun hkept => ?_⟩, fun hash c hc hsettled => ?_⟩
  · rintro ⟨c, hc, havailable⟩
    -- the smallest settlement, at a time that cannot overflow
    obtain ⟨s', hs'⟩ := havailable.settle ⟨-c.risk_window, fun _ => false, fun _ _ _ => none⟩ 1
      le_rfl (hcustody.intents k i hi).amount (by simp) (by simp)
    rcases settle_dispute_ok hs' with ⟨huncovered, -⟩ | ⟨-, hcontroller, -⟩
    · rw [huncovered] at hcovered
      cases hcovered
    · exact (Run.controller_iff h).mp hcontroller
  · exact Run.terminals_available hinj h hkept hi hcovered
  · rw [← Run.controller_iff h]
    simp only [submit_dispute_controller, bind_eq_ok, require_eq_ok, exists_const]
    exact ⟨fun hok => hok.2, fun hcontroller => ⟨(Run.owners h).1.collateral_vault, hcontroller⟩⟩

/-- The covered intent of the sample cluster, live and without a handover. -/
theorem terminals_available_sample :
    ∃ es s i, NonceInjective sample_runtime ∧ Run sample_runtime es s
      ∧ s.intents.lookup sample_intent = some i ∧ i.dispute_covered = true
      ∧ ((∃ c, s.coverage_at i.intent_hash = some c
          ∧ TerminalsAvailable sample_runtime s sample_intent i c)
        ↔ ∀ e ∈ es, ¬ AcceptsController e) := by
  obtain ⟨es, s, hrun, hgood⟩ := sample_reaches [sample_setup, sample_propose, sample_cover]
    (fun _ s => (s.intents.lookup sample_intent).any fun i => i.dispute_covered) (by decide +kernel)
  obtain ⟨i, hi, hcovered⟩ := (Option.any_eq_true _ _).mp hgood
  exact ⟨es, s, i, sample_nonce_injective, hrun, hi, hcovered,
    (terminals_available_iff_no_handover sample_nonce_injective hrun).1 sample_intent i hi hcovered⟩

/-- After the handover neither settlement can settle the coverage of the intent that was live
before, for its whole amount and on its own accounts. -/
theorem settlement_stranded_by_handover :
    ∃ es s i c, Run sample_runtime es s ∧ s.intents.lookup sample_intent = some i
      ∧ i.dispute_covered = true ∧ s.coverage_at i.intent_hash = some c
      ∧ ∀ s', settle_dispute_if_covered (sample_ctx 90001) i (settlement_accounts i c) i.amount s
        ≠ .ok s' := by
  obtain ⟨es, s, hrun, hgood⟩ := sample_reaches
    [sample_setup, sample_propose, sample_cover, sample_handover]
    (fun _ s => (s.intents.lookup sample_intent).any fun i => i.dispute_covered
      && (s.coverage_at i.intent_hash).any fun c => (settle_dispute_if_covered (sample_ctx 90001) i
        (settlement_accounts i c) i.amount s).toOption.isNone) (by decide +kernel)
  simp only [Option.any_eq_true, Bool.and_eq_true] at hgood
  obtain ⟨i, hi, hcovered, c, hc, hrejected⟩ := hgood
  refine ⟨es, s, i, c, hrun, hi, hcovered, hc, fun s' hs' => ?_⟩
  rw [hs'] at hrejected
  cases hrejected

end Zkp2pSolana
