/-
The history of one coverage record.

The events of a run that write the coverage of one hash form a chain: the record
is prepared, then each further write is one step of its state machine, made at the
time of the event and moving principal only when the step is a dispute. The chain
is built event by event and read off at the end: which statuses were taken, when a
release was possible, and what the coverage cost its stake owner.
-/
import Zkp2pSolana.Coverage
import Zkp2pSolana.StakeLedger

set_option autoImplicit false

namespace Zkp2pSolana

open Result Zkp2pError

/-- The coverage record of an intent hash. -/
def DisputeRecords.coverage_at (r : DisputeRecords) (hash : Bytes 32) : Option DisputeIntent :=
  r.dispute_intents.lookup (coverage_of hash)

/-- The events that write the coverage of `hash`, in the order of the run. -/
def coverage_events (hash : Bytes 32) (es : List Event) : List Event :=
  es.filter fun e => e.pre.coverage_at hash ≠ e.post.coverage_at hash

/-- The statuses those events left the coverage in. -/
def status_history (hash : Bytes 32) (es : List Event) : List (Option DisputeStatus) :=
  (coverage_events hash es).map fun e => (e.post.coverage_at hash).map DisputeIntent.status

/-- What the events that write the coverage of `hash` added to a quantity of the ledger. -/
def coverage_change (hash : Bytes 32) (f : State → ℕ) (es : List Event) : ℤ :=
  ((coverage_events hash es).map fun e => (f e.post : ℤ) - f e.pre).sum

/-! ## The chain of writes -/

/-- The event creates the coverage `c` of `hash`, with the window in force at the time. -/
structure Prepares (hash : Bytes 32) (e : Event) (c : DisputeIntent) : Prop where
  absent : e.pre.coverage_at hash = none
  present : e.post.coverage_at hash = some c
  pending : c.status = .Pending
  window : ∃ risk, e.pre.risk_windows.lookup
    (risk_window_address dispute_config_address c.payment_method) = some risk
      ∧ c.risk_window = risk.seconds
  lock : ∃ l, e.post.stake_locks.lookup (lock_of hash) = some l ∧ l.amount = c.locked_amount
    ∧ l.stake_owner = c.stake_owner
  kept : PrincipalKept e.pre.toStakeRecords e.post.toStakeRecords

/-- The event takes the coverage of `hash` one step. -/
structure Advances (hash : Bytes 32) (e : Event) (c c' : DisputeIntent) : Prop where
  before : e.pre.coverage_at hash = some c
  after : e.post.coverage_at hash = some c'
  step : DisputeStep e.ctx.now c c'
  principal : PrincipalStep e.pre.toStakeRecords e.post.toStakeRecords c c'
  bounded : c'.status = .Settled → c'.release_amount ≤ c'.locked_amount

/-- The events that wrote a coverage record and what it is now. -/
inductive CoverageChain (hash : Bytes 32) : List Event → Option DisputeIntent → Prop
  | absent : CoverageChain hash [] none
  | prepared {e : Event} {c : DisputeIntent} (h : Prepares hash e c) :
      CoverageChain hash [e] (some c)
  | advanced {es : List Event} {e : Event} {c c' : DisputeIntent}
      (chain : CoverageChain hash es (some c)) (h : Advances hash e c c') :
      CoverageChain hash (es ++ [e]) (some c')

/-! ## Every event extends the chain -/

/-- Settled coverage is bounded, also in the middle of a transaction. -/
theorem CoverageLaw.bounded {rt : Runtime} {rest : List TopLevel} {s : State}
    (h : CoverageLaw rt rest s) {hash : Bytes 32} {c : DisputeIntent}
    (hc : s.dispute_intents.lookup (coverage_of hash) = some c) (hstatus : c.status = .Settled) :
    c.release_amount ≤ c.locked_amount := by
  rcases h hash with hok | ⟨e, _, _, hprepared, rfl⟩ | ⟨c', _, _, _, hc', hcancelled, -⟩
  · obtain ⟨-, _, -, hagrees⟩ := hok.settled hc hstatus
    exact hagrees.bounded
  · obtain ⟨_, _, _, _, _, _, hcoverage, -⟩ := hprepared.signal_follows
    rw [hcoverage.records.1] at hc
    cases hc
    cases hstatus
  · rw [hc] at hc'
    cases hc'
    rw [hstatus] at hcancelled
    cases hcancelled

/-- An event leaves the coverage of a hash alone, prepares it, or takes it one step. -/
theorem coverage_event {rt : Runtime} {e : Event} (hv : e.Valid (step rt))
    (hledger : LedgerOk e.pre) (hlaw : CoverageLaw rt e.after e.post) (hash : Bytes 32) :
    e.post.coverage_at hash = e.pre.coverage_at hash ∨ (∃ c, Prepares hash e c)
      ∨ ∃ c c', Advances hash e c c' := by
  rcases (lifecycle_move hv).coverage_write hledger.coverage with hsame
    | ⟨hash₀, c, c', hc, hstep, hwrite, hprincipal⟩
    | ⟨accounts, args, d, risk, p, p', -, hprepared⟩
  · left
    unfold DisputeRecords.coverage_at
    rw [hsame]
  -- one hash is written; at every other the record is as before
  · by_cases hne : hash = hash₀
    · subst hne
      have hc' : e.post.dispute_intents.lookup (coverage_of hash) = some c' := by
        rw [hwrite, Finmap.lookup_insert]
      exact .inr (.inr ⟨c, c', hc, hc', hstep, hprincipal, hlaw.bounded hc'⟩)
    · left
      unfold DisputeRecords.coverage_at
      rw [hwrite, Finmap.lookup_insert_of_ne _ (Pubkey.pda_word_ne hne)]
  · by_cases hne : hash = args.expected_intent_hash
    · subst hne
      obtain ⟨hfound, hlock⟩ := hprepared.records
      exact .inr (.inl ⟨_, hprepared.coverage_fresh, hfound, rfl, ⟨risk, hprepared.risk_eq, rfl⟩,
        ⟨_, hlock, rfl, rfl⟩, hprepared.principal⟩)
    · left
      unfold DisputeRecords.coverage_at
      rw [hprepared.post, Finmap.lookup_insert_of_ne _ (Pubkey.pda_word_ne hne)]

/-- Every step changes the status, so every write of the record is visible in the history. -/
theorem DisputeStep.status_ne {now : ℤ} {d d' : DisputeIntent} (h : DisputeStep now d d') :
    d.status ≠ d'.status := by
  cases h with
  | cancel h | settle h | release h | dispute h =>
    rw [h]
    exact fun hcontra => nomatch hcontra

/-- One event more adds itself to the history of a hash exactly when it changes its coverage. -/
theorem coverage_events_append (hash : Bytes 32) (es : List Event) (e : Event) :
    coverage_events hash (es ++ [e])
      = coverage_events hash es
        ++ if e.pre.coverage_at hash ≠ e.post.coverage_at hash then [e] else [] := by
  unfold coverage_events
  rw [List.filter_append, List.filter_singleton]
  simp

/-- The step of the history: the first write prepares and every further one advances the record the
last one left. -/
theorem CoverageChain.extend {rt : Runtime} {hash : Bytes 32} {es : List Event} {e : Event}
    (hv : e.Valid (step rt)) (hledger : LedgerOk e.pre) (hlaw : CoverageLaw rt e.after e.post)
    (h : CoverageChain hash (coverage_events hash es) (e.pre.coverage_at hash)) :
    CoverageChain hash (coverage_events hash (es ++ [e])) (e.post.coverage_at hash) := by
  rw [coverage_events_append]
  rcases coverage_event hv hledger hlaw hash with hsame | ⟨c, hprepares⟩ | ⟨c, c', hadvances⟩
  · rw [if_neg (by rw [hsame]; exact fun hne => hne rfl), List.append_nil, hsame]
    exact h
  · rw [if_pos (by rw [hprepares.absent, hprepares.present]; simp)]
    rw [hprepares.absent] at h
    rw [hprepares.present]
    -- the record was absent, so nothing has written it yet
    generalize coverage_events hash es = written at h
    cases h
    exact .prepared hprepares
  · have hne : e.pre.coverage_at hash ≠ e.post.coverage_at hash := by
      rw [hadvances.before, hadvances.after]
      intro heq
      exact hadvances.step.status_ne (congrArg DisputeIntent.status (Option.some.inj heq))
    rw [if_pos hne]
    rw [hadvances.before] at h
    rw [hadvances.after]
    exact .advanced h hadvances

/-- The writes of every coverage record form a chain, in every run without a handover. -/
theorem Run.coverage_chain {rt : Runtime} (hinj : NonceInjective rt) {es : List Event} {s : State}
    (h : Run rt es s) (hkept : ∀ e ∈ es, ¬ AcceptsController e) (hash : Bytes 32) :
    CoverageChain hash (coverage_events hash es) (s.coverage_at hash) := by
  obtain ⟨-, hlaw⟩ := Run.coverage_law hinj h hkept
  obtain ⟨-, hledger⟩ := Run.ledgerOk h
  refine TxMachine.Run.history (G := (· ∈ es)) (P := fun es s =>
    CoverageChain hash (coverage_events hash es) (s.coverage_at hash)) ?_ ?_ h fun _ he => he
  · intro s₀ h₀
    obtain ⟨_, _, _, _, _, _, _, rfl, -⟩ := genesis_ok h₀
    exact .absent
  · intro es₁ e he hv hchain
    exact hchain.extend hv (hledger e he).1 (hlaw e he).2.2

/-! ## Reading the chain by status -/

section Chain

variable {hash : Bytes 32} {written : List Event} {c : DisputeIntent}

/-- Pending coverage was prepared and nothing more. -/
theorem CoverageChain.of_pending (h : CoverageChain hash written (some c))
    (hstatus : c.status = .Pending) : ∃ p, written = [p] ∧ Prepares hash p c := by
  cases h with
  | prepared hprepares => exact ⟨_, rfl, hprepares⟩
  | advanced _ hadvances =>
    cases hadvances.step <;> cases hstatus

/-- What is one step from pending has two writes. -/
theorem CoverageChain.of_second (h : CoverageChain hash written (some c))
    (hstatus : c.status = .Cancelled ∨ c.status = .Settled) :
    ∃ p c₀ t, written = [p, t] ∧ Prepares hash p c₀ ∧ Advances hash t c₀ c := by
  cases h with
  | prepared hprepares =>
    rw [hprepares.pending] at hstatus
    rcases hstatus with hstatus | hstatus <;> cases hstatus
  | @advanced es e c₀ _ chain hadvances =>
    -- of the four steps only two lead here, and both start at pending
    have hpending : c₀.status = .Pending := by
      cases hadvances.step with
      | cancel pending => exact pending
      | settle pending => exact pending
      | release | dispute => rcases hstatus with hstatus | hstatus <;> cases hstatus
    obtain ⟨p, rfl, hprepares⟩ := chain.of_pending hpending
    exact ⟨p, c₀, e, rfl, hprepares, hadvances⟩

/-- What is one step from settled has three writes. -/
theorem CoverageChain.of_third (h : CoverageChain hash written (some c))
    (hstatus : c.status = .Released ∨ c.status = .Disputed) :
    ∃ p c₀ t c₁ x, written = [p, t, x] ∧ Prepares hash p c₀ ∧ Advances hash t c₀ c₁
      ∧ c₁.status = .Settled ∧ Advances hash x c₁ c := by
  cases h with
  | prepared hprepares =>
    rw [hprepares.pending] at hstatus
    rcases hstatus with hstatus | hstatus <;> cases hstatus
  | @advanced es e c₁ _ chain hadvances =>
    have hsettled : c₁.status = .Settled := by
      cases hadvances.step with
      | cancel | settle => rcases hstatus with hstatus | hstatus <;> cases hstatus
      | release settled => exact settled
      | dispute settled => exact settled
    obtain ⟨p, c₀, t, rfl, hprepares, hsettles⟩ := chain.of_second (.inr hsettled)
    exact ⟨p, c₀, t, c₁, e, rfl, hprepares, hsettles, hsettled, hadvances⟩

/-- The step that settles reads the window of the record and the clock. -/
theorem Advances.settles {t : Event} {c₀ : DisputeIntent} (h : Advances hash t c₀ c)
    (hstatus : c.status = .Settled) :
    c.release_eligible_at = t.ctx.now + c₀.risk_window ∧ c.locked_amount = c₀.locked_amount := by
  cases h.step with
  | settle => exact ⟨rfl, rfl⟩
  | cancel | release | dispute => cases hstatus

/-- A release waits for the time the record names. -/
theorem Advances.releases {x : Event} {c₁ : DisputeIntent} (h : Advances hash x c₁ c)
    (hstatus : c.status = .Released) : c₁.release_eligible_at ≤ x.ctx.now := by
  cases h.step with
  | release _ matured => exact matured
  | cancel | settle | dispute => cases hstatus

/-- A dispute keeps the amounts and the parties of the record and charges for it. -/
theorem Advances.disputes {x : Event} {c₁ : DisputeIntent} (h : Advances hash x c₁ c)
    (hstatus : c.status = .Disputed) :
    c = { c₁ with status := .Disputed }
      ∧ PrincipalCharged x.pre.toStakeRecords x.post.toStakeRecords c₁ := by
  have hprincipal := h.principal
  unfold PrincipalStep at hprincipal
  rw [if_pos hstatus] at hprincipal
  refine ⟨?_, hprincipal⟩
  cases h.step with
  | dispute => rfl
  | cancel | settle | release => cases hstatus

/-- Coverage that advances without being disputed costs no principal. -/
theorem Advances.kept {x : Event} {c₁ : DisputeIntent} (h : Advances hash x c₁ c)
    (hstatus : c.status ≠ .Disputed) :
    PrincipalKept x.pre.toStakeRecords x.post.toStakeRecords := by
  have hprincipal := h.principal
  unfold PrincipalStep at hprincipal
  rwa [if_neg hstatus] at hprincipal

end Chain

/-! ## What a whole run does to one record -/

/-- The event writes the coverage of `hash` and leaves it in the status. -/
def Turns (hash : Bytes 32) (status : DisputeStatus) (e : Event) : Prop :=
  e.pre.coverage_at hash ≠ e.post.coverage_at hash
    ∧ (e.post.coverage_at hash).map DisputeIntent.status = some status

/-- The statuses a coverage record can go through, in full. -/
def coverage_paths : List (List DisputeStatus) :=
  [[.Pending, .Cancelled], [.Pending, .Settled, .Released], [.Pending, .Settled, .Disputed]]

/-- The events that write the coverage of `hash` cost nobody anything. -/
structure NoPrincipalLost (hash : Bytes 32) (es : List Event) : Prop where
  balance_of : ∀ o, coverage_change hash (fun s => s.balance_of o) es = 0
  total_staked : coverage_change hash (fun s => s.stake_vault.total_staked) es = 0
  claim_of : ∀ b, coverage_change hash (fun s => s.claim_of b) es = 0
  total_claimable : coverage_change hash (fun s => s.stake_vault.total_claimable) es = 0

/-- The events that write the coverage of `hash` cost the stake owner of `c` its settled amount,
in favour of its depositor, and nobody else anything. -/
structure PrincipalLost (hash : Bytes 32) (es : List Event) (c : DisputeIntent) : Prop where
  owner : coverage_change hash (fun s => s.balance_of c.stake_owner) es = -c.release_amount
  other_owners : ∀ o, o ≠ c.stake_owner → coverage_change hash (fun s => s.balance_of o) es = 0
  total_staked : coverage_change hash (fun s => s.stake_vault.total_staked) es = -c.release_amount
  depositor : coverage_change hash (fun s => s.claim_of c.depositor) es = c.release_amount
  other_claims : ∀ b, b ≠ c.depositor → coverage_change hash (fun s => s.claim_of b) es = 0
  total_claimable :
    coverage_change hash (fun s => s.stake_vault.total_claimable) es = c.release_amount

/-- What the run `es` into `s` did to the coverage of `hash`. -/
structure CoverageHistory (hash : Bytes 32) (es : List Event) (s : State) : Prop where
  /-- The statuses taken are a beginning of one of the three paths. -/
  path : ∃ path ∈ coverage_paths, status_history hash es <+: path.map some
  current : (s.coverage_at hash).map DisputeIntent.status = (status_history hash es).getLast?.join
  terminal : ∀ e ∈ es, ∀ c, e.pre.coverage_at hash = some c → c.status.terminal →
    e.post.coverage_at hash = some c
  /-- A release comes at least the window of the preparation after the settlement. -/
  released : ∀ r ∈ es, Turns hash .Released r → ∃ p t c risk, [p, t, r].Sublist es
    ∧ Prepares hash p c ∧ p.pre.risk_windows.lookup
      (risk_window_address dispute_config_address c.payment_method) = some risk
    ∧ Turns hash .Settled t ∧ t.ctx.now + risk.seconds ≤ r.ctx.now
  kept : (s.coverage_at hash).map DisputeIntent.status ≠ some .Disputed → NoPrincipalLost hash es
  /-- Disputed coverage cost exactly what its settlement fixed, at most what its preparation
  locked. -/
  disputed : ∀ c, s.coverage_at hash = some c → c.status = .Disputed → PrincipalLost hash es c
    ∧ c.release_amount ≤ c.locked_amount
    ∧ ∃ p c₀ t c₁, [p, t].Sublist es ∧ Prepares hash p c₀ ∧ c₀.locked_amount = c.locked_amount
      ∧ Advances hash t c₀ c₁ ∧ c₁.status = .Settled ∧ c₁.release_amount = c.release_amount

/-- What lowers the principal of an owner: the owner's own withdrawal, or a dispute of coverage
staked by that owner. -/
def LowersBalance (e : Event) (o : Pubkey) : Prop :=
  (∃ accounts amount, e.ix = .program (.stake (.withdraw_stake accounts amount))
      ∧ accounts.owner = o)
    ∨ ∃ hash c, Turns hash .Disputed e ∧ e.post.coverage_at hash = some c ∧ c.stake_owner = o

section Read

variable {hash : Bytes 32} {written : List Event} {o : Option DisputeIntent}

theorem DisputeStep.not_terminal {now : ℤ} {d d' : DisputeIntent} (h : DisputeStep now d d') :
    ¬ d.status.terminal := by
  cases h with
  | cancel h | settle h | release h | dispute h =>
    rw [h]
    exact id

/-- No event writes a record in a terminal status. -/
theorem CoverageChain.not_terminal (h : CoverageChain hash written o) {e : Event} (he : e ∈ written)
    {c : DisputeIntent} (hc : e.pre.coverage_at hash = some c) : ¬ c.status.terminal := by
  induction h with
  | absent => cases he
  | prepared hprepares =>
    cases List.mem_singleton.mp he
    rw [hprepares.absent] at hc
    cases hc
  | advanced _ hadvances ih =>
    rcases List.mem_append.mp he with he | he
    · exact ih he
    · cases List.mem_singleton.mp he
      rw [hadvances.before] at hc
      cases hc
      exact hadvances.step.not_terminal

/-- Released coverage was prepared, then settled, then released, and the release came no sooner than
the window after the settlement. -/
theorem CoverageChain.released (h : CoverageChain hash written o) {r : Event} (hr : r ∈ written)
    (hturns : Turns hash .Released r) :
    ∃ p t c c₁, [p, t, r].Sublist written ∧ Prepares hash p c ∧ Advances hash t c c₁
      ∧ c₁.status = .Settled ∧ t.ctx.now + c.risk_window ≤ r.ctx.now := by
  -- the chain ends at its last write; an earlier release is found in the shorter chain
  induction h with
  | absent => cases hr
  | prepared hprepares =>
    cases List.mem_singleton.mp hr
    obtain ⟨-, hstatus⟩ := hturns
    rw [hprepares.present, Option.map_some, hprepares.pending] at hstatus
    cases hstatus
  | @advanced es e c c' chain hadvances ih =>
    rcases List.mem_append.mp hr with hr | hr
    · obtain ⟨p, t, c, c₁, hsub, hrest⟩ := ih hr
      exact ⟨p, t, c, c₁, hsub.trans (List.sublist_append_left _ _), hrest⟩
    · cases List.mem_singleton.mp hr
      obtain ⟨-, hstatus⟩ := hturns
      rw [hadvances.after, Option.map_some, Option.some.injEq] at hstatus
      obtain ⟨p, c₀, t, c₁, x, hwritten, hprepares, hsettles, hsettled, hreleases⟩ :=
        (CoverageChain.advanced chain hadvances).of_third (.inl hstatus)
      obtain ⟨rfl, rfl⟩ : es = [p, t] ∧ r = x := by
        have hsplit : es ++ [r] = [p, t] ++ [x] := hwritten
        exact ⟨(List.append_inj' hsplit rfl).1, List.singleton_inj.mp (List.append_inj' hsplit rfl).2⟩
      have heligible := hreleases.releases hstatus
      rw [(hsettles.settles hsettled).1] at heligible
      exact ⟨p, t, c₀, c₁, .refl _, hprepares, hsettles, hsettled, heligible⟩

/-- As long as the coverage is not disputed its writes move no principal. -/
theorem CoverageChain.kept (h : CoverageChain hash written o)
    (hstatus : o.map DisputeIntent.status ≠ some .Disputed) :
    ∀ e ∈ written, PrincipalKept e.pre.toStakeRecords e.post.toStakeRecords := by
  induction h with
  | absent => exact fun e he => nomatch he
  | prepared hprepares =>
    intro e he
    cases List.mem_singleton.mp he
    exact hprepares.kept
  | @advanced es e c c' chain hadvances ih =>
    -- what a step leaves is not terminal, so it was not disputed before
    have hearlier : (some c).map DisputeIntent.status ≠ some .Disputed := by
      intro hdisputed
      refine hadvances.step.not_terminal ?_
      rw [Option.some.inj hdisputed]
      trivial
    intro e' he'
    rcases List.mem_append.mp he' with he' | he'
    · exact ih hearlier e' he'
    · cases List.mem_singleton.mp he'
      exact hadvances.kept fun hdisputed => hstatus (congrArg some hdisputed)

/-- A quantity that no write of the coverage moved has not changed. -/
theorem coverage_change_zero {es : List Event} {f : State → ℕ}
    (h : ∀ e ∈ coverage_events hash es, f e.post = f e.pre) : coverage_change hash f es = 0 := by
  refine List.sum_eq_zero fun x hx => ?_
  obtain ⟨e, he, rfl⟩ := List.mem_map.mp hx
  rw [h e he, sub_self]

/-- Only the last of three writes moved a quantity. -/
theorem coverage_change_last {es : List Event} {f : State → ℕ} {p t x : Event}
    (hes : coverage_events hash es = [p, t, x]) (hp : f p.post = f p.pre) (ht : f t.post = f t.pre) :
    coverage_change hash f es = (f x.post : ℤ) - f x.pre := by
  unfold coverage_change
  rw [hes, List.map_cons, List.map_cons, List.map_cons, List.map_nil, List.sum_cons, List.sum_cons,
    List.sum_cons, List.sum_nil, hp, ht]
  omega

end Read

/-- Over a disputed coverage's whole history the principal lost is what the dispute took, and it
went to the depositor. -/
theorem CoverageChain.principal_lost {hash : Bytes 32} {es : List Event} {c c₀ c₁ : DisputeIntent}
    {p t x : Event} (hes : coverage_events hash es = [p, t, x]) (hp : Prepares hash p c₀)
    (ht : Advances hash t c₀ c₁) (hsettled : c₁.status = .Settled) (hx : Advances hash x c₁ c)
    (hstatus : c.status = .Disputed) : PrincipalLost hash es c := by
  -- preparation and settlement move nothing; the dispute moves the settled amount
  have hkept := hp.kept
  have hkept' := ht.kept (by rw [hsettled]; exact fun hne => nomatch hne)
  obtain ⟨rfl, hcharged⟩ := hx.disputes hstatus
  obtain ⟨howner, hothers, hstaked, hdepositor, hclaims, hclaimable⟩ := hcharged
  refine ⟨?_, fun o ho => ?_, ?_, ?_, fun b hb => ?_, ?_⟩
  · rw [coverage_change_last hes (hkept.balance_of _) (hkept'.balance_of _)]
    dsimp only
    omega
  · rw [coverage_change_last hes (hkept.balance_of _) (hkept'.balance_of _), hothers o ho, sub_self]
  · rw [coverage_change_last hes hkept.total_staked hkept'.total_staked]
    dsimp only
    omega
  · rw [coverage_change_last hes (hkept.claim_of _) (hkept'.claim_of _)]
    dsimp only
    omega
  · rw [coverage_change_last hes (hkept.claim_of _) (hkept'.claim_of _), hclaims b hb, sub_self]
  · rw [coverage_change_last hes hkept.total_claimable hkept'.total_claimable]
    dsimp only
    omega

/-- The statuses taken so far, by the one the record is in. -/
theorem CoverageChain.statuses {hash : Bytes 32} {written : List Event} {o : Option DisputeIntent}
    (h : CoverageChain hash written o) :
    (∃ path ∈ coverage_paths,
        written.map (fun e => (e.post.coverage_at hash).map DisputeIntent.status) <+: path.map some)
      ∧ o.map DisputeIntent.status
        = (written.map fun e =>
            (e.post.coverage_at hash).map DisputeIntent.status).getLast?.join := by
  cases o with
  | none =>
    cases h
    exact ⟨⟨[.Pending, .Cancelled], by decide, List.nil_prefix⟩, rfl⟩
  | some c =>
    -- the status fixes how many writes there were, hence which path was begun
    cases hstatus : c.status with
    | Pending =>
      obtain ⟨p, rfl, hp⟩ := h.of_pending hstatus
      refine ⟨⟨[.Pending, .Cancelled], by decide, ?_⟩, ?_⟩
      · simp [hp.present, hstatus]
      · simp [hp.present]
    | Cancelled =>
      obtain ⟨p, c₀, x, rfl, hp, hx⟩ := h.of_second (.inl hstatus)
      refine ⟨⟨[.Pending, .Cancelled], by decide, ?_⟩, ?_⟩
      · simp [hp.present, hp.pending, hx.after, hstatus]
      · simp [hx.after]
    | Settled =>
      obtain ⟨p, c₀, t, rfl, hp, ht⟩ := h.of_second (.inr hstatus)
      refine ⟨⟨[.Pending, .Settled, .Released], by decide, ?_⟩, ?_⟩
      · simp [hp.present, hp.pending, ht.after, hstatus]
      · simp [ht.after]
    | Released =>
      obtain ⟨p, c₀, t, c₁, x, rfl, hp, ht, hsettled, hx⟩ := h.of_third (.inl hstatus)
      refine ⟨⟨[.Pending, .Settled, .Released], by decide, ?_⟩, ?_⟩
      · simp [hp.present, hp.pending, ht.after, hsettled, hx.after, hstatus]
      · simp [hx.after]
    | Disputed =>
      obtain ⟨p, c₀, t, c₁, x, rfl, hp, ht, hsettled, hx⟩ := h.of_third (.inr hstatus)
      refine ⟨⟨[.Pending, .Settled, .Disputed], by decide, ?_⟩, ?_⟩
      · simp [hp.present, hp.pending, ht.after, hsettled, hx.after, hstatus]
      · simp [hx.after]

/-- The chain, read as a history. -/
theorem CoverageChain.history {hash : Bytes 32} {es : List Event} {s : State}
    (h : CoverageChain hash (coverage_events hash es) (s.coverage_at hash)) :
    CoverageHistory hash es s where
  path := h.statuses.1
  current := h.statuses.2
  terminal := by
    intro e he c hc hterminal
    -- an event that changed terminal coverage would be one of its writes
    by_contra hne
    have hwrites : e ∈ coverage_events hash es := by
      refine List.mem_filter.mpr ⟨he, decide_eq_true ?_⟩
      rw [hc]
      exact Ne.symm hne
    exact h.not_terminal hwrites hc hterminal
  released := by
    intro r hr hturns
    have hwrites : r ∈ coverage_events hash es :=
      List.mem_filter.mpr ⟨hr, decide_eq_true hturns.1⟩
    obtain ⟨p, t, c, c₁, hsub, hprepares, hsettles, hsettled, htime⟩ := h.released hwrites hturns
    -- the window is the one the preparation copied from the payment method
    obtain ⟨risk, hrisk, hwindow⟩ := hprepares.window
    rw [hwindow] at htime
    refine ⟨p, t, c, risk, hsub.trans List.filter_sublist, hprepares, hrisk, ⟨?_, ?_⟩, htime⟩
    · have ht : t ∈ coverage_events hash es := hsub.subset (by simp)
      exact of_decide_eq_true (List.mem_filter.mp ht).2
    · rw [hsettles.after, Option.map_some, hsettled]
  kept := by
    intro hstatus
    have hkept := h.kept hstatus
    exact ⟨fun o => coverage_change_zero fun e he => (hkept e he).balance_of o,
      coverage_change_zero fun e he => (hkept e he).total_staked,
      fun b => coverage_change_zero fun e he => (hkept e he).claim_of b,
      coverage_change_zero fun e he => (hkept e he).total_claimable⟩
  disputed := by
    intro c hc hstatus
    rw [hc] at h
    -- disputed coverage has exactly three writes behind it
    obtain ⟨p, c₀, t, c₁, x, hes, hprepares, hsettles, hsettled, hdisputes⟩ :=
      h.of_third (.inr hstatus)
    refine ⟨CoverageChain.principal_lost hes hprepares hsettles hsettled hdisputes hstatus, ?_⟩
    have hbounded := hsettles.bounded hsettled
    have hlocked := (hsettles.settles hsettled).2
    obtain ⟨rfl, -⟩ := hdisputes.disputes hstatus
    refine ⟨hbounded, p, c₀, t, c₁, ?_, hprepares, hlocked.symm, hsettles, hsettled, rfl⟩
    have hsub : [p, t].Sublist (coverage_events hash es) := by
      rw [hes]
      exact List.sublist_append_left [p, t] [x]
    exact hsub.trans List.filter_sublist

/-! ## Where else principal can go -/

/-- A position written back with at least its old balance lowers nobody's principal. -/
theorem balance_of_le_insert {r r' : StakeRecords} {o : Pubkey} {p' : StakePosition}
    (h : r'.stake_positions = r.stake_positions.insert (position_of o) p')
    (hle : r.balance_of o ≤ p'.balance) (o' : Pubkey) : r.balance_of o' ≤ r'.balance_of o' := by
  rw [balance_of_insert h]
  split_ifs with ho
  · exact ho ▸ hle
  · exact le_rfl

/-- The vault lowers a balance for a withdrawal of its owner, for a dispute, or at the word of a
controller that signs. -/
theorem StakeMove.lowers {ix : TopLevel} {s s' : State} (h : StakeMove ix s s') {o : Pubkey}
    (hlt : s'.balance_of o < s.balance_of o) :
    (∃ accounts amount, ix = .program (.stake (.withdraw_stake accounts amount))
        ∧ accounts.owner = o)
      ∨ s.stake_vault.controller.can_sign = true
      ∨ ∃ accounts args, ix = .program (.submit_dispute accounts args) := by
  have hsame : s'.stake_positions ≠ s.stake_positions := by
    intro heq
    unfold StakeRecords.balance_of at hlt
    rw [heq] at hlt
    exact lt_irrefl _ hlt
  have hwritten : ∀ o' p', s'.stake_positions = s.stake_positions.insert (position_of o') p' →
      ¬ s.balance_of o' ≤ p'.balance :=
    fun o' p' hpositions hle => not_lt.mpr (balance_of_le_insert hpositions hle o) hlt
  cases h with
  | quiet positions => exact absurd positions hsame
  | claimed _ _ _ _ positions => exact absurd positions hsame
  | prepared _ positions => exact absurd positions hsame
  | withdrawn accounts p p' x ix_eq _ position positions =>
    rw [balance_of_insert positions] at hlt
    split_ifs at hlt with ho
    · exact .inl ⟨accounts, x, ix_eq, ho⟩
    · exact absurd hlt (lt_irrefl _)
  | deposited o' p' x _ positions balance_eq | locked o' _ p' _ x _ _ _ positions balance_eq =>
    refine absurd ?_ (hwritten o' p' positions)
    rw [balance_of_init, balance_eq]
    exact Nat.le_add_right _ _
  | relocked id p p' l l' _ position _ _ positions balance_eq =>
    refine absurd ?_ (hwritten _ p' positions)
    rw [balance_of_some position, balance_eq]
  | misreleased accounts dispute p p' l _ _ _ _ position _ positions balance_eq =>
    refine absurd ?_ (hwritten _ p' positions)
    rw [balance_of_some position, balance_eq]
  | removed id p p' l c _ position _ positions balance_eq _ _ _ _ _ _ _ charge =>
    -- a lock that is removed without claims returns everything it took
    rcases charge with rfl | hcharge
    · refine absurd ?_ (hwritten _ p' positions)
      rw [balance_of_some position, ← balance_eq]
      exact le_rfl
    · exact .inr hcharge

/-- An owner loses principal by its own withdrawal or by a dispute of coverage it staked. The
controller cannot take any while it is an address that never signs. -/
theorem lowers_balance {rt : Runtime} {e : Event} (hv : e.Valid (step rt)) (hledger : LedgerOk e.pre)
    (hcontroller : e.pre.stake_vault.controller = dispute_config_address) {o : Pubkey}
    (hlt : e.post.balance_of o < e.pre.balance_of o) : LowersBalance e o := by
  rcases (stake_move hledger.tokens hledger.stake hledger.coverage hv).lowers hlt with hwithdraw
    | hsign | ⟨accounts, args, hix⟩
  · exact .inl hwithdraw
  · -- a derived address signs nothing
    rw [hcontroller] at hsign
    cases hsign
  · have ok : handle_submit_dispute rt accounts args e.pre = .ok e.post := valid_execute hv hix
    obtain ⟨c, l, p, p', c', nullifier, hdisputed, -⟩ := submit_dispute_ok ok
    have hafter : e.post.coverage_at args.attestation.intent_hash
        = some { c with status := .Disputed } := by
      unfold DisputeRecords.coverage_at
      rw [hdisputed.post, Finmap.lookup_insert]
    refine .inr ⟨_, _, ⟨?_, by rw [hafter]; rfl⟩, hafter, ?_⟩
    · rw [hafter]
      unfold DisputeRecords.coverage_at
      rw [hdisputed.dispute_eq]
      intro heq
      have hstatus := congrArg DisputeIntent.status (Option.some.inj heq)
      rw [hdisputed.settled] at hstatus
      cases hstatus
    · by_contra hne
      rw [hdisputed.principal.other_owners o (Ne.symm hne)] at hlt
      exact lt_irrefl _ hlt

/-- In every run without an accepted handover, for every hash: coverage follows its lifecycle, is
released only after the window it was prepared with, and costs its stake owner the settled amount if
it ends disputed and nothing otherwise. Every other loss of principal is the owner's withdrawal or
the dispute of other coverage of that owner. -/
theorem coverage_history {rt : Runtime} (hinj : NonceInjective rt) {es : List Event} {s : State}
    (h : Run rt es s) (hkept : ∀ e ∈ es, ¬ AcceptsController e) :
    (∀ hash, CoverageHistory hash es s)
      ∧ ∀ e ∈ es, ∀ o, e.post.balance_of o < e.pre.balance_of o → LowersBalance e o := by
  obtain ⟨-, hlaw⟩ := Run.coverage_law hinj h hkept
  obtain ⟨-, hledger⟩ := Run.ledgerOk h
  refine ⟨fun hash => (Run.coverage_chain hinj h hkept hash).history, fun e he o hlt => ?_⟩
  exact lowers_balance (TxMachine.Run.valid h e he) (hledger e he).1 (hlaw e he).1.1 hlt

/-- The whole life of the coverage of the sample cluster. -/
theorem coverage_history_released :
    ∃ es s, NonceInjective sample_runtime ∧ Run sample_runtime es s
      ∧ (∀ e ∈ es, ¬ AcceptsController e)
      ∧ status_history sample_hash es = [some .Pending, some .Settled, some .Released]
      ∧ (∀ hash, CoverageHistory hash es s)
      ∧ ∀ e ∈ es, ∀ o, e.post.balance_of o < e.pre.balance_of o → LowersBalance e o := by
  obtain ⟨es, s, hrun, hgood⟩ := sample_reaches
    [sample_setup, sample_cover, sample_manual_release, sample_release]
    (fun es _ => (es.all fun e => !accepts_controller e) && decide (status_history sample_hash es
      = [some .Pending, some .Settled, some .Released])) (by decide +kernel)
  simp only [Bool.and_eq_true, List.all_eq_true, decide_eq_true_eq] at hgood
  have hkept : ∀ e ∈ es, ¬ AcceptsController e := fun e he => not_accepts_controller (hgood.1 e he)
  exact ⟨es, s, sample_nonce_injective, hrun, hkept, hgood.2,
    coverage_history sample_nonce_injective hrun hkept⟩

end Zkp2pSolana
