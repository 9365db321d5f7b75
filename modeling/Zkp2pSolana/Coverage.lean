/-
Coverage and intents are in step after every transaction.

Coverage is created and cancelled by instructions of its own, tied to the
`signal_intent` and the `cancel_intent` next to them only by what each reads of
its own transaction. So the law holds between transactions, and inside one it
holds up to the instruction that is still owed: coverage was prepared and its
signal is next (`Preparing`), or coverage was cancelled and the cancellation of
its intent is next (`Cancelling`). Each hash is followed by itself: an instruction
touches the records of one hash and leaves those of every other (`SameAt`).

All of this is about the program's own stake controller. A successor controller
may remove or resize the collateral of live coverage.
-/
import Zkp2pSolana.Admission

set_option autoImplicit false

namespace Zkp2pSolana

open Result Zkp2pError

/-! ## The law -/

/-- No live intent has the hash. -/
def NoIntent (s : State) (hash : Bytes 32) : Prop :=
  ∀ k i, s.intents.lookup k = some i → i.intent_hash ≠ hash

/-- Pending coverage, its collateral and the intent it covers agree. -/
structure PendingAgrees (c : DisputeIntent) (l : StakeLock) (i : Intent) : Prop where
  lock_amount : l.amount = c.locked_amount
  amount : c.locked_amount = i.amount
  stake_owner : l.stake_owner = c.stake_owner
  matures_at : l.matures_at = NEVER_MATURES
  deposit : c.deposit = i.deposit
  taker : c.taker = i.owner
  payment_method : c.payment_method = i.payment_method

/-- Settled coverage and its collateral agree. -/
structure SettledAgrees (c : DisputeIntent) (l : StakeLock) : Prop where
  amount : l.amount = c.release_amount
  bounded : c.release_amount ≤ c.locked_amount
  matures_at : l.matures_at = c.release_eligible_at
  stake_owner : l.stake_owner = c.stake_owner

/-- What the coverage record at `hash`, whatever its status, says about intent and collateral. -/
def CoverageOk (s : State) (hash : Bytes 32) : Prop :=
  match s.dispute_intents.lookup (coverage_of hash) with
  | none => ∀ k i, s.intents.lookup k = some i → i.intent_hash = hash → i.dispute_covered = false
  | some c =>
    match c.status with
    -- coverage runs: the intent is live and the whole amount is under a lock
    | .Pending => ∃ k i l, s.intents.lookup k = some i ∧ i.intent_hash = hash
        ∧ i.dispute_covered = true ∧ s.stake_locks.lookup (lock_of hash) = some l
        ∧ PendingAgrees c l i
    -- the payment was released; the released amount stays locked until the window has passed
    | .Settled => NoIntent s hash
        ∧ ∃ l, s.stake_locks.lookup (lock_of hash) = some l ∧ SettledAgrees c l
    | .Cancelled | .Released | .Disputed => NoIntent s hash
        ∧ s.stake_locks.lookup (lock_of hash) = none

/-- Coverage of `hash` was just prepared and its signal is the next instruction. -/
def Preparing (rt : Runtime) (rest : List TopLevel) (s : State) (hash : Bytes 32) : Prop :=
  ∃ e accounts args, PreparedBy rt rest s e accounts args ∧ args.expected_intent_hash = hash

/-- Coverage of `hash` was just cancelled and the cancellation of its intent is next. -/
def Cancelling (rest : List TopLevel) (s : State) (hash : Bytes 32) : Prop :=
  ∃ c k i cancel, s.dispute_intents.lookup (coverage_of hash) = some c ∧ c.status = .Cancelled
    ∧ s.stake_locks.lookup (lock_of hash) = none ∧ s.intents.lookup k = some i
    ∧ i.intent_hash = hash ∧ following_cancel rest = some cancel ∧ cancel.intent = k

/-! ## Introduction and elimination, one per status -/

section Cases

variable {s : State} {hash : Bytes 32} {c : DisputeIntent}

theorem CoverageOk.of_none (hc : s.dispute_intents.lookup (coverage_of hash) = none)
    (h : ∀ k i, s.intents.lookup k = some i → i.intent_hash = hash → i.dispute_covered = false) :
    CoverageOk s hash := by
  unfold CoverageOk
  rw [hc]
  exact h

/-- Pending coverage goes with a live covered intent and with a lock of the same amount. -/
theorem CoverageOk.of_pending (hc : s.dispute_intents.lookup (coverage_of hash) = some c)
    (hstatus : c.status = .Pending) {k : Pubkey} {i : Intent} {l : StakeLock}
    (hi : s.intents.lookup k = some i) (hhash : i.intent_hash = hash)
    (hcovered : i.dispute_covered = true) (hl : s.stake_locks.lookup (lock_of hash) = some l)
    (hagrees : PendingAgrees c l i) : CoverageOk s hash := by
  unfold CoverageOk
  rw [hc]
  simp only [hstatus]
  exact ⟨k, i, l, hi, hhash, hcovered, hl, hagrees⟩

/-- Settled coverage goes with a lock of the released amount, and its intent is gone. -/
theorem CoverageOk.of_settled (hc : s.dispute_intents.lookup (coverage_of hash) = some c)
    (hstatus : c.status = .Settled) (hno : NoIntent s hash) {l : StakeLock}
    (hl : s.stake_locks.lookup (lock_of hash) = some l) (hagrees : SettledAgrees c l) :
    CoverageOk s hash := by
  unfold CoverageOk
  rw [hc]
  simp only [hstatus]
  exact ⟨hno, l, hl, hagrees⟩

/-- A status that is never left. -/
def DisputeStatus.terminal : DisputeStatus → Prop
  | .Pending | .Settled => False
  | .Cancelled | .Released | .Disputed => True

theorem CoverageOk.of_terminal (hc : s.dispute_intents.lookup (coverage_of hash) = some c)
    (hstatus : c.status.terminal) (hno : NoIntent s hash)
    (hl : s.stake_locks.lookup (lock_of hash) = none) : CoverageOk s hash := by
  unfold CoverageOk
  rw [hc]
  cases hs : c.status <;> simp only [hs, DisputeStatus.terminal] at hstatus ⊢
  all_goals exact ⟨hno, hl⟩

theorem CoverageOk.pending (h : CoverageOk s hash)
    (hc : s.dispute_intents.lookup (coverage_of hash) = some c) (hstatus : c.status = .Pending) :
    ∃ k i l, s.intents.lookup k = some i ∧ i.intent_hash = hash ∧ i.dispute_covered = true
      ∧ s.stake_locks.lookup (lock_of hash) = some l ∧ PendingAgrees c l i := by
  unfold CoverageOk at h
  rw [hc] at h
  simpa only [hstatus] using h

theorem CoverageOk.settled (h : CoverageOk s hash)
    (hc : s.dispute_intents.lookup (coverage_of hash) = some c) (hstatus : c.status = .Settled) :
    NoIntent s hash ∧ ∃ l, s.stake_locks.lookup (lock_of hash) = some l ∧ SettledAgrees c l := by
  unfold CoverageOk at h
  rw [hc] at h
  simpa only [hstatus] using h

theorem CoverageOk.terminal (h : CoverageOk s hash)
    (hc : s.dispute_intents.lookup (coverage_of hash) = some c) (hstatus : c.status.terminal) :
    NoIntent s hash ∧ s.stake_locks.lookup (lock_of hash) = none := by
  unfold CoverageOk at h
  rw [hc] at h
  cases hs : c.status <;> simp only [hs, DisputeStatus.terminal] at hstatus h
  all_goals exact h

theorem CoverageOk.none (h : CoverageOk s hash)
    (hc : s.dispute_intents.lookup (coverage_of hash) = none) :
    ∀ k i, s.intents.lookup k = some i → i.intent_hash = hash → i.dispute_covered = false := by
  unfold CoverageOk at h
  rw [hc] at h
  exact h

/-- A live intent is covered exactly when coverage of its hash is pending. -/
theorem CoverageOk.live (h : CoverageOk s hash) {rt : Runtime} (hs : CustodyInv rt s)
    (hinj : NonceInjective rt) {k : Pubkey} {i : Intent} (hi : s.intents.lookup k = some i)
    (hhash : i.intent_hash = hash) :
    (i.dispute_covered = false ∧ s.dispute_intents.lookup (coverage_of hash) = .none)
      ∨ (i.dispute_covered = true ∧ ∃ c l, s.dispute_intents.lookup (coverage_of hash) = some c
        ∧ c.status = .Pending ∧ s.stake_locks.lookup (lock_of hash) = some l
        ∧ PendingAgrees c l i) := by
  cases hc : s.dispute_intents.lookup (coverage_of hash) with
  | none => exact .inl ⟨h.none hc k i hi hhash, rfl⟩
  | some c =>
    -- every status but pending says that no intent is live
    have hlive : ¬ NoIntent s hash := fun hno => hno k i hi hhash
    cases hstatus : c.status with
    | Pending =>
      obtain ⟨k', i', l, hi', hhash', hcovered, hl, hagrees⟩ := h.pending hc hstatus
      have hkey := hs.intent_unique hinj hi hi' (hhash.trans hhash'.symm)
      subst hkey
      rw [hi] at hi'
      cases hi'
      exact .inr ⟨hcovered, c, l, rfl, hstatus, hl, hagrees⟩
    | Settled => exact absurd (h.settled hc hstatus).1 hlive
    | Cancelled | Released | Disputed =>
      refine absurd (h.terminal hc ?_).1 hlive
      rw [hstatus]
      trivial

end Cases

/-! ## One hash at a time -/

/-- The records of `hash` are the same in both states. -/
structure SameAt (s s' : State) (hash : Bytes 32) : Prop where
  coverage : s'.dispute_intents.lookup (coverage_of hash)
    = s.dispute_intents.lookup (coverage_of hash)
  lock : s'.stake_locks.lookup (lock_of hash) = s.stake_locks.lookup (lock_of hash)
  intents : ∀ k i, i.intent_hash = hash →
    (s'.intents.lookup k = some i ↔ s.intents.lookup k = some i)

section SameAt

variable {s s' : State} {hash : Bytes 32}

theorem SameAt.noIntent (h : SameAt s s' hash) (hno : NoIntent s hash) : NoIntent s' hash :=
  fun k i hi hhash => hno k i ((h.intents k i hhash).mp hi) hhash

theorem CoverageOk.frame (hok : CoverageOk s hash) (h : SameAt s s' hash) : CoverageOk s' hash := by
  cases hc : s.dispute_intents.lookup (coverage_of hash) with
  | none =>
    refine .of_none (h.coverage.trans hc) fun k i hi hhash => ?_
    exact hok.none hc k i ((h.intents k i hhash).mp hi) hhash
  | some c =>
    have hc' := h.coverage.trans hc
    cases hstatus : c.status with
    | Pending =>
      obtain ⟨k, i, l, hi, hhash, hcovered, hl, hagrees⟩ := hok.pending hc hstatus
      exact .of_pending hc' hstatus ((h.intents k i hhash).mpr hi) hhash hcovered
        (h.lock.trans hl) hagrees
    | Settled =>
      obtain ⟨hno, l, hl, hagrees⟩ := hok.settled hc hstatus
      exact .of_settled hc' hstatus (h.noIntent hno) (h.lock.trans hl) hagrees
    | Cancelled | Released | Disputed =>
      have hterminal : c.status.terminal := by
        rw [hstatus]
        trivial
      obtain ⟨hno, hl⟩ := hok.terminal hc hterminal
      exact .of_terminal hc' hterminal (h.noIntent hno) (h.lock.trans hl)

/-- Removing an intent of another hash. -/
theorem same_intents_erase {k₀ : Pubkey} {i₀ : Intent} (hi₀ : s.intents.lookup k₀ = some i₀)
    (hne : hash ≠ i₀.intent_hash) (h : s'.intents = s.intents.erase k₀) (k : Pubkey) (i : Intent)
    (hhash : i.intent_hash = hash) :
    s'.intents.lookup k = some i ↔ s.intents.lookup k = some i := by
  rw [h, Finmap.lookup_erase_ite]
  split_ifs with hk
  · subst hk
    rw [hi₀]
    constructor
    · exact fun hcontra => absurd hcontra (by simp)
    · intro heq
      cases heq
      exact absurd hhash.symm hne
  · exact Iff.rfl

/-- Adding an intent of another hash. -/
theorem same_intents_insert {k₀ : Pubkey} {i₀ : Intent} (hfresh : s.intents.lookup k₀ = none)
    (hne : hash ≠ i₀.intent_hash) (h : s'.intents = s.intents.insert k₀ i₀) (k : Pubkey) (i : Intent)
    (hhash : i.intent_hash = hash) :
    s'.intents.lookup k = some i ↔ s.intents.lookup k = some i := by
  rw [h, Finmap.lookup_insert_ite]
  split_ifs with hk
  · subst hk
    rw [hfresh]
    constructor
    · intro heq
      cases heq
      exact absurd hhash.symm hne
    · exact fun hcontra => absurd hcontra (by simp)
  · exact Iff.rfl

/-- The intent that was removed was the only one with its hash. -/
theorem noIntent_erase {rt : Runtime} (hs : CustodyInv rt s) (hinj : NonceInjective rt)
    {k₀ : Pubkey} {i₀ : Intent} (hi₀ : s.intents.lookup k₀ = some i₀)
    (h : s'.intents = s.intents.erase k₀) : NoIntent s' i₀.intent_hash := by
  intro k i hi hhash
  rw [h, Finmap.lookup_erase_ite] at hi
  split_ifs at hi with hk
  exact hk (hs.intent_unique hinj hi hi₀ hhash)

end SameAt

/-! ## The moves, at the hash they touch and at every other -/

section Moves

variable {rt : Runtime} {ctx : TxContext} {s s₁ s' : State} {hash : Bytes 32}

/-- The look-ahead of `cancel_dispute` answers only for a `cancel_intent` of this program that comes
right after. -/
theorem following_cancel_some {ix : TopLevel} {rest : List TopLevel} {accounts : CancelIntent}
    (h : following_cancel (ix :: rest) = some accounts) :
    ix = .program (.cancel_intent accounts) := by
  unfold following_cancel at h
  split at h
  · rename_i heq
    cases h
    cases heq
    rfl
  · cases h

/-- Cancelling the coverage of one hash leaves every other hash alone. -/
theorem CoverageCancelled.same_at {h₀ : Bytes 32} {c : DisputeIntent} {l : StakeLock}
    {p p' : StakePosition} (h : CoverageCancelled s s₁ h₀ c l p p') (hne : hash ≠ h₀)
    (hcoverage : s'.dispute_intents = s₁.dispute_intents)
    (hlocks : s'.stake_locks = s₁.stake_locks)
    (hintents : ∀ k i, i.intent_hash = hash →
      (s'.intents.lookup k = some i ↔ s.intents.lookup k = some i)) : SameAt s s' hash := by
  refine ⟨?_, ?_, hintents⟩
  · rw [hcoverage, h.post, Finmap.lookup_insert_of_ne _ (Pubkey.pda_word_ne hne)]
  · rw [hlocks, h.post, Finmap.lookup_erase_ne (Pubkey.pda_word_ne hne)]

theorem CoverageSettled.same_at {i : Intent} {released : ℕ} {c : DisputeIntent} {l : StakeLock}
    {p p' : StakePosition} (h : CoverageSettled ctx s s₁ i released c l p p')
    (hne : hash ≠ i.intent_hash) (hcoverage : s'.dispute_intents = s₁.dispute_intents)
    (hlocks : s'.stake_locks = s₁.stake_locks)
    (hintents : ∀ k i, i.intent_hash = hash →
      (s'.intents.lookup k = some i ↔ s.intents.lookup k = some i)) : SameAt s s' hash := by
  refine ⟨?_, ?_, hintents⟩
  · rw [hcoverage, h.post, Finmap.lookup_insert_of_ne _ (Pubkey.pda_word_ne hne)]
  · rw [hlocks, h.post, Finmap.lookup_insert_of_ne _ (Pubkey.pda_word_ne hne)]

/-- A live uncovered intent is closed. -/
theorem coverage_closed_uncovered (hs : CustodyInv rt s) (hinj : NonceInjective rt) {k : Pubkey}
    {i : Intent} (hi : s.intents.lookup k = some i) (huncovered : i.dispute_covered = false)
    (hok : CoverageOk s hash) (hcoverage : s'.dispute_intents = s.dispute_intents)
    (hlocks : s'.stake_locks = s.stake_locks) (hintents : s'.intents = s.intents.erase k) :
    CoverageOk s' hash := by
  by_cases hne : hash = i.intent_hash
  · subst hne
    have hnone : s'.dispute_intents.lookup (coverage_of i.intent_hash) = none := by
      rcases hok.live hs hinj hi rfl with ⟨-, hnone⟩ | ⟨hcovered, -⟩
      · rw [hcoverage, hnone]
      · rw [huncovered] at hcovered
        cases hcovered
    refine .of_none hnone fun k' i' hi' hhash => ?_
    exact absurd hhash (noIntent_erase hs hinj hi hintents k' i' hi')
  · refine hok.frame ⟨by rw [hcoverage], by rw [hlocks], ?_⟩
    exact same_intents_erase hi hne hintents

/-- A live covered intent is pruned with its coverage. -/
theorem CoverageCancelled.closed (hs : CustodyInv rt s) (hinj : NonceInjective rt) {k : Pubkey}
    {i : Intent} (hi : s.intents.lookup k = some i) {c : DisputeIntent} {l : StakeLock}
    {p p' : StakePosition} (h : CoverageCancelled s s₁ i.intent_hash c l p p')
    (hok : CoverageOk s hash) (hcoverage : s'.dispute_intents = s₁.dispute_intents)
    (hlocks : s'.stake_locks = s₁.stake_locks) (hintents : s'.intents = s.intents.erase k) :
    CoverageOk s' hash := by
  by_cases hne : hash = i.intent_hash
  · subst hne
    have hc : s'.dispute_intents.lookup (coverage_of i.intent_hash)
        = some { c with status := .Cancelled } := by
      rw [hcoverage, h.post, Finmap.lookup_insert]
    refine .of_terminal hc trivial (noIntent_erase hs hinj hi hintents) ?_
    rw [hlocks, h.post, Finmap.lookup_erase]
  · exact hok.frame (h.same_at hne hcoverage hlocks (same_intents_erase hi hne hintents))

/-- A live covered intent is settled with its coverage. -/
theorem CoverageSettled.closed (hs : CustodyInv rt s) (hinj : NonceInjective rt) {k : Pubkey}
    {i : Intent} (hi : s.intents.lookup k = some i) {released : ℕ} {c : DisputeIntent}
    {l : StakeLock} {p p' : StakePosition} (h : CoverageSettled ctx s s₁ i released c l p p')
    (hok : ∀ hash, CoverageOk s hash) (hcoverage : s'.dispute_intents = s₁.dispute_intents)
    (hlocks : s'.stake_locks = s₁.stake_locks) (hintents : s'.intents = s.intents.erase k) :
    CoverageOk s' hash := by
  by_cases hne : hash = i.intent_hash
  · subst hne
    -- the lock that shrinks is the one the law speaks of, so the release fits under the coverage
    obtain ⟨_, _, l', -, -, -, hl', hagrees⟩ := (hok i.intent_hash).pending h.dispute_eq h.pending
    rw [h.lock] at hl'
    cases hl'
    refine .of_settled (c := { c with
      release_amount := released
      release_eligible_at := ctx.now + c.risk_window
      status := .Settled }) ?_ rfl (noIntent_erase hs hinj hi hintents)
      (l := { l with amount := released, matures_at := ctx.now + c.risk_window }) ?_ ?_
    · rw [hcoverage, h.post, Finmap.lookup_insert]
    · rw [hlocks, h.post, Finmap.lookup_insert]
    · refine ⟨rfl, ?_, rfl, hagrees.stake_owner⟩
      show released ≤ c.locked_amount
      rw [← hagrees.lock_amount]
      exact h.bounded
  · exact (hok hash).frame (h.same_at hne hcoverage hlocks (same_intents_erase hi hne hintents))

/-- Both settlement paths keep the law. -/
theorem settle_intent_coverage_ok (hs : CustodyInv rt s) (hinj : NonceInjective rt) {k : Pubkey}
    {live : LiveIntent} {tokens : SettlementTokenAccounts} {dispute : SettlementDisputeAccounts}
    {remaining_accounts : List AccountInfo} {released : ℕ}
    (hlive : live_intent k s = .ok live)
    (h : settle_intent ctx k live tokens dispute remaining_accounts released s = .ok s₁)
    (hok : ∀ hash, CoverageOk s hash) (hcoverage : s'.dispute_intents = s₁.dispute_intents)
    (hlocks : s'.stake_locks = s₁.stake_locks) (hintents : s'.intents = s₁.intents) :
    CoverageOk s' hash := by
  obtain ⟨hi, -⟩ := live_intent_ok hlive
  obtain ⟨s₂, deposit, T, hdispute, -, -, rfl⟩ := settle_intent_ok h
  rcases settle_dispute_ok hdispute with ⟨huncovered, rfl⟩ | ⟨-, -, c, l, p, p', hsettled⟩
  · exact coverage_closed_uncovered hs hinj hi huncovered (hok hash) hcoverage hlocks hintents
  · have hsame : s₂.intents = s.intents := by rw [hsettled.post]
    refine hsettled.closed hs hinj hi hok hcoverage hlocks ?_
    rw [hintents, ← hsame]
    rfl

/-- Settled coverage that is released or disputed: its lock goes and its status is terminal. -/
theorem CoverageOk.resolved (hok : ∀ hash, CoverageOk s hash) {h₀ : Bytes 32} {c : DisputeIntent}
    (hc : s.dispute_intents.lookup (coverage_of h₀) = some c) (hsettled : c.status = .Settled)
    (c' : DisputeIntent) (hterminal : c'.status.terminal)
    (hcoverage : s'.dispute_intents = s.dispute_intents.insert (coverage_of h₀) c')
    (hlocks : s'.stake_locks = s.stake_locks.erase (lock_of h₀)) (hintents : s'.intents = s.intents) :
    CoverageOk s' hash := by
  by_cases hne : hash = h₀
  · subst hne
    obtain ⟨hno, -⟩ := (hok hash).settled hc hsettled
    refine .of_terminal (c := c') ?_ hterminal ?_ ?_
    · rw [hcoverage, Finmap.lookup_insert]
    · intro k i hi
      rw [hintents] at hi
      exact hno k i hi
    · rw [hlocks, Finmap.lookup_erase]
  · refine (hok hash).frame ⟨?_, ?_, fun k i _ => ?_⟩
    · rw [hcoverage, Finmap.lookup_insert_of_ne _ (Pubkey.pda_word_ne hne)]
    · rw [hlocks, Finmap.lookup_erase_ne (Pubkey.pda_word_ne hne)]
    · rw [hintents]

/-- What a preparation leaves at the hash it is for. -/
theorem CoveragePrepared.records {accounts : PrepareDispute} {args : PrepareDisputeArgs} {d : Deposit}
    {risk : RiskWindow} {p p' : StakePosition}
    (h : CoveragePrepared rt accounts args s s' d risk p p') :
    s'.dispute_intents.lookup (coverage_of args.expected_intent_hash)
        = some (new_dispute_intent accounts args accounts.stake_owner d risk)
      ∧ s'.stake_locks.lookup (lock_of args.expected_intent_hash)
        = some ⟨stake_vault_address, args.expected_intent_hash, accounts.stake_owner, args.amount,
          NEVER_MATURES⟩ := by
  rw [h.post]
  exact ⟨Finmap.lookup_insert _, Finmap.lookup_insert _⟩

variable {accounts : SignalIntent} {args : SignalIntentArgs} {d d' : Deposit}
  {a : LifecycleAdmission} {i : Intent} {expiry : ℤ} {state : TakerIntentState}
  {after : List TopLevel}

/-- A signal right after the preparation of its coverage is covered by it. -/
theorem Signaled.after_preparing
    (h : Signaled rt ctx accounts args s s' d d' a i expiry state)
    (hpreparing : Preparing rt (.program (.signal_intent accounts args) :: after) s hash) :
    hash = i.intent_hash ∧ CoverageOk s' hash := by
  obtain ⟨e, prepare, prepare_args, hprepared, rfl⟩ := hpreparing
  obtain ⟨dep, risk, p, p', signal, signal_args, hcoverage, hfollows⟩ := hprepared.signal_follows
  obtain ⟨rfl, rfl⟩ : accounts = signal ∧ args = signal_args := by
    have := hfollows.next
    simpa [following_signal] using this
  obtain ⟨howner, hdeposit, hhash, -, -, hmethod, hamount⟩ := h.terms
  obtain ⟨hfound, hlock⟩ := hcoverage.records
  have hsame : prepare_args.expected_intent_hash = i.intent_hash := by rw [hhash, hfollows.hash]
  refine ⟨hsame, ?_⟩
  rcases h.coverage with ⟨-, hnone⟩ | ⟨c, risk', hbacked, hcovered⟩
  · rw [hfollows.dispute_intent] at hnone
    exact absurd hnone (by simp)
  · -- the window the signal reads is the one the preparation required to be positive
    have hwindow := hcoverage.risk_eq
    have hrisk := hbacked.risk_found
    rw [hcoverage.post, hfollows.payment_method] at hrisk
    rw [show e.pre.risk_windows.lookup _ = _ from hwindow] at hrisk
    cases hrisk
    rw [decide_eq_true hcoverage.window] at hcovered
    have hpost := h.post
    refine .of_pending (k := intent_address orchestrator_address s.orchestrator.next_intent_id)
      (c := new_dispute_intent prepare prepare_args prepare.stake_owner dep risk) ?_ rfl ?_ hsame.symm
      hcovered (l := ⟨stake_vault_address, prepare_args.expected_intent_hash, prepare.stake_owner,
        prepare_args.amount, NEVER_MATURES⟩) ?_ ?_
    · rw [hpost]
      exact hfound
    · rw [hpost, Finmap.lookup_insert]
    · rw [hpost]
      exact hlock
    · refine ⟨rfl, ?_, rfl, rfl, ?_, ?_, ?_⟩
      · rw [hamount]
        exact hfollows.amount.symm
      · rw [hdeposit]
        exact hfollows.deposit.symm
      · rw [howner]
        exact hfollows.taker.symm
      · rw [hmethod]
        exact hfollows.payment_method.symm

/-- A signal for which no coverage was prepared is uncovered. -/
theorem Signaled.without_coverage (hs : CustodyInv rt s) (hinj : NonceInjective rt)
    (h : Signaled rt ctx accounts args s s' d d' a i expiry state) {G : Event → Prop}
    (hahead : CoverageAhead rt G (.program (.signal_intent accounts args) :: after) s)
    (hok : CoverageOk s hash) : CoverageOk s' hash := by
  obtain ⟨-, -, hhash, -⟩ := h.terms
  have hpost := h.post
  by_cases hne : hash = i.intent_hash
  · subst hne
    have hfresh : NoIntent s i.intent_hash := by
      intro k i' hi'
      rw [hhash, ← h.hash]
      exact hs.fresh_hash hinj hi'
    have hnone : s.dispute_intents.lookup (coverage_of i.intent_hash) = none := by
      rcases hahead with hahead | ⟨-, e, prepare, prepare_args, -, hprepared⟩
      · rw [hhash, ← h.hash]
        exact hahead _ le_rfl hs.nonce
      · -- prepared coverage would be pending, and pending coverage has a live intent
        obtain ⟨_, _, _, _, _, _, hcoverage, -⟩ := hprepared.signal_follows
        have hnonce : s.orchestrator.next_intent_id = e.pre.orchestrator.next_intent_id := by
          rw [hcoverage.post]
        have hsame : prepare_args.expected_intent_hash = i.intent_hash := by
          rw [hhash, ← h.hash, ← hcoverage.hash, hnonce]
        have hfound := hcoverage.records.1
        rw [hsame] at hfound
        obtain ⟨k, i', _, hi', hhash', -⟩ := hok.pending hfound rfl
        exact absurd hhash' (hfresh k i' hi')
    have huncovered : i.dispute_covered = false := by
      rcases h.coverage with ⟨huncovered, -⟩ | ⟨c, risk, hbacked, -⟩
      · exact huncovered
      · have hfound := hbacked.found
        rw [← hhash, hnone] at hfound
        exact absurd hfound (by simp)
    refine .of_none ?_ fun k i' hi' hhash' => ?_
    · rw [hpost]
      exact hnone
    · rw [hpost, Finmap.lookup_insert_ite] at hi'
      split_ifs at hi' with hk
      · cases hi'
        exact huncovered
      · exact absurd hhash' (hfresh k i' hi')
  · have hintent := h.intent_fresh
    rw [h.terms.nonce] at hintent
    refine hok.frame ⟨by rw [hpost], by rw [hpost], ?_⟩
    exact same_intents_insert hintent hne (by rw [hpost])

/-- The cancellation of an intent whose coverage was just cancelled. -/
theorem cancel_after_cancelling (hs : CustodyInv rt s) (hinj : NonceInjective rt)
    {cancel : CancelIntent} (h : handle_cancel_intent cancel s = .ok s')
    (hcancelling : Cancelling (.program (.cancel_intent cancel) :: after) s hash) :
    CoverageOk s' hash := by
  obtain ⟨c, k, i, cancel', hc, hstatus, hl, hi, rfl, hnext, hkey⟩ := hcancelling
  obtain rfl : cancel = cancel' := by
    have := hnext
    simpa [following_cancel] using this
  obtain ⟨live, resolved, deposit, hlive, -, -, -, -, -, rfl⟩ := cancel_intent_ok h
  obtain ⟨hintent, -⟩ := live_intent_ok hlive
  rw [hkey, hi] at hintent
  cases hintent
  -- the owed instruction removes the intent, and the law holds again
  refine .of_terminal hc (by rw [hstatus]; trivial) ?_ hl
  exact noIntent_erase hs hinj hi (by rw [← hkey]; rfl)

/-- A covered intent can only be cancelled after its coverage. -/
theorem cancel_intent_uncovered (hledger : LedgerOk s) (hs : CustodyInv rt s)
    (hinj : NonceInjective rt) {cancel : CancelIntent} (h : handle_cancel_intent cancel s = .ok s')
    (hok : CoverageOk s hash) : CoverageOk s' hash := by
  obtain ⟨live, resolved, deposit, hlive, -, -, hresolved, hcheck, -, rfl⟩ := cancel_intent_ok h
  obtain ⟨hi, -⟩ := live_intent_ok hlive
  by_cases hcovered : live.intent.dispute_covered = true
  · unfold check_resolved at hcheck
    rw [if_pos hcovered] at hcheck
    simp only [bind_eq_ok, ok_or_eq_ok, require_eq_ok] at hcheck
    obtain ⟨account, rfl, hhash, hcancelled⟩ := hcheck
    have hload := load_opt_some hresolved
    rw [(hledger.coverage _ _ hload).1, hhash] at hload
    -- the presented record is the intent's own, so it was cancelled in this transaction
    have hne : hash ≠ live.intent.intent_hash := by
      rintro rfl
      rcases hok.live hs hinj hi rfl with ⟨-, hnone⟩ | ⟨-, c, l, hc, hpending, -⟩
      · rw [hload] at hnone
        exact absurd hnone (by simp)
      · rw [hload] at hc
        cases hc
        rw [hcancelled] at hpending
        cases hpending
    refine hok.frame ⟨rfl, rfl, ?_⟩
    exact same_intents_erase hi hne rfl
  · exact coverage_closed_uncovered hs hinj hi (by simpa using hcovered) hok rfl rfl rfl

end Moves

/-! ## Runs without a handover -/

/-- The event is the acceptance of a stake controller. -/
def AcceptsController (e : Event) : Prop :=
  ∃ accounts, e.ix = .program (.governance (.accept_stake_controller accounts))

/-- The same, computed. -/
def accepts_controller (e : Event) : Bool :=
  match e.ix with
  | .program (.governance (.accept_stake_controller _)) => true
  | _ => false

theorem not_accepts_controller {e : Event} (h : (!accepts_controller e) = true) :
    ¬ AcceptsController e := by
  rintro ⟨accounts, hix⟩
  unfold accepts_controller at h
  rw [hix] at h
  cases h

/-- The coverage law of every hash, up to the instruction the transaction still owes. -/
def CoverageLaw (rt : Runtime) (rest : List TopLevel) (s : State) : Prop :=
  ∀ hash, CoverageOk s hash ∨ Preparing rt rest s hash ∨ Cancelling rest s hash

/-- Between a preparation and its signal nothing else can run. -/
theorem Preparing.signal {rt : Runtime} {ix : TopLevel} {rest : List TopLevel} {s : State}
    {hash : Bytes 32} (h : Preparing rt (ix :: rest) s hash) :
    ∃ accounts args, ix = .program (.signal_intent accounts args) := by
  obtain ⟨e, prepare, prepare_args, hprepared, -⟩ := h
  obtain ⟨_, _, _, _, signal, signal_args, -, hfollows⟩ := hprepared.signal_follows
  exact ⟨signal, signal_args, following_signal_some hfollows.next⟩

/-- Between a cancelled coverage and the cancellation of its intent nothing else can run either. -/
theorem Cancelling.cancel {ix : TopLevel} {rest : List TopLevel} {s : State} {hash : Bytes 32}
    (h : Cancelling (ix :: rest) s hash) : ∃ accounts, ix = .program (.cancel_intent accounts) := by
  obtain ⟨_, _, _, cancel, -, -, -, -, -, hnext, -⟩ := h
  exact ⟨cancel, following_cancel_some hnext⟩

/-- Before an instruction that is owed to nobody, every hash is in order. -/
theorem CoverageLaw.settled {rt : Runtime} {ix : TopLevel} {rest : List TopLevel} {s : State}
    (h : CoverageLaw rt (ix :: rest) s) (hsignal : following_signal [ix] = none)
    (hcancel : following_cancel [ix] = none) : ∀ hash, CoverageOk s hash := by
  intro hash
  rcases h hash with hok | hpreparing | hcancelling
  · exact hok
  · obtain ⟨accounts, args, rfl⟩ := hpreparing.signal
    exact absurd hsignal (by simp [following_signal])
  · obtain ⟨accounts, rfl⟩ := hcancelling.cancel
    exact absurd hcancel (by simp [following_cancel])

/-- At the end of a transaction nothing is owed. -/
theorem CoverageLaw.ok {rt : Runtime} {s : State} (h : CoverageLaw rt [] s) (hash : Bytes 32) :
    CoverageOk s hash := by
  rcases h hash with hok | ⟨e, _, _, hprepared, -⟩ | ⟨_, _, _, cancel, -, -, -, -, -, hnext, -⟩
  · exact hok
  · obtain ⟨_, _, _, _, _, _, -, hfollows⟩ := hprepared.signal_follows
    exact absurd hfollows.next (by simp [following_signal])
  · exact absurd hnext (by simp [following_cancel])

/-- One instruction keeps the law of every hash. The two open cases are closed by the next
instruction of the same transaction, and only a preparation or a cancellation opens one. -/
theorem CoverageLaw.step {rt : Runtime} (hinj : NonceInjective rt) {G : Event → Prop} {e : Event}
    (hv : e.Valid (step rt)) (hledger : LedgerOk e.pre) (hcustody : CustodyInv rt e.pre)
    (hahead : CoverageAhead rt G (e.ix :: e.after) e.pre)
    (hcontroller : e.pre.stake_vault.controller = dispute_config_address)
    (h : CoverageLaw rt (e.ix :: e.after) e.pre) : CoverageLaw rt e.after e.post := by
  intro hash
  have hmove := lifecycle_move hv
  obtain ⟨ctx, before, ix, after, s, s'⟩ := e
  dsimp only at *
  cases hmove with
  -- nothing but a signal or a cancellation may follow an open case, so before any other instruction
  -- the plain law holds
  | idle frame =>
    refine .inl ((h.settled frame.no_signal frame.no_cancel hash).frame ⟨?_, ?_, fun k i _ => ?_⟩)
    · rw [frame.dispute_intents]
    · rw [frame.locks_kept hcontroller]
    · rw [frame.intents]
  | signal_intent signaled =>
    left
    -- without preparation the signal is uncovered; right after one it is covered by it
    rcases h hash with hok | hpreparing | hcancelling
    · exact signaled.without_coverage hcustody hinj hahead hok
    · exact (signaled.after_preparing hpreparing).2
    · obtain ⟨_, hcontra⟩ := hcancelling.cancel
      cases hcontra
  -- the cancellation finds its coverage resolved before, or just cancelled by the instruction in
  -- front
  | cancel_intent ok =>
    left
    rcases h hash with hok | hpreparing | hcancelling
    · exact cancel_intent_uncovered hledger hcustody hinj ok hok
    · obtain ⟨_, _, hcontra⟩ := hpreparing.signal
      cases hcontra
    · exact cancel_after_cancelling hcustody hinj ok hcancelling
  | prune_expired_intent ok =>
    have hok := h.settled rfl rfl
    obtain ⟨live, s₁, deposit, hlive, -, hprune, -, rfl⟩ := prune_expired_intent_ok ok
    obtain ⟨hi, -⟩ := live_intent_ok hlive
    left
    rcases prune_dispute_ok hprune with ⟨huncovered, rfl⟩ | ⟨-, _, _, _, _, hcancelled⟩
    · exact coverage_closed_uncovered hcustody hinj hi huncovered (hok hash) rfl rfl rfl
    · refine hcancelled.closed hcustody hinj hi (hok hash) rfl rfl ?_
      have hsame : s₁.intents = s.intents := by rw [hcancelled.post]
      rw [← hsame]
      rfl
  | prepare_dispute prepared follows =>
    have hok := h.settled rfl rfl
    rename_i accounts args _ _ _ _ _ _
    by_cases hne : hash = args.expected_intent_hash
    -- the law is suspended at this hash until the next instruction
    · exact .inr (.inl ⟨_, accounts, args, ⟨hv, rfl, rfl, rfl⟩, hne.symm⟩)
    · refine .inl ((hok hash).frame ⟨?_, ?_, fun k i _ => ?_⟩)
      · rw [prepared.post, Finmap.lookup_insert_of_ne _ (Pubkey.pda_word_ne hne)]
      · rw [prepared.post, Finmap.lookup_insert_of_ne _ (Pubkey.pda_word_ne hne)]
      · rw [prepared.post]
  | cancel_dispute ok =>
    have hok := h.settled rfl rfl
    obtain ⟨i, c, l, p, p', cancel, hi, -, hcancelled, hnext, hkey, -⟩ :=
      cancel_dispute_ok hledger.coverage ok
    have hintents : s'.intents = s.intents := by rw [hcancelled.post]
    by_cases hne : hash = i.intent_hash
    · subst hne
      -- cancelled with the intent still live: the cancellation that follows is owed
      refine .inr (.inr ⟨{ c with status := .Cancelled }, cancel.intent, i, cancel, ?_, rfl, ?_, ?_, rfl,
        hnext, rfl⟩)
      · rw [hcancelled.post, Finmap.lookup_insert]
      · rw [hcancelled.post, Finmap.lookup_erase]
      · rw [hintents, hkey, hi]
    · refine .inl ((hok hash).frame (hcancelled.same_at hne rfl rfl fun k i _ => ?_))
      rw [hintents]
  -- the two ends of settled coverage: its lock goes, and its status becomes terminal
  | release_matured_dispute ok =>
    have hok := h.settled rfl rfl
    obtain ⟨c, l, p, p', hc, hkey, hsettled, -, -, -, -, -, rfl⟩ := release_matured_dispute_ok ok
    rw [(hledger.coverage _ _ hc).2] at hkey
    rw [hkey] at hc
    refine .inl (.resolved hok hc hsettled { c with status := .Released } trivial ?_ rfl rfl)
    rw [hkey]
  | submit_dispute ok =>
    have hok := h.settled rfl rfl
    obtain ⟨c, l, p, p', c', nullifier, hdisputed, -⟩ := submit_dispute_ok ok
    refine .inl (.resolved hok hdisputed.dispute_eq hdisputed.settled
      { c with status := .Disputed } trivial ?_ ?_ ?_)
    all_goals rw [hdisputed.post]
  | fulfill_intent ok =>
    have hok := h.settled rfl rfl
    obtain ⟨live, s₁, hlive, -, -, -, -, hsettle, rfl⟩ := fulfill_intent_ok ok
    refine .inl (settle_intent_coverage_ok hcustody hinj hlive hsettle hok ?_ ?_ ?_)
    all_goals rfl
  | manual_release ok =>
    have hok := h.settled rfl rfl
    obtain ⟨live, hlive, -, -, hsettle⟩ := manual_release_ok ok
    exact .inl (settle_intent_coverage_ok hcustody hinj hlive hsettle hok rfl rfl rfl)

/-- Around every event of a run without a handover the program's own controller is in office and
the coverage law holds up to what the transaction owes. -/
theorem Run.coverage_law {rt : Runtime} (hinj : NonceInjective rt) {es : List Event} {s : State}
    (h : Run rt es s) (hkept : ∀ e ∈ es, ¬ AcceptsController e) :
    (s.stake_vault.controller = dispute_config_address ∧ CoverageLaw rt [] s)
      ∧ ∀ e ∈ es, (e.pre.stake_vault.controller = dispute_config_address
          ∧ CoverageLaw rt (e.ix :: e.after) e.pre)
        ∧ e.post.stake_vault.controller = dispute_config_address
          ∧ CoverageLaw rt e.after e.post := by
  have hahead := Run.coverage_ahead hinj h
  refine TxMachine.Run.invariant_lookahead (G := (· ∈ es))
    (P := fun rest s => s.stake_vault.controller = dispute_config_address ∧ CoverageLaw rt rest s)
    ?_ ?_ ?_ h fun _ he => he
  · intro s₀ h₀
    obtain ⟨_, _, _, _, _, _, _, rfl, -⟩ := genesis_ok h₀
    refine ⟨rfl, fun hash => .inl (.of_none (Finmap.lookup_empty _) fun k i hi _ => ?_)⟩
    exact absurd hi (by simp [initial_state])
  · rintro s₀ ixs ⟨hcontroller, hlaw⟩
    exact ⟨hcontroller, fun hash => .inl (hlaw.ok hash)⟩
  · rintro e he hv ⟨hcontroller, hlaw⟩
    obtain ⟨⟨hledger, hcustody⟩, hcoverage⟩ := hahead e he
    refine ⟨?_, hlaw.step hinj hv hledger hcustody hcoverage hcontroller⟩
    -- only an accepted handover changes the controller
    rcases (lifecycle_move hv).intent_write hledger.coverage with hframe | ⟨hframe, -⟩
    · rcases hframe.controller with hsame | haccepts
      · exact hsame.trans hcontroller
      · exact absurd haccepts (hkept e he)
    · exact hframe.controller.trans hcontroller

/-- Between transactions no hash is in the middle of anything, so the plain law holds of all of
them. -/
theorem Run.coverage_ok {rt : Runtime} (hinj : NonceInjective rt) {es : List Event} {s : State}
    (h : Run rt es s) (hkept : ∀ e ∈ es, ¬ AcceptsController e) (hash : Bytes 32) :
    CoverageOk s hash := by
  obtain ⟨⟨-, hlaw⟩, -⟩ := Run.coverage_law hinj h hkept
  exact hlaw.ok hash

/-- The coverage law of one hash, as it reads after a committed transaction. -/
structure CoverageSound (s : State) (hash : Bytes 32) : Prop where
  pending_iff : (∃ c, s.dispute_intents.lookup (coverage_of hash) = some c ∧ c.status = .Pending)
    ↔ ∃ k i, s.intents.lookup k = some i ∧ i.intent_hash = hash ∧ i.dispute_covered = true
  pending : ∀ c k i, s.dispute_intents.lookup (coverage_of hash) = some c → c.status = .Pending →
    s.intents.lookup k = some i → i.intent_hash = hash → i.dispute_covered = true →
    ∃ l, s.stake_locks.lookup (lock_of hash) = some l ∧ PendingAgrees c l i
  settled : ∀ c, s.dispute_intents.lookup (coverage_of hash) = some c → c.status = .Settled →
    NoIntent s hash ∧ ∃ l, s.stake_locks.lookup (lock_of hash) = some l ∧ SettledAgrees c l
  terminal : ∀ c, s.dispute_intents.lookup (coverage_of hash) = some c → c.status.terminal →
    NoIntent s hash ∧ s.stake_locks.lookup (lock_of hash) = none

/-- The law in the words of the claim on statuses, locks and intents. -/
theorem CoverageOk.sound {rt : Runtime} {s : State} {hash : Bytes 32} (h : CoverageOk s hash)
    (hs : CustodyInv rt s) (hinj : NonceInjective rt) : CoverageSound s hash where
  pending_iff := by
    constructor
    · rintro ⟨c, hc, hstatus⟩
      obtain ⟨k, i, _, hi, hhash, hcovered, -⟩ := h.pending hc hstatus
      exact ⟨k, i, hi, hhash, hcovered⟩
    · rintro ⟨k, i, hi, hhash, hcovered⟩
      rcases h.live hs hinj hi hhash with ⟨huncovered, -⟩ | ⟨-, c, l, hc, hpending, -⟩
      · rw [huncovered] at hcovered
        cases hcovered
      · exact ⟨c, hc, hpending⟩
  pending := by
    intro c k i hc _ hi hhash hcovered
    rcases h.live hs hinj hi hhash with ⟨huncovered, -⟩ | ⟨-, c', l, hc', -, hl, hagrees⟩
    · rw [huncovered] at hcovered
      cases hcovered
    · rw [hc] at hc'
      cases hc'
      exact ⟨l, hl, hagrees⟩
  settled _ hc hstatus := h.settled hc hstatus
  terminal _ hc hstatus := h.terminal hc hstatus

/-- In every run without an accepted handover, after every committed transaction, coverage, intent
and collateral of every hash are in step. -/
theorem coverage_sound {rt : Runtime} (hinj : NonceInjective rt) {es : List Event} {s : State}
    (h : Run rt es s) (hkept : ∀ e ∈ es, ¬ AcceptsController e) (hash : Bytes 32) :
    CoverageSound s hash := by
  obtain ⟨⟨-, hcustody⟩, -⟩ := Run.custody hinj h
  exact (Run.coverage_ok hinj h hkept hash).sound hcustody hinj

/-- Coverage of the sample cluster, pending. -/
theorem coverage_sound_pending :
    ∃ es s, NonceInjective sample_runtime ∧ Run sample_runtime es s
      ∧ (∀ e ∈ es, ¬ AcceptsController e)
      ∧ (∃ c, s.dispute_intents.lookup (coverage_of sample_hash) = some c ∧ c.status = .Pending)
      ∧ CoverageSound s sample_hash := by
  obtain ⟨es, s, hrun, hgood⟩ := sample_reaches [sample_setup, sample_cover]
    (fun es s => (es.all fun e => !accepts_controller e)
      && (s.dispute_intents.lookup (coverage_of sample_hash)).any
        fun c : DisputeIntent => decide (c.status = .Pending)) (by decide +kernel)
  simp only [Bool.and_eq_true, List.all_eq_true, Option.any_eq_true, decide_eq_true_eq] at hgood
  have hkept : ∀ e ∈ es, ¬ AcceptsController e := fun e he => not_accepts_controller (hgood.1 e he)
  exact ⟨es, s, sample_nonce_injective, hrun, hkept, hgood.2,
    coverage_sound sample_nonce_injective hrun hkept sample_hash⟩

end Zkp2pSolana
