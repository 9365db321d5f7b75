/-
Cancelling and pruning are the same transition.

The owner unwinds an intent with one or two instructions that look at each other
through the instruction sysvar; anyone may unwind an expired one with a single
instruction that checks the derived addresses by hand. Both are the same change of
the ledger: the coverage, if there is any, is cancelled and its lock returned to
the position it was taken from, and then the intent is closed. Neither looks at
the controller of the stake vault, so they agree after a handover too, also where
the new controller has taken the collateral away and both fail.
-/
import Zkp2pSolana.Expiry

set_option autoImplicit false

namespace Zkp2pSolana

open Result Zkp2pError

/-- The owner's transaction: the coverage first, when there is one. -/
def owner_cancel (k : Pubkey) (i : Intent) : List TopLevel :=
  if i.dispute_covered = true then cancel_transaction k i
  else [.program (.cancel_intent { owner := i.owner, intent := k, resolved_dispute := none })]

/-- The accounts a prune of the intent takes: of a covered one its coverage record, the position
that record names, and the lock. -/
def canonical_prune (caller k : Pubkey) (i : Intent) (s : State) : PruneExpiredIntent :=
  if i.dispute_covered = true then
    { caller := caller
      intent := k
      dispute :=
        { dispute_config := true
          dispute_intent := some (coverage_of i.intent_hash)
          stake_vault := true
          stake_position := (s.coverage_at i.intent_hash).map fun c => position_of c.stake_owner
          stake_lock := some (lock_of i.intent_hash) } }
  else uncovered_prune caller k

section Paths

variable {rt : Runtime} {ctx : TxContext} {s s' : State} {k : Pubkey} {live : LiveIntent}
  {d : Deposit}

/-- The accounts a pruning has to name are determined by the intent and its coverage. -/
theorem canonical_prune_covered {i : Intent} {c : DisputeIntent} (hcovered : i.dispute_covered = true)
    (hc : s.coverage_at i.intent_hash = some c) (caller : Pubkey) :
    canonical_prune caller k i s = prune_accounts caller k i c := by
  unfold canonical_prune prune_accounts
  rw [if_pos hcovered, hc]
  rfl

/-- The change both make to a covered intent. -/
def UnwindsCovered (s : State) (k : Pubkey) (live : LiveIntent) (d : Deposit) (s' : State) : Prop :=
  ∃ s₁ c l p p', CoverageCancelled s s₁ live.intent.intent_hash c l p p'
    ∧ s' = closed_state k live d s₁

/-- The pair that cancels coverage and intent leads to exactly one state. -/
theorem cancel_covered_iff (hs : Closable s k live)
    (hcanonical : CoverageCanonical s.toDisputeRecords)
    (hcovered : live.intent.dispute_covered = true)
    (hd : live.deposit.unlock live.lock.amount = .ok d) :
    (∃ es, TxMachine.Exec (step rt) ctx [] (cancel_transaction k live.intent) s es s')
      ↔ UnwindsCovered s k live d s' := by
  constructor
  · rintro ⟨es, hexec⟩
    cases hexec with
    | @cons _ _ _ _ s₁ _ _ hdispute hrest =>
      cases hrest with
      | cons hintent hrest =>
        cases hrest with
        | nil =>
          obtain ⟨hi, -⟩ := live_intent_ok hs.found
          obtain ⟨i, c, l, p, p', _, hi', -, hcancelled, -⟩ := cancel_dispute_ok hcanonical hdispute
          rw [hi] at hi'
          cases hi'
          -- the second instruction closes what `live_intent` found before the first
          obtain ⟨live', _, d', hlive, -, -, -, -, hunlock, rfl⟩ := cancel_intent_ok hintent
          have hfound := (hcancelled.closable hs).found
          rw [hlive] at hfound
          cases hfound
          rw [hd] at hunlock
          cases hunlock
          exact ⟨s₁, c, l, p, p', hcancelled, rfl⟩
  · rintro ⟨s₁, c, l, p, p', hcancelled, rfl⟩
    exact hcancelled.cancel hs hcanonical hcovered hd ctx

theorem prune_covered_iff (hs : Closable s k live)
    (hvault : s.dispute_config.stake_vault = stake_vault_address)
    (hcovered : live.intent.dispute_covered = true)
    (hd : live.deposit.unlock live.lock.amount = .ok d) {caller : Pubkey}
    (hcaller : caller.can_sign = true) (hexpired : live.lock.expiry_time < ctx.now) :
    handle_prune_expired_intent ctx (canonical_prune caller k live.intent s) s = .ok s'
      ↔ UnwindsCovered s k live d s' := by
  constructor
  · intro h
    obtain ⟨live', s₁, d', hlive, -, hprune, hunlock, rfl⟩ := prune_expired_intent_ok h
    have hkey : (canonical_prune caller k live.intent s).intent = k := by
      unfold canonical_prune
      rw [if_pos hcovered]
    rw [hkey, hs.found] at hlive
    cases hlive
    rw [hd] at hunlock
    cases hunlock
    rcases prune_dispute_ok hprune with ⟨huncovered, -⟩ | ⟨-, c, l, p, p', hcancelled⟩
    · rw [hcovered] at huncovered
      cases huncovered
    · exact ⟨s₁, c, l, p, p', hcancelled, by rw [hkey]⟩
  · rintro ⟨s₁, c, l, p, p', hcancelled, rfl⟩
    rw [canonical_prune_covered hcovered hcancelled.dispute_eq]
    exact hs.prune rfl hcaller hexpired (hcancelled.prune_dispute hcovered hvault caller) hd

/-- Without coverage the cancellation alone leads to the closed state. -/
theorem cancel_uncovered_iff (hs : Closable s k live)
    (huncovered : live.intent.dispute_covered = false)
    (hd : live.deposit.unlock live.lock.amount = .ok d) :
    (∃ es, TxMachine.Exec (step rt) ctx [] [.program (.cancel_intent
        { owner := live.intent.owner, intent := k, resolved_dispute := none })] s es s')
      ↔ s' = closed_state k live d s := by
  constructor
  · rintro ⟨es, hexec⟩
    cases hexec with
    | cons hintent hrest =>
      cases hrest with
      | nil =>
        obtain ⟨live', _, d', hlive, -, -, -, -, hunlock, rfl⟩ := cancel_intent_ok hintent
        rw [hs.found] at hlive
        cases hlive
        rw [hd] at hunlock
        cases hunlock
        rfl
  · rintro rfl
    have hresolved : check_resolved live.intent none = .ok () := by
      unfold check_resolved
      rw [huncovered]
      rfl
    exact ⟨_, .cons (hs.cancel_intent rfl hresolved hd) .nil⟩

theorem prune_uncovered_iff (hs : Closable s k live)
    (huncovered : live.intent.dispute_covered = false)
    (hd : live.deposit.unlock live.lock.amount = .ok d) {caller : Pubkey}
    (hcaller : caller.can_sign = true) (hexpired : live.lock.expiry_time < ctx.now) :
    handle_prune_expired_intent ctx (uncovered_prune caller k) s = .ok s'
      ↔ s' = closed_state k live d s := by
  rw [hs.prune rfl hcaller hexpired (prune_dispute_uncovered huncovered caller k) hd, ok_eq_ok]
  exact eq_comm

end Paths

/-- In every state a run reaches, and for every live intent whose lock has expired, the owner's
transaction leads to a state exactly if a prune by any caller leads to that same state: both succeed
or both fail, and what they leave is the same in every record. -/
theorem cancel_iff_prune {rt : Runtime} {es : List Event} {s : State} (h : Run rt es s) {k : Pubkey}
    {i : Intent} {l : EscrowIntentLock} (hi : s.intents.lookup k = some i)
    (hl : s.intent_locks.lookup (intent_lock_address i.deposit i.intent_hash) = some l)
    {ctx : TxContext} (hexpired : l.expiry_time < ctx.now) {caller : Pubkey}
    (hcaller : caller.can_sign = true) (s' : State) :
    (∃ es', TxMachine.Exec (step rt) ctx [] (owner_cancel k i) s es' s')
      ↔ ∃ es', TxMachine.Exec (step rt) ctx []
        [.program (.prune_expired_intent (canonical_prune caller k i s))] s es' s' := by
  obtain ⟨live, rfl, hs⟩ := Run.closable h hi
  obtain ⟨-, -, -, hfound, -⟩ := live_intent_ok hs.found
  rw [hfound] at hl
  cases hl
  obtain ⟨d, hd⟩ := hs.unlock
  -- a single instruction, so the transaction is its handler
  have hprune : (∃ es', TxMachine.Exec (step rt) ctx []
      [.program (.prune_expired_intent (canonical_prune caller k live.intent s))] s es' s')
      ↔ handle_prune_expired_intent ctx (canonical_prune caller k live.intent s) s = .ok s' := by
    constructor
    · rintro ⟨es', hexec⟩
      cases hexec with
      | cons hstep hrest =>
        cases hrest with
        | nil => exact hstep
    · intro hok
      exact ⟨_, .cons hok .nil⟩
  rw [hprune]
  -- with coverage the owner needs two instructions, and both ways cancel it; without, one is enough
  by_cases hcovered : live.intent.dispute_covered = true
  · rw [owner_cancel, if_pos hcovered,
      cancel_covered_iff hs (Run.ledgerOk h).1.coverage hcovered hd,
      prune_covered_iff hs (Run.owners h).1.collateral_vault hcovered hd hcaller hexpired]
  · have huncovered : live.intent.dispute_covered = false := by simpa using hcovered
    rw [owner_cancel, if_neg hcovered, canonical_prune, if_neg hcovered,
      cancel_uncovered_iff hs huncovered hd, prune_uncovered_iff hs huncovered hd hcaller hexpired]

/-- On the sample cluster, after a handover, both unwind the covered intent that was live before. -/
theorem cancel_iff_prune_handover :
    ∃ es s i, Run sample_runtime es s ∧ s.intents.lookup sample_intent = some i
      ∧ i.dispute_covered = true ∧ s.stake_vault.controller = sample_successor
      ∧ ∃ es' s', TxMachine.Exec (step sample_runtime) (sample_ctx 90001) []
        (owner_cancel sample_intent i) s es' s' := by
  obtain ⟨es, s, hrun, hgood⟩ := sample_reaches
    [sample_setup, sample_propose, sample_cover, sample_handover]
    (fun _ s => (s.intents.lookup sample_intent).any fun i : Intent => i.dispute_covered
      && decide (s.stake_vault.controller = sample_successor)
      && (handle_prune_expired_intent (sample_ctx 90001)
        (canonical_prune sample_staker sample_intent i s) s).toOption.isSome
      && (s.intent_locks.lookup (intent_lock_address i.deposit i.intent_hash)).any
        fun l : EscrowIntentLock => decide (l.expiry_time < 90001)) (by decide +kernel)
  simp only [Option.any_eq_true, Bool.and_eq_true, decide_eq_true_eq] at hgood
  obtain ⟨i, hi, ⟨⟨hcovered, hcontroller⟩, hpruned⟩, l, hl, hexpired⟩ := hgood
  obtain ⟨s', hs'⟩ := exists_of_isSome hpruned
  have hexpired : l.expiry_time < (sample_ctx 90001).now := hexpired
  have hsigns : sample_staker.can_sign = true := rfl
  obtain ⟨es', hexec⟩ := (cancel_iff_prune hrun hi hl hexpired hsigns s').mpr ⟨_, .cons hs' .nil⟩
  exact ⟨es, s, i, hrun, hi, hcovered, hcontroller, es', s', hexec⟩

end Zkp2pSolana
