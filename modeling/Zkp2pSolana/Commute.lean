/-
Ending one intent does not get in the way of ending another.

Each transaction that ends an intent, or the coverage of one, has an `Effect`, and
it has the same effect in every state that is in order and unaffected in what the
transaction reads: the deposit still owes the lock, the owner's counter still
counts the intent, the position still backs the collateral, custody still covers
claims and release. All of that follows from the invariants of the state it runs
in. Between two such transactions on different hashes each therefore goes through
after the other, and the two orders end in the same state.
-/
import Zkp2pSolana.Effects
import Zkp2pSolana.ExitArithmetic

set_option autoImplicit false

namespace Zkp2pSolana

open Result Zkp2pError

/-! ## Terminal transactions -/

/-- The transactions that end an intent or its coverage. The owner of a covered intent cancels the
coverage and the intent together. -/
inductive Terminal where
  | cancel_intent (accounts : CancelIntent)
  | cancel_covered (dispute : CancelDispute) (accounts : CancelIntent)
  | prune_expired_intent (accounts : PruneExpiredIntent)
  | fulfill_intent (accounts : FulfillIntent) (args : FulfillIntentArgs)
  | manual_release (accounts : ManualRelease)
  | release_matured_dispute (accounts : ReleaseMaturedDispute)
  | submit_dispute (accounts : SubmitDispute) (args : SubmitDisputeArgs)

namespace Terminal

def instructions : Terminal → List TopLevel
  | cancel_intent accounts => [.program (.cancel_intent accounts)]
  | cancel_covered dispute accounts =>
    [.program (.cancel_dispute dispute), .program (.cancel_intent accounts)]
  | prune_expired_intent accounts => [.program (.prune_expired_intent accounts)]
  | fulfill_intent accounts args => [.program (.fulfill_intent accounts args)]
  | manual_release accounts => [.program (.manual_release accounts)]
  | release_matured_dispute accounts => [.program (.release_matured_dispute accounts)]
  | submit_dispute accounts args => [.program (.submit_dispute accounts args)]

/-- The hash of the intent the transaction is about. -/
def intent_hash (s : State) : Terminal → Option (Bytes 32)
  | cancel_intent accounts | cancel_covered _ accounts =>
    (s.intents.lookup accounts.intent).map Intent.intent_hash
  | prune_expired_intent accounts => (s.intents.lookup accounts.intent).map Intent.intent_hash
  | fulfill_intent accounts _ => (s.intents.lookup accounts.intent).map Intent.intent_hash
  | manual_release accounts => (s.intents.lookup accounts.intent).map Intent.intent_hash
  | release_matured_dispute accounts =>
    (s.dispute_intents.lookup accounts.dispute_intent).map DisputeIntent.intent_hash
  | submit_dispute _ args => some args.attestation.intent_hash

/-- The nullifier of the payment the transaction consumes. -/
def payment_nullifier : Terminal → Option (Bytes 32)
  | fulfill_intent _ args => some args.expected_nullifier
  | _ => none

/-- The nullifier of the dispute the transaction consumes. -/
def dispute_nullifier : Terminal → Option (Bytes 32)
  | submit_dispute _ args => some args.expected_dispute_nullifier
  | _ => none

/-- The transaction as one step. -/
def run (rt : Runtime) (ctx : TxContext) : Terminal → State → ProgramResult State
  | cancel_intent accounts, s => handle_cancel_intent accounts s
  | cancel_covered dispute accounts, s => do
    let s ← handle_cancel_dispute (some accounts) dispute s
    handle_cancel_intent accounts s
  | prune_expired_intent accounts, s => handle_prune_expired_intent ctx accounts s
  | fulfill_intent accounts args, s => handle_fulfill_intent rt ctx accounts args s
  | manual_release accounts, s => handle_manual_release ctx accounts s
  | release_matured_dispute accounts, s => handle_release_matured_dispute ctx accounts s
  | submit_dispute accounts args, s => handle_submit_dispute rt accounts args s

end Terminal

/-- A transaction of one instruction. -/
theorem exec_singleton {rt : Runtime} {ctx : TxContext} {ix : TopLevel} {s s' : State} :
    (∃ es, TxMachine.Exec (step rt) ctx [] [ix] s es s') ↔ ix.execute rt ctx [] [] s = .ok s' := by
  constructor
  · rintro ⟨es, h⟩
    cases h with
    | cons hstep hrest =>
      cases hrest
      exact hstep
  · intro h
    exact ⟨_, .cons h .nil⟩

/-- Running the transaction's handlers in a row is executing its instructions. -/
theorem Terminal.run_iff {rt : Runtime} {ctx : TxContext} {tx : Terminal} {s s' : State} :
    (∃ es, TxMachine.Exec (step rt) ctx [] tx.instructions s es s') ↔ tx.run rt ctx s = .ok s' := by
  cases tx with
  | cancel_covered dispute accounts =>
    simp only [Terminal.run, bind_eq_ok]
    constructor
    · rintro ⟨es, h⟩
      cases h with
      | cons hstep hrest =>
        cases hrest with
        | cons hstep' hrest' =>
          cases hrest'
          exact ⟨_, hstep, hstep'⟩
    · rintro ⟨s₁, h, h'⟩
      exact ⟨_, .cons h (.cons h' .nil)⟩
  | _ => exact exec_singleton

/-! ## What the state is known to satisfy -/

/-- The invariants of a state without a handover of the collateral. -/
structure InOrder (rt : Runtime) (s : State) : Prop where
  ledger : LedgerOk s
  custody : CustodyInv rt s
  owners : OwnersOk s
  solvent : Solvent s
  collateral : CollateralOk s

theorem Run.in_order {rt : Runtime} {es : List Event} {s : State} (h : Run rt es s)
    (hkept : ∀ e ∈ es, ¬ AcceptsController e) : InOrder rt s := by
  obtain ⟨⟨hledger, hcustody, -⟩, -⟩ := Run.own_locks h
  exact ⟨hledger, hcustody, (Run.owners h).1, (Run.solvent h).1.2, Run.collateral h hkept⟩

/-! ## The effect of a transaction -/

/-- By how much the balances of `U` differ from those of `T`. -/
def moved (T U : Accounts TokenAccount) (k : Pubkey) : ℤ := (balance U k : ℤ) - balance T k

/-- The transaction `run`, which went from `s` to `s'`, has the effect `e` in every state in order
that is unaffected in what it reads. -/
structure HasEffect (rt : Runtime) (run : State → ProgramResult State) (s s' : State)
    (e : Effect) : Prop where
  intent : ∀ c ∈ e.closing, ∃ i, s.intents.lookup c.key = some i ∧ i.intent_hash = e.hash
  fresh : ∀ n ∈ e.binding,
    s.payment_bindings.lookup (payment_binding_address verifier_address n) = none
  tokens : SameAccounts s.tokens s'.tokens
  replay : ∀ t, InOrder rt t → Unaffected e s t → SameAccounts s.tokens t.tokens →
    ∃ U, run t = .ok (e.apply { t with tokens := U })
      ∧ Shifted (moved s.tokens t.tokens) s'.tokens U

/-- A transaction that moves no tokens and binds no payment. -/
theorem HasEffect.of_still {rt : Runtime} {run : State → ProgramResult State} {s s' : State}
    {e : Effect}
    (hintent : ∀ c ∈ e.closing, ∃ i, s.intents.lookup c.key = some i ∧ i.intent_hash = e.hash)
    (hbinding : e.binding = none) (htokens : s'.tokens = s.tokens)
    (hreplay : ∀ t, InOrder rt t → Unaffected e s t → run t = .ok (e.apply t)) :
    HasEffect rt run s s' e where
  intent := hintent
  fresh n hn := by
    rw [hbinding] at hn
    cases hn
  tokens := by
    rw [htokens]
    exact .refl _
  replay t ht hun haccounts := by
    refine ⟨t.tokens, hreplay t ht hun, ?_⟩
    rw [htokens]
    exact haccounts.shifted

/-! ## Closing an intent again -/

/-- The closing of a live intent that returns `returned` of its lock. -/
def closing_of (k : Pubkey) (live : LiveIntent) (returned : ℕ) : Closing where
  key := k
  deposit := live.intent.deposit
  owner := live.intent.owner
  locked := live.lock.amount
  returned := returned

/-- `live'` is the live intent `live` as `t` has it: the amounts of its deposit and the counter of
its owner may be others. -/
structure LiveAgain (t : State) (k : Pubkey) (live live' : LiveIntent) : Prop where
  found : live_intent k t = .ok live'
  intent : live'.intent = live.intent
  lock : live'.lock = live.lock
  terms : SameTerms live.deposit live'.deposit
  taker : live'.taker_state.taker = live.intent.owner
  active : 1 ≤ live'.taker_state.active_intents

section Closing

variable {rt : Runtime} {s t t₁ : State} {k : Pubkey} {live live' : LiveIntent} {e : Effect} {r : ℕ}

/-- The terminals find in an unaffected state the same intent and the same lock, with a deposit of
the same terms. -/
theorem live_intent_again (h : live_intent k s = .ok live) (ht : InOrder rt t)
    (hun : Unaffected e s t) (hhash : live.intent.intent_hash = e.hash)
    (hkey : ∃ c ∈ e.closing, c.key = k) : ∃ live', LiveAgain t k live live' := by
  obtain ⟨hi, hk, hd, hl, -⟩ := live_intent_ok h
  obtain ⟨c, hc, rfl⟩ := hkey
  rw [← hun.intents c hc] at hi
  rw [hhash, ← hun.intent_locks] at hl
  obtain ⟨d, hd', hterms⟩ := hun.deposits _ _ hd
  obtain ⟨taker, htaker, howner, hactive⟩ := ht.owners.state hi
  refine ⟨⟨live.intent, d, live.lock, taker⟩, ?_, rfl, rfl, hterms, howner, hactive⟩
  simp only [live_intent, bind_eq_ok, load_eq_ok, require_eq_ok, exists_const, pure_eq_ok]
  rw [← hhash] at hl
  exact ⟨_, hi, hk, _, hd', _, hl, _, htaker, rfl⟩

/-- Its lock is on its deposit. -/
theorem InOrder.lock_deposit (ht : InOrder rt t) (h : live_intent k t = .ok live) :
    Paired live.intent live.lock := by
  obtain ⟨hi, -, -, hl, -⟩ := live_intent_ok h
  obtain ⟨l, hl', hpaired⟩ := (ht.custody.intents k _ hi).lock
  rw [hl] at hl'
  cases hl'
  exact hpaired

/-- The deposit found there can take the lock back, whatever its amounts are by then. -/
theorem LiveAgain.unlock (h : LiveAgain t k live live') (ht : InOrder rt t) :
    live'.deposit.unlock live'.lock.amount
      = .ok (live'.deposit.without_lock live.lock.amount live.lock.amount) := by
  obtain ⟨-, -, hd, hl, -⟩ := live_intent_ok h.found
  obtain ⟨d, hunlock⟩ :=
    ht.custody.unlock_ok ht.ledger.tokens hl (ht.lock_deposit h.found).deposit hd
  obtain ⟨-, -, -, hd'⟩ := Deposit.unlock_ok hunlock
  rw [hunlock, hd', h.lock]
  rfl

theorem LiveAgain.settle (h : LiveAgain t k live live') (ht : InOrder rt t) (hpos : 0 < r)
    (hle : r ≤ live.lock.amount) :
    live'.deposit.settle live'.lock.amount r
      = .ok (live'.deposit.without_lock live.lock.amount (live.lock.amount - r)) := by
  obtain ⟨-, -, hd, hl, -⟩ := live_intent_ok h.found
  rw [← h.lock] at hle
  obtain ⟨d, hsettle⟩ :=
    ht.custody.settle_ok ht.ledger.tokens hl (ht.lock_deposit h.found).deposit hd hpos hle
  obtain ⟨-, -, -, -, hd'⟩ := Deposit.settle_ok hsettle
  rw [hsettle, hd', h.lock]
  rfl

/-- Closing it is the closing of `live`. -/
theorem LiveAgain.closed (h : LiveAgain t k live live') (hdeposits : t₁.deposits = t.deposits)
    (htakers : t₁.taker_states = t.taker_states) (r : ℕ) :
    closed_state k live' (live'.deposit.without_lock live.lock.amount r) t₁
      = (closing_of k live r).apply live.intent.intent_hash t₁ := by
  obtain ⟨-, -, hd, -, htaker⟩ := live_intent_ok h.found
  rw [h.intent, ← hdeposits] at hd
  rw [h.intent, ← htakers] at htaker
  have hdeposit := Finmap.insert_eq_alter hd fun d => d.without_lock live.lock.amount r
  have hcounter := Finmap.insert_eq_alter htaker TakerIntentState.lowered
  unfold TakerIntentState.lowered at hcounter
  unfold closed_state Closing.apply closing_of TakerIntentState.lowered
  dsimp only
  rw [h.intent, hdeposit, hcounter]

end Closing

/-! ## Resolving collateral again -/

/-- The whole lock is returned and the coverage takes the status. -/
def resolved_as (status : DisputeStatus) (d : DisputeIntent) (l : StakeLock) : Resolution where
  stake_owner := d.stake_owner
  freed := l.amount
  charged := 0
  lock := none
  record := { d with status := status }

/-- The lock shrinks to what is released, until the window has passed. -/
def settled_as (ctx : TxContext) (released : ℕ) (d : DisputeIntent) (l : StakeLock) :
    Resolution where
  stake_owner := d.stake_owner
  freed := l.amount - released
  charged := 0
  lock := some { l with amount := released, matures_at := ctx.now + d.risk_window }
  record := { d with
    release_amount := released
    release_eligible_at := ctx.now + d.risk_window
    status := .Settled }

section Coverage

variable {rt : Runtime} {ctx : TxContext} {s s' t : State} {e : Effect} {d : DisputeIntent}
  {l : StakeLock} {p p' : StakePosition}

/-- Where the lock is covered, `unlock` is the function the effect applies. -/
theorem StakePosition.unlock_eq {x : ℕ} (h : x ≤ p.locked) : p.unlock x = .ok (p.released x 0) := by
  simp only [StakePosition.unlock, bind_eq_ok, ok_or_eq_ok, Checked.sub_eq_some, pure_eq_ok]
  exact ⟨_, ⟨h, rfl⟩, rfl⟩

/-- The position that backs a lock, as `t` has it. -/
theorem InOrder.position (ht : InOrder rt t) (hun : Unaffected e s t)
    (hl : s.stake_locks.lookup (lock_of e.hash) = some l)
    (hp : s.stake_positions.lookup (position_of d.stake_owner) = some p)
    (howner : l.stake_owner = p.owner) :
    ∃ q, t.stake_positions.lookup (position_of d.stake_owner) = some q ∧ l.stake_owner = q.owner
      ∧ l.amount ≤ q.locked := by
  obtain ⟨q, hq, hsame⟩ := hun.stake_positions _ p hp
  rw [← hsame] at howner
  refine ⟨q, hq, howner, ?_⟩
  -- the position at an owner's address is that owner's
  have hat := (ht.ledger.stake.position_at hq).owner
  rw [← hat, ← howner] at hq
  rw [← hun.stake_locks] at hl
  exact ht.collateral.backed.le_locked hl hq

/-- What cancelled coverage in `s` cancels it in any state that is unaffected. -/
theorem CoverageCancelled.again (h : CoverageCancelled s s' e.hash d l p p') (ht : InOrder rt t)
    (hun : Unaffected e s t) :
    ∃ q q', CoverageCancelled t ((resolved_as .Cancelled d l).apply e.hash t) e.hash d l q q' := by
  obtain ⟨q, hq, howner, hle⟩ := ht.position hun h.lock h.position h.owner
  refine ⟨q, q.released l.amount 0, hun.dispute_intents.trans h.dispute_eq, h.pending,
    hun.stake_locks.trans h.lock, hq, howner, StakePosition.unlock_eq hle, ?_⟩
  rw [Finmap.insert_eq_alter hq fun q => q.released l.amount 0]
  rfl

theorem CoverageSettled.again {i : Intent} {r : ℕ} (h : CoverageSettled ctx s s' i r d l p p')
    (hhash : i.intent_hash = e.hash) (ht : InOrder rt t) (hun : Unaffected e s t) :
    ∃ q q', CoverageSettled ctx t ((settled_as ctx r d l).apply e.hash t) i r d l q q' := by
  have hlock := h.lock
  have hcoverage := h.dispute_eq
  rw [hhash] at hlock hcoverage
  obtain ⟨q, hq, howner, hle⟩ := ht.position hun hlock h.position h.owner
  refine ⟨q, q.released (l.amount - r) 0, ?_, h.pending, h.positive, ?_, hq, howner, h.bounded, ?_, ?_⟩
  · rw [hhash, hun.dispute_intents, hcoverage]
  · rw [hhash, hun.stake_locks, hlock]
  · -- a lock released in full leaves the position as it is
    by_cases hpos : 0 < l.amount - r
    · rw [if_pos hpos]
      exact StakePosition.unlock_eq (by omega)
    · have hzero : l.amount - r = 0 := by omega
      rw [if_neg hpos, hzero]
      rfl
  · rw [Finmap.insert_eq_alter hq fun q => q.released (l.amount - r) 0, hhash]
    rfl

end Coverage

/-! ## Cancelling -/

section Cancel

variable {rt : Runtime} {ctx : TxContext} {s s' : State}

/-- A cancellation goes through again where the same evidence about the coverage is found. -/
theorem cancel_intent_replay {accounts : CancelIntent}
    (h : handle_cancel_intent accounts s = .ok s') :
    ∃ live, live_intent accounts.intent s = .ok live ∧ s'.tokens = s.tokens
      ∧ ∀ t live', LiveAgain t accounts.intent live live' →
        live'.deposit.unlock live'.lock.amount
          = .ok (live'.deposit.without_lock live.lock.amount live.lock.amount) →
        load_opt t.dispute_intents accounts.resolved_dispute
          = load_opt s.dispute_intents accounts.resolved_dispute →
        handle_cancel_intent accounts t
          = .ok ((closing_of accounts.intent live live.lock.amount).apply
              live.intent.intent_hash t) := by
  simp only [handle_cancel_intent, bind_eq_ok, signer_eq_ok, require_eq_ok, exists_const,
    close_intent_ok] at h ⊢
  obtain ⟨hsign, live, hlive, howner, horchestrator, hhash, hlock, resolved, hresolved, -, u,
    hcheck, deposit, -, -, rfl⟩ := h
  refine ⟨live, hlive, rfl, ?_⟩
  intro t live' hsame hunlock hload
  -- each check is repeated on what `t` holds, and `t` agrees on everything the check reads
  refine ⟨hsign, live', hsame.found, ?_, ?_, ?_, ?_, resolved, hload.trans hresolved, ?_, u, ?_, _,
    hunlock, hsame.active, hsame.closed rfl rfl live.lock.amount⟩
  · rw [hsame.intent]
    exact howner
  · rw [hsame.intent]
    exact horchestrator
  · rw [hsame.lock, hsame.intent]
    exact hhash
  · rw [hsame.lock]
    exact hlock
  · rw [hsame.taker]
    exact howner.symm
  · rw [hsame.intent]
    exact hcheck

/-- A cancellation has an effect: the records it writes depend on its own intent alone. -/
theorem cancel_intent_effect {accounts : CancelIntent} (hs : InOrder rt s)
    (h : handle_cancel_intent accounts s = .ok s') :
    ∃ e, (s.intents.lookup accounts.intent).map Intent.intent_hash = some e.hash
      ∧ e.binding = none ∧ e.credit.map Credit.nullifier = none
      ∧ HasEffect rt (handle_cancel_intent accounts) s s' e := by
  obtain ⟨live, hlive, htokens, hreplay⟩ := cancel_intent_replay h
  obtain ⟨live₀, resolved, _, hlive₀, -, -, hresolved, hcheck, -⟩ := cancel_intent_ok h
  rw [hlive] at hlive₀
  cases hlive₀
  obtain ⟨hi, -⟩ := live_intent_ok hlive
  refine ⟨⟨live.intent.intent_hash, some (closing_of accounts.intent live live.lock.amount), none,
    none, none⟩, by rw [hi]; rfl, rfl, rfl, ?_⟩
  refine .of_still ?_ rfl htokens ?_
  · intro c hc
    cases hc
    exact ⟨live.intent, hi, rfl⟩
  · intro t ht hun
    obtain ⟨live', hsame⟩ := live_intent_again hlive ht hun rfl ⟨_, rfl, rfl⟩
    refine hreplay t live' hsame (hsame.unlock ht) ?_
    -- the evidence is the intent's own coverage, or none is asked for
    unfold check_resolved at hcheck
    by_cases hcovered : live.intent.dispute_covered = true
    · rw [if_pos hcovered] at hcheck
      simp only [bind_eq_ok, ok_or_eq_ok, require_eq_ok] at hcheck
      obtain ⟨a, rfl, hhash, -⟩ := hcheck
      have hfound := load_opt_some hresolved
      have hkey := (hs.ledger.coverage _ _ hfound).1
      rw [hhash] at hkey
      have hfound' : t.dispute_intents.lookup a.key = some a.data := by
        rw [hkey, hun.dispute_intents, ← hkey]
        exact hfound
      rw [hresolved, load_opt_again hresolved hfound']
    · rw [if_neg hcovered, require_eq_ok] at hcheck
      rw [hresolved, load_opt_none_again hresolved hcheck]

/-- The owner's cancellation of a covered intent: first the coverage, then the intent. -/
theorem cancel_covered_effect {dispute : CancelDispute} {accounts : CancelIntent}
    (hs : InOrder rt s)
    (h : (Terminal.cancel_covered dispute accounts).run rt ctx s = .ok s') :
    ∃ e, (s.intents.lookup accounts.intent).map Intent.intent_hash = some e.hash
      ∧ e.binding = none ∧ e.credit.map Credit.nullifier = none
      ∧ HasEffect rt ((Terminal.cancel_covered dispute accounts).run rt ctx) s s' e := by
  simp only [Terminal.run, bind_eq_ok] at h
  obtain ⟨s₁, hdispute, hcancel⟩ := h
  obtain ⟨i, d, l, p, p', cancel, hi, hnext, hintent, hcancelled, hreplay⟩ :=
    cancel_dispute_replay hs.ledger.coverage hdispute
  cases hnext
  obtain ⟨_, _, _, _, _, _, hi', -, -, hnext, -, hresolved⟩ :=
    cancel_dispute_ok hs.ledger.coverage hdispute
  cases hnext
  rw [hi] at hi'
  cases hi'
  obtain ⟨live, hlive, htokens, hreplay'⟩ := cancel_intent_replay hcancel
  -- cancelling coverage leaves the intent alone
  have hlive' : live_intent accounts.intent s = .ok live := by
    rw [hcancelled.post] at hlive
    exact hlive
  obtain ⟨hi', -⟩ := live_intent_ok hlive'
  rw [hintent, hi] at hi'
  cases hi'
  refine ⟨⟨live.intent.intent_hash, some (closing_of accounts.intent live live.lock.amount),
    some (resolved_as .Cancelled d l), none, none⟩, by rw [hintent, hi]; rfl, rfl, rfl, ?_⟩
  refine .of_still ?_ rfl (htokens.trans (congrArg (·.tokens) hcancelled.post)) ?_
  · intro c hc
    cases hc
    exact ⟨live.intent, by rw [← hi, ← hintent]; rfl, rfl⟩
  · intro t ht hun
    obtain ⟨live', hsame⟩ := live_intent_again hlive' ht hun rfl ⟨_, rfl, rfl⟩
    obtain ⟨q, q', hagain⟩ := CoverageCancelled.again hcancelled ht hun
    obtain ⟨hfound, -⟩ := live_intent_ok hsame.found
    rw [hintent, hsame.intent] at hfound
    have hgo := hreplay t _ q q' hfound hagain
    have hload : load_opt ((resolved_as .Cancelled d l).apply live.intent.intent_hash t).dispute_intents
        accounts.resolved_dispute = load_opt s₁.dispute_intents accounts.resolved_dispute := by
      rw [hresolved, hcancelled.post, load_opt_found (Finmap.lookup_insert s.dispute_intents)]
      exact load_opt_found (Finmap.lookup_insert _)
    have hsame' : LiveAgain ((resolved_as .Cancelled d l).apply live.intent.intent_hash t)
        accounts.intent live live' :=
      ⟨hsame.found, hsame.intent, hsame.lock, hsame.terms, hsame.taker, hsame.active⟩
    simp only [Terminal.run, bind_eq_ok]
    exact ⟨_, hgo, hreplay' _ live' hsame' (hsame.unlock ht) hload⟩

end Cancel

/-! ## Pruning -/

section Prune

variable {rt : Runtime} {ctx : TxContext} {s s₁ s' : State}

/-- What a prune does to the coverage, if there is any. -/
theorem prune_dispute_effect (rt : Runtime) {i : Intent} {accounts : PruneDisputeAccounts}
    (h : prune_dispute accounts i s = .ok s₁) :
    ∃ o : Option Resolution, s₁.tokens = s.tokens ∧ ∀ e t, e.hash = i.intent_hash →
      InOrder rt t → Unaffected e s t →
      prune_dispute accounts i t = .ok (o.elim id (Resolution.apply e.hash) t) := by
  rcases prune_dispute_replay h with ⟨-, rfl, hreplay⟩ | ⟨-, d, l, p, p', hcancelled, hreplay⟩
  · exact ⟨none, rfl, fun _ t _ _ _ => hreplay t⟩
  · refine ⟨some (resolved_as .Cancelled d l), congrArg (·.tokens) hcancelled.post, ?_⟩
    intro e t hhash ht hun
    rw [← hhash] at hcancelled hreplay
    obtain ⟨q, q', hagain⟩ := hcancelled.again ht hun
    exact hreplay t _ q q' hun.dispute_config hagain

theorem prune_expired_intent_effect {accounts : PruneExpiredIntent}
    (h : handle_prune_expired_intent ctx accounts s = .ok s') :
    ∃ e, (s.intents.lookup accounts.intent).map Intent.intent_hash = some e.hash
      ∧ e.binding = none ∧ e.credit.map Credit.nullifier = none
      ∧ HasEffect rt (handle_prune_expired_intent ctx accounts) s s' e := by
  simp only [handle_prune_expired_intent, bind_eq_ok, signer_eq_ok, require_eq_ok, exists_const,
    close_intent_ok] at h
  obtain ⟨hsign, live, hlive, hlock, hexpired, s₁, hprune, deposit, -, -, rfl⟩ := h
  obtain ⟨o, htokens, hreplay⟩ := prune_dispute_effect rt hprune
  obtain ⟨hi, -⟩ := live_intent_ok hlive
  refine ⟨⟨live.intent.intent_hash, some (closing_of accounts.intent live live.lock.amount), o,
    none, none⟩, by rw [hi]; rfl, rfl, rfl, ?_⟩
  refine .of_still ?_ rfl htokens ?_
  · intro c hc
    cases hc
    exact ⟨live.intent, hi, rfl⟩
  · intro t ht hun
    obtain ⟨live', hsame⟩ := live_intent_again hlive ht hun rfl ⟨_, rfl, rfl⟩
    -- the coverage is cancelled first, so what it wrote is part of the state the intent is closed
    -- in
    have hgo : prune_dispute accounts.dispute live'.intent t
        = .ok (o.elim id (Resolution.apply live.intent.intent_hash) t) := by
      have hagain := hreplay _ t rfl ht hun
      rw [hsame.intent]
      exact hagain
    simp only [handle_prune_expired_intent, bind_eq_ok, signer_eq_ok, require_eq_ok, exists_const,
      close_intent_ok]
    refine ⟨hsign, live', hsame.found, ?_, ?_, _, hgo, _, hsame.unlock ht, hsame.active, ?_⟩
    · rw [hsame.lock]
      exact hlock
    · rw [hsame.lock]
      exact hexpired
    · refine hsame.closed ?_ ?_ live.lock.amount
      all_goals cases o <;> rfl

end Prune

/-! ## Settling -/

section Settle

variable {rt : Runtime} {ctx : TxContext} {s s₁ s' t : State} {k : Pubkey} {live live' : LiveIntent}

/-- What a settlement does to the coverage, if there is any. -/
theorem settle_dispute_effect (rt : Runtime) {i : Intent} {accounts : SettlementDisputeAccounts} {r : ℕ}
    (h : settle_dispute_if_covered ctx i accounts r s = .ok s₁) :
    ∃ o : Option Resolution, ∀ e t, e.hash = i.intent_hash → InOrder rt t → Unaffected e s t →
      settle_dispute_if_covered ctx i accounts r t
        = .ok (o.elim id (Resolution.apply e.hash) t) := by
  rcases settle_dispute_replay h with ⟨-, -, hreplay⟩ | ⟨-, d, l, p, p', hsettled, hreplay⟩
  · exact ⟨none, fun _ t _ _ _ => hreplay t⟩
  · refine ⟨some (settled_as ctx r d l), ?_⟩
    intro e t hhash ht hun
    obtain ⟨q, q', hagain⟩ := hsettled.again hhash.symm ht hun
    exact hreplay t _ q q' hun.controller hagain

/-- The terms include the seeds of the deposit's address. -/
theorem SameTerms.seeds {d d' : Deposit} (h : SameTerms d d') : SameSeeds d d' :=
  ⟨h.escrow_config, h.id, h.token_mint⟩

/-- The vault of a live intent's deposit covers its lock. -/
theorem InOrder.vault_covers (ht : InOrder rt t) (h : live_intent k t = .ok live) :
    ∃ a, t.tokens.lookup (deposit_vault_address live.intent.deposit) = some a
      ∧ live.lock.amount ≤ a.amount := by
  obtain ⟨-, -, hd, hl, -⟩ := live_intent_ok h
  obtain ⟨⟨a, ha⟩, houtstanding, -⟩ := ht.custody.deposits _ _ hd
  have hamount : live.lock.amount ≤ t.locked_amount live.lock.deposit :=
    Finmap.le_owed EscrowIntentLock.deposit EscrowIntentLock.amount hl
  rw [(ht.lock_deposit h).deposit] at hamount
  have hcovers := ha.covers
  unfold Deposit.liability at hcovers
  exact ⟨a, ha.found, by omega⟩

/-- A settlement replayed in an unaffected state closes the same intent, resolves the same coverage
and pays the same amounts from the same accounts. -/
theorem settle_intent_effect {tokens : SettlementTokenAccounts} {dispute : SettlementDisputeAccounts}
    {remaining_accounts : List AccountInfo} {r : ℕ} (hs : InOrder rt s)
    (hlive : live_intent k s = .ok live)
    (h : settle_intent ctx k live tokens dispute remaining_accounts r s = .ok s') :
    ∃ o : Option Resolution, SameAccounts s.tokens s'.tokens ∧ ∀ e t live',
      e.hash = live.intent.intent_hash → InOrder rt t → Unaffected e s t →
      SameAccounts s.tokens t.tokens → LiveAgain t k live live' →
      ∃ U, settle_intent ctx k live' tokens dispute remaining_accounts r t
          = .ok ((closing_of k live (live.lock.amount - r)).apply e.hash
              (o.elim id (Resolution.apply e.hash) { t with tokens := U }))
        ∧ Shifted (moved s.tokens t.tokens) s'.tokens U := by
  obtain ⟨s₁, deposit, T, hdispute, hdeposit, hpaid, hpost⟩ := settle_intent_ok h
  obtain ⟨hpos, hle, -⟩ := Deposit.settle_ok hdeposit
  obtain ⟨o, hreplay⟩ := settle_dispute_effect rt hdispute
  obtain ⟨_, _, _, _, hpayments⟩ := settle_intent_payments h
  refine ⟨o, pay_all_accounts hpayments, ?_⟩
  intro e t live' hhash ht hun haccounts hsame
  have hgo := hreplay e t hhash ht hun
  -- the vault of `t` still covers what is released
  have henough : 0 ≤ balance s'.tokens (deposit_vault_address live.intent.deposit)
      + moved s.tokens t.tokens (deposit_vault_address live.intent.deposit) := by
    obtain ⟨a, ha, -⟩ := hs.vault_covers hlive
    obtain ⟨a', ha', -, -, hx⟩ := hpaid.source a ha
    obtain ⟨b, hb, hcovers⟩ := ht.vault_covers hsame.found
    rw [hsame.intent] at hb
    rw [hsame.lock] at hcovers
    have hleft : s'.tokens.lookup (deposit_vault_address live.intent.deposit) = some a' := by
      rw [hpost]
      exact ha'
    unfold moved
    rw [balance_eq ha, balance_eq hb, balance_eq hleft]
    omega
  have hoffers : OffersSettlement (moved s.tokens t.tokens) s s' t live live' :=
    { fees := by
        rw [hun.orchestrator]
        exact ⟨rfl, rfl⟩
      tokens := haccounts.shifted
      tokensOk := ht.ledger.tokens
      enough := henough
      intent := hsame.intent
      seeds := hsame.terms.seeds
      active := hsame.active }
  obtain ⟨U, hsettle, hU⟩ := settle_intent_replay h hoffers hgo (hsame.settle ht hpos hle)
  have hclosed : closed_state k live'
      (live'.deposit.without_lock live.lock.amount (live.lock.amount - r))
      { o.elim id (Resolution.apply e.hash) t with tokens := U } = _ :=
    hsame.closed (by cases o <;> rfl) (by cases o <;> rfl) (live.lock.amount - r)
  refine ⟨U, ?_, hU⟩
  rw [hsettle, hclosed, hhash]
  cases o <;> rfl

theorem manual_release_effect {accounts : ManualRelease} (hs : InOrder rt s)
    (h : handle_manual_release ctx accounts s = .ok s') :
    ∃ e, (s.intents.lookup accounts.intent).map Intent.intent_hash = some e.hash
      ∧ e.binding = none ∧ e.credit.map Credit.nullifier = none
      ∧ HasEffect rt (handle_manual_release ctx accounts) s s' e := by
  simp only [handle_manual_release, bind_eq_ok, signer_eq_ok, require_eq_ok, exists_const] at h
  obtain ⟨hsign, live, hlive, howner, hlock, hsettle⟩ := h
  obtain ⟨o, haccounts, hreplay⟩ := settle_intent_effect hs hlive hsettle
  obtain ⟨hi, -⟩ := live_intent_ok hlive
  refine ⟨⟨live.intent.intent_hash,
    some (closing_of accounts.intent live (live.lock.amount - live.intent.amount)), o, none, none⟩,
    by rw [hi]; rfl, rfl, rfl, ?_, ?_, haccounts, ?_⟩
  · intro c hc
    cases hc
    exact ⟨live.intent, hi, rfl⟩
  · intro n hn
    cases hn
  · intro t ht hun htokens
    obtain ⟨live', hsame⟩ := live_intent_again hlive ht hun rfl ⟨_, rfl, rfl⟩
    -- the payments of `s`, made from the balances of `t`
    obtain ⟨U, hgo, hU⟩ := hreplay _ t live' rfl ht hun htokens hsame
    refine ⟨U, ?_, hU⟩
    simp only [handle_manual_release, bind_eq_ok, signer_eq_ok, require_eq_ok, exists_const]
    refine ⟨hsign, live', hsame.found, ?_, ?_, ?_⟩
    · rw [hsame.terms.depositor]
      exact howner
    · rw [hsame.lock, hsame.intent]
      exact hlock
    · rw [hsame.intent]
      exact hgo

/-- A fulfilment has one, with the binding of its payment as part of it. -/
theorem fulfill_intent_effect {accounts : FulfillIntent} {args : FulfillIntentArgs}
    (hs : InOrder rt s) (h : handle_fulfill_intent rt ctx accounts args s = .ok s') :
    ∃ e, (s.intents.lookup accounts.intent).map Intent.intent_hash = some e.hash
      ∧ e.binding = some args.expected_nullifier ∧ e.credit.map Credit.nullifier = none
      ∧ HasEffect rt (handle_fulfill_intent rt ctx accounts args) s s' e := by
  simp only [handle_fulfill_intent, bind_eq_ok, signer_eq_ok, init_eq_ok, require_eq_ok,
    exists_const, pure_eq_ok] at h
  obtain ⟨hsign, hpaused, hconfig, live, hlive, hhash, hlock, hpayment, hbound, nullifier, hverify,
    rfl, s₁, hsettle, rfl⟩ := h
  obtain ⟨o, haccounts, hreplay⟩ := settle_intent_effect hs hlive hsettle
  obtain ⟨hi, -⟩ := live_intent_ok hlive
  refine ⟨⟨live.intent.intent_hash, some (closing_of accounts.intent live (live.lock.amount
    - Min.min args.attestation.release_amount live.intent.amount)), o, none,
    some args.expected_nullifier⟩, by rw [hi]; rfl, rfl, rfl, ?_, ?_, haccounts, ?_⟩
  · intro c hc
    cases hc
    exact ⟨live.intent, hi, rfl⟩
  · intro n hn
    cases hn
    exact hpayment
  · intro t ht hun htokens
    obtain ⟨live', hsame⟩ := live_intent_again hlive ht hun rfl ⟨_, rfl, rfl⟩
    obtain ⟨U, hgo, hU⟩ := hreplay _ t live' rfl ht hun htokens hsame
    -- the release depends on the intent and the attestation, which are the same in `t`
    have hreleased : Min.min args.attestation.release_amount live'.intent.amount
        = Min.min args.attestation.release_amount live.intent.amount := by rw [hsame.intent]
    refine ⟨U, ?_, hU⟩
    simp only [handle_fulfill_intent, bind_eq_ok, signer_eq_ok, init_eq_ok, require_eq_ok,
      exists_const, pure_eq_ok]
    rw [hun.orchestrator, hun.verifier]
    refine ⟨hsign, hpaused, hconfig, live', hsame.found, ?_, ?_, ?_, ?_, args.expected_nullifier, ?_,
      rfl, _, (congrArg (settle_intent ctx accounts.intent live' accounts.tokens accounts.dispute
        accounts.remaining_accounts · t) hreleased).trans hgo, ?_⟩
    · rw [hsame.intent]
      exact hhash
    · rw [hsame.lock, hsame.intent]
      exact hlock
    -- the other transaction binds another payment, so this one is still unbound
    · rw [hun.payment_fresh _ rfl]
      exact hpayment
    · rw [hsame.intent]
      exact hun.intent_payment_bindings.trans hbound
    · rw [hsame.intent]
      exact hverify
    · rw [hsame.intent]
      cases o <;> rfl

end Settle

/-! ## Releasing and disputing -/

section Dispute

variable {rt : Runtime} {ctx : TxContext} {s s' t : State}

theorem release_matured_dispute_effect {accounts : ReleaseMaturedDispute} (hs : InOrder rt s)
    (h : handle_release_matured_dispute ctx accounts s = .ok s') :
    ∃ e, (s.dispute_intents.lookup accounts.dispute_intent).map DisputeIntent.intent_hash
        = some e.hash
      ∧ e.binding = none ∧ e.credit.map Credit.nullifier = none
      ∧ HasEffect rt (handle_release_matured_dispute ctx accounts) s s' e := by
  simp only [handle_release_matured_dispute, bind_eq_ok, signer_eq_ok, load_eq_ok, require_eq_ok,
    exists_const, Prod.exists, pure_eq_ok] at h
  obtain ⟨hsign, d, hd, p, hp, l, hl, hkey, released, amount, hrelease, hamount, p', -, rfl⟩ := h
  have hrelease' := hrelease
  obtain ⟨-, -, -, rfl⟩ := DisputeIntent.release_ok hrelease'
  obtain ⟨hcoverage, hconfig⟩ := hs.ledger.coverage _ d hd
  -- the lock is the coverage's, and so of the owner whose position is freed
  have howner : l.stake_owner = p.owner := by
    obtain ⟨d', hd', hnamed⟩ := hs.collateral.named _ l hl
    rw [← hcoverage, hd] at hd'
    cases hd'
    rw [hnamed, (hs.ledger.stake.position_at hp).owner]
  refine ⟨⟨d.intent_hash, none, some (resolved_as .Released d l), none, none⟩, by rw [hd]; rfl, rfl,
    rfl, .of_still ?_ rfl rfl ?_⟩
  · intro c hc
    cases hc
  · intro t ht hun
    obtain ⟨q, hq, -, hle⟩ := ht.position hun hl hp howner
    have hd' : t.dispute_intents.lookup accounts.dispute_intent = some d := by
      rw [hcoverage]
      exact hun.dispute_intents.trans (hcoverage ▸ hd)
    have hl' : t.stake_locks.lookup (lock_of d.intent_hash) = some l := hun.stake_locks.trans hl
    have hunlock : q.unlock amount = .ok (q.released l.amount 0) := by
      rw [hamount]
      exact StakePosition.unlock_eq hle
    simp only [handle_release_matured_dispute, bind_eq_ok, signer_eq_ok, load_eq_ok, require_eq_ok,
      exists_const, Prod.exists, pure_eq_ok]
    refine ⟨hsign, d, hd', q, hq, l, hl', hkey, _, amount, hrelease, hamount, _, hunlock, ?_⟩
    rw [Finmap.insert_eq_alter hq fun q => q.released l.amount 0, hcoverage]
    rfl

/-- Evidence that was accepted is accepted again while its payment is bound as before. -/
theorem verify_dispute_evidence_again {e : Effect} {args : SubmitDisputeArgs} {d : DisputeIntent}
    {n : Bytes 32} (h : verify_dispute_evidence rt args d s = .ok n)
    (hhash : args.attestation.intent_hash = e.hash) (hun : Unaffected e s t) :
    verify_dispute_evidence rt args d t = .ok n := by
  simp only [verify_dispute_evidence, bind_eq_ok, load_eq_ok, require_eq_ok, exists_const,
    pure_eq_ok] at h ⊢
  obtain ⟨b, hb, b', hb', hrest⟩ := h
  rw [hun.verifier, hun.dispute_config]
  refine ⟨b, hun.payment_bound _ b hb, b', ?_, hrest⟩
  rw [hhash] at hb' ⊢
  exact hun.intent_payment_bindings.trans hb'

/-- Where lock and principal cover the charge, `resolve` is the function the effect applies. -/
theorem StakePosition.resolve_eq {p : StakePosition} {x c : ℕ} (hx : x ≤ p.locked) (hc : c ≤ x)
    (hbalance : c ≤ p.balance) : p.resolve x c = .ok (p.released x c) := by
  simp only [StakePosition.resolve, bind_eq_ok, require_eq_ok, exists_const, ok_or_eq_ok,
    Checked.sub_eq_some, pure_eq_ok]
  exact ⟨hc, _, StakePosition.unlock_eq hx, _, ⟨hbalance, rfl⟩, rfl⟩

/-- Where the sum fits a word, crediting a claim is the function the effect applies. -/
theorem credited_claim_eq {c : ClaimBalance} {depositor : Pubkey} {x : ℕ}
    (hword : c.amount + x < 2 ^ 64) : credited_claim c depositor x = .ok (c.credited depositor x) := by
  simp only [credited_claim, bind_eq_ok, ok_or_eq_ok, Checked.add_eq_some]
  refine ⟨_, ⟨hword, rfl⟩, ?_⟩
  unfold ClaimBalance.credited
  split_ifs <;> rfl

/-- A dispute has an effect: it resolves its coverage and credits the depositor, under its own
nullifier. -/
theorem submit_dispute_effect {accounts : SubmitDispute} {args : SubmitDisputeArgs}
    (hs : InOrder rt s) (h : handle_submit_dispute rt accounts args s = .ok s') :
    ∃ e, args.attestation.intent_hash = e.hash ∧ e.binding = none
      ∧ e.credit.map Credit.nullifier = some args.expected_dispute_nullifier
      ∧ HasEffect rt (handle_submit_dispute rt accounts args) s s' e := by
  simp only [handle_submit_dispute, submit_dispute_controller, bind_eq_ok, signer_eq_ok, load_eq_ok,
    init_eq_ok, require_eq_ok, exists_const, Prod.exists, ok_or_eq_ok, Checked.sub_eq_some,
    Checked.add_eq_some, pure_eq_ok] at h
  obtain ⟨hsign, hverifier, d, hd, hconfig, hfresh, ⟨hvault, hcontroller⟩, p, hp, l, hl, howner, n,
    hverify, disputed, amount, hdispute, hamount, _, -, _, -, _, -, c, -, rfl⟩ := h
  have hdispute' := hdispute
  obtain ⟨-, -, rfl⟩ := DisputeIntent.dispute_ok hdispute'
  rw [← (hs.ledger.stake.position_at hp).owner] at howner
  refine ⟨⟨args.attestation.intent_hash, none,
    some ⟨d.stake_owner, l.amount, l.amount, none, { d with status := .Disputed }⟩,
    some ⟨d.depositor, l.amount, args.expected_dispute_nullifier,
      ⟨dispute_config_address, n, args.attestation.intent_hash⟩⟩, none⟩, rfl, rfl, rfl,
    .of_still ?_ rfl rfl ?_⟩
  · intro c hc
    cases hc
  · intro t ht hun
    obtain ⟨q, hq, -, hle⟩ := ht.position hun hl hp howner
    have hd' : t.dispute_intents.lookup (coverage_of args.attestation.intent_hash) = some d :=
      hun.dispute_intents.trans hd
    have hl' : t.stake_locks.lookup (lock_of args.attestation.intent_hash) = some l :=
      hun.stake_locks.trans hl
    -- what is locked is part of the balance, and the balance of what is staked
    have hbalance := ht.solvent.covered _ q hq
    have hresolve : q.resolve l.amount l.amount = .ok (q.released l.amount l.amount) :=
      StakePosition.resolve_eq hle le_rfl (hle.trans hbalance)
    obtain ⟨hstaked, hclaimable⟩ := ht.solvent.resolve ht.ledger.tokens hq hresolve
    have hclaim := ht.solvent.init_claim_le
      (claim_balance_address stake_vault_address d.depositor)
    have hcredit : credited_claim (init_if_needed t.claims
        (claim_balance_address stake_vault_address d.depositor)) d.depositor l.amount = .ok _ :=
      credited_claim_eq (by omega)
    rw [← hun.dispute_config] at hverifier hvault
    rw [← hun.controller] at hcontroller
    simp only [handle_submit_dispute, submit_dispute_controller, bind_eq_ok, signer_eq_ok,
      load_eq_ok, init_eq_ok, require_eq_ok, exists_const, Prod.exists, ok_or_eq_ok,
      Checked.sub_eq_some, Checked.add_eq_some, pure_eq_ok]
    subst hamount
    refine ⟨hsign, hverifier, d, hd', hconfig, ?_, ⟨hvault, hcontroller⟩, q, hq, l, hl', ?_, n,
      verify_dispute_evidence_again hverify rfl hun, _, _, hdispute, rfl, _, hresolve, _,
      ⟨hstaked, rfl⟩, _, ⟨hclaimable, rfl⟩, _, hcredit, ?_⟩
    · exact (hun.dispute_nullifiers _ rfl).trans hfresh
    · rw [howner, (hs.ledger.stake.position_at hp).owner]
    · rw [Finmap.insert_eq_alter hq fun q => q.released l.amount l.amount]
      rfl

end Dispute

/-! ## The diamond -/

section Diamond

variable {rt : Runtime} {ctx : TxContext} {s s' s₁ s₂ : State}

/-- Every terminal transaction that goes through has an effect on its hash. -/
theorem Terminal.effect {tx : Terminal} (hs : InOrder rt s) (h : tx.run rt ctx s = .ok s') :
    ∃ e, tx.intent_hash s = some e.hash ∧ e.binding = tx.payment_nullifier
      ∧ e.credit.map Credit.nullifier = tx.dispute_nullifier
      ∧ HasEffect rt (tx.run rt ctx) s s' e := by
  cases tx with
  | cancel_intent accounts => exact cancel_intent_effect hs h
  | cancel_covered dispute accounts => exact cancel_covered_effect hs h
  | prune_expired_intent accounts => exact prune_expired_intent_effect h
  | fulfill_intent accounts args => exact fulfill_intent_effect hs h
  | manual_release accounts => exact manual_release_effect hs h
  | release_matured_dispute accounts => exact release_matured_dispute_effect hs h
  | submit_dispute accounts args =>
    obtain ⟨e, hhash, hrest⟩ := submit_dispute_effect hs h
    exact ⟨e, congrArg some hhash, hrest⟩

/-- The state it ends in is the effect applied to the state it started from. -/
theorem HasEffect.post {run : State → ProgramResult State} {e : Effect}
    (h : HasEffect rt run s s' e) (hs : InOrder rt s) (hrun : run s = .ok s') :
    s' = e.apply { s with tokens := s'.tokens } := by
  obtain ⟨U, hagain, -⟩ := h.replay s hs (.refl e s) (.refl _)
  rw [hrun] at hagain
  cases hagain
  have htokens : (e.apply { s with tokens := U }).tokens = U := by rw [← Effect.apply_tokens]
  rw [htokens]

/-- What a transaction reads of the other records does not depend on the tokens. -/
theorem Unaffected.of_tokens (e : Effect) (s : State) (T : Accounts TokenAccount) :
    Unaffected e s { s with tokens := T } :=
  { Unaffected.refl e s with }

/-- A transaction leaves unaffected what an effect apart from its own reads. This is where the two
orders come from: each transaction can be replayed after the other. -/
theorem HasEffect.unaffected {run : State → ProgramResult State} {e e' : Effect}
    (h : HasEffect rt run s s' e) (hs : InOrder rt s) (hrun : run s = .ok s') (hapart : e.Apart e') :
    Unaffected e' s s' := by
  rw [h.post hs hrun]
  exact (Unaffected.of_tokens e' s s'.tokens).trans (Effect.unaffected hapart h.fresh)

/-- Two transactions whose effects are apart go through one after the other, in either order to the
same state. -/
theorem HasEffect.diamond {run₁ run₂ : State → ProgramResult State} {e₁ e₂ : Effect}
    (h₁ : HasEffect rt run₁ s s₁ e₁) (h₂ : HasEffect rt run₂ s s₂ e₂) (hapart : e₁.Apart e₂)
    (hs : InOrder rt s) (hs₁ : InOrder rt s₁) (hs₂ : InOrder rt s₂) (hrun₁ : run₁ s = .ok s₁)
    (hrun₂ : run₂ s = .ok s₂) : ∃ t, run₂ s₁ = .ok t ∧ run₁ s₂ = .ok t := by
  obtain ⟨U, hgo, hU⟩ := h₂.replay s₁ hs₁ (h₁.unaffected hs hrun₁ hapart) h₁.tokens
  obtain ⟨V, hgo', hV⟩ := h₁.replay s₂ hs₂ (h₂.unaffected hs hrun₂ hapart.symm) h₂.tokens
  -- every balance moved by what the one and what the other transaction moved
  have htokens : U = V := by
    have haccounts : SameAccounts V U :=
      ((h₁.tokens.trans hV.accounts).symm.trans h₂.tokens).trans hU.accounts
    refine haccounts.ext fun k => ?_
    have hu := hU.amount k
    have hv := hV.amount k
    unfold moved at hu hv
    omega
  have hpost₁ := h₁.post hs hrun₁
  have hpost₂ := h₂.post hs hrun₂
  have hstate : e₂.apply { s₁ with tokens := U } = e₁.apply { s₂ with tokens := V } := by
    rw [hpost₁, hpost₂, Effect.apply_tokens e₁, Effect.apply_tokens e₂, htokens]
    exact (Effect.commute hapart _).symm
  rw [← hstate] at hgo'
  exact ⟨_, hgo, hgo'⟩

end Diamond

/-- No terminal transaction hands the collateral over. -/
theorem Terminal.keeps_controller {rt : Runtime} {ctx : TxContext} {tx : Terminal} {s s' : State}
    {es : List Event} (h : TxMachine.Exec (step rt) ctx [] tx.instructions s es s') :
    ∀ e ∈ es, ¬ AcceptsController e := by
  rintro e he ⟨accounts, hix⟩
  have hmem := h.ix_mem e he
  rw [hix] at hmem
  cases tx <;> simp [Terminal.instructions] at hmem

/-- A terminal transaction leads from a state in order to a state in order. -/
theorem InOrder.commit {rt : Runtime} {ctx : TxContext} {tx : Terminal} {es es' : List Event}
    {s s' : State} (h : Run rt es s) (hkept : ∀ e ∈ es, ¬ AcceptsController e)
    (hexec : TxMachine.Exec (step rt) ctx [] tx.instructions s es' s') : InOrder rt s' := by
  refine Run.in_order (TxMachine.Run.commit h hexec) fun e he => ?_
  rcases List.mem_append.mp he with he | he
  · exact hkept e he
  · exact Terminal.keeps_controller hexec e he

/-- Two terminal transactions on different hashes, with different nullifiers, that both go through
in a state reached without a handover, go through one after the other, in either order to the same
state. -/
theorem terminal_transactions_commute {rt : Runtime} {es : List Event} {s : State}
    (h : Run rt es s) (hkept : ∀ e ∈ es, ¬ AcceptsController e) {tx₁ tx₂ : Terminal}
    {ctx₁ ctx₂ : TxContext} {es₁ es₂ : List Event} {s₁ s₂ : State}
    (h₁ : TxMachine.Exec (step rt) ctx₁ [] tx₁.instructions s es₁ s₁)
    (h₂ : TxMachine.Exec (step rt) ctx₂ [] tx₂.instructions s es₂ s₂)
    (hhash : tx₁.intent_hash s ≠ tx₂.intent_hash s)
    (hpayment : ∀ n ∈ tx₁.payment_nullifier, n ∉ tx₂.payment_nullifier)
    (hdispute : ∀ n ∈ tx₁.dispute_nullifier, n ∉ tx₂.dispute_nullifier) :
    ∃ s' es₁' es₂', TxMachine.Exec (step rt) ctx₂ [] tx₂.instructions s₁ es₂' s'
      ∧ TxMachine.Exec (step rt) ctx₁ [] tx₁.instructions s₂ es₁' s' := by
  have hs := Run.in_order h hkept
  have hrun₁ := Terminal.run_iff.mp ⟨es₁, h₁⟩
  have hrun₂ := Terminal.run_iff.mp ⟨es₂, h₂⟩
  obtain ⟨e₁, hhash₁, hbinding₁, hcredit₁, heffect₁⟩ := Terminal.effect hs hrun₁
  obtain ⟨e₂, hhash₂, hbinding₂, hcredit₂, heffect₂⟩ := Terminal.effect hs hrun₂
  have hne : e₁.hash ≠ e₂.hash := by
    intro heq
    rw [hhash₁, hhash₂, heq] at hhash
    exact hhash rfl
  have hapart : e₁.Apart e₂ :=
    { hash := hne
      key := by
        -- one key, one intent, one hash
        intro c hc c' hc' hkey
        obtain ⟨i, hi, hi₁⟩ := heffect₁.intent c hc
        obtain ⟨i', hi', hi₂⟩ := heffect₂.intent c' hc'
        rw [hkey, hi'] at hi
        cases hi
        exact hne (hi₁.symm.trans hi₂)
      nullifier := by
        intro c hc c' hc' heq
        have hmem := Option.mem_map_of_mem Credit.nullifier hc
        have hmem' := Option.mem_map_of_mem Credit.nullifier hc'
        rw [hcredit₁] at hmem
        rw [hcredit₂, ← heq] at hmem'
        exact hdispute _ hmem hmem'
      binding := by
        intro n hn n' hn' heq
        rw [hbinding₁] at hn
        rw [hbinding₂, ← heq] at hn'
        exact hpayment n hn hn' }
  obtain ⟨t, hgo, hgo'⟩ := heffect₁.diamond heffect₂ hapart hs (InOrder.commit h hkept h₁)
    (InOrder.commit h hkept h₂) hrun₁ hrun₂
  obtain ⟨es₂', hexec⟩ := Terminal.run_iff.mpr hgo
  obtain ⟨es₁', hexec'⟩ := Terminal.run_iff.mpr hgo'
  exact ⟨t, es₁', es₂', hexec, hexec'⟩

/-- The hash of the second intent. -/
def sample_second_hash : Bytes 32 := derive_intent_hash sample_runtime orchestrator_address 1

/-- Another taker covers an intent on the same deposit and signals it. -/
def sample_second_cover : TxContext × List TopLevel :=
  (sample_ctx 2500,
    [.program (.prepare_dispute ⟨sample_staker, sample_deposit, none, false, sample_staker⟩
        ⟨sample_second_hash, sample_word 21, 50⟩),
      .program (.signal_intent
        { sample_signal with
          taker := sample_staker
          dispute_intent := some (coverage_of sample_second_hash)
          risk_window := some (risk_window_address dispute_config_address (sample_word 21)) }
        { sample_signal_args with
          expected_intent_hash := sample_second_hash
          amount := 50
          recipient := sample_staker })])

/-- The first intent of the deposit is released to its taker. -/
def sample_first_terminal : Terminal :=
  .manual_release ⟨sample_depositor, sample_intent, sample_settlement_tokens,
    sample_settlement_dispute, []⟩

/-- The second one is cancelled by its owner. -/
def sample_second_terminal : Terminal :=
  .cancel_covered
    ⟨sample_staker, intent_address orchestrator_address 1, coverage_of sample_second_hash⟩
    ⟨sample_staker, intent_address orchestrator_address 1, some (coverage_of sample_second_hash)⟩

/-- A release and a cancellation on one deposit. -/
theorem terminal_transactions_commute_released :
    ∃ es s s' es₁ es₂ s₁ s₂ es₁' es₂', Run sample_runtime es s
      ∧ sample_first_terminal.intent_hash s ≠ sample_second_terminal.intent_hash s
      ∧ TxMachine.Exec (step sample_runtime) (sample_ctx 3000) []
        sample_first_terminal.instructions s es₁ s₁
      ∧ TxMachine.Exec (step sample_runtime) (sample_ctx 3000) []
        sample_second_terminal.instructions s es₂ s₂
      ∧ TxMachine.Exec (step sample_runtime) (sample_ctx 3000) []
        sample_second_terminal.instructions s₁ es₂' s'
      ∧ TxMachine.Exec (step sample_runtime) (sample_ctx 3000) []
        sample_first_terminal.instructions s₂ es₁' s' := by
  obtain ⟨es, s, hrun, hgood⟩ := sample_reaches [sample_setup, sample_cover, sample_second_cover]
    (fun es s => es.all (fun e => !accepts_controller e)
      && decide (sample_first_terminal.intent_hash s ≠ sample_second_terminal.intent_hash s)
      && (sample_first_terminal.run sample_runtime (sample_ctx 3000) s).toOption.isSome
      && (sample_second_terminal.run sample_runtime (sample_ctx 3000) s).toOption.isSome)
    (by decide +kernel)
  simp only [Bool.and_eq_true, List.all_eq_true, decide_eq_true_eq] at hgood
  obtain ⟨⟨⟨hkept, hhash⟩, hfirst⟩, hsecond⟩ := hgood
  obtain ⟨s₁, hs₁⟩ := exists_of_isSome hfirst
  obtain ⟨s₂, hs₂⟩ := exists_of_isSome hsecond
  obtain ⟨es₁, hexec₁⟩ := Terminal.run_iff.mpr hs₁
  obtain ⟨es₂, hexec₂⟩ := Terminal.run_iff.mpr hs₂
  obtain ⟨s', es₁', es₂', hgo, hgo'⟩ := terminal_transactions_commute hrun
    (fun e he => not_accepts_controller (hkept e he)) hexec₁ hexec₂ hhash
    (fun n hn => by cases hn) (fun n hn => by cases hn)
  exact ⟨es, s, s', es₁, es₂, s₁, s₂, es₁', es₂', hrun, hhash, hexec₁, hexec₂, hgo, hgo'⟩

end Zkp2pSolana
