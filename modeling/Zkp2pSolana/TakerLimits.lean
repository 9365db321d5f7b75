/-
The live-intent limit of a taker.

The counter of a taker is raised by its signals and lowered by whoever closes one
of its intents: the taker itself, anyone who prunes, a witness-backed fulfillment
or the depositor. Each of the four finds the counter by the owner snapshotted in
the intent, so it always equals the number of live intents, and a signal that
reads zero from it is the signal of a taker with none.
-/
import Zkp2pSolana.Availability
import Zkp2pSolana.ConfigMoves

set_option autoImplicit false

namespace Zkp2pSolana

open Result Zkp2pError

/-- Configures the orchestrator to allow several live intents of one taker. -/
def AllowsMultiple (e : Event) : Prop :=
  ∃ accounts args, e.ix = .program (.governance (.configure_orchestrator accounts args))
    ∧ args.allow_multiple_intents = some true

/-- No taker has two live intents. -/
def OneLiveIntent (s : State) : Prop :=
  ∀ k k' i i', s.intents.lookup k = some i → s.intents.lookup k' = some i' →
    i.owner = i'.owner → k = k'

section Signal

variable {rt : Runtime} {ctx : TxContext} {ed25519 : List (List UInt8)} {accounts : SignalIntent}
  {args : SignalIntentArgs} {s s' : State}

/-- With one intent allowed, the counter a signal reads is zero. -/
theorem signal_intent_limit (h : handle_signal_intent rt ctx ed25519 accounts args s = .ok s')
    (hone : s.orchestrator.allow_multiple_intents = false) : s.active_of accounts.taker = 0 := by
  simp only [handle_signal_intent, bind_eq_ok, signer_eq_ok, load_eq_ok, init_eq_ok, require_eq_ok,
    exists_const, Prod.exists] at h
  obtain ⟨-, -, _, -, -, -, -, -, -, -, _, _, -, _, -, _, -, hlimit, -⟩ := h
  have hzero := hlimit hone
  unfold OrchestratorRecords.active_of
  unfold init_if_needed at hzero
  cases ht : s.taker_states.lookup (taker_state_address orchestrator_address accounts.taker) with
  | none => rfl
  | some t =>
    rw [ht, Option.getD_some] at hzero
    exact hzero

end Signal

/-! ## One live intent at a time -/

theorem OrchestratorRecords.no_intent {r : OrchestratorRecords} {t : Pubkey}
    (h : r.intent_count t = 0) {k : Pubkey} {i : Intent} (hi : r.intents.lookup k = some i) :
    i.owner ≠ t := by
  rintro rfl
  have hle : 1 ≤ r.intent_count i.owner := Finmap.le_owed Intent.owner (fun _ => 1) hi
  omega

/-- An instruction other than `configure_orchestrator` keeps the limit; that one sets it only when
told to. -/
theorem limit_kept {rt : Runtime} {e : Event} (hv : e.Valid (step rt)) (hnot : ¬ AllowsMultiple e)
    (hone : e.pre.orchestrator.allow_multiple_intents = false) :
    e.post.orchestrator.allow_multiple_intents = false := by
  rcases (config_move hv).orchestrator with hsame | ⟨accounts, args, hix, hok⟩
  · rw [hsame]
    exact hone
  · simp only [handle_configure_orchestrator, bind_eq_ok, pure_eq_ok] at hok
    obtain ⟨_, -, _, -, _, -, _, -, _, -, hpost⟩ := hok
    rw [← hpost]
    show args.allow_multiple_intents.getD e.pre.orchestrator.allow_multiple_intents = false
    cases hargs : args.allow_multiple_intents with
    | none => exact hone
    | some b =>
      cases b with
      | false => rfl
      | true => exact absurd ⟨accounts, args, hix, hargs⟩ hnot

/-- While one intent is allowed, an instruction leaves every taker with at most one. -/
theorem OneLiveIntent.step {rt : Runtime} {e : Event} (hv : e.Valid (step rt))
    (hledger : LedgerOk e.pre) (howners : OwnersOk e.pre)
    (hone : e.pre.orchestrator.allow_multiple_intents = false) (hs : OneLiveIntent e.pre) :
    OneLiveIntent e.post := by
  intro k k' i i' hi hi' howner
  rcases (lifecycle_move hv).intent_write hledger.coverage with hframe | ⟨-, ⟨hsame, -⟩
    | ⟨k₀, _, -, herase, -⟩ | ⟨accounts, args, _, _, _, j, _, _, hix, hsignaled⟩⟩
  · rw [hframe.intents] at hi hi'
    exact hs k k' i i' hi hi' howner
  · rw [hsame] at hi hi'
    exact hs k k' i i' hi hi' howner
  -- what is left after one intent is closed was there before
  · rw [herase, Finmap.lookup_erase_ite] at hi hi'
    split_ifs at hi hi'
    exact hs k k' i i' hi hi' howner
  · -- the signal's own taker had no intent, so the new one shares its owner with no other
    have hok := valid_execute hv hix
    have hcount : e.pre.intent_count accounts.taker = 0 := by
      rw [← howners.active]
      exact signal_intent_limit hok hone
    have hintents : e.post.intents = _ := congrArg (·.intents) hsignaled.post
    have hj := hsignaled.terms.owner
    rw [hintents, Finmap.lookup_insert_ite] at hi hi'
    split_ifs at hi hi' with hk hk' hk'
    · rw [hk, hk']
    · cases hi
      rw [hj] at howner
      exact absurd howner.symm (OrchestratorRecords.no_intent hcount hi')
    · cases hi'
      rw [hj] at howner
      exact absurd howner (OrchestratorRecords.no_intent hcount hi)
    · exact hs k k' i i' hi hi' howner

/-- As long as nobody was allowed several, no taker holds two intents at a time. -/
theorem Run.one_live_intent {rt : Runtime} {es : List Event} {s : State} (h : Run rt es s)
    (hnot : ∀ e ∈ es, ¬ AllowsMultiple e) :
    OneLiveIntent s ∧ ∀ e ∈ es, OneLiveIntent e.pre ∧ OneLiveIntent e.post := by
  have hledger := (Run.ledgerOk h).2
  have howners := (Run.owners h).2
  have hinv := TxMachine.Run.invariant (G := (· ∈ es))
    (I := fun s => s.orchestrator.allow_multiple_intents = false ∧ OneLiveIntent s) ?_ ?_ h
    fun _ he => he
  · exact ⟨hinv.1.2, fun e he => ⟨(hinv.2 e he).1.2, (hinv.2 e he).2.2⟩⟩
  · intro s₀ h₀
    obtain ⟨_, _, _, _, _, _, _, rfl, -⟩ := genesis_ok h₀
    refine ⟨rfl, fun k k' i i' hi _ _ => ?_⟩
    exact absurd hi (by simp [initial_state])
  · intro e he hv hs
    exact ⟨limit_kept hv (hnot e he) hs.1,
      hs.2.step hv (hledger e he).1 (howners e he).1 hs.1⟩

/-! ## Every run -/

/-- In every state of a run the counters count, so a signal under the limit is of a taker without
a live intent, and a run that never lifts the limit never has two live intents of one taker. -/
theorem taker_counters_count {rt : Runtime} {es : List Event} {s : State} (h : Run rt es s) :
    (∀ t, s.active_of t = s.intent_count t)
      ∧ (∀ e ∈ es, ∀ t, e.pre.active_of t = e.pre.intent_count t
        ∧ e.post.active_of t = e.post.intent_count t)
      ∧ (∀ e ∈ es, ∀ accounts args, e.ix = .program (.signal_intent accounts args) →
        e.pre.orchestrator.allow_multiple_intents = false →
        ∀ k i, e.pre.intents.lookup k = some i → i.owner ≠ accounts.taker)
      ∧ ((∀ e ∈ es, ¬ AllowsMultiple e) →
        OneLiveIntent s ∧ ∀ e ∈ es, OneLiveIntent e.pre ∧ OneLiveIntent e.post) := by
  obtain ⟨hs, hes⟩ := Run.owners h
  refine ⟨hs.active, fun e he t => ?_, fun e he accounts args hix hone k i hi => ?_,
    Run.one_live_intent h⟩
  · exact ⟨(hes e he).1.active t, (hes e he).2.active t⟩
  · have hok := valid_execute (TxMachine.Run.valid h e he) hix
    refine OrchestratorRecords.no_intent ?_ hi
    rw [← (hes e he).1.active]
    exact signal_intent_limit hok hone

def allows_multiple (e : Event) : Bool :=
  match e.ix with
  | .program (.governance (.configure_orchestrator _ args)) =>
    decide (args.allow_multiple_intents = some true)
  | _ => false

theorem not_allows_multiple {e : Event} (h : (!allows_multiple e) = true) : ¬ AllowsMultiple e := by
  rintro ⟨accounts, args, hix, hargs⟩
  rw [allows_multiple, hix] at h
  simp [hargs] at h

/-- A run with a covered signal, in which the limit is never lifted. -/
theorem taker_counters_count_signaled :
    ∃ es s, Run sample_runtime es s ∧ s.intent_count sample_taker = 1
      ∧ s.active_of sample_taker = 1 ∧ OneLiveIntent s := by
  obtain ⟨es, s, hrun, hgood⟩ := sample_reaches [sample_setup, sample_cover]
    (fun es s => es.all (fun e => !allows_multiple e)
      && decide (s.active_of sample_taker = 1)) (by decide +kernel)
  rw [Bool.and_eq_true, List.all_eq_true, decide_eq_true_eq] at hgood
  obtain ⟨hcounts, -, -, hlimit⟩ := taker_counters_count hrun
  obtain ⟨hone, -⟩ := hlimit fun e he => not_allows_multiple (hgood.1 e he)
  exact ⟨es, s, hrun, (hcounts sample_taker).symm.trans hgood.2, hgood.2, hone⟩

end Zkp2pSolana
