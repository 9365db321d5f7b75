/-
Machines that run transactions.

A transaction is a list of instructions executed in order on one state; an
instruction may read the ones before it and the ones after it, as programs do
that look at their own transaction. A transaction either runs to the end or
leaves no trace, so a run is a list of committed transactions, recorded as the
list of the instructions they executed with the states around each.

The rules below are the induction principles: an invariant that every
instruction keeps ([`Run.invariant`]), an invariant that only holds again at the
end of a transaction because an instruction makes promises about the next one
([`Run.invariant_lookahead`]), what the events so far say about the state they
led to ([`Run.history`], and [`Run.history_at`] at each of them), and facts
that, once established, no instruction undoes ([`Run.pairwise_of_stable`]).
-/
import Mathlib.Data.List.Pairwise
import Zkp2pSolana.Lib.Result

set_option autoImplicit false

namespace TxMachine

variable {State Ix Ctx : Type}

/-- One executed instruction: its transaction's context, the instructions before
and after it there, and the states on either side. -/
structure Event (State Ix Ctx : Type) where
  ctx : Ctx
  before : List Ix
  ix : Ix
  after : List Ix
  pre : State
  post : State

/-- The instruction semantics: context, instructions before, the instruction,
instructions after, state before, state after. -/
abbrev Step (State Ix Ctx : Type) := Ctx → List Ix → Ix → List Ix → State → State → Prop

/-- The rest of a transaction runs from `s` to `s'` through the listed events. -/
inductive Exec (step : Step State Ix Ctx) (c : Ctx) :
    List Ix → List Ix → State → List (Event State Ix Ctx) → State → Prop
  | nil {before : List Ix} {s : State} : Exec step c before [] s [] s
  | cons {before rest : List Ix} {ix : Ix} {s s' s'' : State}
      {es : List (Event State Ix Ctx)} :
      step c before ix rest s s' → Exec step c (before ++ [ix]) rest s' es s'' →
      Exec step c before (ix :: rest) s (⟨c, before, ix, rest, s, s'⟩ :: es) s''

/-- A run: an initial state followed by committed transactions. -/
inductive Run (init : State → Prop) (step : Step State Ix Ctx) :
    List (Event State Ix Ctx) → State → Prop
  | init {s : State} : init s → Run init step [] s
  | commit {es es' : List (Event State Ix Ctx)} {s s' : State} {c : Ctx} {ixs : List Ix} :
      Run init step es s → Exec step c [] ixs s es' s' → Run init step (es ++ es') s'

/-- A state a run goes through: the one it ends in, or one an instruction of it starts from. -/
def Passes (es : List (Event State Ix Ctx)) (t s : State) : Prop := s = t ∨ ∃ e ∈ es, s = e.pre

/-- The instruction of an event was executed by the semantics. -/
def Event.Valid (step : Step State Ix Ctx) (e : Event State Ix Ctx) : Prop :=
  step e.ctx e.before e.ix e.after e.pre e.post

variable {init : State → Prop} {step : Step State Ix Ctx}

/-- An invariant holds wherever a run passes. -/
theorem Passes.holds {I : State → Prop} {es : List (Event State Ix Ctx)} {t s : State}
    (hs : Passes es t s) (h : I t ∧ ∀ e ∈ es, I e.pre ∧ I e.post) : I s := by
  rcases hs with rfl | ⟨e, he, rfl⟩
  · exact h.1
  · exact (h.2 e he).1

/-! ## Every event is an execution -/

/-- Every event of an execution is an instruction the step relation accepts, with the transaction's
own neighbours around it. -/
theorem Exec.valid {c : Ctx} {before rest : List Ix} {s s' : State}
    {es : List (Event State Ix Ctx)} (h : Exec step c before rest s es s') :
    ∀ e ∈ es, e.Valid step := by
  induction h with
  | nil => simp
  | cons hstep _ ih =>
    intro e he
    rcases List.mem_cons.mp he with rfl | he
    · exact hstep
    · exact ih e he

/-- The events of a transaction are its instructions. -/
theorem Exec.ix_mem {c : Ctx} {before rest : List Ix} {s s' : State}
    {es : List (Event State Ix Ctx)} (h : Exec step c before rest s es s') :
    ∀ e ∈ es, e.ix ∈ rest := by
  induction h with
  | nil => simp
  | cons _ _ ih =>
    intro e he
    rcases List.mem_cons.mp he with rfl | he
    · exact List.mem_cons_self
    · exact List.mem_cons_of_mem _ (ih e he)

theorem Run.valid {es : List (Event State Ix Ctx)} {s : State} (h : Run init step es s) :
    ∀ e ∈ es, e.Valid step := by
  induction h with
  | init _ => simp
  | commit _ hexec ih =>
    intro e he
    rcases List.mem_append.mp he with he | he
    · exact ih e he
    · exact hexec.valid e he

/-- What an instruction sees before it has been executed, in its own transaction. -/
theorem Exec.before_executed {c : Ctx} {before rest : List Ix} {s s' : State}
    {es : List (Event State Ix Ctx)} (h : Exec step c before rest s es s') :
    ∀ e ∈ es, ∃ tx later, es = tx ++ e :: later ∧ e.before = before ++ tx.map Event.ix
      ∧ e.ctx = c ∧ ∀ e' ∈ tx, e'.ctx = c := by
  induction h with
  | nil => simp
  | @cons before rest ix s s' s'' es hstep hexec ih =>
    intro e he
    rcases List.mem_cons.mp he with rfl | he
    · exact ⟨[], es, rfl, by simp, rfl, by simp⟩
    · obtain ⟨tx, later, rfl, hbefore, hctx, hall⟩ := ih e he
      refine ⟨⟨c, before, ix, rest, s, s'⟩ :: tx, later, rfl, ?_, hctx, ?_⟩
      · rw [hbefore, List.append_assoc]
        rfl
      · intro e' he'
        rcases List.mem_cons.mp he' with rfl | he'
        · rfl
        · exact hall e' he'

/-- The events before an event in its transaction are the instructions it sees before it. -/
theorem Run.before_executed {es : List (Event State Ix Ctx)} {s : State} (h : Run init step es s) :
    ∀ e ∈ es, ∃ past tx later, es = past ++ tx ++ e :: later ∧ tx.map Event.ix = e.before
      ∧ ∀ e' ∈ tx, e'.ctx = e.ctx := by
  induction h with
  | init _ => simp
  | @commit es es' s s' c ixs _ hexec ih =>
    intro e he
    rcases List.mem_append.mp he with he | he
    · obtain ⟨past, tx, later, rfl, hbefore, hctx⟩ := ih e he
      exact ⟨past, tx, later ++ es', by simp, hbefore, hctx⟩
    · obtain ⟨tx, later, rfl, hbefore, hctx, hall⟩ := hexec.before_executed e he
      refine ⟨es, tx, later, by simp, ?_, ?_⟩
      · rw [hbefore, List.nil_append]
      · intro e' he'
        rw [hctx]
        exact hall e' he'

/-- The instruction that an event sees next is executed from the state the event leaves. -/
theorem Exec.after_executed {c : Ctx} {before rest : List Ix} {s s' : State}
    {es : List (Event State Ix Ctx)} (h : Exec step c before rest s es s') :
    ∀ e ∈ es, ∀ ix later, e.after = ix :: later →
      ∃ s'', step e.ctx (e.before ++ [e.ix]) ix later e.post s'' := by
  induction h with
  | nil => simp
  | @cons before rest ix s s' s'' es hstep hexec ih =>
    intro e he next later hafter
    rcases List.mem_cons.mp he with rfl | he
    · cases hafter
      cases hexec with
      | cons hnext => exact ⟨_, hnext⟩
    · exact ih e he next later hafter

/-- A transaction is committed only whole: where an event announces a later instruction of its
transaction, that instruction was executed on the state the event left. -/
theorem Run.after_executed {es : List (Event State Ix Ctx)} {s : State} (h : Run init step es s) :
    ∀ e ∈ es, ∀ ix later, e.after = ix :: later →
      ∃ s'', step e.ctx (e.before ++ [e.ix]) ix later e.post s'' := by
  induction h with
  | init _ => simp
  | commit _ hexec ih =>
    intro e he
    rcases List.mem_append.mp he with he | he
    · exact ih e he
    · exact hexec.after_executed e he

/-! ## Invariants

`P rest s` is what holds of `s` when the instructions `rest` are still to run in
the current transaction, so `P []` is what holds between transactions. `G` is a
condition on the events of the run that the step may use. -/

/-- An invariant that may read the instructions still to come holds at every point of an execution.
The look-ahead is what a check of the transaction's own tail needs. -/
theorem Exec.invariant_lookahead {P : List Ix → State → Prop}
    {G : Event State Ix Ctx → Prop}
    (hstep : ∀ e : Event State Ix Ctx, G e → e.Valid step → P (e.ix :: e.after) e.pre →
      P e.after e.post)
    {c : Ctx} {before rest : List Ix} {s s' : State} {es : List (Event State Ix Ctx)}
    (h : Exec step c before rest s es s') (hG : ∀ e ∈ es, G e) (hP : P rest s) :
    P [] s' ∧ ∀ e ∈ es, P (e.ix :: e.after) e.pre ∧ P e.after e.post := by
  induction h with
  | nil => exact ⟨hP, by simp⟩
  | cons hs _ ih =>
    have hpost := hstep _ (hG _ List.mem_cons_self) hs hP
    obtain ⟨hend, hmem⟩ := ih (fun e he => hG e (List.mem_cons_of_mem _ he)) hpost
    refine ⟨hend, fun e he => ?_⟩
    rcases List.mem_cons.mp he with rfl | he
    · exact ⟨hP, hpost⟩
    · exact hmem e he

/-- The rule for promises about the next instruction: `P rest` is carried through
each transaction and `P []` is an invariant between transactions. -/
theorem Run.invariant_lookahead {P : List Ix → State → Prop}
    {G : Event State Ix Ctx → Prop}
    (hinit : ∀ s, init s → P [] s)
    (hstart : ∀ s ixs, P [] s → P ixs s)
    (hstep : ∀ e : Event State Ix Ctx, G e → e.Valid step → P (e.ix :: e.after) e.pre →
      P e.after e.post)
    {es : List (Event State Ix Ctx)} {s : State} (h : Run init step es s)
    (hG : ∀ e ∈ es, G e) :
    P [] s ∧ ∀ e ∈ es, P (e.ix :: e.after) e.pre ∧ P e.after e.post := by
  induction h with
  | init h0 => exact ⟨hinit _ h0, by simp⟩
  | @commit es es' s s' c ixs _ hexec ih =>
    obtain ⟨hs, hmem⟩ := ih fun e he => hG e (List.mem_append_left _ he)
    obtain ⟨hs', hmem'⟩ := hexec.invariant_lookahead hstep
      (fun e he => hG e (List.mem_append_right _ he)) (hstart s ixs hs)
    refine ⟨hs', fun e he => ?_⟩
    rcases List.mem_append.mp he with he | he
    · exact hmem e he
    · exact hmem' e he

/-- The invariant rule: what every instruction keeps holds everywhere in a run. -/
theorem Run.invariant {I : State → Prop} {G : Event State Ix Ctx → Prop}
    (hinit : ∀ s, init s → I s)
    (hstep : ∀ e : Event State Ix Ctx, G e → e.Valid step → I e.pre → I e.post)
    {es : List (Event State Ix Ctx)} {s : State} (h : Run init step es s)
    (hG : ∀ e ∈ es, G e) :
    I s ∧ ∀ e ∈ es, I e.pre ∧ I e.post :=
  h.invariant_lookahead (P := fun _ => I) hinit (fun _ _ hs => hs) hstep hG

/-! ## Histories

`P es s` is what holds of the events so far together with the state they led to. -/

/-- A property of the whole past is carried through an execution, event by event. -/
theorem Exec.history {P : List (Event State Ix Ctx) → State → Prop} {G : Event State Ix Ctx → Prop}
    (hstep : ∀ es (e : Event State Ix Ctx), G e → e.Valid step → P es e.pre → P (es ++ [e]) e.post)
    {c : Ctx} {before rest : List Ix} {s s' : State} {es : List (Event State Ix Ctx)}
    (h : Exec step c before rest s es s') (hG : ∀ e ∈ es, G e)
    {past : List (Event State Ix Ctx)} (hP : P past s) : P (past ++ es) s' := by
  induction h generalizing past with
  | nil => rwa [List.append_nil]
  | @cons before rest ix s s' s'' es hs _ ih =>
    have hpost := hstep past ⟨c, before, ix, rest, s, s'⟩ (hG _ List.mem_cons_self) hs hP
    have hend := ih (fun e he => hG e (List.mem_cons_of_mem _ he)) hpost
    rwa [List.append_assoc] at hend

/-- The rule for histories: what every instruction keeps of the events so far holds at the end of a
run. -/
theorem Run.history {P : List (Event State Ix Ctx) → State → Prop} {G : Event State Ix Ctx → Prop}
    (hinit : ∀ s, init s → P [] s)
    (hstep : ∀ es (e : Event State Ix Ctx), G e → e.Valid step → P es e.pre → P (es ++ [e]) e.post)
    {es : List (Event State Ix Ctx)} {s : State} (h : Run init step es s) (hG : ∀ e ∈ es, G e) :
    P es s := by
  induction h with
  | init h0 => exact hinit _ h0
  | @commit es es' s s' c ixs _ hexec ih =>
    have hs := ih fun e he => hG e (List.mem_append_left _ he)
    exact hexec.history hstep (fun e he => hG e (List.mem_append_right _ he)) hs

/-- A list that ends in `e`, split at one of its elements: the element is `e`, or `e` ends the rest. -/
theorem split_concat {α : Type} {es past future : List α} {e r : α}
    (h : es ++ [e] = past ++ r :: future) :
    (future = [] ∧ es = past ∧ r = e)
      ∨ ∃ future', future = future' ++ [e] ∧ es = past ++ r :: future' := by
  rcases List.eq_nil_or_concat future with rfl | ⟨future', last, rfl⟩
  · obtain ⟨hes, hlast⟩ := List.append_inj' h rfl
    exact .inl ⟨rfl, hes, (List.singleton_inj.mp hlast).symm⟩
  · rw [List.concat_eq_append, ← List.cons_append, ← List.append_assoc] at h
    obtain ⟨hes, hlast⟩ := List.append_inj' h rfl
    refine .inr ⟨future', ?_, hes⟩
    rw [List.concat_eq_append, List.singleton_inj.mp hlast]

/-- The same at every event: what the events before it say of the state it starts from, and so of
itself. -/
theorem Run.history_at {P : List (Event State Ix Ctx) → State → Prop} {G : Event State Ix Ctx → Prop}
    {R : List (Event State Ix Ctx) → Event State Ix Ctx → Prop}
    (hinit : ∀ s, init s → P [] s)
    (hstep : ∀ es (e : Event State Ix Ctx), G e → e.Valid step → P es e.pre → P (es ++ [e]) e.post)
    (hevent : ∀ past (e : Event State Ix Ctx), G e → e.Valid step → P past e.pre → R past e)
    {es : List (Event State Ix Ctx)} {s : State} (h : Run init step es s) (hG : ∀ e ∈ es, G e)
    {past future : List (Event State Ix Ctx)} {e : Event State Ix Ctx}
    (hes : es = past ++ e :: future) : R past e := by
  have hall := Run.history
    (P := fun es s => P es s ∧ ∀ past e future, es = past ++ e :: future → R past e)
    ?_ ?_ h hG
  · exact hall.2 past e future hes
  · intro s hs
    refine ⟨hinit s hs, fun past e future hnil => ?_⟩
    simp at hnil
  · intro es e hG hv hP
    refine ⟨hstep es e hG hv hP.1, fun past e' future heq => ?_⟩
    -- the event is the last one, or it stands among the ones before it
    rcases split_concat heq with ⟨-, rfl, rfl⟩ | ⟨future', -, hearlier⟩
    · exact hevent _ _ hG hv hP.1
    · exact hP.2 past e' future' hearlier

/-! ## Facts that persist -/

/-- If every instruction establishes `Q e` of itself and no instruction undoes it,
then `Q e` holds before every later instruction and at the end of the run. -/
theorem Run.pairwise_of_stable {Q : Event State Ix Ctx → State → Prop}
    {G : Event State Ix Ctx → Prop}
    (hest : ∀ e : Event State Ix Ctx, G e → e.Valid step → Q e e.post)
    (hstable : ∀ e e' : Event State Ix Ctx, G e' → e'.Valid step → Q e e'.pre → Q e e'.post)
    {es : List (Event State Ix Ctx)} {s : State} (h : Run init step es s) (hG : ∀ e ∈ es, G e) :
    es.Pairwise (fun e e' => Q e e'.pre) ∧ ∀ e ∈ es, Q e s := by
  refine Run.history (P := fun es s => es.Pairwise (fun e e' => Q e e'.pre) ∧ ∀ e ∈ es, Q e s)
    ?_ ?_ h hG
  · intro s _
    simp
  · intro es e' hGe hv hP
    refine ⟨List.pairwise_append.mpr ⟨hP.1, List.pairwise_singleton _ _, ?_⟩, ?_⟩
    · intro e he e'' he''
      rw [List.mem_singleton.mp he'']
      exact hP.2 e he
    · intro e he
      rcases List.mem_append.mp he with he | he
      · exact hstable e e' hGe hv (hP.2 e he)
      · rw [List.mem_singleton.mp he]
        exact hest e' hGe hv

/-! ## Running a machine whose instructions are a function

A machine given by a function runs lists of transactions; what it computes is a
run, so a concrete run is one evaluation. -/

section Execute

variable {ε : Type} (exec : Ctx → List Ix → List Ix → State → Ix → Except ε State)

/-- The semantics a function defines. -/
def Step.of (exec : Ctx → List Ix → List Ix → State → Ix → Except ε State) : Step State Ix Ctx :=
  fun c before ix after s s' => exec c before after s ix = .ok s'

/-- The rest of a transaction, with its events. -/
def execute_rest (c : Ctx) :
    List Ix → List Ix → State → Except ε (List (Event State Ix Ctx) × State)
  | _, [], s => .ok ([], s)
  | before, ix :: rest, s => do
    let s' ← exec c before rest s ix
    let (es, s'') ← execute_rest c (before ++ [ix]) rest s'
    return (⟨c, before, ix, rest, s, s'⟩ :: es, s'')

/-- A list of transactions, each with its context. -/
def execute_all :
    List (Ctx × List Ix) → State → Except ε (List (Event State Ix Ctx) × State)
  | [], s => .ok ([], s)
  | (c, ixs) :: txs, s => do
    let (es, s') ← execute_rest exec c [] ixs s
    let (es', s'') ← execute_all txs s'
    return (es ++ es', s'')

variable {exec}

/-- An execution computed by the function is one the relation allows. -/
theorem Exec.of_execute_rest {c : Ctx} {before rest : List Ix} {s s' : State}
    {es : List (Event State Ix Ctx)} (h : execute_rest exec c before rest s = .ok (es, s')) :
    Exec (Step.of exec) c before rest s es s' := by
  induction rest generalizing before s es with
  | nil =>
    simp only [execute_rest, Except.ok.injEq, Prod.mk.injEq] at h
    obtain ⟨rfl, rfl⟩ := h
    exact .nil
  | cons ix rest ih =>
    simp only [execute_rest, Result.bind_eq_ok, Result.pure_eq_ok, Prod.mk.injEq] at h
    obtain ⟨s1, hs1, ⟨es1, s2⟩, hrest, rfl, rfl⟩ := h
    exact .cons hs1 (ih hrest)

/-- What the function computes from the end of a run is a run. -/
theorem Run.of_execute_all {txs : List (Ctx × List Ix)} {s s' : State}
    {es es' : List (Event State Ix Ctx)} (hrun : Run init (Step.of exec) es s)
    (h : execute_all exec txs s = .ok (es', s')) :
    Run init (Step.of exec) (es ++ es') s' := by
  induction txs generalizing s es es' with
  | nil =>
    simp only [execute_all, Except.ok.injEq, Prod.mk.injEq] at h
    obtain ⟨rfl, rfl⟩ := h
    rw [List.append_nil]
    exact hrun
  | cons tx txs ih =>
    obtain ⟨c, ixs⟩ := tx
    simp only [execute_all, Result.bind_eq_ok, Result.pure_eq_ok, Prod.mk.injEq] at h
    obtain ⟨⟨es1, s1⟩, hfirst, ⟨es2, s2⟩, hrest, rfl, rfl⟩ := h
    rw [← List.append_assoc]
    exact ih (hrun.commit (Exec.of_execute_rest hfirst)) hrest

/-- What a computed run shows of its events and its last state holds of a run. -/
theorem Run.exists_of_computed {start : Except ε State} {txs : List (Ctx × List Ix)}
    {good : List (Event State Ix Ctx) → State → Bool} (hinit : ∀ s, start = .ok s → init s)
    (h : (start >>= execute_all exec txs).toOption.any (fun r => good r.1 r.2) = true) :
    ∃ es s, Run init (Step.of exec) es s ∧ good es s = true := by
  cases hrun : start >>= execute_all exec txs with
  | error e =>
    rw [hrun] at h
    cases h
  | ok r =>
    obtain ⟨s₀, hs₀, hall⟩ := Result.bind_eq_ok.mp hrun
    rw [hrun] at h
    exact ⟨r.1, r.2, Run.of_execute_all (.init (hinit s₀ hs₀)) hall, h⟩

end Execute

end TxMachine
