/-
What a party can bring about from where a run stands.

A party is a property of events: those it can cause on its own. It can *reach* a
goal if transactions of its own lead there ([`Reaches`]). Reaching composes
([`Reaches.trans`]), one instruction reaches what it does ([`Reaches.one`]), and
a number that the party can always lower it can bring to zero ([`Reaches.drain`]).
-/
import Zkp2pSolana.Lib.TxMachine

set_option autoImplicit false

namespace TxMachine

variable {State Ix Ctx : Type} {init : State → Prop} {step : Step State Ix Ctx}
  {A G : Event State Ix Ctx → Prop} {P Q : State → Prop}

/-- After the events `es`, transactions all of whose events have `A` lead to a state with `Q`. -/
def Reaches (init : State → Prop) (step : Step State Ix Ctx) (A : Event State Ix Ctx → Prop)
    (es : List (Event State Ix Ctx)) (Q : State → Prop) : Prop :=
  ∃ new s', Run init step (es ++ new) s' ∧ (∀ e ∈ new, A e) ∧ Q s'

/-- A state that already has the property is reached by doing nothing. -/
theorem Reaches.here {es : List (Event State Ix Ctx)} {s : State} (h : Run init step es s)
    (hs : Q s) : Reaches init step A es Q := by
  refine ⟨[], s, ?_, by simp, hs⟩
  rw [List.append_nil]
  exact h

/-- A transaction of one instruction. -/
theorem Reaches.one {es : List (Event State Ix Ctx)} {s s' : State} (h : Run init step es s)
    {c : Ctx} {ix : Ix} (hstep : step c [] ix [] s s') (hA : A ⟨c, [], ix, [], s, s'⟩) (hs' : Q s') :
    Reaches init step A es Q := by
  have hexec : Exec step c [] [ix] s [⟨c, [], ix, [], s, s'⟩] s' := .cons hstep .nil
  refine ⟨[⟨c, [], ix, [], s, s'⟩], s', h.commit hexec, fun e he => ?_, hs'⟩
  rw [List.mem_singleton.mp he]
  exact hA

/-- Reaching with fewer allowed events, or a stronger goal, is reaching. -/
theorem Reaches.mono {A' : Event State Ix Ctx → Prop} {es : List (Event State Ix Ctx)}
    (h : Reaches init step A es P) (hA : ∀ e, A e → A' e) (hP : ∀ s, P s → Q s) :
    Reaches init step A' es Q := by
  obtain ⟨new, s', hrun, hnew, hs'⟩ := h
  exact ⟨new, s', hrun, fun e he => hA e (hnew e he), hP s' hs'⟩

theorem Reaches.trans {es : List (Event State Ix Ctx)} (hP : Reaches init step A es P)
    (hQ : ∀ new s', Run init step (es ++ new) s' → (∀ e ∈ new, A e) → P s' →
      Reaches init step A (es ++ new) Q) : Reaches init step A es Q := by
  obtain ⟨new, s', hrun, hA, hs'⟩ := hP
  obtain ⟨new', s'', hrun', hA', hs''⟩ := hQ new s' hrun hA hs'
  refine ⟨new ++ new', s'', ?_, fun e he => ?_, hs''⟩
  · rw [← List.append_assoc]
    exact hrun'
  · rcases List.mem_append.mp he with he | he
    · exact hA e he
    · exact hA' e he

/-- The rule for progress: a number that can be lowered wherever it is not zero can be brought to
zero. -/
theorem Reaches.drain {μ : State → ℕ} (hA : ∀ e, A e → G e)
    (hturn : ∀ es s, Run init step es s → (∀ e ∈ es, G e) → P s → μ s ≠ 0 →
      Reaches init step A es fun s' => P s' ∧ μ s' < μ s)
    {es : List (Event State Ix Ctx)} {s : State} (h : Run init step es s) (hG : ∀ e ∈ es, G e)
    (hP : P s) : Reaches init step A es fun s' => P s' ∧ μ s' = 0 := by
  induction hn : μ s using Nat.strongRecOn generalizing es s with
  | _ n ih =>
    by_cases hzero : μ s = 0
    · exact .here h ⟨hP, hzero⟩
    refine (hturn es s h hG hP hzero).trans fun new s' hrun hnew hs' => ?_
    have hless : μ s' < n := by
      rw [← hn]
      exact hs'.2
    have hkept : ∀ e ∈ es ++ new, G e := by
      intro e he
      rcases List.mem_append.mp he with he | he
      · exact hG e he
      · exact hA e (hnew e he)
    exact ih (μ s') hless hrun hkept hs'.1 rfl

end TxMachine
