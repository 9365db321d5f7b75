/-
The life of one record in the log of a run.

A record opens, stays as it was opened, and closes; after that it does not open
again. Whether it may open is a property of the state, that it is not yet *born*:
opening bears it, and nothing takes that back. If every event leaves the record
alone, opens it or closes it ([`LifeMove`]), then a run never touched it, or
opened it once and it is still there, or opened it once and closed it once
([`Run.life`]).
-/
import Zkp2pSolana.Lib.TxMachine

set_option autoImplicit false

namespace TxMachine

variable {State Ix Ctx V : Type} {init : State → Prop} {step : Step State Ix Ctx}
  {view : State → Option V} {born : State → Prop} {touches : Event State Ix Ctx → Prop}
  {opens closes : Event State Ix Ctx → V → Prop}

/-- One event in the life of the record `view` shows. Those that open or close it can be told by
`touches`. -/
inductive LifeMove (view : State → Option V) (born : State → Prop)
    (touches : Event State Ix Ctx → Prop) (opens closes : Event State Ix Ctx → V → Prop)
    (e : Event State Ix Ctx) : Prop
  | quiet (untouched : ¬ touches e) (same : view e.post = view e.pre) (born_iff : born e.post ↔ born e.pre)
  | opened {v : V} (fresh : ¬ born e.pre) (bears : born e.post) (stored : view e.post = some v)
      (how : opens e v)
  | closed {v : V} (stored : view e.pre = some v) (gone : view e.post = none)
      (born_iff : born e.post ↔ born e.pre) (how : closes e v)

/-- The life of the record in a log that leads to `s`. -/
inductive Life (view : State → Option V) (born : State → Prop)
    (touches : Event State Ix Ctx → Prop) (opens closes : Event State Ix Ctx → V → Prop) :
    List (Event State Ix Ctx) → State → Prop
  | unborn {es : List (Event State Ix Ctx)} {s : State} (fresh : ¬ born s) (absent : view s = none)
      (untouched : ∀ e ∈ es, ¬ touches e) : Life view born touches opens closes es s
  | live {past future : List (Event State Ix Ctx)} {o : Event State Ix Ctx} {s : State} {v : V}
      (opened : opens o v) (bears : born s) (stored : view s = some v)
      (before : ∀ e ∈ past, ¬ touches e) (since : ∀ e ∈ future, ¬ touches e) :
      Life view born touches opens closes (past ++ o :: future) s
  | ended {past between future : List (Event State Ix Ctx)} {o c : Event State Ix Ctx} {s : State}
      {v : V} (opened : opens o v) (closed : closes c v) (bears : born s) (gone : view s = none)
      (before : ∀ e ∈ past, ¬ touches e) (while_live : ∀ e ∈ between, ¬ touches e)
      (since : ∀ e ∈ future, ¬ touches e) :
      Life view born touches opens closes (past ++ o :: (between ++ c :: future)) s

/-- One event more that does not touch the record. -/
theorem untouched_concat {es : List (Event State Ix Ctx)} {e : Event State Ix Ctx}
    (hes : ∀ q ∈ es, ¬ touches q) (he : ¬ touches e) : ∀ q ∈ es ++ [e], ¬ touches q := by
  intro q hq
  rcases List.mem_append.mp hq with hq | hq
  · exact hes q hq
  · rw [List.mem_singleton.mp hq]
    exact he

/-- The step of the life law: the new event opens the entry, ends it, or leaves its view alone, and
each of the three fits the part of the life already told. -/
theorem Life.extend {es : List (Event State Ix Ctx)} {e : Event State Ix Ctx}
    (hmove : LifeMove view born touches opens closes e)
    (h : Life view born touches opens closes es e.pre) :
    Life view born touches opens closes (es ++ [e]) e.post := by
  cases h with
  | unborn fresh absent untouched =>
    cases hmove with
    | quiet hquiet hsame hborn =>
      exact .unborn (mt hborn.mp fresh) (hsame.trans absent) (untouched_concat untouched hquiet)
    | opened _ hbears hstored hhow => exact .live hhow hbears hstored untouched (by simp)
    | closed hstored =>
      -- there is nothing to close yet
      rw [absent] at hstored
      cases hstored
  | live opened bears stored before since =>
    rw [List.append_assoc, List.cons_append]
    cases hmove with
    | quiet hquiet hsame hborn =>
      exact .live opened (hborn.mpr bears) (hsame.trans stored) before
        (untouched_concat since hquiet)
    | opened hfresh => exact absurd bears hfresh
    | closed hstored hgone hborn hhow =>
      rw [stored] at hstored
      cases hstored
      exact .ended opened hhow (hborn.mpr bears) hgone before since (by simp)
  | ended opened closed bears gone before while_live since =>
    rw [List.append_assoc, List.cons_append, List.append_assoc, List.cons_append]
    cases hmove with
    | quiet hquiet hsame hborn =>
      exact .ended opened closed (hborn.mpr bears) (hsame.trans gone) before while_live
        (untouched_concat since hquiet)
    | opened hfresh => exact absurd bears hfresh
    | closed hstored =>
      rw [gone] at hstored
      cases hstored

/-- The rule for lives. -/
theorem Run.life {G : Event State Ix Ctx → Prop}
    (hinit : ∀ s, init s → ¬ born s ∧ view s = none)
    (hstep : ∀ e : Event State Ix Ctx, G e → e.Valid step →
      LifeMove view born touches opens closes e)
    {es : List (Event State Ix Ctx)} {s : State} (h : Run init step es s) (hG : ∀ e ∈ es, G e) :
    Life view born touches opens closes es s := by
  refine Run.history (P := Life view born touches opens closes) (fun s₀ h₀ => ?_)
    (fun es e hGe hv hlife => hlife.extend (hstep e hGe hv)) h hG
  obtain ⟨hfresh, habsent⟩ := hinit s₀ h₀
  exact .unborn hfresh habsent (by simp)

end TxMachine
