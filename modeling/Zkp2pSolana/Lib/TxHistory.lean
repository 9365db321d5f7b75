/-
What the log of a run says about the state it led to.

Seven readings of the events of a run, over any machine of `TxMachine`. A *slot*
is a part of the state that only some events write: it holds what the last of
them left ([`Run.last_writer`]). A *register* is a slot whose values can be read off
the events themselves: it is the last value they write ([`Run.last_write`]). An
*office* is a pair of slots, a holder and a candidate, that change hands in two
steps: whoever stands as the candidate was nominated under the holder still in
office ([`Run.nominated_at`]). A *book* is a number that every event raises by
what it takes in and lowers by what it pays out: the totals of the log determine
it ([`Run.books`]). A *span* is a stretch of the log all of whose events have some
property: a transitive relation that each of them establishes between its states
holds between the ends of the stretch ([`Run.span`]). A *series* numbers what
events open by a counter: the numbers come out in order, each once, and what is
closed under a number never opens under it again ([`Run.issued`], [`Run.retired`]).
A *replay* is what another machine makes of the orders in the events: if it can
follow every event, it has followed the run ([`Run.replays`]).
-/
import Zkp2pSolana.Lib.TxMachine
import Mathlib.Algebra.BigOperators.Group.List.Basic
import Mathlib.Algebra.Order.Ring.Nat

set_option autoImplicit false

namespace TxMachine

variable {State Ix Ctx : Type} {init : State → Prop} {step : Step State Ix Ctx}

/-! ## Slots -/

/-- The last event of `es` with `P` is `e`. -/
def LastWith (P : Event State Ix Ctx → Prop) (es : List (Event State Ix Ctx))
    (e : Event State Ix Ctx) : Prop :=
  P e ∧ ∃ past future, es = past ++ e :: future ∧ ∀ e' ∈ future, ¬ P e'

/-- An event with the property is the last such event of the history it ends. -/
theorem LastWith.self {P : Event State Ix Ctx → Prop} {es : List (Event State Ix Ctx)}
    {e : Event State Ix Ctx} (he : P e) : LastWith P (es ++ [e]) e :=
  ⟨he, es, [], rfl, by simp⟩

/-- An event without the property does not change which event was the last one with it. -/
theorem LastWith.extend {P : Event State Ix Ctx → Prop} {es : List (Event State Ix Ctx)}
    {e e' : Event State Ix Ctx} (h : LastWith P es e) (he' : ¬ P e') :
    LastWith P (es ++ [e']) e := by
  obtain ⟨he, past, future, rfl, hlast⟩ := h
  refine ⟨he, past, future ++ [e'], by simp, fun q hq => ?_⟩
  rcases List.mem_append.mp hq with hq | hq
  · exact hlast q hq
  · rw [List.mem_singleton.mp hq]
    exact he'

/-- What a slot holds after the events `es`: what the last of its writers left, or what it held at
the start when none of them writes it. -/
def SlotLaw {α : Type} (init : State → Prop) (view : State → α) (P : Event State Ix Ctx → Prop)
    (es : List (Event State Ix Ctx)) (s : State) : Prop :=
  (∃ e, LastWith P es e ∧ view s = view e.post)
    ∨ ((∀ e ∈ es, ¬ P e) ∧ ∃ s₀, init s₀ ∧ view s = view s₀)

section Slots

variable {α : Type} {view : State → α} {P G : Event State Ix Ctx → Prop}

/-- An event that does not write the slot carries its law on: the slot still holds what the last
writing event left. -/
theorem SlotLaw.extend {es : List (Event State Ix Ctx)} {e : Event State Ix Ctx}
    (hkeep : ¬ P e → view e.post = view e.pre) (h : SlotLaw init view P es e.pre) :
    SlotLaw init view P (es ++ [e]) e.post := by
  by_cases he : P e
  · exact .inl ⟨e, .self he, rfl⟩
  rcases h with ⟨w, hlast, hview⟩ | ⟨hnone, s₀, h₀, hview⟩
  · exact .inl ⟨w, hlast.extend he, (hkeep he).trans hview⟩
  · refine .inr ⟨fun e' he' => ?_, s₀, h₀, (hkeep he).trans hview⟩
    rcases List.mem_append.mp he' with he' | he'
    · exact hnone e' he'
    · rw [List.mem_singleton.mp he']
      exact he

/-- The rule for slots: at the end of a run a slot holds what its last writer left. -/
theorem Run.last_writer
    (hkeep : ∀ e : Event State Ix Ctx, G e → e.Valid step → ¬ P e → view e.post = view e.pre)
    {es : List (Event State Ix Ctx)} {s : State} (h : Run init step es s) (hG : ∀ e ∈ es, G e) :
    SlotLaw init view P es s :=
  Run.history (P := SlotLaw init view P) (fun s₀ h₀ => .inr ⟨by simp, s₀, h₀, rfl⟩)
    (fun _ e hGe hv hP => hP.extend (hkeep e hGe hv)) h hG

end Slots

/-! ## Registers -/

section Registers

variable {α : Type} {view : State → Option α} {writes : Event State Ix Ctx → Option α}
  {G : Event State Ix Ctx → Prop}

/-- The last value the events write. -/
def last_write (writes : Event State Ix Ctx → Option α) (es : List (Event State Ix Ctx)) :
    Option α :=
  es.reverse.findSome? writes

/-- The last write of a longer history is the newest event's write, if it writes, and the old one
otherwise. -/
theorem last_write_concat (es : List (Event State Ix Ctx)) (e : Event State Ix Ctx) :
    last_write writes (es ++ [e]) = (writes e).or (last_write writes es) := by
  unfold last_write
  rw [List.reverse_append, List.findSome?_append]
  cases h : writes e with
  | none => simp [h]
  | some v => simp [h]

/-- The rule for registers: a register that starts empty holds the last value written to it. -/
theorem Run.last_write (hinit : ∀ s, init s → view s = none)
    (hstep : ∀ e : Event State Ix Ctx, G e → e.Valid step →
      view e.post = (writes e).or (view e.pre))
    {es : List (Event State Ix Ctx)} {s : State} (h : Run init step es s) (hG : ∀ e ∈ es, G e) :
    view s = TxMachine.last_write writes es := by
  refine Run.history (P := fun es s => view s = TxMachine.last_write writes es) ?_ ?_ h hG
  · intro s₀ h₀
    rw [hinit s₀ h₀]
    rfl
  · intro es e hGe hv hP
    rw [last_write_concat, ← hP]
    exact hstep e hGe hv

end Registers

/-! ## Offices -/

section Offices

variable {K : Type} {holder candidate : State → Option K}
  {Nominates : Event State Ix Ctx → K → Prop} {G : Event State Ix Ctx → Prop}

/-- One event leaves an office as it is, puts up a candidate, or leaves no candidate. -/
inductive OfficeMove (holder candidate : State → Option K)
    (Nominates : Event State Ix Ctx → K → Prop) (e : Event State Ix Ctx) : Prop
  | kept (holder_eq : holder e.post = holder e.pre) (candidate_eq : candidate e.post = candidate e.pre)
  | nominated (holder_eq : holder e.post = holder e.pre)
      (nominates : ∀ c, candidate e.post = some c → Nominates e c)
  | vacated (candidate_eq : candidate e.post = none)

/-- The candidate `c` was put up by an event of the log, and neither the office nor its candidate
has changed since. -/
def Nominated (holder candidate : State → Option K) (Nominates : Event State Ix Ctx → K → Prop)
    (past : List (Event State Ix Ctx)) (c : K) (s : State) : Prop :=
  ∃ before p between, past = before ++ p :: between ∧ Nominates p c
    ∧ holder p.pre = holder s ∧ candidate p.post = some c
    ∧ ∀ q ∈ between, holder q.pre = holder s ∧ holder q.post = holder s
      ∧ candidate q.pre = some c ∧ candidate q.post = some c

/-- A standing nomination outlives every event that moves neither the holder nor the candidate. -/
theorem Nominated.extend {past : List (Event State Ix Ctx)} {c : K} {e : Event State Ix Ctx}
    (h : Nominated holder candidate Nominates past c e.pre)
    (hholder : holder e.post = holder e.pre) (hpre : candidate e.pre = some c)
    (hpost : candidate e.post = some c) :
    Nominated holder candidate Nominates (past ++ [e]) c e.post := by
  obtain ⟨before, p, between, rfl, hp, hin, hup, hbetween⟩ := h
  refine ⟨before, p, between ++ [e], by simp, hp, hin.trans hholder.symm, hup, fun q hq => ?_⟩
  rw [hholder]
  rcases List.mem_append.mp hq with hq | hq
  · exact hbetween q hq
  · rw [List.mem_singleton.mp hq]
    exact ⟨rfl, hholder, hpre, hpost⟩

/-- Whoever stands as the candidate was nominated. -/
def OfficeLaw (holder candidate : State → Option K) (Nominates : Event State Ix Ctx → K → Prop)
    (past : List (Event State Ix Ctx)) (s : State) : Prop :=
  ∀ c, candidate s = some c → Nominated holder candidate Nominates past c s

/-- The step of the two-step office: an event that nominates, takes over or leaves the office alone
keeps its law. -/
theorem OfficeLaw.extend {past : List (Event State Ix Ctx)} {e : Event State Ix Ctx}
    (hmove : OfficeMove holder candidate Nominates e)
    (h : OfficeLaw holder candidate Nominates past e.pre) :
    OfficeLaw holder candidate Nominates (past ++ [e]) e.post := by
  intro c hc
  cases hmove with
  | kept hholder hcandidate =>
    have hpre : candidate e.pre = some c := hcandidate.symm.trans hc
    exact (h c hpre).extend hholder hpre hc
  | nominated hholder hnominates =>
    exact ⟨past, e, [], rfl, hnominates c hc, hholder.symm, hc, by simp⟩
  | vacated hcandidate =>
    rw [hcandidate] at hc
    cases hc

/-- The rule for offices: before every event, the candidate was nominated under the holder of that
moment. -/
theorem Run.nominated_at (hinit : ∀ s, init s → candidate s = none)
    (hmove : ∀ e : Event State Ix Ctx, G e → e.Valid step → OfficeMove holder candidate Nominates e)
    {es : List (Event State Ix Ctx)} {s : State} (h : Run init step es s) (hG : ∀ e ∈ es, G e)
    {past future : List (Event State Ix Ctx)} {e : Event State Ix Ctx}
    (hes : es = past ++ e :: future) : OfficeLaw holder candidate Nominates past e.pre := by
  refine Run.history_at (P := OfficeLaw holder candidate Nominates)
    (R := fun past e => OfficeLaw holder candidate Nominates past e.pre)
    ?_ (fun _ e hGe hv hP => hP.extend (hmove e hGe hv)) (fun _ _ _ _ hP => hP) h hG hes
  intro s₀ h₀ c hc
  rw [hinit s₀ h₀] at hc
  cases hc

end Offices

/-! ## Books -/

/-- The rule for books: what a number that starts at zero shows, together with all that was paid
out, is all that was taken in. -/
theorem Run.books {m : State → ℕ} {taken paid : Event State Ix Ctx → ℕ}
    {G : Event State Ix Ctx → Prop} (hinit : ∀ s, init s → m s = 0)
    (hstep : ∀ e : Event State Ix Ctx, G e → e.Valid step → m e.post + paid e = m e.pre + taken e)
    {es : List (Event State Ix Ctx)} {s : State} (h : Run init step es s) (hG : ∀ e ∈ es, G e) :
    m s + (es.map paid).sum = (es.map taken).sum := by
  refine Run.history (P := fun es s => m s + (es.map paid).sum = (es.map taken).sum) ?_ ?_ h hG
  · intro s₀ h₀
    simp [hinit s₀ h₀]
  · intro es e hGe hv hP
    have he := hstep e hGe hv
    simp only [List.map_append, List.map_cons, List.map_nil, List.sum_append, List.sum_cons,
      List.sum_nil]
    omega

/-! ## Spans -/

section Spans

variable {R : State → State → Prop} {G : Event State Ix Ctx → Prop}

/-- From each event on after which the log has only events with `G`, the states are related. -/
def SpanLaw (R : State → State → Prop) (G : Event State Ix Ctx → Prop)
    (past : List (Event State Ix Ctx)) (s : State) : Prop :=
  ∀ before p between, past = before ++ p :: between → (∀ q ∈ p :: between, G q) → R p.pre s

/-- The step of a law over stretches: what relates the two ends of one event relates, by
transitivity, the two ends of every stretch of such events. -/
theorem SpanLaw.extend (htrans : ∀ a b c, R a b → R b c → R a c)
    {past : List (Event State Ix Ctx)} {e : Event State Ix Ctx} (he : G e → R e.pre e.post)
    (h : SpanLaw R G past e.pre) : SpanLaw R G (past ++ [e]) e.post := by
  intro before p between hsplit hG
  rcases split_concat hsplit with ⟨rfl, -, rfl⟩ | ⟨between', rfl, hpast⟩
  · exact he (hG p List.mem_cons_self)
  · -- the stretch reached `e` already, and `e` takes it one step further
    have hlast : G e := hG e (by simp)
    have hbefore : R p.pre e.pre := by
      refine h before p between' hpast fun q hq => hG q ?_
      rw [← List.cons_append]
      exact List.mem_append_left _ hq
    exact htrans _ _ _ hbefore (he hlast)

/-- The rule for spans: a stretch of events with `G` relates its first state to its last. -/
theorem Run.span (htrans : ∀ a b c, R a b → R b c → R a c)
    (hstep : ∀ e : Event State Ix Ctx, G e → e.Valid step → R e.pre e.post)
    {es : List (Event State Ix Ctx)} {s : State} (h : Run init step es s)
    {past future : List (Event State Ix Ctx)} {e : Event State Ix Ctx}
    (hes : es = past ++ e :: future) (hG : ∀ q ∈ e :: future, G q) : R e.pre s := by
  have hlaw : SpanLaw R G es s :=
    Run.history (G := fun _ => True)
      (fun _ _ before p between hsplit => by simp at hsplit)
      (fun _ e _ hv hP => hP.extend htrans fun hGe => hstep e hGe hv) h fun _ _ => trivial
  exact hlaw past e future hes hG

/-- The same up to an event that comes after a stretch of events with `G`. -/
theorem Run.span_at (htrans : ∀ a b c, R a b → R b c → R a c)
    (hstep : ∀ e : Event State Ix Ctx, G e → e.Valid step → R e.pre e.post)
    {es : List (Event State Ix Ctx)} {s : State} (h : Run init step es s)
    {past between future : List (Event State Ix Ctx)} {e q : Event State Ix Ctx}
    (hes : es = past ++ e :: (between ++ q :: future)) (hG : ∀ p ∈ e :: between, G p) :
    R e.pre q.pre := by
  have hlaw : SpanLaw R G (past ++ e :: between) q.pre := by
    have hsplit : es = (past ++ e :: between) ++ q :: future := by
      rw [hes, List.append_assoc, List.cons_append]
    exact Run.history_at (G := fun _ => True) (P := SpanLaw R G)
      (R := fun before p => SpanLaw R G before p.pre)
      (fun _ _ before p between hsplit => by simp at hsplit)
      (fun _ e _ hv hP => hP.extend htrans fun hGe => hstep e hGe hv) (fun _ _ _ _ hP => hP) h
      (fun _ _ => trivial) hsplit
  exact hlaw past e between rfl hG

/-- What an event establishes and no later event undoes holds now. -/
theorem Run.since {I : State → Prop}
    (hstep : ∀ e : Event State Ix Ctx, G e → e.Valid step → I e.pre → I e.post)
    {es : List (Event State Ix Ctx)} {s : State} (h : Run init step es s)
    {past future : List (Event State Ix Ctx)} {e : Event State Ix Ctx}
    (hes : es = past ++ e :: future) (hG : ∀ q ∈ future, G q) (he : I e.post) : I s := by
  have hlaw : ∀ before p between, es = before ++ p :: between → (∀ q ∈ between, G q) →
      I p.post → I s := by
    refine Run.history (G := fun _ => True)
      (P := fun es s => ∀ before p between, es = before ++ p :: between → (∀ q ∈ between, G q) →
        I p.post → I s) (fun _ _ before p between hsplit => by simp at hsplit) ?_ h
      fun _ _ => trivial
    intro past e _ hv hP before p between hsplit hG hp
    rcases split_concat hsplit with ⟨-, -, rfl⟩ | ⟨between', rfl, hpast⟩
    · exact hp
    · refine hstep e (hG e (by simp)) hv (hP before p between' hpast (fun q hq => ?_) hp)
      exact hG q (List.mem_append_left _ hq)
  exact hlaw past e future hes hG he

end Spans

/-! ## Series -/

section Series

variable {count : State → ℕ} {issues : Event State Ix Ctx → Option ℕ} {live : State → ℕ → Prop}
  {G : Event State Ix Ctx → Prop}

/-- One event of a series: it issues the next number or none, and opens nothing but what it
issues. -/
structure SeriesMove (count : State → ℕ) (issues : Event State Ix Ctx → Option ℕ)
    (live : State → ℕ → Prop) (e : Event State Ix Ctx) : Prop where
  counted : (issues e = none ∧ count e.post = count e.pre)
    ∨ (issues e = some (count e.pre) ∧ count e.post = count e.pre + 1)
  opened : ∀ n, live e.post n → live e.pre n ∨ issues e = some n

theorem SeriesMove.count_le {e : Event State Ix Ctx} (h : SeriesMove count issues live e) :
    count e.pre ≤ count e.post := by
  rcases h.counted with ⟨-, hcount⟩ | ⟨-, hcount⟩
  all_goals omega

/-- The rule for series: the numbers issued are those below the counter, in order, and nothing
lives under any other. -/
theorem Run.issued (hinit : ∀ s, init s → count s = 0 ∧ ∀ n, ¬ live s n)
    (hstep : ∀ e : Event State Ix Ctx, G e → e.Valid step → SeriesMove count issues live e)
    {es : List (Event State Ix Ctx)} {s : State} (h : Run init step es s) (hG : ∀ e ∈ es, G e) :
    es.filterMap issues = List.range (count s) ∧ ∀ n, live s n → n < count s := by
  refine Run.history
    (P := fun es s => es.filterMap issues = List.range (count s) ∧ ∀ n, live s n → n < count s)
    ?_ ?_ h hG
  · intro s₀ h₀
    obtain ⟨hcount, hnone⟩ := hinit s₀ h₀
    rw [hcount]
    exact ⟨rfl, fun n hn => absurd hn (hnone n)⟩
  · intro es e hGe hv hP
    obtain ⟨hissued, hbelow⟩ := hP
    have hmove := hstep e hGe hv
    rw [List.filterMap_append, hissued]
    refine ⟨?_, fun n hn => ?_⟩
    -- the list of issued numbers grows by the counter's old value, or not at all
    · rcases hmove.counted with ⟨hnone, hcount⟩ | ⟨hsome, hcount⟩
      · rw [hcount, List.filterMap_cons_none hnone, List.filterMap_nil, List.append_nil]
      · rw [hcount, List.filterMap_cons_some hsome, List.filterMap_nil, List.range_succ]
    -- what lives was alive before or was issued just now
    · rcases hmove.opened n hn with hold | hnew
      · exact (hbelow n hold).trans_le hmove.count_le
      · rcases hmove.counted with ⟨hnone, -⟩ | ⟨hsome, hcount⟩
        · rw [hnone] at hnew
          cases hnew
        · rw [hsome] at hnew
          cases hnew
          omega

/-- What is not there under a number already issued never comes back. -/
theorem Run.retired
    (hstep : ∀ e : Event State Ix Ctx, G e → e.Valid step → SeriesMove count issues live e)
    {es : List (Event State Ix Ctx)} {s : State} (h : Run init step es s) (hG : ∀ e ∈ es, G e)
    {e : Event State Ix Ctx} (he : e ∈ es) {n : ℕ} (hissued : n < count e.post)
    (hgone : ¬ live e.post n) : ¬ live s n := by
  have hstable := Run.pairwise_of_stable
    (Q := fun (e : Event State Ix Ctx) s =>
      ∀ n, n < count e.post → ¬ live e.post n → n < count s ∧ ¬ live s n)
    (fun e _ _ n hn hgone => ⟨hn, hgone⟩) ?_ h hG
  · exact (hstable.2 e he n hissued hgone).2
  · intro e e' hGe hv hQ n hn hgone
    obtain ⟨hbelow, hnot⟩ := hQ n hn hgone
    have hmove := hstep e' hGe hv
    refine ⟨hbelow.trans_le hmove.count_le, fun hlive => ?_⟩
    rcases hmove.opened n hlive with hold | hnew
    · exact hnot hold
    · rcases hmove.counted with ⟨hnone, -⟩ | ⟨hsome, -⟩
      · rw [hnone] at hnew
        cases hnew
      · -- a new number is the counter, and the counter is already past this one
        rw [hsome] at hnew
        cases hnew
        omega

end Series

/-! ## Replays -/

section Replays

variable {B O : Type} {act : B → O → Option B} {order : Event State Ix Ctx → O}
  {R : B → State → Prop} {b₀ : B} {G : Event State Ix Ctx → Prop}

/-- The machine takes the orders of the events, one after the other, and ends in step with `s`. -/
def Follows (act : B → O → Option B) (order : Event State Ix Ctx → O) (R : B → State → Prop) (b₀ : B)
    (es : List (Event State Ix Ctx)) (s : State) : Prop :=
  ∃ b, (es.map order).foldlM act b₀ = some b ∧ R b s

/-- One more event keeps the low-level history in step with the abstract one, if the order read off
it can be carried out there and leads to a related state. -/
theorem Follows.extend {es : List (Event State Ix Ctx)} {e : Event State Ix Ctx}
    (h : Follows act order R b₀ es e.pre)
    (hturn : ∀ b, R b e.pre → ∃ b', act b (order e) = some b' ∧ R b' e.post) :
    Follows act order R b₀ (es ++ [e]) e.post := by
  obtain ⟨b, hfold, hb⟩ := h
  obtain ⟨b', hact, hb'⟩ := hturn b hb
  refine ⟨b', ?_, hb'⟩
  rw [List.map_append, List.foldlM_append, hfold]
  simp only [List.map_cons, List.map_nil, Option.bind_eq_bind, Option.bind_some, List.foldlM_cons,
    List.foldlM_nil, hact]
  rfl

/-- The rule for replays: a machine that can take the order of every event has followed the run, and
it was in step before every event. -/
theorem Run.replays (hinit : ∀ s, init s → R b₀ s)
    (hstep : ∀ e : Event State Ix Ctx, G e → e.Valid step → ∀ b, R b e.pre →
      ∃ b', act b (order e) = some b' ∧ R b' e.post)
    {es : List (Event State Ix Ctx)} {s : State} (h : Run init step es s) (hG : ∀ e ∈ es, G e) :
    Follows act order R b₀ es s
      ∧ ∀ past e future, es = past ++ e :: future → Follows act order R b₀ past e.pre := by
  have hstart : ∀ s, init s → Follows act order R b₀ [] s := fun s hs => ⟨b₀, rfl, hinit s hs⟩
  have hturn : ∀ es (e : Event State Ix Ctx), G e → e.Valid step → Follows act order R b₀ es e.pre →
      Follows act order R b₀ (es ++ [e]) e.post :=
    fun es e hGe hv hfollows => hfollows.extend (hstep e hGe hv)
  refine ⟨Run.history hstart hturn h hG, fun past e future hes => ?_⟩
  exact Run.history_at (R := fun past e => Follows act order R b₀ past e.pre) hstart hturn
    (fun _ _ _ _ hfollows => hfollows) h hG hes

end Replays

end TxMachine
