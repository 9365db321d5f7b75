/-
The stake controller changes only after its delay.

A handover takes two instructions with the delay between them: the authority
proposes, and the proposed controller accepts once the stored date has come.
Proposals may be repeated, replaced and cancelled in any order, and the authority
itself may change in between. What has to be kept is that the stored candidate and
the stored date always belong to one proposal, the last one made.
-/
import Zkp2pSolana.Genesis
import Zkp2pSolana.ConfigMoves
import Zkp2pSolana.LifecycleMoves

set_option autoImplicit false

namespace Zkp2pSolana

open Result Zkp2pError

/-- The event proposes, replaces or cancels a stake controller. -/
def ProposesController (e : Event) : Prop :=
  ∃ accounts pending, e.ix = .program (.governance (.propose_stake_controller accounts pending))

/-- The event proposes `c`, signed by the protocol authority of that moment. -/
def Proposes (e : Event) (c : Pubkey) : Prop :=
  ∃ accounts, e.ix = .program (.governance (.propose_stake_controller accounts (some c)))
    ∧ accounts.authority.can_sign = true ∧ accounts.authority = e.pre.protocol.authority

/-- The last proposal among `past` is `p`: it proposes `c`. -/
structure LastProposal (past : List Event) (p : Event) (c : Pubkey) : Prop where
  proposes : Proposes p c
  last : ∃ before between, past = before ++ p :: between ∧ ∀ q ∈ between, ¬ ProposesController q

/-- An event that proposes nothing leaves the last proposal the last one. -/
theorem LastProposal.extend {past : List Event} {p : Event} {c : Pubkey}
    (h : LastProposal past p c) {e : Event} (he : ¬ ProposesController e) :
    LastProposal (past ++ [e]) p c := by
  obtain ⟨before, between, hpast, hlast⟩ := h.last
  refine ⟨h.proposes, before, between ++ [e], by simp [hpast], fun q hq => ?_⟩
  rcases List.mem_append.mp hq with hq | hq
  · exact hlast q hq
  · rw [List.mem_singleton] at hq
    rwa [hq]

/-! ## The handlers -/

section Handlers

variable {ctx : TxContext} {s s' : State}

/-- A proposal is signed by the authority of the moment, and dates the candidate from the clock of
its own transaction; proposing nobody withdraws the candidate. -/
theorem propose_stake_controller_ok {accounts : ProposeStakeController} {pending : Option Pubkey}
    (h : handle_propose_stake_controller ctx accounts pending s = .ok s') :
    accounts.authority.can_sign = true ∧ accounts.authority = s.protocol.authority
      ∧ ((∃ c, pending = some c ∧ s'.stake_vault.handover = { s.stake_vault.handover with
            pending_controller := some c
            pending_controller_valid_at := ctx.now + s.stake_vault.controller_change_delay })
        ∨ (pending = none ∧ s'.stake_vault.handover = { s.stake_vault.handover with
            pending_controller := none
            pending_controller_valid_at := 0 })) := by
  simp only [handle_propose_stake_controller, bind_eq_ok, require_eq_ok, signer_eq_ok,
    exists_const] at h
  obtain ⟨hsign, hauthority, -, h⟩ := h
  refine ⟨hsign, hauthority, ?_⟩
  cases pending with
  | none =>
    simp only [bind_eq_ok, require_eq_ok, exists_const, pure_eq_ok] at h
    obtain ⟨-, rfl⟩ := h
    exact .inr ⟨rfl, rfl⟩
  | some c =>
    simp only [bind_eq_ok, require_eq_ok, exists_const, ok_or_eq_ok, Checked.add_i64_eq_some,
      pure_eq_ok] at h
    obtain ⟨-, -, _, ⟨-, rfl⟩, rfl⟩ := h
    exact .inl ⟨c, rfl, rfl⟩

/-- The candidate itself accepts, and not before its date. -/
theorem accept_stake_controller_ok {accounts : AcceptStakeController}
    (h : handle_accept_stake_controller ctx accounts s = .ok s') :
    accounts.pending_controller.can_sign = true
      ∧ s.stake_vault.pending_controller = some accounts.pending_controller
      ∧ s.stake_vault.pending_controller_valid_at ≤ ctx.now
      ∧ s'.stake_vault.handover = { s.stake_vault.handover with
          controller := accounts.pending_controller
          pending_controller := none
          pending_controller_valid_at := 0 } := by
  simp only [handle_accept_stake_controller, bind_eq_ok, require_eq_ok, signer_eq_ok, exists_const,
    pure_eq_ok] at h
  obtain ⟨hsign, hpending, hmature, rfl⟩ := h
  exact ⟨hsign, hpending, hmature, rfl⟩

end Handlers

/-- No instruction changes the delay. -/
theorem delay_kept {rt : Runtime} {e : Event} (hv : e.Valid (step rt)) :
    e.post.stake_vault.controller_change_delay = e.pre.stake_vault.controller_change_delay := by
  rcases (config_move hv).handover with hsame | ⟨_, _, -, hok⟩ | ⟨_, -, hok⟩
  · exact congrArg Handover.controller_change_delay hsame
  · obtain ⟨-, -, ⟨c, -, hpost⟩ | ⟨-, hpost⟩⟩ := propose_stake_controller_ok hok
    · exact congrArg Handover.controller_change_delay hpost
    · exact congrArg Handover.controller_change_delay hpost
  · obtain ⟨-, -, -, hpost⟩ := accept_stake_controller_ok hok
    exact congrArg Handover.controller_change_delay hpost

/-! ## The pending candidate and its date belong to the last proposal -/

/-- What the events so far say of a pending candidate. -/
def PendingLaw (past : List Event) (s : State) : Prop :=
  ∀ c, s.stake_vault.pending_controller = some c →
    ∃ p, LastProposal past p c ∧ s.stake_vault.pending_controller_valid_at
      = p.ctx.now + s.stake_vault.controller_change_delay

/-- Without a candidate there is nothing to account for. -/
theorem PendingLaw.of_none {past : List Event} {s : State}
    (h : s.stake_vault.pending_controller = none) : PendingLaw past s := by
  intro c hc
  rw [h] at hc
  cases hc

/-- A proposal is the last one, and the candidate it leaves pending is its own. -/
theorem PendingLaw.propose {rt : Runtime} {past : List Event} {e : Event}
    (hv : e.Valid (step rt)) (he : ProposesController e) : PendingLaw (past ++ [e]) e.post := by
  obtain ⟨accounts, pending, hix⟩ := he
  have hok : handle_propose_stake_controller e.ctx accounts pending e.pre = .ok e.post :=
    valid_execute hv hix
  obtain ⟨hsign, hauthority, hpost⟩ := propose_stake_controller_ok hok
  rcases hpost with ⟨c, rfl, hpost⟩ | ⟨rfl, hpost⟩
  · intro c' hc'
    have hpending : e.post.stake_vault.pending_controller = some c :=
      congrArg Handover.pending_controller hpost
    have hdate : e.post.stake_vault.pending_controller_valid_at = _ :=
      congrArg Handover.pending_controller_valid_at hpost
    obtain rfl : c = c' := Option.some.inj (hpending.symm.trans hc')
    refine ⟨e, ⟨⟨accounts, hix, hsign, hauthority⟩, past, [], rfl, by simp⟩, ?_⟩
    rw [delay_kept hv]
    exact hdate
  · exact .of_none (congrArg Handover.pending_controller hpost)

/-- A candidate after an event was proposed by that event, or was there before and is still the last
one proposed. -/
theorem PendingLaw.extend {rt : Runtime} {past : List Event} {e : Event}
    (hv : e.Valid (step rt)) (h : PendingLaw past e.pre) : PendingLaw (past ++ [e]) e.post := by
  by_cases he : ProposesController e
  · exact .propose hv he
  rcases (config_move hv).handover with hsame | ⟨accounts, pending, hix, -⟩ | ⟨accounts, -, hok⟩
  · intro c hc
    have hpending : e.post.stake_vault.pending_controller = e.pre.stake_vault.pending_controller :=
      congrArg Handover.pending_controller hsame
    have hdate : e.post.stake_vault.pending_controller_valid_at
        = e.pre.stake_vault.pending_controller_valid_at :=
      congrArg Handover.pending_controller_valid_at hsame
    rw [hpending] at hc
    obtain ⟨p, hlast, hp⟩ := h c hc
    refine ⟨p, hlast.extend he, ?_⟩
    rw [hdate, delay_kept hv, hp]
  · exact absurd ⟨accounts, pending, hix⟩ he
  · -- an acceptance leaves no candidate behind
    obtain ⟨-, -, -, hpost⟩ := accept_stake_controller_ok hok
    exact .of_none (congrArg Handover.pending_controller hpost)

/-! ## Every run -/

/-- The event hands the vault to `c`: `c` accepts, at least `delay` after the last proposal, which
was for `c`. -/
structure HandsOver (delay : ℤ) (past : List Event) (e : Event) (c : Pubkey) : Prop where
  accepts : ∃ accounts, e.ix = .program (.governance (.accept_stake_controller accounts))
    ∧ accounts.pending_controller = c
  signs : c.can_sign = true
  proposed : ∃ p, LastProposal past p c ∧ p.ctx.now + delay ≤ e.ctx.now

/-- An instruction that changes the controller is an acceptance by the candidate of the last
proposal, after the delay. -/
theorem PendingLaw.handover {rt : Runtime} {past : List Event} {e : Event}
    (hv : e.Valid (step rt)) (h : PendingLaw past e.pre)
    (hchange : e.post.stake_vault.controller ≠ e.pre.stake_vault.controller) :
    HandsOver e.pre.stake_vault.controller_change_delay past e e.post.stake_vault.controller := by
  rcases (config_move hv).handover with hsame | ⟨accounts, pending, -, hok⟩ | ⟨accounts, hix, hok⟩
  · exact absurd (congrArg Handover.controller hsame) hchange
  · -- a proposal writes the pending slot only
    obtain ⟨-, -, ⟨c, -, hpost⟩ | ⟨-, hpost⟩⟩ := propose_stake_controller_ok hok
    · exact absurd (congrArg Handover.controller hpost) hchange
    · exact absurd (congrArg Handover.controller hpost) hchange
  · obtain ⟨hsign, hpending, hmature, hpost⟩ := accept_stake_controller_ok hok
    have hcontroller : e.post.stake_vault.controller = accounts.pending_controller :=
      congrArg Handover.controller hpost
    rw [hcontroller]
    obtain ⟨p, hlast, hdate⟩ := h _ hpending
    rw [hdate] at hmature
    exact ⟨⟨accounts, hix, rfl⟩, hsign, p, hlast, hmature⟩

/-- A deployment starts without a candidate and with a delay of at least a day. -/
theorem genesis_handover {rt : Runtime} {s : State} (h : genesis rt s) :
    MIN_CONTROLLER_CHANGE_DELAY_SECONDS ≤ s.stake_vault.controller_change_delay
      ∧ s.stake_vault.pending_controller = none := by
  obtain ⟨_, args, _, _, _, _, _, hargs, -, -, rfl⟩ := genesis_initialized h
  exact ⟨hargs.controller_change_delay, rfl⟩

/-- The delay of a run is the one it was deployed with. -/
theorem Run.delay_constant {rt : Runtime} {es : List Event} {s : State} (h : Run rt es s) :
    MIN_CONTROLLER_CHANGE_DELAY_SECONDS ≤ s.stake_vault.controller_change_delay
      ∧ ∀ e ∈ es, e.pre.stake_vault.controller_change_delay
          = s.stake_vault.controller_change_delay
        ∧ e.post.stake_vault.controller_change_delay
          = s.stake_vault.controller_change_delay := by
  refine TxMachine.Run.history (G := fun _ => True)
    (P := fun es s => MIN_CONTROLLER_CHANGE_DELAY_SECONDS ≤ s.stake_vault.controller_change_delay
      ∧ ∀ e ∈ es, e.pre.stake_vault.controller_change_delay
          = s.stake_vault.controller_change_delay
        ∧ e.post.stake_vault.controller_change_delay = s.stake_vault.controller_change_delay)
    ?_ ?_ h fun _ _ => trivial
  · intro s₀ h₀
    exact ⟨(genesis_handover h₀).1, by simp⟩
  · intro es e _ hv hP
    have hkept := delay_kept hv
    refine ⟨hkept ▸ hP.1, fun e' he' => ?_⟩
    rcases List.mem_append.mp he' with he' | he'
    · rw [hkept]
      exact hP.2 e' he'
    · rw [List.mem_singleton.mp he']
      exact ⟨hkept.symm, rfl⟩

/-- The controller changes only by an acceptance of the last proposal's candidate, at least the
delay after it; the delay is at least a day and never changes. -/
theorem controller_changes_after_delay {rt : Runtime} {es : List Event} {s : State}
    (h : Run rt es s) :
    ∃ delay, 86400 ≤ delay ∧ s.stake_vault.controller_change_delay = delay
      ∧ (∀ e ∈ es, e.pre.stake_vault.controller_change_delay = delay
        ∧ e.post.stake_vault.controller_change_delay = delay)
      ∧ ∀ past e future, es = past ++ e :: future →
        e.post.stake_vault.controller ≠ e.pre.stake_vault.controller →
        HandsOver delay past e e.post.stake_vault.controller := by
  obtain ⟨hday, hdelay⟩ := Run.delay_constant h
  refine ⟨_, hday, rfl, hdelay, fun past e future hes hchange => ?_⟩
  have hlaw := TxMachine.Run.history_at (G := fun _ => True) (P := PendingLaw)
    (R := fun past e => e.post.stake_vault.controller ≠ e.pre.stake_vault.controller →
      HandsOver e.pre.stake_vault.controller_change_delay past e e.post.stake_vault.controller)
    (fun s₀ h₀ => .of_none (genesis_handover h₀).2) (fun past e _ hv hP => hP.extend hv)
    (fun past e _ hv hP => hP.handover hv) h (fun _ _ => trivial) hes hchange
  have he : e ∈ es := by
    rw [hes]
    exact List.mem_append_right _ List.mem_cons_self
  rwa [(hdelay e he).1] at hlaw

/-- The sample successor takes the vault over, a day after it was proposed. -/
theorem controller_changes_after_delay_accepted :
    ∃ es s delay past e future, Run sample_runtime es s ∧ 86400 ≤ delay ∧ es = past ++ e :: future
      ∧ e.post.stake_vault.controller = sample_successor ∧ HandsOver delay past e sample_successor := by
  obtain ⟨es, s, hrun, hgood⟩ := sample_reaches [sample_setup, sample_propose, sample_handover]
    (fun es _ => es.any fun e => decide (e.post.stake_vault.controller = sample_successor
      ∧ e.post.stake_vault.controller ≠ e.pre.stake_vault.controller)) (by decide +kernel)
  simp only [List.any_eq_true, decide_eq_true_eq] at hgood
  obtain ⟨e, he, hpost, hchange⟩ := hgood
  obtain ⟨past, future, hes⟩ := List.append_of_mem he
  obtain ⟨delay, hday, -, -, hover⟩ := controller_changes_after_delay hrun
  have hands := hover past e future hes hchange
  rw [hpost] at hands
  exact ⟨es, s, delay, past, e, future, hrun, hday, hes, hpost, hands⟩

end Zkp2pSolana
