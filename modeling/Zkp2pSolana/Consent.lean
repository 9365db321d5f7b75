/-
Third-party collateral is used only with its owner's current consent.

The consent of a stake owner and the choice of a taker are two records, each
created by whichever party comes first, and `prepare_dispute` reads only the
choice. That is enough because the two are kept together: a choice is made only
of an owner that authorizes the taker at that moment, and an owner that revokes
clears a choice of itself in the same instruction. So a choice in force is a
consent in force, and after a revocation both have to be given again, the consent
before the choice.
-/
import Zkp2pSolana.Genesis
import Zkp2pSolana.ConfigMoves
import Zkp2pSolana.LifecycleMoves

set_option autoImplicit false

namespace Zkp2pSolana

open Result Zkp2pError

/-! ## The two records -/

/-- The owner authorizes the taker. -/
def OpenRecords.authorized (r : OpenRecords) (o t : Pubkey) : Bool :=
  (r.taker_authorizations.lookup (taker_authorization_address o t)).any
    TakerAuthorization.authorized

/-- The owner the taker has selected. -/
def OpenRecords.selected (r : OpenRecords) (t : Pubkey) : Option Pubkey :=
  (r.stake_selections.lookup (stake_selection_address t)).bind StakeSelection.selected_owner

/-- A selected owner is another party, and authorizes the taker. -/
def Consented (r : OpenRecords) : Prop :=
  ∀ t o, r.selected t = some o → o ≠ t ∧ r.authorized o t = true

section Records

variable {r r' : OpenRecords}

/-- Authorizations are read off their own records. -/
theorem authorized_congr (h : r'.taker_authorizations = r.taker_authorizations) (o t : Pubkey) :
    r'.authorized o t = r.authorized o t := by
  unfold OpenRecords.authorized
  rw [h]

theorem selected_congr (h : r'.stake_selections = r.stake_selections) (t : Pubkey) :
    r'.selected t = r.selected t := by
  unfold OpenRecords.selected
  rw [h]

/-- Writing one authorization changes its pair of owner and taker and no other. -/
theorem authorized_insert {o₀ t₀ : Pubkey} {a : TakerAuthorization}
    (h : r'.taker_authorizations
      = r.taker_authorizations.insert (taker_authorization_address o₀ t₀) a) (o t : Pubkey) :
    r'.authorized o t = if o = o₀ ∧ t = t₀ then a.authorized else r.authorized o t := by
  unfold OpenRecords.authorized
  rw [h, Finmap.lookup_insert_ite]
  by_cases hk : o = o₀ ∧ t = t₀
  · rw [if_pos hk, if_pos (by rw [hk.1, hk.2])]
    rfl
  · rw [if_neg hk, if_neg]
    intro heq
    injection heq with _ ho ht
    exact hk ⟨ho, ht⟩

/-- Writing one selection changes its taker's and no other. -/
theorem selected_insert {t₀ : Pubkey} {x : StakeSelection}
    (h : r'.stake_selections = r.stake_selections.insert (stake_selection_address t₀) x)
    (t : Pubkey) : r'.selected t = if t = t₀ then x.selected_owner else r.selected t := by
  unfold OpenRecords.selected
  rw [h, Finmap.lookup_insert_ite]
  by_cases ht : t = t₀
  · rw [if_pos ht, if_pos (by rw [ht])]
    rfl
  · rw [if_neg ht, if_neg]
    intro heq
    injection heq with _ heq
    exact ht heq

/-- A record found or created at the taker's address selects what was selected. -/
theorem init_selected {t o : Pubkey}
    (h : (init_if_needed r.stake_selections (stake_selection_address t)).selected_owner = some o) :
    r.selected t = some o := by
  unfold OpenRecords.selected
  unfold init_if_needed at h
  cases hx : r.stake_selections.lookup (stake_selection_address t) with
  | none =>
    rw [hx] at h
    cases h
  | some x =>
    rw [hx] at h
    exact h

/-! ## What an open instruction does to them -/

/-- One open instruction, as a step of the consents and the choices. -/
structure ConsentStep (ix : OpenInstruction) (r r' : OpenRecords) : Prop where
  granted : ∀ o t, r'.authorized o t = true → r.authorized o t = true
    ∨ (ix = .set_taker_authorization ⟨o, t⟩ true ∧ o.can_sign = true)
  kept : ∀ o t, r.authorized o t = true →
    r'.authorized o t = true ∨ ix = .set_taker_authorization ⟨o, t⟩ false
  chosen : ∀ t o, r'.selected t = some o → r.selected t = some o
    ∨ (ix = .select_stake_owner ⟨t, o⟩ ∧ t.can_sign = true ∧ o ≠ t ∧ r.authorized o t = true)
  revoked : ∀ o t, ix = .set_taker_authorization ⟨o, t⟩ false →
    o ≠ t ∧ r'.authorized o t = false ∧ r'.selected t ≠ some o

/-- An instruction that writes neither record. -/
theorem ConsentStep.of_same {ix : OpenInstruction}
    (hauth : r'.taker_authorizations = r.taker_authorizations)
    (hselect : r'.stake_selections = r.stake_selections)
    (hix : ∀ o t, ix ≠ .set_taker_authorization ⟨o, t⟩ false) : ConsentStep ix r r' := by
  refine ⟨fun o t h => .inl ?_, fun o t h => .inl ?_, fun t o h => .inl ?_,
    fun o t h => absurd h (hix o t)⟩
  · rwa [authorized_congr hauth] at h
  · rwa [authorized_congr hauth]
  · rwa [selected_congr hselect] at h

/-- The owner grants or withdraws, and a withdrawal also clears the selection the taker had made. -/
theorem set_taker_authorization_step {accounts : SetTakerAuthorization} {authorized : Bool}
    (h : handle_set_taker_authorization accounts authorized r = .ok r') :
    ConsentStep (.set_taker_authorization accounts authorized) r r' := by
  obtain ⟨owner, taker⟩ := accounts
  simp only [handle_set_taker_authorization, bind_eq_ok, signer_eq_ok, require_eq_ok, exists_const,
    pure_eq_ok] at h
  obtain ⟨hsign, ⟨-, hne⟩, hpost⟩ := h
  have hauth := authorized_insert (congrArg OpenRecords.taker_authorizations hpost).symm
  have hselect := selected_insert (congrArg OpenRecords.stake_selections hpost).symm
  refine ⟨fun o t ho => ?_, fun o t ho => ?_, fun t o ho => ?_, fun o t hix => ?_⟩
  · rw [hauth] at ho
    by_cases hk : o = owner ∧ t = taker
    · rw [if_pos hk] at ho
      obtain ⟨rfl, rfl⟩ := hk
      exact .inr ⟨congrArg _ ho, hsign⟩
    · rw [if_neg hk] at ho
      exact .inl ho
  · rw [hauth]
    by_cases hk : o = owner ∧ t = taker
    · rw [if_pos hk]
      obtain ⟨rfl, rfl⟩ := hk
      cases authorized with
      | true => exact .inl rfl
      | false => exact .inr rfl
    · rw [if_neg hk]
      exact .inl ho
  · rw [hselect] at ho
    by_cases ht : t = taker
    · subst ht
      rw [if_pos rfl] at ho
      -- the selection written is the one found, or none
      split at ho
      · simp at ho
      · split at ho
        · cases ho
        · exact .inl (init_selected ho)
    · rw [if_neg ht] at ho
      exact .inl ho
  · obtain ⟨⟨rfl, rfl⟩, rfl⟩ : (owner = o ∧ taker = t) ∧ authorized = false := by
      injection hix with hk hf
      injection hk with ho ht
      exact ⟨⟨ho, ht⟩, hf⟩
    refine ⟨fun heq => hne heq.symm, ?_, fun ho => ?_⟩
    · rw [hauth, if_pos ⟨rfl, rfl⟩]
    · rw [hselect, if_pos rfl] at ho
      split at ho
      · simp at ho
      · split at ho
        · cases ho
        · rename_i hcleared
          exact hcleared ⟨rfl, ho⟩

/-- A taker selects only an owner that authorizes it at that moment. -/
theorem select_stake_owner_step {accounts : SelectStakeOwner}
    (h : handle_select_stake_owner accounts r = .ok r') :
    ConsentStep (.select_stake_owner accounts) r r' := by
  obtain ⟨taker, owner⟩ := accounts
  simp only [handle_select_stake_owner, bind_eq_ok, signer_eq_ok, load_eq_ok, require_eq_ok,
    exists_const, pure_eq_ok] at h
  obtain ⟨hsign, authorization, hfound, -, -, hauthorized, ⟨-, hne⟩, hpost⟩ := h
  have hauth := authorized_congr (congrArg OpenRecords.taker_authorizations hpost).symm
  have hselect := selected_insert (congrArg OpenRecords.stake_selections hpost).symm
  refine ⟨fun o t ho => .inl ?_, fun o t ho => .inl ?_, fun t o ho => ?_, fun o t hix => ?_⟩
  · rwa [hauth] at ho
  · rwa [hauth]
  · rw [hselect] at ho
    by_cases ht : t = taker
    · rw [if_pos ht] at ho
      obtain rfl : owner = o := Option.some.inj ho
      subst ht
      refine .inr ⟨rfl, hsign, hne, ?_⟩
      unfold OpenRecords.authorized
      rw [hfound]
      exact hauthorized
    · rw [if_neg ht] at ho
      exact .inl ho
  · cases hix

theorem clear_stake_owner_step {accounts : ClearStakeOwner}
    (h : handle_clear_stake_owner accounts r = .ok r') :
    ConsentStep (.clear_stake_owner accounts) r r' := by
  simp only [handle_clear_stake_owner, bind_eq_ok, signer_eq_ok, load_eq_ok, require_eq_ok,
    exists_const, pure_eq_ok] at h
  obtain ⟨-, selection, -, -, hpost⟩ := h
  have hauth := authorized_congr (congrArg OpenRecords.taker_authorizations hpost).symm
  have hselect := selected_insert (congrArg OpenRecords.stake_selections hpost).symm
  refine ⟨fun o t ho => .inl ?_, fun o t ho => .inl ?_, fun t o ho => .inl ?_, fun o t hix => ?_⟩
  · rwa [hauth] at ho
  · rwa [hauth]
  · rw [hselect] at ho
    by_cases ht : t = accounts.taker
    · rw [if_pos ht] at ho
      cases ho
    · rwa [if_neg ht] at ho
  · cases hix

/-- Each open instruction is a step of the consents and the choices. -/
theorem consent_step {ctx : TxContext} {ix : OpenInstruction} (h : ix.execute ctx r = .ok r') :
    ConsentStep ix r r' := by
  cases ix with
  | update_oracle_quote accounts quote_id market_rate valid =>
    simp only [OpenInstruction.execute, handle_update_oracle_quote, bind_eq_ok, signer_eq_ok,
      require_eq_ok, exists_const, pure_eq_ok] at h
    obtain ⟨-, -, -, rfl⟩ := h
    exact .of_same rfl rfl fun _ _ hix => by cases hix
  | set_taker_authorization accounts authorized => exact set_taker_authorization_step h
  | select_stake_owner accounts => exact select_stake_owner_step h
  | clear_stake_owner accounts => exact clear_stake_owner_step h

/-- A choice in force stays a consent in force: a revocation clears the choice it takes back. -/
theorem ConsentStep.consented {ix : OpenInstruction} (h : ConsentStep ix r r')
    (hr : Consented r) : Consented r' := by
  intro t o ho
  rcases h.chosen t o ho with hold | ⟨hix, -, hne, hauth⟩
  · obtain ⟨hne, hauth⟩ := hr t o hold
    rcases h.kept o t hauth with hkept | hix
    · exact ⟨hne, hkept⟩
    · exact absurd ho (h.revoked o t hix).2.2
  · rcases h.kept o t hauth with hkept | hrevoke
    · exact ⟨hne, hkept⟩
    · rw [hix] at hrevoke
      cases hrevoke

/-- What was written before initialization satisfies the law as well: those three instructions need
no protocol. -/
theorem OpenReachable.consented (h : OpenReachable r) : Consented r := by
  induction h with
  | empty =>
    intro t o ho
    simp [OpenRecords.selected] at ho
  | execute _ hstep ih => exact (consent_step hstep).consented ih

end Records

/-! ## Events -/

/-- The owner authorizes the taker. -/
def Authorizes (e : Event) (o t : Pubkey) : Prop :=
  e.ix = .program (.open_records (.set_taker_authorization ⟨o, t⟩ true)) ∧ o.can_sign = true

/-- The owner revokes the taker. -/
def Revokes (e : Event) (o t : Pubkey) : Prop :=
  e.ix = .program (.open_records (.set_taker_authorization ⟨o, t⟩ false))

/-- The taker selects the owner. -/
def Selects (e : Event) (t o : Pubkey) : Prop :=
  e.ix = .program (.open_records (.select_stake_owner ⟨t, o⟩)) ∧ t.can_sign = true

/-- Among the events, the owner authorizes the taker and the taker then selects the owner. -/
def Regranted (es : List Event) (o t : Pubkey) : Prop :=
  ∃ before a between b after, es = before ++ a :: (between ++ b :: after)
    ∧ Authorizes a o t ∧ Selects b t o

/-- Later events do not undo a grant that came after the last revocation. -/
theorem Regranted.extend {es : List Event} {o t : Pubkey} (h : Regranted es o t) (e : Event) :
    Regranted (es ++ [e]) o t := by
  obtain ⟨before, a, between, b, after, rfl, ha, hb⟩ := h
  exact ⟨before, a, between, b, after ++ [e], by simp, ha, hb⟩

/-- What one event does to the consents and the choices. -/
structure ConsentMove (e : Event) : Prop where
  granted : ∀ o t, e.post.authorized o t = true → e.pre.authorized o t = true ∨ Authorizes e o t
  chosen : ∀ t o, e.post.selected t = some o → e.pre.selected t = some o
    ∨ (Selects e t o ∧ e.pre.authorized o t = true)
  revoked : ∀ o t, Revokes e o t →
    o ≠ t ∧ e.post.authorized o t = false ∧ e.post.selected t ≠ some o
  consented : Consented e.pre.toOpenRecords → Consented e.post.toOpenRecords

section Events

variable {rt : Runtime} {e : Event}

/-- What an event does to authorizations and selections; most do nothing to them. -/
theorem consent_move (hv : e.Valid (step rt)) : ConsentMove e := by
  rcases (config_move hv).open_records with hsame | ⟨ix, hix, hok⟩
  · refine ⟨fun o t h => .inl ?_, fun t o h => .inl ?_, fun o t h => ?_, fun h => ?_⟩
    · rwa [hsame] at h
    · rwa [hsame] at h
    · -- a revocation is an open instruction, so it has run
      have hexec := valid_execute hv h
      simp only [TopLevel.execute, Instruction.execute, bind_eq_ok, pure_eq_ok] at hexec
      obtain ⟨r', hok, hpost⟩ := hexec
      have hrevoked := (consent_step hok).revoked o t rfl
      rwa [← hpost]
    · rwa [hsame]
  · have hstep := consent_step hok
    refine ⟨fun o t h => ?_, fun t o h => ?_, fun o t h => ?_, hstep.consented⟩
    · rcases hstep.granted o t h with hold | ⟨rfl, hsign⟩
      · exact .inl hold
      · exact .inr ⟨hix, hsign⟩
    · rcases hstep.chosen t o h with hold | ⟨rfl, hsign, -, hauth⟩
      · exact .inl hold
      · exact .inr ⟨⟨hix, hsign⟩, hauth⟩
    · have heq := hix.symm.trans h
      injection heq with heq
      injection heq with heq
      exact hstep.revoked o t heq

/-- The taker of a `prepare_dispute`. -/
def preparing : TopLevel → Option Pubkey
  | .program (.prepare_dispute accounts _) => some accounts.taker
  | _ => none

/-- The event draws on the stake of the owner: it changes the owner's position, or it writes a lock
of the owner. -/
def DrawsOn (e : Event) (o : Pubkey) : Prop :=
  e.post.stake_positions.lookup (position_of o) ≠ e.pre.stake_positions.lookup (position_of o)
    ∨ ∃ k l, e.pre.stake_locks.lookup k ≠ some l ∧ e.post.stake_locks.lookup k = some l
      ∧ l.stake_owner = o

/-- The stake owner of a preparation is the taker itself, or the one its selection names. -/
theorem selected_owner_ok {accounts : PrepareDispute} {r : OpenRecords} {o : Pubkey}
    (h : selected_owner accounts r.stake_selections = .ok o) :
    o = accounts.taker ∨ r.selected accounts.taker = some o := by
  simp only [selected_owner, bind_eq_ok, pure_eq_ok] at h
  obtain ⟨selection, hload, rfl⟩ := h
  cases selection with
  | none => exact .inl rfl
  | some a =>
    cases ho : a.data.selected_owner with
    | none =>
      left
      simp [ho]
    | some o =>
      right
      obtain ⟨hkey, hfound⟩ := load_opt_eq_ok.mp hload
      have hlookup := hfound a rfl
      by_cases hsupplied : accounts.selection = true
      · rw [if_pos hsupplied, Option.map_some, Option.some.injEq] at hkey
        rw [hkey] at hlookup
        unfold OpenRecords.selected
        rw [hlookup]
        simp [ho]
      · rw [if_neg hsupplied] at hkey
        cases hkey

theorem prepare_dispute_owner {following : Option (SignalIntent × SignalIntentArgs)}
    {accounts : PrepareDispute} {args : PrepareDisputeArgs} {s s' : State}
    (h : handle_prepare_dispute rt following accounts args s = .ok s') :
    accounts.stake_owner = accounts.taker
      ∨ s.selected accounts.taker = some accounts.stake_owner := by
  simp only [handle_prepare_dispute, bind_eq_ok, require_eq_ok, exists_const] at h
  obtain ⟨_, -, -, -, _, -, -, _, -, _, -, -, _, -, -, _, -, _, -, -, -, -, -, _, -, -, -, -, owner,
    howner, rfl, -⟩ := h
  exact selected_owner_ok howner

/-- A preparation draws on one owner: the taker, or the owner the taker has selected. -/
theorem prepares_draws {t : Pubkey} (hv : e.Valid (step rt)) (he : preparing e.ix = some t) :
    ∃ o, (o = t ∨ e.pre.selected t = some o) ∧ DrawsOn e o ∧ ∀ o', DrawsOn e o' → o' = o := by
  unfold preparing at he
  split at he
  · rename_i accounts args hix
    obtain rfl := Option.some.inj he
    have hok : handle_prepare_dispute rt (following_signal e.after) accounts args e.pre
        = .ok e.post := valid_execute hv hix
    obtain ⟨d, risk, p, p', _, _, hprepared, -⟩ := prepare_dispute_ok hok
    have hpost := hprepared.post
    refine ⟨accounts.stake_owner, prepare_dispute_owner hok, .inr ?_, fun o' hdraws => ?_⟩
    · refine ⟨lock_of args.expected_intent_hash, new_stake_lock accounts.stake_owner
        ⟨args.expected_intent_hash, args.amount, NEVER_MATURES⟩, ?_, ?_, rfl⟩
      · rw [hprepared.lock_fresh]
        simp
      · rw [hpost]
        exact Finmap.lookup_insert _
    · rcases hdraws with hposition | ⟨k, l, hnew, hl, rfl⟩
      · -- the position written is the owner's
        by_contra hne
        apply hposition
        rw [hpost]
        refine Finmap.lookup_insert_of_ne _ fun heq => hne ?_
        injection heq
      · rw [hpost] at hl
        change (e.pre.stake_locks.insert _ _).lookup k = some l at hl
        rw [Finmap.lookup_insert_ite] at hl
        split at hl
        · obtain rfl := Option.some.inj hl
          rfl
        · exact absurd hl hnew
  · cases he

end Events

/-! ## Every run -/

/-- What the events so far say of a pair that was revoked: a consent in force has been given since,
and a choice in force was made since, after the consent. -/
structure ConsentHistory (es : List Event) (s : State) : Prop where
  consented : Consented s.toOpenRecords
  authorized : ∀ past r mid o t, es = past ++ r :: mid → Revokes r o t →
    s.authorized o t = true → ∃ before a after, mid = before ++ a :: after ∧ Authorizes a o t
  selected : ∀ past r mid o t, es = past ++ r :: mid → Revokes r o t →
    s.selected t = some o → Regranted mid o t

/-- The step of the history: after one more event every selection is still backed by a grant that no
revocation followed. -/
theorem ConsentHistory.extend {rt : Runtime} {es : List Event} {e : Event}
    (hv : e.Valid (step rt)) (h : ConsentHistory es e.pre) :
    ConsentHistory (es ++ [e]) e.post := by
  have hmove := consent_move hv
  refine ⟨hmove.consented h.consented, fun past r mid o t heq hr ho => ?_,
    fun past r mid o t heq hr ho => ?_⟩
  · rcases TxMachine.split_concat heq with ⟨-, -, rfl⟩ | ⟨mid', rfl, hes⟩
    · rw [(hmove.revoked o t hr).2.1] at ho
      cases ho
    · rcases hmove.granted o t ho with hold | hgrant
      · obtain ⟨before, a, after, rfl, ha⟩ := h.authorized past r mid' o t hes hr hold
        exact ⟨before, a, after ++ [e], by simp, ha⟩
      · exact ⟨mid', e, [], rfl, hgrant⟩
  · rcases TxMachine.split_concat heq with ⟨-, -, rfl⟩ | ⟨mid', rfl, hes⟩
    · exact absurd ho (hmove.revoked o t hr).2.2
    · rcases hmove.chosen t o ho with hold | ⟨hselect, hauth⟩
      · exact (h.selected past r mid' o t hes hr hold).extend e
      · -- the choice is made now, of an owner that has consented since
        obtain ⟨before, a, after, rfl, ha⟩ := h.authorized past r mid' o t hes hr hauth
        exact ⟨before, a, after, e, [], by simp, ha, hselect⟩

/-- The law holds at the start, where the history is empty. -/
theorem genesis_consent {rt : Runtime} {s : State} (h : genesis rt s) : ConsentHistory [] s := by
  obtain ⟨_, _, _, _, _, _, _, -, hrecords, -, rfl⟩ := genesis_initialized h
  exact ⟨hrecords.consented, fun _ _ _ _ _ heq => by simp at heq,
    fun _ _ _ _ _ heq => by simp at heq⟩

/-- In every run a selected owner is another party that authorizes the taker; a preparation draws on
the taker's own stake or on that of an owner whose authorization is in force; and after a revocation
it draws on the owner again only once the owner has authorized the taker and the taker has then
selected the owner. -/
theorem collateral_needs_consent {rt : Runtime} {es : List Event} {s : State} (h : Run rt es s) :
    (Consented s.toOpenRecords
        ∧ ∀ e ∈ es, Consented e.pre.toOpenRecords ∧ Consented e.post.toOpenRecords)
      ∧ (∀ e ∈ es, ∀ t, preparing e.ix = some t →
        ∃ o, (o = t ∨ (o ≠ t ∧ e.pre.authorized o t = true)) ∧ DrawsOn e o
          ∧ ∀ o', DrawsOn e o' → o' = o)
      ∧ ∀ past r mid e future o t, es = past ++ r :: (mid ++ e :: future) → Revokes r o t →
        preparing e.ix = some t → DrawsOn e o → Regranted mid o t := by
  have hall := TxMachine.Run.invariant (I := fun s => Consented s.toOpenRecords)
    (G := fun _ => True) (fun s hs => (genesis_consent hs).consented)
    (fun e _ hv hc => (consent_move hv).consented hc) h (fun _ _ => trivial)
  refine ⟨hall, fun e he t hprepare => ?_, fun past r mid e future o t hes hr hprepare hdraws => ?_⟩
  · obtain ⟨o, howner, hdraws, honly⟩ := prepares_draws (h.valid e he) hprepare
    refine ⟨o, ?_, hdraws, honly⟩
    rcases howner with rfl | hselected
    · exact .inl rfl
    · exact .inr ((hall.2 e he).1 t o hselected)
  · have hsplit : es = (past ++ r :: mid) ++ e :: future := by
      rw [hes]
      simp
    have hhistory := TxMachine.Run.history_at (P := ConsentHistory) (G := fun _ => True)
      (R := fun past e => e.Valid (step rt) ∧ ConsentHistory past e.pre)
      (fun s hs => genesis_consent hs) (fun es e _ hv hP => hP.extend hv)
      (fun past e _ hv hP => ⟨hv, hP⟩) h (fun _ _ => trivial) hsplit
    obtain ⟨o', howner, -, honly⟩ := prepares_draws hhistory.1 hprepare
    obtain rfl := honly o hdraws
    rcases howner with rfl | hselected
    · -- nobody revokes itself
      have hvalid : r.Valid (step rt) := h.valid r (by rw [hes]; simp)
      exact absurd rfl ((consent_move hvalid).revoked _ _ hr).1
    · exact hhistory.2.selected past r mid o t rfl hr hselected

/-- The staker lends its stake to the taker, takes the consent back and gives it again; the taker
selects it both times and covers the first intent with it. -/
def sample_lend : TxContext × List TopLevel :=
  (sample_ctx 1800,
    [.program (.open_records (.set_taker_authorization ⟨sample_staker, sample_taker⟩ true)),
      .program (.open_records (.select_stake_owner ⟨sample_taker, sample_staker⟩)),
      .program (.open_records (.set_taker_authorization ⟨sample_staker, sample_taker⟩ false)),
      .program (.open_records (.set_taker_authorization ⟨sample_staker, sample_taker⟩ true)),
      .program (.open_records (.select_stake_owner ⟨sample_taker, sample_staker⟩)),
      .program (.prepare_dispute ⟨sample_taker, sample_deposit, none, true, sample_staker⟩
        ⟨sample_hash, sample_word 21, 100⟩),
      .program (.signal_intent
        { sample_signal with
          dispute_intent := some (dispute_intent_address dispute_config_address sample_hash)
          risk_window := some (risk_window_address dispute_config_address (sample_word 21)) }
        sample_signal_args)])

/-- The preparation that draws on the lent stake finds the consent in force. -/
theorem collateral_needs_consent_lent :
    ∃ es s e, Run sample_runtime es s ∧ e ∈ es ∧ preparing e.ix = some sample_taker
      ∧ DrawsOn e sample_staker ∧ e.pre.authorized sample_staker sample_taker = true
      ∧ s.selected sample_taker = some sample_staker
      ∧ s.authorized sample_staker sample_taker = true := by
  obtain ⟨es, s, hrun, hgood⟩ := sample_reaches [sample_setup, sample_lend]
    (fun es s => decide (s.selected sample_taker = some sample_staker)
      && es.any fun e => decide (preparing e.ix = some sample_taker
        ∧ (e.post.stake_positions.lookup (position_of sample_staker)).map StakePosition.locked
          ≠ (e.pre.stake_positions.lookup (position_of sample_staker)).map StakePosition.locked))
    (by decide +kernel)
  simp only [Bool.and_eq_true, List.any_eq_true, decide_eq_true_eq] at hgood
  obtain ⟨hselected, e, he, hprepare, hlocked⟩ := hgood
  have hdraws : DrawsOn e sample_staker := .inl fun heq => hlocked (by rw [heq])
  obtain ⟨hconsent, hdraw, -⟩ := collateral_needs_consent hrun
  obtain ⟨o, howner, -, honly⟩ := hdraw e he sample_taker hprepare
  obtain rfl := honly sample_staker hdraws
  refine ⟨es, s, e, hrun, he, hprepare, hdraws, ?_, hselected,
    (hconsent.1 _ _ hselected).2⟩
  rcases howner with hown | ⟨-, hauth⟩
  · exact absurd hown (by decide)
  · exact hauth

end Zkp2pSolana
