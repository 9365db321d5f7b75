/-
Offices of the program change hands in two steps.

The protocol authority and the curator of each address group are offices: the
holder nominates, the nominee accepts. Nominations may be replaced and withdrawn,
and the instructions of all offices interleave in any order. What every run shows
is that a change of hands was agreed by both: the new holder signs the
acceptance, and the last nomination before it names the new holder and was signed
by the old one, who was in office all the time between.
-/
import Zkp2pSolana.Lib.TxHistory
import Zkp2pSolana.Genesis
import Zkp2pSolana.WhitelistMoves

set_option autoImplicit false

namespace Zkp2pSolana

open Result Zkp2pError

/-! ## The protocol authority -/

/-- The authority, as the holder of an office that is never vacant. -/
def State.authority (s : State) : Option Pubkey := some s.protocol.authority

/-- The event nominates `c` as the next authority, signed by the authority in office. -/
def NominatesAuthority (e : Event) (c : Pubkey) : Prop :=
  ∃ accounts, e.ix = .program (.governance (.propose_protocol_authority accounts (some c)))
    ∧ accounts.authority.can_sign = true ∧ accounts.authority = e.pre.protocol.authority

/-- The event is an acceptance of the protocol authority by `c`. -/
def AcceptsAuthority (e : Event) (c : Pubkey) : Prop :=
  ∃ accounts, e.ix = .program (.governance (.accept_protocol_authority accounts))
    ∧ accounts.pending_authority = c ∧ c.can_sign = true

section Handlers

variable {s s' : State}

/-- Only the authority nominates, and the nomination changes nothing else. -/
theorem propose_protocol_authority_ok {accounts : ProposeProtocolAuthority}
    {pending : Option Pubkey} (h : handle_propose_protocol_authority accounts pending s = .ok s') :
    accounts.authority.can_sign = true ∧ accounts.authority = s.protocol.authority
      ∧ s'.protocol = { s.protocol with pending_authority := pending } := by
  simp only [handle_propose_protocol_authority, bind_eq_ok, signer_eq_ok, require_eq_ok,
    exists_const, pure_eq_ok] at h
  obtain ⟨hsigns, hauthority, -, -, -, rfl⟩ := h
  exact ⟨hsigns, hauthority, rfl⟩

theorem accept_protocol_authority_ok {accounts : AcceptProtocolAuthority}
    (h : handle_accept_protocol_authority accounts s = .ok s') :
    accounts.pending_authority.can_sign = true
      ∧ s.protocol.pending_authority = some accounts.pending_authority
      ∧ s'.protocol = { s.protocol with
          authority := accounts.pending_authority
          pending_authority := none } := by
  simp only [handle_accept_protocol_authority, bind_eq_ok, signer_eq_ok, require_eq_ok,
    exists_const, pure_eq_ok] at h
  obtain ⟨hsigns, hpending, rfl⟩ := h
  exact ⟨hsigns, hpending, rfl⟩

end Handlers

/-- The protocol authority is an office with a two-step handover. -/
theorem authority_office_move {rt : Runtime} {e : Event} (hv : e.Valid (step rt)) :
    TxMachine.OfficeMove State.authority (fun s => s.protocol.pending_authority)
      NominatesAuthority e := by
  rcases (policy_move hv).protocol with hsame | ⟨accounts, pending, hix, hok⟩ | ⟨accounts, -, hok⟩
  · refine .kept ?_ ?_
    · unfold State.authority
      rw [hsame]
    · rw [hsame]
  · obtain ⟨hsigns, hauthority, hpost⟩ := propose_protocol_authority_ok hok
    refine .nominated ?_ fun c hc => ?_
    · unfold State.authority
      rw [hpost]
    · -- the candidate left behind is the argument of the proposal
      rw [hpost] at hc
      have hpending : pending = some c := hc
      rw [hpending] at hix
      exact ⟨accounts, hix, hsigns, hauthority⟩
  · obtain ⟨-, -, hpost⟩ := accept_protocol_authority_ok hok
    refine .vacated ?_
    rw [hpost]

/-- An instruction that changes the authority is the acceptance of the one pending. -/
theorem authority_accepted {rt : Runtime} {e : Event} (hv : e.Valid (step rt))
    (hchange : e.post.protocol.authority ≠ e.pre.protocol.authority) :
    AcceptsAuthority e e.post.protocol.authority
      ∧ e.pre.protocol.pending_authority = some e.post.protocol.authority := by
  rcases (policy_move hv).protocol with hsame | ⟨accounts, pending, -, hok⟩ | ⟨accounts, hix, hok⟩
  · rw [hsame] at hchange
    exact absurd rfl hchange
  · obtain ⟨-, -, hpost⟩ := propose_protocol_authority_ok hok
    rw [hpost] at hchange
    exact absurd rfl hchange
  · obtain ⟨hsigns, hpending, hpost⟩ := accept_protocol_authority_ok hok
    rw [hpost]
    exact ⟨⟨accounts, hix, rfl, hsigns⟩, hpending⟩

/-- A deployment starts with an authority that signed for it and no candidate. -/
theorem genesis_authority {rt : Runtime} {s : State} (h : genesis rt s) :
    s.protocol.authority.can_sign = true ∧ s.protocol.pending_authority = none := by
  obtain ⟨accounts, args, records, tokens, -, -, hinit⟩ := h
  obtain ⟨-, slot, seed, haccounts, rfl⟩ := initialize_protocol_eq_ok.mp hinit
  exact ⟨haccounts.authority, rfl⟩

/-- The authority stays a key that can sign, because whoever takes over has signed. -/
theorem authority_signs_step {rt : Runtime} {e : Event} (hv : e.Valid (step rt))
    (hs : e.pre.protocol.authority.can_sign = true) : e.post.protocol.authority.can_sign = true := by
  by_cases hchange : e.post.protocol.authority = e.pre.protocol.authority
  · rw [hchange]
    exact hs
  · obtain ⟨⟨_, -, -, hsigns⟩, -⟩ := authority_accepted hv hchange
    exact hsigns

/-- Governance is never lost to a key nobody signs with, and the authority changes hands only by
agreement: the new authority accepts, and the last nomination before names it and was signed by the
old authority, in office ever since. -/
theorem authority_changes_by_agreement {rt : Runtime} {es : List Event} {s : State}
    (h : Run rt es s) :
    (∀ t, TxMachine.Passes es s t → t.protocol.authority.can_sign = true)
      ∧ ∀ past e future, es = past ++ e :: future →
        e.post.protocol.authority ≠ e.pre.protocol.authority →
        AcceptsAuthority e e.post.protocol.authority
          ∧ ∃ before p between, past = before ++ p :: between
            ∧ NominatesAuthority p e.post.protocol.authority
            ∧ p.pre.protocol.authority = e.pre.protocol.authority
            ∧ ∀ q ∈ between, q.pre.protocol.authority = e.pre.protocol.authority
              ∧ q.post.protocol.authority = e.pre.protocol.authority
              ∧ q.post.protocol.pending_authority = some e.post.protocol.authority := by
  constructor
  · intro t ht
    have hsigns := TxMachine.Run.invariant (G := fun _ => True)
      (I := fun s => s.protocol.authority.can_sign = true) (fun _ h₀ => (genesis_authority h₀).1)
      (fun _ _ hv hs => authority_signs_step hv hs) h fun _ _ => trivial
    exact ht.holds (I := fun s => s.protocol.authority.can_sign = true) hsigns
  · intro past e future hes hchange
    have he : e ∈ es := by
      rw [hes]
      exact List.mem_append_right _ List.mem_cons_self
    obtain ⟨haccepts, hpending⟩ := authority_accepted (h.valid e he) hchange
    -- the pending candidate has a nomination behind it, in office under the same authority
    have hlaw : TxMachine.OfficeLaw State.authority (fun s => s.protocol.pending_authority)
        NominatesAuthority past e.pre :=
      TxMachine.Run.nominated_at (G := fun _ => True) (fun _ h₀ => (genesis_authority h₀).2)
        (fun _ _ hv => authority_office_move hv) h (fun _ _ => trivial) hes
    obtain ⟨before, p, between, hpast, hp, hholder, -, hbetween⟩ := hlaw _ hpending
    refine ⟨haccepts, before, p, between, hpast, hp, Option.some.inj hholder, fun q hq => ?_⟩
    obtain ⟨hpre, hpost, -, hcandidate⟩ := hbetween q hq
    exact ⟨Option.some.inj hpre, Option.some.inj hpost, hcandidate⟩

/-- The sample authority nominates a successor, who accepts. -/
def sample_succession : TxContext × List TopLevel :=
  (sample_ctx 1500,
    [.program (.governance (.propose_protocol_authority ⟨sample_authority⟩ (some sample_successor))),
      .program (.governance (.accept_protocol_authority ⟨sample_successor⟩))])

/-- A run in which the authority is handed over, with the nomination that came before. -/
theorem authority_changes_by_agreement_succeeded :
    ∃ es s past e future, Run sample_runtime es s ∧ es = past ++ e :: future
      ∧ e.post.protocol.authority = sample_successor
      ∧ AcceptsAuthority e sample_successor ∧ ∃ p ∈ past, NominatesAuthority p sample_successor := by
  obtain ⟨es, s, hrun, hgood⟩ := sample_reaches [sample_setup, sample_succession]
    (fun es _ => es.any fun e => decide (e.post.protocol.authority = sample_successor
      ∧ e.post.protocol.authority ≠ e.pre.protocol.authority)) (by decide +kernel)
  simp only [List.any_eq_true, decide_eq_true_eq] at hgood
  obtain ⟨e, he, hpost, hchange⟩ := hgood
  obtain ⟨past, future, hes⟩ := List.append_of_mem he
  obtain ⟨haccepts, before, p, between, hpast, hp, -, -⟩ :=
    (authority_changes_by_agreement hrun).2 past e future hes hchange
  rw [hpost] at haccepts hp
  refine ⟨es, s, past, e, future, hrun, hes, hpost, haccepts, p, ?_, hp⟩
  rw [hpast]
  exact List.mem_append_right _ List.mem_cons_self

/-! ## The curators of the address groups -/

/-- The curator of a group, when there is one. -/
def State.curator (g : Pubkey) (s : State) : Option Pubkey :=
  (s.address_groups.lookup g).map AddressGroup.curator

/-- The candidate for the curator of a group. -/
def State.pending_curator (g : Pubkey) (s : State) : Option Pubkey :=
  (s.address_groups.lookup g).bind AddressGroup.pending_curator

/-- The event nominates `c` as the next curator of `g`, signed by the curator in office. -/
def NominatesCurator (g : Pubkey) (e : Event) (c : Pubkey) : Prop :=
  ∃ accounts is_public resolver,
    e.ix = .program (.whitelists (.configure_address_group accounts is_public resolver (some (some c))))
      ∧ accounts.group = g ∧ accounts.curator.can_sign = true
      ∧ e.pre.curator g = some accounts.curator

/-- The event opens the group `g`, signed by its first curator. -/
def OpensGroup (g : Pubkey) (e : Event) (c : Pubkey) : Prop :=
  ∃ accounts name is_public,
    e.ix = .program (.whitelists (.create_address_group accounts name is_public))
      ∧ accounts.curator = c ∧ c.can_sign = true ∧ e.pre.curator g = none

/-- The event is an acceptance of the group by `c`. -/
def AcceptsCurator (g : Pubkey) (e : Event) (c : Pubkey) : Prop :=
  ∃ accounts, e.ix = .program (.whitelists (.accept_group_curator accounts))
    ∧ accounts.group = g ∧ accounts.pending_curator = c ∧ c.can_sign = true

/-- Writing one group changes its own curator and no other's. -/
theorem State.curator_insert {s s' : State} {k : Pubkey} {a : AddressGroup}
    (h : s'.address_groups = s.address_groups.insert k a) (g : Pubkey) :
    s'.curator g = if g = k then some a.curator else s.curator g := by
  unfold State.curator
  rw [h, Finmap.lookup_insert_ite]
  split_ifs
  · rfl
  · rfl

theorem State.pending_curator_insert {s s' : State} {k : Pubkey} {a : AddressGroup}
    (h : s'.address_groups = s.address_groups.insert k a) (g : Pubkey) :
    s'.pending_curator g = if g = k then a.pending_curator else s.pending_curator g := by
  unfold State.pending_curator
  rw [h, Finmap.lookup_insert_ite]
  split_ifs
  · rfl
  · rfl

/-- What one instruction does to the office of curator. -/
inductive CuratorMove (g : Pubkey) (e : Event) : Prop
  | kept (curator : e.post.curator g = e.pre.curator g)
      (pending : e.post.pending_curator g = e.pre.pending_curator g)
  | opened (c : Pubkey) (opens : OpensGroup g e c) (curator : e.post.curator g = some c)
      (pending : e.post.pending_curator g = none)
  | nominated (curator : e.post.curator g = e.pre.curator g)
      (nominates : ∀ c, e.post.pending_curator g = some c → NominatesCurator g e c)
  | accepted (c : Pubkey) (accepts : AcceptsCurator g e c) (was : e.pre.pending_curator g = some c)
      (curator : e.post.curator g = some c) (pending : e.post.pending_curator g = none)

/-- An event that writes no group leaves every curator in office. -/
theorem CuratorMove.of_groups {g : Pubkey} {e : Event}
    (h : e.post.address_groups = e.pre.address_groups) : CuratorMove g e := by
  refine .kept ?_ ?_
  · unfold State.curator
    rw [h]
  · unfold State.pending_curator
    rw [h]

/-- An event that writes another group leaves this one's curator. -/
theorem CuratorMove.of_insert {g k : Pubkey} {a : AddressGroup} {e : Event} (hg : g ≠ k)
    (h : e.post.address_groups = e.pre.address_groups.insert k a) : CuratorMove g e := by
  refine .kept ?_ ?_
  · rw [State.curator_insert h, if_neg hg]
  · rw [State.pending_curator_insert h, if_neg hg]

/-- What each instruction does to the curator of a group: most do nothing, one opens the group, one
nominates, one takes over. -/
theorem curator_move {rt : Runtime} {e : Event} (hv : e.Valid (step rt)) (g : Pubkey) :
    CuratorMove g e := by
  rcases (policy_move hv).whitelists with hsame | ⟨ix, hix, hok⟩
  · exact .of_groups (congrArg WhitelistRecords.address_groups hsame)
  have hwrite := whitelist_write hok
  cases hwrite with
  | opened accounts name is_public signs fresh named word records =>
    have hgroups := congrArg WhitelistRecords.address_groups records
    by_cases hg : g = address_group_address whitelist_config_address
        e.pre.whitelist_config.next_group_id
    · have hnone : e.pre.curator g = none := by
        unfold State.curator
        rw [hg, fresh]
        rfl
      refine .opened accounts.curator ⟨accounts, name, is_public, hix, rfl, signs, hnone⟩ ?_ ?_
      · rw [State.curator_insert hgroups, if_pos hg]
        rfl
      · rw [State.pending_curator_insert hgroups, if_pos hg]
        rfl
    · exact .of_insert hg hgroups
  | configured accounts is_public resolver pending_curator a signs group curator candidate records =>
    have hgroups := congrArg WhitelistRecords.address_groups records
    by_cases hg : g = accounts.group
    · have hcurator : e.pre.curator g = some a.curator := by
        unfold State.curator
        rw [hg, group]
        rfl
      cases pending_curator with
      | none =>
        -- a call that does not mention the candidate leaves it
        refine .kept ?_ ?_
        · rw [State.curator_insert hgroups, if_pos hg, hcurator]
        · rw [State.pending_curator_insert hgroups, if_pos hg]
          unfold State.pending_curator
          rw [hg, group]
          rfl
      | some value =>
        refine .nominated ?_ fun c hc => ?_
        · rw [State.curator_insert hgroups, if_pos hg, hcurator]
        · rw [State.pending_curator_insert hgroups, if_pos hg] at hc
          have hvalue : value = some c := hc
          rw [hvalue] at hix
          rw [← curator] at hcurator
          exact ⟨accounts, is_public, resolver, hix, hg.symm, signs, hcurator⟩
    · exact .of_insert hg hgroups
  | accepted accounts a signs group pending records =>
    have hgroups := congrArg WhitelistRecords.address_groups records
    by_cases hg : g = accounts.group
    · refine .accepted accounts.pending_curator ⟨accounts, hix, hg.symm, rfl, signs⟩ ?_ ?_ ?_
      · unfold State.pending_curator
        rw [hg, group]
        exact pending
      · rw [State.curator_insert hgroups, if_pos hg]
      · rw [State.pending_curator_insert hgroups, if_pos hg]
    · exact .of_insert hg hgroups
  -- the rest write members and whitelists
  | member accounts active a signs group curator records =>
    refine .of_groups ?_
    rw [records]
  | self_member accounts active a signs group is_public records =>
    refine .of_groups ?_
    rw [records]
  | whitelist accounts enabled d authority fresh records =>
    refine .of_groups ?_
    rw [records]
  | enabled accounts enabled d w authority found records =>
    refine .of_groups ?_
    rw [records]
  | allowed accounts group allowed d w a groups authority found group_eq toggled records =>
    refine .of_groups ?_
    rw [records]
  | taker accounts taker active d w authority found records =>
    refine .of_groups ?_
    rw [records]

/-- A curator, once appointed, is an office with a two-step handover. -/
theorem CuratorMove.office {g : Pubkey} {e : Event} (h : CuratorMove g e) :
    TxMachine.OfficeMove (State.curator g) (State.pending_curator g) (NominatesCurator g) e := by
  cases h with
  | kept curator pending => exact .kept curator pending
  | opened c opens curator pending => exact .vacated pending
  | nominated curator nominates => exact .nominated curator nominates
  | accepted c accepts was curator pending => exact .vacated pending

theorem genesis_groups {rt : Runtime} {s : State} (h : genesis rt s) : s.address_groups = ∅ := by
  obtain ⟨_, _, _, _, _, _, _, -, -, -, rfl⟩ := genesis_initialized h
  rfl

/-- A group never loses its curator, and gets a new one only by being opened by it or by agreement:
the new curator accepts, and the last nomination before names it and was signed by the old curator,
in office ever since. -/
theorem curator_changes_by_agreement {rt : Runtime} {es : List Event} {s : State} (h : Run rt es s)
    {past future : List Event} {e : Event} (hes : es = past ++ e :: future) {g : Pubkey}
    (hchange : e.post.curator g ≠ e.pre.curator g) :
    ∃ c, e.post.curator g = some c
      ∧ (OpensGroup g e c ∨ AcceptsCurator g e c
        ∧ ∃ before p between, past = before ++ p :: between ∧ NominatesCurator g p c
          ∧ p.pre.curator g = e.pre.curator g
          ∧ ∀ q ∈ between, q.pre.curator g = e.pre.curator g ∧ q.post.curator g = e.pre.curator g
            ∧ q.post.pending_curator g = some c) := by
  have he : e ∈ es := by
    rw [hes]
    exact List.mem_append_right _ List.mem_cons_self
  cases curator_move (h.valid e he) g with
  | kept curator pending => exact absurd curator hchange
  | nominated curator nominates => exact absurd curator hchange
  | opened c opens curator pending => exact ⟨c, curator, .inl opens⟩
  | accepted c accepts was curator pending =>
    -- before the group exists it has neither curator nor candidate
    have hvacant : ∀ s₀, genesis rt s₀ → s₀.pending_curator g = none := by
      intro s₀ h₀
      unfold State.pending_curator
      rw [genesis_groups h₀]
      rfl
    have hlaw : TxMachine.OfficeLaw (State.curator g) (State.pending_curator g) (NominatesCurator g)
        past e.pre :=
      TxMachine.Run.nominated_at (G := fun _ => True) hvacant
        (fun _ _ hv => (curator_move hv g).office) h (fun _ _ => trivial) hes
    obtain ⟨before, p, between, hpast, hp, hholder, -, hbetween⟩ := hlaw _ was
    refine ⟨c, curator, .inr ⟨accepts, before, p, between, hpast, hp, hholder, fun q hq => ?_⟩⟩
    obtain ⟨hpre, hpost, -, hcandidate⟩ := hbetween q hq
    exact ⟨hpre, hpost, hcandidate⟩

/-- A group is opened and handed on, after its first candidate was replaced. -/
def sample_group : Pubkey := address_group_address whitelist_config_address 0

def sample_curators : TxContext × List TopLevel :=
  (sample_ctx 1500,
    [.program (.whitelists (.create_address_group ⟨sample_depositor⟩ [0x67] false)),
      .program (.whitelists (.configure_address_group ⟨sample_depositor, sample_group, none⟩ none none
        (some (some sample_taker)))),
      .program (.whitelists (.configure_address_group ⟨sample_depositor, sample_group, none⟩ none none
        (some (some sample_staker)))),
      .program (.whitelists (.accept_group_curator ⟨sample_staker, sample_group⟩))])

/-- A run in which a group is opened and its curator replaced, with the nomination that came
before. -/
theorem curator_changes_by_agreement_replaced :
    ∃ es s past e future, Run sample_runtime es s ∧ es = past ++ e :: future
      ∧ e.pre.curator sample_group = some sample_depositor
      ∧ e.post.curator sample_group = some sample_staker
      ∧ ∃ p ∈ past, NominatesCurator sample_group p sample_staker := by
  obtain ⟨es, s, hrun, hgood⟩ := sample_reaches [sample_curators]
    (fun es _ => es.any fun e => decide (e.pre.curator sample_group = some sample_depositor
      ∧ e.post.curator sample_group = some sample_staker)) (by decide +kernel)
  simp only [List.any_eq_true, decide_eq_true_eq] at hgood
  obtain ⟨e, he, hpre, hpost⟩ := hgood
  obtain ⟨past, future, hes⟩ := List.append_of_mem he
  have hchange : e.post.curator sample_group ≠ e.pre.curator sample_group := by
    rw [hpre, hpost]
    decide
  obtain ⟨c, hc, hhow⟩ := curator_changes_by_agreement hrun hes hchange
  have hstaker : c = sample_staker := Option.some.inj (hc.symm.trans hpost)
  rw [hstaker] at hhow
  rcases hhow with ⟨_, _, _, -, -, -, hnone⟩ | ⟨-, before, p, between, hpast, hp, -, -⟩
  · rw [hpre] at hnone
    cases hnone
  · refine ⟨es, s, past, e, future, hrun, hes, hpre, hpost, p, ?_, hp⟩
    rw [hpast]
    exact List.mem_append_right _ List.mem_cons_self

end Zkp2pSolana
