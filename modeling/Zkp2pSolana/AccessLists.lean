/-
Access lists, over a whole run.

Admission reads four kinds of yes and no from the whitelist records: whether a
deposit enforces its whitelist, whether it lists a taker, whether it allows a
group, and whether a group has an account. Each is decided by instructions, and
each stands for the last decision of the log, taken by somebody who was entitled
to it at that moment. So whether a taker is whitelisted can be read off the log.
-/
import Zkp2pSolana.Lib.TxHistory
import Zkp2pSolana.Admission
import Zkp2pSolana.Issuance

set_option autoImplicit false

namespace Zkp2pSolana

open Result Zkp2pError

/-! ## What is decided -/

/-- A yes or no that an instruction decides and admission reads. -/
inductive AccessFact where
  | enforced (deposit : Pubkey)
  | listed (deposit taker : Pubkey)
  | allowed (deposit : Pubkey) (group : Bytes 32)
  | curated (group account : Pubkey)

namespace AccessFact

/-- What the records say. -/
def view : AccessFact → State → Option Bool
  | .enforced k, s =>
    (s.deposit_whitelists.lookup (deposit_whitelist_address k)).map DepositWhitelist.enabled
  | .listed k taker, s =>
    (s.whitelist_members.lookup (whitelist_member_address (deposit_whitelist_address k) taker)).map
      DepositWhitelistMember.active
  | .allowed k group, s =>
    (s.deposit_whitelists.lookup (deposit_whitelist_address k)).map
      fun w => decide (group ∈ w.allowed_groups)
  | .curated g account, s =>
    (s.group_members.lookup (group_member_address g account)).map GroupMember.active

/-- What an instruction decides. -/
def decided (s : State) : AccessFact → WhitelistInstruction → Option Bool
  | .enforced k, .initialize_deposit_whitelist accounts enabled =>
    if accounts.deposit = k then some enabled else none
  | .enforced k, .set_whitelist_enabled accounts enabled =>
    if accounts.deposit = k then some enabled else none
  | .listed k taker, .set_deposit_whitelist_member accounts member active =>
    if accounts.deposit = k ∧ member = taker then some active else none
  -- a new whitelist allows no group
  | .allowed k _, .initialize_deposit_whitelist accounts _ =>
    if accounts.deposit = k then some false else none
  | .allowed k id, .set_deposit_allowed_group accounts group value =>
    if accounts.deposit = k ∧ (s.address_groups.lookup group).map AddressGroup.id = some id then
      some value
    else none
  | .curated g account, .set_group_member accounts active =>
    if accounts.group = g ∧ accounts.member_address = account then some active else none
  | .curated g account, .set_self_group_member accounts active =>
    if accounts.group = g ∧ accounts.member_address = account then some active else none
  | _, _ => none

/-- What an event decides. -/
def written (f : AccessFact) (e : Event) : Option Bool :=
  match e.ix with
  | .program (.whitelists ix) => f.decided e.pre ix
  | _ => none

/-- Who decides: the depositor or its delegate, and the curator or, of a public group, the account
itself. -/
def Entitled (f : AccessFact) (s : State) (o : Pubkey) : Prop :=
  match f with
  | .enforced k | .listed k _ | .allowed k _ =>
    ∃ d, s.deposits.lookup k = some d ∧ (d.depositor = o ∨ d.delegate = some o)
  | .curated g account =>
    ∃ group, s.address_groups.lookup g = some group
      ∧ (o = group.curator ∨ (group.is_public = true ∧ o = account))

/-- What a whitelist instruction writes of a fact is what it decides. -/
theorem written_of_ix {f : AccessFact} {e : Event} {ix : WhitelistInstruction}
    (hix : e.ix = .program (.whitelists ix)) : f.written e = f.decided e.pre ix := by
  unfold written
  rw [hix]

theorem written_none {f : AccessFact} {e : Event} (hix : ∀ ix, e.ix ≠ .program (.whitelists ix)) :
    f.written e = none := by
  unfold written
  split
  · rename_i heq
    exact absurd heq (hix _)
  · rfl

end AccessFact

/-! ## The records are where they say -/

/-- The whitelist records name the addresses they sit at, and no group is allowed twice. -/
structure AccessOk (s : State) : Prop where
  members : ∀ k m, s.whitelist_members.lookup k = some m →
    k = whitelist_member_address m.deposit_whitelist m.taker
  curated : ∀ k m, s.group_members.lookup k = some m → k = group_member_address m.group m.member
  groups : ∀ k w, s.deposit_whitelists.lookup k = some w →
    w.allowed_groups.Nodup ∧ w.allowed_groups.length ≤ MAX_GROUPS_PER_DEPOSIT

/-- A group is appended when it is not yet allowed and there is room, and erased when it is;
anything else is an error. -/
theorem toggle_group_ok {groups groups' : List (Bytes 32)} {id : Bytes 32} {allowed : Bool}
    (h : toggle_group groups id allowed = .ok groups') :
    (allowed = true ∧ id ∉ groups ∧ groups.length < MAX_GROUPS_PER_DEPOSIT ∧ groups' = groups ++ [id])
      ∨ (allowed = false ∧ id ∈ groups ∧ groups' = groups.erase id) := by
  by_cases hmem : id ∈ groups
  · cases allowed with
    | true => simp [toggle_group, toggle, hmem, throw, throwThe, MonadExceptOf.throw] at h
    | false =>
      simp only [toggle_group, toggle, hmem, decide_true, bind_eq_ok, pure_eq_ok] at h
      obtain ⟨_, -, rfl⟩ := h
      exact .inr ⟨rfl, hmem, rfl⟩
  · cases allowed with
    | true =>
      simp only [toggle_group, toggle, hmem, decide_false, bind_eq_ok, require_eq_ok, exists_const,
        pure_eq_ok] at h
      obtain ⟨hroom, rfl⟩ := h
      exact .inl ⟨rfl, hmem, hroom, rfl⟩
    | false => simp [toggle_group, toggle, hmem, throw, throwThe, MonadExceptOf.throw] at h

/-- A toggled list has the group exactly if it was to be allowed, and the others as before. -/
theorem toggle_group_mem {groups groups' : List (Bytes 32)} {id : Bytes 32} {allowed : Bool}
    (hdistinct : groups.Nodup) (h : toggle_group groups id allowed = .ok groups') (id' : Bytes 32) :
    decide (id' ∈ groups') = if id = id' then allowed else decide (id' ∈ groups) := by
  rcases toggle_group_ok h with ⟨rfl, -, -, rfl⟩ | ⟨rfl, -, rfl⟩
  · by_cases hid : id = id'
    · simp [hid]
    · simp [hid, Ne.symm hid]
  · by_cases hid : id = id'
    · rw [if_pos hid, ← hid]
      simp [hdistinct.not_mem_erase]
    · rw [if_neg hid, decide_eq_decide]
      exact List.mem_erase_of_ne (Ne.symm hid)

/-- The toggle keeps the allowed groups distinct and within their bound. -/
theorem toggle_group_distinct {groups groups' : List (Bytes 32)} {id : Bytes 32} {allowed : Bool}
    (hdistinct : groups.Nodup ∧ groups.length ≤ MAX_GROUPS_PER_DEPOSIT)
    (h : toggle_group groups id allowed = .ok groups') :
    groups'.Nodup ∧ groups'.length ≤ MAX_GROUPS_PER_DEPOSIT := by
  rcases toggle_group_ok h with ⟨-, hnew, hroom, rfl⟩ | ⟨-, hmem, rfl⟩
  · refine ⟨List.nodup_append.mpr ⟨hdistinct.1, List.nodup_singleton _, ?_⟩, ?_⟩
    · intro x hx y hy
      rw [List.mem_singleton.mp hy]
      exact fun heq => hnew (heq ▸ hx)
    · rw [List.length_append, List.length_singleton]
      omega
  · exact ⟨hdistinct.1.erase id, (List.length_erase_le).trans hdistinct.2⟩

section Step

variable {rt : Runtime} {e : Event}

/-- Every instruction keeps the access records in order. -/
theorem AccessOk.step (hv : e.Valid (step rt)) (hs : AccessOk e.pre) : AccessOk e.post := by
  -- each instruction writes at most one of the three tables; these carry the other two over
  have hmembers : e.post.whitelist_members = e.pre.whitelist_members →
      ∀ k m, e.post.whitelist_members.lookup k = some m →
        k = whitelist_member_address m.deposit_whitelist m.taker := by
    intro hsame
    rw [hsame]
    exact hs.members
  have hcurated : e.post.group_members = e.pre.group_members →
      ∀ k m, e.post.group_members.lookup k = some m → k = group_member_address m.group m.member := by
    intro hsame
    rw [hsame]
    exact hs.curated
  have hgroups : e.post.deposit_whitelists = e.pre.deposit_whitelists →
      ∀ k w, e.post.deposit_whitelists.lookup k = some w →
        w.allowed_groups.Nodup ∧ w.allowed_groups.length ≤ MAX_GROUPS_PER_DEPOSIT := by
    intro hsame
    rw [hsame]
    exact hs.groups
  rcases whitelists_event hv with ⟨ix, -, hwrite⟩ | ⟨-, records⟩
  · cases hwrite with
    | opened accounts name is_public signs fresh named word records =>
      exact ⟨hmembers (congrArg (·.whitelist_members) records),
        hcurated (congrArg (·.group_members) records),
        hgroups (congrArg (·.deposit_whitelists) records)⟩
    | configured accounts is_public resolver pending_curator g signs group curator candidate records =>
      exact ⟨hmembers (congrArg (·.whitelist_members) records),
        hcurated (congrArg (·.group_members) records),
        hgroups (congrArg (·.deposit_whitelists) records)⟩
    | accepted accounts g signs group pending records =>
      exact ⟨hmembers (congrArg (·.whitelist_members) records),
        hcurated (congrArg (·.group_members) records),
        hgroups (congrArg (·.deposit_whitelists) records)⟩
    | member accounts active g signs group curator records =>
      refine ⟨hmembers (congrArg (·.whitelist_members) records),
        ?_,
        hgroups (congrArg (·.deposit_whitelists) records)⟩
      rw [congrArg (·.group_members) records]
      exact stored_insert hs.curated rfl
    | self_member accounts active g signs group is_public records =>
      refine ⟨hmembers (congrArg (·.whitelist_members) records),
        ?_,
        hgroups (congrArg (·.deposit_whitelists) records)⟩
      rw [congrArg (·.group_members) records]
      exact stored_insert hs.curated rfl
    -- a whitelist starts without groups
    | whitelist accounts enabled d authority fresh records =>
      refine ⟨hmembers (congrArg (·.whitelist_members) records),
        hcurated (congrArg (·.group_members) records),
        ?_⟩
      rw [congrArg (·.deposit_whitelists) records]
      exact stored_insert hs.groups ⟨List.nodup_nil, Nat.zero_le _⟩
    | enabled accounts enabled d w authority found records =>
      refine ⟨hmembers (congrArg (·.whitelist_members) records),
        hcurated (congrArg (·.group_members) records),
        ?_⟩
      rw [congrArg (·.deposit_whitelists) records]
      exact stored_insert hs.groups (hs.groups _ w found)
    | allowed accounts group allowed d w g groups authority found group_eq toggled records =>
      refine ⟨hmembers (congrArg (·.whitelist_members) records),
        hcurated (congrArg (·.group_members) records),
        ?_⟩
      rw [congrArg (·.deposit_whitelists) records]
      -- the toggle refuses a repetition and a group beyond the bound
      exact stored_insert hs.groups (toggle_group_distinct (hs.groups _ w found) toggled)
    | taker accounts taker active d w authority found records =>
      refine ⟨?_,
        hcurated (congrArg (·.group_members) records),
        hgroups (congrArg (·.deposit_whitelists) records)⟩
      rw [congrArg (·.whitelist_members) records]
      exact stored_insert hs.members rfl
  · exact ⟨hmembers (congrArg (·.whitelist_members) records),
      hcurated (congrArg (·.group_members) records),
      hgroups (congrArg (·.deposit_whitelists) records)⟩

end Step

theorem genesis_access {rt : Runtime} {s : State} (h : genesis rt s) :
    AccessOk s ∧ ∀ f : AccessFact, f.view s = none := by
  obtain ⟨_, _, _, _, _, _, _, -, -, -, rfl⟩ := genesis_initialized h
  refine ⟨⟨fun k m hm => ?_, fun k m hm => ?_, fun k w hw => ?_⟩, fun f => ?_⟩
  · exact absurd hm (by simp [initial_state])
  · exact absurd hm (by simp [initial_state])
  · exact absurd hw (by simp [initial_state])
  · cases f
    all_goals simp [AccessFact.view, initial_state]

/-- The access records are in order in every state of a run. -/
theorem Run.access {rt : Runtime} {es : List Event} {s : State} (h : Run rt es s) :
    AccessOk s ∧ ∀ e ∈ es, AccessOk e.pre ∧ AccessOk e.post :=
  TxMachine.Run.invariant (G := fun _ => True) (fun _ h₀ => (genesis_access h₀).1)
    (fun e _ hv hs => AccessOk.step (e := e) hv hs) h fun _ _ => trivial

/-! ## One decision -/

/-- A field of a table after one entry is written. -/
theorem map_lookup_insert {α β : Type} (t : Accounts α) {k k' : Pubkey} {v : α} {P : Prop}
    [Decidable P] (hP : k = k' ↔ P) (f : α → β) :
    ((t.insert k v).lookup k').map f = (if P then some (f v) else none).or ((t.lookup k').map f) := by
  rw [Finmap.lookup_insert_ite]
  by_cases h : P
  · rw [if_pos h, if_pos (hP.mpr h).symm, Option.some_or, Option.map_some]
  · rw [if_neg h, if_neg fun heq => h (hP.mp heq.symm), Option.none_or]

section Decisions

variable {rt : Runtime} {s s' : State} {ix : WhitelistInstruction}

/-- Whether a whitelist is enabled is what the instruction decided, or else what it was. -/
theorem enforced_decided
    (h : WhitelistWrite rt s.deposits s.toWhitelistRecords s'.toWhitelistRecords ix) (k : Pubkey) :
    (AccessFact.enforced k).view s'
      = ((AccessFact.enforced k).decided s ix).or ((AccessFact.enforced k).view s) := by
  have hkept : s'.deposit_whitelists = s.deposit_whitelists →
      (AccessFact.enforced k).decided s ix = none → (AccessFact.enforced k).view s'
        = ((AccessFact.enforced k).decided s ix).or ((AccessFact.enforced k).view s) := by
    intro hsame hnone
    rw [hnone, Option.none_or]
    simp only [AccessFact.view, hsame]
  cases h with
  | whitelist accounts enabled d authority fresh records =>
    have htable := congrArg (·.deposit_whitelists) records
    simp only [AccessFact.view, AccessFact.decided] at htable ⊢
    rw [htable]
    exact map_lookup_insert _ (by rw [Pubkey.pda_key.injEq]; simp) _
  | enabled accounts enabled d w authority found records =>
    have htable := congrArg (·.deposit_whitelists) records
    simp only [AccessFact.view, AccessFact.decided] at htable ⊢
    rw [htable]
    exact map_lookup_insert _ (by rw [Pubkey.pda_key.injEq]; simp) _
  | allowed accounts group allowed d w g groups authority found group_eq toggled records =>
    -- the flag is written back as it was
    have htable := congrArg (·.deposit_whitelists) records
    simp only [AccessFact.view, AccessFact.decided, Option.none_or] at htable ⊢
    rw [htable, Finmap.lookup_insert_ite]
    by_cases hk : deposit_whitelist_address k = deposit_whitelist_address accounts.deposit
    · rw [if_pos hk, hk, found]
      rfl
    · rw [if_neg hk]
  | opened accounts name is_public signs fresh named word records =>
    exact hkept (congrArg (·.deposit_whitelists) records) rfl
  | configured accounts is_public resolver pending_curator g signs group curator candidate records =>
    exact hkept (congrArg (·.deposit_whitelists) records) rfl
  | accepted accounts g signs group pending records =>
    exact hkept (congrArg (·.deposit_whitelists) records) rfl
  | member accounts active g signs group curator records =>
    exact hkept (congrArg (·.deposit_whitelists) records) rfl
  | self_member accounts active g signs group is_public records =>
    exact hkept (congrArg (·.deposit_whitelists) records) rfl
  | taker accounts taker active d w authority found records =>
    exact hkept (congrArg (·.deposit_whitelists) records) rfl

/-- Whether a group is allowed is what the instruction decided, or else what it was. Distinctness is
what makes an erased group gone. -/
theorem allowed_decided
    (h : WhitelistWrite rt s.deposits s.toWhitelistRecords s'.toWhitelistRecords ix)
    (hs : AccessOk s) (k : Pubkey) (id : Bytes 32) :
    (AccessFact.allowed k id).view s'
      = ((AccessFact.allowed k id).decided s ix).or ((AccessFact.allowed k id).view s) := by
  -- what does not write the whitelists decides nothing about allowed groups
  have hkept : s'.deposit_whitelists = s.deposit_whitelists →
      (AccessFact.allowed k id).decided s ix = none → (AccessFact.allowed k id).view s'
        = ((AccessFact.allowed k id).decided s ix).or ((AccessFact.allowed k id).view s) := by
    intro hsame hnone
    rw [hnone, Option.none_or]
    simp only [AccessFact.view, hsame]
  cases h with
  | whitelist accounts enabled d authority fresh records =>
    have htable := congrArg (·.deposit_whitelists) records
    simp only [AccessFact.view, AccessFact.decided] at htable ⊢
    rw [htable]
    have hkey : deposit_whitelist_address accounts.deposit = deposit_whitelist_address k
        ↔ accounts.deposit = k := by
      rw [Pubkey.pda_key.injEq]
      simp
    -- a new whitelist decides every group at once: none is allowed
    have hempty := map_lookup_insert s.deposit_whitelists
      (v := DepositWhitelist.mk accounts.deposit enabled true []) hkey
      (fun w => decide (id ∈ w.allowed_groups))
    simpa using hempty
  | enabled accounts enabled d w authority found records =>
    have htable := congrArg (·.deposit_whitelists) records
    simp only [AccessFact.view, AccessFact.decided, Option.none_or] at htable ⊢
    -- enabling rewrites the record with the groups it had
    rw [htable, Finmap.lookup_insert_ite]
    by_cases hk : deposit_whitelist_address k = deposit_whitelist_address accounts.deposit
    · rw [if_pos hk, hk, found]
      rfl
    · rw [if_neg hk]
  | allowed accounts group allowed d w g groups authority found group_eq toggled records =>
    have htable := congrArg (·.deposit_whitelists) records
    simp only [AccessFact.view, AccessFact.decided] at htable ⊢
    rw [htable, Finmap.lookup_insert_ite, group_eq, Option.map_some]
    by_cases hk : accounts.deposit = k
    -- membership after the toggle is what was asked for, of the toggled group, and as before of the
    -- others
    · have hmem := toggle_group_mem (hs.groups _ w found).1 toggled id
      rw [← hk, if_pos rfl, found, Option.map_some, Option.map_some, hmem]
      by_cases hid : g.id = id
      · simp [hid]
      · simp [hid]
    · have hne : deposit_whitelist_address k ≠ deposit_whitelist_address accounts.deposit :=
        Pubkey.pda_key_ne (Ne.symm hk)
      rw [if_neg hne, if_neg fun hboth => hk hboth.1, Option.none_or]
  | opened accounts name is_public signs fresh named word records =>
    exact hkept (congrArg (·.deposit_whitelists) records) rfl
  | configured accounts is_public resolver pending_curator g signs group curator candidate records =>
    exact hkept (congrArg (·.deposit_whitelists) records) rfl
  | accepted accounts g signs group pending records =>
    exact hkept (congrArg (·.deposit_whitelists) records) rfl
  | member accounts active g signs group curator records =>
    exact hkept (congrArg (·.deposit_whitelists) records) rfl
  | self_member accounts active g signs group is_public records =>
    exact hkept (congrArg (·.deposit_whitelists) records) rfl
  | taker accounts taker active d w authority found records =>
    exact hkept (congrArg (·.deposit_whitelists) records) rfl

/-- The same for a deposit's own members. -/
theorem listed_decided
    (h : WhitelistWrite rt s.deposits s.toWhitelistRecords s'.toWhitelistRecords ix)
    (k taker : Pubkey) :
    (AccessFact.listed k taker).view s'
      = ((AccessFact.listed k taker).decided s ix).or ((AccessFact.listed k taker).view s) := by
  -- only `set_deposit_whitelist_member` writes the members of a deposit
  have hkept : s'.whitelist_members = s.whitelist_members →
      (AccessFact.listed k taker).decided s ix = none → (AccessFact.listed k taker).view s'
        = ((AccessFact.listed k taker).decided s ix).or ((AccessFact.listed k taker).view s) := by
    intro hsame hnone
    rw [hnone, Option.none_or]
    simp only [AccessFact.view, hsame]
  cases h with
  | taker accounts member active d w authority found records =>
    have htable := congrArg (·.whitelist_members) records
    simp only [AccessFact.view, AccessFact.decided] at htable ⊢
    rw [htable]
    exact map_lookup_insert _ (by rw [Pubkey.pda_keys.injEq, Pubkey.pda_key.injEq]; simp) _
  | whitelist accounts enabled d authority fresh records =>
    exact hkept (congrArg (·.whitelist_members) records) rfl
  | enabled accounts enabled d w authority found records =>
    exact hkept (congrArg (·.whitelist_members) records) rfl
  | allowed accounts group allowed d w g groups authority found group_eq toggled records =>
    exact hkept (congrArg (·.whitelist_members) records) rfl
  | opened accounts name is_public signs fresh named word records =>
    exact hkept (congrArg (·.whitelist_members) records) rfl
  | configured accounts is_public resolver pending_curator g signs group curator candidate records =>
    exact hkept (congrArg (·.whitelist_members) records) rfl
  | accepted accounts g signs group pending records =>
    exact hkept (congrArg (·.whitelist_members) records) rfl
  | member accounts active g signs group curator records =>
    exact hkept (congrArg (·.whitelist_members) records) rfl
  | self_member accounts active g signs group is_public records =>
    exact hkept (congrArg (·.whitelist_members) records) rfl

theorem curated_decided
    (h : WhitelistWrite rt s.deposits s.toWhitelistRecords s'.toWhitelistRecords ix)
    (g account : Pubkey) :
    (AccessFact.curated g account).view s'
      = ((AccessFact.curated g account).decided s ix).or ((AccessFact.curated g account).view s) := by
  -- two instructions write the members of a group: its curator's and the member's own
  have hkept : s'.group_members = s.group_members →
      (AccessFact.curated g account).decided s ix = none → (AccessFact.curated g account).view s'
        = ((AccessFact.curated g account).decided s ix).or ((AccessFact.curated g account).view s) := by
    intro hsame hnone
    rw [hnone, Option.none_or]
    simp only [AccessFact.view, hsame]
  cases h with
  | member accounts active group signs found curator records =>
    have htable := congrArg (·.group_members) records
    simp only [AccessFact.view, AccessFact.decided] at htable ⊢
    rw [htable]
    exact map_lookup_insert _ (by rw [Pubkey.pda_keys.injEq]; simp) _
  | self_member accounts active group signs found is_public records =>
    have htable := congrArg (·.group_members) records
    simp only [AccessFact.view, AccessFact.decided] at htable ⊢
    rw [htable]
    exact map_lookup_insert _ (by rw [Pubkey.pda_keys.injEq]; simp) _
  | taker accounts member active d w authority found records =>
    exact hkept (congrArg (·.group_members) records) rfl
  | whitelist accounts enabled d authority fresh records =>
    exact hkept (congrArg (·.group_members) records) rfl
  | enabled accounts enabled d w authority found records =>
    exact hkept (congrArg (·.group_members) records) rfl
  | allowed accounts group allowed d w g groups authority found group_eq toggled records =>
    exact hkept (congrArg (·.group_members) records) rfl
  | opened accounts name is_public signs fresh named word records =>
    exact hkept (congrArg (·.group_members) records) rfl
  | configured accounts is_public resolver pending_curator g signs group curator candidate records =>
    exact hkept (congrArg (·.group_members) records) rfl
  | accepted accounts g signs group pending records =>
    exact hkept (congrArg (·.group_members) records) rfl

end Decisions

/-- The four together: after an event each fact reads as the event wrote it, or as before. -/
theorem access_decided {rt : Runtime} {e : Event} (hv : e.Valid (step rt)) (hs : AccessOk e.pre)
    (f : AccessFact) : f.view e.post = (f.written e).or (f.view e.pre) := by
  rcases whitelists_event hv with ⟨ix, hix, hwrite⟩ | ⟨hix, hsame⟩
  · rw [AccessFact.written_of_ix hix]
    cases f with
    | enforced k => exact enforced_decided hwrite k
    | listed k taker => exact listed_decided hwrite k taker
    | allowed k id => exact allowed_decided hwrite hs k id
    | curated g account => exact curated_decided hwrite g account
  · rw [AccessFact.written_none hix, Option.none_or]
    have hwhitelists := congrArg (·.deposit_whitelists) hsame
    have hmembers := congrArg (·.whitelist_members) hsame
    have hcurated := congrArg (·.group_members) hsame
    cases f
    all_goals simp only [AccessFact.view, hwhitelists, hmembers, hcurated]

/-! ## Who decided -/

section Entitlement

variable {rt : Runtime} {e : Event}

/-- A depositor or delegate that acts for the deposit `k` decides what `k` says. -/
theorem ActsFor.decides {accounts : DepositAuthority} {ix : WhitelistInstruction} {d : Deposit}
    (h : ActsFor accounts e.pre.deposits d) (hix : e.ix = .program (.whitelists ix))
    (hsigner : ix.signer = accounts.authority) :
    ∃ o, (∃ d, e.pre.deposits.lookup accounts.deposit = some d
      ∧ (d.depositor = o ∨ d.delegate = some o)) ∧ SignedByKey e o :=
  ⟨accounts.authority, ⟨d, h.deposit, h.authority⟩, _, hix, hsigner, h.signs⟩

/-- Where a conditional decision was taken, its condition held. -/
theorem of_decision {P : Prop} [Decidable P] {a b : Bool}
    (h : (if P then some a else none) = some b) : P := by
  by_contra hP
  rw [if_neg hP] at h
  cases h

/-- Every write of an access fact is signed by someone entitled to it at that moment. -/
theorem decided_by_entitled (hv : e.Valid (step rt)) {f : AccessFact} {v : Bool}
    (hf : f.written e = some v) : ∃ o, f.Entitled e.pre o ∧ SignedByKey e o := by
  rcases whitelists_event hv with ⟨ix, hix, hwrite⟩ | ⟨hix, -⟩
  · rw [AccessFact.written_of_ix hix] at hf
    -- by the fact, and then by the instructions that can decide it; the others decide nothing
    cases f with
    | enforced k =>
      cases hwrite with
      | whitelist accounts enabled d authority fresh records =>
        have hk : accounts.deposit = k := of_decision hf
        rw [← hk]
        exact authority.decides hix rfl
      | enabled accounts enabled d w authority found records =>
        have hk : accounts.deposit = k := of_decision hf
        rw [← hk]
        exact authority.decides hix rfl
      | _ => cases hf
    | listed k taker =>
      cases hwrite with
      | taker accounts member active d w authority found records =>
        have hk : accounts.deposit = k ∧ member = taker := of_decision hf
        rw [← hk.1]
        exact authority.decides hix rfl
      | _ => cases hf
    | allowed k id =>
      cases hwrite with
      | whitelist accounts enabled d authority fresh records =>
        have hk : accounts.deposit = k := of_decision hf
        rw [← hk]
        exact authority.decides hix rfl
      | allowed accounts group value d w g groups authority found group_eq toggled records =>
        have hk := of_decision hf
        rw [← hk.1]
        exact authority.decides hix rfl
      | _ => cases hf
    | curated g account =>
      cases hwrite with
      | member accounts active group signs found curator records =>
        have hg : accounts.group = g ∧ accounts.member_address = account := of_decision hf
        rw [← hg.1]
        exact ⟨accounts.curator, ⟨group, found, .inl curator⟩, _, hix, rfl, signs⟩
      | self_member accounts active group signs found is_public records =>
        have hg : accounts.group = g ∧ accounts.member_address = account := of_decision hf
        rw [← hg.1]
        -- a public group may be joined and left by the member alone
        exact ⟨accounts.member_address, ⟨group, found, .inr ⟨is_public, hg.2⟩⟩, _, hix, rfl, signs⟩
      | _ => cases hf
  · rw [AccessFact.written_none hix] at hf
    cases hf

end Entitlement

/-! ## The resolver of a group -/

/-- The resolver an event gives the group, or takes from it. -/
def resolver_written (g : Pubkey) (e : Event) : Option (Option Pubkey) :=
  match e.ix with
  | .program (.whitelists (.create_address_group _ _ _)) =>
    if address_group_address whitelist_config_address e.pre.whitelist_config.next_group_id = g then
      some none
    else none
  | .program (.whitelists (.configure_address_group accounts _ resolver _)) =>
    if accounts.group = g then resolver else none
  | _ => none

/-- A group's resolver is what the event wrote, or what it was, and whoever wrote it signed as the
curator. -/
theorem resolver_decided {rt : Runtime} {e : Event} (hv : e.Valid (step rt)) (g : Pubkey) :
    (e.post.address_groups.lookup g).map AddressGroup.resolver
        = (resolver_written g e).or ((e.pre.address_groups.lookup g).map AddressGroup.resolver)
      ∧ ∀ r, resolver_written g e = some r →
        ∃ group, e.post.address_groups.lookup g = some group ∧ SignedByKey e group.curator := by
  -- what does not write the groups leaves the resolver, and has nobody to name
  have hkept : e.post.address_groups = e.pre.address_groups → resolver_written g e = none →
      (e.post.address_groups.lookup g).map AddressGroup.resolver
          = (resolver_written g e).or ((e.pre.address_groups.lookup g).map AddressGroup.resolver)
        ∧ ∀ r, resolver_written g e = some r →
          ∃ group, e.post.address_groups.lookup g = some group ∧ SignedByKey e group.curator := by
    intro hsame hnone
    rw [hsame, hnone, Option.none_or]
    exact ⟨rfl, fun r hr => by cases hr⟩
  rcases whitelists_event hv with ⟨ix, hix, hwrite⟩ | ⟨hix, hsame⟩
  · cases hwrite with
    | opened accounts name is_public signs fresh named word records =>
      have htable := congrArg (·.address_groups) records
      simp only [resolver_written, hix] at htable ⊢
      rw [htable]
      refine ⟨map_lookup_insert _ Iff.rfl _, fun r hr => ?_⟩
      by_cases hg : address_group_address whitelist_config_address
          e.pre.whitelist_config.next_group_id = g
      · rw [← hg, Finmap.lookup_insert_ite, if_pos rfl]
        exact ⟨_, rfl, _, hix, rfl, signs⟩
      · rw [if_neg hg] at hr
        cases hr
    | configured accounts is_public resolver pending_curator group signs found curator candidate records =>
      have htable := congrArg (·.address_groups) records
      simp only [resolver_written, hix] at htable ⊢
      rw [htable, Finmap.lookup_insert_ite]
      by_cases hg : accounts.group = g
      · rw [if_pos hg, if_pos hg.symm, ← hg, found, Option.map_some, Option.map_some]
        refine ⟨?_, fun r hr => ⟨_, rfl, _, hix, curator, ?_⟩⟩
        -- `None` keeps the resolver the group had
        · cases resolver with
          | none => rfl
          | some r => rfl
        · show group.curator.can_sign = true
          rw [← curator]
          exact signs
      · rw [if_neg hg, if_neg (Ne.symm hg), Option.none_or]
        exact ⟨rfl, fun r hr => by cases hr⟩
    | accepted accounts group signs found pending records =>
      have hnone : resolver_written g e = none := by simp only [resolver_written, hix]
      have htable := congrArg (·.address_groups) records
      simp only at htable
      rw [hnone, Option.none_or, htable, Finmap.lookup_insert_ite]
      refine ⟨?_, fun r hr => by cases hr⟩
      by_cases hg : g = accounts.group
      · rw [if_pos hg, hg, found]
        rfl
      · rw [if_neg hg]
    | member accounts active group signs found curator records =>
      exact hkept (congrArg (·.address_groups) records) (by simp only [resolver_written, hix])
    | self_member accounts active group signs found is_public records =>
      exact hkept (congrArg (·.address_groups) records) (by simp only [resolver_written, hix])
    | whitelist accounts enabled d authority fresh records =>
      exact hkept (congrArg (·.address_groups) records) (by simp only [resolver_written, hix])
    | enabled accounts enabled d w authority found records =>
      exact hkept (congrArg (·.address_groups) records) (by simp only [resolver_written, hix])
    | allowed accounts group allowed d w g groups authority found group_eq toggled records =>
      exact hkept (congrArg (·.address_groups) records) (by simp only [resolver_written, hix])
    | taker accounts taker active d w authority found records =>
      exact hkept (congrArg (·.address_groups) records) (by simp only [resolver_written, hix])
  · refine hkept (congrArg (·.address_groups) hsame) ?_
    unfold resolver_written
    split
    · rename_i heq
      exact absurd heq (hix _)
    · rename_i heq
      exact absurd heq (hix _)
    · rfl

/-! ## Whole runs -/

/-- The id of the group with number `n`. -/
def group_id (rt : Runtime) (n : ℕ) : Bytes 32 :=
  rt.keccak (rt.as_ref whitelist_config_address ++ le_bytes 8 n)

/-- The last decision of the log on a fact. -/
def AccessFact.last (f : AccessFact) (es : List Event) : Option Bool :=
  TxMachine.last_write f.written es

/-- The log says yes: the deposit's whitelist was last switched on, and the taker was last listed by
the deposit, or last put into a group the deposit last allowed, or is confirmed by the program that
was last made the resolver of one. -/
def LogWhitelists (rt : Runtime) (ctx : TxContext) (es : List Event) (deposit taker : Pubkey) :
    Prop :=
  (AccessFact.enforced deposit).last es = some true
    ∧ ((AccessFact.listed deposit taker).last es = some true
      ∨ ∃ n ∈ es.filterMap (Numbered.issues .address_group),
        (AccessFact.allowed deposit (group_id rt n)).last es = some true
          ∧ ((AccessFact.curated (Numbered.address .address_group n) taker).last es = some true
            ∨ ∃ program keys,
              TxMachine.last_write (resolver_written (Numbered.address .address_group n)) es
                = some (some program)
              ∧ resolver_answer rt ctx program keys (group_id rt n) taker = true))

/-- Every fact of the records is the last decision of the log. -/
theorem Run.last_decision {rt : Runtime} {es : List Event} {s : State} (h : Run rt es s)
    (f : AccessFact) : f.view s = f.last es := by
  have hregister := TxMachine.Run.history (G := fun e => e.Valid (step rt))
    (P := fun es (s : State) => AccessOk s ∧ f.view s = TxMachine.last_write f.written es)
    ?_ ?_ h (TxMachine.Run.valid h)
  · exact hregister.2
  · intro s₀ h₀
    obtain ⟨hok, hnone⟩ := genesis_access h₀
    exact ⟨hok, hnone f⟩
  · intro es e _ hv hP
    refine ⟨AccessOk.step hv hP.1, ?_⟩
    rw [TxMachine.last_write_concat, ← hP.2]
    exact access_decided hv hP.1 f

theorem Run.last_resolver {rt : Runtime} {es : List Event} {s : State} (h : Run rt es s)
    (g : Pubkey) :
    (s.address_groups.lookup g).map AddressGroup.resolver
      = TxMachine.last_write (resolver_written g) es := by
  have hnone : ∀ s₀, genesis rt s₀ →
      (s₀.address_groups.lookup g).map AddressGroup.resolver = none := by
    intro s₀ h₀
    have hunnumbered := (genesis_unnumbered h₀ .address_group).2 g
    cases hg : s₀.address_groups.lookup g with
    | none => rfl
    | some group => simp [Numbered.holds, hg] at hunnumbered
  exact TxMachine.Run.last_write (G := fun _ => True) hnone
    (fun e _ hv => (resolver_decided hv g).1) h fun _ _ => trivial

section Readings

variable {rt : Runtime} {es : List Event} {s : State}

/-- A recorded fact is true when its record exists and says so. -/
theorem map_eq_some_true {α : Type} {o : Option α} {f : α → Bool} :
    o.map f = some true ↔ ∃ a, o = some a ∧ f a = true := by
  rw [Option.map_eq_some_iff]

/-- The log's last word on a whitelist is "enabled" exactly when the record says so. -/
theorem Run.enforced_iff (h : Run rt es s) (deposit : Pubkey) :
    (AccessFact.enforced deposit).last es = some true ↔
      ∃ w, s.deposit_whitelists.lookup (deposit_whitelist_address deposit) = some w
        ∧ w.enabled = true := by
  rw [← h.last_decision]
  exact map_eq_some_true

/-- The log's last word on a taker is "listed" exactly when it is a direct member. -/
theorem Run.listed_iff (h : Run rt es s) (deposit taker : Pubkey) :
    (AccessFact.listed deposit taker).last es = some true ↔ DirectMember s deposit taker := by
  rw [← h.last_decision]
  refine map_eq_some_true.trans ⟨?_, ?_⟩
  · rintro ⟨m, hm, hactive⟩
    have hkey := (Run.access h).1.members _ m hm
    rw [Pubkey.pda_keys.injEq] at hkey
    exact ⟨m, hm, hactive, hkey.2.2.symm⟩
  · rintro ⟨m, hm, hactive, -⟩
    exact ⟨m, hm, hactive⟩

/-- The log's last word on a group's taker is "member" exactly when the record says so. -/
theorem Run.curated_iff (h : Run rt es s) (g taker : Pubkey) :
    (AccessFact.curated g taker).last es = some true ↔
      ∃ m, s.group_members.lookup (group_member_address g taker) = some m ∧ m.active = true
        ∧ m.member = taker := by
  rw [← h.last_decision]
  refine map_eq_some_true.trans ⟨?_, ?_⟩
  · rintro ⟨m, hm, hactive⟩
    have hkey := (Run.access h).1.curated _ m hm
    rw [Pubkey.pda_keys.injEq] at hkey
    exact ⟨m, hm, hactive, hkey.2.2.symm⟩
  · rintro ⟨m, hm, hactive, -⟩
    exact ⟨m, hm, hactive⟩

/-- The log's last word on a group is "allowed" exactly when the whitelist lists it. -/
theorem Run.allowed_iff (h : Run rt es s) (deposit : Pubkey) (id : Bytes 32) :
    (AccessFact.allowed deposit id).last es = some true ↔
      ∃ w, s.deposit_whitelists.lookup (deposit_whitelist_address deposit) = some w
        ∧ id ∈ w.allowed_groups := by
  rw [← h.last_decision]
  refine map_eq_some_true.trans ?_
  simp only [decide_eq_true_eq]

/-- Membership of a group, as the log has it. -/
theorem Run.member_iff (h : Run rt es s) (ctx : TxContext) {g taker : Pubkey} {group : AddressGroup}
    (hgroup : s.address_groups.lookup g = some group) :
    ((AccessFact.curated g taker).last es = some true ∨ ∃ program keys,
        TxMachine.last_write (resolver_written g) es = some (some program)
        ∧ resolver_answer rt ctx program keys group.id taker = true)
      ↔ GroupMemberOf rt ctx s g group taker := by
  rw [h.curated_iff, ← h.last_resolver, hgroup, Option.map_some]
  unfold GroupMemberOf
  simp only [Option.some.injEq]

/-- The groups the log opened are those of the records, each with the id of its number. -/
theorem Run.group_opened (h : Run rt es s) {n : ℕ}
    (hn : n ∈ es.filterMap (Numbered.issues .address_group)) :
    ∃ group, s.address_groups.lookup (Numbered.address .address_group n) = some group
      ∧ group.id = group_id rt n := by
  rw [(h.issued .address_group).1, List.mem_range] at hn
  obtain ⟨group, hgroup⟩ := Option.isSome_iff_exists.mp
    (Run.permanent h (x := .address_group) rfl n hn)
  obtain ⟨hkey, hid⟩ := (Run.names h).groups _ group hgroup
  have hnonce : n = group.nonce := Numbered.address_injective .address_group hkey
  refine ⟨group, hgroup, ?_⟩
  rw [hnonce]
  exact hid

end Readings

/-- A taker is whitelisted exactly if the log says so, and every decision of the log was signed by
somebody entitled to it. -/
theorem whitelisted_iff_logged {rt : Runtime} {es : List Event} {s : State} (h : Run rt es s)
    (ctx : TxContext) (deposit taker : Pubkey) :
    (Whitelisted rt ctx s deposit taker ↔ LogWhitelists rt ctx es deposit taker)
      ∧ ∀ e ∈ es,
        (∀ (f : AccessFact) v, f.written e = some v → ∃ o, f.Entitled e.pre o ∧ SignedByKey e o)
        ∧ ∀ g r, resolver_written g e = some r →
          ∃ group, e.post.address_groups.lookup g = some group ∧ SignedByKey e group.curator := by
  refine ⟨?_, fun e he => ⟨fun f v => decided_by_entitled (TxMachine.Run.valid h e he),
    fun g => (resolver_decided (TxMachine.Run.valid h e he) g).2⟩⟩
  unfold LogWhitelists
  rw [h.enforced_iff, h.listed_iff]
  constructor
  · rintro ⟨w, hw, henabled, hdirect | ⟨g, group, hgroup, hid, hmember⟩⟩
    · exact ⟨⟨w, hw, henabled⟩, .inl hdirect⟩
    · -- a group of the records was opened by the log, under the number its address names
      obtain ⟨hkey, hname⟩ := (Run.names h).groups g group hgroup
      have hid' : group_id rt group.nonce = group.id := hname.symm
      have hg : Numbered.address .address_group group.nonce = g := hkey.symm
      have hlive : Numbered.live .address_group s group.nonce := by
        show (s.address_groups.lookup (Numbered.address .address_group group.nonce)).isSome = true
        rw [hg, hgroup]
        rfl
      refine ⟨⟨w, hw, henabled⟩, .inr ⟨group.nonce, ?_, ?_, ?_⟩⟩
      · rw [(h.issued .address_group).1]
        exact List.mem_range.mpr ((h.issued .address_group).2 _ hlive)
      · rw [h.allowed_iff, hid']
        exact ⟨w, hw, hid⟩
      · rw [hid', hg]
        exact (h.member_iff ctx hgroup).mpr hmember
  · rintro ⟨⟨w, hw, henabled⟩, hdirect | ⟨n, hn, hid, hmember⟩⟩
    · exact ⟨w, hw, henabled, .inl hdirect⟩
    · obtain ⟨group, hgroup, hgroup_id⟩ := h.group_opened hn
      rw [← hgroup_id] at hid hmember
      obtain ⟨w', hw', hid⟩ := (h.allowed_iff deposit _).mp hid
      rw [hw] at hw'
      cases hw'
      exact ⟨w, hw, henabled, .inr ⟨_, group, hgroup, hid, (h.member_iff ctx hgroup).mp hmember⟩⟩

/-- On the sample cluster the depositor switches its whitelist on and lists the taker. -/
theorem whitelisted_iff_logged_listed :
    ∃ es s, Run sample_runtime es s
      ∧ Whitelisted sample_runtime (sample_ctx 2000) s sample_deposit sample_taker
      ∧ ∃ e ∈ es, ∃ o, (AccessFact.listed sample_deposit sample_taker).Entitled e.pre o
        ∧ SignedByKey e o := by
  obtain ⟨es, s, hrun, hgood⟩ := sample_reaches [sample_setup, sample_whitelist, sample_admit]
    (fun es _ => decide ((AccessFact.enforced sample_deposit).last es = some true)
      && decide ((AccessFact.listed sample_deposit sample_taker).last es = some true)
      && es.any fun e => decide
        ((AccessFact.listed sample_deposit sample_taker).written e = some true)) (by decide +kernel)
  simp only [Bool.and_eq_true, decide_eq_true_eq, List.any_eq_true] at hgood
  obtain ⟨⟨henforced, hlisted⟩, e, he, hwritten⟩ := hgood
  obtain ⟨hiff, hentitled⟩ :=
    whitelisted_iff_logged hrun (sample_ctx 2000) sample_deposit sample_taker
  exact ⟨es, s, hrun, hiff.mpr ⟨henforced, .inl hlisted⟩, e, he,
    (hentitled e he).1 _ true hwritten⟩

end Zkp2pSolana
