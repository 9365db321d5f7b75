/-
Numbers that are issued once.

Deposits, intents, address groups and rate managers are numbered by a counter of
their component, and the number is the seed of their address. So a number is a
name: over a whole run each is issued once, in order, with nothing at its address
before; what is closed never comes back; and a record found at any address is the
one its number was issued for.
-/
import Zkp2pSolana.Listings
import Zkp2pSolana.Custody

set_option autoImplicit false

namespace Zkp2pSolana

open Result Zkp2pError

/-! ## The four series -/

/-- The records that carry a number. -/
inductive Numbered where
  | deposit
  | intent
  | address_group
  | rate_manager
  deriving DecidableEq, Repr

namespace Numbered

/-- The number the next record gets. -/
def next : Numbered → State → ℕ
  | .deposit, s => s.escrow_config.next_deposit_id
  | .intent, s => s.orchestrator.next_intent_id
  | .address_group, s => s.whitelist_config.next_group_id
  | .rate_manager, s => s.rate_manager_config.next_manager_id

/-- The address a number is the seed of. -/
def address : Numbered → ℕ → Pubkey
  | .deposit, n => deposit_address escrow_config_address n
  | .intent, n => intent_address orchestrator_address n
  | .address_group, n => address_group_address whitelist_config_address n
  | .rate_manager, n => rate_manager_address rate_manager_config_address n

/-- There is a record at the address. -/
def holds : Numbered → State → Pubkey → Prop
  | .deposit, s, k => (s.deposits.lookup k).isSome = true
  | .intent, s, k => (s.intents.lookup k).isSome = true
  | .address_group, s, k => (s.address_groups.lookup k).isSome = true
  | .rate_manager, s, k => (s.rate_managers.lookup k).isSome = true

def live (x : Numbered) (s : State) (n : ℕ) : Prop := x.holds s (x.address n)

/-- The instruction that opens a record. -/
def creates : Numbered → TopLevel → Bool
  | .deposit, .program (.custody (.create_deposit _ _)) => true
  | .intent, .program (.signal_intent _ _) => true
  | .address_group, .program (.whitelists (.create_address_group _ _ _)) => true
  | .rate_manager, .program (.rate_managers (.create_rate_manager _ _)) => true
  | _, _ => false

def issues (x : Numbered) (e : Event) : Option ℕ :=
  if x.creates e.ix = true then some (x.next e.pre) else none

/-- Groups and managers are never closed. -/
def permanent : Numbered → Bool
  | .deposit | .intent => false
  | .address_group | .rate_manager => true

/-- The record at the address carries the number, and the hash that is derived from it. -/
def stored (x : Numbered) (rt : Runtime) (s : State) (k : Pubkey) (n : ℕ) : Prop :=
  match x with
  | .deposit => ∃ d, s.deposits.lookup k = some d ∧ d.id = n
  | .intent => ∃ i, s.intents.lookup k = some i ∧ i.nonce = n
    ∧ i.intent_hash = derive_intent_hash rt orchestrator_address n
  | .address_group => ∃ g, s.address_groups.lookup k = some g ∧ g.nonce = n
    ∧ g.id = rt.keccak (rt.as_ref whitelist_config_address ++ le_bytes 8 n)
  | .rate_manager => ∃ m, s.rate_managers.lookup k = some m ∧ m.nonce = n
    ∧ m.id = rt.keccak (rt.as_ref program_id ++ rt.as_ref rate_manager_config_address
      ++ le_bytes 8 n)

end Numbered

/-! ## One instruction -/

/-- What one event does to the records of a series. -/
inductive NumberMove (x : Numbered) (e : Event) : Prop
  | kept (quiet : x.creates e.ix = false) (next_eq : x.next e.post = x.next e.pre)
      (shrinks : ∀ k, x.holds e.post k → x.holds e.pre k)
      (stays : x.permanent = true → ∀ k, x.holds e.pre k → x.holds e.post k)
  | created (creates : x.creates e.ix = true) (next_eq : x.next e.post = x.next e.pre + 1)
      (fresh : ¬ x.holds e.pre (x.address (x.next e.pre)))
      (grows : ∀ k, x.holds e.post k ↔ k = x.address (x.next e.pre) ∨ x.holds e.pre k)

theorem Numbered.address_injective (x : Numbered) : Function.Injective x.address := by
  intro n n' h
  cases x
  all_goals
    simp only [Numbered.address, Pubkey.pda_nonce.injEq] at h
    exact h.2.2

/-- A move of a numbered kind is a step of the general series. -/
theorem NumberMove.series {x : Numbered} {e : Event} (h : NumberMove x e) :
    TxMachine.SeriesMove x.next x.issues x.live e := by
  cases h with
  | kept quiet next_eq shrinks stays =>
    have hnone : x.issues e = none := by
      unfold Numbered.issues
      rw [quiet]
      rfl
    exact ⟨.inl ⟨hnone, next_eq⟩, fun n hn => .inl (shrinks _ hn)⟩
  | created creates next_eq fresh grows =>
    have hsome : x.issues e = some (x.next e.pre) := by
      unfold Numbered.issues
      rw [if_pos creates]
    refine ⟨.inr ⟨hsome, next_eq⟩, fun n hn => ?_⟩
    rcases (grows _).mp hn with hnew | hold
    · rw [x.address_injective hnew]
      exact .inr hsome
    · exact .inl hold

/-- A number is issued exactly where a record appears under it. -/
theorem NumberMove.issued_iff {x : Numbered} {e : Event} (h : NumberMove x e) (n : ℕ) :
    x.issues e = some n ↔ ¬ x.live e.pre n ∧ x.live e.post n := by
  refine ⟨fun hn => ?_, fun hn => ?_⟩
  · cases h with
    | kept quiet next_eq shrinks stays =>
      unfold Numbered.issues at hn
      rw [quiet] at hn
      cases hn
    | created creates next_eq fresh grows =>
      unfold Numbered.issues at hn
      rw [if_pos creates] at hn
      cases hn
      exact ⟨fresh, (grows _).mpr (.inl rfl)⟩
  · rcases h.series.opened n hn.2 with hold | hnew
    · exact absurd hold hn.1
    · exact hnew

section Tables

variable {α : Type} {t t' : Accounts α} {k : Pubkey}

/-- After a creation exactly one address more is in use. -/
theorem isSome_insert {v : α} (h : t' = t.insert k v) (k' : Pubkey) :
    (t'.lookup k').isSome = true ↔ k' = k ∨ (t.lookup k').isSome = true := by
  rw [h, Finmap.lookup_insert_ite]
  by_cases hk : k' = k
  · rw [if_pos hk]
    simp [hk]
  · rw [if_neg hk]
    simp [hk]

theorem isSome_update {v w : α} (hv : t.lookup k = some v) (h : t' = t.insert k w) (k' : Pubkey) :
    (t'.lookup k').isSome = true ↔ (t.lookup k').isSome = true := by
  rw [isSome_insert h]
  by_cases hk : k' = k
  · rw [hk, hv]
    simp
  · simp [hk]

theorem isSome_erase (h : t' = t.erase k) {k' : Pubkey} (hk' : (t'.lookup k').isSome = true) :
    (t.lookup k').isSome = true := by
  rw [h, Finmap.lookup_erase_ite] at hk'
  by_cases hk : k' = k
  · rw [if_pos hk] at hk'
    cases hk'
  · rw [if_neg hk] at hk'
    exact hk'

theorem not_isSome (h : t.lookup k = none) : ¬ (t.lookup k).isSome = true := by
  rw [h]
  simp

end Tables

section Moves

variable {rt : Runtime} {e : Event}

/-- An instruction that opens no record of a series and changes no record's presence. -/
theorem NumberMove.of_same {x : Numbered} (hquiet : x.creates e.ix = false)
    (hnext : x.next e.post = x.next e.pre)
    (hsame : ∀ k, x.holds e.post k ↔ x.holds e.pre k) : NumberMove x e :=
  .kept hquiet hnext (fun k => (hsame k).mp) fun _ k => (hsame k).mpr

theorem NothingPublished.opens_no_deposit {ix : TopLevel} {s s' : State}
    (h : NothingPublished ix s s') : Numbered.deposit.creates ix = false := by
  have hquiet := h.quiet
  unfold TopLevel.publishes at hquiet
  unfold Numbered.creates
  split
  · simp at hquiet
  · contradiction
  · contradiction
  · contradiction
  · rfl

/-- Deposits are numbered by the escrow's counter, and the counter moves only with a new deposit. -/
theorem deposit_move (hv : e.Valid (step rt)) : NumberMove .deposit e := by
  cases listing_move hv with
  -- only a listing creates; counting, draining and configuring write a deposit that is there
  | kept deposits rest =>
    refine .of_same rest.opens_no_deposit rest.next fun k => ?_
    simp only [Numbered.holds, deposits]
  | counted k d d' found deposits terms rest =>
    exact .of_same rest.opens_no_deposit rest.next (isSome_update found deposits)
  | drained accounts is retain d owns deposits rest =>
    exact .of_same rest.opens_no_deposit rest.next (isSome_update owns.found deposits)
  | closed accounts is d owns idle deposits rest =>
    exact .kept rest.opens_no_deposit rest.next (fun k => isSome_erase deposits)
      (by simp [Numbered.permanent])
  | listed accounts args key is listed =>
    have hdeposits := congrArg (·.deposits) listed.records
    have hkey := listed.key
    subst hkey
    refine .created ?_ (congrArg (·.escrow_config.next_deposit_id) listed.records)
      (not_isSome listed.fresh) (isSome_insert hdeposits)
    rw [is]
    rfl
  | configured ix is write =>
    have hquiet : Numbered.deposit.creates e.ix = false := by
      rw [is]
      rfl
    cases write with
    | updated accounts args d configures appoints records =>
      exact .of_same hquiet (congrArg (·.escrow_config.next_deposit_id) records)
        (isSome_update configures.found (congrArg (·.deposits) records))
    | manager accounts rate_manager manager d configures records =>
      exact .of_same hquiet (congrArg (·.escrow_config.next_deposit_id) records)
        (isSome_update configures.found (congrArg (·.deposits) records))
    | method accounts args d configures records =>
      have hdeposits : e.post.deposits = e.pre.deposits := congrArg (·.deposits) records
      refine .of_same hquiet (congrArg (·.escrow_config.next_deposit_id) records) fun k => ?_
      simp only [Numbered.holds, hdeposits]
    | currency accounts args d m' configures listed records =>
      have hdeposits : e.post.deposits = e.pre.deposits := congrArg (·.deposits) records
      refine .of_same hquiet (congrArg (·.escrow_config.next_deposit_id) records) fun k => ?_
      simp only [Numbered.holds, hdeposits]
    | expiry accounts additional_time d l signs found guardian lock key records =>
      have hdeposits : e.post.deposits = e.pre.deposits := congrArg (·.deposits) records
      refine .of_same hquiet (congrArg (·.escrow_config.next_deposit_id) records) fun k => ?_
      simp only [Numbered.holds, hdeposits]

/-- Closing an intent opens none. -/
theorem NumberMove.of_closed_intent {k : Pubkey} (hquiet : Numbered.intent.creates e.ix = false)
    (hnext : e.post.orchestrator.next_intent_id = e.pre.orchestrator.next_intent_id)
    (hintents : e.post.intents = e.pre.intents.erase k) : NumberMove .intent e :=
  .kept hquiet hnext (fun _ => isSome_erase hintents) (by simp [Numbered.permanent])

/-- An event that writes none of the orchestrator's records issues no intent. -/
theorem NumberMove.of_same_intents (hquiet : Numbered.intent.creates e.ix = false)
    (hsame : e.post.toOrchestratorRecords = e.pre.toOrchestratorRecords) : NumberMove .intent e := by
  have hintents : e.post.intents = e.pre.intents := congrArg (·.intents) hsame
  refine .of_same hquiet (congrArg (·.orchestrator.next_intent_id) hsame) fun k => ?_
  simp only [Numbered.holds, hintents]

/-- A settlement closes the intent and issues no number. -/
theorem settle_intent_keeps {ctx : TxContext} {k : Pubkey} {live : LiveIntent}
    {tokens : SettlementTokenAccounts} {dispute : SettlementDisputeAccounts}
    {remaining_accounts : List AccountInfo} {released : ℕ} {s s' : State}
    (h : settle_intent ctx k live tokens dispute remaining_accounts released s = .ok s') :
    s'.intents = s.intents.erase k
      ∧ s'.orchestrator.next_intent_id = s.orchestrator.next_intent_id := by
  obtain ⟨s₂, d', T, hdispute, -, -, rfl⟩ := settle_intent_ok h
  have hrest : s₂.toOrchestratorRecords = s.toOrchestratorRecords := by
    rw [settle_dispute_rest hdispute]
  exact ⟨congrArg (fun r : OrchestratorRecords => r.intents.erase k) hrest,
    congrArg (·.orchestrator.next_intent_id) hrest⟩

/-- What pruning leaves of a state besides stake and coverage. -/
theorem prune_dispute_rest {accounts : PruneDisputeAccounts} {i : Intent} {s s₁ : State}
    (h : prune_dispute accounts i s = .ok s₁) :
    s₁ = { s with
      toStakeRecords := s₁.toStakeRecords
      dispute_intents := s₁.dispute_intents } := by
  rcases prune_dispute_ok h with ⟨-, rfl⟩ | ⟨-, _, _, _, _, hcancelled⟩
  · rfl
  · rw [hcancelled.post]

theorem settle_number_move {ctx : TxContext} {k : Pubkey} {live : LiveIntent}
    {tokens : SettlementTokenAccounts} {dispute : SettlementDisputeAccounts}
    {remaining_accounts : List AccountInfo} {released : ℕ} {s₁ : State}
    (hquiet : Numbered.intent.creates e.ix = false)
    (h : settle_intent ctx k live tokens dispute remaining_accounts released e.pre = .ok s₁)
    (hpost : e.post.toOrchestratorRecords = s₁.toOrchestratorRecords) : NumberMove .intent e := by
  obtain ⟨hintents, hnonce⟩ := settle_intent_keeps h
  refine .of_closed_intent (k := k) hquiet ?_ ?_
  · rw [congrArg (·.orchestrator) hpost]
    exact hnonce
  · rw [congrArg (·.intents) hpost]
    exact hintents

theorem intent_move (hv : e.Valid (step rt)) : NumberMove .intent e := by
  have hmove := lifecycle_move hv
  generalize hix : e.ix = ix at hmove
  cases hmove with
  | idle frame =>
    refine .of_same ?_ frame.nonce fun k => ?_
    -- the look-ahead of an idle instruction names no signal, so the instruction is none
    · rw [hix]
      unfold Numbered.creates
      split
      · contradiction
      · exact absurd frame.no_signal (by simp [following_signal])
      · contradiction
      · contradiction
      · rfl
    · simp only [Numbered.holds, frame.intents]
  | signal_intent signaled =>
    have hfresh := signaled.intent_fresh
    rw [signaled.terms.nonce] at hfresh
    refine .created (by rw [hix]; rfl) (congrArg (·.orchestrator.next_intent_id) signaled.post)
      (not_isSome hfresh) (isSome_insert (congrArg (·.intents) signaled.post))
  -- the four instructions that close an intent leave the counter alone
  | cancel_intent ok =>
    obtain ⟨_, _, _, -, -, -, -, -, -, hpost⟩ := cancel_intent_ok ok
    exact .of_closed_intent (by rw [hix]; rfl) (congrArg (·.orchestrator.next_intent_id) hpost)
      (congrArg (·.intents) hpost)
  | @prune_expired_intent accounts ok =>
    obtain ⟨_, s₁, _, -, -, hprune, -, hpost⟩ := prune_expired_intent_ok ok
    have hsame : s₁.toOrchestratorRecords = e.pre.toOrchestratorRecords := by
      rw [prune_dispute_rest hprune]
    refine .of_closed_intent (k := accounts.intent) (by rw [hix]; rfl) ?_ ?_
    · rw [hpost]
      exact congrArg (·.orchestrator.next_intent_id) hsame
    · rw [hpost]
      show s₁.intents.erase accounts.intent = _
      rw [congrArg (·.intents) hsame]
  | prepare_dispute prepared follows =>
    exact .of_same_intents (by rw [hix]; rfl) (congrArg (·.toOrchestratorRecords) prepared.post)
  | cancel_dispute ok =>
    exact .of_same_intents (by rw [hix]; rfl)
      (congrArg (·.toOrchestratorRecords) (cancel_dispute_rest ok))
  | release_matured_dispute ok =>
    obtain ⟨_, _, _, _, -, -, -, -, -, -, -, -, hpost⟩ := release_matured_dispute_ok ok
    exact .of_same_intents (by rw [hix]; rfl) (congrArg (·.toOrchestratorRecords) hpost)
  | submit_dispute ok =>
    obtain ⟨_, _, _, _, _, _, hdisputed, -⟩ := submit_dispute_ok ok
    exact .of_same_intents (by rw [hix]; rfl) (congrArg (·.toOrchestratorRecords) hdisputed.post)
  | fulfill_intent ok =>
    obtain ⟨_, _, -, -, -, -, -, hsettle, hpost⟩ := fulfill_intent_ok ok
    exact settle_number_move (by rw [hix]; rfl) hsettle (congrArg (·.toOrchestratorRecords) hpost)
  | manual_release ok =>
    obtain ⟨_, -, -, -, hsettle⟩ := manual_release_ok ok
    exact settle_number_move (by rw [hix]; rfl) hsettle rfl

/-- Groups are numbered by the whitelist's counter, and none is ever closed. -/
theorem group_move (hv : e.Valid (step rt)) : NumberMove .address_group e := by
  -- every write but the first puts a group where one is, or leaves the groups alone
  have hkept : Numbered.address_group.creates e.ix = false →
      e.post.address_groups = e.pre.address_groups →
      e.post.whitelist_config.next_group_id = e.pre.whitelist_config.next_group_id →
      NumberMove .address_group e := by
    intro hquiet hsame hnext
    refine .of_same hquiet hnext fun k => ?_
    simp only [Numbered.holds, hsame]
  rcases whitelists_event hv with ⟨ix, hix, hwrite⟩ | ⟨hix, hsame⟩
  · cases hwrite with
    | opened accounts name is_public signs fresh named word records =>
      exact .created (by rw [hix]; rfl) (congrArg (·.whitelist_config.next_group_id) records)
        (not_isSome fresh) (isSome_insert (congrArg (·.address_groups) records))
    | configured accounts is_public resolver pending_curator g signs group curator candidate records =>
      exact .of_same (by rw [hix]; rfl) (congrArg (·.whitelist_config.next_group_id) records)
        (isSome_update group (congrArg (·.address_groups) records))
    | accepted accounts g signs group pending records =>
      exact .of_same (by rw [hix]; rfl) (congrArg (·.whitelist_config.next_group_id) records)
        (isSome_update group (congrArg (·.address_groups) records))
    | member accounts active g signs group curator records =>
      exact hkept (by rw [hix]; rfl) (congrArg (·.address_groups) records)
        (congrArg (·.whitelist_config.next_group_id) records)
    | self_member accounts active g signs group is_public records =>
      exact hkept (by rw [hix]; rfl) (congrArg (·.address_groups) records)
        (congrArg (·.whitelist_config.next_group_id) records)
    | whitelist accounts enabled d authority fresh records =>
      exact hkept (by rw [hix]; rfl) (congrArg (·.address_groups) records)
        (congrArg (·.whitelist_config.next_group_id) records)
    | enabled accounts enabled d w authority found records =>
      exact hkept (by rw [hix]; rfl) (congrArg (·.address_groups) records)
        (congrArg (·.whitelist_config.next_group_id) records)
    | allowed accounts group allowed d w g groups authority found group_eq toggled records =>
      exact hkept (by rw [hix]; rfl) (congrArg (·.address_groups) records)
        (congrArg (·.whitelist_config.next_group_id) records)
    | taker accounts taker active d w authority found records =>
      exact hkept (by rw [hix]; rfl) (congrArg (·.address_groups) records)
        (congrArg (·.whitelist_config.next_group_id) records)
  · refine hkept ?_ (congrArg (·.address_groups) hsame)
      (congrArg (·.whitelist_config.next_group_id) hsame)
    unfold Numbered.creates
    split
    · contradiction
    · contradiction
    · rename_i heq
      exact absurd heq (hix _)
    · contradiction
    · rfl

theorem manager_move (hv : e.Valid (step rt)) : NumberMove .rate_manager e := by
  -- what writes no manager leaves series and counter alone
  have hkept : Numbered.rate_manager.creates e.ix = false →
      e.post.rate_managers = e.pre.rate_managers →
      e.post.rate_manager_config.next_manager_id = e.pre.rate_manager_config.next_manager_id →
      NumberMove .rate_manager e := by
    intro hquiet hsame hnext
    refine .of_same hquiet hnext fun k => ?_
    simp only [Numbered.holds, hsame]
  rcases rates_event hv with ⟨ix, hix, hwrite⟩ | ⟨hix, hsame⟩
  · cases hwrite with
    | created accounts args fresh manager named located word records =>
      exact .created (by rw [hix]; rfl) (congrArg (·.rate_manager_config.next_manager_id) records)
        (not_isSome fresh) (isSome_insert (congrArg (·.rate_managers) records))
    | configured accounts manager fee_recipient name uri m manages nonzero named located records =>
      exact .of_same (by rw [hix]; rfl) (congrArg (·.rate_manager_config.next_manager_id) records)
        (isSome_update manages.found (congrArg (·.rate_managers) records))
    | fee accounts fee m manages records =>
      exact .of_same (by rw [hix]; rfl) (congrArg (·.rate_manager_config.next_manager_id) records)
        (isSome_update manages.found (congrArg (·.rate_managers) records))
    | min_liquidity accounts min_liquidity m manages records =>
      exact .of_same (by rw [hix]; rfl) (congrArg (·.rate_manager_config.next_manager_id) records)
        (isSome_update manages.found (congrArg (·.rate_managers) records))
    | rate accounts payment_method currency rate m entry manages kept adopted records =>
      exact hkept (by rw [hix]; rfl) (congrArg (·.rate_managers) records)
        (congrArg (·.rate_manager_config.next_manager_id) records)
  -- an event outside `rate_manager.rs` creates no manager, whatever it creates
  · refine hkept ?_ (congrArg (·.rate_managers) hsame)
      (congrArg (·.rate_manager_config.next_manager_id) hsame)
    unfold Numbered.creates
    split
    · contradiction
    · contradiction
    · contradiction
    · rename_i heq
      exact absurd heq (hix _)
    · rfl

/-- Every event is a move of every series. -/
theorem number_move (hv : e.Valid (step rt)) (x : Numbered) : NumberMove x e := by
  cases x with
  | deposit => exact deposit_move hv
  | intent => exact intent_move hv
  | address_group => exact group_move hv
  | rate_manager => exact manager_move hv

end Moves

/-! ## What is stored under a number -/

/-- A group sits at the address of its number, and its id is the hash of the number. -/
def GroupNamed (rt : Runtime) (k : Pubkey) (g : AddressGroup) : Prop :=
  k = address_group_address whitelist_config_address g.nonce
    ∧ g.id = rt.keccak (rt.as_ref whitelist_config_address ++ le_bytes 8 g.nonce)

def ManagerNamed (rt : Runtime) (k : Pubkey) (m : RateManager) : Prop :=
  k = rate_manager_address rate_manager_config_address m.nonce
    ∧ m.id = rt.keccak (rt.as_ref program_id ++ rt.as_ref rate_manager_config_address
      ++ le_bytes 8 m.nonce)

structure NamesOk (rt : Runtime) (s : State) : Prop where
  groups : ∀ k g, s.address_groups.lookup k = some g → GroupNamed rt k g
  managers : ∀ k m, s.rate_managers.lookup k = some m → ManagerNamed rt k m

/-- A group carries the id that its number derives. -/
theorem groups_named {rt : Runtime} {e : Event} (hv : e.Valid (step rt)) (hs : NamesOk rt e.pre) :
    ∀ k g, e.post.address_groups.lookup k = some g → GroupNamed rt k g := by
  have hkept : e.post.address_groups = e.pre.address_groups →
      ∀ k g, e.post.address_groups.lookup k = some g → GroupNamed rt k g := by
    intro hsame
    rw [hsame]
    exact hs.groups
  rcases whitelists_event hv with ⟨ix, -, hwrite⟩ | ⟨-, hsame⟩
  · cases hwrite with
    -- a new group is stored with the number its address was derived from; updates keep id and
    -- number
    | opened accounts name is_public signs fresh named word records =>
      rw [congrArg (·.address_groups) records]
      exact stored_insert hs.groups ⟨rfl, rfl⟩
    | configured accounts is_public resolver pending_curator g signs group curator candidate records =>
      rw [congrArg (·.address_groups) records]
      exact stored_insert hs.groups (hs.groups _ g group)
    | accepted accounts g signs group pending records =>
      rw [congrArg (·.address_groups) records]
      exact stored_insert hs.groups (hs.groups _ g group)
    | member accounts active g signs group curator records =>
      exact hkept (congrArg (·.address_groups) records)
    | self_member accounts active g signs group is_public records =>
      exact hkept (congrArg (·.address_groups) records)
    | whitelist accounts enabled d authority fresh records =>
      exact hkept (congrArg (·.address_groups) records)
    | enabled accounts enabled d w authority found records =>
      exact hkept (congrArg (·.address_groups) records)
    | allowed accounts group allowed d w g groups authority found group_eq toggled records =>
      exact hkept (congrArg (·.address_groups) records)
    | taker accounts taker active d w authority found records =>
      exact hkept (congrArg (·.address_groups) records)
  · exact hkept (congrArg (·.address_groups) hsame)

theorem managers_named {rt : Runtime} {e : Event} (hv : e.Valid (step rt)) (hs : NamesOk rt e.pre) :
    ∀ k m, e.post.rate_managers.lookup k = some m → ManagerNamed rt k m := by
  have hkept : e.post.rate_managers = e.pre.rate_managers →
      ∀ k m, e.post.rate_managers.lookup k = some m → ManagerNamed rt k m := by
    intro hsame
    rw [hsame]
    exact hs.managers
  rcases rates_event hv with ⟨ix, -, hwrite⟩ | ⟨-, hsame⟩
  · cases hwrite with
    | created accounts args fresh manager named located word records =>
      rw [congrArg (·.rate_managers) records]
      exact stored_insert hs.managers ⟨rfl, rfl⟩
    | configured accounts manager fee_recipient name uri m manages nonzero named located records =>
      rw [congrArg (·.rate_managers) records]
      exact stored_insert hs.managers (hs.managers _ m manages.found)
    | fee accounts fee m manages records =>
      rw [congrArg (·.rate_managers) records]
      exact stored_insert hs.managers (hs.managers _ m manages.found)
    | min_liquidity accounts min_liquidity m manages records =>
      rw [congrArg (·.rate_managers) records]
      exact stored_insert hs.managers (hs.managers _ m manages.found)
    | rate accounts payment_method currency rate m entry manages kept adopted records =>
      exact hkept (congrArg (·.rate_managers) records)
  · exact hkept (congrArg (·.rate_managers) hsame)

/-- At the start every counter is zero and nothing has been issued. -/
theorem genesis_unnumbered {rt : Runtime} {s : State} (h : genesis rt s) (x : Numbered) :
    x.next s = 0 ∧ ∀ k, ¬ x.holds s k := by
  obtain ⟨_, _, _, _, _, _, _, -, -, -, rfl⟩ := genesis_initialized h
  cases x
  all_goals
    refine ⟨rfl, fun k => not_isSome ?_⟩
    exact Finmap.lookup_empty _

theorem Run.names {rt : Runtime} {es : List Event} {s : State} (h : Run rt es s) : NamesOk rt s := by
  refine (TxMachine.Run.invariant (I := NamesOk rt) (G := fun _ => True) (fun s₀ h₀ => ?_)
    (fun e _ hv hs => ⟨groups_named hv hs, managers_named hv hs⟩) h fun _ _ => trivial).1
  refine ⟨fun k g hg => ?_, fun k m hm => ?_⟩
  · have hnone := (genesis_unnumbered h₀ .address_group).2 k
    simp [Numbered.holds, hg] at hnone
  · have hnone := (genesis_unnumbered h₀ .rate_manager).2 k
    simp [Numbered.holds, hm] at hnone

/-- Whatever a series holds at an address, it holds it under the number the address names. -/
theorem Run.stored {rt : Runtime} {es : List Event} {s : State} (h : Run rt es s) {x : Numbered}
    {k : Pubkey} (hk : x.holds s k) : ∃ n, k = x.address n ∧ x.stored rt s k n := by
  cases x with
  | deposit =>
    obtain ⟨d, hd⟩ := Option.isSome_iff_exists.mp hk
    exact ⟨d.id, ((Run.escrow h).1.deposit k d hd).key, d, hd, rfl⟩
  | intent =>
    obtain ⟨i, hi⟩ := Option.isSome_iff_exists.mp hk
    have hinv := (Run.own_locks h).1.2.1.intents k i hi
    exact ⟨i.nonce, hinv.key, i, hi, rfl, hinv.hash⟩
  | address_group =>
    obtain ⟨g, hg⟩ := Option.isSome_iff_exists.mp hk
    obtain ⟨hkey, hid⟩ := (Run.names h).groups k g hg
    exact ⟨g.nonce, hkey, g, hg, rfl, hid⟩
  | rate_manager =>
    obtain ⟨m, hm⟩ := Option.isSome_iff_exists.mp hk
    obtain ⟨hkey, hid⟩ := (Run.names h).managers k m hm
    exact ⟨m.nonce, hkey, m, hm, rfl, hid⟩

/-! ## Whole runs -/

/-- The numbers issued are those below the counter, and nothing lives under any other. -/
theorem Run.issued {rt : Runtime} {es : List Event} {s : State} (h : Run rt es s) (x : Numbered) :
    es.filterMap x.issues = List.range (x.next s) ∧ ∀ n, x.live s n → n < x.next s :=
  TxMachine.Run.issued (G := fun _ => True)
    (fun _ h₀ => ⟨(genesis_unnumbered h₀ x).1, fun _ => (genesis_unnumbered h₀ x).2 _⟩)
    (fun _ _ hv => (number_move hv x).series) h fun _ _ => trivial

/-- What is permanent and was issued is still there. -/
theorem Run.permanent {rt : Runtime} {es : List Event} {s : State} (h : Run rt es s) {x : Numbered}
    (hx : x.permanent = true) : ∀ n < x.next s, x.live s n := by
  refine (TxMachine.Run.invariant (I := fun s => ∀ n < x.next s, x.live s n) (G := fun _ => True)
    (fun s₀ h₀ n hn => ?_) (fun e _ hv hs n hn => ?_) h fun _ _ => trivial).1
  · rw [(genesis_unnumbered h₀ x).1] at hn
    omega
  · cases number_move hv x with
    | kept quiet next_eq shrinks stays =>
      rw [next_eq] at hn
      exact stays hx _ (hs n hn)
    | created creates next_eq fresh grows =>
      rw [next_eq] at hn
      by_cases hlast : n = x.next e.pre
      · rw [hlast]
        exact (grows _).mpr (.inl rfl)
      · exact (grows _).mpr (.inr (hs n (by omega)))

/-- Each number is issued once and in order, to a record that was not there; a record stands at the
address of its number; what is closed never comes back, and groups and managers never close. -/
theorem numbers_are_issued_once {rt : Runtime} {es : List Event} {s : State} (h : Run rt es s)
    (x : Numbered) :
    es.filterMap x.issues = List.range (x.next s)
      ∧ (∀ e ∈ es, ∀ n, x.issues e = some n ↔ ¬ x.live e.pre n ∧ x.live e.post n)
      ∧ (∀ e ∈ es, ∀ n, n < x.next e.post → ¬ x.live e.post n → ¬ x.live s n)
      ∧ (∀ k, x.holds s k → ∃ n, n < x.next s ∧ k = x.address n ∧ x.stored rt s k n)
      ∧ (x.permanent = true → ∀ n, x.live s n ↔ n < x.next s) := by
  obtain ⟨hissued, hbelow⟩ := h.issued x
  refine ⟨hissued, fun e he => (number_move (TxMachine.Run.valid h e he) x).issued_iff,
    fun e he n hn hgone => ?_, fun k hk => ?_, fun hx n => ⟨hbelow n, Run.permanent h hx n⟩⟩
  · exact TxMachine.Run.retired (G := fun _ => True) (fun _ _ hv => (number_move hv x).series) h
      (fun _ _ => trivial) he hn hgone
  · obtain ⟨n, hkey, hstored⟩ := Run.stored h hk
    refine ⟨n, hbelow n ?_, hkey, hstored⟩
    unfold Numbered.live
    rw [← hkey]
    exact hk

/-- The first intent of the sample cluster, covered and released: its number is spent, and the
deposit it was for has kept its own. -/
theorem numbers_are_issued_once_released :
    ∃ es s, Run sample_runtime es s ∧ es.filterMap (Numbered.issues .intent) = [0]
      ∧ ¬ Numbered.live .intent s 0
      ∧ Numbered.stored .deposit sample_runtime s sample_deposit 0 := by
  obtain ⟨es, s, hrun, hgood⟩ := sample_reaches [sample_setup, sample_cover, sample_manual_release]
    (fun es s => decide (Numbered.next .intent s = 1) && decide (s.intents.lookup sample_intent = none)
      && decide ((s.deposits.lookup sample_deposit).isSome = true)) (by decide +kernel)
  simp only [Bool.and_eq_true, decide_eq_true_eq] at hgood
  obtain ⟨⟨hnext, hclosed⟩, hdeposit⟩ := hgood
  obtain ⟨hissued, -⟩ := numbers_are_issued_once hrun .intent
  obtain ⟨-, -, -, hstored, -⟩ := numbers_are_issued_once hrun .deposit
  refine ⟨es, s, hrun, ?_, not_isSome hclosed, ?_⟩
  · rw [hissued, hnext]
    rfl
  · obtain ⟨n, -, hkey, hn⟩ := hstored sample_deposit hdeposit
    rw [← Numbered.address_injective .deposit hkey] at hn
    exact hn

end Zkp2pSolana
