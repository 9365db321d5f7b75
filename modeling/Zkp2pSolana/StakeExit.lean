/-
An owner of stake can always leave.

Stake behind an intent is out of its owner's reach while the coverage runs, but
coverage ends: pending coverage when its intent expires and is pruned, settled
coverage when its window has passed and it is released, and whoever likes may do
either. So, as long as the program controls the collateral and no dispute came
first, an owner whose coverage is due gets all its stake back alone. What is not
locked, and what a dispute awarded, is there for the taking at any time.
-/
import Zkp2pSolana.ExitArithmetic
import Zkp2pSolana.Oversight
import Zkp2pSolana.TokenFlow
import Zkp2pSolana.WindDown

set_option autoImplicit false

namespace Zkp2pSolana

open Result Zkp2pError

/-! ## The custody account -/

/-- The token account of the stake vault, where it exists, is the vault's own and of its mint. -/
def CustodyAccountOk (s : State) : Prop :=
  ∀ a, s.tokens.lookup stake_token_vault = some a →
    a.owner = stake_vault_address ∧ a.mint = s.stake_vault.stake_mint

section Custody

variable {rt : Runtime}

/-- No instruction changes the mint, the owner or the derivation of the custody account. -/
theorem CustodyAccountOk.step {e : Event} (hv : e.Valid (step rt)) (hs : CustodyAccountOk e.pre) :
    CustodyAccountOk e.post := by
  have hmint : e.post.stake_vault.stake_mint = e.pre.stake_vault.stake_mint :=
    congrArg Wiring.stake_mint (wiring_kept hv)
  intro a' ha'
  rw [hmint]
  cases hix : e.ix with
  | program ix =>
    have hops : TokenOps ix.Authorises (ix.Creates e.pre) e.pre.tokens e.post.tokens :=
      Instruction.token_ops (valid_execute hv hix)
    obtain ⟨a, ha | hcreates, howner, hmint'⟩ := hops.accounts ha'
    · rw [howner, hmint']
      exact hs a ha
    · -- the only instruction that opens it opens it so
      unfold Instruction.Creates at hcreates
      split at hcreates
      · obtain ⟨hkey, -⟩ := hcreates
        cases hkey
      · obtain ⟨-, hcreated, hcreated_mint⟩ := hcreates
        exact ⟨howner.trans hcreated, hmint'.trans hcreated_mint⟩
      · cases hcreates
  | ed25519 data =>
    have hok := valid_execute hv hix
    simp only [TopLevel.execute, bind_eq_ok, require_eq_ok, exists_const, pure_eq_ok] at hok
    rw [← hok.2] at ha'
    exact hs a' ha'
  | external tokens =>
    have hok := valid_execute hv hix
    simp only [TopLevel.execute, bind_eq_ok, require_eq_ok, exists_const, pure_eq_ok] at hok
    obtain ⟨hexternal, hpost⟩ := hok
    rw [← hpost] at ha'
    have hkey : stake_token_vault ∈ tokens.keys :=
      Finmap.mem_keys.mpr (Finmap.mem_of_lookup_eq_some ha')
    obtain ⟨b, hb⟩ := Option.isSome_iff_exists.mp ((hexternal.2 _ hkey a' ha').2 rfl)
    obtain ⟨b', hb', howner, hmint', -⟩ := external_ok_keeps hexternal rfl b hb
    have hsame : some a' = some b' := ha'.symm.trans hb'
    rw [Option.some.inj hsame, howner, hmint']
    exact hs b hb

/-- `initialize_protocol` creates the custody account as the vault's own. -/
theorem genesis_custody_account {s : State} (h : genesis rt s) : CustodyAccountOk s := by
  obtain ⟨_, _, _, _, _, _, tokens, rfl, htokens⟩ := genesis_ok h
  intro a ha
  -- before the program has acted there is no account at a derived address
  have hpda := (htokens stake_token_vault a ha).1
  cases hpda

/-- The custody account is the vault's own in every state. -/
theorem Run.custody_account {es : List Event} {s : State} (h : Run rt es s) : CustodyAccountOk s :=
  (TxMachine.Run.invariant (G := fun _ => True) (fun _ h₀ => genesis_custody_account h₀)
    (fun e _ hv hs => CustodyAccountOk.step (e := e) hv hs) h fun _ _ => trivial).1

/-- A payment out of the custody account to an account of the same mint goes through if both
aggregates cover it. -/
theorem custody_pays {s : State} (hcustody : CustodyAccountOk s) (hT : TokensOk s.tokens) {c o : Pubkey}
    (hsigns : o.can_sign = true)
    (hc : ∃ a, s.tokens.lookup c = some a ∧ a.mint = s.stake_vault.stake_mint ∧ a.owner = o) {x : ℕ}
    (hpos : 0 < x) (hx : x ≤ balance s.tokens stake_token_vault) :
    ∃ a b T', token_account s.tokens stake_token_vault s.stake_vault.stake_mint stake_vault_address
        = .ok a
      ∧ token_account s.tokens c s.stake_vault.stake_mint o = .ok b
      ∧ transfer_checked s.tokens stake_token_vault c s.stake_vault.stake_mint stake_vault_address x
        = .ok T'
      ∧ Moved s.tokens T' stake_token_vault c x := by
  obtain ⟨b, hb, hmint, howner⟩ := hc
  cases ha : s.tokens.lookup stake_token_vault with
  | none =>
    unfold balance at hx
    rw [ha] at hx
    exact absurd hx (Nat.not_le.mpr hpos)
  | some a =>
    obtain ⟨hvault, hvault_mint⟩ := hcustody a ha
    rw [balance_eq ha] at hx
    have hne : stake_token_vault ≠ c := by
      -- the account at a derived address belongs to a derived address, which signs nothing
      rintro rfl
      have hpda := hT.owner _ b hb rfl
      rw [howner, Pubkey.is_pda_of_can_sign hsigns] at hpda
      cases hpda
    obtain ⟨T', htransfer⟩ := transfer_checked_goes hne ha hb hvault_mint hmint hvault hx
      (hT.supply_lt _)
    exact ⟨a, b, T', token_account_of ha hvault_mint hvault, token_account_of hb hmint howner,
      htransfer, transfer_checked_moved hne htransfer⟩

end Custody

/-! ## Freeing the stake of one owner -/

/-- Stake of `o` was unlocked, and nothing else happened to the stake ledger. -/
structure FreedFrom (o : Pubkey) (s s' : State) : Prop where
  principal : PrincipalKept s.toStakeRecords s'.toStakeRecords
  others : ∀ o', o' ≠ o → s'.locked_of o' = s.locked_of o'
  vault : s'.stake_vault = s.stake_vault
  tokens : s'.tokens = s.tokens
  coverage : ∀ hash c, s'.coverage_at hash = some c → ¬ c.status.terminal →
    s.coverage_at hash = some c
  intents : ∀ k i, s'.intents.lookup k = some i → s.intents.lookup k = some i
  locks : ∀ kl l, s'.intent_locks.lookup kl = some l → s.intent_locks.lookup kl = some l

/-- What the stake of `o` is behind is due: the intents under pending coverage have expired, and the
windows of settled coverage have passed. -/
structure CoverageDue (s : State) (o : Pubkey) (now : ℤ) : Prop where
  pending : ∀ c k i l, s.coverage_at i.intent_hash = some c → c.stake_owner = o →
    c.status = .Pending → s.intents.lookup k = some i →
    s.intent_locks.lookup (intent_lock_address i.deposit i.intent_hash) = some l →
    l.expiry_time < now
  settled : ∀ hash c, s.coverage_at hash = some c → c.stake_owner = o → c.status = .Settled →
    c.release_eligible_at ≤ now

section Freeing

variable {rt : Runtime} {es : List Event} {s s₁ s' : State} {o : Pubkey}

theorem FreedFrom.refl (o : Pubkey) (s : State) : FreedFrom o s s where
  principal := .of_records rfl
  others _ _ := rfl
  vault := rfl
  tokens := rfl
  coverage _ _ hc _ := hc
  intents _ _ hi := hi
  locks _ _ hl := hl

theorem FreedFrom.trans (h : FreedFrom o s s₁) (h' : FreedFrom o s₁ s') : FreedFrom o s s' where
  principal :=
    { balance_of := fun o' => (h'.principal.balance_of o').trans (h.principal.balance_of o')
      total_staked := h'.principal.total_staked.trans h.principal.total_staked
      claim_of := fun b => (h'.principal.claim_of b).trans (h.principal.claim_of b)
      total_claimable := h'.principal.total_claimable.trans h.principal.total_claimable }
  others o' ho := (h'.others o' ho).trans (h.others o' ho)
  vault := h'.vault.trans h.vault
  tokens := h'.tokens.trans h.tokens
  coverage hash c hc hopen := h.coverage hash c (h'.coverage hash c hc hopen) hopen
  intents k i hi := h.intents k i (h'.intents k i hi)
  locks kl l hl := h.locks kl l (h'.locks kl l hl)

/-- Freeing some of an owner's stake puts no new coverage in the way of the rest. -/
theorem CoverageDue.freed {now : ℤ} (h : CoverageDue s o now) (hfreed : FreedFrom o s s') :
    CoverageDue s' o now := by
  constructor
  · intro c k i l hc howner hpending hi hl
    have hopen : ¬ c.status.terminal := by
      rw [hpending]
      exact not_false
    exact h.pending c k i l (hfreed.coverage _ c hc hopen) howner hpending (hfreed.intents k i hi)
      (hfreed.locks _ l hl)
  · intro hash c hc howner hsettled
    have hopen : ¬ c.status.terminal := by
      rw [hsettled]
      exact not_false
    exact h.settled hash c (hfreed.coverage hash c hc hopen) howner hsettled

/-- Ending one coverage unlocks what it held, of its own owner. -/
theorem FreedFrom.of_ended {hash : Bytes 32} {c' : DisputeIntent} {x : ℕ} {p p' : StakePosition}
    (hterminal : c'.status.terminal)
    (hp : s.stake_positions.lookup (position_of o) = some p) (hunlock : p.unlock x = .ok p')
    (hpositions : s'.stake_positions = s.stake_positions.insert (position_of o) p')
    (hvault : s'.stake_vault = s.stake_vault) (hclaims : s'.claims = s.claims)
    (hcoverage : s'.dispute_intents = s.dispute_intents.insert (coverage_of hash) c')
    (htokens : s'.tokens = s.tokens)
    (hintents : ∀ k i, s'.intents.lookup k = some i → s.intents.lookup k = some i)
    (hlocks : ∀ kl l, s'.intent_locks.lookup kl = some l → s.intent_locks.lookup kl = some l) :
    FreedFrom o s s' ∧ s'.locked_of o + x = s.locked_of o := by
  obtain ⟨hle, rfl⟩ := StakePosition.unlock_ok hunlock
  refine ⟨⟨.of_position hp hpositions rfl hvault hclaims, fun o' ho => ?_, hvault, htokens,
    fun hash' c hc hopen => ?_, hintents, hlocks⟩, ?_⟩
  · rw [locked_of_insert hpositions, if_neg (Ne.symm ho)]
  · unfold DisputeRecords.coverage_at at hc ⊢
    rw [hcoverage, Finmap.lookup_insert_ite] at hc
    split_ifs at hc
    · cases hc
      exact absurd hterminal hopen
    · exact hc
  · rw [locked_of_insert hpositions, if_pos rfl, locked_of_some hp]
    exact Nat.sub_add_cancel hle

/-- So does pruning a covered intent. -/
theorem IntentPruned.frees {k : Pubkey} {live : LiveIntent} (h : IntentPruned s k live s')
    (hcovered : live.intent.dispute_covered = true)
    {c : DisputeIntent} {l : StakeLock} (hc : s.coverage_at live.intent.intent_hash = some c)
    (hl : s.stake_locks.lookup (lock_of live.intent.intent_hash) = some l) :
    FreedFrom c.stake_owner s s' ∧ s'.locked_of c.stake_owner + l.amount
      = s.locked_of c.stake_owner := by
  obtain ⟨htokens, -, hintents, hlocks, -⟩ := h.records
  obtain ⟨d, s₁, -, rfl, ⟨huncovered, -⟩ | ⟨c', l', p, p', hcancelled⟩⟩ := h
  · rw [hcovered] at huncovered
    cases huncovered
  have hcoverage := hcancelled.dispute_eq
  have hlock := hcancelled.lock
  unfold DisputeRecords.coverage_at at hc
  rw [hc] at hcoverage
  rw [hl] at hlock
  cases hcoverage
  cases hlock
  have hpost := hcancelled.post
  -- cancelled coverage is terminal: nothing is left that could lock its owner's stake
  have hterminal : ({ c with status := .Cancelled } : DisputeIntent).status.terminal := trivial
  refine FreedFrom.of_ended hterminal hcancelled.position
    hcancelled.unlocked (congrArg (·.stake_positions) hpost) (congrArg (·.stake_vault) hpost)
    (congrArg (·.claims) hpost) (congrArg (·.dispute_intents) hpost) htokens ?_ ?_
  · intro k' i hi
    rw [hintents, Finmap.lookup_erase_ite] at hi
    split_ifs at hi
    exact hi
  · intro kl l' hl'
    rw [hlocks, Finmap.lookup_erase_ite] at hl'
    split_ifs at hl'
    exact hl'

end Freeing

/-! ## One coverage after the other -/

/-- The event is a release of matured coverage signed by `o`, at the time of `ctx`. -/
def ReleasedBy (ctx : TxContext) (o : Pubkey) (e : Event) : Prop :=
  e.ctx = ctx ∧ ∃ accounts, e.ix = .program (.release_matured_dispute accounts)
    ∧ accounts.caller = o

/-- What an owner does to free its stake: it prunes and releases, and signs both. -/
def Frees (ctx : TxContext) (o : Pubkey) (e : Event) : Prop := PrunedBy ctx o e ∨ ReleasedBy ctx o e

theorem Frees.not_accepts {ctx : TxContext} {o : Pubkey} {e : Event} (h : Frees ctx o e) :
    ¬ AcceptsController e := by
  rcases h with hpruned | ⟨-, accounts, hix, -⟩
  · exact hpruned.not_accepts
  · rintro ⟨accept, hix'⟩
    rw [hix] at hix'
    cases hix'

section Turns

variable {rt : Runtime} {es : List Event} {s : State} {o : Pubkey}

/-- Settled coverage whose window has passed can be released by anyone who signs. -/
theorem Run.releasable (h : Run rt es s) (hkept : ∀ e ∈ es, ¬ AcceptsController e)
    {hash : Bytes 32} {c : DisputeIntent} {l : StakeLock} (hc : s.coverage_at hash = some c)
    (hsettled : c.status = .Settled) (hl : s.stake_locks.lookup (lock_of hash) = some l)
    (hagrees : SettledAgrees c l) (hpos : 0 < l.amount) {ctx : TxContext}
    (hdue : c.release_eligible_at ≤ ctx.now) {caller : Pubkey} (hcaller : caller.can_sign = true) :
    ∃ s', handle_release_matured_dispute ctx ⟨caller, coverage_of hash⟩ s = .ok s'
      ∧ FreedFrom c.stake_owner s s'
      ∧ s'.locked_of c.stake_owner + l.amount = s.locked_of c.stake_owner := by
  obtain ⟨hhash, hconfig⟩ := (Run.ledgerOk h).1.coverage.at_hash hc
  obtain ⟨p, hp, hlocked⟩ := (Run.collateral h hkept).backed.position hl hpos
  rw [hagrees.stake_owner] at hp
  obtain ⟨p', hunlock⟩ := StakePosition.unlock_of_le hlocked
  -- settled, due, and of the amount the lock has: the three checks of the release
  have hrelease : c.release ctx.now = .ok ({ c with status := .Released }, l.amount) := by
    simp only [DisputeIntent.release, bind_eq_ok, require_eq_ok, exists_const, pure_eq_ok,
      hagrees.amount]
    exact ⟨hsettled, hdue, trivial⟩
  refine ⟨{ s with
    stake_positions := s.stake_positions.insert (position_of c.stake_owner) p'
    stake_locks := s.stake_locks.erase (lock_of hash)
    dispute_intents := s.dispute_intents.insert (coverage_of hash)
      { c with status := .Released } }, ?_, ?_⟩
  · simp only [handle_release_matured_dispute, bind_eq_ok, signer_eq_ok, load_eq_ok, require_eq_ok,
      exists_const, Prod.exists, pure_eq_ok]
    refine ⟨hcaller, c, hc, p, hp, l, ?_, ?_, _, _, hrelease, rfl, p', hunlock, ?_⟩
    · rw [hhash]
      exact hl
    · rw [hhash, hconfig]
    · rw [hhash]
  · have hterminal : ({ c with status := .Released } : DisputeIntent).status.terminal := trivial
    exact FreedFrom.of_ended hterminal hp hunlock rfl rfl rfl rfl rfl (fun _ _ hi => hi)
      fun _ _ hl' => hl'

/-- An owner whose coverage is due can free its stake of one lock after another, until none is
left. -/
theorem Run.frees (hinj : NonceInjective rt) (h : Run rt es s)
    (hkept : ∀ e ∈ es, ¬ AcceptsController e) {ctx : TxContext} (hdue : CoverageDue s o ctx.now)
    (hsigns : o.can_sign = true) :
    TxMachine.Reaches (genesis rt) (step rt) (Frees ctx o) es fun s' =>
      FreedFrom o s s' ∧ s'.locked_of o = 0 := by
  refine TxMachine.Reaches.drain (G := fun e => ¬ AcceptsController e)
    (fun e he => he.not_accepts) ?_ h hkept (.refl o s)
  intro es₁ s₁ hrun hkept₁ hfreed hlocked
  have hdue₁ := hdue.freed hfreed
  have hledger := (Run.ledgerOk hrun).1
  have hcollateral := Run.collateral hrun hkept₁
  -- the locked stake is what the locks take, so there is a lock, and it names its coverage
  have hlock : ∃ kl l, s₁.stake_locks.lookup kl = some l ∧ l.stake_owner = o ∧ 0 < l.amount := by
    by_contra hnone
    apply hlocked
    rw [hcollateral.backed o]
    refine Finmap.total_eq_zero fun kl l hl => ?_
    by_cases howner : l.stake_owner = o
    · rw [if_pos howner]
      by_contra hpos
      exact hnone ⟨kl, l, hl, howner, Nat.pos_of_ne_zero hpos⟩
    · rw [if_neg howner]
  obtain ⟨kl, l, hl, howner, hpos⟩ := hlock
  obtain ⟨rfl, -⟩ := hledger.stake.lock kl l hl
  obtain ⟨c, hc, hstake_owner⟩ := hcollateral.named l.id l hl
  have hname : c.stake_owner = o := hstake_owner.symm.trans howner
  have hok := Run.coverage_ok hinj hrun hkept₁ l.id
  cases hstatus : c.status with
  | Pending =>
    obtain ⟨k, i, _, hi, hhash, hcovered, -⟩ := hok.pending hc hstatus
    obtain ⟨-, hcustody, -⟩ := (Run.own_locks hrun).1
    obtain ⟨lock, hfound, -⟩ := (hcustody.intents k i hi).lock
    rw [← hhash] at hc hl
    have hover := hdue₁.pending c k i lock hc hname hstatus hi hfound
    obtain ⟨accounts, live, s₂, hcaller, rfl, hlive, hprune, hpruned⟩ :=
      Run.prunable hinj hrun hi (fun _ => hkept₁) hfound hover hsigns
    obtain ⟨hfrees, hless⟩ := hpruned.frees hcovered hc hl
    rw [hname] at hfrees hless
    have hstep : step rt ctx [] (.program (.prune_expired_intent accounts)) [] s₁ s₂ := hprune
    exact TxMachine.Reaches.one hrun hstep (.inl ⟨rfl, accounts, rfl, hcaller⟩)
      ⟨hfreed.trans hfrees, by omega⟩
  | Settled =>
    obtain ⟨-, l', hl', hagrees⟩ := hok.settled hc hstatus
    rw [hl] at hl'
    cases hl'
    obtain ⟨s₂, hrelease, hfrees, hless⟩ := Run.releasable hrun hkept₁ hc hstatus hl hagrees hpos
      (hdue₁.settled l.id c hc hname hstatus) hsigns
    rw [hname] at hfrees hless
    have hstep : step rt ctx [] (.program (.release_matured_dispute ⟨o, coverage_of l.id⟩)) [] s₁ s₂ :=
      hrelease
    exact TxMachine.Reaches.one hrun hstep (.inr ⟨rfl, _, rfl, rfl⟩) ⟨hfreed.trans hfrees, by omega⟩
  | Cancelled | Released | Disputed =>
    -- coverage that ended holds no lock
    have hterminal : c.status.terminal := by
      rw [hstatus]
      trivial
    obtain ⟨-, hnone⟩ := hok.terminal hc hterminal
    rw [hl] at hnone
    cases hnone

end Turns

/-! ## Taking it out -/

/-- The event is a withdrawal of stake signed by `o`, at the time of `ctx`. -/
def StakeWithdrawnBy (ctx : TxContext) (o : Pubkey) (e : Event) : Prop :=
  e.ctx = ctx ∧ ∃ accounts x, e.ix = .program (.stake (.withdraw_stake accounts x))
    ∧ accounts.owner = o

/-- The event is a collection of a claim signed by `o`, at the time of `ctx`. -/
def ClaimedBy (ctx : TxContext) (o : Pubkey) (e : Event) : Prop :=
  e.ctx = ctx ∧ ∃ accounts, e.ix = .program (.stake (.claim_stake accounts))
    ∧ accounts.beneficiary = o

/-- `x` of the custody went to the token account `dst`, and the stake and claims of `o` are less by
`staked` and `claimed` of it. -/
structure PaidOut (o dst : Pubkey) (staked claimed : ℕ) (s s' : State) : Prop where
  stake : s'.balance_of o + staked = s.balance_of o
  claim : s'.claim_of o + claimed = s.claim_of o
  others : ∀ o', o' ≠ o → s'.balance_of o' = s.balance_of o' ∧ s'.locked_of o' = s.locked_of o'
    ∧ s'.claim_of o' = s.claim_of o'
  paid : ∀ c, c ≠ stake_token_vault →
    balance s'.tokens c = balance s.tokens c + if c = dst then staked + claimed else 0

section Exit

variable {rt : Runtime} {es : List Event} {s : State} {o dst : Pubkey}

/-- What is not locked can be withdrawn at any time. -/
theorem Run.withdraws_stake (h : Run rt es s) (hsigns : o.can_sign = true)
    (hdst : ∃ a, s.tokens.lookup dst = some a ∧ a.mint = s.stake_vault.stake_mint ∧ a.owner = o)
    {x : ℕ} (hpos : 0 < x) (hfree : s.locked_of o + x ≤ s.balance_of o) (ctx : TxContext) :
    TxMachine.Reaches (genesis rt) (step rt) (StakeWithdrawnBy ctx o) es fun s' =>
      PaidOut o dst x 0 s s' ∧ s'.locked_of o = s.locked_of o := by
  obtain ⟨⟨hledger, hsolvent⟩, -⟩ := Run.solvent h
  cases hp : s.stake_positions.lookup (position_of o) with
  | none =>
    unfold StakeRecords.balance_of at hfree
    rw [hp] at hfree
    have hle : s.locked_of o + x ≤ 0 := hfree
    omega
  | some p =>
    rw [locked_of_some hp, balance_of_some hp] at hfree
    obtain ⟨howner, hvault⟩ := hledger.stake.position_at hp
    have hstaked := hsolvent.balance_le hp
    have hheld := hsolvent.custody
    -- custody holds at least what is staked, so it can pay
    obtain ⟨a, b, T', hcustody, haccount, htransfer, hmoved⟩ :=
      custody_pays h.custody_account hledger.tokens hsigns hdst hpos (by omega)
    let r' : StakeRecords := { s.toStakeRecords with
      stake_vault := { s.stake_vault with total_staked := s.stake_vault.total_staked - x }
      stake_positions := s.stake_positions.insert (position_of o)
        { p with balance := p.balance - x } }
    -- the handler, check by check
    have hok : handle_withdraw_stake ⟨o, dst⟩ x s.toStakeRecords s.tokens = .ok (r', T') := by
      simp only [handle_withdraw_stake, StakePosition.free, bind_eq_ok, signer_eq_ok, load_eq_ok,
        require_eq_ok, exists_const, ok_or_eq_ok, Checked.sub_eq_some, pure_eq_ok]
      exact ⟨hsigns, p, hp, hvault, howner, a, hcustody, b, haccount, hpos, _, ⟨by omega, rfl⟩,
        by omega, _, ⟨by omega, rfl⟩, _, ⟨by omega, rfl⟩, T', htransfer, rfl⟩
    have hstep : step rt ctx [] (.program (.stake (.withdraw_stake ⟨o, dst⟩ x))) [] s
        { s with toStakeRecords := r', tokens := T' } := by
      show (TopLevel.program _).execute rt ctx [] [] s = .ok _
      simp only [TopLevel.execute, Instruction.execute, StakeInstruction.execute, hok, ok_bind]
      rfl
    have hpositions : r'.stake_positions = s.stake_positions.insert (position_of o)
        { p with balance := p.balance - x } := rfl
    refine TxMachine.Reaches.one h hstep ⟨rfl, _, _, rfl, rfl⟩
      ⟨⟨?_, rfl, fun o' ho => ⟨?_, ?_, rfl⟩, fun c hc => hmoved.other c hc⟩, ?_⟩
    · show r'.balance_of o + x = s.balance_of o
      rw [balance_of_insert hpositions, if_pos rfl, balance_of_some hp]
      exact Nat.sub_add_cancel (by omega)
    · show r'.balance_of o' = s.balance_of o'
      rw [balance_of_insert hpositions, if_neg (Ne.symm ho)]
    · show r'.locked_of o' = s.locked_of o'
      rw [locked_of_insert hpositions, if_neg (Ne.symm ho)]
    · show r'.locked_of o = s.locked_of o
      rw [locked_of_insert hpositions, if_pos rfl, locked_of_some hp]

/-- What a dispute or a controller awarded can be collected at any time. -/
theorem Run.collects_claim (h : Run rt es s) (hsigns : o.can_sign = true)
    (hdst : ∃ a, s.tokens.lookup dst = some a ∧ a.mint = s.stake_vault.stake_mint ∧ a.owner = o)
    (hpos : 0 < s.claim_of o) (ctx : TxContext) :
    TxMachine.Reaches (genesis rt) (step rt) (ClaimedBy ctx o) es fun s' =>
      PaidOut o dst 0 (s.claim_of o) s s' ∧ s'.toDisputeRecords = s.toDisputeRecords := by
  obtain ⟨⟨hledger, hsolvent⟩, -⟩ := Run.solvent h
  unfold StakeRecords.claim_of at hpos
  cases hclaim : s.claims.lookup (claim_balance_address stake_vault_address o) with
  | none =>
    rw [hclaim] at hpos
    cases hpos
  | some claim =>
    have hamount : s.claim_of o = claim.amount := by
      unfold StakeRecords.claim_of
      rw [hclaim]
      rfl
    rw [hclaim] at hpos
    rw [hamount]
    obtain ⟨hkey, hvault⟩ := hledger.stake.claim _ claim hclaim
    have hbeneficiary : claim.beneficiary = o := (claim_address_injective hkey).symm
    have hclaimable := hsolvent.claim_le hclaim
    have hheld := hsolvent.custody
    -- custody holds what is claimable besides what is staked
    obtain ⟨a, b, T', hcustody, haccount, htransfer, hmoved⟩ :=
      custody_pays h.custody_account hledger.tokens hsigns hdst hpos (hclaimable.trans (by omega))
    let r' : StakeRecords := { s.toStakeRecords with
      stake_vault := { s.stake_vault with
        total_claimable := s.stake_vault.total_claimable - claim.amount }
      claims := s.claims.insert (claim_balance_address stake_vault_address o)
        { claim with amount := 0 } }
    have hok : handle_claim_stake ⟨o, dst⟩ s.toStakeRecords s.tokens = .ok (r', T') := by
      simp only [handle_claim_stake, bind_eq_ok, signer_eq_ok, load_eq_ok, require_eq_ok,
        exists_const, ok_or_eq_ok, Checked.sub_eq_some, pure_eq_ok]
      exact ⟨hsigns, claim, hclaim, hvault, hbeneficiary, a, hcustody, b, haccount, hpos, _,
        ⟨hclaimable, rfl⟩, T', htransfer, rfl⟩
    have hstep : step rt ctx [] (.program (.stake (.claim_stake ⟨o, dst⟩))) [] s
        { s with toStakeRecords := r', tokens := T' } := by
      show (TopLevel.program _).execute rt ctx [] [] s = .ok _
      simp only [TopLevel.execute, Instruction.execute, StakeInstruction.execute, hok, ok_bind]
      rfl
    have hclaims : r'.claims = s.claims.insert (claim_balance_address stake_vault_address o)
        { claim with amount := 0 } := rfl
    refine TxMachine.Reaches.one h hstep ⟨rfl, _, rfl, rfl⟩
      ⟨⟨rfl, ?_, fun o' ho => ⟨rfl, rfl, ?_⟩, fun c hc => ?_⟩, rfl⟩
    · show r'.claim_of o + claim.amount = s.claim_of o
      rw [claim_of_insert hclaims, if_pos rfl, hamount]
      exact Nat.zero_add _
    · show r'.claim_of o' = s.claim_of o'
      rw [claim_of_insert hclaims, if_neg (Ne.symm ho)]
    · rw [Nat.zero_add]
      exact hmoved.other c hc

end Exit

/-- An owner of stake alone can take out, in every state of every run, what is not locked and what
was awarded to it; and all its stake, as long as no handover came and once its coverage is due. -/
theorem stake_recoverable {rt : Runtime} (hinj : NonceInjective rt) {es : List Event} {s : State}
    (h : Run rt es s) {o dst : Pubkey} (hsigns : o.can_sign = true)
    (hdst : ∃ a, s.tokens.lookup dst = some a ∧ a.mint = s.stake_vault.stake_mint ∧ a.owner = o)
    (ctx : TxContext) :
    (∀ x, 0 < x → s.locked_of o + x ≤ s.balance_of o →
        TxMachine.Reaches (genesis rt) (step rt) (StakeWithdrawnBy ctx o) es fun s' =>
          PaidOut o dst x 0 s s' ∧ s'.locked_of o = s.locked_of o)
      ∧ (0 < s.claim_of o → TxMachine.Reaches (genesis rt) (step rt) (ClaimedBy ctx o) es
          (PaidOut o dst 0 (s.claim_of o) s))
      ∧ ((∀ e ∈ es, ¬ AcceptsController e) → CoverageDue s o ctx.now → 0 < s.balance_of o →
        TxMachine.Reaches (genesis rt) (step rt)
          (fun e => SignedByKey e o ∧ (Frees ctx o e ∨ StakeWithdrawnBy ctx o e)) es fun s' =>
            PaidOut o dst (s.balance_of o) 0 s s' ∧ s'.balance_of o = 0 ∧ s'.locked_of o = 0) := by
  refine ⟨fun x hpos hfree => Run.withdraws_stake h hsigns hdst hpos hfree ctx,
    fun hpos => (Run.collects_claim h hsigns hdst hpos ctx).mono (fun _ he => he) fun _ hs => hs.1,
    fun hkept hdue hpos => ?_⟩
  -- first free what is locked, then withdraw what is free
  refine ((Run.frees hinj h hkept hdue hsigns).mono ?_ fun _ hs => hs).trans
    fun new s₁ hrun _ hs₁ => ?_
  · rintro e (⟨htime, accounts, hix, hcaller⟩ | ⟨htime, accounts, hix, hcaller⟩)
    · exact ⟨⟨_, hix, hcaller, hsigns⟩, .inl (.inl ⟨htime, accounts, hix, hcaller⟩)⟩
    · exact ⟨⟨_, hix, hcaller, hsigns⟩, .inl (.inr ⟨htime, accounts, hix, hcaller⟩)⟩
  obtain ⟨hfreed, hunlocked⟩ := hs₁
  -- freeing moved no principal, so all of it is there to be withdrawn
  have hsame : s₁.balance_of o = s.balance_of o := hfreed.principal.balance_of o
  have hfree : s₁.locked_of o + s.balance_of o ≤ s₁.balance_of o := by omega
  have hdst₁ : ∃ a, s₁.tokens.lookup dst = some a ∧ a.mint = s₁.stake_vault.stake_mint
      ∧ a.owner = o := by
    rw [hfreed.tokens, hfreed.vault]
    exact hdst
  refine (Run.withdraws_stake hrun hsigns hdst₁ hpos hfree ctx).mono ?_ fun s' hs' => ?_
  · rintro e ⟨htime, accounts, x, hix, howner⟩
    exact ⟨⟨_, hix, howner, hsigns⟩, .inr ⟨htime, accounts, x, hix, howner⟩⟩
  · obtain ⟨⟨hstake, hclaim, hothers, hpaid⟩, hlocked⟩ := hs'
    refine ⟨⟨hstake.trans hsame, hclaim.trans (hfreed.principal.claim_of o), fun o' ho => ?_,
      fun c hc => ?_⟩, by omega, hlocked.trans hunlocked⟩
    · obtain ⟨hbalance, hlocked', hclaim'⟩ := hothers o' ho
      exact ⟨hbalance.trans (hfreed.principal.balance_of o'),
        hlocked'.trans (hfreed.others o' ho), hclaim'.trans (hfreed.principal.claim_of o')⟩
    · rw [hpaid c hc, hfreed.tokens]

/-- No coverage by `o` is pending, and all settled coverage by `o` has matured, computed. -/
def coverage_matured (s : State) (o : Pubkey) (now : ℤ) : Bool :=
  decide (∀ kc ∈ s.dispute_intents.keys, ∀ c ∈ s.dispute_intents.lookup kc, c.stake_owner = o →
    c.status ≠ .Pending ∧ (c.status = .Settled → c.release_eligible_at ≤ now))

theorem coverage_matured_sound {s : State} {o : Pubkey} {now : ℤ}
    (h : coverage_matured s o now = true) : CoverageDue s o now := by
  have hcoverage : ∀ hash c, s.coverage_at hash = some c → c.stake_owner = o →
      c.status ≠ .Pending ∧ (c.status = .Settled → c.release_eligible_at ≤ now) := by
    intro hash c hc howner
    have hkey : coverage_of hash ∈ s.dispute_intents.keys :=
      Finmap.mem_keys.mpr (Finmap.mem_of_lookup_eq_some hc)
    exact of_decide_eq_true h _ hkey c hc howner
  constructor
  · intro c k i l hc howner hpending
    exact absurd hpending (hcoverage _ c hc howner).1
  · intro hash c hc howner
    exact (hcoverage hash c hc howner).2

/-- On the sample cluster the covered intent was released to its taker; once the window has passed
the taker releases its stake and takes all of it out. -/
theorem stake_recoverable_released :
    ∃ es s, Run sample_runtime es s ∧ 0 < s.locked_of sample_taker
      ∧ ∃ new s', Run sample_runtime (es ++ new) s' ∧ (∀ e ∈ new, SignedByKey e sample_taker)
        ∧ s'.balance_of sample_taker = 0
        ∧ balance s'.tokens (sample_key 101)
          = balance s.tokens (sample_key 101) + s.balance_of sample_taker := by
  obtain ⟨es, s, hrun, hgood⟩ := sample_reaches [sample_setup, sample_cover, sample_manual_release]
    (fun es s => (es.all fun e => !accepts_controller e)
      && decide (0 < s.locked_of sample_taker) && decide (0 < s.balance_of sample_taker)
      && coverage_matured s sample_taker 6600
      && token_account_at s (sample_key 101) s.stake_vault.stake_mint sample_taker)
    (by decide +kernel)
  simp only [Bool.and_eq_true, decide_eq_true_eq, List.all_eq_true] at hgood
  obtain ⟨⟨⟨⟨hkept, hlocked⟩, hpos⟩, hmatured⟩, hdst⟩ := hgood
  have hdue : CoverageDue s sample_taker (sample_ctx 6600).now := coverage_matured_sound hmatured
  obtain ⟨-, -, hall⟩ := stake_recoverable sample_nonce_injective hrun (o := sample_taker) rfl
    (token_account_at_true hdst) (sample_ctx 6600)
  obtain ⟨new, s', hrun', hnew, hpaid, hnone, -⟩ :=
    hall (fun e he => not_accepts_controller (hkept e he)) hdue hpos
  refine ⟨es, s, hrun, hlocked, new, s', hrun', fun e he => (hnew e he).1, hnone, ?_⟩
  rw [hpaid.paid _ (by decide), if_pos rfl, Nat.add_zero]

end Zkp2pSolana
