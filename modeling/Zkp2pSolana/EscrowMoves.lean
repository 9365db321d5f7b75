/-
What an instruction can do to the escrow records, and what therefore holds of every
record the escrow stores.

Deposits, payment tuples and locks are written by five kinds of instruction: the
governance of the escrow, deposit configuration, deposit custody, a signal, and
the instructions that close an intent. `escrow_move` says which, with the records
they leave, and `EscrowOk` is read off it: a deposit sits at the address of its
own number and belongs to a key that can sign, a stored currency passed the checks
of the instruction that stored it, and a lock expires after its signal and within
the lifetime cap, whatever governance and guardians did since.
-/
import Zkp2pSolana.Genesis
import Zkp2pSolana.CustodyMoves

set_option autoImplicit false

namespace Zkp2pSolana

open Result Zkp2pError

/-- What one top-level instruction does to the escrow records. -/
inductive EscrowMove (s s' : State) : Prop
  | same (records : s'.toEscrowRecords = s.toEscrowRecords)
  | configure_escrow (accounts : ConfigureEscrow) (args : ConfigureEscrowArgs)
      (ok : handle_configure_escrow accounts args s = .ok s')
  | deposit_config (ix' : DepositConfigInstruction)
      (ok : ix'.execute s.rate_managers s.toEscrowRecords = .ok s'.toEscrowRecords)
  | custody (ix' : CustodyInstruction)
      (ok : ix'.execute s.toEscrowRecords s.tokens = .ok (s'.toEscrowRecords, s'.tokens))
  /-- A signal writes the deposit and a new lock. -/
  | signaled (d d' : Deposit) (i : Intent) (expiry : ℤ)
      (deposit : s.deposits.lookup i.deposit = some d) (terms : SameTerms d d')
      (fresh : s.intent_locks.lookup (intent_lock_address i.deposit i.intent_hash) = none)
      (expiry_eq : expiry = i.timestamp + s.escrow_config.intent_expiration_period)
      (records : s'.toEscrowRecords = { s.toEscrowRecords with
        deposits := s.deposits.insert i.deposit d'
        intent_locks := s.intent_locks.insert (intent_lock_address i.deposit i.intent_hash)
          (new_intent_lock i expiry) })
  /-- Closing an intent writes the deposit and erases the lock. -/
  | closed (d d' : Deposit) (i : Intent) (deposit : s.deposits.lookup i.deposit = some d)
      (terms : SameTerms d d')
      (records : s'.toEscrowRecords = { s.toEscrowRecords with
        deposits := s.deposits.insert i.deposit d'
        intent_locks := s.intent_locks.erase (intent_lock_address i.deposit i.intent_hash) })

section Moves

variable {rt : Runtime} {ctx : TxContext} {s s₁ s' : State}

/-- A signal moves a deposit's amounts within its terms. -/
theorem Signaled.escrow_move {accounts : SignalIntent} {args : SignalIntentArgs} {d d' : Deposit}
    {a : LifecycleAdmission} {i : Intent} {expiry : ℤ} {state : TakerIntentState}
    (h : Signaled rt ctx accounts args s s' d d' a i expiry state) : EscrowMove s s' := by
  obtain ⟨-, -, -, -, -, hd'⟩ := Deposit.lock_ok h.locked
  obtain ⟨-, hdeposit, hhash, -⟩ := h.terms
  have htimestamp : i.timestamp = ctx.now := by
    obtain ⟨method, terms, hi⟩ := h.intent
    rw [hi]
    rfl
  refine .signaled d d' i expiry ?_ ?_ h.lock_fresh ?_ ?_
  · rw [hdeposit]
    exact h.deposit
  · rw [hd']
    exact ⟨rfl, rfl, rfl, rfl, id⟩
  · rw [htimestamp]
    exact h.expiry_eq.symm
  · rw [h.post, hdeposit, hhash]

/-- A live intent is closed in a state that differs from `s` outside the escrow. -/
theorem escrow_closed {k : Pubkey} {live : LiveIntent} {d' : Deposit}
    (hlive : live_intent k s = .ok live) (hterms : SameTerms live.deposit d')
    (hescrow : s₁.toEscrowRecords = s.toEscrowRecords)
    (hpost : s'.toEscrowRecords = (closed_state k live d' s₁).toEscrowRecords) :
    EscrowMove s s' := by
  obtain ⟨-, -, hdeposit, -⟩ := live_intent_ok hlive
  refine .closed live.deposit d' live.intent hdeposit hterms ?_
  rw [hpost, ← hescrow]
  rfl

/-- Unlocking keeps the terms. -/
theorem unlock_terms {d d' : Deposit} {amount : ℕ} (h : d.unlock amount = .ok d') :
    SameTerms d d' := by
  obtain ⟨-, -, -, rfl⟩ := Deposit.unlock_ok h
  exact ⟨rfl, rfl, rfl, rfl, id⟩

theorem settle_terms {d d' : Deposit} {locked released : ℕ} (h : d.settle locked released = .ok d') :
    SameTerms d d' := by
  obtain ⟨-, -, -, -, rfl⟩ := Deposit.settle_ok h
  exact ⟨rfl, rfl, rfl, rfl, id⟩

/-- A settlement moves its own deposit's amounts and removes its lock. -/
theorem settle_escrow_move {k : Pubkey} {live : LiveIntent} {tokens : SettlementTokenAccounts}
    {dispute : SettlementDisputeAccounts} {remaining_accounts : List AccountInfo} {released : ℕ}
    (hlive : live_intent k s = .ok live)
    (h : settle_intent ctx k live tokens dispute remaining_accounts released s = .ok s₁)
    (hpost : s'.toEscrowRecords = s₁.toEscrowRecords) : EscrowMove s s' := by
  obtain ⟨s₂, d', T, hdispute, hsettle, -, rfl⟩ := settle_intent_ok h
  have hescrow : ({ s₂ with tokens := T } : State).toEscrowRecords = s.toEscrowRecords := by
    rcases settle_dispute_ok hdispute with ⟨-, rfl⟩ | ⟨-, -, _, _, _, _, hsettled⟩
    · rfl
    · rw [hsettled.post]
  exact escrow_closed hlive (settle_terms hsettle) hescrow hpost

/-- Governance touches the escrow's own configuration at most. -/
theorem governance_escrow_move {ix' : GovernanceInstruction} (h : ix'.execute ctx s = .ok s') :
    EscrowMove s s' := by
  have hok := h
  cases governance_write h with
  | escrow accounts args e post => exact .configure_escrow accounts args hok
  | protocol _ p post | orchestrator accounts args o nonce post | accepted accounts post
  | proposed accounts pending candidate valid_at post =>
    exact .same (by rw [post])

/-- Every top-level instruction does one of these to the escrow records. -/
theorem escrow_move {before after : List TopLevel} {ix : TopLevel}
    (h : ix.execute rt ctx before after s = .ok s') : EscrowMove s s' := by
  cases ix with
  | ed25519 data =>
    simp only [TopLevel.execute, bind_eq_ok, require_eq_ok, exists_const, pure_eq_ok] at h
    obtain ⟨-, rfl⟩ := h
    exact .same rfl
  | external tokens =>
    simp only [TopLevel.execute, bind_eq_ok, require_eq_ok, exists_const, pure_eq_ok] at h
    obtain ⟨-, rfl⟩ := h
    exact .same rfl
  | program ix =>
    cases ix with
    | open_records ix | rate_managers ix | whitelists ix | verifier ix | dispute_policy ix =>
      simp only [TopLevel.execute, Instruction.execute, bind_eq_ok, pure_eq_ok] at h
      obtain ⟨_, -, rfl⟩ := h
      exact .same rfl
    | governance ix => exact governance_escrow_move h
    | deposit_config ix =>
      simp only [TopLevel.execute, Instruction.execute, bind_eq_ok, pure_eq_ok] at h
      obtain ⟨_, hok, rfl⟩ := h
      exact .deposit_config ix hok
    | custody ix =>
      simp only [TopLevel.execute, Instruction.execute, bind_eq_ok, pure_eq_ok, Prod.exists] at h
      obtain ⟨_, _, hok, rfl⟩ := h
      exact .custody ix hok
    | stake ix =>
      simp only [TopLevel.execute, Instruction.execute, bind_eq_ok, pure_eq_ok, Prod.exists] at h
      obtain ⟨_, _, -, rfl⟩ := h
      exact .same rfl
    -- from here on: one instruction that locks, two that unlock, two that settle, and four that
    -- stay away
    | signal_intent accounts args =>
      obtain ⟨_, _, _, _, _, _, hsignaled⟩ := signal_intent_ok h
      exact hsignaled.escrow_move
    | cancel_intent accounts =>
      obtain ⟨_, _, _, hlive, -, -, -, -, hunlock, rfl⟩ := cancel_intent_ok h
      exact escrow_closed hlive (unlock_terms hunlock) rfl rfl
    | prune_expired_intent accounts =>
      obtain ⟨_, s₁, _, hlive, -, hprune, hunlock, rfl⟩ := prune_expired_intent_ok h
      have hescrow : s₁.toEscrowRecords = s.toEscrowRecords := by
        rcases prune_dispute_ok hprune with ⟨-, rfl⟩ | ⟨-, _, _, _, _, hcancelled⟩
        · rfl
        · rw [hcancelled.post]
      exact escrow_closed hlive (unlock_terms hunlock) hescrow rfl
    | prepare_dispute accounts args =>
      obtain ⟨_, _, _, _, _, _, hprepared, -⟩ := prepare_dispute_ok h
      exact .same (by rw [hprepared.post])
    | cancel_dispute accounts => exact .same (by rw [cancel_dispute_rest h])
    | release_matured_dispute accounts =>
      obtain ⟨_, _, _, _, -, -, -, -, -, -, -, -, rfl⟩ := release_matured_dispute_ok h
      exact .same rfl
    | submit_dispute accounts args =>
      obtain ⟨_, _, _, _, _, _, hdisputed, -⟩ := submit_dispute_ok h
      exact .same (by rw [hdisputed.post])
    | fulfill_intent accounts args =>
      obtain ⟨_, _, hlive, -, -, -, -, hsettle, rfl⟩ := fulfill_intent_ok h
      exact settle_escrow_move hlive hsettle rfl
    | manual_release accounts =>
      obtain ⟨_, hlive, -, -, hsettle⟩ := manual_release_ok h
      exact settle_escrow_move hlive hsettle rfl

end Moves

/-! ## What holds of the stored records -/

/-- A deposit at the address of its own number, owned by a key that can sign. -/
structure DepositStored (k : Pubkey) (d : Deposit) : Prop where
  escrow_config : d.escrow_config = escrow_config_address
  key : k = deposit_address escrow_config_address d.id
  signs : d.depositor.can_sign = true

/-- A currency at the address of its own tuple, with a usable floor if it is listed. -/
structure CurrencyStored (k : Pubkey) (c : DepositCurrency) : Prop where
  key : k = deposit_currency_address c.deposit c.payment_method c.currency
  floor : c.listed = true → 0 < c.fixed_min_rate ∨ c.oracle_quote.isSome = true
  spread : -10000 < c.spread_bps

/-- A lock expires after its signal, and at most the lifetime cap after it. -/
structure LockTimed (l : EscrowIntentLock) : Prop where
  after : l.timestamp < l.expiry_time
  capped : l.expiry_time ≤ l.timestamp + MAX_INTENT_LIFETIME_SECONDS

structure EscrowOk (r : EscrowRecords) : Prop where
  positive : 0 < r.escrow_config.intent_expiration_period
  capped : r.escrow_config.intent_expiration_period ≤ MAX_INTENT_LIFETIME_SECONDS
  deposit : ∀ k d, r.deposits.lookup k = some d → DepositStored k d
  currency : ∀ k c, r.currencies.lookup k = some c → CurrencyStored k c
  lock : ∀ k l, r.intent_locks.lookup k = some l → LockTimed l

/-- Writing one record keeps what holds of all. -/
theorem stored_insert {α : Type} {P : Pubkey → α → Prop} {m : Accounts α} {k : Pubkey} {v : α}
    (hm : ∀ k' v', m.lookup k' = some v' → P k' v') (hv : P k v) :
    ∀ k' v', (m.insert k v).lookup k' = some v' → P k' v' := by
  intro k' v' h
  rw [Finmap.lookup_insert_ite] at h
  split_ifs at h with hk
  · cases h
    exact hk ▸ hv
  · exact hm k' v' h

/-- What holds of all records holds of those that are left. -/
theorem stored_erase {α : Type} {P : Pubkey → α → Prop} {m : Accounts α} {k : Pubkey}
    (hm : ∀ k' v', m.lookup k' = some v' → P k' v') :
    ∀ k' v', (m.erase k).lookup k' = some v' → P k' v' := by
  intro k' v' h
  rw [Finmap.lookup_erase_ite] at h
  split_ifs at h
  exact hm k' v' h

section Stored

variable {r r' : EscrowRecords} {T T' : Accounts TokenAccount}

/-- A deposit stays storable when only its amounts move. -/
theorem DepositStored.terms {k : Pubkey} {d d' : Deposit} (h : DepositStored k d)
    (hterms : SameTerms d d') : DepositStored k d' := by
  refine ⟨hterms.escrow_config.trans h.escrow_config, ?_, ?_⟩
  · rw [hterms.id]
    exact h.key
  · rw [hterms.depositor]
    exact h.signs

/-- Writing back a deposit on its own terms. -/
theorem EscrowOk.touched (hr : EscrowOk r) {k : Pubkey} {d d' : Deposit}
    (hd : r.deposits.lookup k = some d) (hterms : SameTerms d d') :
    EscrowOk { r with deposits := r.deposits.insert k d' } :=
  ⟨hr.positive, hr.capped, stored_insert hr.deposit ((hr.deposit k d hd).terms hterms), hr.currency,
    hr.lock⟩

/-- What one custody instruction writes. -/
inductive CustodyWrite (r r' : EscrowRecords) : Prop
  | opened (d : Deposit) (m : DepositPaymentMethod) (c : DepositCurrency) (k km kc : Pubkey) (next : ℕ)
      (key : k = deposit_address escrow_config_address d.id)
      (escrow_config : d.escrow_config = escrow_config_address)
      (signs : d.depositor.can_sign = true)
      (currency : kc = deposit_currency_address c.deposit c.payment_method c.currency)
      (floor : 0 < c.fixed_min_rate ∨ c.oracle_quote.isSome = true) (spread : -10000 < c.spread_bps)
      (records : r' = { r with
        escrow_config := { r.escrow_config with next_deposit_id := next }
        deposits := r.deposits.insert k d
        payment_methods := r.payment_methods.insert km m
        currencies := r.currencies.insert kc c })
  | deposit (k : Pubkey) (d d' : Deposit) (found : r.deposits.lookup k = some d)
      (terms : SameTerms d d') (records : r' = { r with deposits := r.deposits.insert k d' })
  | closed (k : Pubkey) (records : r' = { r with deposits := r.deposits.erase k })

/-- What a custody instruction writes among the escrow's records. -/
theorem custody_write {ix : CustodyInstruction} (h : ix.execute r T = .ok (r', T')) :
    CustodyWrite r r' := by
  cases ix with
  | create_deposit accounts args =>
    simp only [CustodyInstruction.execute, handle_create_deposit, check_create_deposit_args,
      bind_eq_ok, signer_eq_ok, require_eq_ok, exists_const, pure_eq_ok, Prod.mk.injEq] at h
    obtain ⟨hsign, _, -, _, -, _, -, _, -, _, -, -, ⟨-, -, -, -, -, -, -, hfloor, hspread, -⟩, _, -, _,
      -, hpost, -⟩ := h
    -- the floor and the spread were checked together with the other arguments
    refine .opened _ _ _ _ _ _ _ ?_ ?_ ?_ ?_ ?_ ?_ hpost.symm
    · rfl
    · rfl
    · exact hsign
    · rfl
    · exact hfloor
    · exact hspread
  | add_funds accounts amount =>
    simp only [CustodyInstruction.execute, handle_add_funds, bind_eq_ok, load_eq_ok, pure_eq_ok,
      Prod.mk.injEq] at h
    obtain ⟨_, -, _, -, d, hd, _, -, _, -, _, -, _, -, _, -, hpost, -⟩ := h
    refine .deposit _ d _ hd ?_ hpost.symm
    exact ⟨rfl, rfl, rfl, rfl, id⟩
  | remove_funds accounts amount =>
    simp only [CustodyInstruction.execute, handle_remove_funds, bind_eq_ok, load_eq_ok, pure_eq_ok,
      Prod.mk.injEq] at h
    obtain ⟨_, -, d, hd, _, -, _, -, _, -, _, -, _, -, _, -, _, -, _, -, _, -, hpost, -⟩ := h
    refine .deposit _ d _ hd ?_ hpost.symm
    exact ⟨rfl, rfl, rfl, rfl, id⟩
  | withdraw_deposit accounts =>
    simp only [CustodyInstruction.execute, handle_withdraw_deposit, bind_eq_ok, load_eq_ok,
      ite_eq_ok, pure_eq_ok, Prod.mk.injEq] at h
    obtain ⟨_, -, d, hd, _, -, _, -, _, -, _, -, _, -, _, -, _, -, h⟩ := h
    -- retained, closed, or kept because intents are still live
    rcases h with ⟨-, _, -, ⟨-, hpost, -⟩ | ⟨-, h⟩⟩ | ⟨-, hpost, -⟩
    · refine .deposit _ d _ hd ?_ hpost.symm
      exact ⟨rfl, rfl, rfl, rfl, id⟩
    · exact .closed _ (close_deposit_ok h).1
    · refine .deposit _ d _ hd ?_ hpost.symm
      exact ⟨rfl, rfl, rfl, rfl, id⟩

/-- Custody instructions keep the escrow's records well formed. -/
theorem EscrowOk.custody (hr : EscrowOk r) {ix : CustodyInstruction}
    (h : ix.execute r T = .ok (r', T')) : EscrowOk r' := by
  cases custody_write h with
  | opened d m c k km kc next key escrow_config signs currency floor spread records =>
    subst records
    exact ⟨hr.positive, hr.capped, stored_insert hr.deposit ⟨escrow_config, key, signs⟩,
      stored_insert hr.currency ⟨currency, fun _ => floor, spread⟩, hr.lock⟩
  | deposit k d d' found terms records =>
    subst records
    exact hr.touched found terms
  | closed k records =>
    subst records
    exact ⟨hr.positive, hr.capped, stored_erase hr.deposit, hr.currency, hr.lock⟩

theorem EscrowOk.deposit_config (hr : EscrowOk r) {managers : Accounts RateManager}
    {ix : DepositConfigInstruction} (h : ix.execute managers r = .ok r') : EscrowOk r' := by
  cases deposit_config_write h with
  | deposit k d d' found terms counters records =>
    subst records
    exact hr.touched found terms
  | payment_method k m records =>
    subst records
    exact ⟨hr.positive, hr.capped, hr.deposit, hr.currency, hr.lock⟩
  | currency k c key floor spread records =>
    subst records
    exact ⟨hr.positive, hr.capped, hr.deposit, stored_insert hr.currency ⟨key, floor, spread⟩, hr.lock⟩
  | lock k l expiry found later capped records =>
    subst records
    have htimed := hr.lock _ l found
    exact ⟨hr.positive, hr.capped, hr.deposit, hr.currency,
      stored_insert hr.lock ⟨htimed.after.trans later, capped⟩⟩

end Stored

/-- A setting that is replaced passed its check, and one that is not stays. -/
theorem getD_of_forall {α : Type} {P : α → Prop} {o : Option α} {x : α} (ho : ∀ y ∈ o, P y)
    (hx : P x) : P (o.getD x) := by
  cases o with
  | none => exact hx
  | some y => exact ho y rfl

/-- Every instruction keeps what holds of the stored records. -/
theorem EscrowMove.ok {s s' : State} (h : EscrowMove s s') (hs : EscrowOk s.toEscrowRecords) :
    EscrowOk s'.toEscrowRecords := by
  cases h with
  | same records => rwa [records]
  | configure_escrow accounts args ok =>
    simp only [handle_configure_escrow, bind_eq_ok, require_eq_ok, exists_const, pure_eq_ok] at ok
    obtain ⟨_, -, -, -, -, -, hpositive, hcapped, rfl⟩ := ok
    exact ⟨getD_of_forall hpositive hs.positive, getD_of_forall hcapped hs.capped, hs.deposit,
      hs.currency, hs.lock⟩
  | deposit_config ix ok => exact hs.deposit_config ok
  | custody ix ok => exact hs.custody ok
  | signaled d d' i expiry deposit terms fresh expiry_eq records =>
    rw [records]
    refine ⟨hs.positive, hs.capped,
      stored_insert hs.deposit ((hs.deposit _ d deposit).terms terms), hs.currency,
      stored_insert hs.lock ⟨?_, ?_⟩⟩
    · have hpositive := hs.positive
      show i.timestamp < expiry
      omega
    · have hcapped := hs.capped
      show expiry ≤ i.timestamp + MAX_INTENT_LIFETIME_SECONDS
      omega
  | closed d d' i deposit terms records =>
    rw [records]
    exact ⟨hs.positive, hs.capped,
      stored_insert hs.deposit ((hs.deposit _ d deposit).terms terms), hs.currency,
      stored_erase hs.lock⟩

/-- The escrow starts empty and with the limits initialization checked. -/
theorem genesis_escrow {rt : Runtime} {s : State} (h : genesis rt s) : EscrowOk s.toEscrowRecords := by
  obtain ⟨_, args, _, _, _, _, _, hargs, -, -, rfl⟩ := genesis_initialized h
  refine ⟨hargs.expiration_positive, hargs.expiration_capped, ?_, ?_, ?_⟩
  all_goals
    intro k v hv
    exact absurd hv (by simp [initial_state])

/-- Every instruction keeps the escrow's records well formed. -/
theorem escrow_step {rt : Runtime} {e : Event} (hv : e.Valid (step rt))
    (hs : EscrowOk e.pre.toEscrowRecords) : EscrowOk e.post.toEscrowRecords :=
  (escrow_move hv).ok hs

theorem Run.escrow {rt : Runtime} {es : List Event} {s : State} (h : Run rt es s) :
    EscrowOk s.toEscrowRecords
      ∧ ∀ e ∈ es, EscrowOk e.pre.toEscrowRecords ∧ EscrowOk e.post.toEscrowRecords :=
  TxMachine.Run.invariant (I := fun s => EscrowOk s.toEscrowRecords) (G := fun _ => True)
    (fun _ hs => genesis_escrow hs) (fun _ _ hv hs => escrow_step hv hs) h fun _ _ => trivial

end Zkp2pSolana
