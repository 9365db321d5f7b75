/-
What an instruction can do to deposits, escrow locks, intents and vaults.

`CustodyMove` is the abstract escrow: the seven ways in which the four kinds of
account move together, each with the one inequality custody is about, that the
vault's excess over the deposit's liabilities does not shrink. The rest of the
module reads every handler backwards into one of them. What an instruction does
to components that escrow does not read is not recorded here.
-/
import Zkp2pSolana.LifecycleSteps

set_option autoImplicit false

namespace Zkp2pSolana

open Result Zkp2pError

/-! ## The abstract escrow -/

/-- The terms of a deposit that no instruction rewrites. -/
structure SameTerms (d d' : Deposit) : Prop where
  escrow_config : d'.escrow_config = d.escrow_config
  id : d'.id = d.id
  depositor : d'.depositor = d.depositor
  token_mint : d'.token_mint = d.token_mint
  floor : 0 < d.intent_amount_range.min → 0 < d'.intent_amount_range.min

theorem SameTerms.refl (d : Deposit) : SameTerms d d := ⟨rfl, rfl, rfl, rfl, fun h => h⟩

/-- The principal a deposit stands for. -/
def Deposit.liability (d : Deposit) : ℕ := d.remaining_deposits + d.outstanding_intent_amount

/-- The vault of the deposit at `k` keeps its owner and mint, and its excess over the liability
does not shrink when the deposit goes from `d` to `d'`. -/
def KeepsExcess (T T' : Accounts TokenAccount) (k : Pubkey) (d d' : Deposit) : Prop :=
  ∀ a, T.lookup (deposit_vault_address k) = some a →
    ∃ a', T'.lookup (deposit_vault_address k) = some a' ∧ a'.owner = a.owner ∧ a'.mint = a.mint
      ∧ a.amount + d'.liability ≤ a'.amount + d.liability

/-- Every vault but the one of the deposit at `k` keeps what it has. -/
def OtherVaultsKeep (T T' : Accounts TokenAccount) (k : Pubkey) : Prop :=
  ∀ k', k' ≠ k → Keeps T T' (deposit_vault_address k')

/-- The intents and the nonce are untouched. -/
structure SameIntents (s s' : State) : Prop where
  intents : s'.intents = s.intents
  nonce : s'.orchestrator.next_intent_id = s.orchestrator.next_intent_id

/-- A lock and an intent describe the same reservation. -/
structure Paired (i : Intent) (l : EscrowIntentLock) : Prop where
  deposit : l.deposit = i.deposit
  intent_hash : l.intent_hash = i.intent_hash
  orchestrator : l.orchestrator = i.orchestrator
  amount : l.amount = i.amount
  timestamp : l.timestamp = i.timestamp

/-- One move of the abstract escrow, made by the top-level instruction `ix`. -/
inductive CustodyMove (rt : Runtime) (ix : TopLevel) (s s' : State) : Prop
  /-- Nothing of the escrow changes; vaults may only grow. -/
  | quiet (deposits : s'.deposits = s.deposits) (locks : s'.intent_locks = s.intent_locks)
      (intents : SameIntents s s')
      (vaults : ∀ k, Keeps s.tokens s'.tokens (deposit_vault_address k))
  /-- A new deposit with a funded vault. -/
  | opened (k : Pubkey) (d : Deposit) (a : TokenAccount) (fresh : s.deposits.lookup k = none)
      (deposits : s'.deposits = s.deposits.insert k d) (locks : s'.intent_locks = s.intent_locks)
      (intents : SameIntents s s') (outstanding : d.outstanding_intent_amount = 0)
      (active : d.active_intents = 0) (floor : 0 < d.intent_amount_range.min)
      (vault : s'.tokens.lookup (deposit_vault_address k) = some a) (owner : a.owner = k)
      (mint : a.mint = d.token_mint) (funded : d.remaining_deposits ≤ a.amount)
      (vaults : OtherVaultsKeep s.tokens s'.tokens k)
  /-- Terms or available liquidity of one deposit change; its locks do not. -/
  | touched (k : Pubkey) (d d' : Deposit) (deposit : s.deposits.lookup k = some d)
      (deposits : s'.deposits = s.deposits.insert k d') (locks : s'.intent_locks = s.intent_locks)
      (intents : SameIntents s s') (terms : SameTerms d d')
      (outstanding : d'.outstanding_intent_amount = d.outstanding_intent_amount)
      (active : d'.active_intents = d.active_intents)
      (excess : KeepsExcess s.tokens s'.tokens k d d')
      (vaults : OtherVaultsKeep s.tokens s'.tokens k)
  /-- `withdraw_deposit` closes a deposit that has no lock. -/
  | closed (accounts : WithdrawDeposit) (d : Deposit)
      (ix_eq : ix = .program (.custody (.withdraw_deposit accounts)))
      (deposit : s.deposits.lookup accounts.deposit = some d)
      (deposits : s'.deposits = s.deposits.erase accounts.deposit)
      (locks : s'.intent_locks = s.intent_locks) (intents : SameIntents s s')
      (active : d.active_intents = 0)
      (vaults : OtherVaultsKeep s.tokens s'.tokens accounts.deposit)
  /-- A signal moves available liquidity under a new lock, paired with a new intent. -/
  | locked (d d' : Deposit) (l : EscrowIntentLock) (i : Intent)
      (deposit : s.deposits.lookup i.deposit = some d)
      (deposits : s'.deposits = s.deposits.insert i.deposit d')
      (lock_fresh : s.intent_locks.lookup (intent_lock_address i.deposit i.intent_hash) = none)
      (locks : s'.intent_locks
        = s.intent_locks.insert (intent_lock_address i.deposit i.intent_hash) l)
      (intents : s'.intents = s.intents.insert (intent_address orchestrator_address i.nonce) i)
      (nonce_eq : i.nonce = s.orchestrator.next_intent_id)
      (nonce : s'.orchestrator.next_intent_id = s.orchestrator.next_intent_id + 1)
      (word : s.orchestrator.next_intent_id + 1 < 2 ^ 64)
      (hash : i.intent_hash = derive_intent_hash rt orchestrator_address i.nonce)
      (orchestrator : i.orchestrator = orchestrator_address)
      (paired : Paired i l) (amount : d.intent_amount_range.min ≤ i.amount)
      (terms : SameTerms d d')
      (remaining : d'.remaining_deposits + i.amount = d.remaining_deposits)
      (outstanding : d'.outstanding_intent_amount = d.outstanding_intent_amount + i.amount)
      (active : d'.active_intents = d.active_intents + 1)
      (tokens : s'.tokens = s.tokens)
  /-- An intent and its lock are closed; the vault pays at most what leaves the liabilities. -/
  | unlocked (k : Pubkey) (d d' : Deposit) (l : EscrowIntentLock) (i : Intent)
      (intent : s.intents.lookup k = some i) (deposit : s.deposits.lookup i.deposit = some d)
      (lock : s.intent_locks.lookup (intent_lock_address i.deposit i.intent_hash) = some l)
      (deposits : s'.deposits = s.deposits.insert i.deposit d')
      (locks : s'.intent_locks
        = s.intent_locks.erase (intent_lock_address i.deposit i.intent_hash))
      (intents : s'.intents = s.intents.erase k)
      (nonce : s'.orchestrator.next_intent_id = s.orchestrator.next_intent_id)
      (terms : SameTerms d d')
      (outstanding : d'.outstanding_intent_amount + l.amount = d.outstanding_intent_amount)
      (active : d'.active_intents + 1 = d.active_intents)
      (excess : KeepsExcess s.tokens s'.tokens i.deposit d d')
      (vaults : OtherVaultsKeep s.tokens s'.tokens i.deposit)
  /-- A guardian re-times one lock. -/
  | extended (k : Pubkey) (l : EscrowIntentLock) (expiry : ℤ)
      (lock : s.intent_locks.lookup k = some l) (deposits : s'.deposits = s.deposits)
      (locks : s'.intent_locks = s.intent_locks.insert k { l with expiry_time := expiry })
      (intents : SameIntents s s') (tokens : s'.tokens = s.tokens)

/-! ## The accounting methods of `Deposit` -/

/-- `lock` read backwards: the deposit accepts intents, the amount is within its range and its
liquidity, and there is room for one more. -/
theorem Deposit.lock_ok {d d' : Deposit} {amount maximum : ℕ} (h : d.lock amount maximum = .ok d') :
    d.accepting_intents = true ∧ d.intent_amount_range.min ≤ amount
      ∧ amount ≤ d.intent_amount_range.max ∧ amount ≤ d.remaining_deposits
      ∧ d.active_intents + 1 ≤ maximum
      ∧ d' = { d with
          remaining_deposits := d.remaining_deposits - amount
          outstanding_intent_amount := d.outstanding_intent_amount + amount
          active_intents := d.active_intents + 1 } := by
  simp only [Deposit.lock, bind_eq_ok, require_eq_ok, exists_const, ok_or_eq_ok,
    Checked.add_eq_some, Checked.sub_eq_some, pure_eq_ok] at h
  obtain ⟨hacc, hmin, hmax, hrem, _, ⟨-, rfl⟩, hcount, _, ⟨-, rfl⟩, _, ⟨-, rfl⟩, rfl⟩ := h
  exact ⟨hacc, hmin, hmax, hrem, hcount, rfl⟩

/-- `unlock` read backwards: the whole lock returns to the liquidity. -/
theorem Deposit.unlock_ok {d d' : Deposit} {amount : ℕ} (h : d.unlock amount = .ok d') :
    amount ≤ d.outstanding_intent_amount ∧ d.remaining_deposits + amount < 2 ^ 64
      ∧ 1 ≤ d.active_intents
      ∧ d' = { d with
          remaining_deposits := d.remaining_deposits + amount
          outstanding_intent_amount := d.outstanding_intent_amount - amount
          active_intents := d.active_intents - 1 } := by
  simp only [Deposit.unlock, bind_eq_ok, ok_or_eq_ok, Checked.add_eq_some, Checked.sub_eq_some,
    pure_eq_ok] at h
  obtain ⟨_, ⟨hout, rfl⟩, _, ⟨hrem, rfl⟩, _, ⟨hact, rfl⟩, rfl⟩ := h
  exact ⟨hout, hrem, hact, rfl⟩

/-- `settle` read backwards: what is not released returns to the liquidity. -/
theorem Deposit.settle_ok {d d' : Deposit} {locked released : ℕ}
    (h : d.settle locked released = .ok d') :
    0 < released ∧ released ≤ locked ∧ locked ≤ d.outstanding_intent_amount
      ∧ 1 ≤ d.active_intents
      ∧ d' = { d with
          remaining_deposits := d.remaining_deposits + (locked - released)
          outstanding_intent_amount := d.outstanding_intent_amount - locked
          active_intents := d.active_intents - 1 } := by
  simp only [Deposit.settle, bind_eq_ok, require_eq_ok, exists_const, ok_or_eq_ok,
    Checked.add_eq_some, Checked.sub_eq_some, pure_eq_ok] at h
  obtain ⟨hpos, hle, _, ⟨hout, rfl⟩, _, ⟨-, rfl⟩, _, ⟨-, rfl⟩, _, ⟨hact, rfl⟩, rfl⟩ := h
  exact ⟨hpos, hle, hout, hact, rfl⟩

/-! ## The excess of one vault -/

/-- A vault that keeps its tokens keeps the excess of a deposit that owes no more. -/
theorem KeepsExcess.of_keeps {T T' : Accounts TokenAccount} {k : Pubkey} {d d' : Deposit}
    (h : Keeps T T' (deposit_vault_address k)) (hle : d'.liability ≤ d.liability) :
    KeepsExcess T T' k d d' := by
  intro a ha
  obtain ⟨a', ha', ho, hm, hamount⟩ := h a ha
  exact ⟨a', ha', ho, hm, by omega⟩

/-- A vault that pays keeps the excess, if the deposit owes that much less. -/
theorem KeepsExcess.of_paid {T T' : Accounts TokenAccount} {k : Pubkey} {d d' : Deposit} {x : ℕ}
    (h : Paid T T' (deposit_vault_address k) x) (hle : d'.liability + x ≤ d.liability) :
    KeepsExcess T T' k d d' := by
  intro a ha
  obtain ⟨a', ha', ho, hm, hamount⟩ := h.source a ha
  exact ⟨a', ha', ho, hm, by omega⟩

/-- Only the vault of the deposit itself may lose tokens. -/
theorem OtherVaultsKeep.of_vaultOnly {T T' : Accounts TokenAccount} {k : Pubkey}
    (h : ∀ k', k' ≠ deposit_vault_address k → Keeps T T' k') : OtherVaultsKeep T T' k := by
  intro k' hk
  exact h _ (Pubkey.pda_key_ne hk)

theorem OtherVaultsKeep.refl (T : Accounts TokenAccount) (k : Pubkey) : OtherVaultsKeep T T k :=
  fun _ _ => .refl _ _

/-! ## Deposit custody and configuration -/

theorem custody_instruction_move (rt : Runtime) {ix : CustodyInstruction} {s : State}
    {r' : EscrowRecords} {T' : Accounts TokenAccount} (hT : TokensOk s.tokens)
    (h : ix.execute s.toEscrowRecords s.tokens = .ok (r', T')) :
    CustodyMove rt (.program (.custody ix)) s
      { s with toEscrowRecords := r', tokens := T' } := by
  cases ix with
  | create_deposit accounts args =>
    obtain ⟨key, a, -, -, hfloor, hfresh, hdeposits, hlocks, hvault, ho, hm, hamount, -, hkeeps⟩ :=
      create_deposit_ok hT h
    exact .opened key _ a hfresh hdeposits hlocks ⟨rfl, rfl⟩ rfl rfl hfloor hvault ho hm hamount.ge
      fun k' _ => hkeeps _ rfl
  | add_funds accounts amount =>
    obtain ⟨d, hd, rfl, hbalance, -, hkeeps⟩ := add_funds_ok hT h
    refine .touched accounts.deposit d _ hd rfl rfl ⟨rfl, rfl⟩ ⟨rfl, rfl, rfl, rfl, id⟩ rfl rfl ?_
      fun k' _ => hkeeps _ rfl
    -- credited and owed by the same amount, so the excess is unchanged
    intro a ha
    obtain ⟨a', ha', ho, hm, hamount⟩ := (hkeeps _ rfl).credited hbalance ha
    refine ⟨a', ha', ho, hm, ?_⟩
    simp only [Deposit.liability]
    omega
  | remove_funds accounts amount =>
    obtain ⟨d, hd, hle, rfl, hpaid⟩ := remove_funds_ok hT h
    refine .touched accounts.deposit d _ hd rfl rfl ⟨rfl, rfl⟩ ⟨rfl, rfl, rfl, rfl, id⟩ rfl rfl
      (.of_paid hpaid ?_) (.of_vaultOnly hpaid.keeps)
    simp only [Deposit.liability]
    omega
  | withdraw_deposit accounts =>
    obtain ⟨d, hd, ⟨retain, rfl, hpaid⟩ | ⟨hactive, -, -, rfl, hclosed⟩⟩ := withdraw_deposit_ok hT h
    · refine .touched accounts.deposit d _ hd rfl rfl ⟨rfl, rfl⟩ ⟨rfl, rfl, rfl, rfl, id⟩ rfl rfl
        (.of_paid hpaid ?_) (.of_vaultOnly hpaid.keeps)
      simp only [Deposit.liability, drained]
      omega
    -- the closing branch gives the excess away; the move only records that no lock was left
    · exact .closed accounts d rfl hd rfl rfl ⟨rfl, rfl⟩ hactive (.of_vaultOnly hclosed.keeps)

theorem configured_deposit_ok {accounts : ConfigureDeposit} {r : EscrowRecords} {d : Deposit}
    (h : configured_deposit accounts r = .ok d) :
    r.deposits.lookup accounts.deposit = some d
      ∧ (d.depositor = accounts.authority ∨ d.delegate = some accounts.authority) := by
  simp only [configured_deposit, bind_eq_ok, signer_eq_ok, load_eq_ok, require_eq_ok, exists_const,
    pure_eq_ok] at h
  obtain ⟨-, -, d', hd, -, hauthority, rfl⟩ := h
  exact ⟨hd, hauthority⟩

/-- The counters of a deposit, which configuration leaves alone. -/
structure SameCounters (d d' : Deposit) : Prop where
  remaining : d'.remaining_deposits = d.remaining_deposits
  outstanding : d'.outstanding_intent_amount = d.outstanding_intent_amount
  active : d'.active_intents = d.active_intents

/-- What one deposit configuration writes. -/
inductive DepositConfigWrite (r r' : EscrowRecords) : Prop
  | deposit (k : Pubkey) (d d' : Deposit) (found : r.deposits.lookup k = some d)
      (terms : SameTerms d d') (counters : SameCounters d d')
      (records : r' = { r with deposits := r.deposits.insert k d' })
  | payment_method (k : Pubkey) (m : DepositPaymentMethod)
      (records : r' = { r with payment_methods := r.payment_methods.insert k m })
  | currency (k : Pubkey) (c : DepositCurrency)
      (key : k = deposit_currency_address c.deposit c.payment_method c.currency)
      (floor : c.listed = true → 0 < c.fixed_min_rate ∨ c.oracle_quote.isSome = true)
      (spread : -10000 < c.spread_bps)
      (records : r' = { r with currencies := r.currencies.insert k c })
  /-- An extension moves the expiry forward, up to the cap counted from the signal. -/
  | lock (k : Pubkey) (l : EscrowIntentLock) (expiry : ℤ) (found : r.intent_locks.lookup k = some l)
      (later : l.expiry_time < expiry) (capped : expiry ≤ l.timestamp + MAX_INTENT_LIFETIME_SECONDS)
      (records : r' = { r with
        intent_locks := r.intent_locks.insert k { l with expiry_time := expiry } })

/-- The configuration instructions write the terms of a deposit and never its amounts. -/
theorem deposit_config_write {ix : DepositConfigInstruction} {managers : Accounts RateManager}
    {r r' : EscrowRecords} (h : ix.execute managers r = .ok r') : DepositConfigWrite r r' := by
  cases ix with
  | update_deposit accounts args =>
    simp only [DepositConfigInstruction.execute, handle_update_deposit, bind_eq_ok, require_eq_ok,
      exists_const, pure_eq_ok] at h
    obtain ⟨d, hd, -, -, -, hfloor, -, -, -, -, hpost⟩ := h
    refine .deposit accounts.deposit d _ (configured_deposit_ok hd).1 ?_ ?_ hpost.symm
    swap
    · exact ⟨rfl, rfl, rfl⟩
    refine ⟨rfl, rfl, rfl, rfl, fun hold => ?_⟩
    -- an update that replaces the range must bring a positive floor of its own
    cases hrange : args.intent_amount_range with
    | none =>
      simp only [Option.getD_none]
      exact hold
    | some range =>
      simp only [Option.getD_some]
      exact hfloor range hrange
  | configure_payment_method accounts args =>
    simp only [DepositConfigInstruction.execute, handle_configure_payment_method, bind_eq_ok,
      require_eq_ok, exists_const, pure_eq_ok] at h
    obtain ⟨_, -, -, -, -, hpost⟩ := h
    exact .payment_method _ _ hpost.symm
  | configure_currency accounts args =>
    simp only [DepositConfigInstruction.execute, handle_configure_currency, bind_eq_ok, load_eq_ok,
      require_eq_ok, exists_const, pure_eq_ok] at h
    obtain ⟨_, -, _, -, -, -, hfloor, hspread, -, -, hpost⟩ := h
    refine .currency _ _ ?_ ?_ ?_ hpost.symm
    · rfl
    · intro hlisted
      rcases hfloor with hunlisted | hfloor
      · exact absurd (hlisted.symm.trans hunlisted) (by decide)
      · exact hfloor
    · exact hspread
  -- the record is written back with another manager, which is none of the terms
  | set_deposit_rate_manager accounts rate_manager manager =>
    simp only [DepositConfigInstruction.execute, handle_set_deposit_rate_manager, bind_eq_ok,
      pure_eq_ok] at h
    obtain ⟨d, hd, _, -, _, -, hpost⟩ := h
    refine .deposit accounts.deposit d _ (configured_deposit_ok hd).1 ?_ ?_ hpost.symm
    · exact ⟨rfl, rfl, rfl, rfl, id⟩
    · exact ⟨rfl, rfl, rfl⟩
  | extend_intent_expiry accounts additional_time =>
    simp only [DepositConfigInstruction.execute, handle_extend_intent_expiry, bind_eq_ok,
      signer_eq_ok, load_eq_ok, require_eq_ok, exists_const, ok_or_eq_ok, Checked.add_i64_eq_some,
      pure_eq_ok] at h
    obtain ⟨-, _, -, -, l, hl, -, -, hpositive, _, ⟨-, rfl⟩, _, ⟨-, rfl⟩, hcap, hpost⟩ := h
    refine .lock accounts.intent_lock l _ hl ?_ ?_ hpost.symm
    · omega
    · exact hcap

theorem deposit_config_move (rt : Runtime) {ix : DepositConfigInstruction} {s : State}
    {managers : Accounts RateManager} {r' : EscrowRecords}
    (h : ix.execute managers s.toEscrowRecords = .ok r') :
    CustodyMove rt (.program (.deposit_config ix)) s { s with toEscrowRecords := r' } := by
  cases deposit_config_write h with
  | deposit k d d' found terms counters records =>
    subst records
    refine .touched k d d' found rfl rfl ⟨rfl, rfl⟩ terms counters.outstanding counters.active
      (.of_keeps (.refl _ _) ?_) (.refl _ _)
    unfold Deposit.liability
    rw [counters.remaining, counters.outstanding]
  | payment_method k m records =>
    subst records
    exact .quiet rfl rfl ⟨rfl, rfl⟩ fun _ => .refl _ _
  | currency k c key floor spread records =>
    subst records
    exact .quiet rfl rfl ⟨rfl, rfl⟩ fun _ => .refl _ _
  | lock k l expiry found later capped records =>
    subst records
    exact .extended k l expiry found rfl rfl ⟨rfl, rfl⟩ rfl

/-! ## Signaling and closing -/

theorem Signaled.custody_move {rt : Runtime} {ctx : TxContext} {accounts : SignalIntent}
    {args : SignalIntentArgs} {s s' : State} {d d' : Deposit} {a : LifecycleAdmission} {i : Intent}
    {expiry : ℤ} {state : TakerIntentState}
    (h : Signaled rt ctx accounts args s s' d d' a i expiry state) (ix : TopLevel) :
    CustodyMove rt ix s s' := by
  obtain ⟨-, hdeposit, hhash, hnonce, horchestrator, -, hamount⟩ := h.terms
  obtain ⟨-, hmin, -, hremaining, -, hd'⟩ := Deposit.lock_ok h.locked
  have hlock : s.intent_locks.lookup (intent_lock_address i.deposit i.intent_hash) = none :=
    h.lock_fresh
  -- liquidity goes from available to outstanding; the vault is not touched
  refine .locked d d' (new_intent_lock i expiry) i ?_ ?_ hlock ?_ ?_ hnonce ?_ h.word ?_ ?_ ?_ ?_ ?_
    ?_ ?_ ?_ ?_
  · rw [hdeposit]
    exact h.deposit
  · rw [h.post, hdeposit]
  · rw [h.post, hdeposit, hhash]
  · rw [h.post, hnonce]
  · rw [h.post]
  · rw [hhash, hnonce]
    exact h.hash.symm
  · exact horchestrator
  · exact ⟨rfl, rfl, horchestrator.symm, rfl, rfl⟩
  · rw [hamount]
    exact hmin
  · rw [hd']
    exact ⟨rfl, rfl, rfl, rfl, id⟩
  · rw [hd', hamount]
    exact Nat.sub_add_cancel hremaining
  · rw [hd', hamount]
  · rw [hd']
  · rw [h.post]

/-- A live intent is closed in a state `s₁` that differs from `s` outside the escrow, and in the
vault by a payment. -/
theorem closed_state_move (rt : Runtime) {k : Pubkey} {live : LiveIntent} {d' : Deposit}
    {s s₁ s' : State} (hlive : live_intent k s = .ok live)
    (hescrow : s₁.toEscrowRecords = s.toEscrowRecords)
    (horchestrator : s₁.toOrchestratorRecords = s.toOrchestratorRecords)
    (hpost : s'.toEscrowRecords = (closed_state k live d' s₁).toEscrowRecords
      ∧ s'.toOrchestratorRecords = (closed_state k live d' s₁).toOrchestratorRecords)
    (hterms : SameTerms live.deposit d')
    (houtstanding : d'.outstanding_intent_amount + live.lock.amount
      = live.deposit.outstanding_intent_amount)
    (hactive : d'.active_intents + 1 = live.deposit.active_intents)
    (hexcess : KeepsExcess s.tokens s'.tokens live.intent.deposit live.deposit d')
    (hvaults : OtherVaultsKeep s.tokens s'.tokens live.intent.deposit) (ix : TopLevel) :
    CustodyMove rt ix s s' := by
  obtain ⟨hintent, -, hdeposit, hlock, -⟩ := live_intent_ok hlive
  obtain ⟨hescrow', horchestrator'⟩ := hpost
  -- `s₁` and `s` agree on escrow and orchestrator, so the erased records are those of `s`
  refine .unlocked k live.deposit d' live.lock live.intent hintent hdeposit hlock ?_ ?_ ?_ ?_ hterms
    houtstanding hactive hexcess hvaults
  · rw [hescrow', ← hescrow]
    rfl
  · rw [hescrow', ← hescrow]
    rfl
  · rw [horchestrator', ← horchestrator]
    rfl
  · rw [horchestrator', ← horchestrator]
    rfl

/-- An intent closed with its whole amount returned to available liquidity. -/
theorem unlock_move (rt : Runtime) {k : Pubkey} {live : LiveIntent} {d' : Deposit}
    {s s₁ : State} (hlive : live_intent k s = .ok live)
    (hescrow : s₁.toEscrowRecords = s.toEscrowRecords)
    (horchestrator : s₁.toOrchestratorRecords = s.toOrchestratorRecords)
    (htokens : s₁.tokens = s.tokens) (hunlock : live.deposit.unlock live.lock.amount = .ok d')
    (ix : TopLevel) : CustodyMove rt ix s (closed_state k live d' s₁) := by
  obtain ⟨hle, -, hactive, rfl⟩ := Deposit.unlock_ok hunlock
  -- no token moves: the amount only changes sides inside the liability
  have hkeeps : ∀ k, Keeps s.tokens s₁.tokens k := fun k => htokens ▸ .refl _ _
  refine closed_state_move rt hlive hescrow horchestrator ⟨rfl, rfl⟩ ?_ ?_ ?_
    (.of_keeps (hkeeps _) ?_) (fun _ _ => hkeeps _) ix
  · exact ⟨rfl, rfl, rfl, rfl, id⟩
  · exact Nat.sub_add_cancel hle
  · exact Nat.sub_add_cancel hactive
  · simp only [Deposit.liability]
    omega

/-- An intent closed by a settlement, which pays the released amount out of the vault. -/
theorem settle_move (rt : Runtime) {ctx : TxContext} {k : Pubkey} {live : LiveIntent}
    {tokens : SettlementTokenAccounts} {dispute : SettlementDisputeAccounts}
    {remaining_accounts : List AccountInfo} {released : ℕ} {s s₁ s' : State}
    (hlive : live_intent k s = .ok live)
    (h : settle_intent ctx k live tokens dispute remaining_accounts released s = .ok s₁)
    (hescrow : s'.toEscrowRecords = s₁.toEscrowRecords)
    (horchestrator : s'.toOrchestratorRecords = s₁.toOrchestratorRecords)
    (htokens : s'.tokens = s₁.tokens) (ix : TopLevel) : CustodyMove rt ix s s' := by
  obtain ⟨s₂, d', T, hdispute, hsettle, hpaid, rfl⟩ := settle_intent_ok h
  -- settling the coverage writes stake and dispute records, none of the escrow's
  have hframe : s₂.toEscrowRecords = s.toEscrowRecords
      ∧ s₂.toOrchestratorRecords = s.toOrchestratorRecords := by
    rcases settle_dispute_ok hdispute with ⟨-, rfl⟩ | ⟨-, -, _, _, _, _, hsettled⟩
    · exact ⟨rfl, rfl⟩
    · rw [hsettled.post]
      exact ⟨rfl, rfl⟩
  have hpaid' : Paid s.tokens s'.tokens (deposit_vault_address live.intent.deposit) released :=
    htokens ▸ hpaid
  -- the liability falls by the released amount, which is what the vault pays
  obtain ⟨-, hreleased, hle, hactive, rfl⟩ := Deposit.settle_ok hsettle
  have hescrow₁ : ({ s₂ with tokens := T } : State).toEscrowRecords = s.toEscrowRecords := hframe.1
  refine closed_state_move rt hlive hescrow₁ hframe.2 ⟨hescrow, horchestrator⟩ ?_ ?_ ?_
    (.of_paid hpaid' ?_) (.of_vaultOnly hpaid'.keeps) ix
  · exact ⟨rfl, rfl, rfl, rfl, id⟩
  · exact Nat.sub_add_cancel hle
  · exact Nat.sub_add_cancel hactive
  · simp only [Deposit.liability]
    omega

/-! ## Every instruction is a move -/

/-- An instruction that writes neither deposits, locks and intents nor a vault. -/
theorem CustodyMove.of_frame {rt : Runtime} {ix : TopLevel} {s s' : State}
    (hescrow : s'.toEscrowRecords = s.toEscrowRecords)
    (horchestrator : s'.toOrchestratorRecords = s.toOrchestratorRecords)
    (hvaults : ∀ k, Keeps s.tokens s'.tokens (deposit_vault_address k)) : CustodyMove rt ix s s' := by
  refine .quiet ?_ ?_ ⟨?_, ?_⟩ hvaults
  · rw [hescrow]
  · rw [hescrow]
  · rw [horchestrator]
  · rw [horchestrator]

/-- Every top-level instruction is one move of the abstract escrow. -/
theorem custody_move {rt : Runtime} {ctx : TxContext} {before after : List TopLevel}
    {s s' : State} {ix : TopLevel} (hT : TokensOk s.tokens)
    (hc : CoverageCanonical s.toDisputeRecords)
    (h : ix.execute rt ctx before after s = .ok s') : CustodyMove rt ix s s' := by
  cases ix with
  | ed25519 data =>
    simp only [TopLevel.execute, bind_eq_ok, require_eq_ok, exists_const, pure_eq_ok] at h
    obtain ⟨-, rfl⟩ := h
    exact .of_frame rfl rfl fun _ => .refl _ _
  | external tokens =>
    simp only [TopLevel.execute, bind_eq_ok, require_eq_ok, exists_const, pure_eq_ok] at h
    obtain ⟨hext, rfl⟩ := h
    -- other programs cannot take from an account of a derived address
    exact .of_frame rfl rfl fun _ => external_ok_keeps hext rfl
  | program ix =>
    cases ix with
    | open_records ix | rate_managers ix | whitelists ix | verifier ix | dispute_policy ix =>
      simp only [TopLevel.execute, Instruction.execute, bind_eq_ok, pure_eq_ok] at h
      obtain ⟨_, -, rfl⟩ := h
      exact .of_frame rfl rfl fun _ => .refl _ _
    | governance ix =>
      obtain ⟨hframe, -⟩ := governance_ok h
      refine .quiet hframe.deposits hframe.intent_locks ⟨hframe.intents, hframe.nonce⟩ fun k => ?_
      rw [hframe.tokens]
      exact .refl _ _
    | deposit_config ix =>
      simp only [TopLevel.execute, Instruction.execute, bind_eq_ok, pure_eq_ok] at h
      obtain ⟨_, h, rfl⟩ := h
      exact deposit_config_move rt h
    | custody ix =>
      simp only [TopLevel.execute, Instruction.execute, bind_eq_ok, pure_eq_ok, Prod.exists] at h
      obtain ⟨_, _, h, rfl⟩ := h
      exact custody_instruction_move rt hT h
    | stake ix =>
      simp only [TopLevel.execute, Instruction.execute, bind_eq_ok, pure_eq_ok, Prod.exists] at h
      obtain ⟨_, _, h, rfl⟩ := h
      exact .of_frame rfl rfl (stake_tokens hT h).2
    | signal_intent accounts args =>
      obtain ⟨_, _, _, _, _, _, hsignaled⟩ := signal_intent_ok h
      exact hsignaled.custody_move _
    -- a cancellation and a pruning return the lock; the two settlements pay part of it out
    | cancel_intent accounts =>
      obtain ⟨_, _, _, hlive, -, -, -, -, hunlock, rfl⟩ := cancel_intent_ok h
      exact unlock_move rt hlive rfl rfl rfl hunlock _
    | prune_expired_intent accounts =>
      obtain ⟨_, _, _, hlive, -, hprune, hunlock, rfl⟩ := prune_expired_intent_ok h
      rcases prune_dispute_ok hprune with ⟨-, rfl⟩ | ⟨-, _, _, _, _, hcancelled⟩
      · exact unlock_move rt hlive rfl rfl rfl hunlock _
      · refine unlock_move rt hlive ?_ ?_ ?_ hunlock _
        all_goals rw [hcancelled.post]
    | prepare_dispute accounts args =>
      obtain ⟨_, _, _, _, _, _, hprepared, -⟩ := prepare_dispute_ok h
      rw [hprepared.post]
      exact .of_frame rfl rfl fun _ => .refl _ _
    | cancel_dispute accounts =>
      obtain ⟨_, _, _, _, _, _, -, -, hcancelled, -⟩ := cancel_dispute_ok hc h
      rw [hcancelled.post]
      exact .of_frame rfl rfl fun _ => .refl _ _
    | release_matured_dispute accounts =>
      obtain ⟨_, _, _, _, -, -, -, -, -, -, -, -, rfl⟩ := release_matured_dispute_ok h
      exact .of_frame rfl rfl fun _ => .refl _ _
    | submit_dispute accounts args =>
      obtain ⟨_, _, _, _, _, _, hdisputed, -⟩ := submit_dispute_ok h
      rw [hdisputed.post]
      exact .of_frame rfl rfl fun _ => .refl _ _
    | fulfill_intent accounts args =>
      obtain ⟨_, _, hlive, -, -, -, -, hsettle, rfl⟩ := fulfill_intent_ok h
      refine settle_move rt hlive hsettle ?_ ?_ ?_ _
      all_goals rfl
    | manual_release accounts =>
      obtain ⟨_, hlive, -, -, hsettle⟩ := manual_release_ok h
      exact settle_move rt hlive hsettle rfl rfl rfl _

/-- The intent nonce never goes back. -/
theorem CustodyMove.nonce_le {rt : Runtime} {ix : TopLevel} {s s' : State}
    (h : CustodyMove rt ix s s') :
    s.orchestrator.next_intent_id ≤ s'.orchestrator.next_intent_id := by
  cases h with
  | quiet _ _ intents _ | extended _ _ _ _ _ _ intents _ => exact intents.nonce.ge
  | opened _ _ _ _ _ _ intents | touched _ _ _ _ _ _ intents => exact intents.nonce.ge
  | closed _ _ _ _ _ _ intents => exact intents.nonce.ge
  | locked _ _ _ _ _ _ _ _ _ _ nonce => omega
  | unlocked _ _ _ _ _ _ _ _ _ _ _ nonce => exact nonce.ge

end Zkp2pSolana
