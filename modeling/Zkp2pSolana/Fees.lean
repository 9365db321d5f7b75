/-
The fees of a settlement always fit in what is released.

The three rates of a settlement are fixed at three different times: the referral
rates by the taker when it signals, the manager rate by what the deposit's rate
manager asks for at that moment, the protocol rate by governance up to the
settlement itself. Each is bounded where it is written. The bounds are an
invariant of every run, and they make the arithmetic of `distribute_funds` total:
it never overflows, never pays more than it releases, and never leaves the
recipient with nothing.
-/
import Zkp2pSolana.Genesis
import Zkp2pSolana.Payout
import Zkp2pSolana.ConfigMoves
import Zkp2pSolana.Custody

set_option autoImplicit false

namespace Zkp2pSolana

open Result Zkp2pError

/-! ## Rate managers -/

/-- The fee of a manager is within its ceiling, the ceiling within the program's, and a fee in force
has a recipient. -/
structure RateManagerOk (m : RateManager) : Prop where
  fee : m.fee ≤ m.max_fee
  max_fee : m.max_fee ≤ MAX_FEE
  recipient : 0 < m.fee → m.fee_recipient.isSome = true

def ManagersOk (r : RateManagerRecords) : Prop :=
  ∀ k m, r.rate_managers.lookup k = some m → RateManagerOk m

/-- Every manager there was is still there, with its ceiling. -/
def CeilingsKept (r r' : RateManagerRecords) : Prop :=
  ∀ k m, r.rate_managers.lookup k = some m →
    ∃ m', r'.rate_managers.lookup k = some m' ∧ m'.max_fee = m.max_fee

section Managers

variable {rt : Runtime} {r r' : RateManagerRecords}

/-- One write of a manager: a new one within the bounds, or a change that keeps the ceiling and the
bounds. -/
structure ManagerWrite (r r' : RateManagerRecords) (k : Pubkey) (m' : RateManager) : Prop where
  post : r'.rate_managers = r.rate_managers.insert k m'
  kept : (r.rate_managers.lookup k = none ∧ RateManagerOk m')
    ∨ ∃ m, r.rate_managers.lookup k = some m ∧ m'.max_fee = m.max_fee
      ∧ (RateManagerOk m → RateManagerOk m')

theorem managed_rate_manager_ok {accounts : ManageRateManager} {m : RateManager}
    (h : managed_rate_manager accounts r = .ok m) :
    r.rate_managers.lookup accounts.rate_manager = some m := by
  simp only [managed_rate_manager, bind_eq_ok, signer_eq_ok, load_eq_ok, require_eq_ok,
    exists_const, pure_eq_ok] at h
  obtain ⟨-, _, hm, -, -, rfl⟩ := h
  exact hm

/-- Each instruction of `rate_manager.rs` writes one manager or none. -/
theorem manager_write {ix : RateManagerInstruction} (h : ix.execute rt r = .ok r') :
    r'.rate_managers = r.rate_managers ∨ ∃ k m', ManagerWrite r r' k m' := by
  cases ix with
  | create_rate_manager accounts args =>
    simp only [RateManagerInstruction.execute, handle_create_rate_manager, bind_eq_ok, signer_eq_ok,
      init_eq_ok, require_eq_ok, exists_const, pure_eq_ok] at h
    obtain ⟨-, hfresh, -, -, -, hmax, hfee, hrecipient, -, _, -, rfl⟩ := h
    -- creation checks the fee against the ceiling and the ceiling against the protocol's
    exact .inr ⟨_, _, rfl, .inl ⟨hfresh, hfee, hmax, hrecipient⟩⟩
  | set_rate_manager_config accounts manager fee_recipient name uri =>
    simp only [RateManagerInstruction.execute, handle_set_rate_manager_config, bind_eq_ok,
      require_eq_ok, exists_const, pure_eq_ok] at h
    obtain ⟨m, hm, -, -, -, hrecipient, -, rfl⟩ := h
    exact .inr ⟨_, _, rfl, .inr ⟨m, managed_rate_manager_ok hm, rfl,
      fun hok => ⟨hok.fee, hok.max_fee, hrecipient⟩⟩⟩
  -- the three updates keep the ceiling they found
  | set_manager_fee accounts fee =>
    simp only [RateManagerInstruction.execute, handle_set_manager_fee, bind_eq_ok, require_eq_ok,
      exists_const, pure_eq_ok] at h
    obtain ⟨m, hm, hfee, hrecipient, rfl⟩ := h
    exact .inr ⟨_, _, rfl, .inr ⟨m, managed_rate_manager_ok hm, rfl,
      fun hok => ⟨hfee, hok.max_fee, hrecipient⟩⟩⟩
  | set_manager_min_liquidity accounts min_liquidity =>
    simp only [RateManagerInstruction.execute, handle_set_manager_min_liquidity, bind_eq_ok,
      pure_eq_ok] at h
    obtain ⟨m, hm, rfl⟩ := h
    exact .inr ⟨_, _, rfl, .inr ⟨m, managed_rate_manager_ok hm, rfl,
      fun hok => ⟨hok.fee, hok.max_fee, hok.recipient⟩⟩⟩
  | set_manager_rate accounts payment_method currency rate =>
    simp only [RateManagerInstruction.execute, handle_set_manager_rate, bind_eq_ok, require_eq_ok,
      exists_const, pure_eq_ok] at h
    obtain ⟨_, -, -, -, rfl⟩ := h
    exact .inl rfl

/-- Managers stay within their limits: the new record is checked before it is stored. -/
theorem ManagerWrite.ok {k : Pubkey} {m' : RateManager} (h : ManagerWrite r r' k m')
    (hr : ManagersOk r) : ManagersOk r' := by
  intro k₀ m₀ hm₀
  rw [h.post, Finmap.lookup_insert_ite] at hm₀
  split_ifs at hm₀ with hk
  · cases hm₀
    rcases h.kept with ⟨-, hok⟩ | ⟨m, hm, -, hok⟩
    · exact hok
    · exact hok (hr _ m hm)
  · exact hr k₀ m₀ hm₀

theorem ManagerWrite.ceilings {k : Pubkey} {m' : RateManager} (h : ManagerWrite r r' k m') :
    CeilingsKept r r' := by
  intro k₀ m₀ hm₀
  rw [h.post, Finmap.lookup_insert_ite]
  by_cases hk : k₀ = k
  · rw [if_pos hk]
    subst hk
    rcases h.kept with ⟨hfresh, -⟩ | ⟨m, hm, hmax, -⟩
    · rw [hfresh] at hm₀
      cases hm₀
    · rw [hm] at hm₀
      cases hm₀
      exact ⟨m', rfl, hmax⟩
  · rw [if_neg hk]
    exact ⟨m₀, hm₀, rfl⟩

end Managers

/-! ## What a signal snapshots -/

theorem referral_total_ok {total total' : ℕ} {fees : List ReferralFee}
    (h : referral_total total fees = .ok total') :
    total' = total + (fees.map ReferralFee.fee).sum := by
  induction fees generalizing total with
  | nil =>
    simp only [referral_total, ok_eq_ok] at h
    simp [h]
  | cons fee rest ih =>
    simp only [referral_total, bind_eq_ok, require_eq_ok, exists_const, ok_or_eq_ok,
      Checked.add_eq_some] at h
    obtain ⟨-, -, -, _, ⟨-, rfl⟩, hrest⟩ := h
    rw [ih hrest, List.map_cons, List.sum_cons, Nat.add_assoc]

section Signal

variable {rt : Runtime} {ctx : TxContext} {ed25519 : List (List UInt8)} {accounts : SignalIntent}
  {args : SignalIntentArgs} {s s' : State}

/-- The manager terms are those of a live manager, or none. -/
theorem signaled_terms_ok {d : Deposit} {currency : DepositCurrency} {terms : Option Pubkey × ℕ}
    (h : signaled_terms ctx accounts args d currency s = .ok terms)
    (hs : ManagersOk s.toRateManagerRecords) :
    terms.2 ≤ MAX_FEE ∧ (0 < terms.2 → terms.1.isSome = true) := by
  simp only [signaled_terms, bind_eq_ok, require_eq_ok, exists_const, pure_eq_ok] at h
  obtain ⟨_, -, manager, hmanager, _, -, _, -, -, -, hmax, rfl⟩ := h
  refine ⟨hmax, ?_⟩
  cases manager with
  | none =>
    intro hpos
    exact absurd hpos (Nat.lt_irrefl 0)
  | some m => exact (hs _ m.data (load_opt_some hmanager)).recipient

/-- A signal writes an intent whose rates are within the limits. -/
theorem signal_intent_rates (h : handle_signal_intent rt ctx ed25519 accounts args s = .ok s')
    (hs : ManagersOk s.toRateManagerRecords) :
    ∃ k i, s'.intents = s.intents.insert k i ∧ IntentRates i := by
  simp only [handle_signal_intent, validate_referral_fees, bind_eq_ok, signer_eq_ok, load_eq_ok,
    init_eq_ok, require_eq_ok, exists_const, Prod.exists, pure_eq_ok] at h
  obtain ⟨-, -, _, -, -, -, -, -, -, -, _, _, -, ⟨-, total, htotal, hmax⟩, _, -, -, -, terms₁,
    terms₂, hterms, _, -, _, -, _, -, _, -, _, -, _, -, rfl⟩ := h
  obtain ⟨hmanager, hrecipient⟩ := signaled_terms_ok hterms hs
  refine ⟨_, _, rfl, hmanager, hrecipient, ?_⟩
  rw [referral_total_ok htotal, Nat.zero_add] at hmax
  exact hmax

end Signal

/-! ## The bounds hold in every run -/

/-- Every rate the ledger holds is within the program's limits. -/
structure FeesOk (s : State) : Prop where
  protocol : s.orchestrator.protocol_fee ≤ MAX_FEE
  managers : ManagersOk s.toRateManagerRecords
  intents : ∀ k i, s.intents.lookup k = some i → IntentRates i

section Step

variable {rt : Runtime} {e : Event}

theorem ceilings_kept (hv : e.Valid (step rt)) :
    CeilingsKept e.pre.toRateManagerRecords e.post.toRateManagerRecords := by
  rcases (config_move hv).rate_managers with hsame | ⟨ix, -, hok⟩
  · rw [hsame]
    exact fun k m hm => ⟨m, hm, rfl⟩
  · rcases manager_write hok with hsame | ⟨k, m', hwrite⟩
    · intro k m hm
      exact ⟨m, hsame ▸ hm, rfl⟩
    · exact hwrite.ceilings

theorem managers_ok_step (hv : e.Valid (step rt)) (hs : ManagersOk e.pre.toRateManagerRecords) :
    ManagersOk e.post.toRateManagerRecords := by
  rcases (config_move hv).rate_managers with hsame | ⟨ix, -, hok⟩
  · rwa [hsame]
  · rcases manager_write hok with hsame | ⟨k, m', hwrite⟩
    · intro k m hm
      exact hs k m (hsame ▸ hm)
    · exact hwrite.ok hs

/-- Every event keeps the protocol fee within its limit. -/
theorem protocol_fee_step (hv : e.Valid (step rt))
    (hs : e.pre.orchestrator.protocol_fee ≤ MAX_FEE) :
    e.post.orchestrator.protocol_fee ≤ MAX_FEE := by
  rcases (config_move hv).orchestrator with hsame | ⟨accounts, args, -, hok⟩
  · rw [hsame]
    exact hs
  · simp only [handle_configure_orchestrator, bind_eq_ok, require_eq_ok, exists_const,
      pure_eq_ok] at hok
    obtain ⟨_, -, -, -, hfee, -, hpost⟩ := hok
    rw [← hpost]
    show args.protocol_fee.getD e.pre.orchestrator.protocol_fee ≤ MAX_FEE
    cases hargs : args.protocol_fee with
    | none => exact hs
    | some fee => exact hfee fee hargs

/-- The step of the fee invariant; a signal is the only event that adds an intent, and it checks the
rates it stores. -/
theorem FeesOk.step (hv : e.Valid (step rt)) (hledger : LedgerOk e.pre) (hs : FeesOk e.pre) :
    FeesOk e.post := by
  refine ⟨protocol_fee_step hv hs.protocol, managers_ok_step hv hs.managers, fun k i hi => ?_⟩
  rcases (lifecycle_move hv).intent_write hledger.coverage with hframe | ⟨-, ⟨hsame, -⟩
    | ⟨k₀, _, -, herase, -⟩ | ⟨accounts, args, _, _, _, _, _, _, hix, -⟩⟩
  · rw [hframe.intents] at hi
    exact hs.intents k i hi
  · rw [hsame] at hi
    exact hs.intents k i hi
  · rw [herase, Finmap.lookup_erase_ite] at hi
    split_ifs at hi
    exact hs.intents k i hi
  · -- a signal adds one intent, with the terms it snapshots
    obtain ⟨k₀, i₀, hinsert, hrates⟩ := signal_intent_rates (valid_execute hv hix) hs.managers
    rw [hinsert, Finmap.lookup_insert_ite] at hi
    split_ifs at hi
    · cases hi
      exact hrates
    · exact hs.intents k i hi

end Step

/-- Initialization checks the first protocol fee, and there are no managers yet. -/
theorem genesis_fees {rt : Runtime} {s : State} (h : genesis rt s) : FeesOk s := by
  obtain ⟨_, args, _, _, _, _, _, hargs, -, -, rfl⟩ := genesis_initialized h
  refine ⟨hargs.protocol_fee, fun k m hm => ?_, fun k i hi => ?_⟩
  · exact absurd hm (by simp [initial_state])
  · exact absurd hi (by simp [initial_state])

theorem Run.fees {rt : Runtime} {es : List Event} {s : State} (h : Run rt es s) :
    FeesOk s ∧ ∀ e ∈ es, FeesOk e.pre ∧ FeesOk e.post := by
  have hledger := (Run.ledgerOk h).2
  exact TxMachine.Run.invariant (I := FeesOk) (G := (· ∈ es)) (fun s hs => genesis_fees hs)
    (fun e he hv hs => hs.step hv (hledger e he).1) h fun _ he => he

/-! ## Settlements -/

/-- The arithmetic of every settlement of the live intent goes through and conserves value. -/
structure FeesSettle (o : OrchestratorConfig) (i : Intent) (r : ℕ) : Prop where
  /-- The plan: no operation fails, the fees take at most six tenths, the recipient gets something,
  and the parts add up. -/
  plan : ∃ plan, fee_plan o.protocol_fee i r = .ok plan ∧ plan.fees ≤ 6 * r / 10 ∧ 1 ≤ plan.net
    ∧ plan.fees + plan.net = r
    ∧ (0 < plan.manager → i.manager_fee_recipient.isSome = true)
    -- what is transferred is this plan, all of it
    ∧ ∀ deposit_key deposit t remaining_accounts T T',
      distribute_funds i o deposit_key deposit t remaining_accounts r T = .ok T' →
      pay_all (deposit_vault_address deposit_key) t.mint deposit_key
          (t.payments remaining_accounts plan) T = .ok T'
        ∧ total_paid (t.payments remaining_accounts plan) = r
  /-- Whatever accounts it is given, `distribute_funds` fails neither in a checked operation of its
  own nor for sending nothing. -/
  total : ∀ e, FeeError e → ∀ deposit_key deposit t remaining_accounts T,
    distribute_funds i o deposit_key deposit t remaining_accounts r T ≠ .error (.zkp2p e)

/-- Rates within the limits leave a payable remainder of every release from one unit up, and the
parts add up to it. -/
theorem fees_settle {o : OrchestratorConfig} {i : Intent} (ho : o.protocol_fee ≤ MAX_FEE)
    (hi : IntentRates i) {r : ℕ} (hpos : 1 ≤ r) (hr : r < 2 ^ 64) : FeesSettle o i r := by
  obtain ⟨plan, hplan, hfees, hnet, hsum, hmanager⟩ := fee_plan_ok ho hi hpos hr
  refine ⟨⟨plan, hplan, hfees, hnet, hsum, fun h => hi.recipient (hmanager h), ?_⟩,
    fun e he _ _ _ _ _ => distribute_funds_ne hplan hnet he⟩
  intro deposit_key deposit t remaining_accounts T T' h
  obtain ⟨plan', hplan', hpaid, hlength, hsupplied, -⟩ := distribute_funds_ok h
  obtain rfl : plan = plan' := Except.ok.inj (hplan.symm.trans hplan')
  refine ⟨hpaid, ?_⟩
  rw [total_paid_payments hplan hlength hsupplied, hsum]

/-- In every state the rates are within the limits and every part of a live intent settles. -/
structure FeesSafe (s : State) : Prop where
  rates : FeesOk s
  settle : ∀ k i, s.intents.lookup k = some i → ∀ r, 1 ≤ r → r ≤ i.amount →
    FeesSettle s.orchestrator i r

/-- In a state with the invariants every live intent can be released for every amount up to its
own. -/
theorem CustodyInv.fees_safe {rt : Runtime} {s : State} (hs : CustodyInv rt s)
    (hT : TokensOk s.tokens) (hfees : FeesOk s) : FeesSafe s := by
  refine ⟨hfees, fun k i hi r hpos hle => ?_⟩
  have hword := hs.amount_lt hT hi
  exact fees_settle hfees.protocol (hfees.intents k i hi) hpos (by omega)

/-- In every run the rates stay within the limits, no manager's ceiling ever moves, and every
release of a live intent pays its fees and the recipient out of exactly what is released. -/
theorem fees_conserve_value {rt : Runtime} {es : List Event} {s : State} (h : Run rt es s) :
    FeesSafe s ∧ ∀ e ∈ es, FeesSafe e.pre ∧ FeesSafe e.post
      ∧ CeilingsKept e.pre.toRateManagerRecords e.post.toRateManagerRecords := by
  obtain ⟨⟨hledger, hcustody, -⟩, hes⟩ := Run.own_locks h
  obtain ⟨hfees, hfees'⟩ := Run.fees h
  refine ⟨hcustody.fees_safe hledger.tokens hfees, fun e he => ?_⟩
  obtain ⟨⟨hpre, hcpre, -⟩, hpost, hcpost, -⟩ := hes e he
  exact ⟨hcpre.fees_safe hpre.tokens (hfees' e he).1, hcpost.fees_safe hpost.tokens (hfees' e he).2,
    ceilings_kept (h.valid e he)⟩

/-- The covered intent of the sample cluster, at any part of its amount. -/
theorem fees_conserve_value_signaled :
    ∃ es s i, Run sample_runtime es s ∧ s.intents.lookup sample_intent = some i ∧ i.amount = 100
      ∧ ∀ r, 1 ≤ r → r ≤ 100 → FeesSettle s.orchestrator i r := by
  obtain ⟨es, s, hrun, hgood⟩ := sample_reaches [sample_setup, sample_cover]
    (fun _ s => decide ((s.intents.lookup sample_intent).map Intent.amount = some 100))
    (by decide +kernel)
  rw [decide_eq_true_eq, Option.map_eq_some_iff] at hgood
  obtain ⟨i, hi, hamount⟩ := hgood
  refine ⟨es, s, i, hrun, hi, hamount, fun r hpos hle => ?_⟩
  exact (fees_conserve_value hrun).1.settle sample_intent i hi r hpos (by omega)

end Zkp2pSolana
