/-
What one instruction writes of the price, listing and dispute records.

The rate managers, the listings of the deposits and the dispute policy are each
written by their own group of instructions. One theorem per group says who
signed, which records were read and what exactly is written; later proofs read
the handlers through these and never unfold them.
-/
import Zkp2pSolana.WhitelistMoves
import Zkp2pSolana.Fees

set_option autoImplicit false

namespace Zkp2pSolana

open Result Zkp2pError

/-! ## Rate managers -/

/-- The signer manages the rate manager `m`. -/
structure Manages (accounts : ManageRateManager) (r : RateManagerRecords) (m : RateManager) : Prop where
  signs : accounts.manager.can_sign = true
  found : r.rate_managers.lookup accounts.rate_manager = some m
  manager : m.manager = accounts.manager

theorem managed_rate_manager_manages {accounts : ManageRateManager} {r : RateManagerRecords}
    {m : RateManager} (h : managed_rate_manager accounts r = .ok m) : Manages accounts r m := by
  simp only [managed_rate_manager, bind_eq_ok, signer_eq_ok, load_eq_ok, require_eq_ok,
    exists_const, pure_eq_ok] at h
  obtain ⟨hsigns, _, hm, -, hmanager, rfl⟩ := h
  exact ⟨hsigns, hm, hmanager⟩

/-- The rate manager `create_rate_manager` writes. -/
def new_rate_manager (rt : Runtime) (args : CreateRateManagerArgs) (nonce : ℕ) : RateManager where
  config := rate_manager_config_address
  nonce := nonce
  id := rt.keccak (rt.as_ref program_id ++ rt.as_ref rate_manager_config_address ++ le_bytes 8 nonce)
  manager := args.manager
  fee_recipient := args.fee_recipient
  max_fee := args.max_fee
  fee := args.fee
  min_liquidity := args.min_liquidity
  name := args.name
  uri := args.uri

/-- What one instruction writes of the rate managers. -/
inductive RateWrite (rt : Runtime) (r r' : RateManagerRecords) : RateManagerInstruction → Prop
  | created (accounts : CreateRateManager) (args : CreateRateManagerArgs)
      (fresh : r.rate_managers.lookup
        (rate_manager_address rate_manager_config_address r.rate_manager_config.next_manager_id) = none)
      (manager : args.manager ≠ Pubkey.default) (named : args.name.length ≤ 64)
      (located : args.uri.length ≤ 200)
      (word : r.rate_manager_config.next_manager_id + 1 < 2 ^ 64)
      (records : r' = { r with
        rate_manager_config := { r.rate_manager_config with
          next_manager_id := r.rate_manager_config.next_manager_id + 1 }
        rate_managers := r.rate_managers.insert
          (rate_manager_address rate_manager_config_address r.rate_manager_config.next_manager_id)
          (new_rate_manager rt args r.rate_manager_config.next_manager_id) }) :
      RateWrite rt r r' (.create_rate_manager accounts args)
  | configured (accounts : ManageRateManager) (manager : Pubkey) (fee_recipient : Option Pubkey)
      (name uri : List UInt8) (m : RateManager) (manages : Manages accounts r m)
      (nonzero : manager ≠ Pubkey.default) (named : name.length ≤ 64) (located : uri.length ≤ 200)
      (records : r' = { r with
        rate_managers := r.rate_managers.insert accounts.rate_manager { m with
          manager := manager
          fee_recipient := fee_recipient
          name := name
          uri := uri } }) :
      RateWrite rt r r' (.set_rate_manager_config accounts manager fee_recipient name uri)
  | fee (accounts : ManageRateManager) (fee : ℕ) (m : RateManager) (manages : Manages accounts r m)
      (records : r' = { r with
        rate_managers := r.rate_managers.insert accounts.rate_manager { m with fee := fee } }) :
      RateWrite rt r r' (.set_manager_fee accounts fee)
  | min_liquidity (accounts : ManageRateManager) (min_liquidity : ℕ) (m : RateManager)
      (manages : Manages accounts r m)
      (records : r' = { r with
        rate_managers := r.rate_managers.insert accounts.rate_manager
          { m with min_liquidity := min_liquidity } }) :
      RateWrite rt r r' (.set_manager_min_liquidity accounts min_liquidity)
  | rate (accounts : ManageRateManager) (payment_method currency : Bytes 32) (rate : ℕ)
      (m : RateManager) (entry : RateEntry) (manages : Manages accounts r m)
      (kept : entry = init_if_needed r.rate_entries
          (rate_entry_address accounts.rate_manager payment_method currency)
        ∨ (entry.rate_manager = accounts.rate_manager ∧ entry.payment_method = payment_method
          ∧ entry.currency = currency))
      (adopted : (init_if_needed r.rate_entries
          (rate_entry_address accounts.rate_manager payment_method currency)).rate_manager
          = Pubkey.default →
        entry.rate_manager = accounts.rate_manager ∧ entry.payment_method = payment_method
          ∧ entry.currency = currency)
      (records : r' = { r with
        rate_entries := r.rate_entries.insert
          (rate_entry_address accounts.rate_manager payment_method currency)
          { entry with rate := rate } }) :
      RateWrite rt r r' (.set_manager_rate accounts payment_method currency rate)

/-- The instructions of `rate_manager.rs` read backwards, each with what it checked and what it
wrote. -/
theorem rate_write {rt : Runtime} {r r' : RateManagerRecords} {ix : RateManagerInstruction}
    (h : ix.execute rt r = .ok r') : RateWrite rt r r' ix := by
  cases ix with
  | create_rate_manager accounts args =>
    simp only [RateManagerInstruction.execute, handle_create_rate_manager, bind_eq_ok, init_eq_ok,
      require_eq_ok, exists_const, ok_or_eq_ok, Checked.add_eq_some, pure_eq_ok] at h
    obtain ⟨_, -, hfresh, hmanager, hname, huri, -, -, -, -, _, ⟨hword, rfl⟩, rfl⟩ := h
    exact .created accounts args hfresh hmanager hname huri hword rfl
  | set_rate_manager_config accounts manager fee_recipient name uri =>
    simp only [RateManagerInstruction.execute, handle_set_rate_manager_config, bind_eq_ok,
      require_eq_ok, exists_const, pure_eq_ok] at h
    obtain ⟨m, hm, hmanager, hname, huri, -, -, rfl⟩ := h
    exact .configured accounts manager fee_recipient name uri m (managed_rate_manager_manages hm)
      hmanager hname huri rfl
  | set_manager_fee accounts fee =>
    simp only [RateManagerInstruction.execute, handle_set_manager_fee, bind_eq_ok, require_eq_ok,
      exists_const, pure_eq_ok] at h
    obtain ⟨m, hm, -, -, rfl⟩ := h
    exact .fee accounts fee m (managed_rate_manager_manages hm) rfl
  | set_manager_min_liquidity accounts min_liquidity =>
    simp only [RateManagerInstruction.execute, handle_set_manager_min_liquidity, bind_eq_ok,
      pure_eq_ok] at h
    obtain ⟨m, hm, rfl⟩ := h
    exact .min_liquidity accounts min_liquidity m (managed_rate_manager_manages hm) rfl
  | set_manager_rate accounts payment_method currency rate =>
    simp only [RateManagerInstruction.execute, handle_set_manager_rate, bind_eq_ok, require_eq_ok,
      exists_const, pure_eq_ok] at h
    obtain ⟨m, hm, -, -, rfl⟩ := h
    refine .rate accounts payment_method currency rate m _ (managed_rate_manager_manages hm) ?_ ?_ rfl
    -- a rate account that was just opened is adopted by its manager, method and currency
    · split_ifs
      · exact .inr ⟨rfl, rfl, rfl⟩
      · exact .inl rfl
    · intro hdefault
      rw [if_pos hdefault]
      exact ⟨rfl, rfl, rfl⟩

/-! ## Listings -/

/-- The signer may configure the deposit `d`, and the escrow is running. -/
structure Configures (accounts : ConfigureDeposit) (r : EscrowRecords) (d : Deposit) : Prop where
  signs : accounts.authority.can_sign = true
  running : r.escrow_config.paused = false
  found : r.deposits.lookup accounts.deposit = some d
  authority : d.depositor = accounts.authority ∨ d.delegate = some accounts.authority

/-- What configures a deposit: its depositor or its delegate signs. -/
theorem configured_deposit_configures {accounts : ConfigureDeposit} {r : EscrowRecords}
    {d : Deposit} (h : configured_deposit accounts r = .ok d) : Configures accounts r d := by
  simp only [configured_deposit, bind_eq_ok, signer_eq_ok, require_eq_ok, load_eq_ok, exists_const,
    pure_eq_ok] at h
  obtain ⟨hsigns, hrunning, _, hd, -, hauthority, rfl⟩ := h
  exact ⟨hsigns, hrunning, hd, hauthority⟩

/-- The record `configure_payment_method` writes. -/
def configured_method (deposit : Pubkey) (args : ConfigurePaymentMethodArgs) :
    DepositPaymentMethod where
  deposit := deposit
  payment_method := args.payment_method
  payee_details := args.payee_details
  gating_service := args.gating_service
  active := args.active

/-- The record `configure_currency` writes. -/
def configured_currency (deposit : Pubkey) (args : ConfigureCurrencyArgs) : DepositCurrency where
  deposit := deposit
  payment_method := args.payment_method
  currency := args.currency
  fixed_min_rate := args.fixed_min_rate
  oracle_quote := args.oracle_quote
  spread_bps := args.spread_bps
  max_staleness := args.max_staleness
  listed := args.listed

/-- The deposit `update_deposit` writes. -/
def updated_deposit (d : Deposit) (args : UpdateDepositArgs) : Deposit :=
  { d with
    delegate := args.delegate.getD d.delegate
    intent_guardian := args.intent_guardian.getD d.intent_guardian
    intent_amount_range := args.intent_amount_range.getD d.intent_amount_range
    accepting_intents := args.accepting_intents.getD d.accepting_intents
    retain_on_empty := args.retain_on_empty.getD d.retain_on_empty }

/-- What one instruction writes of the deposits, their listings and their locks. -/
inductive ListingWrite (r r' : EscrowRecords) : DepositConfigInstruction → Prop
  | updated (accounts : ConfigureDeposit) (args : UpdateDepositArgs) (d : Deposit)
      (configures : Configures accounts r d)
      (appoints : args.delegate.isSome = true → accounts.authority = d.depositor)
      (records : r' = { r with
        deposits := r.deposits.insert accounts.deposit (updated_deposit d args) }) :
      ListingWrite r r' (.update_deposit accounts args)
  | method (accounts : ConfigureDeposit) (args : ConfigurePaymentMethodArgs) (d : Deposit)
      (configures : Configures accounts r d)
      (records : r' = { r with
        payment_methods := r.payment_methods.insert
          (payment_method_address accounts.deposit args.payment_method)
          (configured_method accounts.deposit args) }) :
      ListingWrite r r' (.configure_payment_method accounts args)
  | currency (accounts : ConfigureDeposit) (args : ConfigureCurrencyArgs) (d : Deposit)
      (m : DepositPaymentMethod) (configures : Configures accounts r d)
      (listed : r.payment_methods.lookup
        (payment_method_address accounts.deposit args.payment_method) = some m)
      (records : r' = { r with
        currencies := r.currencies.insert
          (deposit_currency_address accounts.deposit args.payment_method args.currency)
          (configured_currency accounts.deposit args) }) :
      ListingWrite r r' (.configure_currency accounts args)
  | manager (accounts : ConfigureDeposit) (rate_manager manager : Option Pubkey) (d : Deposit)
      (configures : Configures accounts r d)
      (records : r' = { r with
        deposits := r.deposits.insert accounts.deposit
          { d with rate_manager := manager } }) :
      ListingWrite r r' (.set_deposit_rate_manager accounts rate_manager manager)
  | expiry (accounts : ExtendIntentExpiry) (additional_time : ℤ) (d : Deposit)
      (l : EscrowIntentLock) (signs : accounts.guardian.can_sign = true)
      (found : r.deposits.lookup accounts.deposit = some d)
      (guardian : d.intent_guardian = some accounts.guardian)
      (lock : r.intent_locks.lookup accounts.intent_lock = some l)
      (key : accounts.intent_lock = intent_lock_address accounts.deposit l.intent_hash)
      (records : r' = { r with
        intent_locks := r.intent_locks.insert accounts.intent_lock
          { l with expiry_time := l.expiry_time + additional_time } }) :
      ListingWrite r r' (.extend_intent_expiry accounts additional_time)

/-- The configuration instructions of `escrow.rs` read backwards. -/
theorem listing_write {managers : Accounts RateManager} {r r' : EscrowRecords}
    {ix : DepositConfigInstruction} (h : ix.execute managers r = .ok r') : ListingWrite r r' ix := by
  cases ix with
  | update_deposit accounts args =>
    simp only [DepositConfigInstruction.execute, handle_update_deposit, bind_eq_ok, require_eq_ok,
      exists_const, pure_eq_ok] at h
    obtain ⟨d, hd, happoints, -, -, -, -, -, -, -, rfl⟩ := h
    exact .updated accounts args d (configured_deposit_configures hd) happoints rfl
  | configure_payment_method accounts args =>
    simp only [DepositConfigInstruction.execute, handle_configure_payment_method, bind_eq_ok,
      require_eq_ok, exists_const, pure_eq_ok] at h
    obtain ⟨d, hd, -, -, -, rfl⟩ := h
    exact .method accounts args d (configured_deposit_configures hd) rfl
  | configure_currency accounts args =>
    simp only [DepositConfigInstruction.execute, handle_configure_currency, bind_eq_ok,
      require_eq_ok, load_eq_ok, exists_const, pure_eq_ok] at h
    obtain ⟨d, hd, m, hm, -, -, -, -, -, -, rfl⟩ := h
    exact .currency accounts args d m (configured_deposit_configures hd) hm rfl
  | set_deposit_rate_manager accounts rate_manager manager =>
    simp only [DepositConfigInstruction.execute, handle_set_deposit_rate_manager, bind_eq_ok,
      pure_eq_ok] at h
    obtain ⟨d, hd, _, -, _, -, rfl⟩ := h
    exact .manager accounts rate_manager manager d (configured_deposit_configures hd) rfl
  -- the guardian signs here, and neither pause nor listing is read
  | extend_intent_expiry accounts additional_time =>
    simp only [DepositConfigInstruction.execute, handle_extend_intent_expiry, bind_eq_ok,
      signer_eq_ok, require_eq_ok, load_eq_ok, exists_const, ok_or_eq_ok, Checked.add_i64_eq_some,
      pure_eq_ok] at h
    obtain ⟨hsigns, d, hd, hguardian, l, hl, hkey, -, -, _, ⟨-, rfl⟩, _, -, -, rfl⟩ := h
    exact .expiry accounts additional_time d l hsigns hd hguardian hl hkey rfl

/-- The first listing of a new deposit. -/
def first_method (deposit : Pubkey) (args : CreateDepositArgs) : DepositPaymentMethod where
  deposit := deposit
  payment_method := args.payment_method
  payee_details := args.payee_details
  gating_service := args.gating_service
  active := true

def first_currency (deposit : Pubkey) (args : CreateDepositArgs) : DepositCurrency where
  deposit := deposit
  payment_method := args.payment_method
  currency := args.currency
  fixed_min_rate := args.fixed_min_rate
  oracle_quote := args.oracle_quote
  spread_bps := args.spread_bps
  max_staleness := args.max_staleness
  listed := true

/-- What `create_deposit` writes, at the address of the next number. -/
structure Listed (accounts : CreateDeposit) (args : CreateDepositArgs) (r r' : EscrowRecords)
    (k : Pubkey) : Prop where
  signs : accounts.depositor.can_sign = true
  running : r.escrow_config.paused = false
  key : k = deposit_address escrow_config_address r.escrow_config.next_deposit_id
  fresh : r.deposits.lookup k = none
  method_fresh : r.payment_methods.lookup (payment_method_address k args.payment_method) = none
  currency_fresh : r.currencies.lookup
    (deposit_currency_address k args.payment_method args.currency) = none
  word : r.escrow_config.next_deposit_id + 1 < 2 ^ 64
  records : r' = { r with
    escrow_config := { r.escrow_config with
      next_deposit_id := r.escrow_config.next_deposit_id + 1 }
    deposits := r.deposits.insert k (new_deposit accounts.depositor args r.escrow_config)
    payment_methods := r.payment_methods.insert (payment_method_address k args.payment_method)
      (first_method k args)
    currencies := r.currencies.insert
      (deposit_currency_address k args.payment_method args.currency) (first_currency k args) }

/-- A new deposit is listed with the arguments it was created with. -/
theorem create_deposit_listed {accounts : CreateDeposit} {args : CreateDepositArgs}
    {r r' : EscrowRecords} {T T' : Accounts TokenAccount}
    (h : handle_create_deposit accounts args r T = .ok (r', T')) :
    ∃ k, Listed accounts args r r' k := by
  simp only [handle_create_deposit, bind_eq_ok, signer_eq_ok, init_eq_ok, require_eq_ok,
    exists_const, ok_or_eq_ok, Checked.add_eq_some, pure_eq_ok, Prod.mk.injEq] at h
  obtain ⟨hsigns, hfresh, hmethod, hcurrency, _, -, -, hrunning, _, -, _, ⟨hword, rfl⟩, _, -, rfl, -⟩ :=
    h
  exact ⟨_, hsigns, hrunning, rfl, hfresh, hmethod, hcurrency, hword, rfl⟩

/-- The depositor of `d` signs. -/
structure Owns (depositor deposit : Pubkey) (r : EscrowRecords) (d : Deposit) : Prop where
  signs : depositor.can_sign = true
  found : r.deposits.lookup deposit = some d
  depositor : depositor = d.depositor

/-- What one custody instruction writes of the deposits. -/
inductive HoldingWrite (r r' : EscrowRecords) : CustodyInstruction → Prop
  | listed (accounts : CreateDeposit) (args : CreateDepositArgs) (k : Pubkey)
      (listed : Listed accounts args r r' k) : HoldingWrite r r' (.create_deposit accounts args)
  | added (accounts : AddFunds) (amount : ℕ) (d : Deposit)
      (found : r.deposits.lookup accounts.deposit = some d) (running : r.escrow_config.paused = false)
      (records : r' = { r with
        deposits := r.deposits.insert accounts.deposit
          { d with remaining_deposits := d.remaining_deposits + amount } }) :
      HoldingWrite r r' (.add_funds accounts amount)
  | taken (accounts : RemoveFunds) (amount : ℕ) (d : Deposit)
      (owns : Owns accounts.depositor accounts.deposit r d)
      (running : r.escrow_config.paused = false)
      (records : r' = { r with
        deposits := r.deposits.insert accounts.deposit
          { d with remaining_deposits := d.remaining_deposits - amount } }) :
      HoldingWrite r r' (.remove_funds accounts amount)
  | drained (accounts : WithdrawDeposit) (retain : Bool) (d : Deposit)
      (owns : Owns accounts.depositor accounts.deposit r d)
      (records : r' = { r with
        deposits := r.deposits.insert accounts.deposit (drained d retain) }) :
      HoldingWrite r r' (.withdraw_deposit accounts)
  | closed (accounts : WithdrawDeposit) (d : Deposit)
      (owns : Owns accounts.depositor accounts.deposit r d)
      (idle : d.active_intents = 0 ∧ d.outstanding_intent_amount = 0 ∧ d.retain_on_empty = false)
      (records : r' = { r with deposits := r.deposits.erase accounts.deposit }) :
      HoldingWrite r r' (.withdraw_deposit accounts)

/-- The custody instructions of `escrow.rs` read backwards. -/
theorem holding_write {r r' : EscrowRecords} {T T' : Accounts TokenAccount}
    {ix : CustodyInstruction} (h : ix.execute r T = .ok (r', T')) : HoldingWrite r r' ix := by
  cases ix with
  | create_deposit accounts args =>
    obtain ⟨k, hlisted⟩ := create_deposit_listed h
    exact .listed accounts args k hlisted
  | add_funds accounts amount =>
    simp only [CustodyInstruction.execute, handle_add_funds, bind_eq_ok, signer_eq_ok, load_eq_ok,
      require_eq_ok, exists_const, ok_or_eq_ok, Checked.add_eq_some, pure_eq_ok,
      Prod.mk.injEq] at h
    obtain ⟨-, hrunning, d, hd, -, _, -, -, _, -, _, ⟨-, rfl⟩, rfl, -⟩ := h
    exact .added accounts amount d hd hrunning rfl
  | remove_funds accounts amount =>
    simp only [CustodyInstruction.execute, handle_remove_funds, bind_eq_ok, signer_eq_ok, load_eq_ok,
      require_eq_ok, exists_const, ok_or_eq_ok, Checked.sub_eq_some, pure_eq_ok,
      Prod.mk.injEq] at h
    obtain ⟨hsigns, d, hd, hdepositor, hrunning, -, _, -, _, -, -, -, _, ⟨-, rfl⟩, _, -, rfl, -⟩ := h
    exact .taken accounts amount d ⟨hsigns, hd, hdepositor⟩ hrunning rfl
  | withdraw_deposit accounts =>
    simp only [CustodyInstruction.execute, handle_withdraw_deposit, bind_eq_ok, signer_eq_ok,
      load_eq_ok, require_eq_ok, mutable_once_eq_ok, exists_const] at h
    obtain ⟨hsigns, d, hd, hdepositor, -, _, -, _, -, _, -, -, _, -, h⟩ := h
    have howns : Owns accounts.depositor accounts.deposit r d := ⟨hsigns, hd, hdepositor⟩
    split at h
    · rename_i hidle
      simp only [bind_eq_ok, load_eq_ok] at h
      obtain ⟨vault, -, h⟩ := h
      -- a residue above the threshold keeps the deposit open
      split at h
      · cases h
        exact .drained accounts true d howns rfl
      · exact .closed accounts d howns hidle (close_deposit_ok h).1
    · cases h
      exact .drained accounts d.retain_on_empty d howns rfl

/-! ## Dispute policy -/

/-- What one instruction writes of the dispute policy. -/
inductive PolicyWrite (protocol : ProtocolConfig) (deposits : Accounts Deposit)
    (r r' : DisputeRecords) : DisputePolicyInstruction → Prop
  | window (accounts : SetRiskWindow) (payment_method : Bytes 32) (seconds : ℤ)
      (signs : accounts.authority.can_sign = true) (authority : accounts.authority = protocol.authority)
      (range : 0 ≤ seconds ∧ seconds ≤ MAX_RISK_WINDOW_SECONDS)
      (records : r' = { r with
        risk_windows := r.risk_windows.insert
          (risk_window_address dispute_config_address payment_method)
          { dispute_config := dispute_config_address
            payment_method := payment_method
            seconds := seconds } }) :
      PolicyWrite protocol deposits r r' (.set_risk_window accounts payment_method seconds)
  | admissions (accounts : SetDisputeAdmissionsPaused) (paused : Bool)
      (signs : accounts.authority.can_sign = true) (authority : accounts.authority = protocol.authority)
      (records : r' = { r with
        dispute_config := { r.dispute_config with admissions_paused := paused } }) :
      PolicyWrite protocol deposits r r' (.set_dispute_admissions_paused accounts paused)
  | setting (accounts : DepositAuthority) (enabled : Bool) (d : Deposit)
      (authority : ActsFor accounts deposits d)
      (records : r' = { r with
        dispute_settings := r.dispute_settings.insert (dispute_setting_address accounts.deposit)
          { deposit := accounts.deposit
            enabled := enabled } }) :
      PolicyWrite protocol deposits r r' (.set_deposit_dispute_protection accounts enabled)

/-- The policy instructions of `dispute.rs` read backwards. -/
theorem policy_write {protocol : ProtocolConfig} {deposits : Accounts Deposit}
    {r r' : DisputeRecords} {ix : DisputePolicyInstruction}
    (h : ix.execute protocol deposits r = .ok r') : PolicyWrite protocol deposits r r' ix := by
  cases ix with
  | set_risk_window accounts payment_method seconds =>
    simp only [DisputePolicyInstruction.execute, handle_set_risk_window, bind_eq_ok, signer_eq_ok,
      require_eq_ok, exists_const, pure_eq_ok] at h
    obtain ⟨hsigns, hauthority, -, hrange, rfl⟩ := h
    exact .window accounts payment_method seconds hsigns hauthority hrange rfl
  | set_dispute_admissions_paused accounts paused =>
    simp only [DisputePolicyInstruction.execute, handle_set_dispute_admissions_paused, bind_eq_ok,
      signer_eq_ok, require_eq_ok, exists_const, pure_eq_ok] at h
    obtain ⟨hsigns, hauthority, rfl⟩ := h
    exact .admissions accounts paused hsigns hauthority rfl
  | set_deposit_dispute_protection accounts enabled =>
    simp only [DisputePolicyInstruction.execute, handle_set_deposit_dispute_protection, bind_eq_ok,
      pure_eq_ok] at h
    obtain ⟨d, hd, rfl⟩ := h
    exact .setting accounts enabled d (authorized_deposit_ok hd) rfl

/-! ## One event -/

section Events

variable {rt : Runtime} {e : Event}

/-- An event is one of the whitelist instructions, or it leaves their records alone. -/
theorem whitelists_event (hv : e.Valid (step rt)) :
    (∃ ix, e.ix = .program (.whitelists ix)
        ∧ WhitelistWrite rt e.pre.deposits e.pre.toWhitelistRecords e.post.toWhitelistRecords ix)
      ∨ ((∀ ix, e.ix ≠ .program (.whitelists ix))
        ∧ e.post.toWhitelistRecords = e.pre.toWhitelistRecords) := by
  by_cases hix : ∃ ix, e.ix = .program (.whitelists ix)
  · obtain ⟨ix, hix⟩ := hix
    have hok := valid_execute hv hix
    simp only [TopLevel.execute, Instruction.execute, bind_eq_ok, pure_eq_ok] at hok
    obtain ⟨r, hok, hpost⟩ := hok
    have hrecords : e.post.toWhitelistRecords = r := by rw [← hpost]
    rw [← hrecords] at hok
    exact .inl ⟨ix, hix, whitelist_write hok⟩
  · refine .inr ⟨fun ix heq => hix ⟨ix, heq⟩, ?_⟩
    rcases (policy_move hv).whitelists with hsame | ⟨ix, heq, -⟩
    · exact hsame
    · exact absurd ⟨ix, heq⟩ hix

/-- The same of the rate managers. -/
theorem rates_event (hv : e.Valid (step rt)) :
    (∃ ix, e.ix = .program (.rate_managers ix)
        ∧ RateWrite rt e.pre.toRateManagerRecords e.post.toRateManagerRecords ix)
      ∨ ((∀ ix, e.ix ≠ .program (.rate_managers ix))
        ∧ e.post.toRateManagerRecords = e.pre.toRateManagerRecords) := by
  by_cases hix : ∃ ix, e.ix = .program (.rate_managers ix)
  · obtain ⟨ix, hix⟩ := hix
    have hok := valid_execute hv hix
    simp only [TopLevel.execute, Instruction.execute, bind_eq_ok, pure_eq_ok] at hok
    obtain ⟨r, hok, hpost⟩ := hok
    have hrecords : e.post.toRateManagerRecords = r := by rw [← hpost]
    rw [← hrecords] at hok
    exact .inl ⟨ix, hix, rate_write hok⟩
  · refine .inr ⟨fun ix heq => hix ⟨ix, heq⟩, ?_⟩
    rcases (config_move hv).rate_managers with hsame | ⟨ix, heq, -⟩
    · exact hsame
    · exact absurd ⟨ix, heq⟩ hix

/-- The same of the dispute policy. -/
theorem policy_event (hv : e.Valid (step rt)) :
    (∃ ix, e.ix = .program (.dispute_policy ix)
        ∧ PolicyWrite e.pre.protocol e.pre.deposits e.pre.toDisputeRecords e.post.toDisputeRecords ix)
      ∨ ((∀ ix, e.ix ≠ .program (.dispute_policy ix))
        ∧ e.post.toDisputeRecords.policy = e.pre.toDisputeRecords.policy) := by
  by_cases hix : ∃ ix, e.ix = .program (.dispute_policy ix)
  · obtain ⟨ix, hix⟩ := hix
    have hok := valid_execute hv hix
    simp only [TopLevel.execute, Instruction.execute, bind_eq_ok, pure_eq_ok] at hok
    obtain ⟨r, hok, hpost⟩ := hok
    have hrecords : e.post.toDisputeRecords = r := by rw [← hpost]
    rw [← hrecords] at hok
    exact .inl ⟨ix, hix, policy_write hok⟩
  · refine .inr ⟨fun ix heq => hix ⟨ix, heq⟩, ?_⟩
    rcases (policy_move hv).dispute with hsame | ⟨ix, heq, -⟩
    · exact hsame
    · exact absurd ⟨ix, heq⟩ hix

end Events

end Zkp2pSolana
