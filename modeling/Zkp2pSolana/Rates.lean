/-
The rate a signal has to meet.

`signal_intent` asks `effective_rate` for the floor of the tuple it names. The floor
is put together from the maker's fixed rate, an oracle quote with a signed spread,
and the rate of a delegated manager, each from an account the taker supplies and the
program compares by hand. Here the floor is compared with what it is for: the least
rate that no configured source forbids, computed without a failure other than the
overflow of the spread product. That the accounts really are the configured ones
rests on where the stored records sit: every currency, manager and rate entry is at
the address of its own fields.
-/
import Zkp2pSolana.EscrowMoves
import Zkp2pSolana.Fees

set_option autoImplicit false

namespace Zkp2pSolana

open Result Zkp2pError

/-! ## What a floor is -/

/-- A quote that may be relied on at `now`. -/
structure OracleQuote.Usable (q : OracleQuote) (max_staleness : ℕ) (now : ℤ) : Prop where
  valid : q.valid = true
  positive : 0 < q.market_rate
  dated : 0 < q.updated_at
  past : q.updated_at ≤ now
  fresh : now - q.updated_at ≤ max_staleness

/-- The supplied quote is the configured one, and may be relied on. -/
structure QuoteUsable (s : State) (c : DepositCurrency) (now : ℤ)
    (quote : Option (Account OracleQuote)) : Prop where
  key : quote.map Account.key = c.oracle_quote
  stored : ∀ q ∈ quote, s.oracle_quotes.lookup q.key = some q.data
  usable : ∀ q ∈ quote, q.data.Usable c.max_staleness now

/-- The supplied manager is the configured one, and the supplied entry is its positive rate for
exactly this tuple. -/
structure ManagerPriced (s : State) (c : DepositCurrency) (configured : Option Pubkey)
    (manager : Option (Account RateManager)) (entry : Option (Account RateEntry)) : Prop where
  manager_key : manager.map Account.key = configured
  manager_stored : ∀ m ∈ manager, s.rate_managers.lookup m.key = some m.data
  entry_key : entry.map Account.key
    = configured.map fun m => rate_entry_address m c.payment_method c.currency
  entry_stored : ∀ e ∈ entry, s.rate_entries.lookup e.key = some e.data
  positive : ∀ e ∈ entry, 0 < e.data.rate

/-- No source forbids the rate. -/
structure RateAllowed (c : DepositCurrency) (quote : Option (Account OracleQuote))
    (entry : Option (Account RateEntry)) (rate : ℕ) : Prop where
  fixed : c.fixed_min_rate ≤ rate
  oracle : ∀ q ∈ quote, (q.data.market_rate : ℤ) * (10000 + c.spread_bps) ≤ rate * 10000
  manager : ∀ e ∈ entry, e.data.rate ≤ rate

/-- The rounded-up product of the quote and its spread does not fit a `u128`. -/
def SpreadOverflows (c : DepositCurrency) (quote : Option (Account OracleQuote)) : Prop :=
  ∃ q ∈ quote, 2 ^ 128 ≤ (q.data.market_rate : ℤ) * (10000 + c.spread_bps) + 9999

/-! ## The floor of a currency -/

section Floor

variable {c : DepositCurrency} {quote : Option (Account OracleQuote)} {now : ℤ}

/-- Rounding up to a whole rate, read as a bound. -/
theorem ceil_bps_le (n rate : ℕ) : (n + 9999) / 10000 ≤ rate ↔ n ≤ rate * 10000 := by
  omega

/-- With its multiplier known to be positive, the spread rate is one rounded-up division, or an
overflow. -/
theorem spread_rate_ceil_eq {market_rate multiplier : ℕ} {spread_bps : ℤ}
    (hmultiplier : 10000 + spread_bps = multiplier) (hpositive : 0 < multiplier) :
    spread_rate_ceil market_rate spread_bps
      = if market_rate * multiplier + 9999 < 2 ^ 128 then
          .ok ((market_rate * multiplier + 9999) / 10000)
        else .error ArithmeticOverflow := by
  have hbps : BPS + spread_bps = multiplier := hmultiplier
  have hspread : (0 : ℤ) < multiplier := by exact_mod_cast hpositive
  simp only [spread_rate_ceil, hbps, require_true hspread, ok_bind, Int.toNat_natCast, Checked.mul]
  by_cases hproduct : market_rate * multiplier < 2 ^ 128
  · rw [if_pos hproduct]
    simp only [ok_or_some, ok_bind, Checked.add]
    show ok_or (if market_rate * multiplier + 9999 < 2 ^ 128 then _ else none) _ >>= _ = _
    by_cases hrounded : market_rate * multiplier + 9999 < 2 ^ 128
    · rw [if_pos hrounded, if_pos hrounded]
      rfl
    · rw [if_neg hrounded, if_neg hrounded]
      rfl
  -- a product that does not fit leaves no room for the rounding either
  · rw [if_neg hproduct, if_neg (by omega)]
    rfl

/-- The multiplier of a stored spread is a positive number of basis points. -/
theorem exists_multiplier {spread_bps : ℤ} (h : -10000 < spread_bps) :
    ∃ multiplier : ℕ, 10000 + spread_bps = multiplier ∧ 0 < multiplier := by
  refine ⟨(10000 + spread_bps).toNat, ?_, ?_⟩
  · omega
  · omega

/-- With a usable quote the floor of a listed currency is positive and is the bound its own two
sources set, unless the spread overflows. -/
theorem escrow_floor_exact (hlisted : c.listed = true)
    (hfloor : 0 < c.fixed_min_rate ∨ c.oracle_quote.isSome = true) (hspread : -10000 < c.spread_bps)
    (hkey : quote.map Account.key = c.oracle_quote)
    (husable : ∀ q ∈ quote, q.data.Usable c.max_staleness now)
    (hclock : ∀ q ∈ quote, Checked.sub_i64 now q.data.updated_at = some (now - q.data.updated_at)) :
    (SpreadOverflows c quote
        ∧ c.escrow_floor (quote.map Account.data) now = .error ArithmeticOverflow)
      ∨ (¬ SpreadOverflows c quote ∧ ∃ r, c.escrow_floor (quote.map Account.data) now = .ok r ∧ 0 < r
        ∧ ∀ rate, r ≤ rate ↔ RateAllowed c quote none rate) := by
  cases quote with
  -- without a quote the floor is the fixed rate alone
  | none =>
    have horacle : c.oracle_quote = none := hkey.symm
    right
    refine ⟨by simp [SpreadOverflows], c.fixed_min_rate, ?_, ?_, fun rate => ?_⟩
    · simp only [DepositCurrency.escrow_floor, hlisted, if_true, horacle]
    · simpa [horacle] using hfloor
    · exact ⟨fun h => ⟨h, by simp, by simp⟩, fun h => h.fixed⟩
  | some q =>
    have horacle : c.oracle_quote = some q.key := hkey.symm
    obtain ⟨hvalid, hpositive, hdated, hpast, hfresh⟩ := husable q rfl
    have hsub := hclock q rfl
    obtain ⟨multiplier, hmultiplier, hpos⟩ := exists_multiplier hspread
    have heval : c.escrow_floor (some q.data) now
        = spread_rate_ceil q.data.market_rate c.spread_bps >>= fun spread_rate =>
          .ok (Max.max c.fixed_min_rate spread_rate) := by
      -- a usable quote passes the guard of the source
      have hguard : ¬ (!q.data.valid || decide (q.data.market_rate = 0)
          || decide (q.data.updated_at ≤ 0) || decide (now < q.data.updated_at)) = true := by
        simp [hvalid]
        omega
      simp only [DepositCurrency.escrow_floor, hlisted, if_true, horacle, ok_or_some, ok_bind,
        if_neg hguard, hsub, if_neg (not_lt.mpr hfresh)]
      rfl
    -- the spread is signed and the multiplier is not; they agree as the spread is above -100%
    have hproduct : (q.data.market_rate : ℤ) * (10000 + c.spread_bps)
        = (q.data.market_rate * multiplier : ℕ) := by
      rw [hmultiplier]
      push_cast
      rfl
    rw [Option.map_some, heval, spread_rate_ceil_eq hmultiplier hpos]
    -- the rounding constant is added inside the word, so it counts for the overflow
    by_cases hfits : q.data.market_rate * multiplier + 9999 < 2 ^ 128
    · right
      have hnot : ¬ SpreadOverflows c (some q) := by
        rintro ⟨_, ⟨⟩, hover⟩
        rw [hproduct] at hover
        omega
      refine ⟨hnot, _, by rw [if_pos hfits]; rfl, ?_, fun rate => ?_⟩
      · have hnumber : 0 < q.data.market_rate * multiplier := Nat.mul_pos hpositive hpos
        omega
      · rw [max_le_iff, ceil_bps_le]
        constructor
        · rintro ⟨hfixed, hbound⟩
          refine ⟨hfixed, ?_, by simp⟩
          rintro _ ⟨⟩
          rw [hproduct]
          exact_mod_cast hbound
        · intro h
          have hbound := h.oracle q rfl
          rw [hproduct] at hbound
          exact ⟨h.fixed, by exact_mod_cast hbound⟩
    · left
      refine ⟨⟨q, rfl, ?_⟩, by rw [if_neg hfits]; rfl⟩
      rw [hproduct]
      omega

/-- A nonzero floor was computed from a usable quote. -/
theorem escrow_floor_usable {r : ℕ} (hlisted : c.listed = true)
    (hkey : quote.map Account.key = c.oracle_quote)
    (h : c.escrow_floor (quote.map Account.data) now = .ok r) (hr : r ≠ 0) :
    (∀ q ∈ quote, q.data.Usable c.max_staleness now)
      ∧ ∀ q ∈ quote, Checked.sub_i64 now q.data.updated_at = some (now - q.data.updated_at) := by
  cases quote with
  | none => simp
  | some q =>
    have horacle : c.oracle_quote = some q.key := hkey.symm
    simp only [DepositCurrency.escrow_floor, hlisted, if_true, horacle, Option.map_some, ok_or_some,
      ok_bind, ite_eq_ok, pure_eq_ok, bind_eq_ok, ok_or_eq_ok] at h
    -- an unusable quote gives the floor zero, and that is excluded
    rcases h with ⟨-, hzero⟩ | ⟨hguard, age, hage, h⟩
    · exact absurd hzero.symm hr
    · rcases h with ⟨-, hzero⟩ | ⟨hfresh, -⟩
      · exact absurd hzero.symm hr
      · have hage' : age = now - q.data.updated_at := by
          simp only [Checked.sub_i64, Option.ite_none_right_eq_some, Option.some.injEq] at hage
          exact hage.2.symm
        subst hage'
        simp only [Bool.or_eq_true, Bool.not_eq_true', decide_eq_true_eq, not_or, not_le, not_lt,
          Bool.not_eq_false] at hguard
        obtain ⟨⟨⟨hvalid, hmarket⟩, hdated⟩, hpast⟩ := hguard
        refine ⟨?_, ?_⟩
        · rintro _ ⟨⟩
          exact ⟨hvalid, Nat.pos_of_ne_zero hmarket, hdated, hpast, not_lt.mp hfresh⟩
        · rintro _ ⟨⟩
          exact hage

end Floor

/-! ## The effective rate -/

section Effective

variable {c : DepositCurrency} {quote : Option (Account OracleQuote)} {configured : Option Pubkey}
  {manager : Option (Account RateManager)} {entry : Option (Account RateEntry)} {now : ℤ}

/-- The quote account supplied must be the one the currency names, and none when it names none. -/
theorem check_oracle_quote_ok {u : Unit} :
    check_oracle_quote quote c.oracle_quote = .ok u ↔ quote.map Account.key = c.oracle_quote := by
  cases horacle : c.oracle_quote with
  | none => cases quote <;> simp [check_oracle_quote, require_eq_ok]
  | some expected =>
    cases quote with
    | none => simp [check_oracle_quote, ok_or, bind_eq_ok]
    | some q =>
      simp only [check_oracle_quote, ok_or_some, ok_bind, require_eq_ok, Option.map_some,
        Option.some.injEq]
      exact eq_comm

/-- What `effective_rate` checks of the manager accounts. -/
structure ManagerChecked (c : DepositCurrency) (configured : Option Pubkey)
    (manager : Option (Account RateManager)) (entry : Option (Account RateEntry)) : Prop where
  manager_key : manager.map Account.key = configured
  canonical : ∀ m ∈ manager, m.key = rate_manager_address m.data.config m.data.nonce
  entry_manager : entry.map (fun e => e.data.rate_manager) = configured
  entry_method : ∀ e ∈ entry, e.data.payment_method = c.payment_method
  entry_currency : ∀ e ∈ entry, e.data.currency = c.currency
  positive : ∀ e ∈ entry, 0 < e.data.rate

/-- Above a positive floor of the escrow, the effective rate is what the floor and the manager's
rate both allow. -/
theorem effective_rate_of_floor {floor : ℕ} (hkey : quote.map Account.key = c.oracle_quote)
    (hfloor : c.escrow_floor (quote.map Account.data) now = .ok floor) (hpositive : floor ≠ 0) {r : ℕ} :
    effective_rate c quote configured manager entry now = .ok r
      ↔ ManagerChecked c configured manager entry
        ∧ r = Max.max (entry.elim 0 fun e => e.data.rate) floor := by
  have hquote : check_oracle_quote quote c.oracle_quote = .ok () := check_oracle_quote_ok.mpr hkey
  simp only [effective_rate, hquote, ok_bind, hfloor, if_neg hpositive]
  -- without a configured manager none may be supplied, and with one both accounts must be
  cases configured with
  | none =>
    simp only [bind_eq_ok, require_eq_ok, exists_const, pure_eq_ok, Option.isNone_iff_eq_none]
    constructor
    · rintro ⟨⟨rfl, rfl⟩, rfl⟩
      exact ⟨⟨rfl, by simp, rfl, by simp, by simp, by simp⟩, by simp⟩
    · rintro ⟨hchecked, rfl⟩
      have hmanager : manager = none := Option.map_eq_none_iff.mp hchecked.manager_key
      have hentry : entry = none := Option.map_eq_none_iff.mp hchecked.entry_manager
      subst hmanager hentry
      exact ⟨⟨rfl, rfl⟩, by simp⟩
  | some expected =>
    simp only [bind_eq_ok, ok_or_eq_ok, require_eq_ok, exists_const, pure_eq_ok]
    constructor
    · rintro ⟨m, rfl, e, rfl, hcanonical, hexpected, hmanager, hmethod, hcurrency, hrate, rfl⟩
      refine ⟨⟨congrArg some hexpected, ?_, congrArg some (hmanager.trans hexpected), ?_, ?_, ?_⟩, rfl⟩
      all_goals
        rintro _ ⟨⟩
        assumption
    · rintro ⟨hchecked, rfl⟩
      obtain ⟨m, rfl, hm⟩ := Option.map_eq_some_iff.mp hchecked.manager_key
      obtain ⟨e, rfl, he⟩ := Option.map_eq_some_iff.mp hchecked.entry_manager
      exact ⟨m, rfl, e, rfl, hchecked.canonical m rfl, hm, he.trans hm.symm,
        hchecked.entry_method e rfl, hchecked.entry_currency e rfl, hchecked.positive e rfl, rfl⟩

/-- The manager's rate on top of the two sources of the currency. -/
theorem max_entry_le {floor : ℕ} (hfloor : ∀ rate, floor ≤ rate ↔ RateAllowed c quote none rate)
    (rate : ℕ) :
    Max.max (entry.elim 0 fun e => e.data.rate) floor ≤ rate ↔ RateAllowed c quote entry rate := by
  rw [max_le_iff, hfloor]
  cases entry with
  | none => exact ⟨fun h => h.2, fun h => ⟨Nat.zero_le _, h⟩⟩
  | some e =>
    constructor
    · rintro ⟨hentry, h⟩
      refine ⟨h.fixed, h.oracle, ?_⟩
      rintro _ ⟨⟩
      exact hentry
    · intro h
      exact ⟨h.manager e rfl, h.fixed, h.oracle, by simp⟩

/-- A stored spread is above -100%, so its multiplier is never refused. -/
theorem escrow_floor_ne_invalid_spread (hspread : -10000 < c.spread_bps) {quote : Option OracleQuote} :
    c.escrow_floor quote now ≠ .error InvalidSpread := by
  intro h
  have hceil : ∀ market_rate, spread_rate_ceil market_rate c.spread_bps ≠ .error InvalidSpread := by
    intro market_rate hm
    obtain ⟨multiplier, hmultiplier, hpos⟩ := exists_multiplier hspread
    rw [spread_rate_ceil_eq hmultiplier hpos] at hm
    split_ifs at hm
    cases hm
  unfold DepositCurrency.escrow_floor at h
  split at h
  · split at h
    · cases h
    · simp only [bind_eq_error, ok_or_eq_error] at h
      rcases h with ⟨-, h⟩ | ⟨q, -, h⟩
      · cases h
      · split at h
        · cases h
        · simp only [bind_eq_error, ok_or_eq_error] at h
          rcases h with ⟨-, h⟩ | ⟨age, -, h⟩
          · cases h
          · split at h
            · cases h
            · simp only [bind_eq_error, pure_eq_error, and_false, exists_false, or_false] at h
              exact hceil _ h
  · cases h

/-- A stored spread is never refused, whatever accounts are supplied. -/
theorem effective_rate_ne_invalid_spread (hspread : -10000 < c.spread_bps) :
    effective_rate c quote configured manager entry now ≠ .error InvalidSpread := by
  intro h
  rw [effective_rate, bind_eq_error] at h
  rcases h with h | ⟨_, -, h⟩
  · cases horacle : c.oracle_quote with
    | none => simp [check_oracle_quote, horacle, require_eq_error] at h
    | some expected =>
      simp [check_oracle_quote, horacle, bind_eq_error, require_eq_error, ok_or_eq_error] at h
  · rw [bind_eq_error] at h
    rcases h with h | ⟨floor, -, h⟩
    · exact escrow_floor_ne_invalid_spread hspread h
    · split at h
      · cases h
      -- every check of the manager accounts has an error of its own
      · split at h
        · simp only [bind_eq_error, require_eq_error, pure_eq_error] at h
          simp at h
        · simp only [bind_eq_error, require_eq_error, ok_or_eq_error, pure_eq_error] at h
          simp at h

end Effective

/-! ## Where the rate records sit -/

/-- Every manager and every rate entry is at the address of its own fields. -/
structure RatesStored (r : RateManagerRecords) : Prop where
  manager : ∀ k m, r.rate_managers.lookup k = some m → k = rate_manager_address m.config m.nonce
  entry : ∀ k e, r.rate_entries.lookup k = some e →
    k = rate_entry_address e.rate_manager e.payment_method e.currency

/-- Each rate-manager instruction stores rates under their own manager, method and currency. -/
theorem RatesStored.execute {rt : Runtime} {r r' : RateManagerRecords} {ix : RateManagerInstruction}
    (hr : RatesStored r) (h : ix.execute rt r = .ok r') : RatesStored r' := by
  cases ix with
  | create_rate_manager accounts args =>
    simp only [RateManagerInstruction.execute, handle_create_rate_manager, bind_eq_ok,
      pure_eq_ok] at h
    obtain ⟨_, -, _, -, _, -, _, -, _, -, _, -, _, -, _, -, _, -, _, -, rfl⟩ := h
    exact ⟨stored_insert hr.manager rfl, hr.entry⟩
  | set_rate_manager_config accounts manager fee_recipient name uri =>
    simp only [RateManagerInstruction.execute, handle_set_rate_manager_config, bind_eq_ok,
      pure_eq_ok] at h
    obtain ⟨m, hm, _, -, _, -, _, -, _, -, _, -, rfl⟩ := h
    have hkey := hr.manager _ m (managed_rate_manager_ok hm)
    exact ⟨stored_insert hr.manager hkey, hr.entry⟩
  | set_manager_fee accounts fee =>
    simp only [RateManagerInstruction.execute, handle_set_manager_fee, bind_eq_ok, pure_eq_ok] at h
    obtain ⟨m, hm, _, -, _, -, rfl⟩ := h
    have hkey := hr.manager _ m (managed_rate_manager_ok hm)
    exact ⟨stored_insert hr.manager hkey, hr.entry⟩
  | set_manager_min_liquidity accounts min_liquidity =>
    simp only [RateManagerInstruction.execute, handle_set_manager_min_liquidity, bind_eq_ok,
      pure_eq_ok] at h
    obtain ⟨m, hm, rfl⟩ := h
    have hkey := hr.manager _ m (managed_rate_manager_ok hm)
    exact ⟨stored_insert hr.manager hkey, hr.entry⟩
  | set_manager_rate accounts payment_method currency rate =>
    simp only [RateManagerInstruction.execute, handle_set_manager_rate, bind_eq_ok, require_eq_ok,
      exists_const, pure_eq_ok] at h
    obtain ⟨_, -, -, -, rfl⟩ := h
    refine ⟨hr.manager, stored_insert hr.entry ?_⟩
    by_cases hnew : (init_if_needed r.rate_entries
        (rate_entry_address accounts.rate_manager payment_method currency)).rate_manager
        = Pubkey.default
    · simp only [if_pos hnew]
    -- an entry that has a manager was there before, and keeps its tuple
    · simp only [if_neg hnew]
      cases hfound : r.rate_entries.lookup
          (rate_entry_address accounts.rate_manager payment_method currency) with
      | none => exact absurd (by simp [init_if_needed, hfound]; rfl) hnew
      | some e =>
        have hkey := hr.entry _ e hfound
        simpa only [init_if_needed, hfound, Option.getD_some] using hkey

theorem rates_step {rt : Runtime} {e : Event} (hv : e.Valid (step rt))
    (hs : RatesStored e.pre.toRateManagerRecords) : RatesStored e.post.toRateManagerRecords := by
  rcases (config_move hv).rate_managers with hsame | ⟨ix, -, hok⟩
  · rwa [hsame]
  · exact hs.execute hok

/-- Stored rates are where they belong in every state of a run. -/
theorem Run.rates {rt : Runtime} {es : List Event} {s : State} (h : Run rt es s) :
    RatesStored s.toRateManagerRecords
      ∧ ∀ e ∈ es, RatesStored e.pre.toRateManagerRecords ∧ RatesStored e.post.toRateManagerRecords := by
  refine TxMachine.Run.invariant (I := fun s => RatesStored s.toRateManagerRecords)
    (G := fun _ => True) ?_ (fun _ _ hv hs => rates_step hv hs) h fun _ _ => trivial
  intro s₀ h₀
  obtain ⟨_, _, _, _, _, _, _, rfl, -⟩ := genesis_ok h₀
  refine ⟨?_, ?_⟩
  all_goals
    intro k v hv
    exact absurd hv (by simp [initial_state])

/-! ## Signals -/

/-- What a successful signal loaded and compared. -/
theorem signal_intent_priced {rt : Runtime} {ctx : TxContext} {ed25519 : List (List UInt8)}
    {accounts : SignalIntent} {args : SignalIntentArgs} {s s' : State}
    (h : handle_signal_intent rt ctx ed25519 accounts args s = .ok s') :
    ∃ d c quote manager entry floor, s.deposits.lookup accounts.deposit = some d
      ∧ s.currencies.lookup
          (deposit_currency_address accounts.deposit args.payment_method args.fiat_currency) = some c
      ∧ c.listed = true
      ∧ load_opt s.oracle_quotes accounts.oracle_quote = .ok quote
      ∧ load_opt s.rate_managers accounts.rate_manager = .ok manager
      ∧ load_opt s.rate_entries accounts.rate_entry = .ok entry
      ∧ effective_rate c quote d.rate_manager manager entry ctx.now = .ok floor
      ∧ 0 < floor ∧ floor ≤ args.conversion_rate := by
  obtain ⟨d, method, c, terms, hd, htuple, -, hterms⟩ := signal_intent_checks h
  simp only [signaled_tuple, bind_eq_ok, load_eq_ok, require_eq_ok, exists_const, pure_eq_ok,
    Prod.mk.injEq] at htuple
  obtain ⟨_, -, -, _, hc, -, -, hlisted, -, rfl⟩ := htuple
  simp only [signaled_terms, bind_eq_ok, require_eq_ok, exists_const] at hterms
  obtain ⟨quote, hquote, manager, hmanager, entry, hentry, floor, hfloor, hpositive, hrate, -⟩ := hterms
  exact ⟨d, _, quote, manager, entry, floor, hd, hc, hlisted, hquote, hmanager, hentry, hfloor,
    hpositive, hrate⟩

section Signals

variable {s : State} {c : DepositCurrency} {quote : Option (Account OracleQuote)}
  {configured : Option Pubkey} {manager : Option (Account RateManager)}
  {entry : Option (Account RateEntry)}

/-- For stored accounts, passing the comparisons of `effective_rate` is being the configured
manager's entry for the tuple. -/
theorem manager_checked_iff (hs : RatesStored s.toRateManagerRecords)
    (hmanager : ∀ m ∈ manager, s.rate_managers.lookup m.key = some m.data)
    (hentry : ∀ e ∈ entry, s.rate_entries.lookup e.key = some e.data) :
    ManagerChecked c configured manager entry ↔ ManagerPriced s c configured manager entry := by
  constructor
  · intro h
    refine ⟨h.manager_key, hmanager, ?_, hentry, h.positive⟩
    cases entry with
    | none => rw [← h.entry_manager]; rfl
    | some e =>
      have hkey := hs.entry _ _ (hentry e rfl)
      rw [h.entry_method e rfl, h.entry_currency e rfl] at hkey
      rw [← h.entry_manager, Option.map_some, hkey]
      rfl
  · intro h
    have hcanonical : ∀ m ∈ manager, m.key = rate_manager_address m.data.config m.data.nonce :=
      fun m hm => hs.manager _ _ (hmanager m hm)
    cases entry with
    | none =>
      have hnone : configured = none := Option.map_eq_none_iff.mp h.entry_key.symm
      exact ⟨h.manager_key, hcanonical, hnone.symm, by simp, by simp, h.positive⟩
    | some e =>
      obtain ⟨m, rfl, hkey⟩ := Option.map_eq_some_iff.mp h.entry_key.symm
      rw [hs.entry _ _ (hentry e rfl)] at hkey
      injection hkey with _ hm hmethod hcurrency
      refine ⟨h.manager_key, hcanonical, congrArg some hm.symm, ?_, ?_, h.positive⟩
      · rintro _ ⟨⟩
        exact hmethod.symm
      · rintro _ ⟨⟩
        exact hcurrency.symm

/-- On usable and priced accounts the effective rate is the bound all sources set together, unless
the spread overflows. -/
theorem effective_rate_exact {k : Pubkey} {now : ℤ} (hs : RatesStored s.toRateManagerRecords)
    (hc : CurrencyStored k c) (hlisted : c.listed = true) (hquote : QuoteUsable s c now quote)
    (hclock : ∀ q ∈ quote, Checked.sub_i64 now q.data.updated_at = some (now - q.data.updated_at))
    (hpriced : ManagerPriced s c configured manager entry) :
    (SpreadOverflows c quote
        ∧ effective_rate c quote configured manager entry now = .error ArithmeticOverflow)
      ∨ (¬ SpreadOverflows c quote
        ∧ ∃ r, effective_rate c quote configured manager entry now = .ok r
          ∧ ∀ rate, r ≤ rate ↔ RateAllowed c quote entry rate) := by
  have hchecked := (manager_checked_iff hs hpriced.manager_stored hpriced.entry_stored).mpr hpriced
  rcases escrow_floor_exact hlisted (hc.floor hlisted) hc.spread hquote.key hquote.usable hclock with
    ⟨hover, herror⟩ | ⟨hfits, floor, hfloor, hpositive, hbound⟩
  · left
    refine ⟨hover, ?_⟩
    have hkey : check_oracle_quote quote c.oracle_quote = .ok () :=
      check_oracle_quote_ok.mpr hquote.key
    simp only [effective_rate, hkey, ok_bind, herror]
    rfl
  · right
    exact ⟨hfits, _, (effective_rate_of_floor hquote.key hfloor hpositive.ne').mpr ⟨hchecked, rfl⟩,
      max_entry_le hbound⟩

/-- An effective rate other than zero was computed from usable and priced accounts. -/
theorem effective_rate_conditions {now : ℤ} {r : ℕ} (hs : RatesStored s.toRateManagerRecords)
    (hlisted : c.listed = true) (hquote : ∀ q ∈ quote, s.oracle_quotes.lookup q.key = some q.data)
    (hmanager : ∀ m ∈ manager, s.rate_managers.lookup m.key = some m.data)
    (hentry : ∀ e ∈ entry, s.rate_entries.lookup e.key = some e.data)
    (h : effective_rate c quote configured manager entry now = .ok r) (hr : 0 < r) :
    QuoteUsable s c now quote
      ∧ (∀ q ∈ quote, Checked.sub_i64 now q.data.updated_at = some (now - q.data.updated_at))
      ∧ ManagerPriced s c configured manager entry := by
  have hrate := h
  rw [effective_rate, bind_eq_ok] at h
  obtain ⟨_, hkey, h⟩ := h
  rw [check_oracle_quote_ok] at hkey
  rw [bind_eq_ok] at h
  obtain ⟨floor, hfloor, h⟩ := h
  by_cases hzero : floor = 0
  · rw [if_pos hzero, pure_eq_ok] at h
    omega
  · obtain ⟨husable, hclock⟩ := escrow_floor_usable hlisted hkey hfloor hzero
    obtain ⟨hchecked, -⟩ := (effective_rate_of_floor hkey hfloor hzero).mp hrate
    exact ⟨⟨hkey, hquote, husable⟩, hclock, (manager_checked_iff hs hmanager hentry).mp hchecked⟩

end Signals

/-- Wherever a run passes: a signal that succeeds meets every lower bound of its tuple, from usable
accounts that are the configured ones; on such accounts the effective rate is the least rate that
meets them, or the spread overflows; and the spread of a stored currency is never refused. -/
theorem rate_floor_exact {rt : Runtime} {es : List Event} {t s : State} (h : Run rt es t)
    (hs : TxMachine.Passes es t s) :
    (∀ ctx ed25519 accounts args s', handle_signal_intent rt ctx ed25519 accounts args s = .ok s' →
      ∃ d c quote manager entry, s.deposits.lookup accounts.deposit = some d
        ∧ s.currencies.lookup
            (deposit_currency_address accounts.deposit args.payment_method args.fiat_currency) = some c
        ∧ c.listed = true ∧ c.payment_method = args.payment_method ∧ c.currency = args.fiat_currency
        ∧ accounts.oracle_quote = quote.map Account.key
        ∧ accounts.rate_manager = manager.map Account.key
        ∧ accounts.rate_entry = entry.map Account.key
        ∧ QuoteUsable s c ctx.now quote ∧ ManagerPriced s c d.rate_manager manager entry
        ∧ RateAllowed c quote entry args.conversion_rate)
      ∧ (∀ k c configured quote manager entry, ∀ now : ℤ, s.currencies.lookup k = some c →
        c.listed = true → now < 2 ^ 63 → QuoteUsable s c now quote →
        ManagerPriced s c configured manager entry →
        (effective_rate c quote configured manager entry now = .error ArithmeticOverflow
          ↔ SpreadOverflows c quote)
        ∧ (¬ SpreadOverflows c quote →
          ∃ r, effective_rate c quote configured manager entry now = .ok r
            ∧ IsLeast {rate | RateAllowed c quote entry rate} r))
      ∧ ∀ k c quote configured manager entry now, s.currencies.lookup k = some c →
        effective_rate c quote configured manager entry now ≠ .error InvalidSpread := by
  have hescrow : EscrowOk s.toEscrowRecords :=
    hs.holds (I := fun s => EscrowOk s.toEscrowRecords) (Run.escrow h)
  have hrates : RatesStored s.toRateManagerRecords :=
    hs.holds (I := fun s => RatesStored s.toRateManagerRecords) (Run.rates h)
  refine ⟨?_, ?_, ?_⟩
  -- what a signal agreed on was at least the floor
  · intro ctx ed25519 accounts args s' hsignal
    obtain ⟨d, c, quote, manager, entry, floor, hd, hc, hlisted, hquote, hmanager, hentry, hfloor,
      hpositive, hrate⟩ := signal_intent_priced hsignal
    obtain ⟨hquote_key, hquote⟩ := load_opt_eq_ok.mp hquote
    obtain ⟨hmanager_key, hmanager⟩ := load_opt_eq_ok.mp hmanager
    obtain ⟨hentry_key, hentry⟩ := load_opt_eq_ok.mp hentry
    have hstored := hescrow.currency _ c hc
    have hkey := hstored.key
    injection hkey with _ _ hmethod hcurrency
    obtain ⟨husable, hclock, hpriced⟩ := effective_rate_conditions hrates hlisted hquote hmanager
      hentry hfloor hpositive
    refine ⟨d, c, quote, manager, entry, hd, hc, hlisted, hmethod.symm, hcurrency.symm,
      hquote_key.symm, hmanager_key.symm, hentry_key.symm, husable, hpriced, ?_⟩
    rcases effective_rate_exact hrates hstored hlisted husable hclock hpriced with
      ⟨-, herror⟩ | ⟨-, r, hr, hbound⟩
    · rw [herror] at hfloor
      cases hfloor
    · rw [hr] at hfloor
      cases hfloor
      exact (hbound _).mp hrate
  -- the floor is the least such rate, and it fails only by overflow
  · intro k c configured quote manager entry now hc hlisted hnow hquote hpriced
    have hclock : ∀ q ∈ quote, Checked.sub_i64 now q.data.updated_at
        = some (now - q.data.updated_at) := by
      intro q hq
      have hdated := (hquote.usable q hq).dated
      have hpast := (hquote.usable q hq).past
      exact if_pos ⟨by omega, by omega⟩
    rcases effective_rate_exact hrates (hescrow.currency k c hc) hlisted hquote hclock hpriced with
      ⟨hover, herror⟩ | ⟨hfits, r, hr, hbound⟩
    · exact ⟨⟨fun _ => hover, fun _ => herror⟩, fun hfits => absurd hover hfits⟩
    · refine ⟨⟨fun herror => ?_, fun hover => absurd hover hfits⟩, fun _ => ⟨r, hr, ?_, ?_⟩⟩
      · rw [hr] at herror
        cases herror
      · exact (hbound r).mp le_rfl
      · exact fun rate hrate => (hbound rate).mpr hrate
  · intro k c quote configured manager entry now hc
    exact effective_rate_ne_invalid_spread (hescrow.currency k c hc).spread

/-- The quote, the manager and the entry the sample deposit is priced by. -/
def sample_quote : Pubkey := oracle_quote_address sample_successor (sample_word 31)

def sample_manager : Pubkey := rate_manager_address rate_manager_config_address 0

def sample_entry : Pubkey := rate_entry_address sample_manager (sample_word 21) (sample_word 23)

/-- The maker of the sample deposit moves it to an oracle at half a percent below the market and
hands it to a manager with a rate of its own. -/
def sample_priced : TxContext × List TopLevel :=
  (sample_ctx 1900,
    [.program (.open_records (.update_oracle_quote ⟨sample_successor⟩ (sample_word 31) 1001 true)),
      .program (.rate_managers (.create_rate_manager ⟨sample_staker⟩
        { manager := sample_staker
          fee_recipient := none
          max_fee := 0
          fee := 0
          min_liquidity := 0
          name := []
          uri := [] })),
      .program (.rate_managers (.set_manager_rate ⟨sample_staker, sample_manager⟩ (sample_word 21)
        (sample_word 23) 990)),
      .program (.deposit_config (.configure_currency ⟨sample_depositor, sample_deposit⟩
        { payment_method := sample_word 21
          currency := sample_word 23
          fixed_min_rate := 10
          oracle_quote := some sample_quote
          spread_bps := -50
          max_staleness := 100
          listed := true })),
      .program (.deposit_config (.set_deposit_rate_manager ⟨sample_depositor, sample_deposit⟩
        (some sample_manager) (some sample_manager))),
      .program (.governance (.configure_orchestrator ⟨sample_authority⟩
        { protocol_fee := none
          protocol_fee_recipient := none
          lifecycle_policy := some .None
          allow_multiple_intents := none
          paused := none }))])

def sample_priced_signal : SignalIntent :=
  { sample_signal with
    oracle_quote := some sample_quote
    rate_manager := some sample_manager
    rate_entry := some sample_entry }

/-- A signal at the last moment the quote may be used, at the rounded-up floor. -/
theorem rate_floor_exact_priced :
    ∃ es s s' c quote entry, Run sample_runtime es s
      ∧ handle_signal_intent sample_runtime (sample_ctx 2000) [] sample_priced_signal
        { sample_signal_args with conversion_rate := 996 } s = .ok s'
      ∧ quote.map Account.key = some sample_quote ∧ entry.map Account.key = some sample_entry
      ∧ QuoteUsable s c 2000 quote ∧ RateAllowed c quote entry 996 := by
  obtain ⟨es, s, hrun, hgood⟩ := sample_reaches [sample_setup, sample_priced]
    (fun _ s => (handle_signal_intent sample_runtime (sample_ctx 2000) [] sample_priced_signal
      { sample_signal_args with conversion_rate := 996 } s).toOption.isSome) (by decide +kernel)
  obtain ⟨s', hsignal⟩ := exists_of_isSome hgood
  obtain ⟨d, c, quote, manager, entry, -, -, -, -, -, hquote, -, hentry, husable, -, hallowed⟩ :=
    (rate_floor_exact hrun (.inl rfl)).1 _ _ _ _ _ hsignal
  exact ⟨es, s, s', c, quote, entry, hrun, hsignal, hquote.symm, hentry.symm, husable, hallowed⟩

end Zkp2pSolana
