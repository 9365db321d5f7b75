/-
The deposits and their listings, over a whole run.

A listing is what a taker chooses from: the terms of a deposit, and its payment
methods and currencies. This file says what one instruction does to all three,
and from it that a listing belongs to its maker: it is what the maker published
last, and nobody else's instruction changes it.
-/
import Zkp2pSolana.Lib.TxHistory
import Zkp2pSolana.RecordWrites
import Zkp2pSolana.Signers

set_option autoImplicit false

namespace Zkp2pSolana

open Result Zkp2pError

/-! ## One instruction -/

/-- What a maker agreed to: everything of a deposit but its counters. -/
structure DepositTerms where
  escrow_config : Pubkey
  id : ℕ
  depositor : Pubkey
  delegate : Option Pubkey
  token_mint : Pubkey
  intent_amount_range : AmountRange
  accepting_intents : Bool
  intent_guardian : Option Pubkey
  retain_on_empty : Bool
  rate_manager : Option Pubkey

def Deposit.terms (d : Deposit) : DepositTerms where
  escrow_config := d.escrow_config
  id := d.id
  depositor := d.depositor
  delegate := d.delegate
  token_mint := d.token_mint
  intent_amount_range := d.intent_amount_range
  accepting_intents := d.accepting_intents
  intent_guardian := d.intent_guardian
  retain_on_empty := d.retain_on_empty
  rate_manager := d.rate_manager

/-- The instructions that publish: they open a deposit or configure one. -/
def TopLevel.publishes : TopLevel → Bool
  | .program (.custody (.create_deposit _ _)) => true
  | .program (.deposit_config _) => true
  | _ => false

/-- No payment method and no currency is published. -/
structure NothingPublished (ix : TopLevel) (s s' : State) : Prop where
  quiet : ix.publishes = false
  next : s'.escrow_config.next_deposit_id = s.escrow_config.next_deposit_id
  methods : s'.payment_methods = s.payment_methods
  currencies : s'.currencies = s.currencies

/-- What one top-level instruction does to the deposits and their listings. -/
inductive ListingMove (ix : TopLevel) (s s' : State) : Prop
  | kept (deposits : s'.deposits = s.deposits) (rest : NothingPublished ix s s')
  /-- Principal comes in, or an intent reserves, frees or spends it. -/
  | counted (k : Pubkey) (d d' : Deposit) (found : s.deposits.lookup k = some d)
      (deposits : s'.deposits = s.deposits.insert k d') (terms : d'.terms = d.terms)
      (rest : NothingPublished ix s s')
  | drained (accounts : WithdrawDeposit) (is : ix = .program (.custody (.withdraw_deposit accounts)))
      (retain : Bool) (d : Deposit)
      (owns : Owns accounts.depositor accounts.deposit s.toEscrowRecords d)
      (deposits : s'.deposits = s.deposits.insert accounts.deposit (drained d retain))
      (rest : NothingPublished ix s s')
  | closed (accounts : WithdrawDeposit) (is : ix = .program (.custody (.withdraw_deposit accounts)))
      (d : Deposit) (owns : Owns accounts.depositor accounts.deposit s.toEscrowRecords d)
      (idle : d.active_intents = 0 ∧ d.outstanding_intent_amount = 0 ∧ d.retain_on_empty = false)
      (deposits : s'.deposits = s.deposits.erase accounts.deposit)
      (rest : NothingPublished ix s s')
  | configured (ix' : DepositConfigInstruction) (is : ix = .program (.deposit_config ix'))
      (write : ListingWrite s.toEscrowRecords s'.toEscrowRecords ix')
  | listed (accounts : CreateDeposit) (args : CreateDepositArgs) (k : Pubkey)
      (is : ix = .program (.custody (.create_deposit accounts args)))
      (listed : Listed accounts args s.toEscrowRecords s'.toEscrowRecords k)

/-- An event that leaves the escrow's records alone leaves every listing alone. -/
theorem ListingMove.of_records {ix : TopLevel} {s s' : State} (hquiet : ix.publishes = false)
    (hrecords : s'.toEscrowRecords = s.toEscrowRecords) : ListingMove ix s s' := by
  have hdeposits : s'.deposits = s.deposits := congrArg (·.deposits) hrecords
  exact .kept hdeposits ⟨hquiet, congrArg (·.escrow_config.next_deposit_id) hrecords,
    congrArg (·.payment_methods) hrecords, congrArg (·.currencies) hrecords⟩

/-- Closing an intent moves the counters of its deposit. -/
theorem ListingMove.of_closed {ix : TopLevel} {k : Pubkey} {live : LiveIntent} {d' : Deposit}
    {s s₁ s' : State} (hquiet : ix.publishes = false) (hlive : live_intent k s = .ok live)
    (hsame : s₁.toEscrowRecords = s.toEscrowRecords)
    (hpost : s'.toEscrowRecords = (closed_state k live d' s₁).toEscrowRecords)
    (hterms : d'.terms = live.deposit.terms) : ListingMove ix s s' := by
  obtain ⟨-, -, hdeposit, -⟩ := live_intent_ok hlive
  have hdeposits : s'.deposits = s.deposits.insert live.intent.deposit d' := by
    rw [congrArg (·.deposits) hpost]
    show s₁.deposits.insert live.intent.deposit d' = _
    rw [congrArg (·.deposits) hsame]
  refine .counted live.intent.deposit live.deposit d' hdeposit hdeposits hterms ⟨hquiet, ?_, ?_, ?_⟩
  · rw [congrArg (·.escrow_config) hpost]
    exact congrArg (·.escrow_config.next_deposit_id) hsame
  · rw [congrArg (·.payment_methods) hpost]
    exact congrArg (·.payment_methods) hsame
  · rw [congrArg (·.currencies) hpost]
    exact congrArg (·.currencies) hsame

/-- A lock leaves the terms alone. -/
theorem Deposit.lock_terms {d d' : Deposit} {amount maximum : ℕ}
    (h : d.lock amount maximum = .ok d') : d'.terms = d.terms := by
  simp only [Deposit.lock, bind_eq_ok, require_eq_ok, exists_const, pure_eq_ok] at h
  obtain ⟨-, -, -, -, _, -, -, _, -, _, -, rfl⟩ := h
  rfl

/-- So does an unlock. -/
theorem Deposit.unlock_terms {d d' : Deposit} {amount : ℕ} (h : d.unlock amount = .ok d') :
    d'.terms = d.terms := by
  simp only [Deposit.unlock, bind_eq_ok, pure_eq_ok] at h
  obtain ⟨_, -, _, -, _, -, rfl⟩ := h
  rfl

theorem Deposit.settle_terms {d d' : Deposit} {locked released : ℕ}
    (h : d.settle locked released = .ok d') : d'.terms = d.terms := by
  simp only [Deposit.settle, bind_eq_ok, require_eq_ok, exists_const, pure_eq_ok] at h
  obtain ⟨-, -, _, -, _, -, _, -, _, -, rfl⟩ := h
  rfl

theorem settle_listing_move {ctx : TxContext} {ix : TopLevel} {k : Pubkey} {live : LiveIntent}
    {tokens : SettlementTokenAccounts} {dispute : SettlementDisputeAccounts}
    {remaining_accounts : List AccountInfo} {released : ℕ} {s s₁ s' : State}
    (hquiet : ix.publishes = false) (hlive : live_intent k s = .ok live)
    (h : settle_intent ctx k live tokens dispute remaining_accounts released s = .ok s₁)
    (hpost : s'.toEscrowRecords = s₁.toEscrowRecords) : ListingMove ix s s' := by
  obtain ⟨s₂, d', T, hdispute, hsettle, -, rfl⟩ := settle_intent_ok h
  refine .of_closed hquiet hlive ?_ hpost (Deposit.settle_terms hsettle)
  rw [settle_dispute_rest hdispute]

/-- Of the custody instructions, only the one that opens a deposit publishes a listing. -/
theorem custody_listing_move {ix : CustodyInstruction} {s s' : State}
    (h : HoldingWrite s.toEscrowRecords s'.toEscrowRecords ix) :
    ListingMove (.program (.custody ix)) s s' := by
  have hrest : ∀ deposits, (TopLevel.program (.custody ix)).publishes = false →
      s'.toEscrowRecords = { s.toEscrowRecords with deposits := deposits } →
      NothingPublished (.program (.custody ix)) s s' := by
    intro deposits hquiet hrecords
    exact ⟨hquiet, congrArg (·.escrow_config.next_deposit_id) hrecords,
      congrArg (·.payment_methods) hrecords, congrArg (·.currencies) hrecords⟩
  cases h with
  | listed accounts args k listed => exact .listed accounts args k rfl listed
  | added accounts amount d found running records =>
    exact .counted accounts.deposit d { d with remaining_deposits := d.remaining_deposits + amount }
      found (congrArg (·.deposits) records) rfl (hrest _ rfl records)
  | taken accounts amount d owns running records =>
    exact .counted accounts.deposit d { d with remaining_deposits := d.remaining_deposits - amount }
      owns.found (congrArg (·.deposits) records) rfl (hrest _ rfl records)
  | drained accounts retain d owns records =>
    exact .drained accounts rfl retain d owns (congrArg (·.deposits) records) (hrest _ rfl records)
  | closed accounts d owns idle records =>
    exact .closed accounts rfl d owns idle (congrArg (·.deposits) records) (hrest _ rfl records)

theorem governance_listing_move {ctx : TxContext} {ix : GovernanceInstruction} {s s' : State}
    (h : ix.execute ctx s = .ok s') : ListingMove (.program (.governance ix)) s s' := by
  cases ix with
  | configure_escrow accounts args =>
    simp only [GovernanceInstruction.execute, handle_configure_escrow, bind_eq_ok, require_eq_ok,
      exists_const, pure_eq_ok] at h
    obtain ⟨_, -, -, -, -, -, -, -, rfl⟩ := h
    exact .kept rfl ⟨rfl, rfl, rfl, rfl⟩
  | propose_protocol_authority accounts pending =>
    cases governance_write h with
    | protocol _ p post => exact .of_records rfl (by rw [post])
  | accept_protocol_authority accounts =>
    cases governance_write h with
    | protocol _ p post => exact .of_records rfl (by rw [post])
  | configure_orchestrator accounts args =>
    cases governance_write h with
    | protocol _ p post => exact .of_records rfl (by rw [post])
    | orchestrator _ _ o nonce post => exact .of_records rfl (by rw [post])
  | propose_stake_controller accounts pending =>
    cases governance_write h with
    | protocol _ p post => exact .of_records rfl (by rw [post])
    | proposed _ _ candidate valid_at post => exact .of_records rfl (by rw [post])
  | accept_stake_controller accounts =>
    cases governance_write h with
    | protocol _ p post => exact .of_records rfl (by rw [post])
    | accepted _ post => exact .of_records rfl (by rw [post])

/-- Every top-level instruction is one of these moves. -/
theorem listing_move {rt : Runtime} {ctx : TxContext} {before after : List TopLevel} {s s' : State}
    {ix : TopLevel} (h : ix.execute rt ctx before after s = .ok s') : ListingMove ix s s' := by
  cases ix with
  | ed25519 data | external tokens =>
    simp only [TopLevel.execute, bind_eq_ok, require_eq_ok, exists_const, pure_eq_ok] at h
    obtain ⟨-, rfl⟩ := h
    exact .of_records rfl rfl
  | program ix =>
    cases ix with
    | open_records ix | rate_managers ix | whitelists ix | verifier ix | dispute_policy ix =>
      simp only [TopLevel.execute, Instruction.execute, bind_eq_ok, pure_eq_ok] at h
      obtain ⟨_, -, rfl⟩ := h
      exact .of_records rfl rfl
    | governance ix => exact governance_listing_move h
    | deposit_config ix =>
      simp only [TopLevel.execute, Instruction.execute, bind_eq_ok, pure_eq_ok] at h
      obtain ⟨_, hok, rfl⟩ := h
      exact .configured ix rfl (listing_write hok)
    | custody ix =>
      simp only [TopLevel.execute, Instruction.execute, bind_eq_ok, pure_eq_ok, Prod.exists] at h
      obtain ⟨_, _, hok, rfl⟩ := h
      exact custody_listing_move (holding_write hok)
    | stake ix =>
      simp only [TopLevel.execute, Instruction.execute, bind_eq_ok, pure_eq_ok, Prod.exists] at h
      obtain ⟨_, _, -, rfl⟩ := h
      exact .of_records rfl rfl
    -- a signal and the four endings move the amounts of a deposit; the terms stay
    | signal_intent accounts args =>
      obtain ⟨d, d', _, _, _, _, hsignaled⟩ := signal_intent_ok h
      have hpost := hsignaled.post
      exact .counted accounts.deposit d d' hsignaled.deposit (congrArg (·.deposits) hpost)
        (Deposit.lock_terms hsignaled.locked)
        ⟨rfl, congrArg (·.escrow_config.next_deposit_id) hpost,
          congrArg (·.payment_methods) hpost, congrArg (·.currencies) hpost⟩
    | cancel_intent accounts =>
      obtain ⟨_, _, _, hlive, -, -, -, -, hunlock, rfl⟩ := cancel_intent_ok h
      exact .of_closed rfl hlive rfl rfl (Deposit.unlock_terms hunlock)
    | prune_expired_intent accounts =>
      obtain ⟨_, s₁, _, hlive, -, hprune, hunlock, rfl⟩ := prune_expired_intent_ok h
      have hsame : s₁.toEscrowRecords = s.toEscrowRecords := by
        rcases prune_dispute_ok hprune with ⟨-, rfl⟩ | ⟨-, _, _, _, _, hcancelled⟩
        · rfl
        · rw [hcancelled.post]
      exact .of_closed rfl hlive hsame rfl (Deposit.unlock_terms hunlock)
    | prepare_dispute accounts args =>
      obtain ⟨_, _, _, _, _, _, hprepared, -⟩ := prepare_dispute_ok h
      exact .of_records rfl (by rw [hprepared.post])
    | cancel_dispute accounts =>
      exact .of_records rfl (by rw [cancel_dispute_rest h])
    | release_matured_dispute accounts =>
      obtain ⟨_, _, _, _, -, -, -, -, -, -, -, -, hpost⟩ := release_matured_dispute_ok h
      exact .of_records rfl (by rw [hpost])
    | submit_dispute accounts args =>
      obtain ⟨_, _, _, _, _, _, hdisputed, -⟩ := submit_dispute_ok h
      exact .of_records rfl (by rw [hdisputed.post])
    | fulfill_intent accounts args =>
      obtain ⟨_, _, hlive, -, -, -, -, hsettle, rfl⟩ := fulfill_intent_ok h
      exact settle_listing_move rfl hlive hsettle rfl
    | manual_release accounts =>
      obtain ⟨_, hlive, -, -, hsettle⟩ := manual_release_ok h
      exact settle_listing_move rfl hlive hsettle rfl

/-! ## What a maker published -/

section Published

variable {rt : Runtime} {e : Event}

/-- The payment method `m` of the deposit `k`, where the event publishes it. -/
def published_method (k : Pubkey) (m : Bytes 32) (e : Event) : Option DepositPaymentMethod :=
  match e.ix with
  | .program (.custody (.create_deposit _ args)) =>
    if deposit_address escrow_config_address e.pre.escrow_config.next_deposit_id = k
        ∧ args.payment_method = m then
      some (first_method k args)
    else none
  | .program (.deposit_config (.configure_payment_method accounts args)) =>
    if accounts.deposit = k ∧ args.payment_method = m then some (configured_method k args) else none
  | _ => none

/-- The currency `c` of that method, where the event publishes it. -/
def published_currency (k : Pubkey) (m c : Bytes 32) (e : Event) : Option DepositCurrency :=
  match e.ix with
  | .program (.custody (.create_deposit _ args)) =>
    if deposit_address escrow_config_address e.pre.escrow_config.next_deposit_id = k
        ∧ args.payment_method = m ∧ args.currency = c then
      some (first_currency k args)
    else none
  | .program (.deposit_config (.configure_currency accounts args)) =>
    if accounts.deposit = k ∧ args.payment_method = m ∧ args.currency = c then
      some (configured_currency k args)
    else none
  | _ => none

/-- An event that publishes nothing publishes no payment method. -/
theorem published_method_quiet (h : e.ix.publishes = false) (k : Pubkey) (m : Bytes 32) :
    published_method k m e = none := by
  unfold published_method
  split
  · rename_i hix
    rw [hix] at h
    cases h
  · rename_i hix
    rw [hix] at h
    cases h
  · rfl

theorem published_currency_quiet (h : e.ix.publishes = false) (k : Pubkey) (m c : Bytes 32) :
    published_currency k m c e = none := by
  unfold published_currency
  split
  · rename_i hix
    rw [hix] at h
    cases h
  · rename_i hix
    rw [hix] at h
    cases h
  · rfl

/-- A table after one entry is written, read at any key. -/
theorem lookup_insert_or {α : Type} (t : Accounts α) {k k' : Pubkey} {v : α} {P : Prop} [Decidable P]
    (hP : k = k' ↔ P) : (t.insert k v).lookup k' = (if P then some v else none).or (t.lookup k') := by
  rw [Finmap.lookup_insert_ite]
  by_cases h : P
  · rw [if_pos h, if_pos (hP.mpr h).symm, Option.some_or]
  · rw [if_neg h, if_neg fun heq => h (hP.mp heq.symm), Option.none_or]

/-- A payment method on record is the one the event published, or the one that was there. -/
theorem method_published (hv : e.Valid (step rt)) (k : Pubkey) (m : Bytes 32) :
    e.post.payment_methods.lookup (payment_method_address k m)
      = (published_method k m e).or (e.pre.payment_methods.lookup (payment_method_address k m)) := by
  have hkept : e.post.payment_methods = e.pre.payment_methods → published_method k m e = none →
      e.post.payment_methods.lookup (payment_method_address k m) = (published_method k m e).or
        (e.pre.payment_methods.lookup (payment_method_address k m)) := by
    intro hsame hnone
    rw [hsame, hnone, Option.none_or]
  -- of the six kinds of move, two publish; a new deposit publishes its first method
  have hquiet : NothingPublished e.ix e.pre e.post → _ := fun hrest =>
    hkept hrest.methods (published_method_quiet hrest.quiet k m)
  cases listing_move hv with
  | kept deposits rest => exact hquiet rest
  | counted _ d d' found deposits terms rest => exact hquiet rest
  | drained accounts is retain d owns deposits rest => exact hquiet rest
  | closed accounts is d owns idle deposits rest => exact hquiet rest
  | listed accounts args key is listed =>
    have hmethods := congrArg (·.payment_methods) listed.records
    simp only at hmethods
    rw [hmethods, lookup_insert_or e.pre.payment_methods
      (P := key = k ∧ args.payment_method = m) (by rw [Pubkey.pda_word.injEq]; simp)]
    simp only [published_method, is]
    rw [listed.key]
    -- the address of the new deposit may or may not be the one asked about
    by_cases hk : deposit_address escrow_config_address e.pre.escrow_config.next_deposit_id = k
    · rw [hk]
    · rw [if_neg fun h => hk h.1, if_neg fun h => hk h.1]
  | configured ix is write =>
    cases write with
    | method accounts args d configures records =>
      have hmethods := congrArg (·.payment_methods) records
      simp only at hmethods
      rw [hmethods, lookup_insert_or e.pre.payment_methods
        (P := accounts.deposit = k ∧ args.payment_method = m) (by rw [Pubkey.pda_word.injEq]; simp)]
      simp only [published_method, is]
      by_cases hk : accounts.deposit = k
      · rw [hk]
      · rw [if_neg fun h => hk h.1, if_neg fun h => hk h.1]
    | updated accounts args d configures appoints records =>
      exact hkept (congrArg (·.payment_methods) records) (by simp only [published_method, is])
    | currency accounts args d m' configures listed records =>
      exact hkept (congrArg (·.payment_methods) records) (by simp only [published_method, is])
    | manager accounts rate_manager manager d configures records =>
      exact hkept (congrArg (·.payment_methods) records) (by simp only [published_method, is])
    | expiry accounts additional_time d l signs found guardian lock key records =>
      exact hkept (congrArg (·.payment_methods) records) (by simp only [published_method, is])

/-- A currency on record is the one the event published, or the one that was there. -/
theorem currency_published (hv : e.Valid (step rt)) (k : Pubkey) (m c : Bytes 32) :
    e.post.currencies.lookup (deposit_currency_address k m c)
      = (published_currency k m c e).or
        (e.pre.currencies.lookup (deposit_currency_address k m c)) := by
  have hkept : e.post.currencies = e.pre.currencies → published_currency k m c e = none →
      e.post.currencies.lookup (deposit_currency_address k m c) = (published_currency k m c e).or
        (e.pre.currencies.lookup (deposit_currency_address k m c)) := by
    intro hsame hnone
    rw [hsame, hnone, Option.none_or]
  -- two kinds of move publish a currency, a new deposit its first one
  have hquiet : NothingPublished e.ix e.pre e.post → _ := fun hrest =>
    hkept hrest.currencies (published_currency_quiet hrest.quiet k m c)
  cases listing_move hv with
  | kept deposits rest => exact hquiet rest
  | counted _ d d' found deposits terms rest => exact hquiet rest
  | drained accounts is retain d owns deposits rest => exact hquiet rest
  | closed accounts is d owns idle deposits rest => exact hquiet rest
  | listed accounts args key is listed =>
    have hcurrencies := congrArg (·.currencies) listed.records
    simp only at hcurrencies
    rw [hcurrencies, lookup_insert_or e.pre.currencies
      (P := key = k ∧ args.payment_method = m ∧ args.currency = c)
      (by rw [Pubkey.pda_words.injEq]; simp)]
    simp only [published_currency, is]
    rw [listed.key]
    by_cases hk : deposit_address escrow_config_address e.pre.escrow_config.next_deposit_id = k
    · rw [hk]
    · rw [if_neg fun h => hk h.1, if_neg fun h => hk h.1]
  | configured ix is write =>
    cases write with
    | currency accounts args d m' configures listed records =>
      have hcurrencies := congrArg (·.currencies) records
      simp only at hcurrencies
      rw [hcurrencies, lookup_insert_or e.pre.currencies
        (P := accounts.deposit = k ∧ args.payment_method = m ∧ args.currency = c)
        (by rw [Pubkey.pda_words.injEq]; simp)]
      simp only [published_currency, is]
      by_cases hk : accounts.deposit = k
      · rw [hk]
      · rw [if_neg fun h => hk h.1, if_neg fun h => hk h.1]
    | updated accounts args d configures appoints records =>
      exact hkept (congrArg (·.currencies) records) (by simp only [published_currency, is])
    | method accounts args d configures records =>
      exact hkept (congrArg (·.currencies) records) (by simp only [published_currency, is])
    | manager accounts rate_manager manager d configures records =>
      exact hkept (congrArg (·.currencies) records) (by simp only [published_currency, is])
    | expiry accounts additional_time d l signs found guardian lock key records =>
      exact hkept (congrArg (·.currencies) records) (by simp only [published_currency, is])

end Published

/-! ## Whose instruction it is -/

section Makers

variable {rt : Runtime} {e : Event}

/-- The event is signed by the depositor of `k` or by the delegate in office. -/
def Makes (k : Pubkey) (e : Event) : Prop :=
  ∃ d o, e.pre.deposits.lookup k = some d ∧ (o = d.depositor ∨ d.delegate = some o)
    ∧ SignedByKey e o

/-- The event opens the deposit `k`, and its depositor signs it. -/
def Opens (k : Pubkey) (e : Event) : Prop :=
  e.pre.deposits.lookup k = none
    ∧ ∃ d, e.post.deposits.lookup k = some d ∧ SignedByKey e d.depositor

/-- The terms, the payment methods and the currencies of the deposit `k` are the same. -/
structure SameListing (k : Pubkey) (s s' : State) : Prop where
  terms : (s'.deposits.lookup k).map Deposit.terms = (s.deposits.lookup k).map Deposit.terms
  methods : ∀ m, s'.payment_methods.lookup (payment_method_address k m)
    = s.payment_methods.lookup (payment_method_address k m)
  currencies : ∀ m c, s'.currencies.lookup (deposit_currency_address k m c)
    = s.currencies.lookup (deposit_currency_address k m c)

theorem SameListing.trans {k : Pubkey} {s s' s'' : State} (h : SameListing k s s')
    (h' : SameListing k s' s'') : SameListing k s s'' :=
  ⟨h'.terms.trans h.terms, fun m => (h'.methods m).trans (h.methods m),
    fun m c => (h'.currencies m c).trans (h.currencies m c)⟩

/-- Where nothing is published, a listing changes with the terms of its deposit. -/
theorem NothingPublished.same_listing {s s' : State} {ix : TopLevel} {k : Pubkey}
    (h : NothingPublished ix s s')
    (hterms : (s'.deposits.lookup k).map Deposit.terms = (s.deposits.lookup k).map Deposit.terms) :
    SameListing k s s' :=
  ⟨hterms, fun _ => by rw [h.methods], fun _ _ => by rw [h.currencies]⟩

theorem terms_insert_ne {s s' : State} {k k' : Pubkey} {d : Deposit}
    (h : s'.deposits = s.deposits.insert k' d) (hk : k ≠ k') :
    (s'.deposits.lookup k).map Deposit.terms = (s.deposits.lookup k).map Deposit.terms := by
  rw [h, Finmap.lookup_insert_ite, if_neg hk]

/-- What an instruction of the maker of `k'` leaves of the other listings. -/
theorem Configures.makes {accounts : ConfigureDeposit} {ix : DepositConfigInstruction} {d : Deposit}
    (h : Configures accounts e.pre.toEscrowRecords d) (hix : e.ix = .program (.deposit_config ix))
    (hsigner : ix.signer = accounts.authority) : Makes accounts.deposit e := by
  refine ⟨d, accounts.authority, h.found, ?_, _, hix, hsigner, h.signs⟩
  rcases h.authority with hdepositor | hdelegate
  · exact .inl hdepositor.symm
  · exact .inr hdelegate

/-- The depositor who signs about its deposit is its maker. -/
theorem Owns.makes {depositor deposit : Pubkey} {ix : Instruction} {d : Deposit}
    (h : Owns depositor deposit e.pre.toEscrowRecords d) (hix : e.ix = .program ix)
    (hsigner : ix.signer = depositor) : Makes deposit e :=
  ⟨d, depositor, h.found, .inl h.depositor, ix, hix, hsigner, h.signs⟩

/-- Where an event publishes nothing about a deposit, its listing stands. -/
theorem SameListing.of_unpublished (hv : e.Valid (step rt)) {k : Pubkey}
    (hterms : (e.post.deposits.lookup k).map Deposit.terms
      = (e.pre.deposits.lookup k).map Deposit.terms)
    (hmethods : ∀ m, published_method k m e = none)
    (hcurrencies : ∀ m c, published_currency k m c e = none) : SameListing k e.pre e.post := by
  refine ⟨hterms, fun m => ?_, fun m c => ?_⟩
  · rw [method_published hv k m, hmethods, Option.none_or]
  · rw [currency_published hv k m c, hcurrencies, Option.none_or]

/-- A configuration is the maker's own, and leaves every other listing alone. -/
theorem configured_listing (hv : e.Valid (step rt)) {ix : DepositConfigInstruction}
    (hix : e.ix = .program (.deposit_config ix))
    (h : ListingWrite e.pre.toEscrowRecords e.post.toEscrowRecords ix) (k : Pubkey) :
    SameListing k e.pre e.post ∨ Makes k e := by
  cases h with
  | updated accounts args d configures appoints records =>
    -- about this deposit the instruction is its maker's, and about any other it says nothing
    by_cases hk : k = accounts.deposit
    · rw [hk]
      exact .inr (configures.makes hix rfl)
    · refine .inl (.of_unpublished hv (terms_insert_ne (congrArg (·.deposits) records) hk) ?_ ?_)
      · intro m
        simp only [published_method, hix]
      · intro m c
        simp only [published_currency, hix]
  | method accounts args d configures records =>
    by_cases hk : k = accounts.deposit
    · rw [hk]
      exact .inr (configures.makes hix rfl)
    · have hdeposits : e.post.deposits = e.pre.deposits := congrArg (·.deposits) records
      refine .inl (.of_unpublished hv (by rw [hdeposits]) ?_ ?_)
      · intro m
        simp only [published_method, hix]
        rw [if_neg fun h => hk h.1.symm]
      · intro m c
        simp only [published_currency, hix]
  | currency accounts args d m' configures listed records =>
    by_cases hk : k = accounts.deposit
    · rw [hk]
      exact .inr (configures.makes hix rfl)
    · have hdeposits : e.post.deposits = e.pre.deposits := congrArg (·.deposits) records
      refine .inl (.of_unpublished hv (by rw [hdeposits]) ?_ ?_)
      · intro m
        simp only [published_method, hix]
      · intro m c
        simp only [published_currency, hix]
        rw [if_neg fun h => hk h.1.symm]
  | manager accounts rate_manager manager d configures records =>
    by_cases hk : k = accounts.deposit
    · rw [hk]
      exact .inr (configures.makes hix rfl)
    · refine .inl (.of_unpublished hv (terms_insert_ne (congrArg (·.deposits) records) hk) ?_ ?_)
      · intro m
        simp only [published_method, hix]
      · intro m c
        simp only [published_currency, hix]
  -- an extension writes a lock and no listing, whoever may sign it
  | expiry accounts additional_time d l signs found guardian lock key records =>
    have hdeposits : e.post.deposits = e.pre.deposits := congrArg (·.deposits) records
    refine .inl (.of_unpublished hv (by rw [hdeposits]) ?_ ?_)
    · intro m
      simp only [published_method, hix]
    · intro m c
      simp only [published_currency, hix]

/-- A listing changes by an instruction of its maker, or when its deposit is opened. -/
theorem listing_changed (hv : e.Valid (step rt)) (k : Pubkey) :
    SameListing k e.pre e.post ∨ Opens k e ∨ Makes k e := by
  cases listing_move hv with
  | kept deposits rest => exact .inl (rest.same_listing (by rw [deposits]))
  -- the amounts are not part of a listing
  | counted k' d d' found deposits terms rest =>
    refine .inl (rest.same_listing ?_)
    by_cases hk : k = k'
    · rw [deposits, Finmap.lookup_insert_ite, if_pos hk, hk, found, Option.map_some, Option.map_some,
        terms]
    · exact terms_insert_ne deposits hk
  -- a withdrawal stops the offer, so it counts as the maker's
  | drained accounts is retain d owns deposits rest =>
    by_cases hk : k = accounts.deposit
    · rw [hk]
      exact .inr (.inr (owns.makes is rfl))
    · exact .inl (rest.same_listing (terms_insert_ne deposits hk))
  | closed accounts is d owns idle deposits rest =>
    by_cases hk : k = accounts.deposit
    · rw [hk]
      exact .inr (.inr (owns.makes is rfl))
    · refine .inl (rest.same_listing ?_)
      rw [deposits, Finmap.lookup_erase_ite, if_neg hk]
  | listed accounts args key is listed =>
    have hdeposits : e.post.deposits
        = e.pre.deposits.insert key (new_deposit accounts.depositor args e.pre.escrow_config) :=
      congrArg (·.deposits) listed.records
    by_cases hk : k = key
    · rw [hk]
      -- nothing was listed at this address before
      refine .inr (.inl ⟨listed.fresh, new_deposit accounts.depositor args e.pre.escrow_config, ?_, _,
        is, rfl, listed.signs⟩)
      rw [hdeposits, Finmap.lookup_insert_ite, if_pos rfl]
    · have hkey : ¬ deposit_address escrow_config_address e.pre.escrow_config.next_deposit_id = k := by
        rw [← listed.key]
        exact Ne.symm hk
      refine .inl (.of_unpublished hv (terms_insert_ne hdeposits hk) ?_ ?_)
      · intro m
        simp only [published_method, is]
        rw [if_neg fun h => hkey h.1]
      · intro m c
        simp only [published_currency, is]
        rw [if_neg fun h => hkey h.1]
  | configured ix is write =>
    rcases configured_listing hv is write k with hsame | hmakes
    · exact .inl hsame
    · exact .inr (.inr hmakes)

/-- What an event makes of the terms of a deposit that lives through it. -/
inductive TermsMove (e : Event) (k : Pubkey) (d d' : Deposit) : Prop
  | kept (terms : d'.terms = d.terms)
  | drained (retain : Bool) (terms : d'.terms = (drained d retain).terms)
      (signed : SignedByKey e d.depositor)
  | updated (args : UpdateDepositArgs) (terms : d'.terms = (updated_deposit d args).terms)
      (appoints : args.delegate.isSome = true → SignedByKey e d.depositor) (makes : Makes k e)
  | manager (manager : Option Pubkey) (terms : d'.terms = { d.terms with rate_manager := manager })
      (makes : Makes k e)

/-- Where one deposit is written, any other one is kept. -/
theorem TermsMove.of_insert {k k₁ : Pubkey} {d d' d₁ d₁' : Deposit}
    (hd : e.pre.deposits.lookup k = some d) (hd' : e.post.deposits.lookup k = some d')
    (hd₁ : e.pre.deposits.lookup k₁ = some d₁)
    (hdeposits : e.post.deposits = e.pre.deposits.insert k₁ d₁')
    (hmove : TermsMove e k₁ d₁ d₁') : TermsMove e k d d' := by
  rw [hdeposits, Finmap.lookup_insert_ite] at hd'
  by_cases hk : k = k₁
  · rw [if_pos hk] at hd'
    rw [hk, hd₁] at hd
    cases hd
    cases hd'
    rw [hk]
    exact hmove
  · rw [if_neg hk, hd] at hd'
    cases hd'
    exact .kept rfl

/-- The terms of a deposit that stays open change by an instruction of its maker or delegate, and
only as that instruction says. -/
theorem terms_move (hv : e.Valid (step rt)) {k : Pubkey} {d d' : Deposit}
    (hd : e.pre.deposits.lookup k = some d) (hd' : e.post.deposits.lookup k = some d') :
    TermsMove e k d d' := by
  have hkept : e.post.deposits = e.pre.deposits → TermsMove e k d d' := by
    intro hsame
    rw [hsame, hd] at hd'
    cases hd'
    exact .kept rfl
  cases listing_move hv with
  | kept deposits rest => exact hkept deposits
  | counted k₁ d₁ d₁' found deposits terms rest => exact .of_insert hd hd' found deposits (.kept terms)
  | drained accounts is retain d₁ owns deposits rest =>
    refine .of_insert hd hd' owns.found deposits (.drained retain rfl ⟨_, is, owns.depositor, ?_⟩)
    rw [← owns.depositor]
    exact owns.signs
  -- a closed deposit is not there afterwards, so the deposit in question is another one
  | closed accounts is d₁ owns idle deposits rest =>
    rw [deposits, Finmap.lookup_erase_ite] at hd'
    by_cases hk : k = accounts.deposit
    · rw [if_pos hk] at hd'
      cases hd'
    · rw [if_neg hk, hd] at hd'
      cases hd'
      exact .kept rfl
  -- nor is a new one the deposit that was there before
  | listed accounts args key is listed =>
    have hdeposits := congrArg (·.deposits) listed.records
    simp only at hdeposits
    rw [hdeposits, Finmap.lookup_insert_ite] at hd'
    by_cases hk : k = key
    · rw [hk, listed.fresh] at hd
      cases hd
    · rw [if_neg hk, hd] at hd'
      cases hd'
      exact .kept rfl
  | configured ix is write =>
    cases write with
    | updated accounts args d₁ configures appoints records =>
      have hdeposits : e.post.deposits
          = e.pre.deposits.insert accounts.deposit (updated_deposit d₁ args) :=
        congrArg (·.deposits) records
      -- a delegate may set the terms, but only the depositor appoints one
      refine .of_insert hd hd' configures.found hdeposits
        (.updated args rfl (fun hsome => ⟨_, is, appoints hsome, ?_⟩) (configures.makes is rfl))
      rw [← appoints hsome]
      exact configures.signs
    | manager accounts rate_manager manager d₁ configures records =>
      have hdeposits : e.post.deposits
          = e.pre.deposits.insert accounts.deposit { d₁ with rate_manager := manager } :=
        congrArg (·.deposits) records
      exact .of_insert hd hd' configures.found hdeposits
        (.manager manager rfl (configures.makes is rfl))
    | method accounts args d₁ configures records => exact hkept (congrArg (·.deposits) records)
    | currency accounts args d₁ m' configures listed records =>
      exact hkept (congrArg (·.deposits) records)
    | expiry accounts additional_time d₁ l signs found guardian lock key records =>
      exact hkept (congrArg (·.deposits) records)

/-- A deposit keeps its depositor, and only the depositor appoints its delegate. -/
theorem delegate_appointed (hv : e.Valid (step rt)) {k : Pubkey} {d d' : Deposit}
    (hd : e.pre.deposits.lookup k = some d) (hd' : e.post.deposits.lookup k = some d') :
    d'.depositor = d.depositor ∧ (d'.delegate = d.delegate ∨ SignedByKey e d.depositor) := by
  cases terms_move hv hd hd' with
  | kept terms =>
    exact ⟨congrArg DepositTerms.depositor terms, .inl (congrArg DepositTerms.delegate terms)⟩
  | drained retain terms signed => exact ⟨congrArg DepositTerms.depositor terms, .inr signed⟩
  | updated args terms appoints makes =>
    refine ⟨congrArg DepositTerms.depositor terms, ?_⟩
    have hdelegate : d'.delegate = args.delegate.getD d.delegate :=
      congrArg DepositTerms.delegate terms
    by_cases hsome : args.delegate.isSome = true
    · exact .inr (appoints hsome)
    · rw [Option.not_isSome_iff_eq_none] at hsome
      rw [hsome, Option.getD_none] at hdelegate
      exact .inl hdelegate
  | manager manager terms makes =>
    exact ⟨congrArg DepositTerms.depositor terms, .inl (congrArg DepositTerms.delegate terms)⟩

end Makers

/-! ## Whole runs -/

theorem genesis_unlisted {rt : Runtime} {s : State} (h : genesis rt s) :
    s.payment_methods = ∅ ∧ s.currencies = ∅ := by
  obtain ⟨_, _, _, _, _, _, _, -, -, -, rfl⟩ := genesis_initialized h
  exact ⟨rfl, rfl⟩

/-- While a deposit is live, nobody but its maker changes its listing. -/
theorem Run.listing_kept {rt : Runtime} {es : List Event} {s : State} (h : Run rt es s) {k : Pubkey}
    {past future : List Event} {e : Event} (hes : es = past ++ e :: future)
    (hlive : (e.pre.deposits.lookup k).isSome = true) (hothers : ∀ q ∈ e :: future, ¬ Makes k q) :
    SameListing k e.pre s := by
  have hspan := TxMachine.Run.span (G := fun q => ¬ Makes k q)
    (R := fun a b : State => (a.deposits.lookup k).isSome = true → SameListing k a b)
    ?_ ?_ h hes hothers
  · exact hspan hlive
  · intro a b c hab hbc ha
    have hsame := hab ha
    have hb : (b.deposits.lookup k).isSome = true := by
      rw [← Option.isSome_map (f := Deposit.terms), hsame.terms, Option.isSome_map]
      exact ha
    exact hsame.trans (hbc hb)
  · intro q hq hv hpre
    rcases listing_changed hv k with hsame | ⟨hfresh, -⟩ | hmakes
    · exact hsame
    · rw [hfresh] at hpre
      cases hpre
    · exact absurd hmakes hq

/-- A listing belongs to its maker: it is what was published last; an instruction that changes it
opens the deposit or is signed by the depositor or the delegate in office, whom only the depositor
appoints; and as long as neither of them signs, it stays. -/
theorem listings_are_the_makers {rt : Runtime} {es : List Event} {s : State} (h : Run rt es s)
    (k : Pubkey) :
    (∀ m, s.payment_methods.lookup (payment_method_address k m)
        = TxMachine.last_write (published_method k m) es)
      ∧ (∀ m c, s.currencies.lookup (deposit_currency_address k m c)
        = TxMachine.last_write (published_currency k m c) es)
      ∧ (∀ e ∈ es, (SameListing k e.pre e.post ∨ Opens k e ∨ Makes k e)
        ∧ ∀ d d', e.pre.deposits.lookup k = some d → e.post.deposits.lookup k = some d' →
          d'.depositor = d.depositor ∧ (d'.delegate = d.delegate ∨ SignedByKey e d.depositor))
      ∧ ∀ past e future, es = past ++ e :: future → (e.pre.deposits.lookup k).isSome = true →
        (∀ q ∈ e :: future, ¬ Makes k q) → SameListing k e.pre s := by
  refine ⟨fun m => ?_, fun m c => ?_, fun e he => ?_, fun past e future hes => h.listing_kept hes⟩
  · have hnone : ∀ s₀, genesis rt s₀ →
        s₀.payment_methods.lookup (payment_method_address k m) = none := by
      intro s₀ h₀
      rw [(genesis_unlisted h₀).1, Finmap.lookup_empty]
    exact TxMachine.Run.last_write (G := fun _ => True) hnone
      (fun e _ hv => method_published hv k m) h fun _ _ => trivial
  · have hnone : ∀ s₀, genesis rt s₀ →
        s₀.currencies.lookup (deposit_currency_address k m c) = none := by
      intro s₀ h₀
      rw [(genesis_unlisted h₀).2, Finmap.lookup_empty]
    exact TxMachine.Run.last_write (G := fun _ => True) hnone
      (fun e _ hv => currency_published hv k m c) h fun _ _ => trivial
  -- the change at one event, and with it the stretches without one
  · have hv := TxMachine.Run.valid h e he
    exact ⟨listing_changed hv k, fun d d' hd hd' => delegate_appointed hv hd hd'⟩

/-- No instruction of the maker, as a check on logs: the deposit has no delegate, and somebody else
signs. -/
def Event.made_by_others (k : Pubkey) (e : Event) : Bool :=
  match e.pre.deposits.lookup k with
  | none => true
  | some d => decide (d.delegate = none) && Event.unsigned_by d.depositor e

theorem Event.not_makes {k : Pubkey} {e : Event} (h : Event.made_by_others k e = true) :
    ¬ Makes k e := by
  rintro ⟨d, o, hd, ho, hsigned⟩
  unfold Event.made_by_others at h
  rw [hd] at h
  simp only [Bool.and_eq_true, decide_eq_true_eq] at h
  rcases ho with rfl | hdelegate
  · exact Event.not_signed h.2 hsigned
  · rw [h.1] at hdelegate
    cases hdelegate

/-- A taker covers and signals an intent on the sample deposit: the listing is the published one. -/
theorem listings_are_the_makers_signaled :
    ∃ es s past e future, Run sample_runtime es s ∧ es = past ++ e :: future
      ∧ (s.intents.lookup sample_intent).isSome = true ∧ SameListing sample_deposit e.pre s
      ∧ (s.payment_methods.lookup (payment_method_address sample_deposit (sample_word 21))).map
        DepositPaymentMethod.payee_details = some (sample_word 22) := by
  obtain ⟨es, s, hrun, hgood⟩ := sample_reaches [sample_setup, sample_cover]
    (fun es s => decide ((s.intents.lookup sample_intent).isSome = true)
      && decide ((TxMachine.last_write (published_method sample_deposit (sample_word 21)) es).map
        DepositPaymentMethod.payee_details = some (sample_word 22))
      && match es.drop 6 with
        | [] => false
        | e :: future => decide ((e.pre.deposits.lookup sample_deposit).isSome = true)
          && (e :: future).all (Event.made_by_others sample_deposit)) (by decide +kernel)
  simp only [Bool.and_eq_true, decide_eq_true_eq] at hgood
  obtain ⟨⟨hsignaled, hpublished⟩, hgood⟩ := hgood
  have hsplit := List.take_append_drop 6 es
  cases hdrop : es.drop 6 with
  | nil =>
    rw [hdrop] at hgood
    cases hgood
  | cons e future =>
    rw [hdrop] at hgood hsplit
    simp only [Bool.and_eq_true, decide_eq_true_eq, List.all_eq_true] at hgood
    obtain ⟨hlive, hothers⟩ := hgood
    obtain ⟨hmethods, -, -, hkept⟩ := listings_are_the_makers hrun sample_deposit
    refine ⟨es, s, es.take 6, e, future, hrun, hsplit.symm, hsignaled,
      hkept _ e future hsplit.symm hlive fun q hq => Event.not_makes (hothers q hq), ?_⟩
    rw [hmethods, hpublished]

end Zkp2pSolana
