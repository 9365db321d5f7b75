/-
The program is a market of reservations.

What the escrow and the orchestrator are for, apart from tokens, payments, rates
and stake, is said by `Market`: makers put up deposits, takers reserve parts of
them, and each reservation ends once. An instruction is an order to that market
([`TopLevel.order`]), or none of its business. The market that is given the orders
of a run, one after the other, accepts every one of them, and its book then agrees
with the records of the program ([`Agrees`]): the same numbers issued, the same
makers, the same liquidity, the same reservations.
-/
import Zkp2pSolana.IntentLives
import Zkp2pSolana.Lib.Market
import Zkp2pSolana.Lib.TxHistory

set_option autoImplicit false

namespace Zkp2pSolana

open Result Zkp2pError Market

/-! ## Orders -/

/-- Deposits and intents are named by their addresses. -/
def market_names : Naming Pubkey Pubkey where
  deposit := deposit_address escrow_config_address
  reservation := intent_address orchestrator_address
  reservation_injective := Numbered.address_injective .intent

/-- What an instruction asks of the market. -/
def TopLevel.order : TopLevel → Order Pubkey Pubkey Pubkey
  | .program (.custody (.create_deposit accounts args)) => .opens accounts.depositor args.amount
  | .program (.custody (.add_funds accounts amount)) => .adds accounts.deposit amount
  | .program (.custody (.remove_funds accounts amount)) =>
    .takes accounts.depositor accounts.deposit amount
  | .program (.custody (.withdraw_deposit accounts)) =>
    .takes_all accounts.depositor accounts.deposit
  | .program (.signal_intent accounts args) => .reserves accounts.taker accounts.deposit args.amount
  | .program (.cancel_intent accounts) => .cancels accounts.owner accounts.intent
  | .program (.prune_expired_intent accounts) => .lapses accounts.intent
  | .program (.fulfill_intent accounts args) => .pays accounts.intent args.attestation.release_amount
  | .program (.manual_release accounts) => .releases accounts.depositor accounts.intent
  | _ => .rests

/-- The reservation an intent is. -/
def Intent.reservation (i : Intent) : Reservation Pubkey Pubkey where
  deposit := i.deposit
  taker := i.owner
  amount := i.amount

/-! ## Agreement -/

/-- The book and the escrow agree on the deposit at `k`. -/
def AgreesAt (b : Book Pubkey market_names) (k : Pubkey) : Option Deposit → Prop
  | some d => b.maker k = some d.depositor ∧ b.free k = d.remaining_deposits
    ∧ b.reserved k = d.outstanding_intent_amount
  | none => b.free k = 0 ∧ b.reserved k = 0

/-- The book says what the records say. -/
structure Agrees (b : Book Pubkey market_names) (s : State) : Prop where
  deposits : b.deposits = s.escrow_config.next_deposit_id
  reservations : b.reservations = s.orchestrator.next_intent_id
  accounts : ∀ k, AgreesAt b k (s.deposits.lookup k)
  held : ∀ k, b.held k = (s.intents.lookup k).map Intent.reservation

section Agreement

variable {b b' : Book Pubkey market_names} {s s' : State} {k : Pubkey} {d d' : Deposit}

/-- The agreement of the two markets, at one deposit that exists. -/
theorem Agrees.account (h : Agrees b s) (hd : s.deposits.lookup k = some d) :
    AgreesAt b k (some d) := by
  rw [← hd]
  exact h.accounts k

/-- Agreement on a deposit that the book and the escrow leave alone. -/
theorem AgreesAt.same {o : Option Deposit} (h : AgreesAt b k o) (hmaker : b'.maker k = b.maker k)
    (hfree : b'.free k = b.free k) (hreserved : b'.reserved k = b.reserved k) : AgreesAt b' k o := by
  cases o with
  | none => exact ⟨hfree.trans h.1, hreserved.trans h.2⟩
  | some d => exact ⟨hmaker.trans h.1, hfree.trans h.2.1, hreserved.trans h.2.2⟩

/-- If only the deposit at `k` is written, in the book and in the escrow, they agree on all if they
agree on it. -/
theorem Agrees.accounts_write (h : Agrees b s)
    (hothers : ∀ k', k' ≠ k → s'.deposits.lookup k' = s.deposits.lookup k'
      ∧ b'.maker k' = b.maker k' ∧ b'.free k' = b.free k' ∧ b'.reserved k' = b.reserved k')
    (hk : AgreesAt b' k (s'.deposits.lookup k)) (k' : Pubkey) :
    AgreesAt b' k' (s'.deposits.lookup k') := by
  by_cases hsame : k' = k
  · rw [hsame]
    exact hk
  · obtain ⟨hlookup, hmaker, hfree, hreserved⟩ := hothers k' hsame
    rw [hlookup]
    exact (h.accounts k').same hmaker hfree hreserved

/-- What is free of the deposit at `k` is set; the deposits and reservations are the same ones. -/
theorem Agrees.set_free (h : Agrees b s) {amount : ℕ}
    (hnext : s'.escrow_config.next_deposit_id = s.escrow_config.next_deposit_id)
    (hsame : SameIntents s s') (hothers : ∀ k', k' ≠ k → s'.deposits.lookup k' = s.deposits.lookup k')
    (hk : AgreesAt (b.set_free k amount) k (s'.deposits.lookup k)) :
    Agrees (b.set_free k amount) s' := by
  refine ⟨h.deposits.trans hnext.symm, h.reservations.trans hsame.2.symm, ?_, fun k' => ?_⟩
  · exact h.accounts_write
      (fun k' hk' => ⟨hothers k' hk', rfl, by rw [Book.set_free_free, if_neg hk'],
        b.set_free_reserved k amount k'⟩) hk
  · rw [hsame.1]
    exact h.held k'

end Agreement

/-! ## One instruction -/

section Orders

variable {rt : Runtime} {e : Event} {b : Book Pubkey market_names}

/-- A new deposit is opened under the next number. -/
theorem Agrees.listed (h : Agrees b e.pre) (hsame : SameIntents e.pre e.post)
    {accounts : CreateDeposit} {args : CreateDepositArgs} {k : Pubkey}
    (hlisted : Listed accounts args e.pre.toEscrowRecords e.post.toEscrowRecords k) :
    Agrees (b.open_deposit accounts.depositor args.amount) e.post := by
  have hrecords := hlisted.records
  have hdeposits : e.post.deposits = e.pre.deposits.insert k
      (new_deposit accounts.depositor args e.pre.escrow_config) := congrArg (·.deposits) hrecords
  -- the book names the deposit by its number, the program by the address that number derives
  have hkey : market_names.deposit b.deposits = k := by
    rw [h.deposits]
    exact hlisted.key.symm
  -- nothing is reserved under a name that was never in use
  have hfresh : AgreesAt b k none := by
    rw [← show e.pre.deposits.lookup k = none from hlisted.fresh]
    exact h.accounts k
  refine ⟨?_, h.reservations.trans hsame.2.symm, ?_, fun k' => ?_⟩
  · rw [congrArg (·.escrow_config.next_deposit_id) hrecords]
    exact congrArg (· + 1) h.deposits
  · refine h.accounts_write (k := k) (fun k' hk' => ?_) ?_
    · have hne : k' ≠ market_names.deposit b.deposits := by
        rw [hkey]
        exact hk'
      exact ⟨by rw [hdeposits, Finmap.lookup_insert_of_ne _ hk'],
        by rw [Book.open_deposit_maker, if_neg hne], by rw [Book.open_deposit_free, if_neg hne],
        b.open_deposit_reserved accounts.depositor args.amount k'⟩
    · rw [hdeposits, Finmap.lookup_insert, ← hkey]
      refine ⟨?_, ?_, ?_⟩
      · rw [Book.open_deposit_maker, if_pos rfl]
        rfl
      · rw [Book.open_deposit_free, if_pos rfl]
        rfl
      · rw [Book.open_deposit_reserved, hkey]
        exact hfresh.2
  · rw [hsame.1]
    exact h.held k'

/-- A custody instruction is an order that the market takes. -/
theorem Agrees.custody (h : Agrees b e.pre) (hsame : SameIntents e.pre e.post)
    {ix : CustodyInstruction}
    (hwrite : HoldingWrite e.pre.toEscrowRecords e.post.toEscrowRecords ix)
    (hcovered : ∀ accounts amount, ix = .remove_funds accounts amount →
      ∀ d, e.pre.deposits.lookup accounts.deposit = some d → amount ≤ d.remaining_deposits) :
    ∃ b', b.act (TopLevel.order (.program (.custody ix))) = some b' ∧ Agrees b' e.post := by
  have hinsert : ∀ k d', e.post.toEscrowRecords = { e.pre.toEscrowRecords with
      deposits := e.pre.deposits.insert k d' } → ∀ amount, b.maker k = some d'.depositor →
      amount = d'.remaining_deposits → b.reserved k = d'.outstanding_intent_amount →
      Agrees (b.set_free k amount) e.post := by
    intro k d' hrecords amount hmaker hfree hreserved
    have hdeposits : e.post.deposits = e.pre.deposits.insert k d' := congrArg (·.deposits) hrecords
    have hk : AgreesAt (b.set_free k amount) k (some d') :=
      ⟨hmaker, by rw [Book.set_free_free, if_pos rfl, hfree],
        (b.set_free_reserved k amount k).trans hreserved⟩
    refine h.set_free (congrArg (·.escrow_config.next_deposit_id) hrecords) hsame (fun k' hk' => ?_) ?_
    · rw [hdeposits, Finmap.lookup_insert_of_ne _ hk']
    · rw [hdeposits, Finmap.lookup_insert]
      exact hk
  cases hwrite with
  | listed accounts args k listed => exact ⟨_, rfl, h.listed hsame listed⟩
  | added accounts amount d found running records =>
    obtain ⟨hmaker, hfree, hreserved⟩ := h.account found
    have hsome : (b.maker accounts.deposit).isSome := by
      rw [hmaker]
      rfl
    exact ⟨_, Book.act_adds hsome amount, hinsert _ _ records _ hmaker (by rw [hfree]) hreserved⟩
  | taken accounts amount d owns running records =>
    obtain ⟨hmaker, hfree, hreserved⟩ := h.account owns.found
    have hle := hcovered accounts amount rfl d owns.found
    rw [← hfree] at hle
    exact ⟨_, Book.act_takes (owns.depositor ▸ hmaker) hle,
      hinsert _ _ records _ hmaker (by rw [hfree]) hreserved⟩
  | drained accounts retain d owns records =>
    obtain ⟨hmaker, hfree, hreserved⟩ := h.account owns.found
    exact ⟨_, Book.act_takes_all (owns.depositor ▸ hmaker), hinsert _ _ records 0 hmaker rfl hreserved⟩
  | closed accounts d owns idle records =>
    obtain ⟨hmaker, hfree, hreserved⟩ := h.account owns.found
    have hdeposits : e.post.deposits = e.pre.deposits.erase accounts.deposit :=
      congrArg (·.deposits) records
    refine ⟨_, Book.act_takes_all (owns.depositor ▸ hmaker), h.set_free
      (congrArg (·.escrow_config.next_deposit_id) records) hsame (fun k' hk' => ?_) ?_⟩
    · rw [hdeposits, Finmap.lookup_erase_ne hk']
    · -- nothing of a deposit that is closed is reserved
      rw [hdeposits, Finmap.lookup_erase]
      refine ⟨?_, ?_⟩
      · rw [Book.set_free_free, if_pos rfl]
      · rw [Book.set_free_reserved]
        exact hreserved.trans idle.2.1

/-- A signal reserves part of a deposit under the next number. -/
theorem Agrees.opened (h : Agrees b e.pre) {i : Intent} (hopened : IntentOpened b.reservations e i)
    (hnext : e.post.escrow_config.next_deposit_id = e.pre.escrow_config.next_deposit_id)
    (hintents : e.post.intents = e.pre.intents.insert (market_names.reservation b.reservations) i)
    (hnumber : e.post.orchestrator.next_intent_id = e.pre.orchestrator.next_intent_id + 1) :
    (b.maker i.deposit).isSome = true ∧ i.amount ≤ b.free i.deposit
      ∧ Agrees (b.reserve i.owner i.deposit i.amount) e.post := by
  obtain ⟨d, d', hd, hd', hremaining, houtstanding, hterms⟩ := hopened.reserved
  obtain ⟨hmaker, hfree, hreserved⟩ := h.account hd
  have hdepositor : d'.depositor = d.depositor := congrArg DepositTerms.depositor hterms
  refine ⟨by rw [hmaker]; rfl, by omega, h.deposits.trans hnext.symm, ?_, ?_, fun k => ?_⟩
  · rw [hnumber]
    exact congrArg (· + 1) h.reservations
  · refine h.accounts_write (k := i.deposit) (fun k hk => ⟨hopened.others k hk, rfl, ?_, ?_⟩) ?_
    · rw [Book.reserve_free, if_neg hk]
    · rw [Book.reserve_reserved, if_neg (Ne.symm hk), Nat.add_zero]
    -- the free part of the book shrinks by what the reservation adds, as the deposit's does
    · rw [hd']
      refine ⟨?_, ?_, ?_⟩
      · rw [hdepositor]
        exact hmaker
      · rw [Book.reserve_free, if_pos rfl]
        omega
      · rw [Book.reserve_reserved, if_pos rfl]
        omega
  -- the reservation held under the new number is what the intent says
  · rw [hintents, Finmap.lookup_insert_ite, Book.reserve_held]
    by_cases hk : k = market_names.reservation b.reservations
    · rw [if_pos hk, if_pos hk]
      rfl
    · rw [if_neg hk, if_neg hk]
      exact h.held k

/-- What ends an intent settles its reservation. -/
theorem Agrees.ended (h : Agrees b e.pre) {k : Pubkey} {i : Intent} {released : ℕ}
    (hi : e.pre.intents.lookup k = some i) (hended : IntentEnded rt k e i released)
    (hnext : e.post.escrow_config.next_deposit_id = e.pre.escrow_config.next_deposit_id)
    (hintents : e.post.intents = e.pre.intents.erase k)
    (hnumber : e.post.orchestrator.next_intent_id = e.pre.orchestrator.next_intent_id) :
    b.held k = some i.reservation ∧ Agrees (b.settle k i.reservation released) e.post := by
  have hheld : b.held k = some i.reservation := by
    rw [h.held, hi]
    rfl
  obtain ⟨d, d', hd, hd', hremaining, houtstanding, hterms⟩ := hended.freed
  obtain ⟨hmaker, hfree, hreserved⟩ := h.account hd
  have hdepositor : d'.depositor = d.depositor := congrArg DepositTerms.depositor hterms
  have hbounded := hended.bounded
  have hsettled := b.settle_reserved hheld released
  refine ⟨hheld, h.deposits.trans hnext.symm, h.reservations.trans hnumber.symm, ?_, fun k' => ?_⟩
  · refine h.accounts_write (k := i.deposit) (fun k' hk' => ⟨hended.others k' hk', rfl, ?_, ?_⟩) ?_
    · rw [Book.settle_free]
      exact if_neg hk'
    · have hpart : i.reservation.part k' = 0 := if_neg (Ne.symm hk')
      have hsum := hsettled k'
      omega
    -- the part that is paid leaves the book; the rest of the reservation is free again
    · rw [hd']
      refine ⟨?_, ?_, ?_⟩
      · rw [hdepositor]
        exact hmaker
      · have hsettle : (b.settle k i.reservation released).free i.deposit
            = b.free i.deposit + (i.amount - released) := by
          rw [Book.settle_free]
          exact if_pos rfl
        omega
      · have hpart : i.reservation.part i.deposit = i.amount := if_pos rfl
        have hsum := hsettled i.deposit
        omega
  -- and the number holds nothing any more
  · rw [hintents, Finmap.lookup_erase_ite, Book.settle_held]
    by_cases hk : k' = k
    · rw [if_pos hk, if_pos hk]
      rfl
    · rw [if_neg hk, if_neg hk]
      exact h.held k'

/-- Instructions that are neither custody nor configuration of a deposit, and neither open nor end an
intent, leave the deposits alone. -/
theorem deposits_kept (hv : e.Valid (step rt)) (hcustody : ∀ ix, e.ix ≠ .program (.custody ix))
    (hconfig : ∀ ix, e.ix ≠ .program (.deposit_config ix))
    (hquiet : Numbered.intent.creates e.ix = false) (hends : ended_intent e.ix = none) :
    e.post.deposits = e.pre.deposits := by
  have hok : e.ix.execute rt e.ctx e.before e.after e.pre = .ok e.post := hv
  generalize e.ix = ix at hok hcustody hconfig hquiet hends
  cases ix with
  | ed25519 data | external tokens =>
    simp only [TopLevel.execute, bind_eq_ok, require_eq_ok, exists_const, pure_eq_ok] at hok
    rw [← hok.2]
  | program ix =>
    cases ix with
    | open_records ix | rate_managers ix | whitelists ix | verifier ix | dispute_policy ix =>
      simp only [TopLevel.execute, Instruction.execute, bind_eq_ok, pure_eq_ok] at hok
      obtain ⟨_, -, hpost⟩ := hok
      rw [← hpost]
    | stake ix =>
      simp only [TopLevel.execute, Instruction.execute, bind_eq_ok, pure_eq_ok, Prod.exists] at hok
      obtain ⟨_, _, -, hpost⟩ := hok
      rw [← hpost]
    | governance ix =>
      have hexecute : ix.execute e.ctx e.pre = .ok e.post := hok
      cases governance_write hexecute with
      | protocol _ p post | orchestrator accounts args o nonce post | escrow accounts args o post
      | proposed accounts pending candidate valid_at post | accepted accounts post => rw [post]
    -- the two groups that write deposits are excluded, and so are the signal and the endings
    | deposit_config ix => exact absurd rfl (hconfig ix)
    | custody ix => exact absurd rfl (hcustody ix)
    | signal_intent accounts args => cases hquiet
    | cancel_intent accounts | prune_expired_intent accounts | manual_release accounts => cases hends
    | fulfill_intent accounts args => cases hends
    | prepare_dispute accounts args =>
      obtain ⟨_, _, _, _, _, _, hprepared, -⟩ := prepare_dispute_ok hok
      rw [hprepared.post]
    | cancel_dispute accounts => rw [cancel_dispute_rest hok]
    | release_matured_dispute accounts =>
      obtain ⟨_, _, _, _, -, -, -, -, -, -, -, -, hpost⟩ := release_matured_dispute_ok hok
      rw [hpost]
    | submit_dispute accounts args =>
      obtain ⟨_, _, _, _, _, _, hdisputed, -⟩ := submit_dispute_ok hok
      rw [hdisputed.post]

/-- Such instructions are no orders, and open no deposit. -/
theorem order_rests {ix : TopLevel} (hquiet : Numbered.intent.creates ix = false)
    (hends : ended_intent ix = none) (hcustody : ∀ ix', ix ≠ .program (.custody ix'))
    (hconfig : ∀ ix', ix ≠ .program (.deposit_config ix')) :
    ix.order = .rests ∧ Numbered.deposit.creates ix = false := by
  cases ix with
  | ed25519 data | external tokens => exact ⟨rfl, rfl⟩
  | program ix =>
    cases ix with
    | custody ix => exact absurd rfl (hcustody ix)
    | deposit_config ix => exact absurd rfl (hconfig ix)
    | signal_intent accounts args => cases hquiet
    | cancel_intent accounts | prune_expired_intent accounts | manual_release accounts => cases hends
    | fulfill_intent accounts args => cases hends
    | open_records ix | rate_managers ix | whitelists ix | verifier ix | dispute_policy ix | stake ix
    | governance ix | cancel_dispute accounts | release_matured_dispute accounts => exact ⟨rfl, rfl⟩
    | prepare_dispute accounts args | submit_dispute accounts args => exact ⟨rfl, rfl⟩

/-- Configuring a deposit is none of the market's business. -/
theorem Agrees.configured (h : Agrees b e.pre) (hsame : SameIntents e.pre e.post)
    {ix : DepositConfigInstruction}
    (hwrite : ListingWrite e.pre.toEscrowRecords e.post.toEscrowRecords ix) : Agrees b e.post := by
  -- a deposit with the same maker and counters is written, or none
  have hagrees : e.post.escrow_config.next_deposit_id = e.pre.escrow_config.next_deposit_id →
      (∀ k, AgreesAt b k (e.post.deposits.lookup k)) → Agrees b e.post := by
    intro hnext haccounts
    refine ⟨h.deposits.trans hnext.symm, h.reservations.trans hsame.nonce.symm, haccounts, ?_⟩
    rw [hsame.intents]
    exact h.held
  have hinsert : ∀ k d d', e.post.toEscrowRecords = { e.pre.toEscrowRecords with
      deposits := e.pre.deposits.insert k d' } → e.pre.deposits.lookup k = some d →
      AgreesAt b k (some d') → Agrees b e.post := by
    intro k d d' hrecords hd hk
    have hdeposits : e.post.deposits = e.pre.deposits.insert k d' := congrArg (·.deposits) hrecords
    refine hagrees (congrArg (·.escrow_config.next_deposit_id) hrecords)
      (h.accounts_write (k := k) (fun k' hk' => ⟨?_, rfl, rfl, rfl⟩) ?_)
    · rw [hdeposits, Finmap.lookup_insert_of_ne _ hk']
    · rw [hdeposits, Finmap.lookup_insert]
      exact hk
  have hkept : e.post.escrow_config = e.pre.escrow_config → e.post.deposits = e.pre.deposits →
      Agrees b e.post := by
    intro hconfig hdeposits
    refine hagrees (congrArg (·.next_deposit_id) hconfig) ?_
    rw [hdeposits]
    exact h.accounts
  cases hwrite with
  | updated accounts args d configures appoints records =>
    have hk : AgreesAt b accounts.deposit (some d) := h.account configures.found
    exact hinsert _ d _ records configures.found hk
  | manager accounts rate_manager manager d configures records =>
    have hk : AgreesAt b accounts.deposit (some d) := h.account configures.found
    exact hinsert _ d _ records configures.found hk
  | method accounts args d configures records =>
    exact hkept (congrArg (·.escrow_config) records) (congrArg (·.deposits) records)
  | currency accounts args d m configures listed records =>
    exact hkept (congrArg (·.escrow_config) records) (congrArg (·.deposits) records)
  | expiry accounts additional_time d l signs found guardian lock key records =>
    exact hkept (congrArg (·.escrow_config) records) (congrArg (·.deposits) records)

/-- The counter of the deposits moves only when one is opened. -/
theorem deposit_number_kept (hv : e.Valid (step rt))
    (hquiet : Numbered.deposit.creates e.ix = false) :
    e.post.escrow_config.next_deposit_id = e.pre.escrow_config.next_deposit_id := by
  cases number_move hv .deposit with
  | kept _ next_eq => exact next_eq
  | created creates =>
    rw [creates] at hquiet
    cases hquiet

/-- The order of a signal. -/
theorem Agrees.signals (h : Agrees b e.pre) (hv : e.Valid (step rt))
    (hcreates : Numbered.intent.creates e.ix = true) :
    ∃ b', b.act e.ix.order = some b' ∧ Agrees b' e.post := by
  obtain ⟨⟨accounts, args, hix⟩, -⟩ := creates_intent hcreates
  obtain ⟨i, hopened, hintents, hnext⟩ := intent_opened hv hix
  rw [← h.reservations] at hopened hintents
  have hkept := deposit_number_kept hv (by rw [hix]; rfl)
  obtain ⟨hmaker, hfree, hagrees⟩ := h.opened hopened hkept hintents hnext
  obtain ⟨accounts', args', hix', -, hterms⟩ := hopened.signaled
  rw [hix] at hix'
  cases hix'
  rw [hterms.deposit] at hmaker hfree hagrees
  rw [hterms.amount] at hfree hagrees
  rw [hterms.owner] at hagrees
  refine ⟨_, ?_, hagrees⟩
  rw [hix]
  exact Book.act_reserves accounts.taker hmaker hfree

/-- Each way to end an intent is an order to settle its reservation for what is released. -/
theorem Agrees.ending_order (h : Agrees b e.pre) {k : Pubkey} {i : Intent} {released : ℕ}
    (hheld : b.held k = some i.reservation) (hended : IntentEnded rt k e i released) :
    b.act e.ix.order = some (b.settle k i.reservation released) := by
  have hnames := hended.names
  -- an ending is an order of its taker, of its maker, or of nobody: the book asks the same party
  -- that signed
  cases hended.how with
  | cancelled hix howner _ =>
    rw [hix] at hnames ⊢
    cases hnames
    have hcancels := Book.act_cancels hheld
    rw [show i.reservation.taker = _ from howner.symm] at hcancels
    exact hcancels
  | pruned hix _ _ =>
    rw [hix] at hnames ⊢
    cases hnames
    exact Book.act_lapses hheld
  | fulfilled hix _ =>
    rw [hix] at hnames ⊢
    cases hnames
    exact Book.act_pays hheld _
  | released hix hd hmaker _ =>
    rw [hix] at hnames ⊢
    cases hnames
    have hbook := (h.account hd).1
    rw [← hmaker] at hbook
    exact Book.act_releases hheld hbook

/-- The order of what ends an intent. -/
theorem Agrees.ends (h : Agrees b e.pre) (hv : e.Valid (step rt)) (hs : CustodyInv rt e.pre)
    {k : Pubkey} (hends : ended_intent e.ix = some k) :
    ∃ b', b.act e.ix.order = some b' ∧ Agrees b' e.post := by
  have hquiet : Numbered.deposit.creates e.ix = false := by
    generalize e.ix = ix at hends
    unfold ended_intent at hends
    split at hends
    all_goals first | rfl | cases hends
  obtain ⟨i, released, hi, hended, hintents, hnumber⟩ := intent_ended hv hs hends
  obtain ⟨hheld, hagrees⟩ := h.ended hi hended (deposit_number_kept hv hquiet) hintents hnumber
  exact ⟨_, h.ending_order hheld hended, hagrees⟩

/-- Every event is an order that the market takes. -/
theorem Agrees.step (h : Agrees b e.pre) (hv : e.Valid (step rt)) (hs : CustodyInv rt e.pre)
    (hT : TokensOk e.pre.tokens) : ∃ b', b.act e.ix.order = some b' ∧ Agrees b' e.post := by
  -- signals and endings first: they are what the reservations of the book stand for
  by_cases hcreates : Numbered.intent.creates e.ix = true
  · exact h.signals hv hcreates
  have hquiet : Numbered.intent.creates e.ix = false := Bool.eq_false_iff.mpr hcreates
  cases hends : ended_intent e.ix with
  | some k => exact h.ends hv hs hends
  | none =>
    obtain ⟨hintents, hnext⟩ := intents_kept hv hquiet hends
    have hsame : SameIntents e.pre e.post := ⟨hintents, hnext⟩
    by_cases hcustody : ∃ ix, e.ix = .program (.custody ix)
    · obtain ⟨ix, hix⟩ := hcustody
      have hok := valid_execute hv hix
      simp only [TopLevel.execute, Instruction.execute, bind_eq_ok, pure_eq_ok, Prod.exists] at hok
      obtain ⟨r', T', hok, hpost⟩ := hok
      have hrecords : e.post.toEscrowRecords = r' := by rw [← hpost]
      rw [hix]
      refine h.custody hsame (by rw [hrecords]; exact holding_write hok) ?_
      -- the book refuses to free more than is free, and so does `remove_funds`
      intro accounts amount heq d hd
      rw [heq] at hok
      obtain ⟨d', hd', hle, -⟩ := remove_funds_ok hT hok
      rw [hd] at hd'
      cases hd'
      exact hle
    by_cases hconfig : ∃ ix, e.ix = .program (.deposit_config ix)
    · obtain ⟨ix, hix⟩ := hconfig
      have hok := valid_execute hv hix
      simp only [TopLevel.execute, Instruction.execute, bind_eq_ok, pure_eq_ok] at hok
      obtain ⟨r', hok, hpost⟩ := hok
      have hrecords : e.post.toEscrowRecords = r' := by rw [← hpost]
      rw [hix]
      exact ⟨b, rfl, h.configured hsame (by rw [hrecords]; exact listing_write hok)⟩
    -- whatever is left is no order at all and writes nothing the book knows of
    obtain ⟨hrests, hopens⟩ := order_rests hquiet hends (fun ix hix => hcustody ⟨ix, hix⟩)
      (fun ix hix => hconfig ⟨ix, hix⟩)
    have hdeposits := deposits_kept hv (fun ix hix => hcustody ⟨ix, hix⟩)
      (fun ix hix => hconfig ⟨ix, hix⟩) hquiet hends
    refine ⟨b, by rw [hrests]; rfl, h.deposits.trans (deposit_number_kept hv hopens).symm,
      h.reservations.trans hnext.symm, ?_, ?_⟩
    · rw [hdeposits]
      exact h.accounts
    · rw [hintents]
      exact h.held

end Orders

/-! ## Whole runs -/

/-- The book that a market makes of the instructions of a log, if it takes them all. -/
def market_book (es : List Event) : Option (Book Pubkey market_names) :=
  (es.map fun e => e.ix.order).foldlM Book.act (Book.empty Pubkey market_names)

/-- The program refines the market. The market takes all orders of a run, one after the other; its book
then is the book that the records of the program are, at the end and before every event. -/
theorem orders_make_the_market {rt : Runtime} {es : List Event} {s : State} (h : Run rt es s) :
    (∃ b, market_book es = some b ∧ Agrees b s)
      ∧ ∀ past e future, es = past ++ e :: future →
        ∃ b, market_book past = some b ∧ Agrees b e.pre := by
  obtain ⟨-, hcustody⟩ := Run.own_locks h
  refine TxMachine.Run.replays (G := (· ∈ es)) (fun s₀ h₀ => ?_)
    (fun e he hv b hb => hb.step hv (hcustody e he).1.2.1 (hcustody e he).1.1.tokens) h fun _ he => he
  obtain ⟨_, _, _, _, _, _, _, rfl, -⟩ := genesis_ok h₀
  exact ⟨rfl, rfl, fun k => ⟨rfl, Book.empty_reserved k⟩, fun k => rfl⟩

/-- On the sample cluster an intent waits: its market has one reservation, and what it takes of the
deposit is not free. -/
theorem orders_make_the_market_covered :
    ∃ es s b d i, Run sample_runtime es s ∧ market_book es = some b
      ∧ s.deposits.lookup sample_deposit = some d ∧ s.intents.lookup sample_intent = some i
      ∧ b.reservations = 1 ∧ b.held sample_intent = some i.reservation
      ∧ b.free sample_deposit = d.remaining_deposits
      ∧ b.reserved sample_deposit = d.outstanding_intent_amount ∧ 0 < d.outstanding_intent_amount := by
  obtain ⟨es, s, hrun, hgood⟩ := sample_reaches [sample_setup, sample_cover]
    (fun _ s => decide (s.orchestrator.next_intent_id = 1)
      && (s.intents.lookup sample_intent).isSome
      && (s.deposits.lookup sample_deposit).any fun d : Deposit =>
        decide (0 < d.outstanding_intent_amount)) (by decide +kernel)
  simp only [Bool.and_eq_true, decide_eq_true_eq, Option.any_eq_true] at hgood
  obtain ⟨⟨hnext, hlive⟩, d, hd, hpositive⟩ := hgood
  obtain ⟨i, hi⟩ := Option.isSome_iff_exists.mp hlive
  obtain ⟨⟨b, hbook, hagrees⟩, -⟩ := orders_make_the_market hrun
  obtain ⟨-, hfree, hreserved⟩ := hagrees.account hd
  refine ⟨es, s, b, d, i, hrun, hbook, hd, hi, hagrees.reservations.trans hnext, ?_, hfree, hreserved,
    hpositive⟩
  rw [hagrees.held, hi]
  rfl

end Zkp2pSolana
