/-
The terms of a settlement are fixed when the intent is signaled.

Configuration is spread over many records, and each of five roles may rewrite its
own at any time: rate managers, oracles, makers and their guardians, curators,
governance, stake owners. A settlement reads none of it. What it does read and
write is its `settlement_view`: configuration keeps the view, and two states with
one view settle alike, to the same view.
-/
import Zkp2pSolana.CustodyMoves
import Zkp2pSolana.LifecycleMoves
import Zkp2pSolana.Replay

set_option autoImplicit false

namespace Zkp2pSolana

open Result Zkp2pError

/-! ## What a settlement reads and writes -/

/-- A deposit without its settings. -/
structure DepositLedger where
  escrow_config : Pubkey
  id : ℕ
  depositor : Pubkey
  token_mint : Pubkey
  remaining_deposits : ℕ
  outstanding_intent_amount : ℕ
  active_intents : ℕ

def Deposit.ledger (d : Deposit) : DepositLedger where
  escrow_config := d.escrow_config
  id := d.id
  depositor := d.depositor
  token_mint := d.token_mint
  remaining_deposits := d.remaining_deposits
  outstanding_intent_amount := d.outstanding_intent_amount
  active_intents := d.active_intents

/-- A lock without its expiry. -/
structure LockLedger where
  deposit : Pubkey
  intent_hash : Bytes 32
  orchestrator : Pubkey
  amount : ℕ
  timestamp : ℤ

def EscrowIntentLock.ledger (l : EscrowIntentLock) : LockLedger where
  deposit := l.deposit
  intent_hash := l.intent_hash
  orchestrator := l.orchestrator
  amount := l.amount
  timestamp := l.timestamp

/-- The part of the state that settlements read and write. -/
structure SettlementView where
  paused : Bool
  verifier_config : Pubkey
  protocol_fee : ℕ
  protocol_fee_recipient : Pubkey
  deposits : Pubkey → Option DepositLedger
  intent_locks : Pubkey → Option LockLedger
  intents : Accounts Intent
  taker_states : Accounts TakerIntentState
  stake : StakeRecords
  verifier : VerifierRecords
  dispute_intents : Accounts DisputeIntent
  tokens : Accounts TokenAccount

def settlement_view (s : State) : SettlementView where
  paused := s.orchestrator.paused
  verifier_config := s.orchestrator.verifier_config
  protocol_fee := s.orchestrator.protocol_fee
  protocol_fee_recipient := s.orchestrator.protocol_fee_recipient
  deposits k := (s.deposits.lookup k).map Deposit.ledger
  intent_locks k := (s.intent_locks.lookup k).map EscrowIntentLock.ledger
  intents := s.intents
  taker_states := s.taker_states
  stake := s.toStakeRecords
  verifier := s.toVerifierRecords
  dispute_intents := s.dispute_intents
  tokens := s.tokens

/-! ## Configuration keeps the view -/

/-- The instructions that configure, and neither move funds nor change what settlements charge. -/
def reconfigures : TopLevel → Bool
  -- oracle quotes, the authorisation of takers and the selection of a stake owner
  | .program (.open_records _) => true
  | .program (.rate_managers _) => true
  | .program (.whitelists _) => true
  | .program (.dispute_policy _) => true
  -- the maker's settings and the guardian's extension of an expiry
  | .program (.deposit_config _) => true
  | .program (.governance (.configure_escrow _ _)) => true
  -- only the policy and the limit on concurrent intents
  | .program (.governance (.configure_orchestrator _ args)) =>
    args.protocol_fee.isNone && args.protocol_fee_recipient.isNone && args.paused.isNone
  | _ => false

/-- Writing back an entry that projects to the same. -/
theorem lookup_map_insert {α β : Type} {m : Accounts α} {k : Pubkey} {v w : α} {f : α → β}
    (hv : m.lookup k = some v) (hw : f w = f v) :
    (fun k' => ((m.insert k w).lookup k').map f) = fun k' => (m.lookup k').map f := by
  funext k'
  rw [Finmap.lookup_insert_ite]
  split_ifs with hk
  · rw [hk, hv, Option.map_some, Option.map_some, hw]
  · rfl

/-- Reconfiguring a deposit shows in nothing that settlement reads of it. -/
theorem deposit_config_view {ix : DepositConfigInstruction} {managers : Accounts RateManager}
    {r r' : EscrowRecords} (h : ix.execute managers r = .ok r') :
    (fun k => (r'.deposits.lookup k).map Deposit.ledger)
        = (fun k => (r.deposits.lookup k).map Deposit.ledger)
      ∧ (fun k => (r'.intent_locks.lookup k).map EscrowIntentLock.ledger)
        = fun k => (r.intent_locks.lookup k).map EscrowIntentLock.ledger := by
  cases deposit_config_write h with
  | deposit k d d' found terms counters records =>
    subst records
    have hledger : d'.ledger = d.ledger := by
      unfold Deposit.ledger
      rw [terms.escrow_config, terms.id, terms.depositor, terms.token_mint, counters.remaining,
        counters.outstanding, counters.active]
    exact ⟨lookup_map_insert found hledger, rfl⟩
  | payment_method k m records | currency k c key floor spread records =>
    subst records
    exact ⟨rfl, rfl⟩
  | lock k l expiry found later capped records =>
    subst records
    exact ⟨rfl, lookup_map_insert found rfl⟩

theorem reconfigures_view {rt : Runtime} {ctx : TxContext} {before after : List TopLevel}
    {s s' : State} {ix : TopLevel} (hix : reconfigures ix = true)
    (h : ix.execute rt ctx before after s = .ok s') : settlement_view s' = settlement_view s := by
  unfold reconfigures at hix
  split at hix
  -- three groups write records of their own that are no part of the view
  case h_1 | h_2 | h_3 =>
    simp only [TopLevel.execute, Instruction.execute, bind_eq_ok, pure_eq_ok] at h
    obtain ⟨_, -, rfl⟩ := h
    rfl
  · simp only [TopLevel.execute, Instruction.execute, bind_eq_ok, pure_eq_ok] at h
    obtain ⟨_, h, rfl⟩ := h
    obtain ⟨hcoverage, -⟩ := dispute_policy_keeps h
    unfold settlement_view
    rw [hcoverage]
  · simp only [TopLevel.execute, Instruction.execute, bind_eq_ok, pure_eq_ok] at h
    obtain ⟨_, h, rfl⟩ := h
    obtain ⟨hdeposits, hlocks⟩ := deposit_config_view h
    unfold settlement_view
    rw [hdeposits, hlocks]
  · simp only [TopLevel.execute, Instruction.execute, GovernanceInstruction.execute,
      handle_configure_escrow, bind_eq_ok, pure_eq_ok] at h
    obtain ⟨_, -, _, -, _, -, _, -, _, -, _, -, _, -, rfl⟩ := h
    rfl
  · simp only [Bool.and_eq_true, Option.isNone_iff_eq_none] at hix
    obtain ⟨⟨hfee, hrecipient⟩, hpaused⟩ := hix
    simp only [TopLevel.execute, Instruction.execute, GovernanceInstruction.execute,
      handle_configure_orchestrator, bind_eq_ok, pure_eq_ok] at h
    obtain ⟨_, -, _, -, _, -, _, -, _, -, rfl⟩ := h
    unfold settlement_view
    simp only [hfee, hrecipient, hpaused, Option.getD_none]
  · cases hix

/-! ## One view, one settlement -/

section Alike

variable {s s' t : State}

/-- Records that look the same are found at the same addresses. -/
theorem lookup_of_map {α β : Type} {m m' : Accounts α} {f : α → β} {k : Pubkey} {v : α}
    (h : (fun k => (m'.lookup k).map f) = fun k => (m.lookup k).map f)
    (hv : m.lookup k = some v) : ∃ w, m'.lookup k = some w ∧ f w = f v := by
  have hk := congrFun h k
  rw [hv, Option.map_some] at hk
  exact Option.map_eq_some_iff.mp hk

/-- The same live intent, up to configuration. -/
structure SameLive (live live' : LiveIntent) : Prop where
  intent : live'.intent = live.intent
  deposit : live'.deposit.ledger = live.deposit.ledger
  lock : live'.lock.ledger = live.lock.ledger
  taker_state : live'.taker_state = live.taker_state

/-- The terminals load the same intent from two states that look the same. -/
theorem live_intent_view {k : Pubkey} {live : LiveIntent} (h : live_intent k s = .ok live)
    (hview : settlement_view t = settlement_view s) :
    ∃ live', live_intent k t = .ok live' ∧ SameLive live live' := by
  obtain ⟨hi, hkey, hd, hl, hstate⟩ := live_intent_ok h
  have hintents : t.intents = s.intents := congrArg SettlementView.intents hview
  have hstates : t.taker_states = s.taker_states := congrArg SettlementView.taker_states hview
  obtain ⟨d', hd', hdeposit⟩ := lookup_of_map (congrArg SettlementView.deposits hview) hd
  obtain ⟨l', hl', hlock⟩ := lookup_of_map (congrArg SettlementView.intent_locks hview) hl
  refine ⟨⟨live.intent, d', l', live.taker_state⟩, ?_, rfl, hdeposit, hlock, rfl⟩
  simp only [live_intent, bind_eq_ok, load_eq_ok, require_eq_ok, exists_const, pure_eq_ok, hintents,
    hstates]
  exact ⟨live.intent, hi, hkey, d', hd', l', hl', live.taker_state, hstate, rfl⟩

/-- Settling depends on the amounts of a deposit and on nothing else of it. -/
theorem Deposit.settle_ledger {d d' d₁ : Deposit} {locked released : ℕ}
    (h : d.settle locked released = .ok d₁) (hledger : d'.ledger = d.ledger) :
    ∃ d₁', d'.settle locked released = .ok d₁' ∧ d₁'.ledger = d₁.ledger := by
  simp only [Deposit.ledger, DepositLedger.mk.injEq] at hledger
  obtain ⟨hconfig, hid, hdepositor, hmint, hremaining, houtstanding, hactive⟩ := hledger
  simp only [Deposit.settle, bind_eq_ok, require_eq_ok, exists_const, pure_eq_ok] at h
  obtain ⟨hpos, hle, outstanding, ho, remainder, hr, remaining, hm, count, hc, rfl⟩ := h
  simp only [Deposit.settle, bind_eq_ok, require_eq_ok, exists_const, pure_eq_ok, hremaining,
    houtstanding, hactive]
  refine ⟨_, ⟨hpos, hle, outstanding, ho, remainder, hr, remaining, hm, count, hc, rfl⟩, ?_⟩
  simp only [Deposit.ledger, hconfig, hid, hdepositor, hmint]

/-- Coverage settles alike: the same records are written. -/
theorem settle_dispute_view {ctx : TxContext} {i : Intent} {accounts : SettlementDisputeAccounts}
    {r : ℕ} {s₁ : State} (h : settle_dispute_if_covered ctx i accounts r s = .ok s₁)
    (hview : settlement_view t = settlement_view s) :
    settle_dispute_if_covered ctx i accounts r t = .ok { t with
        toStakeRecords := s₁.toStakeRecords
        dispute_intents := s₁.dispute_intents } := by
  have hstake : t.toStakeRecords = s.toStakeRecords := congrArg SettlementView.stake hview
  have hcoverage : t.dispute_intents = s.dispute_intents :=
    congrArg SettlementView.dispute_intents hview
  have hlocks : t.stake_locks = s.stake_locks := congrArg StakeRecords.stake_locks hstake
  have hpositions : t.stake_positions = s.stake_positions :=
    congrArg StakeRecords.stake_positions hstake
  have hvault : t.stake_vault = s.stake_vault := congrArg StakeRecords.stake_vault hstake
  rcases settle_dispute_replay h with ⟨-, rfl, hagain⟩ | ⟨-, d, l, p, p', hsettled, hagain⟩
  · rw [hagain t, ← hstake, ← hcoverage]
  · refine hagain t _ p p' (by rw [hvault]) ⟨?_, hsettled.pending, hsettled.positive, ?_, ?_,
      hsettled.owner, hsettled.bounded, hsettled.shrunk, ?_⟩
    · rw [hcoverage]
      exact hsettled.dispute_eq
    · rw [hlocks]
      exact hsettled.lock
    · rw [hpositions]
      exact hsettled.position
    · rw [hsettled.post, hcoverage, hlocks, hpositions, ← hstake]

/-- Views that agree still agree after one entry is written or removed in both. -/
theorem map_insert_congr {α β : Type} {m m' : Accounts α} {f : α → β} {k : Pubkey} {v w : α}
    (h : (fun k => (m'.lookup k).map f) = fun k => (m.lookup k).map f) (hw : f w = f v) :
    (fun k' => ((m'.insert k w).lookup k').map f) = fun k' => ((m.insert k v).lookup k').map f := by
  funext k'
  rw [Finmap.lookup_insert_ite, Finmap.lookup_insert_ite]
  split_ifs
  · rw [Option.map_some, Option.map_some, hw]
  · exact congrFun h k'

/-- Erasing the same key keeps two maps looking the same. -/
theorem map_erase_congr {α β : Type} {m m' : Accounts α} {f : α → β} (k : Pubkey)
    (h : (fun k => (m'.lookup k).map f) = fun k => (m.lookup k).map f) :
    (fun k' => ((m'.erase k).lookup k').map f) = fun k' => ((m.erase k).lookup k').map f := by
  funext k'
  rw [Finmap.lookup_erase_ite, Finmap.lookup_erase_ite]
  split_ifs
  · rfl
  · exact congrFun h k'

/-- Closing the same intent keeps two states looking the same. -/
theorem closed_state_view {k : Pubkey} {live live' : LiveIntent} {deposit deposit' : Deposit}
    {s₁ t₁ : State} (hlive : SameLive live live') (hdeposit : deposit'.ledger = deposit.ledger)
    (hview : settlement_view t₁ = settlement_view s₁) :
    settlement_view (closed_state k live' deposit' t₁)
      = settlement_view (closed_state k live deposit s₁) := by
  simp only [settlement_view, SettlementView.mk.injEq] at hview
  obtain ⟨hpaused, hconfig, hfee, hrecipient, hdeposits, hlocks, hintents, hstates, hstake, hverifier,
    hcoverage, htokens⟩ := hview
  simp only [settlement_view, closed_state, hlive.intent, hlive.taker_state, SettlementView.mk.injEq]
  refine ⟨hpaused, hconfig, hfee, hrecipient, map_insert_congr hdeposits hdeposit,
    map_erase_congr _ hlocks, ?_, ?_, hstake, hverifier, hcoverage, htokens⟩
  · rw [hintents]
  · rw [hstates]

theorem Shifted.refl (T : Accounts TokenAccount) : Shifted (fun _ => 0) T T :=
  ⟨.refl T, fun _ => (add_zero _).symm⟩

theorem Shifted.eq {T U : Accounts TokenAccount} (h : Shifted (fun _ => 0) T U) : U = T := by
  refine h.accounts.ext fun k => ?_
  have hk := h.amount k
  omega

/-- Two states with one view settle an intent alike. -/
theorem settle_intent_view {ctx : TxContext} {k : Pubkey} {live live' : LiveIntent}
    {tokens : SettlementTokenAccounts} {dispute : SettlementDisputeAccounts}
    {remaining_accounts : List AccountInfo} {r : ℕ}
    (h : settle_intent ctx k live tokens dispute remaining_accounts r s = .ok s')
    (hview : settlement_view t = settlement_view s) (hlive : SameLive live live')
    (hT : TokensOk s.tokens) :
    ∃ t', settle_intent ctx k live' tokens dispute remaining_accounts r t = .ok t'
      ∧ settlement_view t' = settlement_view s' := by
  obtain ⟨s₁, deposit, T, hdispute, hdeposit, -, hpost⟩ := settle_intent_ok h
  have htokens : t.tokens = s.tokens := congrArg SettlementView.tokens hview
  have hamount : live'.lock.amount = live.lock.amount := congrArg LockLedger.amount hlive.lock
  obtain ⟨deposit', hdeposit', hledger⟩ := Deposit.settle_ledger hdeposit hlive.deposit
  rw [← hamount] at hdeposit'
  have hactive : 1 ≤ live.taker_state.active_intents := by
    simp only [settle_intent, bind_eq_ok, close_intent_ok] at h
    obtain ⟨_, -, _, -, _, -, _, -, hactive, -⟩ := h
    exact hactive
  -- what a replay asks of the other state, with a shift of zero because the tokens are the same
  have hoffers : OffersSettlement (fun _ => 0) s s' t live live' := by
    refine ⟨⟨congrArg SettlementView.protocol_fee hview,
      congrArg SettlementView.protocol_fee_recipient hview⟩, ?_, ?_, ?_, hlive.intent, ?_, ?_⟩
    · rw [htokens]
      exact .refl _
    · rw [htokens]
      exact hT
    · rw [add_zero]
      exact Int.natCast_nonneg _
    · exact ⟨congrArg DepositLedger.escrow_config hlive.deposit,
        congrArg DepositLedger.id hlive.deposit, congrArg DepositLedger.token_mint hlive.deposit⟩
    · rw [hlive.taker_state]
      exact hactive
  obtain ⟨U, hgo, hU⟩ :=
    settle_intent_replay h hoffers (settle_dispute_view hdispute hview) hdeposit'
  refine ⟨_, hgo, ?_⟩
  -- the same tokens before and the same payments, so the same tokens after
  have hUT : U = T := by
    rw [hpost] at hU
    exact hU.eq
  rw [hpost, hUT]
  refine closed_state_view hlive hledger ?_
  rw [settle_dispute_rest hdispute]
  simp only [settlement_view, SettlementView.mk.injEq] at hview ⊢
  obtain ⟨hpaused, hconfig, hfee, hrecipient, hdeposits, hlocks, hintents, hstates, -, hverifier, -,
    -⟩ := hview
  exact ⟨hpaused, hconfig, hfee, hrecipient, hdeposits, hlocks, hintents, hstates, trivial, hverifier,
    trivial, trivial⟩

/-- A manual release runs the same on both states. -/
theorem manual_release_view {ctx : TxContext} {accounts : ManualRelease}
    (h : handle_manual_release ctx accounts s = .ok s')
    (hview : settlement_view t = settlement_view s) (hT : TokensOk s.tokens) :
    ∃ t', handle_manual_release ctx accounts t = .ok t'
      ∧ settlement_view t' = settlement_view s' := by
  simp only [handle_manual_release, bind_eq_ok, signer_eq_ok, require_eq_ok, exists_const] at h ⊢
  obtain ⟨hsign, live, hlive, howner, hhash, hsettle⟩ := h
  obtain ⟨live', hlive', hsame⟩ := live_intent_view hlive hview
  obtain ⟨t', hgo, hview'⟩ := settle_intent_view hsettle hview hsame hT
  have hdepositor : live'.deposit.depositor = live.deposit.depositor :=
    congrArg DepositLedger.depositor hsame.deposit
  have hlock : live'.lock.intent_hash = live.lock.intent_hash :=
    congrArg LockLedger.intent_hash hsame.lock
  refine ⟨t', ⟨hsign, live', hlive', ?_, ?_, ?_⟩, hview'⟩
  · rw [hdepositor, howner]
  · rw [hlock, hsame.intent, hhash]
  · rw [hsame.intent, hgo]

theorem fulfill_intent_view {rt : Runtime} {ctx : TxContext} {accounts : FulfillIntent}
    {args : FulfillIntentArgs} (h : handle_fulfill_intent rt ctx accounts args s = .ok s')
    (hview : settlement_view t = settlement_view s) (hT : TokensOk s.tokens) :
    ∃ t', handle_fulfill_intent rt ctx accounts args t = .ok t'
      ∧ settlement_view t' = settlement_view s' := by
  have hpaused : t.orchestrator.paused = s.orchestrator.paused := congrArg SettlementView.paused hview
  have hconfig : t.orchestrator.verifier_config = s.orchestrator.verifier_config :=
    congrArg SettlementView.verifier_config hview
  have hverifier : t.toVerifierRecords = s.toVerifierRecords :=
    congrArg SettlementView.verifier hview
  simp only [handle_fulfill_intent, bind_eq_ok, signer_eq_ok, init_eq_ok, require_eq_ok,
    exists_const, pure_eq_ok] at h ⊢
  obtain ⟨hsign, hopen, hverify_config, live, hlive, hhash, hlock, hpayment, hintent, nullifier,
    hverify, hnullifier, s₁, hsettle, rfl⟩ := h
  obtain ⟨live', hlive', hsame⟩ := live_intent_view hlive hview
  obtain ⟨t', hgo, hview'⟩ := settle_intent_view hsettle hview hsame hT
  have hlock' : live'.lock.intent_hash = live.lock.intent_hash :=
    congrArg LockLedger.intent_hash hsame.lock
  refine ⟨_, ⟨hsign, ?_, ?_, live', hlive', ?_, ?_, ?_, ?_, nullifier, ?_, hnullifier, t', ?_, rfl⟩,
    ?_⟩
  · rw [hpaused, hopen]
  · rw [hconfig, hverify_config]
  · rw [hsame.intent, hhash]
  · rw [hlock', hsame.intent, hlock]
  · rw [hverifier, hpayment]
  · rw [hverifier, hsame.intent, hintent]
  · rw [hverifier, hsame.intent, hverify]
  · rw [hsame.intent, hgo]
  · -- the binding is written into records that agree
    simp only [settlement_view, SettlementView.mk.injEq] at hview' ⊢
    obtain ⟨h₁, h₂, h₃, h₄, h₅, h₆, h₇, h₈, h₉, h₁₀, h₁₁, h₁₂⟩ := hview'
    rw [hsame.intent, h₁₀]
    exact ⟨h₁, h₂, h₃, h₄, h₅, h₆, h₇, h₈, h₉, rfl, h₁₁, h₁₂⟩

end Alike

/-! ## Runs -/

/-- The two settlements, from `s` to `s'` and from `t` to `t'`, are one settlement. -/
structure SameSettlement (s s' t t' : State) : Prop where
  before : settlement_view t = settlement_view s
  after : settlement_view t' = settlement_view s'
  /-- They make the same payments in the same order. -/
  payments : ∃ vault mint authority ps, pay_all vault mint authority ps s.tokens = .ok s'.tokens
    ∧ pay_all vault mint authority ps t.tokens = .ok t'.tokens

/-- The instruction settles an intent. -/
def settles : TopLevel → Bool
  | .program (.fulfill_intent _ _) => true
  | .program (.manual_release _) => true
  | _ => false

/-- The two together: what settles on one state settles on the other, with the same payments and the
same records. -/
theorem settles_view {rt : Runtime} {ctx : TxContext} {before after : List TopLevel}
    {s s' t : State} {ix : TopLevel} (hix : settles ix = true)
    (h : ix.execute rt ctx before after s = .ok s')
    (hview : settlement_view t = settlement_view s) (hT : TokensOk s.tokens) :
    ∃ t', ix.execute rt ctx before after t = .ok t' ∧ SameSettlement s s' t t' := by
  have htokens : t.tokens = s.tokens := congrArg SettlementView.tokens hview
  -- the payments of the first run are the payments of the second: the tokens are the same
  have hsame : ∀ t', settlement_view t' = settlement_view s' →
      (∃ vault mint authority ps, pay_all vault mint authority ps s.tokens = .ok s'.tokens) →
      SameSettlement s s' t t' := by
    intro t' hview' hpays
    have htokens' : t'.tokens = s'.tokens := congrArg SettlementView.tokens hview'
    obtain ⟨vault, mint, authority, ps, hpaid⟩ := hpays
    refine ⟨hview, hview', vault, mint, authority, ps, hpaid, ?_⟩
    rw [htokens, htokens', hpaid]
  unfold settles at hix
  split at hix
  · rename_i accounts args
    obtain ⟨t', hgo, hview'⟩ := fulfill_intent_view h hview hT
    obtain ⟨live, s₁, -, -, -, -, -, hsettle, hpost⟩ := fulfill_intent_ok h
    have hpays := settle_intent_payments hsettle
    refine ⟨t', hgo, hsame t' hview' ?_⟩
    rw [hpost]
    exact hpays
  · rename_i accounts
    obtain ⟨t', hgo, hview'⟩ := manual_release_view h hview hT
    obtain ⟨live, -, -, -, hsettle⟩ := manual_release_ok h
    exact ⟨t', hgo, hsame t' hview' (settle_intent_payments hsettle)⟩
  · cases hix

/-- In every state of every run, configuration leaves what settlements read and write alone, and so
a settlement that succeeds before it succeeds after it, with the same payments and the same
records. -/
theorem settlement_terms_fixed {rt : Runtime} {es cs : List Event} {s t : State} (h : Run rt es s)
    (hcs : TxMachine.Run (· = s) (step rt) cs t) (hconfig : ∀ e ∈ cs, reconfigures e.ix = true)
    {ctx : TxContext} {before after : List TopLevel} {ix : TopLevel} (hix : settles ix = true)
    {s' : State} (hok : ix.execute rt ctx before after s = .ok s') :
    ∃ t', ix.execute rt ctx before after t = .ok t' ∧ SameSettlement s s' t t' := by
  obtain ⟨⟨htokens, -⟩, -⟩ := Run.ledgerOk h
  have hview := TxMachine.Run.invariant (I := fun t => settlement_view t = settlement_view s)
    (G := fun e => reconfigures e.ix = true) ?_ ?_ hcs hconfig
  · exact settles_view hix hok hview.1 htokens
  · intro s₀ hs₀
    rw [hs₀]
  · intro e he hv hpre
    rw [reconfigures_view he hv, hpre]

/-- Governance and the maker change their settings while the covered intent is live. -/
def sample_reconfigure : TxContext × List TopLevel :=
  (sample_ctx 2500,
    [.program (.dispute_policy (.set_risk_window ⟨sample_authority⟩ (sample_word 21) 60)),
      .program (.dispute_policy (.set_dispute_admissions_paused ⟨sample_authority⟩ true)),
      .program (.governance (.configure_orchestrator ⟨sample_authority⟩
        ⟨none, none, none, some true, none⟩)),
      .program (.deposit_config (.update_deposit ⟨sample_depositor, sample_deposit⟩
        ⟨none, none, some ⟨50, 60⟩, some false, none⟩))])

/-- The manual release of the covered intent, before and after that. -/
theorem settlement_terms_fixed_released :
    ∃ es s cs t s' t' ix, Run sample_runtime es s ∧ ix ∈ sample_manual_release.2
      ∧ TxMachine.Run (· = s) (step sample_runtime) cs t ∧ cs.length = 4
      ∧ (∀ e ∈ cs, reconfigures e.ix = true)
      ∧ ix.execute sample_runtime (sample_ctx 3000) [] [] s = .ok s'
      ∧ ix.execute sample_runtime (sample_ctx 3000) [] [] t = .ok t' ∧ SameSettlement s s' t t' := by
  obtain ⟨es, s, hrun, hgood⟩ := sample_reaches [sample_setup, sample_cover]
    (fun _ s => ((TxMachine.execute_all (fun ctx before after s ix =>
        TopLevel.execute sample_runtime ctx before after s ix) [sample_reconfigure] s).toOption.any
          fun r => r.1.length == 4 && r.1.all fun e => reconfigures e.ix)
      && ((sample_manual_release.2.head (by decide)).execute sample_runtime (sample_ctx 3000) [] []
        s).toOption.isSome) (by decide +kernel)
  simp only [Bool.and_eq_true] at hgood
  obtain ⟨hconfig, hrelease⟩ := hgood
  obtain ⟨s', hs'⟩ := exists_of_isSome hrelease
  cases hcs : TxMachine.execute_all (fun ctx before after s ix =>
      TopLevel.execute sample_runtime ctx before after s ix) [sample_reconfigure] s with
  | error e =>
    rw [hcs] at hconfig
    cases hconfig
  | ok r =>
    rw [hcs] at hconfig
    simp only [Except.toOption, Option.any_some, Bool.and_eq_true, beq_iff_eq,
      List.all_eq_true] at hconfig
    have hinit : TxMachine.Run (· = s) (step sample_runtime) [] s := .init rfl
    have hrun' : TxMachine.Run (· = s) (step sample_runtime) r.1 r.2 :=
      TxMachine.Run.of_execute_all hinit hcs
    obtain ⟨t', hgo, hsame⟩ := settlement_terms_fixed hrun hrun' hconfig.2 rfl hs'
    exact ⟨es, s, r.1, r.2, s', t', _, hrun, List.head_mem _, hrun', hconfig.1, hconfig.2, hs', hgo,
      hsame⟩

end Zkp2pSolana
