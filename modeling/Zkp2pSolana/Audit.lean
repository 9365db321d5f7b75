/-
The books of the program can be audited from its log.

What the program owes is recorded in its accounts: a deposit's remaining and
outstanding principal, a stake owner's balance, a beneficiary's claim. Each of
these numbers is also determined by the instructions executed so far, read off
their arguments: all that was put in, less all that was paid out. The two agree
in every run, whoever funds, takes, cancels, prunes, settles and disputes in
whichever order, so that no update is lost or made twice.
-/
import Zkp2pSolana.Lib.TxHistory
import Zkp2pSolana.Disputes
import Zkp2pSolana.Resolution

set_option autoImplicit false

namespace Zkp2pSolana

open Result Zkp2pError

/-! ## Deposits -/

/-- What is owed on the deposit at `k`, nothing when there is none. -/
def State.liability (k : Pubkey) (s : State) : ℕ := (s.deposits.lookup k).elim 0 Deposit.liability

/-- What the event puts into the deposit at `k`. -/
def funded (k : Pubkey) (e : Event) : ℕ :=
  match e.ix with
  | .program (.custody (.create_deposit _ args)) =>
    if deposit_address escrow_config_address e.pre.escrow_config.next_deposit_id = k then
      args.amount
    else 0
  | .program (.custody (.add_funds accounts amount)) =>
    if accounts.deposit = k then amount else 0
  | _ => 0

/-- What a settlement of the intent at `intent` takes out of the deposit at `k`. -/
def settled_from (k intent : Pubkey) (released : Intent → ℕ) (s : State) : ℕ :=
  (s.intents.lookup intent).elim 0 fun i => if i.deposit = k then released i else 0

/-- What the event pays out of the deposit at `k`. -/
def paid_out (k : Pubkey) (e : Event) : ℕ :=
  match e.ix with
  | .program (.custody (.remove_funds accounts amount)) =>
    if accounts.deposit = k then amount else 0
  | .program (.custody (.withdraw_deposit accounts)) =>
    if accounts.deposit = k then
      (e.pre.deposits.lookup k).elim 0 Deposit.remaining_deposits
    else 0
  | .program (.fulfill_intent accounts args) =>
    settled_from k accounts.intent (fun i => Min.min args.attestation.release_amount i.amount) e.pre
  | .program (.manual_release accounts) => settled_from k accounts.intent Intent.amount e.pre
  | _ => 0

section Deposits

variable {s s' : State} {k : Pubkey}

/-- Writing one deposit changes the liability to it and to no other. -/
theorem State.liability_insert {k₀ : Pubkey} {d : Deposit}
    (h : s'.deposits = s.deposits.insert k₀ d) (k : Pubkey) :
    s'.liability k = if k = k₀ then d.liability else s.liability k := by
  unfold State.liability
  rw [h, Finmap.lookup_insert_ite]
  split_ifs
  · rfl
  · rfl

theorem State.liability_erase {k₀ : Pubkey} (h : s'.deposits = s.deposits.erase k₀) (k : Pubkey) :
    s'.liability k = if k = k₀ then 0 else s.liability k := by
  unfold State.liability
  rw [h, Finmap.lookup_erase_ite]
  split_ifs
  · rfl
  · rfl

/-- The liability to a deposit that exists is what its record says. -/
theorem State.liability_some {d : Deposit} (h : s.deposits.lookup k = some d) :
    s.liability k = d.liability := by
  unfold State.liability
  rw [h]
  rfl

theorem State.liability_of_deposits (h : s'.deposits = s.deposits) (k : Pubkey) :
    s'.liability k = s.liability k := by
  unfold State.liability
  rw [h]

/-- One deposit owes `x` more and `y` less than before, and no other changes. -/
theorem State.liability_update {k₀ : Pubkey} {d d' : Deposit} {x y : ℕ}
    (hd : s.deposits.lookup k₀ = some d) (h : s'.deposits = s.deposits.insert k₀ d')
    (hamount : d'.liability + y = d.liability + x) (k : Pubkey) :
    s'.liability k + (if k₀ = k then y else 0) = s.liability k + if k₀ = k then x else 0 := by
  rw [State.liability_insert h]
  by_cases hk : k = k₀
  · rw [if_pos hk, if_pos hk.symm, if_pos hk.symm, hk, State.liability_some hd]
    exact hamount
  · rw [if_neg hk, if_neg (Ne.symm hk), if_neg (Ne.symm hk)]

/-- A write that keeps the sum of a deposit's liquidity and reservations keeps every liability. -/
theorem State.liability_same {k₀ : Pubkey} {d d' : Deposit} (hd : s.deposits.lookup k₀ = some d)
    (h : s'.deposits = s.deposits.insert k₀ d') (hamount : d'.liability = d.liability) (k : Pubkey) :
    s'.liability k = s.liability k := by
  rw [State.liability_insert h]
  by_cases hk : k = k₀
  · rw [if_pos hk, hk, State.liability_some hd]
    exact hamount
  · rw [if_neg hk]

end Deposits

section Booked

variable {rt : Runtime} {e : Event}

/-- Each custody instruction is booked: what the liability gains or loses is what was funded or paid
out. -/
theorem custody_booked {ix : CustodyInstruction} (hix : e.ix = .program (.custody ix))
    (hv : e.Valid (step rt)) (hT : TokensOk e.pre.tokens) (k : Pubkey) :
    e.post.liability k + paid_out k e = e.pre.liability k + funded k e := by
  have hok := valid_execute hv hix
  simp only [TopLevel.execute, Instruction.execute, bind_eq_ok, pure_eq_ok, Prod.exists] at hok
  obtain ⟨r', T', hok, hpost⟩ := hok
  have hdeposits : e.post.deposits = r'.deposits := by rw [← hpost]
  cases ix with
  | create_deposit accounts args =>
    obtain ⟨key, _, hkey, -, -, hfresh, hr', -⟩ := create_deposit_ok hT hok
    have hpaid : paid_out k e = 0 := by simp only [paid_out, hix]
    have hfunded : funded k e = if key = k then args.amount else 0 := by
      simp only [funded, hix, hkey]
    rw [hpaid, hfunded, State.liability_insert (hdeposits.trans hr')]
    by_cases hk : k = key
    · have hnone : e.pre.liability k = 0 := by
        unfold State.liability
        rw [hk, hfresh]
        rfl
      rw [if_pos hk, if_pos hk.symm, hnone]
      show args.amount + 0 + 0 = 0 + args.amount
      omega
    · rw [if_neg hk, if_neg (Ne.symm hk)]
  | add_funds accounts amount =>
    obtain ⟨d, hd, hr', -⟩ := add_funds_ok hT hok
    rw [hr'] at hdeposits
    have hpaid : paid_out k e = 0 := by simp only [paid_out, hix]
    have hfunded : funded k e = if accounts.deposit = k then amount else 0 := by
      simp only [funded, hix]
    have hbooked := State.liability_update (x := amount) (y := 0) hd hdeposits ?_ k
    · rw [ite_self] at hbooked
      rw [hpaid, hfunded]
      exact hbooked
    · show d.remaining_deposits + amount + d.outstanding_intent_amount + 0
        = d.remaining_deposits + d.outstanding_intent_amount + amount
      omega
  | remove_funds accounts amount =>
    obtain ⟨d, hd, hle, hr', -⟩ := remove_funds_ok hT hok
    rw [hr'] at hdeposits
    have hpaid : paid_out k e = if accounts.deposit = k then amount else 0 := by
      simp only [paid_out, hix]
    have hfunded : funded k e = 0 := by simp only [funded, hix]
    have hbooked := State.liability_update (x := 0) (y := amount) hd hdeposits ?_ k
    · rw [ite_self] at hbooked
      rw [hpaid, hfunded]
      exact hbooked
    · show d.remaining_deposits - amount + d.outstanding_intent_amount + amount
        = d.remaining_deposits + d.outstanding_intent_amount + 0
      omega
  | withdraw_deposit accounts =>
    obtain ⟨d, hd, hwithdrawn⟩ := withdraw_deposit_ok hT hok
    have hfunded : funded k e = 0 := by simp only [funded, hix]
    have hpaid : paid_out k e = if accounts.deposit = k then d.remaining_deposits else 0 := by
      simp only [paid_out, hix]
      by_cases hk : accounts.deposit = k
      · rw [if_pos hk, if_pos hk, ← hk, hd]
        rfl
      · rw [if_neg hk, if_neg hk]
    rw [hpaid, hfunded]
    rcases hwithdrawn with ⟨retain, hr', -⟩ | ⟨-, houtstanding, -, hr', -⟩
    · rw [hr'] at hdeposits
      have hbooked := State.liability_update (x := 0) (y := d.remaining_deposits) hd hdeposits ?_ k
      · rw [ite_self] at hbooked
        exact hbooked
      · show 0 + d.outstanding_intent_amount + d.remaining_deposits
          = d.remaining_deposits + d.outstanding_intent_amount + 0
        omega
    · -- a deposit that is closed owes nothing besides what it pays
      rw [hr'] at hdeposits
      rw [State.liability_erase hdeposits]
      by_cases hk : k = accounts.deposit
      · rw [if_pos hk, if_pos hk.symm, hk, State.liability_some hd]
        unfold Deposit.liability
        omega
      · rw [if_neg hk, if_neg (Ne.symm hk)]

/-- The terms and listings of a deposit carry no principal. -/
theorem deposit_config_liability {ix : DepositConfigInstruction} {managers : Accounts RateManager}
    {s : State} {r' : EscrowRecords} (h : ix.execute managers s.toEscrowRecords = .ok r')
    (k : Pubkey) : ({ s with toEscrowRecords := r' } : State).liability k = s.liability k := by
  cases deposit_config_write h with
  | deposit k₀ d d' found terms counters records =>
    refine State.liability_same found (congrArg EscrowRecords.deposits records) ?_ k
    unfold Deposit.liability
    rw [counters.remaining, counters.outstanding]
  | payment_method k₀ m records =>
    have hdeposits : r'.deposits = s.deposits := by rw [records]
    exact State.liability_of_deposits hdeposits k
  | currency k₀ c key floor spread records =>
    have hdeposits : r'.deposits = s.deposits := by rw [records]
    exact State.liability_of_deposits hdeposits k
  | lock k₀ l expiry found later capped records =>
    have hdeposits : r'.deposits = s.deposits := by rw [records]
    exact State.liability_of_deposits hdeposits k

/-- A lock moves liquidity into a reservation; it owes the depositor no less. -/
theorem Deposit.lock_liability {d d' : Deposit} {amount maximum : ℕ}
    (h : d.lock amount maximum = .ok d') : d'.liability = d.liability := by
  obtain ⟨-, -, -, hle, -, rfl⟩ := Deposit.lock_ok h
  show d.remaining_deposits - amount + (d.outstanding_intent_amount + amount)
    = d.remaining_deposits + d.outstanding_intent_amount
  omega

theorem Deposit.unlock_liability {d d' : Deposit} {amount : ℕ} (h : d.unlock amount = .ok d') :
    d'.liability = d.liability := by
  obtain ⟨hle, -, -, rfl⟩ := Deposit.unlock_ok h
  show d.remaining_deposits + amount + (d.outstanding_intent_amount - amount)
    = d.remaining_deposits + d.outstanding_intent_amount
  omega

/-- A settlement takes what is released out of the liability and returns the rest of the lock to the
free liquidity. -/
theorem Deposit.settle_liability {d d' : Deposit} {locked released : ℕ}
    (h : d.settle locked released = .ok d') : d'.liability + released = d.liability := by
  obtain ⟨-, hreleased, hlocked, -, rfl⟩ := Deposit.settle_ok h
  show d.remaining_deposits + (locked - released) + (d.outstanding_intent_amount - locked)
    + released = d.remaining_deposits + d.outstanding_intent_amount
  omega

/-- Closing an intent writes its deposit and no other. -/
theorem closed_liability {key : Pubkey} {live : LiveIntent} {d' : Deposit} {s s₁ : State} {x : ℕ}
    (hlive : s.deposits.lookup live.intent.deposit = some live.deposit)
    (hdeposits : s₁.deposits = s.deposits) (hamount : d'.liability + x = live.deposit.liability)
    (k : Pubkey) :
    (closed_state key live d' s₁).liability k + (if live.intent.deposit = k then x else 0)
      = s.liability k := by
  have hinsert : (closed_state key live d' s₁).deposits
      = s.deposits.insert live.intent.deposit d' := by
    unfold closed_state
    rw [hdeposits]
  have hbooked := State.liability_update (x := 0) (y := x) hlive hinsert hamount k
  rw [ite_self] at hbooked
  exact hbooked

/-- A settlement takes from the deposit of its intent what it releases. -/
theorem settle_intent_booked {ctx : TxContext} {key : Pubkey} {live : LiveIntent}
    {tokens : SettlementTokenAccounts} {dispute : SettlementDisputeAccounts}
    {remaining_accounts : List AccountInfo} {x : ℕ} {s s' : State}
    (hlive : live_intent key s = .ok live)
    (h : settle_intent ctx key live tokens dispute remaining_accounts x s = .ok s')
    (released : Intent → ℕ) (hx : released live.intent = x) (k : Pubkey) :
    s'.liability k + settled_from k key released s = s.liability k := by
  obtain ⟨hintent, -, hdeposit, -⟩ := live_intent_ok hlive
  obtain ⟨s₁, d', T, hdispute, hsettle, -, rfl⟩ := settle_intent_ok h
  have hsettled : settled_from k key released s = if live.intent.deposit = k then x else 0 := by
    unfold settled_from
    rw [hintent, ← hx]
    rfl
  rw [hsettled]
  refine closed_liability hdeposit ?_ (Deposit.settle_liability hsettle) k
  show s₁.deposits = s.deposits
  rw [settle_dispute_rest hdispute]

/-- Every event books what it moves. -/
theorem deposit_booked (hv : e.Valid (step rt)) (hs : LedgerOk e.pre) (k : Pubkey) :
    e.post.liability k + paid_out k e = e.pre.liability k + funded k e := by
  cases hix : e.ix with
  | ed25519 data =>
    have hok := valid_execute hv hix
    simp only [TopLevel.execute, bind_eq_ok, require_eq_ok, exists_const, pure_eq_ok] at hok
    simp only [paid_out, funded, hix]
    rw [← hok.2]
  | external tokens =>
    have hok := valid_execute hv hix
    simp only [TopLevel.execute, bind_eq_ok, require_eq_ok, exists_const, pure_eq_ok] at hok
    simp only [paid_out, funded, hix]
    rw [← hok.2]
    rfl
  | program ix =>
    have hok := valid_execute hv hix
    cases ix with
    | open_records ix | rate_managers ix | whitelists ix | verifier ix | dispute_policy ix =>
      simp only [TopLevel.execute, Instruction.execute, bind_eq_ok, pure_eq_ok] at hok
      obtain ⟨_, -, hpost⟩ := hok
      simp only [paid_out, funded, hix]
      rw [← hpost]
      rfl
    | governance ix =>
      simp only [paid_out, funded, hix]
      exact State.liability_of_deposits (governance_ok hok).1.deposits k
    | deposit_config ix =>
      simp only [TopLevel.execute, Instruction.execute, bind_eq_ok, pure_eq_ok] at hok
      obtain ⟨_, hok, hpost⟩ := hok
      simp only [paid_out, funded, hix]
      rw [← hpost]
      exact deposit_config_liability hok k
    | custody ix => exact custody_booked hix hv hs.tokens k
    | stake ix =>
      simp only [TopLevel.execute, Instruction.execute, bind_eq_ok, pure_eq_ok, Prod.exists] at hok
      obtain ⟨_, _, -, hpost⟩ := hok
      simp only [paid_out, funded, hix]
      rw [← hpost]
      rfl
    -- the four ways an intent begins or ends without a payment only move amounts inside the deposit
    | signal_intent accounts args =>
      obtain ⟨_, _, _, _, _, _, hsignaled⟩ := signal_intent_ok hok
      simp only [paid_out, funded, hix]
      exact State.liability_same hsignaled.deposit (congrArg (·.deposits) hsignaled.post)
        (Deposit.lock_liability hsignaled.locked) k
    | cancel_intent accounts =>
      obtain ⟨live, _, d', hlive, -, -, -, -, hunlock, hpost⟩ := cancel_intent_ok hok
      obtain ⟨-, -, hdeposit, -⟩ := live_intent_ok hlive
      simp only [paid_out, funded, hix]
      rw [hpost]
      exact State.liability_same hdeposit rfl (Deposit.unlock_liability hunlock) k
    | prune_expired_intent accounts =>
      obtain ⟨live, s₁, d', hlive, -, hprune, hunlock, hpost⟩ := prune_expired_intent_ok hok
      obtain ⟨-, -, hdeposit, -⟩ := live_intent_ok hlive
      have hsame : s₁.deposits = e.pre.deposits := by
        rcases prune_dispute_ok hprune with ⟨-, rfl⟩ | ⟨-, _, _, _, _, hcancelled⟩
        · rfl
        · rw [hcancelled.post]
      simp only [paid_out, funded, hix]
      rw [hpost]
      refine State.liability_same hdeposit ?_ (Deposit.unlock_liability hunlock) k
      show s₁.deposits.insert _ d' = _
      rw [hsame]
    | prepare_dispute accounts args =>
      obtain ⟨_, _, _, _, _, _, hprepared, -⟩ := prepare_dispute_ok hok
      simp only [paid_out, funded, hix]
      exact State.liability_of_deposits (congrArg (·.deposits) hprepared.post) k
    | cancel_dispute accounts =>
      obtain ⟨_, _, _, _, _, _, -, -, hcancelled, -⟩ := cancel_dispute_ok hs.coverage hok
      simp only [paid_out, funded, hix]
      exact State.liability_of_deposits (congrArg (·.deposits) hcancelled.post) k
    | release_matured_dispute accounts =>
      obtain ⟨_, _, _, _, -, -, -, -, -, -, -, -, hpost⟩ := release_matured_dispute_ok hok
      simp only [paid_out, funded, hix]
      exact State.liability_of_deposits (congrArg (·.deposits) hpost) k
    | submit_dispute accounts args =>
      obtain ⟨_, _, _, _, _, _, hdisputed, -⟩ := submit_dispute_ok hok
      simp only [paid_out, funded, hix]
      exact State.liability_of_deposits (congrArg (·.deposits) hdisputed.post) k
    -- the two settlements pay out what they release, whoever the payees are
    | fulfill_intent accounts args =>
      obtain ⟨live, s₁, hlive, -, -, -, -, hsettle, hpost⟩ := fulfill_intent_ok hok
      have hbooked := settle_intent_booked hlive hsettle
        (fun i => Min.min args.attestation.release_amount i.amount) rfl k
      have hdeposits : e.post.deposits = s₁.deposits := by rw [hpost]
      simp only [paid_out, funded, hix]
      rw [State.liability_of_deposits hdeposits]
      exact hbooked
    | manual_release accounts =>
      obtain ⟨live, hlive, -, -, hsettle⟩ := manual_release_ok hok
      have hbooked := settle_intent_booked hlive hsettle Intent.amount rfl k
      simp only [paid_out, funded, hix]
      exact hbooked

end Booked

theorem genesis_liability {rt : Runtime} {s : State} (h : genesis rt s) (k : Pubkey) :
    s.liability k = 0 := by
  obtain ⟨_, _, _, _, _, _, _, -, -, -, rfl⟩ := genesis_initialized h
  rfl

/-- A deposit owes what was put into it less what was paid out of it, by the log, and while it is
open its vault holds that much. -/
theorem deposits_audited {rt : Runtime} {es : List Event} {s : State} (h : Run rt es s)
    (k : Pubkey) :
    s.liability k + (es.map (paid_out k)).sum = (es.map (funded k)).sum
      ∧ ((s.deposits.lookup k).isSome = true →
        (es.map (funded k)).sum
          ≤ balance s.tokens (deposit_vault_address k) + (es.map (paid_out k)).sum) := by
  have hbooks : s.liability k + (es.map (paid_out k)).sum = (es.map (funded k)).sum := by
    refine TxMachine.Run.books (m := State.liability k) (G := fun e => LedgerOk e.pre) ?_ ?_ h ?_
    · exact fun s₀ h₀ => genesis_liability h₀ k
    · exact fun e hs hv => deposit_booked hv hs k
    · exact fun e he => ((Run.ledgerOk h).2 e he).1
  refine ⟨hbooks, fun hopen => ?_⟩
  obtain ⟨d, hd⟩ := Option.isSome_iff_exists.mp hopen
  obtain ⟨a, ha⟩ := ((Run.own_locks h).1.2.1.deposits k d hd).vault
  have hcovers : s.liability k ≤ balance s.tokens (deposit_vault_address k) := by
    unfold balance
    rw [State.liability_some hd, ha.found]
    exact ha.covers
  omega

/-- A run in which a deposit of 500 is funded and an intent of 100 on it released, so that none of
the three amounts is zero. -/
theorem deposits_audited_released :
    ∃ es s, Run sample_runtime es s ∧ s.liability sample_deposit = 400
      ∧ (es.map (paid_out sample_deposit)).sum = 100
      ∧ (es.map (funded sample_deposit)).sum = 500
      ∧ 400 ≤ balance s.tokens (deposit_vault_address sample_deposit) := by
  obtain ⟨es, s, hrun, hgood⟩ := sample_reaches [sample_setup, sample_cover, sample_manual_release]
    (fun es s => decide (s.liability sample_deposit = 400
      ∧ (es.map (paid_out sample_deposit)).sum = 100
      ∧ (s.deposits.lookup sample_deposit).isSome = true)) (by decide +kernel)
  obtain ⟨howed, hpaid, hopen⟩ := of_decide_eq_true hgood
  obtain ⟨hbooks, hvault⟩ := deposits_audited hrun sample_deposit
  have hcovered := hvault hopen
  refine ⟨es, s, hrun, howed, hpaid, ?_, ?_⟩
  · omega
  · omega

/-! ## Stake -/

/-- What the event adds to the stake of `o`. -/
def staked (o : Pubkey) (e : Event) : ℕ :=
  match e.ix with
  | .program (.stake (.deposit_stake accounts amount)) => if accounts.owner = o then amount else 0
  | .program (.stake (.controller_fund_lock accounts args)) =>
    if accounts.stake_owner = o then args.amount else 0
  | _ => 0

/-- What `o` takes out of its stake. -/
def unstaked (o : Pubkey) (e : Event) : ℕ :=
  match e.ix with
  | .program (.stake (.withdraw_stake accounts amount)) => if accounts.owner = o then amount else 0
  | _ => 0

/-- What the event charges to the stake of `o` and awards to claims: by the controller, out of the
lock it resolves, or by a dispute, at the amount the disputed settlement released. -/
def charged (o : Pubkey) (e : Event) : ℕ :=
  match e.ix with
  | .program (.stake (.resolve_stake_lock _ lock_id claims)) =>
    (e.pre.stake_locks.lookup (lock_of lock_id)).elim 0 fun l =>
      if l.stake_owner = o then claims_total claims else 0
  | .program (.submit_dispute _ args) =>
    (e.pre.dispute_intents.lookup (coverage_of args.attestation.intent_hash)).elim 0 fun d =>
      if d.stake_owner = o then d.release_amount else 0
  | _ => 0

/-- What the event awards to the claim of `b`. -/
def awarded (b : Pubkey) (e : Event) : ℕ :=
  match e.ix with
  | .program (.stake (.resolve_stake_lock _ _ claims)) =>
    claims_total (claims.filter fun c => c.beneficiary = b)
  | .program (.submit_dispute _ args) =>
    (e.pre.dispute_intents.lookup (coverage_of args.attestation.intent_hash)).elim 0 fun d =>
      if d.depositor = b then d.release_amount else 0
  | _ => 0

/-- What `b` collects of its claim. -/
def collected (b : Pubkey) (e : Event) : ℕ :=
  match e.ix with
  | .program (.stake (.claim_stake accounts)) =>
    if accounts.beneficiary = b then e.pre.claim_of b else 0
  | _ => 0

/-- The stake and the claims after an event are those before it, with what the event moves. -/
structure StakeBooked (e : Event) : Prop where
  balance : ∀ o, e.post.balance_of o + (unstaked o e + charged o e)
    = e.pre.balance_of o + staked o e
  claim : ∀ b, e.post.claim_of b + collected b e = e.pre.claim_of b + awarded b e

/-- The event is none of those that move principal of the stake vault. -/
def Event.moves_no_stake (e : Event) : Prop :=
  ∀ k, staked k e = 0 ∧ unstaked k e = 0 ∧ charged k e = 0 ∧ awarded k e = 0 ∧ collected k e = 0

/-- An event that moves no stake and keeps the principal is booked. -/
theorem StakeBooked.of_kept {e : Event}
    (h : PrincipalKept e.pre.toStakeRecords e.post.toStakeRecords) (hnone : e.moves_no_stake) :
    StakeBooked e := by
  refine ⟨fun o => ?_, fun b => ?_⟩
  · obtain ⟨hstaked, hunstaked, hcharged, -, -⟩ := hnone o
    rw [hstaked, hunstaked, hcharged]
    exact h.balance_of o
  · obtain ⟨-, -, -, hawarded, hcollected⟩ := hnone b
    rw [hawarded, hcollected]
    exact h.claim_of b

theorem PrincipalKept.of_records {r r' : StakeRecords} (h : r' = r) : PrincipalKept r r' := by
  rw [h]
  exact ⟨fun _ => rfl, rfl, fun _ => rfl, rfl⟩

section Records

variable {r r' : StakeRecords}

/-- Writing one claim changes its beneficiary's and no other's. -/
theorem claim_of_insert {b : Pubkey} {c : ClaimBalance}
    (h : r'.claims = r.claims.insert (claim_balance_address stake_vault_address b) c) (b' : Pubkey) :
    r'.claim_of b' = if b = b' then c.amount else r.claim_of b' := by
  unfold StakeRecords.claim_of
  rw [h, Finmap.lookup_insert_key claim_address_injective]
  split_ifs
  · rfl
  · rfl

theorem claim_of_some {b : Pubkey} {c : ClaimBalance}
    (h : r.claims.lookup (claim_balance_address stake_vault_address b) = some c) :
    r.claim_of b = c.amount := by
  unfold StakeRecords.claim_of
  rw [h]
  rfl

theorem claim_of_claims (h : r'.claims = r.claims) (b : Pubkey) : r'.claim_of b = r.claim_of b := by
  unfold StakeRecords.claim_of
  rw [h]

theorem balance_of_positions (h : r'.stake_positions = r.stake_positions) (o : Pubkey) :
    r'.balance_of o = r.balance_of o := by
  unfold StakeRecords.balance_of
  rw [h]

/-- One position holds `x` more and `y` less than before, and no other changes. -/
theorem balance_of_update {o : Pubkey} {p' : StakePosition} {x y : ℕ}
    (h : r'.stake_positions = r.stake_positions.insert (position_of o) p')
    (hamount : p'.balance + y = r.balance_of o + x) (o' : Pubkey) :
    r'.balance_of o' + (if o = o' then y else 0) = r.balance_of o' + if o = o' then x else 0 := by
  rw [balance_of_insert h]
  by_cases ho : o = o'
  · rw [if_pos ho, if_pos ho, if_pos ho, ← ho]
    exact hamount
  · rw [if_neg ho, if_neg ho, if_neg ho]

/-- The same for claims. -/
theorem claim_of_update {b : Pubkey} {c : ClaimBalance} {x y : ℕ}
    (h : r'.claims = r.claims.insert (claim_balance_address stake_vault_address b) c)
    (hamount : c.amount + y = r.claim_of b + x) (b' : Pubkey) :
    r'.claim_of b' + (if b = b' then y else 0) = r.claim_of b' + if b = b' then x else 0 := by
  rw [claim_of_insert h]
  by_cases hb : b = b'
  · rw [if_pos hb, if_pos hb, if_pos hb, ← hb]
    exact hamount
  · rw [if_neg hb, if_neg hb, if_neg hb]

end Records

/-- Among claims of distinct beneficiaries, those of one are one claim or none. -/
theorem claims_total_of {claims : List StakeClaim} {c : StakeClaim}
    (hdistinct : (claims.map StakeClaim.beneficiary).Nodup) (hc : c ∈ claims) :
    claims_total (claims.filter fun c' => c'.beneficiary = c.beneficiary) = c.amount := by
  induction claims with
  | nil => simp at hc
  | cons c' rest ih =>
    rw [List.map_cons, List.nodup_cons] at hdistinct
    obtain ⟨hfresh, hdistinct⟩ := hdistinct
    rcases List.mem_cons.mp hc with rfl | hc
    · -- the claim itself: nothing behind it has its beneficiary
      have hrest : rest.filter (fun c' => decide (c'.beneficiary = c.beneficiary)) = [] := by
        rw [List.filter_eq_nil_iff]
        intro c' hc' heq
        rw [decide_eq_true_eq] at heq
        exact hfresh (List.mem_map.mpr ⟨c', hc', heq⟩)
      rw [List.filter_cons_of_pos (by simp), hrest]
      simp [claims_total]
    · have hne : c'.beneficiary ≠ c.beneficiary := by
        intro heq
        exact hfresh (List.mem_map.mpr ⟨c, hc, heq.symm⟩)
      rw [List.filter_cons_of_neg (by simpa using hne)]
      exact ih hdistinct hc

/-- A beneficiary that no allocation names gets nothing from the list. -/
theorem claims_total_none {claims : List StakeClaim} {b : Pubkey}
    (h : ∀ c ∈ claims, c.beneficiary ≠ b) :
    claims_total (claims.filter fun c => c.beneficiary = b) = 0 := by
  have hnone : claims.filter (fun c => decide (c.beneficiary = b)) = [] := by
    rw [List.filter_eq_nil_iff]
    intro c hc heq
    rw [decide_eq_true_eq] at heq
    exact h c hc heq
  rw [hnone]
  rfl

/-- A resolution credits every beneficiary with what its claims name. -/
theorem Resolved.claim_of {lock_id : Bytes 32} {claims : List StakeClaim} {l : StakeLock}
    {p : StakePosition} {r r' : StakeRecords} (h : Resolved lock_id claims l p r r')
    (hdistinct : (claims.map StakeClaim.beneficiary).Nodup) (b : Pubkey) :
    r'.claim_of b = r.claim_of b + claims_total (claims.filter fun c => c.beneficiary = b) := by
  by_cases hnamed : ∃ c ∈ claims, c.beneficiary = b
  · obtain ⟨c, hc, hb⟩ := hnamed
    obtain ⟨a, ha, ha'⟩ := h.named c hc
    rw [← hb, claims_total_of hdistinct hc, claim_of_some ha, claim_of_some ha']
  · have hothers : ∀ c ∈ claims, c.beneficiary ≠ b := fun c hc heq => hnamed ⟨c, hc, heq⟩
    rw [claims_total_none hothers, Nat.add_zero]
    unfold StakeRecords.claim_of
    rw [h.others _ fun hmem => ?_]
    obtain ⟨c, hc, haddress⟩ := List.mem_map.mp hmem
    exact hothers c hc (claim_address_injective haddress)

section Booked

variable {rt : Runtime} {e : Event}

/-- Whether an event moves stake is read off its instruction alone. -/
theorem moves_no_stake_of {e : Event} {ix : TopLevel} (hix : e.ix = ix)
    (h : ∀ k, staked k { e with ix := ix } = 0 ∧ unstaked k { e with ix := ix } = 0
      ∧ charged k { e with ix := ix } = 0 ∧ awarded k { e with ix := ix } = 0
      ∧ collected k { e with ix := ix } = 0) : e.moves_no_stake := by
  have he : { e with ix := ix } = e := by rw [← hix]
  intro k
  have hk := h k
  rw [he] at hk
  exact hk

/-- Opening a claim account leaves its amount, found or zero. -/
theorem opened_claim_amount {r : StakeRecords} (hr : StakeCanonical r) {b : Pubkey}
    (hb : b ≠ Pubkey.default) :
    (opened_claim (init_if_needed r.claims (claim_balance_address stake_vault_address b)) b).amount + 0
      = r.claim_of b + 0 := by
  cases hc : r.claims.lookup (claim_balance_address stake_vault_address b) with
  | none =>
    have hdefault : (default : ClaimBalance).beneficiary = Pubkey.default := rfl
    simp only [StakeRecords.claim_of, init_if_needed, hc, Option.getD_none, opened_claim,
      if_pos hdefault]
    rfl
  | some c =>
    -- a claim that was there has its beneficiary written, and is left as it was
    obtain ⟨hkey, -⟩ := hr.claim _ _ hc
    have hne : c.beneficiary ≠ Pubkey.default := by
      rw [← claim_address_injective hkey]
      exact hb
    simp only [init_if_needed, hc, Option.getD_some, opened_claim, if_neg hne]
    rw [claim_of_some hc]

/-- The stake of `o` gets `x` and loses `y`; no other stake and no claim changes. -/
structure StakeShifted (r r' : StakeRecords) (o : Pubkey) (x y : ℕ) : Prop where
  balance : ∀ o', r'.balance_of o' + (if o = o' then y else 0)
    = r.balance_of o' + if o = o' then x else 0
  claims : r'.claims = r.claims

/-- A handler that shifts one owner's stake is booked, once its event counts the same amounts. -/
theorem StakeBooked.of_shifted {o : Pubkey} {x y : ℕ}
    (h : StakeShifted e.pre.toStakeRecords e.post.toStakeRecords o x y)
    (hmoves : ∀ k, staked k e = (if o = k then x else 0)
      ∧ unstaked k e + charged k e = (if o = k then y else 0) ∧ awarded k e = 0 ∧ collected k e = 0) :
    StakeBooked e := by
  refine ⟨fun o' => ?_, fun b => ?_⟩
  · obtain ⟨hstaked, hout, -⟩ := hmoves o'
    rw [hstaked, hout]
    exact h.balance o'
  · obtain ⟨-, -, hawarded, hcollected⟩ := hmoves b
    rw [hawarded, hcollected]
    exact claim_of_claims h.claims b

end Booked

/-! ### One handler -/

section Handlers

variable {ctx : TxContext} {r r' : StakeRecords} {T T' : Accounts TokenAccount}

theorem deposit_stake_shifted {accounts : DepositStake} {amount : ℕ}
    (h : handle_deposit_stake accounts amount r T = .ok (r', T')) :
    StakeShifted r r' accounts.owner amount 0 := by
  simp only [handle_deposit_stake, bind_eq_ok, ok_or_eq_ok, Checked.add_eq_some, pure_eq_ok,
    Prod.mk.injEq] at h
  obtain ⟨_, -, _, -, _, -, _, -, _, -, _, ⟨-, rfl⟩, _, -, hpost, -⟩ := h
  have hpositions := congrArg StakeRecords.stake_positions hpost.symm
  refine ⟨balance_of_update hpositions ?_, by rw [← hpost]⟩
  rw [balance_of_init]
  show (opened_position _ _).balance + amount + 0 = _
  rw [opened_position_balance]
  rfl

theorem withdraw_stake_shifted {accounts : WithdrawStake} {amount : ℕ}
    (h : handle_withdraw_stake accounts amount r T = .ok (r', T')) :
    StakeShifted r r' accounts.owner 0 amount := by
  simp only [handle_withdraw_stake, bind_eq_ok, load_eq_ok, ok_or_eq_ok, Checked.sub_eq_some,
    pure_eq_ok, Prod.mk.injEq] at h
  obtain ⟨_, -, p, hp, _, -, _, -, _, -, _, -, _, -, _, -, _, -, _, ⟨hle, rfl⟩, _, -, _, -, hpost,
    -⟩ := h
  have hpositions := congrArg StakeRecords.stake_positions hpost.symm
  refine ⟨balance_of_update hpositions ?_, by rw [← hpost]⟩
  rw [balance_of_some hp]
  show p.balance - amount + amount = p.balance + 0
  omega

/-- A funded lock adds to the stake of the owner it is opened for. -/
theorem controller_fund_lock_shifted {accounts : ControllerFundLock} {args : ControllerLockArgs}
    (h : handle_controller_fund_lock ctx accounts args r T = .ok (r', T')) :
    StakeShifted r r' accounts.stake_owner args.amount 0 := by
  simp only [handle_controller_fund_lock, bind_eq_ok, ok_or_eq_ok, Checked.add_eq_some, pure_eq_ok,
    Prod.mk.injEq] at h
  obtain ⟨_, -, _, -, _, -, _, -, _, -, _, -, _, -, _, -, _, -, _, ⟨-, rfl⟩, p', hlock, _, -, hpost,
    -⟩ := h
  obtain ⟨-, -, hp'⟩ := StakePosition.lock_ok hlock
  have hpositions := congrArg StakeRecords.stake_positions hpost.symm
  refine ⟨balance_of_update hpositions ?_, by rw [← hpost]⟩
  -- locking what was just funded leaves the balance at what it was raised to
  rw [balance_of_init, hp']
  show (opened_position _ _).balance + args.amount + 0 = _
  rw [opened_position_balance]
  rfl

/-- A collection takes the whole claim of its beneficiary and no stake. -/
theorem claim_stake_collects {accounts : ClaimStake}
    (h : handle_claim_stake accounts r T = .ok (r', T')) :
    r'.stake_positions = r.stake_positions ∧ ∀ b, r'.claim_of b
      + (if accounts.beneficiary = b then r.claim_of b else 0) = r.claim_of b := by
  simp only [handle_claim_stake, bind_eq_ok, load_eq_ok, pure_eq_ok, Prod.mk.injEq] at h
  obtain ⟨_, -, c, hc, _, -, _, -, _, -, _, -, _, -, _, -, _, -, hpost, -⟩ := h
  have hclaims := congrArg StakeRecords.claims hpost.symm
  refine ⟨by rw [← hpost], fun b => ?_⟩
  rw [claim_of_insert hclaims]
  by_cases hb : accounts.beneficiary = b
  · rw [if_pos hb, if_pos hb]
    exact Nat.zero_add _
  · rw [if_neg hb, if_neg hb]
    rfl

theorem initialize_claim_balance_kept (hr : StakeCanonical r) {accounts : InitializeClaimBalance}
    (h : handle_initialize_claim_balance accounts r = .ok r') : PrincipalKept r r' := by
  simp only [handle_initialize_claim_balance, bind_eq_ok, signer_eq_ok, require_eq_ok, exists_const,
    pure_eq_ok] at h
  obtain ⟨-, hnonzero, hpost⟩ := h
  refine ⟨balance_of_positions (by rw [← hpost]), by rw [← hpost], fun b => ?_, by rw [← hpost]⟩
  have hbooked := claim_of_update (x := 0) (y := 0) (congrArg StakeRecords.claims hpost.symm)
    (opened_claim_amount hr hnonzero) b
  rw [ite_self] at hbooked
  exact hbooked

/-- Locking moves no principal. -/
theorem controller_lock_stake_kept {accounts : ControllerLockStake} {args : ControllerLockArgs}
    (h : handle_controller_lock_stake ctx accounts args r = .ok r') : PrincipalKept r r' := by
  simp only [handle_controller_lock_stake, bind_eq_ok, load_eq_ok, pure_eq_ok] at h
  obtain ⟨_, -, _, -, p, hp, _, -, _, -, _, -, _, -, p', hlock, rfl⟩ := h
  obtain ⟨-, -, hp'⟩ := StakePosition.lock_ok hlock
  refine .of_position hp rfl ?_ rfl rfl
  rw [hp']

/-- Nor does increasing a lock. -/
theorem increase_stake_lock_kept {accounts : ManageStakeLock} {lock_id : Bytes 32} {amount : ℕ}
    (h : handle_increase_stake_lock ctx accounts lock_id amount r = .ok r') : PrincipalKept r r' := by
  simp only [handle_increase_stake_lock, bind_eq_ok, Prod.exists, pure_eq_ok] at h
  obtain ⟨l, p, hmanaged, _, -, _, -, p', hlock, _, -, rfl⟩ := h
  obtain ⟨-, -, -, hp, -⟩ := managed_stake_lock_ok hmanaged
  obtain ⟨-, -, hp'⟩ := StakePosition.lock_ok hlock
  refine .of_position hp rfl ?_ rfl rfl
  rw [hp']

/-- Nor does resizing it, in either direction. -/
theorem resize_stake_lock_kept {accounts : ManageStakeLock} {lock_id : Bytes 32} {amount : ℕ}
    {matures_at : ℤ} (h : handle_resize_stake_lock ctx accounts lock_id amount matures_at r = .ok r') :
    PrincipalKept r r' := by
  simp only [handle_resize_stake_lock, bind_eq_ok, Prod.exists, require_eq_ok, exists_const,
    ok_or_eq_ok, Checked.sub_eq_some, pure_eq_ok] at h
  obtain ⟨l, p, hmanaged, -, -, hle, -, _, ⟨-, rfl⟩, p', hunlock, rfl⟩ := h
  obtain ⟨-, -, -, hp, -⟩ := managed_stake_lock_ok hmanaged
  obtain ⟨hp', -⟩ := shrunk_position hle hunlock
  refine .of_position hp rfl ?_ rfl rfl
  rw [hp']

theorem controller_unlock_stake_kept {accounts : ManageStakeLock} {lock_id : Bytes 32}
    (h : handle_controller_unlock_stake accounts lock_id r = .ok r') : PrincipalKept r r' := by
  simp only [handle_controller_unlock_stake, bind_eq_ok, Prod.exists, pure_eq_ok] at h
  obtain ⟨l, p, hmanaged, p', hunlock, rfl⟩ := h
  obtain ⟨-, -, -, hp, -⟩ := managed_stake_lock_ok hmanaged
  obtain ⟨-, hp'⟩ := StakePosition.unlock_ok hunlock
  refine .of_position hp rfl ?_ rfl rfl
  rw [hp']

/-- A resolution charges the owner of the lock what the claims come to and credits their
beneficiaries. -/
theorem resolve_stake_lock_moves {accounts : ResolveStakeLock} {lock_id : Bytes 32}
    {claims : List StakeClaim} (h : handle_resolve_stake_lock accounts lock_id claims r = .ok r') :
    ∃ l, r.stake_locks.lookup (lock_of lock_id) = some l
      ∧ (claims.map StakeClaim.beneficiary).Nodup
      ∧ (∀ o, r'.balance_of o + (if l.stake_owner = o then claims_total claims else 0) = r.balance_of o)
      ∧ ∀ b, r'.claim_of b
        = r.claim_of b + claims_total (claims.filter fun c => c.beneficiary = b) := by
  have hlive := h
  simp only [handle_resolve_stake_lock, bind_eq_ok, load_eq_ok] at hlive
  obtain ⟨_, -, _, -, l, hl, p, hp, -⟩ := hlive
  obtain ⟨hresolvable, hresolved⟩ := resolve_stake_lock_ok hl hp h
  obtain ⟨p', hpositions, -, hbalance, -, -⟩ := hresolved.position
  refine ⟨l, hl, hresolvable.distinct, fun o => ?_, hresolved.claim_of hresolvable.distinct⟩
  have hamount : p'.balance + claims_total claims = r.balance_of l.stake_owner + 0 := by
    rw [balance_of_some hp]
    exact hbalance
  have hbooked := balance_of_update hpositions hamount o
  rw [ite_self] at hbooked
  exact hbooked

end Handlers

/-! ### One event -/

section Booked

variable {rt : Runtime} {e : Event}

/-- Every instruction of `stake.rs` is booked, each by the lemma about its own handler. -/
theorem stake_instruction_booked {ix : StakeInstruction} (hix : e.ix = .program (.stake ix))
    (hv : e.Valid (step rt)) (hr : StakeCanonical e.pre.toStakeRecords) : StakeBooked e := by
  have hok := valid_execute hv hix
  simp only [TopLevel.execute, Instruction.execute, bind_eq_ok, pure_eq_ok, Prod.exists] at hok
  obtain ⟨r', T', hok, hpost⟩ := hok
  obtain rfl : e.post.toStakeRecords = r' := by rw [← hpost]
  -- what counts in none of the five sums has to keep the principal
  have hquiet : ∀ h : ∀ k, staked k { e with ix := .program (.stake ix) } = 0
      ∧ unstaked k { e with ix := .program (.stake ix) } = 0
      ∧ charged k { e with ix := .program (.stake ix) } = 0
      ∧ awarded k { e with ix := .program (.stake ix) } = 0
      ∧ collected k { e with ix := .program (.stake ix) } = 0,
      PrincipalKept e.pre.toStakeRecords e.post.toStakeRecords → StakeBooked e :=
    fun h hkept => .of_kept hkept (moves_no_stake_of hix h)
  cases ix with
  | initialize_stake_token_vault accounts =>
    simp only [StakeInstruction.execute, bind_eq_ok, pure_eq_ok, Prod.mk.injEq] at hok
    obtain ⟨_, -, hsame, -⟩ := hok
    exact hquiet (fun _ => ⟨rfl, rfl, rfl, rfl, rfl⟩) (.of_records hsame.symm)
  | deposit_stake accounts amount =>
    refine .of_shifted (deposit_stake_shifted hok) fun k => ?_
    simp only [staked, unstaked, charged, awarded, collected, hix, ite_self, and_self]
  | withdraw_stake accounts amount =>
    refine .of_shifted (withdraw_stake_shifted hok) fun k => ?_
    simp only [staked, unstaked, charged, awarded, collected, hix, ite_self, and_self, Nat.add_zero]
  | controller_fund_lock accounts args =>
    refine .of_shifted (controller_fund_lock_shifted hok) fun k => ?_
    simp only [staked, unstaked, charged, awarded, collected, hix, ite_self, and_self]
  -- a collection moves a claim and no stake
  | claim_stake accounts =>
    obtain ⟨hpositions, hclaims⟩ := claim_stake_collects hok
    refine ⟨fun o => ?_, fun b => ?_⟩
    · simp only [unstaked, charged, staked, hix]
      exact balance_of_positions hpositions o
    · simp only [collected, awarded, hix]
      exact hclaims b
  | initialize_claim_balance accounts =>
    simp only [StakeInstruction.execute, bind_eq_ok, pure_eq_ok, Prod.mk.injEq] at hok
    obtain ⟨_, hok, rfl, -⟩ := hok
    exact hquiet (fun _ => ⟨rfl, rfl, rfl, rfl, rfl⟩) (initialize_claim_balance_kept hr hok)
  | controller_lock_stake accounts args =>
    simp only [StakeInstruction.execute, bind_eq_ok, pure_eq_ok, Prod.mk.injEq] at hok
    obtain ⟨_, hok, rfl, -⟩ := hok
    exact hquiet (fun _ => ⟨rfl, rfl, rfl, rfl, rfl⟩) (controller_lock_stake_kept hok)
  | increase_stake_lock accounts lock_id additional_amount =>
    simp only [StakeInstruction.execute, bind_eq_ok, pure_eq_ok, Prod.mk.injEq] at hok
    obtain ⟨_, hok, rfl, -⟩ := hok
    exact hquiet (fun _ => ⟨rfl, rfl, rfl, rfl, rfl⟩) (increase_stake_lock_kept hok)
  | resize_stake_lock accounts lock_id new_amount new_matures_at =>
    simp only [StakeInstruction.execute, bind_eq_ok, pure_eq_ok, Prod.mk.injEq] at hok
    obtain ⟨_, hok, rfl, -⟩ := hok
    exact hquiet (fun _ => ⟨rfl, rfl, rfl, rfl, rfl⟩) (resize_stake_lock_kept hok)
  | controller_unlock_stake accounts lock_id =>
    simp only [StakeInstruction.execute, bind_eq_ok, pure_eq_ok, Prod.mk.injEq] at hok
    obtain ⟨_, hok, rfl, -⟩ := hok
    exact hquiet (fun _ => ⟨rfl, rfl, rfl, rfl, rfl⟩) (controller_unlock_stake_kept hok)
  -- the one handler that charges: the owner of the lock loses what the beneficiaries gain
  | resolve_stake_lock accounts lock_id claims =>
    simp only [StakeInstruction.execute, bind_eq_ok, pure_eq_ok, Prod.mk.injEq] at hok
    obtain ⟨_, hok, rfl, -⟩ := hok
    obtain ⟨l, hl, -, hbalance, hclaims⟩ := resolve_stake_lock_moves hok
    refine ⟨fun o => ?_, fun b => ?_⟩
    · simp only [unstaked, charged, staked, hix, hl, Option.elim_some, Nat.zero_add]
      exact hbalance o
    · simp only [collected, awarded, hix]
      exact hclaims b

/-- Cancelled coverage returns a lock and moves no principal. -/
theorem CoverageCancelled.principal {s s₁ : State} {hash : Bytes 32} {d : DisputeIntent}
    {l : StakeLock} {p p' : StakePosition} (h : CoverageCancelled s s₁ hash d l p p') :
    PrincipalKept s.toStakeRecords s₁.toStakeRecords := by
  obtain ⟨-, hp'⟩ := StakePosition.unlock_ok h.unlocked
  rw [h.post]
  refine .of_position h.position rfl ?_ rfl rfl
  rw [hp']

/-- A settlement shrinks the lock of a covered intent and charges nothing yet. -/
theorem settle_intent_principal {ctx : TxContext} {key : Pubkey} {live : LiveIntent}
    {tokens : SettlementTokenAccounts} {dispute : SettlementDisputeAccounts}
    {remaining_accounts : List AccountInfo} {x : ℕ} {s s' : State}
    (h : settle_intent ctx key live tokens dispute remaining_accounts x s = .ok s') :
    PrincipalKept s.toStakeRecords s'.toStakeRecords := by
  obtain ⟨s₁, d', T, hdispute, -, -, rfl⟩ := settle_intent_ok h
  have hkept : PrincipalKept s.toStakeRecords s₁.toStakeRecords := by
    rcases settle_dispute_ok hdispute with ⟨-, rfl⟩ | ⟨-, -, d, _, _, _, hsettled⟩
    · exact .of_records rfl
    · obtain ⟨hp', -⟩ := shrunk_position hsettled.bounded hsettled.shrunk
      rw [hsettled.post]
      refine .of_position hsettled.position rfl ?_ rfl rfl
      rw [hp']
  exact hkept

/-- A dispute charges the stake owner and awards the depositor. -/
theorem submit_dispute_booked {accounts : SubmitDispute} {args : SubmitDisputeArgs}
    (hix : e.ix = .program (.submit_dispute accounts args)) (hv : e.Valid (step rt)) :
    StakeBooked e := by
  obtain ⟨d, _, _, _, _, _, hdisputed, -⟩ := submit_dispute_ok (valid_execute hv hix)
  have hcharged := hdisputed.principal
  refine ⟨fun o => ?_, fun b => ?_⟩
  · simp only [unstaked, charged, staked, hix, hdisputed.dispute_eq, Option.elim_some]
    by_cases ho : d.stake_owner = o
    · have howner := hcharged.owner
      rw [if_pos ho, ← ho]
      omega
    · rw [if_neg ho]
      exact hcharged.other_owners o (Ne.symm ho)
  · simp only [collected, awarded, hix, hdisputed.dispute_eq, Option.elim_some]
    by_cases hb : d.depositor = b
    · have hdepositor := hcharged.depositor
      rw [if_pos hb, ← hb]
      omega
    · rw [if_neg hb]
      exact hcharged.other_claims b (Ne.symm hb)

/-- Every event books what it moves of the stake vault. -/
theorem stake_booked (hv : e.Valid (step rt)) (hs : LedgerOk e.pre) : StakeBooked e := by
  cases hix : e.ix with
  | ed25519 data =>
    have hok := valid_execute hv hix
    simp only [TopLevel.execute, bind_eq_ok, require_eq_ok, exists_const, pure_eq_ok] at hok
    refine .of_kept (.of_records ?_) (moves_no_stake_of hix fun _ => ⟨rfl, rfl, rfl, rfl, rfl⟩)
    rw [← hok.2]
  | external tokens =>
    have hok := valid_execute hv hix
    simp only [TopLevel.execute, bind_eq_ok, require_eq_ok, exists_const, pure_eq_ok] at hok
    refine .of_kept (.of_records ?_) (moves_no_stake_of hix fun _ => ⟨rfl, rfl, rfl, rfl, rfl⟩)
    rw [← hok.2]
  | program ix =>
    have hok := valid_execute hv hix
    cases ix with
    -- the two kinds of event that move stake or claims; everything below keeps both
    | stake ix => exact stake_instruction_booked hix hv hs.stake
    | submit_dispute accounts args => exact submit_dispute_booked hix hv
    | open_records ix | rate_managers ix | whitelists ix | verifier ix | deposit_config ix
    | dispute_policy ix =>
      simp only [TopLevel.execute, Instruction.execute, bind_eq_ok, pure_eq_ok] at hok
      obtain ⟨_, -, hpost⟩ := hok
      refine .of_kept (.of_records ?_) (moves_no_stake_of hix fun _ => ⟨rfl, rfl, rfl, rfl, rfl⟩)
      rw [← hpost]
    | custody ix =>
      simp only [TopLevel.execute, Instruction.execute, bind_eq_ok, pure_eq_ok, Prod.exists] at hok
      obtain ⟨_, _, -, hpost⟩ := hok
      refine .of_kept (.of_records ?_) (moves_no_stake_of hix fun _ => ⟨rfl, rfl, rfl, rfl, rfl⟩)
      rw [← hpost]
    | governance ix =>
      obtain ⟨hframe, -⟩ := governance_ok hok
      refine .of_kept ?_ (moves_no_stake_of hix fun _ => ⟨rfl, rfl, rfl, rfl, rfl⟩)
      exact ⟨balance_of_positions hframe.stake_positions, hframe.total_staked,
        claim_of_claims hframe.claims, hframe.total_claimable⟩
    | signal_intent accounts args =>
      obtain ⟨_, _, _, _, _, _, hsignaled⟩ := signal_intent_ok hok
      refine .of_kept (.of_records ?_) (moves_no_stake_of hix fun _ => ⟨rfl, rfl, rfl, rfl, rfl⟩)
      rw [hsignaled.post]
    | cancel_intent accounts =>
      obtain ⟨_, _, _, -, -, -, -, -, -, hpost⟩ := cancel_intent_ok hok
      refine .of_kept (.of_records ?_) (moves_no_stake_of hix fun _ => ⟨rfl, rfl, rfl, rfl, rfl⟩)
      rw [hpost]
      rfl
    | prune_expired_intent accounts =>
      obtain ⟨_, _, _, -, -, hprune, -, hpost⟩ := prune_expired_intent_ok hok
      refine .of_kept ?_ (moves_no_stake_of hix fun _ => ⟨rfl, rfl, rfl, rfl, rfl⟩)
      rw [hpost]
      rcases prune_dispute_ok hprune with ⟨-, rfl⟩ | ⟨-, _, _, _, _, hcancelled⟩
      · exact .of_records rfl
      · exact hcancelled.principal
    | prepare_dispute accounts args =>
      obtain ⟨_, _, _, _, _, _, hprepared, -⟩ := prepare_dispute_ok hok
      exact .of_kept hprepared.principal (moves_no_stake_of hix fun _ => ⟨rfl, rfl, rfl, rfl, rfl⟩)
    | cancel_dispute accounts =>
      obtain ⟨_, _, _, _, _, _, -, -, hcancelled, -⟩ := cancel_dispute_ok hs.coverage hok
      exact .of_kept hcancelled.principal (moves_no_stake_of hix fun _ => ⟨rfl, rfl, rfl, rfl, rfl⟩)
    -- whichever position the release frees, it frees it of a lock and not of principal
    | release_matured_dispute accounts =>
      obtain ⟨_, _, _, _, -, -, -, -, -, -, hp, hunlock, hpost⟩ := release_matured_dispute_ok hok
      obtain ⟨-, hp'⟩ := StakePosition.unlock_ok hunlock
      refine .of_kept ?_ (moves_no_stake_of hix fun _ => ⟨rfl, rfl, rfl, rfl, rfl⟩)
      rw [congrArg (·.toStakeRecords) hpost]
      refine .of_position hp rfl ?_ rfl rfl
      rw [hp']
    | fulfill_intent accounts args =>
      obtain ⟨_, s₁, -, -, -, -, -, hsettle, hpost⟩ := fulfill_intent_ok hok
      have hrecords : e.post.toStakeRecords = s₁.toStakeRecords := by rw [hpost]
      refine .of_kept ?_ (moves_no_stake_of hix fun _ => ⟨rfl, rfl, rfl, rfl, rfl⟩)
      rw [hrecords]
      exact settle_intent_principal hsettle
    | manual_release accounts =>
      obtain ⟨_, -, -, -, hsettle⟩ := manual_release_ok hok
      exact .of_kept (settle_intent_principal hsettle)
        (moves_no_stake_of hix fun _ => ⟨rfl, rfl, rfl, rfl, rfl⟩)

end Booked

/-- What an event charges it charges to one owner, and awards to the last unit. -/
def ChargeAwarded (e : Event) : Prop :=
  ∃ (o : Pubkey) (beneficiaries : List Pubkey), beneficiaries.Nodup
    ∧ (∀ o', o' ≠ o → charged o' e = 0) ∧ (∀ b ∉ beneficiaries, awarded b e = 0)
    ∧ charged o e = (beneficiaries.map fun b => awarded b e).sum

/-- An event that charges nobody and awards nobody is balanced. -/
theorem ChargeAwarded.of_none {e : Event} (hcharged : ∀ o, charged o e = 0)
    (hawarded : ∀ b, awarded b e = 0) : ChargeAwarded e :=
  ⟨default, [], List.nodup_nil, fun o _ => hcharged o, fun b _ => hawarded b, hcharged default⟩

/-- A resolution charges the lock's owner exactly what its allocations award. The beneficiaries are
distinct, because the handler refuses a repeated one. -/
theorem resolve_charge_awarded {accounts : ResolveStakeLock} {lock_id : Bytes 32}
    {claims : List StakeClaim} {rt : Runtime} {e : Event}
    (hix : e.ix = .program (.stake (.resolve_stake_lock accounts lock_id claims)))
    (hv : e.Valid (step rt)) : ChargeAwarded e := by
  have hok := valid_execute hv hix
  simp only [TopLevel.execute, Instruction.execute, StakeInstruction.execute, bind_eq_ok,
    pure_eq_ok, Prod.exists, Prod.mk.injEq] at hok
  obtain ⟨_, _, ⟨r', hresolve, -⟩, -⟩ := hok
  obtain ⟨l, hl, hdistinct, -, -⟩ := resolve_stake_lock_moves hresolve
  have hcharged : ∀ o, charged o e = if l.stake_owner = o then claims_total claims else 0 := by
    intro o
    simp only [charged, hix, hl, Option.elim_some]
  have hawarded : ∀ b, awarded b e = claims_total (claims.filter fun c => c.beneficiary = b) := by
    intro b
    simp only [awarded, hix]
  -- the beneficiaries are distinct, so each is awarded exactly its own allocation
  refine ⟨l.stake_owner, claims.map StakeClaim.beneficiary, hdistinct, ?_, ?_, ?_⟩
  · intro o ho
    rw [hcharged, if_neg (Ne.symm ho)]
  · intro b hb
    rw [hawarded]
    refine claims_total_none fun c hc heq => hb ?_
    exact List.mem_map.mpr ⟨c, hc, heq⟩
  · rw [hcharged, if_pos rfl, List.map_map]
    show (claims.map StakeClaim.amount).sum = _
    congr 1
    refine List.map_congr_left fun c hc => ?_
    show c.amount = awarded c.beneficiary e
    rw [hawarded, claims_total_of hdistinct hc]

/-- Whatever an event charges, it awards; only disputes and resolutions charge. -/
theorem charge_awarded {rt : Runtime} {e : Event} (hv : e.Valid (step rt)) : ChargeAwarded e := by
  cases hix : e.ix with
  | ed25519 data =>
    exact .of_none (fun o => by simp only [charged, hix]) fun b => by simp only [awarded, hix]
  | external tokens =>
    exact .of_none (fun o => by simp only [charged, hix]) fun b => by simp only [awarded, hix]
  | program ix =>
    cases ix with
    | stake ix =>
      cases ix with
      | resolve_stake_lock accounts lock_id claims => exact resolve_charge_awarded hix hv
      | initialize_stake_token_vault | deposit_stake | withdraw_stake | claim_stake
      | initialize_claim_balance | controller_lock_stake | controller_fund_lock
      | increase_stake_lock | resize_stake_lock | controller_unlock_stake =>
        exact .of_none (fun o => by simp only [charged, hix]) fun b => by simp only [awarded, hix]
    | submit_dispute accounts args =>
      obtain ⟨d, _, _, _, _, _, hdisputed, -⟩ := submit_dispute_ok (valid_execute hv hix)
      -- a dispute has one beneficiary, the depositor it makes whole
      refine ⟨d.stake_owner, [d.depositor], List.nodup_singleton _, ?_, ?_, ?_⟩
      · intro o ho
        simp only [charged, hix, hdisputed.dispute_eq, Option.elim_some]
        rw [if_neg (Ne.symm ho)]
      · intro b hb
        simp only [awarded, hix, hdisputed.dispute_eq, Option.elim_some]
        rw [if_neg fun heq => hb (List.mem_singleton.mpr heq.symm)]
      · simp only [charged, awarded, hix, hdisputed.dispute_eq, Option.elim_some, List.map_cons,
          List.map_nil, List.sum_singleton, if_true]
    | open_records | rate_managers | whitelists | verifier | governance | dispute_policy
    | deposit_config | custody | signal_intent | cancel_intent | prune_expired_intent
    | prepare_dispute | cancel_dispute | release_matured_dispute | fulfill_intent
    | manual_release =>
      exact .of_none (fun o => by simp only [charged, hix]) fun b => by simp only [awarded, hix]

/-- The stake of an owner and the claim of a beneficiary are what the log says: what was staked,
less what the owner took out and what was charged to it; what was awarded, less what was
collected. And what is charged is awarded, no more and no less. -/
theorem stake_audited {rt : Runtime} {es : List Event} {s : State} (h : Run rt es s) :
    (∀ o, s.balance_of o + (es.map fun e => unstaked o e + charged o e).sum
      = (es.map (staked o)).sum)
      ∧ (∀ b, s.claim_of b + (es.map (collected b)).sum = (es.map (awarded b)).sum)
      ∧ ∀ e ∈ es, ChargeAwarded e := by
  have hledger : ∀ e ∈ es, LedgerOk e.pre := fun e he => ((Run.ledgerOk h).2 e he).1
  refine ⟨fun o => ?_, fun b => ?_, fun e he => charge_awarded (h.valid e he)⟩
  · refine TxMachine.Run.books (m := fun s => s.balance_of o) (G := fun e => LedgerOk e.pre) ?_ ?_ h
      hledger
    · intro s₀ h₀
      obtain ⟨_, _, _, _, _, _, _, -, -, -, rfl⟩ := genesis_initialized h₀
      rfl
    · exact fun e hs hv => (stake_booked hv hs).balance o
  · refine TxMachine.Run.books (m := fun s => s.claim_of b) (G := fun e => LedgerOk e.pre) ?_ ?_ h
      hledger
    · intro s₀ h₀
      obtain ⟨_, _, _, _, _, _, _, -, -, -, rfl⟩ := genesis_initialized h₀
      rfl
    · exact fun e hs hv => (stake_booked hv hs).claim b

/-- The depositor collects what the dispute awarded it, and the owner of the stake takes out part of
what the dispute left. -/
def sample_payouts : TxContext × List TopLevel :=
  (sample_ctx 3200,
    [.program (.stake (.claim_stake ⟨sample_depositor, sample_key 103⟩)),
      .program (.stake (.withdraw_stake ⟨sample_taker, sample_key 101⟩ 50))])

/-- On the cluster of the dispute all books move: 200 was staked, 100 of it charged and 50 taken out;
the 100 was awarded and collected. -/
theorem stake_audited_disputed :
    ∃ es s, Run sample_dispute_runtime es s
      ∧ s.balance_of sample_taker = 50 ∧ (es.map (staked sample_taker)).sum = 200
      ∧ (es.map (unstaked sample_taker)).sum = 50
      ∧ (es.map fun e => unstaked sample_taker e + charged sample_taker e).sum = 150
      ∧ s.claim_of sample_depositor = 0 ∧ (es.map (collected sample_depositor)).sum = 100
      ∧ (es.map (awarded sample_depositor)).sum = 100
      ∧ ∃ e ∈ es, charged sample_taker e = 100 ∧ ChargeAwarded e := by
  obtain ⟨es, s, hrun, hgood⟩ := sample_dispute_reaches
    [sample_setup, sample_cover, sample_fulfill, sample_submit, sample_payouts]
    (fun es s => decide (s.balance_of sample_taker = 50
      ∧ (es.map (staked sample_taker)).sum = 200 ∧ (es.map (unstaked sample_taker)).sum = 50
      ∧ s.claim_of sample_depositor = 0 ∧ (es.map (collected sample_depositor)).sum = 100)
      && es.any fun e => decide (charged sample_taker e = 100)) (by decide +kernel)
  simp only [Bool.and_eq_true, decide_eq_true_eq, List.any_eq_true] at hgood
  obtain ⟨⟨hbalance, hstaked, hunstaked, hclaim, hcollected⟩, e, he, hcharged⟩ := hgood
  obtain ⟨hstake, hclaims, hawards⟩ := stake_audited hrun
  have htaker := hstake sample_taker
  have hdepositor := hclaims sample_depositor
  refine ⟨es, s, hrun, hbalance, hstaked, hunstaked, by omega, hclaim, hcollected, by omega, e, he,
    hcharged, hawards e he⟩

end Zkp2pSolana
