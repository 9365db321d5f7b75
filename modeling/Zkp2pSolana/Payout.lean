/-
What a settlement pays out, and to whom.

`distribute_funds` computes fees and moves tokens in turns, with exact-delta
checks in between. This module separates the two: `fee_plan` is its arithmetic
alone, each operation checked as in the source, and `pay_all` is a sequence of
plain transfers. A settlement that succeeds is the plan paid out, to accounts
that belong to the recipient, the protocol, the snapshotted manager recipient and
the referrers (`distribute_funds_ok`), and a plan whose rates are within the
program's limits always exists, leaves something for the recipient and adds up
to the released amount (`fee_plan_ok`).
-/
import Zkp2pSolana.TokenMoves

set_option autoImplicit false

namespace Zkp2pSolana

open Result Zkp2pError

/-! ## Token accounts up to their amounts -/

/-- The two ledgers have the same token accounts, up to their amounts. -/
def SameAccounts (T U : Accounts TokenAccount) : Prop :=
  ∀ k, (U.lookup k).map (fun a => (a.mint, a.owner)) = (T.lookup k).map fun a => (a.mint, a.owner)

section SameAccounts

variable {T T' U : Accounts TokenAccount}

theorem SameAccounts.refl (T : Accounts TokenAccount) : SameAccounts T T := fun _ => rfl

theorem SameAccounts.trans {T'' : Accounts TokenAccount} (h : SameAccounts T T')
    (h' : SameAccounts T' T'') : SameAccounts T T'' := fun k => (h' k).trans (h k)

theorem SameAccounts.symm (h : SameAccounts T T') : SameAccounts T' T := fun k => (h k).symm

/-- An account of one ledger is an account of the other, with the same mint and owner. -/
theorem SameAccounts.lookup (h : SameAccounts T U) {k : Pubkey} {a : TokenAccount}
    (ha : T.lookup k = some a) :
    ∃ b, U.lookup k = some b ∧ b.mint = a.mint ∧ b.owner = a.owner := by
  have hk := h k
  rw [ha] at hk
  obtain ⟨b, hb, hsame⟩ := Option.map_eq_some_iff.mp hk
  obtain ⟨hmint, howner⟩ := Prod.mk.inj hsame
  exact ⟨b, hb, hmint, howner⟩

/-- Writing back an account with another amount. -/
theorem SameAccounts.insert {k : Pubkey} {a : TokenAccount} {x : ℕ} (ha : T.lookup k = some a) :
    SameAccounts T (T.insert k { a with amount := x }) := by
  intro k'
  rw [Finmap.lookup_insert_ite]
  split_ifs with hk
  · rw [hk, ha]
    rfl
  · rfl

/-- Ledgers with the same accounts and the same balances are the same. -/
theorem SameAccounts.ext (h : SameAccounts T U) (hbalance : ∀ k, balance U k = balance T k) :
    U = T := by
  refine Finmap.ext_lookup fun k => ?_
  cases ha : T.lookup k with
  | none =>
    have hk := h k
    rw [ha] at hk
    exact Option.map_eq_none_iff.mp hk
  | some a =>
    obtain ⟨b, hb, hmint, howner⟩ := h.lookup ha
    have hamount := hbalance k
    unfold balance at hamount
    rw [ha, hb] at hamount
    rw [hb]
    obtain ⟨m, o, x⟩ := a
    obtain ⟨m', o', x'⟩ := b
    cases hmint
    cases howner
    cases (hamount : x' = x)
    rfl

/-- Owners agree at every address, absent accounts included. -/
theorem SameAccounts.owners (h : SameAccounts T U) (k : Pubkey) :
    (U.lookup k).map TokenAccount.owner = (T.lookup k).map TokenAccount.owner := by
  have hk := congrArg (Option.map Prod.snd) (h k)
  rw [Option.map_map, Option.map_map] at hk
  exact hk

end SameAccounts

/-! ## Sequences of payments -/

/-- One payment: the account credited and the amount. -/
structure Payment where
  destination : Pubkey
  amount : ℕ

/-- The payments in order, each a transfer out of `vault`. -/
def pay_all (vault mint authority : Pubkey) :
    List Payment → Accounts TokenAccount → ProgramResult (Accounts TokenAccount)
  | [], tokens => .ok tokens
  | p :: rest, tokens => do
    let tokens ← transfer_checked tokens vault p.destination mint authority p.amount
    pay_all vault mint authority rest tokens

/-- What all the payments take together. -/
def total_paid (ps : List Payment) : ℕ := (ps.map Payment.amount).sum

section Payments

variable {vault mint authority : Pubkey} {T T' T'' : Accounts TokenAccount}

theorem pay_all_append {ps qs : List Payment} (h : pay_all vault mint authority ps T = .ok T')
    (h' : pay_all vault mint authority qs T' = .ok T'') :
    pay_all vault mint authority (ps ++ qs) T = .ok T'' := by
  induction ps generalizing T with
  | nil =>
    simp only [pay_all, ok_eq_ok] at h
    subst h
    exact h'
  | cons p rest ih =>
    simp only [pay_all, bind_eq_ok] at h
    obtain ⟨T₁, htransfer, hrest⟩ := h
    simp only [List.cons_append, pay_all, bind_eq_ok]
    exact ⟨T₁, htransfer, ih hrest⟩

/-- A transfer neither creates nor reassigns an account. -/
theorem transfer_checked_accounts {src dst : Pubkey} {x : ℕ}
    (h : transfer_checked T src dst mint authority x = .ok T') :
    SameAccounts T T' := by
  obtain ⟨a, b, ha, hb, -, -, -, -, ⟨-, rfl⟩ | ⟨hne, -, rfl⟩⟩ := transfer_checked_ok h
  · exact .refl _
  · have hb' : (T.insert src { a with amount := a.amount - x }).lookup dst = some b := by
      rw [Finmap.lookup_insert_of_ne _ (Ne.symm hne), hb]
    exact (SameAccounts.insert ha).trans (SameAccounts.insert hb')

theorem pay_all_accounts {ps : List Payment} (h : pay_all vault mint authority ps T = .ok T') :
    SameAccounts T T' := by
  induction ps generalizing T with
  | nil =>
    simp only [pay_all, ok_eq_ok] at h
    rw [h]
    exact .refl _
  | cons p rest ih =>
    simp only [pay_all, bind_eq_ok] at h
    obtain ⟨T₁, htransfer, hrest⟩ := h
    exact (transfer_checked_accounts htransfer).trans (ih hrest)

/-- Only the destination of a transfer is credited. -/
theorem transfer_checked_credited {src dst : Pubkey} {x : ℕ}
    (h : transfer_checked T src dst mint authority x = .ok T') {k : Pubkey} (hk : k ≠ dst) :
    balance T' k ≤ balance T k := by
  obtain ⟨a, b, ha, -, -, -, -, -, ⟨-, rfl⟩ | ⟨-, -, rfl⟩⟩ := transfer_checked_ok h
  · exact le_rfl
  · unfold balance
    rw [Finmap.lookup_insert_of_ne _ hk, Finmap.lookup_insert_ite]
    by_cases hs : k = src
    · rw [if_pos hs, hs, ha]
      exact Nat.sub_le _ _
    · rw [if_neg hs]

theorem pay_all_credited {ps : List Payment} (h : pay_all vault mint authority ps T = .ok T')
    {k : Pubkey} (hk : ∀ p ∈ ps, p.destination ≠ k) : balance T' k ≤ balance T k := by
  induction ps generalizing T with
  | nil =>
    simp only [pay_all, ok_eq_ok] at h
    rw [h]
  | cons p rest ih =>
    simp only [pay_all, bind_eq_ok] at h
    obtain ⟨T₁, htransfer, hrest⟩ := h
    have hfirst := transfer_checked_credited htransfer (hk p List.mem_cons_self).symm
    exact (ih hrest fun q hq => hk q (List.mem_cons_of_mem _ hq)).trans hfirst

end Payments

/-! ## The fee arithmetic -/

/-- What `distribute_funds` computes: the parts of a released amount. -/
structure FeePlan where
  protocol : ℕ
  manager : ℕ
  referrals : List ℕ
  net : ℕ

/-- The fees of a plan. -/
def FeePlan.fees (plan : FeePlan) : ℕ := plan.protocol + plan.manager + plan.referrals.sum

/-- The arithmetic of the referral loop: the amounts, and the fee total they are added to. -/
def referral_plan (release_amount : ℕ) : List ReferralFee → ℕ → ProgramResult (List ℕ × ℕ)
  | [], total_fees => .ok ([], total_fees)
  | fee :: rest, total_fees => do
    let amount ← precise_mul_floor release_amount fee.fee
    let total_fees ← ok_or (Checked.add 64 total_fees amount) ArithmeticOverflow
    let (amounts, total_fees) ← referral_plan release_amount rest total_fees
    return (amount :: amounts, total_fees)

/-- The arithmetic of `distribute_funds`, in its order. -/
def fee_plan (protocol_fee : ℕ) (intent : Intent) (release_amount : ℕ) : ProgramResult FeePlan := do
  let protocol ← precise_mul_floor release_amount protocol_fee
  let manager ← precise_mul_floor release_amount intent.manager_fee
  let fees ← ok_or (Checked.add 64 protocol manager) ArithmeticOverflow
  let (referrals, total_fees) ← referral_plan release_amount intent.referral_fees fees
  let net ← ok_or (Checked.sub release_amount total_fees) ArithmeticOverflow
  return ⟨protocol, manager, referrals, net⟩

/-- The part a rate takes, rounded down, as long as it fits in a word. -/
theorem precise_mul_floor_eq_ok {amount rate x : ℕ} :
    precise_mul_floor amount rate = .ok x
      ↔ amount * rate / PRECISE_UNIT < 2 ^ 64 ∧ amount * rate / PRECISE_UNIT = x := by
  simp only [precise_mul_floor, bind_eq_ok, ok_or_eq_ok, Checked.mul_eq_some, require_eq_ok,
    exists_const, pure_eq_ok]
  constructor
  · rintro ⟨_, ⟨-, rfl⟩, hword, hx⟩
    exact ⟨hword, hx⟩
  · rintro ⟨hword, hx⟩
    -- a quotient of one word was a product of less than two
    have hproduct : amount * rate < 2 ^ 128 := by
      have hunit : 0 < PRECISE_UNIT := by decide
      have hlt := (Nat.div_lt_iff_lt_mul hunit).mp hword
      have htwo : 2 ^ 64 * PRECISE_UNIT < 2 ^ 128 := by decide
      omega
    exact ⟨_, ⟨hproduct, rfl⟩, hword, hx⟩

/-- A part of at most the whole never overflows. -/
theorem precise_mul_floor_eq {amount rate : ℕ} (hamount : amount < 2 ^ 64)
    (hrate : rate ≤ PRECISE_UNIT) :
    precise_mul_floor amount rate = .ok (amount * rate / PRECISE_UNIT) := by
  have hle : amount * rate / PRECISE_UNIT ≤ amount := by
    apply Nat.div_le_of_le_mul
    rw [Nat.mul_comm PRECISE_UNIT]
    exact Nat.mul_le_mul_left amount hrate
  exact precise_mul_floor_eq_ok.mpr ⟨by omega, rfl⟩

/-- Floors taken apart are at most the floor taken together. -/
theorem sum_div_le (r u : ℕ) (rates : List ℕ) :
    (rates.map fun rate => r * rate / u).sum ≤ r * rates.sum / u := by
  induction rates with
  | nil => simp
  | cons rate rest ih =>
    rw [List.map_cons, List.sum_cons, List.sum_cons, Nat.mul_add]
    have hadd := Nat.div_add_div_le_add_div (x := r * rate) (y := r * rest.sum) (z := u)
    omega

/-- Rates within the limits together take at most six tenths. -/
theorem floors_le (r : ℕ) {rates : List ℕ}
    (h : rates.sum ≤ MAX_FEE + MAX_FEE + MAX_REFERRAL_FEE) :
    (rates.map fun rate => r * rate / PRECISE_UNIT).sum ≤ 6 * r / 10 := by
  have hlimit : (MAX_FEE + MAX_FEE + MAX_REFERRAL_FEE) * 10 = 6 * PRECISE_UNIT := by decide
  have hunit : 0 < PRECISE_UNIT := by decide
  refine (sum_div_le r PRECISE_UNIT rates).trans ?_
  rw [Nat.le_div_iff_mul_le (by decide), Nat.mul_comm 6 r]
  apply Nat.le_of_mul_le_mul_right _ hunit
  calc r * rates.sum / PRECISE_UNIT * 10 * PRECISE_UNIT
      = r * rates.sum / PRECISE_UNIT * PRECISE_UNIT * 10 := Nat.mul_right_comm _ _ _
    _ ≤ r * rates.sum * 10 := Nat.mul_le_mul_right 10 (Nat.div_mul_le_self _ _)
    _ ≤ r * (MAX_FEE + MAX_FEE + MAX_REFERRAL_FEE) * 10 :=
        Nat.mul_le_mul_right 10 (Nat.mul_le_mul_left r h)
    _ = r * 6 * PRECISE_UNIT := by rw [Nat.mul_assoc, hlimit, Nat.mul_assoc]

/-- The arithmetic of the loop, when what it adds up fits in a word. -/
theorem referral_plan_eq {r : ℕ} (hr : r < 2 ^ 64) {fees : List ReferralFee} {total : ℕ}
    (hrates : ∀ fee ∈ fees, fee.fee ≤ PRECISE_UNIT)
    (htotal : total + (fees.map fun fee => r * fee.fee / PRECISE_UNIT).sum < 2 ^ 64) :
    referral_plan r fees total = .ok (fees.map fun fee => r * fee.fee / PRECISE_UNIT,
      total + (fees.map fun fee => r * fee.fee / PRECISE_UNIT).sum) := by
  induction fees generalizing total with
  | nil => rfl
  | cons fee rest ih =>
    rw [List.map_cons, List.sum_cons] at htotal ⊢
    have hamount := precise_mul_floor_eq hr (hrates fee List.mem_cons_self)
    have hroom : total + r * fee.fee / PRECISE_UNIT
        + (rest.map fun fee => r * fee.fee / PRECISE_UNIT).sum < 2 ^ 64 := by omega
    have hrest := ih (fun f hf => hrates f (List.mem_cons_of_mem _ hf)) hroom
    simp only [referral_plan, bind_eq_ok, ok_or_eq_ok, Checked.add_eq_some, pure_eq_ok]
    refine ⟨_, hamount, _, ⟨by omega, rfl⟩, _, hrest, ?_⟩
    rw [Nat.add_assoc]

/-! ## Rates within the limits -/

/-- The rates of an intent are within the program's limits, and a manager fee has a recipient. -/
structure IntentRates (i : Intent) : Prop where
  manager : i.manager_fee ≤ MAX_FEE
  recipient : 0 < i.manager_fee → i.manager_fee_recipient.isSome = true
  referrals : (i.referral_fees.map ReferralFee.fee).sum ≤ MAX_REFERRAL_FEE

/-- With rates within the limits the plan exists: the fees take at most six tenths, so the recipient
is left with something, and the parts add up to the released amount. -/
theorem fee_plan_ok {protocol_fee : ℕ} {i : Intent} (hprotocol : protocol_fee ≤ MAX_FEE)
    (hi : IntentRates i) {r : ℕ} (hpos : 1 ≤ r) (hr : r < 2 ^ 64) :
    ∃ plan, fee_plan protocol_fee i r = .ok plan ∧ plan.fees ≤ 6 * r / 10 ∧ 1 ≤ plan.net
      ∧ plan.fees + plan.net = r ∧ (0 < plan.manager → 0 < i.manager_fee) := by
  have hmax : MAX_FEE ≤ PRECISE_UNIT := by decide
  have hmax' : MAX_REFERRAL_FEE ≤ PRECISE_UNIT := by decide
  have hmanager := hi.manager
  have hreferral := hi.referrals
  -- the three rates together are at most sixty percent, and rounding down only helps
  have hfees : r * protocol_fee / PRECISE_UNIT + r * i.manager_fee / PRECISE_UNIT
      + (i.referral_fees.map fun fee => r * fee.fee / PRECISE_UNIT).sum ≤ 6 * r / 10 := by
    have hlimit : (protocol_fee :: i.manager_fee :: i.referral_fees.map ReferralFee.fee).sum
        ≤ MAX_FEE + MAX_FEE + MAX_REFERRAL_FEE := by
      rw [List.sum_cons, List.sum_cons]
      omega
    have hsum := floors_le r hlimit
    rw [List.map_cons, List.map_cons, List.map_map, List.sum_cons, List.sum_cons] at hsum
    rw [Nat.add_assoc]
    exact hsum
  have hrates : ∀ fee ∈ i.referral_fees, fee.fee ≤ PRECISE_UNIT := by
    intro fee hfee
    have hle := List.le_sum_of_mem (List.mem_map_of_mem (f := ReferralFee.fee) hfee)
    omega
  have hprotocol_eq := precise_mul_floor_eq hr (hprotocol.trans hmax)
  have hmanager_eq := precise_mul_floor_eq hr (hi.manager.trans hmax)
  -- with the fees below the amount, no addition of the plan can overflow
  have hroom : r * protocol_fee / PRECISE_UNIT + r * i.manager_fee / PRECISE_UNIT
      + (i.referral_fees.map fun fee => r * fee.fee / PRECISE_UNIT).sum < 2 ^ 64 := by omega
  have hreferrals := referral_plan_eq hr hrates hroom
  refine ⟨{ protocol := r * protocol_fee / PRECISE_UNIT
            manager := r * i.manager_fee / PRECISE_UNIT
            referrals := i.referral_fees.map fun fee => r * fee.fee / PRECISE_UNIT
            net := r - (r * protocol_fee / PRECISE_UNIT + r * i.manager_fee / PRECISE_UNIT
              + (i.referral_fees.map fun fee => r * fee.fee / PRECISE_UNIT).sum) },
    ?_, hfees, ?_, ?_, fun hpositive => ?_⟩
  · simp only [fee_plan, bind_eq_ok, ok_or_eq_ok, Checked.add_eq_some, Checked.sub_eq_some,
      pure_eq_ok]
    exact ⟨_, hprotocol_eq, _, hmanager_eq, _, ⟨by omega, rfl⟩, _, hreferrals, _,
      ⟨by dsimp only; omega, rfl⟩, rfl⟩
  · dsimp only
    omega
  · unfold FeePlan.fees
    dsimp only
    omega
  -- a positive fee comes from a positive rate
  · by_contra hzero
    dsimp only at hpositive
    rw [Nat.eq_zero_of_not_pos hzero, Nat.mul_zero, Nat.zero_div] at hpositive
    exact absurd hpositive (Nat.lt_irrefl 0)

/-! ## A settlement is its plan, paid out -/

/-- Nothing is sent for a part that is zero. -/
def nonzero (ps : List Payment) : List Payment := ps.filter fun p => 0 < p.amount

/-- The payments of a plan, in the order of `distribute_funds`. -/
def FeePlan.payments (plan : FeePlan) (protocol_token : Pubkey) (manager_token : Option Pubkey)
    (referral_tokens : List Pubkey) (recipient_token : Pubkey) : List Payment :=
  nonzero [⟨protocol_token, plan.protocol⟩]
    ++ nonzero (manager_token.toList.map fun k => ⟨k, plan.manager⟩)
    ++ nonzero (List.zipWith Payment.mk referral_tokens plan.referrals)
    ++ [⟨recipient_token, plan.net⟩]

/-- The payments of a plan to the accounts a settlement was given. -/
def SettlementTokens.payments (t : SettlementTokens) (remaining_accounts : List AccountInfo)
    (plan : FeePlan) : List Payment :=
  plan.payments t.protocol_fee_token.key (t.manager_fee_token.map Account.key)
    (remaining_accounts.map AccountInfo.key) t.recipient_token.key

/-- Who a settlement of the intent may pay. -/
def Payee (i : Intent) (o : OrchestratorConfig) (owner : Pubkey) : Prop :=
  owner = i.recipient ∨ owner = o.protocol_fee_recipient ∨ i.manager_fee_recipient = some owner
    ∨ ∃ fee ∈ i.referral_fees, fee.recipient = owner

section Settlement

variable {deposit_key mint : Pubkey} {deposit : Deposit} {T T' : Accounts TokenAccount}

/-- `transfer_exact` is a transfer by the token program that has been checked afterwards. -/
theorem transfer_exact_ok {source destination source' destination' : Account TokenAccount} {x : ℕ}
    (h : transfer_exact deposit_key deposit source destination mint x T
      = .ok (T', source', destination')) :
    transfer_checked T source.key destination.key mint deposit_key x = .ok T'
      ∧ source'.key = source.key := by
  simp only [transfer_exact, Account.reload, bind_eq_ok, require_eq_ok, exists_const, pure_eq_ok,
    Prod.mk.injEq] at h
  obtain ⟨-, -, T₁, htransfer, _, ⟨_, -, rfl⟩, _, -, _, -, _, -, -, rfl, rfl, rfl⟩ := h
  exact ⟨htransfer, rfl⟩

/-- The protocol's fee as a batch of payments; a zero fee is no payment. -/
theorem pay_protocol_ok {t t' : SettlementTokens} {fee : ℕ}
    (h : pay_protocol deposit_key deposit t fee T = .ok (T', t')) :
    pay_all t.deposit_vault.key t.mint deposit_key (nonzero [⟨t.protocol_fee_token.key, fee⟩]) T
        = .ok T'
      ∧ t'.deposit_vault.key = t.deposit_vault.key ∧ t'.mint = t.mint
      ∧ t'.manager_fee_token = t.manager_fee_token ∧ t'.recipient_token = t.recipient_token := by
  simp only [pay_protocol, ite_eq_ok, bind_eq_ok, pure_eq_ok, ok_eq_ok, Prod.mk.injEq] at h
  rcases h with ⟨hpos, ⟨T₁, vault, destination⟩, hpay, rfl, rfl⟩ | ⟨hzero, rfl, rfl⟩
  · obtain ⟨htransfer, hkey⟩ := transfer_exact_ok hpay
    refine ⟨?_, hkey, rfl, rfl, rfl⟩
    simp only [nonzero, List.filter_cons, decide_eq_true hpos, if_true, List.filter_nil, pay_all,
      bind_eq_ok, ok_eq_ok]
    exact ⟨_, htransfer, rfl⟩
  · refine ⟨?_, rfl, rfl, rfl, rfl⟩
    simp [nonzero, hzero, pay_all]

theorem pay_manager_ok {intent : Intent} {t t' : SettlementTokens} {fee : ℕ}
    (h : pay_manager intent deposit_key deposit t fee T = .ok (T', t')) :
    pay_all t.deposit_vault.key t.mint deposit_key
        (nonzero ((t.manager_fee_token.map Account.key).toList.map fun k => ⟨k, fee⟩)) T = .ok T'
      ∧ t'.deposit_vault.key = t.deposit_vault.key ∧ t'.mint = t.mint
      ∧ t'.recipient_token = t.recipient_token
      ∧ (∀ a ∈ t.manager_fee_token, intent.manager_fee_recipient = some a.data.owner)
      ∧ (0 < fee → t.manager_fee_token.isSome = true) := by
  simp only [pay_manager, ite_eq_ok, bind_eq_ok, require_eq_ok, exists_const, ok_or_eq_ok,
    pure_eq_ok, Prod.mk.injEq] at h
  -- a positive fee needs recipient and destination, and a zero fee needs the destination absent
  rcases h with ⟨hpos, recipient, hrecipient, destination, hdestination, -, howner,
    ⟨T₁, vault, destination'⟩, hpay, rfl, rfl⟩ | ⟨hzero, hnone, rfl, rfl⟩
  · obtain ⟨htransfer, hkey⟩ := transfer_exact_ok hpay
    refine ⟨?_, hkey, rfl, rfl, fun a ha => ?_, fun _ => by rw [hdestination]; rfl⟩
    · simp only [hdestination, Option.map_some, Option.toList_some, List.map_cons, List.map_nil,
        nonzero, List.filter_cons, decide_eq_true hpos, if_true, List.filter_nil, pay_all,
        bind_eq_ok, ok_eq_ok]
      exact ⟨_, htransfer, rfl⟩
    · rw [hdestination] at ha
      obtain rfl := Option.some.inj ha
      rw [hrecipient, howner]
  · rw [Option.isNone_iff_eq_none] at hnone
    refine ⟨?_, rfl, rfl, rfl, fun a ha => ?_, fun hpos => absurd hpos hzero⟩
    · simp [hnone, nonzero, pay_all]
    · rw [hnone] at ha
      cases ha

/-- The referral loop computes what `referral_plan` computes and pays the nonzero amounts, each to
an account of its referrer. -/
theorem pay_referrals_ok {r : ℕ} {fees : List (ReferralFee × AccountInfo)}
    {vault vault' : Account TokenAccount} {total total' : ℕ}
    (h : pay_referrals r deposit_key deposit mint fees vault total T = .ok (T', vault', total')) :
    ∃ amounts, referral_plan r (fees.map Prod.fst) total = .ok (amounts, total')
      ∧ pay_all vault.key mint deposit_key
        (nonzero (List.zipWith Payment.mk (fees.map fun entry => entry.2.key) amounts)) T = .ok T'
      ∧ vault'.key = vault.key
      ∧ ∀ entry ∈ fees,
        (T.lookup entry.2.key).map TokenAccount.owner = some entry.1.recipient := by
  -- induction on the fees still to pay; a transfer reassigns no account, so what a later turn
  -- reads of an owner was so from the start
  induction fees generalizing vault total T with
  | nil =>
    simp only [pay_referrals, ok_eq_ok, Prod.mk.injEq] at h
    obtain ⟨rfl, rfl, rfl⟩ := h
    exact ⟨[], rfl, rfl, rfl, by simp⟩
  | cons entry rest ih =>
    obtain ⟨fee, account⟩ := entry
    simp only [pay_referrals, bind_eq_ok, load_eq_ok, require_eq_ok, exists_const, ite_eq_ok,
      Prod.exists] at h
    obtain ⟨x, hx, subtotal, hsubtotal, destination, hdestination, -, howner, h⟩ := h
    have hfirst : (T.lookup account.key).map TokenAccount.owner = some fee.recipient := by
      rw [hdestination, ← howner]
      rfl
    rcases h with ⟨hpos, T₁, vault₁, destination', hpay, hrest⟩ | ⟨hzero, hrest⟩
    · obtain ⟨htransfer, hkey⟩ := transfer_exact_ok hpay
      obtain ⟨amounts, hplan, hpaid, hkey', howners⟩ := ih hrest
      rw [hkey] at hpaid hkey'
      refine ⟨x :: amounts, ?_, ?_, hkey', fun entry hentry => ?_⟩
      · simp only [List.map_cons, referral_plan, bind_eq_ok, pure_eq_ok]
        exact ⟨x, hx, subtotal, hsubtotal, _, hplan, rfl⟩
      · simp only [nonzero, List.map_cons, List.zipWith_cons_cons, List.filter_cons,
          decide_eq_true hpos, if_true, pay_all, bind_eq_ok]
        exact ⟨_, htransfer, hpaid⟩
      · rcases List.mem_cons.mp hentry with rfl | hentry
        · exact hfirst
        · rw [← (transfer_checked_accounts htransfer).owners]
          exact howners entry hentry
    · obtain ⟨amounts, hplan, hpaid, hkey', howners⟩ := ih hrest
      refine ⟨x :: amounts, ?_, ?_, hkey', fun entry hentry => ?_⟩
      · simp only [List.map_cons, referral_plan, bind_eq_ok, pure_eq_ok]
        exact ⟨x, hx, subtotal, hsubtotal, _, hplan, rfl⟩
      · simp only [nonzero, List.map_cons, List.zipWith_cons_cons, List.filter_cons,
          decide_eq_false hzero]
        exact hpaid
      · rcases List.mem_cons.mp hentry with rfl | hentry
        · exact hfirst
        · exact howners entry hentry

/-- The handles hold what the ledger holds. -/
structure SettlementTokens.Fresh (t : SettlementTokens) (T : Accounts TokenAccount) : Prop where
  vault : T.lookup t.deposit_vault.key = some t.deposit_vault.data
  recipient : T.lookup t.recipient_token.key = some t.recipient_token.data
  protocol : T.lookup t.protocol_fee_token.key = some t.protocol_fee_token.data
  manager : ∀ a ∈ t.manager_fee_token, T.lookup a.key = some a.data

/-- The handles a settlement starts from agree with the ledger. -/
theorem SettlementTokenAccounts.load_fresh {accounts : SettlementTokenAccounts}
    {t : SettlementTokens} (h : accounts.load T = .ok t) : t.Fresh T := by
  simp only [SettlementTokenAccounts.load, bind_eq_ok, load_eq_ok, mutable_once_eq_ok, exists_const,
    pure_eq_ok] at h
  obtain ⟨vault, hvault, recipient, hrecipient, protocol, hprotocol, manager, hmanager, -, rfl⟩ := h
  exact ⟨hvault, hrecipient, hprotocol, (load_opt_eq_ok.mp hmanager).2⟩

variable {intent : Intent} {o : OrchestratorConfig} {t : SettlementTokens}
  {remaining_accounts : List AccountInfo} {r : ℕ}

/-- What is asked of the accounts before anything is paid: the mint, the deposit's own vault, and
the recipients. -/
theorem check_settlement_tokens_ok {u : Unit}
    (h : check_settlement_tokens intent o deposit_key deposit t = .ok u) :
    t.mint = deposit.token_mint ∧ t.deposit_vault.key = deposit_vault_address deposit_key
      ∧ t.deposit_vault.data.mint = t.mint ∧ t.deposit_vault.data.owner = deposit_key
      ∧ t.recipient_token.data.mint = t.mint ∧ t.recipient_token.data.owner = intent.recipient
      ∧ t.protocol_fee_token.data.mint = t.mint
      ∧ t.protocol_fee_token.data.owner = o.protocol_fee_recipient := by
  simp only [check_settlement_tokens, bind_eq_ok, require_eq_ok, exists_const] at h
  exact h

/-- The turns of a settlement that succeeds, with the plan they carry out. -/
theorem distribute_funds_turns
    (h : distribute_funds intent o deposit_key deposit t remaining_accounts r T = .ok T') :
    ∃ plan T₁ t₁ T₂ t₂ T₃ vault vault' destination',
      check_settlement_tokens intent o deposit_key deposit t = .ok ()
      ∧ remaining_accounts.length = intent.referral_fees.length
      ∧ fee_plan o.protocol_fee intent r = .ok plan
      ∧ pay_protocol deposit_key deposit t plan.protocol T = .ok (T₁, t₁)
      ∧ pay_manager intent deposit_key deposit t₁ plan.manager T₁ = .ok (T₂, t₂)
      ∧ pay_all t₂.deposit_vault.key t₂.mint deposit_key (nonzero (List.zipWith Payment.mk
        (remaining_accounts.map AccountInfo.key) plan.referrals)) T₂ = .ok T₃
      ∧ vault.key = t₂.deposit_vault.key
      ∧ transfer_exact deposit_key deposit vault t₂.recipient_token t₂.mint plan.net T₃
        = .ok (T', vault', destination')
      ∧ ∀ entry ∈ intent.referral_fees.zip remaining_accounts,
        (T₂.lookup entry.2.key).map TokenAccount.owner = some entry.1.recipient := by
  simp only [distribute_funds, bind_eq_ok, require_eq_ok, exists_const, pure_eq_ok,
    Prod.exists] at h
  obtain ⟨_, hchecks, hlength, protocol, hprotocol_fee, manager, hmanager_fee, fees, hfees, T₁, t₁,
    hpay₁, T₂, t₂, hpay₂, T₃, vault₃, total, hpay₃, net, hnet, _, vault', destination', hpay₄,
    rfl⟩ := h
  obtain ⟨amounts, hplan, hpaid₃, hkey₃, howners⟩ := pay_referrals_ok hpay₃
  -- the loop runs over pairs; the fees and the accounts of the pairs are the two lists again
  have hfst : (intent.referral_fees.zip remaining_accounts).map Prod.fst = intent.referral_fees :=
    List.map_fst_zip hlength.ge
  have hsnd : ((intent.referral_fees.zip remaining_accounts).map fun entry => entry.2.key)
      = remaining_accounts.map AccountInfo.key := by
    calc (intent.referral_fees.zip remaining_accounts).map (fun entry => entry.2.key)
        = ((intent.referral_fees.zip remaining_accounts).map Prod.snd).map AccountInfo.key := by
          rw [List.map_map]
          rfl
      _ = remaining_accounts.map AccountInfo.key := by rw [List.map_snd_zip hlength.le]
  rw [hfst] at hplan
  rw [hsnd] at hpaid₃
  refine ⟨⟨protocol, manager, amounts, net⟩, T₁, t₁, T₂, t₂, T₃, vault₃, vault', destination',
    hchecks, hlength, ?_, hpay₁, hpay₂, hpaid₃, hkey₃, hpay₄, howners⟩
  simp only [fee_plan, bind_eq_ok, pure_eq_ok]
  exact ⟨protocol, hprotocol_fee, manager, hmanager_fee, fees, hfees, _, hplan, net, hnet, rfl⟩

/-- A settlement that succeeds is its plan paid out of the deposit's vault. -/
theorem distribute_funds_ok
    (h : distribute_funds intent o deposit_key deposit t remaining_accounts r T = .ok T') :
    ∃ plan, fee_plan o.protocol_fee intent r = .ok plan
      ∧ pay_all (deposit_vault_address deposit_key) t.mint deposit_key
        (t.payments remaining_accounts plan) T = .ok T'
      ∧ remaining_accounts.length = intent.referral_fees.length
      ∧ (0 < plan.manager → t.manager_fee_token.isSome = true)
      ∧ t.recipient_token.data.owner = intent.recipient
      ∧ t.protocol_fee_token.data.owner = o.protocol_fee_recipient
      ∧ (∀ a ∈ t.manager_fee_token, intent.manager_fee_recipient = some a.data.owner)
      ∧ ∀ entry ∈ intent.referral_fees.zip remaining_accounts,
        (T.lookup entry.2.key).map TokenAccount.owner = some entry.1.recipient := by
  obtain ⟨plan, T₁, t₁, T₂, t₂, T₃, vault₃, _, _, hchecks, hlength, hplan, hpay₁, hpay₂, hpaid₃,
    hkey₃, hpay₄, howners⟩ := distribute_funds_turns h
  obtain ⟨-, hvault, -, -, -, hrecipient, -, hprotocol⟩ := check_settlement_tokens_ok hchecks
  obtain ⟨hpaid₁, hkey₁, hmint₁, hmanager₁, hrecipient₁⟩ := pay_protocol_ok hpay₁
  obtain ⟨hpaid₂, hkey₂, hmint₂, hrecipient₂, hmanager, hsupplied⟩ := pay_manager_ok hpay₂
  obtain ⟨htransfer, -⟩ := transfer_exact_ok hpay₄
  rw [hkey₃, hkey₂, hkey₁, hvault, hmint₂, hmint₁, hrecipient₂, hrecipient₁] at htransfer
  rw [hkey₂, hkey₁, hvault, hmint₂, hmint₁] at hpaid₃
  rw [hkey₁, hvault, hmint₁, hmanager₁] at hpaid₂
  rw [hvault] at hpaid₁
  rw [hmanager₁] at hmanager hsupplied
  refine ⟨plan, hplan, ?_, hlength, hsupplied, hrecipient, hprotocol, hmanager, fun entry hentry => ?_⟩
  · refine pay_all_append (pay_all_append (pay_all_append hpaid₁ hpaid₂) hpaid₃) ?_
    simp only [pay_all, bind_eq_ok, ok_eq_ok]
    exact ⟨_, htransfer, rfl⟩
  · -- the two payments before the loop reassign nothing
    rw [← (pay_all_accounts hpaid₁).owners, ← (pay_all_accounts hpaid₂).owners]
    exact howners entry hentry

theorem total_paid_append (ps qs : List Payment) :
    total_paid (ps ++ qs) = total_paid ps + total_paid qs := by
  simp [total_paid]

theorem total_paid_nonzero (ps : List Payment) : total_paid (nonzero ps) = total_paid ps := by
  induction ps with
  | nil => rfl
  | cons p rest ih =>
    unfold total_paid nonzero at ih ⊢
    by_cases hpos : 0 < p.amount
    · simp [hpos, ih]
    · simp [Nat.eq_zero_of_not_pos hpos, ih]

theorem referral_plan_length {fees : List ReferralFee} {total total' : ℕ} {amounts : List ℕ}
    (h : referral_plan r fees total = .ok (amounts, total')) : amounts.length = fees.length := by
  induction fees generalizing total amounts with
  | nil =>
    simp only [referral_plan, ok_eq_ok, Prod.mk.injEq] at h
    rw [← h.1]
    rfl
  | cons fee rest ih =>
    simp only [referral_plan, bind_eq_ok, pure_eq_ok, Prod.mk.injEq, Prod.exists] at h
    obtain ⟨_, -, _, -, _, _, hrest, rfl, rfl⟩ := h
    rw [List.length_cons, List.length_cons, ih hrest]

theorem total_paid_zip {ks : List Pubkey} {amounts : List ℕ} (h : ks.length = amounts.length) :
    total_paid (List.zipWith Payment.mk ks amounts) = amounts.sum := by
  induction ks generalizing amounts with
  | nil =>
    rw [List.length_nil] at h
    rw [List.length_eq_zero_iff.mp h.symm]
    rfl
  | cons k rest ih =>
    cases amounts with
    | nil => cases h
    | cons x xs =>
      rw [List.length_cons, List.length_cons, Nat.add_right_cancel_iff] at h
      have hrest := ih h
      unfold total_paid at hrest ⊢
      rw [List.zipWith_cons_cons, List.map_cons, List.sum_cons, List.sum_cons, hrest]

/-- All the parts of the plan are sent. -/
theorem total_paid_payments {plan : FeePlan} (hplan : fee_plan o.protocol_fee intent r = .ok plan)
    (hlength : remaining_accounts.length = intent.referral_fees.length)
    (hmanager : 0 < plan.manager → t.manager_fee_token.isSome = true) :
    total_paid (t.payments remaining_accounts plan) = plan.fees + plan.net := by
  simp only [fee_plan, bind_eq_ok, pure_eq_ok, Prod.exists] at hplan
  obtain ⟨_, -, manager, -, _, -, amounts, _, hreferrals, _, -, rfl⟩ := hplan
  have hamounts := referral_plan_length hreferrals
  have hkeys : (remaining_accounts.map AccountInfo.key).length = amounts.length := by
    rw [List.length_map]
    omega
  have hzip := total_paid_zip hkeys
  unfold SettlementTokens.payments FeePlan.payments FeePlan.fees
  rw [total_paid_append, total_paid_append, total_paid_append, total_paid_nonzero,
    total_paid_nonzero, total_paid_nonzero, hzip]
  dsimp only at hmanager ⊢
  -- a manager part that is not zero has an account to go to
  rcases Nat.eq_zero_or_pos manager with hzero | hpos
  · cases t.manager_fee_token <;> simp [total_paid, hzero]
  · obtain ⟨a, ha⟩ := Option.isSome_iff_exists.mp (hmanager hpos)
    simp [total_paid, ha]

/-! ## What it cannot fail with -/

/-- The errors of the fee arithmetic: a checked operation that failed, a transfer of nothing. -/
def FeeError (e : Zkp2pError) : Prop := e = ArithmeticOverflow ∨ e = ZeroValue

/-- A transfer of a positive amount does not fail for its arithmetic. -/
theorem transfer_exact_ne {source destination : Account TokenAccount} {x : ℕ} (hx : 0 < x)
    {e : Zkp2pError} (he : FeeError e) :
    transfer_exact deposit_key deposit source destination mint x T ≠ .error (.zkp2p e) := by
  intro h
  have hdelta : InvalidTokenBalanceDelta ≠ e := by
    rcases he with rfl | rfl
    · decide
    · decide
  simp only [transfer_exact, Account.reload, load, bind_eq_error, require_eq_error, ok_or_eq_error,
    pure_eq_error, reduceCtorEq, ProgramError.zkp2p.injEq, hx, not_true, false_and, and_false,
    or_false, exists_false, transfer_checked_ne_zkp2p, hdelta] at h

/-- Nor does the payment of the protocol's fee, positive or not. -/
theorem pay_protocol_ne {fee : ℕ} {e : Zkp2pError} (he : FeeError e) :
    pay_protocol deposit_key deposit t fee T ≠ .error (.zkp2p e) := by
  intro h
  unfold pay_protocol at h
  by_cases hpos : 0 < fee
  · rw [if_pos hpos] at h
    simp only [bind_eq_error, pure_eq_error, transfer_exact_ne hpos he, and_false, or_false,
      exists_false] at h
  · rw [if_neg hpos] at h
    cases h

/-- Neither error, whatever account is missing. -/
theorem pay_manager_ne {fee : ℕ} {e : Zkp2pError} (he : FeeError e) :
    pay_manager intent deposit_key deposit t fee T ≠ .error (.zkp2p e) := by
  intro h
  have herrors : ZeroAddress ≠ e ∧ IntentTokenMismatch ≠ e ∧ Unauthorized ≠ e := by
    rcases he with rfl | rfl
    · decide
    · decide
  obtain ⟨haddress, hmint, hauth⟩ := herrors
  unfold pay_manager at h
  by_cases hpos : 0 < fee
  · rw [if_pos hpos] at h
    simp only [bind_eq_error, ok_or_eq_error, require_eq_error, pure_eq_error,
      transfer_exact_ne hpos he, ProgramError.zkp2p.injEq, haddress, hmint, hauth, and_false,
      or_false, exists_false] at h
  · rw [if_neg hpos] at h
    simp only [bind_eq_error, require_eq_error, pure_eq_error, ProgramError.zkp2p.injEq, hauth,
      and_false, or_false, exists_false] at h

/-- The loop fails with neither when its arithmetic goes through. -/
theorem pay_referrals_ne {fees : List (ReferralFee × AccountInfo)} {vault : Account TokenAccount}
    {total total' : ℕ} {amounts : List ℕ} {e : Zkp2pError} (he : FeeError e)
    (hplan : referral_plan r (fees.map Prod.fst) total = .ok (amounts, total')) :
    pay_referrals r deposit_key deposit mint fees vault total T ≠ .error (.zkp2p e) := by
  have herrors : IntentTokenMismatch ≠ e ∧ Unauthorized ≠ e := by
    rcases he with rfl | rfl
    · decide
    · decide
  obtain ⟨hmint, hauth⟩ := herrors
  -- induction along the plan: each turn's amount and subtotal are those the plan computed
  induction fees generalizing vault total T amounts with
  | nil =>
    intro h
    cases h
  | cons entry rest ih =>
    obtain ⟨fee, account⟩ := entry
    simp only [List.map_cons, referral_plan, bind_eq_ok, pure_eq_ok, Prod.mk.injEq,
      Prod.exists] at hplan
    obtain ⟨x, hx, subtotal, hsubtotal, _, _, hrest, -, rfl⟩ := hplan
    intro h
    simp only [pay_referrals, load, hx, hsubtotal, ok_bind, bind_eq_error, ok_or_eq_error,
      require_eq_error, reduceCtorEq, ProgramError.zkp2p.injEq, hmint, hauth, and_false,
      false_or] at h
    obtain ⟨destination, -, _, -, _, -, h⟩ := h
    by_cases hpos : 0 < x
    · rw [if_pos hpos] at h
      simp only [bind_eq_error, transfer_exact_ne hpos he, false_or, Prod.exists] at h
      obtain ⟨T₁, vault₁, _, -, h⟩ := h
      exact ih hrest h
    · rw [if_neg hpos] at h
      exact ih hrest h

/-- When the plan exists and leaves the recipient something, a settlement fails with neither error,
whatever accounts it is given. -/
theorem distribute_funds_ne {plan : FeePlan}
    (hplan : fee_plan o.protocol_fee intent r = .ok plan) (hnet : 1 ≤ plan.net) {e : Zkp2pError}
    (he : FeeError e) :
    distribute_funds intent o deposit_key deposit t remaining_accounts r T
      ≠ .error (.zkp2p e) := by
  simp only [fee_plan, bind_eq_ok, pure_eq_ok, Prod.exists] at hplan
  obtain ⟨protocol, hprotocol, manager, hmanager, fees, hfees, amounts, total, hreferrals, net,
    hsub, rfl⟩ := hplan
  have herrors : IntentTokenMismatch ≠ e ∧ Unauthorized ≠ e ∧ ArrayLengthMismatch ≠ e := by
    rcases he with rfl | rfl
    · decide
    · decide
  obtain ⟨hmint, hauth, hlength⟩ := herrors
  intro h
  simp only [distribute_funds, check_settlement_tokens, hprotocol, hmanager, hfees, ok_bind,
    bind_eq_error, require_eq_error, ProgramError.zkp2p.injEq, hmint, hauth, hlength, and_false,
    false_or, or_false, exists_false, require_eq_ok, exists_const, pay_protocol_ne he,
    pay_manager_ne he, pure_eq_error, Prod.exists] at h
  obtain ⟨_, -, heq, T₁, t₁, -, T₂, t₂, -, h⟩ := h
  have hfst : (intent.referral_fees.zip remaining_accounts).map Prod.fst = intent.referral_fees :=
    List.map_fst_zip heq.ge
  have hloop : referral_plan r ((intent.referral_fees.zip remaining_accounts).map Prod.fst) fees
      = .ok (amounts, total) := by rw [hfst, hreferrals]
  rcases h with h | ⟨T₃, vault, total', hpay, h⟩
  · exact pay_referrals_ne he hloop h
  · -- the loop's total is the plan's, so what is left is the plan's net
    obtain ⟨amounts', hplan', -⟩ := pay_referrals_ok hpay
    obtain ⟨rfl, rfl⟩ : amounts' = amounts ∧ total' = total := by
      rw [hloop] at hplan'
      simpa using hplan'.symm
    rw [hsub] at h
    rcases h with h | ⟨net', hnet', h⟩
    · cases h
    · obtain rfl : net = net' := Except.ok.inj hnet'
      exact transfer_exact_ne hnet he h

end Settlement

end Zkp2pSolana
