/-
The checked arithmetic of the exits cannot fail.

Every exit adds to or subtracts from a counter or an aggregate through a checked
operation, and none of these is safe from its own guards: returning a lock adds it
to available liquidity that later deposits may have raised, a claim is paid out of
an aggregate it was added to long before. What makes them safe is that the sums are
sums of live records and that custody, whose balance is a word, covers them. So in
every state of a run the failing branches are unreachable.
-/
import Zkp2pSolana.Availability
import Zkp2pSolana.Bindings

set_option autoImplicit false

namespace Zkp2pSolana

open Result Zkp2pError

/-! ## Deposits -/

section Deposits

variable {rt : Runtime} {s : State}

/-- A live lock can be settled for any part of it. -/
theorem CustodyInv.settle_ok (hs : CustodyInv rt s) (hT : TokensOk s.tokens) {k kd : Pubkey}
    {l : EscrowIntentLock} {d : Deposit} (hl : s.intent_locks.lookup k = some l)
    (hdep : l.deposit = kd) (hd : s.deposits.lookup kd = some d) {r : ℕ} (hr : 1 ≤ r)
    (hle : r ≤ l.amount) : ∃ d', d.settle l.amount r = .ok d' := by
  subst hdep
  have hword := hs.liquidity hT hd
  obtain ⟨-, houtstanding, hactive, -⟩ := hs.deposits _ d hd
  have hamount : l.amount ≤ s.locked_amount l.deposit :=
    Finmap.le_owed EscrowIntentLock.deposit EscrowIntentLock.amount hl
  have hcount : 1 ≤ s.lock_count l.deposit :=
    Finmap.le_owed EscrowIntentLock.deposit (fun _ => 1) hl
  simp only [Deposit.settle, bind_eq_ok, require_eq_ok, exists_const, ok_or_eq_ok,
    Checked.sub_eq_some, Checked.add_eq_some, pure_eq_ok]
  exact ⟨_, hr, hle, _, ⟨by omega, rfl⟩, _, ⟨hle, rfl⟩, _, ⟨by omega, rfl⟩, _, ⟨by omega, rfl⟩, rfl⟩

end Deposits

/-! ## Transfers

What a transfer refuses it refuses with an error of the token program, or of the
exact-delta check; the program's own overflow error is none of them. -/

section Transfers

variable {T : Accounts TokenAccount} {mint authority : Pubkey} {x : ℕ}

/-- Loading a token account does no arithmetic of its own. -/
theorem token_account_ne_overflow {k : Pubkey} :
    token_account T k mint authority ≠ .error ArithmeticOverflow := by
  intro h
  simp only [token_account, load, bind_eq_error, require_eq_error, ok_or_eq_error, pure_eq_error,
    reduceCtorEq, and_false, or_false, exists_false] at h

/-- A transfer by the token program fails with the token program's errors. -/
theorem transfer_in_ne_overflow {src vault : Pubkey} :
    transfer_in T src vault mint authority x ≠ .error ArithmeticOverflow := by
  intro h
  simp only [transfer_in, load, bind_eq_error, require_eq_error, ok_or_eq_error, pure_eq_error,
    reduceCtorEq, ProgramError.zkp2p.injEq, and_false, or_false, false_or, exists_false,
    exists_and_right] at h
  exact transfer_checked_ne_zkp2p h.2

end Transfers

/-- Funding a deposit never overflows its available liquidity: the vault that received the tokens
covers it. -/
theorem add_funds_ne_overflow {rt : Runtime} {s : State} (hs : CustodyInv rt s)
    (hT : TokensOk s.tokens) (accounts : AddFunds) (amount : ℕ) :
    handle_add_funds accounts amount s.toEscrowRecords s.tokens ≠ .error ArithmeticOverflow := by
  intro h
  simp only [handle_add_funds, signer, load, bind_eq_error, require_eq_error, ok_or_eq_error,
    pure_eq_error, reduceCtorEq, ProgramError.zkp2p.injEq, and_false, or_false, false_or,
    exists_false, require_eq_ok, ok_or_eq_ok, exists_const, token_account_ne_overflow,
    transfer_in_ne_overflow] at h
  obtain ⟨-, -, d, hd, -, _, -, -, T', htransfer, hnone, -⟩ := h
  obtain ⟨htransferred, hbalance⟩ := transfer_in_ok htransfer
  obtain ⟨a, hvault⟩ := (hs.deposits _ d hd).vault
  have hcovers := hvault.covers
  rw [Checked.add_eq_none] at hnone
  apply hnone
  -- the credited vault is a word, and the liabilities were below it before the credit
  have hold : balance s.tokens (deposit_vault_address accounts.deposit) = a.amount := by
    rw [balance, hvault.found]
    rfl
  have hnew : balance T' (deposit_vault_address accounts.deposit) < 2 ^ 64 := by
    unfold balance
    cases ha' : T'.lookup (deposit_vault_address accounts.deposit) with
    | none => exact Nat.two_pow_pos 64
    | some a' => exact (transfer_checked_tokensOk htransferred hT).word _ a' ha'
  unfold Deposit.liability at hcovers
  omega

/-! ## The stake vault -/

section Stake

variable {s : State}

/-- A position's balance is part of the aggregate. -/
theorem Solvent.balance_le (hs : Solvent s) {k : Pubkey} {p : StakePosition}
    (hp : s.stake_positions.lookup k = some p) : p.balance ≤ s.stake_vault.total_staked := by
  rw [hs.staked]
  exact Finmap.le_total (fun _ (p : StakePosition) => p.balance) hp

/-- So is a claim of the claims'. -/
theorem Solvent.claim_le (hs : Solvent s) {k : Pubkey} {c : ClaimBalance}
    (hc : s.claims.lookup k = some c) : c.amount ≤ s.stake_vault.total_claimable := by
  rw [hs.claimable]
  exact Finmap.le_total (fun _ (c : ClaimBalance) => c.amount) hc

/-- The claim of a beneficiary, if there is one, is part of the claims. -/
theorem Solvent.init_claim_le (hs : Solvent s) (k : Pubkey) :
    (init_if_needed s.claims k).amount ≤ s.stake_vault.total_claimable := by
  unfold init_if_needed
  cases hc : s.claims.lookup k with
  | none => exact Nat.zero_le _
  | some c => exact hs.claim_le hc

/-- Custody covers both aggregates, and its balance is a word. -/
theorem Solvent.word (hs : Solvent s) (hT : TokensOk s.tokens) :
    s.stake_vault.total_staked + s.stake_vault.total_claimable < 2 ^ 64 := by
  refine lt_of_le_of_lt hs.custody ?_
  unfold balance
  cases ha : s.tokens.lookup stake_token_vault with
  | none => exact Nat.two_pow_pos 64
  | some a => exact hT.word _ a ha

/-- Withdrawing free stake overflows nowhere: the total is at least the owner's principal. -/
theorem withdraw_stake_ne_overflow (hs : Solvent s) (accounts : WithdrawStake) (amount : ℕ) :
    handle_withdraw_stake accounts amount s.toStakeRecords s.tokens
      ≠ .error ArithmeticOverflow := by
  intro h
  simp only [handle_withdraw_stake, StakePosition.free, signer, load, bind_eq_error,
    require_eq_error, ok_or_eq_error, pure_eq_error, reduceCtorEq, ProgramError.zkp2p.injEq,
    and_false, or_false, false_or, and_true, exists_false, require_eq_ok, ok_or_eq_ok, exists_const,
    token_account_ne_overflow, transfer_checked_ne_zkp2p, Checked.sub_eq_none,
    Checked.sub_eq_some] at h
  obtain ⟨-, p, hp, -, -, _, -, _, -, -, h⟩ := h
  have hcovered := hs.covered _ p hp
  have hbalance := hs.balance_le hp
  omega

theorem claim_stake_ne_overflow (hs : Solvent s) (accounts : ClaimStake) :
    handle_claim_stake accounts s.toStakeRecords s.tokens ≠ .error ArithmeticOverflow := by
  intro h
  simp only [handle_claim_stake, signer, load, bind_eq_error, require_eq_error, ok_or_eq_error,
    pure_eq_error, reduceCtorEq, ProgramError.zkp2p.injEq, and_false, or_false, false_or, and_true,
    exists_false, require_eq_ok, ok_or_eq_ok, exists_const, token_account_ne_overflow,
    transfer_checked_ne_zkp2p, Checked.sub_eq_none] at h
  obtain ⟨-, c, hc, -, -, _, -, _, -, -, hlt⟩ := h
  exact hlt (hs.claim_le hc)

/-- A resolution charges at most a balance: both aggregates can follow it. -/
theorem Solvent.resolve (hs : Solvent s) (hT : TokensOk s.tokens) {k : Pubkey}
    {p p' : StakePosition} (hp : s.stake_positions.lookup k = some p) {x c : ℕ}
    (h : p.resolve x c = .ok p') :
    c ≤ s.stake_vault.total_staked ∧ s.stake_vault.total_claimable + c < 2 ^ 64 := by
  obtain ⟨-, -, hbalance, -⟩ := StakePosition.resolve_ok h
  have hle := hs.balance_le hp
  have hword := hs.word hT
  exact ⟨by omega, by omega⟩

/-- Crediting allocations that fit in a word on top of the claims there are never overflows. -/
theorem credit_claims_ne_overflow {m : Accounts ClaimBalance}
    {claims : List (StakeClaim × AccountInfo)}
    (hword : m.total (fun _ c => c.amount) + (claims.map fun c => c.1.amount).sum < 2 ^ 64) :
    credit_claims m claims ≠ .error ArithmeticOverflow := by
  -- induction on the allocations; the total of the claims grows by what has been credited
  induction claims generalizing m with
  | nil =>
    intro h
    cases h
  | cons entry rest ih =>
    obtain ⟨allocation, account⟩ := entry
    intro h
    rw [List.map_cons, List.sum_cons] at hword
    dsimp only at hword
    simp only [credit_claims, load, bind_eq_error, require_eq_error, ok_or_eq_error, reduceCtorEq,
      ProgramError.zkp2p.injEq, and_false, false_or, and_true, require_eq_ok, ok_or_eq_ok,
      exists_const, Checked.add_eq_none, Checked.add_eq_some] at h
    obtain ⟨-, hkey, c, hc, hvault, hbeneficiary, h⟩ := h
    have hle : c.amount ≤ m.total (fun _ c => c.amount) :=
      Finmap.le_total (fun _ (c : ClaimBalance) => c.amount) hc
    rcases h with hover | ⟨_, ⟨-, rfl⟩, hrest⟩
    · apply hover
      omega
    · have hcredited : Credited m _ allocation.amount := Credited.insert
        (b := { c with amount := c.amount + allocation.amount })
        (by rw [init_if_needed_some hc]) (by rw [hbeneficiary]) hvault
      refine ih ?_ hrest
      rw [hcredited.total]
      omega

theorem resolve_stake_lock_ne_overflow (hs : Solvent s) (hT : TokensOk s.tokens)
    (accounts : ResolveStakeLock) {lock_id : Bytes 32} {claims : List StakeClaim} {l : StakeLock}
    {p p' : StakePosition} {total : ℕ} (hl : s.stake_locks.lookup (lock_of lock_id) = some l)
    (hp : s.stake_positions.lookup (position_of l.stake_owner) = some p)
    (htotal : total_claims [] 0 claims = .ok total) (hresolve : p.resolve l.amount total = .ok p') :
    handle_resolve_stake_lock accounts lock_id claims s.toStakeRecords
      ≠ .error ArithmeticOverflow := by
  obtain ⟨hstaked, hclaimable⟩ := hs.resolve hT hp hresolve
  intro h
  simp only [handle_resolve_stake_lock, signer, load, hl, hp, htotal, hresolve, ok_or_some, ok_bind,
    bind_eq_error, require_eq_error, ok_or_eq_error, pure_eq_error, reduceCtorEq,
    ProgramError.zkp2p.injEq, and_false, or_false, false_or, and_true, exists_false, require_eq_ok,
    ok_or_eq_ok, exists_const, Checked.sub_eq_none, Checked.sub_eq_some, Checked.add_eq_none,
    Checked.add_eq_some] at h
  obtain ⟨-, -, -, hlength, hover | ⟨_, ⟨-, rfl⟩, hover | ⟨_, ⟨-, rfl⟩, hcredit⟩⟩⟩ := h
  · exact hover hstaked
  · exact hover hclaimable
  · apply credit_claims_ne_overflow ?_ hcredit
    rw [total_claims_zip htotal hlength, ← hs.claimable]
    exact hclaimable

/-- The witness threshold fails with its own error only. -/
theorem verify_witness_threshold_ne_overflow {rt : Runtime} {verifier : VerifierConfig}
    {digest : Bytes 32} {signatures : List (Bytes 65)} :
    verify_witness_threshold rt verifier digest signatures ≠ .error ArithmeticOverflow := by
  have hloop : ∀ recovered, recover_witnesses rt verifier digest recovered signatures
      ≠ .error ArithmeticOverflow := by
    induction signatures with
    | nil =>
      intro recovered h
      cases h
    | cons signature rest ih =>
      intro recovered h
      simp only [recover_witnesses, recover_witness, bind_eq_error, require_eq_error,
        ok_or_eq_error, pure_eq_error, reduceCtorEq, ProgramError.zkp2p.injEq, and_false, or_false,
        exists_false, ih] at h
  intro h
  simp only [verify_witness_threshold, bind_eq_error, require_eq_error, reduceCtorEq,
    ProgramError.zkp2p.injEq, and_false, or_false, exists_false, hloop] at h

/-- Checking evidence does no checked arithmetic. -/
theorem verify_dispute_evidence_ne_overflow {rt : Runtime} {args : SubmitDisputeArgs}
    {d : DisputeIntent} : verify_dispute_evidence rt args d s ≠ .error ArithmeticOverflow := by
  intro h
  simp only [verify_dispute_evidence, load, bind_eq_error, require_eq_error, ok_or_eq_error,
    pure_eq_error, reduceCtorEq, ProgramError.zkp2p.injEq, and_false, or_false, exists_false,
    verify_witness_threshold_ne_overflow] at h

theorem submit_dispute_controller_ne_overflow :
    submit_dispute_controller s ≠ .error ArithmeticOverflow := by
  intro h
  simp only [submit_dispute_controller, bind_eq_error, require_eq_error, reduceCtorEq,
    ProgramError.zkp2p.injEq, and_false, or_false, exists_false] at h

theorem credited_claim_ne_overflow {c : ClaimBalance} {depositor : Pubkey} {amount : ℕ}
    (hword : c.amount + amount < 2 ^ 64) :
    credited_claim c depositor amount ≠ .error ArithmeticOverflow := by
  intro h
  simp only [credited_claim, bind_eq_error, ok_or_eq_error, Checked.add_eq_none, and_true] at h
  rcases h with hover | ⟨total, -, h⟩
  · exact hover hword
  · by_cases hfresh : c.beneficiary = Pubkey.default
    · rw [if_pos hfresh] at h
      exact pure_eq_error.mp h
    · rw [if_neg hfresh] at h
      exact pure_eq_error.mp h

/-- A dispute overflows nowhere, for the same reason as a resolution. -/
theorem submit_dispute_ne_overflow {rt : Runtime} (hs : Solvent s) (hT : TokensOk s.tokens)
    (accounts : SubmitDispute) {args : SubmitDisputeArgs} {d : DisputeIntent} {l : StakeLock}
    {p p' : StakePosition}
    (hd : s.dispute_intents.lookup (coverage_of args.attestation.intent_hash) = some d)
    (hl : s.stake_locks.lookup (lock_of args.attestation.intent_hash) = some l)
    (hp : s.stake_positions.lookup (position_of d.stake_owner) = some p)
    (hresolve : p.resolve l.amount l.amount = .ok p') :
    handle_submit_dispute rt accounts args s ≠ .error ArithmeticOverflow := by
  obtain ⟨hstaked, hclaimable⟩ := hs.resolve hT hp hresolve
  have hclaim := hs.init_claim_le (claim_balance_address stake_vault_address d.depositor)
  intro h
  simp only [handle_submit_dispute, signer, load, init, hd, hl, hp, ok_or_some, ok_bind,
    bind_eq_error, require_eq_error, ok_or_eq_error, pure_eq_error, reduceCtorEq,
    ProgramError.zkp2p.injEq, and_false, or_false, false_or, exists_false, require_eq_ok,
    exists_const, verify_dispute_evidence_ne_overflow, submit_dispute_controller_ne_overflow] at h
  obtain ⟨-, -, -, -, _, -, -, _, -, h⟩ := h
  -- the record either is not settled, with an error of its own, or releases the whole lock
  rcases h with h | ⟨⟨disputed, amount⟩, -, h⟩
  · simp only [DisputeIntent.dispute, bind_eq_error, require_eq_error, pure_eq_error, reduceCtorEq,
      ProgramError.zkp2p.injEq, and_false, or_false, exists_false] at h
  · obtain ⟨hamount, h⟩ := h
    subst hamount
    rw [hresolve] at h
    simp only [reduceCtorEq, false_or, Except.ok.injEq, exists_eq_left', Checked.sub_eq_none,
      Checked.add_eq_none, and_true, ok_or_eq_ok, Checked.sub_eq_some, Checked.add_eq_some] at h
    rcases h with hover | ⟨_, -, hover | ⟨_, -, hcredit⟩⟩
    · exact hover hstaked
    · exact hover hclaimable
    · exact credited_claim_ne_overflow (by omega) hcredit

end Stake

/-! ## Every state of every run -/

/-- The checked operations of the exits all have room. -/
structure ExitArithmetic (rt : Runtime) (s : State) : Prop where
  /-- Returning or settling the lock of a live intent, and lowering its owner's counter. -/
  intents : ∀ k i, s.intents.lookup k = some i → ∃ live, live_intent k s = .ok live
    ∧ live.intent = i ∧ (∃ d, live.deposit.unlock live.lock.amount = .ok d)
    ∧ (∀ r, 1 ≤ r → r ≤ i.amount → ∃ d, live.deposit.settle live.lock.amount r = .ok d)
    ∧ ∃ n, Checked.sub live.taker_state.active_intents 1 = some n
  liquidity : ∀ k d, s.deposits.lookup k = some d → ∃ total, d.total_liquidity = some total
  add_funds : ∀ accounts amount,
    handle_add_funds accounts amount s.toEscrowRecords s.tokens ≠ .error ArithmeticOverflow
  withdraw_stake : ∀ accounts amount,
    handle_withdraw_stake accounts amount s.toStakeRecords s.tokens ≠ .error ArithmeticOverflow
  claim_stake : ∀ accounts,
    handle_claim_stake accounts s.toStakeRecords s.tokens ≠ .error ArithmeticOverflow
  /-- Once the allocations add up and the position bears them. -/
  resolve_stake_lock : ∀ accounts lock_id claims l p p' total,
    s.stake_locks.lookup (lock_of lock_id) = some l →
    s.stake_positions.lookup (position_of l.stake_owner) = some p →
    total_claims [] 0 claims = .ok total → p.resolve l.amount total = .ok p' →
    handle_resolve_stake_lock accounts lock_id claims s.toStakeRecords ≠ .error ArithmeticOverflow
  /-- Once the position bears the disputed lock. -/
  submit_dispute : ∀ accounts (args : SubmitDisputeArgs) d l p p',
    s.dispute_intents.lookup (coverage_of args.attestation.intent_hash) = some d →
    s.stake_locks.lookup (lock_of args.attestation.intent_hash) = some l →
    s.stake_positions.lookup (position_of d.stake_owner) = some p →
    p.resolve l.amount l.amount = .ok p' →
    handle_submit_dispute rt accounts args s ≠ .error ArithmeticOverflow

/-- A live intent is found with its deposit, lock and counter, and each has room for its exit. -/
theorem CustodyInv.exit {rt : Runtime} {s : State} (hs : CustodyInv rt s) (hT : TokensOk s.tokens)
    (howners : OwnersOk s) {k : Pubkey} {i : Intent} (hi : s.intents.lookup k = some i) :
    ∃ live, live_intent k s = .ok live ∧ live.intent = i
      ∧ (∃ d, live.deposit.unlock live.lock.amount = .ok d)
      ∧ (∀ r, 1 ≤ r → r ≤ i.amount → ∃ d, live.deposit.settle live.lock.amount r = .ok d)
      ∧ ∃ n, Checked.sub live.taker_state.active_intents 1 = some n := by
  obtain ⟨hkey, -, -, -, -, ⟨d, hd⟩, l, hl, hpaired⟩ := hs.intents k i hi
  obtain ⟨t, ht, -, hcounter⟩ := howners.state hi
  refine ⟨⟨i, d, l, t⟩, ?_, rfl, ?_, ?_, ?_⟩
  · simp only [live_intent, bind_eq_ok, load_eq_ok, require_eq_ok, exists_const, pure_eq_ok]
    exact ⟨i, hi, hkey, d, hd, l, hl, t, ht, rfl⟩
  · exact hs.unlock_ok hT hl hpaired.deposit hd
  · intro r hr hle
    rw [← hpaired.amount] at hle
    exact hs.settle_ok hT hl hpaired.deposit hd hr hle
  · exact ⟨_, Checked.sub_eq_some.mpr ⟨hcounter, rfl⟩⟩

/-- The exits overflow in no state that satisfies the invariants. -/
theorem exit_arithmetic {rt : Runtime} {s : State} (hledger : LedgerOk s) (hs : CustodyInv rt s)
    (howners : OwnersOk s) (hsolvent : Solvent s) : ExitArithmetic rt s where
  intents _ _ hi := hs.exit hledger.tokens howners hi
  liquidity _ _ hd := ⟨_, Checked.add_eq_some.mpr ⟨hs.liquidity hledger.tokens hd, rfl⟩⟩
  add_funds := add_funds_ne_overflow hs hledger.tokens
  withdraw_stake := withdraw_stake_ne_overflow hsolvent
  claim_stake := claim_stake_ne_overflow hsolvent
  resolve_stake_lock accounts _ _ _ _ _ _ hl hp htotal hresolve :=
    resolve_stake_lock_ne_overflow hsolvent hledger.tokens accounts hl hp htotal hresolve
  submit_dispute accounts _ _ _ _ _ hd hl hp hresolve :=
    submit_dispute_ne_overflow hsolvent hledger.tokens accounts hd hl hp hresolve

/-- In every state of every run the arithmetic of the exits goes through. -/
theorem exits_never_overflow {rt : Runtime} {es : List Event} {s : State} (h : Run rt es s) :
    ExitArithmetic rt s ∧ ∀ e ∈ es, ExitArithmetic rt e.pre ∧ ExitArithmetic rt e.post := by
  obtain ⟨⟨hledger, hcustody, -⟩, hes⟩ := Run.own_locks h
  obtain ⟨howners, howners'⟩ := Run.owners h
  obtain ⟨⟨-, hsolvent⟩, hsolvent'⟩ := Run.solvent h
  refine ⟨exit_arithmetic hledger hcustody howners hsolvent, fun e he => ?_⟩
  obtain ⟨⟨hpre, hcpre, -⟩, hpost, hcpost, -⟩ := hes e he
  exact ⟨exit_arithmetic hpre hcpre (howners' e he).1 (hsolvent' e he).1.2,
    exit_arithmetic hpost hcpost (howners' e he).2 (hsolvent' e he).2.2⟩

/-- The state with a live covered intent, and the one after its witnessed release. -/
theorem exits_never_overflow_fulfilled :
    ∃ es s, Run sample_runtime es s
      ∧ (s.payment_bindings.lookup (binding_of sample_nullifier)).isSome = true
      ∧ ExitArithmetic sample_runtime s
      ∧ ∀ e ∈ es, ExitArithmetic sample_runtime e.pre ∧ ExitArithmetic sample_runtime e.post := by
  obtain ⟨es, s, hrun, hbound⟩ := sample_reaches [sample_setup, sample_cover, sample_fulfill]
    (fun _ s => (s.payment_bindings.lookup (binding_of sample_nullifier)).isSome) (by decide +kernel)
  exact ⟨es, s, hrun, hbound, exits_never_overflow hrun⟩

end Zkp2pSolana
