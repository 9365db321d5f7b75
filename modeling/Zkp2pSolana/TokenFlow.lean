/-
Where the tokens can go.

The token program is a machine of its own: it transfers, creates and closes
accounts, and each transfer or closing is authorised by the owner of the account
that loses. The instructions of this program are seen here only through the
token operations they make: every one of them is authorised by the signer of the
instruction or by an address this program derives. Two things follow for whole
runs, whatever instructions interleave. The program creates no token and destroys
none, and nobody loses a token who did not sign.
-/
import Zkp2pSolana.Lib.TxHistory
import Zkp2pSolana.Signers
import Zkp2pSolana.LifecycleMoves

set_option autoImplicit false

namespace Zkp2pSolana

open Result Zkp2pError

/-! ## The token program as a machine -/

/-- One operation of the token program: authorised by an address with `P`, or opening an account
with `C`. -/
inductive TokenOp (P : Pubkey → Prop) (C : Pubkey → TokenAccount → Prop)
    (T : Accounts TokenAccount) : Accounts TokenAccount → Prop
  | transfer {T' : Accounts TokenAccount} (source destination mint authority : Pubkey) (amount : ℕ)
      (allowed : P authority)
      (moves : transfer_checked T source destination mint authority amount = .ok T') :
      TokenOp P C T T'
  | create (k : Pubkey) (a : TokenAccount) (fresh : T.lookup k = none) (allowed : C k a)
      (empty : a.amount = 0) : TokenOp P C T (T.insert k a)
  | close {T' : Accounts TokenAccount} (k authority : Pubkey) (allowed : P authority)
      (closes : close_account T k authority = .ok T') : TokenOp P C T T'

/-- Operations of the token program, one after the other. -/
abbrev TokenOps (P : Pubkey → Prop) (C : Pubkey → TokenAccount → Prop) :=
  Relation.ReflTransGen (TokenOp P C)

section Machine

variable {P : Pubkey → Prop} {C : Pubkey → TokenAccount → Prop} {T T' : Accounts TokenAccount}

theorem supply_create {k : Pubkey} {a : TokenAccount} (hfresh : T.lookup k = none)
    (hempty : a.amount = 0) (mint : Pubkey) : supply (T.insert k a) mint = supply T mint := by
  unfold supply
  rw [Finmap.owed_insert _ _ hfresh, hempty, ite_self, Nat.add_zero]

/-- Closing one burns nothing: only empty accounts are closed. -/
theorem supply_close {k authority : Pubkey} (h : close_account T k authority = .ok T')
    (mint : Pubkey) : supply T' mint = supply T mint := by
  simp only [close_account, bind_eq_ok, load_eq_ok, require_eq_ok, exists_const, pure_eq_ok] at h
  obtain ⟨a, ha, hempty, -, rfl⟩ := h
  have herase := Finmap.owed_erase TokenAccount.mint TokenAccount.amount ha mint
  rw [hempty, ite_self, Nat.add_zero] at herase
  exact herase

/-- No operation mints or burns. -/
theorem TokenOp.supply (h : TokenOp P C T T') (mint : Pubkey) : supply T' mint = supply T mint := by
  cases h with
  | transfer source destination mint' authority amount allowed moves =>
    exact transfer_checked_supply moves mint
  | create k a fresh allowed empty => exact supply_create fresh empty mint
  | close k authority allowed closes => exact supply_close closes mint

/-- An account whose owner does not authorise the operation keeps what it has. -/
theorem TokenOp.keeps (h : TokenOp P C T T') {k : Pubkey} {a : TokenAccount}
    (ha : T.lookup k = some a) (howner : ¬ P a.owner) : Keeps T T' k := by
  cases h with
  | transfer source destination mint authority amount allowed moves =>
    refine transfer_checked_keeps moves ?_
    intro heq
    obtain ⟨b, -, hb, -, -, -, -, hb_owner, -⟩ := transfer_checked_ok moves
    rw [← heq, ha] at hb
    cases hb
    rw [hb_owner] at howner
    exact howner allowed
  | create k' b fresh allowed empty => exact Keeps.insert fresh
  | close k' authority allowed closes =>
    simp only [close_account, bind_eq_ok, load_eq_ok, require_eq_ok, exists_const, pure_eq_ok]
      at closes
    obtain ⟨b, hb, -, hb_owner, rfl⟩ := closes
    refine Keeps.erase T ?_
    intro heq
    rw [← heq, ha] at hb
    cases hb
    rw [hb_owner] at howner
    exact howner allowed

/-- The accounts after an operation are those before it and those it opens, under the same
owners. -/
theorem TokenOp.accounts (h : TokenOp P C T T') {k : Pubkey} {a' : TokenAccount}
    (ha' : T'.lookup k = some a') :
    ∃ a, (T.lookup k = some a ∨ C k a) ∧ a'.owner = a.owner ∧ a'.mint = a.mint := by
  cases h with
  | transfer source destination mint authority amount allowed moves =>
    have hsame := transfer_checked_accounts moves k
    rw [ha'] at hsame
    obtain ⟨a, ha, hpair⟩ := Option.map_eq_some_iff.mp hsame.symm
    obtain ⟨hmint, howner⟩ := Prod.mk.inj hpair
    exact ⟨a, .inl ha, howner.symm, hmint.symm⟩
  | create k' b fresh allowed empty =>
    rw [Finmap.lookup_insert_ite] at ha'
    split_ifs at ha' with hk
    · cases ha'
      rw [hk]
      exact ⟨a', .inr allowed, rfl, rfl⟩
    · exact ⟨a', .inl ha', rfl, rfl⟩
  | close k' authority allowed closes =>
    rw [close_account_ok closes, Finmap.lookup_erase_ite] at ha'
    split_ifs at ha' with hk
    exact ⟨a', .inl ha', rfl, rfl⟩

theorem TokenOps.supply (h : TokenOps P C T T') (mint : Pubkey) :
    supply T' mint = supply T mint := by
  induction h with
  | refl => rfl
  | tail _ hop ih => exact (hop.supply mint).trans ih

/-- An account whose owner is not among the authorities loses nothing. -/
theorem TokenOps.keeps (h : TokenOps P C T T') {k : Pubkey} {a : TokenAccount}
    (ha : T.lookup k = some a) (howner : ¬ P a.owner) : Keeps T T' k := by
  induction h with
  | refl => exact .refl _ _
  | tail _ hop ih =>
    -- the owner is the same before the last operation, which it does not authorise either
    obtain ⟨b, hb, hb_owner, -, -⟩ := ih a ha
    rw [← hb_owner] at howner
    exact ih.trans (hop.keeps hb howner)

/-- Every account afterwards was there or was created, with its owner and mint. -/
theorem TokenOps.accounts (h : TokenOps P C T T') {k : Pubkey} {a' : TokenAccount}
    (ha' : T'.lookup k = some a') :
    ∃ a, (T.lookup k = some a ∨ C k a) ∧ a'.owner = a.owner ∧ a'.mint = a.mint := by
  induction h generalizing a' with
  | refl => exact ⟨a', .inl ha', rfl, rfl⟩
  | tail _ hop ih =>
    obtain ⟨b, hb | hopened, hb_owner, hb_mint⟩ := hop.accounts ha'
    · rw [hb_owner, hb_mint]
      exact ih hb
    · exact ⟨b, .inr hopened, hb_owner, hb_mint⟩

theorem TokenOps.of_transfer {source destination mint authority : Pubkey} {amount : ℕ}
    (h : transfer_checked T source destination mint authority amount = .ok T')
    (hallowed : P authority) : TokenOps P C T T' :=
  .single (.transfer source destination mint authority amount hallowed h)

theorem TokenOps.of_payments {vault mint authority : Pubkey} {ps : List Payment}
    (h : pay_all vault mint authority ps T = .ok T') (hallowed : P authority) :
    TokenOps P C T T' := by
  induction ps generalizing T with
  | nil =>
    rw [pay_all, ok_eq_ok] at h
    rw [h]
  | cons p rest ih =>
    simp only [pay_all, bind_eq_ok] at h
    obtain ⟨T₁, hpay, hrest⟩ := h
    exact (TokenOps.of_transfer hpay hallowed).trans (ih hrest)

end Machine

/-! ## The operations of one instruction -/

/-- Who authorises the token operations of an instruction. -/
def Instruction.Authorises (ix : Instruction) (k : Pubkey) : Prop :=
  k = ix.signer ∨ k.is_pda = true

/-- The token accounts an instruction opens: a new deposit its vault, and the stake vault its
own. -/
def Instruction.Creates (s : State) : Instruction → Pubkey → TokenAccount → Prop
  | .custody (.create_deposit _ _), k, a =>
    k = deposit_vault_address a.owner
      ∧ a.owner = deposit_address escrow_config_address s.escrow_config.next_deposit_id
      ∧ a.mint = s.escrow_config.token_mint
  | .stake (.initialize_stake_token_vault _), k, a =>
    k = stake_token_vault ∧ a.owner = stake_vault_address ∧ a.mint = s.stake_vault.stake_mint
  | _, _, _ => False

section Instructions

variable {P : Pubkey → Prop} {C : Pubkey → TokenAccount → Prop} {T T' : Accounts TokenAccount}

/-- A payment out of a deposit is signed by the deposit's own address. -/
theorem transfer_from_deposit_ops {k destination mint : Pubkey} {d : Deposit} {amount : ℕ}
    (hP : ∀ k : Pubkey, k.is_pda = true → P k)
    (h : transfer_from_deposit T k d destination mint amount = .ok T') : TokenOps P C T T' := by
  obtain ⟨hk, hmoves⟩ := transfer_from_deposit_ok h
  refine .of_transfer hmoves (hP _ ?_)
  rw [← hk]
  rfl

/-- A payment that may be skipped. -/
theorem transfer_from_deposit_if_ops {k destination mint : Pubkey} {d : Deposit} {amount : ℕ}
    (hP : ∀ k : Pubkey, k.is_pda = true → P k)
    (h : (if 0 < amount then transfer_from_deposit T k d destination mint amount else .ok T)
      = .ok T') : TokenOps P C T T' := by
  rw [ite_eq_ok] at h
  rcases h with ⟨-, h⟩ | ⟨-, h⟩
  · exact transfer_from_deposit_ops hP h
  · rw [ok_eq_ok] at h
    rw [h]

/-- Closing a deposit sends out the residue and closes the empty vault. -/
theorem close_deposit_ops {accounts : WithdrawDeposit} {d : Deposit} {residual : ℕ}
    {r r' : EscrowRecords} (hP : ∀ k : Pubkey, k.is_pda = true → P k)
    (h : close_deposit accounts d residual r T = .ok (r', T')) : TokenOps P C T T' := by
  simp only [close_deposit, bind_eq_ok, require_eq_ok, exists_const, pure_eq_ok, Prod.mk.injEq] at h
  obtain ⟨T₁, hsweep, hk, T₂, hclose, -, rfl⟩ := h
  have hswept : TokenOps P C T T₁ := by
    rw [ite_eq_ok] at hsweep
    rcases hsweep with ⟨-, hsweep⟩ | ⟨-, hsweep⟩
    · rw [bind_eq_ok] at hsweep
      obtain ⟨dust, -, hsweep⟩ := hsweep
      exact transfer_from_deposit_ops hP hsweep
    · rw [ok_eq_ok] at hsweep
      rw [hsweep]
  refine hswept.tail (.close _ _ (hP _ ?_) hclose)
  rw [← hk]
  rfl

theorem transfer_in_ops {source vault mint authority : Pubkey} {amount : ℕ} (hP : P authority)
    (h : transfer_in T source vault mint authority amount = .ok T') : TokenOps P C T T' :=
  .of_transfer (transfer_in_ok h).1 hP

theorem custody_ops {ix : CustodyInstruction} {s : State} {r' : EscrowRecords}
    (h : ix.execute s.toEscrowRecords T = .ok (r', T')) :
    TokenOps (Instruction.Authorises (.custody ix)) (Instruction.Creates s (.custody ix)) T T' := by
  have hP : ∀ k : Pubkey, k.is_pda = true → Instruction.Authorises (.custody ix) k :=
    fun k hk => .inr hk
  cases ix with
  | create_deposit accounts args =>
    simp only [CustodyInstruction.execute, handle_create_deposit, bind_eq_ok, signer_eq_ok,
      init_eq_ok, require_eq_ok, exists_const, pure_eq_ok, Prod.mk.injEq] at h
    obtain ⟨-, -, -, -, _, -, hvault, -, _, -, _, -, T₁, htransfer, -, rfl⟩ := h
    exact .head (.create _ _ hvault ⟨rfl, rfl, rfl⟩ rfl) (transfer_in_ops (.inl rfl) htransfer)
  | add_funds accounts amount =>
    simp only [CustodyInstruction.execute, handle_add_funds, bind_eq_ok, pure_eq_ok,
      Prod.mk.injEq] at h
    obtain ⟨_, -, _, -, _, -, _, -, _, -, _, -, T₁, htransfer, _, -, -, rfl⟩ := h
    exact transfer_in_ops (.inl rfl) htransfer
  | remove_funds accounts amount =>
    simp only [CustodyInstruction.execute, handle_remove_funds, bind_eq_ok, require_eq_ok,
      exists_const, pure_eq_ok, Prod.mk.injEq] at h
    obtain ⟨_, -, _, -, -, -, -, _, -, _, -, -, -, _, -, T₁, htransfer, -, rfl⟩ := h
    exact transfer_from_deposit_ops hP htransfer
  | withdraw_deposit accounts =>
    simp only [CustodyInstruction.execute, handle_withdraw_deposit, bind_eq_ok] at h
    obtain ⟨_, -, _, -, _, -, _, -, _, -, _, -, _, -, _, -, T₁, hpay, h⟩ := h
    have hpaid : TokenOps _ (Instruction.Creates s (.custody (.withdraw_deposit accounts))) T T₁ :=
      transfer_from_deposit_if_ops hP hpay
    rw [ite_eq_ok] at h
    rcases h with ⟨-, h⟩ | ⟨-, h⟩
    · rw [bind_eq_ok] at h
      obtain ⟨vault, -, h⟩ := h
      rw [ite_eq_ok] at h
      rcases h with ⟨-, h⟩ | ⟨-, h⟩
      · -- retained: nothing moves after the payment
        simp only [pure_eq_ok, Prod.mk.injEq] at h
        obtain ⟨-, rfl⟩ := h
        exact hpaid
      · exact hpaid.trans (close_deposit_ops hP h)
    · simp only [pure_eq_ok, Prod.mk.injEq] at h
      obtain ⟨-, rfl⟩ := h
      exact hpaid

/-- The instructions of `stake.rs`, operation by operation. -/
theorem stake_ops {ctx : TxContext} {ix : StakeInstruction} {s : State} {r' : StakeRecords}
    (h : ix.execute ctx s.toStakeRecords T = .ok (r', T')) :
    TokenOps (Instruction.Authorises (.stake ix)) (Instruction.Creates s (.stake ix)) T T' := by
  cases ix with
  | initialize_stake_token_vault accounts =>
    simp only [StakeInstruction.execute, handle_initialize_stake_token_vault, bind_eq_ok,
      signer_eq_ok, init_eq_ok, exists_const, pure_eq_ok, Prod.mk.injEq] at h
    obtain ⟨_, ⟨-, hfresh, rfl⟩, -, rfl⟩ := h
    exact .single (.create _ _ hfresh ⟨rfl, rfl, rfl⟩ rfl)
  | deposit_stake accounts amount =>
    simp only [StakeInstruction.execute, handle_deposit_stake, bind_eq_ok, signer_eq_ok,
      require_eq_ok, exists_const, pure_eq_ok, Prod.mk.injEq] at h
    obtain ⟨-, _, -, _, -, -, T₁, htransfer, _, -, _, -, -, rfl⟩ := h
    exact transfer_in_ops (.inl rfl) htransfer
  | withdraw_stake accounts amount =>
    simp only [StakeInstruction.execute, handle_withdraw_stake, bind_eq_ok, pure_eq_ok,
      Prod.mk.injEq] at h
    obtain ⟨_, -, _, -, _, -, _, -, _, -, _, -, _, -, _, -, _, -, _, -, _, -, T₁, htransfer, -,
      rfl⟩ := h
    -- payments out of custody are signed by the vault's own address
    exact .of_transfer htransfer (.inr rfl)
  | claim_stake accounts =>
    simp only [StakeInstruction.execute, handle_claim_stake, bind_eq_ok, pure_eq_ok,
      Prod.mk.injEq] at h
    obtain ⟨_, -, _, -, _, -, _, -, _, -, _, -, _, -, _, -, T₁, htransfer, -, rfl⟩ := h
    exact .of_transfer htransfer (.inr rfl)
  | controller_fund_lock accounts args =>
    simp only [StakeInstruction.execute, handle_controller_fund_lock, bind_eq_ok, signer_eq_ok,
      init_eq_ok, require_eq_ok, exists_const, pure_eq_ok, Prod.mk.injEq] at h
    obtain ⟨-, -, -, _, -, _, -, -, -, -, T₁, htransfer, _, -, _, -, _, -, -, rfl⟩ := h
    exact transfer_in_ops (.inl rfl) htransfer
  | initialize_claim_balance | controller_lock_stake | increase_stake_lock | resize_stake_lock
  | controller_unlock_stake | resolve_stake_lock =>
    simp only [StakeInstruction.execute, bind_eq_ok, pure_eq_ok, Prod.mk.injEq] at h
    obtain ⟨_, -, -, rfl⟩ := h
    exact .refl

/-- A settlement pays under the authority of the deposit. -/
theorem settle_intent_ops {ctx : TxContext} {k : Pubkey} {live : LiveIntent}
    {tokens : SettlementTokenAccounts} {dispute : SettlementDisputeAccounts}
    {remaining_accounts : List AccountInfo} {released : ℕ} {s s' : State}
    (hP : ∀ k : Pubkey, k.is_pda = true → P k)
    (h : settle_intent ctx k live tokens dispute remaining_accounts released s = .ok s') :
    TokenOps P C s.tokens s'.tokens := by
  simp only [settle_intent, bind_eq_ok, close_intent_ok] at h
  obtain ⟨t, -, s₁, hs₁, deposit, -, T, hT, -, rfl⟩ := h
  have htokens : s₁.tokens = s.tokens := by rw [settle_dispute_rest hs₁]
  rw [htokens] at hT
  obtain ⟨plan, -, hpaid, -⟩ := distribute_funds_ok hT
  refine .of_payments hpaid (hP _ ?_)
  -- the last payment, of the net amount, is always made, and checks whose authority it is
  obtain ⟨_, _, _, _, _, _, _, _, _, -, -, -, -, -, -, -, hnet, -⟩ := distribute_funds_turns hT
  simp only [transfer_exact, bind_eq_ok, require_eq_ok, exists_const] at hnet
  obtain ⟨-, hkey, -⟩ := hnet
  rw [← hkey]
  rfl

end Instructions

/-- Every instruction of the program moves tokens only by operations that its signer or an address
of the program authorises, and opens only vaults of the program. -/
theorem Instruction.token_ops {rt : Runtime} {ctx : TxContext} {before after : List TopLevel}
    {s s' : State} {ix : Instruction} (h : ix.execute rt ctx before after s = .ok s') :
    TokenOps ix.Authorises (ix.Creates s) s.tokens s'.tokens := by
  -- derived addresses may sign in every instruction of the program
  have hP : ∀ k : Pubkey, k.is_pda = true → ix.Authorises k := fun k hk => .inr hk
  cases ix with
  | open_records ix | rate_managers ix | whitelists ix | verifier ix | deposit_config ix
  | dispute_policy ix =>
    simp only [Instruction.execute, bind_eq_ok, pure_eq_ok] at h
    obtain ⟨_, -, rfl⟩ := h
    exact .refl
  | governance ix => rw [(governance_ok h).1.tokens]
  | custody ix =>
    simp only [Instruction.execute, bind_eq_ok, pure_eq_ok, Prod.exists] at h
    obtain ⟨_, _, h, rfl⟩ := h
    exact custody_ops h
  | stake ix =>
    simp only [Instruction.execute, bind_eq_ok, pure_eq_ok, Prod.exists] at h
    obtain ⟨_, _, h, rfl⟩ := h
    exact stake_ops h
  | signal_intent accounts args =>
    obtain ⟨_, _, _, _, _, _, hsignaled⟩ := signal_intent_ok h
    rw [hsignaled.post]
  | cancel_intent accounts =>
    obtain ⟨_, _, _, -, -, -, -, -, -, rfl⟩ := cancel_intent_ok h
    exact .refl
  | prune_expired_intent accounts =>
    obtain ⟨_, _, _, -, -, hprune, -, rfl⟩ := prune_expired_intent_ok h
    rcases prune_dispute_ok hprune with ⟨-, rfl⟩ | ⟨-, _, _, _, _, hcancelled⟩
    · exact .refl
    · rw [hcancelled.post]
      exact .refl
  | prepare_dispute accounts args =>
    obtain ⟨_, _, _, _, _, _, hprepared, -⟩ := prepare_dispute_ok h
    rw [hprepared.post]
  | cancel_dispute accounts =>
    simp only [Instruction.execute, handle_cancel_dispute, bind_eq_ok, pure_eq_ok] at h
    obtain ⟨_, -, _, -, _, -, _, -, _, -, _, -, _, -, _, -, _, -, _, -, _, -, _, -, rfl⟩ := h
    exact .refl
  | release_matured_dispute accounts =>
    obtain ⟨_, _, _, _, -, -, -, -, -, -, -, -, rfl⟩ := release_matured_dispute_ok h
    exact .refl
  | submit_dispute accounts args =>
    obtain ⟨_, _, _, _, _, _, hdisputed, -⟩ := submit_dispute_ok h
    rw [hdisputed.post]
  | fulfill_intent accounts args =>
    obtain ⟨_, _, -, -, -, -, -, hsettle, rfl⟩ := fulfill_intent_ok h
    have hops : TokenOps _ (Instruction.Creates s (.fulfill_intent accounts args)) s.tokens _ :=
      settle_intent_ops hP hsettle
    exact hops
  | manual_release accounts =>
    obtain ⟨_, -, -, -, hsettle⟩ := manual_release_ok h
    exact settle_intent_ops hP hsettle

/-! ## Whole runs -/

/-- The accounts of `o` keep their owner and mint and hold at least what they held. -/
def HoldingsKept (o : Pubkey) (T T' : Accounts TokenAccount) : Prop :=
  ∀ k a, T.lookup k = some a → a.owner = o →
    ∃ a', T'.lookup k = some a' ∧ a'.owner = o ∧ a'.mint = a.mint ∧ a.amount ≤ a'.amount

theorem HoldingsKept.trans {o : Pubkey} {T T' T'' : Accounts TokenAccount}
    (h : HoldingsKept o T T') (h' : HoldingsKept o T' T'') : HoldingsKept o T T'' := by
  intro k a ha howner
  obtain ⟨b, hb, hb_owner, hb_mint, hle⟩ := h k a ha howner
  obtain ⟨c, hc, hc_owner, hc_mint, hle'⟩ := h' k b hb hb_owner
  exact ⟨c, hc, hc_owner, hc_mint.trans hb_mint, hle.trans hle'⟩

/-- Who authorises none of the operations keeps what it holds. -/
theorem TokenOps.holdings {P : Pubkey → Prop} {C : Pubkey → TokenAccount → Prop}
    {T T' : Accounts TokenAccount} {o : Pubkey}
    (h : TokenOps P C T T') (ho : ¬ P o) : HoldingsKept o T T' := by
  intro k a ha howner
  rw [← howner] at ho
  obtain ⟨a', ha', howner', hmint, hle⟩ := h.keeps ha ho a ha
  exact ⟨a', ha', howner'.trans howner, hmint, hle⟩

/-- The event is not the doing of `o`: it signed no instruction of the program, and other programs
took nothing that is its. -/
def Uninvolved (o : Pubkey) (e : Event) : Prop :=
  ¬ SignedByKey e o ∧ ∀ tokens, e.ix = .external tokens → HoldingsKept o e.pre.tokens tokens

/-- An event `o` has no part in takes none of its tokens. -/
theorem holdings_kept {rt : Runtime} {e : Event} (hv : e.Valid (step rt)) {o : Pubkey}
    (ho : o.is_pda = false) (h : Uninvolved o e) : HoldingsKept o e.pre.tokens e.post.tokens := by
  obtain ⟨hsigned, hexternal⟩ := h
  cases hix : e.ix with
  | program ix =>
    have hops : TokenOps ix.Authorises (ix.Creates e.pre) e.pre.tokens e.post.tokens :=
      Instruction.token_ops (valid_execute hv hix)
    refine hops.holdings fun hauthorises => ?_
    rcases hauthorises with hsigner | hpda
    · rw [hsigner] at hsigned
      exact hsigned (signed_by_signer hv hix)
    · rw [ho] at hpda
      cases hpda
  | ed25519 data =>
    have hok := valid_execute hv hix
    simp only [TopLevel.execute, bind_eq_ok, require_eq_ok, exists_const, pure_eq_ok] at hok
    rw [← hok.2]
    exact fun k a ha howner => ⟨a, ha, howner, rfl, le_rfl⟩
  | external tokens =>
    have hok := valid_execute hv hix
    simp only [TopLevel.execute, bind_eq_ok, require_eq_ok, exists_const, pure_eq_ok] at hok
    rw [← hok.2]
    exact hexternal tokens hix

/-- The program neither mints nor burns, moves tokens only on the signature of the instruction or
of one of its own addresses, and opens no token accounts but its own vaults; and over any stretch
of a run an owner who signs nothing keeps every token that other programs leave it. -/
theorem tokens_move_by_signature {rt : Runtime} {es : List Event} {s : State} (h : Run rt es s)
    {past future : List Event} {e : Event} (hes : es = past ++ e :: future) :
    (∀ ix, e.ix = .program ix → SignedByKey e ix.signer
      ∧ TokenOps ix.Authorises (ix.Creates e.pre) e.pre.tokens e.post.tokens
      ∧ (∀ mint, supply e.post.tokens mint = supply e.pre.tokens mint)
      ∧ ∀ k a', e.post.tokens.lookup k = some a' →
        ∃ a, (e.pre.tokens.lookup k = some a ∨ ix.Creates e.pre k a)
          ∧ a'.owner = a.owner ∧ a'.mint = a.mint)
      ∧ ∀ o : Pubkey, o.is_pda = false → (∀ q ∈ e :: future, Uninvolved o q) →
        HoldingsKept o e.pre.tokens s.tokens := by
  constructor
  · intro ix hix
    have hv : e.Valid (step rt) := by
      refine h.valid e ?_
      rw [hes]
      exact List.mem_append_right _ List.mem_cons_self
    have hops : TokenOps ix.Authorises (ix.Creates e.pre) e.pre.tokens e.post.tokens :=
      Instruction.token_ops (valid_execute hv hix)
    exact ⟨signed_by_signer hv hix, hops, hops.supply, fun k a' ha' => hops.accounts ha'⟩
  · intro o ho huninvolved
    exact TxMachine.Run.span (R := fun s s' => HoldingsKept o s.tokens s'.tokens)
      (fun _ _ _ => HoldingsKept.trans) (fun _ hq hv => holdings_kept hv ho hq) h hes huninvolved

/-- Who signs nothing of the event is not involved in it. -/
theorem Uninvolved.of_unsigned {o : Pubkey} {e : Event} (h : Event.unsigned_by o e = true) :
    Uninvolved o e := by
  refine ⟨Event.not_signed h, fun tokens htokens => ?_⟩
  unfold Event.unsigned_by at h
  rw [htokens] at h
  cases h

/-- The second staker of the sample cluster has no part in a covered intent and its release. -/
theorem tokens_move_by_signature_released :
    ∃ es s past e future, Run sample_runtime es s ∧ es = past ++ e :: future
      ∧ s.intents.lookup sample_intent = none ∧ (e.post.intents.lookup sample_intent).isSome = true
      ∧ HoldingsKept sample_staker e.pre.tokens s.tokens
      ∧ ∃ ix, e.ix = .program ix ∧ SignedByKey e ix.signer := by
  obtain ⟨es, s, hrun, hgood⟩ := sample_reaches [sample_setup, sample_cover, sample_manual_release]
    (fun es s => decide (s.intents.lookup sample_intent = none)
      && match es.drop 7 with
        | [] => false
        | e :: future => decide ((e.post.intents.lookup sample_intent).isSome = true)
          && (e :: future).all (Event.unsigned_by sample_staker)) (by decide +kernel)
  simp only [Bool.and_eq_true, decide_eq_true_eq] at hgood
  obtain ⟨hclosed, hgood⟩ := hgood
  have hsplit := List.take_append_drop 7 es
  cases hdrop : es.drop 7 with
  | nil =>
    rw [hdrop] at hgood
    cases hgood
  | cons e future =>
    rw [hdrop] at hgood hsplit
    simp only [Bool.and_eq_true, decide_eq_true_eq, List.all_eq_true] at hgood
    obtain ⟨hlive, hunsigned⟩ := hgood
    obtain ⟨hprogram, hkept⟩ := tokens_move_by_signature hrun hsplit.symm
    refine ⟨es, s, es.take 7, e, future, hrun, hsplit.symm, hclosed, hlive,
      hkept sample_staker rfl fun q hq => .of_unsigned (hunsigned q hq), ?_⟩
    obtain ⟨ix, hix⟩ := Event.program_of_unsigned (hunsigned e List.mem_cons_self)
    exact ⟨ix, hix, (hprogram ix hix).1⟩

end Zkp2pSolana
