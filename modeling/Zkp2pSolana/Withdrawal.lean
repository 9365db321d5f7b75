/-
The maker's exit.

`withdraw_deposit` pays out the available principal and then re-reads the vault: it
closes the deposit, sweeps a residue of tokens nobody owes on the way, or keeps the
deposit open. None of that may stop the payment. In a reachable state nothing does:
the vault covers the principal, no credit overflows because payer and payee are part
of one supply, and the one account the caller chooses freely, the dust recipient's,
fails only where it is one of the other two, since the framework refuses an account
that is supplied twice. What is swept is what no liability asks for, because a
deposit whose counters are zero has no lock.
-/
import Zkp2pSolana.Custody
import Zkp2pSolana.EscrowMoves
import Zkp2pSolana.Replay

set_option autoImplicit false

namespace Zkp2pSolana

open Result Zkp2pError

/-- What the vault of a deposit holds after its available principal is paid. -/
def residual (s : State) (k : Pubkey) (d : Deposit) : ℕ :=
  balance s.tokens (deposit_vault_address k) - d.remaining_deposits

/-- No lock on the deposit is live. -/
def NoLock (s : State) (k : Pubkey) : Prop :=
  ∀ kl l, s.intent_locks.lookup kl = some l → l.deposit ≠ k

/-- A withdrawal has nothing to keep the deposit open for. -/
def ExitCloses (s : State) (k : Pubkey) (d : Deposit) : Prop :=
  NoLock s k ∧ d.retain_on_empty = false ∧ residual s k d ≤ s.escrow_config.dust_threshold

/-- The constraints on the accounts of a withdrawal by the depositor: a token account of the
depositor's, and the dust recipient's when it is supplied. -/
structure ExitAccounts (s : State) (d : Deposit) (depositor_token : Pubkey) (dust : Option Pubkey) :
    Prop where
  depositor : ∃ a, s.tokens.lookup depositor_token = some a ∧ a.mint = d.token_mint
    ∧ a.owner = d.depositor
  dust : ∀ k ∈ dust, ∃ a, s.tokens.lookup k = some a ∧ a.mint = d.token_mint
    ∧ a.owner = s.escrow_config.dust_recipient

/-- The dust recipient's account is neither the vault nor the depositor's account: the framework
accepts no account twice. -/
def DustApart (k depositor_token : Pubkey) (dust : Option Pubkey) : Prop :=
  ∀ c ∈ dust, c ≠ deposit_vault_address k ∧ c ≠ depositor_token

/-! ## Transfers out of a vault -/

section Payment

variable {T T' : Accounts TokenAccount} {k dst : Pubkey} {d : Deposit} {x : ℕ}

/-- A payment out of the vault of a deposit that sits at its own address, to another account of its
mint, goes through if the vault has the amount. -/
theorem transfer_from_deposit_goes {a b : TokenAccount} (hsupply : supply T d.token_mint < 2 ^ 64)
    (hkey : deposit_address d.escrow_config d.id = k)
    (ha : T.lookup (deposit_vault_address k) = some a) (howner : a.owner = k)
    (hma : a.mint = d.token_mint) (hb : T.lookup dst = some b) (hmb : b.mint = d.token_mint)
    (hne : deposit_vault_address k ≠ dst) (hx : x ≤ a.amount) :
    ∃ T', transfer_from_deposit T k d dst d.token_mint x = .ok T'
      ∧ Moved T T' (deposit_vault_address k) dst x := by
  obtain ⟨T', htransfer⟩ := transfer_checked_goes hne ha hb hma hmb howner hx hsupply
  refine ⟨T', ?_, transfer_checked_moved hne htransfer⟩
  simp only [transfer_from_deposit, bind_eq_ok, require_eq_ok, exists_const]
  exact ⟨hkey, htransfer⟩

/-- So does one that is skipped when there is nothing to pay. -/
theorem transfer_from_deposit_if_goes {a b : TokenAccount}
    (hsupply : supply T d.token_mint < 2 ^ 64)
    (hkey : deposit_address d.escrow_config d.id = k)
    (ha : T.lookup (deposit_vault_address k) = some a) (howner : a.owner = k)
    (hma : a.mint = d.token_mint) (hb : T.lookup dst = some b) (hmb : b.mint = d.token_mint)
    (hne : deposit_vault_address k ≠ dst) (hx : x ≤ a.amount) :
    ∃ T', (if 0 < x then transfer_from_deposit T k d dst d.token_mint x else .ok T) = .ok T'
      ∧ Moved T T' (deposit_vault_address k) dst x := by
  by_cases hpos : 0 < x
  · rw [if_pos hpos]
    exact transfer_from_deposit_goes hsupply hkey ha howner hma hb hmb hne hx
  · obtain rfl : x = 0 := by omega
    rw [if_neg hpos]
    exact ⟨T, rfl, .zero T _ _⟩

end Payment

/-! ## The withdrawal goes through -/

section Exit

variable {rt : Runtime} {s : State} {k dst : Pubkey} {d : Deposit} {dust : Option Pubkey}

theorem token_account_of {T : Accounts TokenAccount} {c mint authority : Pubkey} {a : TokenAccount}
    (ha : T.lookup c = some a) (hmint : a.mint = mint) (howner : a.owner = authority) :
    token_account T c mint authority = .ok a := by
  simp only [token_account, bind_eq_ok, load_eq_ok, require_eq_ok, exists_const, pure_eq_ok]
  exact ⟨a, ha, hmint, howner, rfl⟩

/-- A dust account with the right mint and owner passes; none at all passes too. -/
theorem check_dust_recipient_of {T : Accounts TokenAccount} {mint recipient : Pubkey}
    (h : ∀ c ∈ dust, ∃ a, T.lookup c = some a ∧ a.mint = mint ∧ a.owner = recipient) :
    check_dust_recipient T mint recipient dust = .ok () := by
  cases dust with
  | none => rfl
  | some c =>
    obtain ⟨a, ha, hmint, howner⟩ := h c rfl
    simp only [check_dust_recipient, token_account_of ha hmint howner, ok_bind]
    rfl

/-- Three accounts that are apart pass the framework's check for repeated ones. -/
theorem mutable_once_of (hne : deposit_vault_address k ≠ dst) (hapart : DustApart k dst dust) :
    mutable_once ([deposit_vault_address k, dst] ++ dust.toList) = .ok () := by
  refine mutable_once_eq_ok.mpr ?_
  cases dust with
  | none => simpa using hne
  | some c =>
    obtain ⟨hvault, hdst⟩ := hapart c rfl
    simpa using ⟨⟨hne, hvault.symm⟩, hdst.symm⟩

/-- A stored deposit sits at the address its seeds derive. -/
theorem DepositStored.address (h : DepositStored k d) :
    deposit_address d.escrow_config d.id = k := by
  rw [h.escrow_config]
  exact h.key.symm

/-- The counters of a deposit are zero exactly when it has no lock. -/
theorem CustodyInv.counters_zero (hs : CustodyInv rt s) (hd : s.deposits.lookup k = some d) :
    d.active_intents = 0 ∧ d.outstanding_intent_amount = 0 ↔ NoLock s k := by
  constructor
  · rintro ⟨hactive, -⟩
    exact hs.no_lock hd hactive
  · intro hnone
    have hdeposit := hs.deposits k d hd
    refine ⟨hdeposit.active.trans ?_, hdeposit.outstanding.trans ?_⟩
    · exact Finmap.owed_eq_zero _ _ hnone
    · exact Finmap.owed_eq_zero _ _ hnone

/-- What is left in the vault goes to the supplied account. -/
theorem sweep_goes {T : Accounts TokenAccount} {a : TokenAccount}
    (hsupply : supply T d.token_mint < 2 ^ 64)
    (hkey : deposit_address d.escrow_config d.id = k)
    (hvault : T.lookup (deposit_vault_address k) = some a) (howner : a.owner = k)
    (hmint : a.mint = d.token_mint)
    (hdust : ∀ c ∈ dust, c ≠ deposit_vault_address k
      ∧ ∃ b, T.lookup c = some b ∧ b.mint = d.token_mint)
    (hsupplied : 0 < a.amount → dust.isSome = true) :
    ∃ T', (if 0 < a.amount then do
          let c ← ok_or dust DepositNotFound
          transfer_from_deposit T k d c d.token_mint a.amount
        else .ok T : ProgramResult (Accounts TokenAccount)) = .ok T'
      ∧ SameAccounts T T' ∧ balance T' (deposit_vault_address k) = 0
      ∧ ∀ c, c ≠ deposit_vault_address k →
        balance T' c = balance T c + if dust = some c then a.amount else 0 := by
  -- nothing is transferred when nothing is left, and then no dust account is needed
  by_cases hpos : 0 < a.amount
  · obtain ⟨c, rfl⟩ := Option.isSome_iff_exists.mp (hsupplied hpos)
    obtain ⟨hne, b, hb, hmb⟩ := hdust c rfl
    obtain ⟨T', htransfer, hmoved⟩ := transfer_from_deposit_goes hsupply hkey hvault howner hmint hb
      hmb hne.symm le_rfl
    refine ⟨T', ?_, hmoved.accounts, ?_, fun c' hc' => ?_⟩
    · rw [if_pos hpos]
      exact htransfer
    · have hsource := hmoved.source
      rw [balance_eq hvault] at hsource
      omega
    · rw [hmoved.other c' hc']
      simp only [Option.some.injEq, eq_comm]
  · rw [if_neg hpos]
    refine ⟨T, rfl, .refl T, ?_, fun c' _ => ?_⟩
    · rw [balance_eq hvault]
      omega
    · split_ifs
      · omega
      · rfl

variable (dst) in
/-- The sweep and the two closings go through: the vault is empty when it is closed. -/
theorem close_deposit_goes (r : EscrowRecords) {T : Accounts TokenAccount} {a : TokenAccount}
    (hsupply : supply T d.token_mint < 2 ^ 64)
    (hkey : deposit_address d.escrow_config d.id = k)
    (hvault : T.lookup (deposit_vault_address k) = some a) (howner : a.owner = k)
    (hmint : a.mint = d.token_mint)
    (hdust : ∀ c ∈ dust, c ≠ deposit_vault_address k
      ∧ ∃ b, T.lookup c = some b ∧ b.mint = d.token_mint)
    (hsupplied : 0 < a.amount → dust.isSome = true) :
    ∃ T', close_deposit ⟨d.depositor, k, dst, dust⟩ d a.amount r T
        = .ok ({ r with deposits := r.deposits.erase k }, T')
      ∧ T'.lookup (deposit_vault_address k) = none
      ∧ ∀ c, c ≠ deposit_vault_address k →
        balance T' c = balance T c + if dust = some c then a.amount else 0 := by
  obtain ⟨T₁, hsweep, haccounts, hempty, hswept⟩ :=
    sweep_goes hsupply hkey hvault howner hmint hdust hsupplied
  obtain ⟨b, hb, -, hbowner⟩ := haccounts.lookup hvault
  rw [balance_eq hb] at hempty
  -- the vault is empty by now, which is what the token program asks for
  have hclose : close_account T₁ (deposit_vault_address k) k
      = .ok (T₁.erase (deposit_vault_address k)) := by
    simp only [close_account, bind_eq_ok, load_eq_ok, require_eq_ok, exists_const, pure_eq_ok]
    exact ⟨b, hb, hempty, hbowner.trans howner, trivial⟩
  refine ⟨T₁.erase (deposit_vault_address k), ?_, Finmap.lookup_erase _ _, fun c hc => ?_⟩
  · simp only [close_deposit, bind_eq_ok, require_eq_ok, exists_const, pure_eq_ok]
    exact ⟨T₁, hsweep, hkey, _, hclose, rfl⟩
  · rw [← hswept c hc]
    unfold balance
    rw [Finmap.lookup_erase_ne hc]

/-- In a sound state every check at the head of the handler passes and the principal is paid, whatever
follows: what is left to decide is read off the counters and the residue. -/
theorem withdraw_principal (hs : CustodyInv rt s) (hT : TokensOk s.tokens)
    (hd : s.deposits.lookup k = some d) (hstored : DepositStored k d)
    (haccounts : ExitAccounts s d dst dust) (hapart : DustApart k dst dust) :
    ∃ T₁ a₁, Moved s.tokens T₁ (deposit_vault_address k) dst d.remaining_deposits
      ∧ T₁.lookup (deposit_vault_address k) = some a₁ ∧ a₁.owner = k ∧ a₁.mint = d.token_mint
      ∧ a₁.amount = residual s k d
      ∧ handle_withdraw_deposit ⟨d.depositor, k, dst, dust⟩ s.toEscrowRecords s.tokens
        = if d.active_intents = 0 ∧ d.outstanding_intent_amount = 0 ∧ d.retain_on_empty = false then
            if s.escrow_config.dust_threshold < a₁.amount then
              .ok ({ s.toEscrowRecords with deposits := s.deposits.insert k (drained d true) }, T₁)
            else close_deposit ⟨d.depositor, k, dst, dust⟩
              { d with remaining_deposits := 0, accepting_intents := false } a₁.amount
              s.toEscrowRecords T₁
          else .ok ({ s.toEscrowRecords with
            deposits := s.deposits.insert k (drained d d.retain_on_empty) }, T₁) := by
  obtain ⟨a, ha⟩ := (hs.deposits k d hd).vault
  obtain ⟨b, hb, hmb, hob⟩ := haccounts.depositor
  -- the vault's owner is an address that never signs, the depositor's account belongs to one that
  -- does
  have hne : deposit_vault_address k ≠ dst := by
    refine (hT.ne_of_signer hb ?_ rfl).symm
    rw [hob]
    exact hstored.signs
  have henough : d.remaining_deposits ≤ a.amount := by
    have hcovers := ha.covers
    unfold Deposit.liability at hcovers
    omega
  obtain ⟨T₁, hpay, hmoved⟩ := transfer_from_deposit_if_goes
    (d := { d with remaining_deposits := 0, accepting_intents := false }) (hT.supply_lt d.token_mint)
    hstored.address ha.found ha.owner ha.mint hb hmb hne henough
  obtain ⟨a₁, ha₁, hma₁, hoa₁⟩ := hmoved.accounts.lookup ha.found
  -- what stays behind are reservations and unsolicited tokens
  have hleft : a₁.amount = residual s k d := by
    have hsource := hmoved.source
    rw [balance_eq ha₁, balance_eq ha.found] at hsource
    unfold residual
    rw [balance_eq ha.found]
    omega
  refine ⟨T₁, a₁, hmoved, ha₁, hoa₁.trans ha.owner, hma₁.trans ha.mint, hleft, ?_⟩
  -- the guards in their order, and then the transfer
  have hsigner : signer d.depositor = .ok () := signer_eq_ok.mpr hstored.signs
  have hload : load s.deposits k = .ok d := load_eq_ok.mpr hd
  have hload_vault : load s.tokens (deposit_vault_address k) = .ok a := load_eq_ok.mpr ha.found
  have hload_left : load T₁ (deposit_vault_address k) = .ok a₁ := load_eq_ok.mpr ha₁
  have htoken : token_account s.tokens dst d.token_mint d.depositor = .ok b :=
    token_account_of hb hmb hob
  have hcheck : check_dust_recipient s.tokens d.token_mint s.escrow_config.dust_recipient dust
      = .ok () := check_dust_recipient_of haccounts.dust
  simp only [handle_withdraw_deposit, hsigner, hload, hload_vault, htoken, hcheck,
    mutable_once_of hne hapart, ok_bind, require_true, require_true hstored.escrow_config, hpay,
    hload_left]
  rfl

/-- In a sound state the depositor's withdrawal succeeds, and does one of two things. -/
theorem withdraw_goes (hs : CustodyInv rt s) (hT : TokensOk s.tokens)
    (hd : s.deposits.lookup k = some d) (hstored : DepositStored k d)
    (haccounts : ExitAccounts s d dst dust)
    (hsupplied : 0 < residual s k d → residual s k d ≤ s.escrow_config.dust_threshold →
      dust.isSome = true)
    (hapart : DustApart k dst dust) :
    (ExitCloses s k d
        ∧ ∃ T', handle_withdraw_deposit ⟨d.depositor, k, dst, dust⟩ s.toEscrowRecords s.tokens
            = .ok ({ s.toEscrowRecords with deposits := s.deposits.erase k }, T')
          ∧ T'.lookup (deposit_vault_address k) = none
          ∧ ∀ c, c ≠ deposit_vault_address k → balance T' c = balance s.tokens c
            + (if c = dst then d.remaining_deposits else 0) + if dust = some c then residual s k d else 0)
      ∨ (¬ ExitCloses s k d
        ∧ ∃ T' retain a, handle_withdraw_deposit ⟨d.depositor, k, dst, dust⟩ s.toEscrowRecords s.tokens
            = .ok ({ s.toEscrowRecords with deposits := s.deposits.insert k (drained d retain) }, T')
          ∧ T'.lookup (deposit_vault_address k) = some a ∧ a.amount = residual s k d
          ∧ ∀ c, c ≠ deposit_vault_address k →
            balance T' c = balance s.tokens c + if c = dst then d.remaining_deposits else 0) := by
  obtain ⟨T₁, a₁, hmoved, ha₁, howner, hmint, hleft, hrun⟩ :=
    withdraw_principal hs hT hd hstored haccounts hapart
  -- the program looks at the counters, the statement at the locks
  have hcloses : ExitCloses s k d ↔ (d.active_intents = 0 ∧ d.outstanding_intent_amount = 0
      ∧ d.retain_on_empty = false) ∧ ¬ s.escrow_config.dust_threshold < a₁.amount := by
    unfold ExitCloses
    rw [← hs.counters_zero hd, hleft, not_lt]
    simp only [and_assoc]
  by_cases hclose : ExitCloses s k d
  · left
    obtain ⟨hcounters, hdust⟩ := hcloses.mp hclose
    rw [if_pos hcounters, if_neg hdust] at hrun
    have hdust_found : ∀ c ∈ dust, c ≠ deposit_vault_address k
        ∧ ∃ e, T₁.lookup c = some e ∧ e.mint = d.token_mint := by
      intro c hc
      obtain ⟨e, he, hme, -⟩ := haccounts.dust c hc
      obtain ⟨e₁, he₁, hme₁, -⟩ := hmoved.accounts.lookup he
      exact ⟨(hapart c hc).1, e₁, he₁, hme₁.trans hme⟩
    have hdust_given : 0 < a₁.amount → dust.isSome = true := by
      intro hpos
      rw [hleft] at hpos
      exact hsupplied hpos hclose.2.2
    have hsupply : supply T₁ d.token_mint < 2 ^ 64 := by
      rw [hmoved.supply_eq]
      exact hT.supply_lt d.token_mint
    obtain ⟨T', hok, hnone, hswept⟩ := close_deposit_goes dst s.toEscrowRecords
      (d := { d with remaining_deposits := 0, accepting_intents := false }) hsupply hstored.address ha₁
      howner hmint hdust_found hdust_given
    refine ⟨hclose, T', hrun.trans hok, hnone, fun c hc => ?_⟩
    rw [hswept c hc, hmoved.other c hc, hleft]
  · right
    refine ⟨hclose, ?_⟩
    -- it stays open because there is more than dust, or because it is not idle
    by_cases hcounters : d.active_intents = 0 ∧ d.outstanding_intent_amount = 0
        ∧ d.retain_on_empty = false
    · have hdust : s.escrow_config.dust_threshold < a₁.amount := by
        by_contra hdust
        exact hclose (hcloses.mpr ⟨hcounters, hdust⟩)
      rw [if_pos hcounters, if_pos hdust] at hrun
      exact ⟨T₁, true, a₁, hrun, ha₁, hleft, hmoved.other⟩
    · rw [if_neg hcounters] at hrun
      exact ⟨T₁, d.retain_on_empty, a₁, hrun, ha₁, hleft, hmoved.other⟩

end Exit

/-- Every live lock is on a live deposit whose vault covers all the locks on it. -/
def LocksBacked (r : EscrowRecords) (T : Accounts TokenAccount) : Prop :=
  ∀ kl l, r.intent_locks.lookup kl = some l →
    (r.deposits.lookup l.deposit).isSome = true
      ∧ r.locked_amount l.deposit ≤ balance T (deposit_vault_address l.deposit)

/-- In a state with the custody invariant every lock is backed. -/
theorem CustodyInv.locksBacked {rt : Runtime} {s : State} (hs : CustodyInv rt s) :
    LocksBacked s.toEscrowRecords s.tokens := by
  intro kl l hl
  obtain ⟨d, hd⟩ := hs.lock_deposit hl
  have hdeposit := hs.deposits _ d hd
  obtain ⟨a, ha⟩ := hdeposit.vault
  have hcovers := ha.covers
  rw [Deposit.liability, hdeposit.outstanding] at hcovers
  refine ⟨by rw [hd]; rfl, ?_⟩
  rw [balance_eq ha.found]
  exact (Nat.le_add_left _ _).trans hcovers

/-- Wherever a run passes, the depositor's withdrawal succeeds if the dust recipient's token account
is supplied when it is needed and is neither the vault nor the depositor's account. It pays the
depositor exactly the available principal; it closes the deposit and its vault exactly when no lock
is live, the deposit is not retained and the residual is dust, and then sweeps only what no
liability asked for; and every live lock stays backed. -/
theorem withdraw_exact {rt : Runtime} {es : List Event} {t s : State} (h : Run rt es t)
    (hs : TxMachine.Passes es t s) {k : Pubkey} {d : Deposit} (hd : s.deposits.lookup k = some d)
    {depositor_token : Pubkey} {dust : Option Pubkey}
    (haccounts : ExitAccounts s d depositor_token dust)
    (hsupplied : 0 < residual s k d → residual s k d ≤ s.escrow_config.dust_threshold →
      dust.isSome = true)
    (hapart : DustApart k depositor_token dust) :
    ∃ r' T',
      handle_withdraw_deposit ⟨d.depositor, k, depositor_token, dust⟩ s.toEscrowRecords s.tokens
        = .ok (r', T')
      ∧ (∀ c, c ≠ deposit_vault_address k → balance T' c = balance s.tokens c
        + (if c = depositor_token then d.remaining_deposits else 0)
        + if r'.deposits.lookup k = none ∧ dust = some c then excess s k d else 0)
      ∧ (r'.deposits.lookup k = none ↔ ExitCloses s k d)
      ∧ (T'.lookup (deposit_vault_address k) = none ↔ ExitCloses s k d)
      ∧ (¬ ExitCloses s k d → balance T' (deposit_vault_address k) = residual s k d)
      ∧ LocksBacked r' T' := by
  obtain ⟨hledger, hcustody, hown⟩ :=
    hs.holds (I := fun s => LedgerOk s ∧ CustodyInv rt s ∧ OwnLocks s) (Run.own_locks h)
  have hescrow : EscrowOk s.toEscrowRecords :=
    hs.holds (I := fun s => EscrowOk s.toEscrowRecords) (Run.escrow h)
  -- the withdrawal is a move of the escrow, so what backs the locks before it backs them after
  have hbacked : ∀ r' T',
      handle_withdraw_deposit ⟨d.depositor, k, depositor_token, dust⟩ s.toEscrowRecords s.tokens
        = .ok (r', T') → LocksBacked r' T' := by
    intro r' T' hok
    have hexecute : (CustodyInstruction.withdraw_deposit
        ⟨d.depositor, k, depositor_token, dust⟩).execute s.toEscrowRecords s.tokens = .ok (r', T') := hok
    have hmove := custody_instruction_move rt hledger.tokens hexecute
    exact (hmove.inv hown hcustody).locksBacked
  rcases withdraw_goes hcustody hledger.tokens hd (hescrow.deposit k d hd) haccounts hsupplied hapart
    with ⟨hcloses, T', hok, hnone, hbalances⟩ | ⟨hopen, T', retain, a, hok, ha, hleft, hbalances⟩
  · have herased : (s.deposits.erase k).lookup k = none := Finmap.lookup_erase _ _
    -- without a lock nothing is outstanding, so the residual is the whole excess
    have hswept : residual s k d = excess s k d := by
      obtain ⟨-, houtstanding⟩ := (hcustody.counters_zero hd).mpr hcloses.1
      unfold residual excess
      rw [houtstanding, Nat.add_zero]
    refine ⟨_, T', hok, fun c hc => ?_, ⟨fun _ => hcloses, fun _ => herased⟩,
      ⟨fun _ => hcloses, fun _ => hnone⟩, fun hopen => absurd hcloses hopen, hbacked _ _ hok⟩
    rw [hbalances c hc, hswept]
    simp only [herased, true_and]
  · have hkept : (s.deposits.insert k (drained d retain)).lookup k = some (drained d retain) :=
      Finmap.lookup_insert _
    refine ⟨_, T', hok, fun c hc => ?_, ⟨fun hlookup => ?_, fun hcloses => absurd hcloses hopen⟩,
      ⟨fun hlookup => ?_, fun hcloses => absurd hcloses hopen⟩, fun _ => ?_, hbacked _ _ hok⟩
    · rw [hbalances c hc]
      simp only [hkept, reduceCtorEq, false_and, if_false, Nat.add_zero]
    · rw [hkept] at hlookup
      cases hlookup
    · rw [ha] at hlookup
      cases hlookup
    · rw [balance_eq ha, hleft]

/-- The dust policy is set and somebody sends three tokens straight to the vault. -/
def sample_donated (recipient : Pubkey) : TxContext × List TopLevel :=
  (sample_ctx 2000,
    [.program (.governance (.configure_escrow ⟨sample_authority⟩
        { dust_recipient := some recipient
          dust_threshold := some 5
          max_intents_per_deposit := none
          intent_expiration_period := none
          paused := some true })),
      .external (((((∅ : Accounts TokenAccount).insert (sample_key 101)
        ⟨sample_mint, sample_taker, 797⟩).insert
        (sample_key 102) ⟨sample_mint, sample_staker, 900⟩).insert
        (sample_key 103) ⟨sample_mint, sample_depositor, 500⟩).insert
        stake_token_vault ⟨sample_mint, stake_vault_address, 300⟩ |>.insert
        (deposit_vault_address sample_deposit) ⟨sample_mint, sample_deposit, 503⟩)])

/-- A token account of the mint and the owner, computed. -/
def token_account_at (s : State) (c mint owner : Pubkey) : Bool :=
  (s.tokens.lookup c).any fun a => decide (a.mint = mint ∧ a.owner = owner)

/-- The decidable form says what it should. -/
theorem token_account_at_true {s : State} {c mint owner : Pubkey}
    (h : token_account_at s c mint owner = true) :
    ∃ a, s.tokens.lookup c = some a ∧ a.mint = mint ∧ a.owner = owner := by
  obtain ⟨a, ha, hgood⟩ := (Option.any_eq_true _ _).mp h
  obtain ⟨hmint, howner⟩ := of_decide_eq_true hgood
  exact ⟨a, ha, hmint, howner⟩

theorem exit_accounts_of {s : State} {d : Deposit} {c c' : Pubkey}
    (h : token_account_at s c d.token_mint d.depositor = true)
    (h' : token_account_at s c' d.token_mint s.escrow_config.dust_recipient = true) :
    ExitAccounts s d c (some c') := by
  refine ⟨token_account_at_true h, ?_⟩
  rintro _ ⟨⟩
  exact token_account_at_true h'

/-- With the escrow paused and three tokens too many in the vault, the sample depositor gets the
principal and nothing else. -/
theorem withdraw_exact_donated :
    ∃ es s d r' T', Run sample_runtime es s ∧ s.deposits.lookup sample_deposit = some d
      ∧ s.escrow_config.paused = true ∧ residual s sample_deposit d = 3
      ∧ handle_withdraw_deposit ⟨d.depositor, sample_deposit, sample_key 103, some (sample_key 102)⟩
        s.toEscrowRecords s.tokens = .ok (r', T')
      ∧ balance T' (sample_key 103) = balance s.tokens (sample_key 103) + d.remaining_deposits := by
  obtain ⟨es, s, hrun, hgood⟩ := sample_reaches [sample_setup, sample_donated sample_staker]
    (fun _ s => (s.deposits.lookup sample_deposit).any fun d : Deposit => s.escrow_config.paused
      && decide (residual s sample_deposit d = 3)
      && token_account_at s (sample_key 103) d.token_mint d.depositor
      && token_account_at s (sample_key 102) d.token_mint s.escrow_config.dust_recipient)
    (by decide +kernel)
  simp only [Option.any_eq_true, Bool.and_eq_true, decide_eq_true_eq] at hgood
  obtain ⟨d, hd, ⟨⟨hpaused, hresidual⟩, hdepositor⟩, hdust⟩ := hgood
  have hapart : DustApart sample_deposit (sample_key 103) (some (sample_key 102)) := by
    rintro _ ⟨⟩
    decide
  obtain ⟨r', T', hok, hpaid, -⟩ := withdraw_exact hrun (.inl rfl) hd
    (exit_accounts_of hdepositor hdust) (fun _ _ => rfl) hapart
  refine ⟨es, s, d, r', T', hrun, hd, hpaused, hresidual, hok, ?_⟩
  rw [hpaid _ (by decide), if_pos rfl, if_neg]
  · rfl
  · rintro ⟨-, heq⟩
    exact absurd heq (by decide)

/-- Three tokens too many are in the vault and all of them are dust. The withdrawal is supplied a token
account of the depositor's and a token account `dust` of the dust recipient's, and fails. -/
def ExitBlocked (dust : Pubkey) : Prop :=
  ∃ es s d, Run sample_runtime es s ∧ s.deposits.lookup sample_deposit = some d
    ∧ ExitAccounts s d (sample_key 103) (some dust)
    ∧ residual s sample_deposit d = 3 ∧ s.escrow_config.dust_threshold = 5
    ∧ ∀ r' T', handle_withdraw_deposit ⟨d.depositor, sample_deposit, sample_key 103, some dust⟩
      s.toEscrowRecords s.tokens ≠ .ok (r', T')

/-- The same as a check on the state after the donation. -/
def exit_blocked (dust : Pubkey) (s : State) : Bool :=
  (s.deposits.lookup sample_deposit).any fun d : Deposit =>
    decide (residual s sample_deposit d = 3) && decide (s.escrow_config.dust_threshold = 5)
      && token_account_at s (sample_key 103) d.token_mint d.depositor
      && token_account_at s dust d.token_mint s.escrow_config.dust_recipient
      && (handle_withdraw_deposit ⟨d.depositor, sample_deposit, sample_key 103, some dust⟩
        s.toEscrowRecords s.tokens).toOption.isNone

/-- What the sample check finds out about a state is that its exit is blocked. -/
theorem exit_blocked_sound {dust : Pubkey} {es : List Event} {s : State}
    (hrun : Run sample_runtime es s) (h : exit_blocked dust s = true) : ExitBlocked dust := by
  simp only [exit_blocked, Option.any_eq_true, Bool.and_eq_true, decide_eq_true_eq] at h
  obtain ⟨d, hd, ⟨⟨⟨hresidual, hthreshold⟩, hdepositor⟩, hdust⟩, hfails⟩ := h
  refine ⟨es, s, d, hrun, hd, exit_accounts_of hdepositor hdust, hresidual, hthreshold, ?_⟩
  intro r' T' hok
  rw [hok] at hfails
  cases hfails

/-- Where the dust recipient is the deposit itself its token account can be the vault, and where it is
the depositor it can be the account the principal goes to. Either way the account is supplied twice. -/
theorem withdraw_blocked_by_shared_account :
    ExitBlocked (deposit_vault_address sample_deposit) ∧ ExitBlocked (sample_key 103) := by
  constructor
  · obtain ⟨es, s, hrun, hblocked⟩ := sample_reaches [sample_setup, sample_donated sample_deposit]
      (fun _ s => exit_blocked (deposit_vault_address sample_deposit) s) (by decide +kernel)
    exact exit_blocked_sound hrun hblocked
  · obtain ⟨es, s, hrun, hblocked⟩ := sample_reaches [sample_setup, sample_donated sample_depositor]
      (fun _ s => exit_blocked (sample_key 103) s) (by decide +kernel)
    exact exit_blocked_sound hrun hblocked

end Zkp2pSolana
