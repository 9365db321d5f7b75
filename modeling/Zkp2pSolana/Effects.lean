/-
What ending an intent does to the ledger, as an update.

A transaction that ends an intent, its coverage, or both, changes the records of
other intents only through sums: the liquidity of a deposit, the counter of an
owner, the stake of a position, the totals of the vault and a claim. Everything
else it writes is its own. `Effect` says so: it holds the amounts, and `apply` is
the change, as a total function on states. Two effects on different hashes
commute, because the sums do; no invariant is needed for that. Invariants decide
whether the checked arithmetic of the program lets an effect happen, which is the
subject of the next module.
-/
import Mathlib.Logic.Function.Conjugate
import Zkp2pSolana.Lib.FinmapAlter
import Zkp2pSolana.CustodyMoves
import Zkp2pSolana.Replay

set_option autoImplicit false

namespace Zkp2pSolana

open Result Zkp2pError

/-! ## The four parts -/

/-- An intent is closed: its lock of `locked` leaves the deposit, which gets `returned` back, and
its owner has one live intent less. -/
structure Closing where
  key : Pubkey
  deposit : Pubkey
  owner : Pubkey
  locked : ℕ
  returned : ℕ

/-- Collateral is resolved: `freed` of the lock and `charged` of the balance leave the position of
the owner, and lock and coverage are written. -/
structure Resolution where
  stake_owner : Pubkey
  freed : ℕ
  charged : ℕ
  lock : Option StakeLock
  record : DisputeIntent

/-- Stake becomes a claim of the depositor, once for each dispute nullifier. -/
structure Credit where
  depositor : Pubkey
  amount : ℕ
  nullifier : Bytes 32
  record : DisputeNullifier

/-- What ending the intent with a hash does; `binding` is the nullifier of the payment it consumes. -/
structure Effect where
  hash : Bytes 32
  closing : Option Closing
  resolution : Option Resolution
  credit : Option Credit
  binding : Option (Bytes 32)

def Deposit.without_lock (d : Deposit) (locked returned : ℕ) : Deposit :=
  { d with
    remaining_deposits := d.remaining_deposits + returned
    outstanding_intent_amount := d.outstanding_intent_amount - locked
    active_intents := d.active_intents - 1 }

def TakerIntentState.lowered (t : TakerIntentState) : TakerIntentState :=
  { t with active_intents := t.active_intents - 1 }

def StakePosition.released (p : StakePosition) (freed charged : ℕ) : StakePosition :=
  { p with locked := p.locked - freed, balance := p.balance - charged }

/-- The claim account after a credit; one never written is opened for the depositor. -/
def ClaimBalance.credited (c : ClaimBalance) (depositor : Pubkey) (amount : ℕ) : ClaimBalance :=
  if c.beneficiary = Pubkey.default then
    { vault := stake_vault_address, beneficiary := depositor, amount := c.amount + amount }
  else { c with amount := c.amount + amount }

def Closing.apply (hash : Bytes 32) (c : Closing) (s : State) : State :=
  { s with
    deposits := s.deposits.alter c.deposit
      (Option.map fun d => d.without_lock c.locked c.returned)
    intent_locks := s.intent_locks.erase (intent_lock_address c.deposit hash)
    intents := s.intents.erase c.key
    taker_states := s.taker_states.alter (taker_state_address orchestrator_address c.owner)
      (Option.map TakerIntentState.lowered) }

def Resolution.apply (hash : Bytes 32) (r : Resolution) (s : State) : State :=
  { s with
    stake_positions := s.stake_positions.alter (position_of r.stake_owner)
      (Option.map fun p => p.released r.freed r.charged)
    stake_locks := s.stake_locks.alter (lock_of hash) fun _ => r.lock
    dispute_intents := s.dispute_intents.insert (coverage_of hash) r.record }

def Credit.apply (c : Credit) (s : State) : State :=
  { s with
    stake_vault := { s.stake_vault with
      total_staked := s.stake_vault.total_staked - c.amount
      total_claimable := s.stake_vault.total_claimable + c.amount }
    claims := s.claims.alter (claim_balance_address stake_vault_address c.depositor)
      fun o => some ((o.getD default).credited c.depositor c.amount)
    dispute_nullifiers := s.dispute_nullifiers.insert
      (dispute_nullifier_address dispute_config_address c.nullifier) c.record }

def bind_payment (hash nullifier : Bytes 32) (s : State) : State :=
  { s with toVerifierRecords := s.toVerifierRecords.bind_payment nullifier hash }

/-- All the parts an effect has; they write different records, so their order is no matter. -/
def Effect.apply (e : Effect) : State → State :=
  e.closing.elim id (Closing.apply e.hash) ∘ e.resolution.elim id (Resolution.apply e.hash)
    ∘ e.credit.elim id Credit.apply ∘ e.binding.elim id (bind_payment e.hash)

/-! ## Parts on different hashes commute -/

section Parts

variable {hash hash' : Bytes 32}

/-- Two locks leave a deposit in either order: amounts are only added and subtracted. -/
theorem Deposit.without_lock_comm (d : Deposit) (l r l' r' : ℕ) :
    (d.without_lock l r).without_lock l' r' = (d.without_lock l' r').without_lock l r := by
  unfold Deposit.without_lock
  dsimp only
  rw [Nat.add_right_comm, Nat.sub_right_comm]

theorem StakePosition.released_comm (p : StakePosition) (f c f' c' : ℕ) :
    (p.released f c).released f' c' = (p.released f' c').released f c := by
  unfold StakePosition.released
  dsimp only
  rw [Nat.sub_right_comm p.locked, Nat.sub_right_comm p.balance]

/-- Two credits of one depositor add up in either order, also where the first of them opens the
account. -/
theorem ClaimBalance.credited_comm (c : ClaimBalance) (depositor : Pubkey) (x y : ℕ) :
    (c.credited depositor x).credited depositor y
      = (c.credited depositor y).credited depositor x := by
  unfold ClaimBalance.credited
  by_cases hnew : c.beneficiary = Pubkey.default
  · rw [if_pos hnew, if_pos hnew]
    dsimp only
    rw [Nat.add_right_comm]
  · rw [if_neg hnew, if_neg hnew, if_neg hnew, if_neg hnew]
    dsimp only
    rw [Nat.add_right_comm]

/-- Two intents close in either order. Where they share a deposit or a taker both write the same
record, and there the writes commute as functions. -/
theorem Closing.commute (hash hash' : Bytes 32) (c c' : Closing) :
    Function.Commute (c.apply hash) (c'.apply hash') := by
  intro s
  unfold Closing.apply
  dsimp only
  rw [Finmap.erase_erase (s := s.intents), Finmap.erase_erase (s := s.intent_locks)]
  rw [Finmap.alter_comm s.deposits, Finmap.alter_comm s.taker_states]
  · intro _ o
    rfl
  · intro _ o
    rw [Option.map_map, Option.map_map]
    congr 1
    funext d
    exact Deposit.without_lock_comm d _ _ _ _

/-- The coverage of different hashes is resolved in either order, the shared position included. -/
theorem Resolution.commute (h : hash ≠ hash') (r r' : Resolution) :
    Function.Commute (r.apply hash) (r'.apply hash') := by
  intro s
  have hcoverage : coverage_of hash' ≠ coverage_of hash := Pubkey.pda_word_ne h.symm
  unfold Resolution.apply
  dsimp only
  rw [Finmap.insert_insert_of_ne s.dispute_intents hcoverage]
  rw [Finmap.alter_comm s.stake_positions, Finmap.alter_comm s.stake_locks]
  · intro heq
    exact absurd heq (Pubkey.pda_word_ne h)
  · intro _ o
    rw [Option.map_map, Option.map_map]
    congr 1
    funext p
    exact StakePosition.released_comm p _ _ _ _

/-- Two disputes credit their claims in either order, when their nullifiers differ. -/
theorem Credit.commute {c c' : Credit} (h : c.nullifier ≠ c'.nullifier) :
    Function.Commute c.apply c'.apply := by
  intro s
  have hnullifier : dispute_nullifier_address dispute_config_address c'.nullifier
      ≠ dispute_nullifier_address dispute_config_address c.nullifier := Pubkey.pda_word_ne h.symm
  unfold Credit.apply
  dsimp only
  rw [Finmap.insert_insert_of_ne s.dispute_nullifiers hnullifier, Nat.add_right_comm,
    Nat.sub_right_comm]
  rw [Finmap.alter_comm s.claims]
  intro heq o
  injection heq with _ _ heq
  rw [Option.getD_some, Option.getD_some, heq, ClaimBalance.credited_comm]

/-- Different payments are bound to different intents in either order. -/
theorem bind_payment_commute {n n' : Bytes 32} (h : hash ≠ hash') (hn : n ≠ n') :
    Function.Commute (bind_payment hash n) (bind_payment hash' n') := by
  intro s
  have hpayment : payment_binding_address verifier_address n'
      ≠ payment_binding_address verifier_address n := Pubkey.pda_word_ne hn.symm
  have hintent : intent_payment_binding_address verifier_address hash'
      ≠ intent_payment_binding_address verifier_address hash := Pubkey.pda_word_ne h.symm
  unfold bind_payment VerifierRecords.bind_payment
  dsimp only
  rw [Finmap.insert_insert_of_ne s.payment_bindings hpayment,
    Finmap.insert_insert_of_ne s.intent_payment_bindings hintent]

end Parts

/-! ## Effects on different hashes commute -/

/-- The two effects share no record of their own. -/
structure Effect.Apart (e e' : Effect) : Prop where
  hash : e.hash ≠ e'.hash
  key : ∀ c ∈ e.closing, ∀ c' ∈ e'.closing, c.key ≠ c'.key
  nullifier : ∀ c ∈ e.credit, ∀ c' ∈ e'.credit, c.nullifier ≠ c'.nullifier
  binding : ∀ n ∈ e.binding, ∀ n' ∈ e'.binding, n ≠ n'

theorem Effect.Apart.symm {e e' : Effect} (h : e.Apart e') : e'.Apart e where
  hash := h.hash.symm
  key c hc c' hc' := (h.key c' hc' c hc).symm
  nullifier c hc c' hc' := (h.nullifier c' hc' c hc).symm
  binding n hn n' hn' := (h.binding n' hn' n hn).symm

/-- What commutes with a part commutes with it where it may be missing. -/
theorem commute_elim {α : Type} {f : State → State} {o : Option α} {g : α → State → State}
    (h : ∀ a ∈ o, Function.Commute f (g a)) : Function.Commute f (o.elim id g) := by
  cases o with
  | none => exact Function.Commute.id_right
  | some a => exact h a rfl

/-- What commutes with every part commutes with the effect. -/
theorem Effect.commute_of_parts {f : State → State} {e : Effect}
    (hclosing : ∀ c ∈ e.closing, Function.Commute f (c.apply e.hash))
    (hresolution : ∀ r ∈ e.resolution, Function.Commute f (r.apply e.hash))
    (hcredit : ∀ c ∈ e.credit, Function.Commute f c.apply)
    (hbinding : ∀ n ∈ e.binding, Function.Commute f (bind_payment e.hash n)) :
    Function.Commute f e.apply := by
  have hrest := (commute_elim hcredit).comp_right (commute_elim hbinding)
  exact (commute_elim hclosing).comp_right ((commute_elim hresolution).comp_right hrest)

/-- Effects that share no record of their own commute as functions on states: part by part, and the
parts of different kinds write different fields. -/
theorem Effect.commute {e e' : Effect} (h : e.Apart e') : Function.Commute e.apply e'.apply := by
  -- part by part; parts of different kinds write different records
  apply Effect.commute_of_parts
  · intro c' _
    apply Function.Commute.symm
    apply Effect.commute_of_parts
    · intro c _
      exact Closing.commute e'.hash e.hash c' c
    all_goals
      intro _ _ _
      rfl
  · intro r' _
    apply Function.Commute.symm
    apply Effect.commute_of_parts
    · intro _ _ _
      rfl
    · intro r _
      exact Resolution.commute h.hash.symm r' r
    all_goals
      intro _ _ _
      rfl
  · intro c' hc'
    apply Function.Commute.symm
    apply Effect.commute_of_parts
    · intro _ _ _
      rfl
    · intro _ _ _
      rfl
    · intro c hc
      exact (Credit.commute (h.nullifier c hc c' hc')).symm
    · intro _ _ _
      rfl
  · intro n' hn'
    apply Function.Commute.symm
    apply Effect.commute_of_parts
    · intro _ _ _
      rfl
    · intro _ _ _
      rfl
    · intro _ _ _
      rfl
    · intro n hn
      exact (bind_payment_commute h.hash (h.binding n hn n' hn')).symm

/-- An effect does not look at the tokens. -/
theorem Effect.apply_tokens (e : Effect) (s : State) (T : Accounts TokenAccount) :
    { e.apply s with tokens := T } = e.apply { s with tokens := T } := by
  obtain ⟨hash, closing, resolution, credit, binding⟩ := e
  cases closing <;> cases resolution <;> cases credit <;> cases binding <;> rfl

/-! ## What an effect leaves to the others -/

/-- From `s` to `t`, nothing has changed of what the transaction with effect `e` reads, apart from
the amounts others move. -/
structure Unaffected (e : Effect) (s t : State) : Prop where
  deposits : ∀ k d, s.deposits.lookup k = some d →
    ∃ d', t.deposits.lookup k = some d' ∧ SameTerms d d'
  intents : ∀ c ∈ e.closing, t.intents.lookup c.key = s.intents.lookup c.key
  intent_locks : ∀ k, t.intent_locks.lookup (intent_lock_address k e.hash)
    = s.intent_locks.lookup (intent_lock_address k e.hash)
  stake_positions : ∀ k p, s.stake_positions.lookup k = some p →
    ∃ p', t.stake_positions.lookup k = some p' ∧ p'.owner = p.owner
  stake_locks : t.stake_locks.lookup (lock_of e.hash) = s.stake_locks.lookup (lock_of e.hash)
  dispute_intents : t.dispute_intents.lookup (coverage_of e.hash)
    = s.dispute_intents.lookup (coverage_of e.hash)
  dispute_nullifiers : ∀ c ∈ e.credit,
    t.dispute_nullifiers.lookup (dispute_nullifier_address dispute_config_address c.nullifier)
      = s.dispute_nullifiers.lookup (dispute_nullifier_address dispute_config_address c.nullifier)
  payment_fresh : ∀ n ∈ e.binding,
    t.payment_bindings.lookup (payment_binding_address verifier_address n)
      = s.payment_bindings.lookup (payment_binding_address verifier_address n)
  payment_bound : ∀ k b, s.payment_bindings.lookup k = some b → t.payment_bindings.lookup k = some b
  intent_payment_bindings :
    t.intent_payment_bindings.lookup (intent_payment_binding_address verifier_address e.hash)
      = s.intent_payment_bindings.lookup (intent_payment_binding_address verifier_address e.hash)
  orchestrator : t.orchestrator = s.orchestrator
  verifier : t.verifier = s.verifier
  dispute_config : t.dispute_config = s.dispute_config
  controller : t.stake_vault.controller = s.stake_vault.controller

theorem SameTerms.trans {d d' d'' : Deposit} (h : SameTerms d d') (h' : SameTerms d' d'') :
    SameTerms d d'' :=
  ⟨h'.escrow_config.trans h.escrow_config, h'.id.trans h.id, h'.depositor.trans h.depositor,
    h'.token_mint.trans h.token_mint, fun hfloor => h'.floor (h.floor hfloor)⟩

section Unaffected

variable {e : Effect} {s t u : State}

theorem Unaffected.refl (e : Effect) (s : State) : Unaffected e s s where
  deposits _ d hd := ⟨d, hd, .refl d⟩
  intents _ _ := rfl
  intent_locks _ := rfl
  stake_positions _ p hp := ⟨p, hp, rfl⟩
  stake_locks := rfl
  dispute_intents := rfl
  dispute_nullifiers _ _ := rfl
  payment_fresh _ _ := rfl
  payment_bound _ _ hb := hb
  intent_payment_bindings := rfl
  orchestrator := rfl
  verifier := rfl
  dispute_config := rfl
  controller := rfl

theorem Unaffected.trans (h : Unaffected e s t) (h' : Unaffected e t u) : Unaffected e s u where
  deposits k d hd := by
    obtain ⟨d', hd', hterms⟩ := h.deposits k d hd
    obtain ⟨d'', hd'', hterms'⟩ := h'.deposits k d' hd'
    exact ⟨d'', hd'', hterms.trans hterms'⟩
  intents c hc := (h'.intents c hc).trans (h.intents c hc)
  intent_locks k := (h'.intent_locks k).trans (h.intent_locks k)
  stake_positions k p hp := by
    obtain ⟨p', hp', howner⟩ := h.stake_positions k p hp
    obtain ⟨p'', hp'', howner'⟩ := h'.stake_positions k p' hp'
    exact ⟨p'', hp'', howner'.trans howner⟩
  stake_locks := h'.stake_locks.trans h.stake_locks
  dispute_intents := h'.dispute_intents.trans h.dispute_intents
  dispute_nullifiers c hc := (h'.dispute_nullifiers c hc).trans (h.dispute_nullifiers c hc)
  payment_fresh n hn := (h'.payment_fresh n hn).trans (h.payment_fresh n hn)
  payment_bound k b hb := h'.payment_bound k b (h.payment_bound k b hb)
  intent_payment_bindings := h'.intent_payment_bindings.trans h.intent_payment_bindings
  orchestrator := h'.orchestrator.trans h.orchestrator
  verifier := h'.verifier.trans h.verifier
  dispute_config := h'.dispute_config.trans h.dispute_config
  controller := h'.controller.trans h.controller

/-- A part that may be missing leaves `e` unaffected if it does when it is there. -/
theorem Unaffected.elim {α : Type} {o : Option α} {f : α → State → State}
    (h : ∀ a ∈ o, Unaffected e s (f a s)) : Unaffected e s (o.elim id f s) := by
  cases o with
  | none => exact .refl e s
  | some a => exact h a rfl

/-- Closing another intent leaves what `e` reads; of a shared deposit it moves the amounts only. -/
theorem Closing.unaffected {hash : Bytes 32} (h : hash ≠ e.hash) {c : Closing}
    (hkey : ∀ c' ∈ e.closing, c.key ≠ c'.key) (s : State) : Unaffected e s (c.apply hash s) :=
  { Unaffected.refl e s with
    deposits := by
      intro k d hd
      refine ⟨_, Finmap.lookup_alter_map hd _, ?_⟩
      split_ifs
      · exact ⟨rfl, rfl, rfl, rfl, fun hfloor => hfloor⟩
      · exact .refl d
    intents := fun c' hc' => Finmap.lookup_erase_ne (hkey c' hc').symm
    intent_locks := fun _ => Finmap.lookup_erase_ne (Pubkey.pda_word_ne h.symm) }

/-- So does resolving the coverage of another hash; of a shared position it moves the amounts
only. -/
theorem Resolution.unaffected {hash : Bytes 32} (h : hash ≠ e.hash) (r : Resolution) (s : State) :
    Unaffected e s (r.apply hash s) :=
  { Unaffected.refl e s with
    stake_positions := by
      intro k p hp
      refine ⟨_, Finmap.lookup_alter_map hp _, ?_⟩
      split_ifs <;> rfl
    stake_locks := Finmap.lookup_alter_ne _ _ (Pubkey.pda_word_ne h.symm)
    dispute_intents := Finmap.lookup_insert_of_ne _ (Pubkey.pda_word_ne h.symm) }

theorem Credit.unaffected {c : Credit} (h : ∀ c' ∈ e.credit, c.nullifier ≠ c'.nullifier)
    (s : State) : Unaffected e s (c.apply s) :=
  { Unaffected.refl e s with
    dispute_nullifiers := fun c' hc' =>
      Finmap.lookup_insert_of_ne _ (Pubkey.pda_word_ne (h c' hc').symm) }

/-- A fresh binding is no binding that was there. -/
theorem bind_payment_unaffected {hash n : Bytes 32} (h : hash ≠ e.hash)
    (hn : ∀ n' ∈ e.binding, n ≠ n')
    (hfresh : s.payment_bindings.lookup (payment_binding_address verifier_address n) = none) :
    Unaffected e s (bind_payment hash n s) :=
  { Unaffected.refl e s with
    payment_fresh := fun n' hn' =>
      Finmap.lookup_insert_of_ne _ (Pubkey.pda_word_ne (hn n' hn').symm)
    payment_bound := by
      intro k b hb
      refine (Finmap.lookup_insert_of_ne _ ?_).trans hb
      rintro rfl
      rw [hfresh] at hb
      cases hb
    intent_payment_bindings := Finmap.lookup_insert_of_ne _ (Pubkey.pda_word_ne h.symm) }

/-- What a transaction on another hash reads is unaffected by an effect whose payment is new. -/
theorem Effect.unaffected {e₁ : Effect} (h : e₁.Apart e)
    (hfresh : ∀ n ∈ e₁.binding,
      s.payment_bindings.lookup (payment_binding_address verifier_address n) = none) :
    Unaffected e s (e₁.apply s) := by
  have hbinding : Unaffected e s (e₁.binding.elim id (bind_payment e₁.hash) s) :=
    .elim fun n hn => bind_payment_unaffected h.hash (h.binding n hn) (hfresh n hn)
  have hcredit : ∀ s, Unaffected e s (e₁.credit.elim id Credit.apply s) :=
    fun s => .elim fun c hc => Credit.unaffected (h.nullifier c hc) s
  have hresolution : ∀ s, Unaffected e s (e₁.resolution.elim id (Resolution.apply e₁.hash) s) :=
    fun s => .elim fun r _ => Resolution.unaffected h.hash r s
  have hclosing : ∀ s, Unaffected e s (e₁.closing.elim id (Closing.apply e₁.hash) s) :=
    fun s => .elim fun c hc => Closing.unaffected h.hash (h.key c hc) s
  exact hbinding.trans ((hcredit _).trans ((hresolution _).trans (hclosing _)))

end Unaffected

end Zkp2pSolana
