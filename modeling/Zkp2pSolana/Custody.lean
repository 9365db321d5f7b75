/-
Escrow custody.

Every deposit's vault covers what the deposit owes, the two counters of a deposit
are the sum and the number of its live locks, and intents and locks come in
matching pairs. `CustodyInv` is the inductive invariant: beside what is wanted it
carries where each record sits and the nonce its hash was derived from, because
closing an intent must not remove the lock of another one. This is where the
derivation of intent hashes has to be free of collisions.
-/
import Zkp2pSolana.CustodyMoves
import Zkp2pSolana.LifecycleMoves

set_option autoImplicit false

namespace Zkp2pSolana

open Result Zkp2pError

/-- Intent hashes of distinct `u64` nonces are distinct. -/
def NonceInjective (rt : Runtime) : Prop :=
  ∀ m n, m < 2 ^ 64 → n < 2 ^ 64 →
    derive_intent_hash rt orchestrator_address m = derive_intent_hash rt orchestrator_address n →
    m = n

/-- A hash the sample cluster derives from a nonce other than the first is the nonce itself. -/
theorem sample_hash_eq {n : ℕ} (hn : n < 2 ^ 64) (h : n ≠ 0) :
    (derive_intent_hash sample_runtime orchestrator_address n).toList
      = List.replicate 24 0 ++ be_bytes 8 n := by
  have hdigest : sample_runtime.keccak (sample_runtime.as_ref orchestrator_address ++ be_bytes 8 n)
      = Bytes.ofList 32 (List.replicate 24 0 ++ be_bytes 8 n) := by
    have hlength : (sample_runtime.as_ref orchestrator_address).length = 32 := rfl
    have hne : be_bytes 8 n ≠ be_bytes 8 0 := fun heq =>
      h (be_bytes_injective 8 (by simpa using hn) (by simp) heq)
    have hkeccak : sample_runtime.keccak = sample_keccak := rfl
    rw [hkeccak]
    unfold sample_keccak
    rw [List.length_append, hlength, length_be_bytes]
    simp only [List.drop_left' hlength, if_neg hne]
  have hbytes : (Bytes.ofList 32 (List.replicate 24 0 ++ be_bytes 8 n)).toList
      = List.replicate 24 0 ++ be_bytes 8 n := by
    apply Bytes.toList_ofList
    rw [List.length_append, List.length_replicate, length_be_bytes]
  unfold derive_intent_hash reduce_circom_field
  rw [hdigest, hbytes]
  -- a value that starts with a zero byte is below the modulus
  have hsmall : ¬ MODULUS ≤ List.replicate 24 0 ++ be_bytes 8 n := by
    rw [List.replicate_succ, List.cons_append, MODULUS, List.cons_le_cons_iff]
    rintro (h | ⟨h, -⟩)
    · exact absurd h (by decide)
    · exact absurd h (by decide)
  rw [reduce_loop, if_neg hsmall, hbytes]

/-- The sample hash keeps the nonce, so different nonces have different hashes. -/
theorem sample_nonce_injective : NonceInjective sample_runtime := by
  have hfirst : ∀ n, n < 2 ^ 64 → n ≠ 0 →
      derive_intent_hash sample_runtime orchestrator_address 0
        ≠ derive_intent_hash sample_runtime orchestrator_address n := by
    intro n hn hne heq
    have hhead := congrArg (fun b : Bytes 32 => b.toList.head?) heq
    simp only [sample_hash_eq hn hne, List.replicate_succ, List.cons_append,
      List.head?_cons] at hhead
    revert hhead
    decide +kernel
  intro m n hm hn heq
  by_cases hm0 : m = 0
  · subst hm0
    by_contra hne
    exact hfirst n hn (Ne.symm hne) heq
  · by_cases hn0 : n = 0
    · subst hn0
      exact absurd heq.symm (hfirst m hm hm0)
    · have hlists := congrArg Bytes.toList heq
      rw [sample_hash_eq hm hm0, sample_hash_eq hn hn0] at hlists
      exact be_bytes_injective 8 (by simpa using hm) (by simpa using hn)
        (List.append_cancel_left hlists)

/-- What the live locks take from a deposit. -/
def EscrowRecords.locked_amount (r : EscrowRecords) (k : Pubkey) : ℕ :=
  Finmap.owed EscrowIntentLock.deposit EscrowIntentLock.amount r.intent_locks k

/-- How many live locks a deposit has. -/
def EscrowRecords.lock_count (r : EscrowRecords) (k : Pubkey) : ℕ :=
  Finmap.owed EscrowIntentLock.deposit (fun _ => 1) r.intent_locks k

/-! ## The invariant -/

/-- The vault of a live deposit. -/
structure VaultOf (T : Accounts TokenAccount) (k : Pubkey) (d : Deposit) (a : TokenAccount) :
    Prop where
  found : T.lookup (deposit_vault_address k) = some a
  owner : a.owner = k
  mint : a.mint = d.token_mint
  covers : d.liability ≤ a.amount

/-- What holds of one live deposit. -/
structure DepositInv (s : State) (k : Pubkey) (d : Deposit) : Prop where
  vault : ∃ a, VaultOf s.tokens k d a
  outstanding : d.outstanding_intent_amount = s.locked_amount k
  active : d.active_intents = s.lock_count k
  floor : 0 < d.intent_amount_range.min

/-- What holds of one live intent. -/
structure IntentInv (rt : Runtime) (s : State) (k : Pubkey) (i : Intent) : Prop where
  key : k = intent_address orchestrator_address i.nonce
  nonce : i.nonce < s.orchestrator.next_intent_id
  hash : i.intent_hash = derive_intent_hash rt orchestrator_address i.nonce
  orchestrator : i.orchestrator = orchestrator_address
  amount : 0 < i.amount
  deposit : ∃ d, s.deposits.lookup i.deposit = some d
  lock : ∃ l, s.intent_locks.lookup (intent_lock_address i.deposit i.intent_hash) = some l
    ∧ Paired i l

/-- What holds of one live lock. -/
structure LockInv (s : State) (k : Pubkey) (l : EscrowIntentLock) : Prop where
  key : k = intent_lock_address l.deposit l.intent_hash
  intent : ∃ ki i, s.intents.lookup ki = some i ∧ Paired i l

structure CustodyInv (rt : Runtime) (s : State) : Prop where
  deposits : ∀ k d, s.deposits.lookup k = some d → DepositInv s k d
  intents : ∀ k i, s.intents.lookup k = some i → IntentInv rt s k i
  locks : ∀ k l, s.intent_locks.lookup k = some l → LockInv s k l
  nonce : s.orchestrator.next_intent_id < 2 ^ 64

/-- No two live intents share a deposit and a hash, and so none shares a lock. -/
def OwnLocks (s : State) : Prop :=
  ∀ k k' i i', s.intents.lookup k = some i → s.intents.lookup k' = some i' →
    i.deposit = i'.deposit → i.intent_hash = i'.intent_hash → k = k'

/-- The principal of a live deposit is a word. -/
theorem CustodyInv.liquidity {rt : Runtime} {s : State} (hs : CustodyInv rt s)
    (hT : TokensOk s.tokens) {k : Pubkey} {d : Deposit} (hd : s.deposits.lookup k = some d) :
    d.remaining_deposits + d.outstanding_intent_amount < 2 ^ 64 := by
  obtain ⟨a, hvault⟩ := (hs.deposits k d hd).vault
  have hword := hT.word _ a hvault.found
  have hcovers := hvault.covers
  unfold Deposit.liability at hcovers
  omega

/-- So is what an intent of it is worth. -/
theorem CustodyInv.amount_lt {rt : Runtime} {s : State} (hs : CustodyInv rt s)
    (hT : TokensOk s.tokens) {k : Pubkey} {i : Intent} (hi : s.intents.lookup k = some i) :
    i.amount < 2 ^ 64 := by
  obtain ⟨-, -, -, -, -, ⟨d, hd⟩, l, hl, hpaired⟩ := hs.intents k i hi
  have hword := hs.liquidity hT hd
  have houtstanding := (hs.deposits _ d hd).outstanding
  have hle : l.amount ≤ s.locked_amount l.deposit :=
    Finmap.le_owed EscrowIntentLock.deposit EscrowIntentLock.amount hl
  rw [hpaired.deposit, hpaired.amount] at hle
  omega

section Pairs

variable {rt : Runtime} {s s' : State}

/-- Two live intents with one hash are one intent. -/
theorem CustodyInv.intent_unique (hs : CustodyInv rt s) (hinj : NonceInjective rt) {k k' : Pubkey}
    {i i' : Intent} (hi : s.intents.lookup k = some i) (hi' : s.intents.lookup k' = some i')
    (hhash : i.intent_hash = i'.intent_hash) : k = k' := by
  have h := hs.intents k i hi
  have h' := hs.intents k' i' hi'
  -- both hashes are derived from live nonces, and those are words
  have hnonce : i.nonce = i'.nonce := by
    refine hinj _ _ (h.nonce.trans hs.nonce) (h'.nonce.trans hs.nonce) ?_
    rw [← h.hash, ← h'.hash, hhash]
  rw [h.key, h'.key, hnonce]

/-- Where hashes do not collide, the lock found for an intent is its own. -/
theorem CustodyInv.ownLocks (hs : CustodyInv rt s) (hinj : NonceInjective rt) : OwnLocks s :=
  fun _ _ _ _ hi hi' _ hhash => hs.intent_unique hinj hi hi' hhash

/-- Two live locks with one hash are one lock. -/
theorem CustodyInv.lock_unique (hs : CustodyInv rt s) (hinj : NonceInjective rt) {k k' : Pubkey}
    {l l' : EscrowIntentLock} (hl : s.intent_locks.lookup k = some l)
    (hl' : s.intent_locks.lookup k' = some l') (hhash : l.intent_hash = l'.intent_hash) :
    k = k' := by
  have h := hs.locks k l hl
  have h' := hs.locks k' l' hl'
  obtain ⟨ki, i, hi, hpair⟩ := h.intent
  obtain ⟨ki', i', hi', hpair'⟩ := h'.intent
  have hkey := hs.intent_unique hinj hi hi' (by rw [← hpair.intent_hash, ← hpair'.intent_hash, hhash])
  subst hkey
  rw [hi] at hi'
  cases hi'
  rw [h.key, h'.key, hhash, hpair.deposit, hpair'.deposit]

/-- A lock's deposit is live. -/
theorem CustodyInv.lock_deposit (hs : CustodyInv rt s) {k : Pubkey} {l : EscrowIntentLock}
    (hl : s.intent_locks.lookup k = some l) : ∃ d, s.deposits.lookup l.deposit = some d := by
  obtain ⟨ki, i, hi, hpair⟩ := (hs.locks k l hl).intent
  rw [hpair.deposit]
  exact (hs.intents ki i hi).deposit

/-- A hash derived from a nonce not yet used is no live intent's. -/
theorem CustodyInv.fresh_hash (hs : CustodyInv rt s) (hinj : NonceInjective rt) {k : Pubkey}
    {i : Intent} (hi : s.intents.lookup k = some i) :
    i.intent_hash ≠ derive_intent_hash rt orchestrator_address s.orchestrator.next_intent_id := by
  intro hhash
  have h := hs.intents k i hi
  rw [h.hash] at hhash
  have := hinj _ _ (h.nonce.trans hs.nonce) hs.nonce hhash
  have := h.nonce
  omega

end Pairs

/-! ## Every move keeps the invariant

The cases differ in which of the four kinds of record they write. What a case
does not write it carries over by one of the three frame lemmas. -/

section Frame

variable {rt : Runtime} {s s' : State} {k : Pubkey}

/-- A deposit whose locks are the same and whose vault keeps its excess. -/
theorem DepositInv.carry {d d' : Deposit} (h : DepositInv s k d)
    (hlocks : s'.locked_amount k = s.locked_amount k) (hcount : s'.lock_count k = s.lock_count k)
    (hterms : SameTerms d d')
    (houtstanding : d'.outstanding_intent_amount = d.outstanding_intent_amount)
    (hactive : d'.active_intents = d.active_intents)
    (hvault : KeepsExcess s.tokens s'.tokens k d d') : DepositInv s' k d' := by
  obtain ⟨a, ha⟩ := h.vault
  obtain ⟨a', ha', ho, hm, hle⟩ := hvault a ha.found
  have hcovers := ha.covers
  refine ⟨⟨a', ha', ho.trans ha.owner, ?_, by omega⟩, ?_, ?_, hterms.floor h.floor⟩
  · rw [hm, ha.mint, hterms.token_mint]
  · rw [houtstanding, h.outstanding, hlocks]
  · rw [hactive, h.active, hcount]

/-- What moves neither a deposit's locks nor its vault keeps its invariant. -/
theorem DepositInv.frame {d : Deposit} (h : DepositInv s k d)
    (hlocks : s'.locked_amount k = s.locked_amount k) (hcount : s'.lock_count k = s.lock_count k)
    (hvault : Keeps s.tokens s'.tokens (deposit_vault_address k)) : DepositInv s' k d :=
  h.carry hlocks hcount (.refl d) rfl rfl (.of_keeps hvault le_rfl)

/-- What keeps an intent's deposit and lock keeps its invariant; the counter may only grow. -/
theorem IntentInv.frame {i : Intent} (h : IntentInv rt s k i)
    (hnonce : s.orchestrator.next_intent_id ≤ s'.orchestrator.next_intent_id)
    (hdeposits : ∀ d, s.deposits.lookup i.deposit = some d →
      ∃ d', s'.deposits.lookup i.deposit = some d')
    (hlocks : ∀ l, s.intent_locks.lookup (intent_lock_address i.deposit i.intent_hash) = some l →
      Paired i l →
      ∃ l', s'.intent_locks.lookup (intent_lock_address i.deposit i.intent_hash) = some l'
        ∧ Paired i l') : IntentInv rt s' k i := by
  obtain ⟨d, hd⟩ := h.deposit
  obtain ⟨l, hl, hpair⟩ := h.lock
  exact ⟨h.key, h.nonce.trans_le hnonce, h.hash, h.orchestrator, h.amount, hdeposits d hd,
    hlocks l hl hpair⟩

end Frame

section Step

variable {rt : Runtime} {ix : TopLevel} {s s' : State}

/-- What a deposit has under locks is read off the locks alone. -/
theorem locked_amount_congr (h : s'.intent_locks = s.intent_locks) (k : Pubkey) :
    s'.locked_amount k = s.locked_amount k := by
  unfold EscrowRecords.locked_amount
  rw [h]

theorem lock_count_congr (h : s'.intent_locks = s.intent_locks) (k : Pubkey) :
    s'.lock_count k = s.lock_count k := by
  unfold EscrowRecords.lock_count
  rw [h]

/-- Intents and locks after a move that writes neither. -/
theorem CustodyInv.same_pairs (hs : CustodyInv rt s) (hlocks : s'.intent_locks = s.intent_locks)
    (hintents : SameIntents s s')
    (hdeposits : ∀ k i, s.intents.lookup k = some i → ∀ d, s.deposits.lookup i.deposit = some d →
      ∃ d', s'.deposits.lookup i.deposit = some d') :
    (∀ k i, s'.intents.lookup k = some i → IntentInv rt s' k i)
      ∧ (∀ k l, s'.intent_locks.lookup k = some l → LockInv s' k l)
      ∧ s'.orchestrator.next_intent_id < 2 ^ 64 := by
  refine ⟨fun k i hi => ?_, fun k l hl => ?_, hintents.nonce ▸ hs.nonce⟩
  · rw [hintents.intents] at hi
    refine (hs.intents k i hi).frame hintents.nonce.ge (hdeposits k i hi) fun l hl hpair => ?_
    exact ⟨l, hlocks ▸ hl, hpair⟩
  · rw [hlocks] at hl
    obtain ⟨hkey, ki, i, hi, hpair⟩ := hs.locks k l hl
    exact ⟨hkey, ki, i, hintents.intents ▸ hi, hpair⟩

theorem live_insert {m : Accounts Deposit} {k k' : Pubkey} {d d' : Deposit}
    (h : m.lookup k' = some d) : ∃ d'', (m.insert k d').lookup k' = some d'' := by
  rw [Finmap.lookup_insert_ite]
  split_ifs
  · exact ⟨d', rfl⟩
  · exact ⟨d, h⟩

/-- A deposit that is not live has no lock. -/
theorem CustodyInv.dead_deposit (hs : CustodyInv rt s) {k : Pubkey}
    (h : s.deposits.lookup k = none) : ∀ kl l, s.intent_locks.lookup kl = some l → l.deposit ≠ k := by
  rintro kl l hl rfl
  obtain ⟨d, hd⟩ := hs.lock_deposit hl
  rw [h] at hd
  exact absurd hd (by simp)

/-- A deposit whose counter is zero has no lock. -/
theorem CustodyInv.no_lock (hs : CustodyInv rt s) {k : Pubkey} {d : Deposit}
    (hd : s.deposits.lookup k = some d) (hactive : d.active_intents = 0) :
    ∀ kl l, s.intent_locks.lookup kl = some l → l.deposit ≠ k := by
  rintro kl l hl rfl
  have hcount := (hs.deposits _ d hd).active
  -- one live lock would already make the counter positive
  have hone : 1 ≤ s.lock_count l.deposit :=
    Finmap.le_owed EscrowIntentLock.deposit (fun _ => 1) hl
  omega

/-- An instruction that writes no deposit, lock or intent and takes nothing from a vault. -/
theorem CustodyInv.quiet (hs : CustodyInv rt s) (hdeposits : s'.deposits = s.deposits)
    (hlocks : s'.intent_locks = s.intent_locks) (hintents : SameIntents s s')
    (hvaults : ∀ k, Keeps s.tokens s'.tokens (deposit_vault_address k)) : CustodyInv rt s' := by
  obtain ⟨hi, hl, hn⟩ := hs.same_pairs hlocks hintents fun k i _ d hd => ⟨d, hdeposits ▸ hd⟩
  refine ⟨fun k d hd => ?_, hi, hl, hn⟩
  rw [hdeposits] at hd
  exact (hs.deposits k d hd).frame (locked_amount_congr hlocks k) (lock_count_congr hlocks k)
    (hvaults k)

/-- A new deposit, with its vault funded and without locks. -/
theorem CustodyInv.opened (hs : CustodyInv rt s) {k : Pubkey} {d : Deposit} {a : TokenAccount}
    (hfresh : s.deposits.lookup k = none) (hdeposits : s'.deposits = s.deposits.insert k d)
    (hlocks : s'.intent_locks = s.intent_locks) (hintents : SameIntents s s')
    (houtstanding : d.outstanding_intent_amount = 0) (hactive : d.active_intents = 0)
    (hfloor : 0 < d.intent_amount_range.min)
    (hvault : s'.tokens.lookup (deposit_vault_address k) = some a) (howner : a.owner = k)
    (hmint : a.mint = d.token_mint) (hfunded : d.remaining_deposits ≤ a.amount)
    (hvaults : OtherVaultsKeep s.tokens s'.tokens k) : CustodyInv rt s' := by
  obtain ⟨hi, hl, hn⟩ := hs.same_pairs hlocks hintents fun _ _ _ _ hd =>
    hdeposits ▸ live_insert hd
  refine ⟨fun k' d' hd' => ?_, hi, hl, hn⟩
  rw [hdeposits, Finmap.lookup_insert_ite] at hd'
  split_ifs at hd' with hk
  · cases hd'
    subst hk
    -- no lock can name a deposit that did not exist
    have hnone := hs.dead_deposit hfresh
    have hamount : s.locked_amount k' = 0 := Finmap.owed_eq_zero _ _ hnone
    have hcount : s.lock_count k' = 0 := Finmap.owed_eq_zero _ _ hnone
    refine ⟨⟨a, hvault, howner, hmint, ?_⟩, ?_, ?_, hfloor⟩
    · unfold Deposit.liability
      omega
    · rw [houtstanding, locked_amount_congr hlocks, hamount]
    · rw [hactive, lock_count_congr hlocks, hcount]
  · exact (hs.deposits k' d' hd').frame (locked_amount_congr hlocks k') (lock_count_congr hlocks k')
      (hvaults k' hk)

/-- A deposit whose liquidity and vault move together, with its locks as they were. -/
theorem CustodyInv.touched (hs : CustodyInv rt s) {k : Pubkey} {d d' : Deposit}
    (hd : s.deposits.lookup k = some d) (hdeposits : s'.deposits = s.deposits.insert k d')
    (hlocks : s'.intent_locks = s.intent_locks) (hintents : SameIntents s s')
    (hterms : SameTerms d d')
    (houtstanding : d'.outstanding_intent_amount = d.outstanding_intent_amount)
    (hactive : d'.active_intents = d.active_intents)
    (hexcess : KeepsExcess s.tokens s'.tokens k d d')
    (hvaults : OtherVaultsKeep s.tokens s'.tokens k) : CustodyInv rt s' := by
  obtain ⟨hi, hl, hn⟩ := hs.same_pairs hlocks hintents fun _ _ _ _ hd =>
    hdeposits ▸ live_insert hd
  refine ⟨fun k' d'' hd'' => ?_, hi, hl, hn⟩
  rw [hdeposits, Finmap.lookup_insert_ite] at hd''
  split_ifs at hd'' with hk
  · cases hd''
    subst hk
    exact (hs.deposits k' d hd).carry (locked_amount_congr hlocks k') (lock_count_congr hlocks k')
      hterms houtstanding hactive hexcess
  · exact (hs.deposits k' d'' hd'').frame (locked_amount_congr hlocks k')
      (lock_count_congr hlocks k') (hvaults k' hk)

/-- A deposit without live intents is closed; nothing of another's is touched. -/
theorem CustodyInv.closed (hs : CustodyInv rt s) {k : Pubkey} {d : Deposit}
    (hd : s.deposits.lookup k = some d) (hdeposits : s'.deposits = s.deposits.erase k)
    (hlocks : s'.intent_locks = s.intent_locks) (hintents : SameIntents s s')
    (hactive : d.active_intents = 0) (hvaults : OtherVaultsKeep s.tokens s'.tokens k) :
    CustodyInv rt s' := by
  have hnone := hs.no_lock hd hactive
  -- so no live intent names it either
  have hlive : ∀ ki i, s.intents.lookup ki = some i → ∀ d', s.deposits.lookup i.deposit = some d' →
      ∃ d'', s'.deposits.lookup i.deposit = some d'' := by
    intro ki i hi d' hd'
    obtain ⟨l, hl, hpair⟩ := (hs.intents ki i hi).lock
    have hne : i.deposit ≠ k := hpair.deposit ▸ hnone _ l hl
    exact ⟨d', by rw [hdeposits, Finmap.lookup_erase_ne hne, hd']⟩
  obtain ⟨hi, hl, hn⟩ := hs.same_pairs hlocks hintents hlive
  refine ⟨fun k' d' hd' => ?_, hi, hl, hn⟩
  rw [hdeposits, Finmap.lookup_erase_ite] at hd'
  split_ifs at hd' with hk
  exact (hs.deposits k' d' hd').frame (locked_amount_congr hlocks k') (lock_count_congr hlocks k')
    (hvaults k' hk)

/-- The sums over the locks after a new one. -/
theorem locks_inserted {kl : Pubkey} {l : EscrowIntentLock} (hfresh : s.intent_locks.lookup kl = none)
    (hlocks : s'.intent_locks = s.intent_locks.insert kl l) (k : Pubkey) :
    s'.locked_amount k = s.locked_amount k + (if l.deposit = k then l.amount else 0)
      ∧ s'.lock_count k = s.lock_count k + (if l.deposit = k then 1 else 0) := by
  unfold EscrowRecords.locked_amount EscrowRecords.lock_count
  rw [hlocks]
  exact ⟨Finmap.owed_insert _ _ hfresh k, Finmap.owed_insert _ _ hfresh k⟩

/-- The sums over the locks after one is removed. -/
theorem locks_erased {kl : Pubkey} {l : EscrowIntentLock} (hl : s.intent_locks.lookup kl = some l)
    (hlocks : s'.intent_locks = s.intent_locks.erase kl) (k : Pubkey) :
    s'.locked_amount k + (if l.deposit = k then l.amount else 0) = s.locked_amount k
      ∧ s'.lock_count k + (if l.deposit = k then 1 else 0) = s.lock_count k := by
  unfold EscrowRecords.locked_amount EscrowRecords.lock_count
  rw [hlocks]
  exact ⟨Finmap.owed_erase _ _ hl k, Finmap.owed_erase _ (fun _ => 1) hl k⟩

/-- A signal: the amount goes from the free liquidity under the new lock, and intent and lock are
created together. -/
theorem CustodyInv.locked (hs : CustodyInv rt s) {d d' : Deposit} {l : EscrowIntentLock} {i : Intent}
    (hd : s.deposits.lookup i.deposit = some d)
    (hdeposits : s'.deposits = s.deposits.insert i.deposit d')
    (hfresh : s.intent_locks.lookup (intent_lock_address i.deposit i.intent_hash) = none)
    (hlocks : s'.intent_locks
      = s.intent_locks.insert (intent_lock_address i.deposit i.intent_hash) l)
    (hintents : s'.intents = s.intents.insert (intent_address orchestrator_address i.nonce) i)
    (hnonce : i.nonce = s.orchestrator.next_intent_id)
    (hnext : s'.orchestrator.next_intent_id = s.orchestrator.next_intent_id + 1)
    (hword : s.orchestrator.next_intent_id + 1 < 2 ^ 64)
    (hhash : i.intent_hash = derive_intent_hash rt orchestrator_address i.nonce)
    (horchestrator : i.orchestrator = orchestrator_address) (hpair : Paired i l)
    (hamount : d.intent_amount_range.min ≤ i.amount) (hterms : SameTerms d d')
    (hremaining : d'.remaining_deposits + i.amount = d.remaining_deposits)
    (houtstanding : d'.outstanding_intent_amount = d.outstanding_intent_amount + i.amount)
    (hactive : d'.active_intents = d.active_intents + 1) (htokens : s'.tokens = s.tokens) :
    CustodyInv rt s' := by
  have hkeeps : ∀ k, Keeps s.tokens s'.tokens k := fun k => htokens ▸ .refl _ _
  refine ⟨fun k d'' hd'' => ?_, fun k i' hi' => ?_, fun k l' hl' => ?_, hnext ▸ hword⟩
  -- the deposits: the one locked on takes the whole change, the others are framed
  · obtain ⟨hsum, hcount⟩ := locks_inserted hfresh hlocks k
    rw [hpair.deposit] at hsum hcount
    rw [hdeposits, Finmap.lookup_insert_ite] at hd''
    split_ifs at hd'' with hk
    · cases hd''
      subst hk
      rw [if_pos rfl] at hsum hcount
      have h := hs.deposits _ d hd
      have ho := h.outstanding
      have ha := h.active
      obtain ⟨a, hvault⟩ := h.vault
      have hcovers := hvault.covers
      refine ⟨⟨a, htokens ▸ hvault.found, hvault.owner, hterms.token_mint ▸ hvault.mint, ?_⟩, ?_, ?_,
        hterms.floor h.floor⟩
      · unfold Deposit.liability at hcovers ⊢
        omega
      -- the counters rise by what the new lock adds to the sums
      · rw [hpair.amount] at hsum
        omega
      · omega
    · rw [if_neg (Ne.symm hk)] at hsum hcount
      exact (hs.deposits k d'' hd'').frame hsum hcount (hkeeps _)
  -- the intents: the new one brings its lock, and no older one loses its own
  · rw [hintents, Finmap.lookup_insert_ite] at hi'
    split_ifs at hi' with hk
    · cases hi'
      have hfloor := (hs.deposits _ d hd).floor
      refine ⟨hk, ?_, hhash, horchestrator, by omega, ⟨d', ?_⟩, ⟨l, ?_, hpair⟩⟩
      · rw [hnext, hnonce]
        exact Nat.lt_succ_self _
      · rw [hdeposits, Finmap.lookup_insert]
      · rw [hlocks, Finmap.lookup_insert]
    · refine (hs.intents k i' hi').frame (by omega) (fun _ hd => hdeposits ▸ live_insert hd) ?_
      intro l' hl' hpair'
      refine ⟨l', ?_, hpair'⟩
      rw [hlocks, Finmap.lookup_insert_of_ne _ ?_, hl']
      intro heq
      rw [heq, hfresh] at hl'
      exact absurd hl' (by simp)
  -- the locks: the new one has the new intent, and the others keep theirs
  · rw [hlocks, Finmap.lookup_insert_ite] at hl'
    split_ifs at hl' with hk
    · cases hl'
      refine ⟨?_, intent_address orchestrator_address i.nonce, i, ?_, hpair⟩
      · rw [hpair.deposit, hpair.intent_hash]
        exact hk
      · rw [hintents, Finmap.lookup_insert]
    · obtain ⟨hkey, ki, i', hi', hpair'⟩ := hs.locks k l' hl'
      refine ⟨hkey, ki, i', ?_, hpair'⟩
      rw [hintents, Finmap.lookup_insert_of_ne _ ?_, hi']
      -- the nonce of the new intent is above every live one
      have h := hs.intents ki i' hi'
      have hlt := h.nonce
      rw [h.key]
      intro heq
      injection heq with _ _ heq
      omega

/-- A terminal: the lock, its amount in the deposit, and the intent go together. That no other
intent shares the lock is what `hown` is for. -/
theorem CustodyInv.unlocked (hs : CustodyInv rt s) (hown : OwnLocks s) {k : Pubkey}
    {d d' : Deposit} {l : EscrowIntentLock} {i : Intent} (hi : s.intents.lookup k = some i)
    (hd : s.deposits.lookup i.deposit = some d)
    (hl : s.intent_locks.lookup (intent_lock_address i.deposit i.intent_hash) = some l)
    (hdeposits : s'.deposits = s.deposits.insert i.deposit d')
    (hlocks : s'.intent_locks
      = s.intent_locks.erase (intent_lock_address i.deposit i.intent_hash))
    (hintents : s'.intents = s.intents.erase k)
    (hnonce : s'.orchestrator.next_intent_id = s.orchestrator.next_intent_id)
    (hterms : SameTerms d d')
    (houtstanding : d'.outstanding_intent_amount + l.amount = d.outstanding_intent_amount)
    (hactive : d'.active_intents + 1 = d.active_intents)
    (hexcess : KeepsExcess s.tokens s'.tokens i.deposit d d')
    (hvaults : OtherVaultsKeep s.tokens s'.tokens i.deposit) : CustodyInv rt s' := by
  have hpair : Paired i l := by
    obtain ⟨l', hl', hpair⟩ := (hs.intents k i hi).lock
    rw [hl] at hl'
    cases hl'
    exact hpair
  refine ⟨fun k' d'' hd'' => ?_, fun k' i' hi' => ?_, fun kl l' hl' => ?_, hnonce ▸ hs.nonce⟩
  · obtain ⟨hsum, hcount⟩ := locks_erased hl hlocks k'
    rw [hpair.deposit] at hsum hcount
    rw [hdeposits, Finmap.lookup_insert_ite] at hd''
    split_ifs at hd'' with hk
    · cases hd''
      subst hk
      rw [if_pos rfl] at hsum hcount
      have h := hs.deposits _ d hd
      have ho := h.outstanding
      have ha := h.active
      obtain ⟨a, hvault⟩ := h.vault
      have hcovers := hvault.covers
      -- the vault may have paid, but no more than the deposit came to owe less
      obtain ⟨a', ha', howner, hmint, hle⟩ := hexcess a hvault.found
      refine ⟨⟨a', ha', howner.trans hvault.owner, ?_, by omega⟩, by omega, by omega,
        hterms.floor h.floor⟩
      rw [hmint, hvault.mint, hterms.token_mint]
    · rw [if_neg (Ne.symm hk)] at hsum hcount
      exact (hs.deposits k' d'' hd'').frame hsum hcount (hvaults k' hk)
  · rw [hintents, Finmap.lookup_erase_ite] at hi'
    split_ifs at hi' with hk
    refine (hs.intents k' i' hi').frame hnonce.ge (fun _ hd => hdeposits ▸ live_insert hd) ?_
    intro l' hl' hpair'
    refine ⟨l', ?_, hpair'⟩
    rw [hlocks, Finmap.lookup_erase_ne ?_, hl']
    -- a shared lock would mean a shared deposit and a shared hash
    intro heq
    injection heq with _ hdeposit hhash
    exact hk (hown k' k i' i hi' hi hdeposit hhash)
  · rw [hlocks, Finmap.lookup_erase_ite] at hl'
    split_ifs at hl' with hk
    obtain ⟨hkey, ki, i', hi', hpair'⟩ := hs.locks kl l' hl'
    refine ⟨hkey, ki, i', ?_, hpair'⟩
    rw [hintents, Finmap.lookup_erase_ne ?_, hi']
    rintro rfl
    rw [hi] at hi'
    cases hi'
    exact hk (by rw [hkey, hpair'.deposit, hpair'.intent_hash])

theorem CustodyInv.extended (hs : CustodyInv rt s) {k : Pubkey} {l : EscrowIntentLock} {expiry : ℤ}
    (hl : s.intent_locks.lookup k = some l) (hdeposits : s'.deposits = s.deposits)
    (hlocks : s'.intent_locks = s.intent_locks.insert k { l with expiry_time := expiry })
    (hintents : SameIntents s s') (htokens : s'.tokens = s.tokens) : CustodyInv rt s' := by
  -- the lock is overwritten by one of the same deposit and amount, so neither sum moves
  have hsum : ∀ k', s'.locked_amount k' = s.locked_amount k' := by
    intro k'
    have h := Finmap.owed_update EscrowIntentLock.deposit EscrowIntentLock.amount
      (v := { l with expiry_time := expiry }) hl k'
    unfold EscrowRecords.locked_amount
    rw [hlocks]
    exact Nat.add_right_cancel h
  have hcount : ∀ k', s'.lock_count k' = s.lock_count k' := by
    intro k'
    have h := Finmap.owed_update EscrowIntentLock.deposit (fun _ => 1)
      (v := { l with expiry_time := expiry }) hl k'
    unfold EscrowRecords.lock_count
    rw [hlocks]
    exact Nat.add_right_cancel h
  refine ⟨fun k' d hd => ?_, fun ki i hi => ?_, fun kl l' hl' => ?_, hintents.nonce ▸ hs.nonce⟩
  · rw [hdeposits] at hd
    exact (hs.deposits k' d hd).frame (hsum k') (hcount k') (htokens ▸ .refl _ _)
  · rw [hintents.intents] at hi
    refine (hs.intents ki i hi).frame hintents.nonce.ge (fun d hd => ⟨d, hdeposits ▸ hd⟩) ?_
    intro l' hl' hpair
    rw [hlocks, Finmap.lookup_insert_ite]
    split_ifs with hk
    · rw [hk, hl] at hl'
      cases hl'
      -- pairing reads everything of the lock but its expiry
      obtain ⟨h₁, h₂, h₃, h₄, h₅⟩ := hpair
      exact ⟨_, rfl, h₁, h₂, h₃, h₄, h₅⟩
    · exact ⟨l', hl', hpair⟩
  · rw [hlocks, Finmap.lookup_insert_ite] at hl'
    split_ifs at hl' with hk
    · cases hl'
      obtain ⟨hkey, ki, i, hi, h₁, h₂, h₃, h₄, h₅⟩ := hs.locks k l hl
      exact ⟨hk.trans hkey, ki, i, hintents.intents ▸ hi, h₁, h₂, h₃, h₄, h₅⟩
    · obtain ⟨hkey, ki, i, hi, hpair⟩ := hs.locks kl l' hl'
      exact ⟨hkey, ki, i, hintents.intents ▸ hi, hpair⟩

/-- Every move of the abstract escrow keeps the invariant. -/
theorem CustodyMove.inv (h : CustodyMove rt ix s s') (hown : OwnLocks s)
    (hs : CustodyInv rt s) : CustodyInv rt s' := by
  cases h with
  | quiet deposits locks intents vaults => exact hs.quiet deposits locks intents vaults
  | opened k d a fresh deposits locks intents outstanding active floor vault owner mint funded
      vaults =>
    exact hs.opened fresh deposits locks intents outstanding active floor vault owner mint funded
      vaults
  | touched k d d' deposit deposits locks intents terms outstanding active excess vaults =>
    exact hs.touched deposit deposits locks intents terms outstanding active excess vaults
  | closed accounts d _ deposit deposits locks intents active vaults =>
    exact hs.closed deposit deposits locks intents active vaults
  | locked d d' l i deposit deposits fresh locks intents nonce_eq nonce word hash orchestrator paired
      amount terms remaining outstanding active tokens =>
    exact hs.locked deposit deposits fresh locks intents nonce_eq nonce word hash orchestrator paired
      amount terms remaining outstanding active tokens
  | unlocked k d d' l i intent deposit lock deposits locks intents nonce terms outstanding active excess
      vaults =>
    exact hs.unlocked hown intent deposit lock deposits locks intents nonce terms outstanding active
      excess vaults
  | extended k l expiry lock deposits locks intents tokens =>
    exact hs.extended lock deposits locks intents tokens

/-- A signal needs a fresh lock, so its intent shares none: this holds whatever the hashes are. -/
theorem CustodyMove.ownLocks (h : CustodyMove rt ix s s') (hs : CustodyInv rt s)
    (hown : OwnLocks s) : OwnLocks s' := by
  intro k₁ k₂ i₁ i₂ hi₁ hi₂ hdeposit hhash
  cases h with
  | quiet _ _ intents _ | opened _ _ _ _ _ _ intents | touched _ _ _ _ _ _ intents
  | closed _ _ _ _ _ _ intents | extended _ _ _ _ _ _ intents _ =>
    rw [intents.intents] at hi₁ hi₂
    exact hown k₁ k₂ i₁ i₂ hi₁ hi₂ hdeposit hhash
  | locked d d' l i _ _ fresh _ intents =>
    -- a live intent with the deposit and hash of the new one would hold its lock already
    have hfree : ∀ k' i', s.intents.lookup k' = some i' → i'.deposit = i.deposit →
        i'.intent_hash = i.intent_hash → False := by
      intro k' i' hi' hd' hh'
      obtain ⟨l', hl', -⟩ := (hs.intents k' i' hi').lock
      rw [hd', hh', fresh] at hl'
      cases hl'
    rw [intents, Finmap.lookup_insert_ite] at hi₁ hi₂
    split_ifs at hi₁ hi₂ with hk₁ hk₂ hk₂
    · rw [hk₁, hk₂]
    · cases hi₁
      exact (hfree k₂ i₂ hi₂ hdeposit.symm hhash.symm).elim
    · cases hi₂
      exact (hfree k₁ i₁ hi₁ hdeposit hhash).elim
    · exact hown k₁ k₂ i₁ i₂ hi₁ hi₂ hdeposit hhash
  | unlocked k _ _ _ _ _ _ _ _ _ intents =>
    rw [intents, Finmap.lookup_erase_ite] at hi₁ hi₂
    split_ifs at hi₁ hi₂
    exact hown k₁ k₂ i₁ i₂ hi₁ hi₂ hdeposit hhash

end Step

theorem genesis_custody {rt : Runtime} {s : State} (h : genesis rt s) : CustodyInv rt s := by
  obtain ⟨_, _, _, _, _, _, tokens, rfl, -⟩ := genesis_ok h
  refine ⟨?_, ?_, ?_, Nat.two_pow_pos 64⟩
  all_goals
    intro k v hv
    exact absurd hv (by simp [initial_state])

/-- The custody invariant holds around every event of every run. -/
theorem Run.custody {rt : Runtime} (hinj : NonceInjective rt) {es : List Event} {s : State}
    (h : Run rt es s) :
    (LedgerOk s ∧ CustodyInv rt s)
      ∧ ∀ e ∈ es, (LedgerOk e.pre ∧ CustodyInv rt e.pre) ∧ LedgerOk e.post ∧ CustodyInv rt e.post :=
  TxMachine.Run.invariant (G := fun _ => True) (I := fun s => LedgerOk s ∧ CustodyInv rt s)
    (fun _ h0 => ⟨genesis_ledgerOk h0, genesis_custody h0⟩)
    (fun _ _ hv hs => ⟨LedgerOk.step hs.1 hv,
      (custody_move hs.1.tokens hs.1.coverage hv).inv (hs.2.ownLocks hinj) hs.2⟩)
    h fun _ _ => trivial

/-- The same without any assumption on the hashes. -/
theorem Run.own_locks {rt : Runtime} {es : List Event} {s : State} (h : Run rt es s) :
    (LedgerOk s ∧ CustodyInv rt s ∧ OwnLocks s)
      ∧ ∀ e ∈ es, (LedgerOk e.pre ∧ CustodyInv rt e.pre ∧ OwnLocks e.pre)
        ∧ LedgerOk e.post ∧ CustodyInv rt e.post ∧ OwnLocks e.post := by
  refine TxMachine.Run.invariant (G := fun _ => True)
    (I := fun s => LedgerOk s ∧ CustodyInv rt s ∧ OwnLocks s) (fun s₀ h₀ => ?_) (fun e _ hv hs => ?_)
    h fun _ _ => trivial
  · refine ⟨genesis_ledgerOk h₀, genesis_custody h₀, fun k k' i i' hi => ?_⟩
    obtain ⟨_, _, _, _, _, _, _, rfl, -⟩ := genesis_ok h₀
    exact absurd hi (by simp [initial_state])
  · obtain ⟨hledger, hcustody, hown⟩ := hs
    have hmove := custody_move hledger.tokens hledger.coverage hv
    exact ⟨hledger.step hv, hmove.inv hown hcustody, hmove.ownLocks hcustody hown⟩

/-! ## What custody promises -/

/-- Solvency, counters and pairing of the escrow. -/
structure EscrowSound (s : State) : Prop where
  covered : ∀ k d, s.deposits.lookup k = some d →
    d.remaining_deposits + d.outstanding_intent_amount
      ≤ balance s.tokens (deposit_vault_address k)
  outstanding : ∀ k d, s.deposits.lookup k = some d →
    d.outstanding_intent_amount = s.locked_amount k
  active : ∀ k d, s.deposits.lookup k = some d → d.active_intents = s.lock_count k
  intent_lock : ∀ k i, s.intents.lookup k = some i →
    0 < i.amount ∧ (∃ d, s.deposits.lookup i.deposit = some d)
      ∧ ∃ kl l, s.intent_locks.lookup kl = some l ∧ Paired i l
  lock_intent : ∀ kl l, s.intent_locks.lookup kl = some l →
    ∃ k i, s.intents.lookup k = some i ∧ Paired i l
  intent_unique : ∀ k k' i i', s.intents.lookup k = some i → s.intents.lookup k' = some i' →
    i.intent_hash = i'.intent_hash → k = k'
  lock_unique : ∀ k k' l l', s.intent_locks.lookup k = some l →
    s.intent_locks.lookup k' = some l' → l.intent_hash = l'.intent_hash → k = k'

/-- What the invariant says in terms of the claim on escrow custody. -/
theorem CustodyInv.sound {rt : Runtime} {s : State} (hs : CustodyInv rt s)
    (hinj : NonceInjective rt) : EscrowSound s where
  covered k d hd := by
    obtain ⟨a, ha⟩ := (hs.deposits k d hd).vault
    unfold balance
    rw [ha.found]
    exact ha.covers
  outstanding k d hd := (hs.deposits k d hd).outstanding
  active k d hd := (hs.deposits k d hd).active
  intent_lock k i hi := by
    have h := hs.intents k i hi
    obtain ⟨l, hl, hpair⟩ := h.lock
    exact ⟨h.amount, h.deposit, _, l, hl, hpair⟩
  lock_intent kl l hl := (hs.locks kl l hl).intent
  intent_unique _ _ _ _ hi hi' hhash := hs.intent_unique hinj hi hi' hhash
  lock_unique _ _ _ _ hl hl' hhash := hs.lock_unique hinj hl hl' hhash

/-- What the vault of a deposit holds beyond the deposit's liabilities. -/
def excess (s : State) (k : Pubkey) (d : Deposit) : ℕ :=
  balance s.tokens (deposit_vault_address k)
    - (d.remaining_deposits + d.outstanding_intent_amount)

/-- The excess of a live deposit does not shrink, unless the event is the `withdraw_deposit` that
closes the deposit. -/
def ExcessKept (e : Event) (k : Pubkey) (d : Deposit) : Prop :=
  (∃ d', e.post.deposits.lookup k = some d' ∧ excess e.pre k d ≤ excess e.post k d')
    ∨ ((∃ accounts : WithdrawDeposit, e.ix = .program (.custody (.withdraw_deposit accounts))
        ∧ accounts.deposit = k) ∧ e.post.deposits.lookup k = none)

/-- Keeping the excess is a statement about the two balances. -/
theorem KeepsExcess.excess_le {s s' : State} {k : Pubkey} {d d' : Deposit} {a : TokenAccount}
    (h : KeepsExcess s.tokens s'.tokens k d d') (ha : VaultOf s.tokens k d a) :
    excess s k d ≤ excess s' k d' := by
  obtain ⟨a', ha', -, -, hle⟩ := h a ha.found
  have hcovers := ha.covers
  unfold excess balance
  rw [ha.found, ha']
  unfold Deposit.liability at hle hcovers
  simp only [Option.elim_some]
  omega

/-- Each move keeps the excess of every deposit that it does not close. -/
theorem CustodyMove.excess {rt : Runtime} {e : Event} (h : CustodyMove rt e.ix e.pre e.post)
    (hs : CustodyInv rt e.pre) {k : Pubkey} {d : Deposit}
    (hd : e.pre.deposits.lookup k = some d) : ExcessKept e k d := by
  obtain ⟨a, ha⟩ := (hs.deposits k d hd).vault
  -- most cases change neither the liability nor take from the vault
  have hsame : ∀ d', d'.liability = d.liability →
      Keeps e.pre.tokens e.post.tokens (deposit_vault_address k) →
      Zkp2pSolana.excess e.pre k d ≤ Zkp2pSolana.excess e.post k d' := fun d' hle hkeeps =>
    (KeepsExcess.of_keeps hkeeps hle.le).excess_le ha
  cases h with
  | quiet deposits _ _ vaults => exact .inl ⟨d, deposits ▸ hd, hsame d rfl (vaults k)⟩
  | opened k₀ d₀ a₀ fresh deposits _ _ _ _ _ _ _ _ _ vaults =>
    -- the deposit that opens was not live, so it is not the one looked at
    have hne : k ≠ k₀ := by
      rintro rfl
      rw [fresh] at hd
      exact absurd hd (by simp)
    refine .inl ⟨d, ?_, hsame d rfl (vaults k hne)⟩
    rw [deposits, Finmap.lookup_insert_of_ne _ hne, hd]
  | touched k₀ d₀ d' deposit deposits _ _ _ _ _ hexcess vaults =>
    by_cases hk : k = k₀
    · subst hk
      rw [deposit] at hd
      cases hd
      exact .inl ⟨d', by rw [deposits, Finmap.lookup_insert], hexcess.excess_le ha⟩
    · refine .inl ⟨d, ?_, hsame d rfl (vaults k hk)⟩
      rw [deposits, Finmap.lookup_insert_of_ne _ hk, hd]
  | closed accounts d₀ ix_eq deposit deposits _ _ _ vaults =>
    by_cases hk : k = accounts.deposit
    · exact .inr ⟨⟨accounts, ix_eq, hk.symm⟩, by rw [deposits, hk, Finmap.lookup_erase]⟩
    · refine .inl ⟨d, ?_, hsame d rfl (vaults k hk)⟩
      rw [deposits, Finmap.lookup_erase_ne hk, hd]
  | locked d₀ d' l i deposit deposits _ _ _ _ _ _ _ _ _ _ _ remaining outstanding _ tokens =>
    by_cases hk : k = i.deposit
    · subst hk
      rw [deposit] at hd
      cases hd
      refine .inl ⟨d', by rw [deposits, Finmap.lookup_insert], hsame d' ?_ (tokens ▸ .refl _ _)⟩
      unfold Deposit.liability
      omega
    · refine .inl ⟨d, ?_, hsame d rfl (tokens ▸ .refl _ _)⟩
      rw [deposits, Finmap.lookup_insert_of_ne _ hk, hd]
  | unlocked k₀ d₀ d' l i _ deposit _ deposits _ _ _ _ _ _ hexcess vaults =>
    by_cases hk : k = i.deposit
    · subst hk
      rw [deposit] at hd
      cases hd
      exact .inl ⟨d', by rw [deposits, Finmap.lookup_insert], hexcess.excess_le ha⟩
    · refine .inl ⟨d, ?_, hsame d rfl (vaults k hk)⟩
      rw [deposits, Finmap.lookup_insert_of_ne _ hk, hd]
  | extended k₀ l expiry _ deposits _ _ tokens =>
    exact .inl ⟨d, deposits ▸ hd, hsame d rfl (tokens ▸ .refl _ _)⟩

/-- Every deposit is covered by its vault, counted by its locks and paired with its intents in
every state of every run, and its vault's excess never shrinks before the deposit is closed. -/
theorem escrow_sound {rt : Runtime} (hinj : NonceInjective rt) {es : List Event} {s : State}
    (h : Run rt es s) :
    EscrowSound s ∧ ∀ e ∈ es, EscrowSound e.pre ∧ EscrowSound e.post
      ∧ ∀ k d, e.pre.deposits.lookup k = some d → ExcessKept e k d := by
  obtain ⟨hs, hes⟩ := Run.custody hinj h
  refine ⟨hs.2.sound hinj, fun e he => ?_⟩
  obtain ⟨hpre, hpost⟩ := hes e he
  refine ⟨hpre.2.sound hinj, hpost.2.sound hinj, fun k d hd => ?_⟩
  have hmove := custody_move hpre.1.tokens hpre.1.coverage (TxMachine.Run.valid h e he)
  exact hmove.excess hpre.2 hd

/-- The escrow with a live covered intent. -/
theorem escrow_sound_covered :
    ∃ es s, NonceInjective sample_runtime ∧ Run sample_runtime es s
      ∧ (s.intents.lookup sample_intent).isSome = true
      ∧ EscrowSound s ∧ ∀ e ∈ es, EscrowSound e.pre ∧ EscrowSound e.post
        ∧ ∀ k d, e.pre.deposits.lookup k = some d → ExcessKept e k d := by
  obtain ⟨es, s, hrun, hlive⟩ := sample_reaches [sample_setup, sample_cover]
    (fun _ s => (s.intents.lookup sample_intent).isSome) (by decide +kernel)
  exact ⟨es, s, sample_nonce_injective, hrun, hlive, escrow_sound sample_nonce_injective hrun⟩

end Zkp2pSolana
