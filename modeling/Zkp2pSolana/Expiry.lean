/-
An uncovered intent can be pruned five days after it was signaled.

The expiry of a lock is set by the signal, from a period governance keeps within
five days, and moved by guardians, forward only and up to five days after the
signal. So it stays within that time of the signal however often either of them
acts, and once it has passed nothing is left that could refuse a prune: the
records a prune reads are in order for every live intent.
-/
import Zkp2pSolana.EscrowMoves
import Zkp2pSolana.Availability

set_option autoImplicit false

namespace Zkp2pSolana

open Result Zkp2pError

/-! ## A lock while it lives -/

/-- The same lock later: its signal time stays and its expiry has not gone back. -/
structure LockKept (l l' : EscrowIntentLock) : Prop where
  timestamp : l'.timestamp = l.timestamp
  later : l.expiry_time ≤ l'.expiry_time

theorem LockKept.refl (l : EscrowIntentLock) : LockKept l l := ⟨rfl, le_rfl⟩

theorem LockKept.trans {l l' l'' : EscrowIntentLock} (h : LockKept l l') (h' : LockKept l' l'') :
    LockKept l l'' :=
  ⟨h'.timestamp.trans h.timestamp, h.later.trans h'.later⟩

/-- Deposit custody does not touch a lock. -/
theorem CustodyWrite.locks {r r' : EscrowRecords} (h : CustodyWrite r r') :
    r'.intent_locks = r.intent_locks := by
  cases h with
  | opened _ _ _ _ _ _ _ _ _ _ _ _ _ records => rw [records]
  | deposit _ _ _ _ _ records => rw [records]
  | closed _ records => rw [records]

/-- Nor does deposit configuration, extensions apart. -/
theorem DepositConfigWrite.lock_kept {r r' : EscrowRecords} (h : DepositConfigWrite r r')
    {k : Pubkey} {l l' : EscrowIntentLock} (hl : r.intent_locks.lookup k = some l)
    (hl' : r'.intent_locks.lookup k = some l') : LockKept l l' := by
  have hsame : r'.intent_locks = r.intent_locks → LockKept l l' := by
    intro heq
    rw [heq, hl] at hl'
    cases hl'
    exact .refl l
  cases h with
  | deposit _ _ _ _ _ _ records => exact hsame (by rw [records])
  | payment_method _ _ records => exact hsame (by rw [records])
  | currency _ _ _ _ _ records => exact hsame (by rw [records])
  | lock k₀ l₀ expiry found later capped records =>
    rw [records, Finmap.lookup_insert_ite] at hl'
    split_ifs at hl' with hk
    · cases hl'
      rw [hk, found] at hl
      cases hl
      exact ⟨rfl, later.le⟩
    · rw [hl] at hl'
      cases hl'
      exact .refl l

/-- No instruction moves the expiry of a live lock back. -/
theorem EscrowMove.lock_kept {s s' : State} (h : EscrowMove s s') {k : Pubkey}
    {l l' : EscrowIntentLock} (hl : s.intent_locks.lookup k = some l)
    (hl' : s'.intent_locks.lookup k = some l') : LockKept l l' := by
  have hsame : s'.intent_locks = s.intent_locks → LockKept l l' := by
    intro heq
    rw [heq, hl] at hl'
    cases hl'
    exact .refl l
  cases h with
  | same records => exact hsame (congrArg EscrowRecords.intent_locks records)
  | configure_escrow accounts args ok =>
    simp only [handle_configure_escrow, bind_eq_ok, require_eq_ok, exists_const, pure_eq_ok] at ok
    obtain ⟨_, -, -, -, -, -, -, -, rfl⟩ := ok
    exact hsame rfl
  | deposit_config ix ok => exact (deposit_config_write ok).lock_kept hl hl'
  | custody ix ok => exact hsame (custody_write ok).locks
  | signaled d d' i expiry deposit terms fresh expiry_eq records =>
    -- the new lock is written where there was none
    have hlocks := congrArg EscrowRecords.intent_locks records
    rw [hlocks, Finmap.lookup_insert_ite] at hl'
    split_ifs at hl' with hk
    · rw [hk, fresh] at hl
      cases hl
    · rw [hl] at hl'
      cases hl'
      exact .refl l
  | closed d d' i deposit terms records =>
    have hlocks := congrArg EscrowRecords.intent_locks records
    rw [hlocks, Finmap.lookup_erase_ite] at hl'
    split_ifs at hl'
    rw [hl] at hl'
    cases hl'
    exact .refl l

/-- Every one of the events found a lock at `k`. -/
def LiveThrough (k : Pubkey) (es : List Event) : Prop :=
  ∀ e ∈ es, (e.pre.intent_locks.lookup k).isSome = true

/-- A lock that has been live since some event of a run is the one it was, with an expiry that has
not gone back. -/
theorem Run.lock_history {rt : Runtime} {es : List Event} {s : State} (h : Run rt es s)
    {past later : List Event} {e : Event} (hes : es = past ++ e :: later) {k : Pubkey}
    {l l' : EscrowIntentLock} (hl : e.pre.intent_locks.lookup k = some l)
    (hlive : LiveThrough k later) (hl' : s.intent_locks.lookup k = some l') : LockKept l l' := by
  have hall := TxMachine.Run.history (G := fun _ => True)
    (P := fun es s => ∀ past e later, es = past ++ e :: later → ∀ k l l',
      e.pre.intent_locks.lookup k = some l → LiveThrough k later →
      s.intent_locks.lookup k = some l' → LockKept l l') ?_ ?_ h fun _ _ => trivial
  · exact hall past e later hes k l l' hl hlive hl'
  · intro s₀ _ past e later hnil
    simp at hnil
  · intro es₀ e₀ _ hv ih past e later hsplit k l l' hl hlive hl'
    have hmove := escrow_move hv
    rcases TxMachine.split_concat hsplit with ⟨-, -, rfl⟩ | ⟨later', rfl, hearlier⟩
    · exact hmove.lock_kept hl hl'
    · -- the last event found the lock too: it was kept up to there, and then by that event
      obtain ⟨l₁, hl₁⟩ := Option.isSome_iff_exists.mp
        (hlive e₀ (List.mem_append_right _ List.mem_cons_self))
      have hlive' : LiveThrough k later' := fun e' he' => hlive e' (List.mem_append_left _ he')
      exact (ih past e later' hearlier k l l₁ hl hlive' hl₁).trans (hmove.lock_kept hl₁ hl')

/-! ## Pruning -/

/-- The accounts of a prune of an uncovered intent: none of the lifecycle accounts. -/
def uncovered_prune (caller k : Pubkey) : PruneExpiredIntent where
  caller := caller
  intent := k
  dispute :=
    { dispute_config := false
      dispute_intent := none
      stake_vault := false
      stake_position := none
      stake_lock := none }

/-- An uncovered intent is pruned without touching coverage. -/
theorem prune_dispute_uncovered {i : Intent} {s : State} (h : i.dispute_covered = false)
    (caller k : Pubkey) : prune_dispute (uncovered_prune caller k).dispute i s = .ok s := by
  simp only [prune_dispute, uncovered_prune, load_opt, ok_bind, h, Bool.false_eq_true, if_false,
    bind_eq_ok, require_eq_ok, exists_const, pure_eq_ok, and_true, Option.isNone_none]

/-- In every run every lock expires after its signal and within five days of it, its expiry does not
go back while it lives, and from five days after the signal on anyone can prune an intent without
coverage. -/
theorem uncovered_prunable_after_cap {rt : Runtime} {es : List Event} {s : State} (h : Run rt es s) :
    (∀ k l, s.intent_locks.lookup k = some l →
      l.timestamp < l.expiry_time ∧ l.expiry_time ≤ l.timestamp + 432000)
      ∧ (∀ past e later k l l', es = past ++ e :: later →
        e.pre.intent_locks.lookup k = some l → LiveThrough k later →
        s.intent_locks.lookup k = some l' →
        l'.timestamp = l.timestamp ∧ l.expiry_time ≤ l'.expiry_time)
      ∧ ∀ k i, s.intents.lookup k = some i → i.dispute_covered = false →
        ∃ l, s.intent_locks.lookup (intent_lock_address i.deposit i.intent_hash) = some l
          ∧ l.timestamp = i.timestamp
          ∧ ∀ ctx caller, l.timestamp + 432000 < ctx.now → caller.can_sign = true →
            ∃ s', handle_prune_expired_intent ctx (uncovered_prune caller k) s = .ok s' := by
  have hstored := (Run.escrow h).1
  refine ⟨fun k l hl => ?_, fun past e later k l l' hes hl hlive hl' => ?_,
    fun k i hi huncovered => ?_⟩
  · obtain ⟨hafter, hcapped⟩ := hstored.lock k l hl
    exact ⟨hafter, hcapped⟩
  · obtain ⟨htimestamp, hlater⟩ := Run.lock_history h hes hl hlive hl'
    exact ⟨htimestamp, hlater⟩
  · obtain ⟨live, rfl, hclosable⟩ := Run.closable h hi
    obtain ⟨-, -, -, hl, -⟩ := live_intent_ok hclosable.found
    obtain ⟨-, hcapped⟩ := hstored.lock _ _ hl
    obtain ⟨d, hd⟩ := hclosable.unlock
    refine ⟨live.lock, hl, hclosable.paired.timestamp, fun ctx caller hlate hcaller => ?_⟩
    -- the cap on the stored expiry is what turns a late clock into an expired lock
    have hexpired : live.lock.expiry_time < ctx.now := lt_of_le_of_lt hcapped hlate
    exact ⟨_, hclosable.prune rfl hcaller hexpired (prune_dispute_uncovered huncovered caller k) hd⟩

/-- With the lifecycle policy off, the taker signals an intent without coverage; the deposit has a
guardian. -/
def sample_uncovered : TxContext × List TopLevel :=
  (sample_ctx 2000,
    [.program (.governance (.configure_orchestrator ⟨sample_authority⟩
        { protocol_fee := none
          protocol_fee_recipient := none
          lifecycle_policy := some .None
          allow_multiple_intents := none
          paused := none })),
      .program (.deposit_config (.update_deposit ⟨sample_depositor, sample_deposit⟩
        { delegate := none
          intent_guardian := some (some sample_staker)
          intent_amount_range := none
          accepting_intents := none
          retain_on_empty := none })),
      .program (.signal_intent sample_signal sample_signal_args)])

/-- The guardian extends the lock, after it has expired, up to the cap. -/
def sample_extension : TxContext × List TopLevel :=
  (sample_ctx 9000,
    [.program (.deposit_config (.extend_intent_expiry
      ⟨sample_staker, sample_deposit, intent_lock_address sample_deposit sample_hash⟩
      (432000 - 3600)))])

/-- The extended lock of the sample cluster: the intent can be pruned right after the cap. -/
theorem uncovered_prunable_after_cap_extended :
    ∃ es s i l, Run sample_runtime es s ∧ s.intents.lookup sample_intent = some i
      ∧ i.dispute_covered = false ∧ i.timestamp = 2000
      ∧ s.intent_locks.lookup (intent_lock_address i.deposit i.intent_hash) = some l
      ∧ l.expiry_time = 434000
      ∧ ∃ s', handle_prune_expired_intent (sample_ctx 434001)
        (uncovered_prune sample_staker sample_intent) s = .ok s' := by
  obtain ⟨es, s, hrun, hgood⟩ := sample_reaches [sample_setup, sample_uncovered, sample_extension]
    (fun _ s => (s.intents.lookup sample_intent).any fun i : Intent => !i.dispute_covered
      && decide (i.timestamp = 2000)
      && (s.intent_locks.lookup (intent_lock_address i.deposit i.intent_hash)).any
        fun l : EscrowIntentLock =>
          decide (l.expiry_time = 434000)) (by decide +kernel)
  simp only [Option.any_eq_true, Bool.and_eq_true, Bool.not_eq_true', decide_eq_true_eq] at hgood
  obtain ⟨i, hi, ⟨huncovered, htimestamp⟩, l, hl, hexpiry⟩ := hgood
  obtain ⟨-, -, hprunable⟩ := uncovered_prunable_after_cap hrun
  obtain ⟨l', hl', hsignal, hprune⟩ := hprunable sample_intent i hi huncovered
  rw [hl] at hl'
  cases hl'
  have hlate : l.timestamp + 432000 < (sample_ctx 434001).now := by
    rw [hsignal, htimestamp]
    decide
  exact ⟨es, s, i, l, hrun, hi, huncovered, htimestamp, hl, hexpiry, hprune _ _ hlate rfl⟩

end Zkp2pSolana
