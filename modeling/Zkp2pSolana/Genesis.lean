/-
What `initialize_protocol` has checked when it succeeds.

Every run starts in the state it leaves, so what it checks of its arguments is
the base case of the invariants of the configuration. The checks are collected
once, as a record of properties of the arguments (`InitializeArgsOk`) that holds
exactly when the handler's checks pass.
-/
import Zkp2pSolana.Lib.Fresh
import Zkp2pSolana.TokenMoves

set_option autoImplicit false

namespace Zkp2pSolana

open Result Zkp2pError

/-- A loop that asks of each witness that it is nonzero and not among the witnesses before it. -/
theorem witness_loop_iff {ε : Type} {loop : List (Bytes 20) → List (Bytes 20) → Except ε Unit}
    (hnil : ∀ prior, loop prior [] = .ok ())
    (hcons : ∀ prior w rest, loop prior (w :: rest) = .ok ()
      ↔ w ≠ Bytes.zero 20 ∧ w ∉ prior ∧ loop (prior ++ [w]) rest = .ok ())
    (prior ws : List (Bytes 20)) :
    loop prior ws = .ok () ↔ (∀ w ∈ ws, w ≠ Bytes.zero 20) ∧ Fresh prior ws := by
  -- induction on the witnesses still to check, for every list of witnesses before them
  induction ws generalizing prior with
  | nil => simp [hnil, Fresh.nil]
  | cons w rest ih =>
    rw [hcons, ih, List.forall_mem_cons, Fresh.cons_iff]
    constructor
    · rintro ⟨hnonzero, hnew, hrest, hfresh⟩
      exact ⟨⟨hnonzero, hrest⟩, hnew, hfresh⟩
    · rintro ⟨⟨hnonzero, hrest⟩, hnew, hfresh⟩
      exact ⟨hnonzero, hnew, hrest, hfresh⟩

/-- What the handler asks of its arguments. -/
structure InitializeArgsOk (args : InitializeProtocolArgs) : Prop where
  protocol_fee : args.protocol_fee ≤ MAX_FEE
  protocol_fee_recipient : args.protocol_fee_recipient ≠ Pubkey.default
  expiration_positive : 0 < args.intent_expiration_period
  expiration_capped : args.intent_expiration_period ≤ MAX_INTENT_LIFETIME_SECONDS
  max_intents_per_deposit : 0 < args.max_intents_per_deposit
  controller_change_delay : MIN_CONTROLLER_CHANGE_DELAY_SECONDS ≤ args.controller_change_delay
  threshold_positive : 0 < args.required_signatures
  threshold_met : args.required_signatures ≤ args.initial_witnesses.length
  witnesses_bounded : args.initial_witnesses.length ≤ MAX_WITNESSES
  witnesses_nonzero : ∀ w ∈ args.initial_witnesses, w ≠ Bytes.zero 20
  witnesses_distinct : args.initial_witnesses.Nodup

/-- A threshold that is met asks for a witness. -/
theorem InitializeArgsOk.witnesses_ne_nil {args : InitializeProtocolArgs} (h : InitializeArgsOk args) :
    args.initial_witnesses ≠ [] := by
  intro hnone
  have hmet := h.threshold_met
  have hpositive := h.threshold_positive
  rw [hnone, List.length_nil] at hmet
  omega

/-- The loop over the witnesses accepts exactly the lists of distinct non-zero addresses. The list
of those seen starts empty. -/
theorem check_witnesses_eq_ok {ws : List (Bytes 20)} {u : Unit} :
    check_witnesses [] ws = .ok u ↔ (∀ w ∈ ws, w ≠ Bytes.zero 20) ∧ ws.Nodup := by
  cases u
  rw [witness_loop_iff (fun _ => rfl), Fresh.nil_iff]
  intro prior w rest
  simp only [check_witnesses, bind_eq_ok, require_eq_ok, exists_const]

/-- The guards on the arguments say `InitializeArgsOk` and nothing else. -/
theorem check_initialize_args_eq_ok {args : InitializeProtocolArgs} {u : Unit} :
    check_initialize_args args = .ok u ↔ InitializeArgsOk args := by
  simp only [check_initialize_args, bind_eq_ok, require_eq_ok, exists_const, check_witnesses_eq_ok]
  constructor
  · rintro ⟨hfee, hrecipient, hpositive, hcapped, hmax, hdelay, -, ⟨hmet, hthreshold⟩, hbounded,
      hnonzero, hdistinct⟩
    exact ⟨hfee, hrecipient, hpositive, hcapped, hmax, hdelay, hthreshold, hmet, hbounded, hnonzero,
      hdistinct⟩
  · intro h
    exact ⟨h.protocol_fee, h.protocol_fee_recipient, h.expiration_positive, h.expiration_capped,
      h.max_intents_per_deposit, h.controller_change_delay, h.witnesses_ne_nil,
      ⟨h.threshold_met, h.threshold_positive⟩, h.witnesses_bounded, h.witnesses_nonzero,
      h.witnesses_distinct⟩

/-- What the handler asks of its accounts: the signer holds the upgrade authority, the newest slot
hash gives a domain, and the mint is a legacy one with six decimals. -/
structure InitializeAccountsOk (rt : Runtime) (accounts : InitializeProtocol) (slot : ℕ)
    (seed : Bytes 32) : Prop where
  authority : accounts.authority.can_sign = true
  upgrade_authority : accounts.upgrade_authority = some accounts.authority
  slot_hashes : newest_slot_hash accounts.slot_hashes = .ok (slot, seed)
  domain : derive_deployment_domain rt program_id seed ≠ Bytes.zero 32
  stake_mint_program : accounts.stake_mint_program = token_program_id
  stake_mint_decimals : accounts.stake_mint_decimals = 6

/-- Initialization succeeds exactly on good arguments and good accounts, and then the state is the
one written out in `initial_state`. -/
theorem initialize_protocol_eq_ok {rt : Runtime} {accounts : InitializeProtocol}
    {args : InitializeProtocolArgs} {records : OpenRecords} {tokens : Accounts TokenAccount}
    {s : State} :
    handle_initialize_protocol rt accounts args records tokens = .ok s
      ↔ InitializeArgsOk args ∧ ∃ slot seed, InitializeAccountsOk rt accounts slot seed
        ∧ s = initial_state accounts args slot seed (derive_deployment_domain rt program_id seed)
          records tokens := by
  simp only [handle_initialize_protocol, bind_eq_ok, signer_eq_ok, require_eq_ok, exists_const,
    Prod.exists, pure_eq_ok, check_initialize_args_eq_ok]
  constructor
  · rintro ⟨hsign, hupgrade, slot, seed, hslot, hdomain, hmint, hdecimals, hargs, hs⟩
    exact ⟨hargs, slot, seed, ⟨hsign, hupgrade, hslot, hdomain, hmint, hdecimals⟩, hs.symm⟩
  · rintro ⟨hargs, slot, seed, h, hs⟩
    exact ⟨h.authority, h.upgrade_authority, slot, seed, h.slot_hashes, h.domain,
      h.stake_mint_program, h.stake_mint_decimals, hargs, hs.symm⟩

/-- The first state of a run. -/
theorem genesis_initialized {rt : Runtime} {s : State} (h : genesis rt s) :
    ∃ accounts args slot seed domain records tokens, InitializeArgsOk args
      ∧ OpenReachable records ∧ untouched tokens
      ∧ s = initial_state accounts args slot seed domain records tokens := by
  obtain ⟨accounts, args, records, tokens, hrecords, htokens, h⟩ := h
  obtain ⟨hargs, slot, seed, -, hs⟩ := initialize_protocol_eq_ok.mp h
  exact ⟨accounts, args, slot, seed, _, records, tokens, hargs, hrecords, htokens, hs⟩

/-- What most invariants need of the first state: its form, and that custody starts untouched. -/
theorem genesis_ok {rt : Runtime} {s : State} (h : genesis rt s) :
    ∃ accounts args slot seed domain records tokens,
      s = initial_state accounts args slot seed domain records tokens ∧ untouched tokens := by
  obtain ⟨accounts, args, slot, seed, domain, records, tokens, -, -, htokens, hs⟩ :=
    genesis_initialized h
  exact ⟨accounts, args, slot, seed, domain, records, tokens, hs, htokens⟩

end Zkp2pSolana
