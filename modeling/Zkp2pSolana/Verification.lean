/-
`deployment/src/main.rs`: the verification `run_rpc` makes of a deployed program.

The tool loads the eight configuration accounts and compares them with the plan
and with each other, check by check; a failed check is reported by its label. On a
state the program can be in, most of these checks cannot fail, whatever governance
and everyone else have done since the deployment. What remains is the comparison
with the plan: the mint, the delay and the three groups of settings a plan names.
Right after `initialize_protocol` with the plan everything passes, the checks of
the initial defaults included. The cluster, loader and mint-account checks before
the accounts are read are about other programs and have no counterpart here.
-/
import Zkp2pSolana.Oversight
import Zkp2pSolana.Preflight
import Zkp2pSolana.Fees
import Zkp2pSolana.Witnesses

set_option autoImplicit false

namespace Zkp2pSolana

open Result Zkp2pError

/-! ## The checks -/

def require_state (condition : Prop) [Decidable condition] (label : String) : Except String Unit :=
  require condition ("topology verification failed: " ++ label)

/-- The domain is the hash of the seed the program recorded. -/
def validate_deployment_domain (rt : Runtime) (protocol : ProtocolConfig) : Except String Unit := do
  require_state (protocol.domain_seed ≠ Bytes.zero 32) "nonzero deployment-domain seed"
  let expected :=
    rt.keccak (DEPLOYMENT_DOMAIN_PREFIX ++ rt.as_ref program_id ++ protocol.domain_seed.toList)
  require_state (expected ≠ Bytes.zero 32) "nonzero deployment domain"
  require_state (protocol.domain_chain_id = expected) "runtime-derived deployment domain"

/-- The checks of every component and relationship. -/
def verify_components (rt : Runtime) (config : DeploymentConfig) (s : State) :
    Except String Unit := do
  let topology := Topology.derive
  require_state (s.protocol.authority ≠ Pubkey.default) "protocol authority"
  require_state (s.protocol.version = 1) "latest schema version"
  validate_deployment_domain rt s.protocol
  require_state (s.escrow_config.protocol = topology.protocol) "escrow protocol root"
  require_state (s.escrow_config.token_mint = config.stake_mint) "escrow token mint"
  require_state (s.escrow_config.dust_recipient ≠ Pubkey.default) "dust recipient"
  require_state (0 < s.escrow_config.intent_expiration_period
    ∧ s.escrow_config.intent_expiration_period ≤ MAX_INTENT_LIFETIME_SECONDS)
    "intent expiration bounds"
  require_state (0 < s.escrow_config.max_intents_per_deposit) "maximum intents"
  require_state (s.verifier.protocol = topology.protocol) "verifier protocol root"
  require_state (s.verifier.domain_chain_id = s.protocol.domain_chain_id) "verifier deployment domain"
  require_state (s.verifier.witnesses ≠ [] ∧ s.verifier.witnesses.length ≤ MAX_WITNESSES
    ∧ 0 < s.verifier.required_signatures
    ∧ s.verifier.required_signatures ≤ s.verifier.witnesses.length) "witness bounds"
  require_state (s.orchestrator.protocol = topology.protocol
    ∧ s.orchestrator.escrow_config = topology.escrow_config
    ∧ s.orchestrator.verifier_config = topology.verifier_config
    ∧ s.orchestrator.domain_chain_id = s.protocol.domain_chain_id) "orchestrator wiring"
  require_state (s.orchestrator.protocol_fee ≤ MAX_FEE
    ∧ s.orchestrator.protocol_fee_recipient ≠ Pubkey.default) "orchestrator fee bounds"
  require_state (s.stake_vault.protocol = topology.protocol
    ∧ s.stake_vault.stake_mint = config.stake_mint
    ∧ s.stake_vault.controller ≠ Pubkey.default) "StakeVault wiring"
  require_state (s.stake_vault.controller_change_delay = config.controller_change_delay)
    "controller delay"
  require_state (s.rate_manager_config.protocol = topology.protocol) "RateManager protocol root"
  require_state (s.whitelist_config.protocol = topology.protocol) "whitelist protocol root"
  require_state (s.dispute_config.protocol = topology.protocol
    ∧ s.dispute_config.stake_vault = topology.stake_vault_config
    ∧ s.dispute_config.verifier_config = topology.verifier_config
    ∧ s.dispute_config.domain_chain_id = s.protocol.domain_chain_id) "dispute wiring"

/-- The comparison with the plan. -/
def verify_expected (config : DeploymentConfig) (s : State) : Except String Unit := do
  require_state (s.escrow_config.intent_expiration_period = config.intent_expiration_period
    ∧ s.escrow_config.max_intents_per_deposit = config.max_intents_per_deposit)
    "expected escrow configuration"
  require_state (s.verifier.required_signatures = config.required_signatures
    ∧ s.verifier.witnesses = config.initial_witnesses) "expected verifier configuration"
  require_state (s.orchestrator.protocol_fee = config.protocol_fee
    ∧ s.orchestrator.protocol_fee_recipient = config.protocol_fee_recipient)
    "expected orchestrator configuration"
  require_state (s.stake_vault.controller_change_delay = config.controller_change_delay)
    "expected controller delay"

/-- The checks after an initialization by the same call. -/
def verify_initial (config : DeploymentConfig) (s : State) : Except String Unit := do
  require_state (s.protocol.authority = config.authority) "initial protocol authority"
  require_state (s.protocol.pending_authority = none) "initial pending authority"
  require_state (s.escrow_config.dust_recipient = config.protocol_fee_recipient
    ∧ s.escrow_config.dust_threshold = 0 ∧ s.escrow_config.paused = false) "initial escrow defaults"
  require_state (s.verifier.payment_methods = []) "initial verifier defaults"
  require_state (s.orchestrator.lifecycle_policy = .WhitelistAndDispute
    ∧ s.orchestrator.paused = false) "initial orchestrator defaults"
  require_state (s.stake_vault.controller = Topology.derive.dispute_config
    ∧ s.stake_vault.pending_controller = none) "initial StakeVault defaults"
  require_state (s.dispute_config.admissions_paused = false) "initial dispute admission state"

/-- What `run_rpc` checks of the accounts it loads; `initialized` says that it has just sent the
initialization itself. -/
def verify_state (rt : Runtime) (config : DeploymentConfig) (initialized : Bool) (s : State) :
    Except String Unit := do
  verify_components rt config s
  verify_expected config s
  if initialized then verify_initial config s else .ok ()

/-! ## The states of the program -/

/-- What the checks ask of a state, apart from the plan. -/
structure Deployed (rt : Runtime) (s : State) : Prop where
  authority : s.protocol.authority ≠ Pubkey.default
  version : s.protocol.version = 1
  domain_seed : s.protocol.domain_seed ≠ Bytes.zero 32
  domain_nonzero : derive_deployment_domain rt program_id s.protocol.domain_seed ≠ Bytes.zero 32
  domain : s.protocol.domain_chain_id
    = derive_deployment_domain rt program_id s.protocol.domain_seed
  escrow_protocol : s.escrow_config.protocol = Topology.derive.protocol
  mints : s.stake_vault.stake_mint = s.escrow_config.token_mint
  dust_recipient : s.escrow_config.dust_recipient ≠ Pubkey.default
  expiration : 0 < s.escrow_config.intent_expiration_period
    ∧ s.escrow_config.intent_expiration_period ≤ MAX_INTENT_LIFETIME_SECONDS
  max_intents : 0 < s.escrow_config.max_intents_per_deposit
  verifier_protocol : s.verifier.protocol = Topology.derive.protocol
  verifier_domain : s.verifier.domain_chain_id = s.protocol.domain_chain_id
  witnesses : WitnessesOk s.verifier
  orchestrator : s.orchestrator.protocol = Topology.derive.protocol
    ∧ s.orchestrator.escrow_config = Topology.derive.escrow_config
    ∧ s.orchestrator.verifier_config = Topology.derive.verifier_config
    ∧ s.orchestrator.domain_chain_id = s.protocol.domain_chain_id
  fee : s.orchestrator.protocol_fee ≤ MAX_FEE
    ∧ s.orchestrator.protocol_fee_recipient ≠ Pubkey.default
  stake_vault : s.stake_vault.protocol = Topology.derive.protocol
  controller : s.stake_vault.controller ≠ Pubkey.default
  rate_manager : s.rate_manager_config.protocol = Topology.derive.protocol
  whitelist : s.whitelist_config.protocol = Topology.derive.protocol
  dispute : s.dispute_config.protocol = Topology.derive.protocol
    ∧ s.dispute_config.stake_vault = Topology.derive.stake_vault_config
    ∧ s.dispute_config.verifier_config = Topology.derive.verifier_config
    ∧ s.dispute_config.domain_chain_id = s.protocol.domain_chain_id

/-- The checks a deployed state can fail, all of them against the plan. -/
def check_plan (config : DeploymentConfig) (s : State) : Except String Unit := do
  require_state (s.escrow_config.token_mint = config.stake_mint) "escrow token mint"
  require_state (s.stake_vault.controller_change_delay = config.controller_change_delay)
    "controller delay"
  verify_expected config s

theorem require_state_true {c : Prop} [Decidable c] {label : String} (h : c) :
    require_state c label = .ok () := require_true h

theorem require_state_false {c : Prop} [Decidable c] {label : String} (h : ¬ c) :
    require_state c label = .error ("topology verification failed: " ++ label) := if_neg h

/-- The domain of a deployment is the one its own seed derives. -/
theorem Deployed.validate_domain {rt : Runtime} {s : State} (h : Deployed rt s) :
    validate_deployment_domain rt s.protocol = .ok () := by
  unfold validate_deployment_domain
  rw [require_state_true h.domain_seed, ok_bind]
  show (do
    require_state (derive_deployment_domain rt program_id s.protocol.domain_seed ≠ Bytes.zero 32) _
    require_state (s.protocol.domain_chain_id
      = derive_deployment_domain rt program_id s.protocol.domain_seed) _) = _
  rw [require_state_true h.domain_nonzero, ok_bind, require_state_true h.domain]

/-- The bounds the tool checks are those the program keeps. -/
theorem WitnessesOk.bounds {v : VerifierConfig} (h : WitnessesOk v) :
    v.witnesses ≠ [] ∧ v.witnesses.length ≤ MAX_WITNESSES ∧ 0 < v.required_signatures
      ∧ v.required_signatures ≤ v.witnesses.length := by
  refine ⟨fun hnil => ?_, h.bounded, h.positive, h.satisfiable⟩
  have hmet := h.satisfiable
  have hpositive := h.positive
  rw [hnil, List.length_nil] at hmet
  omega

theorem error_bind {α β : Type} {message : String} {f : α → Except String β} :
    (Except.error message >>= f) = .error message := rfl

/-- Against a deployed state, the components fail only for the mint and the delay of the plan. -/
theorem Deployed.verify_components {rt : Runtime} {s : State} (h : Deployed rt s)
    (config : DeploymentConfig) :
    verify_components rt config s = (do
      require_state (s.escrow_config.token_mint = config.stake_mint) "escrow token mint"
      require_state (s.stake_vault.controller_change_delay = config.controller_change_delay)
        "controller delay") := by
  unfold Zkp2pSolana.verify_components
  rw [require_state_true h.authority, ok_bind, require_state_true h.version, ok_bind,
    h.validate_domain, ok_bind, require_state_true h.escrow_protocol, ok_bind]
  by_cases hmint : s.escrow_config.token_mint = config.stake_mint
  · have hvault : s.stake_vault.protocol = Topology.derive.protocol
        ∧ s.stake_vault.stake_mint = config.stake_mint
        ∧ s.stake_vault.controller ≠ Pubkey.default :=
      ⟨h.stake_vault, h.mints.trans hmint, h.controller⟩
    rw [require_state_true hmint, ok_bind, ok_bind, require_state_true h.dust_recipient, ok_bind,
      require_state_true h.expiration, ok_bind, require_state_true h.max_intents, ok_bind,
      require_state_true h.verifier_protocol, ok_bind, require_state_true h.verifier_domain, ok_bind,
      require_state_true h.witnesses.bounds, ok_bind, require_state_true h.orchestrator, ok_bind,
      require_state_true h.fee, ok_bind, require_state_true hvault, ok_bind]
    by_cases hdelay : s.stake_vault.controller_change_delay = config.controller_change_delay
    · rw [require_state_true hdelay, ok_bind, require_state_true h.rate_manager, ok_bind,
        require_state_true h.whitelist, ok_bind, require_state_true h.dispute]
    · rw [require_state_false hdelay, error_bind]
  · rw [require_state_false hmint, error_bind, error_bind]

/-- Against a deployed state, verification is the comparison with the plan. -/
theorem Deployed.verify {rt : Runtime} {s : State} (h : Deployed rt s) (config : DeploymentConfig) :
    verify_state rt config false s = check_plan config s := by
  have hrest : (do verify_expected config s; if false = true then verify_initial config s else .ok ())
      = verify_expected config s := by
    cases verify_expected config s with
    | error message => rfl
    | ok u => rfl
  unfold verify_state check_plan
  rw [h.verify_components, hrest, bind_assoc]

/-! ## Every state of a run is deployed -/

/-- The keys and counts that governance may set, none of them to zero. -/
structure Appointed (s : State) : Prop where
  authority : s.protocol.authority ≠ Pubkey.default
  dust_recipient : s.escrow_config.dust_recipient ≠ Pubkey.default
  max_intents : 0 < s.escrow_config.max_intents_per_deposit
  fee_recipient : s.orchestrator.protocol_fee_recipient ≠ Pubkey.default
  controller : s.stake_vault.controller ≠ Pubkey.default

/-- The zero key signs nothing. -/
theorem ne_default_of_can_sign {k : Pubkey} (h : k.can_sign = true) : k ≠ Pubkey.default := by
  rintro rfl
  exact absurd h (by decide)

theorem genesis_appointed {rt : Runtime} {s : State} (h : genesis rt s) : Appointed s := by
  have hauthority := (genesis_authority h).1
  obtain ⟨_, args, _, _, _, _, _, hargs, -, -, rfl⟩ := genesis_initialized h
  refine ⟨ne_default_of_can_sign hauthority, hargs.protocol_fee_recipient,
    hargs.max_intents_per_deposit, hargs.protocol_fee_recipient, ?_⟩
  intro hzero
  cases hzero

section Step

variable {rt : Runtime} {e : Event}

/-- Configuring the escrow keeps a dust recipient and a limit above zero. -/
theorem escrow_appointed (hv : e.Valid (step rt))
    (hdust : e.pre.escrow_config.dust_recipient ≠ Pubkey.default)
    (hmax : 0 < e.pre.escrow_config.max_intents_per_deposit) :
    e.post.escrow_config.dust_recipient ≠ Pubkey.default
      ∧ 0 < e.post.escrow_config.max_intents_per_deposit := by
  rcases (policy_move hv).escrow with hsame | ⟨accounts, args, -, hok⟩
  · rw [hsame]
    exact ⟨hdust, hmax⟩
  · simp only [handle_configure_escrow, bind_eq_ok, require_eq_ok, exists_const, pure_eq_ok] at hok
    obtain ⟨_, -, -, -, hrecipient, hmaximum, -, -, hpost⟩ := hok
    rw [← hpost]
    exact ⟨getD_of_forall hrecipient hdust, getD_of_forall hmaximum hmax⟩

theorem fee_recipient_appointed (hv : e.Valid (step rt))
    (hs : e.pre.orchestrator.protocol_fee_recipient ≠ Pubkey.default) :
    e.post.orchestrator.protocol_fee_recipient ≠ Pubkey.default := by
  rcases (config_move hv).orchestrator with hsame | ⟨accounts, args, -, hok⟩
  · rw [hsame]
    exact hs
  · simp only [handle_configure_orchestrator, bind_eq_ok, require_eq_ok, exists_const,
      pure_eq_ok] at hok
    obtain ⟨_, -, -, -, -, hrecipient, hpost⟩ := hok
    rw [← hpost]
    exact getD_of_forall hrecipient hs

/-- A controller is only ever replaced by one that signed. -/
theorem controller_appointed (hv : e.Valid (step rt))
    (hs : e.pre.stake_vault.controller ≠ Pubkey.default) :
    e.post.stake_vault.controller ≠ Pubkey.default := by
  rcases (config_move hv).handover with hsame | ⟨_, _, -, hok⟩ | ⟨_, -, hok⟩
  · rw [show e.post.stake_vault.controller = e.pre.stake_vault.controller from
      congrArg Handover.controller hsame]
    exact hs
  · obtain ⟨-, -, ⟨c, -, hpost⟩ | ⟨-, hpost⟩⟩ := propose_stake_controller_ok hok
    · exact (congrArg Handover.controller hpost).trans_ne hs
    · exact (congrArg Handover.controller hpost).trans_ne hs
  · obtain ⟨hsigns, -, -, hpost⟩ := accept_stake_controller_ok hok
    exact (congrArg Handover.controller hpost).trans_ne (ne_default_of_can_sign hsigns)

theorem Appointed.step (hv : e.Valid (step rt)) (hs : Appointed e.pre) : Appointed e.post := by
  obtain ⟨hdust, hmax⟩ := escrow_appointed hv hs.dust_recipient hs.max_intents
  refine ⟨?_, hdust, hmax, fee_recipient_appointed hv hs.fee_recipient,
    controller_appointed hv hs.controller⟩
  by_cases hchange : e.post.protocol.authority = e.pre.protocol.authority
  · rw [hchange]
    exact hs.authority
  · obtain ⟨⟨_, -, -, hsigns⟩, -⟩ := authority_accepted hv hchange
    exact ne_default_of_can_sign hsigns

end Step

/-- The domain recorded at deployment comes from a nonzero slot hash. -/
theorem newest_slot_hash_nonzero {data : List UInt8} {slot : ℕ} {seed : Bytes 32}
    (h : newest_slot_hash data = .ok (slot, seed)) : seed ≠ Bytes.zero 32 := by
  simp only [newest_slot_hash, bind_eq_ok, require_eq_ok, exists_const, pure_eq_ok,
    Prod.mk.injEq] at h
  obtain ⟨-, -, -, hnonzero, -, rfl⟩ := h
  exact hnonzero

/-- The wiring of a deployment, read off its first state. -/
theorem genesis_deployed {rt : Runtime} {s₀ s : State} (h₀ : genesis rt s₀)
    (hwiring : s.wiring = s₀.wiring) (happointed : Appointed s)
    (hescrow : EscrowOk s.toEscrowRecords) (hwitnesses : WitnessesOk s.verifier)
    (hfee : s.orchestrator.protocol_fee ≤ MAX_FEE) : Deployed rt s := by
  obtain ⟨accounts, args, records, tokens, -, -, hinit⟩ := h₀
  obtain ⟨-, slot, seed, haccounts, rfl⟩ := initialize_protocol_eq_ok.mp hinit
  have hdomain : s.protocol.domain_chain_id = derive_deployment_domain rt program_id seed :=
    congrArg Wiring.domain_chain_id hwiring
  have hseed : s.protocol.domain_seed = seed := congrArg Wiring.domain_seed hwiring
  exact {
    authority := happointed.authority
    version := congrArg Wiring.version hwiring
    domain_seed := by
      rw [hseed]
      exact newest_slot_hash_nonzero haccounts.slot_hashes
    domain_nonzero := by
      rw [hseed]
      exact haccounts.domain
    domain := by rw [hdomain, hseed]
    escrow_protocol := congrArg Wiring.escrow_protocol hwiring
    mints := (congrArg Wiring.stake_mint hwiring).trans (congrArg Wiring.token_mint hwiring).symm
    dust_recipient := happointed.dust_recipient
    expiration := ⟨hescrow.positive, hescrow.capped⟩
    max_intents := happointed.max_intents
    verifier_protocol := congrArg Wiring.verifier_protocol hwiring
    verifier_domain := (congrArg Wiring.verifier_domain hwiring).trans hdomain.symm
    witnesses := hwitnesses
    orchestrator := ⟨congrArg Wiring.orchestrator_protocol hwiring,
      congrArg Wiring.orchestrator_escrow hwiring, congrArg Wiring.orchestrator_verifier hwiring,
      (congrArg Wiring.orchestrator_domain hwiring).trans hdomain.symm⟩
    fee := ⟨hfee, happointed.fee_recipient⟩
    stake_vault := congrArg Wiring.stake_vault_protocol hwiring
    controller := happointed.controller
    rate_manager := congrArg Wiring.rate_manager_protocol hwiring
    whitelist := congrArg Wiring.whitelist_protocol hwiring
    dispute := ⟨congrArg Wiring.dispute_protocol hwiring,
      congrArg Wiring.dispute_stake_vault hwiring, congrArg Wiring.dispute_verifier hwiring,
      (congrArg Wiring.dispute_domain hwiring).trans hdomain.symm⟩ }

/-- Every state of a run passes the checks that do not depend on the plan. -/
theorem Run.deployed {rt : Runtime} {es : List Event} {s : State} (h : Run rt es s) :
    Deployed rt s := by
  obtain ⟨s₀, h₀, hwiring⟩ := Run.wiring h
  have happointed := TxMachine.Run.invariant (I := Appointed) (G := fun _ => True)
    (fun _ h₀ => genesis_appointed h₀) (fun _ _ hv hs => hs.step hv) h fun _ _ => trivial
  exact genesis_deployed h₀ (hwiring s (.inl rfl)) happointed.1 (Run.escrow h).1
    (Run.witnesses h).1 (Run.fees h).1.protocol

/-! ## Verification of a run -/

/-- What a plan says of a deployment. -/
structure MatchesPlan (config : DeploymentConfig) (s : State) : Prop where
  stake_mint : s.escrow_config.token_mint = config.stake_mint
  controller_change_delay : s.stake_vault.controller_change_delay = config.controller_change_delay
  intent_expiration_period :
    s.escrow_config.intent_expiration_period = config.intent_expiration_period
  max_intents_per_deposit :
    s.escrow_config.max_intents_per_deposit = config.max_intents_per_deposit
  required_signatures : s.verifier.required_signatures = config.required_signatures
  witnesses : s.verifier.witnesses = config.initial_witnesses
  protocol_fee : s.orchestrator.protocol_fee = config.protocol_fee
  protocol_fee_recipient : s.orchestrator.protocol_fee_recipient = config.protocol_fee_recipient

/-- The checks against the plan pass exactly on the state that matches it. -/
theorem check_plan_eq_ok {config : DeploymentConfig} {s : State} :
    check_plan config s = .ok () ↔ MatchesPlan config s := by
  simp only [check_plan, verify_expected, require_state, bind_eq_ok, require_eq_ok, exists_const]
  constructor
  · rintro ⟨hmint, hdelay, ⟨hexpiration, hmax⟩, ⟨hrequired, hwitnesses⟩, ⟨hfee, hrecipient⟩, -⟩
    exact ⟨hmint, hdelay, hexpiration, hmax, hrequired, hwitnesses, hfee, hrecipient⟩
  · intro h
    exact ⟨h.stake_mint, h.controller_change_delay,
      ⟨h.intent_expiration_period, h.max_intents_per_deposit⟩,
      ⟨h.required_signatures, h.witnesses⟩, ⟨h.protocol_fee, h.protocol_fee_recipient⟩,
      h.controller_change_delay⟩

/-- The labels a comparison with the plan can report. -/
def plan_labels : List String :=
  ["escrow token mint", "controller delay", "expected escrow configuration",
    "expected verifier configuration", "expected orchestrator configuration"]

theorem check_plan_error {config : DeploymentConfig} {s : State} {message : String}
    (h : check_plan config s = .error message) :
    ∃ label ∈ plan_labels, message = "topology verification failed: " ++ label := by
  simp only [check_plan, verify_expected, require_state, bind_eq_error, require_eq_error,
    require_eq_ok, exists_const] at h
  rcases h with ⟨-, rfl⟩ | ⟨-, ⟨-, rfl⟩ | ⟨hdelay, ⟨-, rfl⟩ | ⟨-, ⟨-, rfl⟩ | ⟨-, ⟨-, rfl⟩
    | ⟨-, hagain, -⟩⟩⟩⟩⟩
  · exact ⟨_, by simp [plan_labels], rfl⟩
  · exact ⟨_, by simp [plan_labels], rfl⟩
  · exact ⟨_, by simp [plan_labels], rfl⟩
  · exact ⟨_, by simp [plan_labels], rfl⟩
  · exact ⟨_, by simp [plan_labels], rfl⟩
  -- the last check repeats one that has passed
  · exact absurd hdelay hagain

/-- The first state of a deployment made with the plan. -/
theorem initialized_verifies {rt : Runtime} {config : DeploymentConfig}
    {accounts : InitializeProtocol} {records : OpenRecords} {tokens : Accounts TokenAccount}
    {s : State} (hrecords : OpenReachable records) (htokens : untouched tokens)
    (hauthority : accounts.authority = config.authority)
    (hmint : accounts.stake_mint = config.stake_mint)
    (hinit : handle_initialize_protocol rt accounts config.initialize_args records tokens = .ok s) :
    verify_state rt config true s = .ok () := by
  have hdeployed : Deployed rt s :=
    Run.deployed (.init ⟨accounts, _, records, tokens, hrecords, htokens, hinit⟩)
  obtain ⟨-, slot, seed, -, rfl⟩ := initialize_protocol_eq_ok.mp hinit
  have hplan : MatchesPlan config (initial_state accounts config.initialize_args slot seed
      (derive_deployment_domain rt program_id seed) records tokens) :=
    ⟨hmint, rfl, rfl, rfl, rfl, rfl, rfl, rfl⟩
  have hverify := hdeployed.verify config
  rw [check_plan_eq_ok.mpr hplan] at hverify
  -- the same checks, and then the defaults
  simp only [verify_state, bind_eq_ok, Bool.false_eq_true, if_false, if_true] at hverify ⊢
  obtain ⟨_, hcomponents, _, hexpected, -⟩ := hverify
  refine ⟨_, hcomponents, _, hexpected, ?_⟩
  simp only [verify_initial, require_state, bind_eq_ok, require_eq_ok, exists_const]
  exact ⟨hauthority, rfl, ⟨rfl, rfl, rfl⟩, rfl, ⟨rfl, rfl⟩, ⟨rfl, rfl⟩, rfl⟩

/-- On every state of every run, the verification of a deployment is the comparison with the plan: it
passes exactly if the state has the plan's mint, delay and settings, and otherwise names one of them;
no root, link, domain or bound is ever found broken. A deployment made with the plan passes at once,
the initial defaults included. -/
theorem verification_compares_plan {rt : Runtime} {es : List Event} {s : State} (h : Run rt es s)
    (config : DeploymentConfig) :
    (verify_state rt config false s = .ok () ↔ MatchesPlan config s)
      ∧ (∀ message, verify_state rt config false s = .error message →
        ∃ label ∈ plan_labels, message = "topology verification failed: " ++ label)
      ∧ ∀ accounts records tokens s₀, OpenReachable records → untouched tokens →
        accounts.authority = config.authority → accounts.stake_mint = config.stake_mint →
        handle_initialize_protocol rt accounts config.initialize_args records tokens = .ok s₀ →
        verify_state rt config true s₀ = .ok () := by
  refine ⟨?_, ?_, ?_⟩
  · rw [(Run.deployed h).verify config]
    exact check_plan_eq_ok
  · rw [(Run.deployed h).verify config]
    exact fun message => check_plan_error
  · intro accounts records tokens s₀ hrecords htokens hauthority hmint hinit
    exact initialized_verifies hrecords htokens hauthority hmint hinit

/-- The sample cluster passes its own plan with the handover made, and not one with another fee. -/
theorem verification_compares_plan_handed_over :
    ∃ es s, Run sample_runtime es s ∧ s.stake_vault.controller = sample_successor
      ∧ verify_state sample_runtime sample_plan false s = .ok ()
      ∧ verify_state sample_runtime { sample_plan with protocol_fee := 1 } false s ≠ .ok () := by
  obtain ⟨es, s, hrun, hgood⟩ := sample_reaches [sample_setup, sample_propose, sample_handover]
    (fun _ s => decide (s.stake_vault.controller = sample_successor
      ∧ s.escrow_config.token_mint = sample_mint ∧ s.stake_vault.controller_change_delay = 86400
      ∧ s.escrow_config.intent_expiration_period = 3600
      ∧ s.escrow_config.max_intents_per_deposit = 10 ∧ s.verifier.required_signatures = 1
      ∧ s.verifier.witnesses = sample_plan.initial_witnesses ∧ s.orchestrator.protocol_fee = 0
      ∧ s.orchestrator.protocol_fee_recipient = sample_depositor)) (by decide +kernel)
  obtain ⟨hcontroller, hmint, hdelay, hexpiration, hmax, hrequired, hwitnesses, hfee, hrecipient⟩ :=
    of_decide_eq_true hgood
  refine ⟨es, s, hrun, hcontroller, ?_, ?_⟩
  · exact (verification_compares_plan hrun sample_plan).1.mpr
      ⟨hmint, hdelay, hexpiration, hmax, hrequired, hwitnesses, hfee, hrecipient⟩
  · intro hok
    have hmatches := (verification_compares_plan hrun _).1.mp hok
    have hother : s.orchestrator.protocol_fee = 1 := hmatches.protocol_fee
    rw [hfee] at hother
    cases hother

end Zkp2pSolana
