/-
What of a deployment can change, and who changes it.

The eight configuration accounts are written once and then only through the
instructions of governance. Which accounts they point to, the mint, the domain and
the controller delay are the same in every state of a run ([`Run.wiring`]); the
rest is the configuration the deployment tool fingerprints. It changes only by an
instruction that the protocol authority of that moment signed, or by one of the two
acceptances, signed by the one who was proposed; so between two such instructions
the fingerprint stands still, whatever else the program does in between.
-/
import Zkp2pSolana.Succession
import Zkp2pSolana.Handover
import Zkp2pSolana.Fingerprint

set_option autoImplicit false

namespace Zkp2pSolana

open Result Zkp2pError

/-! ## The wiring -/

/-- The links between the configuration accounts, and the terms fixed at deployment. -/
structure Wiring where
  version : ℕ
  domain_seed_slot : ℕ
  domain_seed : Bytes 32
  domain_chain_id : Bytes 32
  escrow_protocol : Pubkey
  token_mint : Pubkey
  verifier_protocol : Pubkey
  verifier_domain : Bytes 32
  orchestrator_protocol : Pubkey
  orchestrator_escrow : Pubkey
  orchestrator_verifier : Pubkey
  orchestrator_domain : Bytes 32
  stake_vault_protocol : Pubkey
  stake_mint : Pubkey
  controller_change_delay : ℤ
  rate_manager_protocol : Pubkey
  whitelist_protocol : Pubkey
  dispute_protocol : Pubkey
  dispute_domain : Bytes 32
  dispute_stake_vault : Pubkey
  dispute_verifier : Pubkey

def State.wiring (s : State) : Wiring where
  version := s.protocol.version
  domain_seed_slot := s.protocol.domain_seed_slot
  domain_seed := s.protocol.domain_seed
  domain_chain_id := s.protocol.domain_chain_id
  escrow_protocol := s.escrow_config.protocol
  token_mint := s.escrow_config.token_mint
  verifier_protocol := s.verifier.protocol
  verifier_domain := s.verifier.domain_chain_id
  orchestrator_protocol := s.orchestrator.protocol
  orchestrator_escrow := s.orchestrator.escrow_config
  orchestrator_verifier := s.orchestrator.verifier_config
  orchestrator_domain := s.orchestrator.domain_chain_id
  stake_vault_protocol := s.stake_vault.protocol
  stake_mint := s.stake_vault.stake_mint
  controller_change_delay := s.stake_vault.controller_change_delay
  rate_manager_protocol := s.rate_manager_config.protocol
  whitelist_protocol := s.whitelist_config.protocol
  dispute_protocol := s.dispute_config.protocol
  dispute_domain := s.dispute_config.domain_chain_id
  dispute_stake_vault := s.dispute_config.stake_vault
  dispute_verifier := s.dispute_config.verifier_config

section Step

variable {rt : Runtime} {e : Event}

/-- A change of authority writes the two offices of the protocol account. -/
theorem protocol_kept (hv : e.Valid (step rt)) :
    e.post.protocol = { e.pre.protocol with
      authority := e.post.protocol.authority
      pending_authority := e.post.protocol.pending_authority } := by
  rcases (policy_move hv).protocol with hsame | ⟨_, _, -, hok⟩ | ⟨_, -, hok⟩
  · rw [hsame]
  · obtain ⟨-, -, hpost⟩ := propose_protocol_authority_ok hok
    rw [hpost]
  · obtain ⟨-, -, hpost⟩ := accept_protocol_authority_ok hok
    rw [hpost]

theorem escrow_wiring_kept (hv : e.Valid (step rt)) :
    e.post.escrow_config.protocol = e.pre.escrow_config.protocol
      ∧ e.post.escrow_config.token_mint = e.pre.escrow_config.token_mint := by
  rcases (policy_move hv).escrow with hsame | ⟨accounts, args, -, hok⟩
  · rw [hsame]
    exact ⟨rfl, rfl⟩
  · simp only [handle_configure_escrow, bind_eq_ok, pure_eq_ok] at hok
    obtain ⟨_, -, _, -, _, -, _, -, _, -, _, -, _, -, hpost⟩ := hok
    rw [← hpost]
    exact ⟨rfl, rfl⟩

theorem verifier_wiring_kept (hv : e.Valid (step rt)) :
    e.post.verifier.protocol = e.pre.verifier.protocol
      ∧ e.post.verifier.domain_chain_id = e.pre.verifier.domain_chain_id := by
  rcases (config_move hv).verifier with hsame | ⟨ix, -, hok⟩
  · rw [hsame]
    exact ⟨rfl, rfl⟩
  -- all three instructions write the verifier, and each updates the record it found
  cases ix with
  | set_verifier_payment_method accounts payment_method enabled =>
    simp only [VerifierInstruction.execute, handle_set_verifier_payment_method, bind_eq_ok,
      pure_eq_ok] at hok
    obtain ⟨_, -, _, -, _, -, hpost⟩ := hok
    rw [← hpost]
    exact ⟨rfl, rfl⟩
  | set_verifier_witness accounts witness enabled =>
    simp only [VerifierInstruction.execute, handle_set_verifier_witness, bind_eq_ok,
      pure_eq_ok] at hok
    obtain ⟨_, -, _, -, _, -, hpost⟩ := hok
    rw [← hpost]
    exact ⟨rfl, rfl⟩
  | set_required_signatures accounts required =>
    simp only [VerifierInstruction.execute, handle_set_required_signatures, bind_eq_ok,
      pure_eq_ok] at hok
    obtain ⟨_, -, _, -, _, -, hpost⟩ := hok
    rw [← hpost]
    exact ⟨rfl, rfl⟩

theorem orchestrator_wiring_kept (hv : e.Valid (step rt)) :
    e.post.orchestrator.protocol = e.pre.orchestrator.protocol
      ∧ e.post.orchestrator.escrow_config = e.pre.orchestrator.escrow_config
      ∧ e.post.orchestrator.verifier_config = e.pre.orchestrator.verifier_config
      ∧ e.post.orchestrator.domain_chain_id = e.pre.orchestrator.domain_chain_id := by
  rcases (config_move hv).orchestrator with hsame | ⟨accounts, args, -, hok⟩
  · rw [hsame]
    exact ⟨rfl, rfl, rfl, rfl⟩
  · simp only [handle_configure_orchestrator, bind_eq_ok, pure_eq_ok] at hok
    obtain ⟨_, -, _, -, _, -, _, -, _, -, hpost⟩ := hok
    rw [← hpost]
    exact ⟨rfl, rfl, rfl, rfl⟩

theorem rate_manager_wiring_kept (hv : e.Valid (step rt)) :
    e.post.rate_manager_config.protocol = e.pre.rate_manager_config.protocol := by
  rcases (config_move hv).rate_managers with hsame | ⟨ix, -, hok⟩
  · rw [hsame]
  cases ix with
  | create_rate_manager accounts args =>
    simp only [RateManagerInstruction.execute, handle_create_rate_manager, bind_eq_ok,
      pure_eq_ok] at hok
    obtain ⟨_, -, _, -, _, -, _, -, _, -, _, -, _, -, _, -, _, -, _, -, hpost⟩ := hok
    rw [← hpost]
  | set_rate_manager_config accounts manager fee_recipient name uri =>
    simp only [RateManagerInstruction.execute, handle_set_rate_manager_config, bind_eq_ok,
      pure_eq_ok] at hok
    obtain ⟨_, -, _, -, _, -, _, -, _, -, _, -, hpost⟩ := hok
    rw [← hpost]
  | set_manager_fee accounts fee =>
    simp only [RateManagerInstruction.execute, handle_set_manager_fee, bind_eq_ok, pure_eq_ok] at hok
    obtain ⟨_, -, _, -, _, -, hpost⟩ := hok
    rw [← hpost]
  | set_manager_min_liquidity accounts min_liquidity =>
    simp only [RateManagerInstruction.execute, handle_set_manager_min_liquidity, bind_eq_ok,
      pure_eq_ok] at hok
    obtain ⟨_, -, hpost⟩ := hok
    rw [← hpost]
  | set_manager_rate accounts payment_method currency rate =>
    simp only [RateManagerInstruction.execute, handle_set_manager_rate, bind_eq_ok, pure_eq_ok] at hok
    obtain ⟨_, -, _, -, _, -, hpost⟩ := hok
    rw [← hpost]

theorem whitelist_wiring_kept (hv : e.Valid (step rt)) :
    e.post.whitelist_config.protocol = e.pre.whitelist_config.protocol := by
  rcases (policy_move hv).whitelists with hsame | ⟨ix, -, hok⟩
  · rw [hsame]
  cases whitelist_write hok with
  | opened _ _ _ _ _ _ _ records | configured _ _ _ _ _ _ _ _ _ records
  | accepted _ _ _ _ _ records | member _ _ _ _ _ _ records | self_member _ _ _ _ _ _ records
  | whitelist _ _ _ _ _ records | enabled _ _ _ _ _ _ records
  | allowed _ _ _ _ _ _ _ _ _ _ _ records | taker _ _ _ _ _ _ _ records => rw [records]

/-- The dispute account keeps its links; its pause flag is policy. -/
theorem dispute_config_kept (hv : e.Valid (step rt)) :
    e.post.dispute_config = { e.pre.dispute_config with
      admissions_paused := e.post.dispute_config.admissions_paused } := by
  rcases (policy_move hv).dispute with hsame | ⟨ix, -, hok⟩
  · rw [show e.post.dispute_config = e.pre.dispute_config from
      congrArg DisputePolicy.dispute_config hsame]
  cases ix with
  | set_risk_window accounts payment_method seconds =>
    simp only [DisputePolicyInstruction.execute, handle_set_risk_window, bind_eq_ok,
      pure_eq_ok] at hok
    obtain ⟨_, -, _, -, _, -, _, -, hpost⟩ := hok
    rw [← hpost]
  | set_dispute_admissions_paused accounts paused =>
    simp only [DisputePolicyInstruction.execute, handle_set_dispute_admissions_paused, bind_eq_ok,
      pure_eq_ok] at hok
    obtain ⟨_, -, _, -, hpost⟩ := hok
    rw [← hpost]
  | set_deposit_dispute_protection accounts enabled =>
    simp only [DisputePolicyInstruction.execute, handle_set_deposit_dispute_protection, bind_eq_ok,
      pure_eq_ok] at hok
    obtain ⟨_, -, hpost⟩ := hok
    rw [← hpost]

/-- No instruction rewires the deployment. -/
theorem wiring_kept (hv : e.Valid (step rt)) : e.post.wiring = e.pre.wiring := by
  obtain ⟨hescrow, hmint⟩ := escrow_wiring_kept hv
  obtain ⟨hverifier, hverifier_domain⟩ := verifier_wiring_kept hv
  obtain ⟨horchestrator, hlink, hlink', hdomain⟩ := orchestrator_wiring_kept hv
  obtain ⟨hvault, hstake_mint⟩ := (policy_move hv).stake_vault
  unfold State.wiring
  rw [protocol_kept hv, hescrow, hmint, hverifier, hverifier_domain, horchestrator, hlink, hlink',
    hdomain, hvault, hstake_mint, delay_kept hv, rate_manager_wiring_kept hv,
    whitelist_wiring_kept hv, dispute_config_kept hv]

end Step

/-- The wiring of every state of a run is the one it was deployed with. -/
theorem Run.wiring {rt : Runtime} {es : List Event} {s : State} (h : Run rt es s) :
    ∃ s₀, genesis rt s₀ ∧ ∀ t, TxMachine.Passes es s t → t.wiring = s₀.wiring := by
  refine TxMachine.Run.history (G := fun _ => True)
    (P := fun es s => ∃ s₀, genesis rt s₀ ∧ ∀ t, TxMachine.Passes es s t → t.wiring = s₀.wiring)
    ?_ ?_ h fun _ _ => trivial
  · intro s₀ h₀
    refine ⟨s₀, h₀, fun t ht => ?_⟩
    rcases ht with rfl | ⟨e, he, -⟩
    · rfl
    · cases he
  · rintro es e - hv ⟨s₀, h₀, hs⟩
    have hpre : e.pre.wiring = s₀.wiring := hs e.pre (.inl rfl)
    refine ⟨s₀, h₀, fun t ht => ?_⟩
    rcases ht with rfl | ⟨e', he', rfl⟩
    · exact (wiring_kept hv).trans hpre
    · rcases List.mem_append.mp he' with he' | he'
      · exact hs e'.pre (.inr ⟨e', he', rfl⟩)
      · rw [List.mem_singleton.mp he']
        exact hpre

/-! ## The configuration -/

/-- The account that must be the protocol authority, for the instructions of governance. -/
def Instruction.governor : Instruction → Option Pubkey
  | .verifier (.set_verifier_payment_method accounts _ _) => some accounts.authority
  | .verifier (.set_verifier_witness accounts _ _) => some accounts.authority
  | .verifier (.set_required_signatures accounts _) => some accounts.authority
  | .governance (.propose_protocol_authority accounts _) => some accounts.authority
  | .governance (.configure_orchestrator accounts _) => some accounts.authority
  | .governance (.configure_escrow accounts _) => some accounts.authority
  | .governance (.propose_stake_controller accounts _) => some accounts.authority
  | .dispute_policy (.set_dispute_admissions_paused accounts _) => some accounts.authority
  | _ => none

/-- The event is an act of governance, by whoever may make it at that moment. -/
inductive Governs (e : Event) : Prop
  | authority (ix : Instruction) (ix_eq : e.ix = .program ix)
      (signs : e.pre.protocol.authority.can_sign = true)
      (governor : ix.governor = some e.pre.protocol.authority)
  | accepts_authority (c : Pubkey) (accepts : AcceptsAuthority e c)
      (proposed : e.pre.protocol.pending_authority = some c)
  | accepts_controller (accounts : AcceptStakeController)
      (ix_eq : e.ix = .program (.governance (.accept_stake_controller accounts)))
      (signs : accounts.pending_controller.can_sign = true)
      (proposed : e.pre.stake_vault.pending_controller = some accounts.pending_controller)
      (matured : e.pre.stake_vault.pending_controller_valid_at ≤ e.ctx.now)

/-- The check every instruction of governance makes of its signer. -/
theorem Governs.of_authority {e : Event} {ix : Instruction} {authority : Pubkey}
    (hix : e.ix = .program ix) (hgovernor : ix.governor = some authority)
    (hsigns : authority.can_sign = true) (hauthority : authority = e.pre.protocol.authority) :
    Governs e := by
  subst hauthority
  exact .authority ix hix hsigns hgovernor

section Kept

variable {rt : Runtime} {e : Event}

/-- The protocol record changes by governance only. -/
theorem protocol_governed (hv : e.Valid (step rt)) :
    e.post.protocol = e.pre.protocol ∨ Governs e := by
  rcases (policy_move hv).protocol with hsame | ⟨accounts, _, hix, hok⟩ | ⟨accounts, hix, hok⟩
  · exact .inl hsame
  · obtain ⟨hsigns, hauthority, -⟩ := propose_protocol_authority_ok hok
    exact .inr (.of_authority hix rfl hsigns hauthority)
  · obtain ⟨hsigns, hpending, -⟩ := accept_protocol_authority_ok hok
    exact .inr (.accepts_authority _ ⟨accounts, hix, rfl, hsigns⟩ hpending)

theorem escrow_governed (hv : e.Valid (step rt)) :
    SameEscrowSettings e.pre.escrow_config e.post.escrow_config ∨ Governs e := by
  rcases (policy_move hv).escrow with hsame | ⟨accounts, args, hix, hok⟩
  · exact .inl hsame
  · simp only [handle_configure_escrow, bind_eq_ok, signer_eq_ok, require_eq_ok, exists_const] at hok
    obtain ⟨hsigns, hauthority, -⟩ := hok
    exact .inr (.of_authority hix rfl hsigns hauthority)

/-- The verifier is configured by the protocol authority of the moment. -/
theorem verifier_authority_ok {accounts : ConfigureVerifier} {protocol : ProtocolConfig}
    {verifier : VerifierConfig} {u : Unit} (h : verifier_authority accounts protocol verifier = .ok u) :
    accounts.authority.can_sign = true ∧ accounts.authority = protocol.authority := by
  simp only [verifier_authority, bind_eq_ok, signer_eq_ok, require_eq_ok, exists_const] at h
  exact ⟨h.1, h.2.1⟩

/-- The witness set changes by governance only. -/
theorem verifier_governed (hv : e.Valid (step rt)) :
    e.post.verifier = e.pre.verifier ∨ Governs e := by
  rcases (config_move hv).verifier with hsame | ⟨ix, hix, hok⟩
  · exact .inl hsame
  refine .inr ?_
  cases ix with
  | set_verifier_payment_method accounts payment_method enabled =>
    simp only [VerifierInstruction.execute, handle_set_verifier_payment_method, bind_eq_ok] at hok
    obtain ⟨_, hauthority, -⟩ := hok
    obtain ⟨hsigns, hauthority⟩ := verifier_authority_ok hauthority
    exact .of_authority hix rfl hsigns hauthority
  | set_verifier_witness accounts witness enabled =>
    simp only [VerifierInstruction.execute, handle_set_verifier_witness, bind_eq_ok] at hok
    obtain ⟨_, hauthority, -⟩ := hok
    obtain ⟨hsigns, hauthority⟩ := verifier_authority_ok hauthority
    exact .of_authority hix rfl hsigns hauthority
  | set_required_signatures accounts required =>
    simp only [VerifierInstruction.execute, handle_set_required_signatures, bind_eq_ok] at hok
    obtain ⟨_, hauthority, -⟩ := hok
    obtain ⟨hsigns, hauthority⟩ := verifier_authority_ok hauthority
    exact .of_authority hix rfl hsigns hauthority

/-- So do the orchestrator's settings. -/
theorem orchestrator_governed (hv : e.Valid (step rt)) :
    SameSettings e.pre.orchestrator e.post.orchestrator ∨ Governs e := by
  rcases (config_move hv).orchestrator with hsame | ⟨accounts, args, hix, hok⟩
  · exact .inl hsame
  · simp only [handle_configure_orchestrator, bind_eq_ok, signer_eq_ok, require_eq_ok,
      exists_const] at hok
    obtain ⟨hsigns, hauthority, -⟩ := hok
    exact .inr (.of_authority hix rfl hsigns hauthority)

/-- So does the handover of the vault; accepting it is the candidate's own part of it. -/
theorem handover_governed (hv : e.Valid (step rt)) :
    e.post.stake_vault.handover = e.pre.stake_vault.handover ∨ Governs e := by
  rcases (config_move hv).handover with hsame | ⟨accounts, _, hix, hok⟩ | ⟨accounts, hix, hok⟩
  · exact .inl hsame
  · obtain ⟨hsigns, hauthority, -⟩ := propose_stake_controller_ok hok
    exact .inr (.of_authority hix rfl hsigns hauthority)
  · obtain ⟨hsigns, hpending, hmature, -⟩ := accept_stake_controller_ok hok
    exact .inr (.accepts_controller accounts hix hsigns hpending hmature)

theorem admissions_governed (hv : e.Valid (step rt)) :
    e.post.dispute_config = e.pre.dispute_config ∨ Governs e := by
  rcases (policy_move hv).dispute with hsame | ⟨ix, hix, hok⟩
  · exact .inl (congrArg DisputePolicy.dispute_config hsame)
  cases ix with
  | set_risk_window accounts payment_method seconds =>
    simp only [DisputePolicyInstruction.execute, handle_set_risk_window, bind_eq_ok,
      pure_eq_ok] at hok
    obtain ⟨_, -, _, -, _, -, _, -, hpost⟩ := hok
    refine .inl ?_
    rw [← hpost]
  | set_dispute_admissions_paused accounts paused =>
    simp only [DisputePolicyInstruction.execute, handle_set_dispute_admissions_paused, bind_eq_ok,
      signer_eq_ok, require_eq_ok, exists_const] at hok
    obtain ⟨hsigns, hauthority, -⟩ := hok
    exact .inr (.of_authority hix rfl hsigns hauthority)
  | set_deposit_dispute_protection accounts enabled =>
    simp only [DisputePolicyInstruction.execute, handle_set_deposit_dispute_protection, bind_eq_ok,
      pure_eq_ok] at hok
    obtain ⟨_, -, hpost⟩ := hok
    refine .inl ?_
    rw [← hpost]

/-- What is not an act of governance leaves every fingerprinted field. -/
theorem configuration_kept (hv : e.Valid (step rt)) (hnot : ¬ Governs e) :
    e.post.configuration rt = e.pre.configuration rt := by
  have hprotocol := (protocol_governed hv).resolve_right hnot
  have hescrow := (escrow_governed hv).resolve_right hnot
  have hverifier := (verifier_governed hv).resolve_right hnot
  have horchestrator := (orchestrator_governed hv).resolve_right hnot
  have hhandover := (handover_governed hv).resolve_right hnot
  have hdispute := (admissions_governed hv).resolve_right hnot
  have hcontroller : e.post.stake_vault.controller = e.pre.stake_vault.controller :=
    congrArg Handover.controller hhandover
  have hpending : e.post.stake_vault.pending_controller = e.pre.stake_vault.pending_controller :=
    congrArg Handover.pending_controller hhandover
  have hdate : e.post.stake_vault.pending_controller_valid_at
      = e.pre.stake_vault.pending_controller_valid_at :=
    congrArg Handover.pending_controller_valid_at hhandover
  unfold State.configuration
  rw [hprotocol, hescrow, hverifier, horchestrator, hdispute, hcontroller, hpending, hdate,
    delay_kept hv]

end Kept

/-- The links of a deployment never change. Its configuration changes only by an act of governance,
and so is at every time what the last such act left, or what it was deployed with: the fingerprint of
an upgrade check stands still while the program runs. -/
theorem configuration_changes_are_governed {rt : Runtime} {es : List Event} {s : State}
    (h : Run rt es s) :
    (∃ s₀, genesis rt s₀ ∧ ∀ t, TxMachine.Passes es s t → t.wiring = s₀.wiring)
      ∧ (∀ e ∈ es, e.post.configuration rt ≠ e.pre.configuration rt → Governs e)
      ∧ ((∃ e, TxMachine.LastWith Governs es e ∧ s.configuration rt = e.post.configuration rt)
        ∨ ((∀ e ∈ es, ¬ Governs e)
          ∧ ∃ s₀, genesis rt s₀ ∧ s.configuration rt = s₀.configuration rt)) := by
  refine ⟨Run.wiring h, fun e he hchange => ?_, ?_⟩
  · by_contra hnot
    exact hchange (configuration_kept (h.valid e he) hnot)
  · exact TxMachine.Run.last_writer (G := fun _ => True)
      (fun _ _ hv hnot => configuration_kept hv hnot) h fun _ _ => trivial

/-- The proposal of a controller is the act of governance behind a changed fingerprint. -/
theorem configuration_changes_are_governed_proposed :
    ∃ es s e, Run sample_runtime es s ∧ e ∈ es
      ∧ e.post.stake_vault.pending_controller = some sample_successor
      ∧ e.post.configuration sample_runtime ≠ e.pre.configuration sample_runtime ∧ Governs e := by
  obtain ⟨es, s, hrun, hgood⟩ := sample_reaches [sample_setup, sample_propose]
    (fun es _ => es.any fun e => decide (e.post.stake_vault.pending_controller = some sample_successor
      ∧ e.post.configuration sample_runtime ≠ e.pre.configuration sample_runtime))
    (by decide +kernel)
  simp only [List.any_eq_true, decide_eq_true_eq] at hgood
  obtain ⟨e, he, hpost, hchange⟩ := hgood
  exact ⟨es, s, e, hrun, he, hpost, hchange,
    (configuration_changes_are_governed hrun).2.1 e he hchange⟩

end Zkp2pSolana
