/-
Who signs an instruction.

Every instruction of the program has exactly one `Signer` account, and every
handler asks for its signature before it does anything else. So the signer is a
function of the instruction, and an instruction that went through was signed by a
key that can sign: never by an address of the program, never by the zero key.
-/
import Zkp2pSolana.Program

set_option autoImplicit false

namespace Zkp2pSolana

open Result Zkp2pError

/-! ## The signer, group by group -/

def OpenInstruction.signer : OpenInstruction → Pubkey
  | .update_oracle_quote accounts _ _ _ => accounts.authority
  | .set_taker_authorization accounts _ => accounts.stake_owner
  | .select_stake_owner accounts => accounts.taker
  | .clear_stake_owner accounts => accounts.taker

def RateManagerInstruction.signer : RateManagerInstruction → Pubkey
  | .create_rate_manager accounts _ => accounts.payer
  | .set_rate_manager_config accounts _ _ _ _ => accounts.manager
  | .set_manager_fee accounts _ => accounts.manager
  | .set_manager_min_liquidity accounts _ => accounts.manager
  | .set_manager_rate accounts _ _ _ => accounts.manager

def WhitelistInstruction.signer : WhitelistInstruction → Pubkey
  | .create_address_group accounts _ _ => accounts.curator
  | .configure_address_group accounts _ _ _ => accounts.curator
  | .accept_group_curator accounts => accounts.pending_curator
  | .set_group_member accounts _ => accounts.curator
  | .set_self_group_member accounts _ => accounts.member_address
  | .initialize_deposit_whitelist accounts _ => accounts.authority
  | .set_whitelist_enabled accounts _ => accounts.authority
  | .set_deposit_allowed_group accounts _ _ => accounts.authority
  | .set_deposit_whitelist_member accounts _ _ => accounts.authority

def VerifierInstruction.signer : VerifierInstruction → Pubkey
  | .set_verifier_payment_method accounts _ _ => accounts.authority
  | .set_verifier_witness accounts _ _ => accounts.authority
  | .set_required_signatures accounts _ => accounts.authority

def GovernanceInstruction.signer : GovernanceInstruction → Pubkey
  | .propose_protocol_authority accounts _ => accounts.authority
  | .accept_protocol_authority accounts => accounts.pending_authority
  | .configure_orchestrator accounts _ => accounts.authority
  | .configure_escrow accounts _ => accounts.authority
  | .propose_stake_controller accounts _ => accounts.authority
  | .accept_stake_controller accounts => accounts.pending_controller

def DisputePolicyInstruction.signer : DisputePolicyInstruction → Pubkey
  | .set_risk_window accounts _ _ => accounts.authority
  | .set_dispute_admissions_paused accounts _ => accounts.authority
  | .set_deposit_dispute_protection accounts _ => accounts.authority

def DepositConfigInstruction.signer : DepositConfigInstruction → Pubkey
  | .update_deposit accounts _ => accounts.authority
  | .configure_payment_method accounts _ => accounts.authority
  | .configure_currency accounts _ => accounts.authority
  | .set_deposit_rate_manager accounts _ _ => accounts.authority
  | .extend_intent_expiry accounts _ => accounts.guardian

def CustodyInstruction.signer : CustodyInstruction → Pubkey
  | .create_deposit accounts _ => accounts.depositor
  | .add_funds accounts _ => accounts.funder
  | .remove_funds accounts _ => accounts.depositor
  | .withdraw_deposit accounts => accounts.depositor

def StakeInstruction.signer : StakeInstruction → Pubkey
  | .initialize_stake_token_vault accounts => accounts.payer
  | .deposit_stake accounts _ => accounts.owner
  | .withdraw_stake accounts _ => accounts.owner
  | .claim_stake accounts => accounts.beneficiary
  | .initialize_claim_balance accounts => accounts.payer
  | .controller_lock_stake accounts _ => accounts.controller
  | .controller_fund_lock accounts _ => accounts.controller
  | .increase_stake_lock accounts _ _ => accounts.controller
  | .resize_stake_lock accounts _ _ _ => accounts.controller
  | .controller_unlock_stake accounts _ => accounts.controller
  | .resolve_stake_lock accounts _ _ => accounts.controller

def Instruction.signer : Instruction → Pubkey
  | .open_records ix => ix.signer
  | .rate_managers ix => ix.signer
  | .whitelists ix => ix.signer
  | .verifier ix => ix.signer
  | .governance ix => ix.signer
  | .dispute_policy ix => ix.signer
  | .deposit_config ix => ix.signer
  | .custody ix => ix.signer
  | .stake ix => ix.signer
  | .signal_intent accounts _ => accounts.taker
  | .cancel_intent accounts => accounts.owner
  | .prune_expired_intent accounts => accounts.caller
  | .prepare_dispute accounts _ => accounts.taker
  | .cancel_dispute accounts => accounts.owner
  | .release_matured_dispute accounts => accounts.caller
  | .submit_dispute accounts _ => accounts.caller
  | .fulfill_intent accounts _ => accounts.caller
  | .manual_release accounts => accounts.depositor

/-- The event is an instruction of the program signed by `k`. -/
def SignedByKey (e : Event) (k : Pubkey) : Prop :=
  ∃ ix, e.ix = .program ix ∧ ix.signer = k ∧ k.can_sign = true

/-- The event is an instruction of the program signed by another key, as a check on logs. -/
def Event.unsigned_by (o : Pubkey) (e : Event) : Bool :=
  match e.ix with
  | .program ix => decide (ix.signer ≠ o)
  | _ => false

/-- The decidable form speaks about instructions of the program only. -/
theorem Event.program_of_unsigned {o : Pubkey} {e : Event} (h : Event.unsigned_by o e = true) :
    ∃ ix, e.ix = .program ix := by
  unfold Event.unsigned_by at h
  split at h
  · rename_i ix hix
    exact ⟨ix, hix⟩
  · cases h

theorem Event.not_signed {o : Pubkey} {e : Event} (h : Event.unsigned_by o e = true) :
    ¬ SignedByKey e o := by
  rintro ⟨ix, hix, hsigner, -⟩
  unfold Event.unsigned_by at h
  rw [hix] at h
  exact of_decide_eq_true h hsigner

/-! ## An instruction that went through was signed -/

/-- A block that asks for a signature first succeeds only with it. -/
theorem signed_of_ok {α : Type} {k : Pubkey} {rest : Unit → ProgramResult α} {a : α}
    (h : (signer k >>= rest) = .ok a) : k.can_sign = true := by
  obtain ⟨_, hsigns, -⟩ := bind_eq_ok.mp h
  exact signer_eq_ok.mp hsigns

/-- What a successful block returned from its first line. -/
theorem first_of_ok {α β : Type} {x : ProgramResult α} {rest : α → ProgramResult β} {b : β}
    (h : (x >>= rest) = .ok b) : ∃ a, x = .ok a := by
  obtain ⟨a, ha, -⟩ := bind_eq_ok.mp h
  exact ⟨a, ha⟩

/-- Whoever an open instruction names as its signer signed it. -/
theorem OpenInstruction.signed {ctx : TxContext} {ix : OpenInstruction} {r r' : OpenRecords}
    (h : ix.execute ctx r = .ok r') : ix.signer.can_sign = true := by
  cases ix with
  | update_oracle_quote accounts quote_id market_rate valid => exact signed_of_ok h
  | set_taker_authorization accounts authorized => exact signed_of_ok h
  | select_stake_owner accounts => exact signed_of_ok h
  | clear_stake_owner accounts => exact signed_of_ok h

theorem managed_rate_manager_signed {accounts : ManageRateManager} {r : RateManagerRecords}
    {m : RateManager} (h : managed_rate_manager accounts r = .ok m) :
    accounts.manager.can_sign = true := signed_of_ok h

theorem RateManagerInstruction.signed {rt : Runtime} {ix : RateManagerInstruction}
    {r r' : RateManagerRecords} (h : ix.execute rt r = .ok r') : ix.signer.can_sign = true := by
  cases ix with
  | create_rate_manager accounts args => exact signed_of_ok h
  | set_rate_manager_config accounts manager fee_recipient name uri =>
    obtain ⟨m, hm⟩ := first_of_ok h
    exact managed_rate_manager_signed hm
  | set_manager_fee accounts fee =>
    obtain ⟨m, hm⟩ := first_of_ok h
    exact managed_rate_manager_signed hm
  | set_manager_min_liquidity accounts min_liquidity =>
    obtain ⟨m, hm⟩ := first_of_ok h
    exact managed_rate_manager_signed hm
  | set_manager_rate accounts payment_method currency rate =>
    obtain ⟨m, hm⟩ := first_of_ok h
    exact managed_rate_manager_signed hm

theorem authorized_deposit_signed {accounts : DepositAuthority} {deposits : Accounts Deposit}
    {d : Deposit} (h : authorized_deposit accounts deposits = .ok d) :
    accounts.authority.can_sign = true := signed_of_ok h

theorem WhitelistInstruction.signed {rt : Runtime} {ctx : TxContext} {deposits : Accounts Deposit}
    {ix : WhitelistInstruction} {r r' : WhitelistRecords}
    (h : ix.execute rt ctx deposits r = .ok r') : ix.signer.can_sign = true := by
  cases ix with
  | create_address_group accounts name is_public => exact signed_of_ok h
  | configure_address_group accounts is_public resolver pending_curator => exact signed_of_ok h
  | accept_group_curator accounts => exact signed_of_ok h
  | set_group_member accounts active => exact signed_of_ok h
  | set_self_group_member accounts active => exact signed_of_ok h
  | initialize_deposit_whitelist accounts enabled =>
    obtain ⟨d, hd⟩ := first_of_ok h
    exact authorized_deposit_signed hd
  | set_whitelist_enabled accounts enabled =>
    obtain ⟨d, hd⟩ := first_of_ok h
    exact authorized_deposit_signed hd
  | set_deposit_allowed_group accounts group allowed =>
    obtain ⟨d, hd⟩ := first_of_ok h
    exact authorized_deposit_signed hd
  | set_deposit_whitelist_member accounts taker active =>
    obtain ⟨d, hd⟩ := first_of_ok h
    exact authorized_deposit_signed hd

/-- Configuring the verifier asks for the authority's signature. -/
theorem verifier_authority_signed {accounts : ConfigureVerifier} {protocol : ProtocolConfig}
    {verifier : VerifierConfig} {u : Unit}
    (h : verifier_authority accounts protocol verifier = .ok u) :
    accounts.authority.can_sign = true := signed_of_ok h

theorem VerifierInstruction.signed {protocol : ProtocolConfig} {v v' : VerifierConfig}
    {ix : VerifierInstruction} (h : ix.execute protocol v = .ok v') : ix.signer.can_sign = true := by
  cases ix with
  | set_verifier_payment_method accounts payment_method enabled =>
    obtain ⟨u, hu⟩ := first_of_ok h
    exact verifier_authority_signed hu
  | set_verifier_witness accounts witness enabled =>
    obtain ⟨u, hu⟩ := first_of_ok h
    exact verifier_authority_signed hu
  | set_required_signatures accounts required =>
    obtain ⟨u, hu⟩ := first_of_ok h
    exact verifier_authority_signed hu

/-- Whoever a governance instruction names signed it: the authority, or the candidate that
accepts. -/
theorem GovernanceInstruction.signed {ctx : TxContext} {ix : GovernanceInstruction} {s s' : State}
    (h : ix.execute ctx s = .ok s') : ix.signer.can_sign = true := by
  cases ix with
  | propose_protocol_authority accounts pending => exact signed_of_ok h
  | accept_protocol_authority accounts => exact signed_of_ok h
  | configure_orchestrator accounts args => exact signed_of_ok h
  | configure_escrow accounts args => exact signed_of_ok h
  | propose_stake_controller accounts pending => exact signed_of_ok h
  | accept_stake_controller accounts => exact signed_of_ok h

/-- Whoever a dispute-policy instruction names signed it. -/
theorem DisputePolicyInstruction.signed {protocol : ProtocolConfig} {deposits : Accounts Deposit}
    {ix : DisputePolicyInstruction} {r r' : DisputeRecords}
    (h : ix.execute protocol deposits r = .ok r') : ix.signer.can_sign = true := by
  cases ix with
  | set_risk_window accounts payment_method seconds => exact signed_of_ok h
  | set_dispute_admissions_paused accounts paused => exact signed_of_ok h
  | set_deposit_dispute_protection accounts enabled =>
    obtain ⟨d, hd⟩ := first_of_ok h
    exact authorized_deposit_signed hd

theorem configured_deposit_signed {accounts : ConfigureDeposit} {r : EscrowRecords} {d : Deposit}
    (h : configured_deposit accounts r = .ok d) : accounts.authority.can_sign = true :=
  signed_of_ok h

/-- Whoever a configuration instruction names signed it. -/
theorem DepositConfigInstruction.signed {managers : Accounts RateManager}
    {ix : DepositConfigInstruction} {r r' : EscrowRecords} (h : ix.execute managers r = .ok r') :
    ix.signer.can_sign = true := by
  cases ix with
  | update_deposit accounts args =>
    obtain ⟨d, hd⟩ := first_of_ok h
    exact configured_deposit_signed hd
  | configure_payment_method accounts args =>
    obtain ⟨d, hd⟩ := first_of_ok h
    exact configured_deposit_signed hd
  | configure_currency accounts args =>
    obtain ⟨d, hd⟩ := first_of_ok h
    exact configured_deposit_signed hd
  | set_deposit_rate_manager accounts rate_manager manager =>
    obtain ⟨d, hd⟩ := first_of_ok h
    exact configured_deposit_signed hd
  | extend_intent_expiry accounts additional_time => exact signed_of_ok h

theorem CustodyInstruction.signed {ix : CustodyInstruction} {r r' : EscrowRecords}
    {T T' : Accounts TokenAccount} (h : ix.execute r T = .ok (r', T')) :
    ix.signer.can_sign = true := by
  cases ix with
  | create_deposit accounts args => exact signed_of_ok h
  | add_funds accounts amount => exact signed_of_ok h
  | remove_funds accounts amount => exact signed_of_ok h
  | withdraw_deposit accounts => exact signed_of_ok h

/-- Managing a lock asks for the controller's signature. -/
theorem managed_stake_lock_signed {accounts : ManageStakeLock} {lock_id : Bytes 32}
    {r : StakeRecords} {x : StakeLock × StakePosition}
    (h : managed_stake_lock accounts lock_id r = .ok x) : accounts.controller.can_sign = true :=
  signed_of_ok h

theorem StakeInstruction.signed {ctx : TxContext} {ix : StakeInstruction} {r r' : StakeRecords}
    {T T' : Accounts TokenAccount} (h : ix.execute ctx r T = .ok (r', T')) :
    ix.signer.can_sign = true := by
  cases ix with
  | initialize_stake_token_vault accounts =>
    obtain ⟨T₁, hT₁⟩ := first_of_ok h
    exact signed_of_ok hT₁
  | deposit_stake accounts amount => exact signed_of_ok h
  | withdraw_stake accounts amount => exact signed_of_ok h
  | claim_stake accounts => exact signed_of_ok h
  | initialize_claim_balance accounts =>
    obtain ⟨r₁, hr₁⟩ := first_of_ok h
    exact signed_of_ok hr₁
  | controller_lock_stake accounts args =>
    obtain ⟨r₁, hr₁⟩ := first_of_ok h
    exact signed_of_ok hr₁
  | controller_fund_lock accounts args => exact signed_of_ok h
  | increase_stake_lock accounts lock_id additional_amount =>
    obtain ⟨r₁, hr₁⟩ := first_of_ok h
    obtain ⟨x, hx⟩ := first_of_ok hr₁
    exact managed_stake_lock_signed hx
  | resize_stake_lock accounts lock_id new_amount new_matures_at =>
    obtain ⟨r₁, hr₁⟩ := first_of_ok h
    obtain ⟨x, hx⟩ := first_of_ok hr₁
    exact managed_stake_lock_signed hx
  | controller_unlock_stake accounts lock_id =>
    obtain ⟨r₁, hr₁⟩ := first_of_ok h
    obtain ⟨x, hx⟩ := first_of_ok hr₁
    exact managed_stake_lock_signed hx
  | resolve_stake_lock accounts lock_id claims =>
    obtain ⟨r₁, hr₁⟩ := first_of_ok h
    exact signed_of_ok hr₁

/-- Every instruction that went through was signed by its signer. -/
theorem Instruction.signed {rt : Runtime} {ctx : TxContext} {before after : List TopLevel}
    {s s' : State} {ix : Instruction} (h : ix.execute rt ctx before after s = .ok s') :
    ix.signer.can_sign = true := by
  cases ix with
  | open_records ix =>
    obtain ⟨r, hr⟩ := first_of_ok h
    exact OpenInstruction.signed hr
  | rate_managers ix =>
    obtain ⟨r, hr⟩ := first_of_ok h
    exact RateManagerInstruction.signed hr
  | whitelists ix =>
    obtain ⟨r, hr⟩ := first_of_ok h
    exact WhitelistInstruction.signed hr
  | verifier ix =>
    obtain ⟨v, hv⟩ := first_of_ok h
    exact VerifierInstruction.signed hv
  | governance ix => exact GovernanceInstruction.signed h
  | dispute_policy ix =>
    obtain ⟨r, hr⟩ := first_of_ok h
    exact DisputePolicyInstruction.signed hr
  | deposit_config ix =>
    obtain ⟨r, hr⟩ := first_of_ok h
    exact DepositConfigInstruction.signed hr
  | custody ix =>
    obtain ⟨⟨r, T⟩, hr⟩ := first_of_ok h
    exact CustodyInstruction.signed hr
  | stake ix =>
    obtain ⟨⟨r, T⟩, hr⟩ := first_of_ok h
    exact StakeInstruction.signed hr
  | signal_intent accounts args => exact signed_of_ok h
  | cancel_intent accounts => exact signed_of_ok h
  | prune_expired_intent accounts => exact signed_of_ok h
  | prepare_dispute accounts args => exact signed_of_ok h
  | cancel_dispute accounts => exact signed_of_ok h
  | release_matured_dispute accounts => exact signed_of_ok h
  | submit_dispute accounts args => exact signed_of_ok h
  | fulfill_intent accounts args => exact signed_of_ok h
  | manual_release accounts => exact signed_of_ok h

/-- So every committed instruction of the program carries the signature of its signer. -/
theorem signed_by_signer {rt : Runtime} {e : Event} (hv : e.Valid (step rt)) {ix : Instruction}
    (hix : e.ix = .program ix) : SignedByKey e ix.signer := by
  have h : ix.execute rt e.ctx e.before e.after e.pre = .ok e.post := valid_execute hv hix
  exact ⟨ix, hix, rfl, Instruction.signed h⟩

end Zkp2pSolana
