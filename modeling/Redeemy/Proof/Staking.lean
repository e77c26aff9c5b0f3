import Redeemy.Model.RelayHub
import Redeemy.Proof.Solvency

/-!
# Stakes

`StakeStep` says everything a call can do to the stakes, the authorized hubs and the tokens. With it,
the stakes in a token are covered by what the stake manager holds of it.
-/

namespace Redeemy

open Fallible Handover

variable {d : Deployment} {sm sm' : StakeManager} {t t₁ t' : Tokens} {self sender src dst a : Address}
variable {token relayManager beneficiary τ : Address} {now amount n : Nat} {info : StakeInfo}
variable {s s' : Gsn} {o : Gsn × Option Rest} {x x' : StakeManager × Tokens}

/-! ### Token transfers -/

namespace Tokens

theorem safeTransfer_eq_ok (h : t.safeTransfer token src dst n = .ok t') :
    ∃ answer, t.erc20Transfer token src dst n = .ok (t', answer) := by
  simp only [safeTransfer, bind_eq_ok, require_eq_ok, pure_eq_ok] at h
  obtain ⟨⟨t₁, answer⟩, hcall, _, _, rfl⟩ := h
  exact ⟨answer, hcall⟩

theorem safeTransferFrom_eq_ok (h : t.safeTransferFrom token sender src dst n = .ok t') :
    ∃ answer, t.erc20TransferFrom token sender src dst n = .ok (t', answer) := by
  simp only [safeTransferFrom, bind_eq_ok, require_eq_ok, pure_eq_ok] at h
  obtain ⟨⟨t₁, answer⟩, hcall, _, _, rfl⟩ := h
  exact ⟨answer, hcall⟩

theorem answers_transfer {tok tok' : ERC20} (h : tok.transfer src dst n = .ok tok') :
    tok'.answers = tok.answers := by
  obtain ⟨_, rfl⟩ := ERC20.transfer_eq_ok h
  rfl

theorem guards_safeTransfer (hguards : t.Guards a) (h : t.safeTransfer token src dst n = .ok t') :
    t'.Guards a := by
  obtain ⟨answer, hcall⟩ := safeTransfer_eq_ok h
  exact (keeps_erc20Transfer hcall).guards hguards

theorem moving_safeTransfer (hmoving : t.Moving τ) (h : t.safeTransfer token src dst n = .ok t') :
    t'.Moving τ := by
  obtain ⟨answer, hcall⟩ := safeTransfer_eq_ok h
  exact (hmoving.call (fun _ _ => answers_transfer) hcall).1

theorem native_safeTransfer (h : t.safeTransfer token src dst n = .ok t') : t'.native = t.native := by
  obtain ⟨answer, hcall⟩ := safeTransfer_eq_ok h
  obtain ⟨_, _, _, _, rfl, _⟩ := erc20Call_eq_ok hcall
  rfl

theorem native_safeTransferFrom (h : t.safeTransferFrom token sender src dst n = .ok t') :
    t'.native = t.native := by
  obtain ⟨answer, hcall⟩ := safeTransferFrom_eq_ok h
  obtain ⟨_, _, _, _, rfl, _⟩ := erc20Call_eq_ok hcall
  rfl

theorem balanceOf_safeTransfer (h : t.safeTransfer token src dst n = .ok t') :
    t.balanceOf τ src ≤ t'.balanceOf τ src + if τ = token then n else 0 := by
  obtain ⟨answer, hcall⟩ := safeTransfer_eq_ok h
  have hheld := held_erc20Transfer (.ERC20, τ) hcall
  simpa only [held, Prod.mk.injEq, true_and] using hheld

theorem balanceOf_safeTransferFrom (hne : self ≠ src) (hmoving : t.Moving τ)
    (h : t.safeTransferFrom token self src self n = .ok t') :
    t.balanceOf τ self + (if τ = token then n else 0) ≤ t'.balanceOf τ self := by
  obtain ⟨answer, hcall⟩ := safeTransferFrom_eq_ok h
  have hmoves := (hmoving.call (fun _ _ => answers_transferFrom) hcall).2
  have hheld := held_erc20TransferFrom (.ERC20, τ) hne hcall fun heq => hmoves heq.symm
  simpa only [held, Prod.mk.injEq, true_and] using hheld

theorem balanceOf_le (hguards : t.Guards a) (h : Leaves a t t') :
    t.balanceOf τ a ≤ t'.balanceOf τ a :=
  held_le (.ERC20, τ) hguards h

/-- Tokens move, but nothing of `a`, and every token stays as honest as it was. -/
structure Foreign (a : Address) (t t' : Tokens) : Prop where
  leaves : Leaves a t t'
  moving : ∀ τ, t.Moving τ → t'.Moving τ

theorem foreign_send (ha : a ≠ src) {error : Revert} (h : t.send src dst n error = .ok t') :
    Foreign a t t' := by
  refine ⟨(spares_send (.inl ha) h).toLeaves, fun τ hmoving => ?_⟩
  obtain ⟨_, rfl⟩ := send_eq_ok h
  exact hmoving

end Tokens

/-! ### Steps -/

/-- The ways to take from a stake, or to let somebody take from it. -/
inductive StakeAct where
  | withdraw (relayManager : Address)
  | escheat (relayManager : Address)
  | penalize (relayManager relayHub : Address)
  | authorize (relayManager relayHub : Address)
  | other

/-- What a call does to the stakes. -/
inductive StakeStep (self : Address) (now : Nat) :
    StakeAct → StakeManager × Tokens → StakeManager × Tokens → Prop
  | settings {sm sm' : StakeManager} {t : Tokens} : sm'.stakes = sm.stakes →
      sm'.authorizedHubs = sm.authorizedHubs → StakeStep self now .other (sm, t) (sm', t)
  | owned {sm : StakeManager} {t : Tokens} (relayManager owner : Address) :
      (sm.stakes relayManager).owner = 0 → owner ≠ 0 →
      StakeStep self now .other (sm, t)
        (sm.setInfo relayManager { sm.stakes relayManager with owner }, t)
  | staked {sm : StakeManager} {t t' : Tokens} (relayManager sender token : Address)
      (unstakeDelay amount : Nat) : sender ≠ self →
      (sm.stakes relayManager).owner = sender →
      (sm.stakes relayManager).unstakeDelay ≤ unstakeDelay → token ≠ 0 →
      ((sm.stakes relayManager).token = 0 ∨ (sm.stakes relayManager).token = token) →
      t.safeTransferFrom token self sender self amount = .ok t' →
      StakeStep self now .other (sm, t) (sm.setInfo relayManager { sm.stakes relayManager with
        token, stake := (sm.stakes relayManager).stake + amount, unstakeDelay }, t')
  | unlocked {sm : StakeManager} {t : Tokens} (relayManager : Address) :
      (sm.stakes relayManager).withdrawTime = 0 →
      StakeStep self now .other (sm, t) (sm.setInfo relayManager { sm.stakes relayManager with
        withdrawTime := now + (sm.stakes relayManager).unstakeDelay }, t)
  | withdrawn {sm : StakeManager} {t t' : Tokens} (relayManager : Address) :
      0 < (sm.stakes relayManager).withdrawTime → (sm.stakes relayManager).withdrawTime ≤ now →
      t.safeTransfer (sm.stakes relayManager).token self (sm.stakes relayManager).owner
        (sm.stakes relayManager).stake = .ok t' →
      StakeStep self now (.withdraw relayManager) (sm, t)
        (sm.setInfo relayManager { sm.stakes relayManager with stake := 0, withdrawTime := 0 }, t')
  | authorized {sm : StakeManager} {t : Tokens} (relayManager relayHub : Address) :
      StakeStep self now (.authorize relayManager relayHub) (sm, t)
        (sm.authorizeHub relayManager relayHub, t)
  | unauthorized {sm : StakeManager} {t : Tokens} (relayManager relayHub : Address) :
      sm.authorizedHubs relayManager relayHub = NEVER →
      StakeStep self now .other (sm, t) (sm.setRemovalTime relayManager relayHub
        (now + (sm.stakes relayManager).unstakeDelay), t)
  | penalized {sm : StakeManager} {t t₁ t' : Tokens} (relayManager relayHub beneficiary : Address)
      (amount : Nat) : now < sm.authorizedHubs relayManager relayHub →
      amount ≤ (sm.stakes relayManager).stake →
      t.safeTransfer (sm.stakes relayManager).token self sm.burnAddress (amount / 2) = .ok t₁ →
      t₁.safeTransfer (sm.stakes relayManager).token self beneficiary (amount - amount / 2) =
        .ok t' →
      StakeStep self now (.penalize relayManager relayHub) (sm, t)
        (sm.setInfo relayManager { sm.stakes relayManager with
          stake := (sm.stakes relayManager).stake - amount }, t')
  | seen {sm : StakeManager} {t : Tokens} (relayManager : Address)
      (abandonedTime keepaliveTime : Nat) :
      StakeStep self now .other (sm, t) (sm.setInfo relayManager { sm.stakes relayManager with
        abandonedTime, keepaliveTime }, t)
  | escheated {sm : StakeManager} {t t' : Tokens} (relayManager : Address) :
      (sm.stakes relayManager).abandonedTime ≠ 0 →
      (sm.stakes relayManager).abandonedTime + sm.escheatmentDelay < now →
      t.safeTransfer (sm.stakes relayManager).token self sm.devAddress
        (sm.stakes relayManager).stake = .ok t' →
      StakeStep self now (.escheat relayManager) (sm, t)
        (sm.setInfo relayManager { sm.stakes relayManager with stake := 0, withdrawTime := 0 }, t')

theorem StakeStep.native {act : StakeAct} (h : StakeStep self now act x x') :
    x'.2.native = x.2.native := by
  cases h with
  | settings => rfl
  | owned => rfl
  | staked _ _ _ _ _ _ _ _ _ _ hpull => exact Tokens.native_safeTransferFrom hpull
  | unlocked => rfl
  | withdrawn _ _ _ hpay => exact Tokens.native_safeTransfer hpay
  | authorized => rfl
  | unauthorized => rfl
  | penalized _ _ _ _ _ _ hburn hreward =>
    exact (Tokens.native_safeTransfer hreward).trans (Tokens.native_safeTransfer hburn)
  | seen => rfl
  | escheated _ _ _ hpay => exact Tokens.native_safeTransfer hpay

theorem isRelayEscheatable_eq_ok (h : sm.isRelayEscheatable now relayManager = .ok true) :
    (sm.stakes relayManager).abandonedTime ≠ 0 ∧
      (sm.stakes relayManager).abandonedTime + sm.escheatmentDelay < now := by
  unfold StakeManager.isRelayEscheatable at h
  dsimp only at h
  split_ifs at h with habandoned
  · simp only [bind_eq_ok, checkedAdd_eq_ok, pure_eq_ok, decide_eq_true_eq] at h
    obtain ⟨_, ⟨_, rfl⟩, hdue⟩ := h
    exact ⟨habandoned, hdue⟩
  · cases pure_eq_ok.mp h

theorem penalizeRelayManager_step
    (h : sm.penalizeRelayManager t self now sender relayManager beneficiary amount =
      .ok (sm', t')) : StakeStep self now (.penalize relayManager sender) (sm, t) (sm', t') := by
  simp only [StakeManager.penalizeRelayManager, bind_eq_ok, require_eq_ok, pure_eq_ok,
    Prod.mk.injEq] at h
  obtain ⟨_, _, _, htimely, _, hstake, t₁, hburn, t₂, hreward, rfl, rfl⟩ := h
  exact .penalized relayManager sender beneficiary amount htimely hstake hburn hreward

theorem updateRelayKeepaliveTime_step
    (h : sm.updateRelayKeepaliveTime now sender relayManager = .ok sm') :
    StakeStep self now .other (sm, t) (sm', t) := by
  simp only [StakeManager.updateRelayKeepaliveTime, bind_eq_ok, require_eq_ok, pure_eq_ok] at h
  obtain ⟨_, _, rfl⟩ := h
  exact .seen relayManager 0 now

theorem unauthorizeHub_step (h : sm.unauthorizeHub now relayManager a = .ok sm') :
    StakeStep self now .other (sm, t) (sm', t) := by
  simp only [StakeManager.unauthorizeHub, bind_eq_ok, require_eq_ok, checkedAdd_eq_ok,
    pure_eq_ok] at h
  obtain ⟨_, hauthorized, _, ⟨_, rfl⟩, rfl⟩ := h
  exact .unauthorized relayManager a hauthorized

theorem quietly_eq_ok {r : Result StakeManager} (h : StakeManager.quietly t r = .ok (sm', t')) :
    r = .ok sm' ∧ t' = t := by
  simp only [StakeManager.quietly, bind_eq_ok, pure_eq_ok, Prod.mk.injEq] at h
  obtain ⟨_, hr, rfl, rfl⟩ := h
  exact ⟨hr, rfl⟩

/-- What a call by `sender` does to a stake. -/
def StakeCall.act (sender : Address) : StakeCall → StakeAct
  | .withdrawStake relayManager => .withdraw relayManager
  | .escheatAbandonedRelayStake relayManager => .escheat relayManager
  | .penalizeRelayManager relayManager _ _ => .penalize relayManager sender
  | .authorizeHubByOwner relayManager relayHub => .authorize relayManager relayHub
  | .authorizeHubByManager relayHub => .authorize sender relayHub
  | _ => .other

theorem stakeCall_step {c : StakeCall} (hsender : sender ≠ self)
    (h : sm.call t self now sender c = .ok (sm', t')) :
    StakeStep self now (c.act sender) (sm, t) (sm', t') := by
  cases c with
  | setRelayManagerOwner owner =>
    obtain ⟨hr, rfl⟩ := quietly_eq_ok h
    simp only [StakeManager.setRelayManagerOwner, bind_eq_ok, require_eq_ok, pure_eq_ok] at hr
    obtain ⟨_, howner, _, hunowned, rfl⟩ := hr
    exact .owned sender owner hunowned howner
  | stakeForRelayManager token relayManager unstakeDelay amount =>
    simp only [StakeManager.call, StakeManager.stakeForRelayManager, StakeManager.relayOwnerOnly,
      bind_eq_ok, require_eq_ok, checkedAdd_eq_ok, pure_eq_ok, Prod.mk.injEq] at h
    obtain ⟨_, howner, _, hdelay, _, _, _, htoken, _, hsame, t₁, hpull, _, ⟨_, rfl⟩, rfl, rfl⟩ := h
    exact .staked relayManager sender token unstakeDelay amount hsender howner hdelay htoken hsame
      hpull
  | unlockStake relayManager =>
    obtain ⟨hr, rfl⟩ := quietly_eq_ok h
    simp only [StakeManager.unlockStake, StakeManager.relayOwnerOnly, bind_eq_ok, require_eq_ok,
      checkedAdd_eq_ok, pure_eq_ok] at hr
    obtain ⟨_, _, _, hpending, _, ⟨_, rfl⟩, rfl⟩ := hr
    exact .unlocked relayManager hpending
  | withdrawStake relayManager =>
    simp only [StakeManager.call, StakeManager.withdrawStake, StakeManager.relayOwnerOnly,
      bind_eq_ok, require_eq_ok, pure_eq_ok, Prod.mk.injEq] at h
    obtain ⟨_, rfl, _, hscheduled, _, hdue, t₁, hpay, rfl, rfl⟩ := h
    exact .withdrawn relayManager hscheduled hdue hpay
  | authorizeHubByOwner relayManager relayHub =>
    obtain ⟨hr, rfl⟩ := quietly_eq_ok h
    simp only [StakeManager.authorizeHubByOwner, StakeManager.relayOwnerOnly, bind_eq_ok,
      require_eq_ok, pure_eq_ok] at hr
    obtain ⟨_, _, rfl⟩ := hr
    exact .authorized relayManager relayHub
  | authorizeHubByManager relayHub =>
    obtain ⟨hr, rfl⟩ := quietly_eq_ok h
    simp only [StakeManager.authorizeHubByManager, StakeManager.managerOnly, bind_eq_ok,
      require_eq_ok, pure_eq_ok] at hr
    obtain ⟨_, _, rfl⟩ := hr
    exact .authorized sender relayHub
  | unauthorizeHubByOwner relayManager relayHub =>
    obtain ⟨hr, rfl⟩ := quietly_eq_ok h
    simp only [StakeManager.unauthorizeHubByOwner, bind_eq_ok] at hr
    obtain ⟨_, _, hr⟩ := hr
    exact unauthorizeHub_step hr
  | unauthorizeHubByManager relayHub =>
    obtain ⟨hr, rfl⟩ := quietly_eq_ok h
    simp only [StakeManager.unauthorizeHubByManager, bind_eq_ok] at hr
    obtain ⟨_, _, hr⟩ := hr
    exact unauthorizeHub_step hr
  | penalizeRelayManager relayManager beneficiary amount => exact penalizeRelayManager_step h
  | markRelayAbandoned relayManager =>
    obtain ⟨hr, rfl⟩ := quietly_eq_ok h
    simp only [StakeManager.markRelayAbandoned, StakeManager.onlyOwner, bind_eq_ok, require_eq_ok,
      pure_eq_ok] at hr
    obtain ⟨_, _, _, _, _, _, _, _, _, _, rfl⟩ := hr
    exact .seen relayManager now (sm.stakes relayManager).keepaliveTime
  | escheatAbandonedRelayStake relayManager =>
    simp only [StakeManager.call, StakeManager.escheatAbandonedRelayStake, StakeManager.onlyOwner,
      bind_eq_ok, require_eq_ok, pure_eq_ok, Prod.mk.injEq] at h
    obtain ⟨_, _, _, hescheatable, _, rfl, t₁, hpay, rfl, rfl⟩ := h
    obtain ⟨habandoned, hdue⟩ := isRelayEscheatable_eq_ok hescheatable
    exact .escheated relayManager habandoned hdue hpay
  | updateRelayKeepaliveTime relayManager =>
    obtain ⟨hr, rfl⟩ := quietly_eq_ok h
    exact updateRelayKeepaliveTime_step hr
  | setBurnAddress burnAddress =>
    obtain ⟨hr, rfl⟩ := quietly_eq_ok h
    simp only [StakeManager.setBurnAddress, StakeManager.onlyOwner, bind_eq_ok, require_eq_ok,
      pure_eq_ok] at hr
    obtain ⟨_, _, rfl⟩ := hr
    exact .settings rfl rfl
  | setDevAddress devAddress =>
    obtain ⟨hr, rfl⟩ := quietly_eq_ok h
    simp only [StakeManager.setDevAddress, StakeManager.onlyOwner, bind_eq_ok, require_eq_ok,
      pure_eq_ok] at hr
    obtain ⟨_, _, rfl⟩ := hr
    exact .settings rfl rfl
  | transferOwnership owner =>
    simp only [StakeManager.call, StakeManager.onlyOwner, bind_eq_ok, require_eq_ok, pure_eq_ok,
      Prod.mk.injEq] at h
    obtain ⟨_, _, _, _, rfl, rfl⟩ := h
    exact .settings rfl rfl
  | renounceOwnership =>
    simp only [StakeManager.call, StakeManager.onlyOwner, bind_eq_ok, require_eq_ok, pure_eq_ok,
      Prod.mk.injEq] at h
    obtain ⟨_, _, rfl, rfl⟩ := h
    exact .settings rfl rfl

end Redeemy
