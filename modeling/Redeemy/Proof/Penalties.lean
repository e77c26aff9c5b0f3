import Redeemy.Proof.Stakes
import Redeemy.Proof.Workers

/-!
# The time for a penalty

A relay call is only accepted from a manager whose stake can still be taken away for its unstake delay
(`verifyRelayManagerStaked`). `Held` is why: an unlocked stake is not due, and a hub that is removed
stays authorized, before that time has passed.
-/

namespace Redeemy

open Fallible Handover Gsn

variable {d : Deployment} {sm sm' : StakeManager} {t t' : Tokens} {self m τ hub : Address}
variable {now since delay : Nat} {info : StakeInfo} {s s' : Gsn} {c c' : Config Gsn Rest}

/-- The stake of `m` in `τ` is held from the time `since` on, for `delay`. -/
structure Held (hub m τ : Address) (since delay now : Nat) (sm : StakeManager) : Prop where
  token : (sm.stakes m).token = τ
  delayed : delay ≤ (sm.stakes m).unstakeDelay
  notDue : now < since + delay →
    (sm.stakes m).withdrawTime = 0 ∨ since + delay ≤ (sm.stakes m).withdrawTime
  authorized : sm.authorizedHubs m hub = NEVER ∨ since + delay ≤ sm.authorizedHubs m hub

theorem Held.setInfo {m' : Address} (h : Held hub m τ since delay now sm)
    (hinfo : m' = m → info.token = τ ∧ delay ≤ info.unstakeDelay ∧
      (now < since + delay → info.withdrawTime = 0 ∨ since + delay ≤ info.withdrawTime)) :
    Held hub m τ since delay now (sm.setInfo m' info) := by
  by_cases heq : m' = m
  · subst heq
    obtain ⟨htoken, hdelay, hdue⟩ := hinfo rfl
    have hself : (sm.setInfo m' info).stakes m' = info := Function.update_self ..
    exact ⟨by rw [hself]; exact htoken, by rw [hself]; exact hdelay, by rw [hself]; exact hdue,
      h.authorized⟩
  · have hother : (sm.setInfo m' info).stakes m = sm.stakes m :=
      Function.update_of_ne (Ne.symm heq) _ _
    exact ⟨by rw [hother]; exact h.token, by rw [hother]; exact h.delayed,
      by rw [hother]; exact h.notDue, h.authorized⟩

theorem Held.setRemovalTime {m' hub' : Address} {removalTime : Nat}
    (h : Held hub m τ since delay now sm)
    (htime : m' = m → removalTime = NEVER ∨ since + delay ≤ removalTime) :
    Held hub m τ since delay now (sm.setRemovalTime m' hub' removalTime) := by
  refine ⟨h.token, h.delayed, h.notDue, ?_⟩
  unfold StakeManager.setRemovalTime
  dsimp only
  by_cases hm : m = m'
  · subst hm
    rw [Function.update_self]
    by_cases hhub : hub = hub'
    · subst hhub
      rw [Function.update_self]
      exact htime rfl
    · rw [Function.update_of_ne hhub]
      exact h.authorized
  · rw [Function.update_of_ne hm]
    exact h.authorized

theorem Held.step {act : StakeAct} {x x' : StakeManager × Tokens} (hτ : τ ≠ 0)
    (h : Held hub m τ since delay now x.1) (hsince : since ≤ now)
    (hstep : StakeStep self now act x x') : Held hub m τ since delay now x'.1 := by
  cases hstep with
  | settings hstakes hhubs =>
    exact ⟨by rw [hstakes]; exact h.token, by rw [hstakes]; exact h.delayed,
      by rw [hstakes]; exact h.notDue, by rw [hhubs]; exact h.authorized⟩
  | owned | seen =>
    refine h.setInfo ?_
    rintro rfl
    exact ⟨h.token, h.delayed, h.notDue⟩
  | staked m' sender token unstakeDelay amount _ _ hdelay _ hsame =>
    refine h.setInfo ?_
    rintro rfl
    refine ⟨?_, h.delayed.trans hdelay, h.notDue⟩
    -- the token of a stake stays what it is
    have htoken := h.token
    rcases hsame with hnone | hsame
    · exact absurd (htoken.symm.trans hnone) hτ
    · exact hsame.symm.trans htoken
  | unlocked m' =>
    refine h.setInfo ?_
    rintro rfl
    exact ⟨h.token, h.delayed, fun _ => .inr (Nat.add_le_add hsince h.delayed)⟩
  | withdrawn m' | escheated m' =>
    refine h.setInfo ?_
    rintro rfl
    exact ⟨h.token, h.delayed, fun _ => .inl rfl⟩
  | authorized m' hub' => exact h.setRemovalTime fun _ => .inl rfl
  | unauthorized m' hub' =>
    refine h.setRemovalTime ?_
    rintro rfl
    exact .inr (Nat.add_le_add hsince h.delayed)
  | penalized m' =>
    refine h.setInfo ?_
    rintro rfl
    exact ⟨h.token, h.delayed, h.notDue⟩

/-- The stake is held since a time that has come. -/
structure HeldSince (d : Deployment) (m τ : Address) (since delay : Nat) (s : Gsn) : Prop where
  past : since ≤ s.timestamp
  bounded : s.timestamp < 2 ^ 64
  held : Held d.hub m τ since delay s.timestamp s.stakeManager

theorem heldSince_rule (hτ : τ ≠ 0) :
    GsnRule d (fun _ => True) fun _ s => HeldSince d m τ since delay s :=
  .ofStep
    (fun hs hstep => by
      cases hstep with
      | mined timestamp hle hbounded =>
        refine ⟨hs.past.trans hle, hbounded, ?_⟩
        exact { hs.held with notDue := fun hbefore => hs.held.notDue (hle.trans_lt hbefore) }
      | staking _ _ hstake => exact ⟨hs.past, hs.bounded, hs.held.step hτ hs.past hstake⟩
      | moved | logged | deposited | committed | revealed => exact ⟨hs.past, hs.bounded, hs.held⟩)
    (fun hs hpays => by
      obtain ⟨_, tokens, _, rfl⟩ := hpays
      exact ⟨hs.past, hs.bounded, hs.held⟩)
    fun hs => ⟨hs.past, hs.bounded, hs.held⟩

/-- The time always fits. -/
theorem bounded_rule : GsnRule d (fun _ => True) fun _ s => s.timestamp < 2 ^ 64 :=
  .ofStep
    (fun hs hstep => by
      cases hstep with
      | mined _ _ hbounded => exact hbounded
      | _ => exact hs)
    (fun hs hpays => by
      obtain ⟨_, tokens, _, rfl⟩ := hpays
      exact hs)
    fun hs => hs

theorem heldSince_of_verify (hbounded : s.timestamp < 2 ^ 64)
    (hverify : s.verifyRelayManagerStaked d m = .ok ()) :
    (s.stakeManager.stakes m).token ≠ 0 ∧ HeldSince d m (s.stakeManager.stakes m).token s.timestamp
      (s.stakeManager.stakes m).unstakeDelay s := by
  unfold Gsn.verifyRelayManagerStaked StakeManager.getStakeInfo at hverify
  dsimp only at hverify
  simp only [bind_eq_ok, require_eq_ok, decide_eq_true_eq] at hverify
  obtain ⟨_, htoken, _, _, _, _, _, _, _, hunlocked, hhub⟩ := hverify
  exact ⟨htoken, Nat.le_refl _, hbounded, rfl, Nat.le_refl _, fun _ => .inl hunlocked, .inl hhub⟩

/-! ### The penalty -/

theorem Held.withdrawStake_fails (t : Tokens) (self sender : Address)
    (h : Held hub m τ since delay now sm)
    (hnow : now < since + delay) : ∃ error, sm.withdrawStake t self now sender m = .error error := by
  cases hwithdraw : sm.withdrawStake t self now sender m with
  | error error => exact ⟨error, rfl⟩
  | ok x =>
    simp only [StakeManager.withdrawStake, bind_eq_ok, require_eq_ok] at hwithdraw
    obtain ⟨_, _, _, hscheduled, _, hdue, _⟩ := hwithdraw
    rcases h.notDue hnow with hnone | hlater
    · omega
    · omega

theorem Held.penalize_succeeds (beneficiary : Address) {amount : Nat}
    (h : Held hub m τ since delay now sm) (hnow : now < since + delay) (hbounded : now < 2 ^ 64)
    (hamount : amount ≤ (sm.stakes m).stake) (hsends : t.Sends τ self)
    (hcovered : (sm.stakes m).stake ≤ t.balanceOf τ self) : ∃ t',
    sm.penalizeRelayManager t self now hub m beneficiary amount =
      .ok (sm.setInfo m { sm.stakes m with stake := (sm.stakes m).stake - amount }, t') ∧
    t'.balanceOf τ = Ledger.move (Ledger.move (t.balanceOf τ) self sm.burnAddress (amount / 2)) self
      beneficiary (amount - amount / 2) := by
  have hnever : (2 : Nat) ^ 64 < NEVER := by decide
  have htimely : now < sm.authorizedHubs m hub := by
    rcases h.authorized with hnone | hlater <;> omega
  have hburnable : amount / 2 ≤ t.balanceOf τ self := by omega
  obtain ⟨t₁, hburn, hsends₁, hburned⟩ :=
    Tokens.safeTransfer_succeeds sm.burnAddress hsends hburnable
  have hleft : amount - amount / 2 ≤ t₁.balanceOf τ self := by
    rw [hburned]
    refine le_trans ?_ Ledger.sub_le_move
    omega
  obtain ⟨t', hreward, _, hrewarded⟩ := Tokens.safeTransfer_succeeds beneficiary hsends₁ hleft
  refine ⟨t', ?_, by rw [hrewarded, hburned]⟩
  simp only [StakeManager.penalizeRelayManager, bind_eq_ok, require_eq_ok, pure_eq_ok, h.token]
  exact ⟨(), Nat.ne_of_gt (Nat.zero_lt_of_lt htimely), (), htimely, (), hamount, t₁, hburn, t',
    hreward, rfl⟩

/-- The penalizer can take the whole stake. -/
theorem HeldSince.penalize_succeeds {worker : Address} (beneficiary : Address)
    (h : HeldSince d m τ since delay s) (hnow : s.timestamp < since + delay) (hm : m ≠ 0)
    (hmanager : s.hub.workerToManager worker = m) (hstake : 0 < (s.stakeManager.stakes m).stake)
    (hsends : s.tokens.Sends τ d.stakeManager)
    (hstaked : Staked d.stakeManager τ (s.stakeManager, s.tokens)) : ∃ s',
    s.penalize d d.penalizer worker beneficiary = .ok s' ∧
    (s'.stakeManager.stakes m).stake = 0 ∧
    s'.tokens.balanceOf τ = Ledger.move (Ledger.move (s.tokens.balanceOf τ) d.stakeManager
      s.stakeManager.burnAddress ((s.stakeManager.stakes m).stake / 2)) d.stakeManager beneficiary
      ((s.stakeManager.stakes m).stake - (s.stakeManager.stakes m).stake / 2) := by
  have hone : (s.stakeManager.stakes m).stake ≤ s.stakeManager.staked τ := by
    rw [← countsFor_of_token h.held.token]
    exact Ledger.le_sum (l := fun a => (s.stakeManager.stakes a).countsFor _)
  obtain ⟨tokens, hpenalize, hmoved⟩ := h.held.penalize_succeeds beneficiary hnow h.bounded
    (Nat.le_refl _) hsends (hone.trans hstaked.covered)
  refine ⟨{ s with
    stakeManager := s.stakeManager.setInfo m { s.stakeManager.stakes m with
      stake := (s.stakeManager.stakes m).stake - (s.stakeManager.stakes m).stake }
    tokens }, ?_, ?_, hmoved⟩
  · unfold Gsn.penalize StakeManager.getStakeInfo
    dsimp only
    simp only [hmanager, bind_eq_ok, require_eq_ok, pure_eq_ok]
    exact ⟨(), trivial, (), hm, (), hstake, _, hpenalize, rfl⟩
  · simp [StakeManager.setInfo]

end Redeemy
