import Redeemy.Proof.HubLedger

/-!
# The stakes

In every configuration the stake manager has, of every token that moves what it is asked to move, what
is staked in it. So whoever takes a stake in a token that follows the standard gets it.
-/

namespace Redeemy

open Fallible Handover Gsn

variable {d : Deployment} {sm sm' : StakeManager} {t t' : Tokens} {self src dst m τ : Address}
variable {now amount : Nat} {info : StakeInfo} {s s' : Gsn} {c : Config Gsn Rest}
variable {account dest : Address} {x x' : StakeManager × Tokens}

/-- What a stake counts for in the token `τ`. -/
def StakeInfo.countsFor (τ : Address) (info : StakeInfo) : Nat := if info.token = τ then info.stake else 0

/-- All that is staked in the token `τ`. -/
def StakeManager.staked (sm : StakeManager) (τ : Address) : Nat := ∑ m, (sm.stakes m).countsFor τ

variable (sm m info τ) in
theorem staked_setInfo : (sm.setInfo m info).staked τ + (sm.stakes m).countsFor τ =
    sm.staked τ + info.countsFor τ := by
  have hupdate : (fun a => ((sm.setInfo m info).stakes a).countsFor τ) =
      Function.update (fun a => (sm.stakes a).countsFor τ) m (info.countsFor τ) := by
    funext a
    by_cases ha : a = m
    · subst ha
      simp [StakeManager.setInfo]
    · simp [StakeManager.setInfo, ha]
  unfold StakeManager.staked
  rw [hupdate]
  exact Ledger.sum_update

theorem countsFor_of_token (h : info.token = τ) : info.countsFor τ = info.stake := if_pos h

theorem countsFor_of_ne (h : info.token ≠ τ) : info.countsFor τ = 0 := if_neg h

theorem countsFor_zero (h : info.stake = 0) : info.countsFor τ = 0 := by
  unfold StakeInfo.countsFor
  split_ifs
  · exact h
  · rfl

/-- The stakes in `τ` are there. -/
structure Staked (a τ : Address) (x : StakeManager × Tokens) : Prop where
  guards : x.2.Guards a
  moving : x.2.Moving τ
  covered : x.1.staked τ ≤ x.2.balanceOf τ a
  bare : ∀ m, (x.1.stakes m).token = 0 → (x.1.stakes m).stake = 0

theorem bare_setInfo (hbare : ∀ m, (sm.stakes m).token = 0 → (sm.stakes m).stake = 0)
    (hinfo : info.token = 0 → info.stake = 0) (a : Address)
    (ha : ((sm.setInfo m info).stakes a).token = 0) : ((sm.setInfo m info).stakes a).stake = 0 := by
  by_cases heq : a = m
  · subst heq
    simp only [StakeManager.setInfo, Function.update_self] at ha ⊢
    exact hinfo ha
  · simp only [StakeManager.setInfo, Function.update_of_ne heq] at ha ⊢
    exact hbare a ha

/-- A change of something other than the stake. -/
theorem Staked.setInfo (h : Staked self τ (sm, t)) (htoken : info.token = (sm.stakes m).token)
    (hstake : info.stake = (sm.stakes m).stake) : Staked self τ (sm.setInfo m info, t) := by
  refine ⟨h.guards, h.moving, ?_, bare_setInfo h.bare ?_⟩
  · have hsum := staked_setInfo sm m τ info
    have hcounts : info.countsFor τ = (sm.stakes m).countsFor τ := by
      unfold StakeInfo.countsFor
      rw [htoken, hstake]
    have hcovered := h.covered
    dsimp only at hcovered ⊢
    omega
  · rw [htoken, hstake]
    exact h.bare m

/-- Part of a stake is paid out. -/
theorem Staked.paidOut (h : Staked self τ (sm, t)) (hguards : t'.Guards self)
    (hmoving : t'.Moving τ) (hamount : amount ≤ (sm.stakes m).stake)
    (hpaid : t.balanceOf τ self ≤
      t'.balanceOf τ self + if τ = (sm.stakes m).token then amount else 0)
    (htoken : info.token = (sm.stakes m).token)
    (hstake : info.stake = (sm.stakes m).stake - amount) : Staked self τ (sm.setInfo m info, t') := by
  refine ⟨hguards, hmoving, ?_, bare_setInfo h.bare ?_⟩
  · have hsum := staked_setInfo sm m τ info
    have hcovered := h.covered
    dsimp only at hcovered ⊢
    by_cases hτ : τ = (sm.stakes m).token
    · rw [countsFor_of_token hτ.symm, countsFor_of_token (htoken.trans hτ.symm), hstake] at hsum
      rw [if_pos hτ] at hpaid
      omega
    · rw [countsFor_of_ne (Ne.symm hτ), countsFor_of_ne (htoken.symm ▸ Ne.symm hτ)] at hsum
      rw [if_neg hτ] at hpaid
      omega
  · rw [htoken, hstake]
    intro hnone
    rw [h.bare m hnone, Nat.zero_sub]

theorem Staked.step {act : StakeAct} (h : Staked self τ x) (hstep : StakeStep self now act x x') :
    Staked self τ x' := by
  cases hstep with
  | settings hstakes hhubs =>
    refine ⟨h.guards, h.moving, ?_, by rw [hstakes]; exact h.bare⟩
    unfold StakeManager.staked
    rw [hstakes]
    exact h.covered
  | owned | unlocked | seen => exact h.setInfo rfl rfl
  | authorized | unauthorized => exact ⟨h.guards, h.moving, h.covered, h.bare⟩
  | @staked sm t t' m sender token unstakeDelay amount hsender _ _ hreal hsame hpull =>
    obtain ⟨answer, hcall⟩ := Tokens.safeTransferFrom_eq_ok hpull
    refine ⟨(Tokens.spares_erc20TransferFrom hcall).guards h.guards,
      (h.moving.call (fun _ _ => Tokens.answers_transferFrom) hcall).1, ?_,
      bare_setInfo h.bare fun hnone => absurd hnone hreal⟩
    have hpulled := Tokens.balanceOf_safeTransferFrom (Ne.symm hsender) h.moving hpull
    have hcovered := h.covered
    set info := { sm.stakes m with token, stake := (sm.stakes m).stake + amount, unstakeDelay } with hinfo
    have hsum := staked_setInfo sm m τ info
    dsimp only at hpulled hcovered ⊢
    by_cases hτ : τ = token
    · rw [if_pos hτ] at hpulled
      have hnew : info.countsFor τ = (sm.stakes m).stake + amount := countsFor_of_token hτ.symm
      have hold : (sm.stakes m).countsFor τ = (sm.stakes m).stake := by
        rcases hsame with hnone | hsame
        · -- the first stake of this manager
          rw [countsFor_zero (h.bare m hnone)]
          exact (h.bare m hnone).symm
        · exact countsFor_of_token (hsame.trans hτ.symm)
      omega
    · rw [if_neg hτ] at hpulled
      have hnew : info.countsFor τ = 0 := countsFor_of_ne (Ne.symm hτ)
      omega
  | withdrawn m _ _ hpay =>
    exact h.paidOut (Tokens.guards_safeTransfer h.guards hpay)
      (Tokens.moving_safeTransfer h.moving hpay) (Nat.le_refl _)
      (Tokens.balanceOf_safeTransfer hpay) rfl (Nat.sub_self _).symm
  | penalized m relayHub beneficiary amount _ hamount hburn hreward =>
    refine h.paidOut (Tokens.guards_safeTransfer (Tokens.guards_safeTransfer h.guards hburn) hreward)
      (Tokens.moving_safeTransfer (Tokens.moving_safeTransfer h.moving hburn) hreward) hamount ?_
      rfl rfl
    have hburned := Tokens.balanceOf_safeTransfer (τ := τ) hburn
    have hrewarded := Tokens.balanceOf_safeTransfer (τ := τ) hreward
    split_ifs at hburned hrewarded ⊢ <;> omega
  | escheated m _ _ hpay =>
    exact h.paidOut (Tokens.guards_safeTransfer h.guards hpay)
      (Tokens.moving_safeTransfer h.moving hpay) (Nat.le_refl _)
      (Tokens.balanceOf_safeTransfer hpay) rfl (Nat.sub_self _).symm

/-- Tokens that are moved by others. -/
theorem Staked.foreign (h : Staked self τ (sm, t)) (hforeign : t.Foreign self t') :
    Staked self τ (sm, t') :=
  ⟨hforeign.leaves.guards h.guards, hforeign.moving τ h.moving,
    h.covered.trans (Tokens.balanceOf_le h.guards hforeign.leaves), h.bare⟩

theorem staked_rule (hdistinct : d.hub ≠ d.stakeManager) :
    GsnRule d (fun _ => True) fun _ s => Staked d.stakeManager τ (s.stakeManager, s.tokens) :=
  .ofStep
    (fun hs hstep => by
      cases hstep with
      | mined | logged | committed | revealed => exact hs
      | staking _ _ hstake => exact hs.step hstake
      | moved hforeign => exact hs.foreign hforeign
      | deposited target sender value _ hout hsend =>
        exact hs.foreign (Tokens.foreign_send (Ne.symm hout.2.2.1) hsend))
    (fun hs hpays => by
      obtain ⟨_, tokens, hsend, rfl⟩ := hpays
      exact hs.foreign (Tokens.foreign_send (Ne.symm hdistinct) hsend))
    fun hs => hs

theorem staked_initial (hs : Gsn.Initial d s) (hmoving : s.tokens.Moving τ) :
    Staked d.stakeManager τ (s.stakeManager, s.tokens) := by
  refine ⟨⟨hs.erc20, ?_⟩, hmoving, ?_, fun m _ => by rw [hs.stakes]⟩
  · intro c tok htok
    rw [hs.erc721 c] at htok
    cases htok
  · have hnone : s.stakeManager.staked τ = 0 := by
      unfold StakeManager.staked
      refine Finset.sum_eq_zero fun m _ => ?_
      rw [hs.stakes]
      exact countsFor_zero rfl
    rw [hnone]
    exact Nat.zero_le _

theorem reachable_staked {s₀ : Gsn} (hs₀ : Gsn.Initial d s₀) (hmoving : s₀.tokens.Moving τ)
    (h : Reachable (Gsn.machine d) (Gsn.Allowed d) ⟨s₀, []⟩ c) :
    Staked d.stakeManager τ (c.state.stakeManager, c.state.tokens) := by
  have h₀ : (fun (_ : List Rest) s => Staked d.stakeManager τ (s.stakeManager, s.tokens))
      (Config.rests ⟨s₀, []⟩) (⟨s₀, []⟩ : Config Gsn Rest).state := staked_initial hs₀ hmoving
  exact (h.invariant (staked_rule hs₀.distinct).preserved h₀ .nil).1

/-! ### Paying out -/

namespace Tokens

/-- The ERC20 at `τ` follows the standard, and lets `a` send its tokens. -/
def Sends (t : Tokens) (τ a : Address) : Prop :=
  ∃ tok, t.erc20 τ = some tok ∧ tok.rewardPool = none ∧ tok.answers = [] ∧ tok.blacklisted a = false

variable (dst) in
theorem safeTransfer_succeeds (hsends : t.Sends τ src) (hle : amount ≤ t.balanceOf τ src) :
    ∃ t', t.safeTransfer τ src dst amount = .ok t' ∧ t'.Sends τ src ∧
      t'.balanceOf τ = Ledger.move (t.balanceOf τ) src dst amount := by
  obtain ⟨tok, htok, hpool, hanswers, hlisted⟩ := hsends
  have hbalance : t.balanceOf τ = tok.balanceOf := by
    funext a
    simp [balanceOf, htok]
  rw [hbalance] at hle ⊢
  have htransfer : ERC20.transfer { tok with answers := tok.answers.tail } src dst amount =
      .ok { tok with
        answers := tok.answers.tail, balanceOf := Ledger.move tok.balanceOf src dst amount } := by
    simp [ERC20.transfer, require, hpool, hlisted, hle]
    rfl
  refine ⟨t.setERC20 τ { tok with
    answers := tok.answers.tail, balanceOf := Ledger.move tok.balanceOf src dst amount }, ?_, ?_, ?_⟩
  · simp only [safeTransfer, bind_eq_ok, require_eq_ok, pure_eq_ok]
    refine ⟨(_, ⟨true, true⟩), ?_, (), rfl, rfl⟩
    simp only [erc20Transfer, erc20Call, erc20Contract, htok, orThrow, ok_bind, hanswers,
      List.headD_nil, if_true]
    rw [hanswers] at htransfer
    rw [htransfer]
    rfl
  · exact ⟨_, Function.update_self .., hpool, by rw [hanswers]; rfl, hlisted⟩
  · funext a
    simp [balanceOf, setERC20]

end Tokens

/-- In every configuration, with any calls in progress, the stake manager has of a token that moves what
it is asked to move, and calls nobody meanwhile, all that is staked in it. If the token follows the
standard, the owner of a stake that was unlocked and is due gets it back. -/
theorem stakes_are_covered {s₀ : Gsn} (hs₀ : Gsn.Initial d s₀) (hmoving : s₀.tokens.Moving τ)
    (h : Reachable (Gsn.machine d) (Gsn.Allowed d) ⟨s₀, []⟩ c) :
    c.state.stakeManager.staked τ ≤ c.state.tokens.balanceOf τ d.stakeManager ∧
      ∀ m info, c.state.stakeManager.stakes m = info → info.token = τ →
        c.state.tokens.Sends τ d.stakeManager → 0 < info.withdrawTime →
        info.withdrawTime ≤ c.state.timestamp → ∃ s',
          (Gsn.machine d).start (.stakeManager info.owner (.withdrawStake m)) c.state =
            .ok (s', none) ∧
          s'.tokens.balanceOf τ =
            Ledger.move (c.state.tokens.balanceOf τ) d.stakeManager info.owner info.stake ∧
          s'.stakeManager.stakes =
            Function.update c.state.stakeManager.stakes m { info with stake := 0, withdrawTime := 0 } := by
  have hstaked := reachable_staked hs₀ hmoving h
  refine ⟨hstaked.covered, ?_⟩
  rintro m info rfl htoken hsends hscheduled hdue
  have hone : (c.state.stakeManager.stakes m).stake ≤ c.state.stakeManager.staked τ := by
    rw [← countsFor_of_token htoken]
    exact Ledger.le_sum (l := fun a => (c.state.stakeManager.stakes a).countsFor τ)
  obtain ⟨tokens, hpay, _, hmoved⟩ := Tokens.safeTransfer_succeeds
    (c.state.stakeManager.stakes m).owner hsends (hone.trans hstaked.covered)
  refine ⟨{ c.state with
    stakeManager := c.state.stakeManager.setInfo m
      { c.state.stakeManager.stakes m with stake := 0, withdrawTime := 0 }
    tokens }, ?_, hmoved, rfl⟩
  simp only [Gsn.machine, Gsn.start, StakeManager.call, StakeManager.withdrawStake,
    StakeManager.relayOwnerOnly, bind_eq_ok, require_eq_ok, pure_eq_ok]
  refine ⟨_, ⟨(), trivial, (), hscheduled, (), hdue, tokens, ?_, rfl⟩, rfl⟩
  rw [htoken]
  exact hpay

set_option maxRecDepth 4000 in
theorem stakes_are_covered_unlocking :
    (after (staking ++ unlocking 1200)).state.stakeManager.staked 10 ≤
      (after (staking ++ unlocking 1200)).state.tokens.balanceOf 10 101 ∧ ∃ s',
        (Gsn.machine sample).start (.stakeManager 21 (.withdrawStake 20))
          (after (staking ++ unlocking 1200)).state = .ok (s', none) ∧
        s'.tokens.balanceOf 10 =
          Ledger.move ((after (staking ++ unlocking 1200)).state.tokens.balanceOf 10) 101 21 50 := by
  have hcovered := stakes_are_covered (τ := 10) initial_genesis (by decide)
    (reachable_after (staking ++ unlocking 1200))
  obtain ⟨s', hwithdraw, hmoved, _⟩ := hcovered.2 20 ⟨50, 200, 1200, 0, 0, 10, 21⟩ (by decide)
    (by decide) ⟨_, rfl, rfl, rfl, rfl⟩ (by decide) (by decide)
  exact ⟨hcovered.1, s', hwithdraw, hmoved⟩

end Redeemy
