import Redeemy.Proof.Record
import Redeemy.Proof.Reservation

/-!
# What a pool holds

A property of the boxes of one pool together with the token contracts and the movements so far.
`AssetRule` collects what such a property has to survive: the calls of its own pool, and steps that
take nothing from the pool and record no movement of it.
-/

namespace Redeemy

open Fallible EnumerableSet

variable {F : Type → Type}
variable {w w' : World F} {pool pool' : AssetPoolV1 F} {rp : RewardPoolV1 F} {p self : Address}
variable {P : World F → Call → Prop} {J : World F → Prop} {call : Call}

/-- A step that takes nothing from the pool at `p` and records no movement of it. -/
structure Tokens.Aside (p : Address) (t t' : Tokens) : Prop extends Tokens.Leaves p t t' where
  log : Tokens.Logs (fun m => m.pool ≠ p) t t'

/-! ### The redeem token of a pool -/

/-- The `ERC20RedeemTokenV1` of the reward pool of the pool at `p`, if it has one. -/
def World.ownToken (w : World F) (p : Address) : Option Address :=
  (w.assetPools p).bind fun pool => (w.rewardPools pool.rewardPool).bind fun rp =>
    if rp.redeemMethod = .CustomERC20 then some rp.redeemTokenContractAddress else none

theorem ownToken_eq (hpool : w.assetPools p = some pool)
    (hrp : w.rewardPools pool.rewardPool = some rp) :
    w.ownToken p =
      if rp.redeemMethod = .CustomERC20 then some rp.redeemTokenContractAddress else none := by
  simp only [World.ownToken, hpool, hrp, Option.bind_some]

/-- The redeem token of a pool is part of the wiring. -/
theorem ownToken_of_wiring (hwiring : w'.wiring = w.wiring) : w'.ownToken p = w.ownToken p := by
  have hview : ∀ v : World F, v.ownToken p = (v.wiring.assetPools p).bind fun pool =>
      (v.wiring.rewardPools pool.rewardPool).bind fun rp =>
        if rp.redeemMethod = .CustomERC20 then some rp.redeemTokenContractAddress else none := by
    intro v
    simp only [World.ownToken, World.wiring, Option.bind_map]
    rfl
  rw [hview, hview, hwiring]

variable [EnumerableSet F]

theorem exists_rewardPool (hw : Wired w.wiring) (hpool : w.assetPools p = some pool) :
    ∃ rp, w.rewardPools pool.rewardPool = some rp := by
  have hinfo : w.wiring.assetPools p = some pool.info := Option.map_eq_some_iff.mpr ⟨pool, hpool, rfl⟩
  obtain ⟨_, _, hrp, _⟩ := hw.assetPool p pool.info hinfo
  obtain ⟨rp, hrp, _⟩ := Option.map_eq_some_iff.mp hrp
  exact ⟨rp, hrp⟩

theorem Quiet.ownToken (hw : Wired w.wiring) (h : Quiet w w') (hpool : w.assetPools p = some pool) :
    w'.ownToken p = w.ownToken p := by
  obtain ⟨rp, hrp⟩ := exists_rewardPool hw hpool
  obtain ⟨rp', hrp', _, hmethod, htoken, _⟩ := h.rewardPools _ rp hrp
  rw [ownToken_eq hpool hrp, ownToken_eq (h.exists_pool hpool) hrp', hmethod, htoken]

/-! ### The rule -/

/-- What a property of the pool at `p` and its tokens has to survive, in states that satisfy `J`. -/
structure AssetRule (P : World F → Call → Prop) (p : Address) (J : World F → Prop)
    (I : Option Address → AssetPoolV1 F → Tokens → Prop) : Prop where
  initial : ∀ w own tokens a id price forwarder, J w → w.assetPools p = none →
    tokens.log = w.tokens.log → I own (.initial a id price forwarder) tokens
  congr : ∀ own pool pool' tokens, pool'.assetBoxes = pool.assetBoxes → I own pool tokens →
    I own pool' tokens
  aside : ∀ own pool t t', Tokens.Guards p t → Tokens.Aside p t t' → I own pool t → I own pool t'
  handOut : ∀ c pool t answer dst n t', t.erc20Transfer c p dst n = .ok (t', answer) →
    I (some c) pool t → I (some c) pool t'
  deposit : ∀ w call value assets w' pool pool', J w → w.CanCall call → P w call →
    call.action = .assetPool p (.depositAssets value assets) →
    Deposit w p call.sender value assets w' → w.assetPools p = some pool →
    w'.assetPools p = some pool' → I (w.ownToken p) pool w.tokens →
    I (w.ownToken p) pool' w'.tokens
  withdraw : ∀ w call assets w' pool pool', J w → P w call →
    call.action = .assetPool p (.withdrawAssets assets) →
    Withdraw w p call.sender assets w' → w.assetPools p = some pool →
    w'.assetPools p = some pool' → I (w.ownToken p) pool w.tokens →
    I (w.ownToken p) pool' w'.tokens
  paid : ∀ w call pool pool' receiver requestId card tokens, J w → P w call →
    w.assetPools p = some pool → Drawn pool pool' card →
    w.payCard p receiver requestId card = .ok tokens → I (w.ownToken p) pool w.tokens →
    I (w.ownToken p) pool' tokens

/-- `I` holds of the pool at `p`, if there is one, and the token contracts. -/
def Holding (p : Address) (I : Option Address → AssetPoolV1 F → Tokens → Prop) (w : World F) : Prop :=
  ∀ pool, w.assetPools p = some pool → I (w.ownToken p) pool w.tokens

theorem AssetRule.quiet {I : Option Address → AssetPoolV1 F → Tokens → Prop}
    (h : AssetRule P p J I) (hs : Sane w) (hJ : J w) (hI : Holding p I w) (hquiet : Quiet w w') :
    Holding p I w' := by
  intro pool hpool
  rcases hquiet.assetPools p with hsame | ⟨hnone, a, id, price, forwarder, _, hnew⟩
  · have hold : w.assetPools p = some pool := hsame.symm.trans hpool
    have hsystem := system_of_assetPool hs.wired hold
    rw [hquiet.ownToken hs.wired hold]
    refine h.aside _ pool w.tokens w'.tokens (hs.guarded p hsystem) ?_ (hI pool hold)
    exact { hquiet.leaves p hsystem with log := Tokens.logs_of_eq hquiet.log }
  · rw [hnew, Option.some.injEq] at hpool
    subst hpool
    exact h.initial w _ _ a id price forwarder hJ hnone hquiet.log

theorem AssetRule.change {I : Option Address → AssetPoolV1 F → Tokens → Prop}
    (h : AssetRule P p J I) (hs : Sane w) (hJ : J w) (hI : Holding p I w) (hcan : w.CanCall call)
    (hP : P w call) (hchange : Change w call w') : Holding p I w' := by
  intro pool' hpool'
  obtain ⟨pool, hpool⟩ := hchange.exists_old hpool'
  rw [ownToken_of_wiring (hchange.wiring hs.wired hcan)]
  have hsystem := system_of_assetPool hs.wired hpool
  have hguards := hs.guarded p hsystem
  -- a call of another pool leaves this one and its boxes as they are
  have hother : ∀ {self : Address} {pool₁ : AssetPoolV1 F} {tokens : Tokens}, p ≠ self →
      (w.setPool self pool₁).assetPools p = some pool' → Tokens.Spares p w.tokens tokens →
      Tokens.Logs (fun m => m.pool = self) w.tokens tokens →
      I (w.ownToken p) pool' tokens := by
    intro self pool₁ tokens hp hset hspares hlogs
    rcases setPool_cases hset with ⟨heq, _⟩ | ⟨_, hold⟩
    · exact absurd heq hp
    · refine h.aside _ pool' w.tokens tokens hguards ?_ (hI pool' hold)
      exact { hspares.toLeaves with log := hlogs.mono fun m hm heq => hp (heq.symm.trans hm) }
  cases hchange with
  | @setPrice pool₀ self redeemTokenAmount _ hself =>
    rcases setPool_cases hpool' with ⟨rfl, rfl⟩ | ⟨_, hold⟩
    · exact h.congr _ pool₀ _ _ rfl (hI pool₀ hself)
    · exact hI pool' hold
  | @handOut pool₀ rp tokens self dst amount hself hrp htransfer =>
    have hold : w.assetPools p = some pool' := hpool'
    have hlog := (Tokens.silent_transferRedeemToken htransfer).log
    by_cases hp : p = self
    · subst hp
      rw [hold, Option.some.injEq] at hself
      subst hself
      have hpoolI := hI pool' hold
      rcases transferRedeemToken_cases htransfer with ⟨hm, answer, hcall⟩ | ⟨_, hcall⟩
      · rw [ownToken_eq hold hrp, if_pos hm] at hpoolI ⊢
        exact h.handOut _ pool' w.tokens answer dst amount tokens hcall hpoolI
      · refine h.aside _ pool' w.tokens tokens hguards ?_ hpoolI
        have hspares : Tokens.Spares p w.tokens tokens :=
          Tokens.spares_erc1155SafeTransferFrom hcall
        exact { hspares.toLeaves with log := Tokens.logs_of_eq hlog }
    · refine h.aside _ pool' w.tokens tokens hguards ?_ (hI pool' hold)
      have hspares := spares_transferRedeemToken hp htransfer
      exact { hspares.toLeaves with log := Tokens.logs_of_eq hlog }
  | deposit self value assets hcall hdeposit =>
    by_cases hp : p = self
    · subst hp
      exact h.deposit w call value assets w' pool pool' hJ hcan hP hcall hdeposit hpool hpool'
        (hI pool hpool)
    · have hspares := hdeposit.spares (ne_of_system hsystem hcan.2.1)
      have hlogs := hdeposit.logs.mono fun m hm => hm.1.1
      cases hdeposit with
      | mk => exact hother hp hpool' hspares hlogs
  | withdraw self assets hcall hwithdraw =>
    by_cases hp : p = self
    · subst hp
      exact h.withdraw w call assets w' pool pool' hJ hP hcall hwithdraw hpool hpool'
        (hI pool hpool)
    · have hspares := hwithdraw.spares hp
      have hlogs := hwithdraw.logs.mono fun m hm => hm.1
      cases hwithdraw with
      | mk => exact hother hp hpool' hspares hlogs
  | redeem self trailing n requestIds _ huser hredeem =>
    have hspares := hredeem.spares fun pool₀ hpool₀ => ne_of_system hsystem (huser pool₀ hpool₀)
    have hlog := hredeem.log_eq
    have haside : Tokens.Aside p w.tokens w'.tokens :=
      { hspares.toLeaves with log := Tokens.logs_of_eq hlog }
    have hI' := h.aside _ pool w.tokens w'.tokens hguards haside (hI pool hpool)
    cases hredeem with
    | mk hself _ _ _ _ _ _ _ hrequests =>
      obtain ⟨_, _, _, rfl⟩ := hrequests.frame
      rcases setPool_cases hpool' with ⟨rfl, rfl⟩ | ⟨_, hold⟩
      · obtain rfl := Option.some.inj (hpool.symm.trans hself)
        exact h.congr _ pool _ _ rfl hI'
      · rw [hpool, Option.some.injEq] at hold
        exact hold ▸ hI'
  | fulfill k requestId words _ hfulfill =>
    cases hfulfill with
    | @mk _ q _ _ _ _ _ _ _ _ _ hself _ _ hdraw hpay =>
      by_cases hp : p = q
      · subst hp
        rcases setPool_cases hpool' with ⟨_, rfl⟩ | ⟨hp, _⟩
        · exact h.paid w call _ _ _ _ _ _ hJ hP hself (drawCard_eq_ok hdraw) hpay (hI _ hself)
        · exact absurd rfl hp
      · exact hother hp hpool' (spares_payCard hp hpay) ((logs_payCard hpay).mono fun m hm => hm.1.1)

theorem AssetRule.rule {I : Option Address → AssetPoolV1 F → Tokens → Prop}
    (h : AssetRule P p J I) (hsane : ∀ w, J w → Sane w) : Rule P J (Holding p I) where
  initial := fun w hw pool hpool => by
    rw [hw.assetPools] at hpool
    cases hpool
  quiet := fun w w' hJ hI hquiet => h.quiet (hsane w hJ) hJ hI hquiet
  change := fun w call w' hJ hI hcan hP hchange => h.change (hsane w hJ) hJ hI hcan hP hchange
  forget := fun w requestId k _ hI => hI

end Redeemy
