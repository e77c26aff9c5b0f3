import Redeemy.Proof.Withdraw

/-!
# What a redemption and its callback do

`Redeem` and `Fulfill` say everything a successful `redeemAsset` and a successful callback do.
-/

namespace Redeemy

open Fallible EnumerableSet

variable {F : Type → Type} [EnumerableSet F]
variable {w w' : World F} {a p k self sender receiver trailing : Address}
variable {n requestId : Nat} {requestIds words : List Nat}

/-! ### Requests -/

/-- One request of the pool at `p` through the reward pool at `a`, for `receiver`. -/
inductive RequestStep (w : World F) (a p receiver : Address) (requestId : Nat) : World F → Prop where
  | mk {rp : RewardPoolV1 F} {k : Address} {consumer : RewardVRFConsumerV1}
      (hrp : w.rewardPools a = some rp) (hmem : p ∈ values rp.assetPools)
      (hk : w.registry.ownerToVRFConsumer rp.owner = k)
      (hconsumer : w.consumers k = some consumer)
      (hregistered : w.registry.rewardPoolToOwner a = consumer.owner)
      (hfresh : requestId ∉ w.vrf.issued) :
      RequestStep w a p receiver requestId { w with
        consumers := Function.update w.consumers k (some { consumer with
          requestIds := Function.update consumer.requestIds requestId ⟨p, receiver⟩ })
        vrf := ⟨requestId :: w.vrf.issued, (requestId, k) :: w.vrf.owed⟩
        unfulfilled := (requestId, p) :: w.unfulfilled }

theorem rewardPoolRequestRandomWords_eq_ok
    (h : w.rewardPoolRequestRandomWords a p receiver requestId = .ok w') :
    RequestStep w a p receiver requestId w' := by
  unfold World.rewardPoolRequestRandomWords World.consumerRequestRandomWords at h
  simp only [bind_eq_ok, require_eq_ok, pure_eq_ok, World.rewardPool_eq_ok, World.consumer_eq_ok,
    World.registryAt_eq_ok] at h
  obtain ⟨rp, hrp, _, hmem, _, ⟨_, rfl⟩, consumer, hconsumer, _, ⟨_, rfl⟩, _, hregistered, _,
    hfresh, rfl⟩ := h
  exact .mk hrp hmem rfl hconsumer hregistered hfresh

/-- The requests of one redemption, in order. -/
inductive RequestSteps (a p receiver : Address) : List Nat → World F → World F → Prop where
  | nil (w : World F) : RequestSteps a p receiver [] w w
  | cons {w w₁ w₂ : World F} {requestId : Nat} {requestIds : List Nat}
      (hfirst : RequestStep w a p receiver requestId w₁)
      (hrest : RequestSteps a p receiver requestIds w₁ w₂) :
      RequestSteps a p receiver (requestId :: requestIds) w w₂

theorem requests_eq_ok
    (h : requestIds.foldlM
      (fun w requestId => World.rewardPoolRequestRandomWords w a p receiver requestId) w = .ok w') :
    RequestSteps a p receiver requestIds w w' := by
  induction requestIds generalizing w with
  | nil =>
    rw [List.foldlM_nil, pure_eq_ok] at h
    exact h ▸ .nil w
  | cons requestId requestIds ih =>
    rw [List.foldlM_cons, bind_eq_ok] at h
    obtain ⟨w₁, hfirst, hrest⟩ := h
    exact .cons (rewardPoolRequestRandomWords_eq_ok hfirst) (ih hrest)

/-- What every request keeps, the requests of a redemption keep. -/
theorem RequestSteps.invariant {I : World F → Prop}
    (hstep : ∀ w requestId w', I w → RequestStep w a p receiver requestId w' → I w') (hw : I w)
    (h : RequestSteps a p receiver requestIds w w') : I w' := by
  induction h with
  | nil w => exact hw
  | cons hfirst _ ih => exact ih (hstep _ _ _ hw hfirst)

/-! ### Redemptions -/

/-- Everything a successful `redeemAsset` does. -/
inductive Redeem (w : World F) (self sender trailing : Address) (n : Nat) (requestIds : List Nat) :
    World F → Prop where
  | mk {pool : AssetPoolV1 F} {rp : RewardPoolV1 F} {tokens : Tokens} {sink : Option Address}
      {w₁ : World F}
      (hpool : w.assetPools self = some pool)
      (hrp : w.rewardPools pool.rewardPool = some rp)
      (hactive : rp.active = true) (hone : 1 ≤ n) (hmax : n ≤ MAX_NUMBER_OF_REWARDS_PER_TX)
      (hfree : n ≤ pool.totalNumberOfAssets)
      (hpay : w.takePayment self rp pool (World.msgSender pool sender trailing)
        (pool.redeemTokenAmount * n) = .ok (tokens, sink))
      (hlen : requestIds.length = n)
      (hrequests : RequestSteps pool.rewardPool self (World.msgSender pool sender trailing) requestIds
        { w.setPool self { pool with totalNumberOfAssets := pool.totalNumberOfAssets - n } with
          tokens } w₁) :
      Redeem w self sender trailing n requestIds { w₁ with
        charges := ⟨self, World.msgSender pool sender trailing, pool.redeemTokenAmount,
          pool.redeemTokenAmount * n, sink, requestIds⟩ :: w₁.charges }

theorem redeemAsset_eq_ok (h : w.redeemAsset self sender trailing n requestIds = .ok w') :
    Redeem w self sender trailing n requestIds w' := by
  unfold World.redeemAsset World.redeemPaid at h
  simp only [bind_eq_ok, require_eq_ok, checkedMul_eq_ok, pure_eq_ok, World.assetPool_eq_ok,
    World.rewardPool_eq_ok, Prod.exists, Prod.mk.injEq] at h
  obtain ⟨pool, hpool, _, _, ⟨_, hpool', rp, hrp, _, hactive, _, hone, _, hmax, _, hfree, _,
    ⟨_, rfl⟩, tokens, sink, hpay, rfl, rfl⟩, _, hlen, w₁, hrequests, rfl⟩ := h
  rw [hpool] at hpool'
  cases hpool'
  exact .mk hpool hrp hactive hone hmax hfree hpay hlen (requests_eq_ok hrequests)

/-! ### Callbacks -/

/-- Everything a successful callback does, up to the receiver's hook. -/
inductive Fulfill (w : World F) (k sender : Address) (requestId : Nat) (words : List Nat) :
    World F → Prop where
  | mk {consumer : RewardVRFConsumerV1} {p receiver : Address} {pool pool' : AssetPoolV1 F}
      {rp : RewardPoolV1 F} {card : Card} {tokens : Tokens}
      (hconsumer : w.consumers k = some consumer) (hsender : sender = consumer.wrapper)
      (hrequest : consumer.requestIds requestId = ⟨p, receiver⟩)
      (hpool : w.assetPools p = some pool)
      (hrp : w.rewardPools pool.rewardPool = some rp)
      (hk : w.registry.ownerToVRFConsumer rp.owner = k)
      (hdraw : pool.drawCard words = .ok (card, pool'))
      (hpay : w.payCard p receiver requestId card = .ok tokens) :
      Fulfill w k sender requestId words { (w.forget requestId k).setPool p pool' with
        tokens, unfulfilled := w.unfulfilled.erase (requestId, p) }

theorem rawFulfillRandomWords_eq_ok
    (h : (w.forget requestId k).rawFulfillRandomWords k sender requestId words = .ok w') :
    Fulfill w k sender requestId words w' := by
  unfold World.rawFulfillRandomWords World.fulfillRedeemAsset at h
  simp only [bind_eq_ok, require_eq_ok, pure_eq_ok, World.assetPool_eq_ok, World.rewardPool_eq_ok,
    World.consumer_eq_ok, World.registryAt_eq_ok, Prod.exists, Prod.mk.injEq] at h
  obtain ⟨consumer, hconsumer, _, hsender, _, _, _, _, ⟨pool, hpool, rp, hrp, _, ⟨_, rfl⟩, _, hk,
    card, pool', hdraw, tokens, hpay, _, rfl⟩, rfl⟩ := h
  exact .mk hconsumer hsender rfl hpool hrp hk.symm hdraw hpay

end Redeemy
