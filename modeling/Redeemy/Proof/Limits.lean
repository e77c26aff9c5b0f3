import Redeemy.Proof.Books

/-!
# The limits of a reward pool

A registered reward pool keeps the limits of its sets, and an address to send payments to, as long as
its owner does not lead it out of them.
-/

namespace Redeemy

open Fallible EnumerableSet

variable {F : Type → Type} [EnumerableSet F]
variable {w w' : World F} {rp rp' : RewardPoolV1 F} {a p : Address} {x : Books F} {call : Call}
variable {cfg : CallStack.Config (World F) Call}

structure Limits (rp : RewardPoolV1 F) : Prop where
  admins : length rp.admins ≤ MAX_ADMINS
  transferrers : length rp.transferrers ≤ MAX_TRANSFERRERS
  assetPools : length rp.assetPools ≤ MAX_NUMBER_OF_ASSET_POOL
  withdrawAddress : rp.withdrawAddress ≠ 0

/-- The owner of the reward pool does not lead it out of its limits with the call `c`. -/
def RewardPoolV1.StaysWithin (rp : RewardPoolV1 F) : RewardPoolCall → Prop
  | .setWithdrawAddress withdrawAddress => withdrawAddress ≠ 0
  | .createAssetPool redeemTokenAmount _ =>
    0 < redeemTokenAmount → length rp.assetPools < MAX_NUMBER_OF_ASSET_POOL
  | _ => True

instance (rp : RewardPoolV1 F) (c : RewardPoolCall) : Decidable (rp.StaysWithin c) := by
  unfold RewardPoolV1.StaysWithin
  split <;> infer_instance

/-- No owner leads a registered reward pool out of its limits. -/
def WithinLimits (w : World F) (call : Call) : Prop :=
  match call.action with
  | .rewardPool a c => w.registry.rewardPoolToOwner a ≠ 0 →
    ∀ rp ∈ w.rewardPools a, call.sender = rp.owner → rp.StaysWithin c
  | _ => True

instance (w : World F) (call : Call) : Decidable (WithinLimits w call) := by
  unfold WithinLimits
  obtain ⟨sender, action⟩ := call
  induction action using Action.casesOn <;> infer_instance

theorem RewardPoolV1.Setting.limits {c : RewardPoolCall} (h : rp.Setting c rp')
    (hrp : Limits rp) (hwithin : rp.StaysWithin c) : Limits rp' := by
  cases h with
  | setWithdrawAddress withdrawAddress => exact { hrp with withdrawAddress := hwithin }
  | setActive active => exact { hrp with }
  | addTransferrers transferrers hfits =>
    exact { hrp with transferrers := (length_foldl_add_le _ _).trans hfits }
  | removeTransferrers transferrers =>
    exact { hrp with transferrers := (length_foldl_remove_le _ _).trans hrp.transferrers }
  | addAdmins admins hfits => exact { hrp with admins := (length_foldl_add_le _ _).trans hfits }
  | removeAdmins admins =>
    exact { hrp with admins := (length_foldl_remove_le _ _).trans hrp.admins }

theorem Limits.addAssetPool (hrp : Limits rp)
    (hroom : length rp.assetPools < MAX_NUMBER_OF_ASSET_POOL) : Limits (rp.addAssetPool p) :=
  { hrp with assetPools := (length_add_le rp.assetPools p).trans hroom }

theorem limits_created {n : NewRewardPool} {rewardPoolRegistry forwarder redeemToken : Address}
    (hadmins : n.admins.length ≤ MAX_ADMINS) (hwithdraw : n.withdrawAddress ≠ 0) :
    Limits (n.created rewardPoolRegistry forwarder redeemToken : RewardPoolV1 F) where
  admins := by
    have hlen := length_foldl_add_le (empty : F Address) n.admins
    have hempty : length (empty : F Address) = 0 := congrArg List.length values_empty
    show length (n.admins.foldl add (empty : F Address)) ≤ MAX_ADMINS
    omega
  transferrers := (congrArg List.length values_empty).trans_le (Nat.zero_le _)
  assetPools := by
    have hlen := length_add_le (empty : F Address) n.assetPool
    have hempty : length (empty : F Address) = 0 := congrArg List.length values_empty
    show length (add (empty : F Address) n.assetPool) ≤ 10
    omega
  withdrawAddress := hwithdraw

theorem RewardPoolStep.limits (h : RewardPoolStep w call a rp rp') (hwithin : WithinLimits w call)
    (ha : w.registry.rewardPoolToOwner a ≠ 0) (hrp : w.rewardPools a = some rp)
    (hlimits : Limits rp) : Limits rp' := by
  have hstays : ∀ c, call.action = .rewardPool a c → call.sender = rp.owner → rp.StaysWithin c := by
    intro c hcall howner
    unfold WithinLimits at hwithin
    rw [hcall] at hwithin
    exact hwithin ha rp hrp howner
  cases h with
  | same => exact hlimits
  | rename => exact { hlimits with }
  | setting c hcall howner h => exact h.limits hlimits (hstays c hcall howner)
  | createAssetPool redeemTokenAmount clone hcall howner hprice =>
    exact hlimits.addAssetPool (hstays _ hcall howner hprice)

theorem limits_rule : BooksRule WithinLimits (Sane : World F → Prop) fun x => ∀ a rp,
    x.registry.rewardPoolToOwner a ≠ 0 → x.rewardPools a = some rp → Limits rp where
  initial := fun w hw a rp ha => absurd (hw.rewardPoolToOwner a) ha
  entry := fun w call x hw hI _ hP h a rp' ha hrp' => by
    rw [h.registered.2.1] at ha
    rcases h.rewardPool hrp' with ⟨rp, hrp, hstep⟩ | ⟨hfresh, _⟩
    · exact hstep.limits hP ha hrp (hI a rp ha hrp)
    · exact absurd (mem_deployed_of_registered hw.wired ha) hfresh.2.2
  registration := fun w call x _ hI hsender h a rp' ha hrp' => by
    cases h with
    | mk n redeemToken _ _ howner _ hwithdraw _ _ _ _ hadmins =>
      change Function.update w.registry.rewardPoolToOwner n.rewardPool n.owner a ≠ 0 at ha
      rcases Books.setRewardPool_cases hrp' with ⟨rfl, rfl⟩ | ⟨hne, hold⟩
      · exact limits_created hadmins (hwithdraw (howner ▸ hsender))
      · rw [Function.update_of_ne hne] at ha
        exact hI a rp' ha hold

/-- In every run in which no owner leads a registered reward pool out of its limits, every registered
reward pool is within them. -/
theorem registered_within_limits (h : World.Run WithinLimits cfg)
    (ha : cfg.state.registry.rewardPoolToOwner a ≠ 0) (hrp : cfg.state.rewardPools a = some rp) :
    Limits rp :=
  ((kept_sane.booksRule (fun _ => id) limits_rule).run h).2 a rp ha hrp

/-- A call of the owner of the reward pool at 1002. -/
def ownerCall (c : RewardPoolCall) : CallStack.Label Call :=
  .call ⟨1, .rewardPool 1002 c⟩

/-- A reward pool with two asset pools, two admins and a new withdraw address. -/
def settled : CallStack.Config (World ListSet) Call :=
  World.after WithinLimits [
    World.opening .CustomERC20,
    ownerCall (.addAdmins [6, 8]),
    ownerCall (.createAssetPool 3 1005),
    ownerCall (.setWithdrawAddress 9)]

theorem isSome_settled : (settled.state.rewardPools 1002).isSome = true := by
  decide

theorem registered_within_limits_settled :
    Limits ((settled.state.rewardPools 1002).get isSome_settled) ∧
    values ((settled.state.rewardPools 1002).get isSome_settled).admins = [6, 8] ∧
    values ((settled.state.rewardPools 1002).get isSome_settled).assetPools = [1004, 1005] :=
  ⟨registered_within_limits (World.run_after WithinLimits _) (by decide)
    (Option.some_get isSome_settled).symm, by decide⟩

/-- The owner has added ten asset pools to the first one, and has set the withdraw address to zero. -/
def overgrown : CallStack.Config (World ListSet) Call :=
  World.after (fun _ _ => True) ([
    World.opening .CustomERC20,
    ownerCall (.setWithdrawAddress 0)] ++
    (List.range 10).map fun i => ownerCall (.createAssetPool 5 (Fin.ofNat _ (1005 + i))))

theorem owner_exceeds_limits : World.Run (fun _ _ => True) overgrown ∧
    overgrown.state.registry.rewardPoolToOwner 1002 = 1 ∧
    (overgrown.state.rewardPools 1002).map (fun rp => (rp.withdrawAddress, length rp.assetPools)) =
      some (0, MAX_NUMBER_OF_ASSET_POOL + 1) :=
  ⟨World.run_after (fun _ _ => True) _, by decide⟩

end Redeemy
