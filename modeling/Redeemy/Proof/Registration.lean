import Redeemy.Proof.Books
import Redeemy.Proof.Redemption

/-!
# What the registry records of the reward pools

The registry lists the reward pools of an owner and knows the owner of a reward pool, each owner has
one VRF consumer, and so every sender check on the way of a redemption passes.
-/

namespace Redeemy

open Fallible EnumerableSet

variable {F : Type → Type}
variable {w w' : World F} {rp : RewardPoolV1 F} {pool : AssetPoolV1 F} {x : Books F}
variable {a p o k r sender receiver : Address} {call : Call} {requestId : Nat}
variable {P : World F → Call → Prop} {cfg cfg' : CallStack.Config (World F) Call}

/-! ### Lists and owners -/

/-- A reward pool is listed once, under its owner. -/
def Listed (x : Books F) : Prop :=
  ∀ o a, (x.registry.ownerToRewardPools o).count a =
    if o ≠ 0 ∧ x.registry.rewardPoolToOwner a = o then 1 else 0

/-- The owner of a reward pool has a VRF consumer. -/
def Served (x : Books F) : Prop :=
  ∀ a, x.registry.rewardPoolToOwner a ≠ 0 →
    x.registry.ownerToVRFConsumer (x.registry.rewardPoolToOwner a) ≠ 0

variable [EnumerableSet F]

theorem listed_rule : BooksRule P (Sane : World F → Prop) Listed where
  initial := fun w hw o a => by
    show (w.registry.ownerToRewardPools o).count a =
      if o ≠ 0 ∧ w.registry.rewardPoolToOwner a = o then 1 else 0
    rw [hw.ownerToRewardPools, hw.rewardPoolToOwner, List.count_nil,
      if_neg fun h => h.1 h.2.symm]
  entry := fun w call x _ hI _ _ h o a => by
    obtain ⟨hlists, howners, _⟩ := h.registered
    rw [hlists, howners]
    exact hI o a
  registration := fun w call x hJ hI hsender h o a => by
    cases h with
    | mk n redeemToken ownerToVRFConsumer _ howner _ _ _ _ hnew =>
      -- the new reward pool was not known before
      have hunknown : w.registry.rewardPoolToOwner n.rewardPool = 0 := by
        by_contra hknown
        exact hnew.2 (mem_deployed_of_registered hJ.wired hknown)
      have hold := hI o a
      change (w.registry.ownerToRewardPools o).count a = _ at hold
      show (Function.update w.registry.ownerToRewardPools n.owner
          (w.registry.ownerToRewardPools n.owner ++ [n.rewardPool]) o).count a =
        if o ≠ 0 ∧ Function.update w.registry.rewardPoolToOwner n.rewardPool n.owner a = o then 1 else 0
      have hcount : (Function.update w.registry.ownerToRewardPools n.owner
          (w.registry.ownerToRewardPools n.owner ++ [n.rewardPool]) o).count a =
          (w.registry.ownerToRewardPools o).count a +
            if o = n.owner ∧ a = n.rewardPool then 1 else 0 := by
        by_cases ho : o = n.owner
        · subst ho
          have hsingle : [n.rewardPool].count a = if a = n.rewardPool then 1 else 0 := by
            by_cases ha : a = n.rewardPool
            · simp [ha]
            · simp [ha, Ne.symm ha]
          rw [Function.update_self, List.count_append, hsingle]
          simp only [true_and]
        · rw [Function.update_of_ne ho, if_neg fun h => ho h.1, Nat.add_zero]
      rw [hcount, hold]
      by_cases ha : a = n.rewardPool
      · subst ha
        have hzero : ¬(o ≠ 0 ∧ w.books.registry.rewardPoolToOwner n.rewardPool = o) :=
          fun h => h.1 (h.2.symm.trans hunknown)
        have hone : o = n.owner ↔ o ≠ 0 ∧ n.owner = o := by
          constructor
          · rintro rfl
            exact ⟨howner ▸ hsender, rfl⟩
          · exact fun h => h.2.symm
        rw [if_neg hzero, Nat.zero_add, Function.update_self]
        simp only [and_true, hone]
      · rw [Function.update_of_ne ha, if_neg (fun h : o = n.owner ∧ a = n.rewardPool => ha h.2),
          Nat.add_zero]
        rfl

theorem served_rule : BooksRule P (Sane : World F → Prop) Served where
  initial := fun w hw a ha => absurd (hw.rewardPoolToOwner a) ha
  entry := fun w call x _ hI _ _ h a ha => by
    obtain ⟨_, howners, hconsumers⟩ := h.registered
    rw [howners] at ha ⊢
    rw [hconsumers]
    exact hI a ha
  registration := fun w call x _ hI _ h a ha => by
    cases h with
    | mk n redeemToken ownerToVRFConsumer _ _ _ _ hkept hset =>
      change Function.update w.registry.rewardPoolToOwner n.rewardPool n.owner a ≠ 0 at ha
      show ownerToVRFConsumer
        (Function.update w.registry.rewardPoolToOwner n.rewardPool n.owner a) ≠ 0
      by_cases hnew : a = n.rewardPool
      · rw [hnew, Function.update_self]
        exact hset
      · rw [Function.update_of_ne hnew] at ha ⊢
        have hold : w.registry.ownerToVRFConsumer (w.registry.rewardPoolToOwner a) ≠ 0 := hI a ha
        rw [hkept _ hold]
        exact hold

/-- The consumer of an owner stays. -/
theorem ownerToVRFConsumer_step (hk : k ≠ 0) : BooksStep P (Sane : World F → Prop) fun x =>
    x.registry.ownerToVRFConsumer o = k where
  entry := fun w call x _ hI _ _ h => by
    obtain ⟨_, _, hconsumers⟩ := h.registered
    rw [hconsumers]
    exact hI
  registration := fun w call x _ hI _ h => by
    cases h with
    | mk n redeemToken ownerToVRFConsumer _ _ _ _ hkept =>
      have hold : w.registry.ownerToVRFConsumer o = k := hI
      exact (hkept o (hold ▸ hk)).trans hold

/-! ### The sender checks of a redemption -/

/-- A request made for an asset pool of a registered reward pool passes both sender checks. -/
theorem rewardPoolRequestRandomWords_succeeds (hw : Wired w.wiring) (hs : Served w.books)
    (ha : w.registry.rewardPoolToOwner a ≠ 0) (hrp : w.rewardPools a = some rp)
    (hp : p ∈ values rp.assetPools) (hid : requestId ∉ w.vrf.issued) :
    ∃ w', w.rewardPoolRequestRandomWords a p receiver requestId = .ok w' := by
  obtain ⟨rp', hrp', howner, _⟩ := hw.registered a ha
  rw [wiring_rewardPools hrp, Option.some.injEq] at hrp'
  subst hrp'
  have howner : rp.owner = w.registry.rewardPoolToOwner a := howner
  have hregistry : rp.rewardPoolRegistry = w.registryAddress :=
    (hw.rewardPool a rp.info (wiring_rewardPools hrp)).2
  have hne : w.registry.ownerToVRFConsumer rp.owner ≠ 0 := by
    rw [howner]
    exact hs a ha
  obtain ⟨info, hinfo, hconsumerOwner⟩ := hw.vrfConsumer rp.owner hne
  obtain ⟨consumer, hconsumer, rfl⟩ := Option.map_eq_some_iff.mp hinfo
  have hconsumer : w.consumers (w.registry.ownerToVRFConsumer rp.owner) = some consumer := hconsumer
  have hconsumerRegistry : consumer.rewardPoolRegistry = w.registryAddress :=
    (hw.consumer _ consumer.info hinfo).2.1
  have hpasses : w.registry.rewardPoolToOwner a = consumer.owner :=
    howner.symm.trans hconsumerOwner.symm
  have hat : ∀ b, b = w.registryAddress → w.registryAt b = .ok w.registry :=
    fun b hb => World.registryAt_eq_ok.mpr ⟨hb, rfl⟩
  cases hrequest : w.rewardPoolRequestRandomWords a p receiver requestId with
  | ok w' => exact ⟨w', rfl⟩
  | error e =>
    unfold World.rewardPoolRequestRandomWords World.consumerRequestRandomWords at hrequest
    simp only [World.rewardPool_eq_ok.mpr hrp, ok_bind, require_of hp, hat _ hregistry,
      World.consumer_eq_ok.mpr hconsumer, hat _ hconsumerRegistry, require_of hpasses,
      require_of hid] at hrequest
    cases hrequest

/-- A callback from the owner's consumer to an asset pool of a registered reward pool passes the
sender check: what is left of it is the draw and the payment. -/
theorem fulfillRedeemAsset_consumer (hw : Wired w.wiring) (hrp : w.rewardPools a = some rp)
    (hpool : w.assetPools p = some pool) (ha : pool.rewardPool = a) (words : List Nat) :
    w.fulfillRedeemAsset p (w.registry.ownerToVRFConsumer rp.owner) requestId receiver words = (do
      let (card, pool) ← pool.drawCard words
      let tokens ← w.payCard p receiver requestId card
      pure ((card.assetType, card.contractAddress, card.box.amountOrTokenId),
        { w.setPool p pool with tokens, unfulfilled := w.unfulfilled.erase (requestId, p) })) := by
  have hregistry : rp.rewardPoolRegistry = w.registryAddress :=
    (hw.rewardPool a rp.info (wiring_rewardPools hrp)).2
  unfold World.fulfillRedeemAsset
  simp only [World.assetPool_eq_ok.mpr hpool, ok_bind, ha, World.rewardPool_eq_ok.mpr hrp,
    World.registryAt_eq_ok.mpr ⟨hregistry, rfl⟩, require_of]

/-! ### Every run -/

/-- The registry, the reward pools and the VRF consumers agree. -/
structure Agreement (w : World F) : Prop where
  /-- a reward pool is in the list of its owner once, and in no other list -/
  listed : ∀ o a, (w.registry.ownerToRewardPools o).count a =
    if o ≠ 0 ∧ w.registry.rewardPoolToOwner a = o then 1 else 0
  owner : ∀ a, w.registry.rewardPoolToOwner a ≠ 0 → ∃ rp, w.rewardPools a = some rp ∧
    rp.owner = w.registry.rewardPoolToOwner a ∧ rp.rewardPoolRegistry = w.registryAddress
  consumer : ∀ a, w.registry.rewardPoolToOwner a ≠ 0 → ∃ k consumer,
    w.registry.ownerToVRFConsumer (w.registry.rewardPoolToOwner a) = k ∧
    w.consumers k = some consumer ∧ consumer.owner = w.registry.rewardPoolToOwner a ∧
    consumer.rewardPoolRegistry = w.registryAddress ∧
    ∀ k' consumer', w.consumers k' = some consumer' → consumer'.owner = consumer.owner → k' = k
  /-- the requests of an asset pool pass the checks of the reward pool and of the consumer -/
  requests : ∀ a rp p receiver requestId, w.registry.rewardPoolToOwner a ≠ 0 →
    w.rewardPools a = some rp → p ∈ values rp.assetPools → requestId ∉ w.vrf.issued →
    ∃ w', w.rewardPoolRequestRandomWords a p receiver requestId = .ok w'
  /-- the callbacks of the consumer pass the check of the asset pool -/
  callbacks : ∀ a rp p, w.registry.rewardPoolToOwner a ≠ 0 → w.rewardPools a = some rp →
    p ∈ values rp.assetPools → ∃ pool, w.assetPools p = some pool ∧ pool.rewardPool = a ∧
    ∀ requestId receiver words,
      w.fulfillRedeemAsset p (w.registry.ownerToVRFConsumer rp.owner) requestId receiver words = do
        let (card, pool) ← pool.drawCard words
        let tokens ← w.payCard p receiver requestId card
        pure ((card.assetType, card.contractAddress, card.box.amountOrTokenId),
          { w.setPool p pool with tokens, unfulfilled := w.unfulfilled.erase (requestId, p) })
  /-- a consumer serves the registered reward pools of its owner only -/
  exclusive : ∀ k consumer a assetPool receiver requestId w', w.consumers k = some consumer →
    w.consumerRequestRandomWords k a assetPool receiver requestId = .ok w' →
    w.registry.rewardPoolToOwner a = consumer.owner ∧
      ∃ rp, w.rewardPools a = some rp ∧ rp.owner = consumer.owner

theorem Agreement.of_invariants (hw : Wired w.wiring) (hlisted : Listed w.books)
    (hserved : Served w.books) : Agreement w := by
  have howner : ∀ a, w.registry.rewardPoolToOwner a ≠ 0 → ∃ rp, w.rewardPools a = some rp ∧
      rp.owner = w.registry.rewardPoolToOwner a ∧ rp.rewardPoolRegistry = w.registryAddress := by
    intro a ha
    obtain ⟨info, hinfo, howner, _⟩ := hw.registered a ha
    have hregistry := (hw.rewardPool a info hinfo).2
    obtain ⟨rp, hrp, rfl⟩ := Option.map_eq_some_iff.mp hinfo
    exact ⟨rp, hrp, howner, hregistry⟩
  constructor
  · exact hlisted
  · exact howner
  · intro a ha
    obtain ⟨info, hinfo, hconsumerOwner⟩ := hw.vrfConsumer _ (hserved a ha)
    obtain ⟨_, hregistry, _, _, hmap⟩ := hw.consumer _ info hinfo
    obtain ⟨consumer, hconsumer, rfl⟩ := Option.map_eq_some_iff.mp hinfo
    refine ⟨_, consumer, rfl, hconsumer, hconsumerOwner, hregistry, fun k' consumer' hk' ho' => ?_⟩
    have hmap' := (hw.consumer k' consumer'.info (Option.map_eq_some_iff.mpr ⟨_, hk', rfl⟩)).2.2.2.2
    have hsame : consumer'.info.owner = consumer.info.owner := ho'
    rw [hsame, hmap] at hmap'
    exact hmap'.symm
  · intro a rp p receiver requestId ha hrp hp hid
    exact rewardPoolRequestRandomWords_succeeds hw hserved ha hrp hp hid
  · intro a rp p ha hrp hp
    obtain ⟨pool, hpool, hr, _⟩ := exists_member hw hrp hp
    exact ⟨pool, hpool, hr, fun requestId receiver words =>
      fulfillRedeemAsset_consumer hw hrp hpool hr words⟩
  · intro k consumer a assetPool receiver requestId w' hconsumer h
    unfold World.consumerRequestRandomWords at h
    simp only [bind_eq_ok, require_eq_ok, World.consumer_eq_ok, World.registryAt_eq_ok] at h
    obtain ⟨consumer', hconsumer', registry, ⟨_, rfl⟩, _, hregistered, _⟩ := h
    rw [hconsumer, Option.some.injEq] at hconsumer'
    subst hconsumer'
    have hne := (hw.consumer k consumer.info
      (Option.map_eq_some_iff.mpr ⟨consumer, hconsumer, rfl⟩)).2.2.2.1
    obtain ⟨rp, hrp, ho, _⟩ := howner a (ne_of_eq_of_ne hregistered hne)
    exact ⟨hregistered, rp, hrp, ho.trans hregistered⟩

theorem kept_agreement : Kept P fun w : World F => (Sane w ∧ Listed w.books) ∧ Served w.books :=
  (kept_sane.booksRule (fun _ => id) listed_rule).booksRule (fun _ h => h.1)
    (served_rule.mono fun _ h => h.1)

/-- In every state of every run the contracts agree, and an owner keeps its VRF consumer in every
continuation of the run. -/
theorem registry_agrees (h : World.Run P cfg) : Agreement cfg.state ∧
    ∀ cfg', CallStack.Reachable (World.machine F) (fun w call => w.CanCall call ∧ P w call)
      cfg.state cfg' → ∀ o, cfg.state.registry.ownerToVRFConsumer o ≠ 0 →
      cfg'.state.registry.ownerToVRFConsumer o = cfg.state.registry.ownerToVRFConsumer o := by
  obtain ⟨⟨hsane, hlisted⟩, hserved⟩ := kept_agreement.run h
  refine ⟨.of_invariants hsane.wired hlisted hserved, fun cfg' hreach o ho => ?_⟩
  have hstep := (ownerToVRFConsumer_step (P := P) (o := o) ho).preserved fun _ => id
  exact (hreach.invariant (kept_sane.preserved.and hstep) ⟨hsane, rfl⟩).2

/-- The accounts 1 and 5 have a reward pool each. -/
def twoOwners : CallStack.Config (World ListSet) Call :=
  World.after (fun _ _ => True) [
    World.opening .CustomERC20,
    .call ⟨5, .registry (.createRewardPool 0 1011 {
      owner := 5, name := [66], redeemMethod := .ExistingERC20, redeemTokenContractAddress := 10
      redeemTokenAmount := 2, withdrawAddress := 0, admins := [], rewardPool := 1012, redeemToken := 0
      assetPool := 1014 })⟩]

theorem registry_agrees_twoOwners : Agreement twoOwners.state ∧
    twoOwners.state.registry.ownerToRewardPools 5 = [1012] ∧
    twoOwners.state.registry.ownerToVRFConsumer 5 = 1011 ∧
    twoOwners.state.registry.rewardPoolToOwner 1002 = 1 :=
  ⟨(registry_agrees (World.run_after (fun _ _ => True) _)).1, by decide, by decide,
    by decide⟩

end Redeemy
