import Redeemy.Proof.Deploy
import Redeemy.Proof.Frames

/-!
# What one call does

A successful call is quiet, or it is one of the six calls that move a pool's assets, its redeem
tokens or its price. Every call leaves the contracts wired, and the addresses of the system without
approvals. `Rule` collects what an invariant of the system has to survive, and `Kept.rule` turns it
into an invariant of every run.
-/

namespace Redeemy

open Fallible EnumerableSet

variable {F : Type → Type}
variable {w w' : World F} {pool pool' : AssetPoolV1 F} {tokens : Tokens}
variable {a p self sender receiver trailing k : Address} {assets : Assets}
variable {n value requestId : Nat} {requestIds words : List Nat} {call : Call}

/-! ### The wiring does not change -/

theorem wiring_setPool (hpool : w.assetPools p = some pool) (hinfo : pool'.info = pool.info)
    (hsame : Tokens.SameContracts w.tokens tokens) :
    { w.setPool p pool' with tokens }.wiring = w.wiring := by
  have hview := map_update_eq (f := w.assetPools) AssetPoolV1.info hpool hinfo
  simp only [World.wiring, World.setPool, hview, hsame.erc20, hsame.erc1155]

variable [EnumerableSet F]

/-- A request changes the consumer and what is recorded of requests. -/
theorem RequestSteps.frame (h : RequestSteps a p receiver requestIds w w') :
    ∃ consumers vrf unfulfilled, w' = { w with consumers, vrf, unfulfilled } := by
  refine h.invariant (I := fun w₁ => ∃ consumers vrf unfulfilled,
    w₁ = { w with consumers, vrf, unfulfilled }) ?_ ⟨_, _, _, rfl⟩
  rintro _ requestId w₂ ⟨consumers, vrf, unfulfilled, rfl⟩ ⟨⟩
  exact ⟨_, _, _, rfl⟩

theorem RequestStep.wiring (h : RequestStep w a p receiver requestId w') : w'.wiring = w.wiring := by
  cases h with
  | @mk rp k consumer _ _ _ hconsumer =>
    have hinfo : { consumer with
        requestIds := Function.update consumer.requestIds requestId ⟨p, receiver⟩ }.info =
          consumer.info := rfl
    have hview := map_update_eq (f := w.consumers) RewardVRFConsumerV1.info hconsumer hinfo
    simp only [World.wiring, hview]

theorem RequestSteps.wiring (h : RequestSteps a p receiver requestIds w w') :
    w'.wiring = w.wiring :=
  h.invariant (I := fun w₁ => w₁.wiring = w.wiring)
    (fun _ _ _ hw₁ hstep => hstep.wiring.trans hw₁) rfl

/-! ### Deposits, withdrawals, redemptions and callbacks -/

theorem Deposit.spares (ha : a ≠ sender) (h : Deposit w self sender value assets w') :
    Tokens.Spares a w.tokens w'.tokens := by
  cases h with
  | mk _ _ _ hsend _ _ _ _ h20 _ hself h721 _ _ hmint =>
    -- the value goes to the pool, and from the pool to itself
    have hin := (Tokens.spares_send (.inl ha) hsend).trans (h20.spares ha)
    have hnative := Tokens.spares_send (a := a) (.inr (.inr rfl)) hself
    have hout := Tokens.spares_record.trans ((h721.spares ha).trans (spares_mintRedeemTokens hmint))
    exact hin.trans (hnative.trans hout)

theorem Deposit.wiring (hself : self ≠ sender) (h : Deposit w self sender value assets w') :
    w'.wiring = w.wiring := by
  have hsame := (h.spares hself).contracts
  cases h with
  | mk hpool _ _ _ _ _ _ _ h20 hnative _ h721 =>
    have hterms := h20.sameTerms.trans ((sameTerms_storeBoxes hnative).trans h721.sameTerms)
    exact wiring_setPool hpool hterms.info hsame

theorem Withdraw.keeps (h : Withdraw w self sender assets w') : Tokens.Keeps a w.tokens w'.tokens := by
  cases h with
  | mk _ _ _ hsteps _ _ _ hmint =>
    exact hsteps.keeps.trans (spares_mintRedeemTokens hmint).toKeeps

theorem Withdraw.spares (ha : a ≠ self) (h : Withdraw w self sender assets w') :
    Tokens.Spares a w.tokens w'.tokens := by
  cases h with
  | mk _ _ _ hsteps _ _ _ hmint => exact (hsteps.spares ha).trans (spares_mintRedeemTokens hmint)

theorem Withdraw.wiring (h : Withdraw w self sender assets w') : w'.wiring = w.wiring := by
  have hsame := (h.keeps (a := self)).contracts
  cases h with
  | mk hpool _ _ hsteps => exact wiring_setPool hpool hsteps.sameTerms.info hsame

theorem Fulfill.keeps (h : Fulfill w k sender requestId words w') :
    Tokens.Keeps a w.tokens w'.tokens := by
  cases h with
  | mk _ _ _ _ _ _ _ hpay => exact keeps_payCard hpay

theorem Fulfill.wiring (h : Fulfill w k sender requestId words w') : w'.wiring = w.wiring := by
  have hsame := (h.keeps (a := k)).contracts
  cases h with
  | mk _ _ _ hpool _ _ hdraw => exact wiring_setPool hpool (drawCard_eq_ok hdraw).info_eq hsame

/-- The reward pool of a pool that redeems is registered. -/
theorem Redeem.registered (hw : Wired w.wiring) (hpool : w.assetPools self = some pool)
    (h : Redeem w self sender trailing n requestIds w') :
    w.registry.rewardPoolToOwner pool.rewardPool ≠ 0 := by
  cases h with
  | mk hpool' _ _ hone _ _ _ hlen hrequests =>
    rw [hpool, Option.some.injEq] at hpool'
    subst hpool'
    cases hrequests with
    | nil => simp at hlen; omega
    | cons hfirst =>
      cases hfirst with
      | mk _ _ _ hconsumer hregistered =>
        have hinfo := hw.consumer _ _ (Option.map_eq_some_iff.mpr ⟨_, hconsumer, rfl⟩)
        exact ne_of_eq_of_ne hregistered hinfo.2.2.2.1

/-- The forwarder of a pool that redeems is the one the registry trusts. -/
theorem Redeem.trustedForwarder (hw : Wired w.wiring) (hpool : w.assetPools self = some pool)
    (h : Redeem w self sender trailing n requestIds w') :
    pool.trustedForwarder = w.registry.trustedForwarder := by
  obtain ⟨rp, hrp, _, hforwarder⟩ := hw.registered _ (h.registered hw hpool)
  obtain ⟨_, rp', hrp', hforwarder'⟩ :=
    hw.assetPool self pool.info (Option.map_eq_some_iff.mpr ⟨pool, hpool, rfl⟩)
  rw [show pool.info.rewardPool = pool.rewardPool from rfl, hrp, Option.some.injEq] at hrp'
  subst hrp'
  exact hforwarder'.trans hforwarder

/-- So the user is not an address of the system. -/
theorem Redeem.user (hw : Wired w.wiring) (hs : w.system sender = false)
    (htrailing : sender = w.registry.trustedForwarder → w.system trailing = false)
    (hpool : w.assetPools self = some pool) (h : Redeem w self sender trailing n requestIds w') :
    w.system (World.msgSender pool sender trailing) = false := by
  unfold World.msgSender
  split_ifs with heq
  · exact htrailing (heq.trans (h.trustedForwarder hw hpool))
  · exact hs

theorem Redeem.spares (ha : ∀ pool, w.assetPools self = some pool →
      a ≠ World.msgSender pool sender trailing)
    (h : Redeem w self sender trailing n requestIds w') : Tokens.Spares a w.tokens w'.tokens := by
  cases h with
  | mk hpool _ _ _ _ _ hpay _ hrequests =>
    obtain ⟨_, _, _, rfl⟩ := hrequests.frame
    exact spares_takePayment (ha _ hpool) hpay

theorem Redeem.wiring (hself : ∀ pool, w.assetPools self = some pool →
      self ≠ World.msgSender pool sender trailing)
    (h : Redeem w self sender trailing n requestIds w') : w'.wiring = w.wiring := by
  have hsame := (h.spares hself).contracts
  cases h with
  | mk hpool _ _ _ _ _ hpay _ hrequests =>
    obtain ⟨_, _, _, heq⟩ := hrequests.frame
    rw [heq] at hsame
    exact hrequests.wiring.trans (wiring_setPool hpool rfl hsame)

/-! ### Every call -/

/-- The contracts are wired, and the addresses of the system have approved nobody. -/
structure Sane (w : World F) : Prop where
  wired : Wired w.wiring
  guarded : Guarded w

/-- The calls that move the assets of a pool, its redeem tokens or its price. -/
inductive Change (w : World F) (call : Call) : World F → Prop where
  | setPrice {pool : AssetPoolV1 F} (self : Address) (redeemTokenAmount : Nat)
      (hcall : call.action = .assetPool self (.setRedeemTokenAmount redeemTokenAmount))
      (hpool : w.assetPools self = some pool) (hpos : 0 < redeemTokenAmount) :
      Change w call (w.setPool self { pool with redeemTokenAmount })
  | handOut {pool : AssetPoolV1 F} {rp : RewardPoolV1 F} {tokens : Tokens} (self dst : Address)
      (amount : Nat)
      (hpool : w.assetPools self = some pool) (hrp : w.rewardPools pool.rewardPool = some rp)
      (htransfer : transferRedeemToken w.rewardPools self w.system rp pool w.tokens dst amount =
        .ok tokens) :
      Change w call { w with tokens }
  | deposit {w' : World F} (self : Address) (value : Nat) (assets : Assets)
      (hcall : call.action = .assetPool self (.depositAssets value assets))
      (h : Deposit w self call.sender value assets w') : Change w call w'
  | withdraw {w' : World F} (self : Address) (assets : Assets)
      (hcall : call.action = .assetPool self (.withdrawAssets assets))
      (h : Withdraw w self call.sender assets w') : Change w call w'
  | redeem {w' : World F} (self trailing : Address) (n : Nat) (requestIds : List Nat)
      (hcall : call.action = .assetPool self (.redeemAsset trailing n requestIds))
      (huser : ∀ pool, w.assetPools self = some pool →
        w.system (World.msgSender pool call.sender trailing) = false)
      (h : Redeem w self call.sender trailing n requestIds w') : Change w call w'
  | fulfill {w' : World F} (k : Address) (requestId : Nat) (words : List Nat)
      (hcall : call.action = .consumer k (.rawFulfillRandomWords requestId words))
      (h : Fulfill w k call.sender requestId words w') : Change w call w'

theorem system_of_assetPool (hw : Wired w.wiring) (hpool : w.assetPools p = some pool) :
    w.system p = true :=
  (hw.system p (hw.assetPool p pool.info (Option.map_eq_some_iff.mpr ⟨pool, hpool, rfl⟩)).1).2

theorem system_of_registered (hw : Wired w.wiring) (h : w.registry.rewardPoolToOwner a ≠ 0) :
    w.system a = true := by
  obtain ⟨rp, hrp, _⟩ := hw.registered a h
  exact (hw.system a (hw.rewardPool a rp hrp).1).2

theorem registryCall_eq_ok {c : RegistryCall} (hw : Wired w.wiring) (hs : w.system sender = false)
    (h : w.registryCall sender c = .ok w') : Quiet w w' ∧ Wired w'.wiring := by
  cases c with
  | createRewardPool value newVRFConsumer n =>
    obtain ⟨hquiet, hwiring⟩ := quiet_createRewardPoolFee hs h
    exact ⟨hquiet, hwiring ▸ hw⟩
  | setNewRewardPoolName pool name =>
    obtain ⟨hquiet, hwiring⟩ := quiet_setNewRewardPoolName h
    exact ⟨hquiet, hwiring ▸ hw⟩
  | createPaymaster newPaymaster => exact quiet_createPaymaster hw h
  | setRewardPoolCreationFee fee =>
    simp only [World.registryCall, bind_eq_ok, require_eq_ok, pure_eq_ok] at h
    obtain ⟨_, _, rfl⟩ := h
    exact ⟨{ (Quiet.refl : Quiet w w) with }, hw⟩
  | setRevenueWallet wallet =>
    simp only [World.registryCall, bind_eq_ok, require_eq_ok, pure_eq_ok] at h
    obtain ⟨_, _, rfl⟩ := h
    exact ⟨{ (Quiet.refl : Quiet w w) with }, hw⟩
  | transferOwnership owner =>
    simp only [World.registryCall, bind_eq_ok, require_eq_ok, pure_eq_ok] at h
    obtain ⟨_, _, _, _, rfl⟩ := h
    exact ⟨{ (Quiet.refl : Quiet w w) with }, hw⟩

theorem factoryCall_eq_ok {c : FactoryCall} (hw : Wired w.wiring) (hs : w.system sender = false)
    (h : w.factoryCall sender c = .ok w') : Quiet w w' ∧ Wired w'.wiring := by
  cases c with
  | createAssetPool value rewardPool id redeemTokenAmount clone =>
    obtain ⟨hquiet, hw', _⟩ := quiet_createClone hw (.inr hs) h
    exact ⟨hquiet, hw'⟩
  | createRewardPool forwarder n =>
    obtain ⟨hquiet, hw', _⟩ := quiet_createRewardPoolClone hw h
    exact ⟨hquiet, hw'⟩

theorem rewardPoolCall_eq_ok {c : RewardPoolCall} (hw : Wired w.wiring)
    (hs : w.system sender = false) (h : w.rewardPoolCall a sender c = .ok w') :
    Quiet w w' ∧ Wired w'.wiring := by
  have hsetting : ∀ {f : RewardPoolV1 F → Result (RewardPoolV1 F)},
      (∀ rp rp', f rp = .ok rp' → rp'.info = rp.info) →
      w.rewardPoolOnlyOwner a sender f = .ok w' → Quiet w w' ∧ Wired w'.wiring := by
    intro f hinfo hf
    obtain ⟨hquiet, hwiring⟩ := quiet_rewardPoolOnlyOwner hinfo hf
    exact ⟨hquiet, hwiring ▸ hw⟩
  have hpure : ∀ {f : RewardPoolV1 F → RewardPoolV1 F},
      w.rewardPoolOnlyOwner a sender (fun rp => pure (f rp)) = .ok w' →
      (∀ rp, (f rp).info = rp.info) → Quiet w w' ∧ Wired w'.wiring := by
    intro f hf hinfo
    refine hsetting (fun rp rp' hrp => ?_) hf
    rw [pure_eq_ok] at hrp
    exact hrp ▸ hinfo rp
  cases c with
  | createAssetPool redeemTokenAmount clone =>
    simp only [World.rewardPoolCall, bind_eq_ok] at h
    obtain ⟨_, _, _, _, h⟩ := h
    obtain ⟨hquiet, hw', _⟩ := quiet_createAssetPool hw h
    exact ⟨hquiet, hw'⟩
  | setWithdrawAddress => exact hpure h fun _ => rfl
  | setActive => exact hpure h fun _ => rfl
  | setNewName name =>
    -- only the registry may make this call, and it is an address of the system
    simp only [World.rewardPoolCall, bind_eq_ok, require_eq_ok, World.rewardPool_eq_ok] at h
    obtain ⟨rp, hrp, _, rfl, _⟩ := h
    have hregistry := (hw.rewardPool a rp.info (Option.map_eq_some_iff.mpr ⟨rp, hrp, rfl⟩)).2
    have hsystem := (hw.system _ hw.registry).2
    exact absurd hregistry.symm (ne_of_system hsystem hs)
  | addTransferrers => exact hsetting (fun _ _ => info_addTransferrers) h
  | removeTransferrers => exact hpure h fun _ => rfl
  | addAdmins => exact hsetting (fun _ _ => info_addAdmins) h
  | removeAdmins => exact hpure h fun _ => rfl
  | requestRandomWords receiver requestId =>
    cases rewardPoolRequestRandomWords_eq_ok h with
    | mk hrp hmem => exact absurd rfl (ne_of_system (system_of_assetPoolOf hw ⟨_, hrp, hmem⟩) hs)

/-- Nobody outside the system is the VRF consumer of an owner. -/
theorem ne_ownerToVRFConsumer {o : Address} (hw : Wired w.wiring) (hs : w.system sender = false)
    (h0 : sender ≠ 0) : sender ≠ w.registry.ownerToVRFConsumer o := by
  rintro rfl
  obtain ⟨consumer, hconsumer, _⟩ := hw.vrfConsumer o h0
  exact ne_of_system (hw.system _ (hw.consumer _ consumer hconsumer).1).2 hs rfl

/-- Only a VRF consumer fulfils a redemption. -/
theorem fulfillRedeemAsset_ne_ok {r : (AssetType × Address × Nat) × World F} (hw : Wired w.wiring)
    (hs : w.system sender = false) (h0 : sender ≠ 0) :
    w.fulfillRedeemAsset a sender requestId receiver words ≠ .ok r := by
  intro h
  simp only [World.fulfillRedeemAsset, bind_eq_ok, require_eq_ok, World.registryAt_eq_ok] at h
  obtain ⟨_, _, rp, _, registry, ⟨_, rfl⟩, _, hsender, _⟩ := h
  exact ne_ownerToVRFConsumer hw hs h0 hsender

theorem transferRedeemTokens_eq_ok {dst : Address} {amountOf : AssetPoolV1 F → Result Nat}
    (h : w.transferRedeemTokens self call.sender dst amountOf = .ok w') : Change w call w' := by
  unfold World.transferRedeemTokens at h
  simp only [bind_eq_ok, require_eq_ok, pure_eq_ok, World.assetPool_eq_ok,
    World.rewardPool_eq_ok] at h
  obtain ⟨pool, hpool, rp, hrp, _, _, _, _, amount, _, tokens, htransfer, rfl⟩ := h
  exact .handOut self dst amount hpool hrp htransfer

theorem assetPoolCall_eq_ok {c : AssetPoolCall} (hw : Wired w.wiring) (hcan : w.CanCall call)
    (hcall : call.action = .assetPool a c) (h : w.assetPoolCall a call.sender c = .ok w') :
    Change w call w' := by
  obtain ⟨h0, hs, htrailing⟩ := hcan
  rw [hcall] at htrailing
  cases c with
  | setRedeemTokenAmount redeemTokenAmount =>
    simp only [World.assetPoolCall, bind_eq_ok, require_eq_ok, pure_eq_ok,
      World.assetPool_eq_ok] at h
    obtain ⟨pool, hpool, _, _, _, _, _, hpos, rfl⟩ := h
    exact .setPrice a redeemTokenAmount hcall hpool hpos
  | depositAssets value assets => exact .deposit a value assets hcall (depositAssets_eq_ok h)
  | withdrawAssets assets => exact .withdraw a assets hcall (withdrawAssets_eq_ok h)
  | transferRedeemTokenNumber dst number => exact transferRedeemTokens_eq_ok h
  | transferRedeemTokenAmount dst amount => exact transferRedeemTokens_eq_ok h
  | redeemAsset trailing n requestIds =>
    have hredeem := redeemAsset_eq_ok h
    exact .redeem a trailing n requestIds hcall
      (fun pool hpool => hredeem.user hw hs htrailing hpool) hredeem
  | fulfillRedeemAsset requestId receiver words =>
    simp only [World.assetPoolCall, bind_eq_ok] at h
    obtain ⟨_, h, _⟩ := h
    exact absurd h (fulfillRedeemAsset_ne_ok hw hs h0)

theorem consumerCall_eq_ok {c : ConsumerCall} (hw : Wired w.wiring)
    (hs : w.system call.sender = false) (hcall : call.action = .consumer a c)
    (h : w.consumerCall a call.sender c = .ok w') : Change w call w' := by
  cases c with
  | requestRandomWords assetPool receiver requestId =>
    -- only a registered reward pool may make this call
    simp only [World.consumerCall, World.consumerRequestRandomWords, bind_eq_ok, require_eq_ok,
      World.registryAt_eq_ok, World.consumer_eq_ok] at h
    obtain ⟨consumer, hconsumer, _, ⟨_, rfl⟩, _, hregistered, _⟩ := h
    have hinfo := hw.consumer a _ (Option.map_eq_some_iff.mpr ⟨consumer, hconsumer, rfl⟩)
    have hsystem := system_of_registered hw (ne_of_eq_of_ne hregistered hinfo.2.2.2.1)
    exact absurd rfl (ne_of_system hsystem hs)
  | rawFulfillRandomWords requestId words =>
    exact .fulfill a requestId words hcall (rawFulfillRandomWords_eq_ok h)

/-- The first half of every call: it is quiet and leaves the contracts wired, or it is a change. -/
theorem enter_eq_ok (hw : Wired w.wiring) (hcan : w.CanCall call) (h : w.enter call = .ok w') :
    (Quiet w w' ∧ Wired w'.wiring) ∨ Change w call w' := by
  have hs := hcan.2.1
  have hwire : (Quiet w w' ∧ w'.wiring = w.wiring) → Quiet w w' ∧ Wired w'.wiring :=
    fun hq => ⟨hq.1, hq.2.symm ▸ hw⟩
  unfold World.enter at h
  cases haction : call.action with
  | registry c =>
    rw [haction] at h
    exact .inl (registryCall_eq_ok hw hs h)
  | factory c =>
    rw [haction] at h
    exact .inl (factoryCall_eq_ok hw hs h)
  | rewardPool a c =>
    rw [haction] at h
    exact .inl (rewardPoolCall_eq_ok hw hs h)
  | assetPool a c =>
    rw [haction] at h
    exact .inr (assetPoolCall_eq_ok hw hcan haction h)
  | consumer a c =>
    rw [haction] at h
    exact .inr (consumerCall_eq_ok hw hs haction h)
  | paymaster a c =>
    rw [haction] at h
    exact .inl (hwire (quiet_paymasterCall h))
  | erc20 a c =>
    simp only [haction, bind_eq_ok, pure_eq_ok] at h
    obtain ⟨tokens, htokens, rfl⟩ := h
    exact .inl (hwire (quiet_erc20Call hw hs htokens))
  | erc721 a c =>
    simp only [haction, bind_eq_ok, pure_eq_ok] at h
    obtain ⟨tokens, htokens, rfl⟩ := h
    exact .inl (hwire (quiet_erc721Call hs htokens))
  | erc1155 a c =>
    simp only [haction, bind_eq_ok, pure_eq_ok] at h
    obtain ⟨tokens, htokens, rfl⟩ := h
    exact .inl (hwire (quiet_erc1155Call hw hs htokens))
  | sendNative dst value =>
    simp only [haction, bind_eq_ok, require_eq_ok, pure_eq_ok] at h
    obtain ⟨_, _, tokens, htokens, rfl⟩ := h
    exact .inl (hwire (quiet_send (fun a ha => .inl (ne_of_system ha hs)) htokens))
  | setRefuses refuses =>
    simp only [haction, pure_eq_ok] at h
    subst h
    exact .inl ⟨{ (Quiet.refl : Quiet w w) with
      unissued := Quiet.unissued_of_same rfl
      leaves := fun a _ => ⟨fun hguards => ⟨hguards.erc20, hguards.erc721⟩,
        fun _ _ tok htok => ⟨tok, htok, Nat.le_refl _⟩,
        fun _ _ tok htok => ⟨tok, htok, fun _ => id⟩, Nat.le_refl _⟩ }, hw⟩

/-- The second half of a call is quiet too. -/
theorem leave_eq_ok (hw : Wired w.wiring) (h0 : call.sender ≠ 0) (h : w.leave call = .ok w') :
    Quiet w w' ∧ Wired w'.wiring := by
  unfold World.leave at h
  split at h
  · simp only [bind_eq_ok] at h
    obtain ⟨name, _, h⟩ := h
    exact quiet_createRewardPoolRest hw h0 h
  · rw [pure_eq_ok] at h
    subst h
    exact ⟨.refl, hw⟩

/-! ### Sane states -/

theorem Change.wiring (hw : Wired w.wiring) (hcan : w.CanCall call) (h : Change w call w') :
    w'.wiring = w.wiring := by
  cases h with
  | setPrice self redeemTokenAmount _ hpool => exact wiring_setPool hpool rfl .refl
  | handOut self dst amount _ _ htransfer =>
    exact wiring_tokens (keeps_transferRedeemToken (a := self) htransfer).contracts
  | deposit self value assets _ h =>
    refine h.wiring ?_
    cases h with
    | mk hpool => exact ne_of_system (system_of_assetPool hw hpool) hcan.2.1
  | withdraw self assets _ h => exact h.wiring
  | redeem self trailing n requestIds _ huser h =>
    exact h.wiring fun pool hpool => ne_of_system (system_of_assetPool hw hpool) (huser pool hpool)
  | fulfill k requestId words _ h => exact h.wiring

theorem Change.system (hw : Wired w.wiring) (hcan : w.CanCall call) (h : Change w call w') :
    w'.system = w.system :=
  congrArg Wiring.system (h.wiring hw hcan)

theorem Change.keeps (hcan : w.CanCall call) (h : Change w call w') (ha : w.system a = true) :
    Tokens.Keeps a w.tokens w'.tokens := by
  cases h with
  | setPrice => exact .refl
  | handOut self dst amount _ _ htransfer => exact keeps_transferRedeemToken htransfer
  | deposit self value assets _ h => exact (h.spares (ne_of_system ha hcan.2.1)).toKeeps
  | withdraw self assets _ h => exact h.keeps
  | redeem self trailing n requestIds _ huser h =>
    exact (h.spares fun pool hpool => ne_of_system ha (huser pool hpool)).toKeeps
  | fulfill k requestId words _ h => exact h.keeps

theorem Change.sane (hw : Sane w) (hcan : w.CanCall call) (h : Change w call w') : Sane w' where
  wired := (h.wiring hw.wired hcan).symm ▸ hw.wired
  guarded := fun a ha => by
    rw [h.system hw.wired hcan] at ha
    exact (h.keeps hcan ha).guards (hw.guarded a ha)

theorem sane_initial (h : w.Initial) : Sane w where
  wired := wired_initial h
  guarded := fun a ha =>
    ⟨fun c tok htok spender => (h.erc20 c tok htok).2.2 a spender ha,
      fun c tok htok => ⟨fun operator => (h.erc721 c tok htok).1 a operator ha,
        fun tokenId hid => (h.erc721 c tok htok).2 tokenId a hid ha⟩⟩

/-! ### Invariants of every run -/

variable {P Q : World F → Call → Prop} {I J : World F → Prop}
variable {c : CallStack.Config (World F) Call}

/-- `I` is an inductive invariant of the runs whose calls satisfy `P`. -/
structure Kept (P : World F → Call → Prop) (I : World F → Prop) : Prop where
  initial : ∀ w, w.Initial → I w
  preserved : CallStack.Preserved (World.machine F) (fun w call => w.CanCall call ∧ P w call)
    (fun _ => True) I

theorem Kept.run (h : Kept P I) (hc : World.Run P c) : I c.state := by
  obtain ⟨w₀, hw₀, hreach⟩ := hc
  exact hreach.invariant h.preserved (h.initial w₀ hw₀)

theorem Kept.mono (hPQ : ∀ w call, P w call → Q w call) (h : Kept Q I) : Kept P I :=
  ⟨h.initial, h.preserved.mono fun w call hP => ⟨hP.1, hPQ w call hP.2⟩⟩

theorem Kept.of_iff (hIJ : ∀ w, I w ↔ J w) (h : Kept P I) : Kept P J :=
  (funext fun w => propext (hIJ w) : I = J) ▸ h

/-- What an invariant has to survive, in states that satisfy `J`. -/
structure Rule (P : World F → Call → Prop) (J I : World F → Prop) : Prop where
  initial : ∀ w, w.Initial → I w
  quiet : ∀ w w', J w → I w → Quiet w w' → I w'
  change : ∀ w call w', J w → I w → w.CanCall call → P w call → Change w call w' → I w'
  forget : ∀ w requestId k, J w → I w → I (w.forget requestId k)

theorem abort_eq (w : World F) (call : Call) : (World.machine F).abort call w = w ∨
    ∃ requestId k, (World.machine F).abort call w = w.forget requestId k := by
  show w.abort call = w ∨ ∃ requestId k, w.abort call = w.forget requestId k
  unfold World.abort
  split
  · split
    · split_ifs
      · exact .inr ⟨_, _, rfl⟩
      · exact .inl rfl
    · exact .inl rfl
  · exact .inl rfl

theorem kept_sane : Kept P (Sane : World F → Prop) where
  initial := fun _ => sane_initial
  preserved := {
    enter := fun call w w' _ hw hP h => by
      rcases enter_eq_ok hw.wired hP.1 h with ⟨hquiet, hwired⟩ | hchange
      · exact ⟨hwired, hquiet.guarded hw.guarded⟩
      · exact hchange.sane hw hP.1
    leave := fun call w w' _ hw hP h => by
      obtain ⟨_, hP⟩ := hP
      obtain ⟨hquiet, hwired⟩ := leave_eq_ok hw.wired hP.1.1 h
      exact ⟨hwired, hquiet.guarded hw.guarded⟩
    abort := fun call w _ hw _ => by
      rcases abort_eq w call with heq | ⟨requestId, k, heq⟩
      · rwa [heq]
      · rw [heq]
        exact ⟨hw.wired, hw.guarded⟩ }

/-- The rule for an invariant that leans on one proved before. -/
theorem Kept.rule (hJ : Kept P J) (hsane : ∀ w, J w → Sane w) (hI : Rule P J I) :
    Kept P (fun w => J w ∧ I w) where
  initial := fun w hw => ⟨hJ.initial w hw, hI.initial w hw⟩
  preserved := hJ.preserved.and {
    enter := fun call w w' hw hi hP h => by
      rcases enter_eq_ok (hsane w hw).wired hP.1 h with ⟨hquiet, _⟩ | hchange
      · exact hI.quiet w w' hw hi hquiet
      · exact hI.change w call w' hw hi hP.1 hP.2 hchange
    leave := fun call w w' hw hi hP h => by
      obtain ⟨_, hP⟩ := hP
      obtain ⟨hquiet, _⟩ := leave_eq_ok (hsane w hw).wired hP.1.1 h
      exact hI.quiet w w' hw hi hquiet
    abort := fun call w hw hi _ => by
      rcases abort_eq w call with heq | ⟨requestId, k, heq⟩
      · rwa [heq]
      · rw [heq]
        exact hI.forget w requestId k hw hi }

/-! ### Invariants of one pool -/

omit [EnumerableSet F] in
theorem setPool_self {pool₁ : AssetPoolV1 F}
    (h : (w.setPool p pool₁).assetPools p = some pool') : pool₁ = pool' := by
  simpa [World.setPool] using h

omit [EnumerableSet F] in
theorem setPool_cases {pool₁ : AssetPoolV1 F}
    (h : (w.setPool self pool₁).assetPools p = some pool') :
    (p = self ∧ pool' = pool₁) ∨ (p ≠ self ∧ w.assetPools p = some pool') := by
  by_cases hp : p = self
  · subst hp
    exact .inl ⟨rfl, (setPool_self h).symm⟩
  · exact .inr ⟨hp, by simpa [World.setPool, hp] using h⟩

/-- No change makes a new pool. -/
theorem Change.exists_old (h : Change w call w') (hpool' : w'.assetPools p = some pool') :
    ∃ pool, w.assetPools p = some pool := by
  have hset : ∀ {self : Address} {pool₀ pool₁ : AssetPoolV1 F}, w.assetPools self = some pool₀ →
      (w.setPool self pool₁).assetPools p = some pool' → ∃ pool, w.assetPools p = some pool := by
    intro self pool₀ pool₁ hpool₀ hset
    rcases setPool_cases hset with ⟨rfl, _⟩ | ⟨_, hold⟩
    · exact ⟨pool₀, hpool₀⟩
    · exact ⟨pool', hold⟩
  cases h with
  | setPrice self redeemTokenAmount _ hpool => exact hset hpool hpool'
  | handOut => exact ⟨pool', hpool'⟩
  | deposit self value assets _ h =>
    cases h with
    | mk hpool => exact hset hpool hpool'
  | withdraw self assets _ h =>
    cases h with
    | mk hpool => exact hset hpool hpool'
  | redeem self trailing n requestIds _ _ h =>
    cases h with
    | mk hpool _ _ _ _ _ _ _ hrequests =>
      obtain ⟨_, _, _, rfl⟩ := hrequests.frame
      exact hset hpool hpool'
  | fulfill k requestId words _ h =>
    cases h with
    | mk _ _ _ hpool => exact hset hpool hpool'

/-- What a property of the boxes of the pool at `p` has to survive, in states that satisfy `J`. -/
structure PoolRule (P : World F → Call → Prop) (p : Address) (J : World F → Prop)
    (I : AssetPoolV1 F → Prop) : Prop where
  initial : ∀ a id price forwarder, I (.initial a id price forwarder)
  congr : ∀ pool pool' : AssetPoolV1 F, pool'.assetBoxes = pool.assetBoxes →
    pool'.contractAddresses = pool.contractAddresses → I pool → I pool'
  deposit : ∀ w call value assets w' pool pool', J w → P w call →
    call.action = .assetPool p (.depositAssets value assets) →
    Deposit w p call.sender value assets w' → w.assetPools p = some pool →
    w'.assetPools p = some pool' → I pool → I pool'
  withdraw : ∀ w call assets w' pool pool', J w → P w call →
    call.action = .assetPool p (.withdrawAssets assets) →
    Withdraw w p call.sender assets w' → w.assetPools p = some pool →
    w'.assetPools p = some pool' → I pool → I pool'
  drawn : ∀ pool pool' card, Drawn pool pool' card → I pool → I pool'

/-- `I` holds of the pool at `p`, if there is one. -/
def OnPool (p : Address) (I : AssetPoolV1 F → Prop) (w : World F) : Prop :=
  ∀ pool, w.assetPools p = some pool → I pool

omit [EnumerableSet F] in
theorem onPool_initial {I : AssetPoolV1 F → Prop} (hw : w.Initial) : OnPool p I w := by
  intro pool hpool
  rw [hw.assetPools] at hpool
  cases hpool

theorem OnPool.quiet {I : AssetPoolV1 F → Prop} (hI : OnPool p I w) (hquiet : Quiet w w')
    (hinitial : ∀ a id price forwarder, 0 < price → I (.initial a id price forwarder)) :
    OnPool p I w' := by
  intro pool' hpool'
  rcases hquiet.assetPools p with hsame | ⟨_, a, id, price, forwarder, hprice, hnew⟩
  · exact hI pool' (hsame ▸ hpool')
  · rw [hnew, Option.some.injEq] at hpool'
    exact hpool' ▸ hinitial a id price forwarder hprice

omit [EnumerableSet F] in
/-- A pool that is written is the one at `p`, or the one at `p` stays as it is. -/
theorem OnPool.of_setPool {I : AssetPoolV1 F → Prop} {pool₀ pool₁ : AssetPoolV1 F}
    (hI : OnPool p I w) (hset : (w.setPool self pool₁).assetPools p = some pool')
    (hpool₀ : w.assetPools self = some pool₀) (hstep : I pool₀ → I pool₁) : I pool' := by
  rcases setPool_cases hset with ⟨rfl, rfl⟩ | ⟨_, hold⟩
  · exact hstep (hI pool₀ hpool₀)
  · exact hI pool' hold

theorem PoolRule.rule {I : AssetPoolV1 F → Prop} (h : PoolRule P p J I) :
    Rule P J (OnPool p I) where
  initial := fun w => onPool_initial
  quiet := fun w w' _ hI hquiet =>
    hI.quiet hquiet fun a id price forwarder _ => h.initial a id price forwarder
  change := fun w call w' hJ hI _ hP hchange pool' hpool' => by
    obtain ⟨pool, hpool⟩ := hchange.exists_old hpool'
    cases hchange with
    | setPrice self redeemTokenAmount _ hself =>
      exact hI.of_setPool hpool' hself (h.congr _ _ rfl rfl)
    | handOut => exact hI pool' hpool'
    | deposit self value assets hcall hdeposit =>
      by_cases hp : p = self
      · subst hp
        exact h.deposit w call value assets w' pool pool' hJ hP hcall hdeposit hpool hpool'
          (hI pool hpool)
      · cases hdeposit with
        | mk hself => exact hI pool' (by simpa [World.setPool, hp] using hpool')
    | withdraw self assets hcall hwithdraw =>
      by_cases hp : p = self
      · subst hp
        exact h.withdraw w call assets w' pool pool' hJ hP hcall hwithdraw hpool hpool'
          (hI pool hpool)
      · cases hwithdraw with
        | mk hself => exact hI pool' (by simpa [World.setPool, hp] using hpool')
    | redeem self trailing n requestIds _ _ hredeem =>
      cases hredeem with
      | mk hself _ _ _ _ _ _ _ hrequests =>
        obtain ⟨_, _, _, rfl⟩ := hrequests.frame
        exact hI.of_setPool hpool' hself (h.congr _ _ rfl rfl)
    | fulfill k requestId words _ hfulfill =>
      cases hfulfill with
      | mk _ _ _ hself _ _ hdraw =>
        exact hI.of_setPool hpool' hself (h.drawn _ _ _ (drawCard_eq_ok hdraw))
  forget := fun w requestId k _ hI => hI

/-- What a property of the boxes of the pool at `p` has to survive, if it survives each small step. -/
structure StepRule (p : Address) (I : AssetPoolV1 F → Prop) : Prop where
  initial : ∀ a id price forwarder, I (.initial a id price forwarder)
  congr : ∀ pool pool' : AssetPoolV1 F, pool'.assetBoxes = pool.assetBoxes →
    pool'.contractAddresses = pool.contractAddresses → I pool → I pool'
  deposit : ∀ admin assets s s', DepositStep p admin assets s s' → I s.1 → I s'.1
  native : ∀ admin boxes pool pool',
    storeBoxes admin (pool.addContract .NativeToken p) .NativeToken p boxes = .ok pool' →
    I pool → I pool'
  withdraw : ∀ accepts assets s s', WithdrawStep accepts p assets s s' → I s.1 → I s'.1
  drawn : ∀ pool pool' card, Drawn pool pool' card → I pool → I pool'

theorem StepRule.poolRule {I : AssetPoolV1 F → Prop} (h : StepRule p I) : PoolRule P p J I where
  initial := h.initial
  congr := h.congr
  deposit := fun w call value assets w' pool pool' _ _ _ hdeposit hpool hpool' hI => by
    have hsteps : ∀ {s s' : AssetPoolV1 F × Tokens}, DepositSteps p call.sender assets s s' →
        I s.1 → I s'.1 := fun hsteps hs => by
      induction hsteps with
      | refl => exact hs
      | tail _ hstep ih => exact h.deposit _ _ _ _ hstep ih
    cases hdeposit with
    | mk hself _ _ _ _ _ _ _ h20 hnative _ h721 =>
      obtain rfl := Option.some.inj (hpool.symm.trans hself)
      obtain rfl := setPool_self hpool'
      have h₁ := hsteps h20 (h.congr pool _ rfl rfl hI)
      exact hsteps h721 (h.native _ _ _ _ hnative h₁)
  withdraw := fun w call assets w' pool pool' _ _ _ hwithdraw hpool hpool' hI => by
    have hsteps : ∀ {s s' : AssetPoolV1 F × Tokens}, WithdrawSteps w.accepts p assets s s' →
        I s.1 → I s'.1 := fun hsteps hs => by
      induction hsteps with
      | refl => exact hs
      | tail _ hstep ih => exact h.withdraw _ _ _ _ hstep ih
    cases hwithdraw with
    | @mk _ _ s' _ hself _ _ hwithdrawSteps =>
      obtain rfl := Option.some.inj (hpool.symm.trans hself)
      obtain rfl := setPool_self hpool'
      exact h.congr s'.pool _ rfl rfl (hsteps hwithdrawSteps hI)
  drawn := h.drawn

end Redeemy
