import Redeemy.Proof.Quiet

/-!
# Settings and deployments

The rest of the quiet calls: those that change a setting of the registry, a reward pool or a
paymaster, and those that deploy new contracts. A deployment leaves the contracts wired.
-/

namespace Redeemy

open Fallible EnumerableSet

variable {F : Type → Type}
variable {w w' : World F} {a p c k o sender : Address} {n : NewRewardPool}

/-! ### Settings -/

/-- No reward pool is new where one was before. -/
theorem unissued_setRewardPool {rp rp' : RewardPoolV1 F} (hrp : w.rewardPools a = some rp)
    (r : Address) (rp₁ : RewardPoolV1 F) (hnone : w.rewardPools r = none)
    (hsome : (w.setRewardPool a rp').rewardPools r = some rp₁) :
    Unissued (w.setRewardPool a rp').tokens r rp₁ := by
  have hra : r ≠ a := by
    rintro rfl
    rw [hrp] at hnone
    cases hnone
  have hold : w.rewardPools r = some rp₁ := by simpa [World.setRewardPool, hra] using hsome
  rw [hnone] at hold
  cases hold

variable [EnumerableSet F]

/-- A step that changes nothing but settings of a reward pool. -/
theorem quiet_setRewardPool {rp rp' : RewardPoolV1 F} (hrp : w.rewardPools a = some rp)
    (hinfo : rp'.info = rp.info) :
    Quiet w (w.setRewardPool a rp') ∧ (w.setRewardPool a rp').wiring = w.wiring := by
  constructor
  · refine { (Quiet.refl : Quiet w w) with
      rewardPools := fun b rp₁ hb => ?_
      unissued := unissued_setRewardPool hrp }
    by_cases hba : b = a
    · subst hba
      rw [hrp, Option.some.injEq] at hb
      subst hb
      have hassetPools : rp'.assetPools = rp.assetPools := congrArg RewardPoolInfo.assetPools hinfo
      exact ⟨rp', by simp [World.setRewardPool], congrArg RewardPoolInfo.owner hinfo,
        congrArg RewardPoolInfo.redeemMethod hinfo,
        congrArg RewardPoolInfo.redeemTokenContractAddress hinfo, fun p hp => hassetPools ▸ hp⟩
    · exact ⟨rp₁, by simpa [World.setRewardPool, hba] using hb, rfl, rfl, rfl, fun _ => id⟩
  · have hview := map_update_eq (f := w.rewardPools) RewardPoolV1.info hrp hinfo
    simp only [World.wiring, World.setRewardPool, hview]

theorem quiet_rewardPoolOnlyOwner {f : RewardPoolV1 F → Result (RewardPoolV1 F)}
    (hinfo : ∀ rp rp', f rp = .ok rp' → rp'.info = rp.info)
    (h : w.rewardPoolOnlyOwner a sender f = .ok w') : Quiet w w' ∧ w'.wiring = w.wiring := by
  unfold World.rewardPoolOnlyOwner at h
  simp only [bind_eq_ok, require_eq_ok, pure_eq_ok, World.rewardPool_eq_ok] at h
  obtain ⟨rp, hrp, _, _, rp', hrp', rfl⟩ := h
  exact quiet_setRewardPool hrp (hinfo rp rp' hrp')

theorem info_addAdmins {rp rp' : RewardPoolV1 F} {admins : List Address}
    (h : rp.addAdmins admins = .ok rp') : rp'.info = rp.info := by
  unfold RewardPoolV1.addAdmins at h
  simp only [bind_eq_ok, require_eq_ok, pure_eq_ok] at h
  obtain ⟨_, _, rfl⟩ := h
  rfl

theorem info_addTransferrers {rp rp' : RewardPoolV1 F} {transferrers : List Address}
    (h : rp.addTransferrers transferrers = .ok rp') : rp'.info = rp.info := by
  unfold RewardPoolV1.addTransferrers at h
  simp only [bind_eq_ok, require_eq_ok, pure_eq_ok] at h
  obtain ⟨_, _, rfl⟩ := h
  rfl

theorem quiet_setNewRewardPoolName {pool : Address} {name : Bytes}
    (h : w.setNewRewardPoolName sender pool name = .ok w') :
    Quiet w w' ∧ w'.wiring = w.wiring := by
  unfold World.setNewRewardPoolName at h
  simp only [bind_eq_ok, require_eq_ok, pure_eq_ok, World.rewardPool_eq_ok] at h
  obtain ⟨_, _, name', _, rp, hrp, _, _, rfl⟩ := h
  have hinfo : { rp with name := name' }.info = rp.info := rfl
  obtain ⟨hquiet, hwiring⟩ := quiet_setRewardPool hrp hinfo
  exact ⟨{ hquiet with }, hwiring⟩

omit [EnumerableSet F] in
theorem paymasterCall_eq_ok {call : PaymasterCall} (h : w.paymasterCall a sender call = .ok w') :
    ∃ paymaster paymaster', w.paymasters a = some paymaster ∧ sender = paymaster.owner ∧
      w' = { w with paymasters := Function.update w.paymasters a (some paymaster') } := by
  unfold World.paymasterCall at h
  rw [bind_eq_ok] at h
  obtain ⟨paymaster, hpaymaster, h⟩ := h
  rw [orThrow_eq_ok] at hpaymaster
  cases call with
  | setRelayHub =>
    simp only [bind_eq_ok, require_eq_ok, pure_eq_ok] at h
    obtain ⟨_, howner, _, _, _, _, rfl⟩ := h
    exact ⟨paymaster, _, hpaymaster, howner, rfl⟩
  | setTrustedForwarder =>
    simp only [bind_eq_ok, require_eq_ok, pure_eq_ok] at h
    obtain ⟨_, howner, _, _, _, _, rfl⟩ := h
    exact ⟨paymaster, _, hpaymaster, howner, rfl⟩
  | transferOwnership =>
    simp only [bind_eq_ok, require_eq_ok, pure_eq_ok] at h
    obtain ⟨_, howner, _, _, _, _, rfl⟩ := h
    exact ⟨paymaster, _, hpaymaster, howner, rfl⟩

theorem quiet_paymasterCall {call : PaymasterCall} (h : w.paymasterCall a sender call = .ok w') :
    Quiet w w' ∧ w'.wiring = w.wiring := by
  obtain ⟨paymaster, paymaster', hpaymaster, _, rfl⟩ := paymasterCall_eq_ok h
  have hview : (fun b => (Function.update w.paymasters a (some paymaster') b).map fun _ => ()) =
      fun b => (w.paymasters b).map fun _ => () := map_update_eq _ hpaymaster rfl
  refine ⟨{ (Quiet.refl : Quiet w w) with }, ?_⟩
  simp only [World.wiring, hview]

/-- The registry pays out at most what came with the call. -/
theorem quiet_createRewardPoolFee {value : Nat} {name : Bytes} (hs : w.system sender = false)
    (h : w.createRewardPoolFee sender value name = .ok w') : Quiet w w' ∧ w'.wiring = w.wiring := by
  unfold World.createRewardPoolFee at h
  simp only [bind_eq_ok] at h
  obtain ⟨tokens, hsend, _, _, h⟩ := h
  have hfirst := quiet_send (fun a ha => .inl (ne_of_system ha hs)) hsend
  unfold World.transferCreationFee at h
  split_ifs at h with hfee
  · simp only [bind_eq_ok, require_eq_ok, pure_eq_ok] at h
    obtain ⟨_, _, _, _, tokens', hpay, rfl⟩ := h
    obtain ⟨_, rfl⟩ := Tokens.send_eq_ok hsend
    obtain ⟨_, rfl⟩ := Tokens.send_eq_ok hpay
    refine ⟨{ hfirst.1 with unissued := Quiet.unissued_of_same rfl, leaves := fun a ha => ?_ }, rfl⟩
    refine ⟨fun hguards => ⟨hguards.erc20, hguards.erc721⟩, fun _ _ tok htok => ⟨tok, htok, le_rfl⟩,
      fun _ _ tok htok => ⟨tok, htok, fun _ => id⟩, ?_⟩
    have hsender : a ≠ sender := ne_of_system ha hs
    by_cases har : a = w.registryAddress
    · subst har
      have hcredit : Ledger.move w.tokens.native sender w.registryAddress value w.registryAddress =
          w.tokens.native w.registryAddress + value := Ledger.move_dst hsender.symm
      have hdebit : Ledger.move w.tokens.native sender w.registryAddress value w.registryAddress -
          value ≤ Ledger.move (Ledger.move w.tokens.native sender w.registryAddress value)
            w.registryAddress w.registry.revenueWallet value w.registryAddress := Ledger.sub_le_move
      rw [hcredit, Nat.add_sub_cancel] at hdebit
      exact hdebit
    · exact (Ledger.le_move hsender).trans (Ledger.le_move har)
  · rw [pure_eq_ok] at h
    exact h ▸ hfirst

/-! ### Single deployments -/

/-- There is no token where a new contract goes. -/
theorem erc20_of_fresh (hw : Wired w.wiring) (hc : w.Fresh c) : w.tokens.erc20 c = none := by
  by_contra hne
  obtain ⟨tok, htok⟩ := Option.ne_none_iff_exists'.mp hne
  cases hr : tok.rewardPool with
  | none =>
    have hforeign := hw.foreign c (by simp [World.wiring, htok, hr])
    exact ne_of_system hc.2.1 hforeign rfl
  | some r => exact hc.2.2 (hw.erc20 c r (by simp [World.wiring, htok, hr]))

theorem erc1155_of_fresh (hw : Wired w.wiring) (hc : w.Fresh c) : w.tokens.erc1155 c = none := by
  by_contra hne
  obtain ⟨tok, htok⟩ := Option.ne_none_iff_exists'.mp hne
  exact hc.2.2 (hw.erc1155 c tok.rewardPool (by simp [World.wiring, htok]))

theorem quiet_deployERC20 (hw : Wired w.wiring) (hc : w.Fresh c) :
    Quiet w (w.deployERC20 c a) ∧
      (w.deployERC20 c a).wiring = w.wiring.addToken .CustomERC20 a c := by
  have hnone := erc20_of_fresh hw hc
  have hne : ∀ c' tok, w.tokens.erc20 c' = some tok → c' ≠ c := by
    rintro c' tok htok rfl
    rw [hnone] at htok
    cases htok
  constructor
  · refine { (Quiet.refl : Quiet w w) with
      leaves := fun b _ => ⟨fun hguards => ⟨fun c' tok htok => ?_, hguards.erc721⟩,
        fun _ c' tok htok => ⟨tok, ?_, Nat.le_refl _⟩,
        fun _ _ tok htok => ⟨tok, htok, fun _ => id⟩, Nat.le_refl _⟩
      unissued := Quiet.unissued_of_same rfl
      totalSupply := fun c' tok r htok hr => ⟨tok, ?_, hr, rfl⟩ }
    · by_cases hcc : c' = c
      · subst hcc
        simp only [World.deployERC20, Tokens.setERC20, Function.update_self,
          Option.some.injEq] at htok
        subst htok
        exact fun _ => rfl
      · exact hguards.erc20 c' tok (by simpa [World.deployERC20, Tokens.setERC20, hcc] using htok)
    · simpa [World.deployERC20, Tokens.setERC20, hne c' tok htok] using htok
    · simpa [World.deployERC20, Tokens.setERC20, hne c' tok htok] using htok
  · simp only [World.wiring, World.deployERC20, World.deploy, Tokens.setERC20, map_update]
    rfl

theorem quiet_deployERC1155 (hw : Wired w.wiring) (hc : w.Fresh c) :
    Quiet w (w.deployERC1155 c a) ∧
      (w.deployERC1155 c a).wiring = w.wiring.addToken .CustomERC1155 a c := by
  have hnone := erc1155_of_fresh hw hc
  constructor
  · refine { (Quiet.refl : Quiet w w) with
      leaves := fun b _ => ⟨fun hguards => ⟨hguards.erc20, hguards.erc721⟩,
        fun _ _ tok htok => ⟨tok, htok, Nat.le_refl _⟩,
        fun _ _ tok htok => ⟨tok, htok, fun _ => id⟩, Nat.le_refl _⟩
      unissued := Quiet.unissued_of_same rfl
      supply := fun c' tok htok => ⟨tok, ?_, fun _ => rfl⟩ }
    have hne : c' ≠ c := by
      rintro rfl
      rw [hnone] at htok
      cases htok
    simpa [World.deployERC1155, Tokens.setERC1155, hne] using htok
  · simp only [World.wiring, World.deployERC1155, World.deploy, Tokens.setERC1155, map_update]
    rfl

omit [EnumerableSet F] in
/-- The redeem token is an existing one or a new contract. -/
theorem setOrCreateRedeemToken_cases {method : RedeemMethod} {existing clone : Address}
    (h : w.setOrCreateRedeemToken a method existing clone = .ok (w', c)) :
    (method = .ExistingERC20 ∧ existing ≠ 0 ∧ c = existing ∧ w' = w) ∨
    (method = .CustomERC20 ∧ w.Fresh clone ∧ c = clone ∧ w' = w.deployERC20 clone a) ∨
    (method = .CustomERC1155 ∧ w.Fresh clone ∧ c = clone ∧ w' = w.deployERC1155 clone a) := by
  unfold World.setOrCreateRedeemToken at h
  cases method with
  | ExistingERC20 =>
    simp only [bind_eq_ok, require_eq_ok, pure_eq_ok, Prod.mk.injEq] at h
    obtain ⟨_, hne, rfl, rfl⟩ := h
    exact .inl ⟨rfl, hne, rfl, rfl⟩
  | CustomERC20 =>
    simp only [bind_eq_ok, require_eq_ok, pure_eq_ok, Prod.mk.injEq] at h
    obtain ⟨_, hfresh, rfl, rfl⟩ := h
    exact .inr (.inl ⟨rfl, hfresh, rfl, rfl⟩)
  | CustomERC1155 =>
    simp only [bind_eq_ok, require_eq_ok, pure_eq_ok, Prod.mk.injEq] at h
    obtain ⟨_, hfresh, rfl, rfl⟩ := h
    exact .inr (.inr ⟨rfl, hfresh, rfl, rfl⟩)

theorem quiet_setOrCreateRedeemToken {method : RedeemMethod} {existing clone : Address}
    (hw : Wired w.wiring)
    (h : w.setOrCreateRedeemToken a method existing clone = .ok (w', c)) :
    Quiet w w' ∧ Wired w'.wiring ∧ w'.wiring = w.wiring.addToken method a c ∧
      ∀ rp : RewardPoolV1 F, rp.redeemMethod = method → rp.redeemTokenContractAddress = c →
        Unissued w'.tokens a rp := by
  rcases setOrCreateRedeemToken_cases h with
    ⟨rfl, _, rfl, rfl⟩ | ⟨rfl, hfresh, rfl, rfl⟩ | ⟨rfl, hfresh, rfl, rfl⟩
  · refine ⟨.refl, hw, rfl, fun rp hm _ => ⟨fun hm' => ?_, fun hm' => ?_⟩⟩
    · rw [hm] at hm'
      cases hm'
    · rw [hm] at hm'
      cases hm'
  · obtain ⟨hquiet, hwiring⟩ := quiet_deployERC20 (a := a) hw hfresh
    refine ⟨hquiet, hwiring ▸ hw.addToken hfresh, hwiring, fun rp hm hc => ⟨fun _ => ?_, fun hm' => ?_⟩⟩
    · rw [hc]
      exact ⟨_, Function.update_self .., rfl, rfl⟩
    · rw [hm] at hm'
      cases hm'
  · obtain ⟨hquiet, hwiring⟩ := quiet_deployERC1155 (a := a) hw hfresh
    refine ⟨hquiet, hwiring ▸ hw.addToken hfresh, hwiring, fun rp hm hc => ⟨fun hm' => ?_, fun _ => ?_⟩⟩
    · rw [hm] at hm'
      cases hm'
    · rw [hc]
      exact ⟨_, Function.update_self .., supply_eq_zero fun _ _ => rfl⟩

theorem createClone_eq_ok {value id price : Nat}
    (h : w.createClone sender value a id price p = .ok w') :
    ∃ rp tokens, w.Fresh p ∧ w.rewardPools a = some rp ∧ 0 < price ∧
      w.tokens.send sender p value .empty = .ok tokens ∧
      w' = { (w.deploy p).setPool p (.initial a id price rp.forwarder) with tokens } := by
  unfold World.createClone at h
  simp only [bind_eq_ok, require_eq_ok, orThrow_eq_ok, pure_eq_ok] at h
  obtain ⟨_, hfresh, rp, hrp, _, hprice, tokens, hsend, rfl⟩ := h
  exact ⟨rp, tokens, hfresh, hrp, hprice, hsend, rfl⟩

/-- The new asset pool is not yet part of its reward pool. -/
theorem quiet_createClone {value id price : Nat} (hw : Wired w.wiring)
    (hs : value = 0 ∨ w.system sender = false)
    (h : w.createClone sender value a id price p = .ok w') :
    Quiet w w' ∧ Wired w'.wiring ∧ w'.rewardPools = w.rewardPools ∧
      ∃ forwarder, w'.wiring.assetPools p = some ⟨id, a, forwarder⟩ := by
  obtain ⟨rp, tokens, hfresh, hrp, hprice, hsend, rfl⟩ := createClone_eq_ok h
  have hsrc : ∀ b, w.system b = true → b ≠ sender ∨ value = 0 := fun b hb =>
    hs.elim .inr fun hs => .inl (ne_of_system hb hs)
  obtain ⟨hquiet, _⟩ := quiet_send hsrc hsend
  obtain ⟨_, rfl⟩ := Tokens.send_eq_ok hsend
  have hnone : w.assetPools p = none := by
    by_contra hne
    obtain ⟨pool, hpool⟩ := Option.ne_none_iff_exists'.mp hne
    exact hfresh.2.2 (hw.assetPool p pool.info (by simp [World.wiring, hpool])).1
  have hwiring : World.wiring { (w.deploy p).setPool p (.initial a id price rp.forwarder) with
      tokens := { w.tokens with native := Ledger.move w.tokens.native sender p value } } =
      w.wiring.addClone p ⟨id, a, rp.forwarder⟩ := by
    simp only [World.wiring, World.setPool, World.deploy, map_update]
    rfl
  refine ⟨{ hquiet with
    assetPools := fun q => ?_
    unissued := Quiet.unissued_of_same rfl }, ?_, rfl, ?_⟩
  · by_cases hqp : q = p
    · subst hqp
      exact .inr ⟨hnone, a, id, price, rp.forwarder, hprice, by simp [World.setPool]⟩
    · exact .inl (by simp [World.setPool, World.deploy, hqp])
  · rw [hwiring]
    have hview : w.wiring.rewardPools a = some rp.info := Option.map_eq_some_iff.mpr ⟨rp, hrp, rfl⟩
    exact hw.addClone hfresh hview rfl
  · rw [hwiring]
    exact ⟨rp.forwarder, by simp [Wiring.addClone]⟩

/-! ### Reward pools -/

theorem createAssetPool_eq_ok {price : Nat} (h : w.createAssetPool a price p = .ok w') :
    ∃ rp w₁, w.rewardPools a = some rp ∧ w.createClone a 0 a rp.assetPoolId price p = .ok w₁ ∧
      w' = w₁.setRewardPool a (rp.addAssetPool p) := by
  unfold World.createAssetPool at h
  simp only [bind_eq_ok, pure_eq_ok, World.rewardPool_eq_ok] at h
  obtain ⟨rp, hrp, w₁, hclone, rfl⟩ := h
  exact ⟨rp, w₁, hrp, hclone, rfl⟩

theorem quiet_createAssetPool {price : Nat} (hw : Wired w.wiring)
    (h : w.createAssetPool a price p = .ok w') :
    Quiet w w' ∧ Wired w'.wiring ∧ ∃ rp rp', w.rewardPools a = some rp ∧
      w'.rewardPools = Function.update w.rewardPools a (some rp') ∧ rp'.owner = rp.owner ∧
      rp'.forwarder = rp.forwarder := by
  obtain ⟨rp, w₁, hrp, hclone, rfl⟩ := createAssetPool_eq_ok h
  obtain ⟨hquiet, hw₁, hsame, _, hpool⟩ := quiet_createClone hw (.inl rfl) hclone
  have hrp₁ : w₁.rewardPools a = some rp := by rw [hsame, hrp]
  have hwiring : (w₁.setRewardPool a (rp.addAssetPool p)).wiring = w₁.wiring.enrol a rp.info p := by
    simp only [World.wiring, World.setRewardPool, map_update]
    rfl
  refine ⟨hquiet.trans ?_, ?_, rp, rp.addAssetPool p, hrp, by rw [World.setRewardPool, hsame],
    rfl, rfl⟩
  · refine { (Quiet.refl : Quiet w₁ w₁) with
      rewardPools := fun b rp₂ hb => ?_
      unissued := unissued_setRewardPool hrp₁ }
    by_cases hba : b = a
    · subst hba
      rw [hrp₁, Option.some.injEq] at hb
      subst hb
      exact ⟨rp.addAssetPool p, by simp [World.setRewardPool], rfl, rfl, rfl,
        fun p' hp' => mem_add.mpr (.inr hp')⟩
    · exact ⟨rp₂, by simpa [World.setRewardPool, hba] using hb, rfl, rfl, rfl, fun _ => id⟩
  · rw [hwiring]
    exact hw₁.enrol (by simp [World.wiring, hrp₁]) hpool rfl rfl

theorem quiet_addRewardPool {rp : RewardPoolV1 F} (hnone : w.rewardPools a = none)
    (htoken : Unissued w.tokens a rp) :
    Quiet w (w.setRewardPool a rp) ∧
      (w.setRewardPool a rp).wiring = w.wiring.addRewardPool a rp.info := by
  constructor
  · refine { (Quiet.refl : Quiet w w) with
      rewardPools := fun b rp₁ hb => ⟨rp₁, ?_, rfl, rfl, rfl, fun _ => id⟩
      unissued := fun b rp₁ hb hb' => ?_ }
    · have hba : b ≠ a := by
        rintro rfl
        rw [hnone] at hb
        cases hb
      simpa [World.setRewardPool, hba] using hb
    · by_cases hba : b = a
      · subst hba
        simp only [World.setRewardPool, Function.update_self, Option.some.injEq] at hb'
        exact hb' ▸ htoken
      · have hold : w.rewardPools b = some rp₁ := by simpa [World.setRewardPool, hba] using hb'
        rw [hb] at hold
        cases hold
  · simp only [World.wiring, World.setRewardPool, map_update]
    rfl

theorem quiet_initializeRewardPool {rewardPoolRegistry forwarder : Address} (hw : Wired w.wiring)
    (hregistry : rewardPoolRegistry = w.registryAddress) (hdeployed : n.rewardPool ∈ w.deployed)
    (hnone : w.rewardPools n.rewardPool = none)
    (h : w.initializeRewardPool rewardPoolRegistry forwarder n = .ok w') :
    Quiet w w' ∧ Wired w'.wiring ∧ ∃ rp, w'.rewardPools n.rewardPool = some rp ∧
      rp.owner = n.owner ∧ rp.forwarder = forwarder := by
  unfold World.initializeRewardPool at h
  simp only [bind_eq_ok, Prod.exists] at h
  obtain ⟨w₁, c, htoken, rp, hrp, hpool⟩ := h
  obtain ⟨hquiet₁, hw₁, hwiring₁, hunissued⟩ := quiet_setOrCreateRedeemToken hw htoken
  have hinfo := info_addAdmins hrp
  have hnone₁ : w₁.rewardPools n.rewardPool = none := by
    have hview : w₁.wiring.rewardPools n.rewardPool = none := by
      rw [hwiring₁, Wiring.rewardPools_addToken]
      exact Option.map_eq_none_iff.mpr hnone
    exact Option.map_eq_none_iff.mp hview
  have htoken₁ : Unissued w₁.tokens n.rewardPool rp := hunissued rp
    (congrArg RewardPoolInfo.redeemMethod hinfo)
    (congrArg RewardPoolInfo.redeemTokenContractAddress hinfo)
  have hadd : Quiet w₁ (w₁.setRewardPool n.rewardPool rp) ∧ _ := quiet_addRewardPool hnone₁ htoken₁
  obtain ⟨hquiet₂, hwiring₂⟩ := hadd
  have hw₂ : Wired (w₁.setRewardPool n.rewardPool rp).wiring := by
    rw [hwiring₂, hwiring₁, hinfo]
    rw [hwiring₁] at hw₁
    refine hw₁.addRewardPool (Wiring.mem_deployed_addToken _ hdeployed) ?_ ?_ values_empty
      (fun _ => rfl) ⟨fun hm => ?_, fun hm => ?_⟩
    · rw [Wiring.rewardPools_addToken]
      exact Option.map_eq_none_iff.mpr hnone
    · rw [Wiring.registryAddress_addToken]
      exact hregistry
    · simp only [RewardPoolV1.info] at hm ⊢
      simp [hm, Wiring.addToken]
    · simp only [RewardPoolV1.info] at hm ⊢
      simp [hm, Wiring.addToken]
  obtain ⟨hquiet₃, hw₃, rp₁, rp', hrp₁, hpools, howner, hforwarder⟩ := quiet_createAssetPool hw₂ hpool
  simp only [World.setRewardPool, Function.update_self, Option.some.injEq] at hrp₁
  subst hrp₁
  exact ⟨(hquiet₁.trans hquiet₂).trans hquiet₃, hw₃, rp', by rw [hpools, Function.update_self],
    howner.trans (congrArg RewardPoolInfo.owner hinfo),
    hforwarder.trans (congrArg RewardPoolInfo.forwarder hinfo)⟩

theorem quiet_deploy (hw : Wired w.wiring) (ha : w.Fresh a) :
    Quiet w (w.deploy a) ∧ Wired (w.deploy a).wiring :=
  ⟨{ (Quiet.refl : Quiet w w) with }, hw.deploy ha⟩

theorem mapError_eq_ok {α : Type} {x : Result α} {f : Revert → Revert} {r : α} :
    x.mapError f = .ok r ↔ x = .ok r := by
  cases x <;> simp [Except.mapError]

theorem createRewardPoolClone_eq_ok {rewardPoolRegistry forwarder : Address}
    (h : w.createRewardPoolClone rewardPoolRegistry forwarder n = .ok w') :
    w.Fresh n.rewardPool ∧
      (w.deploy n.rewardPool).initializeRewardPool rewardPoolRegistry forwarder n = .ok w' := by
  unfold World.createRewardPoolClone at h
  simp only [bind_eq_ok, require_eq_ok, mapError_eq_ok] at h
  obtain ⟨_, hfresh, h⟩ := h
  exact ⟨hfresh, h⟩

theorem quiet_createRewardPoolClone {forwarder : Address} (hw : Wired w.wiring)
    (h : w.createRewardPoolClone w.registryAddress forwarder n = .ok w') :
    Quiet w w' ∧ Wired w'.wiring ∧ ∃ rp, w'.rewardPools n.rewardPool = some rp ∧
      rp.owner = n.owner ∧ rp.forwarder = forwarder := by
  obtain ⟨hfresh, h⟩ := createRewardPoolClone_eq_ok h
  have hnone : w.rewardPools n.rewardPool = none := by
    by_contra hne
    obtain ⟨rp, hrp⟩ := Option.ne_none_iff_exists'.mp hne
    exact hfresh.2.2 (hw.rewardPool _ rp.info (by simp [World.wiring, hrp])).1
  obtain ⟨hquiet₁, hw₁⟩ := quiet_deploy hw hfresh
  obtain ⟨hquiet₂, hrest⟩ := quiet_initializeRewardPool hw₁ rfl List.mem_cons_self hnone h
  exact ⟨hquiet₁.trans hquiet₂, hrest⟩

/-! ### The registry -/

omit [EnumerableSet F] in
/-- An owner gets a VRF consumer with the first reward pool. -/
theorem setVRFConsumer_cases (h : w.setVRFConsumer o k = .ok w') :
    (w.registry.ownerToVRFConsumer o ≠ 0 ∧ w' = w) ∨
    (w.registry.ownerToVRFConsumer o = 0 ∧ w.Fresh k ∧ w' = { w.deploy k with
      consumers := Function.update w.consumers k
        (some ⟨w.registryAddress, o, w.registry.vrfWrapper, fun _ => ⟨0, 0⟩⟩)
      registry := { w.registry with
        ownerToVRFConsumer := Function.update w.registry.ownerToVRFConsumer o k } }) := by
  unfold World.setVRFConsumer at h
  split_ifs at h with hnone
  · simp only [bind_eq_ok, require_eq_ok, pure_eq_ok] at h
    obtain ⟨_, hfresh, rfl⟩ := h
    exact .inr ⟨hnone, hfresh, rfl⟩
  · rw [pure_eq_ok] at h
    exact .inl ⟨hnone, h.symm⟩

theorem quiet_setVRFConsumer (hw : Wired w.wiring) (ho : o ≠ 0)
    (h : w.setVRFConsumer o k = .ok w') :
    Quiet w w' ∧ Wired w'.wiring := by
  rcases setVRFConsumer_cases h with ⟨_, rfl⟩ | ⟨hnone, hfresh, rfl⟩
  · exact ⟨.refl, hw⟩
  · refine ⟨{ (Quiet.refl : Quiet w w) with
      consumers := fun k' consumer hk => ?_, unused := fun k' consumer hk hk' id => ?_ }, ?_⟩
    · have hne : k' ≠ k := by
        rintro rfl
        exact hfresh.2.2 (hw.consumer k' consumer.info (by simp [World.wiring, hk])).1
      simpa [World.deploy, hne] using hk
    · by_cases hkk : k' = k
      · subst hkk
        simp only [Function.update_self, Option.some.injEq] at hk'
        rw [← hk']
      · simp only [Function.update_of_ne hkk, hk] at hk'
        cases hk'
    · have hwired := hw.addConsumer hfresh ho hnone
      convert hwired using 1
      simp only [World.wiring, World.deploy, map_update]
      rfl

/-- The registry records the reward pool under the owner it was initialized with. -/
theorem quiet_createRewardPoolRest (hw : Wired w.wiring) (ho : n.owner ≠ 0)
    (h : w.createRewardPoolRest k n = .ok w') : Quiet w w' ∧ Wired w'.wiring := by
  unfold World.createRewardPoolRest at h
  simp only [bind_eq_ok, pure_eq_ok] at h
  obtain ⟨w₁, hconsumer, w₂, hclone, rfl⟩ := h
  obtain ⟨hquiet₁, hw₁⟩ := quiet_setVRFConsumer hw ho hconsumer
  obtain ⟨hquiet₂, hw₂, rp, hrp, howner, hforwarder⟩ := quiet_createRewardPoolClone hw₁ hclone
  have hview : w₂.wiring.rewardPools n.rewardPool = some rp.info := Option.map_eq_some_iff.mpr
    ⟨rp, hrp, rfl⟩
  refine ⟨{ hquiet₁.trans hquiet₂ with }, hw₂.register hview howner ?_⟩
  exact hforwarder.trans hquiet₂.trustedForwarder.symm

theorem quiet_createPaymaster (hw : Wired w.wiring) (h : w.createPaymaster o p = .ok w') :
    Quiet w w' ∧ Wired w'.wiring := by
  unfold World.createPaymaster at h
  split_ifs at h with hnone
  · simp only [bind_eq_ok, require_eq_ok, pure_eq_ok] at h
    obtain ⟨_, hfresh, rfl⟩ := h
    obtain ⟨hquiet, hwired⟩ := quiet_deploy hw hfresh
    refine ⟨{ hquiet with }, { hwired with paymaster := fun q hq => ?_ }⟩
    by_cases hqp : q = p
    · exact hqp ▸ List.mem_cons_self
    · refine hwired.paymaster q ?_
      simpa [World.wiring, World.deploy, hqp] using hq
  · rw [pure_eq_ok] at h
    subst h
    exact ⟨.refl, hw⟩

end Redeemy
