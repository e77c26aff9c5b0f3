import Redeemy.Proof.Pool
import Redeemy.Proof.Tokens

/-!
# How the contracts are connected

Which contracts there are, and which addresses they hold of each other. Almost no step changes this:
`World.wiring` is the part of the world it consists of, `Wired` says what holds of it, and the
deployments are the only steps a proof about it has to look at.
-/

namespace Redeemy

open Fallible EnumerableSet

variable {F : Type → Type}

/-! ### Views of partial maps -/

section Views

variable {α β : Type} {f : Address → Option α} {a : Address} {x x' : α}

theorem map_update (g : α → β) :
    (fun b => (Function.update f a (some x) b).map g) =
      Function.update (fun b => (f b).map g) a (some (g x)) := by
  funext b
  by_cases hb : b = a
  · subst hb
    simp
  · simp [hb]

/-- A view does not see a change that it maps to the same value. -/
theorem map_update_eq (g : α → β) (h : f a = some x) (hg : g x' = g x) :
    (fun b => (Function.update f a (some x') b).map g) = fun b => (f b).map g := by
  rw [map_update, hg, Function.update_eq_self_iff, h, Option.map_some]

end Views

/-! ### The wiring -/

/-- What a reward pool is to the other contracts. -/
structure RewardPoolInfo (F : Type → Type) where
  rewardPoolRegistry : Address
  owner : Address
  redeemTokenContractAddress : Address
  forwarder : Address
  redeemMethod : RedeemMethod
  assetPoolId : Nat
  assetPoolIdToAssetPool : Nat → Address
  assetPools : F Address

def RewardPoolV1.info (rp : RewardPoolV1 F) : RewardPoolInfo F where
  rewardPoolRegistry := rp.rewardPoolRegistry
  owner := rp.owner
  redeemTokenContractAddress := rp.redeemTokenContractAddress
  forwarder := rp.forwarder
  redeemMethod := rp.redeemMethod
  assetPoolId := rp.assetPoolId
  assetPoolIdToAssetPool := rp.assetPoolIdToAssetPool
  assetPools := rp.assetPools

structure ConsumerInfo where
  rewardPoolRegistry : Address
  owner : Address
  wrapper : Address

def RewardVRFConsumerV1.info (k : RewardVRFConsumerV1) : ConsumerInfo where
  rewardPoolRegistry := k.rewardPoolRegistry
  owner := k.owner
  wrapper := k.wrapper

/-- The contracts and what they know of each other. -/
structure Wiring (F : Type → Type) where
  system : Address → Bool
  deployed : List Address
  registryAddress : Address
  vrfWrapper : Address
  trustedForwarder : Address
  ownerToVRFConsumer : Address → Address
  rewardPoolToOwner : Address → Address
  rewardPools : Address → Option (RewardPoolInfo F)
  assetPools : Address → Option AssetPoolInfo
  consumers : Address → Option ConsumerInfo
  paymasters : Address → Option Unit
  erc20 : Address → Option (Option Address)
  erc1155 : Address → Option Address

def World.wiring (w : World F) : Wiring F where
  system := w.system
  deployed := w.deployed
  registryAddress := w.registryAddress
  vrfWrapper := w.registry.vrfWrapper
  trustedForwarder := w.registry.trustedForwarder
  ownerToVRFConsumer := w.registry.ownerToVRFConsumer
  rewardPoolToOwner := w.registry.rewardPoolToOwner
  rewardPools := fun a => (w.rewardPools a).map RewardPoolV1.info
  assetPools := fun a => (w.assetPools a).map AssetPoolV1.info
  consumers := fun a => (w.consumers a).map RewardVRFConsumerV1.info
  paymasters := fun a => (w.paymasters a).map fun _ => ()
  erc20 := fun a => (w.tokens.erc20 a).map ERC20.rewardPool
  erc1155 := fun a => (w.tokens.erc1155 a).map ERC1155.rewardPool

variable [EnumerableSet F]

/-- The contracts know each other as they should. -/
structure Wired (x : Wiring F) : Prop where
  system : ∀ a ∈ x.deployed, a ≠ 0 ∧ x.system a = true
  registry : x.registryAddress ∈ x.deployed
  registryOnly : x.assetPools x.registryAddress = none
  rewardPool : ∀ a rp, x.rewardPools a = some rp →
    a ∈ x.deployed ∧ rp.rewardPoolRegistry = x.registryAddress
  assetPool : ∀ p pool, x.assetPools p = some pool → p ∈ x.deployed ∧
    ∃ rp, x.rewardPools pool.rewardPool = some rp ∧ pool.trustedForwarder = rp.forwarder
  /-- an asset pool of a reward pool knows it, and is found by its id -/
  member : ∀ a rp p, x.rewardPools a = some rp → p ∈ values rp.assetPools →
    ∃ pool, x.assetPools p = some pool ∧ pool.rewardPool = a ∧
      rp.assetPoolIdToAssetPool pool.id = p
  ids : ∀ a rp i, x.rewardPools a = some rp → rp.assetPoolIdToAssetPool i ≠ 0 →
    i < rp.assetPoolId ∧ rp.assetPoolIdToAssetPool i ∈ values rp.assetPools
  consumer : ∀ k consumer, x.consumers k = some consumer →
    k ∈ x.deployed ∧ consumer.rewardPoolRegistry = x.registryAddress ∧
      consumer.wrapper = x.vrfWrapper ∧ consumer.owner ≠ 0 ∧
      x.ownerToVRFConsumer consumer.owner = k
  vrfConsumer : ∀ o, x.ownerToVRFConsumer o ≠ 0 →
    ∃ consumer, x.consumers (x.ownerToVRFConsumer o) = some consumer ∧ consumer.owner = o
  paymaster : ∀ p, x.paymasters p ≠ none → p ∈ x.deployed
  registered : ∀ a, x.rewardPoolToOwner a ≠ 0 →
    ∃ rp, x.rewardPools a = some rp ∧ rp.owner = x.rewardPoolToOwner a ∧
      rp.forwarder = x.trustedForwarder
  custom : ∀ a rp, x.rewardPools a = some rp →
    (rp.redeemMethod = .CustomERC20 → x.erc20 rp.redeemTokenContractAddress = some (some a)) ∧
    (rp.redeemMethod = .CustomERC1155 → x.erc1155 rp.redeemTokenContractAddress = some a)
  erc20 : ∀ c a, x.erc20 c = some (some a) → c ∈ x.deployed
  foreign : ∀ c, x.erc20 c = some none → x.system c = false
  erc1155 : ∀ c a, x.erc1155 c = some a → c ∈ x.deployed

theorem wired_initial {w : World F} (h : w.Initial) : Wired w.wiring where
  system := by
    intro a ha
    have hmem : a ∈ w.deployed := ha
    rw [h.deployed, List.mem_singleton] at hmem
    exact hmem ▸ h.registryAddress
  registry := by
    show w.registryAddress ∈ w.deployed
    simp [h.deployed]
  registryOnly := by simp [World.wiring, h.assetPools]
  rewardPool := by simp [World.wiring, h.rewardPools]
  assetPool := by simp [World.wiring, h.assetPools]
  member := by simp [World.wiring, h.rewardPools]
  ids := by simp [World.wiring, h.rewardPools]
  consumer := by simp [World.wiring, h.consumers]
  vrfConsumer := by simp [World.wiring, h.ownerToVRFConsumer]
  paymaster := by simp [World.wiring, h.paymasters]
  registered := by simp [World.wiring, h.rewardPoolToOwner]
  custom := by simp [World.wiring, h.rewardPools]
  erc20 := by
    intro c a hc
    obtain ⟨tok, htok, hr⟩ := Option.map_eq_some_iff.mp hc
    rw [(h.erc20 c tok htok).2.1] at hr
    cases hr
  foreign := by
    intro c hc
    obtain ⟨tok, htok, _⟩ := Option.map_eq_some_iff.mp hc
    exact (h.erc20 c tok htok).1
  erc1155 := by simp [World.wiring, h.erc1155]

/-! ### Deployments -/

namespace Wiring

variable (x : Wiring F)

/-- An address a new contract can get. -/
def Fresh (a : Address) : Prop := a ≠ 0 ∧ x.system a = true ∧ a ∉ x.deployed

def deploy (a : Address) : Wiring F := { x with deployed := a :: x.deployed }

/-- A new asset pool, not yet part of its reward pool. -/
def addClone (p : Address) (pool : AssetPoolInfo) : Wiring F :=
  { x.deploy p with assetPools := Function.update x.assetPools p (some pool) }

/-- The asset pool at `p` becomes part of the reward pool at `a`. -/
def enrol (a : Address) (rp : RewardPoolInfo F) (p : Address) : Wiring F :=
  { x with
    rewardPools := Function.update x.rewardPools a (some { rp with
      assetPools := add rp.assetPools p
      assetPoolIdToAssetPool := Function.update rp.assetPoolIdToAssetPool rp.assetPoolId p
      assetPoolId := rp.assetPoolId + 1 }) }

/-- A new redeem token at `c`, for the reward pool at `a`. -/
def addToken (method : RedeemMethod) (a c : Address) : Wiring F :=
  match method with
  | .ExistingERC20 => x
  | .CustomERC20 => { x.deploy c with erc20 := Function.update x.erc20 c (some (some a)) }
  | .CustomERC1155 => { x.deploy c with erc1155 := Function.update x.erc1155 c (some a) }

section

omit [EnumerableSet F]

@[simp] theorem registryAddress_addToken {method : RedeemMethod} {a c : Address} :
    (x.addToken method a c).registryAddress = x.registryAddress := by
  cases method <;> rfl

@[simp] theorem rewardPools_addToken {method : RedeemMethod} {a c : Address} :
    (x.addToken method a c).rewardPools = x.rewardPools := by
  cases method <;> rfl

theorem mem_deployed_addToken {method : RedeemMethod} {a b c : Address} (h : b ∈ x.deployed) :
    b ∈ (x.addToken method a c).deployed := by
  cases method with
  | ExistingERC20 => exact h
  | CustomERC20 => exact List.mem_cons_of_mem _ h
  | CustomERC1155 => exact List.mem_cons_of_mem _ h

end

/-- A new reward pool. -/
def addRewardPool (a : Address) (rp : RewardPoolInfo F) : Wiring F :=
  { x with rewardPools := Function.update x.rewardPools a (some rp) }

/-- A new consumer, for the owner `o`. -/
def addConsumer (k o : Address) : Wiring F :=
  { x.deploy k with
    consumers := Function.update x.consumers k (some ⟨x.registryAddress, o, x.vrfWrapper⟩)
    ownerToVRFConsumer := Function.update x.ownerToVRFConsumer o k }

/-- The registry records the owner of a reward pool. -/
def register (a o : Address) : Wiring F :=
  { x with rewardPoolToOwner := Function.update x.rewardPoolToOwner a o }

end Wiring

namespace Wired

variable {x : Wiring F} {a p c k o : Address} {rp : RewardPoolInfo F} {pool : AssetPoolInfo}

theorem deploy (h : Wired x) (ha : x.Fresh a) : Wired (x.deploy a) :=
  { h with
    system := fun b hb => by
      rcases List.mem_cons.mp hb with rfl | hb
      · exact ⟨ha.1, ha.2.1⟩
      · exact h.system b hb
    registry := List.mem_cons_of_mem _ h.registry
    rewardPool := fun b rp hb => (h.rewardPool b rp hb).imp_left (List.mem_cons_of_mem _)
    assetPool := fun b pool hb => (h.assetPool b pool hb).imp_left (List.mem_cons_of_mem _)
    consumer := fun b consumer hb => (h.consumer b consumer hb).imp_left (List.mem_cons_of_mem _)
    paymaster := fun b hb => List.mem_cons_of_mem _ (h.paymaster b hb)
    erc20 := fun b a hb => List.mem_cons_of_mem _ (h.erc20 b a hb)
    erc1155 := fun b a hb => List.mem_cons_of_mem _ (h.erc1155 b a hb) }

theorem addClone (h : Wired x) (hp : x.Fresh p) (hrp : x.rewardPools pool.rewardPool = some rp)
    (hforwarder : pool.trustedForwarder = rp.forwarder) : Wired (x.addClone p pool) := by
  have hdeploy := h.deploy hp
  have hne : x.registryAddress ≠ p := fun heq => hp.2.2 (heq ▸ h.registry)
  refine { hdeploy with
    registryOnly := (Function.update_of_ne hne ..).trans h.registryOnly
    assetPool := fun b pool' hb => ?_, member := fun b rp' p' hb hmem => ?_ }
  · by_cases hbp : b = p
    · subst hbp
      simp only [Wiring.addClone, Function.update_self, Option.some.injEq] at hb
      subst hb
      exact ⟨List.mem_cons_self, rp, hrp, hforwarder⟩
    · simp only [Wiring.addClone, Function.update_of_ne hbp] at hb
      exact hdeploy.assetPool b pool' hb
  · obtain ⟨pool', hpool', hrest⟩ := hdeploy.member b rp' p' hb hmem
    -- a member was deployed before, so it is not the new pool
    have hne : p' ≠ p := by
      rintro rfl
      exact hp.2.2 (h.assetPool p' pool' hpool').1
    exact ⟨pool', by simpa [Wiring.addClone, Wiring.deploy, hne] using hpool', hrest⟩

omit [EnumerableSet F] in
theorem addRewardPool_cases {b : Address} {rp' rp₁ : RewardPoolInfo F}
    (hb : (x.addRewardPool a rp').rewardPools b = some rp₁) :
    (b = a ∧ rp₁ = rp') ∨ x.rewardPools b = some rp₁ := by
  by_cases hba : b = a
  · subst hba
    simp only [Wiring.addRewardPool, Function.update_self, Option.some.injEq] at hb
    exact .inl ⟨rfl, hb.symm⟩
  · exact .inr (by simpa [Wiring.addRewardPool, hba] using hb)

/-- A reward pool changes, but not in what the token contracts and the registry know of it. -/
theorem setRewardPool {rp' : RewardPoolInfo F} (h : Wired x) (hrp : x.rewardPools a = some rp)
    (hregistry : rp'.rewardPoolRegistry = rp.rewardPoolRegistry) (howner : rp'.owner = rp.owner)
    (htoken : rp'.redeemTokenContractAddress = rp.redeemTokenContractAddress)
    (hforwarder : rp'.forwarder = rp.forwarder) (hmethod : rp'.redeemMethod = rp.redeemMethod)
    (hmember : ∀ p ∈ values rp'.assetPools, ∃ pool, x.assetPools p = some pool ∧
      pool.rewardPool = a ∧ rp'.assetPoolIdToAssetPool pool.id = p)
    (hids : ∀ i, rp'.assetPoolIdToAssetPool i ≠ 0 →
      i < rp'.assetPoolId ∧ rp'.assetPoolIdToAssetPool i ∈ values rp'.assetPools) :
    Wired (x.addRewardPool a rp') := by
  -- what is known of a reward pool other than its members is known of it after the change
  have hkeep : ∀ b rp₁, x.rewardPools b = some rp₁ → ∃ rp₂,
      (x.addRewardPool a rp').rewardPools b = some rp₂ ∧ rp₂.owner = rp₁.owner ∧
      rp₂.redeemTokenContractAddress = rp₁.redeemTokenContractAddress ∧
      rp₂.forwarder = rp₁.forwarder ∧ rp₂.redeemMethod = rp₁.redeemMethod := by
    intro b rp₁ hb
    by_cases hba : b = a
    · subst hba
      rw [hrp, Option.some.injEq] at hb
      subst hb
      exact ⟨rp', by simp [Wiring.addRewardPool], howner, htoken, hforwarder, hmethod⟩
    · exact ⟨rp₁, by simpa [Wiring.addRewardPool, hba] using hb, rfl, rfl, rfl, rfl⟩
  refine { h with
    rewardPool := fun b rp₂ hb => ?_, assetPool := fun p pool hp => ?_,
    member := fun b rp₂ p hb hp => ?_, ids := fun b rp₂ i hb hi => ?_,
    registered := fun b hb => ?_, custom := fun b rp₂ hb => ?_ }
  · rcases addRewardPool_cases hb with ⟨rfl, rfl⟩ | hb
    · exact ⟨(h.rewardPool b rp hrp).1, hregistry.trans (h.rewardPool b rp hrp).2⟩
    · exact h.rewardPool b rp₂ hb
  · obtain ⟨hdeployed, rp₁, hrp₁, hf⟩ := h.assetPool p pool hp
    obtain ⟨rp₂, hrp₂, _, _, hf', _⟩ := hkeep _ rp₁ hrp₁
    exact ⟨hdeployed, rp₂, hrp₂, hf.trans hf'.symm⟩
  · rcases addRewardPool_cases hb with ⟨rfl, rfl⟩ | hb
    · exact hmember p hp
    · exact h.member b rp₂ p hb hp
  · rcases addRewardPool_cases hb with ⟨rfl, rfl⟩ | hb
    · exact hids i hi
    · exact h.ids b rp₂ i hb hi
  · obtain ⟨rp₁, hrp₁, ho, hf⟩ := h.registered b hb
    obtain ⟨rp₂, hrp₂, ho', _, hf', _⟩ := hkeep _ rp₁ hrp₁
    exact ⟨rp₂, hrp₂, ho'.trans ho, hf'.trans hf⟩
  · rcases addRewardPool_cases hb with ⟨rfl, rfl⟩ | hb
    · rw [htoken, hmethod]
      exact h.custom b rp hrp
    · exact h.custom b rp₂ hb

theorem enrol (h : Wired x) (hrp : x.rewardPools a = some rp)
    (hpool : x.assetPools p = some pool) (ha : pool.rewardPool = a) (hid : pool.id = rp.assetPoolId) :
    Wired (x.enrol a rp p) := by
  refine h.setRewardPool hrp rfl rfl rfl rfl rfl (fun p' hp' => ?_) (fun i hi => ?_)
  · rcases mem_add.mp hp' with rfl | hp'
    · exact ⟨pool, hpool, ha, by simp [hid]⟩
    · obtain ⟨pool', hpool', ha', hmap⟩ := h.member a rp p' hrp hp'
      -- the ids given out before are below the counter
      have hne : pool'.id ≠ rp.assetPoolId := by
        have hdeployed := (h.assetPool p' pool' hpool').1
        have hlt := (h.ids a rp pool'.id hrp (hmap.symm ▸ (h.system p' hdeployed).1)).1
        omega
      exact ⟨pool', hpool', ha', by simpa [hne] using hmap⟩
  · by_cases hlast : i = rp.assetPoolId
    · subst hlast
      simp [mem_add]
    · simp only [Function.update_of_ne hlast] at hi ⊢
      obtain ⟨hlt, hmem⟩ := h.ids a rp i hrp hi
      exact ⟨by omega, mem_add.mpr (.inr hmem)⟩

theorem addToken {method : RedeemMethod} (h : Wired x) (hc : x.Fresh c) :
    Wired (x.addToken method a c) := by
  have hdeploy := h.deploy hc
  -- a token that was there before is not at the new address
  have h20 : ∀ b rp, x.rewardPools b = some rp → rp.redeemMethod = .CustomERC20 →
      rp.redeemTokenContractAddress ≠ c := by
    rintro b rp hb hm rfl
    exact hc.2.2 (h.erc20 _ b ((h.custom b rp hb).1 hm))
  have h1155 : ∀ b rp, x.rewardPools b = some rp → rp.redeemMethod = .CustomERC1155 →
      rp.redeemTokenContractAddress ≠ c := by
    rintro b rp hb hm rfl
    exact hc.2.2 (h.erc1155 _ b ((h.custom b rp hb).2 hm))
  cases method with
  | ExistingERC20 => exact h
  | CustomERC20 =>
    refine { hdeploy with
      custom := fun b rp hb => ⟨fun hm => ?_, (h.custom b rp hb).2⟩
      erc20 := fun c' b hc' => ?_, foreign := fun c' hc' => ?_ }
    · simpa [Wiring.addToken, h20 b rp hb hm] using (h.custom b rp hb).1 hm
    · by_cases hcc : c' = c
      · exact hcc ▸ List.mem_cons_self
      · exact hdeploy.erc20 c' b (by simpa [Wiring.addToken, Wiring.deploy, hcc] using hc')
    · by_cases hcc : c' = c
      · simp [Wiring.addToken, hcc] at hc'
      · exact h.foreign c' (by simpa [Wiring.addToken, hcc] using hc')
  | CustomERC1155 =>
    refine { hdeploy with
      custom := fun b rp hb => ⟨(h.custom b rp hb).1, fun hm => ?_⟩
      erc1155 := fun c' b hc' => ?_ }
    · simpa [Wiring.addToken, h1155 b rp hb hm] using (h.custom b rp hb).2 hm
    · by_cases hcc : c' = c
      · exact hcc ▸ List.mem_cons_self
      · exact hdeploy.erc1155 c' b (by simpa [Wiring.addToken, Wiring.deploy, hcc] using hc')

/-- A new reward pool without asset pools, once its redeem token is there. -/
theorem addRewardPool (h : Wired x) (ha : a ∈ x.deployed) (hnone : x.rewardPools a = none)
    (hregistry : rp.rewardPoolRegistry = x.registryAddress)
    (hmember : values rp.assetPools = []) (hids : ∀ i, rp.assetPoolIdToAssetPool i = 0)
    (hcustom : (rp.redeemMethod = .CustomERC20 →
        x.erc20 rp.redeemTokenContractAddress = some (some a)) ∧
      (rp.redeemMethod = .CustomERC1155 → x.erc1155 rp.redeemTokenContractAddress = some a)) :
    Wired (x.addRewardPool a rp) := by
  have hold : ∀ b rp₁, x.rewardPools b = some rp₁ →
      (x.addRewardPool a rp).rewardPools b = some rp₁ := by
    intro b rp₁ hb
    have hba : b ≠ a := by
      rintro rfl
      rw [hnone] at hb
      cases hb
    simpa [Wiring.addRewardPool, hba] using hb
  refine { h with
    rewardPool := fun b rp₁ hb => ?_, assetPool := fun p pool hp => ?_,
    member := fun b rp₁ p hb hp => ?_, ids := fun b rp₁ i hb hi => ?_,
    registered := fun b hb => ?_, custom := fun b rp₁ hb => ?_ }
  · rcases addRewardPool_cases hb with ⟨rfl, rfl⟩ | hb
    · exact ⟨ha, hregistry⟩
    · exact h.rewardPool b rp₁ hb
  · obtain ⟨hdeployed, rp₁, hrp₁, hf⟩ := h.assetPool p pool hp
    exact ⟨hdeployed, rp₁, hold _ rp₁ hrp₁, hf⟩
  · rcases addRewardPool_cases hb with ⟨rfl, rfl⟩ | hb
    · rw [hmember] at hp
      cases hp
    · exact h.member b rp₁ p hb hp
  · rcases addRewardPool_cases hb with ⟨rfl, rfl⟩ | hb
    · exact absurd (hids i) hi
    · exact h.ids b rp₁ i hb hi
  · obtain ⟨rp₁, hrp₁, hrest⟩ := h.registered b hb
    exact ⟨rp₁, hold _ rp₁ hrp₁, hrest⟩
  · rcases addRewardPool_cases hb with ⟨rfl, rfl⟩ | hb
    · exact hcustom
    · exact h.custom b rp₁ hb

theorem addConsumer (h : Wired x) (hk : x.Fresh k) (ho : o ≠ 0)
    (hnone : x.ownerToVRFConsumer o = 0) : Wired (x.addConsumer k o) := by
  have hdeploy := h.deploy hk
  refine { hdeploy with
    consumer := fun k' consumer hk' => ?_, vrfConsumer := fun o' ho' => ?_ }
  · by_cases hkk : k' = k
    · subst hkk
      simp only [Wiring.addConsumer, Function.update_self, Option.some.injEq] at hk'
      subst hk'
      exact ⟨List.mem_cons_self, rfl, rfl, ho, by simp [Wiring.addConsumer]⟩
    · simp only [Wiring.addConsumer, Function.update_of_ne hkk] at hk'
      obtain ⟨hdeployed, hr, hw, howner, hmap⟩ := hdeploy.consumer k' consumer hk'
      -- the owner of another consumer is not `o`, which has none yet
      have hne : consumer.owner ≠ o := by
        rintro rfl
        exact (h.system k' (h.consumer k' consumer hk').1).1 (hmap.symm.trans hnone)
      exact ⟨hdeployed, hr, hw, howner, by simpa [Wiring.addConsumer, Wiring.deploy, hne] using hmap⟩
  · by_cases hoo : o' = o
    · subst hoo
      exact ⟨⟨x.registryAddress, o', x.vrfWrapper⟩, by simp [Wiring.addConsumer], rfl⟩
    · simp only [Wiring.addConsumer, Function.update_of_ne hoo] at ho'
      obtain ⟨consumer, hconsumer, howner⟩ := h.vrfConsumer o' ho'
      have hne : x.ownerToVRFConsumer o' ≠ k := fun heq =>
        hk.2.2 (heq ▸ (h.consumer _ consumer hconsumer).1)
      exact ⟨consumer, by simpa [Wiring.addConsumer, hoo, hne] using hconsumer, howner⟩

theorem register (h : Wired x) (hrp : x.rewardPools a = some rp) (howner : rp.owner = o)
    (hforwarder : rp.forwarder = x.trustedForwarder) : Wired (x.register a o) := by
  refine { h with registered := fun b hb => ?_ }
  by_cases hba : b = a
  · subst hba
    exact ⟨rp, hrp, by simpa [Wiring.register] using howner, hforwarder⟩
  · simp only [Wiring.register, Function.update_of_ne hba] at hb ⊢
    exact h.registered b hb

end Wired

/-! ### The contracts behind the wiring -/

variable {w : World F} {r p : Address} {rp : RewardPoolV1 F}

omit [EnumerableSet F] in
theorem wiring_rewardPools (hrp : w.rewardPools r = some rp) :
    w.wiring.rewardPools r = some rp.info :=
  Option.map_eq_some_iff.mpr ⟨rp, hrp, rfl⟩

/-- An asset pool of a reward pool, as the reward pool knows it. -/
theorem exists_member (hw : Wired w.wiring) (hrp : w.rewardPools r = some rp)
    (hp : p ∈ values rp.assetPools) : ∃ pool, w.assetPools p = some pool ∧ pool.rewardPool = r ∧
      rp.assetPoolIdToAssetPool pool.id = p := by
  obtain ⟨info, hinfo, hr, hid⟩ := hw.member r rp.info p (wiring_rewardPools hrp) hp
  obtain ⟨pool, hpool, rfl⟩ := Option.map_eq_some_iff.mp hinfo
  exact ⟨pool, hpool, hr, hid⟩

end Redeemy
