import Redeemy.Proof.Change

/-!
# The books of the registry

The registry, the reward pools and the paymasters. The calls that write to these are few, and none of
them is a call about assets. `Entry` says everything the first half of a call can write, `Registration`
what the second half of a creation writes, and `BooksRule` turns this into an invariant of every run.
-/

namespace Redeemy

open Fallible EnumerableSet

variable {F : Type → Type}
variable {w w' : World F} {rp rp' : RewardPoolV1 F} {a p o self sender receiver k : Address}
variable {n : NewRewardPool} {call : Call} {requestIds : List Nat}

/-- What the registry, the owners of the reward pools and the paymasters write to. -/
structure Books (F : Type → Type) where
  system : Address → Bool
  registryAddress : Address
  registry : RewardPoolRegistryV1
  rewardPools : Address → Option (RewardPoolV1 F)
  paymasters : Address → Option RedeemAssetPaymaster

def World.books (w : World F) : Books F where
  system := w.system
  registryAddress := w.registryAddress
  registry := w.registry
  rewardPools := w.rewardPools
  paymasters := w.paymasters

def Books.setRewardPool (x : Books F) (a : Address) (rp : RewardPoolV1 F) : Books F :=
  { x with rewardPools := Function.update x.rewardPools a (some rp) }

theorem books_setRewardPool : (w.setRewardPool a rp).books = w.books.setRewardPool a rp := rfl

theorem Books.setRewardPool_idem (x : Books F) :
    (x.setRewardPool a rp).setRewardPool a rp' = x.setRewardPool a rp' := by
  simp only [setRewardPool, Function.update_idem]

theorem Books.setRewardPool_cases {x : Books F} {b : Address}
    (h : (x.setRewardPool a rp).rewardPools b = some rp') :
    (b = a ∧ rp' = rp) ∨ (b ≠ a ∧ x.rewardPools b = some rp') := by
  by_cases hb : b = a
  · subst hb
    simp only [setRewardPool, Function.update_self, Option.some.injEq] at h
    exact .inl ⟨rfl, h.symm⟩
  · exact .inr ⟨hb, by simpa [setRewardPool, hb] using h⟩

variable [EnumerableSet F]

/-- The reward pool that `initialize` leaves behind. -/
def NewRewardPool.created (n : NewRewardPool) (rewardPoolRegistry forwarder redeemToken : Address) :
    RewardPoolV1 F :=
  RewardPoolV1.addAssetPool {
    rewardPoolRegistry, name := n.name, owner := n.owner, withdrawAddress := n.withdrawAddress
    redeemTokenContractAddress := redeemToken, forwarder, active := true
    redeemMethod := n.redeemMethod, assetPoolId := 1, assetPoolIdToAssetPool := fun _ => 0
    admins := n.admins.foldl add empty, transferrers := empty, assetPools := empty
    assetPoolIds := empty } n.assetPool

/-- What the registry records of a new reward pool. -/
def RewardPoolRegistryV1.record (registry : RewardPoolRegistryV1) (n : NewRewardPool) :
    RewardPoolRegistryV1 :=
  { registry with
    ownerToRewardPools := Function.update registry.ownerToRewardPools n.owner
      (registry.ownerToRewardPools n.owner ++ [n.rewardPool])
    rewardPoolToOwner := Function.update registry.rewardPoolToOwner n.rewardPool n.owner
    usedRewardPoolNames := Function.update registry.usedRewardPoolNames n.name n.rewardPool }

/-- A change of the settings of a reward pool by its owner. -/
inductive RewardPoolV1.Setting (rp : RewardPoolV1 F) : RewardPoolCall → RewardPoolV1 F → Prop where
  | setWithdrawAddress (withdrawAddress : Address) :
      Setting rp (.setWithdrawAddress withdrawAddress) { rp with withdrawAddress }
  | setActive (active : Bool) : Setting rp (.setActive active) { rp with active }
  | addTransferrers (transferrers : List Address)
      (hfits : transferrers.length + length rp.transferrers ≤ MAX_TRANSFERRERS) :
      Setting rp (.addTransferrers transferrers)
        { rp with transferrers := transferrers.foldl add rp.transferrers }
  | removeTransferrers (transferrers : List Address) :
      Setting rp (.removeTransferrers transferrers) (rp.removeTransferrers transferrers)
  | addAdmins (admins : List Address) (hfits : admins.length + length rp.admins ≤ MAX_ADMINS) :
      Setting rp (.addAdmins admins) { rp with admins := admins.foldl add rp.admins }
  | removeAdmins (admins : List Address) : Setting rp (.removeAdmins admins) (rp.removeAdmins admins)

/-- The books after the first half of a successful call. -/
inductive Entry (w : World F) (call : Call) : Books F → Prop where
  | same : Entry w call w.books
  | setRewardPoolCreationFee (rewardPoolCreationFee : Nat) :
      Entry w call { w.books with registry := { w.registry with rewardPoolCreationFee } }
  | setRevenueWallet (revenueWallet : Address) :
      Entry w call { w.books with registry := { w.registry with revenueWallet } }
  | transferOwnership (owner : Address) :
      Entry w call { w.books with registry := { w.registry with owner } }
  | rename {rp : RewardPoolV1 F} (pool : Address) (rewardPoolName name : Bytes)
      (hcall : call.action = .registry (.setNewRewardPoolName pool rewardPoolName))
      (howner : w.registry.rewardPoolToOwner pool = call.sender)
      (hname : w.registry.validateName rewardPoolName = .ok name)
      (hrp : w.rewardPools pool = some rp) :
      Entry w call { w.books.setRewardPool pool { rp with name } with
        registry := { w.registry with
          usedRewardPoolNames := Function.update w.registry.usedRewardPoolNames name pool } }
  | createPaymaster (newPaymaster : Address) (hfresh : w.Fresh newPaymaster)
      (hnone : w.registry.ownerToPaymaster call.sender = 0) :
      Entry w call { w.books with
        registry := { w.registry with
          ownerToPaymaster := Function.update w.registry.ownerToPaymaster call.sender newPaymaster }
        paymasters := Function.update w.paymasters newPaymaster
          (some ⟨w.registryAddress, w.registryAddress, 0, 0⟩) }
  | setPaymaster {paymaster paymaster' : RedeemAssetPaymaster} (p : Address)
      (hpaymaster : w.paymasters p = some paymaster) (howner : call.sender = paymaster.owner) :
      Entry w call { w.books with paymasters := Function.update w.paymasters p (some paymaster') }
  | setting {rp rp' : RewardPoolV1 F} (a : Address) (c : RewardPoolCall)
      (hcall : call.action = .rewardPool a c)
      (hrp : w.rewardPools a = some rp) (howner : call.sender = rp.owner) (h : rp.Setting c rp') :
      Entry w call (w.books.setRewardPool a rp')
  | createAssetPool {rp : RewardPoolV1 F} (a : Address) (redeemTokenAmount : Nat) (clone : Address)
      (hcall : call.action = .rewardPool a (.createAssetPool redeemTokenAmount clone))
      (hrp : w.rewardPools a = some rp) (howner : call.sender = rp.owner)
      (hprice : 0 < redeemTokenAmount) (hfresh : w.Fresh clone) :
      Entry w call (w.books.setRewardPool a (rp.addAssetPool clone))
  | createRewardPool (forwarder redeemToken : Address) (n : NewRewardPool)
      (hfresh : w.Fresh n.rewardPool) (hpool : n.assetPool ≠ 0)
      (hadmins : n.admins.length ≤ MAX_ADMINS) :
      Entry w call (w.books.setRewardPool n.rewardPool
        (n.created w.registryAddress forwarder redeemToken))

/-- The books after the second half of a creation. -/
inductive Registration (w : World F) (call : Call) : Books F → Prop where
  | mk {value : Nat} {newVRFConsumer : Address} {args : NewRewardPool} (n : NewRewardPool)
      (redeemToken : Address) (ownerToVRFConsumer : Address → Address)
      (hcall : call.action = .registry (.createRewardPool value newVRFConsumer args))
      (howner : n.owner = call.sender) (hname : StringUtils.trim args.name = .ok n.name)
      (hwithdraw : n.owner ≠ 0 → n.withdrawAddress ≠ 0)
      (hkept : ∀ o, w.registry.ownerToVRFConsumer o ≠ 0 →
        ownerToVRFConsumer o = w.registry.ownerToVRFConsumer o)
      (hset : ownerToVRFConsumer n.owner ≠ 0)
      (hnew : n.rewardPool ≠ 0 ∧ n.rewardPool ∉ w.deployed) (hpool : n.assetPool ≠ 0)
      (hadmins : n.admins.length ≤ MAX_ADMINS) :
      Registration w call { w.books.setRewardPool n.rewardPool
          (n.created w.registryAddress w.registry.trustedForwarder redeemToken) with
        registry := { w.registry with ownerToVRFConsumer }.record n }

variable {x : Books F}

/-- The first half of a call registers nothing. -/
theorem Entry.registered (h : Entry w call x) :
    x.registry.ownerToRewardPools = w.registry.ownerToRewardPools ∧
      x.registry.rewardPoolToOwner = w.registry.rewardPoolToOwner ∧
      x.registry.ownerToVRFConsumer = w.registry.ownerToVRFConsumer := by
  cases h <;> exact ⟨rfl, rfl, rfl⟩

/-! ### One reward pool -/

/-- What the first half of a call does to the reward pool at `a`. -/
inductive RewardPoolStep (w : World F) (call : Call) (a : Address) (rp : RewardPoolV1 F) :
    RewardPoolV1 F → Prop where
  | same : RewardPoolStep w call a rp rp
  | rename (rewardPoolName name : Bytes)
      (hcall : call.action = .registry (.setNewRewardPoolName a rewardPoolName))
      (howner : w.registry.rewardPoolToOwner a = call.sender)
      (hname : w.registry.validateName rewardPoolName = .ok name) :
      RewardPoolStep w call a rp { rp with name }
  | setting {rp' : RewardPoolV1 F} (c : RewardPoolCall) (hcall : call.action = .rewardPool a c)
      (howner : call.sender = rp.owner) (h : rp.Setting c rp') : RewardPoolStep w call a rp rp'
  | createAssetPool (redeemTokenAmount : Nat) (clone : Address)
      (hcall : call.action = .rewardPool a (.createAssetPool redeemTokenAmount clone))
      (howner : call.sender = rp.owner) (hprice : 0 < redeemTokenAmount) (hfresh : w.Fresh clone) :
      RewardPoolStep w call a rp (rp.addAssetPool clone)

/-- A new reward pool at `a`. -/
structure New (n : NewRewardPool) (a : Address) : Prop where
  rewardPool : n.rewardPool = a
  assetPool : n.assetPool ≠ 0
  admins : n.admins.length ≤ MAX_ADMINS

theorem Entry.rewardPool (h : Entry w call x) (hrp' : x.rewardPools a = some rp') :
    (∃ rp, w.rewardPools a = some rp ∧ RewardPoolStep w call a rp rp') ∨
      w.Fresh a ∧ ∃ n forwarder redeemToken, New n a ∧
        rp' = n.created w.registryAddress forwarder redeemToken := by
  have hset : ∀ {b : Address} {rp rp₁ : RewardPoolV1 F}, w.rewardPools b = some rp →
      (w.books.setRewardPool b rp₁).rewardPools a = some rp' →
      (b = a → RewardPoolStep w call a rp rp₁) →
      ∃ rp, w.rewardPools a = some rp ∧ RewardPoolStep w call a rp rp' := by
    intro b rp rp₁ hb hset hstep
    rcases Books.setRewardPool_cases hset with ⟨rfl, rfl⟩ | ⟨_, hold⟩
    · exact ⟨rp, hb, hstep rfl⟩
    · exact ⟨rp', hold, .same⟩
  cases h with
  | same => exact .inl ⟨rp', hrp', .same⟩
  | setRewardPoolCreationFee => exact .inl ⟨rp', hrp', .same⟩
  | setRevenueWallet => exact .inl ⟨rp', hrp', .same⟩
  | transferOwnership => exact .inl ⟨rp', hrp', .same⟩
  | createPaymaster => exact .inl ⟨rp', hrp', .same⟩
  | setPaymaster => exact .inl ⟨rp', hrp', .same⟩
  | rename pool rewardPoolName name hcall howner hname hrp =>
    refine .inl (hset hrp hrp' ?_)
    rintro rfl
    exact .rename rewardPoolName name hcall howner hname
  | setting b c hcall hrp howner h =>
    refine .inl (hset hrp hrp' ?_)
    rintro rfl
    exact .setting c hcall howner h
  | createAssetPool b redeemTokenAmount clone hcall hrp howner hprice hfresh =>
    refine .inl (hset hrp hrp' ?_)
    rintro rfl
    exact .createAssetPool redeemTokenAmount clone hcall howner hprice hfresh
  | createRewardPool forwarder redeemToken n hfresh hpool hadmins =>
    rcases Books.setRewardPool_cases hrp' with ⟨rfl, rfl⟩ | ⟨_, hold⟩
    · exact .inr ⟨hfresh, n, forwarder, redeemToken, ⟨rfl, hpool, hadmins⟩, rfl⟩
    · exact .inl ⟨rp', hold, .same⟩

/-! ### Creations -/

/-- A reward pool the registry knows is deployed. -/
theorem mem_deployed_of_registered (hw : Wired w.wiring) (h : w.registry.rewardPoolToOwner a ≠ 0) :
    a ∈ w.deployed := by
  obtain ⟨rp, hrp, _⟩ := hw.registered a h
  exact (hw.rewardPool a rp hrp).1

theorem createClone_books {value id price : Nat} {clone : Address}
    (h : w.createClone sender value a id price clone = .ok w') :
    w.Fresh clone ∧ 0 < price ∧ w'.books = w.books := by
  obtain ⟨_, _, hfresh, _, hprice, _, rfl⟩ := createClone_eq_ok h
  exact ⟨hfresh, hprice, rfl⟩

theorem createAssetPool_books {price : Nat} {clone : Address}
    (h : w.createAssetPool a price clone = .ok w') :
    ∃ rp, w.rewardPools a = some rp ∧ w.Fresh clone ∧ 0 < price ∧
      w'.books = w.books.setRewardPool a (rp.addAssetPool clone) := by
  obtain ⟨rp, w₁, hrp, hclone, rfl⟩ := createAssetPool_eq_ok h
  obtain ⟨hfresh, hprice, hbooks⟩ := createClone_books hclone
  exact ⟨rp, hrp, hfresh, hprice, by rw [books_setRewardPool, hbooks]⟩

omit [EnumerableSet F] in
theorem setOrCreateRedeemToken_books {method : RedeemMethod} {existing clone redeemToken : Address}
    (h : w.setOrCreateRedeemToken a method existing clone = .ok (w', redeemToken)) :
    w'.books = w.books := by
  rcases setOrCreateRedeemToken_cases h with ⟨_, _, _, rfl⟩ | ⟨_, _, _, rfl⟩ | ⟨_, _, _, rfl⟩ <;> rfl

theorem createRewardPoolClone_books {rewardPoolRegistry forwarder : Address}
    (h : w.createRewardPoolClone rewardPoolRegistry forwarder n = .ok w') :
    w.Fresh n.rewardPool ∧ n.assetPool ≠ 0 ∧ n.admins.length ≤ MAX_ADMINS ∧
      ∃ redeemToken, w'.books = w.books.setRewardPool n.rewardPool
        (n.created rewardPoolRegistry forwarder redeemToken) := by
  obtain ⟨hfresh, h⟩ := createRewardPoolClone_eq_ok h
  unfold World.initializeRewardPool at h
  simp only [bind_eq_ok, Prod.exists] at h
  obtain ⟨w₁, redeemToken, htoken, rp, hrp, hpool⟩ := h
  unfold RewardPoolV1.addAdmins at hrp
  simp only [bind_eq_ok, require_eq_ok, pure_eq_ok] at hrp
  obtain ⟨_, hadmins, rfl⟩ := hrp
  have hbooks₁ : w₁.books = (w.deploy n.rewardPool).books := setOrCreateRedeemToken_books htoken
  obtain ⟨rp₁, hrp₁, hclone, _, hbooks⟩ := createAssetPool_books hpool
  simp only [World.setRewardPool, Function.update_self, Option.some.injEq] at hrp₁
  subst hrp₁
  refine ⟨hfresh, hclone.1, (Nat.le_add_right _ _).trans hadmins, redeemToken, ?_⟩
  rw [hbooks, books_setRewardPool, Books.setRewardPool_idem, hbooks₁]
  rfl

omit [EnumerableSet F] in
theorem setVRFConsumer_books (h : w.setVRFConsumer o k = .ok w') : ∃ ownerToVRFConsumer,
      w'.books = { w.books with registry := { w.registry with ownerToVRFConsumer } } ∧
      (∀ o, w.registry.ownerToVRFConsumer o ≠ 0 →
        ownerToVRFConsumer o = w.registry.ownerToVRFConsumer o) ∧ ownerToVRFConsumer o ≠ 0 ∧
      ∀ b, b ∈ w.deployed → b ∈ w'.deployed := by
  rcases setVRFConsumer_cases h with ⟨hnone, rfl⟩ | ⟨hnone, hfresh, rfl⟩
  · exact ⟨_, rfl, fun _ _ => rfl, hnone, fun _ => id⟩
  · refine ⟨_, rfl, fun o' ho' => ?_, ?_, fun b => List.mem_cons_of_mem _⟩
    · have hne : o' ≠ o := by
        rintro rfl
        exact ho' hnone
      exact Function.update_of_ne hne ..
    · rw [Function.update_self]
      exact hfresh.1

/-! ### Every call -/

theorem Change.books (h : Change w call w') : w'.books = w.books := by
  cases h with
  | setPrice => rfl
  | handOut => rfl
  | deposit self value assets _ h =>
    cases h with
    | mk => rfl
  | withdraw self assets _ h =>
    cases h with
    | mk => rfl
  | redeem self trailing n requestIds _ _ h =>
    cases h with
    | mk _ _ _ _ _ _ _ _ hrequests =>
      obtain ⟨_, _, _, rfl⟩ := hrequests.frame
      rfl
  | fulfill k requestId words _ h =>
    cases h with
    | mk => rfl

theorem registryCall_books {c : RegistryCall} (hcall : call.action = .registry c)
    (h : w.registryCall call.sender c = .ok w') : Entry w call w'.books := by
  cases c with
  | createRewardPool value newVRFConsumer n =>
    have hbooks : w'.books = w.books := by
      unfold World.registryCall World.createRewardPoolFee at h
      simp only [bind_eq_ok] at h
      obtain ⟨_, _, _, _, h⟩ := h
      unfold World.transferCreationFee at h
      split_ifs at h
      · simp only [bind_eq_ok, require_eq_ok, pure_eq_ok] at h
        obtain ⟨_, _, _, _, _, _, rfl⟩ := h
        rfl
      · rw [pure_eq_ok] at h
        rw [← h]
        rfl
    exact hbooks ▸ .same
  | setNewRewardPoolName pool rewardPoolName =>
    unfold World.registryCall World.setNewRewardPoolName at h
    simp only [bind_eq_ok, require_eq_ok, pure_eq_ok, World.rewardPool_eq_ok] at h
    obtain ⟨_, howner, name, hname, rp, hrp, _, _, rfl⟩ := h
    exact .rename pool rewardPoolName name hcall howner hname hrp
  | createPaymaster newPaymaster =>
    unfold World.registryCall World.createPaymaster at h
    dsimp only at h
    split_ifs at h with hnone
    · simp only [bind_eq_ok, require_eq_ok, pure_eq_ok] at h
      obtain ⟨_, hfresh, rfl⟩ := h
      exact .createPaymaster newPaymaster hfresh hnone
    · rw [pure_eq_ok] at h
      exact h ▸ .same
  | setRewardPoolCreationFee fee =>
    simp only [World.registryCall, bind_eq_ok, require_eq_ok, pure_eq_ok] at h
    obtain ⟨_, _, rfl⟩ := h
    exact .setRewardPoolCreationFee fee
  | setRevenueWallet wallet =>
    simp only [World.registryCall, bind_eq_ok, require_eq_ok, pure_eq_ok] at h
    obtain ⟨_, _, rfl⟩ := h
    exact .setRevenueWallet wallet
  | transferOwnership owner =>
    simp only [World.registryCall, bind_eq_ok, require_eq_ok, pure_eq_ok] at h
    obtain ⟨_, _, _, _, rfl⟩ := h
    exact .transferOwnership owner

omit [EnumerableSet F] in
theorem rewardPoolOnlyOwner_eq_ok {f : RewardPoolV1 F → Result (RewardPoolV1 F)}
    (h : w.rewardPoolOnlyOwner a sender f = .ok w') : ∃ rp rp', w.rewardPools a = some rp ∧
      sender = rp.owner ∧ f rp = .ok rp' ∧ w' = w.setRewardPool a rp' := by
  unfold World.rewardPoolOnlyOwner at h
  simp only [bind_eq_ok, require_eq_ok, pure_eq_ok, World.rewardPool_eq_ok] at h
  obtain ⟨rp, hrp, _, howner, rp', hrp', rfl⟩ := h
  exact ⟨rp, rp', hrp, howner, hrp', rfl⟩

theorem rewardPoolCall_books {c : RewardPoolCall} (hw : Wired w.wiring)
    (hs : w.system call.sender = false) (hcall : call.action = .rewardPool a c)
    (h : w.rewardPoolCall a call.sender c = .ok w') : Entry w call w'.books := by
  have hsetting : ∀ {f : RewardPoolV1 F → Result (RewardPoolV1 F)},
      w.rewardPoolOnlyOwner a call.sender f = .ok w' →
      (∀ rp rp', f rp = .ok rp' → rp.Setting c rp') → Entry w call w'.books := by
    intro f hf hset
    obtain ⟨rp, rp', hrp, howner, hrp', rfl⟩ := rewardPoolOnlyOwner_eq_ok hf
    exact .setting a c hcall hrp howner (hset rp rp' hrp')
  cases c with
  | createAssetPool redeemTokenAmount clone =>
    simp only [World.rewardPoolCall, bind_eq_ok, require_eq_ok, World.rewardPool_eq_ok] at h
    obtain ⟨rp, hrp, _, howner, h⟩ := h
    obtain ⟨rp', hrp', hfresh, hprice, hbooks⟩ := createAssetPool_books h
    rw [hrp, Option.some.injEq] at hrp'
    subst hrp'
    rw [hbooks]
    exact .createAssetPool a redeemTokenAmount clone hcall hrp howner hprice hfresh
  | setWithdrawAddress withdrawAddress =>
    exact hsetting h fun rp rp' hset => pure_eq_ok.mp hset ▸ .setWithdrawAddress withdrawAddress
  | setActive active => exact hsetting h fun rp rp' hset => pure_eq_ok.mp hset ▸ .setActive active
  | setNewName name =>
    -- only the registry may make this call, and it is an address of the system
    simp only [World.rewardPoolCall, bind_eq_ok, require_eq_ok, World.rewardPool_eq_ok] at h
    obtain ⟨rp, hrp, _, hsender, _⟩ := h
    have hregistry := (hw.rewardPool a rp.info (Option.map_eq_some_iff.mpr ⟨rp, hrp, rfl⟩)).2
    have hsystem := (hw.system _ hw.registry).2
    exact absurd (hregistry.symm.trans hsender.symm) (ne_of_system hsystem hs)
  | addTransferrers transferrers =>
    refine hsetting h fun rp rp' hset => ?_
    unfold RewardPoolV1.addTransferrers at hset
    simp only [bind_eq_ok, require_eq_ok, pure_eq_ok] at hset
    obtain ⟨_, hfits, rfl⟩ := hset
    exact .addTransferrers transferrers hfits
  | removeTransferrers transferrers =>
    exact hsetting h fun rp rp' hset => pure_eq_ok.mp hset ▸ .removeTransferrers transferrers
  | addAdmins admins =>
    refine hsetting h fun rp rp' hset => ?_
    unfold RewardPoolV1.addAdmins at hset
    simp only [bind_eq_ok, require_eq_ok, pure_eq_ok] at hset
    obtain ⟨_, hfits, rfl⟩ := hset
    exact .addAdmins admins hfits
  | removeAdmins admins =>
    exact hsetting h fun rp rp' hset => pure_eq_ok.mp hset ▸ .removeAdmins admins
  | requestRandomWords receiver requestId =>
    cases rewardPoolRequestRandomWords_eq_ok h with
    | mk => exact .same

theorem factoryCall_books {c : FactoryCall} (h : w.factoryCall call.sender c = .ok w') :
    Entry w call w'.books := by
  cases c with
  | createAssetPool value rewardPool id redeemTokenAmount clone =>
    exact (createClone_books h).2.2 ▸ .same
  | createRewardPool forwarder n =>
    obtain ⟨hfresh, hpool, hadmins, redeemToken, hbooks⟩ := createRewardPoolClone_books h
    exact hbooks ▸ .createRewardPool forwarder redeemToken n hfresh hpool hadmins

theorem paymasterCall_books {c : PaymasterCall} (h : w.paymasterCall a call.sender c = .ok w') :
    Entry w call w'.books := by
  obtain ⟨paymaster, paymaster', hpaymaster, howner, rfl⟩ := paymasterCall_eq_ok h
  exact .setPaymaster a hpaymaster howner

/-- What the first half of a call writes. -/
theorem enter_books (hw : Wired w.wiring) (hcan : w.CanCall call) (h : w.enter call = .ok w') :
    Entry w call w'.books := by
  have hs := hcan.2.1
  unfold World.enter at h
  cases haction : call.action with
  | registry c =>
    rw [haction] at h
    exact registryCall_books haction h
  | factory c =>
    rw [haction] at h
    exact factoryCall_books h
  | rewardPool a c =>
    rw [haction] at h
    exact rewardPoolCall_books hw hs haction h
  | assetPool a c =>
    rw [haction] at h
    exact (assetPoolCall_eq_ok hw hcan haction h).books ▸ .same
  | consumer a c =>
    rw [haction] at h
    exact (consumerCall_eq_ok hw hs haction h).books ▸ .same
  | paymaster a c =>
    rw [haction] at h
    exact paymasterCall_books h
  | erc20 a c =>
    simp only [haction, bind_eq_ok, pure_eq_ok] at h
    obtain ⟨_, _, rfl⟩ := h
    exact .same
  | erc721 a c =>
    simp only [haction, bind_eq_ok, pure_eq_ok] at h
    obtain ⟨_, _, rfl⟩ := h
    exact .same
  | erc1155 a c =>
    simp only [haction, bind_eq_ok, pure_eq_ok] at h
    obtain ⟨_, _, rfl⟩ := h
    exact .same
  | sendNative dst value =>
    simp only [haction, bind_eq_ok, require_eq_ok, pure_eq_ok] at h
    obtain ⟨_, _, _, _, rfl⟩ := h
    exact .same
  | setRefuses refuses =>
    simp only [haction, pure_eq_ok] at h
    subst h
    exact .same

/-- What the second half of a call writes. -/
theorem leave_books (h : w.leave call = .ok w') :
    w'.books = w.books ∨ Registration w call w'.books := by
  unfold World.leave at h
  split at h
  · rename_i value newVRFConsumer args hcall
    simp only [bind_eq_ok] at h
    obtain ⟨name, hname, h⟩ := h
    unfold World.createRewardPoolRest at h
    simp only [bind_eq_ok, pure_eq_ok] at h
    obtain ⟨w₁, hconsumer, w₂, hclone, rfl⟩ := h
    obtain ⟨ownerToVRFConsumer, hbooks₁, hkept, hset, hdeployed⟩ := setVRFConsumer_books hconsumer
    obtain ⟨hfresh, hpool, hadmins, redeemToken, hbooks₂⟩ := createRewardPoolClone_books hclone
    have hregistry₁ : w₁.registry = { w.registry with ownerToVRFConsumer } :=
      congrArg Books.registry hbooks₁
    have hregistry₂ : w₂.registry = w₁.registry := congrArg Books.registry hbooks₂
    have haddress : w₁.registryAddress = w.registryAddress := congrArg Books.registryAddress hbooks₁
    refine .inr ?_
    let n : NewRewardPool := { args with
      owner := call.sender
      name
      withdrawAddress := if args.withdrawAddress = 0 then call.sender else args.withdrawAddress }
    show Registration w call { w₂.books with registry := w₂.registry.record n }
    rw [hbooks₂, hregistry₂, hregistry₁, hbooks₁, haddress]
    refine .mk n redeemToken ownerToVRFConsumer hcall rfl hname (fun howner => ?_) hkept hset
      ⟨hfresh.1, fun hmem => hfresh.2.2 (hdeployed _ hmem)⟩ hpool hadmins
    show (if args.withdrawAddress = 0 then call.sender else args.withdrawAddress) ≠ 0
    split_ifs with hzero
    · exact howner
    · exact hzero
  · rw [pure_eq_ok] at h
    exact .inl (h ▸ rfl)

/-! ### Invariants of the books -/

variable {P : World F → Call → Prop} {J : World F → Prop} {I : Books F → Prop}

/-- What a property of the books has to survive, in states that satisfy `J`. -/
structure BooksStep (P : World F → Call → Prop) (J : World F → Prop) (I : Books F → Prop) : Prop where
  entry : ∀ w call x, J w → I w.books → w.CanCall call → P w call → Entry w call x → I x
  registration : ∀ w call x, J w → I w.books → call.sender ≠ 0 → Registration w call x → I x

structure BooksRule (P : World F → Call → Prop) (J : World F → Prop) (I : Books F → Prop) : Prop
    extends BooksStep P J I where
  initial : ∀ w : World F, w.Initial → I w.books

theorem BooksStep.preserved (hI : BooksStep P J I) (hsane : ∀ w, J w → Sane w) :
    CallStack.Preserved (World.machine F) (fun w call => w.CanCall call ∧ P w call) J
      (fun w => I w.books) where
  enter := fun call w w' hw hi hP h =>
    hI.entry w call _ hw hi hP.1 hP.2 (enter_books (hsane w hw).wired hP.1 h)
  leave := fun call w w' hw hi hP h => by
    obtain ⟨_, hP⟩ := hP
    rcases leave_books h with hsame | hregistration
    · rwa [hsame]
    · exact hI.registration w call _ hw hi hP.1.1 hregistration
  abort := fun call w hw hi _ => by
    rcases abort_eq w call with heq | ⟨requestId, k, heq⟩
    · rwa [heq]
    · rw [heq]
      exact hi

theorem BooksRule.mono {J' : World F → Prop} (h : BooksRule P J I) (hJ : ∀ w, J' w → J w) :
    BooksRule P J' I where
  initial := h.initial
  entry := fun w call x hw => h.entry w call x (hJ w hw)
  registration := fun w call x hw => h.registration w call x (hJ w hw)

theorem Kept.booksRule (hJ : Kept P J) (hsane : ∀ w, J w → Sane w) (hI : BooksRule P J I) :
    Kept P (fun w => J w ∧ I w.books) where
  initial := fun w hw => ⟨hJ.initial w hw, hI.initial w hw⟩
  preserved := hJ.preserved.and (hI.toBooksStep.preserved hsane)

end Redeemy
