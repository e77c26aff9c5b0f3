import Redeemy.Proof.Books

/-!
# The paymasters

The registry deploys the paymasters, so it owns them, and it has no function that would configure
one. Whom a paymaster was created for makes no difference to what it accepts either: any target that
names a registered reward pool passes its check.
-/

namespace Redeemy

open Fallible EnumerableSet

variable {F : Type → Type}
variable {w w' : World F} {paymaster : RedeemAssetPaymaster} {a o p sender : Address}
variable {P : World F → Call → Prop} {cfg : CallStack.Config (World F) Call}

/-! ### Who owns a paymaster -/

/-- Every paymaster is as it was deployed, and those of the records are there. -/
structure Deployed (x : Books F) : Prop where
  paymaster : ∀ p paymaster, x.paymasters p = some paymaster →
    paymaster = ⟨x.registryAddress, x.registryAddress, 0, 0⟩
  recorded : ∀ o, x.registry.ownerToPaymaster o ≠ 0 →
    x.system o = false ∧ ∃ paymaster, x.paymasters (x.registry.ownerToPaymaster o) = some paymaster

theorem Deployed.congr {x y : Books F} (h : Deployed x) (hsystem : y.system = x.system)
    (haddress : y.registryAddress = x.registryAddress) (hpaymasters : y.paymasters = x.paymasters)
    (howners : y.registry.ownerToPaymaster = x.registry.ownerToPaymaster) : Deployed y where
  paymaster := by
    rw [hpaymasters, haddress]
    exact h.paymaster
  recorded := by
    rw [hsystem, hpaymasters, howners]
    exact h.recorded

theorem Deployed.createPaymaster (hI : Deployed w.books) (hs : w.system sender = false) :
    Deployed { w.books with
      registry := { w.registry with
        ownerToPaymaster := Function.update w.registry.ownerToPaymaster sender p }
      paymasters := Function.update w.paymasters p
        (some ⟨w.registryAddress, w.registryAddress, 0, 0⟩) } where
  paymaster := by
    intro q paymaster hq
    change Function.update w.paymasters p _ q = some paymaster at hq
    by_cases hqp : q = p
    · rw [hqp, Function.update_self, Option.some.injEq] at hq
      exact hq.symm
    · rw [Function.update_of_ne hqp] at hq
      exact hI.paymaster q paymaster hq
  recorded := by
    intro o ho
    change Function.update w.registry.ownerToPaymaster sender p o ≠ 0 at ho
    show w.system o = false ∧ ∃ paymaster, Function.update w.paymasters p _
      (Function.update w.registry.ownerToPaymaster sender p o) = some paymaster
    by_cases hos : o = sender
    · rw [hos, Function.update_self, Function.update_self]
      exact ⟨hs, _, rfl⟩
    · rw [Function.update_of_ne hos] at ho ⊢
      obtain ⟨hso, paymaster, hpaymaster⟩ := hI.recorded o ho
      by_cases hop : w.registry.ownerToPaymaster o = p
      · rw [hop, Function.update_self]
        exact ⟨hso, _, rfl⟩
      · rw [Function.update_of_ne hop]
        exact ⟨hso, paymaster, hpaymaster⟩

variable [EnumerableSet F]

theorem deployed_rule : BooksRule P (Sane : World F → Prop) Deployed where
  initial := by
    intro w hw
    constructor
    · intro p paymaster hp
      rw [show w.books.paymasters p = none from hw.paymasters p] at hp
      cases hp
    · intro o ho
      exact absurd (hw.ownerToPaymaster o) ho
  entry := by
    intro w call x hw hI hcan _ h
    cases h with
    | createPaymaster newPaymaster => exact hI.createPaymaster hcan.2.1
    | setPaymaster p hpaymaster howner =>
      -- the owner of a paymaster is the registry, and nobody else acts from its address
      have hregistry : w.system w.registryAddress = true :=
        (hw.wired.system _ hw.wired.registry).2
      have howner' : call.sender = w.registryAddress := by
        rw [howner, hI.paymaster p _ hpaymaster]
        rfl
      exact absurd howner'.symm (ne_of_system hregistry hcan.2.1)
    | same => exact hI
    | setRewardPoolCreationFee => exact hI.congr rfl rfl rfl rfl
    | setRevenueWallet => exact hI.congr rfl rfl rfl rfl
    | transferOwnership => exact hI.congr rfl rfl rfl rfl
    | rename => exact hI.congr rfl rfl rfl rfl
    | setting => exact hI.congr rfl rfl rfl rfl
    | createAssetPool => exact hI.congr rfl rfl rfl rfl
    | createRewardPool => exact hI.congr rfl rfl rfl rfl
  registration := by
    intro w call x _ hI _ h
    cases h with
    | mk => exact hI.congr rfl rfl rfl rfl

/-! ### Every run -/

/-- With contracts that support the interface, `o` can configure the paymaster at `p`, and nobody else
can. -/
structure ControlledBy (w : World F) (p o : Address) : Prop where
  setRelayHub : ∀ sender hub,
    (∃ w', w.paymasterCall p sender (.setRelayHub hub true) = .ok w') ↔ sender = o
  setTrustedForwarder : ∀ sender forwarder,
    (∃ w', w.paymasterCall p sender (.setTrustedForwarder forwarder true) = .ok w') ↔ sender = o

omit [EnumerableSet F] in
theorem paymasterCall_not_owner {c : PaymasterCall} (hp : w.paymasters p = some paymaster)
    (hsender : sender ≠ paymaster.owner) :
    w.paymasterCall p sender c = .error (.message "Ownable: caller is not the owner") := by
  unfold World.paymasterCall
  rw [orThrow_eq_ok.mpr hp, ok_bind, require, if_neg hsender]
  rfl

omit [EnumerableSet F] in
theorem verifyRelayHubOnly_fails (hp : w.paymasters p = some paymaster)
    (hsender : sender ≠ paymaster.relayHub) :
    w.verifyRelayHubOnly p sender = .error (.message "can only be called by RelayHub") := by
  unfold World.verifyRelayHubOnly
  rw [orThrow_eq_ok.mpr hp, ok_bind, require, if_neg hsender]

/-- In no state of any run is the paymaster of an owner under the owner's control: it refuses every
account, so it never has a relay hub. -/
theorem paymaster_is_not_controlled (h : World.Run P cfg)
    (ho : cfg.state.registry.ownerToPaymaster o ≠ 0) :
    ¬ControlledBy cfg.state (cfg.state.registry.ownerToPaymaster o) o ∧
    (∀ sender c, cfg.state.system sender = false →
      cfg.state.paymasterCall (cfg.state.registry.ownerToPaymaster o) sender c =
        .error (.message "Ownable: caller is not the owner")) ∧
    ∀ sender, sender ≠ 0 →
      cfg.state.verifyRelayHubOnly (cfg.state.registry.ownerToPaymaster o) sender =
        .error (.message "can only be called by RelayHub") := by
  obtain ⟨hsane, hdeployed⟩ := (kept_sane.booksRule (fun _ => id) deployed_rule).run h
  obtain ⟨hso, paymaster, hp⟩ := hdeployed.recorded o ho
  have hpaymaster : paymaster = ⟨cfg.state.registryAddress, cfg.state.registryAddress, 0, 0⟩ :=
    hdeployed.paymaster _ paymaster hp
  have hregistry : cfg.state.system cfg.state.registryAddress = true :=
    (hsane.wired.system _ hsane.wired.registry).2
  have hrefuses : ∀ sender c, cfg.state.system sender = false →
      cfg.state.paymasterCall (cfg.state.registry.ownerToPaymaster o) sender c =
        .error (.message "Ownable: caller is not the owner") := by
    intro sender c hs
    apply paymasterCall_not_owner hp
    rw [hpaymaster]
    exact (ne_of_system hregistry hs).symm
  refine ⟨?_, hrefuses, ?_⟩
  · intro hcontrolled
    obtain ⟨w', hw'⟩ := (hcontrolled.setRelayHub o 0).mpr rfl
    rw [hrefuses o _ hso] at hw'
    cases hw'
  · intro sender hsender
    apply verifyRelayHubOnly_fails hp
    rw [hpaymaster]
    exact hsender

/-- The account 1 has created a paymaster. -/
def sponsored : CallStack.Config (World ListSet) Call :=
  World.after (fun _ _ => True) [.call ⟨1, .registry (.createPaymaster 1005)⟩]

theorem ownerToPaymaster_sponsored : sponsored.state.registry.ownerToPaymaster 1 = 1005 := by
  decide

theorem paymaster_is_not_controlled_sponsored :
    sponsored.state.registry.ownerToPaymaster 1 = 1005 ∧
    sponsored.state.paymasterCall (sponsored.state.registry.ownerToPaymaster 1) 1
      (.setRelayHub 20 true) = .error (.message "Ownable: caller is not the owner") := by
  have hne : sponsored.state.registry.ownerToPaymaster 1 ≠ 0 := by
    rw [ownerToPaymaster_sponsored]
    decide
  have hrefuses := paymaster_is_not_controlled (World.run_after (fun _ _ => True) _) hne
  exact ⟨ownerToPaymaster_sponsored, hrefuses.2.1 1 _ (by decide)⟩

theorem owner_cannot_configure_paymaster : World.Run (fun _ _ => True) sponsored ∧
    sponsored.state.registry.ownerToPaymaster 1 = 1005 ∧ ¬ControlledBy sponsored.state 1005 1 := by
  refine ⟨World.run_after (fun _ _ => True) _, ownerToPaymaster_sponsored, ?_⟩
  intro hcontrolled
  obtain ⟨w', hw'⟩ := (hcontrolled.setRelayHub 1 20).mpr rfl
  have hfails : (sponsored.state.paymasterCall 1005 1 (.setRelayHub 20 true)).isOk = false := by
    decide
  rw [hw'] at hfails
  cases hfails

/-! ### What a paymaster accepts -/

/-- A paymaster is no reward pool. -/
def Distinct (x : Books F) : Prop := ∀ p, x.paymasters p ≠ none → x.rewardPools p = none

theorem rewardPools_eq_none (hw : Wired w.wiring) (h : a ∉ w.deployed) : w.rewardPools a = none := by
  cases hrp : w.rewardPools a with
  | none => rfl
  | some rp => exact absurd (hw.rewardPool a rp.info (wiring_rewardPools hrp)).1 h

theorem paymasters_eq_none (hw : Wired w.wiring) (h : p ∉ w.deployed) : w.paymasters p = none := by
  by_contra hp
  exact h (hw.paymaster p fun hnone => hp (Option.map_eq_none_iff.mp hnone))

theorem Distinct.entry {x : Books F} {call : Call} (hw : Wired w.wiring) (hI : Distinct w.books)
    (h : Entry w call x) : Distinct x := by
  have hstep : x.paymasters = w.paymasters → Distinct x := by
    intro hsame p hp
    rw [hsame] at hp
    by_contra hsome
    obtain ⟨rp', hrp'⟩ := Option.ne_none_iff_exists'.mp hsome
    rcases h.rewardPool hrp' with ⟨rp, hrp, _⟩ | ⟨hfresh, _⟩
    · have hnone : w.rewardPools p = none := hI p hp
      rw [hrp] at hnone
      cases hnone
    · exact hp (paymasters_eq_none hw hfresh.2.2)
  cases h with
  | createPaymaster newPaymaster hfresh =>
    intro p hp
    change Function.update w.paymasters newPaymaster _ p ≠ none at hp
    show w.rewardPools p = none
    by_cases hnew : p = newPaymaster
    · exact hnew ▸ rewardPools_eq_none hw hfresh.2.2
    · rw [Function.update_of_ne hnew] at hp
      exact hI p hp
  | setPaymaster q hq =>
    intro p hp
    change Function.update w.paymasters q _ p ≠ none at hp
    show w.rewardPools p = none
    by_cases hpq : p = q
    · apply hI p
      show w.paymasters p ≠ none
      rw [hpq, hq]
      exact Option.some_ne_none _
    · rw [Function.update_of_ne hpq] at hp
      exact hI p hp
  | same => exact hI
  | setRewardPoolCreationFee => exact hI
  | setRevenueWallet => exact hI
  | transferOwnership => exact hI
  | rename => exact hstep rfl
  | setting => exact hstep rfl
  | createAssetPool => exact hstep rfl
  | createRewardPool => exact hstep rfl

theorem distinct_rule : BooksRule P (Sane : World F → Prop) Distinct where
  initial := by
    intro w hw p _
    exact hw.rewardPools p
  entry := by
    intro w call x hw hI _ _ h
    exact hI.entry hw.wired h
  registration := by
    intro w call x hw hI _ h p hp
    cases h with
    | mk n redeemToken _ _ _ _ _ _ _ hnew =>
      show Function.update w.rewardPools n.rewardPool _ p = none
      by_cases hpn : p = n.rewardPool
      · exact absurd (paymasters_eq_none hw.wired (hpn ▸ hnew.2)) hp
      · rw [Function.update_of_ne hpn]
        exact hI p hp

/-- The contract at `dst` answers as `target` does: an asset pool as it is, any other contract as it
likes. -/
def Answers (w : World F) (dst : Address) (target : Target) : Prop :=
  ∀ pool, w.assetPools dst = some pool → target =
    ⟨some pool.rewardPool, some pool.id, fun _ => some pool.redeemTokenAmount,
      some pool.totalNumberOfAssets⟩

/-- The paymaster at `p` accepts requests to the asset pools of `o` only. -/
def SponsorsOnly (w : World F) (p o : Address) : Prop :=
  ∀ target req, Answers w req.dst target → w.preRelayedCall p target req = .ok () →
    ∃ r rp, w.registry.rewardPoolToOwner r = o ∧ w.rewardPools r = some rp ∧
      req.dst ∈ values rp.assetPools

/-- There is a contract at the address of the redeem token. -/
def HasToken (w : World F) (rp : RewardPoolV1 F) : Prop :=
  if rp.redeemMethod = .CustomERC1155 then w.tokens.erc1155 rp.redeemTokenContractAddress ≠ none
  else w.tokens.erc20 rp.redeemTokenContractAddress ≠ none

omit [EnumerableSet F] in
theorem getRedeemTokenBalanceOf_eq_ok {addr : Address} {target : Target} {balance : Nat}
    (h : w.getRedeemTokenBalanceOf a addr target = .ok balance) :
    ∃ rp, w.rewardPools a = some rp ∧ HasToken w rp := by
  unfold World.getRedeemTokenBalanceOf at h
  rw [bind_eq_ok] at h
  obtain ⟨rp, hrp, h⟩ := h
  refine ⟨rp, World.rewardPool_eq_ok.mp hrp, ?_⟩
  unfold HasToken
  split_ifs at h ⊢
  · simp only [bind_eq_ok, Tokens.erc1155Contract_eq_ok] at h
    obtain ⟨_, _, tok, htok, _⟩ := h
    rw [htok]
    exact Option.some_ne_none tok
  · simp only [bind_eq_ok, Tokens.erc20Contract_eq_ok] at h
    obtain ⟨tok, htok, _⟩ := h
    rw [htok]
    exact Option.some_ne_none tok

omit [EnumerableSet F] in
theorem preRelayedCall_eq_ok {target : Target} {req : ForwardRequest}
    (h : w.preRelayedCall p target req = .ok ()) :
    ∃ r rp, w.registry.rewardPoolToOwner r ≠ 0 ∧ w.rewardPools r = some rp ∧ HasToken w rp := by
  unfold World.preRelayedCall at h
  simp only [bind_eq_ok, orThrow_eq_ok, require_eq_ok, World.registryAt_eq_ok] at h
  obtain ⟨_, hp', r, _, _, ⟨_, rfl⟩, _, hregistered, _, _, _, _, _, _, balance, hbalance, _⟩ := h
  obtain ⟨rp, hrp, htoken⟩ := getRedeemTokenBalanceOf_eq_ok hbalance
  exact ⟨r, rp, hregistered, hrp, htoken⟩

/-! ### A forged target -/

/-- A contract that names the reward pool at `r`, tells the paymaster at `p` that its cards are free,
and claims to have any number of them. -/
def forgedTarget (r p : Address) : Target where
  getRewardPool := some r
  id := some 0
  getRedeemTokenAmount := fun caller => some (if caller = p then 0 else 1)
  getTotalNumberOfAssets := some (UINT256_SIZE - 1)

def forgedRequest (dst : Address) : ForwardRequest :=
  ⟨1, dst, REDEEM_ASSET_SELECTOR ++ List.replicate 28 0⟩

omit [EnumerableSet F] in
theorem getRedeemTokenBalanceOf_forged {rp : RewardPoolV1 F} (hrp : w.rewardPools a = some rp)
    (htoken : HasToken w rp) (hne : a ≠ p) :
    ∃ balance, w.getRedeemTokenBalanceOf a 1 (forgedTarget a p) = .ok balance := by
  unfold World.getRedeemTokenBalanceOf
  rw [World.rewardPool_eq_ok.mpr hrp, ok_bind]
  unfold HasToken at htoken
  split_ifs at htoken ⊢ with hm
  · obtain ⟨tok, htok⟩ := Option.ne_none_iff_exists'.mp htoken
    refine ⟨tok.balances 0 1, ?_⟩
    rw [Tokens.erc1155Contract_eq_ok.mpr htok]
    rfl
  · obtain ⟨tok, htok⟩ := Option.ne_none_iff_exists'.mp htoken
    refine ⟨tok.balanceOf 1 / 1, ?_⟩
    rw [Tokens.erc20Contract_eq_ok.mpr htok, ok_bind]
    show (checkedDiv (tok.balanceOf 1) (if a = p then 0 else 1)) = _
    rw [if_neg hne]
    rfl

omit [EnumerableSet F] in
/-- A paymaster accepts a request to any account that forges its answers. -/
theorem preRelayedCall_forged {rp : RewardPoolV1 F} {r dst : Address}
    (hp : w.paymasters p = some paymaster) (hregistry : paymaster.rewardPoolRegistry = w.registryAddress)
    (hr : w.registry.rewardPoolToOwner r ≠ 0) (hrp : w.rewardPools r = some rp)
    (htoken : HasToken w rp) (hne : r ≠ p) :
    w.preRelayedCall p (forgedTarget r p) (forgedRequest dst) = .ok () := by
  obtain ⟨balance, hbalance⟩ := getRedeemTokenBalanceOf_forged hrp htoken hne
  have hprice : (forgedTarget r p).getRedeemTokenAmount p = some 0 := by
    show some (if p = p then 0 else 1) = some 0
    rw [if_pos rfl]
  have hmul : ∀ n, checkedMul n 0 = .ok 0 :=
    fun n => checkedMul_eq_ok.mpr ⟨by rw [Nat.mul_zero]; decide, rfl⟩
  have hlength : 4 ≤ (REDEEM_ASSET_SELECTOR ++ List.replicate 28 0).length := by decide
  have hselector : (REDEEM_ASSET_SELECTOR ++ List.replicate 28 0).take 4 = REDEEM_ASSET_SELECTOR := by
    decide
  have hdecodes : 32 ≤ (REDEEM_ASSET_SELECTOR ++ List.replicate 28 0).length := by decide
  have hamount : ofBytes ((REDEEM_ASSET_SELECTOR ++ List.replicate 28 0).take 32) ≤
      UINT256_SIZE - 1 := by decide
  have hdata : (forgedRequest dst).data = REDEEM_ASSET_SELECTOR ++ List.replicate 28 0 := rfl
  have hsrc : (forgedRequest dst).src = 1 := rfl
  have hrewardPool : (forgedTarget r p).getRewardPool = some r := rfl
  have htotal : (forgedTarget r p).getTotalNumberOfAssets = some (UINT256_SIZE - 1) := rfl
  unfold World.preRelayedCall
  simp only [orThrow_eq_ok.mpr hp, ok_bind, orThrow_eq_ok.mpr hrewardPool,
    World.registryAt_eq_ok.mpr ⟨hregistry, rfl⟩, require_of hr, hdata, orThrow_eq_ok.mpr hprice,
    require_of hlength, require_of hselector, require_of hdecodes, hsrc, hbalance, hmul,
    require_of (Nat.zero_le balance), orThrow_eq_ok.mpr htotal, require_of hamount]

/-- The paymaster of an owner accepts requests to the owner's asset pools only as long as no registered
reward pool, of any owner, has a redeem token that is there. -/
theorem sponsorsOnly_iff (h : World.Run P cfg) (ho : cfg.state.registry.ownerToPaymaster o ≠ 0) :
    SponsorsOnly cfg.state (cfg.state.registry.ownerToPaymaster o) o ↔
      ∀ r rp, cfg.state.registry.rewardPoolToOwner r ≠ 0 → cfg.state.rewardPools r = some rp →
        ¬HasToken cfg.state rp := by
  obtain ⟨hsane, hdeployed⟩ := (kept_sane.booksRule (fun _ => id) deployed_rule).run h
  obtain ⟨_, hdistinct⟩ := (kept_sane.booksRule (fun _ => id) distinct_rule).run h
  obtain ⟨hso, paymaster, hp⟩ := hdeployed.recorded o ho
  constructor
  · intro hsponsors r rp hr hrp htoken
    -- a paymaster and a reward pool are different contracts
    have hne : r ≠ cfg.state.registry.ownerToPaymaster o := by
      rintro rfl
      have hnone : cfg.state.rewardPools (cfg.state.registry.ownerToPaymaster o) = none :=
        hdistinct _ (ne_of_eq_of_ne hp (Option.some_ne_none _))
      rw [hrp] at hnone
      cases hnone
    have hregistry : paymaster.rewardPoolRegistry = cfg.state.registryAddress := by
      rw [hdeployed.paymaster _ paymaster hp]
      rfl
    -- the request goes to the owner's own account, where there is no asset pool
    have hnone : ∀ pool, cfg.state.assetPools o ≠ some pool := by
      intro pool hpool
      exact ne_of_system (system_of_assetPool hsane.wired hpool) hso rfl
    obtain ⟨r', rp', _, hrp', hmem⟩ := hsponsors _ (forgedRequest o)
      (fun pool hpool => absurd hpool (hnone pool))
      (preRelayedCall_forged hp hregistry hr hrp htoken hne)
    obtain ⟨pool, hpool, _⟩ := exists_member hsane.wired hrp' hmem
    exact hnone pool hpool
  · intro hnone target req _ haccepts
    obtain ⟨r, rp, hr, hrp, htoken⟩ := preRelayedCall_eq_ok haccepts
    exact absurd htoken (hnone r rp hr hrp)

/-- The account 1 has a reward pool and the account 5 has a paymaster. -/
def stranger : CallStack.Config (World ListSet) Call :=
  World.after (fun _ _ => True) [
    World.opening .CustomERC20,
    .call ⟨5, .registry (.createPaymaster 1005)⟩]

theorem ownerToPaymaster_stranger : stranger.state.registry.ownerToPaymaster 5 = 1005 := by
  decide

theorem isSome_stranger : (stranger.state.rewardPools 1002).isSome = true := by
  decide

/-- The account 1 has a reward pool whose redeem token is not there, and a paymaster. -/
def tokenless : CallStack.Config (World ListSet) Call :=
  World.after (fun _ _ => True) [
    .call ⟨1, .registry (.createRewardPool 0 1001 {
      owner := 1, name := [65], redeemMethod := .ExistingERC20, redeemTokenContractAddress := 12
      redeemTokenAmount := 5, withdrawAddress := 7, admins := [6], rewardPool := 1002
      redeemToken := 1003, assetPool := 1004 })⟩,
    .call ⟨1, .registry (.createPaymaster 1005)⟩]

theorem ownerToPaymaster_tokenless : tokenless.state.registry.ownerToPaymaster 1 = 1005 := by
  decide

theorem not_hasToken_tokenless {r : Address} {rp : RewardPoolV1 ListSet}
    (hrp : tokenless.state.rewardPools r = some rp) : ¬HasToken tokenless.state rp := by
  have hsane : Sane tokenless.state := kept_sane.run (World.run_after (fun _ _ => True) _)
  have hdeployed : r ∈ tokenless.state.deployed := (hsane.wired.rewardPool r _ (wiring_rewardPools hrp)).1
  have hall : (tokenless.state.deployed.all fun r => (tokenless.state.rewardPools r).all fun rp =>
      rp.redeemMethod ≠ .CustomERC1155 &&
        (tokenless.state.tokens.erc20 rp.redeemTokenContractAddress).isNone) = true := by
    decide
  have hone := List.all_eq_true.mp hall r hdeployed
  rw [hrp, Option.all_some, Bool.and_eq_true, decide_eq_true_eq] at hone
  obtain ⟨hmethod, hnone⟩ := hone
  unfold HasToken
  rw [if_neg hmethod]
  exact fun htoken => htoken (Option.isNone_iff_eq_none.mp hnone)

/-- The condition fails in the first of the two states, and holds in the second. -/
theorem sponsorsOnly_iff_stranger :
    ¬SponsorsOnly stranger.state 1005 5 ∧ SponsorsOnly tokenless.state 1005 1 := by
  constructor
  · have hne : stranger.state.registry.ownerToPaymaster 5 ≠ 0 := by
      rw [ownerToPaymaster_stranger]
      decide
    have hiff := sponsorsOnly_iff (World.run_after (fun _ _ => True) _) hne
    intro hsponsors
    refine hiff.mp (ownerToPaymaster_stranger.symm ▸ hsponsors) 1002 _ (by decide)
      (Option.some_get isSome_stranger).symm ?_
    unfold HasToken
    rw [if_neg (by decide)]
    have htoken : (stranger.state.tokens.erc20 ((stranger.state.rewardPools 1002).get
        isSome_stranger).redeemTokenContractAddress).isSome = true := by
      decide
    exact Option.ne_none_iff_isSome.mpr htoken
  · have hne : tokenless.state.registry.ownerToPaymaster 1 ≠ 0 := by
      rw [ownerToPaymaster_tokenless]
      decide
    have hiff := sponsorsOnly_iff (World.run_after (fun _ _ => True) _) hne
    exact ownerToPaymaster_tokenless ▸ hiff.mpr fun r rp _ hrp => not_hasToken_tokenless hrp

/-- The paymaster of the account 5, who has no reward pool, pays for a request to a foreign contract
that names the reward pool of the account 1. -/
theorem paymaster_accepts_forged_target : World.Run (fun _ _ => True) stranger ∧
    stranger.state.registry.ownerToPaymaster 5 = 1005 ∧
    stranger.state.preRelayedCall 1005 (forgedTarget 1002 1005) (forgedRequest 20) = .ok () ∧
    ¬SponsorsOnly stranger.state 1005 5 := by
  have hrun := World.run_after (fun _ _ => True) [
    World.opening .CustomERC20, .call ⟨5, .registry (.createPaymaster 1005)⟩]
  obtain ⟨haccepts, hforeign⟩ : stranger.state.preRelayedCall 1005 (forgedTarget 1002 1005)
      (forgedRequest 20) = .ok () ∧ (stranger.state.assetPools 20).isSome = false := by
    decide
  refine ⟨hrun, ownerToPaymaster_stranger, haccepts, ?_⟩
  intro hsponsors
  have hnone : ∀ pool, stranger.state.assetPools 20 ≠ some pool := by
    intro pool hpool
    rw [hpool] at hforeign
    cases hforeign
  obtain ⟨r, rp, _, hrp, hmem⟩ := hsponsors _ (forgedRequest 20)
    (fun pool hpool => absurd hpool (hnone pool)) haccepts
  obtain ⟨pool, hpool, _⟩ := exists_member (kept_sane.run hrun).wired hrp hmem
  exact hnone pool hpool

end Redeemy
