import Redeemy.Proof.Books
import Redeemy.Proof.Record

/-!
# The native tokens of the registry

Nothing pays the registry except the creation of a reward pool, which passes on what it is paid if
there is a fee, and keeps it if there is none. The registry can pay nobody.
-/

namespace Redeemy

open Fallible EnumerableSet

variable {F : Type → Type}
variable {w w' : World F} {t t' : Tokens} {a k self sender receiver src dst : Address}
variable {assets : Assets} {call : Call} {value n requestId : Nat} {words : List Nat}

/-! ### Who gains -/

namespace Tokens

/-- The account `a` gains no native tokens. -/
def NoGain (a : Address) (t t' : Tokens) : Prop := t'.native a ≤ t.native a

theorem NoGain.trans {t₁ : Tokens} (h : NoGain a t t₁) (h' : NoGain a t₁ t') : NoGain a t t' :=
  Nat.le_trans h' h

theorem Silent.noGain (h : Silent t t') : NoGain a t t' := (congrFun h.native a).le

theorem noGain_record {m : Movement} (h : NoGain a t t') : NoGain a t (t'.record m) := h

theorem noGain_recordIf {moves : Bool} {m : Movement} (h : NoGain a t t') :
    NoGain a t (t'.recordIf moves m) := by
  unfold recordIf
  split
  · exact h
  · exact h

theorem noGain_send {error : Revert} (ha : a ≠ dst) (h : t.send src dst n error = .ok t') :
    NoGain a t t' := by
  obtain ⟨_, rfl⟩ := send_eq_ok h
  exact Ledger.move_le ha

end Tokens

variable [EnumerableSet F]

theorem DepositSteps.noGain {s s' : AssetPoolV1 F × Tokens}
    (h : DepositSteps self sender assets s s') : Tokens.NoGain a s.2 s'.2 := by
  induction h with
  | refl => exact Nat.le_refl _
  | tail _ hstep ih =>
    apply ih.trans
    cases hstep with
    | erc20 c boxes _ hpull => exact Tokens.noGain_recordIf (Tokens.silent_erc20Call hpull).noGain
    | erc721Contract => exact Nat.le_refl _
    | erc721Token c tokenId _ hpull =>
      exact Tokens.noGain_record (Tokens.silent_erc721TransferFrom hpull).noGain

section

omit [EnumerableSet F]

theorem WithdrawSteps.noGain {accepts : Address → Bool} {s s' : AssetPoolV1 F × Tokens}
    (ha : accepts a = false) (h : WithdrawSteps accepts self assets s s') :
    Tokens.NoGain a s.2 s'.2 := by
  induction h with
  | refl => exact Nat.le_refl _
  | tail _ hstep ih =>
    apply ih.trans
    cases hstep with
    | erc20 _ _ _ _ _ _ _ hpay => exact Tokens.noGain_recordIf (Tokens.silent_erc20Call hpay).noGain
    | erc721 _ _ _ _ _ _ _ hpay =>
      exact Tokens.noGain_record (Tokens.silent_erc721TransferFrom hpay).noGain
    | native box _ _ _ haccepts hpay =>
      apply Tokens.noGain_record
      refine Tokens.noGain_send ?_ hpay
      rintro rfl
      rw [haccepts.1] at ha
      cases ha

theorem noGain_payCard {card : Card} (ha : w.accepts a = false)
    (h : w.payCard self receiver requestId card = .ok t') : Tokens.NoGain a w.tokens t' := by
  obtain ⟨tokens₁, moves, rfl, hcase⟩ := payCard_cases h
  apply Tokens.noGain_recordIf
  split at hcase
  · obtain ⟨_, hcall, _⟩ := hcase
    exact (Tokens.silent_erc20Call hcall).noGain
  · refine Tokens.noGain_send ?_ hcase.2.2
    rintro rfl
    rw [hcase.1] at ha
    cases ha
  · exact (Tokens.silent_erc721TransferFrom hcase.2.2).noGain

/-- An account that takes no native tokens is no asset pool. -/
theorem ne_of_accepts {p : Address} {pool : AssetPoolV1 F} (ha : w.accepts a = false)
    (hpool : w.assetPools p = some pool) : a ≠ p := by
  rintro rfl
  unfold World.accepts at ha
  rw [hpool] at ha
  simp at ha

end

theorem Change.noGain (ha : w.accepts a = false) (h : Change w call w') :
    Tokens.NoGain a w.tokens w'.tokens := by
  cases h with
  | setPrice => exact Nat.le_refl _
  | handOut self dst amount _ _ htransfer => exact (Tokens.silent_transferRedeemToken htransfer).noGain
  | deposit self value assets _ h =>
    cases h with
    | mk hpool _ _ hsend _ _ _ _ h20 _ hself h721 _ _ hmint =>
      have hne := ne_of_accepts ha hpool
      have hin := (Tokens.noGain_send hne hsend).trans h20.noGain
      have hkept := hin.trans (Tokens.noGain_send hne hself)
      exact (hkept.trans h721.noGain).trans (Tokens.silent_mintRedeemTokens hmint).noGain
  | withdraw self assets _ h =>
    cases h with
    | mk _ _ _ hsteps _ _ _ hmint =>
      exact (hsteps.noGain ha).trans (Tokens.silent_mintRedeemTokens hmint).noGain
  | redeem self trailing n requestIds _ _ h =>
    cases h with
    | mk _ _ _ _ _ _ hpay _ hrequests =>
      obtain ⟨_, _, _, rfl⟩ := hrequests.frame
      exact (Tokens.silent_takePayment hpay).noGain
  | fulfill k requestId words _ h =>
    cases h with
    | mk _ _ _ _ _ _ _ hpay => exact noGain_payCard ha hpay

/-! ### Deployments -/

theorem createClone_noGain {r : Address} {id price : Nat} {clone : Address} (ha : a ∈ w.deployed)
    (h : w.createClone sender value r id price clone = .ok w') :
    Tokens.NoGain a w.tokens w'.tokens := by
  obtain ⟨_, _, hfresh, _, _, hsend, rfl⟩ := createClone_eq_ok h
  refine Tokens.noGain_send ?_ hsend
  rintro rfl
  exact hfresh.2.2 ha

theorem createAssetPool_noGain {r : Address} {price : Nat} {clone : Address} (ha : a ∈ w.deployed)
    (h : w.createAssetPool r price clone = .ok w') : Tokens.NoGain a w.tokens w'.tokens := by
  obtain ⟨_, w₁, _, hclone, rfl⟩ := createAssetPool_eq_ok h
  have hgain := createClone_noGain ha hclone
  exact hgain

omit [EnumerableSet F] in
theorem setOrCreateRedeemToken_silent {r existing clone redeemToken : Address} {method : RedeemMethod}
    (h : w.setOrCreateRedeemToken r method existing clone = .ok (w', redeemToken)) :
    w'.tokens.native = w.tokens.native ∧ ∀ b ∈ w.deployed, b ∈ w'.deployed := by
  rcases setOrCreateRedeemToken_cases h with ⟨_, _, _, rfl⟩ | ⟨_, _, _, rfl⟩ | ⟨_, _, _, rfl⟩
  · exact ⟨rfl, fun _ => id⟩
  · exact ⟨rfl, fun b => List.mem_cons_of_mem _⟩
  · exact ⟨rfl, fun b => List.mem_cons_of_mem _⟩

theorem createRewardPoolClone_noGain {rewardPoolRegistry forwarder : Address} {m : NewRewardPool}
    (ha : a ∈ w.deployed) (h : w.createRewardPoolClone rewardPoolRegistry forwarder m = .ok w') :
    Tokens.NoGain a w.tokens w'.tokens := by
  obtain ⟨_, h⟩ := createRewardPoolClone_eq_ok h
  unfold World.initializeRewardPool at h
  simp only [bind_eq_ok, Prod.exists] at h
  obtain ⟨w₁, redeemToken, htoken, rp, _, hpool⟩ := h
  obtain ⟨hnative, hdeployed⟩ := setOrCreateRedeemToken_silent htoken
  have hkept : Tokens.NoGain a w.tokens w₁.tokens := (congrFun hnative a).le
  have hmem : a ∈ (w₁.setRewardPool m.rewardPool rp).deployed :=
    hdeployed a (List.mem_cons_of_mem _ ha)
  have hrest : Tokens.NoGain a (w₁.setRewardPool m.rewardPool rp).tokens w'.tokens :=
    createAssetPool_noGain hmem hpool
  exact hkept.trans hrest

omit [EnumerableSet F] in
theorem setVRFConsumer_tokens {o : Address} (h : w.setVRFConsumer o k = .ok w') :
    w'.tokens = w.tokens := by
  rcases setVRFConsumer_cases h with ⟨_, rfl⟩ | ⟨_, _, rfl⟩ <;> rfl

theorem leave_noGain (ha : a ∈ w.deployed) (h : w.leave call = .ok w') :
    Tokens.NoGain a w.tokens w'.tokens := by
  unfold World.leave at h
  split at h
  · simp only [bind_eq_ok] at h
    obtain ⟨_, _, h⟩ := h
    unfold World.createRewardPoolRest at h
    simp only [bind_eq_ok, pure_eq_ok] at h
    obtain ⟨w₁, hconsumer, w₂, hclone, rfl⟩ := h
    obtain ⟨_, _, _, _, hdeployed⟩ := setVRFConsumer_books hconsumer
    have hrest := createRewardPoolClone_noGain (hdeployed a ha) hclone
    rw [setVRFConsumer_tokens hconsumer] at hrest
    exact hrest
  · rw [pure_eq_ok] at h
    exact h ▸ Nat.le_refl _

/-! ### Every call -/

/-- The creation of a reward pool. -/
def Call.Creates (call : Call) (value : Nat) : Prop :=
  ∃ newVRFConsumer m, call.action = .registry (.createRewardPool value newVRFConsumer m)

omit [EnumerableSet F] in
theorem registryCall_noGain {c : RegistryCall} (hcall : ∀ value k m, c ≠ .createRewardPool value k m)
    (h : w.registryCall sender c = .ok w') : w'.tokens = w.tokens := by
  cases c with
  | createRewardPool value k m => exact absurd rfl (hcall value k m)
  | setNewRewardPoolName pool name =>
    simp only [World.registryCall, World.setNewRewardPoolName, bind_eq_ok, pure_eq_ok] at h
    obtain ⟨_, _, _, _, _, _, _, _, rfl⟩ := h
    rfl
  | createPaymaster newPaymaster =>
    unfold World.registryCall World.createPaymaster at h
    dsimp only at h
    split_ifs at h
    · simp only [bind_eq_ok, pure_eq_ok] at h
      obtain ⟨_, _, rfl⟩ := h
      rfl
    · rw [pure_eq_ok] at h
      rw [h]
  | setRewardPoolCreationFee fee =>
    simp only [World.registryCall, bind_eq_ok, pure_eq_ok] at h
    obtain ⟨_, _, rfl⟩ := h
    rfl
  | setRevenueWallet wallet =>
    simp only [World.registryCall, bind_eq_ok, pure_eq_ok] at h
    obtain ⟨_, _, rfl⟩ := h
    rfl
  | transferOwnership owner =>
    simp only [World.registryCall, bind_eq_ok, pure_eq_ok] at h
    obtain ⟨_, _, _, _, rfl⟩ := h
    rfl

theorem rewardPoolCall_noGain {r : Address} {c : RewardPoolCall} (ha : a ∈ w.deployed)
    (h : w.rewardPoolCall r sender c = .ok w') : Tokens.NoGain a w.tokens w'.tokens := by
  have hset : ∀ {f : RewardPoolV1 F → Result (RewardPoolV1 F)},
      w.rewardPoolOnlyOwner r sender f = .ok w' → Tokens.NoGain a w.tokens w'.tokens := by
    intro f hf
    obtain ⟨_, _, _, _, _, rfl⟩ := rewardPoolOnlyOwner_eq_ok hf
    exact Nat.le_refl _
  cases c with
  | createAssetPool redeemTokenAmount clone =>
    simp only [World.rewardPoolCall, bind_eq_ok] at h
    obtain ⟨_, _, _, _, h⟩ := h
    exact createAssetPool_noGain ha h
  | setWithdrawAddress => exact hset h
  | setActive => exact hset h
  | setNewName name =>
    simp only [World.rewardPoolCall, bind_eq_ok, pure_eq_ok] at h
    obtain ⟨_, _, _, _, rfl⟩ := h
    exact Nat.le_refl _
  | addTransferrers => exact hset h
  | removeTransferrers => exact hset h
  | addAdmins => exact hset h
  | removeAdmins => exact hset h
  | requestRandomWords receiver requestId =>
    cases rewardPoolRequestRandomWords_eq_ok h with
    | mk => exact Nat.le_refl _

theorem factoryCall_noGain {c : FactoryCall} (ha : a ∈ w.deployed)
    (h : w.factoryCall sender c = .ok w') : Tokens.NoGain a w.tokens w'.tokens := by
  cases c with
  | createAssetPool => exact createClone_noGain ha h
  | createRewardPool => exact createRewardPoolClone_noGain ha h

theorem erc20Call_native {c : Address} {action : ERC20Call}
    (h : w.erc20Call c sender action = .ok t') : t'.native = w.tokens.native := by
  unfold World.erc20Call at h
  rw [bind_eq_ok] at h
  obtain ⟨tok, _, h⟩ := h
  cases action with
  | transfer dst amount =>
    simp only [bind_eq_ok, pure_eq_ok] at h
    obtain ⟨_, _, rfl⟩ := h
    rfl
  | approve spender amount =>
    rw [pure_eq_ok] at h
    exact h ▸ rfl
  | transferFrom src dst amount =>
    simp only [bind_eq_ok, pure_eq_ok] at h
    obtain ⟨_, _, rfl⟩ := h
    rfl
  | mint dst amount =>
    dsimp only at h
    split_ifs at h
    · obtain ⟨_, _, _, _, _, _, _, rfl⟩ := Tokens.erc20Mint_eq_ok h
      rfl
    · simp only [bind_eq_ok, pure_eq_ok] at h
      obtain ⟨_, _, rfl⟩ := h
      rfl
  | burn src amount =>
    dsimp only at h
    split_ifs at h
    · obtain ⟨_, _, _, _, _, _, _, rfl⟩ := Tokens.erc20Burn_eq_ok h
      rfl
    · simp only [bind_eq_ok, pure_eq_ok] at h
      obtain ⟨_, _, _, _, rfl⟩ := h
      rfl
  | setBlacklisted user blacklisted =>
    simp only at h
    split at h
    · simp only [bind_eq_ok, pure_eq_ok] at h
      obtain ⟨_, _, rfl⟩ := h
      rfl
    · rw [← pure_eq_ok.mp h]
      rfl
  | setAnswers answers =>
    simp only [bind_eq_ok, pure_eq_ok] at h
    obtain ⟨_, _, rfl⟩ := h
    rfl

omit [EnumerableSet F] in
theorem erc721Call_native {c : Address} {action : ERC721Call}
    (h : w.erc721Call c sender action = .ok t') : t'.native = w.tokens.native := by
  unfold World.erc721Call at h
  rw [bind_eq_ok] at h
  obtain ⟨tok, _, h⟩ := h
  cases action with
  | transferFrom src dst tokenId =>
    simp only [bind_eq_ok, pure_eq_ok] at h
    obtain ⟨_, _, rfl⟩ := h
    rfl
  | approve spender tokenId =>
    simp only [bind_eq_ok, pure_eq_ok] at h
    obtain ⟨_, _, _, _, rfl⟩ := h
    rfl
  | setApprovalForAll operator approved =>
    rw [pure_eq_ok] at h
    exact h ▸ rfl
  | mint dst tokenId =>
    simp only [bind_eq_ok, pure_eq_ok] at h
    obtain ⟨_, _, rfl⟩ := h
    rfl
  | burn tokenId =>
    simp only [bind_eq_ok, pure_eq_ok] at h
    obtain ⟨_, _, rfl⟩ := h
    rfl

omit [EnumerableSet F] in
theorem erc1155Call_native {c : Address} {action : ERC1155Call}
    (h : w.erc1155Call c sender action = .ok t') : t'.native = w.tokens.native := by
  unfold World.erc1155Call at h
  rw [bind_eq_ok] at h
  obtain ⟨tok, _, h⟩ := h
  cases action with
  | safeTransferFrom src dst id amount =>
    obtain ⟨_, _, _, rfl⟩ := Tokens.erc1155SafeTransferFrom_eq_ok h
    rfl
  | setApprovalForAll operator approved =>
    rw [pure_eq_ok] at h
    exact h ▸ rfl
  | mint dst id amount =>
    obtain ⟨_, _, _, rfl⟩ := Tokens.erc1155Mint_eq_ok h
    rfl
  | burn src id amount =>
    obtain ⟨_, _, _, _, rfl⟩ := Tokens.erc1155Burn_eq_ok h
    rfl
  | setBlacklisted user blacklisted =>
    simp only [bind_eq_ok, pure_eq_ok] at h
    obtain ⟨_, _, rfl⟩ := h
    rfl

/-- Only a creation lets a contract gain that takes no native tokens. -/
theorem enter_noGain (hw : Wired w.wiring) (hcan : w.CanCall call) (ha : a ∈ w.deployed)
    (haccepts : w.accepts a = false) (hnot : ∀ value, ¬call.Creates value)
    (h : w.enter call = .ok w') : Tokens.NoGain a w.tokens w'.tokens := by
  unfold World.enter at h
  cases haction : call.action with
  | registry c =>
    rw [haction] at h
    have hsame := registryCall_noGain
      (fun value k m hc => hnot value ⟨k, m, haction.trans (congrArg Action.registry hc)⟩) h
    rw [hsame]
    exact Nat.le_refl _
  | factory c =>
    rw [haction] at h
    exact factoryCall_noGain ha h
  | rewardPool r c =>
    rw [haction] at h
    exact rewardPoolCall_noGain ha h
  | assetPool p c =>
    rw [haction] at h
    exact (assetPoolCall_eq_ok hw hcan haction h).noGain haccepts
  | consumer k c =>
    rw [haction] at h
    exact (consumerCall_eq_ok hw hcan.2.1 haction h).noGain haccepts
  | paymaster p c =>
    rw [haction] at h
    obtain ⟨_, _, _, _, rfl⟩ := paymasterCall_eq_ok h
    exact Nat.le_refl _
  | erc20 c action =>
    simp only [haction, bind_eq_ok, pure_eq_ok] at h
    obtain ⟨tokens, htokens, rfl⟩ := h
    exact (congrFun (erc20Call_native htokens) a).le
  | erc721 c action =>
    simp only [haction, bind_eq_ok, pure_eq_ok] at h
    obtain ⟨tokens, htokens, rfl⟩ := h
    exact (congrFun (erc721Call_native htokens) a).le
  | erc1155 c action =>
    simp only [haction, bind_eq_ok, pure_eq_ok] at h
    obtain ⟨tokens, htokens, rfl⟩ := h
    exact (congrFun (erc1155Call_native htokens) a).le
  | sendNative dst value =>
    simp only [haction, bind_eq_ok, require_eq_ok, pure_eq_ok] at h
    obtain ⟨_, hdst, tokens, htokens, rfl⟩ := h
    refine Tokens.noGain_send ?_ htokens
    rintro rfl
    rw [hdst] at haccepts
    cases haccepts
  | setRefuses refuses =>
    simp only [haction, pure_eq_ok] at h
    subst h
    exact Nat.le_refl _

/-! ### The fee -/

omit [EnumerableSet F] in
/-- Without a fee the registry keeps what came with the call, and with a fee it keeps nothing. -/
theorem createRewardPoolFee_native {name : Bytes} (hsender : w.registryAddress ≠ sender)
    (haccepts : w.accepts w.registryAddress = false)
    (h : w.createRewardPoolFee sender value name = .ok w') :
    (w.registry.rewardPoolCreationFee = 0 →
      w'.tokens.native = Ledger.move w.tokens.native sender w.registryAddress value) ∧
    (0 < w.registry.rewardPoolCreationFee → w.registryAddress ≠ w.registry.revenueWallet ∧
      w'.tokens.native = Ledger.move w.tokens.native sender w.registry.revenueWallet value) := by
  unfold World.createRewardPoolFee at h
  simp only [bind_eq_ok] at h
  obtain ⟨tokens, hsend, _, _, h⟩ := h
  obtain ⟨hn, rfl⟩ := Tokens.send_eq_ok hsend
  unfold World.transferCreationFee at h
  split_ifs at h with hfee
  · simp only [bind_eq_ok, require_eq_ok, pure_eq_ok] at h
    obtain ⟨_, _, _, hwallet, tokens', hpay, rfl⟩ := h
    obtain ⟨_, rfl⟩ := Tokens.send_eq_ok hpay
    have hne : w.registryAddress ≠ w.registry.revenueWallet := by
      intro heq
      change w.accepts w.registry.revenueWallet = true at hwallet
      rw [← heq, haccepts] at hwallet
      cases hwallet
    constructor
    · intro hzero
      have hfee : 0 < w.registry.rewardPoolCreationFee := hfee
      omega
    · intro _
      exact ⟨hne, Ledger.move_move hsender hne hn⟩
  · rw [pure_eq_ok] at h
    subst h
    exact ⟨fun _ => rfl, fun hpos => absurd hpos hfee⟩

/-- Nobody sends native tokens along with a creation that has no fee. -/
def PaysFeeOnly (w : World F) (call : Call) : Prop :=
  match call.action with
  | .registry (.createRewardPool value _ _) => w.registry.rewardPoolCreationFee = 0 → value = 0
  | _ => True

instance (w : World F) (call : Call) : Decidable (PaysFeeOnly w call) := by
  unfold PaysFeeOnly
  obtain ⟨sender, action⟩ := call
  induction action using Action.casesOn with
  | registry c => induction c using RegistryCall.casesOn <;> infer_instance
  | _ => infer_instance

theorem accepts_registry (hw : Wired w.wiring) : w.accepts w.registryAddress = false := by
  have hnone : w.assetPools w.registryAddress = none := Option.map_eq_none_iff.mp hw.registryOnly
  have hsystem : w.system w.registryAddress = true := (hw.system _ hw.registry).2
  unfold World.accepts
  rw [hnone, hsystem]
  rfl

/-- What is sent along with a creation goes to the revenue wallet. -/
theorem creates_native (hw : Wired w.wiring) (hcan : w.CanCall call) (hP : PaysFeeOnly w call)
    (hcreates : call.Creates value) (h : w.enter call = .ok w') :
    w'.tokens.native = Ledger.move w.tokens.native call.sender w.registry.revenueWallet value ∧
      (value = 0 ∨ w.registryAddress ≠ w.registry.revenueWallet) := by
  obtain ⟨newVRFConsumer, m, hcall⟩ := hcreates
  unfold PaysFeeOnly at hP
  rw [hcall] at hP
  unfold World.enter at h
  rw [hcall] at h
  have hsender := ne_of_system (hw.system _ hw.registry).2 hcan.2.1
  obtain ⟨hfree, hpaid⟩ := createRewardPoolFee_native hsender (accepts_registry hw) h
  rcases Nat.eq_zero_or_pos w.registry.rewardPoolCreationFee with hfee | hfee
  · rw [hfree hfee, hP hfee, Ledger.move_zero, Ledger.move_zero]
    exact ⟨rfl, .inl rfl⟩
  · obtain ⟨hne, hnative⟩ := hpaid hfee
    exact ⟨hnative, .inr hne⟩

/-! ### Every run -/

/-- The registry has no native tokens. -/
def Broke (w : World F) : Prop := w.tokens.native w.registryAddress = 0

theorem enter_registryAddress (hw : Sane w) (hcan : w.CanCall call) (h : w.enter call = .ok w') :
    w'.registryAddress = w.registryAddress := by
  have hbooks := enter_books hw.wired hcan h
  generalize hx : w'.books = x at hbooks
  have haddress : w'.registryAddress = x.registryAddress := congrArg Books.registryAddress hx
  rw [haddress]
  cases hbooks <;> rfl

theorem leave_registryAddress (h : w.leave call = .ok w') :
    w'.registryAddress = w.registryAddress := by
  rcases leave_books h with hsame | hregistration
  · exact congrArg Books.registryAddress hsame
  · generalize hx : w'.books = x at hregistration
    have haddress : w'.registryAddress = x.registryAddress := congrArg Books.registryAddress hx
    rw [haddress]
    cases hregistration
    rfl

omit [EnumerableSet F] in
theorem Broke.of_noGain (hw : Broke w) (haddress : w'.registryAddress = w.registryAddress)
    (h : Tokens.NoGain w.registryAddress w.tokens w'.tokens) : Broke w' := by
  have hnone : w'.tokens.native w.registryAddress ≤ w.tokens.native w.registryAddress := h
  show w'.tokens.native w'.registryAddress = 0
  rw [haddress]
  exact Nat.le_zero.mp (hnone.trans hw.le)

theorem Broke.enter (hw : Sane w) (hbroke : Broke w) (hcan : w.CanCall call)
    (hP : PaysFeeOnly w call) (h : w.enter call = .ok w') : Broke w' := by
  apply hbroke.of_noGain (enter_registryAddress hw hcan h)
  by_cases hcreates : ∃ value, call.Creates value
  · obtain ⟨value, hcreates⟩ := hcreates
    obtain ⟨hnative, hne⟩ := creates_native hw.wired hcan hP hcreates h
    unfold Tokens.NoGain
    rw [hnative]
    rcases hne with rfl | hne
    · exact (congrFun Ledger.move_zero _).le
    · exact Ledger.move_le hne
  · have hnot : ∀ value, ¬call.Creates value := fun value hc => hcreates ⟨value, hc⟩
    exact enter_noGain hw.wired hcan hw.wired.registry (accepts_registry hw.wired) hnot h

theorem broke_preserved : CallStack.Preserved (World.machine F)
    (fun w call => w.CanCall call ∧ PaysFeeOnly w call) Sane Broke where
  enter := fun call w w' hw hbroke hP h => hbroke.enter hw hP.1 hP.2 h
  leave := fun call w w' hw hbroke _ h =>
    hbroke.of_noGain (leave_registryAddress h) (leave_noGain hw.wired.registry h)
  abort := fun call w _ hbroke _ => by
    rcases abort_eq w call with heq | ⟨requestId, k, heq⟩
    · rwa [heq]
    · rw [heq]
      exact hbroke

/-- In every run in which native tokens are sent only to pay a fee, from a registry that has none,
the registry has none in any state, and what is sent along with a creation goes to the revenue
wallet of that state. -/
theorem registry_keeps_no_ether {w₀ : World F} (hw₀ : w₀.Initial)
    (hnone : w₀.tokens.native w₀.registryAddress = 0)
    (h : CallStack.Reachable (World.machine F) (fun w call => w.CanCall call ∧ PaysFeeOnly w call)
      w₀ cfg) :
    cfg.state.tokens.native cfg.state.registryAddress = 0 ∧
    ∀ call value w', cfg.state.CanCall call → PaysFeeOnly cfg.state call → call.Creates value →
      cfg.state.enter call = .ok w' → w'.tokens.native =
        Ledger.move cfg.state.tokens.native call.sender cfg.state.registry.revenueWallet value := by
  obtain ⟨hsane, hbroke⟩ :=
    h.invariant (kept_sane.preserved.and broke_preserved) ⟨sane_initial hw₀, hnone⟩
  exact ⟨hbroke, fun call value w' hcan hP hcreates henter =>
    (creates_native hsane.wired hcan hP hcreates henter).1⟩

/-- The account 1 creates a reward pool and sends `value` native tokens along. -/
def creation (value : Nat) : CallStack.Label Call :=
  .call ⟨1, .registry (.createRewardPool value 1001 {
    owner := 1, name := [65], redeemMethod := .CustomERC20, redeemTokenContractAddress := 0
    redeemTokenAmount := 5, withdrawAddress := 0, admins := [], rewardPool := 1002, redeemToken := 1003
    assetPool := 1004 })⟩

/-- The owner of the registry asks for a fee of 7, which the first creation pays. -/
def withFee : CallStack.Config (World ListSet) Call :=
  World.after PaysFeeOnly
    [.call ⟨1, .registry (.setRewardPoolCreationFee 7)⟩, creation 7, .ret]

theorem registry_keeps_no_ether_withFee :
    withFee.state.tokens.native withFee.state.registryAddress = 0 ∧
    withFee.state.registry.rewardPoolToOwner 1002 = 1 ∧ withFee.state.tokens.native 4 = 1007 :=
  ⟨(registry_keeps_no_ether World.initial_genesis rfl (World.reachable_after PaysFeeOnly _)).1,
    by decide, by decide⟩

/-- A creation without a fee, with 7 native tokens. -/
def overpaid : CallStack.Config (World ListSet) Call :=
  World.after (fun _ _ => True) [creation 7]

theorem registry_keeps_value : World.Run (fun _ _ => True) overpaid ∧
    World.genesis.tokens.native World.genesis.registryAddress = 0 ∧
    overpaid.state.registry.rewardPoolToOwner 1002 = 1 ∧
    overpaid.state.tokens.native overpaid.state.registryAddress = 7 ∧
    overpaid.state.tokens.native overpaid.state.registry.revenueWallet = 1000 :=
  ⟨World.run_after (fun _ _ => True) _, rfl, by decide, by decide, by decide⟩

end Redeemy
