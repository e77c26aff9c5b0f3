import Redeemy.Proof.Redemption
import Redeemy.Proof.Wiring

/-!
# Steps that take nothing

Most calls neither touch the stock of a pool nor a request. `Quiet` is what the pools and the VRF
consumers see of such a call, and this module shows it, call by call, together with what the call does
to the wiring.
-/

namespace Redeemy

open Fallible EnumerableSet

variable {F : Type → Type}

/-- The supply of a redeem token under one id. -/
@[irreducible] def ERC1155.supply (tok : ERC1155) (id : Nat) : Nat := ∑ a, tok.balances id a

theorem supply_eq_zero {tok : ERC1155} (h : ∀ id a, tok.balances id a = 0) (id : Nat) :
    tok.supply id = 0 := by
  unfold ERC1155.supply
  exact Finset.sum_eq_zero fun a _ => h id a

/-- The redeem token made for the reward pool at `r` has no supply. -/
structure Unissued (t : Tokens) (r : Address) (rp : RewardPoolV1 F) : Prop where
  erc20 : rp.redeemMethod = .CustomERC20 → ∃ tok, t.erc20 rp.redeemTokenContractAddress = some tok ∧
    tok.rewardPool = some r ∧ tok.totalSupply = 0
  erc1155 : rp.redeemMethod = .CustomERC1155 → ∃ tok,
    t.erc1155 rp.redeemTokenContractAddress = some tok ∧ ∀ id, tok.supply id = 0

variable [EnumerableSet F]

/-- What the pools, the consumers and the ledgers of the system see of a step that is not about
them. -/
structure Quiet (w w' : World F) : Prop where
  system : w'.system = w.system
  registryAddress : w'.registryAddress = w.registryAddress
  vrfWrapper : w'.registry.vrfWrapper = w.registry.vrfWrapper
  trustedForwarder : w'.registry.trustedForwarder = w.registry.trustedForwarder
  assetPools : ∀ p, w'.assetPools p = w.assetPools p ∨ (w.assetPools p = none ∧
    ∃ a id price forwarder, 0 < price ∧ w'.assetPools p = some (.initial a id price forwarder))
  rewardPools : ∀ a rp, w.rewardPools a = some rp → ∃ rp', w'.rewardPools a = some rp' ∧
    rp'.owner = rp.owner ∧ rp'.redeemMethod = rp.redeemMethod ∧
    rp'.redeemTokenContractAddress = rp.redeemTokenContractAddress ∧
    ∀ p ∈ values rp.assetPools, p ∈ values rp'.assetPools
  unissued : ∀ r rp', w.rewardPools r = none → w'.rewardPools r = some rp' → Unissued w'.tokens r rp'
  consumers : ∀ k consumer, w.consumers k = some consumer → w'.consumers k = some consumer
  unused : ∀ k consumer, w.consumers k = none → w'.consumers k = some consumer →
    ∀ id, consumer.requestIds id = ⟨0, 0⟩
  vrf : w'.vrf = w.vrf
  unfulfilled : w'.unfulfilled = w.unfulfilled
  charges : w'.charges = w.charges
  log : w'.tokens.log = w.tokens.log
  leaves : ∀ a, w.system a = true → Tokens.Leaves a w.tokens w'.tokens
  totalSupply : ∀ c tok r, w.tokens.erc20 c = some tok → tok.rewardPool = some r →
    ∃ tok', w'.tokens.erc20 c = some tok' ∧ tok'.rewardPool = some r ∧
      tok'.totalSupply = tok.totalSupply
  supply : ∀ c tok, w.tokens.erc1155 c = some tok →
    ∃ tok', w'.tokens.erc1155 c = some tok' ∧ ∀ id, tok'.supply id = tok.supply id

/-- Nobody may spend for an address of the system. -/
def Guarded (w : World F) : Prop := ∀ a, w.system a = true → Tokens.Guards a w.tokens

namespace Quiet

variable {w w₁ w' : World F}

omit [EnumerableSet F] in
theorem unissued_of_same (h : w'.rewardPools = w.rewardPools) (r : Address) (rp' : RewardPoolV1 F)
    (hnone : w.rewardPools r = none) (hsome : w'.rewardPools r = some rp') :
    Unissued w'.tokens r rp' := by
  rw [h, hnone] at hsome
  cases hsome

omit [EnumerableSet F] in
theorem unused_of_same (h : w'.consumers = w.consumers) (k : Address)
    (consumer : RewardVRFConsumerV1) (hnone : w.consumers k = none)
    (hsome : w'.consumers k = some consumer) (id : Nat) : consumer.requestIds id = ⟨0, 0⟩ := by
  rw [h, hnone] at hsome
  cases hsome

theorem refl : Quiet w w where
  system := rfl
  registryAddress := rfl
  vrfWrapper := rfl
  trustedForwarder := rfl
  assetPools := fun _ => .inl rfl
  rewardPools := fun _ rp hrp => ⟨rp, hrp, rfl, rfl, rfl, fun _ => id⟩
  unissued := unissued_of_same rfl
  consumers := fun _ _ => id
  unused := unused_of_same rfl
  vrf := rfl
  unfulfilled := rfl
  charges := rfl
  log := rfl
  leaves := fun _ _ => .refl
  totalSupply := fun _ tok _ htok hr => ⟨tok, htok, hr, rfl⟩
  supply := fun _ tok htok => ⟨tok, htok, fun _ => rfl⟩

theorem trans (h : Quiet w w₁) (h' : Quiet w₁ w') : Quiet w w' where
  system := h'.system.trans h.system
  registryAddress := h'.registryAddress.trans h.registryAddress
  vrfWrapper := h'.vrfWrapper.trans h.vrfWrapper
  trustedForwarder := h'.trustedForwarder.trans h.trustedForwarder
  assetPools := fun p => by
    rcases h.assetPools p with hp | ⟨hnone, a, id, price, forwarder, hpos, hp⟩
    · rw [← hp]
      exact h'.assetPools p
    · rcases h'.assetPools p with hp' | ⟨hnone', _⟩
      · exact .inr ⟨hnone, a, id, price, forwarder, hpos, hp'.trans hp⟩
      · rw [hp] at hnone'
        cases hnone'
  rewardPools := fun a rp hrp => by
    obtain ⟨rp₁, hrp₁, ho, hm, ht, hp⟩ := h.rewardPools a rp hrp
    obtain ⟨rp', hrp', ho', hm', ht', hp'⟩ := h'.rewardPools a rp₁ hrp₁
    exact ⟨rp', hrp', ho'.trans ho, hm'.trans hm, ht'.trans ht, fun p hmem => hp' p (hp p hmem)⟩
  unissued := fun r rp' hnone hrp' => by
    cases hrp₁ : w₁.rewardPools r with
    | none => exact h'.unissued r rp' hrp₁ hrp'
    | some rp₁ =>
      obtain ⟨rp₂, hrp₂, _, hm, ht, _⟩ := h'.rewardPools r rp₁ hrp₁
      rw [hrp', Option.some.injEq] at hrp₂
      subst hrp₂
      have hfirst := h.unissued r rp₁ hnone hrp₁
      exact ⟨fun hmethod => by
        obtain ⟨tok, htok, hr, hzero⟩ := hfirst.erc20 (hm ▸ hmethod)
        obtain ⟨tok', htok', hr', hs⟩ := h'.totalSupply _ tok r htok hr
        exact ⟨tok', ht ▸ htok', hr', hs.trans hzero⟩, fun hmethod => by
        obtain ⟨tok, htok, hzero⟩ := hfirst.erc1155 (hm ▸ hmethod)
        obtain ⟨tok', htok', hs⟩ := h'.supply _ tok htok
        exact ⟨tok', ht ▸ htok', fun id => (hs id).trans (hzero id)⟩⟩
  consumers := fun k consumer hk => h'.consumers k consumer (h.consumers k consumer hk)
  unused := fun k consumer hnone hsome => by
    cases hk : w₁.consumers k with
    | none => exact h'.unused k consumer hk hsome
    | some consumer₁ =>
      have hsame := h'.consumers k consumer₁ hk
      rw [hsome, Option.some.injEq] at hsame
      exact hsame ▸ h.unused k consumer₁ hnone hk
  vrf := h'.vrf.trans h.vrf
  unfulfilled := h'.unfulfilled.trans h.unfulfilled
  charges := h'.charges.trans h.charges
  log := h'.log.trans h.log
  leaves := fun a ha => (h.leaves a ha).trans (h'.leaves a (h.system ▸ ha))
  totalSupply := fun c tok r htok hr => by
    obtain ⟨tok₁, htok₁, hr₁, hs⟩ := h.totalSupply c tok r htok hr
    obtain ⟨tok', htok', hr', hs'⟩ := h'.totalSupply c tok₁ r htok₁ hr₁
    exact ⟨tok', htok', hr', hs'.trans hs⟩
  supply := fun c tok htok => by
    obtain ⟨tok₁, htok₁, hs⟩ := h.supply c tok htok
    obtain ⟨tok', htok', hs'⟩ := h'.supply c tok₁ htok₁
    exact ⟨tok', htok', fun id => (hs' id).trans (hs id)⟩

theorem guarded (h : Quiet w w') (hw : Guarded w) : Guarded w' := by
  intro a ha
  rw [h.system] at ha
  exact (h.leaves a ha).guards (hw a ha)

end Quiet

/-! ### Token calls -/

section Tokens

variable {w : World F} {tokens : Tokens} {a c sender : Address}

/-- A step that changes the token contracts only. -/
theorem quiet_tokens (hlog : tokens.log = w.tokens.log)
    (hspares : ∀ a, w.system a = true → Tokens.Spares a w.tokens tokens)
    (hsupply : ∀ c tok r, w.tokens.erc20 c = some tok → tok.rewardPool = some r →
      ∃ tok', tokens.erc20 c = some tok' ∧ tok'.rewardPool = some r ∧
        tok'.totalSupply = tok.totalSupply)
    (hsupply' : ∀ c tok, w.tokens.erc1155 c = some tok →
      ∃ tok', tokens.erc1155 c = some tok' ∧ ∀ id, tok'.supply id = tok.supply id) :
    Quiet w { w with tokens } :=
  { (Quiet.refl : Quiet w w) with
    unissued := Quiet.unissued_of_same rfl
    log := hlog
    leaves := fun a ha => (hspares a ha).toLeaves
    totalSupply := hsupply
    supply := hsupply' }

omit [EnumerableSet F] in
theorem wiring_tokens (h : Tokens.SameContracts w.tokens tokens) :
    { w with tokens }.wiring = w.wiring := by
  simp only [World.wiring, h.erc20, h.erc1155]

theorem quiet_setERC20 {tok tok' : ERC20} (htok : w.tokens.erc20 c = some tok)
    (hspares : ∀ a, w.system a = true → ERC20.Spares a tok tok')
    (hr : tok'.rewardPool = tok.rewardPool)
    (hsupply : tok.rewardPool.isSome → tok'.totalSupply = tok.totalSupply) :
    Quiet w { w with tokens := w.tokens.setERC20 c tok' } ∧
      { w with tokens := w.tokens.setERC20 c tok' }.wiring = w.wiring := by
  constructor
  · refine quiet_tokens rfl (fun a ha => Tokens.spares_setERC20 htok (hspares a ha))
      (fun c' tok₁ r htok₁ hr₁ => ?_) (fun _ tok₁ htok₁ => ⟨tok₁, htok₁, fun _ => rfl⟩)
    by_cases hc : c' = c
    · subst hc
      rw [htok, Option.some.injEq] at htok₁
      subst htok₁
      exact ⟨tok', by simp [Tokens.setERC20], hr.trans hr₁, hsupply (by simp [hr₁])⟩
    · exact ⟨tok₁, by simpa [Tokens.setERC20, hc] using htok₁, hr₁, rfl⟩
  · have hview := map_update_eq (f := w.tokens.erc20) ERC20.rewardPool htok hr
    simp only [World.wiring, Tokens.setERC20, hview]

theorem quiet_setERC721 {tok tok' : ERC721} (htok : w.tokens.erc721 c = some tok)
    (hspares : ∀ a, w.system a = true → ERC721.Spares a tok tok') :
    Quiet w { w with tokens := w.tokens.setERC721 c tok' } ∧
      { w with tokens := w.tokens.setERC721 c tok' }.wiring = w.wiring :=
  ⟨quiet_tokens rfl (fun a ha => Tokens.spares_setERC721 htok (hspares a ha))
    (fun _ tok₁ _ htok₁ hr => ⟨tok₁, htok₁, hr, rfl⟩)
    (fun _ tok₁ htok₁ => ⟨tok₁, htok₁, fun _ => rfl⟩), rfl⟩

theorem quiet_setERC1155 {tok tok' : ERC1155} (htok : w.tokens.erc1155 c = some tok)
    (hr : tok'.rewardPool = tok.rewardPool) (hsupply : ∀ id, tok'.supply id = tok.supply id) :
    Quiet w { w with tokens := w.tokens.setERC1155 c tok' } ∧
      { w with tokens := w.tokens.setERC1155 c tok' }.wiring = w.wiring := by
  constructor
  · refine quiet_tokens rfl (fun a _ => Tokens.spares_setERC1155 htok hr)
      (fun _ tok₁ _ htok₁ hr => ⟨tok₁, htok₁, hr, rfl⟩) (fun c' tok₁ htok₁ => ?_)
    by_cases hc : c' = c
    · subst hc
      rw [htok, Option.some.injEq] at htok₁
      subst htok₁
      exact ⟨tok', by simp [Tokens.setERC1155], hsupply⟩
    · exact ⟨tok₁, by simpa [Tokens.setERC1155, hc] using htok₁, fun _ => rfl⟩
  · have hview := map_update_eq (f := w.tokens.erc1155) ERC1155.rewardPool htok hr
    simp only [World.wiring, Tokens.setERC1155, hview]

/-- An asset pool of a reward pool is an address of the system. -/
theorem system_of_assetPoolOf {r : Address} (hw : Wired w.wiring)
    (h : Tokens.AssetPoolOf w.rewardPools r sender) : w.system sender = true := by
  obtain ⟨rp, hrp, hmem⟩ := h
  obtain ⟨pool, hpool, _⟩ := hw.member r rp.info sender (by simp [World.wiring, hrp]) hmem
  exact (hw.system sender (hw.assetPool sender pool hpool).1).2

theorem system_of_assetPoolWithId {r : Address} {id : Nat} (hw : Wired w.wiring)
    (h : Tokens.AssetPoolWithId w.rewardPools r sender id) : w.system sender = true := by
  obtain ⟨rp, hrp, hmap, hne⟩ := h
  have hne' : rp.assetPoolIdToAssetPool id ≠ 0 := by rwa [hmap]
  have hmem := (hw.ids r rp.info id (by simp [World.wiring, hrp]) hne').2
  exact system_of_assetPoolOf hw ⟨rp, hrp, hmap ▸ hmem⟩

omit [EnumerableSet F] in
theorem ne_of_system (ha : w.system a = true) (hs : w.system sender = false) : a ≠ sender := by
  rintro rfl
  rw [hs] at ha
  cases ha

theorem quiet_erc20Call {call : ERC20Call} (hw : Wired w.wiring) (hs : w.system sender = false)
    (h : w.erc20Call c sender call = .ok tokens) :
    Quiet w { w with tokens } ∧ { w with tokens }.wiring = w.wiring := by
  unfold World.erc20Call at h
  rw [bind_eq_ok] at h
  obtain ⟨tok, htok, h⟩ := h
  rw [Tokens.erc20Contract_eq_ok] at htok
  cases call with
  | transfer dst amount =>
    simp only [bind_eq_ok, pure_eq_ok] at h
    obtain ⟨tok', hcall, rfl⟩ := h
    have htok' := (ERC20.transfer_eq_ok hcall).2
    exact quiet_setERC20 htok (fun a ha => ERC20.spares_transfer (ne_of_system ha hs) hcall)
      (by rw [htok']) (by rw [htok']; simp)
  | approve spender amount =>
    rw [pure_eq_ok] at h
    subst h
    refine quiet_setERC20 htok (fun a ha => ⟨⟨rfl, fun hguards s => ?_⟩, fun _ => Nat.le_refl _⟩)
      rfl fun _ => rfl
    simpa [ne_of_system ha hs] using hguards s
  | transferFrom src dst amount =>
    simp only [bind_eq_ok, pure_eq_ok] at h
    obtain ⟨tok', hcall, rfl⟩ := h
    obtain ⟨_, _, _, _, htok'⟩ := ERC20.transferFrom_eq_ok hcall
    exact quiet_setERC20 htok (fun a ha => ERC20.spares_transferFrom hcall)
      (by rw [htok']) (by rw [htok']; simp)
  | mint dst amount =>
    dsimp only at h
    split_ifs at h with hcustom
    · -- a redeem token mints for asset pools only
      obtain ⟨_, _, r, _, _, hpool, _⟩ := Tokens.erc20Mint_eq_ok h
      rw [system_of_assetPoolOf hw hpool] at hs
      cases hs
    · simp only [bind_eq_ok, pure_eq_ok] at h
      obtain ⟨tok', hcall, rfl⟩ := h
      exact quiet_setERC20 htok (fun a _ => ERC20.spares_mint hcall)
        (by rw [ERC20.mint_eq_ok hcall]) fun h => absurd h hcustom
  | burn src amount =>
    dsimp only at h
    split_ifs at h with hcustom
    · obtain ⟨_, _, r, _, _, hpool, _⟩ := Tokens.erc20Burn_eq_ok h
      rw [system_of_assetPoolOf hw hpool] at hs
      cases hs
    · simp only [bind_eq_ok, require_eq_ok, pure_eq_ok] at h
      obtain ⟨_, rfl, tok', hcall, rfl⟩ := h
      exact quiet_setERC20 htok (fun a ha => ERC20.spares_burn (ne_of_system ha hs) hcall)
        (by rw [(ERC20.burn_eq_ok hcall).2]) fun h => absurd h hcustom
  | setBlacklisted user blacklisted =>
    have hset : tokens = w.tokens.setERC20 c { tok with
        blacklisted := Function.update tok.blacklisted user blacklisted } := by
      dsimp only at h
      split at h
      · simp only [bind_eq_ok, pure_eq_ok] at h
        obtain ⟨_, _, heq⟩ := h
        exact heq.symm
      · exact (pure_eq_ok.mp h).symm
    subst hset
    exact quiet_setERC20 htok (fun a _ => ⟨⟨rfl, id⟩, fun _ => Nat.le_refl _⟩) rfl fun _ => rfl
  | setAnswers answers =>
    simp only [bind_eq_ok, require_eq_ok, pure_eq_ok] at h
    obtain ⟨_, _, rfl⟩ := h
    exact quiet_setERC20 htok (fun a _ => ⟨⟨rfl, id⟩, fun _ => Nat.le_refl _⟩) rfl fun _ => rfl

theorem quiet_erc721Call {call : ERC721Call} (hs : w.system sender = false)
    (h : w.erc721Call c sender call = .ok tokens) :
    Quiet w { w with tokens } ∧ { w with tokens }.wiring = w.wiring := by
  unfold World.erc721Call at h
  rw [bind_eq_ok] at h
  obtain ⟨tok, htok, h⟩ := h
  rw [Tokens.erc721Contract_eq_ok] at htok
  cases call with
  | transferFrom src dst tokenId =>
    simp only [bind_eq_ok, pure_eq_ok] at h
    obtain ⟨tok', hcall, rfl⟩ := h
    exact quiet_setERC721 htok fun a ha => ERC721.spares_transferFrom (.inr (ne_of_system ha hs)) hcall
  | approve spender tokenId =>
    simp only [bind_eq_ok, orThrow_eq_ok, require_eq_ok, pure_eq_ok] at h
    obtain ⟨owner, howner, _, hallowed, rfl⟩ := h
    refine quiet_setERC721 htok fun a ha => ⟨⟨rfl, fun hguards => ⟨hguards.1, fun id hid => ?_⟩⟩,
      fun _ _ => id⟩
    -- the owner has approved the sender, so it is no address of the system
    have hne : id ≠ tokenId := by
      rintro rfl
      rw [hid, Option.some.injEq] at howner
      subst howner
      rcases hallowed with rfl | happroved
      · exact ne_of_system ha hs rfl
      · rw [hguards.1] at happroved
        cases happroved
    simpa [hne] using hguards.2 id hid
  | setApprovalForAll operator approved =>
    rw [pure_eq_ok] at h
    subst h
    refine quiet_setERC721 htok fun a ha => ⟨⟨rfl, fun hguards => ⟨fun o => ?_, hguards.2⟩⟩,
      fun _ _ => id⟩
    simpa [ne_of_system ha hs] using hguards.1 o
  | mint dst tokenId =>
    simp only [bind_eq_ok, require_eq_ok, pure_eq_ok] at h
    obtain ⟨_, hnone, rfl⟩ := h
    refine quiet_setERC721 htok fun a _ => ⟨ERC721.keeps_setOwner, fun _ id hid => ?_⟩
    have hne : id ≠ tokenId := by
      rintro rfl
      rw [hid] at hnone
      cases hnone
    simpa [hne] using hid
  | burn tokenId =>
    simp only [bind_eq_ok, require_eq_ok, pure_eq_ok] at h
    obtain ⟨_, howner, rfl⟩ := h
    refine quiet_setERC721 htok fun a ha => ⟨ERC721.keeps_setOwner, fun _ id hid => ?_⟩
    have hne : id ≠ tokenId := by
      rintro rfl
      rw [hid, Option.some.injEq] at howner
      exact ne_of_system ha hs howner
    simpa [hne] using hid

theorem supply_of_balances {tok tok' : ERC1155} (h : tok'.balances = tok.balances) (id : Nat) :
    tok'.supply id = tok.supply id := by
  unfold ERC1155.supply
  rw [h]

theorem supply_move {tok : ERC1155} {id n : Nat} {src dst : Address}
    (hn : n ≤ tok.balances id src) (id' : Nat) :
    ERC1155.supply { tok with
      balances := Function.update tok.balances id (Ledger.move (tok.balances id) src dst n) } id' =
      tok.supply id' := by
  unfold ERC1155.supply
  by_cases hid : id' = id
  · subst hid
    simp only [Function.update_self, Ledger.sum_move hn]
  · simp only [Function.update_of_ne hid]

theorem quiet_erc1155Call {call : ERC1155Call} (hw : Wired w.wiring) (hs : w.system sender = false)
    (h : w.erc1155Call c sender call = .ok tokens) :
    Quiet w { w with tokens } ∧ { w with tokens }.wiring = w.wiring := by
  unfold World.erc1155Call at h
  rw [bind_eq_ok] at h
  obtain ⟨tok, htok, h⟩ := h
  rw [Tokens.erc1155Contract_eq_ok] at htok
  cases call with
  | safeTransferFrom src dst id amount =>
    obtain ⟨tok', htok', hn, rfl⟩ := Tokens.erc1155SafeTransferFrom_eq_ok h
    exact quiet_setERC1155 htok' rfl (supply_move hn)
  | setApprovalForAll operator approved =>
    rw [pure_eq_ok] at h
    subst h
    exact quiet_setERC1155 htok rfl (supply_of_balances rfl)
  | mint dst id amount =>
    obtain ⟨_, _, hpool, _⟩ := Tokens.erc1155Mint_eq_ok h
    rw [system_of_assetPoolWithId hw hpool] at hs
    cases hs
  | burn src id amount =>
    obtain ⟨_, _, hpool, _⟩ := Tokens.erc1155Burn_eq_ok h
    rw [system_of_assetPoolWithId hw hpool] at hs
    cases hs
  | setBlacklisted user blacklisted =>
    simp only [bind_eq_ok, pure_eq_ok] at h
    obtain ⟨_, _, rfl⟩ := h
    exact quiet_setERC1155 htok rfl (supply_of_balances rfl)

theorem quiet_send {error : Revert} {src dst : Address} {n : Nat}
    (hsrc : ∀ a, w.system a = true → a ≠ src ∨ n = 0)
    (h : w.tokens.send src dst n error = .ok tokens) :
    Quiet w { w with tokens } ∧ { w with tokens }.wiring = w.wiring := by
  have hspares := fun a ha => Tokens.spares_send ((hsrc a ha).imp_right .inl) h
  obtain ⟨_, rfl⟩ := Tokens.send_eq_ok h
  exact ⟨quiet_tokens rfl hspares (fun _ tok _ htok hr => ⟨tok, htok, hr, rfl⟩)
    (fun _ tok htok => ⟨tok, htok, fun _ => rfl⟩), rfl⟩

end Tokens

end Redeemy
