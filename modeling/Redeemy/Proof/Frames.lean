import Redeemy.Proof.Redemption
import Redeemy.Proof.Tokens

/-!
# What the calls of a pool leave alone

Deposits and withdrawals keep the terms of the pool; only the one who pays loses tokens.
-/

namespace Redeemy

open Fallible EnumerableSet

variable {F : Type → Type}
variable {w : World F} {pool pool' : AssetPoolV1 F} {rp : RewardPoolV1 F}
variable {tokens tokens' : Tokens} {a self admin receiver : Address}
variable {assets : Assets} {accepts : Address → Bool} {s s' : AssetPoolV1 F × Tokens}
variable {n requestId : Nat}

/-! ### What the small steps leave alone -/

/-- Deposits and withdrawals change the boxes and the contracts of a pool only. -/
structure SameTerms (pool pool' : AssetPoolV1 F) : Prop where
  info : pool'.info = pool.info
  redeemTokenAmount : pool'.redeemTokenAmount = pool.redeemTokenAmount
  totalNumberOfAssets : pool'.totalNumberOfAssets = pool.totalNumberOfAssets

theorem SameTerms.refl : SameTerms pool pool := ⟨rfl, rfl, rfl⟩

theorem SameTerms.trans {pool₁ : AssetPoolV1 F} (h : SameTerms pool pool₁)
    (h' : SameTerms pool₁ pool') : SameTerms pool pool' :=
  ⟨h'.info.trans h.info, h'.redeemTokenAmount.trans h.redeemTokenAmount,
    h'.totalNumberOfAssets.trans h.totalNumberOfAssets⟩

theorem sameTerms_setBoxes {t : AssetType} {c : Address} {boxes : List AssetBox} :
    SameTerms pool (pool.setBoxes t c boxes) := ⟨rfl, rfl, rfl⟩

variable [EnumerableSet F]

theorem sameTerms_addContract {t : AssetType} {c : Address} :
    SameTerms pool (pool.addContract t c) := ⟨by simp, by simp, by simp⟩

theorem sameTerms_storeBoxes {t : AssetType} {c : Address} {boxes : List AssetBox}
    (h : storeBoxes admin (pool.addContract t c) t c boxes = .ok pool') : SameTerms pool pool' := by
  obtain ⟨stored, _, rfl⟩ := storeBoxes_eq_ok h
  exact sameTerms_addContract.trans sameTerms_setBoxes

theorem DepositStep.sameTerms (h : DepositStep self admin assets s s') : SameTerms s.1 s'.1 := by
  cases h with
  | erc20 c boxes _ _ hstore => exact sameTerms_storeBoxes hstore
  | erc721Contract c => exact sameTerms_addContract
  | erc721Token c => exact sameTerms_setBoxes

theorem DepositSteps.sameTerms (h : DepositSteps self admin assets s s') :
    SameTerms s.1 s'.1 := by
  induction h with
  | refl => exact .refl
  | tail _ hstep ih => exact ih.trans hstep.sameTerms

omit [EnumerableSet F] in
theorem WithdrawStep.sameTerms (h : WithdrawStep accepts self assets s s') :
    SameTerms s.1 s'.1 := by
  cases h <;> exact sameTerms_setBoxes

omit [EnumerableSet F] in
theorem WithdrawSteps.sameTerms (h : WithdrawSteps accepts self assets s s') :
    SameTerms s.1 s'.1 := by
  induction h with
  | refl => exact .refl
  | tail _ hstep ih => exact ih.trans hstep.sameTerms

theorem DepositStep.spares (ha : a ≠ admin) (h : DepositStep self admin assets s s') :
    Tokens.Spares a s.2 s'.2 := by
  cases h with
  | erc20 c boxes _ hpull => exact (Tokens.spares_erc20TransferFrom hpull).trans Tokens.spares_recordIf
  | erc721Contract => exact .refl
  | erc721Token c tokenId _ hpull =>
    exact (Tokens.spares_erc721TransferFrom (.inl ha) hpull).trans Tokens.spares_record

theorem DepositSteps.spares (ha : a ≠ admin) (h : DepositSteps self admin assets s s') :
    Tokens.Spares a s.2 s'.2 := by
  induction h with
  | refl => exact .refl
  | tail _ hstep ih => exact ih.trans (hstep.spares ha)

section

omit [EnumerableSet F]

theorem WithdrawStep.keeps (h : WithdrawStep accepts self assets s s') :
    Tokens.Keeps a s.2 s'.2 := by
  cases h with
  | erc20 _ _ _ _ _ _ _ hpay =>
    exact (Tokens.keeps_erc20Transfer hpay).trans Tokens.spares_recordIf.toKeeps
  | erc721 _ _ _ _ _ _ _ hpay =>
    exact (Tokens.keeps_erc721TransferFrom hpay).trans Tokens.spares_record.toKeeps
  | native _ _ _ _ _ hpay => exact (Tokens.keeps_send hpay).trans Tokens.spares_record.toKeeps

theorem WithdrawSteps.keeps (h : WithdrawSteps accepts self assets s s') :
    Tokens.Keeps a s.2 s'.2 := by
  induction h with
  | refl => exact .refl
  | tail _ hstep ih => exact ih.trans hstep.keeps

theorem WithdrawStep.spares (ha : a ≠ self) (h : WithdrawStep accepts self assets s s') :
    Tokens.Spares a s.2 s'.2 := by
  cases h with
  | erc20 _ _ _ _ _ _ _ hpay =>
    exact (Tokens.spares_erc20Transfer ha hpay).trans Tokens.spares_recordIf
  | erc721 _ _ _ _ _ _ _ hpay =>
    exact (Tokens.spares_erc721TransferFrom (.inl ha) hpay).trans Tokens.spares_record
  | native _ _ _ _ _ hpay => exact (Tokens.spares_send (.inl ha) hpay).trans Tokens.spares_record

theorem WithdrawSteps.spares (ha : a ≠ self) (h : WithdrawSteps accepts self assets s s') :
    Tokens.Spares a s.2 s'.2 := by
  induction h with
  | refl => exact .refl
  | tail _ hstep ih => exact ih.trans (hstep.spares ha)

end

/-! ### Redeem tokens and payouts -/

section Payouts

variable {pools : Address → Option (RewardPoolV1 F)}

/-- The burn of a withdrawal is the mint of a deposit. -/
theorem burnRedeemTokens_eq : burnRedeemTokens pools self rp pool tokens n =
    mintRedeemTokens pools self rp pool tokens n := rfl

/-- How redeem tokens are minted, by the redeem method. -/
theorem mintRedeemTokens_cases (h : mintRedeemTokens pools self rp pool tokens n = .ok tokens') :
    (rp.redeemMethod = .ExistingERC20 ∧ tokens' = tokens) ∨
    (rp.redeemMethod = .CustomERC20 ∧ tokens.erc20Mint pools rp.redeemTokenContractAddress self self
      (pool.redeemTokenAmount * n) = .ok tokens') ∨
    (rp.redeemMethod = .CustomERC1155 ∧ tokens.erc1155Mint pools rp.redeemTokenContractAddress self
      self pool.id (pool.redeemTokenAmount * n) = .ok tokens') := by
  unfold mintRedeemTokens at h
  simp only [bind_eq_ok, checkedMul_eq_ok] at h
  obtain ⟨_, ⟨_, rfl⟩, h⟩ := h
  cases hm : rp.redeemMethod <;> rw [hm] at h
  · rw [pure_eq_ok] at h
    exact .inl ⟨rfl, h.symm⟩
  · exact .inr (.inl ⟨rfl, h⟩)
  · exact .inr (.inr ⟨rfl, h⟩)

theorem spares_mintRedeemTokens (h : mintRedeemTokens pools self rp pool tokens n = .ok tokens') :
    Tokens.Spares a tokens tokens' := by
  rcases mintRedeemTokens_cases h with ⟨_, rfl⟩ | ⟨_, hmint⟩ | ⟨_, hmint⟩
  · exact .refl
  · exact Tokens.spares_erc20Mint hmint
  · exact Tokens.spares_erc1155Mint hmint

/-- How a redemption is paid, by the redeem method. -/
theorem takePayment_cases {sink : Option Address}
    (h : w.takePayment self rp pool receiver n = .ok (tokens, sink)) :
    (rp.redeemMethod = .ExistingERC20 ∧ sink = some rp.withdrawAddress ∧
      ∃ answer, answer.returns = true ∧ w.tokens.erc20TransferFrom rp.redeemTokenContractAddress self
        receiver rp.withdrawAddress n = .ok (tokens, answer)) ∨
    (rp.redeemMethod = .CustomERC20 ∧ sink = none ∧ w.tokens.erc20Burn w.rewardPools
      rp.redeemTokenContractAddress self receiver n = .ok tokens) ∨
    (rp.redeemMethod = .CustomERC1155 ∧ sink = none ∧ w.tokens.erc1155Burn w.rewardPools
      rp.redeemTokenContractAddress self receiver pool.id n = .ok tokens) := by
  unfold World.takePayment at h
  cases hm : rp.redeemMethod <;> rw [hm] at h
  · simp only [bind_eq_ok, require_eq_ok, pure_eq_ok, Prod.mk.injEq, Prod.exists] at h
    obtain ⟨_, _, _, _, _, _, _, answer, hcall, _, hreturns, rfl, rfl⟩ := h
    exact .inl ⟨rfl, rfl, answer, hreturns, hcall⟩
  · simp only [bind_eq_ok, require_eq_ok, pure_eq_ok, Prod.mk.injEq] at h
    obtain ⟨_, _, _, _, _, hburn, rfl, rfl⟩ := h
    exact .inr (.inl ⟨rfl, rfl, hburn⟩)
  · simp only [bind_eq_ok, require_eq_ok, pure_eq_ok, Prod.mk.injEq] at h
    obtain ⟨_, _, _, _, _, hburn, rfl, rfl⟩ := h
    exact .inr (.inr ⟨rfl, rfl, hburn⟩)

/-- A payment only takes from the one who redeems. -/
theorem spares_takePayment {sink : Option Address} (ha : a ≠ receiver)
    (h : w.takePayment self rp pool receiver n = .ok (tokens, sink)) :
    Tokens.Spares a w.tokens tokens := by
  rcases takePayment_cases h with ⟨_, _, _, _, hcall⟩ | ⟨_, _, hburn⟩ | ⟨_, _, hburn⟩
  · exact Tokens.spares_erc20TransferFrom hcall
  · exact Tokens.spares_erc20Burn ha hburn
  · exact Tokens.spares_erc1155Burn hburn

section

omit [EnumerableSet F]

/-- How a card is paid, by its asset type. -/
theorem payCard_cases {card : Card} (h : w.payCard self receiver requestId card = .ok tokens) :
    ∃ tokens₁ moves, tokens = tokens₁.recordIf moves ⟨.fulfill requestId, self, card.assetType,
        card.contractAddress, receiver, card.box.amountOrTokenId⟩ ∧
      match card.assetType with
      | .ERC20 => ∃ answer, w.tokens.erc20Transfer card.contractAddress self receiver
          card.box.amountOrTokenId = .ok (tokens₁, answer) ∧ moves = answer.moves
      | .NativeToken => w.accepts receiver = true ∧ moves = true ∧
          w.tokens.send self receiver card.box.amountOrTokenId
            (.message "AssetPoolV1: Native token transfer failed") = .ok tokens₁
      | .ERC721 => w.accepts receiver = true ∧ moves = true ∧
          w.tokens.erc721TransferFrom card.contractAddress self self receiver
            card.box.amountOrTokenId = .ok tokens₁ := by
  unfold World.payCard at h
  cases ht : card.assetType <;> rw [ht] at h
  · simp only [bind_eq_ok, require_eq_ok, pure_eq_ok] at h
    obtain ⟨_, haccepts, tokens₁, hcall, rfl⟩ := h
    exact ⟨tokens₁, true, rfl, haccepts, rfl, hcall⟩
  · simp only [bind_eq_ok, require_eq_ok, pure_eq_ok, Prod.exists] at h
    obtain ⟨tokens₁, answer, hcall, _, _, rfl⟩ := h
    exact ⟨tokens₁, answer.moves, rfl, answer, hcall, rfl⟩
  · simp only [bind_eq_ok, require_eq_ok, pure_eq_ok] at h
    obtain ⟨_, haccepts, tokens₁, hcall, rfl⟩ := h
    exact ⟨tokens₁, true, rfl, haccepts, rfl, hcall⟩

theorem keeps_payCard {card : Card} (h : w.payCard self receiver requestId card = .ok tokens) :
    Tokens.Keeps a w.tokens tokens := by
  obtain ⟨tokens₁, moves, rfl, hcase⟩ := payCard_cases h
  refine Tokens.Keeps.trans ?_ Tokens.spares_recordIf.toKeeps
  split at hcase
  · obtain ⟨answer, hcall, _⟩ := hcase
    exact Tokens.keeps_erc20Transfer hcall
  · exact Tokens.keeps_send hcase.2.2
  · exact Tokens.keeps_erc721TransferFrom hcase.2.2

theorem spares_payCard {card : Card} (ha : a ≠ self)
    (h : w.payCard self receiver requestId card = .ok tokens) : Tokens.Spares a w.tokens tokens := by
  obtain ⟨tokens₁, moves, rfl, hcase⟩ := payCard_cases h
  refine Tokens.Spares.trans ?_ Tokens.spares_recordIf
  split at hcase
  · obtain ⟨answer, hcall, _⟩ := hcase
    exact Tokens.spares_erc20Transfer ha hcall
  · exact Tokens.spares_send (.inl ha) hcase.2.2
  · exact Tokens.spares_erc721TransferFrom (.inl ha) hcase.2.2

/-- What a pool hands out are its own redeem tokens. -/
theorem transferRedeemToken_cases {system : Address → Bool} {dst : Address}
    (h : transferRedeemToken pools self system rp pool tokens dst n = .ok tokens') :
    (rp.redeemMethod = .CustomERC20 ∧ ∃ answer,
      tokens.erc20Transfer rp.redeemTokenContractAddress self dst n = .ok (tokens', answer)) ∨
    (rp.redeemMethod = .CustomERC1155 ∧
      tokens.erc1155SafeTransferFrom pools rp.redeemTokenContractAddress self self dst pool.id n
        (!system dst || dst == self) = .ok tokens') := by
  unfold transferRedeemToken at h
  cases hm : rp.redeemMethod <;> rw [hm] at h
  · cases h
  · simp only [bind_eq_ok, pure_eq_ok, Prod.exists] at h
    obtain ⟨_, answer, hcall, rfl⟩ := h
    exact .inl ⟨rfl, answer, hcall⟩
  · exact .inr ⟨rfl, h⟩

theorem keeps_transferRedeemToken {system : Address → Bool} {dst : Address}
    (h : transferRedeemToken pools self system rp pool tokens dst n = .ok tokens') :
    Tokens.Keeps a tokens tokens' := by
  rcases transferRedeemToken_cases h with ⟨_, _, hcall⟩ | ⟨_, hcall⟩
  · exact Tokens.keeps_erc20Transfer hcall
  · exact (Tokens.spares_erc1155SafeTransferFrom hcall).toKeeps

theorem spares_transferRedeemToken {system : Address → Bool} {dst : Address} (ha : a ≠ self)
    (h : transferRedeemToken pools self system rp pool tokens dst n = .ok tokens') :
    Tokens.Spares a tokens tokens' := by
  rcases transferRedeemToken_cases h with ⟨_, _, hcall⟩ | ⟨_, hcall⟩
  · exact Tokens.spares_erc20Transfer ha hcall
  · exact Tokens.spares_erc1155SafeTransferFrom hcall

end

end Payouts

end Redeemy
