import Redeemy.Lib.Reserve
import Redeemy.Model.AssetPool
import Redeemy.Proof.Boxes

/-!
# The stock of a pool

What writing one list of boxes or one contract set does to a pool, and what the draw of a card does.
-/

namespace Redeemy

open Fallible EnumerableSet SwapRemove

variable {F : Type → Type}

/-- What an asset pool is to the other contracts: no step of the system changes it. -/
structure AssetPoolInfo where
  id : Nat
  rewardPool : Address
  trustedForwarder : Address

def AssetPoolV1.info (pool : AssetPoolV1 F) : AssetPoolInfo where
  id := pool.id
  rewardPool := pool.rewardPool
  trustedForwarder := pool.trustedForwarder

variable {pool pool' : AssetPoolV1 F} {t t' : AssetType} {c c' : Address} {boxes : List AssetBox}

namespace AssetPoolV1

/-! ### Frames -/

@[simp] theorem assetBoxes_setBoxes_self : (pool.setBoxes t c boxes).assetBoxes t c = boxes := by
  simp [setBoxes]

theorem assetBoxes_setBoxes :
    (pool.setBoxes t c boxes).assetBoxes t' c' =
      if t' = t ∧ c' = c then boxes else pool.assetBoxes t' c' := by
  by_cases ht : t' = t
  · subst ht
    by_cases hc : c' = c
    · subst hc
      simp [setBoxes]
    · simp [setBoxes, hc]
  · simp [setBoxes, ht]

theorem assetBoxes_setBoxes_of_ne (h : ¬(t' = t ∧ c' = c)) :
    (pool.setBoxes t c boxes).assetBoxes t' c' = pool.assetBoxes t' c' := by
  rw [assetBoxes_setBoxes, if_neg h]

theorem setBoxes_setBoxes {boxes' : List AssetBox} :
    (pool.setBoxes t c boxes).setBoxes t c boxes' = pool.setBoxes t c boxes' := by
  simp [setBoxes]

theorem setBoxes_assetBoxes : pool.setBoxes t c (pool.assetBoxes t c) = pool := by
  simp [setBoxes]

@[simp] theorem contractAddresses_setBoxes :
    (pool.setBoxes t c boxes).contractAddresses = pool.contractAddresses := rfl

@[simp] theorem totalNumberOfAssets_setBoxes :
    (pool.setBoxes t c boxes).totalNumberOfAssets = pool.totalNumberOfAssets := rfl

@[simp] theorem info_setBoxes : (pool.setBoxes t c boxes).info = pool.info := rfl

@[simp] theorem redeemTokenAmount_setBoxes :
    (pool.setBoxes t c boxes).redeemTokenAmount = pool.redeemTokenAmount := rfl

section Listing

variable [EnumerableSet F]

@[simp] theorem assetBoxes_addContract : (pool.addContract t c).assetBoxes = pool.assetBoxes := by
  unfold addContract
  split_ifs <;> rfl

@[simp] theorem totalNumberOfAssets_addContract :
    (pool.addContract t c).totalNumberOfAssets = pool.totalNumberOfAssets := by
  unfold addContract
  split_ifs <;> rfl

theorem mem_contractAddresses_addContract :
    c' ∈ values ((pool.addContract t c).contractAddresses t') ↔
      (t' = t ∧ c' = c) ∨ c' ∈ values (pool.contractAddresses t') := by
  unfold addContract
  split_ifs with hmem
  · constructor
    · exact .inr
    · rintro (⟨rfl, rfl⟩ | h)
      · exact hmem
      · exact h
  · by_cases ht : t' = t
    · subst ht
      simp [mem_add]
    · simp [ht]

@[simp] theorem assetBoxes_removeContract :
    (pool.removeContract t c).assetBoxes = pool.assetBoxes := rfl

@[simp] theorem totalNumberOfAssets_removeContract :
    (pool.removeContract t c).totalNumberOfAssets = pool.totalNumberOfAssets := rfl

theorem mem_contractAddresses_removeContract :
    c' ∈ values ((pool.removeContract t c).contractAddresses t') ↔
      ¬(t' = t ∧ c' = c) ∧ c' ∈ values (pool.contractAddresses t') := by
  by_cases ht : t' = t
  · subst ht
    simp [removeContract, mem_remove]
  · simp [removeContract, ht]

@[simp] theorem info_addContract : (pool.addContract t c).info = pool.info := by
  unfold addContract
  split_ifs <;> rfl

@[simp] theorem info_removeContract : (pool.removeContract t c).info = pool.info := rfl

@[simp] theorem redeemTokenAmount_addContract :
    (pool.addContract t c).redeemTokenAmount = pool.redeemTokenAmount := by
  unfold addContract
  split_ifs <;> rfl

@[simp] theorem redeemTokenAmount_removeContract :
    (pool.removeContract t c).redeemTokenAmount = pool.redeemTokenAmount := rfl

end Listing

/-! ### The stock -/

/-- The prizes of a pool, by asset type and contract. -/
def stock (pool : AssetPoolV1 F) (k : AssetType × Address) : Multiset Nat :=
  contents (pool.assetBoxes k.1 k.2)

theorem stock_setBoxes_of_ne {k : AssetType × Address} (hk : k ≠ (t, c)) :
    (pool.setBoxes t c boxes).stock k = pool.stock k := by
  apply congrArg contents
  apply assetBoxes_setBoxes_of_ne
  rintro ⟨rfl, rfl⟩
  exact hk rfl

theorem stock_setBoxes_add {m : Multiset Nat}
    (h : contents boxes = contents (pool.assetBoxes t c) + m) :
    (pool.setBoxes t c boxes).stock = pool.stock + Pi.single (t, c) m := by
  funext k
  by_cases hk : k = (t, c)
  · subst hk
    simp [stock, h]
  · rw [Pi.add_apply, Pi.single_eq_of_ne hk, add_zero, stock_setBoxes_of_ne hk]

theorem stock_setBoxes_remove {m : Multiset Nat}
    (h : contents (pool.assetBoxes t c) = contents boxes + m) :
    pool.stock = (pool.setBoxes t c boxes).stock + Pi.single (t, c) m := by
  funext k
  by_cases hk : k = (t, c)
  · subst hk
    simp [stock, h]
  · rw [Pi.add_apply, Pi.single_eq_of_ne hk, add_zero, stock_setBoxes_of_ne hk]

end AssetPoolV1

theorem size_single (k : AssetType × Address) (m : Multiset Nat) :
    Stock.size (Pi.single k m) = m.card := by
  unfold Stock.size
  rw [Finset.sum_eq_single k]
  · rw [Pi.single_eq_same]
  · intro k' _ hne
    rw [Pi.single_eq_of_ne hne, Multiset.card_zero]
  · simp

/-! ### The draw of a card -/

variable [EnumerableSet F]

/-- What is left of the pool once a card is drawn, when `boxes` are the boxes left of its contract. -/
def AssetPoolV1.afterDraw (pool : AssetPoolV1 F) (card : Card) (boxes : List AssetBox)
    (isLastBox : Bool) : AssetPoolV1 F :=
  let pool := pool.setBoxes card.assetType card.contractAddress boxes
  if isLastBox then
    (pool.removeContract card.assetType card.contractAddress).setBoxes
      card.assetType card.contractAddress []
  else pool

/-- Everything a draw does: it takes a card out of a box of a listed contract, and forgets the
contract with its last card. -/
structure Drawn (pool pool' : AssetPoolV1 F) (card : Card) : Prop where
  listed : card.contractAddress ∈ values (pool.contractAddresses card.assetType)
  box : (pool.assetBoxes card.assetType card.contractAddress)[card.boxIndex]? = some card.box
  hasCard : 1 ≤ card.box.numberOfCards
  fits : cards (pool.assetBoxes card.assetType card.contractAddress) < UINT256_SIZE
  left : ∃ boxes,
    updateAssetBox (pool.assetBoxes card.assetType card.contractAddress) card.boxIndex =
      .ok (card.box, boxes) ∧
    pool' = pool.afterDraw card boxes
      (cards (pool.assetBoxes card.assetType card.contractAddress) == 1)

/-- The words that draw a box: the first selects its type, the second its contract, and the third one
of its cards. -/
theorem drawCard_of_words {words : List Nat} {word₀ word₁ word₂ i : Nat}
    (h₀ : words[0]? = some word₀) (h₁ : words[1]? = some word₁) (h₂ : words[2]? = some word₂)
    (ht : pool.getDepositedAssetTypes[word₀ % pool.getDepositedAssetTypes.length]? = some t)
    (hc : (values (pool.contractAddresses t))[word₁ % (values (pool.contractAddresses t)).length]? =
      some c)
    (hpos : 0 < cards (pool.assetBoxes t c)) (hfits : cards (pool.assetBoxes t c) < UINT256_SIZE)
    (hpick : Draw.pick ((pool.assetBoxes t c).map AssetBox.numberOfCards)
      (word₂ % cards (pool.assetBoxes t c)) = some i) :
    ∃ box pool', (pool.assetBoxes t c)[i]? = some box ∧
      pool.drawCard words = .ok (⟨t, c, i, box⟩, pool') := by
  obtain ⟨hi, _⟩ := Draw.pick_eq_some_iff.mp hpick
  rw [List.length_map] at hi
  obtain ⟨boxes, hupdate⟩ := updateAssetBox_succeeds hi
  refine ⟨(pool.assetBoxes t c)[i],
    pool.afterDraw ⟨t, c, i, (pool.assetBoxes t c)[i]⟩ boxes (cards (pool.assetBoxes t c) == 1),
    List.getElem?_eq_getElem hi, ?_⟩
  have hne : ∀ {α : Type} {l : List α} {n : Nat} {a : α}, l[n]? = some a → l.length ≠ 0 := by
    intro α l n a hl
    obtain ⟨hn, _⟩ := List.getElem?_eq_some_iff.mp hl
    omega
  unfold AssetPoolV1.drawCard
  simp only [bind_eq_ok, checkedMod_eq_ok, index, orThrow_eq_ok]
  refine ⟨word₀, h₀, _, ⟨hne ht, rfl⟩, t, ht, word₁, h₁, _, ⟨hne hc, rfl⟩, c, hc, word₂, h₂,
    (i, cards (pool.assetBoxes t c) == 1), getRandomBox_eq_ok.mpr ⟨hpos, hfits, rfl, hpick⟩,
    ((pool.assetBoxes t c)[i], boxes), hupdate, rfl⟩

theorem drawCard_eq_ok {card : Card} {words : List Nat}
    (h : pool.drawCard words = .ok (card, pool')) : Drawn pool pool' card := by
  unfold AssetPoolV1.drawCard at h
  simp only [bind_eq_ok, index_eq_ok, checkedMod_eq_ok, getRandomBox_eq_ok, pure_eq_ok,
    Prod.mk.injEq, Prod.exists] at h
  obtain ⟨_, _, i, _, assetType, ⟨_, _⟩, _, _, j, ⟨_, rfl⟩, contractAddress, ⟨hj, rfl⟩, word, _,
    boxIndex, isLastBox, ⟨hpos, hfits, rfl, hpick⟩, box, boxes, hupdate, rfl, rfl⟩ := h
  obtain ⟨hi, rfl, _⟩ := updateAssetBox_cases hupdate
  obtain ⟨hlen, hlow, hhigh⟩ := Draw.pick_eq_some_iff.mp hpick
  rw [List.getElem_map] at hhigh
  exact {
    listed := List.getElem_mem hj
    box := List.getElem?_eq_getElem hi
    hasCard := Nat.pos_of_lt_add_right (Nat.lt_of_le_of_lt hlow hhigh)
    fits := hfits
    left := ⟨boxes, hupdate, rfl⟩ }

namespace Drawn

variable {card : Card} (h : Drawn pool pool' card)

include h

theorem box_mem : card.box ∈ pool.assetBoxes card.assetType card.contractAddress :=
  List.mem_of_getElem? h.box

theorem info_eq : pool'.info = pool.info := by
  obtain ⟨boxes, _, rfl⟩ := h.left
  unfold AssetPoolV1.afterDraw
  split_ifs <;> simp

theorem redeemTokenAmount_eq : pool'.redeemTokenAmount = pool.redeemTokenAmount := by
  obtain ⟨boxes, _, rfl⟩ := h.left
  unfold AssetPoolV1.afterDraw
  split_ifs <;> simp

theorem total_eq : pool'.totalNumberOfAssets = pool.totalNumberOfAssets := by
  obtain ⟨boxes, _, rfl⟩ := h.left
  unfold AssetPoolV1.afterDraw
  split_ifs <;> simp

/-- No other list of boxes changes. -/
theorem assetBoxes_of_ne (hne : ¬(t = card.assetType ∧ c = card.contractAddress)) :
    pool'.assetBoxes t c = pool.assetBoxes t c := by
  obtain ⟨boxes, _, rfl⟩ := h.left
  unfold AssetPoolV1.afterDraw
  split_ifs
  · rw [AssetPoolV1.assetBoxes_setBoxes_of_ne hne, AssetPoolV1.assetBoxes_removeContract,
      AssetPoolV1.assetBoxes_setBoxes_of_ne hne]
  · rw [AssetPoolV1.assetBoxes_setBoxes_of_ne hne]

/-- The contract is forgotten with its last card. -/
theorem mem_contractAddresses : c ∈ values (pool'.contractAddresses t) ↔
    ¬(t = card.assetType ∧ c = card.contractAddress ∧
      cards (pool.assetBoxes card.assetType card.contractAddress) = 1) ∧
    c ∈ values (pool.contractAddresses t) := by
  obtain ⟨boxes, _, rfl⟩ := h.left
  unfold AssetPoolV1.afterDraw
  split_ifs with hlast
  · have hone := beq_iff_eq.mp hlast
    simp only [AssetPoolV1.contractAddresses_setBoxes,
      AssetPoolV1.mem_contractAddresses_removeContract, hone, and_true]
  · have hone := mt beq_iff_eq.mpr hlast
    simp only [AssetPoolV1.contractAddresses_setBoxes, hone, and_false, not_false_eq_true, true_and]

/-- The list the card came from loses the weight of that card, whatever is weighed. -/
theorem weigh_eq {M : Type} [AddCancelCommMonoid M] (g : Address → Nat → M) :
    weigh g (pool.assetBoxes card.assetType card.contractAddress) =
      weigh g (pool'.assetBoxes card.assetType card.contractAddress) +
        g card.box.depositer card.box.amountOrTokenId := by
  obtain ⟨boxes, hupdate, rfl⟩ := h.left
  have hg := weigh_updateAssetBox (g := g) hupdate h.hasCard
  unfold AssetPoolV1.afterDraw
  split_ifs with hlast
  · -- the boxes left have no card, so forgetting them changes no weight
    have hcards : cards boxes = 0 := by
      have := weigh_updateAssetBox (g := fun _ _ => 1) hupdate h.hasCard
      have hone := beq_iff_eq.mp hlast
      unfold cards at hone ⊢
      omega
    rw [hg, AssetPoolV1.assetBoxes_setBoxes_self, weigh_nil, weigh_of_cards_eq_zero hcards]
  · rw [hg, AssetPoolV1.assetBoxes_setBoxes_self]

theorem stock_eq : pool.stock = pool'.stock +
    Pi.single (card.assetType, card.contractAddress) {card.box.amountOrTokenId} := by
  funext ⟨t, c⟩
  by_cases hk : t = card.assetType ∧ c = card.contractAddress
  · obtain ⟨rfl, rfl⟩ := hk
    rw [Pi.add_apply, Pi.single_eq_same]
    exact h.weigh_eq fun _ a => ({a} : Multiset Nat)
  · have hne : (t, c) ≠ (card.assetType, card.contractAddress) := fun heq => hk (Prod.mk.inj heq)
    rw [Pi.add_apply, Pi.single_eq_of_ne hne, add_zero]
    exact (congrArg contents (h.assetBoxes_of_ne hk)).symm

/-- The boxes left of the contract are among those it had, one with a card less. -/
theorem mem_assetBoxes {b : AssetBox}
    (hb : b ∈ pool'.assetBoxes card.assetType card.contractAddress) :
    b ∈ pool.assetBoxes card.assetType card.contractAddress ∨ (1 < card.box.numberOfCards ∧
      b = { card.box with numberOfCards := card.box.numberOfCards - 1 }) := by
  obtain ⟨boxes, hupdate, rfl⟩ := h.left
  have hmem : b ∈ boxes := by
    unfold AssetPoolV1.afterDraw at hb
    split_ifs at hb
    · simp at hb
    · simpa using hb
  obtain ⟨hi, hbox, ⟨hmany, rfl⟩ | ⟨_, rfl⟩⟩ := updateAssetBox_cases hupdate
  · rcases List.mem_or_eq_of_mem_set hmem with hmem | rfl
    · exact .inl hmem
    · exact .inr ⟨hmany, rfl⟩
  · exact .inl (mem_of_mem_swapRemove hi hmem)

end Drawn

end Redeemy
