import Redeemy.Lib.SwapRemove
import Redeemy.Model.Basic

/-!
# Box lists

The private functions of `AssetPoolV1` that read and change one list of boxes
(`_assetBoxes[assetType][contractAddress]`), as functions from lists to lists.
-/

namespace Redeemy

open Fallible SwapRemove

/-- `_updateOrAddBox`: the first box with the same amount takes the cards, else the box is pushed. -/
def updateOrAddBox : List AssetBox → AssetBox → Result (List AssetBox)
  | [], box => pure [box]
  | stored :: boxes, box =>
    if stored.amountOrTokenId = box.amountOrTokenId then do
      let n ← checkedAdd stored.numberOfCards box.numberOfCards
      pure ({ stored with numberOfCards := n } :: boxes)
    else do
      let boxes ← updateOrAddBox boxes box
      pure (stored :: boxes)

/-- `_removeAssetBox` -/
def removeAssetBox (boxes : List AssetBox) (i : Nat) : Result (List AssetBox) := do
  let lastIndex ← checkedSub boxes.length 1
  let last ← index boxes lastIndex
  let _ ← index boxes i
  pure (if i ≠ lastIndex then (boxes.set i last).dropLast else boxes.dropLast)

/-- `_updateAssetBox`: take one card out of a box, and the box with it if that was its last. -/
def updateAssetBox (boxes : List AssetBox) (i : Nat) : Result (AssetBox × List AssetBox) := do
  let box ← index boxes i
  if 1 < box.numberOfCards then
    pure (box, boxes.set i { box with numberOfCards := box.numberOfCards - 1 })
  else do
    let boxes ← removeAssetBox boxes i
    pure (box, boxes)

/-! ### The random draw -/

/-- `_getRandomCardIndex`: the index of a card, and whether the list holds just one card. -/
def getRandomCardIndex (boxes : List AssetBox) (randomWord : Nat) : Result (Nat × Bool) := do
  let total ← boxes.foldlM (fun total box => checkedAdd total box.numberOfCards) 0
  let cardIndex ← checkedMod randomWord total
  pure (cardIndex, total == 1)

/-- The loop of `_getRandomBoxIndex` from index `i` on. -/
def boxOfCard (randomCardIndex : Nat) : List AssetBox → Nat → Nat → Result Nat
  | [], _, _ => .error .empty
  | box :: boxes, i, cumulativeCards => do
    let cumulativeCards ← checkedAdd cumulativeCards box.numberOfCards
    if randomCardIndex < cumulativeCards then pure i
    else boxOfCard randomCardIndex boxes (i + 1) cumulativeCards

/-- `_getRandomBoxIndex` -/
def getRandomBoxIndex (boxes : List AssetBox) (randomWord : Nat) : Result (Nat × Bool) := do
  let (randomCardIndex, isLast) ← getRandomCardIndex boxes randomWord
  let i ← boxOfCard randomCardIndex boxes 0 0
  pure (i, isLast)

/-- `_getRandomBox` -/
def getRandomBox (boxes : List AssetBox) (randomWord : Nat) : Result (Nat × Bool) := do
  let (idx, isLast) ← getRandomBoxIndex boxes randomWord
  pure (idx, isLast)

/-! ### The searches of a withdrawal -/

/-- The loop of the three searches from index `k` on. It increments `k` once more after a match. -/
def searchLoop (amountOrTokenId : Nat) (check : AssetBox → Result Unit) :
    List AssetBox → Nat → Result (Bool × Nat)
  | [], k => pure (false, k)
  | stored :: boxes, k =>
    if stored.amountOrTokenId = amountOrTokenId then do
      check stored
      pure (true, k + 1)
    else searchLoop amountOrTokenId check boxes (k + 1)

/-- The loop, and the correction of its index. -/
def findAssetBox (boxes : List AssetBox) (amountOrTokenId : Nat) (check : AssetBox → Result Unit) :
    Result (Bool × Nat) := do
  let (found, k) ← searchLoop amountOrTokenId check boxes 0
  if found then do
    let k ← checkedSub k 1
    pure (found, k)
  else pure (found, k)

/-- The check of a fungible search on the box it stops at. -/
def enoughCards (boxToWithdraw storedBox : AssetBox) : Result Unit :=
  require (boxToWithdraw.numberOfCards ≤ storedBox.numberOfCards)
    (.message "AssetPoolV1: insufficient cards for withdrawal")

def findErc20AssetBox (boxes : List AssetBox) (boxToWithdraw : AssetBox) : Result (Bool × Nat) :=
  findAssetBox boxes boxToWithdraw.amountOrTokenId (enoughCards boxToWithdraw)

def findErc721AssetBox (boxes : List AssetBox) (tokenId : Nat) : Result (Bool × Nat) :=
  findAssetBox boxes tokenId fun _ => pure ()

def findNativeTokenAssetBox (boxes : List AssetBox) (boxToWithdraw : AssetBox) :
    Result (Bool × Nat) :=
  findAssetBox boxes boxToWithdraw.amountOrTokenId (enoughCards boxToWithdraw)

/-- The end of a fungible withdrawal: lower the cards of box `k`, drop the box when none is left. -/
def lowerCards (boxes : List AssetBox) (k : Nat) (numberOfCards : Nat) : Result (List AssetBox) := do
  let stored ← index boxes k
  let newNumberOfCards ← checkedSub stored.numberOfCards numberOfCards
  if newNumberOfCards = 0 then removeAssetBox boxes k
  else pure (boxes.set k { stored with numberOfCards := newNumberOfCards })

/-! ### What each function does, once -/

theorem updateOrAddBox_cases {boxes boxes' : List AssetBox} {box : AssetBox}
    (h : updateOrAddBox boxes box = .ok boxes') :
    (∃ (i : Nat) (hi : i < boxes.length), boxes[i].amountOrTokenId = box.amountOrTokenId ∧
      boxes' = boxes.set i { boxes[i] with numberOfCards := boxes[i].numberOfCards + box.numberOfCards }) ∨
    ((∀ b ∈ boxes, b.amountOrTokenId ≠ box.amountOrTokenId) ∧ boxes' = boxes ++ [box]) := by
  induction boxes generalizing boxes' with
  | nil =>
    right
    rw [updateOrAddBox, pure_eq_ok] at h
    exact ⟨by simp, h.symm⟩
  | cons stored boxes ih =>
    rw [updateOrAddBox] at h
    split_ifs at h with heq
    · left
      simp only [bind_eq_ok, checkedAdd_eq_ok, pure_eq_ok] at h
      obtain ⟨n, ⟨_, rfl⟩, rfl⟩ := h
      exact ⟨0, by simp, heq, rfl⟩
    · simp only [bind_eq_ok, pure_eq_ok] at h
      obtain ⟨rest, hrest, rfl⟩ := h
      rcases ih hrest with ⟨i, hi, hkey, rfl⟩ | ⟨hnone, rfl⟩
      · left
        exact ⟨i + 1, by simpa using hi, by simpa using hkey, by simp⟩
      · right
        refine ⟨?_, rfl⟩
        intro b hb
        rcases List.mem_cons.mp hb with rfl | hb
        · exact heq
        · exact hnone b hb

theorem removeAssetBox_eq_ok {boxes boxes' : List AssetBox} {i : Nat} :
    removeAssetBox boxes i = .ok boxes' ↔ i < boxes.length ∧ boxes' = swapRemove boxes i := by
  unfold removeAssetBox
  simp only [bind_eq_ok, checkedSub_eq_ok, index_eq_ok, pure_eq_ok]
  rcases List.eq_nil_or_concat' boxes with rfl | ⟨init, last, rfl⟩
  · simp
  · constructor
    · rintro ⟨_, ⟨_, rfl⟩, _, ⟨_, rfl⟩, _, ⟨hi, rfl⟩, rfl⟩
      refine ⟨hi, ?_⟩
      simp only [swapRemove, List.getLast?_append, List.getLast?_singleton, Option.some_or]
      split_ifs with hlast
      · simp
      · simp only [List.length_append, List.length_singleton, ne_eq, not_not] at hlast
        rw [hlast]
        simp
    · rintro ⟨hi, rfl⟩
      refine ⟨init.length, by simp, last, ⟨by simp, by simp⟩, _, ⟨hi, rfl⟩, ?_⟩
      simp only [swapRemove, List.getLast?_append, List.getLast?_singleton, Option.some_or]
      split_ifs with hlast
      · rfl
      · rw [not_not] at hlast
        rw [hlast]
        simp

theorem updateAssetBox_cases {boxes boxes' : List AssetBox} {box : AssetBox} {i : Nat}
    (h : updateAssetBox boxes i = .ok (box, boxes')) :
    ∃ hi : i < boxes.length, boxes[i] = box ∧
      ((1 < box.numberOfCards ∧
          boxes' = boxes.set i { box with numberOfCards := box.numberOfCards - 1 }) ∨
        (box.numberOfCards ≤ 1 ∧ boxes' = swapRemove boxes i)) := by
  unfold updateAssetBox at h
  simp only [bind_eq_ok, index_eq_ok] at h
  obtain ⟨_, ⟨hi, rfl⟩, h⟩ := h
  split_ifs at h with hcards
  · rw [pure_eq_ok, Prod.mk.injEq] at h
    obtain ⟨rfl, rfl⟩ := h
    exact ⟨hi, rfl, .inl ⟨hcards, rfl⟩⟩
  · simp only [bind_eq_ok, removeAssetBox_eq_ok, pure_eq_ok, Prod.mk.injEq] at h
    obtain ⟨_, ⟨_, rfl⟩, rfl, rfl⟩ := h
    exact ⟨hi, rfl, .inr ⟨by omega, rfl⟩⟩

theorem updateAssetBox_succeeds {boxes : List AssetBox} {i : Nat} (hi : i < boxes.length) :
    ∃ boxes', updateAssetBox boxes i = .ok (boxes[i], boxes') := by
  by_cases hcards : 1 < boxes[i].numberOfCards
  · refine ⟨boxes.set i { boxes[i] with numberOfCards := boxes[i].numberOfCards - 1 }, ?_⟩
    simp only [updateAssetBox, bind_eq_ok, index_eq_ok]
    exact ⟨boxes[i], ⟨hi, rfl⟩, by rw [if_pos hcards]; rfl⟩
  · refine ⟨swapRemove boxes i, ?_⟩
    simp only [updateAssetBox, bind_eq_ok, index_eq_ok]
    refine ⟨boxes[i], ⟨hi, rfl⟩, ?_⟩
    rw [if_neg hcards, bind_eq_ok]
    exact ⟨_, removeAssetBox_eq_ok.mpr ⟨hi, rfl⟩, rfl⟩

theorem lowerCards_cases {boxes boxes' : List AssetBox} {k n : Nat}
    (h : lowerCards boxes k n = .ok boxes') :
    ∃ hk : k < boxes.length, n ≤ boxes[k].numberOfCards ∧
      ((boxes[k].numberOfCards = n ∧ boxes' = swapRemove boxes k) ∨
        boxes' = boxes.set k { boxes[k] with numberOfCards := boxes[k].numberOfCards - n }) := by
  unfold lowerCards at h
  simp only [bind_eq_ok, index_eq_ok, checkedSub_eq_ok] at h
  obtain ⟨_, ⟨hk, rfl⟩, _, ⟨hn, rfl⟩, h⟩ := h
  refine ⟨hk, hn, ?_⟩
  split_ifs at h with hzero
  · left
    exact ⟨by omega, (removeAssetBox_eq_ok.mp h).2⟩
  · right
    exact (pure_eq_ok.mp h).symm

theorem searchLoop_eq_ok {boxes : List AssetBox} {a k j : Nat} {found : Bool}
    {check : AssetBox → Result Unit} (h : searchLoop a check boxes k = .ok (found, j)) :
    (found = true ∧ ∃ (i : Nat) (hi : i < boxes.length), j = k + i + 1 ∧
      boxes[i].amountOrTokenId = a ∧ check boxes[i] = .ok ()) ∨
    (found = false ∧ ∀ b ∈ boxes, b.amountOrTokenId ≠ a) := by
  induction boxes generalizing k with
  | nil =>
    rw [searchLoop, pure_eq_ok, Prod.mk.injEq] at h
    exact .inr ⟨h.1.symm, by simp⟩
  | cons stored boxes ih =>
    rw [searchLoop] at h
    split_ifs at h with heq
    · simp only [bind_eq_ok, pure_eq_ok, Prod.mk.injEq] at h
      obtain ⟨_, hcheck, rfl, rfl⟩ := h
      exact .inl ⟨rfl, 0, by simp, by simp, heq, hcheck⟩
    · rcases ih h with ⟨hfound, i, hi, rfl, hkey, hcheck⟩ | ⟨hfound, hnone⟩
      · exact .inl ⟨hfound, i + 1, by simpa using hi, by omega, by simpa using hkey, by simpa using hcheck⟩
      · refine .inr ⟨hfound, fun b hb => ?_⟩
        rcases List.mem_cons.mp hb with rfl | hb
        · exact heq
        · exact hnone b hb

theorem findAssetBox_found {boxes : List AssetBox} {a k : Nat} {check : AssetBox → Result Unit}
    (h : findAssetBox boxes a check = .ok (true, k)) :
    ∃ hk : k < boxes.length, boxes[k].amountOrTokenId = a ∧ check boxes[k] = .ok () := by
  unfold findAssetBox at h
  rw [bind_eq_ok] at h
  obtain ⟨⟨found, j⟩, hsearch, h⟩ := h
  rcases searchLoop_eq_ok hsearch with ⟨rfl, i, hi, rfl, hkey, hcheck⟩ | ⟨rfl, _⟩
  · simp only [if_true, bind_eq_ok, checkedSub_eq_ok, pure_eq_ok, Prod.mk.injEq, true_and] at h
    obtain ⟨_, ⟨_, rfl⟩, rfl⟩ := h
    have : 0 + i + 1 - 1 = i := by omega
    simp only [this]
    exact ⟨hi, hkey, hcheck⟩
  · simp [pure_eq_ok] at h

end Redeemy
