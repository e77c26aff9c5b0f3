import Mathlib.Algebra.BigOperators.Group.Multiset.Basic
import Mathlib.Algebra.Order.BigOperators.Group.List
import Mathlib.Algebra.Order.Group.Multiset
import Mathlib.Algebra.Module.Defs
import Mathlib.Algebra.Order.Group.Nat
import Redeemy.Lib.Draw
import Redeemy.Model.Boxes

/-!
# What a list of boxes is worth

Every quantity the accounting is about is a sum over the cards of a list: the number of cards, the
amount they promise, the multiset of their prizes, the amount owed to one depositer. `weigh` is that
sum for any weight of a card, and each function on box lists has one lemma about it.
-/

namespace Redeemy

open Fallible SwapRemove

variable {M : Type} [AddCancelCommMonoid M] {g : Address → Nat → M}
variable {boxes boxes' : List AssetBox} {box : AssetBox}

/-! ### Weights -/

/-- The weight of a box, for a weight of its cards that may depend on depositer and prize. -/
def AssetBox.weight (g : Address → Nat → M) (b : AssetBox) : M :=
  b.numberOfCards • g b.depositer b.amountOrTokenId

/-- The sum of the weights of all cards. -/
def weigh (g : Address → Nat → M) (boxes : List AssetBox) : M :=
  (boxes.map (AssetBox.weight g)).sum

/-- The number of cards. -/
def cards (boxes : List AssetBox) : Nat := weigh (fun _ _ => 1) boxes

/-- The sum of all prizes. -/
def worth (boxes : List AssetBox) : Nat := weigh (fun _ a => a) boxes

/-- The prizes on the cards. -/
def contents (boxes : List AssetBox) : Multiset Nat := weigh (fun _ a => {a}) boxes

@[simp] theorem weigh_nil : weigh g [] = 0 := rfl

@[simp] theorem weigh_cons : weigh g (box :: boxes) = box.weight g + weigh g boxes := by
  simp [weigh]

@[simp] theorem weigh_append : weigh g (boxes ++ boxes') = weigh g boxes + weigh g boxes' := by
  simp [weigh]

theorem cards_eq_sum : cards boxes = (boxes.map AssetBox.numberOfCards).sum := by
  have hweight : AssetBox.weight (fun _ _ => (1 : Nat)) = AssetBox.numberOfCards := by
    funext b
    simp [AssetBox.weight]
  rw [cards, weigh, hweight]

theorem card_contents : (contents boxes).card = cards boxes := by
  induction boxes with
  | nil => rfl
  | cons box boxes ih =>
    simp only [contents, cards, weigh_cons, AssetBox.weight] at ih ⊢
    simp [ih]

theorem sum_contents : (contents boxes).sum = worth boxes := by
  induction boxes with
  | nil => rfl
  | cons box boxes ih =>
    simp only [contents, worth, weigh_cons, AssetBox.weight] at ih ⊢
    simp [ih, Multiset.sum_nsmul]

/-- Without cards there is nothing to weigh. -/
theorem weigh_of_cards_eq_zero (h : cards boxes = 0) : weigh g boxes = 0 := by
  rw [cards_eq_sum, List.sum_eq_zero_iff] at h
  refine List.sum_eq_zero fun m hm => ?_
  obtain ⟨b, hb, rfl⟩ := List.mem_map.mp hm
  rw [AssetBox.weight, h _ (List.mem_map_of_mem hb), zero_nsmul]

theorem le_cards {b : AssetBox} (h : b ∈ boxes) : b.numberOfCards ≤ cards boxes := by
  rw [cards_eq_sum]
  exact List.le_sum_of_mem (List.mem_map_of_mem h)

/-! ### The functions on lists -/

/-- A box whose cards change weighs the cards it has now instead of those it had. -/
theorem weigh_set {i : Nat} (hi : i < boxes.length) (n : Nat) :
    boxes[i].weight g + weigh g (boxes.set i { boxes[i] with numberOfCards := n }) =
      n • g boxes[i].depositer boxes[i].amountOrTokenId + weigh g boxes :=
  sum_map_set (AssetBox.weight g) { boxes[i] with numberOfCards := n } hi

theorem weigh_swapRemove {i : Nat} (hi : i < boxes.length) :
    weigh g boxes = weigh g (swapRemove boxes i) + boxes[i].weight g := by
  rw [add_comm]
  exact (sum_map_swapRemove (AssetBox.weight g) hi).symm

/-- Storing a box adds the weight of its cards, if the box it is merged into weighs them alike. -/
theorem weigh_updateOrAddBox
    (halike : ∀ b ∈ boxes, b.amountOrTokenId = box.amountOrTokenId →
      box.numberOfCards • g b.depositer b.amountOrTokenId = box.weight g)
    (h : updateOrAddBox boxes box = .ok boxes') :
    weigh g boxes' = weigh g boxes + box.weight g := by
  rcases updateOrAddBox_cases h with ⟨i, hi, hkey, rfl⟩ | ⟨_, rfl⟩
  · have hset := weigh_set (g := g) hi (boxes[i].numberOfCards + box.numberOfCards)
    rw [add_nsmul, halike boxes[i] (List.getElem_mem hi) hkey, AssetBox.weight, add_assoc] at hset
    rw [add_left_cancel hset, add_comm]
  · rw [weigh_append, weigh_cons, weigh_nil, add_zero]

/-- Lowering the cards of a box by `n` removes the weight of `n` cards. -/
theorem weigh_lowerCards {k n : Nat} (h : lowerCards boxes k n = .ok boxes') :
    ∃ hk : k < boxes.length,
      weigh g boxes = weigh g boxes' + n • g boxes[k].depositer boxes[k].amountOrTokenId := by
  obtain ⟨hk, hn, hcase⟩ := lowerCards_cases h
  refine ⟨hk, ?_⟩
  rcases hcase with ⟨hall, rfl⟩ | rfl
  · rw [weigh_swapRemove hk, AssetBox.weight, hall]
  · have hset := weigh_set (g := g) hk (boxes[k].numberOfCards - n)
    rw [AssetBox.weight] at hset
    nth_rewrite 1 [← Nat.sub_add_cancel hn] at hset
    rw [add_nsmul, add_assoc] at hset
    rw [← add_left_cancel hset, add_comm]

/-- Taking a card out of a box that has one removes its weight. -/
theorem weigh_updateAssetBox {i : Nat} (h : updateAssetBox boxes i = .ok (box, boxes'))
    (hcards : 1 ≤ box.numberOfCards) :
    weigh g boxes = weigh g boxes' + g box.depositer box.amountOrTokenId := by
  obtain ⟨hi, rfl, ⟨hmany, rfl⟩ | ⟨hone, rfl⟩⟩ := updateAssetBox_cases h
  · have hset := weigh_set (g := g) hi (boxes[i].numberOfCards - 1)
    rw [AssetBox.weight] at hset
    nth_rewrite 1 [← Nat.sub_add_cancel hcards] at hset
    rw [add_nsmul, add_assoc, one_nsmul] at hset
    rw [← add_left_cancel hset, add_comm]
  · have hcard : boxes[i].numberOfCards = 1 := by omega
    rw [weigh_swapRemove hi, AssetBox.weight, hcard, one_nsmul]

/-! ### The draw -/

theorem foldlM_checkedAdd_eq_ok {α : Type} {f : α → Nat} {l : List α} {total n : Nat} :
    l.foldlM (fun n a => checkedAdd n (f a)) n = .ok total ↔
      total = n + (l.map f).sum ∧ (l = [] ∨ total < UINT256_SIZE) := by
  induction l generalizing n with
  | nil =>
    rw [List.foldlM_nil, pure_eq_ok]
    simp [eq_comm]
  | cons a l ih =>
    simp only [List.foldlM_cons, bind_eq_ok, checkedAdd_eq_ok, List.map_cons, List.sum_cons]
    constructor
    · rintro ⟨m, ⟨hm, rfl⟩, h⟩
      obtain ⟨rfl, hlt⟩ := ih.mp h
      refine ⟨by omega, .inr ?_⟩
      rcases hlt with rfl | hlt
      · simpa using hm
      · exact hlt
    · rintro ⟨rfl, hlt⟩
      have hlt : n + (f a + (l.map f).sum) < UINT256_SIZE := hlt.resolve_left (by simp)
      exact ⟨n + f a, ⟨by omega, rfl⟩, ih.mpr ⟨by omega, .inr (by omega)⟩⟩

/-- The loop over the running sum is the weighted draw. -/
theorem boxOfCard_eq_ok {r k n i : Nat} (hlt : n + cards boxes < UINT256_SIZE) :
    boxOfCard (n + r) boxes k n = .ok i ↔
      ∃ j, Draw.pick (boxes.map AssetBox.numberOfCards) r = some j ∧ i = k + j := by
  induction boxes generalizing r k n with
  | nil => simp [boxOfCard, Draw.pick]
  | cons box boxes ih =>
    have hcons : cards (box :: boxes) = box.numberOfCards + cards boxes := by
      simp [cards_eq_sum]
    rw [hcons] at hlt
    rw [boxOfCard, List.map_cons, Draw.pick]
    simp only [bind_eq_ok, checkedAdd_eq_ok]
    by_cases hr : r < box.numberOfCards
    · simp only [hr, if_true, Option.some.injEq]
      constructor
      · rintro ⟨_, ⟨_, rfl⟩, h⟩
        rw [if_pos (by omega), pure_eq_ok] at h
        exact ⟨0, rfl, h.symm⟩
      · rintro ⟨_, rfl, rfl⟩
        exact ⟨_, ⟨by omega, rfl⟩, by rw [if_pos (by omega)]; rfl⟩
    · have hsplit : n + r = n + box.numberOfCards + (r - box.numberOfCards) := by omega
      simp only [hr, if_false, Option.map_eq_some_iff]
      constructor
      · rintro ⟨_, ⟨_, rfl⟩, h⟩
        rw [if_neg (by omega), hsplit, ih (by omega)] at h
        obtain ⟨j, hj, rfl⟩ := h
        exact ⟨j + 1, ⟨j, hj, rfl⟩, by omega⟩
      · rintro ⟨_, ⟨j, hj, rfl⟩, rfl⟩
        refine ⟨_, ⟨by omega, rfl⟩, ?_⟩
        rw [if_neg (by omega), hsplit, ih (by omega)]
        exact ⟨j, hj, by omega⟩

/-- The draw succeeds if and only if there is a card and the count does not overflow; it then picks
the box that the card at the random position belongs to. -/
theorem getRandomBox_eq_ok {word i : Nat} {isLast : Bool} :
    getRandomBox boxes word = .ok (i, isLast) ↔
      0 < cards boxes ∧ cards boxes < UINT256_SIZE ∧ isLast = (cards boxes == 1) ∧
        Draw.pick (boxes.map AssetBox.numberOfCards) (word % cards boxes) = some i := by
  have htotal : ∀ total, boxes.foldlM (fun total box => checkedAdd total box.numberOfCards) 0 =
      .ok total ↔ total = cards boxes ∧ (boxes = [] ∨ total < UINT256_SIZE) := by
    intro total
    rw [foldlM_checkedAdd_eq_ok, cards_eq_sum, Nat.zero_add]
  simp only [getRandomBox, getRandomBoxIndex, getRandomCardIndex, bind_eq_ok, pure_eq_ok,
    htotal, checkedMod_eq_ok]
  constructor
  · rintro ⟨⟨_, _⟩, ⟨⟨_, _⟩, ⟨_, ⟨rfl, hlt⟩, _, ⟨hne, rfl⟩, hpair⟩, _, hbox, hpair'⟩, hpair''⟩
    cases hpair
    cases hpair'
    cases hpair''
    have hlt : cards boxes < UINT256_SIZE := by
      rcases hlt with rfl | hlt
      · simp [cards] at hne
      · exact hlt
    rw [← Nat.zero_add (word % cards boxes)] at hbox
    obtain ⟨j, hj, rfl⟩ := (boxOfCard_eq_ok (by omega)).mp hbox
    exact ⟨by omega, hlt, rfl, by simpa using hj⟩
  · rintro ⟨hpos, hlt, rfl, hpick⟩
    refine ⟨_, ⟨_, ⟨_, ⟨rfl, .inr hlt⟩, _, ⟨by omega, rfl⟩, rfl⟩, i, ?_, rfl⟩, rfl⟩
    rw [← Nat.zero_add (word % cards boxes)]
    exact (boxOfCard_eq_ok (by omega)).mpr ⟨i, hpick, (Nat.zero_add i).symm⟩

theorem getRandomBox_eq {word : Nat} : getRandomBox boxes word = getRandomBoxIndex boxes word := by
  unfold getRandomBox
  cases getRandomBoxIndex boxes word <;> rfl

/-- A draw from boxes that have a card, and no more than can be counted, picks a box that has one, and
tells whether it is the last. Among as many consecutive words as there are cards, as many pick a box as
it has cards. -/
theorem draw_is_weighted {total : Nat} (htotal : (boxes.map AssetBox.numberOfCards).sum = total)
    (hpos : 0 < total) (hfits : total < 2 ^ 256) :
    (∀ word, ∃ (i : Nat) (hi : i < boxes.length) (isLast : Bool),
      getRandomBoxIndex boxes word = .ok (i, isLast) ∧ 1 ≤ boxes[i].numberOfCards ∧
        (isLast = true ↔ total = 1)) ∧
    ∀ (start i : Nat) (hi : i < boxes.length),
      ((Finset.Ico start (start + total)).filter fun word =>
        (getRandomBoxIndex boxes word).map Prod.fst = .ok i).card = boxes[i].numberOfCards := by
  have hcards : cards boxes = total := cards_eq_sum.trans htotal
  have hdraw : ∀ word i isLast, getRandomBoxIndex boxes word = .ok (i, isLast) ↔
      isLast = (total == 1) ∧
        Draw.pick (boxes.map AssetBox.numberOfCards) (word % total) = some i := by
    intro word i isLast
    rw [← getRandomBox_eq, getRandomBox_eq_ok, hcards]
    exact ⟨fun h => h.2.2, fun h => ⟨hpos, hfits, h⟩⟩
  constructor
  · intro word
    obtain ⟨i, hpick⟩ := Draw.exists_pick ((Nat.mod_lt word hpos).trans_eq htotal.symm)
    obtain ⟨hi, hlow, hhigh⟩ := Draw.pick_eq_some_iff.mp hpick
    rw [List.getElem_map] at hhigh
    rw [List.length_map] at hi
    exact ⟨i, hi, total == 1, (hdraw word i _).mpr ⟨rfl, hpick⟩, by omega, beq_iff_eq⟩
  · intro start i hi
    have hlen : i < (boxes.map AssetBox.numberOfCards).length := by simpa using hi
    have hcount := Draw.card_draws start hlen
    rw [htotal, List.getElem_map] at hcount
    rw [← hcount]
    congr 1
    refine Finset.filter_congr fun word _ => ?_
    constructor
    · intro hword
      cases hbox : getRandomBoxIndex boxes word with
      | error e =>
        rw [hbox] at hword
        cases hword
      | ok d =>
        rw [hbox] at hword
        cases hword
        exact ((hdraw word d.1 d.2).mp hbox).2
    · intro hpick
      rw [(hdraw word i (total == 1)).mpr ⟨rfl, hpick⟩]
      rfl

/-- Five cards, none of them in the middle box. -/
def threeBoxes : List AssetBox := [⟨1, .ERC20, 2, 5⟩, ⟨1, .ERC20, 0, 6⟩, ⟨6, .ERC20, 3, 7⟩]

theorem draw_is_weighted_threeBoxes :
    (∀ word, ∃ (i : Nat) (hi : i < threeBoxes.length) (isLast : Bool),
      getRandomBoxIndex threeBoxes word = .ok (i, isLast) ∧ 1 ≤ threeBoxes[i].numberOfCards ∧
        (isLast = true ↔ 5 = 1)) ∧
    ((Finset.Ico 100 (100 + 5)).filter fun word =>
      (getRandomBoxIndex threeBoxes word).map Prod.fst = .ok 2).card = 3 := by
  have hfive : (threeBoxes.map AssetBox.numberOfCards).sum = 5 := by decide
  obtain ⟨hdraw, hcount⟩ := draw_is_weighted hfive (by decide) (by decide)
  exact ⟨hdraw, hcount 100 2 (by decide)⟩

end Redeemy
