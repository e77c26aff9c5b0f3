import Redeemy.Proof.Locked

/-!
# Boxes of one amount

Fungible boxes are merged by amount, so what a list of boxes says is how many cards there are of each
amount. Storing boxes adds up their cards, in whatever order and however often they are stored.
-/

namespace Redeemy

open Fallible EnumerableSet SwapRemove

variable {F : Type → Type}
variable {boxes boxes' stored incoming : List AssetBox} {box : AssetBox} {a i : Nat}
variable {P : World F → Call → Prop} {cfg : CallStack.Config (World F) Call}

/-! ### The cards of an amount -/

/-- The cards that win `a` each. -/
def cardsOf (boxes : List AssetBox) (a : Nat) : Nat :=
  ((boxes.filter fun b => b.amountOrTokenId = a).map AssetBox.numberOfCards).sum

@[simp] theorem cardsOf_nil : cardsOf [] a = 0 := rfl

theorem cardsOf_cons : cardsOf (box :: boxes) a =
    (if box.amountOrTokenId = a then box.numberOfCards else 0) + cardsOf boxes a := by
  unfold cardsOf
  by_cases h : box.amountOrTokenId = a <;> simp [h]

theorem cardsOf_eq_weigh : cardsOf boxes a = weigh (fun _ b => if b = a then 1 else 0) boxes := by
  induction boxes with
  | nil => rfl
  | cons box boxes ih =>
    rw [cardsOf_cons, weigh_cons, ih, AssetBox.weight]
    simp

/-- Only amounts and numbers of cards matter. -/
theorem cardsOf_congr (h : (boxes.map fun b => (b.amountOrTokenId, b.numberOfCards)).Perm
    (boxes'.map fun b => (b.amountOrTokenId, b.numberOfCards))) : cardsOf boxes a = cardsOf boxes' a := by
  have hsum : ∀ l : List AssetBox, cardsOf l a =
      ((l.map fun b => (b.amountOrTokenId, b.numberOfCards)).map
        fun d => if d.1 = a then d.2 else 0).sum := by
    intro l
    induction l with
    | nil => rfl
    | cons b l ih => simp only [cardsOf_cons, ih, List.map_cons, List.sum_cons]
  rw [hsum, hsum, (h.map _).sum_eq]

theorem cardsOf_eq_zero (h : ∀ b ∈ boxes, b.amountOrTokenId ≠ a) : cardsOf boxes a = 0 := by
  rw [cardsOf, List.filter_eq_nil_iff.mpr fun b hb => by simpa using h b hb]
  rfl

/-! ### Storing one box -/

theorem cardsOf_updateOrAddBox (h : updateOrAddBox boxes box = .ok boxes') :
    cardsOf boxes' a = cardsOf boxes a + cardsOf [box] a := by
  simp only [cardsOf_eq_weigh]
  rw [weigh_updateOrAddBox (fun b _ hkey => by rw [AssetBox.weight, hkey]) h, weigh_cons, weigh_nil,
    add_zero]

/-- The boxes that are there keep their places, and everything but their cards. -/
def Extends (boxes boxes' : List AssetBox) : Prop :=
  ∀ (i : Nat) (b : AssetBox), boxes[i]? = some b → ∃ n, boxes'[i]? = some { b with numberOfCards := n }

theorem extends_updateOrAddBox (h : updateOrAddBox boxes box = .ok boxes') : Extends boxes boxes' := by
  intro j b hb
  obtain ⟨hj, rfl⟩ := List.getElem?_eq_some_iff.mp hb
  rcases updateOrAddBox_cases h with ⟨i, hi, _, rfl⟩ | ⟨_, rfl⟩
  · by_cases hij : i = j
    · subst hij
      exact ⟨_, List.getElem?_set_self hi⟩
    · exact ⟨boxes[j].numberOfCards, by rw [List.getElem?_set_ne hij, hb]⟩
  · exact ⟨boxes[j].numberOfCards, by rw [List.getElem?_append_left hj, hb]⟩

theorem Extends.trans (h : Extends stored boxes) (h' : Extends boxes boxes') :
    Extends stored boxes' := by
  intro i b hb
  obtain ⟨n, hn⟩ := h i b hb
  obtain ⟨m, hm⟩ := h' i _ hn
  exact ⟨m, hm⟩

/-- A box can be stored if its cards can be added to those of its amount. -/
theorem updateOrAddBox_succeeds
    (hfits : cardsOf boxes box.amountOrTokenId + box.numberOfCards < UINT256_SIZE) :
    ∃ boxes', updateOrAddBox boxes box = .ok boxes' := by
  induction boxes with
  | nil => exact ⟨[box], rfl⟩
  | cons b boxes ih =>
    rw [cardsOf_cons] at hfits
    rw [updateOrAddBox]
    split_ifs with hkey
    · rw [if_pos hkey] at hfits
      rw [checkedAdd_eq_ok.mpr ⟨by omega, rfl⟩]
      exact ⟨_, rfl⟩
    · rw [if_neg hkey, Nat.zero_add] at hfits
      obtain ⟨boxes', h⟩ := ih hfits
      rw [h]
      exact ⟨_, rfl⟩

/-! ### Storing boxes -/

/-- The cards of each amount add up without an overflow. -/
def Fits (stored incoming : List AssetBox) : Prop :=
  ∀ a, cardsOf stored a + cardsOf incoming a < UINT256_SIZE

/-- What storing the boxes `incoming` makes of the boxes `stored`. -/
structure Merged (stored incoming boxes : List AssetBox) : Prop where
  distinct : (stored.map AssetBox.amountOrTokenId).Nodup →
    (boxes.map AssetBox.amountOrTokenId).Nodup
  cards : ∀ a, cardsOf boxes a = cardsOf stored a + cardsOf incoming a
  kept : Extends stored boxes

theorem merged_nil : Merged stored [] stored where
  distinct := id
  cards := fun _ => rfl
  kept := fun _ b hb => ⟨b.numberOfCards, hb⟩

theorem Merged.cons (hfirst : updateOrAddBox stored box = .ok boxes) (h : Merged boxes incoming boxes') :
    Merged stored (box :: incoming) boxes' where
  distinct := fun hstored => h.distinct (nodup_updateOrAddBox hstored hfirst)
  cards := fun a => by
    have hadded := cardsOf_updateOrAddBox (a := a) hfirst
    rw [cardsOf_cons, cardsOf_nil] at hadded
    rw [h.cards, hadded, cardsOf_cons, add_zero, add_assoc]
  kept := (extends_updateOrAddBox hfirst).trans h.kept

theorem foldlM_updateOrAddBox (hfits : Fits stored incoming) :
    ∃ boxes, incoming.foldlM updateOrAddBox stored = .ok boxes ∧ Merged stored incoming boxes := by
  induction incoming generalizing stored with
  | nil => exact ⟨stored, rfl, merged_nil⟩
  | cons box incoming ih =>
    have hbox := hfits box.amountOrTokenId
    rw [cardsOf_cons, if_pos rfl] at hbox
    obtain ⟨boxes, hfirst⟩ := updateOrAddBox_succeeds
      (show cardsOf stored box.amountOrTokenId + box.numberOfCards < UINT256_SIZE by omega)
    have hrest : Fits boxes incoming := by
      intro a
      have hfits := hfits a
      have hadded := cardsOf_updateOrAddBox (a := a) hfirst
      rw [cardsOf_cons] at hfits hadded
      rw [cardsOf_nil] at hadded
      omega
    obtain ⟨boxes', hfold, hmerged⟩ := ih hrest
    refine ⟨boxes', ?_, hmerged.cons hfirst⟩
    rw [List.foldlM_cons, hfirst]
    exact hfold

variable [EnumerableSet F]

/-- Boxes that do not overflow are stored as the sums of the cards of each amount, and the order, the
deposits they come in and the depositers make no difference to these. In every state of a pool the
fungible boxes of a contract have different amounts. -/
theorem merging_is_a_sum :
    (∀ stored incoming : List AssetBox, (stored.map AssetBox.amountOrTokenId).Nodup →
      Fits stored incoming →
      ∃ boxes, incoming.foldlM updateOrAddBox stored = .ok boxes ∧
        (boxes.map AssetBox.amountOrTokenId).Nodup ∧
        (∀ a, cardsOf boxes a = cardsOf stored a + cardsOf incoming a) ∧
        (∀ (i : Nat) (b : AssetBox), stored[i]? = some b →
          ∃ n, boxes[i]? = some { b with numberOfCards := n }) ∧
        ∀ parts : List (List AssetBox),
          (parts.flatten.map fun b => (b.amountOrTokenId, b.numberOfCards)).Perm
            (incoming.map fun b => (b.amountOrTokenId, b.numberOfCards)) →
          ∃ boxes', parts.foldlM (fun boxes part => part.foldlM updateOrAddBox boxes) stored =
              .ok boxes' ∧ ∀ a, cardsOf boxes' a = cardsOf boxes a) ∧
    ∀ (cfg : CallStack.Config (World F) Call) (p : Address) (pool : AssetPoolV1 F),
      World.Run (fun _ _ => True) cfg → cfg.state.assetPools p = some pool →
      ∀ t c, t ≠ .ERC721 → ((pool.assetBoxes t c).map AssetBox.amountOrTokenId).Nodup := by
  constructor
  · intro stored incoming hstored hfits
    obtain ⟨boxes, hfold, hmerged⟩ := foldlM_updateOrAddBox hfits
    refine ⟨boxes, hfold, hmerged.distinct hstored, hmerged.cards, hmerged.kept, fun parts hparts => ?_⟩
    have hsame : ∀ a, cardsOf parts.flatten a = cardsOf incoming a := fun a => cardsOf_congr hparts
    have hfits' : ∀ a, cardsOf stored a + cardsOf parts.flatten a < UINT256_SIZE := by
      intro a
      rw [hsame]
      exact hfits a
    obtain ⟨boxes', hfold', hmerged'⟩ := foldlM_updateOrAddBox hfits'
    refine ⟨boxes', (foldlM_flatten parts).trans hfold', fun a => ?_⟩
    rw [hmerged'.cards, hmerged.cards, hsame]
  · intro cfg p pool h hpool
    exact (kept_distinctAmounts.run h).2 pool hpool

theorem merging_is_a_sum_twoBoxes :
    ∃ boxes, [⟨1, .ERC20, 1, 5⟩, ⟨1, .ERC20, 4, 2⟩].foldlM updateOrAddBox [⟨6, .ERC20, 3, 2⟩] =
        .ok boxes ∧ (boxes.map AssetBox.amountOrTokenId).Nodup ∧ cardsOf boxes 2 = 7 := by
  have hfits : Fits [⟨6, .ERC20, 3, 2⟩] [⟨1, .ERC20, 1, 5⟩, ⟨1, .ERC20, 4, 2⟩] := by
    intro a
    simp only [cardsOf_cons, cardsOf_nil]
    split_ifs <;> decide
  obtain ⟨boxes, hfold, hdistinct, hcards, _⟩ :=
    (merging_is_a_sum (F := ListSet)).1 [⟨6, .ERC20, 3, 2⟩] _ (by decide) hfits
  exact ⟨boxes, hfold, hdistinct, hcards 2⟩

end Redeemy
