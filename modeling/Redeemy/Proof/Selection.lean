import Redeemy.Proof.Reservation
import Redeemy.Proof.TokenCode

/-!
# What can be drawn

Every card of a pool can be drawn: the contract of a box with cards is listed under its type. The
converse holds only where deposits and withdrawals leave no listed contract without cards, and then
every callback draws a card.
-/

namespace Redeemy

open Fallible EnumerableSet SwapRemove

variable {F : Type → Type} [EnumerableSet F]
variable {w w' : World F} {pool pool' : AssetPoolV1 F} {a p self sender k c : Address}
variable {t : AssetType} {assets : Assets} {call : Call} {s s' : AssetPoolV1 F × Tokens}

/-! ### Contracts with cards are listed -/

/-- Every contract with cards is listed. -/
def CardsListed (pool : AssetPoolV1 F) : Prop :=
  ∀ t c, 0 < cards (pool.assetBoxes t c) → c ∈ values (pool.contractAddresses t)

theorem CardsListed.storeBoxes {admin : Address} {boxes : List AssetBox} (hpool : CardsListed pool)
    (h : storeBoxes admin (pool.addContract t c) t c boxes = .ok pool') : CardsListed pool' := by
  obtain ⟨stored, _, rfl⟩ := storeBoxes_eq_ok h
  intro t' c' hpos
  rw [AssetPoolV1.contractAddresses_setBoxes, AssetPoolV1.mem_contractAddresses_addContract]
  by_cases hk : t' = t ∧ c' = c
  · exact .inl hk
  · rw [AssetPoolV1.assetBoxes_setBoxes_of_ne hk, AssetPoolV1.assetBoxes_addContract] at hpos
    exact .inr (hpool t' c' hpos)

theorem CardsListed.depositStep {admin : Address} (h : DepositStep self admin assets s s')
    (hs : CardsListed s.1) : CardsListed s'.1 := by
  cases h with
  | erc20 c boxes _ _ hstore => exact hs.storeBoxes hstore
  | erc721Contract c =>
    intro t' c' hpos
    rw [AssetPoolV1.assetBoxes_addContract] at hpos
    exact AssetPoolV1.mem_contractAddresses_addContract.mpr (.inr (hs t' c' hpos))
  | erc721Token c tokenId hlisted =>
    intro t' c' hpos
    by_cases hk : t' = .ERC721 ∧ c' = c
    · obtain ⟨rfl, rfl⟩ := hk
      exact hlisted
    · rw [AssetPoolV1.assetBoxes_setBoxes_of_ne hk] at hpos
      exact hs t' c' hpos

/-- Cards that were not there before have not become listed. -/
theorem CardsListed.setBoxes {boxes : List AssetBox}
    (hle : cards boxes ≤ cards (pool.assetBoxes t c)) (hpool : CardsListed pool) :
    CardsListed (pool.setBoxes t c boxes) := by
  intro t' c' hpos
  rw [AssetPoolV1.assetBoxes_setBoxes] at hpos
  split_ifs at hpos with hk
  · obtain ⟨rfl, rfl⟩ := hk
    exact hpool t' c' (hpos.trans_le hle)
  · exact hpool t' c' hpos

theorem cards_lowerCards_le {boxes boxes' : List AssetBox} {i n : Nat}
    (h : lowerCards boxes i n = .ok boxes') : cards boxes' ≤ cards boxes := by
  obtain ⟨_, hcards⟩ := weigh_lowerCards (g := fun _ _ => (1 : Nat)) h
  unfold cards
  omega

theorem CardsListed.withdrawStep {accepts : Address → Bool}
    (h : WithdrawStep accepts self assets s s') (hs : CardsListed s.1) : CardsListed s'.1 := by
  cases h with
  | erc20 c boxes box _ _ _ _ _ hlower => exact hs.setBoxes (cards_lowerCards_le hlower)
  | erc721 c tokenIds tokenId _ _ hstored =>
    obtain ⟨hi, _⟩ := List.getElem?_eq_some_iff.mp hstored
    refine hs.setBoxes ?_
    unfold cards
    rw [weigh_swapRemove hi]
    exact Nat.le_add_right _ _
  | native box _ _ _ _ _ hlower => exact hs.setBoxes (cards_lowerCards_le hlower)

/-- A list loses a card to the draw, or is another list. -/
theorem Drawn.cards_eq {card : Card} (h : Drawn pool pool' card) (t : AssetType) (c : Address) :
    (¬(t = card.assetType ∧ c = card.contractAddress) ∧
      pool'.assetBoxes t c = pool.assetBoxes t c) ∨
    ((t = card.assetType ∧ c = card.contractAddress) ∧
      cards (pool.assetBoxes t c) = cards (pool'.assetBoxes t c) + 1) := by
  by_cases hk : t = card.assetType ∧ c = card.contractAddress
  · obtain ⟨rfl, rfl⟩ := hk
    exact .inr ⟨⟨rfl, rfl⟩, h.weigh_eq fun _ _ => 1⟩
  · exact .inl ⟨hk, h.assetBoxes_of_ne hk⟩

theorem CardsListed.drawn {card : Card} (h : Drawn pool pool' card) (hs : CardsListed pool) :
    CardsListed pool' := by
  intro t c hpos
  rw [h.mem_contractAddresses]
  rcases h.cards_eq t c with ⟨hk, heq⟩ | ⟨⟨rfl, rfl⟩, heq⟩
  · exact ⟨fun hlast => hk ⟨hlast.1, hlast.2.1⟩, hs t c (heq ▸ hpos)⟩
  · exact ⟨fun hlast => by omega, hs _ _ (by omega)⟩

theorem cardsListed_rule : StepRule (F := F) p CardsListed where
  initial := fun _ _ _ _ t c hpos => by simp [AssetPoolV1.initial, cards] at hpos
  congr := fun pool pool' hboxes hcontracts hpool => by
    unfold CardsListed
    rwa [hboxes, hcontracts]
  deposit := fun _ _ _ _ => CardsListed.depositStep
  native := fun _ _ _ _ h hpool => hpool.storeBoxes h
  withdraw := fun _ _ _ _ => CardsListed.withdrawStep
  drawn := fun _ _ _ => CardsListed.drawn

theorem kept_cardsListed {P : World F → Call → Prop} :
    Kept P (fun w : World F => Sane w ∧ OnPool p CardsListed w) :=
  kept_sane.rule (fun _ => id) cardsListed_rule.poolRule.rule

/-! ### Every stored card can be won -/

theorem mem_getDepositedAssetTypes :
    t ∈ pool.getDepositedAssetTypes ↔ values (pool.contractAddresses t) ≠ [] := by
  rw [AssetPoolV1.getDepositedAssetTypes, List.mem_filter, EnumerableSet.length, decide_eq_true_eq,
    List.length_pos_iff]
  cases t <;> simp

theorem length_getDepositedAssetTypes_le : pool.getDepositedAssetTypes.length ≤ 3 :=
  List.length_filter_le _ _

theorem length_values_lt (s : F Address) : (values s).length < UINT256_SIZE := by
  have hle := (nodup_values s).length_le_card
  rw [Fintype.card_fin] at hle
  exact hle.trans_lt (by decide)

theorem getElem?_mod {α : Type} {l : List α} {n : Nat} {a : α} (h : l[n]? = some a) :
    l[n % l.length]? = some a := by
  obtain ⟨hn, _⟩ := List.getElem?_eq_some_iff.mp h
  rwa [Nat.mod_eq_of_lt hn]

/-- Three words that draw a given box of a listed contract. -/
theorem exists_words {i : Nat} {box : AssetBox} (hlisted : c ∈ values (pool.contractAddresses t))
    (hbox : (pool.assetBoxes t c)[i]? = some box) (hpos : 1 ≤ box.numberOfCards)
    (hfits : cards (pool.assetBoxes t c) < UINT256_SIZE) :
    ∃ words : List Nat, words.length = 3 ∧ (∀ word ∈ words, word < UINT256_SIZE) ∧
      ∃ pool', pool.drawCard words = .ok (⟨t, c, i, box⟩, pool') := by
  obtain ⟨hi, rfl⟩ := List.getElem?_eq_some_iff.mp hbox
  have htype : t ∈ pool.getDepositedAssetTypes :=
    mem_getDepositedAssetTypes.mpr (List.ne_nil_of_mem hlisted)
  obtain ⟨n, ht⟩ := List.mem_iff_getElem?.mp htype
  obtain ⟨m, hm⟩ := List.mem_iff_getElem?.mp hlisted
  obtain ⟨hn, _⟩ := List.getElem?_eq_some_iff.mp ht
  obtain ⟨hm', _⟩ := List.getElem?_eq_some_iff.mp hm
  -- the third word is the number of cards before the box
  have hlen : i < ((pool.assetBoxes t c).map AssetBox.numberOfCards).length := by simpa using hi
  have hpos' : 0 < ((pool.assetBoxes t c).map AssetBox.numberOfCards)[i] := by
    rw [List.getElem_map]
    exact hpos
  have hlt := Draw.sum_take_lt hlen hpos'
  rw [← cards_eq_sum] at hlt
  have hpick := Draw.pick_sum_take hlen hpos'
  rw [← Nat.mod_eq_of_lt hlt] at hpick
  generalize (((pool.assetBoxes t c).map AssetBox.numberOfCards).take i).sum = start at hlt hpick
  have hthird : [n, m, start][2]? = some start := rfl
  refine ⟨[n, m, start], rfl, ?_, ?_⟩
  · intro word hword
    have hthree : pool.getDepositedAssetTypes.length ≤ 3 := length_getDepositedAssetTypes_le
    have hmany := length_values_lt (pool.contractAddresses t)
    simp only [List.mem_cons, List.not_mem_nil, or_false] at hword
    rcases hword with rfl | rfl | rfl
    · exact (hn.trans_le hthree).trans (by decide)
    · exact hm'.trans hmany
    · exact hlt.trans hfits
  · obtain ⟨_, pool', hbox', hdraw⟩ := drawCard_of_words rfl rfl hthird
      (getElem?_mod ht) (getElem?_mod hm) (Nat.zero_lt_of_lt hlt) hfits hpick
    rw [List.getElem?_eq_getElem hi, Option.some.injEq] at hbox'
    exact ⟨pool', hbox' ▸ hdraw⟩

/-- Whatever has happened to a pool, a box that has a card is in a listed contract of a deposited
type, and some random words draw it. The tokens must call nobody: a draw in the middle of a deposit could
unlist the ERC721 whose box is about to be pushed. -/
theorem stored_card_can_be_won {code : TokenCode F} (hquiet : code.CallsNobody)
    {cfg : CallStack.Config (World F) Call} (h : Callback.Run code (fun _ _ => True) cfg)
    (hpool : cfg.state.assetPools p = some pool) {i : Nat} {box : AssetBox}
    (hbox : (pool.assetBoxes t c)[i]? = some box) (hpos : 1 ≤ box.numberOfCards)
    (hfits : ((pool.assetBoxes t c).map AssetBox.numberOfCards).sum < 2 ^ 256) :
    c ∈ values (pool.contractAddresses t) ∧ t ∈ pool.getDepositedAssetTypes ∧
      ∃ words : List Nat, words.length = 3 ∧ (∀ word ∈ words, word < 2 ^ 256) ∧
        ∃ pool', pool.drawCard words = .ok (⟨t, c, i, box⟩, pool') := by
  rw [← cards_eq_sum] at hfits
  have hcards : 0 < cards (pool.assetBoxes t c) := hpos.trans (le_cards (List.mem_of_getElem? hbox))
  have hrun : World.Run (fun _ _ => True) cfg := (Callback.run_iff hquiet).mp h
  have hlisted := (kept_cardsListed.run hrun).2 pool hpool t c hcards
  exact ⟨hlisted, mem_getDepositedAssetTypes.mpr (List.ne_nil_of_mem hlisted),
    exists_words hlisted hbox hpos hfits⟩

/-- Two kinds of native prizes, the first of which has been withdrawn in part, and two ERC721 tokens. -/
def threePrizes : CallStack.Config (World ListSet) Call :=
  World.after (fun _ _ => True) [
    World.opening .CustomERC20,
    .call ⟨1, .erc721 11 (.setApprovalForAll 1004 true)⟩,
    World.poolCall 1 (.depositAssets 13 {
      erc20ContractAddresses := [], erc20Boxes := []
      erc721ContractAddresses := [11], erc721TokenIds := [[3, 4]]
      nativeTokenBoxes := [⟨1, .NativeToken, 3, 2⟩, ⟨1, .NativeToken, 1, 7⟩] }),
    World.poolCall 1 (.withdrawAssets (World.nativeBoxes [⟨1, .NativeToken, 1, 2⟩]))]

theorem isSome_threePrizes : (threePrizes.state.assetPools 1004).isSome = true := by decide

theorem stored_card_can_be_won_threePrizes :
    11 ∈ values (((threePrizes.state.assetPools 1004).get isSome_threePrizes).contractAddresses
      .ERC721) ∧
    .ERC721 ∈ ((threePrizes.state.assetPools 1004).get isSome_threePrizes).getDepositedAssetTypes ∧
    ∃ words : List Nat, words.length = 3 ∧ (∀ word ∈ words, word < 2 ^ 256) ∧
      ∃ pool', ((threePrizes.state.assetPools 1004).get isSome_threePrizes).drawCard words =
        .ok (⟨.ERC721, 11, 1, ⟨1, .ERC721, 1, 4⟩⟩, pool') :=
  stored_card_can_be_won TokenCode.callsNobody_quiet
    ((Callback.run_iff TokenCode.callsNobody_quiet).mpr (World.run_after (fun _ _ => True) _))
    (Option.some_get isSome_threePrizes).symm (by decide) (by decide) (by decide)

/-! ### When every draw succeeds -/

/-- The contracts a deposit or a withdrawal names. A deposit always lists the native token. -/
def Assets.named (self : Address) (assets : Assets) : List (AssetType × Address) :=
  assets.erc20ContractAddresses.map (AssetType.ERC20, ·) ++
    (.NativeToken, self) :: assets.erc721ContractAddresses.map (AssetType.ERC721, ·)

theorem sum_single_eq_zero {α : Type} {l : List α} {key : α → AssetType × Address}
    {f : α → Multiset Nat} {k : AssetType × Address} (h : ∀ d ∈ l, key d ≠ k) :
    ((l.map fun d => (Pi.single (key d) (f d) : AssetType × Address → Multiset Nat)).sum) k = 0 := by
  induction l with
  | nil => rfl
  | cons d l ih =>
    rw [List.map_cons, List.sum_cons, Pi.add_apply,
      Pi.single_eq_of_ne (h d List.mem_cons_self).symm, zero_add]
    exact ih fun d' hd' => h d' (List.mem_cons_of_mem d hd')

/-- What is not named stays as it is. -/
theorem prizes_eq_zero {key : AssetType × Address} (h : key ∉ assets.named self) :
    assets.prizes self key = 0 := by
  simp only [Assets.named, List.mem_append, List.mem_cons, List.mem_map, not_or, not_exists,
    not_and] at h
  obtain ⟨h20, hnative, h721⟩ := h
  rw [Assets.prizes, Pi.add_apply, Pi.add_apply, sum_single_eq_zero, sum_single_eq_zero,
    Pi.single_eq_of_ne hnative, zero_add, zero_add]
  · exact fun d hd => h721 d.1 (List.of_mem_zip hd).1
  · exact fun d hd => h20 d.1 (List.of_mem_zip hd).1

/-- After the deposit every contract it names has a card, and not too many to count. -/
def Fills (self : Address) (pool : AssetPoolV1 F) (assets : Assets) : Prop :=
  ∀ key ∈ assets.named self, 0 < ((pool.stock + assets.prizes self) key).card ∧
    ((pool.stock + assets.prizes self) key).card < UINT256_SIZE

/-- The withdrawal takes the last card of no contract. -/
def LeavesCards (self : Address) (pool : AssetPoolV1 F) (assets : Assets) : Prop :=
  ∀ key ∈ assets.named self, (pool.stock key).card = 0 ∨
    (assets.prizes self key).card < (pool.stock key).card

instance (self : Address) (pool : AssetPoolV1 F) (assets : Assets) :
    Decidable (Fills self pool assets) :=
  List.decidableBAll _ _

instance (self : Address) (pool : AssetPoolV1 F) (assets : Assets) :
    Decidable (LeavesCards self pool assets) :=
  List.decidableBAll _ _

/-- The calls after which every listed contract of the pool still has a card. -/
def KeepsDrawable (p : Address) (w : World F) (call : Call) : Prop :=
  Accounted p w call ∧
  match call.action with
  | .assetPool a (.depositAssets _ assets) => a = p → ∀ pool ∈ w.assetPools p, Fills p pool assets
  | .assetPool a (.withdrawAssets assets) => a = p → ∀ pool ∈ w.assetPools p, LeavesCards p pool assets
  | _ => True

instance (p : Address) (w : World F) (call : Call) : Decidable (KeepsDrawable p w call) := by
  unfold KeepsDrawable
  obtain ⟨sender, action⟩ := call
  induction action using Action.casesOn with
  | assetPool a c => induction c using AssetPoolCall.casesOn <;> infer_instance
  | _ => infer_instance

/-- Every listed contract has a card, and its cards can be counted. -/
def Drawable (pool : AssetPoolV1 F) : Prop :=
  ∀ t c, c ∈ values (pool.contractAddresses t) →
    0 < cards (pool.assetBoxes t c) ∧ cards (pool.assetBoxes t c) < UINT256_SIZE

omit [EnumerableSet F] in
theorem card_stock : (pool.stock (t, c)).card = cards (pool.assetBoxes t c) := card_contents

/-- A deposit lists the contracts it names only. -/
theorem DepositSteps.listed {admin : Address} (h : DepositSteps self admin assets s s')
    (hc : c ∈ values (s'.1.contractAddresses t)) :
    c ∈ values (s.1.contractAddresses t) ∨ (t, c) ∈ assets.named self := by
  induction h with
  | refl => exact .inl hc
  | tail _ hstep ih =>
    cases hstep with
    | erc20 c' boxes hmem _ hstore =>
      obtain ⟨stored, _, rfl⟩ := storeBoxes_eq_ok hstore
      rcases AssetPoolV1.mem_contractAddresses_addContract.mp hc with ⟨rfl, rfl⟩ | hc
      · exact .inr (List.mem_append_left _ (List.mem_map_of_mem (List.of_mem_zip hmem).1))
      · exact ih hc
    | erc721Contract c' tokenIds hmem =>
      rcases AssetPoolV1.mem_contractAddresses_addContract.mp hc with ⟨rfl, rfl⟩ | hc
      · exact .inr (List.mem_append_right _ (List.mem_cons_of_mem _
          (List.mem_map_of_mem (List.of_mem_zip hmem).1)))
      · exact ih hc
    | erc721Token => exact ih hc

theorem Deposit.drawable {value : Nat} (h : Deposit w p sender value assets w')
    (hpool : w.assetPools p = some pool) (hpool' : w'.assetPools p = some pool')
    (hfills : Fills p pool assets) (hI : Drawable pool) : Drawable pool' := by
  cases h with
  | mk hself _ _ _ _ _ _ _ h20 hnative _ h721 _ hstock =>
    obtain rfl := Option.some.inj (hpool.symm.trans hself)
    obtain rfl := setPool_self hpool'
    intro t c hc
    have hlisted : c ∈ values (pool.contractAddresses t) ∨ (t, c) ∈ assets.named p := by
      rcases h721.listed hc with hc | hnamed
      · obtain ⟨stored, _, rfl⟩ := storeBoxes_eq_ok hnative
        rcases AssetPoolV1.mem_contractAddresses_addContract.mp hc with ⟨rfl, rfl⟩ | hc
        · exact .inr (List.mem_append_right _ List.mem_cons_self)
        · exact h20.listed hc
      · exact .inr hnamed
    rw [← card_stock, hstock]
    by_cases hnamed : (t, c) ∈ assets.named p
    · exact hfills _ hnamed
    · rw [Pi.add_apply, prizes_eq_zero hnamed, add_zero, card_stock]
      exact hI t c (hlisted.resolve_right hnamed)

omit [EnumerableSet F] in
theorem WithdrawSteps.contractAddresses {accepts : Address → Bool}
    (h : WithdrawSteps accepts self assets s s') :
    s'.1.contractAddresses = s.1.contractAddresses := by
  induction h with
  | refl => rfl
  | tail _ hstep ih =>
    cases hstep <;> exact ih

theorem Withdraw.drawable (h : Withdraw w p sender assets w')
    (hpool : w.assetPools p = some pool) (hpool' : w'.assetPools p = some pool')
    (hone : OneCardEach pool) (hleaves : LeavesCards p pool assets) (hI : Drawable pool) :
    Drawable pool' := by
  cases h with
  | @mk _ _ s' _ hself _ _ hsteps hstock =>
    obtain rfl := Option.some.inj (hpool.symm.trans hself)
    obtain rfl := setPool_self hpool'
    intro t c hc
    have hlisted : c ∈ values (pool.contractAddresses t) := by
      rw [← hsteps.contractAddresses]
      exact hc
    obtain ⟨hpos, hfits⟩ := hI t c hlisted
    have hsplit : cards (pool.assetBoxes t c) =
        cards (s'.pool.assetBoxes t c) + (assets.prizes p (t, c)).card := by
      rw [← card_stock, hstock hone, Pi.add_apply, Multiset.card_add, card_stock]
    have hleft : 0 < cards (s'.pool.assetBoxes t c) := by
      by_cases hnamed : (t, c) ∈ assets.named p
      · have := hleaves _ hnamed
        rw [card_stock] at this
        omega
      · rw [prizes_eq_zero hnamed, Multiset.card_zero] at hsplit
        omega
    exact ⟨hleft, by show cards (s'.pool.assetBoxes t c) < _; omega⟩

theorem Drawable.drawn {card : Card} (h : Drawn pool pool' card) (hI : Drawable pool) :
    Drawable pool' := by
  intro t c hc
  rw [h.mem_contractAddresses] at hc
  obtain ⟨hnotlast, hc⟩ := hc
  obtain ⟨hpos, hfits⟩ := hI t c hc
  rcases h.cards_eq t c with ⟨_, heq⟩ | ⟨⟨rfl, rfl⟩, heq⟩
  · exact heq ▸ ⟨hpos, hfits⟩
  · have hmany : cards (pool.assetBoxes card.assetType card.contractAddress) ≠ 1 :=
      fun hlast => hnotlast ⟨rfl, rfl, hlast⟩
    omega

theorem drawable_rule : PoolRule (KeepsDrawable p) p
    (fun w : World F => (Accountable p w ∧ Stocked p w) ∧ OnPool p CardsListed w) Drawable where
  initial := fun _ _ _ _ t c hc => by simp [AssetPoolV1.initial, values_empty] at hc
  congr := fun pool pool' hboxes hcontracts hpool => by
    unfold Drawable
    rwa [hboxes, hcontracts]
  deposit := fun w call value assets w' pool pool' _ hP hcall h hpool hpool' hI => by
    unfold KeepsDrawable at hP
    rw [hcall] at hP
    exact h.drawable hpool hpool' (hP.2 rfl pool hpool) hI
  withdraw := fun w call assets w' pool pool' hJ hP hcall h hpool hpool' hI => by
    unfold KeepsDrawable at hP
    rw [hcall] at hP
    exact h.drawable hpool hpool' (hJ.1.1.oneCard pool hpool) (hP.2 rfl pool hpool) hI
  drawn := fun _ _ _ => Drawable.drawn

theorem kept_drawable : Kept (KeepsDrawable p) (fun w : World F =>
    ((Accountable p w ∧ Stocked p w) ∧ OnPool p CardsListed w) ∧ OnPool p Drawable w) := by
  have hstocked : Kept (KeepsDrawable p) (fun w : World F => Accountable p w ∧ Stocked p w) :=
    kept_stocked.mono fun _ _ h => h.1
  have hrule : Rule (KeepsDrawable p) (fun w : World F => Accountable p w ∧ Stocked p w)
      (OnPool p CardsListed) := cardsListed_rule.poolRule.rule
  exact (hstocked.rule (fun _ h => h.1.sane) hrule).rule (fun _ h => h.1.1.sane) drawable_rule.rule

/-- A draw from a pool with a deposited type succeeds, whatever the words. -/
theorem Drawable.drawCard (h : Drawable pool) {words : List Nat} (hwords : 3 ≤ words.length)
    (htypes : pool.getDepositedAssetTypes ≠ []) :
    ∃ card pool', pool.drawCard words = .ok (card, pool') := by
  have hmod : ∀ {α : Type} (l : List α) (word : Nat), l ≠ [] →
      ∃ a, l[word % l.length]? = some a := fun l word hl =>
    ⟨_, List.getElem?_eq_getElem (Nat.mod_lt word (List.length_pos_iff.mpr hl))⟩
  obtain ⟨t, ht⟩ := hmod pool.getDepositedAssetTypes words[0] htypes
  have hcontracts := mem_getDepositedAssetTypes.mp (List.mem_of_getElem? ht)
  obtain ⟨c, hc⟩ := hmod (values (pool.contractAddresses t)) words[1] hcontracts
  obtain ⟨hpos, hfits⟩ := h t c (List.mem_of_getElem? hc)
  have hlt := Nat.mod_lt words[2] hpos
  nth_rewrite 2 [cards_eq_sum] at hlt
  obtain ⟨i, hpick⟩ := Draw.exists_pick hlt
  obtain ⟨box, pool', _, hdraw⟩ := drawCard_of_words (List.getElem?_eq_getElem (by omega))
    (List.getElem?_eq_getElem (by omega)) (List.getElem?_eq_getElem (by omega)) ht hc hpos hfits hpick
  exact ⟨_, pool', hdraw⟩

/-- In a run whose deposits leave a card under every contract they name, the native token included,
and whose withdrawals take no contract's last card, a pool with a pending request always has a card to
draw. -/
theorem drawCard_succeeds_of_pending {cfg : CallStack.Config (World F) Call}
    (h : World.Run (KeepsDrawable p) cfg) (hpool : cfg.state.assetPools p = some pool)
    (hpending : 1 ≤ cfg.state.pending p) {words : List Nat} (hwords : 3 ≤ words.length) :
    ∃ card pool', pool.drawCard words = .ok (card, pool') := by
  obtain ⟨⟨⟨_, hstocked⟩, hlisted⟩, hdrawable⟩ := kept_drawable.run h
  obtain ⟨s, hs⟩ := hstocked pool hpool
  -- the card that is reserved for the request is under some contract, which is listed
  obtain ⟨⟨t, c⟩, hitem⟩ := s.exists_item (hs.reserved.symm ▸ hpending)
  rw [hs.items] at hitem
  have hcards : 0 < cards (pool.assetBoxes t c) := by
    rw [← card_stock]
    exact Multiset.card_pos.mpr hitem
  have htype : t ∈ pool.getDepositedAssetTypes :=
    mem_getDepositedAssetTypes.mpr (List.ne_nil_of_mem (hlisted pool hpool t c hcards))
  exact (hdrawable pool hpool).drawCard hwords (List.ne_nil_of_mem htype)

/-- A pool with one native prize, which has been paid for. -/
def paidFor : CallStack.Config (World ListSet) Call :=
  World.after (KeepsDrawable 1004) [
    World.opening .CustomERC20,
    World.poolCall 1 (.depositAssets 2 (World.nativeBoxes [⟨1, .NativeToken, 1, 2⟩])),
    World.poolCall 1 (.transferRedeemTokenNumber 5 1),
    World.poolCall 5 (.redeemAsset 0 1 [77])]

theorem isSome_paidFor : (paidFor.state.assetPools 1004).isSome = true := by decide

theorem drawCard_succeeds_paidFor : ∃ card pool',
    ((paidFor.state.assetPools 1004).get isSome_paidFor).drawCard [8, 9, 10] = .ok (card, pool') :=
  drawCard_succeeds_of_pending (World.run_after (KeepsDrawable 1004) _)
    (Option.some_get isSome_paidFor).symm (by decide) (by decide)

/-- A pool that got two ERC20 prizes and no native ones, and has sold one of them. -/
def withoutNative : CallStack.Config (World ListSet) Call :=
  World.after World.OnceOnly [
    World.opening .CustomERC20,
    .call ⟨1, .erc20 10 (.approve 1004 6)⟩,
    World.poolCall 1 (.depositAssets 0 {
      World.nativeBoxes [] with
      erc20ContractAddresses := [10], erc20Boxes := [[⟨1, .ERC20, 2, 3⟩]] }),
    World.poolCall 1 (.transferRedeemTokenNumber 5 1),
    World.poolCall 5 (.redeemAsset 0 1 [77])]

theorem isSome_withoutNative : (withoutNative.state.assetPools 1004).isSome = true := by
  decide

/-- The deposit has listed the native token all the same, so some words select it, and the draw
divides by its number of cards, which is zero. -/
theorem drawCard_fails_withoutNative : World.Run World.OnceOnly withoutNative ∧
    withoutNative.state.pending 1004 = 1 ∧
    (((withoutNative.state.assetPools 1004).get isSome_withoutNative).drawCard [1, 0, 0]).map
      Prod.fst = .error (.panic 0x12) :=
  ⟨World.run_after World.OnceOnly _, by decide⟩

end Redeemy
