import Redeemy.Proof.Frames

/-!
# A fulfilment pays the card it removes

The draw works on a copy of the boxes in memory and the update on the boxes in storage. Together they
take one card out of the pool, the one that is paid, and leave every other card where it is.
-/

namespace Redeemy

open Fallible EnumerableSet SwapRemove

variable {F : Type → Type}
variable {w w' : World F} {pool pool' : AssetPoolV1 F} {boxes boxes' : List AssetBox} {box : AssetBox}
variable {self sender receiver c : Address} {t : AssetType} {tokens : Tokens} {card : Card}
variable {a i requestId : Nat} {words : List Nat}

/-! ### The boxes -/

def AssetBox.hasCards (box : AssetBox) : Bool := 1 ≤ box.numberOfCards

/-- The box and the boxes of `others` become the boxes of `others`, and the box with a card less if it
has more than one. -/
def AssetBox.less (box : AssetBox) (others : List AssetBox) : List AssetBox :=
  if box.numberOfCards = 1 then others
  else { box with numberOfCards := box.numberOfCards - 1 } :: others

/-- What taking a card out of a box does to the boxes that have cards. -/
theorem updateAssetBox_perm (h : updateAssetBox boxes i = .ok (box, boxes'))
    (hcard : 1 ≤ box.numberOfCards) :
    ∃ others, (boxes.filter AssetBox.hasCards).Perm (box :: others) ∧
      (boxes'.filter AssetBox.hasCards).Perm (box.less others) := by
  obtain ⟨hi, rfl, hcase⟩ := updateAssetBox_cases h
  have hperm : (boxes[i] :: boxes.eraseIdx i).Perm boxes := List.getElem_cons_eraseIdx_perm hi
  refine ⟨(boxes.eraseIdx i).filter AssetBox.hasCards, ?_, ?_⟩
  · refine (hperm.symm.filter _).trans (.of_eq ?_)
    exact List.filter_cons_of_pos (decide_eq_true hcard)
  · rcases hcase with ⟨hmany, rfl⟩ | ⟨hone, rfl⟩
    · rw [AssetBox.less, if_neg (by omega)]
      refine ((List.set_perm_cons_eraseIdx hi _).filter _).trans (.of_eq ?_)
      exact List.filter_cons_of_pos (decide_eq_true (Nat.le_sub_one_of_lt hmany))
    · rw [AssetBox.less, if_pos (by omega)]
      exact (List.Perm.cons_inv ((cons_swapRemove_perm hi).trans hperm.symm)).filter _

variable [EnumerableSet F]

/-- One card of `a` under the contract `c` is removed from the pool, and nothing else. -/
structure RemovesCard (pool pool' : AssetPoolV1 F) (t : AssetType) (c : Address) (a : Nat) : Prop where
  stock : pool.stock = pool'.stock + Pi.single (t, c) {a}
  /-- the card is one of `box`, and the other boxes with cards are still there, once each -/
  boxes : ∃ box others, box.amountOrTokenId = a ∧ 1 ≤ box.numberOfCards ∧
    ((pool.assetBoxes t c).filter AssetBox.hasCards).Perm (box :: others) ∧
    ((pool'.assetBoxes t c).filter AssetBox.hasCards).Perm (box.less others)
  otherLists : ∀ t' c', ¬(t' = t ∧ c' = c) → pool'.assetBoxes t' c' = pool.assetBoxes t' c'
  total : pool'.totalNumberOfAssets = pool.totalNumberOfAssets
  listed : c ∈ values (pool.contractAddresses t)
  /-- the contract is forgotten with its last card -/
  forgotten : c ∉ values (pool'.contractAddresses t) ↔ cards (pool'.assetBoxes t c) = 0
  otherContracts : ∀ t' c', ¬(t' = t ∧ c' = c) →
    (c' ∈ values (pool'.contractAddresses t') ↔ c' ∈ values (pool.contractAddresses t'))

theorem Drawn.removesCard (h : Drawn pool pool' card) :
    RemovesCard pool pool' card.assetType card.contractAddress card.box.amountOrTokenId where
  stock := h.stock_eq
  boxes := by
    obtain ⟨boxes, hupdate, hleft⟩ := h.left
    obtain ⟨others, hbefore, hafter⟩ := updateAssetBox_perm hupdate h.hasCard
    refine ⟨card.box, others, rfl, h.hasCard, hbefore, ?_⟩
    rw [hleft]
    unfold AssetPoolV1.afterDraw
    split_ifs with hlast
    · -- after the last card no box has one, so nothing is lost with the list
      have hone : cards (pool.assetBoxes card.assetType card.contractAddress) = cards boxes + 1 :=
        weigh_updateAssetBox (g := fun _ _ => 1) hupdate h.hasCard
      have hnone : boxes.filter AssetBox.hasCards = [] := by
        refine List.filter_eq_nil_iff.mpr fun b hb hpos => ?_
        have hle := le_cards hb
        have hpos : 1 ≤ b.numberOfCards := of_decide_eq_true hpos
        have hlast := beq_iff_eq.mp hlast
        omega
      rw [hnone] at hafter
      rw [AssetPoolV1.assetBoxes_setBoxes_self]
      exact hafter
    · rw [AssetPoolV1.assetBoxes_setBoxes_self]
      exact hafter
  otherLists := fun _ _ hne => h.assetBoxes_of_ne hne
  total := h.total_eq
  listed := h.listed
  forgotten := by
    have hone : cards (pool.assetBoxes card.assetType card.contractAddress) =
        cards (pool'.assetBoxes card.assetType card.contractAddress) + 1 := h.weigh_eq fun _ _ => 1
    rw [h.mem_contractAddresses]
    simp only [h.listed, true_and, and_true, not_not]
    omega
  otherContracts := fun t' c' hne => by
    rw [h.mem_contractAddresses]
    exact ⟨fun hmem => hmem.2, fun hmem => ⟨fun hsame => hne ⟨hsame.1, hsame.2.1⟩, hmem⟩⟩

/-! ### The transfer -/

/-- The token contracts once `a` of the asset under the contract `c` is sent from `self` to `receiver`.
A contract that does not follow its standard is asked to send it, and may send nothing. -/
inductive Sends (self receiver : Address) (tokens : Tokens) (log : List Movement) :
    AssetType → Address → Nat → Tokens → Prop where
  | erc20 {tok : ERC20} {c : Address} {a : Nat} (htok : tokens.erc20 c = some tok)
      (hmoves : (tok.answers.headD ⟨true, true⟩).moves = true) (hbalance : a ≤ tok.balanceOf self) :
      Sends self receiver tokens log .ERC20 c a { tokens.setERC20 c { tok with
        answers := tok.answers.tail
        balanceOf := Ledger.move tok.balanceOf self receiver a } with log }
  | silentERC20 {tok : ERC20} {c : Address} {a : Nat} (htok : tokens.erc20 c = some tok)
      (hmoves : (tok.answers.headD ⟨true, true⟩).moves = false) :
      Sends self receiver tokens log .ERC20 c a
        { tokens.setERC20 c { tok with answers := tok.answers.tail } with log }
  | native {c : Address} {a : Nat} (hbalance : a ≤ tokens.native self) :
      Sends self receiver tokens log .NativeToken c a
        { tokens with native := Ledger.move tokens.native self receiver a, log }
  | erc721 {tok : ERC721} {c : Address} {tokenId : Nat} (htok : tokens.erc721 c = some tok)
      (hstandard : tok.standard = true) (howner : tok.ownerOf tokenId = some self) :
      Sends self receiver tokens log .ERC721 c tokenId { tokens.setERC721 c { tok with
        ownerOf := Function.update tok.ownerOf tokenId (some receiver)
        getApproved := Function.update tok.getApproved tokenId none } with log }
  | silentERC721 {tok : ERC721} {c : Address} {tokenId : Nat} (htok : tokens.erc721 c = some tok)
      (hstandard : tok.standard = false) :
      Sends self receiver tokens log .ERC721 c tokenId { tokens.setERC721 c tok with log }

theorem recordIf_eq {moves : Bool} {m : Movement} :
    tokens.recordIf moves m = { tokens with log := (tokens.recordIf moves m).log } := by
  cases moves <;> rfl

omit [EnumerableSet F] in
theorem payCard_sends (h : w.payCard self receiver requestId card = .ok tokens) :
    Sends self receiver w.tokens tokens.log card.assetType card.contractAddress
      card.box.amountOrTokenId tokens := by
  obtain ⟨t, c, i, box⟩ := card
  obtain ⟨tokens₁, moves, rfl, hcase⟩ := payCard_cases h
  rw [recordIf_eq]
  generalize (tokens₁.recordIf moves _).log = log
  cases t with
  | ERC20 =>
    obtain ⟨answer, hcall, _⟩ := hcase
    obtain ⟨tok, tok', htok, hanswer, rfl, ⟨hmoves, htransfer⟩ | ⟨hmoves, rfl⟩⟩ :=
      Tokens.erc20Call_eq_ok hcall
    · obtain ⟨hbalance, rfl⟩ := ERC20.transfer_eq_ok htransfer
      exact .erc20 htok (hanswer ▸ hmoves) hbalance
    · exact .silentERC20 htok (hanswer ▸ hmoves)
  | NativeToken =>
    obtain ⟨hbalance, rfl⟩ := Tokens.send_eq_ok hcase.2.2
    exact .native hbalance
  | ERC721 =>
    obtain ⟨tok, tok', htok, hcall, rfl⟩ := Tokens.erc721TransferFrom_eq_ok hcase.2.2
    cases hstandard : tok.standard with
    | true =>
      obtain ⟨howner, _, rfl⟩ := ERC721.transferFrom_eq_ok hcall hstandard
      exact .erc721 htok hstandard howner
    | false =>
      unfold ERC721.transferFrom at hcall
      rw [hstandard, if_neg (by simp), pure_eq_ok] at hcall
      subst hcall
      exact .silentERC721 htok hstandard

/-! ### The function -/

/-- A fulfilment that succeeds removes one card of its pool, sends that card to the receiver, and returns
it. No other pool changes. -/
theorem fulfilment_pays_the_card_it_removes
    (h : w.fulfillRedeemAsset self sender requestId receiver words = .ok ((t, c, a), w')) :
    ∃ pool pool', w.assetPools self = some pool ∧
      w'.assetPools = Function.update w.assetPools self (some pool') ∧
      RemovesCard pool pool' t c a ∧
      Sends self receiver w.tokens w'.tokens.log t c a w'.tokens := by
  unfold World.fulfillRedeemAsset at h
  simp only [bind_eq_ok, require_eq_ok, pure_eq_ok, World.assetPool_eq_ok, World.rewardPool_eq_ok,
    World.registryAt_eq_ok, Prod.exists, Prod.mk.injEq] at h
  obtain ⟨pool, hpool, _, _, _, ⟨_, rfl⟩, _, _, card, pool', hdraw, tokens, hpay, ⟨rfl, rfl, rfl⟩,
    rfl⟩ := h
  exact ⟨pool, pool', hpool, rfl, (drawCard_eq_ok hdraw).removesCard, payCard_sends hpay⟩

/-- A pool with three cards of two prizes, of which one is paid for. -/
def drawable : World ListSet :=
  (World.after (fun _ _ => True) [
    World.opening .CustomERC20,
    World.poolCall 1 (.depositAssets 11
      (World.nativeBoxes [⟨1, .NativeToken, 2, 2⟩, ⟨1, .NativeToken, 1, 7⟩])),
    World.poolCall 1 (.transferRedeemTokenNumber 5 1),
    World.poolCall 5 (.redeemAsset 0 1 [77])]).state

/-- What the consumer's call returns and leaves, for words that draw the second prize. -/
def wonSeven : (AssetType × Address × Nat) × World ListSet :=
  (drawable.fulfillRedeemAsset 1004 1001 77 5 [0, 0, 2]).toOption.getD
    ((.NativeToken, 1004, 7), drawable)

theorem fulfilment_pays_the_card_it_removes_wonSeven :
    ∃ pool pool', drawable.assetPools 1004 = some pool ∧
      wonSeven.2.assetPools = Function.update drawable.assetPools 1004 (some pool') ∧
      RemovesCard pool pool' .NativeToken 1004 7 ∧
      Sends 1004 5 drawable.tokens wonSeven.2.tokens.log .NativeToken 1004 7 wonSeven.2.tokens := by
  have hpaid : wonSeven.1 = (.NativeToken, 1004, 7) := by decide
  have hcall : drawable.fulfillRedeemAsset 1004 1001 77 5 [0, 0, 2] = .ok wonSeven :=
    eq_ok_of_isSome (by decide)
  exact fulfilment_pays_the_card_it_removes (hcall.trans (congrArg _ (Prod.ext hpaid rfl)))

end Redeemy
