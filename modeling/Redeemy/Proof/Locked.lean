import Redeemy.Proof.Counting
import Redeemy.Proof.Settlement

/-!
# What a failed callback leaves behind

A redemption takes its cards out of `_totalNumberOfAssets`, and nothing gives them back if the callback
fails. So the owner can withdraw everything a pool stores if no callback failed, and otherwise as many
cards stay behind as callbacks failed.
-/

namespace Redeemy

open Fallible EnumerableSet SwapRemove

variable {F : Type → Type}
variable {w w' : World F} {pool pool' : AssetPoolV1 F} {rp : RewardPoolV1 F} {tokens : Tokens}
variable {p self sender c k : Address} {t : AssetType} {assets : Assets} {call : Call}
variable {box : AssetBox} {boxes boxes' : List AssetBox} {n requestId : Nat}
variable {s s' : AssetPoolV1 F × Tokens} {P : World F → Call → Prop}
variable {cfg : CallStack.Config (World F) Call}

/-! ### Fungible boxes of different amounts -/

/-- No two fungible boxes of a contract have the same amount. -/
def DistinctAmounts (pool : AssetPoolV1 F) : Prop :=
  ∀ t c, t ≠ .ERC721 → ((pool.assetBoxes t c).map AssetBox.amountOrTokenId).Nodup

theorem nodup_set {i : Nat} (hi : i < boxes.length)
    (hbox : box.amountOrTokenId = boxes[i].amountOrTokenId)
    (hboxes : (boxes.map AssetBox.amountOrTokenId).Nodup) :
    ((boxes.set i box).map AssetBox.amountOrTokenId).Nodup := by
  rwa [map_set_of_eq AssetBox.amountOrTokenId box hi hbox]

theorem nodup_updateOrAddBox (hboxes : (boxes.map AssetBox.amountOrTokenId).Nodup)
    (h : updateOrAddBox boxes box = .ok boxes') : (boxes'.map AssetBox.amountOrTokenId).Nodup := by
  rcases updateOrAddBox_cases h with ⟨i, hi, _, rfl⟩ | ⟨hnone, rfl⟩
  · exact nodup_set hi rfl hboxes
  · rw [List.map_append, List.nodup_append']
    refine ⟨hboxes, List.nodup_singleton _, fun a ha ha' => ?_⟩
    obtain ⟨b, hb, rfl⟩ := List.mem_map.mp ha
    exact hnone b hb (List.mem_singleton.mp ha')

theorem nodup_lowerCards (hboxes : (boxes.map AssetBox.amountOrTokenId).Nodup) {i : Nat}
    (h : lowerCards boxes i n = .ok boxes') : (boxes'.map AssetBox.amountOrTokenId).Nodup := by
  obtain ⟨hi, _, ⟨_, rfl⟩ | rfl⟩ := lowerCards_cases h
  · exact (nodup_map_swapRemove _ hi hboxes).2
  · exact nodup_set hi rfl hboxes

theorem DistinctAmounts.setBoxes (h : DistinctAmounts pool)
    (hboxes : t ≠ .ERC721 → (boxes.map AssetBox.amountOrTokenId).Nodup) :
    DistinctAmounts (pool.setBoxes t c boxes) := by
  intro t' c' ht
  rw [AssetPoolV1.assetBoxes_setBoxes]
  split_ifs with hk
  · exact hboxes (hk.1 ▸ ht)
  · exact h t' c' ht

variable [EnumerableSet F]

theorem DistinctAmounts.storeBoxes {admin : Address} (hpool : DistinctAmounts pool)
    (h : storeBoxes admin (pool.addContract t c) t c boxes = .ok pool') : DistinctAmounts pool' := by
  obtain ⟨stored, hstored, rfl⟩ := storeBoxes_eq_ok h
  have hadded : DistinctAmounts (pool.addContract t c) := by
    unfold DistinctAmounts
    rwa [AssetPoolV1.assetBoxes_addContract]
  refine hadded.setBoxes fun ht => ?_
  exact foldlM_invariant (P := fun boxes => (boxes.map AssetBox.amountOrTokenId).Nodup)
    (fun _ _ _ _ hnodup hstep => nodup_updateOrAddBox hnodup hstep) (hadded t c ht) hstored

theorem DistinctAmounts.drawn {card : Card} (h : Drawn pool pool' card) (hs : DistinctAmounts pool) :
    DistinctAmounts pool' := by
  obtain ⟨boxes, hupdate, rfl⟩ := h.left
  have hboxes : card.assetType ≠ .ERC721 → (boxes.map AssetBox.amountOrTokenId).Nodup := fun ht => by
    have hnodup := hs card.assetType card.contractAddress ht
    obtain ⟨hi, hbox, ⟨_, rfl⟩ | ⟨_, rfl⟩⟩ := updateAssetBox_cases hupdate
    · exact nodup_set hi (by rw [hbox]) hnodup
    · exact (nodup_map_swapRemove _ hi hnodup).2
  unfold AssetPoolV1.afterDraw
  split_ifs
  · have hremoved : DistinctAmounts (AssetPoolV1.removeContract
        (pool.setBoxes card.assetType card.contractAddress boxes) card.assetType
        card.contractAddress) := hs.setBoxes hboxes
    exact hremoved.setBoxes fun _ => List.nodup_nil
  · exact hs.setBoxes hboxes

theorem distinctAmounts_rule : StepRule (F := F) p DistinctAmounts where
  initial := fun _ _ _ _ _ _ _ => List.nodup_nil
  congr := fun pool pool' hboxes _ hpool => by
    unfold DistinctAmounts
    rwa [hboxes]
  deposit := fun admin assets s s' h hs => by
    cases h with
    | erc20 c boxes _ _ hstore => exact hs.storeBoxes hstore
    | erc721Contract c =>
      unfold DistinctAmounts
      rwa [AssetPoolV1.assetBoxes_addContract]
    | erc721Token c tokenId => exact hs.setBoxes fun ht => absurd rfl ht
  native := fun _ _ _ _ h hpool => hpool.storeBoxes h
  withdraw := fun accepts assets s s' h hs => by
    cases h with
    | erc20 c boxes box _ _ _ _ _ hlower =>
      exact hs.setBoxes fun ht => nodup_lowerCards (hs _ _ ht) hlower
    | erc721 => exact hs.setBoxes fun ht => absurd rfl ht
    | native box _ _ _ _ _ hlower =>
      exact hs.setBoxes fun ht => nodup_lowerCards (hs _ _ ht) hlower
  drawn := fun _ _ _ => DistinctAmounts.drawn

theorem kept_distinctAmounts :
    Kept P (fun w : World F => Sane w ∧ OnPool p DistinctAmounts w) :=
  kept_sane.rule (fun _ => id) distinctAmounts_rule.poolRule.rule

omit [EnumerableSet F] in
theorem tidy_of (hone : OneCardEach pool) (hdistinct : DistinctAmounts pool) (t : AssetType)
    (c : Address) : Tidy t (pool.assetBoxes t c) := by
  cases t with
  | ERC721 => exact hone c
  | ERC20 => exact hdistinct .ERC20 c (by simp)
  | NativeToken => exact hdistinct .NativeToken c (by simp)

/-! ### Counting the cards of a pool -/

/-- The cards of a pool are free, reserved, or promised too often by deposits that name more lists of
boxes than contracts. -/
structure Counted (pool : AssetPoolV1 F) (pending : Nat) : Prop where
  fits : pool.totalNumberOfAssets < UINT256_SIZE
  covered : pool.numberOfCards ≤ pool.totalNumberOfAssets + pending

theorem Deposit.counted {value : Nat} (h : Deposit w p sender value assets w')
    (hpool : w.assetPools p = some pool) (hpool' : w'.assetPools p = some pool')
    (hI : Counted pool n) : Counted pool' n := by
  obtain ⟨htotal, hcards⟩ := h.totals hpool hpool'
  have hcovered := hI.covered
  refine ⟨?_, by omega⟩
  cases h with
  | @mk _ _ _ _ _ m _ _ _ _ _ hself _ _ _ hcount _ hfits _ _ _ _ _ hlen =>
    obtain rfl := Option.some.inj (hpool.symm.trans hself)
    have hall := numberOfCards_add_unassigned hlen hcount
    omega

theorem Withdraw.counted (h : Withdraw w p sender assets w') (hone : OneCardEach pool)
    (hpool : w.assetPools p = some pool) (hpool' : w'.assetPools p = some pool')
    (hI : Counted pool n) : Counted pool' n := by
  cases h with
  | @mk _ _ s' _ hself _ _ hsteps hstock htotal hfree =>
    obtain rfl := Option.some.inj (hpool.symm.trans hself)
    obtain rfl := setPool_self hpool'
    have hsame := hsteps.sameTerms.totalNumberOfAssets
    have hsize := congrArg Stock.size (hstock hone)
    rw [Stock.size_add, size_stock, size_stock, ← htotal] at hsize
    have hcards : AssetPoolV1.numberOfCards { s'.pool with
        totalNumberOfAssets := s'.pool.totalNumberOfAssets - s'.total } = s'.pool.numberOfCards := rfl
    have hfits := hI.fits
    have hcovered := hI.covered
    dsimp only at hsame
    exact ⟨by dsimp only; omega, by rw [hcards]; dsimp only; omega⟩

/-- The cards of the pool at `p` are counted. -/
def CountedAt (p : Address) (w : World F) : Prop :=
  ∀ pool, w.assetPools p = some pool → Counted pool (w.pending p)

theorem counted_redeem {trailing : Address} {requestIds : List Nat} (hw : CountedAt p w)
    (h : Redeem w self sender trailing n requestIds w') : CountedAt p w' := by
  cases h with
  | @mk pool _ _ _ w₁ hpool _ _ _ _ hfree _ hlen hrequests =>
    have hpending : w₁.pending p = w.pending p + if p = self then requestIds.length else 0 :=
      hrequests.requested.pending p
    have hpools : w₁.assetPools = (w.setPool self { pool with
        totalNumberOfAssets := pool.totalNumberOfAssets - n }).assetPools := by
      obtain ⟨_, _, _, rfl⟩ := hrequests.frame
      rfl
    intro pool' hpool'
    change w₁.assetPools p = some pool' at hpool'
    rw [hpools] at hpool'
    show Counted pool' (w₁.pending p)
    rw [hpending]
    rcases setPool_cases hpool' with ⟨rfl, rfl⟩ | ⟨hp, hold⟩
    · have hI := hw pool hpool
      have hfits := hI.fits
      have hcovered := hI.covered
      rw [if_pos rfl, hlen]
      refine ⟨by dsimp only; omega, ?_⟩
      show pool.numberOfCards ≤ pool.totalNumberOfAssets - n + (w.pending p + n)
      omega
    · rw [if_neg hp, Nat.add_zero]
      exact hw pool' hold

theorem counted_fulfill {words : List Nat} (ht : Tracked w) (howed : (requestId, k) ∈ w.vrf.owed)
    (hw : CountedAt p w) (h : Fulfill w k sender requestId words w') : CountedAt p w' := by
  cases h with
  | @mk consumer q receiver pool pool₁ rp card tokens hconsumer _ hrequest hpool _ _ hdraw =>
    have hmem := ht.mem_of_owed howed hconsumer hrequest
    have hdrawn := drawCard_eq_ok hdraw
    have hpending : w.pending p = ((w.unfulfilled.erase (requestId, q)).countP fun r => r.2 = p) +
        if p = q then 1 else 0 := pending_erase hmem p
    intro pool' hpool'
    show Counted pool' ((w.unfulfilled.erase (requestId, q)).countP fun r => r.2 = p)
    rcases setPool_cases hpool' with ⟨rfl, rfl⟩ | ⟨hp, hold⟩
    · have hI := hw pool hpool
      have hfits := hI.fits
      have hcovered := hI.covered
      have hsize := congrArg Stock.size hdrawn.stock_eq
      rw [Stock.size_add, size_single, Multiset.card_singleton, size_stock, size_stock] at hsize
      rw [if_pos rfl] at hpending
      have htotal := hdrawn.total_eq
      exact ⟨by omega, by omega⟩
    · rw [if_neg hp, Nat.add_zero] at hpending
      exact hpending ▸ hw pool' hold

theorem counted_rule : Rule (fun w call => w.OnceOnly call)
    (fun w : World F => (Sane w ∧ Tracked w) ∧ OnPool p OneCardEach w) (CountedAt p) where
  initial := fun w hw pool hpool => by
    rw [hw.assetPools] at hpool
    cases hpool
  quiet := fun w w' _ hI h pool' hpool' => by
    have hsame : w'.pending p = w.pending p := by
      unfold World.pending
      rw [h.unfulfilled]
    rw [hsame]
    rcases h.assetPools p with heq | ⟨_, a, id, price, forwarder, _, hnew⟩
    · exact hI pool' (heq ▸ hpool')
    · rw [hnew, Option.some.injEq] at hpool'
      subst hpool'
      exact ⟨Nat.two_pow_pos 256, by simp [AssetPoolV1.numberOfCards, AssetPoolV1.initial]⟩
  change := fun w call w' hJ hI _ honce h => by
    have hthere : ∀ pool', w'.assetPools p = some pool' → ∃ pool, w.assetPools p = some pool :=
      fun _ => h.exists_old
    cases h with
    | @setPrice pool self redeemTokenAmount _ hself =>
      intro pool' hpool'
      rcases setPool_cases hpool' with ⟨rfl, rfl⟩ | ⟨_, hold⟩
      · exact ⟨(hI pool hself).fits, (hI pool hself).covered⟩
      · exact hI pool' hold
    | handOut => exact hI
    | deposit self value assets _ h =>
      intro pool' hpool'
      by_cases hp : p = self
      · subst hp
        obtain ⟨pool, hpool⟩ := hthere pool' hpool'
        have hcounted := h.counted hpool hpool' (hI pool hpool)
        cases h with
        | mk => exact hcounted
      · cases h with
        | mk hself => exact hI pool' (by simpa [World.setPool, hp] using hpool')
    | withdraw self assets _ h =>
      intro pool' hpool'
      by_cases hp : p = self
      · subst hp
        obtain ⟨pool, hpool⟩ := hthere pool' hpool'
        have hcounted := h.counted (hJ.2 pool hpool) hpool hpool' (hI pool hpool)
        cases h with
        | mk => exact hcounted
      · cases h with
        | mk hself => exact hI pool' (by simpa [World.setPool, hp] using hpool')
    | redeem self trailing n requestIds _ _ h => exact counted_redeem hI h
    | fulfill k requestId words hcall h =>
      exact counted_fulfill hJ.1.2 (h.owed hJ.1.1.wired hcall honce) hI h
  forget := fun w requestId k _ hI => hI

/-! ### All cards are listed -/

omit [EnumerableSet F] in
theorem sum_cards_eq {contracts : List Address} (hnodup : contracts.Nodup)
    (hlisted : ∀ c, 0 < cards (pool.assetBoxes t c) → c ∈ contracts) :
    ∑ c, ((pool.assetBoxes t c).map AssetBox.numberOfCards).sum =
      (contracts.map fun c => cards (pool.assetBoxes t c)).sum := by
  simp only [← cards_eq_sum]
  rw [← List.sum_toFinset _ hnodup]
  refine (Finset.sum_subset (Finset.subset_univ _) fun c _ hc => ?_).symm
  rw [List.mem_toFinset] at hc
  exact Nat.eq_zero_of_not_pos fun hpos => hc (hlisted c hpos)

theorem numberOfCards_eq_listedCards (hlisted : CardsListed pool) (hnative : NativeHere p pool) :
    pool.numberOfCards = pool.listedCards p := by
  have hsum : pool.numberOfCards = ∑ c, ((pool.assetBoxes .ERC721 c).map AssetBox.numberOfCards).sum +
      (∑ c, ((pool.assetBoxes .ERC20 c).map AssetBox.numberOfCards).sum +
        ∑ c, ((pool.assetBoxes .NativeToken c).map AssetBox.numberOfCards).sum) := by
    unfold AssetPoolV1.numberOfCards
    rw [show (Finset.univ : Finset AssetType) = {.ERC721, .ERC20, .NativeToken} from rfl,
      Finset.sum_insert (by decide), Finset.sum_insert (by decide), Finset.sum_singleton]
  have hhere : ∀ c, 0 < cards (pool.assetBoxes .NativeToken c) → c ∈ [p] := fun c hpos => by
    by_contra hc
    rw [hnative c (by simpa using hc)] at hpos
    exact absurd hpos (by simp [cards])
  rw [hsum, sum_cards_eq (nodup_values _) (hlisted .ERC721), sum_cards_eq (nodup_values _)
    (hlisted .ERC20), sum_cards_eq (List.nodup_singleton p) hhere, AssetPoolV1.listedCards]
  simp only [List.map_cons, List.map_nil, List.sum_cons, List.sum_nil]
  omega

theorem numberOfCards_everything (hone : OneCardEach pool) (h : assets.Everything pool p) :
    assets.numberOfCards = pool.listedCards p := by
  have hzip : ∀ {α β : Type} {R : α → β → Prop} {f : β → Nat} {g : α → Nat} {as : List α}
      {bs : List β}, List.Forall₂ R as bs → (∀ a b, R a b → f b = g a) →
      ((as.zip bs).map fun d => f d.2).sum = (as.map g).sum := by
    intro α β R f g as bs hforall hfg
    induction hforall with
    | nil => rfl
    | cons hR _ ih => simp [ih, hfg _ _ hR]
  have hcards : ∀ {boxes boxes' : List AssetBox}, boxes.Perm boxes' → cards boxes' = cards boxes :=
    fun hperm => by rw [cards_eq_sum, cards_eq_sum, (hperm.map _).sum_eq]
  have hlength : ∀ c (tokenIds : List Nat), ((pool.assetBoxes .ERC721 c).map
      AssetBox.amountOrTokenId).Perm tokenIds →
      tokenIds.length = cards (pool.assetBoxes .ERC721 c) := fun c tokenIds hperm => by
    rw [← hperm.length_eq, List.length_map, cards_eq_sum,
      List.map_congr_left (g := fun _ => 1) fun b hb => hone c b hb]
    simp
  unfold Assets.numberOfCards AssetPoolV1.listedCards
  rw [hzip h.erc20Boxes fun _ _ => hcards, hzip h.erc721TokenIds hlength, hcards h.nativeTokenBoxes,
    (h.erc20Contracts.map fun c => cards (pool.assetBoxes .ERC20 c)).sum_eq,
    (h.erc721Contracts.map fun c => cards (pool.assetBoxes .ERC721 c)).sum_eq]
  omega

/-! ### Withdrawing everything -/

/-- The requests on the pool at `p` whose callback has failed. -/
def World.failed (w : World F) (p : Address) : Nat :=
  w.unfulfilled.countP fun r => r.2 = p ∧ r.1 ∉ w.vrf.owed.map Prod.fst

/-- No request on the pool at `p` awaits its callback. -/
def World.AllCalledBack (w : World F) (p : Address) : Prop :=
  ∀ r ∈ w.unfulfilled, r.2 = p → r.1 ∉ w.vrf.owed.map Prod.fst

instance (w : World F) (p : Address) : Decidable (w.AllCalledBack p) := by
  unfold World.AllCalledBack
  infer_instance

omit [EnumerableSet F] in
theorem World.AllCalledBack.failed_eq (h : w.AllCalledBack p) : w.failed p = w.pending p := by
  unfold World.failed World.pending
  refine List.countP_congr fun r hr => ?_
  simp only [decide_eq_true_eq]
  exact ⟨fun hfailed => hfailed.1, fun hp => ⟨hp, h r hr hp⟩⟩

theorem burnRedeemTokens_congr {pools : Address → Option (RewardPoolV1 F)}
    (hid : pool'.id = pool.id) (hprice : pool'.redeemTokenAmount = pool.redeemTokenAmount) :
    burnRedeemTokens pools p rp pool' tokens n = burnRedeemTokens pools p rp pool tokens n := by
  unfold burnRedeemTokens
  rw [hid, hprice]

/-- A withdrawal of everything succeeds if the pool counts that many free cards. -/
theorem withdrawAssets_everything (hpool : w.assetPools p = some pool)
    (hrp : w.rewardPools pool.rewardPool = some rp) (htidy : ∀ t c, Tidy t (pool.assetBoxes t c))
    (hassets : assets.Everything pool p) (hfits : pool.totalNumberOfAssets < UINT256_SIZE)
    (henough : pool.listedCards p ≤ pool.totalNumberOfAssets)
    (hsettles : Settles (Tokens.pay w.accepts) (fun tokens => ∃ tokens',
      burnRedeemTokens w.rewardPools p rp pool tokens (pool.listedCards p) = .ok tokens')
      (pool.payouts p : List Movement) w.tokens) :
    ∃ w', w.withdrawAssets p rp.owner assets = .ok w' := by
  obtain ⟨s, hs, htotal, tokens', hburn⟩ := withdrawBoxes_succeeds htidy hassets hsettles (by omega)
  have hterms : SameTerms pool s.pool := (withdrawBoxes_took hs).steps.sameTerms
  have hsub : checkedSub s.pool.totalNumberOfAssets s.total =
      .ok (s.pool.totalNumberOfAssets - s.total) := by
    refine checkedSub_eq_ok.mpr ⟨?_, rfl⟩
    rw [hterms.totalNumberOfAssets, htotal]
    exact henough
  have hissue : burnRedeemTokens w.rewardPools p rp { s.pool with
      totalNumberOfAssets := s.pool.totalNumberOfAssets - s.total } s.tokens s.total = .ok tokens' := by
    rw [htotal, ← hburn]
    exact burnRedeemTokens_congr (congrArg AssetPoolInfo.id hterms.info) hterms.redeemTokenAmount
  unfold World.withdrawAssets
  rw [World.assetPool_eq_ok.mpr hpool, ok_bind, World.rewardPool_eq_ok.mpr hrp, ok_bind,
    require_of rfl, ok_bind, hs, ok_bind, hsub, ok_bind]
  dsimp only
  rw [hissue, ok_bind]
  exact ⟨_, rfl⟩

theorem kept_counted : Kept (fun w call => w.OnceOnly call) (fun w : World F =>
    (((Sane w ∧ Tracked w) ∧ OnPool p OneCardEach w) ∧ CountedAt p w) ∧ OnPool p DistinctAmounts w) :=
  ((kept_tracked.rule (fun _ h => h.1) oneCardEach_rule.poolRule.rule).rule (fun _ h => h.1.1)
    counted_rule).rule (fun _ h => h.1.1.1) distinctAmounts_rule.poolRule.rule

/-- When every request on a pool has been called back, and the transfers to the depositers and the
issue of redeem tokens succeed, the owner can withdraw everything the pool stores if no callback
failed. If one failed, and the deposits named a contract with each list of boxes, it reverts. -/
theorem withdraw_everything (hP : ∀ w call, P w call → w.OnceOnly call) (h : World.Run P cfg)
    (hpool : cfg.state.assetPools p = some pool)
    (hrp : cfg.state.rewardPools pool.rewardPool = some rp) (hdone : cfg.state.AllCalledBack p)
    (hassets : assets.Everything pool p)
    (hsettles : Settles (Tokens.pay cfg.state.accepts) (fun tokens => ∃ tokens',
      burnRedeemTokens cfg.state.rewardPools p rp pool tokens assets.numberOfCards = .ok tokens')
      (pool.payouts p : List Movement) cfg.state.tokens) :
    (cfg.state.failed p = 0 → ∃ w', cfg.state.withdrawAssets p rp.owner assets = .ok w') ∧
      ((∀ w call, P w call → MatchedDeposits p call) → cfg.state.failed p ≠ 0 →
        ∀ w', cfg.state.withdrawAssets p rp.owner assets ≠ .ok w') := by
  obtain ⟨⟨⟨_, hone⟩, hcounted⟩, hdistinct⟩ := (kept_counted.mono hP).run h
  have hlisted : CardsListed pool := (kept_cardsListed.run h).2 pool hpool
  have hnative : NativeHere p pool := nativeHere_of_run h hpool
  have hcards := numberOfCards_eq_listedCards hlisted hnative
  have hsame := numberOfCards_everything (hone pool hpool) hassets
  obtain ⟨hfits, hcovered⟩ := hcounted pool hpool
  rw [hdone.failed_eq]
  constructor
  · intro hnone
    rw [hsame] at hsettles
    exact withdrawAssets_everything hpool hrp (tidy_of (hone pool hpool) (hdistinct pool hpool))
      hassets hfits (by omega) hsettles
  · intro hmatched hfailed w' hwithdraw
    have hP' : ∀ w call, P w call → Accounted p w call := fun w call hw =>
      ⟨hP w call hw, hmatched w call hw⟩
    obtain ⟨s, hs⟩ := ((kept_stocked.mono hP').run h).2 pool hpool
    have hbalance := hs.numberOfCards.1
    cases withdrawAssets_eq_ok hwithdraw with
    | mk hself _ _ hsteps _ htotal hfree =>
      obtain rfl := Option.some.inj (hpool.symm.trans hself)
      have hterms := hsteps.sameTerms.totalNumberOfAssets
      rw [size_prizes] at htotal
      dsimp only at hterms
      omega

/-- A native card was won and paid. A native card and an ERC721 token are left. -/
def allPaid : CallStack.Config (World ListSet) Call :=
  World.after (Accounted 1004) ([
    World.opening .CustomERC20,
    .call ⟨1, .erc721 11 (.setApprovalForAll 1004 true)⟩,
    World.poolCall 1 (.depositAssets 4 {
      World.nativeBoxes [⟨1, .NativeToken, 2, 2⟩] with
      erc721ContractAddresses := [11], erc721TokenIds := [[3]] }),
    World.poolCall 1 (.transferRedeemTokenNumber 5 1),
    World.poolCall 5 (.redeemAsset 0 1 [77]),
    .call ⟨2, .consumer 1001 (.rawFulfillRandomWords 77 [1, 0, 0])⟩, .ret])

theorem isSome_allPaid : (allPaid.state.assetPools 1004).isSome = true ∧
    (allPaid.state.rewardPools 1002).isSome = true := by
  decide

def leftAfterPayment : Assets where
  erc20ContractAddresses := []
  erc20Boxes := []
  erc721ContractAddresses := [11]
  erc721TokenIds := [[3]]
  nativeTokenBoxes := [⟨1, .NativeToken, 1, 2⟩]

theorem withdraw_everything_allPaid : ∃ w', allPaid.state.withdrawAssets 1004
    ((allPaid.state.rewardPools 1002).get isSome_allPaid.2).owner leftAfterPayment = .ok w' := by
  have hpool := (Option.some_get isSome_allPaid.1).symm
  have hrp := (Option.some_get isSome_allPaid.2).symm
  obtain ⟨hat, herc20, herc721, htokens, hnative⟩ :
      ((allPaid.state.assetPools 1004).get isSome_allPaid.1).rewardPool = 1002 ∧
      values (((allPaid.state.assetPools 1004).get isSome_allPaid.1).contractAddresses .ERC20) = [] ∧
      values (((allPaid.state.assetPools 1004).get isSome_allPaid.1).contractAddresses .ERC721) =
        [11] ∧
      (((allPaid.state.assetPools 1004).get isSome_allPaid.1).assetBoxes .ERC721 11).map
        AssetBox.amountOrTokenId = [3] ∧
      ((allPaid.state.assetPools 1004).get isSome_allPaid.1).assetBoxes .NativeToken 1004 =
        [⟨1, .NativeToken, 1, 2⟩] := by
    decide
  have heverything : leftAfterPayment.Everything
      ((allPaid.state.assetPools 1004).get isSome_allPaid.1) 1004 :=
    ⟨herc20 ▸ .nil, .nil, herc721 ▸ .refl _, .cons (htokens ▸ .refl _) .nil, hnative ▸ .refl _⟩
  have hsettles := settles_of_permutations (f := Tokens.pay allPaid.state.accepts)
    (g := fun tokens => burnRedeemTokens allPaid.state.rewardPools 1004
      ((allPaid.state.rewardPools 1002).get isSome_allPaid.2)
      ((allPaid.state.assetPools 1004).get isSome_allPaid.1) tokens leftAfterPayment.numberOfCards)
    (l := AssetPoolV1.payouts ((allPaid.state.assetPools 1004).get isSome_allPaid.1) 1004)
    (b := allPaid.state.tokens) (by decide)
  exact (withdraw_everything (fun _ _ h => h.1) (World.run_after (Accounted 1004) _) hpool
    ((congrArg allPaid.state.rewardPools hat).trans hrp) (by decide) heverything
    hsettles).1 (by decide)

/-- Every request has been called back and every card could be paid back, but the withdrawal of
everything reverts. -/
structure Locked (w : World F) (p : Address) (pool : AssetPoolV1 F) (assets : Assets) : Prop where
  stored : w.assetPools p = some pool
  calledBack : w.vrf.owed = []
  everything : assets.Everything pool p
  settles : Settles (Tokens.pay w.accepts) (fun _ => True) (pool.payouts p : List Movement) w.tokens
  reverts : ∀ rp w', w.rewardPools pool.rewardPool = some rp →
    w.withdrawAssets p rp.owner assets ≠ .ok w'

/-- The receiver of one of two native cards refuses it. -/
def refused : CallStack.Config (World ListSet) Call :=
  World.after World.OnceOnly [
    World.opening .CustomERC20,
    World.poolCall 1 (.depositAssets 4 (World.nativeBoxes [⟨1, .NativeToken, 2, 2⟩])),
    World.poolCall 1 (.transferRedeemTokenNumber 5 1),
    World.poolCall 5 (.redeemAsset 0 1 [77]),
    .call ⟨2, .consumer 1001 (.rawFulfillRandomWords 77 [0, 0, 0])⟩, .revert]

/-- No card was redeemed, but two of them cost more than a word. -/
def overpriced : CallStack.Config (World ListSet) Call :=
  World.after World.OnceOnly [
    World.opening .ExistingERC20,
    World.poolCall 1 (.depositAssets 4 (World.nativeBoxes [⟨1, .NativeToken, 2, 2⟩])),
    World.poolCall 1 (.setRedeemTokenAmount (2 ^ 255))]

theorem isSome_refused : (refused.state.assetPools 1004).isSome = true ∧
    (overpriced.state.assetPools 1004).isSome = true := by
  decide

/-- Two native cards that nothing but the two counts keeps in their pool. -/
theorem locked_of_reverts {w : World ListSet} (hsome : (w.assetPools 1004).isSome = true)
    (hstored : w.vrf.owed = [] ∧
      ((w.assetPools 1004).get hsome).assetBoxes .NativeToken 1004 = [⟨1, .NativeToken, 2, 2⟩] ∧
      values (((w.assetPools 1004).get hsome).contractAddresses .ERC20) = [] ∧
      values (((w.assetPools 1004).get hsome).contractAddresses .ERC721) = [])
    (hcalls : (∀ l ∈ (((w.assetPools 1004).get hsome).payouts 1004).permutations',
        (l.foldlM (Tokens.pay w.accepts) w.tokens >>= pure).toOption.isSome = true) ∧
      (w.rewardPools ((w.assetPools 1004).get hsome).rewardPool).all
        (fun rp => (w.withdrawAssets 1004 rp.owner
          (World.nativeBoxes [⟨1, .NativeToken, 2, 2⟩])).toOption.isNone) = true) :
    Locked w 1004 ((w.assetPools 1004).get hsome) (World.nativeBoxes [⟨1, .NativeToken, 2, 2⟩]) where
  stored := (Option.some_get hsome).symm
  calledBack := hstored.1
  everything :=
    ⟨hstored.2.2.1 ▸ .nil, .nil, hstored.2.2.2 ▸ .nil, .nil, hstored.2.1 ▸ .refl _⟩
  settles := (settles_of_permutations hcalls.1).mono fun _ _ => trivial
  reverts := fun rp w' hrp => by
    have hreverts := hcalls.2
    rw [hrp, Option.all_some] at hreverts
    exact ne_ok_of_isNone hreverts w'

/-- A failed callback locks a card. So does a price that two cards cannot be multiplied with. -/
theorem failed_callback_locks :
    (World.Run World.OnceOnly refused ∧ refused.state.failed 1004 = 1 ∧
      ∃ pool, Locked refused.state 1004 pool (World.nativeBoxes [⟨1, .NativeToken, 2, 2⟩])) ∧
    (World.Run World.OnceOnly overpriced ∧ overpriced.state.failed 1004 = 0 ∧
      ∃ pool, Locked overpriced.state 1004 pool (World.nativeBoxes [⟨1, .NativeToken, 2, 2⟩])) :=
  ⟨⟨World.run_after World.OnceOnly _, by decide, _,
      locked_of_reverts isSome_refused.1 (by decide) (by decide)⟩,
    World.run_after World.OnceOnly _, by decide, _,
      locked_of_reverts isSome_refused.2 (by decide) (by decide)⟩

end Redeemy
