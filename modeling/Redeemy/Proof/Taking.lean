import Redeemy.Proof.Merging

/-!
# Taking cards back

A withdrawal of fungible boxes names amounts and numbers of cards, an amount possibly more than once.
Because the stored boxes have different amounts, it goes through exactly if there are enough cards of
each amount, and it leaves the cards that were not named.
-/

namespace Redeemy

open Fallible EnumerableSet SwapRemove

variable {F : Type → Type}
variable {boxes boxes' left stored requests : List AssetBox} {box request : AssetBox} {a k n : Nat}
variable {pool : AssetPoolV1 F} {tokens tokens' : Tokens} {p self c : Address} {t : AssetType}
variable {accepts : Address → Bool} {s s' : Withdrawal F}
variable {P : World F → Call → Prop} {cfg : CallStack.Config (World F) Call}

/-! ### What is left of the boxes -/

/-- The box without the cards that are taken out of it. -/
def AssetBox.without (box : AssetBox) (requests : List AssetBox) : AssetBox :=
  { box with numberOfCards := box.numberOfCards - cardsOf requests box.amountOrTokenId }

/-- A box stays if none of its cards are taken, or not all of them. -/
def AssetBox.Stays (requests : List AssetBox) (box : AssetBox) : Prop :=
  cardsOf requests box.amountOrTokenId = 0 ∨
    cardsOf requests box.amountOrTokenId < box.numberOfCards

/-- The boxes `left` are what taking the cards of `requests` leaves of the boxes `stored`. -/
structure Lowered (requests stored left : List AssetBox) : Prop where
  distinct : (left.map AssetBox.amountOrTokenId).Nodup
  cards : ∀ a, cardsOf left a + cardsOf requests a = cardsOf stored a
  mem : ∀ b', b' ∈ left ↔ ∃ b ∈ stored, b.Stays requests ∧ b' = b.without requests

theorem lowered_nil (h : (stored.map AssetBox.amountOrTokenId).Nodup) : Lowered [] stored stored where
  distinct := h
  cards := fun _ => rfl
  mem := fun b' => by
    simp [AssetBox.Stays, AssetBox.without]

theorem Lowered.cons (hfirst : Lowered [request] stored boxes) (h : Lowered requests boxes left) :
    Lowered (request :: requests) stored left where
  distinct := h.distinct
  cards := fun a => by
    have hrest := h.cards a
    have hone := hfirst.cards a
    rw [cardsOf_cons, cardsOf_nil] at hone
    rw [cardsOf_cons]
    omega
  mem := fun b'' => by
    have hsum : ∀ a, cardsOf (request :: requests) a = cardsOf [request] a + cardsOf requests a := by
      intro a
      rw [cardsOf_cons, cardsOf_cons, cardsOf_nil, add_zero]
    rw [h.mem]
    constructor
    · rintro ⟨b', hb', hstays', rfl⟩
      obtain ⟨b, hb, hstays, rfl⟩ := (hfirst.mem b').mp hb'
      refine ⟨b, hb, ?_, ?_⟩
      · simp only [AssetBox.Stays, AssetBox.without, hsum] at hstays hstays' ⊢
        omega
      · simp only [AssetBox.without, hsum, Nat.sub_sub]
    · rintro ⟨b, hb, hstays, rfl⟩
      simp only [AssetBox.Stays, hsum] at hstays
      refine ⟨b.without [request], (hfirst.mem _).mpr ⟨b, hb, ?_, rfl⟩, ?_, ?_⟩
      · simp only [AssetBox.Stays]
        omega
      · simp only [AssetBox.Stays, AssetBox.without]
        omega
      · simp only [AssetBox.without, hsum, Nat.sub_sub]

/-! ### One request -/

/-- The search and the update of one iteration. -/
def TakesFrom (boxes : List AssetBox) (request : AssetBox) (left : List AssetBox) : Prop :=
  ∃ k, findAssetBox boxes request.amountOrTokenId (enoughCards request) = .ok (true, k) ∧
    lowerCards boxes k request.numberOfCards = .ok left

/-- The box at `k`, and the others. -/
theorem perm_others (hk : k < boxes.length) : (boxes[k] :: boxes.eraseIdx k).Perm boxes :=
  List.getElem_cons_eraseIdx_perm hk

theorem ne_of_mem_others (hstored : (boxes.map AssetBox.amountOrTokenId).Nodup) (hk : k < boxes.length)
    (h : box ∈ boxes.eraseIdx k) : box.amountOrTokenId ≠ boxes[k].amountOrTokenId := by
  intro hkey
  have hnodup := ((perm_others hk).map AssetBox.amountOrTokenId).nodup_iff.mpr hstored
  exact (List.nodup_cons.mp hnodup).1 (hkey ▸ List.mem_map_of_mem h)

/-- The cards of an amount are in one box. -/
theorem cardsOf_getElem (hstored : (boxes.map AssetBox.amountOrTokenId).Nodup) (hk : k < boxes.length) :
    cardsOf boxes boxes[k].amountOrTokenId = boxes[k].numberOfCards := by
  rw [← cardsOf_congr ((perm_others hk).map _), cardsOf_cons, if_pos rfl,
    cardsOf_eq_zero fun b hb => ne_of_mem_others hstored hk hb, add_zero]

theorem lowerCards_eq (hk : k < boxes.length) (hn : n ≤ boxes[k].numberOfCards) :
    lowerCards boxes k n = .ok (if boxes[k].numberOfCards = n then swapRemove boxes k
      else boxes.set k { boxes[k] with numberOfCards := boxes[k].numberOfCards - n }) := by
  unfold lowerCards
  rw [index_eq_getElem hk, ok_bind, checkedSub, if_pos hn, ok_bind]
  by_cases hall : boxes[k].numberOfCards = n
  · rw [if_pos hall, if_pos (by omega)]
    exact removeAssetBox_eq_ok.mpr ⟨hk, rfl⟩
  · rw [if_neg hall, if_neg (by omega)]
    rfl

/-- The box at `k` goes, or stays with fewer cards, and the others stay. -/
theorem lowerCards_perm (hk : k < boxes.length) (hn : n ≤ boxes[k].numberOfCards)
    (h : lowerCards boxes k n = .ok left) :
    (boxes[k].numberOfCards = n ∧ left.Perm (boxes.eraseIdx k)) ∨
      (boxes[k].numberOfCards ≠ n ∧ left.Perm
        ({ boxes[k] with numberOfCards := boxes[k].numberOfCards - n } :: boxes.eraseIdx k)) := by
  rw [lowerCards_eq hk hn, Except.ok.injEq] at h
  split_ifs at h with hall
  · refine .inl ⟨hall, ?_⟩
    rw [← h]
    exact List.Perm.cons_inv ((cons_swapRemove_perm hk).trans (perm_others hk).symm)
  · refine .inr ⟨hall, ?_⟩
    rw [← h]
    exact List.set_perm_cons_eraseIdx hk _

/-- A box without requested cards stays as it is. -/
theorem stays_without_iff {others : List AssetBox} {b' : AssetBox}
    (h : ∀ b ∈ others, cardsOf requests b.amountOrTokenId = 0) :
    (∃ b ∈ others, b.Stays requests ∧ b' = b.without requests) ↔ b' ∈ others := by
  constructor
  · rintro ⟨b, hb, _, rfl⟩
    rw [AssetBox.without, h b hb]
    exact hb
  · intro hb
    refine ⟨b', hb, .inl (h b' hb), ?_⟩
    rw [AssetBox.without, h b' hb, Nat.sub_zero]

/-- One request takes its cards out of the box of its amount, and the box with them if they were all
it had. -/
theorem TakesFrom.lowered (hstored : (boxes.map AssetBox.amountOrTokenId).Nodup)
    (hpos : 1 ≤ request.numberOfCards) (h : TakesFrom boxes request left) :
    Lowered [request] boxes left := by
  obtain ⟨k, hfind, hlower⟩ := h
  obtain ⟨hk, hkey, henough⟩ := findAssetBox_found hfind
  have henough : request.numberOfCards ≤ boxes[k].numberOfCards := require_eq_ok.mp henough
  have hrequest : ∀ a, cardsOf [request] a =
      if boxes[k].amountOrTokenId = a then request.numberOfCards else 0 := by
    intro a
    rw [cardsOf_cons, cardsOf_nil, add_zero, hkey]
  refine ⟨nodup_lowerCards hstored hlower, fun a => ?_, fun b' => ?_⟩
  · obtain ⟨_, hweigh⟩ := weigh_lowerCards (g := fun _ b => if b = a then 1 else 0) hlower
    rw [hrequest, cardsOf_eq_weigh, cardsOf_eq_weigh, hweigh]
    simp
  · have hother : ∀ b ∈ boxes.eraseIdx k, cardsOf [request] b.amountOrTokenId = 0 := by
      intro b hb
      rw [hrequest, if_neg (ne_of_mem_others hstored hk hb).symm]
    have hsplit : (∃ b ∈ boxes, b.Stays [request] ∧ b' = b.without [request]) ↔
        (boxes[k].Stays [request] ∧ b' = boxes[k].without [request]) ∨ b' ∈ boxes.eraseIdx k := by
      rw [← stays_without_iff hother]
      simp only [← (perm_others hk).mem_iff, List.mem_cons, exists_eq_or_imp]
    rw [hsplit, AssetBox.Stays, AssetBox.without, hrequest, if_pos rfl]
    rcases lowerCards_perm hk henough hlower with ⟨hall, hperm⟩ | ⟨hall, hperm⟩
    · rw [hperm.mem_iff]
      constructor
      · exact .inr
      · rintro (⟨hless, _⟩ | hb)
        · omega
        · exact hb
    · rw [hperm.mem_iff, List.mem_cons]
      constructor
      · rintro (rfl | hb)
        · exact .inl ⟨by omega, rfl⟩
        · exact .inr hb
      · rintro (⟨_, rfl⟩ | hb)
        · exact .inl rfl
        · exact .inr hb

theorem exists_takesFrom_iff (hstored : (boxes.map AssetBox.amountOrTokenId).Nodup)
    (hpos : 1 ≤ request.numberOfCards) : (∃ left, TakesFrom boxes request left) ↔
      request.numberOfCards ≤ cardsOf boxes request.amountOrTokenId := by
  constructor
  · rintro ⟨left, h⟩
    have hcards := (h.lowered hstored hpos).cards request.amountOrTokenId
    rw [cardsOf_cons, if_pos rfl, cardsOf_nil] at hcards
    omega
  · intro henough
    have hmem : ∃ b ∈ boxes, b.amountOrTokenId = request.amountOrTokenId := by
      by_contra! hnone
      rw [cardsOf_eq_zero hnone] at henough
      omega
    have hcheck : ∀ b ∈ boxes, b.amountOrTokenId = request.amountOrTokenId →
        enoughCards request b = .ok () := by
      intro b hb hkey
      obtain ⟨k, hk, rfl⟩ := List.getElem_of_mem hb
      rw [← hkey, cardsOf_getElem hstored hk] at henough
      exact require_of henough
    obtain ⟨k, hk, hkey, hfind⟩ := findAssetBox_succeeds (enoughCards request) hmem hcheck
    rw [← hkey, cardsOf_getElem hstored hk] at henough
    exact ⟨_, k, hfind, lowerCards_eq hk henough⟩

/-! ### The loops -/

/-- One iteration `f` of a withdrawal of the boxes under a key, when its transfer succeeds. -/
def Withdraws (accepts : Address → Bool) (self : Address) (t : AssetType) (c : Address)
    (f : Withdrawal F → AssetBox → Result (Withdrawal F)) : Prop :=
  ∀ s request tokens s', s.tokens.pay accepts (request.payout self t c) = .ok tokens →
    (f s request = .ok s' ↔ ∃ left, TakesFrom (s.pool.assetBoxes t c) request left ∧
      s.total + request.numberOfCards < UINT256_SIZE ∧
      s' = ⟨s.total + request.numberOfCards, s.pool.setBoxes t c left, tokens⟩)

theorem withdraws_withdrawErc20Box :
    Withdraws (F := F) accepts self .ERC20 c (withdrawErc20Box self c) := by
  intro s request tokens s' hpay
  simp only [Tokens.pay, AssetBox.payout, bind_eq_ok, pure_eq_ok, Prod.exists] at hpay
  obtain ⟨_, hamount, tokens', answer, htransfer, rfl⟩ := hpay
  have hamount : request.amountOrTokenId * request.numberOfCards < UINT256_SIZE :=
    require_eq_ok.mp hamount
  unfold withdrawErc20Box findErc20AssetBox
  simp only [bind_eq_ok, require_eq_ok, checkedMul_eq_ok, checkedAdd_eq_ok, pure_eq_ok, Prod.exists]
  constructor
  · rintro ⟨_, k, hfind, _, rfl, _, ⟨_, rfl⟩, _, _, hcall, left, hlower, _, ⟨hfits, rfl⟩, rfl⟩
    rw [htransfer, Except.ok.injEq, Prod.mk.injEq] at hcall
    obtain ⟨rfl, rfl⟩ := hcall
    exact ⟨left, ⟨k, hfind, hlower⟩, hfits, rfl⟩
  · rintro ⟨left, ⟨k, hfind, hlower⟩, hfits, rfl⟩
    exact ⟨true, k, hfind, (), rfl, _, ⟨hamount, rfl⟩, tokens', answer, htransfer, left, hlower, _,
      ⟨hfits, rfl⟩, rfl⟩

theorem withdraws_withdrawNativeTokenBox :
    Withdraws (F := F) accepts self .NativeToken self (withdrawNativeTokenBox accepts self) := by
  intro s request tokens s' hpay
  simp only [Tokens.pay, AssetBox.payout, bind_eq_ok, pure_eq_ok] at hpay
  obtain ⟨_, hamount, _, haccepts, tokens', hsend, rfl⟩ := hpay
  have hamount : request.amountOrTokenId * request.numberOfCards < UINT256_SIZE :=
    require_eq_ok.mp hamount
  have haccepts : accepts request.depositer = true ∧ s.tokens.refuses request.depositer = false :=
    require_eq_ok.mp haccepts
  unfold withdrawNativeTokenBox findNativeTokenAssetBox
  simp only [bind_eq_ok, require_eq_ok, checkedMul_eq_ok, checkedAdd_eq_ok, pure_eq_ok, Prod.exists]
  constructor
  · rintro ⟨_, k, hfind, _, rfl, _, ⟨_, rfl⟩, _, _, _, hcall, left, hlower, _, ⟨hfits, rfl⟩, rfl⟩
    rw [hsend, Except.ok.injEq] at hcall
    subst hcall
    exact ⟨left, ⟨k, hfind, hlower⟩, hfits, rfl⟩
  · rintro ⟨left, ⟨k, hfind, hlower⟩, hfits, rfl⟩
    exact ⟨true, k, hfind, (), rfl, _, ⟨hamount, rfl⟩, (), haccepts, tokens', hsend, left, hlower, _,
      ⟨hfits, rfl⟩, rfl⟩

/-- The transfers of the requests, in order. -/
def payRequests (accepts : Address → Bool) (self : Address) (t : AssetType) (c : Address)
    (requests : List AssetBox) (tokens : Tokens) : Result Tokens :=
  requests.foldlM (fun tokens request => tokens.pay accepts (request.payout self t c)) tokens

/-- There are enough cards of each amount. -/
def Enough (stored requests : List AssetBox) : Prop := ∀ a, cardsOf requests a ≤ cardsOf stored a

theorem cards_cons : cards (box :: boxes) = box.numberOfCards + cards boxes := by
  rw [cards_eq_sum, cards_eq_sum, List.map_cons, List.sum_cons]

/-- One request out of a list that has enough cards. -/
theorem enough_cons_iff (h : Lowered [request] stored boxes) :
    Enough stored (request :: requests) ↔ Enough boxes requests := by
  refine forall_congr' fun a => ?_
  have hcards := h.cards a
  rw [cardsOf_cons, cardsOf_nil] at hcards
  rw [cardsOf_cons]
  omega

section Loop

variable {f : Withdrawal F → AssetBox → Result (Withdrawal F)} (hf : Withdraws accepts self t c f)
variable (hstored : ((s.pool.assetBoxes t c).map AssetBox.amountOrTokenId).Nodup)
variable (hrequests : ∀ request ∈ requests, 1 ≤ request.numberOfCards)
variable (hpay : payRequests accepts self t c requests s.tokens = .ok tokens')

include hf hstored hrequests hpay

/-- A loop that goes through leaves what the requests leave. -/
theorem Withdraws.loop_eq_ok (htotal : s.total < UINT256_SIZE) (h : requests.foldlM f s = .ok s') :
    s.total + cards requests < UINT256_SIZE ∧
      ∃ left, Lowered requests (s.pool.assetBoxes t c) left ∧
        s' = ⟨s.total + cards requests, s.pool.setBoxes t c left, tokens'⟩ := by
  induction requests generalizing s with
  | nil =>
    rw [List.foldlM_nil, pure_eq_ok] at h
    rw [payRequests, List.foldlM_nil, pure_eq_ok] at hpay
    subst h hpay
    exact ⟨htotal, _, lowered_nil hstored, by rw [AssetPoolV1.setBoxes_assetBoxes]; rfl⟩
  | cons request requests ih =>
    obtain ⟨hpos, hrest⟩ := List.forall_mem_cons.mp hrequests
    rw [payRequests, List.foldlM_cons, bind_eq_ok] at hpay
    obtain ⟨tokens₁, hfirstPay, hpay⟩ := hpay
    rw [List.foldlM_cons, bind_eq_ok] at h
    obtain ⟨s₁, hfirst, h⟩ := h
    obtain ⟨boxes, htakes, hfits, rfl⟩ := (hf s request tokens₁ s₁ hfirstPay).mp hfirst
    have hlowered := htakes.lowered hstored hpos
    obtain ⟨hbound, left, hleft, rfl⟩ := @ih
      ⟨s.total + request.numberOfCards, s.pool.setBoxes t c boxes, tokens₁⟩
      (by rw [AssetPoolV1.assetBoxes_setBoxes_self]; exact hlowered.distinct) hrest hpay hfits h
    rw [AssetPoolV1.assetBoxes_setBoxes_self] at hleft
    rw [cards_cons, ← add_assoc]
    exact ⟨hbound, left, hlowered.cons hleft, by rw [AssetPoolV1.setBoxes_setBoxes]⟩

/-- A loop goes through if there are enough cards, and they can be counted. -/
theorem Withdraws.loop_succeeds (henough : Enough (s.pool.assetBoxes t c) requests)
    (hfits : s.total + cards requests < UINT256_SIZE) : ∃ s', requests.foldlM f s = .ok s' := by
  induction requests generalizing s with
  | nil => exact ⟨s, rfl⟩
  | cons request requests ih =>
    obtain ⟨hpos, hrest⟩ := List.forall_mem_cons.mp hrequests
    rw [payRequests, List.foldlM_cons, bind_eq_ok] at hpay
    obtain ⟨tokens₁, hfirstPay, hpay⟩ := hpay
    rw [cards_cons, ← add_assoc] at hfits
    have hone := henough request.amountOrTokenId
    rw [cardsOf_cons, if_pos rfl] at hone
    obtain ⟨boxes, htakes⟩ := (exists_takesFrom_iff hstored hpos).mpr (by omega)
    have hlowered := htakes.lowered hstored hpos
    have hfirst := (hf s request tokens₁ _ hfirstPay).mpr ⟨boxes, htakes, by omega, rfl⟩
    rw [List.foldlM_cons, hfirst]
    refine @ih ⟨s.total + request.numberOfCards, s.pool.setBoxes t c boxes, tokens₁⟩ ?_ hrest hpay ?_
      hfits
    · rw [AssetPoolV1.assetBoxes_setBoxes_self]
      exact hlowered.distinct
    · rw [AssetPoolV1.assetBoxes_setBoxes_self]
      exact (enough_cons_iff hlowered).mp henough

end Loop

/-- A withdrawal of boxes under a key takes the cards that are requested, if there are enough of each
amount and their number fits: what it returns is their number, and what it leaves are the other cards
under that key and all other lists. -/
structure TakesRequested (result : Result (Withdrawal F)) (pool : AssetPoolV1 F) (t : AssetType)
    (c : Address) (requests : List AssetBox) (tokens' : Tokens) : Prop where
  succeeds_iff : (∃ s', result = .ok s') ↔
    Enough (pool.assetBoxes t c) requests ∧ cards requests < UINT256_SIZE
  leaves : ∀ s', result = .ok s' → s'.total = cards requests ∧ s'.tokens = tokens' ∧
    ∃ left, s'.pool = pool.setBoxes t c left ∧ Lowered requests (pool.assetBoxes t c) left

theorem Withdraws.takesRequested {f : Withdrawal F → AssetBox → Result (Withdrawal F)}
    (hf : Withdraws accepts self t c f)
    (hstored : ((pool.assetBoxes t c).map AssetBox.amountOrTokenId).Nodup)
    (hrequests : ∀ request ∈ requests, 1 ≤ request.numberOfCards)
    (hpay : payRequests accepts self t c requests tokens = .ok tokens') :
    TakesRequested (requests.foldlM f ⟨0, pool, tokens⟩) pool t c requests tokens' := by
  have hgoes := fun s' (h : requests.foldlM f ⟨0, pool, tokens⟩ = .ok s') =>
    hf.loop_eq_ok (s := ⟨0, pool, tokens⟩) hstored hrequests hpay (show 0 < UINT256_SIZE by decide) h
  refine ⟨⟨?_, ?_⟩, fun s' h => ?_⟩
  · rintro ⟨s', h⟩
    obtain ⟨hfits, left, hleft, _⟩ := hgoes s' h
    rw [Nat.zero_add] at hfits
    refine ⟨fun a => ?_, hfits⟩
    have hcards := hleft.cards a
    dsimp only at hcards
    omega
  · rintro ⟨henough, hfits⟩
    exact hf.loop_succeeds (s := ⟨0, pool, tokens⟩) hstored hrequests hpay henough
      (by rwa [Nat.zero_add])
  · obtain ⟨_, left, hleft, rfl⟩ := hgoes s' h
    exact ⟨Nat.zero_add _, rfl, left, rfl, hleft⟩

/-- `_withdrawErc20Asset` adds nothing to what its loop returns. -/
theorem withdrawErc20Asset_eq (hfits : ∀ s', requests.foldlM (withdrawErc20Box self c) ⟨0, pool, tokens⟩ =
    .ok s' → s'.total < UINT256_SIZE) :
    withdrawErc20Asset self ⟨0, pool, tokens⟩ (c, some requests) =
      requests.foldlM (withdrawErc20Box self c) ⟨0, pool, tokens⟩ := by
  unfold withdrawErc20Asset subtotal
  dsimp only [element, orThrow]
  rw [ok_bind]
  cases hloop : requests.foldlM (withdrawErc20Box self c) ⟨0, pool, tokens⟩ with
  | error e => rfl
  | ok s' =>
    rw [ok_bind, checkedAdd_eq_ok.mpr ⟨by rw [Nat.zero_add]; exact hfits s' hloop, rfl⟩, ok_bind,
      Nat.zero_add]
    rfl

variable [EnumerableSet F]

/-- In every state of a pool, a withdrawal of ERC20 boxes, or of native ones, whose transfers succeed
takes exactly the cards that are requested, or fails if there are not enough of them or their number
does not fit. -/
theorem withdrawal_takes_requested (h : World.Run P cfg) (hpool : cfg.state.assetPools p = some pool)
    (hrequests : ∀ request ∈ requests, 1 ≤ request.numberOfCards) :
    (∀ c tokens tokens', payRequests accepts p .ERC20 c requests tokens = .ok tokens' →
      TakesRequested (withdrawErc20Asset p ⟨0, pool, tokens⟩ (c, some requests)) pool .ERC20 c
        requests tokens') ∧
    ∀ tokens tokens', payRequests accepts p .NativeToken p requests tokens = .ok tokens' →
      TakesRequested (withdrawNativeTokenAssets accepts p requests ⟨0, pool, tokens⟩) pool
        .NativeToken p requests tokens' := by
  have hdistinct := (kept_distinctAmounts.run h).2 pool hpool
  constructor
  · intro c tokens tokens' hpay
    have hnodup := hdistinct .ERC20 c (by simp)
    have htakes := withdraws_withdrawErc20Box.takesRequested hnodup hrequests hpay
    rwa [withdrawErc20Asset_eq fun s' hs' => by
      rw [(htakes.leaves s' hs').1]
      exact (htakes.succeeds_iff.mp ⟨s', hs'⟩).2]
  · intro tokens tokens' hpay
    exact withdraws_withdrawNativeTokenBox.takesRequested (hdistinct .NativeToken p (by simp))
      hrequests hpay

/-- Two kinds of native prizes, the first of which has been withdrawn in part. -/
def twoPrizes : CallStack.Config (World ListSet) Call :=
  World.after (fun _ _ => True) [
    World.opening .CustomERC20,
    World.poolCall 1 (.depositAssets 13
      (World.nativeBoxes [⟨1, .NativeToken, 3, 2⟩, ⟨1, .NativeToken, 1, 7⟩])),
    World.poolCall 1 (.withdrawAssets (World.nativeBoxes [⟨1, .NativeToken, 1, 2⟩]))]

theorem isSome_twoPrizes : (twoPrizes.state.assetPools 1004).isSome = true := by decide

/-- Two cards of the amount 2, requested in two boxes. -/
def twoOfTwo : List AssetBox := [⟨1, .NativeToken, 1, 2⟩, ⟨6, .NativeToken, 1, 2⟩]

/-- The token contracts once `twoOfTwo` are paid from the pool with two kinds of native prizes. -/
def paidTwo : Tokens :=
  (payRequests twoPrizes.state.accepts 1004 .NativeToken 1004 twoOfTwo
    twoPrizes.state.tokens).toOption.getD twoPrizes.state.tokens

theorem withdrawal_takes_requested_twoPrizes :
    TakesRequested (withdrawNativeTokenAssets twoPrizes.state.accepts 1004 twoOfTwo
      ⟨0, (twoPrizes.state.assetPools 1004).get isSome_twoPrizes, twoPrizes.state.tokens⟩)
      ((twoPrizes.state.assetPools 1004).get isSome_twoPrizes) .NativeToken 1004 twoOfTwo paidTwo :=
  (withdrawal_takes_requested (World.run_after (fun _ _ => True) _)
    (Option.some_get isSome_twoPrizes).symm (by decide)).2 _ _ (eq_ok_of_isSome (by decide))

/-- A pool with one card less than can be counted, of which one is paid for, and one card more. -/
def uncountable : CallStack.Config (World ListSet) Call :=
  World.after (fun _ _ => True) [
    World.opening .ExistingERC20,
    World.poolCall 1 (.setRedeemTokenAmount 1),
    World.poolCall 1 (.depositAssets 0
      (World.nativeBoxes [⟨1, .NativeToken, UINT256_SIZE - 1, 0⟩])),
    .call ⟨1, .erc20 10 (.approve 1004 1)⟩,
    World.poolCall 1 (.redeemAsset 0 1 [77]),
    World.poolCall 1 (.depositAssets 3 (World.nativeBoxes [⟨1, .NativeToken, 1, 3⟩]))]

theorem isSome_uncountable : (uncountable.state.assetPools 1004).isSome = true := by decide

/-- The stored boxes of the pool. -/
def allCards : List AssetBox :=
  [⟨1, .NativeToken, UINT256_SIZE - 1, 0⟩, ⟨1, .NativeToken, 1, 3⟩]

/-- All cards are requested, and all are there and can be paid, but their number overflows. -/
theorem withdrawal_overflows : World.Run (fun _ _ => True) uncountable ∧
    (∀ request ∈ allCards, 1 ≤ request.numberOfCards) ∧
    (payRequests uncountable.state.accepts 1004 .NativeToken 1004 allCards
      uncountable.state.tokens).toOption.isSome = true ∧
    Enough (((uncountable.state.assetPools 1004).get isSome_uncountable).assetBoxes .NativeToken 1004)
      allCards ∧
    (withdrawNativeTokenAssets uncountable.state.accepts 1004 allCards
      ⟨0, (uncountable.state.assetPools 1004).get isSome_uncountable, uncountable.state.tokens⟩).map
        Withdrawal.total = .error (.panic 0x11) := by
  obtain ⟨hstored, hpaid, hoverflows⟩ :
      ((uncountable.state.assetPools 1004).get isSome_uncountable).assetBoxes .NativeToken 1004 =
        allCards ∧
      (payRequests uncountable.state.accepts 1004 .NativeToken 1004 allCards
        uncountable.state.tokens).toOption.isSome = true ∧
      (withdrawNativeTokenAssets uncountable.state.accepts 1004 allCards
        ⟨0, (uncountable.state.assetPools 1004).get isSome_uncountable, uncountable.state.tokens⟩).map
          Withdrawal.total = .error (.panic 0x11) := by
    decide
  refine ⟨World.run_after (fun _ _ => True) _, by decide, hpaid, fun a => ?_, hoverflows⟩
  rw [hstored]

end Redeemy
