import Redeemy.Proof.Selection

/-!
# Withdrawing everything

If the transfers to the depositers succeed, the three loops of a withdrawal succeed on the boxes and
token ids that a pool stores, in whatever order they are listed.
-/

namespace Redeemy

open Fallible EnumerableSet SwapRemove

variable {F : Type → Type}
variable {pool : AssetPoolV1 F} {p self c : Address} {t : AssetType} {tokens tokens' : Tokens}
variable {box stored : AssetBox} {boxes boxes' : List AssetBox} {accepts : Address → Bool}
variable {s s' : Withdrawal F} {a : Nat} {Q : Tokens → Prop}

/-! ### The transfers -/

/-- What a withdrawal of the whole box pays to its depositer. -/
def AssetBox.payout (p : Address) (t : AssetType) (c : Address) (box : AssetBox) : Movement where
  cause := .withdraw
  pool := p
  assetType := t
  contractAddress := c
  party := box.depositer
  amountOrTokenId := match t with
    | .ERC721 => box.amountOrTokenId
    | _ => box.amountOrTokenId * box.numberOfCards

/-- The transfer that `m` records. -/
def Tokens.pay (accepts : Address → Bool) (tokens : Tokens) (m : Movement) : Result Tokens :=
  match m.assetType with
  | .ERC721 => do
    let tokens ← tokens.erc721TransferFrom m.contractAddress m.pool m.pool m.party m.amountOrTokenId
    pure (tokens.record m)
  | .ERC20 => do
    require (m.amountOrTokenId < UINT256_SIZE) (.panic 0x11)
    let (tokens, answer) ←
      tokens.erc20Transfer m.contractAddress m.pool m.party m.amountOrTokenId
    pure (tokens.recordIf answer.moves m)
  | .NativeToken => do
    require (m.amountOrTokenId < UINT256_SIZE) (.panic 0x11)
    require (accepts m.party = true ∧ tokens.refuses m.party = false) .empty
    let tokens ← tokens.send m.pool m.party m.amountOrTokenId .empty
    pure (tokens.record m)

/-! ### One box -/

/-- No two fungible boxes have the same amount, and an ERC721 box has one card. -/
def Tidy : AssetType → List AssetBox → Prop
  | .ERC721, boxes => ∀ b ∈ boxes, b.numberOfCards = 1
  | _, boxes => (boxes.map AssetBox.amountOrTokenId).Nodup

theorem Tidy.of_cons_perm (h : Tidy t boxes) (hperm : (box :: boxes').Perm boxes) :
    Tidy t boxes' := by
  have hfungible : (boxes.map AssetBox.amountOrTokenId).Nodup →
      (boxes'.map AssetBox.amountOrTokenId).Nodup := fun hnodup =>
    (List.nodup_cons.mp ((hperm.map AssetBox.amountOrTokenId).nodup_iff.mpr hnodup)).2
  cases t with
  | ERC721 => exact fun b hb => h b (hperm.subset (List.mem_cons_of_mem _ hb))
  | ERC20 => exact hfungible h
  | NativeToken => exact hfungible h

/-- The search finds the first box with the amount, if it passes the check. -/
theorem findAssetBox_succeeds (check : AssetBox → Result Unit)
    (hmem : ∃ b ∈ boxes, b.amountOrTokenId = a)
    (hcheck : ∀ b ∈ boxes, b.amountOrTokenId = a → check b = .ok ()) :
    ∃ (k : Nat) (hk : k < boxes.length), boxes[k].amountOrTokenId = a ∧
      findAssetBox boxes a check = .ok (true, k) := by
  have hsearch : ∀ j, ∃ (k : Nat) (hk : k < boxes.length), boxes[k].amountOrTokenId = a ∧
      searchLoop a check boxes j = .ok (true, j + k + 1) := by
    induction boxes with
    | nil => simp at hmem
    | cons b boxes ih =>
      intro j
      by_cases heq : b.amountOrTokenId = a
      · refine ⟨0, by simp, heq, ?_⟩
        rw [searchLoop, if_pos heq, hcheck b List.mem_cons_self heq]
        rfl
      · obtain ⟨b', hb', hkey⟩ := hmem
        have hb' : b' ∈ boxes := (List.mem_cons.mp hb').resolve_left fun h => heq (h ▸ hkey)
        obtain ⟨k, hk, hkey', hloop⟩ := ih ⟨b', hb', hkey⟩
          (fun b hb => hcheck b (List.mem_cons_of_mem _ hb)) (j + 1)
        refine ⟨k + 1, by simpa using hk, by simpa using hkey', ?_⟩
        rw [searchLoop, if_neg heq, hloop]
        congr 2
        omega
  obtain ⟨k, hk, hkey, hloop⟩ := hsearch 0
  refine ⟨k, hk, hkey, ?_⟩
  unfold findAssetBox
  rw [hloop, Nat.zero_add, ok_bind]
  simp [checkedSub, ok_bind, pure, Except.pure]

theorem index_eq_getElem {α : Type} {l : List α} {i : Nat} (h : i < l.length) :
    index l i = .ok l[i] :=
  index_eq_ok.mpr ⟨h, rfl⟩

/-- All cards of a box leave with the box. -/
theorem lowerCards_all {i : Nat} (h : i < boxes.length) :
    lowerCards boxes i boxes[i].numberOfCards = .ok (swapRemove boxes i) := by
  unfold lowerCards
  rw [index_eq_getElem h, ok_bind, checkedSub, if_pos le_rfl, ok_bind, Nat.sub_self, if_pos rfl]
  exact removeAssetBox_eq_ok.mpr ⟨h, rfl⟩

/-- `f` takes a box that answers to the request `a` out of the boxes under a key, if the transfer of
that box succeeds. `g` reads the request off the box. -/
def Takes {α : Type} (accepts : Address → Bool) (p : Address) (t : AssetType) (c : Address)
    (g : AssetBox → α) (f : Withdrawal F → α → Result (Withdrawal F)) : Prop :=
  ∀ s a, Tidy t (s.pool.assetBoxes t c) → a ∈ (s.pool.assetBoxes t c).map g →
    ∃ box boxes', g box = a ∧ (box :: boxes').Perm (s.pool.assetBoxes t c) ∧
      ∀ tokens, s.tokens.pay accepts (box.payout p t c) = .ok tokens →
        s.total + box.numberOfCards < UINT256_SIZE →
        f s a = .ok ⟨s.total + box.numberOfCards, s.pool.setBoxes t c boxes', tokens⟩

/-- A stored fungible box is found by its amount. -/
theorem find_stored (htidy : (boxes.map AssetBox.amountOrTokenId).Nodup) (hmem : box ∈ boxes) :
    ∃ (k : Nat) (hk : k < boxes.length), boxes[k] = box ∧
      findAssetBox boxes box.amountOrTokenId (enoughCards box) = .ok (true, k) := by
  have hsame : ∀ b ∈ boxes, b.amountOrTokenId = box.amountOrTokenId → b = box := fun b hb hkey =>
    List.inj_on_of_nodup_map htidy hb hmem hkey
  obtain ⟨k, hk, hkey, hfind⟩ := findAssetBox_succeeds (enoughCards box) ⟨box, hmem, rfl⟩
    fun b hb hkey => by
      rw [hsame b hb hkey]
      exact require_of le_rfl
  exact ⟨k, hk, hsame _ (List.getElem_mem hk) hkey, hfind⟩

theorem takes_withdrawErc20Box :
    Takes (F := F) accepts p .ERC20 c id (withdrawErc20Box p c) := by
  intro s box htidy hmem
  rw [List.map_id] at hmem
  obtain ⟨k, hk, hbox, hfind⟩ := find_stored htidy hmem
  refine ⟨box, swapRemove (s.pool.assetBoxes .ERC20 c) k, rfl, hbox ▸ cons_swapRemove_perm hk,
    fun tokens hpay hfits => ?_⟩
  simp only [Tokens.pay, AssetBox.payout, bind_eq_ok, pure_eq_ok, Prod.exists] at hpay
  obtain ⟨_, hamount, tokens', answer, htransfer, rfl⟩ := hpay
  have hamount : box.amountOrTokenId * box.numberOfCards < UINT256_SIZE := require_eq_ok.mp hamount
  have hlower := lowerCards_all hk
  rw [hbox] at hlower
  unfold withdrawErc20Box findErc20AssetBox
  simp only [hfind, ok_bind, require_of, checkedMul, if_pos hamount, htransfer, hlower, checkedAdd,
    if_pos hfits]
  rfl

theorem takes_withdrawNativeTokenBox :
    Takes (F := F) accepts p .NativeToken p id (withdrawNativeTokenBox accepts p) := by
  intro s box htidy hmem
  rw [List.map_id] at hmem
  obtain ⟨k, hk, hbox, hfind⟩ := find_stored htidy hmem
  refine ⟨box, swapRemove (s.pool.assetBoxes .NativeToken p) k, rfl, hbox ▸ cons_swapRemove_perm hk,
    fun tokens hpay hfits => ?_⟩
  simp only [Tokens.pay, AssetBox.payout, bind_eq_ok, pure_eq_ok] at hpay
  obtain ⟨_, hamount, _, haccepts, tokens', hsend, rfl⟩ := hpay
  have hamount : box.amountOrTokenId * box.numberOfCards < UINT256_SIZE := require_eq_ok.mp hamount
  have hlower := lowerCards_all hk
  rw [hbox] at hlower
  unfold withdrawNativeTokenBox findNativeTokenAssetBox
  simp only [hfind, ok_bind, require_of, checkedMul, if_pos hamount,
    require_of (require_eq_ok.mp haccepts), hsend, hlower, checkedAdd, if_pos hfits]
  rfl

theorem takes_withdrawErc721Token :
    Takes (F := F) accepts p .ERC721 c AssetBox.amountOrTokenId (withdrawErc721Token p c) := by
  intro s tokenId htidy hmem
  obtain ⟨stored, hstored, hkey⟩ := List.mem_map.mp hmem
  obtain ⟨k, hk, hkey, hfind⟩ := findAssetBox_succeeds (fun _ => pure ())
    ⟨stored, hstored, hkey⟩ fun _ _ _ => rfl
  refine ⟨_, swapRemove (s.pool.assetBoxes .ERC721 c) k, hkey, cons_swapRemove_perm hk,
    fun tokens hpay hfits => ?_⟩
  have hone : ((s.pool.assetBoxes .ERC721 c)[k]).numberOfCards = 1 := htidy _ (List.getElem_mem hk)
  rw [hone] at hfits ⊢
  simp only [Tokens.pay, AssetBox.payout, bind_eq_ok, pure_eq_ok, hkey] at hpay
  obtain ⟨tokens', htransfer, rfl⟩ := hpay
  unfold withdrawErc721Token findErc721AssetBox
  simp only [hfind, ok_bind, require_of, index_eq_getElem hk, htransfer,
    removeAssetBox_eq_ok.mpr ⟨hk, rfl⟩, checkedAdd, if_pos hfits]
  rfl

/-! ### The loops -/

/-- `f` makes the transfers `m`, counts `n` cards, and leaves the boxes outside `keys` alone. -/
structure Settled (accepts : Address → Bool) (Q : Tokens → Prop) (keys : List (AssetType × Address))
    (m : Multiset Movement) (n : Nat) (s s' : Withdrawal F) : Prop where
  total : s'.total = s.total + n
  settles : Settles (Tokens.pay accepts) Q m s'.tokens
  others : ∀ key, key ∉ keys → s'.pool.assetBoxes key.1 key.2 = s.pool.assetBoxes key.1 key.2

/-- The loop over the requests for one contract. -/
theorem Takes.foldlM {α : Type} {g : AssetBox → α} {f : Withdrawal F → α → Result (Withdrawal F)}
    (h : Takes accepts p t c g f) {requests : List α} {m : Multiset Movement} {s : Withdrawal F}
    (htidy : Tidy t (s.pool.assetBoxes t c))
    (hrequests : ((s.pool.assetBoxes t c).map g).Perm requests)
    (hsettles : Settles (Tokens.pay accepts) Q
      (((s.pool.assetBoxes t c).map (AssetBox.payout p t c) : List Movement) + m) s.tokens)
    (hfits : s.total + cards (s.pool.assetBoxes t c) < UINT256_SIZE) :
    ∃ s', requests.foldlM f s = .ok s' ∧
      Settled accepts Q [(t, c)] m (cards (s.pool.assetBoxes t c)) s s' := by
  induction requests generalizing s with
  | nil =>
    have hnil : s.pool.assetBoxes t c = [] := List.map_eq_nil_iff.mp hrequests.eq_nil
    rw [hnil] at hsettles ⊢
    exact ⟨s, rfl, rfl, by simpa using hsettles, fun _ _ => rfl⟩
  | cons a requests ih =>
    obtain ⟨box, boxes', rfl, hperm, hf⟩ := h s a htidy (hrequests.symm.subset List.mem_cons_self)
    have hcards : cards (s.pool.assetBoxes t c) = box.numberOfCards + cards boxes' := by
      rw [cards_eq_sum, ← (hperm.map AssetBox.numberOfCards).sum_eq, cards_eq_sum]
      rfl
    rw [← Multiset.coe_eq_coe.mpr (hperm.map (AssetBox.payout p t c)), List.map_cons,
      ← Multiset.cons_coe, Multiset.cons_add] at hsettles
    obtain ⟨tokens, hpay, hsettles⟩ := hsettles.cons
    have hstep := hf tokens hpay (by omega)
    have hboxes : (s.pool.setBoxes t c boxes').assetBoxes t c = boxes' :=
      AssetPoolV1.assetBoxes_setBoxes_self
    obtain ⟨s', hs', hsettled⟩ := ih (s := ⟨s.total + box.numberOfCards,
        s.pool.setBoxes t c boxes', tokens⟩) (by rw [hboxes]; exact htidy.of_cons_perm hperm)
      (by rw [hboxes]; exact List.Perm.cons_inv ((hperm.map g).trans hrequests))
      (by rw [hboxes]; exact hsettles) (by rw [hboxes]; dsimp only; omega)
    refine ⟨s', by rw [List.foldlM_cons, hstep, ok_bind, hs'], ?_, hsettled.settles,
      fun key hkey => ?_⟩
    · have htotal := hsettled.total
      rw [hboxes] at htotal
      dsimp only at htotal
      omega
    · rw [hsettled.others key hkey]
      refine AssetPoolV1.assetBoxes_setBoxes_of_ne fun heq => hkey ?_
      exact List.mem_singleton.mpr (Prod.ext heq.1 heq.2)

/-- Counting from zero and adding the count afterwards makes no difference. -/
theorem Settled.subtotal {f : Withdrawal F → Result (Withdrawal F)}
    {keys : List (AssetType × Address)} {m : Multiset Movement} {n : Nat} {s : Withdrawal F}
    (hfits : s.total + n < UINT256_SIZE)
    (h : ∃ s', f { s with total := 0 } = .ok s' ∧ Settled accepts Q keys m n { s with total := 0 } s') :
    ∃ s', subtotal f s = .ok s' ∧ Settled accepts Q keys m n s s' := by
  obtain ⟨s', hs', hsettled⟩ := h
  have htotal : s'.total = n := hsettled.total.trans (Nat.zero_add n)
  refine ⟨{ s' with total := s.total + n }, ?_, rfl, hsettled.settles, hsettled.others⟩
  unfold Redeemy.subtotal
  rw [hs', ok_bind, htotal, checkedAdd, if_pos hfits]
  rfl

/-- The loop over the contracts of one asset type. `boxes` are the boxes stored under each. -/
theorem settled_contracts {α : Type} {g : AssetBox → α}
    {f : Address → Withdrawal F → α → Result (Withdrawal F)}
    {step : Withdrawal F → Address × Option (List α) → Result (Withdrawal F)}
    (hf : ∀ c, Takes accepts p t c g (f c))
    (hstep : ∀ s c requests, step s (c, some requests) =
      subtotal (fun s => requests.foldlM (f c) s) s)
    {boxes : Address → List AssetBox} (htidy : ∀ c, Tidy t (boxes c))
    {contracts : List Address} {requests : List (List α)} {m : Multiset Movement} {s : Withdrawal F}
    (hnodup : contracts.Nodup) (hstored : ∀ c ∈ contracts, s.pool.assetBoxes t c = boxes c)
    (hrequests : List.Forall₂ (fun c requests => ((boxes c).map g).Perm requests) contracts requests)
    (hsettles : Settles (Tokens.pay accepts) Q
      ((contracts.flatMap fun c => (boxes c).map (AssetBox.payout p t c) : List Movement) + m) s.tokens)
    (hfits : s.total + (contracts.map fun c => cards (boxes c)).sum < UINT256_SIZE) :
    ∃ s', (pairUp contracts requests).foldlM step s = .ok s' ∧
      Settled accepts Q (contracts.map fun c => (t, c)) m (contracts.map fun c => cards (boxes c)).sum
        s s' := by
  induction contracts generalizing requests s with
  | nil =>
    cases hrequests
    exact ⟨s, rfl, rfl, by simpa using hsettles, fun _ _ => rfl⟩
  | cons c contracts ih =>
    cases hrequests with
    | @cons _ first _ rest hfirst hrest =>
      obtain ⟨hc, hnodup⟩ := List.nodup_cons.mp hnodup
      rw [List.flatMap_cons, ← Multiset.coe_add, add_assoc] at hsettles
      rw [List.map_cons, List.sum_cons] at hfits
      have hboxes := hstored c List.mem_cons_self
      rw [← hboxes] at hfirst hsettles hfits
      obtain ⟨s₁, hs₁, hsettled₁⟩ := Settled.subtotal (f := fun s => first.foldlM (f c) s)
        (n := cards (s.pool.assetBoxes t c)) (s := s) (by omega)
        ((hf c).foldlM (s := { s with total := 0 }) (hboxes ▸ htidy c) hfirst hsettles
          (by dsimp only; omega))
      have hsame : ∀ c' ∈ contracts, s₁.pool.assetBoxes t c' = boxes c' := by
        intro c' hc'
        rw [← hstored c' (List.mem_cons_of_mem _ hc')]
        refine hsettled₁.others (t, c') fun hmem => hc ?_
        exact (Prod.mk.inj (List.mem_singleton.mp hmem)).2 ▸ hc'
      have htotal₁ := hsettled₁.total
      obtain ⟨s', hs', hsettled⟩ := ih hnodup hsame hrest hsettled₁.settles (by omega)
      refine ⟨s', ?_, ?_, hsettled.settles, fun key hkey => ?_⟩
      · rw [pairUp, List.foldlM_cons, hstep, hs₁, ok_bind, hs']
      · rw [hsettled.total, htotal₁, List.map_cons, List.sum_cons, hboxes, Nat.add_assoc]
      · rw [List.map_cons, List.mem_cons, not_or] at hkey
        rw [hsettled.others key hkey.2, hsettled₁.others key (by simpa using hkey.1)]

/-! ### All boxes of a pool -/

variable [EnumerableSet F]

/-- The transfers that give everything back. -/
def AssetPoolV1.payouts (pool : AssetPoolV1 F) (p : Address) : List Movement :=
  ((values (pool.contractAddresses .ERC20)).flatMap fun c =>
    (pool.assetBoxes .ERC20 c).map (AssetBox.payout p .ERC20 c)) ++
  (((values (pool.contractAddresses .ERC721)).flatMap fun c =>
    (pool.assetBoxes .ERC721 c).map (AssetBox.payout p .ERC721 c)) ++
  (pool.assetBoxes .NativeToken p).map (AssetBox.payout p .NativeToken p))

/-- The arguments name every listed contract, and with it every stored box or token id, in any
order. -/
structure Assets.Everything (assets : Assets) (pool : AssetPoolV1 F) (p : Address) : Prop where
  erc20Contracts : (values (pool.contractAddresses .ERC20)).Perm assets.erc20ContractAddresses
  erc20Boxes : List.Forall₂ (fun c boxes => (pool.assetBoxes .ERC20 c).Perm boxes)
    assets.erc20ContractAddresses assets.erc20Boxes
  erc721Contracts : (values (pool.contractAddresses .ERC721)).Perm assets.erc721ContractAddresses
  erc721TokenIds : List.Forall₂
    (fun c tokenIds => ((pool.assetBoxes .ERC721 c).map AssetBox.amountOrTokenId).Perm tokenIds)
    assets.erc721ContractAddresses assets.erc721TokenIds
  nativeTokenBoxes : (pool.assetBoxes .NativeToken p).Perm assets.nativeTokenBoxes

/-- The number of cards under the listed contracts. -/
def AssetPoolV1.listedCards (pool : AssetPoolV1 F) (p : Address) : Nat :=
  ((values (pool.contractAddresses .ERC20)).map fun c => cards (pool.assetBoxes .ERC20 c)).sum +
    ((values (pool.contractAddresses .ERC721)).map fun c => cards (pool.assetBoxes .ERC721 c)).sum +
    cards (pool.assetBoxes .NativeToken p)

/-- If the transfers succeed, the loops succeed on everything that is stored. -/
theorem withdrawBoxes_succeeds (htidy : ∀ t c, Tidy t (pool.assetBoxes t c))
    {assets : Assets} (hassets : assets.Everything pool p)
    (hsettles : Settles (Tokens.pay accepts) Q (pool.payouts p : List Movement) tokens)
    (hfits : pool.listedCards p < UINT256_SIZE) :
    ∃ s', withdrawBoxes accepts p assets ⟨0, pool, tokens⟩ = .ok s' ∧
      s'.total = pool.listedCards p ∧ Q s'.tokens := by
  have hcards20 := (hassets.erc20Contracts.map fun c => cards (pool.assetBoxes .ERC20 c)).sum_eq
  have hcards721 := (hassets.erc721Contracts.map fun c => cards (pool.assetBoxes .ERC721 c)).sum_eq
  unfold AssetPoolV1.listedCards at hfits ⊢
  rw [hcards20, hcards721] at hfits ⊢
  -- the payouts in the order in which the arguments name the contracts
  have hpayouts : (pool.payouts p : Multiset Movement) =
      (assets.erc20ContractAddresses.flatMap fun c =>
        (pool.assetBoxes .ERC20 c).map (AssetBox.payout p .ERC20 c) : List Movement) +
      ((assets.erc721ContractAddresses.flatMap fun c =>
        (pool.assetBoxes .ERC721 c).map (AssetBox.payout p .ERC721 c) : List Movement) +
      (((pool.assetBoxes .NativeToken p).map (AssetBox.payout p .NativeToken p) : List Movement) +
        0)) := by
    rw [add_zero, Multiset.coe_add, Multiset.coe_add, Multiset.coe_eq_coe]
    exact (hassets.erc20Contracts.flatMap_right _).append
      ((hassets.erc721Contracts.flatMap_right _).append_right _)
  rw [hpayouts] at hsettles
  obtain ⟨s₁, hs₁, hsettled₁⟩ := Settled.subtotal (s := ⟨0, pool, tokens⟩)
    (f := withdrawErc20Assets p assets.erc20ContractAddresses assets.erc20Boxes)
    (n := (assets.erc20ContractAddresses.map fun c => cards (pool.assetBoxes .ERC20 c)).sum)
    (by dsimp only; omega)
    (settled_contracts (fun _ => takes_withdrawErc20Box) (fun _ _ _ => rfl) (htidy .ERC20)
      (hassets.erc20Contracts.nodup_iff.mp (nodup_values _)) (fun _ _ => rfl)
      (by simpa using hassets.erc20Boxes) hsettles (by dsimp only; omega))
  have htotal₁ := hsettled₁.total
  have hother₁ : ∀ t c, t ≠ .ERC20 → s₁.pool.assetBoxes t c = pool.assetBoxes t c := fun t c ht =>
    hsettled₁.others (t, c) fun hmem => ht (by
      obtain ⟨_, _, heq⟩ := List.mem_map.mp hmem
      exact (congrArg Prod.fst heq).symm)
  dsimp only at htotal₁
  obtain ⟨s₂, hs₂, hsettled₂⟩ := Settled.subtotal (s := s₁)
    (f := withdrawErc721Assets p assets.erc721ContractAddresses assets.erc721TokenIds)
    (n := (assets.erc721ContractAddresses.map fun c => cards (pool.assetBoxes .ERC721 c)).sum)
    (by omega)
    (settled_contracts (fun _ => takes_withdrawErc721Token) (fun _ _ _ => rfl) (htidy .ERC721)
      (hassets.erc721Contracts.nodup_iff.mp (nodup_values _))
      (fun c _ => hother₁ .ERC721 c (by simp)) hassets.erc721TokenIds hsettled₁.settles
      (by dsimp only; omega))
  have htotal₂ := hsettled₂.total
  have hnative : s₂.pool.assetBoxes .NativeToken p = pool.assetBoxes .NativeToken p := by
    rw [← hother₁ .NativeToken p (by simp)]
    refine hsettled₂.others (.NativeToken, p) fun hmem => ?_
    obtain ⟨_, _, heq⟩ := List.mem_map.mp hmem
    cases heq
  have hlast := hsettled₂.settles
  rw [← hnative] at hlast
  obtain ⟨s₃, hs₃, hsettled₃⟩ := Settled.subtotal (s := s₂)
    (f := withdrawNativeTokenAssets accepts p assets.nativeTokenBoxes)
    (n := cards (s₂.pool.assetBoxes .NativeToken p)) (by rw [hnative]; omega)
    (takes_withdrawNativeTokenBox.foldlM (s := { s₂ with total := 0 }) (by rw [hnative]; exact htidy _ _)
      (by rw [hnative, List.map_id]; exact hassets.nativeTokenBoxes) hlast
      (by rw [hnative]; dsimp only; omega))
  have htotal₃ := hsettled₃.total
  rw [hnative] at htotal₃
  refine ⟨s₃, ?_, by omega, hsettled₃.settles.nil⟩
  unfold withdrawBoxes
  rw [hs₁, ok_bind, hs₂, ok_bind, hs₃]

end Redeemy
