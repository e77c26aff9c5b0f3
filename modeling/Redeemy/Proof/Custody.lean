import Redeemy.Proof.Holdings

/-!
# Custody

A pool owns every ERC721 token in its boxes, has each of them once, and keeps it in the name of the
admin whose deposit brought it in.
-/

namespace Redeemy

open Fallible EnumerableSet SwapRemove

variable {F : Type → Type}
variable {w w' : World F} {pool pool' : AssetPoolV1 F} {t t' : Tokens} {p c c' admin sender : Address}
variable {assets : Assets} {id value : Nat} {s s' : AssetPoolV1 F × Tokens}

/-! ### Owners and deposits -/

/-- A deposit of one ERC721 token into the pool at `p`. -/
def Movement.Brings (p c : Address) (id : Nat) (m : Movement) : Prop :=
  m.cause = .deposit ∧ m.pool = p ∧ m.assetType = .ERC721 ∧ m.contractAddress = c ∧
    m.amountOrTokenId = id

instance (p c : Address) (id : Nat) : DecidablePred (Movement.Brings p c id) := fun _ =>
  inferInstanceAs (Decidable (_ ∧ _))

namespace Tokens

/-- The ERC721 at `c` follows the standard. -/
def Standard (c : Address) (t : Tokens) : Prop := ∀ tok ∈ t.erc721 c, tok.standard = true

instance (c : Address) (t : Tokens) : Decidable (t.Standard c) := by
  unfold Standard
  infer_instance

def ownerOf (t : Tokens) (c : Address) (id : Nat) : Option Address :=
  (t.erc721 c).bind fun tok => tok.ownerOf id

/-- The admin whose deposit has brought a token into the pool at `p`, the last time it came in. -/
def broughtIn (t : Tokens) (p c : Address) (id : Nat) : Option Address :=
  (t.log.find? fun m => m.Brings p c id).map Movement.party

/-- Only a deposit of the token itself changes who has brought it in. -/
theorem Logs.broughtIn (h : Logs (fun m => ¬m.Brings p c id) t t') :
    t'.broughtIn p c id = t.broughtIn p c id := by
  obtain ⟨l, hl, hQ⟩ := h
  have hnone : (l.find? fun m => m.Brings p c id) = none := by
    rw [List.find?_eq_none]
    intro m hm
    simpa using hQ m hm
  unfold Tokens.broughtIn
  rw [hl, List.find?_append, hnone, Option.none_or]

theorem broughtIn_record : (t.record ⟨.deposit, p, .ERC721, c, admin, id⟩).broughtIn p c id =
    some admin := by
  simp [Tokens.broughtIn, record, Movement.Brings]

theorem ownerOf_of_leaves (hguards : Guards p t) (h : Leaves p t t')
    (howner : t.ownerOf c id = some p) : t'.ownerOf c id = some p := by
  obtain ⟨tok, htok, howns⟩ := Option.bind_eq_some_iff.mp howner
  obtain ⟨tok', htok', hkeeps⟩ := h.erc721 hguards c tok htok
  exact Option.bind_eq_some_iff.mpr ⟨tok', htok', hkeeps id howns⟩

/-- A transfer of a standard ERC721 moves one token, which the sender owned. -/
theorem ownerOf_erc721TransferFrom {operator src dst : Address} (hstandard : t.Standard c)
    (h : t.erc721TransferFrom c operator src dst id = .ok t') :
    t.ownerOf c id = some src ∧ ∀ c' id', t'.ownerOf c' id' =
      if c' = c ∧ id' = id then some dst else t.ownerOf c' id' := by
  obtain ⟨tok, tok', htok, hcall, rfl⟩ := erc721TransferFrom_eq_ok h
  obtain ⟨howner, _, rfl⟩ := ERC721.transferFrom_eq_ok hcall (hstandard tok htok)
  refine ⟨Option.bind_eq_some_iff.mpr ⟨tok, htok, howner⟩, fun c' id' => ?_⟩
  unfold Tokens.ownerOf
  by_cases hc : c' = c
  · subst hc
    by_cases hid : id' = id
    · subst hid
      simp [setERC721]
    · simp [setERC721, hid, htok]
  · simp [setERC721, hc]

theorem Standard.erc721TransferFrom {operator src dst : Address} (hstandard : t.Standard c)
    (h : t.erc721TransferFrom c' operator src dst id = .ok t') : t'.Standard c := by
  have hkeeps := keeps_erc721TransferFrom (a := src) h
  intro tok' htok'
  have hsame := hkeeps.contracts.erc721 c
  rw [Option.mem_def.mp htok'] at hsame
  obtain ⟨tok, htok, heq⟩ := Option.map_eq_some_iff.mp hsame.symm
  exact heq.symm.trans (hstandard tok htok)

end Tokens

/-! ### The boxes of one contract -/

/-- What holds of the boxes of the ERC721 at `c`. -/
structure InCustody (p c : Address) (pool : AssetPoolV1 F) (tokens : Tokens) : Prop where
  nodup : ((pool.assetBoxes .ERC721 c).map AssetBox.amountOrTokenId).Nodup
  owned : ∀ b ∈ pool.assetBoxes .ERC721 c, tokens.ownerOf c b.amountOrTokenId = some p
  depositer : ∀ b ∈ pool.assetBoxes .ERC721 c,
    tokens.broughtIn p c b.amountOrTokenId = some b.depositer

/-- A step that leaves the boxes as they are. -/
theorem InCustody.mono (h : InCustody p c pool t)
    (hboxes : pool'.assetBoxes .ERC721 c = pool.assetBoxes .ERC721 c)
    (hlogs : ∀ id, Tokens.Logs (fun m => ¬m.Brings p c id) t t')
    (howned : ∀ id, t.ownerOf c id = some p → t'.ownerOf c id = some p) :
    InCustody p c pool' t' where
  nodup := by
    rw [hboxes]
    exact h.nodup
  owned := fun b hb => by
    rw [hboxes] at hb
    exact howned _ (h.owned b hb)
  depositer := fun b hb => by
    rw [hboxes] at hb
    rw [(hlogs _).broughtIn]
    exact h.depositer b hb

/-- One token leaves the boxes; the others stay where they are. -/
theorem InCustody.remove {box : AssetBox} {rest : List AssetBox} (h : InCustody p c pool t)
    (hperm : (box :: rest).Perm (pool.assetBoxes .ERC721 c))
    (hboxes : (pool'.assetBoxes .ERC721 c).Sublist rest)
    (howned : ∀ id, id ≠ box.amountOrTokenId → t.ownerOf c id = some p → t'.ownerOf c id = some p)
    (hlogs : ∀ id, Tokens.Logs (fun m => ¬m.Brings p c id) t t') : InCustody p c pool' t' := by
  have hnodup := (hperm.map AssetBox.amountOrTokenId).nodup_iff.mpr h.nodup
  rw [List.map_cons, List.nodup_cons] at hnodup
  have hold : ∀ b ∈ pool'.assetBoxes .ERC721 c,
      b ∈ pool.assetBoxes .ERC721 c ∧ b.amountOrTokenId ≠ box.amountOrTokenId := by
    intro b hb
    have hrest := hboxes.subset hb
    refine ⟨hperm.subset (List.mem_cons_of_mem _ hrest), fun heq => hnodup.1 ?_⟩
    exact heq ▸ List.mem_map_of_mem hrest
  exact {
    nodup := hnodup.2.sublist (hboxes.map _)
    owned := fun b hb => howned _ (hold b hb).2 (h.owned b (hold b hb).1)
    depositer := fun b hb => by
      rw [(hlogs _).broughtIn]
      exact h.depositer b (hold b hb).1 }

/-- A token comes in from somebody else, so it was not there before. -/
theorem InCustody.push (h : InCustody p c pool t) (hadmin : p ≠ admin)
    (howner : t.ownerOf c id = some admin)
    (hmoved : ∀ id', t'.ownerOf c id' = if id' = id then some p else t.ownerOf c id')
    (hlog : t'.log = t.log) :
    InCustody p c
      (pool.setBoxes .ERC721 c (pool.assetBoxes .ERC721 c ++ [⟨admin, .ERC721, 1, id⟩]))
      (t'.record ⟨.deposit, p, .ERC721, c, admin, id⟩) := by
  have hnew : ∀ b ∈ pool.assetBoxes .ERC721 c, b.amountOrTokenId ≠ id := by
    intro b hb heq
    have howned := h.owned b hb
    rw [heq, howner, Option.some.injEq] at howned
    exact hadmin howned.symm
  have hlogs : ∀ id', id' ≠ id →
      Tokens.Logs (fun m => ¬m.Brings p c id') t (t'.record ⟨.deposit, p, .ERC721, c, admin, id⟩) :=
    fun id' hid => Tokens.logs_record hlog fun hbrings => hid hbrings.2.2.2.2.symm
  refine ⟨?_, fun b hb => ?_, fun b hb => ?_⟩
  · rw [AssetPoolV1.assetBoxes_setBoxes_self, List.map_append, List.nodup_append']
    refine ⟨h.nodup, List.nodup_singleton _, fun x hx hx' => ?_⟩
    obtain ⟨b, hb, rfl⟩ := List.mem_map.mp hx
    exact hnew b hb (List.mem_singleton.mp hx')
  · show t'.ownerOf c b.amountOrTokenId = some p
    rw [AssetPoolV1.assetBoxes_setBoxes_self] at hb
    rw [hmoved]
    rcases List.mem_append.mp hb with hb | hb
    · rw [if_neg (hnew b hb)]
      exact h.owned b hb
    · rw [List.mem_singleton.mp hb, if_pos rfl]
  · rw [AssetPoolV1.assetBoxes_setBoxes_self] at hb
    rcases List.mem_append.mp hb with hb | hb
    · rw [(hlogs _ (hnew b hb)).broughtIn]
      exact h.depositer b hb
    · rw [List.mem_singleton.mp hb]
      exact Tokens.broughtIn_record

/-! ### Small steps -/

/-- A movement that is no deposit of an ERC721 token of `c` brings none in. -/
theorem not_brings {m : Movement} (h : m.cause ≠ .deposit ∨ m.assetType ≠ .ERC721 ∨
    m.contractAddress ≠ c) : ¬m.Brings p c id := by
  rintro ⟨hcause, _, htype, hcontract, _⟩
  rcases h with h | h | h
  · exact h hcause
  · exact h htype
  · exact h hcontract

theorem erc721_erc20Call {f : ERC20 → Result ERC20} {answer : ERC20Answer}
    (h : t.erc20Call c' f = .ok (t', answer)) : t'.erc721 = t.erc721 := by
  obtain ⟨_, _, _, _, rfl, _⟩ := Tokens.erc20Call_eq_ok h
  rfl

@[simp] theorem erc721_recordIf {moves : Bool} {m : Movement} :
    (t.recordIf moves m).erc721 = t.erc721 := by
  unfold Tokens.recordIf
  split <;> rfl

variable [EnumerableSet F]

theorem DepositStep.inCustody (hp : p ≠ admin) (hstandard : s.2.Standard c)
    (h : DepositStep p admin assets s s') (hs : InCustody p c s.1 s.2) :
    InCustody p c s'.1 s'.2 ∧ s'.2.Standard c := by
  cases h with
  | @erc20 pool pool' tokens tokens' answer c' boxes _ hpull hstore =>
    have hsame := erc721_erc20Call hpull
    have hne : AssetType.ERC721 ≠ .ERC20 := by simp
    have hboxes := congrFun (assetBoxes_storeBoxes hne hstore) c
    refine ⟨hs.mono hboxes (fun id => ?_) (fun id hid => ?_), ?_⟩
    · exact Tokens.logs_recordIf (Tokens.silent_erc20Call hpull).log (not_brings (.inr (.inl (by simp))))
    · unfold Tokens.ownerOf
      rwa [erc721_recordIf, hsame]
    · unfold Tokens.Standard
      rwa [erc721_recordIf, hsame]
  | @erc721Contract pool tokens c' =>
    exact ⟨hs.mono (by simp) (fun _ => Tokens.logs_of_eq rfl) (fun _ => id), hstandard⟩
  | @erc721Token pool tokens tokens' c' id _ hpull =>
    have hstandard' : tokens'.Standard c := Tokens.Standard.erc721TransferFrom hstandard hpull
    refine ⟨?_, hstandard'⟩
    have hlog := (Tokens.silent_erc721TransferFrom hpull).log
    by_cases hc : c = c'
    · subst hc
      obtain ⟨howner, hmoved⟩ := Tokens.ownerOf_erc721TransferFrom hstandard hpull
      exact hs.push hp howner (fun id' => by simpa using hmoved c id') hlog
    · -- the tokens of another contract
      refine hs.mono (AssetPoolV1.assetBoxes_setBoxes_of_ne fun heq => hc heq.2)
        (fun id' => Tokens.logs_record hlog (not_brings (.inr (.inr (Ne.symm hc)))))
        fun id' hid => ?_
      obtain ⟨_, _, _, _, rfl⟩ := Tokens.erc721TransferFrom_eq_ok hpull
      simpa [Tokens.ownerOf, Tokens.setERC721, Tokens.record, hc] using hid

theorem DepositSteps.inCustody (hp : p ≠ admin) (hstandard : s.2.Standard c)
    (h : DepositSteps p admin assets s s') (hs : InCustody p c s.1 s.2) :
    InCustody p c s'.1 s'.2 ∧ s'.2.Standard c := by
  induction h with
  | refl => exact ⟨hs, hstandard⟩
  | tail _ hstep ih => exact hstep.inCustody hp ih.2 ih.1

/-- The transfer of one token leaves the owners of all others alone. -/
theorem ownerOf_of_ne {operator src dst : Address} (hstandard : t.Standard c)
    (h : t.erc721TransferFrom c' operator src dst id = .ok t') (id' : Nat)
    (hne : ¬(c = c' ∧ id' = id)) (howner : t.ownerOf c id' = some p) :
    t'.ownerOf c id' = some p := by
  by_cases hc : c = c'
  · subst hc
    rw [(Tokens.ownerOf_erc721TransferFrom hstandard h).2, if_neg hne]
    exact howner
  · obtain ⟨_, _, _, _, rfl⟩ := Tokens.erc721TransferFrom_eq_ok h
    simpa [Tokens.ownerOf, Tokens.setERC721, hc] using howner

omit [EnumerableSet F] in
theorem WithdrawStep.inCustody {accepts : Address → Bool} (hstandard : s.2.Standard c)
    (h : WithdrawStep accepts p assets s s') (hs : InCustody p c s.1 s.2) :
    InCustody p c s'.1 s'.2 ∧ s'.2.Standard c := by
  have hlogs : ∀ id, Tokens.Logs (fun m => ¬m.Brings p c id) s.2 s'.2 := fun id =>
    h.logs.mono fun m hm => not_brings (.inl (by rw [hm.2]; simp))
  cases h with
  | @erc20 pool tokens tokens' answer stored boxes' k c' boxes box _ _ _ _ hpay =>
    have hsame := erc721_erc20Call hpay
    have hboxes : (pool.setBoxes .ERC20 c' boxes').assetBoxes .ERC721 c = pool.assetBoxes .ERC721 c :=
      AssetPoolV1.assetBoxes_setBoxes_of_ne (by simp)
    refine ⟨hs.mono hboxes hlogs (fun id hid => ?_), ?_⟩
    · unfold Tokens.ownerOf
      rwa [erc721_recordIf, hsame]
    · unfold Tokens.Standard
      rwa [erc721_recordIf, hsame]
  | @erc721 pool tokens tokens' stored k c' tokenIds id _ _ hstored hid hpay =>
    have hstandard' : tokens'.Standard c := Tokens.Standard.erc721TransferFrom hstandard hpay
    refine ⟨?_, hstandard'⟩
    obtain ⟨hk, hget⟩ := List.getElem?_eq_some_iff.mp hstored
    by_cases hc : c = c'
    · subst hc
      have hperm : (stored :: swapRemove (pool.assetBoxes .ERC721 c) k).Perm
          (pool.assetBoxes .ERC721 c) := hget ▸ cons_swapRemove_perm hk
      refine hs.remove hperm (by simp) (fun id' hne howner => ?_) hlogs
      exact ownerOf_of_ne hstandard hpay id' (fun heq => hne (heq.2.trans hid.symm)) howner
    · refine hs.mono (AssetPoolV1.assetBoxes_setBoxes_of_ne fun heq => hc heq.2) hlogs
        fun id' howner => ?_
      exact ownerOf_of_ne hstandard hpay id' (fun heq => hc heq.1) howner
  | @native pool tokens tokens' stored boxes' k box _ _ _ _ hpay =>
    obtain ⟨_, rfl⟩ := Tokens.send_eq_ok hpay
    have hboxes : (pool.setBoxes .NativeToken p boxes').assetBoxes .ERC721 c =
        pool.assetBoxes .ERC721 c :=
      AssetPoolV1.assetBoxes_setBoxes_of_ne (by simp)
    exact ⟨hs.mono hboxes hlogs fun _ => id, hstandard⟩

omit [EnumerableSet F] in
theorem WithdrawSteps.inCustody {accepts : Address → Bool} (hstandard : s.2.Standard c)
    (h : WithdrawSteps accepts p assets s s') (hs : InCustody p c s.1 s.2) :
    InCustody p c s'.1 s'.2 ∧ s'.2.Standard c := by
  induction h with
  | refl => exact ⟨hs, hstandard⟩
  | tail _ hstep ih => exact hstep.inCustody ih.2 ih.1

/-- The draw of the only card of a box takes the box out of its list. -/
theorem Drawn.perm_of_oneCard {card : Card} (h : Drawn pool pool' card)
    (hone : card.box.numberOfCards = 1) : ∃ rest,
      (card.box :: rest).Perm (pool.assetBoxes card.assetType card.contractAddress) ∧
      (pool'.assetBoxes card.assetType card.contractAddress).Sublist rest := by
  obtain ⟨boxes, hupdate, rfl⟩ := h.left
  obtain ⟨hi, hbox, ⟨hmany, _⟩ | ⟨_, rfl⟩⟩ := updateAssetBox_cases hupdate
  · omega
  · refine ⟨_, hbox ▸ cons_swapRemove_perm hi, ?_⟩
    unfold AssetPoolV1.afterDraw
    split_ifs <;> simp

theorem Drawn.inCustody {card : Card} {receiver : Address} {requestId : Nat} {tokens : Tokens}
    (hone : OneCardEach pool) (hstandard : w.tokens.Standard c) (h : Drawn pool pool' card)
    (hpay : w.payCard p receiver requestId card = .ok tokens) (hs : InCustody p c pool w.tokens) :
    InCustody p c pool' tokens := by
  have hlogs : ∀ id, Tokens.Logs (fun m => ¬m.Brings p c id) w.tokens tokens := fun id =>
    (logs_payCard hpay).mono fun m hm => not_brings (.inl (by rw [hm.1.2]; simp))
  obtain ⟨tokens₁, moves, rfl, hcase⟩ := payCard_cases hpay
  split at hcase
  · rename_i ht
    obtain ⟨answer, hcall, _⟩ := hcase
    have hsame := erc721_erc20Call hcall
    refine hs.mono (h.assetBoxes_of_ne fun heq => by simp [ht] at heq) hlogs fun id hid => ?_
    unfold Tokens.ownerOf
    rwa [erc721_recordIf, hsame]
  · rename_i ht
    obtain ⟨_, rfl⟩ := Tokens.send_eq_ok hcase.2.2
    refine hs.mono (h.assetBoxes_of_ne fun heq => by simp [ht] at heq) hlogs fun id hid => ?_
    unfold Tokens.ownerOf
    rwa [erc721_recordIf]
  · rename_i ht
    have howned : ∀ id, ¬(c = card.contractAddress ∧ id = card.box.amountOrTokenId) →
        w.tokens.ownerOf c id = some p → (tokens₁.recordIf moves ⟨.fulfill requestId, p,
          card.assetType, card.contractAddress, receiver, card.box.amountOrTokenId⟩).ownerOf c id =
          some p := by
      intro id hne howner
      unfold Tokens.ownerOf
      rw [erc721_recordIf]
      exact ownerOf_of_ne hstandard hcase.2.2 id hne howner
    by_cases hc : c = card.contractAddress
    · subst hc
      have hcard : card.box.numberOfCards = 1 := hone _ _ (ht ▸ h.box_mem)
      obtain ⟨rest, hperm, hsub⟩ := h.perm_of_oneCard hcard
      rw [ht] at hperm hsub
      exact hs.remove hperm hsub (fun id hne => howned id fun heq => hne heq.2) hlogs
    · exact hs.mono (h.assetBoxes_of_ne fun heq => hc heq.2) hlogs
        fun id => howned id fun heq => hc heq.1

/-! ### Calls -/

theorem erc721_mintRedeemTokens {pools : Address → Option (RewardPoolV1 F)} {rp : RewardPoolV1 F}
    {n : Nat} (h : mintRedeemTokens pools p rp pool t n = .ok t') : t'.erc721 = t.erc721 := by
  rcases mintRedeemTokens_cases h with ⟨_, rfl⟩ | ⟨_, hmint⟩ | ⟨_, hmint⟩
  · rfl
  · obtain ⟨_, _, _, _, _, _, _, rfl⟩ := Tokens.erc20Mint_eq_ok hmint
    rfl
  · obtain ⟨_, _, _, rfl⟩ := Tokens.erc1155Mint_eq_ok hmint
    rfl

omit [EnumerableSet F] in
/-- A step that changes neither the boxes nor the ERC721 contracts. -/
theorem InCustody.of_eq (h : InCustody p c pool t)
    (hboxes : pool'.assetBoxes .ERC721 c = pool.assetBoxes .ERC721 c) (hsame : t'.erc721 = t.erc721)
    (hlogs : ∀ id, Tokens.Logs (fun m => ¬m.Brings p c id) t t') : InCustody p c pool' t' :=
  h.mono hboxes hlogs fun id howner => by
    unfold Tokens.ownerOf
    rwa [hsame]

theorem Deposit.inCustody (hp : p ≠ sender) (hstandard : w.tokens.Standard c)
    (h : Deposit w p sender value assets w') (hpool : w.assetPools p = some pool)
    (hpool' : w'.assetPools p = some pool') (hs : InCustody p c pool w.tokens) :
    InCustody p c pool' w'.tokens := by
  cases h with
  | @mk _ pool₁ pool₂ pool₃ _ n tokens tokens₁ tokens₂ tokens₃ tokens₄ hself _ _ hsend _ _ _ hvalue
      h20 hstore hsend' h721 _ _ hmint =>
    obtain rfl := Option.some.inj (hpool.symm.trans hself)
    obtain rfl := setPool_self hpool'
    have hlog := Tokens.log_send hsend
    have hlog' := Tokens.log_send hsend'
    obtain ⟨_, rfl⟩ := Tokens.send_eq_ok hsend
    obtain ⟨_, rfl⟩ := Tokens.send_eq_ok hsend'
    have hstart : InCustody p c { pool with totalNumberOfAssets := pool.totalNumberOfAssets + n }
        { w.tokens with native := Ledger.move w.tokens.native sender p value } :=
      hs.of_eq rfl rfl fun _ => Tokens.logs_of_eq hlog
    obtain ⟨hfirst, hstandard₁⟩ := h20.inCustody hp hstandard hstart
    have hne : AssetType.ERC721 ≠ .NativeToken := by simp
    have hboxes := congrFun (assetBoxes_storeBoxes hne hstore) c
    have hmiddle : InCustody p c pool₂
        (Tokens.record { tokens₁ with native := Ledger.move tokens₁.native p p value }
          ⟨.deposit, p, .NativeToken, p, sender, value⟩) :=
      hfirst.of_eq hboxes rfl fun id =>
        Tokens.logs_record hlog' (not_brings (.inr (.inl (by simp))))
    have hstandard₂ : tokens₁.Standard c := hstandard₁
    have hlast : InCustody p c pool₃ tokens₃ := (h721.inCustody hp hstandard₂ hmiddle).1
    exact hlast.of_eq rfl (erc721_mintRedeemTokens hmint) fun _ =>
      Tokens.logs_of_eq (Tokens.silent_mintRedeemTokens hmint).log

theorem Withdraw.inCustody (hstandard : w.tokens.Standard c) (h : Withdraw w p sender assets w')
    (hpool : w.assetPools p = some pool) (hpool' : w'.assetPools p = some pool')
    (hs : InCustody p c pool w.tokens) : InCustody p c pool' w'.tokens := by
  cases h with
  | @mk _ _ s tokens hself _ _ hsteps _ _ _ hmint =>
    obtain rfl := Option.some.inj (hpool.symm.trans hself)
    obtain rfl := setPool_self hpool'
    have hlast : InCustody p c s.pool s.tokens := (hsteps.inCustody hstandard hs).1
    exact hlast.of_eq rfl (erc721_mintRedeemTokens hmint) fun _ =>
      Tokens.logs_of_eq (Tokens.silent_mintRedeemTokens hmint).log

/-! ### The invariant -/

variable {P : World F → Call → Prop} {cfg : CallStack.Config (World F) Call}

theorem inCustody_rule (hstandard : ∀ w call, P w call → w.tokens.Standard c) :
    AssetRule P p (fun w : World F => Sane w ∧ OnPool p OneCardEach w)
      (fun _ => InCustody p c) where
  initial := fun _ _ _ _ _ _ _ _ _ _ => by
    refine ⟨List.nodup_nil, ?_, ?_⟩ <;> simp [AssetPoolV1.initial]
  congr := fun own pool pool' tokens hboxes h => by
    refine h.of_eq ?_ rfl fun _ => Tokens.logs_of_eq rfl
    rw [hboxes]
  aside := fun own pool t t' hguards haside h =>
    h.mono rfl (fun id => haside.log.mono fun m hm hbrings => hm hbrings.2.1)
      fun id => Tokens.ownerOf_of_leaves hguards haside.toLeaves
  handOut := fun c' pool t answer dst n t' hcall h =>
    h.of_eq rfl (erc721_erc20Call hcall) fun _ => Tokens.logs_of_eq (Tokens.silent_erc20Call hcall).log
  deposit := fun w call value assets w' pool pool' hJ hcan hP _ h hpool hpool' hI =>
    h.inCustody (ne_of_system (system_of_assetPool hJ.1.wired hpool) hcan.2.1)
      (hstandard w call hP) hpool hpool' hI
  withdraw := fun w call assets w' pool pool' _ hP _ h hpool hpool' hI =>
    h.inCustody (hstandard w call hP) hpool hpool' hI
  paid := fun w call pool pool' receiver requestId card tokens hJ hP hpool h hpay hI =>
    h.inCustody (hJ.2 pool hpool) (hstandard w call hP) hpay hI

theorem kept_inCustody (hstandard : ∀ w call, P w call → w.tokens.Standard c) :
    Kept P (fun w : World F =>
      (Sane w ∧ OnPool p OneCardEach w) ∧ Holding p (fun _ => InCustody p c) w) := by
  have hone : Rule P (Sane : World F → Prop) (OnPool p OneCardEach) :=
    oneCardEach_rule.poolRule.rule
  exact (kept_sane.rule (fun _ => id) hone).rule (fun _ h => h.1)
    ((inCustody_rule hstandard).rule fun _ h => h.1)

/-- Whatever has happened to a pool, the boxes of a standard ERC721 are different tokens with one card
each, which the pool owns, in the names of the admins who have brought them in. -/
theorem erc721_in_custody (h : World.Run P cfg)
    (hstandard : ∀ w call, P w call → w.tokens.Standard c)
    (hpool : cfg.state.assetPools p = some pool) :
    ((pool.assetBoxes .ERC721 c).map AssetBox.amountOrTokenId).Nodup ∧
    ∀ b ∈ pool.assetBoxes .ERC721 c, b.numberOfCards = 1 ∧
      cfg.state.tokens.ownerOf c b.amountOrTokenId = some p ∧
      cfg.state.tokens.broughtIn p c b.amountOrTokenId = some b.depositer := by
  obtain ⟨⟨_, hone⟩, hcustody⟩ := (kept_inCustody (p := p) hstandard).run h
  have hpoolCustody := hcustody pool hpool
  refine ⟨hpoolCustody.nodup, fun b hb => ?_⟩
  exact ⟨hone pool hpool c b hb, hpoolCustody.owned b hb, hpoolCustody.depositer b hb⟩

/-- A token that has been withdrawn comes in again, from another admin. -/
def redeposited : CallStack.Config (World ListSet) Call :=
  World.after (fun w _ => w.tokens.Standard 11) [
    World.opening .CustomERC20,
    .call ⟨1, .erc721 11 (.setApprovalForAll 1004 true)⟩,
    World.poolCall 1 (.depositAssets 0 {
      World.nativeBoxes [] with
      erc721ContractAddresses := [11], erc721TokenIds := [[3, 5, 7]] }),
    World.poolCall 1 (.withdrawAssets {
      World.nativeBoxes [] with
      erc721ContractAddresses := [11], erc721TokenIds := [[3]] }),
    -- the admin at 6 gets the token and brings it back in
    .call ⟨1, .erc721 11 (.transferFrom 1 6 3)⟩,
    .call ⟨6, .erc721 11 (.setApprovalForAll 1004 true)⟩,
    World.poolCall 6 (.depositAssets 0 {
      World.nativeBoxes [] with
      erc721ContractAddresses := [11], erc721TokenIds := [[3]] })]

theorem isSome_redeposited : (redeposited.state.assetPools 1004).isSome = true := by
  decide

theorem erc721_in_custody_redeposited :
    (⟨6, .ERC721, 1, 3⟩ : AssetBox) ∈
      ((redeposited.state.assetPools 1004).get isSome_redeposited).assetBoxes .ERC721 11 ∧
    (((redeposited.state.assetPools 1004).get isSome_redeposited).assetBoxes .ERC721 11).length = 3 ∧
    ((((redeposited.state.assetPools 1004).get isSome_redeposited).assetBoxes .ERC721 11).map
      AssetBox.amountOrTokenId).Nodup ∧
    ∀ b ∈ ((redeposited.state.assetPools 1004).get isSome_redeposited).assetBoxes .ERC721 11,
      b.numberOfCards = 1 ∧ redeposited.state.tokens.ownerOf 11 b.amountOrTokenId = some 1004 ∧
      redeposited.state.tokens.broughtIn 1004 11 b.amountOrTokenId = some b.depositer :=
  have hstored : (⟨6, .ERC721, 1, 3⟩ : AssetBox) ∈
        ((redeposited.state.assetPools 1004).get isSome_redeposited).assetBoxes .ERC721 11 ∧
      (((redeposited.state.assetPools 1004).get isSome_redeposited).assetBoxes .ERC721 11).length =
        3 := by decide
  ⟨hstored.1, hstored.2,
    erc721_in_custody (World.run_after (fun w _ => w.tokens.Standard 11) _) (fun _ _ h => h)
      (Option.some_get isSome_redeposited).symm⟩

end Redeemy
