import Redeemy.Proof.Holdings

/-!
# Solvency

What the fungible boxes of a pool promise is covered by what the pool holds: no call lets the
promises grow by more than the holdings.
-/

namespace Redeemy

open Fallible EnumerableSet SwapRemove

variable {F : Type → Type}
variable {w w' : World F} {pool pool' : AssetPoolV1 F} {t t' : Tokens} {a p c admin sender : Address}
variable {assets : Assets} {key : AssetType × Address} {n value : Nat}
variable {s s₁ s' : AssetPoolV1 F × Tokens}

/-! ### Holdings -/

namespace Tokens

/-- The balance of `a` in the ERC20 at `c`. -/
def balanceOf (t : Tokens) (c a : Address) : Nat := (t.erc20 c).elim 0 fun tok => tok.balanceOf a

/-- What `p` holds of a fungible asset. -/
def held (t : Tokens) (p : Address) : AssetType × Address → Nat
  | (.ERC20, c) => t.balanceOf c p
  | (.NativeToken, _) => t.native p
  | (.ERC721, _) => 0

/-- The ERC20 at `c` moves what it is asked to move. -/
def Moving (c : Address) (t : Tokens) : Prop :=
  ∀ tok ∈ t.erc20 c, ∀ answer ∈ tok.answers, answer.moves = true

instance (c : Address) (t : Tokens) : Decidable (t.Moving c) := by
  unfold Moving
  infer_instance

variable (key) in
theorem held_le (hguards : Guards p t) (h : Leaves p t t') : t.held p key ≤ t'.held p key := by
  obtain ⟨assetType, c⟩ := key
  cases assetType with
  | ERC721 => exact Nat.le_refl 0
  | NativeToken => exact h.native
  | ERC20 =>
    show t.balanceOf c p ≤ t'.balanceOf c p
    unfold balanceOf
    cases htok : t.erc20 c with
    | none => exact Nat.zero_le _
    | some tok =>
      obtain ⟨tok', htok', hle⟩ := h.erc20 hguards c tok htok
      rw [htok']
      exact hle

@[simp] theorem held_record {m : Movement} : (t.record m).held p key = t.held p key := rfl

@[simp] theorem held_recordIf {moves : Bool} {m : Movement} :
    (t.recordIf moves m).held p key = t.held p key := by
  unfold recordIf
  split <;> rfl

variable (key) in
/-- A change of one ERC20 changes the holdings of that ERC20 only. -/
theorem held_setERC20 {tok : ERC20} (tok' : ERC20) (htok : t.erc20 c = some tok) :
    (t.setERC20 c tok').held p key + (if key = (.ERC20, c) then tok.balanceOf p else 0) =
      t.held p key + if key = (.ERC20, c) then tok'.balanceOf p else 0 := by
  obtain ⟨assetType, c'⟩ := key
  cases assetType with
  | ERC721 => rfl
  | NativeToken => rfl
  | ERC20 =>
    by_cases hc : c' = c
    · subst hc
      simp only [held, balanceOf, setERC20, Function.update_self, htok, Option.elim_some, if_true]
      omega
    · simp [held, balanceOf, setERC20, hc]

theorem Moving.call {f : ERC20 → Result ERC20} {answer : ERC20Answer} {c' : Address}
    (hf : ∀ tok tok', f tok = .ok tok' → tok'.answers = tok.answers) (hmoving : t.Moving c)
    (h : t.erc20Call c' f = .ok (t', answer)) : t'.Moving c ∧ (c' = c → answer.moves = true) := by
  obtain ⟨tok, tok', htok, hanswer, rfl, hcase⟩ := erc20Call_eq_ok h
  have hanswers : tok'.answers = tok.answers.tail := by
    rcases hcase with ⟨_, hcall⟩ | ⟨_, rfl⟩
    · exact hf _ _ hcall
    · rfl
  by_cases hc : c' = c
  · subst hc
    refine ⟨fun tok₁ htok₁ answer₁ hmem => ?_, fun _ => ?_⟩
    · simp only [setERC20, Function.update_self, Option.mem_some_iff] at htok₁
      subst htok₁
      rw [hanswers] at hmem
      exact hmoving tok htok answer₁ (List.mem_of_mem_tail hmem)
    · subst hanswer
      cases hlist : tok.answers with
      | nil => rfl
      | cons first rest => exact hmoving tok htok first (hlist ▸ List.mem_cons_self)
  · refine ⟨fun tok₁ htok₁ => hmoving tok₁ ?_, fun heq => absurd heq hc⟩
    simpa [setERC20, Ne.symm hc] using htok₁

theorem answers_transferFrom {tok tok' : ERC20} {spender src dst : Address}
    (h : tok.transferFrom spender src dst n = .ok tok') : tok'.answers = tok.answers := by
  obtain ⟨_, _, _, _, rfl⟩ := ERC20.transferFrom_eq_ok h
  rfl

variable (key) in
/-- A transfer out of `p` takes at most its amount. -/
theorem held_erc20Transfer {dst : Address} {answer : ERC20Answer}
    (h : t.erc20Transfer c p dst n = .ok (t', answer)) :
    t.held p key ≤ t'.held p key + if key = (.ERC20, c) then n else 0 := by
  obtain ⟨tok, tok', htok, _, rfl, hcase⟩ := erc20Call_eq_ok h
  have hset := held_setERC20 key (p := p) tok' htok
  have hle : tok.balanceOf p ≤ tok'.balanceOf p + n := by
    rcases hcase with ⟨_, hcall⟩ | ⟨_, rfl⟩
    · obtain ⟨_, rfl⟩ := ERC20.transfer_eq_ok hcall
      have hmove : tok.balanceOf p - n ≤ Ledger.move tok.balanceOf p dst n p := Ledger.sub_le_move
      show tok.balanceOf p ≤ Ledger.move tok.balanceOf p dst n p + n
      omega
    · exact Nat.le_add_right _ _
  split_ifs at hset ⊢ <;> omega

variable (key) in
/-- A transfer into `p` that moves the tokens brings its whole amount. -/
theorem held_erc20TransferFrom {src : Address} {answer : ERC20Answer} (hsrc : p ≠ src)
    (h : t.erc20TransferFrom c p src p n = .ok (t', answer)) (hmoves : key.2 = c → answer.moves = true) :
    t.held p key + (if key = (.ERC20, c) then n else 0) ≤ t'.held p key := by
  obtain ⟨tok, tok', htok, _, rfl, hcase⟩ := erc20Call_eq_ok h
  have hset := held_setERC20 key (p := p) tok' htok
  split_ifs at hset ⊢ with hkey
  · have hgot : tok'.balanceOf p = tok.balanceOf p + n := by
      rcases hcase with ⟨_, hcall⟩ | ⟨hstays, _⟩
      · obtain ⟨_, _, allowance, _, rfl⟩ := ERC20.transferFrom_eq_ok hcall
        exact Ledger.move_dst (Ne.symm hsrc)
      · rw [hmoves (congrArg Prod.snd hkey)] at hstays
        cases hstays
    omega
  · omega

variable (key) in
/-- A native transfer out of `p` takes at most its amount. -/
theorem held_send {dst : Address} {error : Revert} (h : t.send p dst n error = .ok t') :
    t.held p key ≤ t'.held p key + if key.1 = .NativeToken then n else 0 := by
  obtain ⟨_, rfl⟩ := send_eq_ok h
  obtain ⟨assetType, c⟩ := key
  cases assetType with
  | ERC721 => exact Nat.le_refl 0
  | ERC20 => exact Nat.le_refl _
  | NativeToken =>
    have hmove : t.native p - n ≤ Ledger.move t.native p dst n p := Ledger.sub_le_move
    show t.native p ≤ Ledger.move t.native p dst n p + n
    omega

variable (key) in
/-- A native transfer into `p` brings its whole amount. -/
theorem held_receive {src : Address} {error : Revert} (hsrc : p ≠ src)
    (h : t.send src p n error = .ok t') :
    t'.held p key = t.held p key + if key.1 = .NativeToken then n else 0 := by
  obtain ⟨_, rfl⟩ := send_eq_ok h
  obtain ⟨assetType, c⟩ := key
  cases assetType with
  | ERC721 => rfl
  | ERC20 => rfl
  | NativeToken => exact Ledger.move_dst (Ne.symm hsrc)

variable (key) in
theorem held_send_self {error : Revert} (h : t.send p p n error = .ok t') :
    t'.held p key = t.held p key := by
  obtain ⟨hn, rfl⟩ := send_eq_ok h
  rw [Ledger.move_self hn]

end Tokens

/-! ### Small steps -/

/-- What the boxes under a key promise. -/
def AssetPoolV1.owed (pool : AssetPoolV1 F) (key : AssetType × Address) : Nat :=
  worth (pool.assetBoxes key.1 key.2)

/-- The promises under `key` have not grown by more than the holdings. -/
def Backed (p : Address) (key : AssetType × Address) (s s' : AssetPoolV1 F × Tokens) : Prop :=
  s'.1.owed key + s.2.held p key ≤ s.1.owed key + s'.2.held p key

theorem Backed.trans (h : Backed p key s s₁) (h' : Backed p key s₁ s') : Backed p key s s' := by
  unfold Backed at *
  omega

variable (key) in
theorem owed_setBoxes (pool : AssetPoolV1 F) (assetType : AssetType) (c : Address)
    (boxes : List AssetBox) :
    (pool.setBoxes assetType c boxes).owed key +
      (if key = (assetType, c) then worth (pool.assetBoxes assetType c) else 0) =
    pool.owed key + if key = (assetType, c) then worth boxes else 0 := by
  obtain ⟨t, c'⟩ := key
  unfold AssetPoolV1.owed
  rw [AssetPoolV1.assetBoxes_setBoxes]
  by_cases hkey : t = assetType ∧ c' = c
  · obtain ⟨rfl, rfl⟩ := hkey
    simp only [true_and, if_true]
    omega
  · have hne : (t, c') ≠ (assetType, c) := fun heq => hkey (Prod.mk.inj heq)
    rw [if_neg hkey, if_neg hne, if_neg hne]

variable [EnumerableSet F]

variable (key) in
theorem owed_storeBoxes {boxes : List AssetBox} {assetType : AssetType}
    (h : storeBoxes admin (pool.addContract assetType c) assetType c boxes = .ok pool') :
    pool'.owed key = pool.owed key + if key = (assetType, c) then worth boxes else 0 := by
  have hworth := weigh_storeBoxes id h
  obtain ⟨stored, _, rfl⟩ := storeBoxes_eq_ok h
  have hset := owed_setBoxes key (pool.addContract assetType c) assetType c stored
  have hsame : (pool.addContract assetType c).owed key = pool.owed key := by
    unfold AssetPoolV1.owed
    rw [AssetPoolV1.assetBoxes_addContract]
  rw [AssetPoolV1.assetBoxes_setBoxes_self] at hworth
  change worth stored = worth ((pool.addContract assetType c).assetBoxes assetType c) + worth boxes at hworth
  split_ifs at hset ⊢ <;> omega

theorem Tokens.moving_recordIf {moves : Bool} {m : Movement} :
    (t.recordIf moves m).Moving c ↔ t.Moving c := by
  unfold Tokens.recordIf
  split <;> rfl

theorem DepositStep.moving (hmoving : s.2.Moving c) (h : DepositStep p admin assets s s') :
    s'.2.Moving c := by
  cases h with
  | erc20 c' boxes _ hpull =>
    apply Tokens.moving_recordIf.mpr
    exact (hmoving.call (fun _ _ => Tokens.answers_transferFrom) hpull).1
  | erc721Contract => exact hmoving
  | erc721Token c' tokenId _ hpull =>
    obtain ⟨_, _, _, _, rfl⟩ := Tokens.erc721TransferFrom_eq_ok hpull
    exact hmoving

theorem DepositSteps.moving (hmoving : s.2.Moving c) (h : DepositSteps p admin assets s s') :
    s'.2.Moving c := by
  induction h with
  | refl => exact hmoving
  | tail _ hstep ih => exact hstep.moving ih

theorem DepositStep.backed (hp : p ≠ admin) (hkey : key.1 ≠ .ERC721)
    (hguards : Tokens.Guards p s.2) (hmoving : key.1 = .ERC20 → s.2.Moving key.2)
    (h : DepositStep p admin assets s s') : Backed p key s s' := by
  cases h with
  | @erc20 pool pool' tokens tokens' answer c boxes _ hpull hstore =>
    have howed := owed_storeBoxes key hstore
    show _ + tokens.held p key ≤ _ + (tokens'.recordIf _ _).held p key
    rw [Tokens.held_recordIf, howed]
    by_cases hc : key = (.ERC20, c)
    · have hcall := (hmoving (by rw [hc])).call (fun _ _ => Tokens.answers_transferFrom) hpull
      have hheld := Tokens.held_erc20TransferFrom key hp hpull
        fun _ => hcall.2 (by rw [hc])
      rw [if_pos hc] at hheld ⊢
      show pool.owed key + _ + _ ≤ pool.owed key + _
      omega
    · have hheld := Tokens.held_le key hguards
        (Tokens.spares_erc20TransferFrom (a := p) hpull).toLeaves
      rw [if_neg hc]
      exact Nat.add_le_add_left hheld _
  | @erc721Contract pool tokens c =>
    show (pool.addContract .ERC721 c).owed key + _ ≤ pool.owed key + _
    unfold AssetPoolV1.owed
    rw [AssetPoolV1.assetBoxes_addContract]
  | @erc721Token pool tokens tokens' c tokenId _ hpull =>
    have hset := owed_setBoxes key pool .ERC721 c
      (pool.assetBoxes .ERC721 c ++ [⟨admin, .ERC721, 1, tokenId⟩])
    have hne : key ≠ (.ERC721, c) := fun heq => hkey (by rw [heq])
    rw [if_neg hne, if_neg hne] at hset
    have hheld : tokens.held p key ≤ tokens'.held p key :=
      Tokens.held_le key hguards (Tokens.spares_erc721TransferFrom (.inl hp) hpull).toLeaves
    show _ + tokens.held p key ≤ pool.owed key + (tokens'.record _).held p key
    rw [Tokens.held_record]
    dsimp only
    omega

theorem DepositSteps.backed (hp : p ≠ admin) (hkey : key.1 ≠ .ERC721)
    (hguards : Tokens.Guards p s.2) (hmoving : key.1 = .ERC20 → s.2.Moving key.2)
    (h : DepositSteps p admin assets s s') : Backed p key s s' := by
  induction h with
  | refl => exact Nat.le_refl _
  | tail hsteps hstep ih =>
    have hguards' := (DepositSteps.spares hp hsteps).guards hguards
    exact ih.trans (hstep.backed hp hkey hguards' fun ht =>
      DepositSteps.moving (hmoving ht) hsteps)

/-- Cards that leave a list take their promises with them. -/
theorem worth_lowerCards {boxes boxes' : List AssetBox} {k : Nat} {stored box : AssetBox}
    (h : lowerCards boxes k box.numberOfCards = .ok boxes') (hstored : boxes[k]? = some stored)
    (hbox : stored.amountOrTokenId = box.amountOrTokenId) :
    worth boxes = worth boxes' + box.amountOrTokenId * box.numberOfCards := by
  have hcontents := congrArg Multiset.sum (contents_lowerCards h hstored hbox)
  rw [Multiset.sum_add, sum_contents, sum_contents, sum_contents] at hcontents
  rw [hcontents, @worth_eq_sum [box], List.map_singleton, List.sum_singleton]

omit [EnumerableSet F] in
theorem WithdrawStep.backed {accepts : Address → Bool} (hkey : key.1 = .NativeToken → key.2 = p)
    (h : WithdrawStep accepts p assets s s') : Backed p key s s' := by
  unfold Backed
  cases h with
  | @erc20 pool tokens tokens' answer stored boxes' k c boxes box _ _ hstored hbox hpay hlower =>
    have hworth := worth_lowerCards hlower hstored hbox
    have hset := owed_setBoxes key pool .ERC20 c boxes'
    have hheld := Tokens.held_erc20Transfer key hpay
    dsimp only
    rw [Tokens.held_recordIf]
    split_ifs at hset hheld <;> omega
  | @erc721 pool tokens tokens' stored k c tokenIds tokenId _ _ hstored _ hpay =>
    obtain ⟨hk, _⟩ := List.getElem?_eq_some_iff.mp hstored
    have hworth : worth (pool.assetBoxes .ERC721 c) = _ := weigh_swapRemove hk
    change _ = worth (swapRemove (pool.assetBoxes .ERC721 c) k) + _ at hworth
    have hset := owed_setBoxes key pool .ERC721 c (swapRemove (pool.assetBoxes .ERC721 c) k)
    have hheld : tokens'.held p key = tokens.held p key := by
      obtain ⟨_, _, _, _, rfl⟩ := Tokens.erc721TransferFrom_eq_ok hpay
      rfl
    dsimp only
    rw [Tokens.held_record, hheld]
    split_ifs at hset <;> omega
  | @native pool tokens tokens' stored boxes' k box _ hstored hbox _ hpay hlower =>
    have hworth := worth_lowerCards hlower hstored hbox
    have hset := owed_setBoxes key pool .NativeToken p boxes'
    have hheld := Tokens.held_send key hpay
    have hnative : key.1 = .NativeToken → key = (.NativeToken, p) := fun ht =>
      Prod.ext ht (hkey ht)
    dsimp only
    rw [Tokens.held_record]
    split_ifs at hset hheld with h₁ h₂ h₂
    · omega
    · exact absurd (by rw [h₁]) h₂
    · exact absurd (hnative h₂) h₁
    · omega

/-! ### Calls -/

/-- Native boxes are stored under the pool's own address only. -/
def NativeHere (p : Address) (pool : AssetPoolV1 F) : Prop :=
  ∀ c, c ≠ p → pool.assetBoxes .NativeToken c = []

theorem nativeHere_rule : StepRule (F := F) p (NativeHere p) where
  initial := fun _ _ _ _ _ _ => rfl
  congr := fun pool pool' hboxes _ hpool c hc => by
    rw [hboxes]
    exact hpool c hc
  deposit := fun admin assets s s' h hs c hc => by
    cases h with
    | erc20 c' boxes _ _ hstore =>
      exact (congrFun (assetBoxes_storeBoxes (by simp) hstore) c).trans (hs c hc)
    | erc721Contract =>
      rw [AssetPoolV1.assetBoxes_addContract]
      exact hs c hc
    | erc721Token =>
      rw [AssetPoolV1.assetBoxes_setBoxes_of_ne (by simp)]
      exact hs c hc
  native := fun admin boxes pool pool' h hpool c hc => by
    obtain ⟨stored, _, rfl⟩ := storeBoxes_eq_ok h
    rw [AssetPoolV1.assetBoxes_setBoxes_of_ne (fun heq => hc heq.2),
      AssetPoolV1.assetBoxes_addContract]
    exact hpool c hc
  withdraw := fun accepts assets s s' h hs c hc => by
    cases h with
    | erc20 =>
      rw [AssetPoolV1.assetBoxes_setBoxes_of_ne (by simp)]
      exact hs c hc
    | erc721 =>
      rw [AssetPoolV1.assetBoxes_setBoxes_of_ne (by simp)]
      exact hs c hc
    | native =>
      rw [AssetPoolV1.assetBoxes_setBoxes_of_ne (fun heq => hc heq.2)]
      exact hs c hc
  drawn := fun pool pool' card h hpool c hc => by
    by_cases hcard : .NativeToken = card.assetType ∧ c = card.contractAddress
    · obtain ⟨ht, rfl⟩ := hcard
      have hmem := h.box_mem
      rw [← ht, hpool _ hc] at hmem
      cases hmem
    · rw [h.assetBoxes_of_ne hcard]
      exact hpool c hc

theorem Deposit.backed (hp : p ≠ sender) (hkey : key.1 ≠ .ERC721)
    (hnative : key.1 = .NativeToken → key.2 = p) (hguards : Tokens.Guards p w.tokens)
    (hmoving : key.1 = .ERC20 → w.tokens.Moving key.2) (h : Deposit w p sender value assets w')
    (hpool : w.assetPools p = some pool) (hpool' : w'.assetPools p = some pool') :
    Backed p key (pool, w.tokens) (pool', w'.tokens) := by
  cases h with
  | @mk _ pool₁ pool₂ pool₃ _ n tokens tokens₁ tokens₂ tokens₃ tokens₄ hself _ _ hsend _ _ _ hvalue
      h20 hstore hsend' h721 _ _ hmint =>
    obtain rfl := Option.some.inj (hpool.symm.trans hself)
    obtain rfl := setPool_self hpool'
    -- the value comes in with the call, and the native boxes are stored for it
    have hin := Tokens.held_receive key hp hsend
    have hg : Tokens.Guards p tokens := (Tokens.spares_send (.inl hp) hsend).guards hguards
    have hm : key.1 = .ERC20 → tokens.Moving key.2 := by
      obtain ⟨_, rfl⟩ := Tokens.send_eq_ok hsend
      exact hmoving
    have hfirst := h20.backed hp hkey hg hm
    have hg₁ : Tokens.Guards p tokens₁ := (h20.spares hp).guards hg
    have howed := owed_storeBoxes key hstore
    have hheld := Tokens.held_send_self key hsend'
    have hg₂ : Tokens.Guards p tokens₂ :=
      (Tokens.spares_send (.inr (.inr rfl)) hsend').guards hg₁
    have hm₂ : key.1 = .ERC20 → tokens₂.Moving key.2 := by
      obtain ⟨_, rfl⟩ := Tokens.send_eq_ok hsend'
      exact fun ht => h20.moving (hm ht)
    have hsecond := h721.backed hp hkey (Tokens.spares_record.guards hg₂) hm₂
    have hg₃ : Tokens.Guards p tokens₃ := (h721.spares hp).guards (Tokens.spares_record.guards hg₂)
    have hmint' := Tokens.held_le key hg₃ (spares_mintRedeemTokens hmint).toLeaves
    have hiff : key.1 = .NativeToken ↔ key = (.NativeToken, p) :=
      ⟨fun ht => Prod.ext ht (hnative ht), fun heq => by rw [heq]⟩
    unfold Backed at hfirst hsecond ⊢
    rw [Tokens.held_record] at hsecond
    simp only [hiff] at hin
    show pool₃.owed key + w.tokens.held p key ≤ pool.owed key + tokens₄.held p key
    change pool₁.owed key + tokens.held p key ≤ pool.owed key + tokens₁.held p key at hfirst
    dsimp only at hsecond
    split_ifs at hin howed <;> omega

omit [EnumerableSet F] in
theorem WithdrawSteps.backed {accepts : Address → Bool} (hkey : key.1 = .NativeToken → key.2 = p)
    (h : WithdrawSteps accepts p assets s s') : Backed p key s s' := by
  induction h with
  | refl => exact Nat.le_refl _
  | tail _ hstep ih => exact ih.trans (hstep.backed hkey)

theorem Withdraw.backed (hkey : key.1 = .NativeToken → key.2 = p)
    (hguards : Tokens.Guards p w.tokens) (h : Withdraw w p sender assets w')
    (hpool : w.assetPools p = some pool) (hpool' : w'.assetPools p = some pool') :
    Backed p key (pool, w.tokens) (pool', w'.tokens) := by
  cases h with
  | @mk _ _ s tokens hself _ _ hsteps _ _ _ hmint =>
    obtain rfl := Option.some.inj (hpool.symm.trans hself)
    obtain rfl := setPool_self hpool'
    have hguards' : Tokens.Guards p s.tokens := hsteps.keeps.guards hguards
    have hmint' := Tokens.held_le key hguards' (spares_mintRedeemTokens hmint).toLeaves
    have hbacked := hsteps.backed hkey
    unfold Backed at hbacked ⊢
    exact hbacked.trans (Nat.add_le_add_left hmint' _)

variable (key) in
theorem owed_drawn {card : Card} (h : Drawn pool pool' card) : pool.owed key = pool'.owed key +
    if key = (card.assetType, card.contractAddress) then card.box.amountOrTokenId else 0 := by
  have hsum : ∀ pool : AssetPoolV1 F, pool.owed key = (pool.stock key).sum :=
    fun pool => sum_contents.symm
  rw [hsum, hsum, h.stock_eq, Pi.add_apply, Multiset.sum_add]
  by_cases hkey : key = (card.assetType, card.contractAddress)
  · rw [if_pos hkey, hkey, Pi.single_eq_same, Multiset.sum_singleton]
  · rw [if_neg hkey, Pi.single_eq_of_ne hkey, Multiset.sum_zero]

variable (key) in
theorem Drawn.backed {card : Card} {receiver : Address} {requestId : Nat} {tokens : Tokens}
    (hkey : key.1 = .NativeToken → key.2 = p) (hhere : NativeHere p pool) (h : Drawn pool pool' card)
    (hpay : w.payCard p receiver requestId card = .ok tokens) :
    Backed p key (pool, w.tokens) (pool', tokens) := by
  have howed := owed_drawn key h
  obtain ⟨tokens₁, moves, rfl, hcase⟩ := payCard_cases hpay
  unfold Backed
  rw [Tokens.held_recordIf]
  dsimp only
  split at hcase
  · rename_i ht
    obtain ⟨answer, hcall, _⟩ := hcase
    have hheld := Tokens.held_erc20Transfer key hcall
    rw [ht] at howed
    split_ifs at howed hheld <;> omega
  · rename_i ht
    have hheld := Tokens.held_send key hcase.2.2
    -- the boxes of a native card are under the pool's own address
    have hself : card.contractAddress = p := by
      by_contra hne
      have hmem := h.box_mem
      rw [ht, hhere _ hne] at hmem
      cases hmem
    have hiff : key.1 = .NativeToken ↔ key = (.NativeToken, p) :=
      ⟨fun hn => Prod.ext hn (hkey hn), fun heq => by rw [heq]⟩
    rw [ht, hself] at howed
    simp only [hiff] at hheld
    split_ifs at howed hheld <;> omega
  · obtain ⟨_, _, _, _, rfl⟩ := Tokens.erc721TransferFrom_eq_ok hcase.2.2
    exact Nat.add_le_add_right (Nat.le_of_add_right_le howed.ge) _

/-! ### The invariant -/

variable {P : World F → Call → Prop} {cfg : CallStack.Config (World F) Call}

/-- The promises under `key` are covered. The redeem token of the pool itself is left out: the pool
hands it out. -/
def Covered (p : Address) (key : AssetType × Address) (own : Option Address) (pool : AssetPoolV1 F)
    (tokens : Tokens) : Prop :=
  (key.1 = .ERC20 → own ≠ some key.2) → pool.owed key ≤ tokens.held p key

theorem covered_rule (hkey : key.1 ≠ .ERC721) (hnative : key.1 = .NativeToken → key.2 = p)
    (hmoving : key.1 = .ERC20 → ∀ w call, P w call → w.tokens.Moving key.2) :
    AssetRule P p (fun w : World F => Sane w ∧ OnPool p (NativeHere p) w) (Covered p key) where
  initial := fun _ _ _ _ _ _ _ _ _ _ _ => Nat.zero_le _
  congr := fun own pool pool' tokens hboxes hI hown => by
    unfold AssetPoolV1.owed
    rw [hboxes]
    exact hI hown
  aside := fun own pool t t' hguards haside hI hown =>
    (hI hown).trans (Tokens.held_le key hguards haside.toLeaves)
  handOut := fun c pool t answer dst n t' h hI hown => by
    have hheld := Tokens.held_erc20Transfer key h
    have hne : key ≠ (.ERC20, c) := by
      rintro rfl
      exact hown rfl rfl
    rw [if_neg hne, Nat.add_zero] at hheld
    exact (hI hown).trans hheld
  deposit := fun w call value assets w' pool pool' hJ hcan hP _ h hpool hpool' hI hown => by
    have hsystem := system_of_assetPool hJ.1.wired hpool
    have hbacked := h.backed (ne_of_system hsystem hcan.2.1) hkey hnative (hJ.1.guarded p hsystem)
      (fun ht => hmoving ht w call hP) hpool hpool'
    have hcovered := hI hown
    unfold Backed at hbacked
    dsimp only at hbacked
    omega
  withdraw := fun w call assets w' pool pool' hJ _ _ h hpool hpool' hI hown => by
    have hsystem := system_of_assetPool hJ.1.wired hpool
    have hbacked := h.backed hnative (hJ.1.guarded p hsystem) hpool hpool'
    have hcovered := hI hown
    unfold Backed at hbacked
    dsimp only at hbacked
    omega
  paid := fun w call pool pool' receiver requestId card tokens hJ _ hpool h hpay hI hown => by
    have hbacked := h.backed key hnative (hJ.2 pool hpool) hpay
    have hcovered := hI hown
    unfold Backed at hbacked
    dsimp only at hbacked
    omega

variable (key) in
theorem kept_covered (hkey : key.1 ≠ .ERC721) (hnative : key.1 = .NativeToken → key.2 = p)
    (hmoving : key.1 = .ERC20 → ∀ w call, P w call → w.tokens.Moving key.2) :
    Kept P (fun w : World F => (Sane w ∧ OnPool p (NativeHere p) w) ∧ Holding p (Covered p key) w) := by
  have hhere : Rule P (Sane : World F → Prop) (OnPool p (NativeHere p)) :=
    nativeHere_rule.poolRule.rule
  exact (kept_sane.rule (fun _ => id) hhere).rule (fun _ h => h.1)
    ((covered_rule hkey hnative hmoving).rule fun _ h => h.1)

/-- Native boxes are listed under the pool itself only. -/
theorem nativeHere_of_run (h : World.Run P cfg) (hpool : cfg.state.assetPools p = some pool) :
    NativeHere p pool := by
  have hkept := kept_covered (.NativeToken, p) (P := P) (p := p) (by simp)
    (fun _ => rfl) (fun ht => by cases ht)
  exact (hkept.run h).1.2 pool hpool

/-- Whatever has happened to a pool, its native balance covers its native boxes; and for an ERC20
that moves what it is asked to move, and is not the pool's own redeem token, the pool's balance covers
the boxes of that ERC20. -/
theorem pool_is_solvent (h : World.Run P cfg) (hpool : cfg.state.assetPools p = some pool) :
    ((∀ c, c ≠ p → pool.assetBoxes .NativeToken c = []) ∧
      worth (pool.assetBoxes .NativeToken p) ≤ cfg.state.tokens.native p) ∧
    ∀ c, (∀ w call, P w call → w.tokens.Moving c) → cfg.state.ownToken p ≠ some c →
      worth (pool.assetBoxes .ERC20 c) ≤ cfg.state.tokens.balanceOf c p := by
  constructor
  · refine ⟨nativeHere_of_run h hpool, ?_⟩
    have hkept := kept_covered (.NativeToken, p) (P := P) (p := p) (by simp)
      (fun _ => rfl) (fun ht => by cases ht)
    exact (hkept.run h).2 pool hpool fun ht => by cases ht
  · intro c hmoving hown
    have hkept := kept_covered (.ERC20, c) (P := P) (p := p) (by simp)
      (fun ht => by cases ht) (fun _ => hmoving)
    exact (hkept.run h).2 pool hpool fun _ => hown

/-- Two native cards and one ERC20 card are left of three and two. -/
def partlyWithdrawn : CallStack.Config (World ListSet) Call :=
  World.after (fun w _ => w.tokens.Moving 10) [
    World.opening .CustomERC20,
    .call ⟨1, .erc20 10 (.approve 1004 8)⟩,
    World.poolCall 1 (.depositAssets 6 {
      World.nativeBoxes [⟨1, .NativeToken, 3, 2⟩] with
      erc20ContractAddresses := [10], erc20Boxes := [[⟨1, .ERC20, 2, 4⟩]] }),
    World.poolCall 1 (.withdrawAssets {
      World.nativeBoxes [⟨1, .NativeToken, 1, 2⟩] with
      erc20ContractAddresses := [10], erc20Boxes := [[⟨1, .ERC20, 1, 4⟩]] })]

theorem isSome_partlyWithdrawn : (partlyWithdrawn.state.assetPools 1004).isSome = true := by
  decide

theorem pool_is_solvent_partlyWithdrawn :
    worth (((partlyWithdrawn.state.assetPools 1004).get isSome_partlyWithdrawn).assetBoxes .ERC20 10) =
      4 ∧
    worth (((partlyWithdrawn.state.assetPools 1004).get isSome_partlyWithdrawn).assetBoxes .NativeToken
      1004) ≤ partlyWithdrawn.state.tokens.native 1004 ∧
    worth (((partlyWithdrawn.state.assetPools 1004).get isSome_partlyWithdrawn).assetBoxes .ERC20 10) ≤
      partlyWithdrawn.state.tokens.balanceOf 10 1004 := by
  have hsolvent := pool_is_solvent (World.run_after (fun w _ => w.tokens.Moving 10) _)
    (Option.some_get isSome_partlyWithdrawn).symm
  exact ⟨by decide, hsolvent.1.2, hsolvent.2 10 (fun _ _ h => h) (by decide)⟩

end Redeemy
