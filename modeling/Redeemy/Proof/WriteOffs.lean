import Redeemy.Proof.Solvency

/-!
# Write-offs

A withdrawal takes ERC20 cards out of the boxes whether their transfer returned true or not. What the
boxes lose in worth is what left the pool if and only if no transfer failed, and none was to the pool
itself.
-/

namespace Redeemy

open Fallible EnumerableSet SwapRemove

variable {F : Type → Type}
variable {w w' : World F} {pool pool' : AssetPoolV1 F} {rp : RewardPoolV1 F} {t t' : Tokens}
variable {p self c sender : Address} {assets : Assets} {box : AssetBox} {n : Nat}
variable {answers : List ERC20Answer} {requests requests' : List AssetBox} {accepts : Address → Bool}
variable {s s₁ s' : Withdrawal F}

/-! ### What leaves -/

/-- What leaves `self` when a contract that gives `answers` is asked for one transfer after the other to
pay for `requests`. -/
def leaving (self : Address) : List ERC20Answer → List AssetBox → Nat
  | _, [] => 0
  | answers, box :: requests =>
    (if (answers.headD ⟨true, true⟩).moves = true ∧ box.depositer ≠ self then
      box.amountOrTokenId * box.numberOfCards else 0) + leaving self answers.tail requests

/-- Every transfer of something is made, and to somebody else. -/
def AllLeave (self : Address) (answers : List ERC20Answer) (requests : List AssetBox) : Prop :=
  ∀ (k : Nat) (box : AssetBox), requests[k]? = some box → box.amountOrTokenId * box.numberOfCards ≠ 0 →
    (answers[k]?.getD ⟨true, true⟩).moves = true ∧ box.depositer ≠ self

theorem worth_cons : worth (box :: requests) =
    box.amountOrTokenId * box.numberOfCards + worth requests := by
  rw [worth_eq_sum, worth_eq_sum, List.map_cons, List.sum_cons]

theorem leaving_append : leaving self answers (requests ++ requests') =
    leaving self answers requests + leaving self (answers.drop requests.length) requests' := by
  induction requests generalizing answers with
  | nil => simp [leaving]
  | cons box requests ih =>
    rw [List.cons_append, leaving, leaving, ih, Nat.add_assoc, List.length_cons, List.drop_tail]

theorem leaving_le_worth : leaving self answers requests ≤ worth requests := by
  induction requests generalizing answers with
  | nil => exact Nat.le_refl 0
  | cons box requests ih =>
    rw [leaving, worth_cons]
    have hrest : leaving self answers.tail requests ≤ worth requests := ih
    split_ifs <;> omega

theorem allLeave_cons : AllLeave self answers (box :: requests) ↔
    (box.amountOrTokenId * box.numberOfCards ≠ 0 →
      (answers.headD ⟨true, true⟩).moves = true ∧ box.depositer ≠ self) ∧
    AllLeave self answers.tail requests := by
  unfold AllLeave
  constructor
  · intro h
    refine ⟨fun hne => ?_, fun k b hb hne => ?_⟩
    · have hfirst := h 0 box rfl hne
      rwa [← List.head?_eq_getElem?, ← List.headD_eq_head?_getD] at hfirst
    · have hrest := h (k + 1) b hb hne
      rwa [← List.getElem?_tail] at hrest
  · rintro ⟨hfirst, hrest⟩ k b hb hne
    cases k with
    | zero =>
      rw [List.getElem?_cons_zero, Option.some.injEq] at hb
      subst hb
      rw [← List.head?_eq_getElem?, ← List.headD_eq_head?_getD]
      exact hfirst hne
    | succ k =>
      rw [← List.getElem?_tail]
      exact hrest k b hb hne

theorem leaving_eq_worth_iff :
    leaving self answers requests = worth requests ↔ AllLeave self answers requests := by
  induction requests generalizing answers with
  | nil => exact ⟨fun _ _ _ => nofun, fun _ => rfl⟩
  | cons box requests ih =>
    rw [allLeave_cons, ← ih, leaving, worth_cons]
    have hrest : leaving self answers.tail requests ≤ worth requests := leaving_le_worth
    split_ifs with hleaves
    · rw [Nat.add_left_cancel_iff]
      exact ⟨fun heq => ⟨fun _ => hleaves, heq⟩, And.right⟩
    · constructor
      · intro heq
        exact ⟨fun hne => by omega, by omega⟩
      · rintro ⟨hzero, heq⟩
        have hamount : box.amountOrTokenId * box.numberOfCards = 0 := by
          by_contra hne
          exact hleaves (hzero hne)
        omega

/-! ### The loops -/

/-- The pool at `p` takes `requests` out of its boxes for `c`, and asks the ERC20 at `c` to pay for
them. -/
structure PaysOut (p c : Address) (requests : List AssetBox) (s s' : Withdrawal F) : Prop where
  worth : worth (s.pool.assetBoxes .ERC20 c) = worth (s'.pool.assetBoxes .ERC20 c) + worth requests
  contract : ∀ tok, s.tokens.erc20 c = some tok → ∃ tok', s'.tokens.erc20 c = some tok' ∧
    tok'.answers = tok.answers.drop requests.length ∧ tok'.totalSupply = tok.totalSupply ∧
    tok.balanceOf p = tok'.balanceOf p + leaving p tok.answers requests

namespace PaysOut

theorem of_same (hboxes : s'.pool.assetBoxes .ERC20 c = s.pool.assetBoxes .ERC20 c)
    (htoken : s'.tokens.erc20 c = s.tokens.erc20 c) : PaysOut self c [] s s' where
  worth := by rw [hboxes]; rfl
  contract := fun tok htok => ⟨tok, htoken.trans htok, rfl, rfl, rfl⟩

theorem append (h : PaysOut self c requests s s₁) (h' : PaysOut self c requests' s₁ s') :
    PaysOut self c (requests ++ requests') s s' where
  worth := by
    have hsum : Redeemy.worth (requests ++ requests') = Redeemy.worth requests +
        Redeemy.worth requests' := weigh_append
    rw [h.worth, h'.worth, hsum]
    omega
  contract := fun tok htok => by
    obtain ⟨tok₁, htok₁, hanswers₁, hsupply₁, hbalance₁⟩ := h.contract tok htok
    obtain ⟨tok', htok', hanswers', hsupply', hbalance'⟩ := h'.contract tok₁ htok₁
    refine ⟨tok', htok', ?_, hsupply'.trans hsupply₁, ?_⟩
    · rw [hanswers', hanswers₁, List.drop_drop, List.length_append]
    · rw [hbalance₁, hbalance', hanswers₁, leaving_append]
      omega

theorem subtotal {f : Withdrawal F → Result (Withdrawal F)}
    (hf : ∀ s s', f s = .ok s' → PaysOut self c requests s s') (h : subtotal f s = .ok s') :
    PaysOut self c requests s s' := by
  unfold Redeemy.subtotal at h
  simp only [bind_eq_ok, checkedAdd_eq_ok, pure_eq_ok] at h
  obtain ⟨s₁, hs₁, _, _, rfl⟩ := h
  have hpays := hf _ _ hs₁
  exact ⟨hpays.worth, hpays.contract⟩

theorem foldlM {α : Type} {f : Withdrawal F → α → Result (Withdrawal F)} {l : List α}
    (g : α → List AssetBox) (hstep : ∀ s a s', a ∈ l → f s a = .ok s' → PaysOut self c (g a) s s')
    (h : l.foldlM f s = .ok s') : PaysOut self c (l.flatMap g) s s' :=
  foldlM_flatMap g (fun _ => of_same rfl rfl) (fun _ _ _ _ _ => append) hstep h

end PaysOut

theorem erc20Transfer_leaving {tok : ERC20} {answer : ERC20Answer}
    (htok : t.erc20 c = some tok)
    (h : t.erc20Transfer c self box.depositer (box.amountOrTokenId * box.numberOfCards) =
      .ok (t', answer)) :
    ∃ tok', t'.erc20 c = some tok' ∧ tok'.answers = tok.answers.tail ∧
      tok'.totalSupply = tok.totalSupply ∧
      tok.balanceOf self = tok'.balanceOf self + leaving self tok.answers [box] := by
  obtain ⟨tok₁, tok', htok₁, rfl, rfl, hcase⟩ := Tokens.erc20Call_eq_ok h
  obtain rfl := Option.some.inj (htok.symm.trans htok₁)
  refine ⟨tok', by simp [Tokens.setERC20], ?_⟩
  rw [leaving, leaving, Nat.add_zero]
  rcases hcase with ⟨hmoves, hcall⟩ | ⟨hstays, rfl⟩
  · obtain ⟨hbalance, rfl⟩ := ERC20.transfer_eq_ok hcall
    refine ⟨rfl, rfl, ?_⟩
    show tok.balanceOf self = Ledger.move tok.balanceOf self box.depositer _ self + _
    by_cases hdst : box.depositer = self
    · rw [if_neg fun hleaves => hleaves.2 hdst, hdst, Ledger.move_self hbalance]
      rfl
    · rw [if_pos ⟨hmoves, hdst⟩, Ledger.move_src (Ne.symm hdst)]
      exact (Nat.sub_add_cancel hbalance).symm
  · refine ⟨rfl, rfl, ?_⟩
    rw [if_neg fun hleaves => by rw [hstays] at hleaves; cases hleaves.1]
    rfl

theorem withdrawErc20Box_paysOut {c' : Address} (h : withdrawErc20Box self c' s box = .ok s') :
    PaysOut self c (if c' = c then [box] else []) s s' := by
  unfold withdrawErc20Box findErc20AssetBox at h
  simp only [bind_eq_ok, require_eq_ok, checkedMul_eq_ok, checkedAdd_eq_ok, pure_eq_ok,
    Prod.exists] at h
  obtain ⟨_, k, hfind, _, rfl, _, ⟨_, rfl⟩, tokens, answer, hpay, boxes, hlower, _, _, rfl⟩ := h
  obtain ⟨hk, hkey, _⟩ := findAssetBox_found hfind
  have herc20 : ∀ m, (tokens.recordIf answer.moves m).erc20 c = tokens.erc20 c := by
    intro m
    unfold Tokens.recordIf
    split <;> rfl
  split_ifs with hc
  · subst hc
    constructor
    · show worth _ = worth ((s.pool.setBoxes .ERC20 c' boxes).assetBoxes .ERC20 c') + _
      rw [AssetPoolV1.assetBoxes_setBoxes, if_pos ⟨rfl, rfl⟩, worth_cons,
        worth_lowerCards hlower (List.getElem?_eq_getElem hk) hkey]
      rfl
    · intro tok htok
      obtain ⟨tok', htok', hanswers, hsupply, hbalance⟩ := erc20Transfer_leaving htok hpay
      refine ⟨tok', (herc20 _).trans htok', ?_, hsupply, hbalance⟩
      rw [hanswers, List.length_singleton, List.drop_one]
  · refine .of_same ?_ ((herc20 _).trans ?_)
    · exact AssetPoolV1.assetBoxes_setBoxes_of_ne (by simp [Ne.symm hc])
    · obtain ⟨_, _, _, _, rfl, _⟩ := Tokens.erc20Call_eq_ok hpay
      exact Function.update_of_ne (Ne.symm hc) _ _

/-- The boxes that are taken from the contract `c`, in the order of the call. -/
def Assets.erc20Requests (assets : Assets) (c : Address) : List AssetBox :=
  (assets.erc20ContractAddresses.zip assets.erc20Boxes).flatMap fun d => if d.1 = c then d.2 else []

theorem withdrawErc20Assets_paysOut
    (h : withdrawErc20Assets self assets.erc20ContractAddresses assets.erc20Boxes s = .ok s') :
    PaysOut self c (assets.erc20Requests c) s s' := by
  unfold withdrawErc20Assets at h
  refine PaysOut.foldlM _ (fun s d s' _ hstep => ?_) (foldlM_pairUp (fun s c s' hs => ?_) h)
  · unfold withdrawErc20Asset at hstep
    simp only [bind_eq_ok, element_eq_ok] at hstep
    obtain ⟨_, hsome, hstep⟩ := hstep
    cases hsome
    refine PaysOut.subtotal (fun s s' hs => ?_) hstep
    have hpays : PaysOut self c (d.2.flatMap fun box => if d.1 = c then [box] else []) s s' :=
      PaysOut.foldlM _ (fun s box s' _ hs => withdrawErc20Box_paysOut hs) hs
    split_ifs at hpays ⊢ with hc
    · rwa [List.flatMap_singleton'] at hpays
    · rwa [List.flatMap_eq_nil_iff.mpr fun _ _ => rfl] at hpays
  · unfold withdrawErc20Asset at hs
    simp only [bind_eq_ok, element_eq_ok] at hs
    obtain ⟨_, hnone, _⟩ := hs
    cases hnone

/-- The other loops leave the ERC20 boxes and the ERC20 contracts alone. -/
theorem PaysOut.foldlM_others {α : Type} {f : Withdrawal F → α → Result (Withdrawal F)} {l : List α}
    (hstep : ∀ s a s', f s a = .ok s' → PaysOut self c [] s s') (h : l.foldlM f s = .ok s') :
    PaysOut self c [] s s' := by
  have hpays : PaysOut self c (l.flatMap fun _ => []) s s' :=
    PaysOut.foldlM _ (fun s a s' _ hs => hstep s a s' hs) h
  rwa [List.flatMap_eq_nil_iff.mpr fun _ _ => rfl] at hpays

theorem withdrawErc721Token_paysOut {c' : Address} {tokenId : Nat}
    (h : withdrawErc721Token self c' s tokenId = .ok s') : PaysOut self c [] s s' := by
  unfold withdrawErc721Token at h
  simp only [bind_eq_ok, pure_eq_ok, Prod.exists] at h
  obtain ⟨_, _, _, _, _, _, _, tokens, hpay, _, _, _, _, rfl⟩ := h
  obtain ⟨_, _, _, _, rfl⟩ := Tokens.erc721TransferFrom_eq_ok hpay
  exact .of_same (AssetPoolV1.assetBoxes_setBoxes_of_ne (by simp)) rfl

theorem withdrawNativeTokenBox_paysOut (h : withdrawNativeTokenBox accepts self s box = .ok s') :
    PaysOut self c [] s s' := by
  unfold withdrawNativeTokenBox at h
  simp only [bind_eq_ok, pure_eq_ok, Prod.exists] at h
  obtain ⟨_, _, _, _, _, _, _, _, _, tokens, hpay, _, _, _, _, rfl⟩ := h
  obtain ⟨_, rfl⟩ := Tokens.send_eq_ok hpay
  exact .of_same (AssetPoolV1.assetBoxes_setBoxes_of_ne (by simp)) rfl

theorem withdrawBoxes_paysOut (h : withdrawBoxes accepts self assets s = .ok s') :
    PaysOut self c (assets.erc20Requests c) s s' := by
  unfold withdrawBoxes at h
  simp only [bind_eq_ok] at h
  obtain ⟨s₁, h20, s₂, h721, hnative⟩ := h
  have h20 : PaysOut self c (assets.erc20Requests c) s s₁ :=
    PaysOut.subtotal (fun _ _ => withdrawErc20Assets_paysOut) h20
  have h721 : PaysOut self c [] s₁ s₂ := by
    refine PaysOut.subtotal (fun s s' hs => ?_) h721
    refine PaysOut.foldlM_others (fun s d s' hd => ?_) hs
    unfold withdrawErc721Asset at hd
    simp only [bind_eq_ok] at hd
    obtain ⟨tokenIds, _, hd⟩ := hd
    refine PaysOut.subtotal (fun s s' hs => ?_) hd
    exact PaysOut.foldlM_others (fun _ _ _ => withdrawErc721Token_paysOut) hs
  have hnative : PaysOut self c [] s₂ s' :=
    PaysOut.subtotal (fun _ _ => PaysOut.foldlM_others fun _ _ _ => withdrawNativeTokenBox_paysOut)
      hnative
  have hpays := (h20.append h721).append hnative
  rwa [List.append_nil, List.append_nil] at hpays

/-! ### The call -/

/-- What the boxes of the pool at `p` for the ERC20 at `c` lose in worth has left the pool: it had the
balance before and what was minted for it, and has the balance after. -/
def WritesOffRightly (w w' : World F) (p c : Address) : Prop :=
  ∃ pool pool' tok tok', w.assetPools p = some pool ∧ w'.assetPools p = some pool' ∧
    w.tokens.erc20 c = some tok ∧ w'.tokens.erc20 c = some tok' ∧
    worth (pool.assetBoxes .ERC20 c) = worth (pool'.assetBoxes .ERC20 c) +
      (tok.balanceOf p + (tok'.totalSupply - tok.totalSupply) - tok'.balanceOf p)

variable [EnumerableSet F]

/-- The redeem tokens a withdrawal mints are minted for the pool. -/
theorem mintRedeemTokens_balance {pools : Address → Option (RewardPoolV1 F)} {tok : ERC20}
    (htok : t.erc20 c = some tok) (h : mintRedeemTokens pools self rp pool t n = .ok t') :
    ∃ tok' minted, t'.erc20 c = some tok' ∧ tok'.totalSupply = tok.totalSupply + minted ∧
      tok'.balanceOf self = tok.balanceOf self + minted := by
  rcases mintRedeemTokens_cases h with ⟨_, rfl⟩ | ⟨_, hmint⟩ | ⟨_, hmint⟩
  · exact ⟨tok, 0, htok, rfl, rfl⟩
  · obtain ⟨tok₁, tok', _, htok₁, _, _, hcall, rfl⟩ := Tokens.erc20Mint_eq_ok hmint
    by_cases hc : c = rp.redeemTokenContractAddress
    · subst hc
      obtain rfl := Option.some.inj (htok.symm.trans htok₁)
      obtain rfl := ERC20.mint_eq_ok hcall
      exact ⟨_, _, Function.update_self _ _ _, rfl, Ledger.credit_self⟩
    · exact ⟨tok, 0, (Function.update_of_ne hc _ _).trans htok, rfl, rfl⟩
  · obtain ⟨_, _, _, rfl⟩ := Tokens.erc1155Mint_eq_ok hmint
    exact ⟨tok, 0, htok, rfl, rfl⟩

/-- A withdrawal writes off what left the pool, and nothing else, if and only if the contract makes
every transfer it is asked for, and none of them is to the pool itself; transfers of nothing do not
count. -/
theorem writesOffRightly_iff {tok : ERC20} (htok : w.tokens.erc20 c = some tok)
    (h : w.withdrawAssets p sender assets = .ok w') :
    WritesOffRightly w w' p c ↔ AllLeave p tok.answers (assets.erc20Requests c) := by
  unfold World.withdrawAssets at h
  simp only [bind_eq_ok, require_eq_ok, pure_eq_ok, World.assetPool_eq_ok,
    World.rewardPool_eq_ok] at h
  obtain ⟨pool, hpool, rp, _, _, _, s, hs, _, _, tokens, hmint, rfl⟩ := h
  have hpays : PaysOut p c (assets.erc20Requests c) ⟨0, pool, w.tokens⟩ s := withdrawBoxes_paysOut hs
  obtain ⟨tok₁, htok₁, _, hsupply₁, hbalance₁⟩ := hpays.contract tok htok
  rw [burnRedeemTokens_eq] at hmint
  obtain ⟨tok', minted, htok', hsupply', hbalance'⟩ := mintRedeemTokens_balance htok₁ hmint
  have hworth : worth (pool.assetBoxes .ERC20 c) =
      worth (s.pool.assetBoxes .ERC20 c) + worth (assets.erc20Requests c) := hpays.worth
  rw [← leaving_eq_worth_iff]
  have hleft : tok.balanceOf p + (tok'.totalSupply - tok.totalSupply) - tok'.balanceOf p =
      leaving p tok.answers (assets.erc20Requests c) := by
    rw [hsupply', hbalance', hsupply₁, hbalance₁]
    omega
  constructor
  · rintro ⟨pool₁, pool', tok₂, tok₃, hpool₁, hpool', htok₂, htok₃, heq⟩
    obtain rfl := Option.some.inj (hpool.symm.trans hpool₁)
    obtain rfl := Option.some.inj (htok.symm.trans htok₂)
    obtain rfl := Option.some.inj (htok'.symm.trans htok₃)
    obtain rfl := setPool_self hpool'
    rw [hleft, hworth, Nat.add_left_cancel_iff] at heq
    exact heq.symm
  · intro heq
    refine ⟨pool, _, tok, tok', hpool, Function.update_self _ _ _, htok, htok', ?_⟩
    rw [hleft, heq]
    exact hworth

/-- Two cards of the ERC20 at 10. -/
def twoCards : Assets where
  erc20ContractAddresses := [10]
  erc20Boxes := [[⟨1, .ERC20, 2, 4⟩]]
  erc721ContractAddresses := []
  erc721TokenIds := []
  nativeTokenBoxes := []

/-- The two cards are in the pool at 1004, and the ERC20 is going to give `answers`. -/
def answering (answers : List ERC20Answer) : CallStack.Config (World ListSet) Call :=
  World.after (fun _ _ => True) [
    World.opening .CustomERC20,
    .call ⟨1, .erc20 10 (.approve 1004 8)⟩,
    World.poolCall 1 (.depositAssets 0 twoCards),
    .call ⟨1, .erc20 10 (.setAnswers answers)⟩]

/-- The state after the account 1 has withdrawn them. -/
def takenBack (answers : List ERC20Answer) : World ListSet :=
  ((answering answers).state.withdrawAssets 1004 1 twoCards).toOption.getD (answering answers).state

theorem exists_answering (hanswers : answers = [] ∨ answers = [⟨false, false⟩]) :
    ∃ tok, (answering answers).state.tokens.erc20 10 = some tok ∧ tok.answers = answers := by
  have hmap : ((answering answers).state.tokens.erc20 10).map ERC20.answers = some answers := by
    rcases hanswers with rfl | rfl <;> decide
  exact Option.map_eq_some_iff.mp hmap

theorem writesOffRightly_iff_twoCards : WritesOffRightly (answering []).state (takenBack []) 1004 10 := by
  obtain ⟨tok, htok, hanswers⟩ := exists_answering (.inl rfl)
  have hcall : (answering []).state.withdrawAssets 1004 1 twoCards = .ok (takenBack []) :=
    eq_ok_of_isSome (by decide)
  refine (writesOffRightly_iff htok hcall).mpr ?_
  rw [hanswers]
  exact leaving_eq_worth_iff.mp (by decide)

/-- The contract returns false and keeps the tokens in the pool, and the cards are gone. -/
theorem withdrawal_writes_off_failed_transfer :
    World.Run (fun _ _ => True) (answering [⟨false, false⟩]) ∧
    (answering [⟨false, false⟩]).state.withdrawAssets 1004 1 twoCards =
      .ok (takenBack [⟨false, false⟩]) ∧
    ((takenBack [⟨false, false⟩]).assetPools 1004).map (fun pool => pool.assetBoxes .ERC20 10) =
      some [] ∧
    (answering [⟨false, false⟩]).state.tokens.balanceOf 10 1004 = 8 ∧
    (takenBack [⟨false, false⟩]).tokens.balanceOf 10 1004 = 8 ∧
    ¬WritesOffRightly (answering [⟨false, false⟩]).state (takenBack [⟨false, false⟩]) 1004 10 := by
  obtain ⟨hworth, hterms, hheld⟩ : ((answering [⟨false, false⟩]).state.assetPools 1004).map
      (fun pool => worth (pool.assetBoxes .ERC20 10)) = some 8 ∧
      ((answering [⟨false, false⟩]).state.tokens.erc20 10).map
        (fun tok => (tok.balanceOf 1004, tok.totalSupply)) = some (8, 1000) ∧
      (answering [⟨false, false⟩]).state.tokens.balanceOf 10 1004 = 8 := by
    decide
  obtain ⟨hboxes, hterms', hheld'⟩ : ((takenBack [⟨false, false⟩]).assetPools 1004).map
      (fun pool => pool.assetBoxes .ERC20 10) = some [] ∧
      ((takenBack [⟨false, false⟩]).tokens.erc20 10).map
        (fun tok => (tok.balanceOf 1004, tok.totalSupply)) = some (8, 1000) ∧
      (takenBack [⟨false, false⟩]).tokens.balanceOf 10 1004 = 8 := by
    decide
  have hworth' : ((takenBack [⟨false, false⟩]).assetPools 1004).map
      (fun pool => worth (pool.assetBoxes .ERC20 10)) = some 0 := by
    have hmap := congrArg (Option.map worth) hboxes
    rwa [Option.map_map] at hmap
  refine ⟨World.run_after (fun _ _ => True) _, eq_ok_of_isSome (by decide), hboxes,
    hheld, hheld', ?_⟩
  rintro ⟨pool, pool', tok, tok', hpool, hpool', htok, htok', heq⟩
  rw [hpool, Option.map_some, Option.some.injEq] at hworth
  rw [hpool', Option.map_some, Option.some.injEq] at hworth'
  rw [htok, Option.map_some, Option.some.injEq, Prod.mk.injEq] at hterms
  rw [htok', Option.map_some, Option.some.injEq, Prod.mk.injEq] at hterms'
  omega

end Redeemy
