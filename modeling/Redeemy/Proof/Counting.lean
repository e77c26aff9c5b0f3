import Redeemy.Proof.Solvency
import Redeemy.Proof.Supply

/-!
# What a deposit counts

A deposit counts the cards of all box lists, and stores those that have a contract. The two agree
exactly if the lists without a contract have no cards. What comes in is what is stored in any case.
-/

namespace Redeemy

open Fallible EnumerableSet

variable {F : Type → Type}
variable {w w' : World F} {pool pool' : AssetPoolV1 F} {rp : RewardPoolV1 F} {t t' : Tokens}
variable {c self admin sender : Address} {assets : Assets} {n value : Nat}
variable {s s₁ s' : AssetPoolV1 F × Tokens}

/-! ### Counting -/

/-- The cards of the box lists that no contract goes with. -/
def Assets.unassigned (assets : Assets) : Nat :=
  ((assets.erc20Boxes.drop assets.erc20ContractAddresses.length).map cards).sum

/-- The sum over the second of two arrays: what the first reaches, and the rest. -/
theorem sum_map_zip_add_drop {α : Type} (f : α → Nat) (as : List Address) (bs : List α) :
    ((as.zip bs).map fun d => f d.2).sum + ((bs.drop as.length).map f).sum = (bs.map f).sum := by
  induction as generalizing bs with
  | nil => simp
  | cons a as ih =>
    cases bs with
    | nil => simp
    | cons b bs =>
      have hrest := ih bs
      simp only [List.zip_cons_cons, List.map_cons, List.sum_cons, List.length_cons,
        List.drop_succ_cons]
      omega

theorem numberOfCards_add_unassigned
    (hlen : assets.erc721ContractAddresses.length = assets.erc721TokenIds.length)
    (h : calculateNumberOfAssets assets = .ok n) :
    assets.numberOfCards + assets.unassigned = n := by
  have hcount := calculateNumberOfAssets_eq_ok h
  have hsplit := sum_map_zip_add_drop cards assets.erc20ContractAddresses assets.erc20Boxes
  unfold Assets.numberOfCards Assets.unassigned
  rw [sum_map_zip List.length hlen]
  omega

/-! ### Pulling -/

namespace Tokens

theorem balanceOf_setERC20 {tok : ERC20} {c' a : Address} : (t.setERC20 c tok).balanceOf c' a =
    if c' = c then tok.balanceOf a else t.balanceOf c' a := by
  unfold balanceOf setERC20
  split_ifs with hc
  · subst hc
    dsimp only
    rw [Function.update_self, Option.elim_some]
  · dsimp only
    rw [Function.update_of_ne hc]

theorem balanceOf_eq {tok : ERC20} {a : Address} (htok : t.erc20 c = some tok) :
    t.balanceOf c a = tok.balanceOf a := by
  unfold balanceOf
  rw [htok, Option.elim_some]

/-- What a transfer into the pool takes from its sender. -/
theorem balanceOf_erc20TransferFrom {c' : Address} {answer : ERC20Answer} (hne : admin ≠ self)
    (hmoves : c' = c → answer.moves = true)
    (h : t.erc20TransferFrom c' self admin self n = .ok (t', answer)) :
    t'.balanceOf c admin + (if c = c' then n else 0) = t.balanceOf c admin := by
  obtain ⟨tok, tok', htok, _, rfl, hcase⟩ := erc20Call_eq_ok h
  rw [balanceOf_setERC20]
  split_ifs with hc
  · subst hc
    rcases hcase with ⟨_, hcall⟩ | ⟨hstays, _⟩
    · obtain ⟨_, hn, _, _, rfl⟩ := ERC20.transferFrom_eq_ok hcall
      have hmove : Ledger.move tok.balanceOf admin self n admin = tok.balanceOf admin - n :=
        Ledger.move_src hne
      have hn : n ≤ tok.balanceOf admin := hn
      rw [balanceOf_eq htok]
      show Ledger.move tok.balanceOf admin self n admin + n = tok.balanceOf admin
      omega
    · rw [hmoves rfl] at hstays
      cases hstays
  · rfl

theorem balanceOf_recordIf {moves : Bool} {m : Movement} :
    (t.recordIf moves m).balanceOf = t.balanceOf := by
  unfold recordIf
  split <;> rfl

end Tokens

variable [EnumerableSet F]

/-- Nobody but the pool gains or loses redeem tokens when the pool mints. -/
theorem balanceOf_mintRedeemTokens {pools : Address → Option (RewardPoolV1 F)} (hne : admin ≠ self)
    (h : mintRedeemTokens pools self rp pool t n = .ok t') :
    t'.balanceOf c admin = t.balanceOf c admin := by
  rcases mintRedeemTokens_cases h with ⟨_, rfl⟩ | ⟨_, hmint⟩ | ⟨_, hmint⟩
  · rfl
  · obtain ⟨tok, tok', _, htok, _, _, hcall, rfl⟩ := Tokens.erc20Mint_eq_ok hmint
    rw [Tokens.balanceOf_setERC20, ERC20.mint_eq_ok hcall]
    split_ifs with hc
    · rw [hc, Tokens.balanceOf_eq htok]
      exact Ledger.credit_of_ne hne
    · rfl
  · obtain ⟨_, _, _, rfl⟩ := Tokens.erc1155Mint_eq_ok hmint
    rfl

/-- What the boxes of an ERC20 promise has come from the admin. -/
def Pulled (c admin : Address) (s s' : AssetPoolV1 F × Tokens) : Prop :=
  s'.2.balanceOf c admin + s'.1.owed (.ERC20, c) = s.2.balanceOf c admin + s.1.owed (.ERC20, c)

omit [EnumerableSet F] in
theorem Pulled.trans (h : Pulled c admin s s₁) (h' : Pulled c admin s₁ s') : Pulled c admin s s' :=
  Eq.trans h' h

theorem DepositStep.pulled (hne : admin ≠ self) (hmoving : s.2.Moving c)
    (h : DepositStep self admin assets s s') : Pulled c admin s s' ∧ s'.2.Moving c := by
  cases h with
  | @erc20 pool pool' tokens tokens' answer c' boxes _ hpull hstore =>
    obtain ⟨hmoving', hmoves⟩ := hmoving.call (fun _ _ => Tokens.answers_transferFrom) hpull
    have hbalance := Tokens.balanceOf_erc20TransferFrom hne hmoves hpull
    have howed := owed_storeBoxes (.ERC20, c) hstore
    constructor
    · unfold Pulled
      dsimp only
      rw [Tokens.balanceOf_recordIf, howed]
      simp only [Prod.mk.injEq, true_and]
      omega
    · show (tokens'.recordIf _ _).Moving c
      unfold Tokens.recordIf
      split <;> exact hmoving'
  | @erc721Contract pool tokens c' =>
    refine ⟨?_, hmoving⟩
    unfold Pulled AssetPoolV1.owed
    rw [AssetPoolV1.assetBoxes_addContract]
  | @erc721Token pool tokens tokens' c' tokenId _ hpull =>
    obtain ⟨_, _, _, _, rfl⟩ := Tokens.erc721TransferFrom_eq_ok hpull
    refine ⟨?_, hmoving⟩
    have hset := owed_setBoxes (.ERC20, c) pool .ERC721 c'
      (pool.assetBoxes .ERC721 c' ++ [⟨admin, .ERC721, 1, tokenId⟩])
    rw [if_neg (by simp), if_neg (by simp)] at hset
    exact congrArg (_ + ·) hset

theorem DepositSteps.pulled (hne : admin ≠ self) (hmoving : s.2.Moving c)
    (h : DepositSteps self admin assets s s') : Pulled c admin s s' ∧ s'.2.Moving c := by
  induction h with
  | refl => exact ⟨rfl, hmoving⟩
  | tail _ hstep ih =>
    obtain ⟨hpulled, hmoving'⟩ := hstep.pulled hne ih.2
    exact ⟨ih.1.trans hpulled, hmoving'⟩

/-- The small steps of a deposit store no native boxes. -/
theorem DepositStep.assetBoxes_native (h : DepositStep self admin assets s s') :
    s'.1.assetBoxes .NativeToken = s.1.assetBoxes .NativeToken := by
  cases h with
  | erc20 c boxes _ _ hstore => exact assetBoxes_storeBoxes (by simp) hstore
  | erc721Contract => rw [AssetPoolV1.assetBoxes_addContract]
  | erc721Token =>
    funext c'
    exact AssetPoolV1.assetBoxes_setBoxes_of_ne (by simp)

theorem DepositSteps.assetBoxes_native (h : DepositSteps self admin assets s s') :
    s'.1.assetBoxes .NativeToken = s.1.assetBoxes .NativeToken := by
  induction h with
  | refl => rfl
  | tail _ hstep ih => exact hstep.assetBoxes_native.trans ih

/-! ### The call -/

/-- The deposit has counted, issued and taken in exactly what it has stored. All differences are
written as sums. -/
structure CountsExactly (w w' : World F) (p sender : Address) (value : Nat)
    (pool pool' : AssetPoolV1 F) (rp : RewardPoolV1 F) : Prop where
  counted : pool'.totalNumberOfAssets + pool.numberOfCards =
    pool.totalNumberOfAssets + pool'.numberOfCards
  minted : rp.redeemMethod ≠ .ExistingERC20 →
    w'.tokens.issued rp.redeemMethod rp.redeemTokenContractAddress pool.id +
        pool.redeemTokenAmount * pool.numberOfCards =
      w.tokens.issued rp.redeemMethod rp.redeemTokenContractAddress pool.id +
        pool.redeemTokenAmount * pool'.numberOfCards
  /-- for an ERC20 contract that moves what it is asked to move -/
  pulled : ∀ c, w.tokens.Moving c →
    w'.tokens.balanceOf c sender + worth (pool'.assetBoxes .ERC20 c) =
      w.tokens.balanceOf c sender + worth (pool.assetBoxes .ERC20 c)
  received : worth (pool'.assetBoxes .NativeToken p) =
    worth (pool.assetBoxes .NativeToken p) + value

theorem Deposit.totals (h : Deposit w self sender value assets w')
    (hpool : w.assetPools self = some pool) (hpool' : w'.assetPools self = some pool') :
    pool'.totalNumberOfAssets =
        pool.totalNumberOfAssets + (assets.numberOfCards + assets.unassigned) ∧
      pool'.numberOfCards = pool.numberOfCards + assets.numberOfCards := by
  cases h with
  | @mk _ pool₁ pool₂ pool₃ rp₁ n _ _ _ _ _ hself _ _ _ hcount _ _ _ h20 hstore _ h721 hlen hstock =>
    obtain rfl := Option.some.inj (hpool.symm.trans hself)
    obtain rfl := setPool_self hpool'
    have hterms := h20.sameTerms.trans ((sameTerms_storeBoxes hstore).trans h721.sameTerms)
    constructor
    · rw [numberOfCards_add_unassigned hlen hcount]
      exact hterms.totalNumberOfAssets
    · rw [← size_stock, hstock, Stock.size_add, size_prizes, size_stock]

theorem Deposit.minted (h : Deposit w self sender value assets w')
    (hpool : w.assetPools self = some pool) (hrp : w.rewardPools pool.rewardPool = some rp)
    (hcustom : rp.redeemMethod ≠ .ExistingERC20) :
    w'.tokens.issued rp.redeemMethod rp.redeemTokenContractAddress pool.id =
      w.tokens.issued rp.redeemMethod rp.redeemTokenContractAddress pool.id +
        pool.redeemTokenAmount * (assets.numberOfCards + assets.unassigned) := by
  cases h with
  | @mk _ pool₁ pool₂ pool₃ rp₁ n _ tokens₁ _ tokens₃ tokens₄ hself hrp₁ _ hsend hcount _ _ _ h20
      hstore hsend' h721 hlen _ hmint =>
    obtain rfl := Option.some.inj (hpool.symm.trans hself)
    rw [hrp, Option.some.injEq] at hrp₁
    subst hrp₁
    have hterms := h20.sameTerms.trans ((sameTerms_storeBoxes hstore).trans h721.sameTerms)
    have hsame : Tokens.SameSupply w.tokens tokens₃ := sameSupply_beforeMint hsend h20 hsend' rfl h721
    have hid : pool₃.id = pool.id := congrArg AssetPoolInfo.id hterms.info
    have hissues : rp.Issues pool.id rp.redeemMethod rp.redeemTokenContractAddress pool.id :=
      ⟨rfl, hcustom, rfl, fun _ => rfl⟩
    show tokens₄.issued _ _ _ = _
    rw [issued_mintRedeemTokens hmint, hsame, hid, if_pos hissues,
      hterms.redeemTokenAmount, numberOfCards_add_unassigned hlen hcount]

theorem Deposit.pulled (hne : sender ≠ self) (hmoving : w.tokens.Moving c)
    (h : Deposit w self sender value assets w') (hpool : w.assetPools self = some pool)
    (hpool' : w'.assetPools self = some pool') :
    Pulled c sender (pool, w.tokens) (pool', w'.tokens) := by
  cases h with
  | @mk _ pool₁ pool₂ pool₃ rp₁ n tokens tokens₁ tokens₂ tokens₃ tokens₄ hself _ _ hsend _ _ _ _ h20
      hstore hsend' h721 _ _ hmint =>
    obtain rfl := Option.some.inj (hpool.symm.trans hself)
    obtain rfl := setPool_self hpool'
    obtain ⟨_, rfl⟩ := Tokens.send_eq_ok hsend
    obtain ⟨_, rfl⟩ := Tokens.send_eq_ok hsend'
    obtain ⟨hfirst, hmoving₁⟩ := h20.pulled hne hmoving
    have hnative := owed_storeBoxes (.ERC20, c) hstore
    rw [if_neg (by simp), Nat.add_zero] at hnative
    have hsecond := (h721.pulled hne (by exact hmoving₁)).1
    have hmint := balanceOf_mintRedeemTokens (c := c) hne hmint
    unfold Pulled at hfirst hsecond ⊢
    dsimp only at hfirst hsecond ⊢
    calc tokens₄.balanceOf c sender + pool₃.owed (.ERC20, c)
      _ = tokens₃.balanceOf c sender + pool₃.owed (.ERC20, c) := by rw [hmint]
      _ = tokens₁.balanceOf c sender + pool₂.owed (.ERC20, c) := hsecond
      _ = tokens₁.balanceOf c sender + pool₁.owed (.ERC20, c) := by rw [hnative]
      _ = w.tokens.balanceOf c sender + pool.owed (.ERC20, c) := hfirst

theorem Deposit.received (h : Deposit w self sender value assets w')
    (hpool : w.assetPools self = some pool) (hpool' : w'.assetPools self = some pool') :
    pool'.owed (.NativeToken, self) = pool.owed (.NativeToken, self) + value := by
  cases h with
  | @mk _ pool₁ pool₂ pool₃ rp₁ n _ _ _ _ _ hself _ _ _ _ _ _ hvalue h20 hstore _ h721 =>
    obtain rfl := Option.some.inj (hpool.symm.trans hself)
    obtain rfl := setPool_self hpool'
    have howed := owed_storeBoxes (.NativeToken, self) hstore
    rw [if_pos rfl, ← hvalue] at howed
    unfold AssetPoolV1.owed at howed ⊢
    rw [h721.assetBoxes_native, howed, h20.assetBoxes_native]

/-- A deposit by anybody but the pool itself counts exactly what it stores if, and only if, the box
lists without a contract have no cards. -/
theorem deposit_counts_exactly_iff (hne : sender ≠ self)
    (h : w.depositAssets self sender value assets = .ok w') (hpool : w.assetPools self = some pool)
    (hpool' : w'.assetPools self = some pool') (hrp : w.rewardPools pool.rewardPool = some rp) :
    CountsExactly w w' self sender value pool pool' rp ↔ assets.unassigned = 0 := by
  have hdeposit := depositAssets_eq_ok h
  obtain ⟨htotal, hcards⟩ := hdeposit.totals hpool hpool'
  constructor
  · intro hcounts
    have hcounted := hcounts.counted
    omega
  · intro hnone
    rw [hnone, Nat.add_zero] at htotal
    constructor
    · omega
    · intro hcustom
      rw [hdeposit.minted hpool hrp hcustom, hnone, hcards, Nat.add_zero, Nat.mul_add]
      omega
    · intro c hmoving
      exact hdeposit.pulled hne hmoving hpool hpool'
    · exact hdeposit.received hpool hpool'

/-- One card of the ERC20 at 10 and two native cards. -/
def threeCards : Assets where
  erc20ContractAddresses := [10]
  erc20Boxes := [[⟨1, .ERC20, 1, 4⟩]]
  erc721ContractAddresses := []
  erc721TokenIds := []
  nativeTokenBoxes := [⟨1, .NativeToken, 2, 3⟩]

/-- The same with a list of three ERC20 cards for which there is no contract. -/
def threeMore : Assets :=
  { threeCards with erc20Boxes := threeCards.erc20Boxes ++ [[⟨1, .ERC20, 3, 9⟩]] }

/-- The account 1 has approved the pool at 1004, which is empty. -/
def approved : World ListSet :=
  (World.after (fun _ _ => True) [
    World.opening .CustomERC20, .call ⟨1, .erc20 10 (.approve 1004 50)⟩]).state

/-- The state after a deposit of `assets` by the account 1. -/
def afterDeposit (assets : Assets) : World ListSet :=
  (approved.depositAssets 1004 1 6 assets).toOption.getD approved

theorem isSome_approved : (approved.assetPools 1004).isSome = true ∧
    (approved.rewardPools 1002).isSome = true := by
  decide

theorem isSome_afterDeposit : ((afterDeposit threeCards).assetPools 1004).isSome = true ∧
    ((afterDeposit threeMore).assetPools 1004).isSome = true := by
  decide

theorem depositAssets_threeCards :
    approved.depositAssets 1004 1 6 threeCards = .ok (afterDeposit threeCards) :=
  eq_ok_of_isSome (by decide)

theorem depositAssets_threeMore :
    approved.depositAssets 1004 1 6 threeMore = .ok (afterDeposit threeMore) :=
  eq_ok_of_isSome (by decide)

theorem deposit_counts_exactly_threeCards :
    CountsExactly approved (afterDeposit threeCards) 1004 1 6
      ((approved.assetPools 1004).get isSome_approved.1)
      (((afterDeposit threeCards).assetPools 1004).get isSome_afterDeposit.1)
      ((approved.rewardPools 1002).get isSome_approved.2) :=
  (deposit_counts_exactly_iff (by decide) depositAssets_threeCards
    (Option.some_get isSome_approved.1).symm (Option.some_get isSome_afterDeposit.1).symm (by
      have hr : ((approved.assetPools 1004).get isSome_approved.1).rewardPool = 1002 := by
        decide
      rw [hr]
      exact (Option.some_get isSome_approved.2).symm)).mpr (by decide)

/-- Six cards are counted and paid for with 30 redeem tokens, and three are stored. -/
theorem deposit_counts_unassigned :
    approved.depositAssets 1004 1 6 threeMore = .ok (afterDeposit threeMore) ∧
    ((approved.assetPools 1004).get isSome_approved.1).totalNumberOfAssets = 0 ∧
    (((afterDeposit threeMore).assetPools 1004).get isSome_afterDeposit.2).totalNumberOfAssets = 6 ∧
    (afterDeposit threeMore).tokens.balanceOf 1003 1004 = 30 ∧
    (((afterDeposit threeMore).assetPools 1004).get isSome_afterDeposit.2).numberOfCards =
      ((approved.assetPools 1004).get isSome_approved.1).numberOfCards + 3 ∧
    ¬CountsExactly approved (afterDeposit threeMore) 1004 1 6
      ((approved.assetPools 1004).get isSome_approved.1)
      (((afterDeposit threeMore).assetPools 1004).get isSome_afterDeposit.2)
      ((approved.rewardPools 1002).get isSome_approved.2) := by
  obtain ⟨htotal, hstored⟩ := (depositAssets_eq_ok depositAssets_threeMore).totals
    (Option.some_get isSome_approved.1).symm (Option.some_get isSome_afterDeposit.2).symm
  have hthree : threeMore.numberOfCards = 3 := by decide
  have hmore : threeMore.unassigned = 3 := by decide
  rw [hthree] at htotal hstored
  rw [hmore] at htotal
  obtain ⟨hempty, hsix, hpaid⟩ :
      ((approved.assetPools 1004).get isSome_approved.1).totalNumberOfAssets = 0 ∧
      (((afterDeposit threeMore).assetPools 1004).get isSome_afterDeposit.2).totalNumberOfAssets =
        6 ∧
      (afterDeposit threeMore).tokens.balanceOf 1003 1004 = 30 := by
    decide
  refine ⟨depositAssets_threeMore, hempty, hsix, hpaid, hstored, fun hcounts => ?_⟩
  have hcounted := hcounts.counted
  omega

end Redeemy
