import Redeemy.Proof.Holdings

/-!
# The supply of the redeem tokens

The redeem tokens of a reward pool are issued against the free cards of its asset pools. A deposit
issues them and a redemption takes them back; a withdrawal issues tokens too, where it should take
them back.
-/

namespace Redeemy

open Fallible EnumerableSet

variable {F : Type → Type}
variable {w w' : World F} {pool pool' : AssetPoolV1 F} {rp rp₁ : RewardPoolV1 F} {t t₁ t' : Tokens}
variable {a c c' p r self admin sender receiver : Address} {assets : Assets} {method : RedeemMethod}
variable {id n : Nat} {call : Call}

/-! ### Supplies -/

namespace Tokens

def totalSupply (t : Tokens) (c : Address) : Nat := (t.erc20 c).elim 0 ERC20.totalSupply

def supply (t : Tokens) (c : Address) (id : Nat) : Nat := (t.erc1155 c).elim 0 fun tok => tok.supply id

/-- The redeem tokens in circulation, of the contract at `c` and under the id `id` if it has ids. -/
def issued (t : Tokens) (method : RedeemMethod) (c : Address) (id : Nat) : Nat :=
  match method with
  | .ExistingERC20 => 0
  | .CustomERC20 => t.totalSupply c
  | .CustomERC1155 => t.supply c id

theorem issued_erc20 {tok : ERC20} (htok : t.erc20 c = some tok) :
    t.issued .CustomERC20 c id = tok.totalSupply := by
  show t.totalSupply c = tok.totalSupply
  rw [totalSupply, htok, Option.elim_some]

theorem supply_eq {tok : ERC1155} (htok : t.erc1155 c = some tok) :
    t.supply c id = tok.supply id := by
  rw [supply, htok, Option.elim_some]

theorem issued_erc1155 {tok : ERC1155} (htok : t.erc1155 c = some tok) :
    t.issued .CustomERC1155 c id = tok.supply id :=
  supply_eq htok

theorem issued_setERC20 {tok : ERC20} : (t.setERC20 c tok).issued method c' id =
    if method = .CustomERC20 ∧ c' = c then tok.totalSupply else t.issued method c' id := by
  split_ifs with hkey
  · obtain ⟨rfl, rfl⟩ := hkey
    exact issued_erc20 (Function.update_self ..)
  · cases method with
    | ExistingERC20 => rfl
    | CustomERC1155 => rfl
    | CustomERC20 =>
      have hc : c' ≠ c := fun heq => hkey ⟨rfl, heq⟩
      show (t.setERC20 c tok).totalSupply c' = t.totalSupply c'
      rw [totalSupply, totalSupply, setERC20]
      dsimp only
      rw [Function.update_of_ne hc]

theorem issued_setERC1155 {tok : ERC1155} : (t.setERC1155 c tok).issued method c' id =
    if method = .CustomERC1155 ∧ c' = c then tok.supply id else t.issued method c' id := by
  split_ifs with hkey
  · obtain ⟨rfl, rfl⟩ := hkey
    exact issued_erc1155 (Function.update_self ..)
  · cases method with
    | ExistingERC20 => rfl
    | CustomERC20 => rfl
    | CustomERC1155 =>
      have hc : c' ≠ c := fun heq => hkey ⟨rfl, heq⟩
      show (t.setERC1155 c tok).supply c' id = t.supply c' id
      rw [supply, supply, setERC1155]
      dsimp only
      rw [Function.update_of_ne hc]

/-- No redeem tokens are issued or taken back. -/
def SameSupply (t t' : Tokens) : Prop :=
  ∀ method c id, t'.issued method c id = t.issued method c id

theorem SameSupply.refl : SameSupply t t := fun _ _ _ => rfl

theorem SameSupply.trans (h : SameSupply t t₁) (h' : SameSupply t₁ t') : SameSupply t t' :=
  fun method c id => (h' method c id).trans (h method c id)

theorem sameSupply_of_eq (h20 : t'.erc20 = t.erc20) (h1155 : t'.erc1155 = t.erc1155) :
    SameSupply t t' := fun method c id => by
  cases method with
  | ExistingERC20 => rfl
  | CustomERC20 => simp only [issued, totalSupply, h20]
  | CustomERC1155 => simp only [issued, supply, h1155]

theorem sameSupply_recordIf {moves : Bool} {m : Movement} : SameSupply t (t.recordIf moves m) := by
  unfold recordIf
  split
  · exact sameSupply_of_eq rfl rfl
  · exact .refl

theorem sameSupply_erc20Call {f : ERC20 → Result ERC20} {answer : ERC20Answer}
    (hf : ∀ tok tok', f tok = .ok tok' → tok'.totalSupply = tok.totalSupply)
    (h : t.erc20Call c f = .ok (t', answer)) : SameSupply t t' := fun method c' id => by
  obtain ⟨tok, tok', htok, _, rfl, hcase⟩ := erc20Call_eq_ok h
  have hsame : tok'.totalSupply = tok.totalSupply := by
    rcases hcase with ⟨_, hcall⟩ | ⟨_, rfl⟩
    · exact (hf _ _ hcall).trans rfl
    · rfl
  rw [issued_setERC20]
  split_ifs with hkey
  · rw [hkey.1, hkey.2, issued_erc20 htok, hsame]
  · rfl

theorem sameSupply_erc20Transfer {src dst : Address} {answer : ERC20Answer}
    (h : t.erc20Transfer c src dst n = .ok (t', answer)) : SameSupply t t' :=
  sameSupply_erc20Call (fun tok tok' hcall => by rw [(ERC20.transfer_eq_ok hcall).2]) h

theorem sameSupply_erc20TransferFrom {spender src dst : Address} {answer : ERC20Answer}
    (h : t.erc20TransferFrom c spender src dst n = .ok (t', answer)) : SameSupply t t' :=
  sameSupply_erc20Call (fun tok tok' hcall => by
    obtain ⟨_, _, _, _, rfl⟩ := ERC20.transferFrom_eq_ok hcall
    rfl) h

theorem sameSupply_erc721TransferFrom {operator src dst : Address}
    (h : t.erc721TransferFrom c operator src dst id = .ok t') : SameSupply t t' := by
  obtain ⟨_, _, _, _, rfl⟩ := erc721TransferFrom_eq_ok h
  exact sameSupply_of_eq rfl rfl

theorem sameSupply_send {src dst : Address} {error : Revert} (h : t.send src dst n error = .ok t') :
    SameSupply t t' := by
  obtain ⟨_, rfl⟩ := send_eq_ok h
  exact sameSupply_of_eq rfl rfl

theorem sameSupply_erc1155SafeTransferFrom {pools : Address → Option (RewardPoolV1 F)}
    {operator src dst : Address} {accepts : Bool}
    (h : t.erc1155SafeTransferFrom pools c operator src dst id n accepts = .ok t') :
    SameSupply t t' := fun method c' id' => by
  obtain ⟨tok, htok, hn, rfl⟩ := erc1155SafeTransferFrom_eq_ok h
  rw [issued_setERC1155]
  split_ifs with hkey
  · rw [supply_move hn id', hkey.1, hkey.2, issued_erc1155 htok]
  · rfl

end Tokens

/-! ### What the calls of a pool issue -/

/-- Tokens that a pool with the id `poolId` mints and burns. -/
def RewardPoolV1.Issues (rp : RewardPoolV1 F) (poolId : Nat) (method : RedeemMethod) (c : Address)
    (id : Nat) : Prop :=
  method = rp.redeemMethod ∧ method ≠ .ExistingERC20 ∧ c = rp.redeemTokenContractAddress ∧
    (method = .CustomERC1155 → id = poolId)

instance (rp : RewardPoolV1 F) (poolId : Nat) (method : RedeemMethod) (c : Address) (id : Nat) :
    Decidable (rp.Issues poolId method c id) :=
  inferInstanceAs (Decidable (_ ∧ _))

variable [EnumerableSet F]

theorem DepositStep.sameSupply {s s' : AssetPoolV1 F × Tokens}
    (h : DepositStep self admin assets s s') : Tokens.SameSupply s.2 s'.2 := by
  cases h with
  | erc20 c boxes _ hpull =>
    exact (Tokens.sameSupply_erc20TransferFrom hpull).trans Tokens.sameSupply_recordIf
  | erc721Contract => exact .refl
  | erc721Token c tokenId _ hpull =>
    exact (Tokens.sameSupply_erc721TransferFrom hpull).trans (Tokens.sameSupply_of_eq rfl rfl)

theorem DepositSteps.sameSupply {s s' : AssetPoolV1 F × Tokens}
    (h : DepositSteps self admin assets s s') : Tokens.SameSupply s.2 s'.2 := by
  induction h with
  | refl => exact .refl
  | tail _ hstep ih => exact ih.trans hstep.sameSupply

/-- Until a deposit mints, no supply changes. -/
theorem sameSupply_beforeMint {s s₁ s₂ s₃ : AssetPoolV1 F × Tokens} {tokens₂ : Tokens} {value : Nat}
    {error error' : Revert} {m : Movement} (hsend : t.send sender self value error = .ok s.2)
    (h20 : DepositSteps self sender assets s s₁)
    (hsend' : s₁.2.send self self value error' = .ok tokens₂) (hs₂ : s₂.2 = tokens₂.record m)
    (h721 : DepositSteps self sender assets s₂ s₃) : Tokens.SameSupply t s₃.2 := by
  have hin := (Tokens.sameSupply_send hsend).trans h20.sameSupply
  have hnative : Tokens.SameSupply s₁.2 s₂.2 := by
    rw [hs₂]
    exact (Tokens.sameSupply_send hsend').trans (Tokens.sameSupply_of_eq rfl rfl)
  exact (hin.trans hnative).trans h721.sameSupply

section

omit [EnumerableSet F]

theorem WithdrawStep.sameSupply {accepts : Address → Bool} {s s' : AssetPoolV1 F × Tokens}
    (h : WithdrawStep accepts self assets s s') : Tokens.SameSupply s.2 s'.2 := by
  cases h with
  | erc20 _ _ _ _ _ _ _ hpay =>
    exact (Tokens.sameSupply_erc20Transfer hpay).trans Tokens.sameSupply_recordIf
  | erc721 _ _ _ _ _ _ _ hpay =>
    exact (Tokens.sameSupply_erc721TransferFrom hpay).trans (Tokens.sameSupply_of_eq rfl rfl)
  | native _ _ _ _ _ hpay =>
    exact (Tokens.sameSupply_send hpay).trans (Tokens.sameSupply_of_eq rfl rfl)

theorem WithdrawSteps.sameSupply {accepts : Address → Bool} {s s' : AssetPoolV1 F × Tokens}
    (h : WithdrawSteps accepts self assets s s') : Tokens.SameSupply s.2 s'.2 := by
  induction h with
  | refl => exact .refl
  | tail _ hstep ih => exact ih.trans hstep.sameSupply

theorem sameSupply_payCard {card : Card} {requestId : Nat}
    (h : w.payCard self receiver requestId card = .ok t') : Tokens.SameSupply w.tokens t' := by
  obtain ⟨tokens₁, moves, rfl, hcase⟩ := payCard_cases h
  refine Tokens.SameSupply.trans ?_ Tokens.sameSupply_recordIf
  split at hcase
  · obtain ⟨_, hcall, _⟩ := hcase
    exact Tokens.sameSupply_erc20Transfer hcall
  · exact Tokens.sameSupply_send hcase.2.2
  · exact Tokens.sameSupply_erc721TransferFrom hcase.2.2

theorem sameSupply_transferRedeemToken {pools : Address → Option (RewardPoolV1 F)}
    {system : Address → Bool} {dst : Address}
    (h : transferRedeemToken pools self system rp pool t dst n = .ok t') :
    Tokens.SameSupply t t' := by
  rcases transferRedeemToken_cases h with ⟨_, _, hcall⟩ | ⟨_, hcall⟩
  · exact Tokens.sameSupply_erc20Transfer hcall
  · exact Tokens.sameSupply_erc1155SafeTransferFrom hcall

end

theorem supply_update {tok : ERC1155} {l : Address → Nat} (id' : Nat) :
    ERC1155.supply { tok with balances := Function.update tok.balances id l } id' =
      if id' = id then ∑ a, l a else tok.supply id' := by
  unfold ERC1155.supply
  split_ifs with hid
  · subst hid
    simp only [Function.update_self]
  · simp only [Function.update_of_ne hid]

theorem supply_credit {tok : ERC1155} {dst : Address} (id' : Nat) :
    ERC1155.supply { tok with
      balances := Function.update tok.balances id (Ledger.credit (tok.balances id) dst n) } id' =
      tok.supply id' + if id' = id then n else 0 := by
  rw [supply_update]
  split_ifs with hid
  · subst hid
    unfold ERC1155.supply
    exact Ledger.sum_credit
  · exact (Nat.add_zero _).symm

theorem supply_debit {tok : ERC1155} {src : Address} (hn : n ≤ tok.balances id src) (id' : Nat) :
    ERC1155.supply { tok with
      balances := Function.update tok.balances id (Ledger.debit (tok.balances id) src n) } id' =
      tok.supply id' - if id' = id then n else 0 := by
  rw [supply_update]
  split_ifs with hid
  · subst hid
    unfold ERC1155.supply
    exact Nat.eq_sub_of_add_eq (Ledger.sum_debit hn)
  · exact (Nat.sub_zero _).symm

omit [EnumerableSet F] in
/-- The tokens a pool issues are those of its reward pool's token, under its own id if there are
ids. -/
theorem RewardPoolV1.issues_erc20 {poolId : Nat} (hm : rp.redeemMethod = .CustomERC20) :
    rp.Issues poolId method c id ↔ method = .CustomERC20 ∧ c = rp.redeemTokenContractAddress := by
  unfold RewardPoolV1.Issues
  rw [hm]
  constructor
  · exact fun h => ⟨h.1, h.2.2.1⟩
  · rintro ⟨rfl, rfl⟩
    simp

omit [EnumerableSet F] in
theorem RewardPoolV1.issues_erc1155 {poolId : Nat} (hm : rp.redeemMethod = .CustomERC1155) :
    rp.Issues poolId method c id ↔
      (method = .CustomERC1155 ∧ c = rp.redeemTokenContractAddress) ∧ id = poolId := by
  unfold RewardPoolV1.Issues
  rw [hm]
  constructor
  · exact fun h => ⟨⟨h.1, h.2.2.1⟩, h.2.2.2 h.1⟩
  · rintro ⟨⟨rfl, rfl⟩, rfl⟩
    simp

theorem issued_mintRedeemTokens {pools : Address → Option (RewardPoolV1 F)}
    (h : mintRedeemTokens pools self rp pool t n = .ok t') :
    t'.issued method c id = t.issued method c id +
      if rp.Issues pool.id method c id then pool.redeemTokenAmount * n else 0 := by
  rcases mintRedeemTokens_cases h with ⟨hm, rfl⟩ | ⟨hm, hmint⟩ | ⟨hm, hmint⟩
  · rw [if_neg (fun hissues => hissues.2.1 (hissues.1.trans hm)), Nat.add_zero]
  · obtain ⟨tok, tok', _, htok, _, _, hcall, rfl⟩ := Tokens.erc20Mint_eq_ok hmint
    have htotal : tok'.totalSupply = tok.totalSupply + pool.redeemTokenAmount * n := by
      rw [ERC20.mint_eq_ok hcall]
    rw [Tokens.issued_setERC20]
    simp only [RewardPoolV1.issues_erc20 hm]
    split_ifs with hkey
    · rw [hkey.1, hkey.2, Tokens.issued_erc20 htok, htotal]
    · rw [Nat.add_zero]
  · obtain ⟨tok, htok, _, rfl⟩ := Tokens.erc1155Mint_eq_ok hmint
    rw [Tokens.issued_setERC1155, supply_credit]
    simp only [RewardPoolV1.issues_erc1155 hm]
    by_cases hkey : method = .CustomERC1155 ∧ c = rp.redeemTokenContractAddress
    · simp only [hkey, and_self, true_and, if_true]
      rw [Tokens.issued_erc1155 htok]
    · simp only [hkey, false_and, if_false, Nat.add_zero]

theorem issued_takePayment {sink : Option Address}
    (h : w.takePayment self rp pool receiver n = .ok (t', sink)) :
    t'.issued method c id =
      w.tokens.issued method c id - if rp.Issues pool.id method c id then n else 0 := by
  rcases takePayment_cases h with ⟨hm, _, _, _, hcall⟩ | ⟨hm, _, hburn⟩ | ⟨hm, _, hburn⟩
  · rw [if_neg (fun hissues => hissues.2.1 (hissues.1.trans hm)), Nat.sub_zero]
    exact Tokens.sameSupply_erc20TransferFrom hcall method c id
  · obtain ⟨tok, tok', _, htok, _, _, hcall, rfl⟩ := Tokens.erc20Burn_eq_ok hburn
    have htotal : tok'.totalSupply = tok.totalSupply - n := by rw [(ERC20.burn_eq_ok hcall).2]
    rw [Tokens.issued_setERC20]
    simp only [RewardPoolV1.issues_erc20 hm]
    split_ifs with hkey
    · rw [hkey.1, hkey.2, Tokens.issued_erc20 htok, htotal]
    · rw [Nat.sub_zero]
  · obtain ⟨tok, htok, _, hn, rfl⟩ := Tokens.erc1155Burn_eq_ok hburn
    rw [Tokens.issued_setERC1155, supply_debit hn]
    simp only [RewardPoolV1.issues_erc1155 hm]
    by_cases hkey : method = .CustomERC1155 ∧ c = rp.redeemTokenContractAddress
    · simp only [hkey, and_self, true_and, if_true]
      rw [Tokens.issued_erc1155 htok]
    · simp only [hkey, false_and, if_false, Nat.sub_zero]

/-! ### What the supply is issued against -/

/-- The redeem tokens that the free cards of a pool cost. -/
def AssetPoolV1.backing (pool : AssetPoolV1 F) : Nat :=
  pool.redeemTokenAmount * pool.totalNumberOfAssets

/-- The pools against which tokens are issued: those of the reward pool at `r`, or the one of them
with the id `id` if the token has ids. -/
def Counts (method : RedeemMethod) (r : Address) (id : Nat) (info : AssetPoolInfo) : Prop :=
  info.rewardPool = r ∧ (method = .CustomERC1155 → id = info.id)

instance (method : RedeemMethod) (r : Address) (id : Nat) : DecidablePred (Counts method r id) :=
  fun _ => inferInstanceAs (Decidable (_ ∧ _))

/-- What a pool is worth in redeem tokens, if it counts. -/
def AssetPoolV1.share (method : RedeemMethod) (r : Address) (id : Nat) (pool : AssetPoolV1 F) : Nat :=
  if Counts method r id pool.info then pool.backing else 0

/-- What the pools that count are worth together. -/
@[irreducible] def backed (pools : Address → Option (AssetPoolV1 F)) (method : RedeemMethod)
    (r : Address) (id : Nat) : Nat :=
  ∑ p, (pools p).elim 0 (AssetPoolV1.share method r id)

section

omit [EnumerableSet F]

theorem backed_setPool (hpool : w.assetPools self = some pool) (pool' : AssetPoolV1 F)
    (method : RedeemMethod) (r : Address) (id : Nat) :
    backed (w.setPool self pool').assetPools method r id + pool.share method r id =
      backed w.assetPools method r id + pool'.share method r id := by
  have hview : (fun p => ((w.setPool self pool').assetPools p).elim 0 (AssetPoolV1.share method r id)) =
      Function.update (fun p => (w.assetPools p).elim 0 (AssetPoolV1.share method r id)) self
        (pool'.share method r id) := by
    funext p
    by_cases hp : p = self
    · subst hp
      simp [World.setPool]
    · simp [World.setPool, hp]
  have hold : (w.assetPools self).elim 0 (AssetPoolV1.share method r id) = pool.share method r id := by
    rw [hpool, Option.elim_some]
  unfold backed
  rw [hview, ← hold]
  exact Ledger.sum_update

theorem backing_le_backed (hpool : w.assetPools p = some pool)
    (hcounts : Counts method r id pool.info) :
    pool.backing ≤ backed w.assetPools method r id := by
  have hshare : (w.assetPools p).elim 0 (AssetPoolV1.share method r id) = pool.backing := by
    rw [hpool, Option.elim_some, AssetPoolV1.share, if_pos hcounts]
  have hle := Ledger.le_sum (l := fun p => (w.assetPools p).elim 0 (AssetPoolV1.share method r id))
    (a := p)
  rw [hshare] at hle
  unfold backed
  exact hle

theorem backed_congr {pools pools' : Address → Option (AssetPoolV1 F)}
    (h : ∀ p, (pools' p).elim 0 (AssetPoolV1.share method r id) =
      (pools p).elim 0 (AssetPoolV1.share method r id)) :
    backed pools' method r id = backed pools method r id := by
  unfold backed
  exact Finset.sum_congr rfl fun p _ => h p

end

/-- A quiet step makes new pools only, and these have no cards. -/
theorem backed_quiet (h : Quiet w w') :
    backed w'.assetPools method r id = backed w.assetPools method r id := by
  refine backed_congr fun p => ?_
  rcases h.assetPools p with hsame | ⟨hnone, a, poolId, price, forwarder, _, hnew⟩
  · rw [hsame]
  · rw [hnone, hnew]
    simp [AssetPoolV1.share, AssetPoolV1.backing, AssetPoolV1.initial]

omit [EnumerableSet F] in
theorem backed_eq_zero {pools : Address → Option (AssetPoolV1 F)}
    (h : ∀ p pool, pools p = some pool → ¬Counts method r id pool.info) :
    backed pools method r id = 0 := by
  unfold backed
  refine Finset.sum_eq_zero fun p _ => ?_
  cases hpool : pools p with
  | none => rfl
  | some pool => exact if_neg (h p pool hpool)

/-! ### The invariant -/

/-- The tokens of the reward pool at `r` are issued against the free cards of its pools, and only
pools it knows have cards. -/
structure Backing (r : Address) (w : World F) : Prop where
  issued : ∀ rp id, w.rewardPools r = some rp → rp.redeemMethod ≠ .ExistingERC20 →
    w.tokens.issued rp.redeemMethod rp.redeemTokenContractAddress id =
      backed w.assetPools rp.redeemMethod r id
  enrolled : ∀ rp p pool, w.rewardPools r = some rp → rp.redeemMethod ≠ .ExistingERC20 →
    w.assetPools p = some pool → pool.rewardPool = r → 0 < pool.totalNumberOfAssets →
    p ∈ values rp.assetPools

/-- The tokens a pool mints and burns are those its cards count for. -/
theorem issues_iff (hw : Wired w.wiring) (hrp : w.rewardPools r = some rp)
    (hcustom : rp.redeemMethod ≠ .ExistingERC20)
    (hrp₁ : w.rewardPools pool.rewardPool = some rp₁) :
    rp₁.Issues pool.id rp.redeemMethod rp.redeemTokenContractAddress id ↔
      Counts rp.redeemMethod r id pool.info := by
  constructor
  · rintro ⟨hmethod, _, htoken, hid⟩
    refine ⟨?_, hid⟩
    -- two reward pools do not share a redeem token
    obtain ⟨h20, h1155⟩ := hw.custom r rp.info (wiring_rewardPools hrp)
    obtain ⟨h20', h1155'⟩ := hw.custom pool.rewardPool rp₁.info (wiring_rewardPools hrp₁)
    show pool.rewardPool = r
    cases hm : rp.redeemMethod with
    | ExistingERC20 => exact absurd hm hcustom
    | CustomERC20 =>
      have hr := h20 hm
      have hr' := h20' (hmethod.symm.trans hm)
      rw [show rp₁.info.redeemTokenContractAddress = rp.info.redeemTokenContractAddress from
        htoken.symm, hr, Option.some.injEq, Option.some.injEq] at hr'
      exact hr'.symm
    | CustomERC1155 =>
      have hr := h1155 hm
      have hr' := h1155' (hmethod.symm.trans hm)
      rw [show rp₁.info.redeemTokenContractAddress = rp.info.redeemTokenContractAddress from
        htoken.symm, hr, Option.some.injEq] at hr'
      exact hr'.symm
  · rintro ⟨hr, hid⟩
    have hr : pool.rewardPool = r := hr
    rw [hr, hrp, Option.some.injEq] at hrp₁
    subst hrp₁
    exact ⟨rfl, hcustom, rfl, hid⟩

/-- A call of one pool that issues, or takes back, what its cards are worth more, or less. -/
theorem Backing.step (h : Backing r w) (pool' : AssetPoolV1 F) (hw : Wired w.wiring)
    (hpool : w.assetPools self = some pool)
    (hrp₁ : w.rewardPools pool.rewardPool = some rp₁) (hinfo : pool'.info = pool.info)
    (hpools : w'.assetPools = (w.setPool self pool').assetPools)
    (hrewardPools : w'.rewardPools = w.rewardPools)
    (hother : ∀ method c id, ¬rp₁.Issues pool.id method c id →
      w'.tokens.issued method c id = w.tokens.issued method c id)
    (hown : pool.rewardPool = r → ∀ method c id, rp₁.Issues pool.id method c id →
      pool.backing ≤ w.tokens.issued method c id →
      w'.tokens.issued method c id + pool.backing = w.tokens.issued method c id + pool'.backing)
    (henrolled : rp₁.redeemMethod ≠ .ExistingERC20 →
      0 < pool'.totalNumberOfAssets → 0 < pool.totalNumberOfAssets ∨ self ∈ values rp₁.assetPools) :
    Backing r w' where
  issued := fun rp id hrp hcustom => by
    rw [hrewardPools] at hrp
    have hissued := h.issued rp id hrp hcustom
    have hset := backed_setPool hpool pool' rp.redeemMethod r id
    have hshare : pool'.share rp.redeemMethod r id =
        if Counts rp.redeemMethod r id pool.info then pool'.backing else 0 := by
      rw [AssetPoolV1.share, hinfo]
    rw [AssetPoolV1.share, hshare] at hset
    rw [hpools]
    by_cases hcounts : Counts rp.redeemMethod r id pool.info
    · have hle := backing_le_backed hpool hcounts
      have hmine := hown hcounts.1 _ _ _ ((issues_iff hw hrp hcustom hrp₁).mpr hcounts)
        (hissued ▸ hle)
      rw [if_pos hcounts, if_pos hcounts] at hset
      omega
    · rw [hother _ _ _ (fun hissues => hcounts ((issues_iff hw hrp hcustom hrp₁).mp hissues)), hissued]
      rw [if_neg hcounts, if_neg hcounts] at hset
      omega
  enrolled := fun rp p pool₁ hrp hcustom hpool₁ hr hpos => by
    rw [hrewardPools] at hrp
    rw [hpools] at hpool₁
    rcases setPool_cases hpool₁ with ⟨rfl, rfl⟩ | ⟨_, hold⟩
    · have hr' : pool.rewardPool = r := (congrArg AssetPoolInfo.rewardPool hinfo).symm.trans hr
      rw [hr', hrp, Option.some.injEq] at hrp₁
      subst hrp₁
      rcases henrolled hcustom hpos with hpos' | hmem
      · exact h.enrolled rp p pool hrp hcustom hpool hr' hpos'
      · exact hmem
    · exact h.enrolled rp p pool₁ hrp hcustom hold hr hpos

/-! ### Every call -/

theorem Backing.of_sameSupply (h : Backing r w) (hsame : Tokens.SameSupply w.tokens t') :
    Backing r { w with tokens := t' } where
  issued := fun rp id hrp hcustom => (hsame _ _ _).trans (h.issued rp id hrp hcustom)
  enrolled := h.enrolled

/-- Only a pool that the reward pool knows mints its tokens. -/
theorem mem_of_mintRedeemTokens (hw : Wired w.wiring) (hsame : Tokens.SameContracts w.tokens t)
    (hrp : w.rewardPools r = some rp) (hcustom : rp.redeemMethod ≠ .ExistingERC20)
    (h : mintRedeemTokens w.rewardPools self rp pool t n = .ok t') : self ∈ values rp.assetPools := by
  obtain ⟨h20, h1155⟩ := hw.custom r rp.info (wiring_rewardPools hrp)
  rcases mintRedeemTokens_cases h with ⟨hm, _⟩ | ⟨hm, hmint⟩ | ⟨hm, hmint⟩
  · exact absurd hm hcustom
  · obtain ⟨tok, _, r', htok, hr', ⟨rp', hrp', hmem⟩, _⟩ := Tokens.erc20Mint_eq_ok hmint
    have htoken : (w.tokens.erc20 rp.redeemTokenContractAddress).map ERC20.rewardPool =
        some (some r) := h20 hm
    rw [← hsame.erc20, htok, Option.map_some, hr', Option.some.injEq, Option.some.injEq] at htoken
    rw [htoken, hrp, Option.some.injEq] at hrp'
    exact hrp' ▸ hmem
  · obtain ⟨tok, htok, ⟨rp', hrp', hmap, hne⟩, _⟩ := Tokens.erc1155Mint_eq_ok hmint
    have htoken : (w.tokens.erc1155 rp.redeemTokenContractAddress).map ERC1155.rewardPool = some r :=
      h1155 hm
    rw [← hsame.erc1155, htok, Option.map_some, Option.some.injEq] at htoken
    rw [htoken, hrp, Option.some.injEq] at hrp'
    subst hrp'
    have hid := hw.ids r rp.info pool.id (wiring_rewardPools hrp) (by rw [← hmap] at hne; exact hne)
    exact hmap ▸ hid.2

theorem Deposit.backing {value : Nat} (hw : Wired w.wiring) (hself : self ≠ sender)
    (h : Deposit w self sender value assets w') (hI : Backing r w) : Backing r w' := by
  have hall := (h.spares hself).contracts
  cases h with
  | @mk pool pool₁ pool₂ pool₃ rp₁ n _ tokens₁ tokens₂ tokens₃ tokens₄ hpool hrp _ hsend _ _ _ _ h20
      hstore hsend' h721 _ _ hmint =>
    have hterms := h20.sameTerms.trans ((sameTerms_storeBoxes hstore).trans h721.sameTerms)
    have hsame : Tokens.SameSupply w.tokens tokens₃ := sameSupply_beforeMint hsend h20 hsend' rfl h721
    have hid : pool₃.id = pool.id := congrArg AssetPoolInfo.id hterms.info
    have hissued : ∀ method c id, tokens₄.issued method c id = w.tokens.issued method c id +
        if rp₁.Issues pool.id method c id then pool.redeemTokenAmount * n else 0 := by
      intro method c id
      rw [issued_mintRedeemTokens hmint, hsame, hid, hterms.redeemTokenAmount]
    refine hI.step _ hw hpool hrp hterms.info rfl rfl (fun method c id hnot => ?_)
      (fun _ method c id hissues _ => ?_) fun hcustom _ => .inr ?_
    · rw [hissued, if_neg hnot, Nat.add_zero]
    · rw [hissued, if_pos hissues, AssetPoolV1.backing, AssetPoolV1.backing,
        hterms.redeemTokenAmount, hterms.totalNumberOfAssets]
      show _ = _ + pool.redeemTokenAmount * (pool.totalNumberOfAssets + n)
      rw [Nat.mul_add]
      omega
    · have hmint' := (spares_mintRedeemTokens (a := self) hmint).contracts
      exact mem_of_mintRedeemTokens hw (hall.trans hmint'.symm) hrp hcustom hmint

/-- A withdrawal that takes no card of the reward pool's pools. -/
theorem Withdraw.backing (hw : Wired w.wiring)
    (hnone : ∀ pool, w.assetPools self = some pool → pool.rewardPool = r → assets.numberOfCards = 0)
    (h : Withdraw w self sender assets w') (hI : Backing r w) : Backing r w' := by
  cases h with
  | @mk pool rp₁ s tokens hpool hrp _ hsteps _ htotal hfree hmint =>
    have hterms := hsteps.sameTerms
    have hid : s.pool.id = pool.id := congrArg AssetPoolInfo.id hterms.info
    have hprice : s.pool.redeemTokenAmount = pool.redeemTokenAmount := hterms.redeemTokenAmount
    have hissued : ∀ method c id, tokens.issued method c id = w.tokens.issued method c id +
        if rp₁.Issues pool.id method c id then pool.redeemTokenAmount * s.total else 0 := by
      intro method c id
      have hsame : s.tokens.issued method c id = w.tokens.issued method c id :=
        hsteps.sameSupply method c id
      rw [burnRedeemTokens_eq] at hmint
      rw [issued_mintRedeemTokens hmint, hsame]
      show _ + (if rp₁.Issues s.pool.id method c id then s.pool.redeemTokenAmount * s.total else 0) = _
      rw [hid, hprice]
    refine hI.step { s.pool with totalNumberOfAssets := s.pool.totalNumberOfAssets - s.total } hw hpool
      hrp hterms.info rfl rfl (fun method c id hnot => ?_) (fun hr method c id hissues _ => ?_)
      fun _ hpos => .inl ?_
    · rw [hissued, if_neg hnot, Nat.add_zero]
    · have hzero : s.total = 0 := by rw [htotal, size_prizes, hnone pool hpool hr]
      have htotal' : s.pool.totalNumberOfAssets = pool.totalNumberOfAssets :=
        hterms.totalNumberOfAssets
      rw [hissued, hzero, Nat.mul_zero, ite_self, AssetPoolV1.backing, AssetPoolV1.backing, hprice]
      simp only [htotal', Nat.sub_zero, Nat.add_zero]
    · have htotal' : s.pool.totalNumberOfAssets = pool.totalNumberOfAssets :=
        hterms.totalNumberOfAssets
      have hpos' : 0 < s.pool.totalNumberOfAssets - s.total := hpos
      omega

theorem Redeem.backing {trailing : Address} {requestIds : List Nat} (hw : Wired w.wiring)
    (h : Redeem w self sender trailing n requestIds w') (hI : Backing r w) : Backing r w' := by
  cases h with
  | @mk pool rp₁ tokens sink w₁ hpool hrp _ _ _ hfree hpay _ hrequests =>
    obtain ⟨_, _, _, rfl⟩ := hrequests.frame
    refine hI.step { pool with totalNumberOfAssets := pool.totalNumberOfAssets - n } hw
      hpool hrp rfl rfl rfl (fun method c id hnot => ?_) (fun _ method c id hissues hle => ?_)
      fun _ hpos => .inl ?_
    · exact (issued_takePayment hpay).trans (by rw [if_neg hnot, Nat.sub_zero])
    · have hissued : tokens.issued method c id = w.tokens.issued method c id - _ :=
        issued_takePayment hpay
      rw [if_pos hissues] at hissued
      have hcost : pool.redeemTokenAmount * n ≤ pool.backing := Nat.mul_le_mul_left _ hfree
      have hleft : pool.redeemTokenAmount * (pool.totalNumberOfAssets - n) =
          pool.backing - pool.redeemTokenAmount * n := Nat.mul_sub ..
      show tokens.issued method c id + pool.backing =
        w.tokens.issued method c id + pool.redeemTokenAmount * (pool.totalNumberOfAssets - n)
      omega
    · have hpos' : 0 < pool.totalNumberOfAssets - n := hpos
      omega

theorem Fulfill.backing {k : Address} {requestId : Nat} {words : List Nat} (hw : Wired w.wiring)
    (h : Fulfill w k sender requestId words w') (hI : Backing r w) : Backing r w' := by
  cases h with
  | @mk consumer q receiver pool pool' rp card tokens _ _ _ hpool hrp _ hdraw hpay =>
    have hdrawn := drawCard_eq_ok hdraw
    have hsame := sameSupply_payCard hpay
    have hbacking : pool'.backing = pool.backing := by
      rw [AssetPoolV1.backing, AssetPoolV1.backing, hdrawn.redeemTokenAmount_eq, hdrawn.total_eq]
    refine hI.step pool' hw hpool hrp hdrawn.info_eq rfl rfl (fun method c id _ => hsame method c id)
      (fun _ method c id _ _ => ?_) fun _ hpos => .inl (hdrawn.total_eq ▸ hpos)
    rw [hbacking]
    exact congrArg (· + _) (hsame method c id)

/-- The calls that keep the tokens of the reward pool at `r` backed: its price is never set, and
withdrawals take no cards. -/
def KeepsBacking (r : Address) (w : World F) (call : Call) : Prop :=
  match call.action with
  | .assetPool a (.setRedeemTokenAmount _) => ∀ pool ∈ w.assetPools a, pool.rewardPool ≠ r
  | .assetPool a (.withdrawAssets assets) =>
    ∀ pool ∈ w.assetPools a, pool.rewardPool = r → assets.numberOfCards = 0
  | _ => True

instance (r : Address) (w : World F) (call : Call) : Decidable (KeepsBacking r w call) := by
  unfold KeepsBacking
  obtain ⟨sender, action⟩ := call
  induction action using Action.casesOn with
  | assetPool a c => induction c using AssetPoolCall.casesOn <;> infer_instance
  | _ => infer_instance

theorem Backing.change (hw : Wired w.wiring) (hcan : w.CanCall call) (hP : KeepsBacking r w call)
    (h : Change w call w') (hI : Backing r w) : Backing r w' := by
  cases h with
  | @setPrice pool self redeemTokenAmount hcall hpool =>
    obtain ⟨rp₁, hrp₁⟩ := exists_rewardPool hw hpool
    unfold KeepsBacking at hP
    rw [hcall] at hP
    exact hI.step { pool with redeemTokenAmount } hw hpool hrp₁ rfl rfl rfl
      (fun _ _ _ _ => rfl) (fun hr => absurd hr (hP pool hpool)) fun _ => .inl
  | handOut self dst amount _ _ htransfer =>
    exact hI.of_sameSupply (sameSupply_transferRedeemToken htransfer)
  | deposit self value assets _ h =>
    refine h.backing hw ?_ hI
    cases h with
    | mk hpool => exact ne_of_system (system_of_assetPool hw hpool) hcan.2.1
  | withdraw self assets hcall h =>
    unfold KeepsBacking at hP
    rw [hcall] at hP
    exact h.backing hw hP hI
  | redeem self trailing n requestIds _ _ h => exact h.backing hw hI
  | fulfill k requestId words _ h => exact h.backing hw hI

/-- A new reward pool has issued nothing, and no pool has cards for it. -/
theorem Backing.quiet (hw : Wired w.wiring) (h : Quiet w w') (hI : Backing r w) : Backing r w' where
  issued := fun rp' id hrp' hcustom => by
    rw [backed_quiet h]
    cases hrp : w.rewardPools r with
    | none =>
      have hzero : backed w.assetPools rp'.redeemMethod r id = 0 := by
        refine backed_eq_zero fun p pool hpool hcounts => ?_
        obtain ⟨rp₁, hrp₁⟩ := exists_rewardPool hw hpool
        rw [show pool.rewardPool = r from hcounts.1, hrp] at hrp₁
        cases hrp₁
      obtain ⟨h20, h1155⟩ := h.unissued r rp' hrp hrp'
      rw [hzero]
      cases hm : rp'.redeemMethod with
      | ExistingERC20 => rfl
      | CustomERC20 =>
        obtain ⟨tok, htok, _, hsupply⟩ := h20 hm
        rw [Tokens.issued_erc20 htok, hsupply]
      | CustomERC1155 =>
        obtain ⟨tok, htok, hsupply⟩ := h1155 hm
        rw [Tokens.issued_erc1155 htok, hsupply]
    | some rp =>
      obtain ⟨rp₁, hrp₁, _, hmethod, htoken, _⟩ := h.rewardPools r rp hrp
      rw [hrp', Option.some.injEq] at hrp₁
      subst hrp₁
      rw [hmethod] at hcustom ⊢
      rw [htoken, ← hI.issued rp id hrp hcustom]
      obtain ⟨h20, h1155⟩ := hw.custom r rp.info (wiring_rewardPools hrp)
      cases hm : rp.redeemMethod with
      | ExistingERC20 => rfl
      | CustomERC20 =>
        obtain ⟨tok, htok, hr⟩ := Option.map_eq_some_iff.mp (h20 hm)
        obtain ⟨tok', htok', _, hsupply⟩ := h.totalSupply _ tok r htok hr
        exact (Tokens.issued_erc20 htok').trans (hsupply.trans (Tokens.issued_erc20 htok).symm)
      | CustomERC1155 =>
        obtain ⟨tok, htok, hr⟩ := Option.map_eq_some_iff.mp (h1155 hm)
        obtain ⟨tok', htok', hsupply⟩ := h.supply _ tok htok
        exact (Tokens.issued_erc1155 htok').trans
          ((hsupply id).trans (Tokens.issued_erc1155 htok).symm)
  enrolled := fun rp' p pool hrp' hcustom hpool hr hpos => by
    rcases h.assetPools p with hsame | ⟨_, a, id, price, forwarder, _, hnew⟩
    · have hold : w.assetPools p = some pool := hsame.symm.trans hpool
      obtain ⟨rp, hrp⟩ := exists_rewardPool hw hold
      rw [hr] at hrp
      obtain ⟨rp₁, hrp₁, _, hmethod, _, hmembers⟩ := h.rewardPools r rp hrp
      rw [hrp', Option.some.injEq] at hrp₁
      subst hrp₁
      exact hmembers p (hI.enrolled rp p pool hrp (hmethod ▸ hcustom) hold hr hpos)
    · rw [hnew, Option.some.injEq] at hpool
      subst hpool
      cases hpos

theorem backing_rule : Rule (KeepsBacking r) (Sane : World F → Prop) (Backing r) where
  initial := fun w hw => ⟨fun rp id hrp => by simp [hw.rewardPools] at hrp,
    fun rp p pool hrp => by simp [hw.rewardPools] at hrp⟩
  quiet := fun w w' hs hI h => hI.quiet hs.wired h
  change := fun w call w' hs hI hcan hP h => hI.change hs.wired hcan hP h
  forget := fun w requestId k _ hI => ⟨hI.issued, hI.enrolled⟩

/-! ### Every run -/

variable {cfg : CallStack.Config (World F) Call}

theorem kept_backing : Kept (KeepsBacking r) fun w : World F => Sane w ∧ Backing r w :=
  kept_sane.rule (fun _ => id) backing_rule

omit [EnumerableSet F] in
/-- A pool without free cards counts for nothing. -/
theorem share_eq_zero (h : pool.totalNumberOfAssets = 0) : pool.share method r id = 0 := by
  rw [AssetPoolV1.share, AssetPoolV1.backing, h, Nat.mul_zero, ite_self]

theorem Backing.share_of_not_mem (h : Backing r w) (hrp : w.rewardPools r = some rp)
    (hcustom : rp.redeemMethod ≠ .ExistingERC20) (hp : p ∉ values rp.assetPools) :
    (w.assetPools p).elim 0 (AssetPoolV1.share method r id) = 0 := by
  cases hpool : w.assetPools p with
  | none => rfl
  | some pool =>
    show pool.share method r id = 0
    by_cases hr : pool.rewardPool = r
    · refine share_eq_zero (Nat.eq_zero_of_not_pos fun hpos => hp ?_)
      exact h.enrolled rp p pool hrp hcustom hpool hr hpos
    · exact if_neg fun hcounts => hr hcounts.1

theorem Backing.backed_erc20 (hw : Wired w.wiring) (h : Backing r w)
    (hrp : w.rewardPools r = some rp) (hm : rp.redeemMethod = .CustomERC20) :
    backed w.assetPools .CustomERC20 r id = ((values rp.assetPools).map fun p =>
      (w.assetPools p).elim 0 AssetPoolV1.backing).sum := by
  unfold backed
  refine Ledger.sum_eq_sum_map (nodup_values _) (fun p hp => ?_) fun p hp => ?_
  · obtain ⟨pool, hpool, hr, _⟩ := exists_member hw hrp hp
    rw [hpool, Option.elim_some, Option.elim_some, AssetPoolV1.share]
    exact if_pos ⟨hr, fun hm => by cases hm⟩
  · exact h.share_of_not_mem hrp (by simp [hm]) hp

theorem Backing.backed_erc1155 (hw : Wired w.wiring) (h : Backing r w)
    (hrp : w.rewardPools r = some rp) (hm : rp.redeemMethod = .CustomERC1155)
    (hp : p ∈ values rp.assetPools) (hpool : w.assetPools p = some pool) :
    backed w.assetPools .CustomERC1155 r pool.id = pool.backing := by
  have hsingle : backed w.assetPools .CustomERC1155 r pool.id =
      ([p].map fun p => (w.assetPools p).elim 0 AssetPoolV1.backing).sum := by
    unfold backed
    refine Ledger.sum_eq_sum_map (List.nodup_singleton p) (fun q hq => ?_) fun q hq => ?_
    · obtain ⟨pool', hpool', hr, _⟩ := exists_member hw hrp hp
      rw [hpool, Option.some.injEq] at hpool'
      subst hpool'
      rw [List.mem_singleton.mp hq, hpool, Option.elim_some, Option.elim_some, AssetPoolV1.share]
      exact if_pos ⟨hr, fun _ => rfl⟩
    · by_cases hmem : q ∈ values rp.assetPools
      · -- another pool has another id
        obtain ⟨pool', hpool', _, hid'⟩ := exists_member hw hrp hmem
        obtain ⟨pool'', hpool'', _, hid⟩ := exists_member hw hrp hp
        rw [hpool, Option.some.injEq] at hpool''
        subst hpool''
        rw [hpool', Option.elim_some]
        refine if_neg fun hcounts => hq (List.mem_singleton.mpr ?_)
        have hsame : pool.id = pool'.id := hcounts.2 rfl
        rw [← hid', ← hsame, hid]
      · exact h.share_of_not_mem hrp (by simp [hm]) hmem
  rw [hsingle, List.map_singleton, List.sum_singleton, hpool, Option.elim_some]

/-- As long as the price is not changed and no card is withdrawn, the redeem tokens in circulation are
worth the free cards of the pools. -/
theorem redeemTokens_are_backed (h : World.Run (KeepsBacking r) cfg)
    (hrp : cfg.state.rewardPools r = some rp) :
    (rp.redeemMethod = .CustomERC20 →
      cfg.state.tokens.totalSupply rp.redeemTokenContractAddress =
        ((values rp.assetPools).map fun p => (cfg.state.assetPools p).elim 0 fun pool =>
          pool.redeemTokenAmount * pool.totalNumberOfAssets).sum) ∧
    (rp.redeemMethod = .CustomERC1155 → ∀ p ∈ values rp.assetPools,
      ∃ pool, cfg.state.assetPools p = some pool ∧
        cfg.state.tokens.supply rp.redeemTokenContractAddress pool.id =
          pool.redeemTokenAmount * pool.totalNumberOfAssets) := by
  obtain ⟨hsane, hI⟩ := kept_backing.run h
  constructor
  · intro hm
    have hissued := hI.issued rp 0 hrp (by simp [hm])
    rw [hm, hI.backed_erc20 hsane.wired hrp hm] at hissued
    exact hissued
  · intro hm p hp
    obtain ⟨pool, hpool, _⟩ := exists_member hsane.wired hrp hp
    have hissued := hI.issued rp pool.id hrp (by simp [hm])
    rw [hm, hI.backed_erc1155 hsane.wired hrp hm hp hpool] at hissued
    exact ⟨pool, hpool, hissued⟩

/-- A pool with three native cards, one of which has been redeemed. -/
def onceRedeemed : CallStack.Config (World ListSet) Call :=
  World.after (KeepsBacking 1002) [
    World.opening .CustomERC20,
    World.poolCall 1 (.depositAssets 6 (World.nativeBoxes [⟨1, .NativeToken, 3, 2⟩])),
    World.poolCall 1 (.transferRedeemTokenNumber 5 2),
    World.poolCall 5 (.redeemAsset 0 1 [77])]

theorem isSome_onceRedeemed : (onceRedeemed.state.rewardPools 1002).isSome = true := by
  decide

theorem redeemTokens_are_backed_onceRedeemed : onceRedeemed.state.tokens.totalSupply 1003 = 10 ∧
    onceRedeemed.state.tokens.totalSupply
        ((onceRedeemed.state.rewardPools 1002).get isSome_onceRedeemed).redeemTokenContractAddress =
      ((values ((onceRedeemed.state.rewardPools 1002).get isSome_onceRedeemed).assetPools).map
        fun p => (onceRedeemed.state.assetPools p).elim 0 fun pool =>
          pool.redeemTokenAmount * pool.totalNumberOfAssets).sum := by
  have hbacked := redeemTokens_are_backed (World.run_after (KeepsBacking 1002) _)
    (Option.some_get isSome_onceRedeemed).symm
  exact ⟨by decide, hbacked.1 (by decide)⟩

/-- The price is never set. -/
def NeverPriced (_ : World F) (call : Call) : Prop :=
  match call.action with
  | .assetPool _ (.setRedeemTokenAmount _) => False
  | _ => True

instance (w : World F) (call : Call) : Decidable (NeverPriced w call) := by
  unfold NeverPriced
  obtain ⟨sender, action⟩ := call
  induction action using Action.casesOn with
  | assetPool a c => induction c using AssetPoolCall.casesOn <;> infer_instance
  | _ => infer_instance

/-- A pool with three native cards, one of which has been withdrawn. -/
def onceWithdrawn : CallStack.Config (World ListSet) Call :=
  World.after NeverPriced [
    World.opening .CustomERC20,
    World.poolCall 1 (.depositAssets 6 (World.nativeBoxes [⟨1, .NativeToken, 3, 2⟩])),
    World.poolCall 1 (.withdrawAssets (World.nativeBoxes [⟨1, .NativeToken, 1, 2⟩]))]

/-- Two cards at a price of five are left, and twenty tokens are in circulation: the withdrawal has
issued five where it should have taken back five. -/
theorem withdrawal_issues_redeemTokens : World.Run NeverPriced onceWithdrawn ∧
    (onceWithdrawn.state.rewardPools 1002).map (fun rp => (rp.redeemMethod,
      rp.redeemTokenContractAddress, values rp.assetPools)) =
        some (RedeemMethod.CustomERC20, 1003, [1004]) ∧
    (onceWithdrawn.state.assetPools 1004).map (fun pool =>
      pool.redeemTokenAmount * pool.totalNumberOfAssets) = some 10 ∧
    onceWithdrawn.state.tokens.totalSupply 1003 = 20 :=
  ⟨World.run_after NeverPriced _, by decide⟩

end Redeemy
