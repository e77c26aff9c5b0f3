import Redeemy.Model.System

/-!
# What a token call leaves alone

The contracts of the system never approve anybody. So for an address `a` that has approved nobody, a
call to a token contract takes something from `a` only if `a` itself pays: `Spares` says that nothing
is taken, `Keeps` only that approvals and the contracts themselves stay as they are.
-/

namespace Redeemy

open Fallible EnumerableSet

variable {a c src dst spender operator : Address} {n id tokenId : Nat}

/-! ### Single token contracts -/

namespace ERC20

variable {tok tok' : ERC20}

/-- `a` has approved nobody. -/
def Guards (a : Address) (tok : ERC20) : Prop := ∀ spender, tok.allowance a spender = 0

structure Keeps (a : Address) (tok tok' : ERC20) : Prop where
  rewardPool : tok'.rewardPool = tok.rewardPool
  guards : Guards a tok → Guards a tok'

structure Spares (a : Address) (tok tok' : ERC20) : Prop extends Keeps a tok tok' where
  balanceOf : Guards a tok → tok.balanceOf a ≤ tok'.balanceOf a

theorem transfer_eq_ok (h : tok.transfer src dst n = .ok tok') :
    n ≤ tok.balanceOf src ∧ tok' = { tok with balanceOf := Ledger.move tok.balanceOf src dst n } := by
  unfold transfer at h
  simp only [bind_eq_ok, require_eq_ok, pure_eq_ok] at h
  obtain ⟨_, _, _, _, _, _, _, hn, rfl⟩ := h
  exact ⟨hn, rfl⟩

theorem transferFrom_eq_ok (h : tok.transferFrom spender src dst n = .ok tok') :
    n ≤ tok.allowance src spender ∧ n ≤ tok.balanceOf src ∧ ∃ allowance,
      (∀ a s, allowance a s ≤ tok.allowance a s) ∧
      tok' = { tok with allowance, balanceOf := Ledger.move tok.balanceOf src dst n } := by
  unfold transferFrom spendAllowance at h
  simp only [bind_eq_ok, require_eq_ok] at h
  obtain ⟨spent, ⟨_, hallowed, hspend⟩, htransfer⟩ := h
  obtain ⟨hn, rfl⟩ := transfer_eq_ok htransfer
  split_ifs at hspend with hmax
  · rw [pure_eq_ok] at hspend
    subst hspend
    exact ⟨hallowed, hn, tok.allowance, fun _ _ => Nat.le_refl _, rfl⟩
  · rw [pure_eq_ok] at hspend
    subst hspend
    refine ⟨hallowed, hn, _, fun b s => ?_, rfl⟩
    by_cases hb : b = src
    · subst hb
      by_cases hs : s = spender
      · subst hs
        simp
      · simp [hs]
    · simp [hb]

theorem mint_eq_ok (h : tok.mint dst n = .ok tok') :
    tok' = { tok with
      totalSupply := tok.totalSupply + n, balanceOf := Ledger.credit tok.balanceOf dst n } := by
  unfold mint at h
  simp only [bind_eq_ok, require_eq_ok, checkedAdd_eq_ok, pure_eq_ok] at h
  obtain ⟨_, _, _, _, _, ⟨_, rfl⟩, rfl⟩ := h
  rfl

theorem burn_eq_ok (h : tok.burn src n = .ok tok') :
    n ≤ tok.balanceOf src ∧ tok' = { tok with
      totalSupply := tok.totalSupply - n, balanceOf := Ledger.debit tok.balanceOf src n } := by
  unfold burn at h
  simp only [bind_eq_ok, require_eq_ok, pure_eq_ok] at h
  obtain ⟨_, _, _, _, _, hn, rfl⟩ := h
  exact ⟨hn, rfl⟩

theorem keeps_transfer (h : tok.transfer src dst n = .ok tok') : Keeps a tok tok' := by
  obtain ⟨_, rfl⟩ := transfer_eq_ok h
  exact ⟨rfl, id⟩

theorem spares_transfer (ha : a ≠ src) (h : tok.transfer src dst n = .ok tok') :
    Spares a tok tok' := by
  refine ⟨keeps_transfer h, fun _ => ?_⟩
  obtain ⟨_, rfl⟩ := transfer_eq_ok h
  exact Ledger.le_move ha

/-- A guarded account is spared whoever the sender is: it can only be asked for nothing. -/
theorem spares_transferFrom (h : tok.transferFrom spender src dst n = .ok tok') :
    Spares a tok tok' := by
  obtain ⟨hallowed, _, allowance, hle, rfl⟩ := transferFrom_eq_ok h
  refine ⟨⟨rfl, fun hguards s => Nat.le_zero.mp ((hle a s).trans (hguards s).le)⟩, fun hguards => ?_⟩
  by_cases ha : a = src
  · subst ha
    rw [hguards spender, Nat.le_zero] at hallowed
    subst hallowed
    exact (Nat.sub_zero _).symm.le.trans Ledger.sub_le_move
  · exact Ledger.le_move ha

theorem spares_mint (h : tok.mint dst n = .ok tok') : Spares a tok tok' := by
  rw [mint_eq_ok h]
  exact ⟨⟨rfl, id⟩, fun _ => Ledger.le_credit⟩

theorem spares_burn (ha : a ≠ src) (h : tok.burn src n = .ok tok') : Spares a tok tok' := by
  obtain ⟨_, rfl⟩ := burn_eq_ok h
  exact ⟨⟨rfl, id⟩, fun _ => (Ledger.debit_of_ne ha).ge⟩

end ERC20

namespace ERC721

variable {tok tok' : ERC721}

/-- `a` has approved nobody, for all of its tokens or for one of them. -/
def Guards (a : Address) (tok : ERC721) : Prop :=
  (∀ operator, tok.isApprovedForAll a operator = false) ∧
    ∀ tokenId, tok.ownerOf tokenId = some a → tok.getApproved tokenId = none

structure Keeps (a : Address) (tok tok' : ERC721) : Prop where
  standard : tok'.standard = tok.standard
  guards : Guards a tok → Guards a tok'

structure Spares (a : Address) (tok tok' : ERC721) : Prop extends Keeps a tok tok' where
  ownerOf : Guards a tok → ∀ tokenId, tok.ownerOf tokenId = some a → tok'.ownerOf tokenId = some a

/-- A change of owner that clears the approval of the token. -/
theorem keeps_setOwner {owner : Option Address} :
    Keeps a tok { tok with
      ownerOf := Function.update tok.ownerOf tokenId owner
      getApproved := Function.update tok.getApproved tokenId none } := by
  refine ⟨rfl, fun hguards => ⟨hguards.1, fun id hid => ?_⟩⟩
  by_cases heq : id = tokenId
  · subst heq
    simp
  · simp only [Function.update_of_ne heq] at hid ⊢
    exact hguards.2 id hid

theorem transferFrom_eq_ok (h : tok.transferFrom operator src dst tokenId = .ok tok')
    (hstandard : tok.standard = true) :
    tok.ownerOf tokenId = some src ∧
      (operator = src ∨ tok.isApprovedForAll src operator = true ∨
        tok.getApproved tokenId = some operator) ∧
      tok' = { tok with
        ownerOf := Function.update tok.ownerOf tokenId (some dst)
        getApproved := Function.update tok.getApproved tokenId none } := by
  rw [transferFrom, if_pos hstandard] at h
  simp only [bind_eq_ok, require_eq_ok, pure_eq_ok] at h
  obtain ⟨_, howner, _, hallowed, _, _, rfl⟩ := h
  exact ⟨howner, hallowed, rfl⟩

theorem keeps_transferFrom (h : tok.transferFrom operator src dst tokenId = .ok tok') :
    Keeps a tok tok' := by
  by_cases hstandard : tok.standard = true
  · obtain ⟨_, _, rfl⟩ := transferFrom_eq_ok h hstandard
    exact keeps_setOwner
  · rw [transferFrom, if_neg hstandard, pure_eq_ok] at h
    subst h
    exact ⟨rfl, id⟩

/-- Only its owner moves a token of a guarded account. -/
theorem spares_transferFrom (ha : a ≠ src ∨ a ≠ operator)
    (h : tok.transferFrom operator src dst tokenId = .ok tok') : Spares a tok tok' := by
  refine ⟨keeps_transferFrom h, fun hguards id hid => ?_⟩
  by_cases hstandard : tok.standard = true
  · obtain ⟨howner, hallowed, rfl⟩ := transferFrom_eq_ok h hstandard
    by_cases heq : id = tokenId
    · subst heq
      rw [hid, Option.some.injEq] at howner
      subst howner
      rcases hallowed with rfl | happroved | happroved
      · simp at ha
      · rw [hguards.1] at happroved
        cases happroved
      · rw [hguards.2 id hid] at happroved
        cases happroved
    · simpa only [Function.update_of_ne heq] using hid
  · rw [transferFrom, if_neg hstandard, pure_eq_ok] at h
    subst h
    exact hid

end ERC721

/-! ### All token contracts -/

namespace Tokens

variable {t t₁ t' : Tokens}

/-- The same contracts, each deployed for the same reward pool. -/
structure SameContracts (t t' : Tokens) : Prop where
  erc20 : ∀ c, (t'.erc20 c).map ERC20.rewardPool = (t.erc20 c).map ERC20.rewardPool
  erc721 : ∀ c, (t'.erc721 c).map ERC721.standard = (t.erc721 c).map ERC721.standard
  erc1155 : ∀ c, (t'.erc1155 c).map ERC1155.rewardPool = (t.erc1155 c).map ERC1155.rewardPool

theorem SameContracts.refl : SameContracts t t :=
  ⟨fun _ => rfl, fun _ => rfl, fun _ => rfl⟩

theorem SameContracts.trans (h : SameContracts t t₁) (h' : SameContracts t₁ t') :
    SameContracts t t' :=
  ⟨fun c => (h'.erc20 c).trans (h.erc20 c), fun c => (h'.erc721 c).trans (h.erc721 c),
    fun c => (h'.erc1155 c).trans (h.erc1155 c)⟩

theorem SameContracts.symm (h : SameContracts t t') : SameContracts t' t :=
  ⟨fun c => (h.erc20 c).symm, fun c => (h.erc721 c).symm, fun c => (h.erc1155 c).symm⟩

structure Guards (a : Address) (t : Tokens) : Prop where
  erc20 : ∀ c tok, t.erc20 c = some tok → tok.Guards a
  erc721 : ∀ c tok, t.erc721 c = some tok → tok.Guards a

structure Keeps (a : Address) (t t' : Tokens) : Prop where
  contracts : SameContracts t t'
  guards : Guards a t → Guards a t'

/-- Nothing is taken from `a`. -/
structure Leaves (a : Address) (t t' : Tokens) : Prop where
  guards : Guards a t → Guards a t'
  erc20 : Guards a t → ∀ c tok, t.erc20 c = some tok →
    ∃ tok', t'.erc20 c = some tok' ∧ tok.balanceOf a ≤ tok'.balanceOf a
  erc721 : Guards a t → ∀ c tok, t.erc721 c = some tok →
    ∃ tok', t'.erc721 c = some tok' ∧
      ∀ tokenId, tok.ownerOf tokenId = some a → tok'.ownerOf tokenId = some a
  native : t.native a ≤ t'.native a

structure Spares (a : Address) (t t' : Tokens) : Prop extends Keeps a t t', Leaves a t t'

theorem Keeps.refl : Keeps a t t := ⟨.refl, id⟩

theorem Keeps.trans (h : Keeps a t t₁) (h' : Keeps a t₁ t') : Keeps a t t' :=
  ⟨h.contracts.trans h'.contracts, fun hguards => h'.guards (h.guards hguards)⟩

theorem Leaves.refl : Leaves a t t :=
  ⟨id, fun _ _ tok htok => ⟨tok, htok, Nat.le_refl _⟩,
    fun _ _ tok htok => ⟨tok, htok, fun _ => id⟩, Nat.le_refl _⟩

theorem Leaves.trans (h : Leaves a t t₁) (h' : Leaves a t₁ t') : Leaves a t t' := by
  refine ⟨fun hguards => h'.guards (h.guards hguards), fun hguards c tok htok => ?_,
    fun hguards c tok htok => ?_, h.native.trans h'.native⟩
  · obtain ⟨tok₁, htok₁, hle⟩ := h.erc20 hguards c tok htok
    obtain ⟨tok', htok', hle'⟩ := h'.erc20 (h.guards hguards) c tok₁ htok₁
    exact ⟨tok', htok', hle.trans hle'⟩
  · obtain ⟨tok₁, htok₁, howns⟩ := h.erc721 hguards c tok htok
    obtain ⟨tok', htok', howns'⟩ := h'.erc721 (h.guards hguards) c tok₁ htok₁
    exact ⟨tok', htok', fun tokenId hid => howns' tokenId (howns tokenId hid)⟩

theorem Spares.refl : Spares a t t := { Keeps.refl, Leaves.refl with }

theorem Spares.trans (h : Spares a t t₁) (h' : Spares a t₁ t') : Spares a t t' :=
  { h.toKeeps.trans h'.toKeeps, h.toLeaves.trans h'.toLeaves with }

/-! ### Changes of one contract -/

theorem keeps_setERC20 {tok tok' : ERC20} (htok : t.erc20 c = some tok)
    (h : ERC20.Keeps a tok tok') : Keeps a t (t.setERC20 c tok') := by
  refine ⟨⟨fun c' => ?_, fun _ => rfl, fun _ => rfl⟩, fun hguards =>
    ⟨fun c' tok'' htok'' => ?_, hguards.erc721⟩⟩
  · by_cases hc : c' = c
    · subst hc
      simp [setERC20, htok, h.rewardPool]
    · simp [setERC20, hc]
  · by_cases hc : c' = c
    · subst hc
      simp only [setERC20, Function.update_self, Option.some.injEq] at htok''
      exact htok'' ▸ h.guards (hguards.erc20 c' tok htok)
    · simp only [setERC20, Function.update_of_ne hc] at htok''
      exact hguards.erc20 c' tok'' htok''

theorem spares_setERC20 {tok tok' : ERC20} (htok : t.erc20 c = some tok)
    (h : ERC20.Spares a tok tok') : Spares a t (t.setERC20 c tok') := by
  refine ⟨keeps_setERC20 htok h.toKeeps, fun hguards c' tok'' htok'' => ?_,
    fun _ _ tok'' htok'' => ⟨tok'', htok'', fun _ => id⟩, Nat.le_refl _⟩
  by_cases hc : c' = c
  · subst hc
    rw [htok, Option.some.injEq] at htok''
    subst htok''
    exact ⟨tok', by simp [setERC20], h.balanceOf (hguards.erc20 c' tok htok)⟩
  · exact ⟨tok'', by simpa [setERC20, hc] using htok'', Nat.le_refl _⟩

theorem keeps_setERC721 {tok tok' : ERC721} (htok : t.erc721 c = some tok)
    (h : ERC721.Keeps a tok tok') : Keeps a t (t.setERC721 c tok') := by
  refine ⟨⟨fun _ => rfl, fun c' => ?_, fun _ => rfl⟩, fun hguards =>
    ⟨hguards.erc20, fun c' tok'' htok'' => ?_⟩⟩
  · by_cases hc : c' = c
    · subst hc
      simp [setERC721, htok, h.standard]
    · simp [setERC721, hc]
  · by_cases hc : c' = c
    · subst hc
      simp only [setERC721, Function.update_self, Option.some.injEq] at htok''
      exact htok'' ▸ h.guards (hguards.erc721 c' tok htok)
    · simp only [setERC721, Function.update_of_ne hc] at htok''
      exact hguards.erc721 c' tok'' htok''

theorem spares_setERC721 {tok tok' : ERC721} (htok : t.erc721 c = some tok)
    (h : ERC721.Spares a tok tok') : Spares a t (t.setERC721 c tok') := by
  refine ⟨keeps_setERC721 htok h.toKeeps, fun _ _ tok'' htok'' => ⟨tok'', htok'', Nat.le_refl _⟩,
    fun hguards c' tok'' htok'' => ?_, Nat.le_refl _⟩
  by_cases hc : c' = c
  · subst hc
    rw [htok, Option.some.injEq] at htok''
    subst htok''
    exact ⟨tok', by simp [setERC721], h.ownerOf (hguards.erc721 c' tok htok)⟩
  · exact ⟨tok'', by simpa [setERC721, hc] using htok'', fun _ => id⟩

theorem spares_setERC1155 {tok tok' : ERC1155} (htok : t.erc1155 c = some tok)
    (h : tok'.rewardPool = tok.rewardPool) : Spares a t (t.setERC1155 c tok') := by
  refine ⟨⟨⟨fun _ => rfl, fun _ => rfl, fun c' => ?_⟩, fun hguards =>
    ⟨hguards.erc20, hguards.erc721⟩⟩, fun _ _ tok'' htok'' => ⟨tok'', htok'', Nat.le_refl _⟩,
    fun _ _ tok'' htok'' => ⟨tok'', htok'', fun _ => id⟩, Nat.le_refl _⟩
  by_cases hc : c' = c
  · subst hc
    simp [setERC1155, htok, h]
  · simp [setERC1155, hc]

/-! ### The calls of the pools -/

theorem erc20Contract_eq_ok {tok : ERC20} : t.erc20Contract c = .ok tok ↔ t.erc20 c = some tok :=
  orThrow_eq_ok

theorem erc721Contract_eq_ok {tok : ERC721} : t.erc721Contract c = .ok tok ↔ t.erc721 c = some tok :=
  orThrow_eq_ok

theorem erc1155Contract_eq_ok {tok : ERC1155} :
    t.erc1155Contract c = .ok tok ↔ t.erc1155 c = some tok :=
  orThrow_eq_ok

/-- A call of an ERC20 changes that contract: by `f` if it moves, else only by the answer it used. -/
theorem erc20Call_eq_ok {f : ERC20 → Result ERC20} {answer : ERC20Answer}
    (h : t.erc20Call c f = .ok (t', answer)) :
    ∃ tok tok', t.erc20 c = some tok ∧ answer = tok.answers.headD ⟨true, true⟩ ∧
      t' = t.setERC20 c tok' ∧
      ((answer.moves = true ∧ f { tok with answers := tok.answers.tail } = .ok tok') ∨
        (answer.moves = false ∧ tok' = { tok with answers := tok.answers.tail })) := by
  unfold erc20Call at h
  rw [bind_eq_ok] at h
  obtain ⟨tok, htok, h⟩ := h
  rw [erc20Contract_eq_ok] at htok
  dsimp only at h
  split_ifs at h with hmoves
  · simp only [bind_eq_ok, pure_eq_ok, Prod.mk.injEq] at h
    obtain ⟨tok', hcall, rfl, rfl⟩ := h
    exact ⟨tok, tok', htok, rfl, rfl, .inl ⟨hmoves, hcall⟩⟩
  · simp only [bind_eq_ok, pure_eq_ok, Prod.mk.injEq] at h
    obtain ⟨tok', rfl, rfl, rfl⟩ := h
    exact ⟨tok, _, htok, rfl, rfl, .inr ⟨by simpa using hmoves, rfl⟩⟩

theorem keeps_erc20Transfer {answer : ERC20Answer}
    (h : t.erc20Transfer c src dst n = .ok (t', answer)) : Keeps a t t' := by
  obtain ⟨tok, tok', htok, _, rfl, ⟨_, hcall⟩ | ⟨_, rfl⟩⟩ := erc20Call_eq_ok h
  · have hkeeps := ERC20.keeps_transfer (a := a) hcall
    exact keeps_setERC20 htok ⟨hkeeps.rewardPool, hkeeps.guards⟩
  · exact keeps_setERC20 htok ⟨rfl, id⟩

theorem spares_erc20Transfer {answer : ERC20Answer} (ha : a ≠ src)
    (h : t.erc20Transfer c src dst n = .ok (t', answer)) : Spares a t t' := by
  obtain ⟨tok, tok', htok, _, rfl, ⟨_, hcall⟩ | ⟨_, rfl⟩⟩ := erc20Call_eq_ok h
  · have hspares := ERC20.spares_transfer ha hcall
    exact spares_setERC20 htok ⟨⟨hspares.rewardPool, hspares.guards⟩, hspares.balanceOf⟩
  · exact spares_setERC20 htok ⟨⟨rfl, id⟩, fun _ => Nat.le_refl _⟩

theorem spares_erc20TransferFrom {answer : ERC20Answer}
    (h : t.erc20TransferFrom c spender src dst n = .ok (t', answer)) : Spares a t t' := by
  obtain ⟨tok, tok', htok, _, rfl, ⟨_, hcall⟩ | ⟨_, rfl⟩⟩ := erc20Call_eq_ok h
  · have hspares := ERC20.spares_transferFrom (a := a) hcall
    exact spares_setERC20 htok ⟨⟨hspares.rewardPool, hspares.guards⟩, hspares.balanceOf⟩
  · exact spares_setERC20 htok ⟨⟨rfl, id⟩, fun _ => Nat.le_refl _⟩

theorem erc721TransferFrom_eq_ok (h : t.erc721TransferFrom c operator src dst tokenId = .ok t') :
    ∃ tok tok', t.erc721 c = some tok ∧ tok.transferFrom operator src dst tokenId = .ok tok' ∧
      t' = t.setERC721 c tok' := by
  unfold erc721TransferFrom at h
  simp only [bind_eq_ok, erc721Contract_eq_ok, pure_eq_ok] at h
  obtain ⟨tok, htok, tok', hcall, rfl⟩ := h
  exact ⟨tok, tok', htok, hcall, rfl⟩

theorem keeps_erc721TransferFrom (h : t.erc721TransferFrom c operator src dst tokenId = .ok t') :
    Keeps a t t' := by
  obtain ⟨tok, tok', htok, hcall, rfl⟩ := erc721TransferFrom_eq_ok h
  exact keeps_setERC721 htok (ERC721.keeps_transferFrom hcall)

theorem spares_erc721TransferFrom (ha : a ≠ src ∨ a ≠ operator)
    (h : t.erc721TransferFrom c operator src dst tokenId = .ok t') : Spares a t t' := by
  obtain ⟨tok, tok', htok, hcall, rfl⟩ := erc721TransferFrom_eq_ok h
  exact spares_setERC721 htok (ERC721.spares_transferFrom ha hcall)

theorem send_eq_ok {error : Revert} (h : t.send src dst n error = .ok t') :
    n ≤ t.native src ∧ t' = { t with native := Ledger.move t.native src dst n } := by
  unfold send at h
  simp only [bind_eq_ok, require_eq_ok, pure_eq_ok] at h
  obtain ⟨_, hn, rfl⟩ := h
  exact ⟨hn, rfl⟩

theorem keeps_send {error : Revert} (h : t.send src dst n error = .ok t') : Keeps a t t' := by
  obtain ⟨_, rfl⟩ := send_eq_ok h
  exact ⟨⟨fun _ => rfl, fun _ => rfl, fun _ => rfl⟩, fun hguards => ⟨hguards.erc20, hguards.erc721⟩⟩

theorem spares_send {error : Revert} (ha : a ≠ src ∨ n = 0 ∨ src = dst)
    (h : t.send src dst n error = .ok t') : Spares a t t' := by
  obtain ⟨hn, ht⟩ := send_eq_ok h
  refine ⟨keeps_send h, fun _ _ tok htok => ⟨tok, ?_, Nat.le_refl _⟩,
    fun _ _ tok htok => ⟨tok, ?_, fun _ => id⟩, ?_⟩
  · rwa [ht]
  · rwa [ht]
  · rw [ht]
    rcases ha with ha | rfl | rfl
    · exact Ledger.le_move ha
    · exact (Nat.sub_zero _).symm.le.trans Ledger.sub_le_move
    · exact (congrFun (Ledger.move_self hn) a).ge

theorem spares_record {m : Movement} : Spares a t (t.record m) :=
  ⟨⟨⟨fun _ => rfl, fun _ => rfl, fun _ => rfl⟩, fun hguards => ⟨hguards.erc20, hguards.erc721⟩⟩,
    fun _ _ tok htok => ⟨tok, htok, Nat.le_refl _⟩, fun _ _ tok htok => ⟨tok, htok, fun _ => id⟩,
    Nat.le_refl _⟩

theorem spares_recordIf {moves : Bool} {m : Movement} : Spares a t (t.recordIf moves m) := by
  unfold recordIf
  split
  · exact spares_record
  · exact .refl

/-! ### Mints and burns -/

variable {F : Type → Type} [EnumerableSet F] {pools : Address → Option (RewardPoolV1 F)}
variable {sender : Address}

/-- `onlyAssetPool` of a redeem token: `sender` is an asset pool of the reward pool at `r`. -/
def AssetPoolOf (pools : Address → Option (RewardPoolV1 F)) (r sender : Address) : Prop :=
  ∃ rp, pools r = some rp ∧ sender ∈ values rp.assetPools

theorem erc20Mint_eq_ok (h : t.erc20Mint pools c sender dst n = .ok t') :
    ∃ tok tok' r, t.erc20 c = some tok ∧ tok.rewardPool = some r ∧ AssetPoolOf pools r sender ∧
      tok.mint dst n = .ok tok' ∧ t' = t.setERC20 c tok' := by
  unfold erc20Mint at h
  simp only [bind_eq_ok, erc20Contract_eq_ok, orThrow_eq_ok, require_eq_ok, pure_eq_ok] at h
  obtain ⟨tok, htok, r, hr, rp, hrp, _, hmem, tok', hmint, rfl⟩ := h
  exact ⟨tok, tok', r, htok, hr, ⟨rp, hrp, hmem⟩, hmint, rfl⟩

theorem erc20Burn_eq_ok (h : t.erc20Burn pools c sender src n = .ok t') :
    ∃ tok tok' r, t.erc20 c = some tok ∧ tok.rewardPool = some r ∧ AssetPoolOf pools r sender ∧
      tok.burn src n = .ok tok' ∧ t' = t.setERC20 c tok' := by
  unfold erc20Burn at h
  simp only [bind_eq_ok, erc20Contract_eq_ok, orThrow_eq_ok, require_eq_ok, pure_eq_ok] at h
  obtain ⟨tok, htok, r, hr, rp, hrp, _, hmem, tok', hburn, rfl⟩ := h
  exact ⟨tok, tok', r, htok, hr, ⟨rp, hrp, hmem⟩, hburn, rfl⟩

/-- `sender` is the asset pool with the id `id` of the reward pool of the token. -/
def AssetPoolWithId (pools : Address → Option (RewardPoolV1 F)) (r sender : Address) (id : Nat) :
    Prop :=
  ∃ rp, pools r = some rp ∧ rp.assetPoolIdToAssetPool id = sender ∧ sender ≠ 0

section

omit [EnumerableSet F]

theorem onlyValidAssetPool_eq_ok {tok : ERC1155} {u : Unit}
    (h : onlyValidAssetPool pools tok sender id = .ok u) :
    AssetPoolWithId pools tok.rewardPool sender id := by
  unfold onlyValidAssetPool at h
  simp only [bind_eq_ok, orThrow_eq_ok, require_eq_ok] at h
  obtain ⟨rp, hrp, _, hmap, hne⟩ := h
  exact ⟨rp, hrp, hmap, hmap ▸ hne⟩

theorem erc1155Mint_eq_ok (h : t.erc1155Mint pools c sender dst id n = .ok t') :
    ∃ tok, t.erc1155 c = some tok ∧ AssetPoolWithId pools tok.rewardPool sender id ∧
      t' = t.setERC1155 c { tok with
        balances := Function.update tok.balances id (Ledger.credit (tok.balances id) dst n) } := by
  unfold erc1155Mint ERC1155.mint at h
  simp only [bind_eq_ok, erc1155Contract_eq_ok, require_eq_ok, pure_eq_ok] at h
  obtain ⟨tok, htok, _, hpool, _, ⟨_, _, _, _, _, _, rfl⟩, rfl⟩ := h
  exact ⟨tok, htok, onlyValidAssetPool_eq_ok hpool, rfl⟩

theorem erc1155Burn_eq_ok (h : t.erc1155Burn pools c sender src id n = .ok t') :
    ∃ tok, t.erc1155 c = some tok ∧ AssetPoolWithId pools tok.rewardPool sender id ∧
      n ≤ tok.balances id src ∧ t' = t.setERC1155 c { tok with
        balances := Function.update tok.balances id (Ledger.debit (tok.balances id) src n) } := by
  unfold erc1155Burn ERC1155.burn at h
  simp only [bind_eq_ok, erc1155Contract_eq_ok, require_eq_ok, pure_eq_ok] at h
  obtain ⟨tok, htok, _, hpool, _, ⟨_, _, _, _, _, hn, rfl⟩, rfl⟩ := h
  exact ⟨tok, htok, onlyValidAssetPool_eq_ok hpool, hn, rfl⟩

theorem erc1155SafeTransferFrom_eq_ok {accepts : Bool}
    (h : t.erc1155SafeTransferFrom pools c operator src dst id n accepts = .ok t') :
    ∃ tok, t.erc1155 c = some tok ∧ n ≤ tok.balances id src ∧ t' = t.setERC1155 c { tok with
      balances := Function.update tok.balances id (Ledger.move (tok.balances id) src dst n) } := by
  unfold erc1155SafeTransferFrom ERC1155.safeTransferFrom at h
  simp only [bind_eq_ok, erc1155Contract_eq_ok, orThrow_eq_ok, require_eq_ok, pure_eq_ok] at h
  obtain ⟨tok, htok, _, _, _, _, _, ⟨_, _, _, _, _, _, _, hn, _, _, _, _, rfl⟩, rfl⟩ := h
  exact ⟨tok, htok, hn, rfl⟩

end

theorem spares_erc20Mint (h : t.erc20Mint pools c sender dst n = .ok t') : Spares a t t' := by
  obtain ⟨tok, tok', _, htok, _, _, hmint, rfl⟩ := erc20Mint_eq_ok h
  exact spares_setERC20 htok (ERC20.spares_mint hmint)

theorem spares_erc20Burn (ha : a ≠ src) (h : t.erc20Burn pools c sender src n = .ok t') :
    Spares a t t' := by
  obtain ⟨tok, tok', _, htok, _, _, hburn, rfl⟩ := erc20Burn_eq_ok h
  exact spares_setERC20 htok (ERC20.spares_burn ha hburn)

section

omit [EnumerableSet F]

theorem spares_erc1155Mint (h : t.erc1155Mint pools c sender dst id n = .ok t') :
    Spares a t t' := by
  obtain ⟨tok, htok, _, rfl⟩ := erc1155Mint_eq_ok h
  exact spares_setERC1155 htok rfl

theorem spares_erc1155Burn (h : t.erc1155Burn pools c sender src id n = .ok t') :
    Spares a t t' := by
  obtain ⟨tok, htok, _, _, rfl⟩ := erc1155Burn_eq_ok h
  exact spares_setERC1155 htok rfl

theorem spares_erc1155SafeTransferFrom {accepts : Bool}
    (h : t.erc1155SafeTransferFrom pools c operator src dst id n accepts = .ok t') :
    Spares a t t' := by
  obtain ⟨tok, htok, _, rfl⟩ := erc1155SafeTransferFrom_eq_ok h
  exact spares_setERC1155 htok rfl

end

end Tokens

end Redeemy
