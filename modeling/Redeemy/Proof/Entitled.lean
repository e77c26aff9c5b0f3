import Redeemy.Proof.Custody
import Redeemy.Proof.Solvency
import Redeemy.Proof.TokenCode

/-!
# Who gets the assets back

A deposit stores boxes under the name of its sender, but the cards of a fungible box go under the name
that is there already. A withdrawal of fungible boxes pays whom the arguments name, and one of ERC721
tokens pays whom the boxes name. So nobody gets more than his own deposits back where names agree.
-/

namespace Redeemy

open Fallible EnumerableSet SwapRemove

variable {F : Type → Type}
variable {w w' : World F} {pool pool' : AssetPoolV1 F} {t : AssetType} {tokens tokens' : Tokens}
variable {p c d e admin sender : Address} {assets : Assets} {key : AssetType × Address}
variable {box b : AssetBox} {boxes boxes' stored stored' : List AssetBox} {k n value : Nat}
variable {s s₁ s' : AssetPoolV1 F × Tokens} {f : AssetBox → Address}

/-! ### Names -/

/-- Cards like those of `box` are stored under the name `e`, if they are worth anything. -/
def StoredFor (stored : List AssetBox) (e : Address) (box : AssetBox) : Prop :=
  0 < box.amountOrTokenId * box.numberOfCards →
    ∀ b ∈ stored, b.amountOrTokenId = box.amountOrTokenId → b.depositer = e

instance (stored : List AssetBox) (e : Address) (box : AssetBox) : Decidable (StoredFor stored e box) := by
  unfold StoredFor
  infer_instance

/-- What the boxes promise to `d`. -/
def owedTo (d : Address) (boxes : List AssetBox) : Nat :=
  weigh (fun depositer amount => if depositer = d then amount else 0) boxes

/-- The cards of `box` are worth the same under the names in the list as under `e`. -/
theorem StoredFor.weight (h : StoredFor stored e box) (hb : b ∈ stored)
    (hkey : b.amountOrTokenId = box.amountOrTokenId) :
    box.numberOfCards • (if b.depositer = d then b.amountOrTokenId else 0) =
      if e = d then box.amountOrTokenId * box.numberOfCards else 0 := by
  rw [hkey, smul_eq_mul, mul_comm]
  by_cases hworth : 0 < box.amountOrTokenId * box.numberOfCards
  · rw [h hworth b hb hkey]
    split_ifs
    · rfl
    · exact Nat.zero_mul _
  · have hzero : box.amountOrTokenId * box.numberOfCards = 0 := by omega
    split_ifs <;> omega

theorem StoredFor.updateOrAddBox {new : AssetBox} (h : StoredFor boxes e box)
    (hnew : new.depositer = e) (hupdate : updateOrAddBox boxes new = .ok boxes') :
    StoredFor boxes' e box := by
  intro hworth b hb hkey
  rcases updateOrAddBox_cases hupdate with ⟨i, hi, _, rfl⟩ | ⟨_, rfl⟩
  · rcases List.mem_or_eq_of_mem_set hb with hb | rfl
    · exact h hworth b hb hkey
    · exact h hworth boxes[i] (List.getElem_mem hi) hkey
  · rcases List.mem_append.mp hb with hb | hb
    · exact h hworth b hb hkey
    · rw [List.mem_singleton.mp hb]
      exact hnew

theorem StoredFor.lowerCards (h : StoredFor boxes e box) (hlower : lowerCards boxes k n = .ok boxes') :
    StoredFor boxes' e box := by
  intro hworth b hb hkey
  obtain ⟨hk, _, ⟨_, rfl⟩ | rfl⟩ := lowerCards_cases hlower
  · exact h hworth b (mem_of_mem_swapRemove hk hb) hkey
  · rcases List.mem_or_eq_of_mem_set hb with hb | rfl
    · exact h hworth b hb hkey
    · exact h hworth boxes[k] (List.getElem_mem hk) hkey

/-- Boxes that are stored under the name of `admin` add to what is owed to `admin`. -/
theorem owedTo_store (hnamed : ∀ box ∈ boxes, StoredFor stored admin box)
    (h : boxes.foldlM (fun stored box => updateOrAddBox stored (box.of admin t)) stored = .ok stored') :
    owedTo d stored' = owedTo d stored + if admin = d then worth boxes else 0 := by
  induction boxes generalizing stored with
  | nil =>
    rw [List.foldlM_nil, pure_eq_ok] at h
    rw [h]
    simp [worth]
  | cons box boxes ih =>
    rw [List.foldlM_cons, bind_eq_ok] at h
    obtain ⟨stored₁, hfirst, h⟩ := h
    have hbox : StoredFor stored admin box := hnamed box List.mem_cons_self
    have hweigh : owedTo d stored₁ = owedTo d stored +
        if admin = d then box.amountOrTokenId * box.numberOfCards else 0 := by
      have hnew : AssetBox.weight (fun depositer amount => if depositer = d then amount else 0)
          (box.of admin t) = if admin = d then box.amountOrTokenId * box.numberOfCards else 0 := by
        rw [AssetBox.weight, smul_eq_mul, mul_comm, ite_mul, Nat.zero_mul]
        rfl
      have hstep : owedTo d stored₁ = owedTo d stored + AssetBox.weight _ (box.of admin t) :=
        weigh_updateOrAddBox (fun b hb hkey => (hbox.weight hb hkey).trans hnew.symm) hfirst
      rwa [hnew] at hstep
    have hrest := ih (fun box' hbox' =>
      (hnamed box' (List.mem_cons_of_mem _ hbox')).updateOrAddBox rfl hfirst) h
    have hworth : worth (box :: boxes) = box.amountOrTokenId * box.numberOfCards + worth boxes := by
      simp [worth_eq_sum]
    rw [hrest, hweigh, hworth]
    split_ifs <;> omega

/-- Cards that leave a list leave what is owed to the one they are stored for. -/
theorem owedTo_lowerCards {box' : AssetBox} (hstored : boxes[k]? = some box')
    (hkey : box'.amountOrTokenId = box.amountOrTokenId) (hnamed : StoredFor boxes e box)
    (h : lowerCards boxes k box.numberOfCards = .ok boxes') :
    owedTo d boxes = owedTo d boxes' +
      if e = d then box.amountOrTokenId * box.numberOfCards else 0 := by
  obtain ⟨hk, hweigh⟩ := weigh_lowerCards
    (g := fun depositer amount => if depositer = d then amount else 0) h
  obtain ⟨_, rfl⟩ := List.getElem?_eq_some_iff.mp hstored
  rwa [hnamed.weight (List.getElem_mem hk) hkey] at hweigh

/-! ### Books -/

/-- A movement of an asset between the pool at `p` and `d`, made by one kind of call. -/
def Movement.Of (cause : Cause) (p : Address) (key : AssetType × Address) (d : Address)
    (m : Movement) : Prop :=
  m.By p cause ∧ (m.assetType, m.contractAddress) = key ∧ m.party = d

instance (cause : Cause) (p : Address) (key : AssetType × Address) (d : Address) :
    DecidablePred (Movement.Of cause p key d) := fun _ =>
  inferInstanceAs (Decidable ((_ ∧ _) ∧ _ ∧ _))

namespace Tokens

variable {cause cause' : Cause} {moves : Bool}

/-- What one kind of call has moved of an asset between the pool at `p` and `d`. -/
def moved (cause : Cause) (p : Address) (key : AssetType × Address) (d : Address) (tokens : Tokens) :
    Nat :=
  (tokens.log.map fun m => if m.Of cause p key d then m.amountOrTokenId else 0).sum

theorem moved_of_log (hlog : tokens'.log = tokens.log) :
    tokens'.moved cause p key d = tokens.moved cause p key d := by
  unfold moved
  rw [hlog]

theorem Logs.moved (h : Logs (fun m => ¬m.Of cause p key d) tokens tokens') :
    tokens'.moved cause p key d = tokens.moved cause p key d := by
  obtain ⟨l, hl, hQ⟩ := h
  have hzero : (l.map fun m => if m.Of cause p key d then m.amountOrTokenId else 0).sum = 0 := by
    apply List.sum_eq_zero
    intro n hn
    obtain ⟨m, hm, rfl⟩ := List.mem_map.mp hn
    exact if_neg (hQ m hm)
  unfold Tokens.moved
  rw [hl, List.map_append, List.sum_append, hzero, Nat.zero_add]

theorem moved_recordIf :
    (tokens.recordIf moves ⟨cause', p, t, c, e, n⟩).moved cause p key d =
      tokens.moved cause p key d +
        if moves = true ∧ cause' = cause ∧ (t, c) = key ∧ e = d then n else 0 := by
  cases moves with
  | false => simp [recordIf]
  | true => simp [recordIf, record, moved, Movement.Of, Movement.By, Nat.add_comm]

end Tokens

/-- No step gives `d` more of an asset, in what is paid back and what is owed, than it takes from `d`. -/
def Repaid (p : Address) (key : AssetType × Address) (d : Address) (s s' : AssetPoolV1 F × Tokens) :
    Prop :=
  s'.2.moved .withdraw p key d + owedTo d (s'.1.assetBoxes key.1 key.2) + s.2.moved .deposit p key d ≤
    s.2.moved .withdraw p key d + owedTo d (s.1.assetBoxes key.1 key.2) + s'.2.moved .deposit p key d

theorem Repaid.trans (h : Repaid p key d s s₁) (h' : Repaid p key d s₁ s') : Repaid p key d s s' := by
  unfold Repaid at *
  omega

/-- A step that neither touches the boxes under the key nor records what is deposited or withdrawn of
it. -/
theorem Repaid.of_same (hboxes : s'.1.assetBoxes key.1 key.2 = s.1.assetBoxes key.1 key.2)
    (hlogs : ∀ cause, cause = .deposit ∨ cause = .withdraw →
      Tokens.Logs (fun m => ¬m.Of cause p key d) s.2 s'.2) : Repaid p key d s s' := by
  have hdeposit := (hlogs .deposit (.inl rfl)).moved
  have hwithdraw := (hlogs .withdraw (.inr rfl)).moved
  unfold Repaid
  rw [hboxes]
  omega

variable [EnumerableSet F]

theorem repaid_store {moves : Bool} (hnamed : ∀ box ∈ boxes, StoredFor (pool.assetBoxes t c) admin box)
    (hstore : storeBoxes admin (pool.addContract t c) t c boxes = .ok pool')
    (hlog : tokens'.log = tokens.log) (hmoves : key = (t, c) → moves = true) :
    Repaid p key d (pool, tokens)
      (pool', tokens'.recordIf moves ⟨.deposit, p, t, c, admin, worth boxes⟩) := by
  obtain ⟨stored, hstored, rfl⟩ := storeBoxes_eq_ok hstore
  rw [AssetPoolV1.assetBoxes_addContract] at hstored
  unfold Repaid
  dsimp only
  rw [Tokens.moved_recordIf, Tokens.moved_recordIf, Tokens.moved_of_log hlog,
    Tokens.moved_of_log hlog]
  by_cases hkey : key = (t, c)
  · have howed := owedTo_store (d := d) hnamed hstored
    subst hkey
    rw [AssetPoolV1.assetBoxes_setBoxes_self, howed, hmoves rfl]
    simp only [reduceCtorEq, false_and, and_false, if_false, true_and]
    omega
  · have hne : ¬(key.1 = t ∧ key.2 = c) := fun heq => hkey (Prod.ext heq.1 heq.2)
    rw [AssetPoolV1.assetBoxes_setBoxes_of_ne hne, AssetPoolV1.assetBoxes_addContract]
    simp only [reduceCtorEq, false_and, and_false, if_false, Ne.symm hkey]
    omega

omit [EnumerableSet F] in
theorem repaid_pay {moves : Bool} {box' : AssetBox}
    (hstored : (pool.assetBoxes t c)[k]? = some box')
    (hkey : box'.amountOrTokenId = box.amountOrTokenId)
    (hnamed : StoredFor (pool.assetBoxes t c) e box)
    (hlower : lowerCards (pool.assetBoxes t c) k box.numberOfCards = .ok boxes')
    (hlog : tokens'.log = tokens.log) :
    Repaid p key d (pool, tokens) (pool.setBoxes t c boxes', tokens'.recordIf moves
      ⟨.withdraw, p, t, c, e, box.amountOrTokenId * box.numberOfCards⟩) := by
  have howed := owedTo_lowerCards (d := d) hstored hkey hnamed hlower
  unfold Repaid
  dsimp only
  rw [Tokens.moved_recordIf, Tokens.moved_recordIf, Tokens.moved_of_log hlog,
    Tokens.moved_of_log hlog]
  by_cases hkey : key = (t, c)
  · subst hkey
    rw [AssetPoolV1.assetBoxes_setBoxes_self, howed]
    simp only [reduceCtorEq, false_and, and_false, if_false, true_and]
    by_cases he : e = d
    · simp only [he, and_true, if_true]
      split_ifs <;> omega
    · simp only [he, and_false, if_false]
      omega
  · have hne : ¬(key.1 = t ∧ key.2 = c) := fun heq => hkey (Prod.ext heq.1 heq.2)
    rw [AssetPoolV1.assetBoxes_setBoxes_of_ne hne]
    simp only [reduceCtorEq, false_and, and_false, if_false, Ne.symm hkey]
    omega

/-! ### Small steps -/

/-- The cards of every fungible box in the arguments are stored for the one that `f` gives. -/
def Assets.Named (assets : Assets) (pool : AssetPoolV1 F) (p : Address) (f : AssetBox → Address) :
    Prop :=
  (∀ d ∈ assets.erc20ContractAddresses.zip assets.erc20Boxes, ∀ box ∈ d.2,
    StoredFor (pool.assetBoxes .ERC20 d.1) (f box) box) ∧
  ∀ box ∈ assets.nativeTokenBoxes, StoredFor (pool.assetBoxes .NativeToken p) (f box) box

instance (assets : Assets) (pool : AssetPoolV1 F) (p : Address) (f : AssetBox → Address) :
    Decidable (assets.Named pool p f) :=
  inferInstanceAs (Decidable (_ ∧ _))

omit [EnumerableSet F] in
theorem Assets.Named.mono (h : assets.Named pool p f)
    (hboxes : ∀ t c box, StoredFor (pool.assetBoxes t c) (f box) box →
      StoredFor (pool'.assetBoxes t c) (f box) box) : assets.Named pool' p f := by
  constructor
  · intro d hd box hbox
    exact hboxes _ _ box (h.1 d hd box hbox)
  · intro box hbox
    exact hboxes _ _ box (h.2 box hbox)

theorem Assets.Named.storeBoxes (h : assets.Named pool p fun _ => admin)
    (hstore : storeBoxes admin (pool.addContract t c) t c boxes = .ok pool') :
    assets.Named pool' p fun _ => admin := by
  apply h.mono
  intro t' c' box hbox
  obtain ⟨stored, hstored, rfl⟩ := storeBoxes_eq_ok hstore
  rw [AssetPoolV1.assetBoxes_addContract] at hstored
  rw [AssetPoolV1.assetBoxes_setBoxes, AssetPoolV1.assetBoxes_addContract]
  split_ifs with hkey
  · obtain ⟨rfl, rfl⟩ := hkey
    exact foldlM_invariant (P := fun stored => StoredFor stored admin box)
      (fun _ _ _ _ hb hstep => hb.updateOrAddBox rfl hstep) hbox hstored
  · exact hbox

theorem DepositStep.named (hs : assets.Named s.1 p fun _ => admin)
    (h : DepositStep p admin assets s s') : assets.Named s'.1 p fun _ => admin := by
  cases h with
  | erc20 c boxes _ _ hstore => exact hs.storeBoxes hstore
  | erc721Contract c =>
    apply hs.mono
    intro t c' box hbox
    rwa [AssetPoolV1.assetBoxes_addContract]
  | erc721Token c tokenId =>
    apply hs.mono
    intro t c' box hbox hworth b hb hkey
    rw [AssetPoolV1.assetBoxes_setBoxes] at hb
    split_ifs at hb with hc
    · obtain ⟨rfl, rfl⟩ := hc
      rcases List.mem_append.mp hb with hb | hb
      · exact hbox hworth b hb hkey
      · rw [List.mem_singleton.mp hb]
    · exact hbox hworth b hb hkey

theorem DepositSteps.named (hs : assets.Named s.1 p fun _ => admin)
    (h : DepositSteps p admin assets s s') : assets.Named s'.1 p fun _ => admin := by
  induction h with
  | refl => exact hs
  | tail _ hstep ih => exact hstep.named ih

omit [EnumerableSet F] in
theorem WithdrawStep.named {accepts : Address → Bool} (hs : assets.Named s.1 p f)
    (h : WithdrawStep accepts p assets s s') : assets.Named s'.1 p f := by
  apply hs.mono
  intro t c box hbox
  have hset : ∀ {pool : AssetPoolV1 F} {t' : AssetType} {c' : Address} {boxes' : List AssetBox},
      StoredFor (pool.assetBoxes t c) (f box) box →
      (StoredFor (pool.assetBoxes t' c') (f box) box → StoredFor boxes' (f box) box) →
      StoredFor ((pool.setBoxes t' c' boxes').assetBoxes t c) (f box) box := by
    intro pool t' c' boxes' hold hnew
    rw [AssetPoolV1.assetBoxes_setBoxes]
    split_ifs with hkey
    · obtain ⟨rfl, rfl⟩ := hkey
      exact hnew hold
    · exact hold
  cases h with
  | erc20 c' boxes box' _ _ _ _ _ hlower => exact hset hbox fun hold => hold.lowerCards hlower
  | erc721 c' tokenIds tokenId _ _ hstored =>
    obtain ⟨hk, _⟩ := List.getElem?_eq_some_iff.mp hstored
    apply hset hbox
    intro hold hworth b hb
    exact hold hworth b (mem_of_mem_swapRemove hk hb)
  | native box' _ _ _ _ _ hlower => exact hset hbox fun hold => hold.lowerCards hlower

theorem DepositStep.repaid (hkey : key.1 ≠ .ERC721) (hmoving : key.1 = .ERC20 → s.2.Moving key.2)
    (hnamed : assets.Named s.1 p fun _ => admin) (h : DepositStep p admin assets s s') :
    Repaid p key d s s' := by
  cases h with
  | erc20 c boxes hmem hpull hstore =>
    apply repaid_store (hnamed.1 _ hmem) hstore (Tokens.silent_erc20Call hpull).log
    rintro rfl
    exact ((hmoving rfl).call (fun _ _ => Tokens.answers_transferFrom) hpull).2 rfl
  | erc721Contract c =>
    apply Repaid.of_same
    · rw [AssetPoolV1.assetBoxes_addContract]
    · exact fun _ _ => Tokens.logs_of_eq rfl
  | erc721Token c tokenId _ hpull =>
    apply Repaid.of_same
    · exact AssetPoolV1.assetBoxes_setBoxes_of_ne fun heq => hkey heq.1
    · intro cause _
      apply Tokens.logs_record (Tokens.silent_erc721TransferFrom hpull).log
      exact fun hof => hkey (congrArg Prod.fst hof.2.1).symm

theorem DepositSteps.repaid (hkey : key.1 ≠ .ERC721) (hmoving : key.1 = .ERC20 → s.2.Moving key.2)
    (hnamed : assets.Named s.1 p fun _ => admin) (h : DepositSteps p admin assets s s') :
    Repaid p key d s s' := by
  induction h with
  | refl => exact Nat.le_refl _
  | tail hsteps hstep ih =>
    apply ih.trans
    exact hstep.repaid hkey (fun ht => DepositSteps.moving (hmoving ht) hsteps)
      (DepositSteps.named hnamed hsteps)

omit [EnumerableSet F] in
theorem WithdrawStep.repaid {accepts : Address → Bool} (hkey : key.1 ≠ .ERC721)
    (hnamed : assets.Named s.1 p AssetBox.depositer) (h : WithdrawStep accepts p assets s s') :
    Repaid p key d s s' := by
  cases h with
  | erc20 c boxes box hmem hbox hstored hsame hpay hlower =>
    exact repaid_pay hstored hsame (hnamed.1 _ hmem box hbox) hlower (Tokens.silent_erc20Call hpay).log
  | erc721 c tokenIds tokenId _ _ _ _ hpay =>
    apply Repaid.of_same
    · exact AssetPoolV1.assetBoxes_setBoxes_of_ne fun heq => hkey heq.1
    · intro cause _
      apply Tokens.logs_record (Tokens.silent_erc721TransferFrom hpay).log
      exact fun hof => hkey (congrArg Prod.fst hof.2.1).symm
  | native box hmem hstored hsame _ hpay hlower =>
    have hbox : StoredFor _ box.depositer box := hnamed.2 box hmem
    show Repaid p key d _ (_, Tokens.recordIf _ true _)
    exact repaid_pay hstored hsame hbox hlower (Tokens.log_send hpay)

omit [EnumerableSet F] in
theorem WithdrawSteps.repaid {accepts : Address → Bool} (hkey : key.1 ≠ .ERC721)
    (hnamed : assets.Named s.1 p AssetBox.depositer) (h : WithdrawSteps accepts p assets s s') :
    Repaid p key d s s' ∧ assets.Named s'.1 p AssetBox.depositer := by
  induction h with
  | refl => exact ⟨Nat.le_refl _, hnamed⟩
  | tail _ hstep ih => exact ⟨ih.1.trans (hstep.repaid hkey ih.2), hstep.named ih.2⟩

/-! ### Calls -/

theorem Deposit.repaid (hkey : key.1 ≠ .ERC721) (hmoving : key.1 = .ERC20 → w.tokens.Moving key.2)
    (hnamed : assets.Named pool p fun _ => sender) (h : Deposit w p sender value assets w')
    (hpool : w.assetPools p = some pool) (hpool' : w'.assetPools p = some pool') :
    Repaid p key d (pool, w.tokens) (pool', w'.tokens) := by
  cases h with
  | @mk _ pool₁ pool₂ pool₃ _ n tokens tokens₁ tokens₂ tokens₃ tokens₄ hself _ _ hsend _ _ _ hvalue
      h20 hstore hsend' h721 _ _ hmint =>
    obtain rfl := Option.some.inj (hpool.symm.trans hself)
    obtain rfl := setPool_self hpool'
    have hm : key.1 = .ERC20 → tokens.Moving key.2 := by
      obtain ⟨_, rfl⟩ := Tokens.send_eq_ok hsend
      exact hmoving
    have hm₂ : key.1 = .ERC20 → tokens₂.Moving key.2 := by
      obtain ⟨_, rfl⟩ := Tokens.send_eq_ok hsend'
      exact fun ht => DepositSteps.moving (hm ht) h20
    have hnamed₁ : assets.Named pool₁ p fun _ => sender := DepositSteps.named hnamed h20
    have hin : Repaid p key d (pool, w.tokens)
        ({ pool with totalNumberOfAssets := pool.totalNumberOfAssets + n }, tokens) :=
      .of_same rfl fun _ _ => Tokens.logs_of_eq (Tokens.log_send hsend)
    have hfirst := DepositSteps.repaid (d := d) hkey hm hnamed h20
    have hnative : Repaid p key d (pool₁, tokens₁) (pool₂, tokens₂.recordIf true
        ⟨.deposit, p, .NativeToken, p, sender, worth assets.nativeTokenBoxes⟩) :=
      repaid_store hnamed₁.2 hstore (Tokens.log_send hsend') fun _ => rfl
    rw [← hvalue] at hnative
    have hsecond := DepositSteps.repaid (d := d) hkey hm₂ (hnamed₁.storeBoxes hstore) h721
    have hlast : Repaid p key d (pool₃, tokens₃) (pool₃, tokens₄) :=
      .of_same rfl fun _ _ => Tokens.logs_of_eq (Tokens.silent_mintRedeemTokens hmint).log
    exact (((hin.trans hfirst).trans hnative).trans hsecond).trans hlast

theorem Withdraw.repaid (hkey : key.1 ≠ .ERC721) (hnamed : assets.Named pool p AssetBox.depositer)
    (h : Withdraw w p sender assets w') (hpool : w.assetPools p = some pool)
    (hpool' : w'.assetPools p = some pool') : Repaid p key d (pool, w.tokens) (pool', w'.tokens) := by
  cases h with
  | @mk _ _ s tokens hself _ _ hsteps _ _ _ hmint =>
    obtain rfl := Option.some.inj (hpool.symm.trans hself)
    obtain rfl := setPool_self hpool'
    apply (WithdrawSteps.repaid hkey hnamed hsteps).1.trans
    apply Repaid.of_same
    · rfl
    · exact fun _ _ => Tokens.logs_of_eq (Tokens.silent_mintRedeemTokens hmint).log

/-- A card that is won is owed to nobody any more. -/
theorem Drawn.repaid {card : Card} {receiver : Address} {requestId : Nat}
    (h : Drawn pool pool' card) (hpay : w.payCard p receiver requestId card = .ok tokens) :
    Repaid p key d (pool, w.tokens) (pool', tokens) := by
  have hlogs : ∀ cause, cause = .deposit ∨ cause = .withdraw →
      Tokens.Logs (fun m => ¬m.Of cause p key d) w.tokens tokens := by
    intro cause hcause
    apply (logs_payCard hpay).mono
    intro m hm hof
    rcases hcause with rfl | rfl
    · exact absurd (hm.1.2.symm.trans hof.1.2) (by simp)
    · exact absurd (hm.1.2.symm.trans hof.1.2) (by simp)
  by_cases hkey : key = (card.assetType, card.contractAddress)
  · subst hkey
    have howed := h.weigh_eq fun depositer amount => if depositer = d then amount else 0
    have hdeposit := (hlogs .deposit (.inl rfl)).moved
    have hwithdraw := (hlogs .withdraw (.inr rfl)).moved
    unfold Repaid owedTo
    dsimp only
    omega
  · apply Repaid.of_same _ hlogs
    exact h.assetBoxes_of_ne fun heq => hkey (Prod.ext heq.1 heq.2)

/-! ### ERC721 tokens -/

/-- Every ERC721 token of `c` that a withdrawal of the pool at `p` has paid out went to the admin whose
deposit had brought it in, the last time before. -/
def Tokens.Returned (p c : Address) (tokens : Tokens) : Prop :=
  ∀ m log, (m :: log) <:+ tokens.log → m.By p .withdraw → m.assetType = .ERC721 →
    m.contractAddress = c →
    (log.find? fun m' => m'.Brings p c m.amountOrTokenId).map Movement.party = some m.party

theorem Tokens.Returned.record {m : Movement} (h : tokens.Returned p c)
    (hlog : tokens'.log = tokens.log)
    (hm : m.By p .withdraw → m.assetType = .ERC721 → m.contractAddress = c →
      tokens.broughtIn p c m.amountOrTokenId = some m.party) : (tokens'.record m).Returned p c := by
  intro m' log hsuffix hby htype hc
  have hcons : (m' :: log) <:+ m :: tokens.log := hlog ▸ hsuffix
  rcases List.suffix_cons_iff.mp hcons with heq | hold
  · obtain ⟨rfl, rfl⟩ := List.cons.inj heq
    exact hm hby htype hc
  · exact h m' log hold hby htype hc

theorem Tokens.Returned.logs (h : tokens.Returned p c)
    (hlogs : Tokens.Logs (fun m => ¬(m.By p .withdraw ∧ m.assetType = .ERC721)) tokens tokens') :
    tokens'.Returned p c := by
  obtain ⟨l, hl, hQ⟩ := hlogs
  induction l generalizing tokens' with
  | nil =>
    unfold Tokens.Returned
    rwa [hl, List.nil_append]
  | cons m l ih =>
    have hrest : Tokens.Returned p c { tokens with log := l ++ tokens.log } :=
      ih rfl fun m' hm' => hQ m' (List.mem_cons_of_mem m hm')
    have hrecord := hrest.record (m := m) rfl fun hby htype =>
      absurd ⟨hby, htype⟩ (hQ m List.mem_cons_self)
    unfold Tokens.Returned
    rwa [hl]

omit [EnumerableSet F] in
theorem WithdrawStep.returned {accepts : Address → Bool} (hs : InCustody p c s.1 s.2)
    (h : WithdrawStep accepts p assets s s') (hreturned : s.2.Returned p c) : s'.2.Returned p c := by
  cases h with
  | erc20 c' boxes box _ _ _ _ hpay =>
    apply hreturned.logs
    exact Tokens.logs_recordIf (Tokens.silent_erc20Call hpay).log fun h => by simp at h
  | @erc721 pool tokens tokens' stored k c' tokenIds tokenId _ _ hstored hkey hpay =>
    apply hreturned.record (Tokens.silent_erc721TransferFrom hpay).log
    rintro - - rfl
    obtain ⟨hk, rfl⟩ := List.getElem?_eq_some_iff.mp hstored
    exact hkey ▸ hs.depositer _ (List.getElem_mem hk)
  | native box _ _ _ _ hpay =>
    apply hreturned.logs
    exact Tokens.logs_record (Tokens.log_send hpay) fun h => by simp at h

omit [EnumerableSet F] in
theorem WithdrawSteps.returned {accepts : Address → Bool} (hstandard : s.2.Standard c)
    (hs : InCustody p c s.1 s.2) (h : WithdrawSteps accepts p assets s s')
    (hreturned : s.2.Returned p c) : s'.2.Returned p c := by
  induction h with
  | refl => exact hreturned
  | tail hsteps hstep ih =>
    exact hstep.returned (WithdrawSteps.inCustody hstandard hsteps hs).1 ih

theorem Withdraw.returned (hstandard : w.tokens.Standard c) (h : Withdraw w p sender assets w')
    (hpool : w.assetPools p = some pool) (hs : InCustody p c pool w.tokens)
    (hreturned : w.tokens.Returned p c) : w'.tokens.Returned p c := by
  cases h with
  | mk hself _ _ hsteps _ _ _ hmint =>
    obtain rfl := Option.some.inj (hpool.symm.trans hself)
    have hpaid := WithdrawSteps.returned hstandard hs hsteps hreturned
    exact hpaid.logs (Tokens.logs_of_eq (Tokens.silent_mintRedeemTokens hmint).log)

/-! ### What is recorded -/

variable {call : Call} {P : World F → Call → Prop} {cfg : CallStack.Config (World F) Call}

/-- A step records movements of pools there are only. -/
theorem Change.logs (h : Change w call w') :
    Tokens.Logs (fun m => ∃ pool, w.assetPools m.pool = some pool) w.tokens w'.tokens := by
  cases h with
  | setPrice => exact Tokens.logs_of_eq rfl
  | handOut self dst amount _ _ htransfer =>
    exact Tokens.logs_of_eq (Tokens.silent_transferRedeemToken htransfer).log
  | deposit self value assets _ h =>
    apply h.logs.mono
    intro m hm
    cases h with
    | mk hpool => exact ⟨_, hm.1.1 ▸ hpool⟩
  | withdraw self assets _ h =>
    apply h.logs.mono
    intro m hm
    cases h with
    | mk hpool => exact ⟨_, hm.1 ▸ hpool⟩
  | redeem self trailing n requestIds _ _ h => exact Tokens.logs_of_eq h.log_eq
  | fulfill k requestId words _ h =>
    cases h with
    | mk _ _ _ hpool _ _ _ hpay =>
      apply (logs_payCard hpay).mono
      intro m hm
      exact ⟨_, hm.1.1 ▸ hpool⟩

/-- Nothing is recorded of a pool before it is made. -/
def Unrecorded (p : Address) (w : World F) : Prop :=
  w.assetPools p = none → ∀ m ∈ w.tokens.log, m.pool ≠ p

theorem unrecorded_rule {J : World F → Prop} (hsane : ∀ w, J w → Sane w) :
    Rule P J (Unrecorded p) where
  initial := fun w hw _ m hm => by simp [hw.log] at hm
  quiet := fun w w' _ hI h hnone m hm => by
    rw [h.log] at hm
    refine hI (Option.eq_none_iff_forall_ne_some.mpr fun pool hpool => ?_) m hm
    rw [h.exists_pool hpool] at hnone
    cases hnone
  change := fun w call w' hJ hI hcan _ h hnone => by
    have hold : w.assetPools p = none := by
      have hinfo : (w'.assetPools p).map AssetPoolV1.info = (w.assetPools p).map AssetPoolV1.info :=
        congrFun (congrArg Wiring.assetPools (h.wiring (hsane w hJ).wired hcan)) p
      rw [hnone] at hinfo
      exact Option.map_eq_none_iff.mp hinfo.symm
    obtain ⟨l, hl, hQ⟩ := h.logs
    intro m hm
    rw [hl] at hm
    rcases List.mem_append.mp hm with hm | hm
    · rintro rfl
      obtain ⟨pool, hpool⟩ := hQ m hm
      rw [hold] at hpool
      cases hpool
    · exact hI hold m hm
  forget := fun w requestId k _ hI => hI

/-! ### The condition -/

/-- The call agrees with the pool on the names: an admin adds cards to boxes of his own only, and the
owner withdraws the cards of a box for the depositer of that box. -/
def AssetPoolV1.Names (pool : AssetPoolV1 F) (rp : RewardPoolV1 F) (p sender : Address) :
    AssetPoolCall → Prop
  | .depositAssets _ assets => rp.isAdmin sender → assets.Named pool p fun _ => sender
  | .withdrawAssets assets => sender = rp.owner → assets.Named pool p AssetBox.depositer
  | _ => True

instance (pool : AssetPoolV1 F) (rp : RewardPoolV1 F) (p sender : Address) (c : AssetPoolCall) :
    Decidable (pool.Names rp p sender c) := by
  unfold AssetPoolV1.Names
  induction c using AssetPoolCall.casesOn <;> infer_instance

/-- Every call of the pool at `p` agrees with it on the names. -/
def World.NamesDepositers (p : Address) (w : World F) (call : Call) : Prop :=
  match call.action with
  | .assetPool self c => self = p → ∀ pool ∈ w.assetPools p, ∀ rp ∈ w.rewardPools pool.rewardPool,
    pool.Names rp p call.sender c
  | _ => True

instance (p : Address) (w : World F) (call : Call) : Decidable (w.NamesDepositers p call) := by
  unfold World.NamesDepositers
  obtain ⟨sender, action⟩ := call
  induction action using Action.casesOn <;> infer_instance

/-! ### The invariants -/

/-- What is paid back to `d` and what is owed to `d` has been deposited by `d`. -/
def Entitled (p : Address) (key : AssetType × Address) (d : Address) (_own : Option Address)
    (pool : AssetPoolV1 F) (tokens : Tokens) : Prop :=
  tokens.moved .withdraw p key d + owedTo d (pool.assetBoxes key.1 key.2) ≤
    tokens.moved .deposit p key d

omit [EnumerableSet F] in
theorem Repaid.entitled {own : Option Address} (h : Repaid p key d s s')
    (hs : Entitled p key d own s.1 s.2) : Entitled p key d own s'.1 s'.2 := by
  unfold Repaid at h
  unfold Entitled at *
  omega

theorem moved_eq_zero {cause : Cause} (h : ∀ m ∈ tokens.log, m.pool ≠ p) :
    tokens.moved cause p key d = 0 := by
  apply List.sum_eq_zero
  intro n hn
  obtain ⟨m, hm, rfl⟩ := List.mem_map.mp hn
  exact if_neg fun hof => h m hm hof.1.1

theorem entitled_rule (hP : ∀ w call, P w call → w.NamesDepositers p call) (hkey : key.1 ≠ .ERC721)
    (hmoving : key.1 = .ERC20 → ∀ w call, P w call → w.tokens.Moving key.2) :
    AssetRule P p (fun w : World F => Sane w ∧ Unrecorded p w) (Entitled p key d) where
  initial := fun w own tokens a id price forwarder hJ hnone hlog => by
    have hunrecorded : ∀ m ∈ tokens.log, m.pool ≠ p := hlog ▸ hJ.2 hnone
    unfold Entitled
    rw [moved_eq_zero hunrecorded, moved_eq_zero hunrecorded]
    exact Nat.le_refl 0
  congr := fun own pool pool' tokens hboxes hI => by
    unfold Entitled
    rwa [hboxes]
  aside := fun own pool t t' _ haside hI => by
    have hsame : Repaid p key d (pool, t) (pool, t') :=
      .of_same rfl fun _ _ => haside.log.mono fun m hm hof => hm hof.1.1
    exact hsame.entitled hI
  handOut := fun c pool t answer dst n t' h hI => by
    have hsame : Repaid p key d (pool, t) (pool, t') :=
      .of_same rfl fun _ _ => Tokens.logs_of_eq (Tokens.silent_erc20Call h).log
    exact hsame.entitled hI
  deposit := fun w call value assets w' pool pool' hJ hcan hcall haction h hpool hpool' hI => by
    have hnames := hP w call hcall
    unfold World.NamesDepositers at hnames
    rw [haction] at hnames
    have hnamed : assets.Named pool p fun _ => call.sender := by
      cases h with
      | @mk _ _ _ _ rp _ _ _ _ _ _ hself hrp hadmin =>
        obtain rfl := Option.some.inj (hpool.symm.trans hself)
        exact hnames rfl pool hpool rp hrp hadmin
    exact (h.repaid hkey (fun ht => hmoving ht w call hcall) hnamed hpool hpool').entitled hI
  withdraw := fun w call assets w' pool pool' hJ hcall haction h hpool hpool' hI => by
    have hnames := hP w call hcall
    unfold World.NamesDepositers at hnames
    rw [haction] at hnames
    have hnamed : assets.Named pool p AssetBox.depositer := by
      cases h with
      | @mk _ rp _ _ hself hrp howner =>
        obtain rfl := Option.some.inj (hpool.symm.trans hself)
        exact hnames rfl pool hpool rp hrp howner
    exact (h.repaid hkey hnamed hpool hpool').entitled hI
  paid := fun w call pool pool' receiver requestId card tokens _ _ _ h hpay hI =>
    (h.repaid hpay).entitled hI

theorem returned_rule (hstandard : ∀ w call, P w call → w.tokens.Standard c) :
    AssetRule P p (fun w : World F => ((Sane w ∧ OnPool p OneCardEach w) ∧
      Holding p (fun _ => InCustody p c) w) ∧ Unrecorded p w)
      (fun _ _ => Tokens.Returned p c) where
  initial := fun w own tokens a id price forwarder hJ hnone hlog => by
    intro m log hsuffix hby
    have hm : m ∈ w.tokens.log := hlog ▸ hsuffix.subset List.mem_cons_self
    exact absurd hby.1 (hJ.2 hnone m hm)
  congr := fun _ _ _ _ _ hI => hI
  aside := fun own pool t t' _ haside hI => by
    apply hI.logs
    apply haside.log.mono
    exact fun m hm h => hm h.1.1
  handOut := fun c pool t answer dst n t' h hI =>
    hI.logs (Tokens.logs_of_eq (Tokens.silent_erc20Call h).log)
  deposit := fun w call value assets w' pool pool' _ _ _ _ h _ _ hI => by
    apply hI.logs
    apply h.logs.mono
    exact fun m hm h => absurd (hm.1.2.symm.trans h.1.2) (by simp)
  withdraw := fun w call assets w' pool pool' hJ hP _ h hpool _ hI =>
    h.returned (hstandard w call hP) hpool (hJ.1.2 pool hpool) hI
  paid := fun w call pool pool' receiver requestId card tokens _ _ _ _ hpay hI => by
    apply hI.logs
    apply (logs_payCard hpay).mono
    exact fun m hm h => absurd (hm.1.2.symm.trans h.1.2) (by simp)

/-! ### Every run -/

theorem withdrawn_le_deposited (hP : ∀ w call, P w call → w.NamesDepositers p call)
    (hkey : key.1 ≠ .ERC721) (hmoving : key.1 = .ERC20 → ∀ w call, P w call → w.tokens.Moving key.2)
    (h : World.Run P cfg) (d : Address) : cfg.state.tokens.moved .withdraw p key d ≤
      cfg.state.tokens.moved .deposit p key d := by
  have hkept : Kept P (fun w : World F => (Sane w ∧ Unrecorded p w) ∧ Holding p (Entitled p key d) w) :=
    (kept_sane.rule (fun _ => id) (unrecorded_rule fun _ => id)).rule (fun _ h => h.1)
      ((entitled_rule hP hkey hmoving).rule fun _ h => h.1)
  obtain ⟨⟨_, hunrecorded⟩, hentitled⟩ := hkept.run h
  cases hpool : cfg.state.assetPools p with
  | none => rw [moved_eq_zero (hunrecorded hpool), moved_eq_zero (hunrecorded hpool)]
  | some pool => exact Nat.le_of_add_right_le (hentitled pool hpool)

theorem returned_of_run (hstandard : ∀ w call, P w call → w.tokens.Standard c)
    (h : World.Run P cfg) : cfg.state.tokens.Returned p c := by
  have hkept := ((kept_inCustody (p := p) hstandard).rule (fun _ h => h.1.1)
    (unrecorded_rule fun _ h => h.1.1)).rule (fun _ h => h.1.1.1)
    ((returned_rule hstandard).rule fun _ h => h.1.1.1)
  obtain ⟨⟨_, hunrecorded⟩, hreturned⟩ := hkept.run h
  cases hpool : cfg.state.assetPools p with
  | none =>
    intro m log hsuffix hby
    exact absurd hby.1 (hunrecorded hpool m (hsuffix.subset List.mem_cons_self))
  | some pool => exact hreturned pool hpool

/-- If every call of a pool agrees with it on the names, withdrawals pay nobody more than he has
deposited, in native tokens and in any ERC20 that moves what it is asked to move. The tokens of a
standard ERC721 go back to those who have brought them in, whatever the names in the calls. All this is
for tokens that call nobody while they are moved. -/
theorem assets_return_to_depositers {code : TokenCode F} (hquiet : code.CallsNobody)
    (hP : ∀ w call, P w call → w.NamesDepositers p call) (h : Callback.Run code P cfg) :
    (∀ d, cfg.state.tokens.moved .withdraw p (.NativeToken, p) d ≤
      cfg.state.tokens.moved .deposit p (.NativeToken, p) d) ∧
    (∀ c, (∀ w call, P w call → w.tokens.Moving c) → ∀ d,
      cfg.state.tokens.moved .withdraw p (.ERC20, c) d ≤
        cfg.state.tokens.moved .deposit p (.ERC20, c) d) ∧
    ∀ c, (∀ w call, P w call → w.tokens.Standard c) → cfg.state.tokens.Returned p c := by
  have hrun : World.Run P cfg := (Callback.run_iff hquiet).mp h
  refine ⟨?_, ?_, fun c hstandard => returned_of_run hstandard hrun⟩
  · exact withdrawn_le_deposited hP (by simp) (fun ht => by cases ht) hrun
  · intro c hmoving
    exact withdrawn_le_deposited hP (by simp) (fun _ => hmoving) hrun

/-- The names agree, and the token contracts follow their standards. -/
def AllNamed (w : World F) (call : Call) : Prop :=
  w.NamesDepositers 1004 call ∧ w.tokens.Moving 10 ∧ w.tokens.Standard 11

instance (w : World F) (call : Call) : Decidable (AllNamed w call) :=
  inferInstanceAs (Decidable (_ ∧ _ ∧ _))

/-- Two admins have deposited, and each gets a part back. -/
def bothPaid : CallStack.Config (World ListSet) Call :=
  World.after AllNamed [
    World.opening .CustomERC20,
    .call ⟨1, .erc20 10 (.approve 1004 8)⟩,
    .call ⟨1, .erc721 11 (.setApprovalForAll 1004 true)⟩,
    World.poolCall 1 (.depositAssets 4 {
      erc20ContractAddresses := [10], erc20Boxes := [[⟨1, .ERC20, 2, 4⟩]]
      erc721ContractAddresses := [11], erc721TokenIds := [[3]]
      nativeTokenBoxes := [⟨1, .NativeToken, 2, 2⟩] }),
    World.poolCall 6 (.depositAssets 3 (World.nativeBoxes [⟨6, .NativeToken, 1, 3⟩])),
    World.poolCall 1 (.withdrawAssets {
      erc20ContractAddresses := [10], erc20Boxes := [[⟨1, .ERC20, 1, 4⟩]]
      erc721ContractAddresses := [11], erc721TokenIds := [[3]]
      nativeTokenBoxes := [⟨6, .NativeToken, 1, 3⟩, ⟨1, .NativeToken, 1, 2⟩] })]

theorem assets_return_to_depositers_bothPaid :
    bothPaid.state.tokens.moved .withdraw 1004 (.NativeToken, 1004) 6 = 3 ∧
    bothPaid.state.tokens.moved .withdraw 1004 (.ERC20, 10) 1 = 4 ∧
    (∀ d, bothPaid.state.tokens.moved .withdraw 1004 (.NativeToken, 1004) d ≤
      bothPaid.state.tokens.moved .deposit 1004 (.NativeToken, 1004) d) ∧
    (∀ d, bothPaid.state.tokens.moved .withdraw 1004 (.ERC20, 10) d ≤
      bothPaid.state.tokens.moved .deposit 1004 (.ERC20, 10) d) ∧
    bothPaid.state.tokens.Returned 1004 11 := by
  have hquiet : (TokenCode.quiet : TokenCode ListSet).CallsNobody := TokenCode.callsNobody_quiet
  have hrun : Callback.Run .quiet AllNamed bothPaid :=
    (Callback.run_iff hquiet).mpr (World.run_after AllNamed _)
  have hpaid := assets_return_to_depositers (p := 1004) hquiet (fun _ _ h => h.1) hrun
  have hmoved : bothPaid.state.tokens.moved .withdraw 1004 (.NativeToken, 1004) 6 = 3 ∧
      bothPaid.state.tokens.moved .withdraw 1004 (.ERC20, 10) 1 = 4 := by decide
  exact ⟨hmoved.1, hmoved.2, hpaid.1, hpaid.2.1 10 fun _ _ h => h.2.1,
    hpaid.2.2 11 fun _ _ h => h.2.2⟩

/-- The owner withdraws a card of his own for somebody who has deposited nothing. -/
def misnamed : CallStack.Config (World ListSet) Call :=
  World.after (fun _ _ => True) [
    World.opening .CustomERC20,
    World.poolCall 1 (.depositAssets 2 (World.nativeBoxes [⟨1, .NativeToken, 1, 2⟩])),
    World.poolCall 1 (.withdrawAssets (World.nativeBoxes [⟨9, .NativeToken, 1, 2⟩]))]

/-- The card of another admin has gone into the owner's box, under the owner's name. -/
def merged : CallStack.Config (World ListSet) Call :=
  World.after (fun _ _ => True) [
    World.opening .CustomERC20,
    World.poolCall 1 (.depositAssets 2 (World.nativeBoxes [⟨1, .NativeToken, 1, 2⟩])),
    World.poolCall 6 (.depositAssets 2 (World.nativeBoxes [⟨6, .NativeToken, 1, 2⟩])),
    World.poolCall 1 (.withdrawAssets (World.nativeBoxes [⟨1, .NativeToken, 2, 2⟩]))]

/-- A withdrawal pays whom its arguments name. Where that is the depositer of the box, the box can hold
the cards of another admin too. -/
theorem withdrawal_pays_others :
    (World.Run (fun _ _ => True) misnamed ∧
      misnamed.state.tokens.moved .deposit 1004 (.NativeToken, 1004) 9 = 0 ∧
      misnamed.state.tokens.moved .withdraw 1004 (.NativeToken, 1004) 9 = 2) ∧
    (World.Run (fun _ _ => True) merged ∧
      merged.state.tokens.moved .deposit 1004 (.NativeToken, 1004) 1 = 2 ∧
      merged.state.tokens.moved .withdraw 1004 (.NativeToken, 1004) 1 = 4) :=
  ⟨⟨World.run_after (fun _ _ => True) _, by decide⟩,
    World.run_after (fun _ _ => True) _, by decide⟩

/-- The ERC20 at 10 tells its recipient of the tokens. The first to be told is the owner 1, who withdraws
the same two cards once more before the pool has written them off. -/
def telling : TokenCode ListSet where
  before := fun _ w => .ok w
  after := fun c w =>
    if c = 10 ∧ w.tokens.log.length = 5 then w.withdrawAssets 1004 1 {
      erc20ContractAddresses := [10], erc20Boxes := [[⟨1, .ERC20, 2, 3⟩]]
      erc721ContractAddresses := [], erc721TokenIds := [], nativeTokenBoxes := [] }
    else .ok w

/-- Two admins have deposited two cards each, of 3 and of 5 tokens, and the owner withdraws his. -/
def paidTwice : CallStack.Config (World ListSet) Call :=
  (CallStack.run (Callback.machine telling) (fun w call => w.CanCall call ∧ AllNamed w call) [
    World.opening .CustomERC20,
    .call ⟨1, .erc20 10 (.transfer 6 10)⟩,
    .call ⟨1, .erc20 10 (.approve 1004 6)⟩,
    .call ⟨6, .erc20 10 (.approve 1004 10)⟩,
    World.poolCall 1 (.depositAssets 0 {
      erc20ContractAddresses := [10], erc20Boxes := [[⟨1, .ERC20, 2, 3⟩]]
      erc721ContractAddresses := [], erc721TokenIds := [], nativeTokenBoxes := [] }),
    World.poolCall 6 (.depositAssets 0 {
      erc20ContractAddresses := [10], erc20Boxes := [[⟨6, .ERC20, 2, 5⟩]]
      erc721ContractAddresses := [], erc721TokenIds := [], nativeTokenBoxes := [] }),
    World.poolCall 1 (.withdrawAssets {
      erc20ContractAddresses := [10], erc20Boxes := [[⟨1, .ERC20, 2, 3⟩]]
      erc721ContractAddresses := [], erc721TokenIds := [], nativeTokenBoxes := [] })]
    ⟨World.genesis, []⟩).getD ⟨World.genesis, []⟩

/-- A token that calls somebody in the middle of a withdrawal takes more out of the pool, whatever the
names in the calls. -/
theorem withdrawal_pays_twice : Callback.Run telling AllNamed paidTwice ∧
    paidTwice.state.tokens.moved .deposit 1004 (.ERC20, 10) 1 = 6 ∧
    paidTwice.state.tokens.moved .withdraw 1004 (.ERC20, 10) 1 = 12 :=
  ⟨⟨World.genesis, World.initial_genesis, CallStack.Reachable.init.run_getD _⟩, by decide⟩

end Redeemy
