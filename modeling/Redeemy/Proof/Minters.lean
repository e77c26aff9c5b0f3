import Redeemy.Model.ChildERC1155
import Redeemy.Proof.Change

/-!
# Who mints the child token

The supply of the child token grows in calls of its VRF consumer, of the manager of the bridge, and
of contracts that name a reward pool of the token's owner. As long as the last of these are contained
in the reward pool they name, they are asset pools of that owner.
-/

namespace Redeemy

open Fallible EnumerableSet

variable {F : Type → Type}
variable {tok tok' : ChildERC1155} {s s' s₀ : Bridge F} {src dst sender a : Address}
variable {id n : Nat} {answers : ViewAnswers} {c : ChildCall} {call : BridgeCall}
variable {cfg cfg' : CallStack.Config (Bridge F) BridgeCall} {label : CallStack.Label BridgeCall}

/-! ### The supply -/

namespace ChildERC1155

/-- The supply under one id. -/
@[irreducible] def supply (tok : ChildERC1155) (id : Nat) : Nat := ∑ a, tok.balances id a

theorem supply_setBalances {l : Address → Nat} (id' : Nat) :
    (tok.setBalances id l).supply id' = if id' = id then ∑ a, l a else tok.supply id' := by
  unfold supply setBalances
  split_ifs with hid
  · simp only [hid, Function.update_self]
  · simp only [Function.update_of_ne hid]

/-- There are no more tokens than before. -/
def NoMore (tok tok' : ChildERC1155) : Prop := ∀ id, tok'.supply id ≤ tok.supply id

theorem NoMore.refl : NoMore tok tok := fun _ => Nat.le_refl _

theorem NoMore.trans {tok₁ : ChildERC1155} (h : NoMore tok tok₁) (h' : NoMore tok₁ tok') :
    NoMore tok tok' := fun id => (h' id).trans (h id)

theorem noMore_of_balances (h : tok'.balances = tok.balances) : NoMore tok tok' := by
  intro id
  unfold supply
  rw [h]

theorem noMore_setBalances {l : Address → Nat} (h : ∑ a, l a ≤ ∑ a, tok.balances id a) :
    NoMore tok (tok.setBalances id l) := by
  intro id'
  rw [supply_setBalances]
  split_ifs with hid
  · subst hid
    unfold supply
    exact h
  · exact Nat.le_refl _

theorem noMore_burnOne (h : tok.burnOne src id n = .ok tok') : NoMore tok tok' := by
  unfold burnOne at h
  simp only [bind_eq_ok, require_eq_ok, pure_eq_ok] at h
  obtain ⟨_, hn, rfl⟩ := h
  apply noMore_setBalances
  have hsum := Ledger.sum_debit hn
  omega

theorem noMore_transferOne (h : tok.transferOne src dst id n = .ok tok') : NoMore tok tok' := by
  unfold transferOne at h
  simp only [bind_eq_ok, require_eq_ok, pure_eq_ok] at h
  obtain ⟨_, hn, _, _, rfl⟩ := h
  exact noMore_setBalances (Ledger.sum_move hn).le

theorem noMore_batch {f : ChildERC1155 → Nat → Nat → Result ChildERC1155} {ids amounts : List Nat}
    (hf : ∀ tok id n tok', f tok id n = .ok tok' → NoMore tok tok')
    (h : tok.batch f ids amounts = .ok tok') : NoMore tok tok' :=
  foldlM_rel (fun _ => .refl) (fun _ _ _ => .trans) (fun tok _ tok' _ hstep => hf tok _ _ tok' hstep) h

theorem noMore_mint_zero (h : tok.mint dst id 0 = .ok tok') : NoMore tok tok' := by
  unfold mint mintOne at h
  simp only [bind_eq_ok, require_eq_ok, pure_eq_ok] at h
  obtain ⟨_, _, _, _, rfl⟩ := h
  apply noMore_setBalances
  rw [Ledger.sum_credit, Nat.add_zero]

end ChildERC1155

/-! ### One call -/

/-- A mint or a deposit, and what has been checked of it. -/
inductive Minting (s : Bridge F) : BridgeCall → Prop where
  | mint (sender : Address) (answers : ViewAnswers) (dst : Address) (id amount : Nat)
      (hpos : 0 < amount) (hminter : s.onlyMinter answers sender = .ok ()) :
      Minting s (.token sender answers (.mint dst id amount))
  | deposit (answers : ViewAnswers) (user : Address) (depositData : Option (List Nat × List Nat)) :
      Minting s (.token CHILD_CHAIN_MANAGER answers (.deposit user depositData))

theorem childCall_cases (h : s.childCall sender answers c = .ok tok') :
    s.token.NoMore tok' ∨ Minting s (.token sender answers c) := by
  cases c with
  | mint dst id amount =>
    simp only [Bridge.childCall, bind_eq_ok] at h
    obtain ⟨_, hminter, h⟩ := h
    rcases Nat.eq_zero_or_pos amount with rfl | hpos
    · exact .inl (ChildERC1155.noMore_mint_zero h)
    · exact .inr (.mint sender answers dst id amount hpos hminter)
  | burn =>
    rw [Bridge.childCall, pure_eq_ok] at h
    exact .inl (h ▸ .refl)
  | deposit user depositData =>
    simp only [Bridge.childCall, bind_eq_ok, require_eq_ok] at h
    obtain ⟨_, rfl, _⟩ := h
    exact .inr (.deposit answers user depositData)
  | withdrawSingle id amount =>
    simp only [Bridge.childCall, ChildERC1155.burn, bind_eq_ok] at h
    obtain ⟨_, _, h⟩ := h
    exact .inl (ChildERC1155.noMore_burnOne h)
  | withdrawBatch ids amounts =>
    simp only [Bridge.childCall, ChildERC1155.burnBatch, bind_eq_ok] at h
    obtain ⟨_, _, _, _, h⟩ := h
    exact .inl (ChildERC1155.noMore_batch (fun _ _ _ _ => ChildERC1155.noMore_burnOne) h)
  | safeTransferFrom src dst id amount =>
    simp only [Bridge.childCall, ChildERC1155.safeTransferFrom, bind_eq_ok] at h
    obtain ⟨_, _, _, _, h⟩ := h
    exact .inl (ChildERC1155.noMore_transferOne h)
  | safeBatchTransferFrom src dst ids amounts =>
    simp only [Bridge.childCall, ChildERC1155.safeBatchTransferFrom, bind_eq_ok] at h
    obtain ⟨_, _, _, _, _, _, h⟩ := h
    exact .inl (ChildERC1155.noMore_batch (fun _ _ _ _ => ChildERC1155.noMore_transferOne) h)
  | setApprovalForAll operator approved =>
    simp only [Bridge.childCall, bind_eq_ok, pure_eq_ok] at h
    obtain ⟨_, _, rfl⟩ := h
    exact .inl (ChildERC1155.noMore_of_balances rfl)
  | setBaseURI uri =>
    simp only [Bridge.childCall, bind_eq_ok, pure_eq_ok] at h
    obtain ⟨_, _, rfl⟩ := h
    exact .inl (ChildERC1155.noMore_of_balances rfl)
  | setURI id uri =>
    simp only [Bridge.childCall, bind_eq_ok, pure_eq_ok] at h
    obtain ⟨_, _, rfl⟩ := h
    exact .inl (ChildERC1155.noMore_of_balances rfl)
  | transferOwnership newOwner =>
    simp only [Bridge.childCall, bind_eq_ok, pure_eq_ok] at h
    obtain ⟨_, _, _, _, rfl⟩ := h
    exact .inl (ChildERC1155.noMore_of_balances rfl)
  | renounceOwnership =>
    simp only [Bridge.childCall, bind_eq_ok, pure_eq_ok] at h
    obtain ⟨_, _, rfl⟩ := h
    exact .inl (ChildERC1155.noMore_of_balances rfl)

variable [EnumerableSet F]

theorem enter_cases (h : (Bridge.machine F).enter call s = .ok s') :
    s.token.NoMore s'.token ∨ Minting s call := by
  cases call with
  | system call =>
    simp only [Bridge.machine, bind_eq_ok, pure_eq_ok] at h
    obtain ⟨_, _, rfl⟩ := h
    exact .inl .refl
  | token sender answers c =>
    simp only [Bridge.machine, bind_eq_ok, pure_eq_ok] at h
    obtain ⟨_, htoken, rfl⟩ := h
    exact childCall_cases htoken

theorem leave_token (h : (Bridge.machine F).leave call s = .ok s') : s'.token = s.token := by
  cases call with
  | system call =>
    simp only [Bridge.machine, bind_eq_ok, pure_eq_ok] at h
    obtain ⟨_, _, rfl⟩ := h
    rfl
  | token sender answers c =>
    simp only [Bridge.machine, pure_eq_ok] at h
    rw [h]

theorem abort_token : ((Bridge.machine F).abort call s).token = s.token := by
  cases call <;> rfl

/-! ### Every run -/

/-- The reward pool at `r` is one of the system and contains `a`. -/
def Contains (w : World F) (r a : Address) : Prop := ∃ rp ∈ w.rewardPools r, a ∈ values rp.assetPools

instance (w : World F) (r a : Address) : Decidable (Contains w r a) := by
  unfold Contains
  infer_instance

/-- A contract other than the VRF consumer that mints tokens and names a reward pool of the token's
owner as its own is contained in that reward pool. -/
def NamesItsPool (s : Bridge F) : BridgeCall → Prop
  | .token sender answers (.mint _ _ amount) => 0 < amount → sender ≠ s.token.vrfConsumer →
    match s.getRewardPool answers sender with
    | some r => s.getOwner answers r = some s.token.owner → Contains s.world r sender
    | none => True
  | _ => True

instance (s : Bridge F) (call : BridgeCall) : Decidable (NamesItsPool s call) := by
  unfold NamesItsPool
  split
  · have (sender : Address) (answers : ViewAnswers) : Decidable
        (match s.getRewardPool answers sender with
        | some r => s.getOwner answers r = some s.token.owner → Contains s.world r sender
        | none => True) := by
      split <;> infer_instance
    infer_instance
  · infer_instance

/-- A call of a minter. -/
inductive ByMinter (s : Bridge F) : BridgeCall → Prop where
  | vrfConsumer (answers : ViewAnswers) (dst : Address) (id amount : Nat) :
      ByMinter s (.token s.token.vrfConsumer answers (.mint dst id amount))
  | manager (answers : ViewAnswers) (user : Address) (depositData : Option (List Nat × List Nat)) :
      ByMinter s (.token CHILD_CHAIN_MANAGER answers (.deposit user depositData))
  | assetPool {rp : RewardPoolV1 F} {pool : AssetPoolV1 F} (sender : Address) (answers : ViewAnswers)
      (dst : Address) (id amount : Nat) (hpool : s.world.assetPools sender = some pool)
      (hrp : s.world.rewardPools pool.rewardPool = some rp) (howner : rp.owner = s.token.owner)
      (hcontained : sender ∈ values rp.assetPools) :
      ByMinter s (.token sender answers (.mint dst id amount))

theorem Minting.byMinter (hw : Wired s.world.wiring) (hnames : NamesItsPool s call)
    (h : Minting s call) : ByMinter s call := by
  cases h with
  | deposit answers user depositData => exact .manager answers user depositData
  | mint sender answers dst id amount hpos hminter =>
    by_cases hconsumer : sender = s.token.vrfConsumer
    · subst hconsumer
      exact .vrfConsumer answers dst id amount
    · unfold Bridge.onlyMinter at hminter
      rw [if_neg hconsumer] at hminter
      simp only [bind_eq_ok, orThrow_eq_ok, require_eq_ok] at hminter
      obtain ⟨r, hr, _, howner, rfl⟩ := hminter
      have hcontains := hnames hpos hconsumer
      rw [hr] at hcontains
      obtain ⟨rp, hrp, hmem⟩ := hcontains howner
      have hrp : s.world.rewardPools r = some rp := hrp
      obtain ⟨pool, hpool, rfl, _⟩ := exists_member hw hrp hmem
      unfold Bridge.getOwner at howner
      rw [hrp, Option.some.injEq] at howner
      exact .assetPool sender answers dst id amount hpool hrp howner hmem

theorem sane_bridge : CallStack.Preserved (Bridge.machine F)
    (fun s call => s.CanCall call ∧ NamesItsPool s call) (fun _ => True)
    (fun s : Bridge F => Sane s.world) := by
  have hkept := (kept_sane (P := fun _ _ => True) (F := F)).preserved
  exact {
    enter := fun call s s' _ hs hP h => by
      cases call with
      | system call =>
        simp only [Bridge.machine, bind_eq_ok, pure_eq_ok] at h
        obtain ⟨w, henter, rfl⟩ := h
        exact hkept.enter call s.world w trivial hs ⟨hP.1, trivial⟩ henter
      | token sender answers c =>
        simp only [Bridge.machine, bind_eq_ok, pure_eq_ok] at h
        obtain ⟨_, _, rfl⟩ := h
        exact hs
    leave := fun call s s' _ hs hP h => by
      cases call with
      | system call =>
        simp only [Bridge.machine, bind_eq_ok, pure_eq_ok] at h
        obtain ⟨w, hleave, rfl⟩ := h
        obtain ⟨s₁, hP⟩ := hP
        exact hkept.leave call s.world w trivial hs ⟨s₁.world, hP.1, trivial⟩ hleave
      | token sender answers c =>
        simp only [Bridge.machine, pure_eq_ok] at h
        exact h ▸ hs
    abort := fun call s _ hs hP => by
      cases call with
      | system call => exact hkept.abort call s.world trivial hs ⟨hP.1, trivial⟩
      | token sender answers c => exact hs }

theorem finish_token (call : BridgeCall) (s m : Bridge F) :
    ((Bridge.machine F).finish call s m).token = m.token ∨
      ((Bridge.machine F).finish call s m).token = s.token := by
  unfold CallStack.Machine.finish
  split
  · exact .inl (leave_token ‹_›)
  · exact .inr abort_token

/-- What one step does to the token: it makes a call of a minter, leaves no more tokens than there
were, or rolls back to where an open call started. -/
theorem step_cases (hw : Wired cfg.state.world.wiring)
    (hallowed : CallStack.Allowed (fun s call => s.CanCall call ∧ NamesItsPool s call) cfg label)
    (hstep : (Bridge.machine F).step label cfg = some cfg') :
    (∃ call, label = .call call ∧ ByMinter cfg.state call) ∨
      cfg.state.token.NoMore cfg'.state.token ∨
      ∃ frame ∈ cfg.frames, cfg'.state.token = frame.2.token := by
  obtain ⟨s, frames⟩ := cfg
  cases label with
  | call call =>
    have hnames : NamesItsPool s call := hallowed.2
    simp only [CallStack.Machine.step] at hstep
    split at hstep
    · rw [Option.some.injEq] at hstep
      subst hstep
      exact .inr (.inl (ChildERC1155.noMore_of_balances (by rw [abort_token])))
    · rename_i m henter
      rcases enter_cases henter with hless | hmint
      · refine .inr (.inl ?_)
        split at hstep
        · rw [Option.some.injEq] at hstep
          exact hstep ▸ hless
        · rw [Option.some.injEq] at hstep
          subst hstep
          rcases finish_token call s m with hsame | hsame
          · exact hsame ▸ hless
          · exact ChildERC1155.noMore_of_balances (by rw [hsame])
      · exact .inl ⟨call, rfl, hmint.byMinter hw hnames⟩
  | ret =>
    cases frames with
    | nil => cases hstep
    | cons top frames =>
      obtain ⟨call, start⟩ := top
      simp only [CallStack.Machine.step, Option.some.injEq] at hstep
      subst hstep
      rcases finish_token call start s with hsame | hsame
      · exact .inr (.inl (ChildERC1155.noMore_of_balances (by rw [hsame])))
      · exact .inr (.inr ⟨(call, start), List.mem_cons_self, hsame⟩)
  | revert =>
    cases frames with
    | nil => cases hstep
    | cons top frames =>
      obtain ⟨call, start⟩ := top
      simp only [CallStack.Machine.step, Option.some.injEq] at hstep
      subst hstep
      exact .inr (.inr ⟨(call, start), List.mem_cons_self, abort_token⟩)

/-- In every run in which the contracts that mint are contained in the reward pool they name, the
supply under an id grows in calls of a minter only, or when a failed call is rolled back to the
state it started in. -/
theorem supply_grows_by_minters (h₀ : s₀.Initial)
    (h : CallStack.Reachable (Bridge.machine F) (fun s call => s.CanCall call ∧ NamesItsPool s call)
      s₀ cfg)
    (hallowed : CallStack.Allowed (fun s call => s.CanCall call ∧ NamesItsPool s call) cfg label)
    (hstep : (Bridge.machine F).step label cfg = some cfg')
    (hgrows : cfg.state.token.supply id < cfg'.state.token.supply id) :
    (∃ call, label = .call call ∧ ByMinter cfg.state call) ∨
      ∃ frame ∈ cfg.frames, cfg'.state.token = frame.2.token := by
  have hsane : Sane cfg.state.world := h.invariant sane_bridge (sane_initial h₀.world)
  rcases step_cases hsane.wired hallowed hstep with hminter | hless | hback
  · exact .inl hminter
  · exact absurd hgrows (Nat.not_lt.mpr (hless id))
  · exact .inr hback

/-! ### Runs -/

theorem mint_step {m : Bridge F} (frames : List (BridgeCall × Bridge F))
    (h : (Bridge.machine F).enter (.token sender answers (.mint dst id n)) s = .ok m) :
    m.token.supply id = s.token.supply id + n ∧
      (Bridge.machine F).step (.call (.token sender answers (.mint dst id n))) ⟨s, frames⟩ =
        some ⟨m, (.token sender answers (.mint dst id n), s) :: frames⟩ := by
  constructor
  · simp only [Bridge.machine, Bridge.childCall, ChildERC1155.mint, ChildERC1155.mintOne, bind_eq_ok,
      pure_eq_ok] at h
    obtain ⟨_, ⟨_, _, _, _, _, _, rfl⟩, rfl⟩ := h
    rw [ChildERC1155.supply_setBalances, if_pos rfl, Ledger.sum_credit]
    unfold ChildERC1155.supply
    rfl
  · simp only [CallStack.Machine.step, h]
    rfl

theorem ByMinter.mint_cases (h : ByMinter s (.token sender answers (.mint dst id n))) :
    sender = s.token.vrfConsumer ∨ ∃ pool, s.world.assetPools sender = some pool := by
  cases h with
  | vrfConsumer => exact .inl rfl
  | assetPool _ _ _ _ _ hpool => exact .inr ⟨_, hpool⟩

/-- The token belongs to the account 1, whose reward pool is at 1002; its VRF consumer is 12. -/
def bridgeGenesis : Bridge ListSet where
  world := World.genesis
  token := {
    owner := 1, vrfConsumer := 12, balances := fun _ _ => 0, isApprovedForAll := fun _ _ => false
    baseURI := [], tokenURIs := fun _ => [] }

theorem initial_bridgeGenesis : bridgeGenesis.Initial :=
  ⟨World.initial_genesis, fun _ _ => rfl⟩

def inSystem : CallStack.Label Call → CallStack.Label BridgeCall
  | .call call => .call (.system call)
  | .ret => .ret
  | .revert => .revert

/-- The account 1 has the reward pool at 1002 with the asset pool at 1004. -/
def bridgeOpened : CallStack.Config (Bridge ListSet) BridgeCall :=
  (CallStack.run (Bridge.machine ListSet) (fun s call => s.CanCall call ∧ NamesItsPool s call)
    [inSystem (World.opening .CustomERC20)] ⟨bridgeGenesis, []⟩).getD ⟨bridgeGenesis, []⟩

theorem reachable_bridgeOpened : CallStack.Reachable (Bridge.machine ListSet)
    (fun s call => s.CanCall call ∧ NamesItsPool s call) bridgeGenesis bridgeOpened :=
  CallStack.Reachable.init.run_getD _

/-- The contract at `sender` says that its reward pool is at 1002, and mints 100 tokens. -/
def mintFor (sender : Address) : BridgeCall :=
  .token sender ⟨fun _ => some 1002, fun _ => none⟩ (.mint 9 7 100)

def minted (sender : Address) : Bridge ListSet :=
  ((Bridge.machine ListSet).enter (mintFor sender) bridgeOpened.state).toOption.getD
    bridgeOpened.state

theorem supply_grows_by_minters_assetPool :
    (Bridge.machine ListSet).step (.call (mintFor 1004)) bridgeOpened =
      some ⟨minted 1004, (mintFor 1004, bridgeOpened.state) :: bridgeOpened.frames⟩ ∧
    bridgeOpened.state.token.supply 7 < (minted 1004).token.supply 7 ∧
    ∃ call, CallStack.Label.call (mintFor 1004) = .call call ∧ ByMinter bridgeOpened.state call := by
  have henter : (Bridge.machine ListSet).enter (mintFor 1004) bridgeOpened.state =
      .ok (minted 1004) := eq_ok_of_isSome (by decide)
  obtain ⟨hsupply, hstep⟩ := mint_step bridgeOpened.frames henter
  have hgrows : bridgeOpened.state.token.supply 7 < (minted 1004).token.supply 7 := by omega
  obtain ⟨hframes, hallowed⟩ : bridgeOpened.frames = [] ∧
      CallStack.Allowed (fun s call => s.CanCall call ∧ NamesItsPool s call)
        bridgeOpened (.call (mintFor 1004)) := by
    decide
  refine ⟨hstep, hgrows, ?_⟩
  rcases supply_grows_by_minters initial_bridgeGenesis reachable_bridgeOpened hallowed hstep hgrows
    with hminter | ⟨_, hmem, _⟩
  · exact hminter
  · rw [hframes] at hmem
    cases hmem

/-- The contract at 5 is nobody's asset pool, and mints tokens. -/
theorem stranger_mints :
    CallStack.Reachable (Bridge.machine ListSet) (fun s call => s.CanCall call) bridgeGenesis
      bridgeOpened ∧
    (Bridge.machine ListSet).step (.call (mintFor 5)) bridgeOpened =
      some ⟨minted 5, (mintFor 5, bridgeOpened.state) :: bridgeOpened.frames⟩ ∧
    (minted 5).token.supply 7 = bridgeOpened.state.token.supply 7 + 100 ∧
    bridgeOpened.frames = [] ∧ ¬ByMinter bridgeOpened.state (mintFor 5) := by
  have henter : (Bridge.machine ListSet).enter (mintFor 5) bridgeOpened.state = .ok (minted 5) :=
    eq_ok_of_isSome (by decide)
  obtain ⟨hsupply, hstep⟩ := mint_step bridgeOpened.frames henter
  refine ⟨reachable_bridgeOpened.mono fun _ _ => And.left, hstep, hsupply, by decide, ?_⟩
  intro hminter
  rcases hminter.mint_cases with hconsumer | ⟨pool, hpool⟩
  · exact absurd hconsumer (by decide)
  · have hnone : (bridgeOpened.state.world.assetPools 5).isSome = false := by decide
    rw [hpool] at hnone
    cases hnone

end Redeemy
