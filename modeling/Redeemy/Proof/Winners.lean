import Redeemy.Lib.Sampling
import Redeemy.Model.RebelRunVRFConsumer
import Redeemy.Proof.Frames

/-!
# The winners of the raffle

The loop of `fulfillRandomWords` is a loop of transfers to a sample of the stored addresses, drawn
without replacement. It adds no way to fail to those of the transfers, each of which takes the price of
one card out of the pool's redeem tokens and gives it to the winner, and a request pays once.
-/

namespace Redeemy

open Fallible EnumerableSet SwapRemove Sampling

variable {F : Type → Type} [EnumerableSet F]
variable {self assetPool : Address} {onReceived : World F → Address → Result (World F)}
variable {w : World F} {s s' : Raffle F} {addresses paid winners : List Address} {words : List Nat}
variable {requestId id : Nat} {k : RebelRunVRFConsumer}

namespace Raffle

/-! ### The loop -/

theorem take_set_eq_swapRemove {i : Nat} {last : Address}
    (hlast : addresses[addresses.length - 1]? = some last) :
    (addresses.set i last).take (addresses.length - 1) = swapRemove addresses i := by
  rw [← List.getLast?_eq_getElem?] at hlast
  rw [swapRemove, hlast]
  dsimp only
  rw [List.dropLast_eq_take, List.length_set]

/-- The loop transfers to one address of a sample after the other. -/
theorem drawLoop_eq : drawLoop self onReceived assetPool words addresses addresses.length (w, paid) =
    (do
      let w ← (sample words addresses).foldlM (payWinner self onReceived assetPool) w
      pure (w, paid ++ sample words addresses)) := by
  induction words generalizing addresses w paid with
  | nil => simp [drawLoop, sample]
  | cons word words ih =>
    rcases Nat.eq_zero_or_pos addresses.length with hzero | hpos
    · rw [drawLoop, if_neg (by omega), List.length_eq_zero_iff.mp hzero, sample_nil]
      simp
    · have hi : word % addresses.length < addresses.length := Nat.mod_lt word hpos
      have hlt : addresses.length - 1 < addresses.length := Nat.sub_one_lt hpos.ne'
      have hlast : addresses[addresses.length - 1]? = some addresses[addresses.length - 1] :=
        List.getElem?_eq_getElem hlt
      have hmod : checkedMod word addresses.length = .ok (word % addresses.length) :=
        checkedMod_eq_ok.mpr ⟨hpos.ne', rfl⟩
      have hsub : checkedSub addresses.length 1 = .ok (addresses.length - 1) :=
        checkedSub_eq_ok.mpr ⟨hpos, rfl⟩
      have hindex : index addresses (word % addresses.length) =
          .ok addresses[word % addresses.length] := index_eq_ok.mpr ⟨hi, rfl⟩
      have hindexLast : index addresses (addresses.length - 1) =
          .ok addresses[addresses.length - 1] := index_eq_ok.mpr ⟨hlt, rfl⟩
      rw [drawLoop, if_pos hpos, hmod, ok_bind, hindex, ok_bind, sample_cons hi, List.foldlM_cons,
        bind_assoc]
      refine bind_congr fun w' => ?_
      rw [hsub, ok_bind, hindexLast, ok_bind, ok_bind, ok_bind]
      dsimp only
      rw [take_set_eq_swapRemove hlast, ← length_swapRemove hi, ih]
      refine bind_congr fun w'' => ?_
      rw [List.append_assoc, List.singleton_append]

/-- A callback fails only if a transfer fails, and else has paid the sample. -/
theorem fulfillRandomWords_eq (hopen : (s.consumer.requests requestId).fulfilled = false) :
    s.fulfillRandomWords self onReceived requestId words = (do
      let world ← (sample words (s.consumer.requests requestId).addresses).foldlM
        (payWinner self onReceived s.consumer.assetPool) s.world
      pure { s with
        world
        consumer := s.consumer.setRequest requestId ⟨true, (s.consumer.requests requestId).addresses⟩
        payouts := (requestId, sample words (s.consumer.requests requestId).addresses) ::
          s.payouts }) := by
  unfold fulfillRandomWords
  dsimp only
  rw [require_of hopen, ok_bind, drawLoop_eq, bind_assoc]
  rfl

theorem fulfillRandomWords_fulfilled (h : (s.consumer.requests requestId).fulfilled = true) :
    s.fulfillRandomWords self onReceived requestId words =
      .error (.message "RebelRunAddressesVRFConsumer: invalid request id") := by
  unfold fulfillRandomWords
  dsimp only
  rw [require, if_neg (by rw [h]; exact nofun)]
  rfl

/-! ### The sample -/

/-- The winners are the addresses at different positions, which the words select by their residues. -/
structure IsDraw (addresses : List Address) (words : List Nat) (winners : List Address) : Prop where
  length : winners.length = min words.length addresses.length
  selects : (residues addresses.length words).length = min words.length addresses.length ∧
    IsResidues addresses.length (residues addresses.length words)
  positions : ∃ ps : List Nat,
    ps = sample (residues addresses.length words) (List.range addresses.length) ∧ ps.Nodup ∧
      winners.map some = ps.map fun p => addresses[p]?
  perm : addresses.length ≤ words.length → winners.Perm addresses

theorem isDraw_sample (addresses : List Address) (words : List Nat) :
    IsDraw addresses words (sample words addresses) where
  length := length_sample
  selects := ⟨length_residues, isResidues_residues⟩
  positions := by
    refine ⟨_, rfl, nodup_sample List.nodup_range, ?_⟩
    have hresidues : sample (residues addresses.length words) (List.range addresses.length) =
        sample words (List.range addresses.length) := by
      have hsample : sample (residues (List.range addresses.length).length words)
          (List.range addresses.length) = _ := sample_residues
      rwa [List.length_range] at hsample
    have haddresses : addresses.map some =
        (List.range addresses.length).map fun p => addresses[p]? := by
      refine List.ext_getElem (by simp) fun i hi hi' => ?_
      rw [List.length_map] at hi
      simp [hi]
    rw [hresidues, ← sample_map, ← sample_map, haddresses]
  perm := sample_perm

/-! ### The transfers -/

/-- The world once the price of one card of the pool at `assetPool`, in its redeem tokens, has gone from
it to `winner`. An ERC20 that does not follow its standard is asked to send it, and may send nothing. -/
inductive Transferred (assetPool winner : Address) (w : World F) : World F → Prop where
  | erc20 {pool : AssetPoolV1 F} {rp : RewardPoolV1 F} {tok : ERC20}
      (hpool : w.assetPools assetPool = some pool) (hrp : w.rewardPools pool.rewardPool = some rp)
      (hmethod : rp.redeemMethod = .CustomERC20)
      (htok : w.tokens.erc20 rp.redeemTokenContractAddress = some tok)
      (hmoves : (tok.answers.headD ⟨true, true⟩).moves = true)
      (hbalance : pool.redeemTokenAmount ≤ tok.balanceOf assetPool) :
      Transferred assetPool winner w { w with
        tokens := w.tokens.setERC20 rp.redeemTokenContractAddress { tok with
          answers := tok.answers.tail
          balanceOf := Ledger.move tok.balanceOf assetPool winner pool.redeemTokenAmount } }
  | silentERC20 {pool : AssetPoolV1 F} {rp : RewardPoolV1 F} {tok : ERC20}
      (hpool : w.assetPools assetPool = some pool) (hrp : w.rewardPools pool.rewardPool = some rp)
      (hmethod : rp.redeemMethod = .CustomERC20)
      (htok : w.tokens.erc20 rp.redeemTokenContractAddress = some tok)
      (hmoves : (tok.answers.headD ⟨true, true⟩).moves = false) :
      Transferred assetPool winner w { w with
        tokens := w.tokens.setERC20 rp.redeemTokenContractAddress { tok with
          answers := tok.answers.tail } }
  | erc1155 {pool : AssetPoolV1 F} {rp : RewardPoolV1 F} {tok : ERC1155}
      (hpool : w.assetPools assetPool = some pool) (hrp : w.rewardPools pool.rewardPool = some rp)
      (hmethod : rp.redeemMethod = .CustomERC1155)
      (htok : w.tokens.erc1155 rp.redeemTokenContractAddress = some tok)
      (hbalance : pool.redeemTokenAmount ≤ tok.balances pool.id assetPool) :
      Transferred assetPool winner w { w with
        tokens := w.tokens.setERC1155 rp.redeemTokenContractAddress { tok with
          balances := Function.update tok.balances pool.id
            (Ledger.move (tok.balances pool.id) assetPool winner pool.redeemTokenAmount) } }

/-- One transfer to each of the winners, in their order. In between a winner does what he likes with the
call of `onReceived`. -/
inductive Transfers (onReceived : World F → Address → Result (World F)) (assetPool : Address) :
    World F → List Address → World F → Prop where
  | nil {w : World F} : Transfers onReceived assetPool w [] w
  | cons {w w₁ w₂ w' : World F} {winner : Address} {winners : List Address}
      (htransfer : Transferred assetPool winner w w₁) (hreceived : onReceived w₁ winner = .ok w₂)
      (hrest : Transfers onReceived assetPool w₂ winners w') :
      Transfers onReceived assetPool w (winner :: winners) w'

theorem transferred_of_payWinner {w' : World F} {winner : Address}
    (h : payWinner self onReceived assetPool w winner = .ok w') :
    ∃ w₁, Transferred assetPool winner w w₁ ∧ onReceived w₁ winner = .ok w' := by
  simp only [payWinner, World.assetPoolCall, World.transferRedeemTokens, bind_eq_ok, require_eq_ok,
    pure_eq_ok, World.assetPool_eq_ok, World.rewardPool_eq_ok] at h
  obtain ⟨pool, hpool, w₁, ⟨pool₁, hpool₁, rp, hrp, _, _, _, _, amount, rfl, tokens, htransfer, rfl⟩,
    hreceived⟩ := h
  obtain rfl := Option.some.inj (hpool.symm.trans hpool₁)
  refine ⟨_, ?_, hreceived⟩
  rcases transferRedeemToken_cases htransfer with ⟨hmethod, answer, hcall⟩ | ⟨hmethod, hcall⟩
  · obtain ⟨tok, tok', htok, hanswer, rfl, ⟨hmoves, hmove⟩ | ⟨hmoves, rfl⟩⟩ :=
      Tokens.erc20Call_eq_ok hcall
    · obtain ⟨hbalance, rfl⟩ := ERC20.transfer_eq_ok hmove
      exact .erc20 hpool hrp hmethod htok (hanswer ▸ hmoves) hbalance
    · exact .silentERC20 hpool hrp hmethod htok (hanswer ▸ hmoves)
  · obtain ⟨tok, htok, hbalance, rfl⟩ := Tokens.erc1155SafeTransferFrom_eq_ok hcall
    exact .erc1155 hpool hrp hmethod htok hbalance

theorem transfers_of_foldlM {w' : World F}
    (h : winners.foldlM (payWinner self onReceived assetPool) w = .ok w') :
    Transfers onReceived assetPool w winners w' := by
  induction winners generalizing w with
  | nil =>
    rw [List.foldlM_nil, pure_eq_ok] at h
    exact h ▸ .nil
  | cons winner winners ih =>
    rw [List.foldlM_cons, bind_eq_ok] at h
    obtain ⟨w₂, hpay, hrest⟩ := h
    obtain ⟨w₁, htransfer, hreceived⟩ := transferred_of_payWinner hpay
    exact .cons htransfer hreceived (ih hrest)

/-! ### One payment for a request -/

/-- The callbacks for `id` that have paid somebody. -/
def payoutsFor (s : Raffle F) (id : Nat) : List (Nat × List Address) :=
  s.payouts.filter fun p => decide (p.1 = id ∧ p.2 ≠ [])

omit [EnumerableSet F] in
theorem payoutsFor_cons {world : World F} :
    payoutsFor { s with world, consumer := k, payouts := (requestId, winners) :: s.payouts } id =
      if requestId = id ∧ winners ≠ [] then (requestId, winners) :: s.payoutsFor id
      else s.payoutsFor id := by
  unfold payoutsFor
  rw [List.filter_cons]
  simp only [decide_eq_true_eq]

/-- What has been paid was paid for a request that is fulfilled, once. -/
structure PaidOnce (s : Raffle F) : Prop where
  unrequested : ∀ id, id ∉ s.requested → (s.consumer.requests id).addresses = []
  fulfilled : ∀ id, s.payoutsFor id ≠ [] →
    id ∈ s.requested ∧ (s.consumer.requests id).fulfilled = true
  once : ∀ id, (s.payoutsFor id).length ≤ 1

section

omit [EnumerableSet F]

theorem paidOnce_initial (h : s.Initial) : PaidOnce s := by
  obtain ⟨⟨_, _, _, _, hcreate⟩, hrequested, hpayouts⟩ := h
  unfold RebelRunVRFConsumer.create at hcreate
  simp only [bind_eq_ok, require_eq_ok, pure_eq_ok] at hcreate
  obtain ⟨_, _, _, _, hconsumer⟩ := hcreate
  have hnone : ∀ id, s.payoutsFor id = [] := by
    intro id
    rw [payoutsFor, hpayouts, List.filter_nil]
  constructor
  · intro id _
    rw [← hconsumer]
  · intro id hne
    exact absurd (hnone id) hne
  · intro id
    rw [hnone id]
    exact Nat.zero_le 1

theorem PaidOnce.congr (h : PaidOnce s) (hrequests : s'.consumer.requests = s.consumer.requests)
    (hrequested : s'.requested = s.requested) (hpayouts : s'.payouts = s.payouts) : PaidOnce s' := by
  have hsame : ∀ id, s'.payoutsFor id = s.payoutsFor id := by
    intro id
    rw [payoutsFor, payoutsFor, hpayouts]
  constructor
  · rw [hrequests, hrequested]
    exact h.unrequested
  · intro id
    rw [hsame, hrequests, hrequested]
    exact h.fulfilled id
  · intro id
    rw [hsame]
    exact h.once id

/-- A request under a new id has paid nobody yet. -/
theorem PaidOnce.request (h : PaidOnce s) (hnew : requestId ∉ s.requested) :
    PaidOnce { s with
      consumer := s.consumer.setRequest requestId ⟨false, addresses⟩
      requested := requestId :: s.requested } where
  unrequested := by
    intro id hid
    rw [List.mem_cons, not_or] at hid
    show (Function.update s.consumer.requests requestId _ id).addresses = []
    rw [Function.update_of_ne hid.1]
    exact h.unrequested id hid.2
  fulfilled := by
    intro id hne
    obtain ⟨hid, hfulfilled⟩ := h.fulfilled id hne
    refine ⟨List.mem_cons_of_mem _ hid, ?_⟩
    have hdifferent : id ≠ requestId := by
      rintro rfl
      exact hnew hid
    show (Function.update s.consumer.requests requestId _ id).fulfilled = true
    rw [Function.update_of_ne hdifferent]
    exact hfulfilled
  once := h.once

end

/-- A callback that goes through finds its request open, so nothing has been paid for it. -/
theorem PaidOnce.callback (h : PaidOnce s)
    (hcall : s.fulfillRandomWords self onReceived requestId words = .ok s') : PaidOnce s' := by
  cases hopen : (s.consumer.requests requestId).fulfilled with
  | true =>
    rw [fulfillRandomWords_fulfilled hopen] at hcall
    cases hcall
  | false =>
    rw [fulfillRandomWords_eq hopen, bind_eq_ok] at hcall
    obtain ⟨world, _, hcall⟩ := hcall
    rw [pure_eq_ok] at hcall
    subst hcall
    have hpaid : s.payoutsFor requestId = [] := by
      by_contra hne
      rw [(h.fulfilled requestId hne).2] at hopen
      cases hopen
    constructor
    · intro id hid
      show (Function.update s.consumer.requests requestId _ id).addresses = []
      by_cases heq : id = requestId
      · rw [heq, Function.update_self]
        exact h.unrequested requestId (heq ▸ hid)
      · rw [Function.update_of_ne heq]
        exact h.unrequested id hid
    · intro id hne
      rw [payoutsFor_cons] at hne
      show id ∈ s.requested ∧ (Function.update s.consumer.requests requestId _ id).fulfilled = true
      by_cases heq : id = requestId
      · rw [heq, Function.update_self]
        refine ⟨?_, rfl⟩
        by_contra hid
        -- without a request there are no addresses to draw from
        rw [h.unrequested requestId hid, sample_nil, if_neg fun hpays => hpays.2 rfl, heq] at hne
        exact hne hpaid
      · rw [if_neg fun hpays => heq hpays.1.symm] at hne
        rw [Function.update_of_ne heq]
        exact h.fulfilled id hne
    · intro id
      rw [payoutsFor_cons]
      split_ifs with hpays
      · rw [← hpays.1, hpaid]
        exact Nat.le_refl 1
      · exact h.once id

theorem PaidOnce.step (h : PaidOnce s) (hstep : Step self s s') : PaidOnce s' := by
  cases hstep with
  | world w => exact h.congr rfl rfl rfl
  | call onReceived sender c hnew hcall =>
    cases c with
    | requestRandomWords addresses requestId =>
      simp only [call, RebelRunVRFConsumer.requestRandomWords, bind_eq_ok, pure_eq_ok] at hcall
      obtain ⟨_, ⟨_, _, rfl⟩, rfl⟩ := hcall
      exact h.request (hnew addresses requestId rfl)
    | rawFulfillRandomWords requestId words =>
      simp only [call, bind_eq_ok] at hcall
      obtain ⟨_, _, hcall⟩ := hcall
      exact h.callback hcall
    | setAssetPool pool =>
      simp only [call, bind_eq_ok, pure_eq_ok] at hcall
      obtain ⟨_, _, _, _, rfl⟩ := hcall
      exact h.congr rfl rfl rfl
    | setRebelTicketId rebelTicketId =>
      simp only [call, bind_eq_ok, pure_eq_ok] at hcall
      obtain ⟨_, _, rfl⟩ := hcall
      exact h.congr rfl rfl rfl
    | setAuthorised caller isAuthorised =>
      simp only [call, bind_eq_ok, pure_eq_ok] at hcall
      obtain ⟨_, _, rfl⟩ := hcall
      exact h.congr rfl rfl rfl
    | transferOwnership newOwner =>
      simp only [call, bind_eq_ok, pure_eq_ok] at hcall
      obtain ⟨_, _, _, _, rfl⟩ := hcall
      exact h.congr rfl rfl rfl
    | renounceOwnership =>
      simp only [call, bind_eq_ok, pure_eq_ok] at hcall
      obtain ⟨_, _, rfl⟩ := hcall
      exact h.congr rfl rfl rfl

theorem Run.paidOnce (h : Run self s) : PaidOnce s := by
  obtain ⟨s₀, hinitial, hsteps⟩ := h
  induction hsteps with
  | refl => exact paidOnce_initial hinitial
  | tail _ hstep ih => exact ih.step hstep

/-! ### The raffle -/

/-- The callback for `requestId` with `words` is refused if the request is fulfilled, and else is one
transfer of redeem tokens after the other to addresses that are drawn from those of the request. -/
def PaysDraw (self : Address) (onReceived : World F → Address → Result (World F)) (s : Raffle F)
    (requestId : Nat) (words : List Nat) : Prop :=
  let req := s.consumer.requests requestId
  if req.fulfilled = true then
    s.fulfillRandomWords self onReceived requestId words =
      .error (.message "RebelRunAddressesVRFConsumer: invalid request id")
  else
    ∃ winners, IsDraw req.addresses words winners ∧
      (s.fulfillRandomWords self onReceived requestId words = do
        let world ← winners.foldlM (payWinner self onReceived s.consumer.assetPool) s.world
        pure { s with
          world
          consumer := s.consumer.setRequest requestId ⟨true, req.addresses⟩
          payouts := (requestId, winners) :: s.payouts }) ∧
      ∀ s', s.fulfillRandomWords self onReceived requestId words = .ok s' →
        Transfers onReceived s.consumer.assetPool s.world winners s'.world

/-- Every callback draws the winners from the positions of the stored list without replacement and
transfers redeem tokens to each of them once; residues and ordered selections of `j` out of `m`
positions correspond one to one; and no request is paid for twice. -/
theorem raffle_is_fair (self : Address) :
    (∀ onReceived (s : Raffle F) requestId words, PaysDraw self onReceived s requestId words) ∧
    (∀ m j : Nat, Set.BijOn (fun rs => sample rs (List.range m))
      {rs | rs.length = j ∧ IsResidues m rs} {ps | ps.length = j ∧ ps.Nodup ∧ ∀ p ∈ ps, p < m}) ∧
    ∀ s : Raffle F, Run self s → ∀ id, (s.payoutsFor id).length ≤ 1 := by
  refine ⟨fun onReceived s requestId words => ?_, fun m j => ?_, fun s h => h.paidOnce.once⟩
  · unfold PaysDraw
    dsimp only
    split_ifs with hfulfilled
    · exact fulfillRandomWords_fulfilled hfulfilled
    · rw [Bool.not_eq_true] at hfulfilled
      refine ⟨_, isDraw_sample _ words, fulfillRandomWords_eq hfulfilled, fun s' hcall => ?_⟩
      rw [fulfillRandomWords_eq hfulfilled, bind_eq_ok] at hcall
      obtain ⟨world, hfold, hcall⟩ := hcall
      rw [pure_eq_ok] at hcall
      subst hcall
      exact transfers_of_foldlM hfold
  · have hbij := bijOn_sample (List.nodup_range (n := m)) j
    simp only [List.length_range, List.mem_range] at hbij
    exact hbij

/-- The consumer at 30 is a transferrer of the reward pool at 1002, whose pool at 1004 has redeem tokens
for two cards. -/
def staged : World ListSet :=
  (World.after (fun _ _ => True) [
    World.opening .CustomERC20,
    World.poolCall 1 (.depositAssets 6 (World.nativeBoxes [⟨1, .NativeToken, 2, 3⟩])),
    .call ⟨1, .rewardPool 1002 (.addTransferrers [30])⟩]).state

def blank : RebelRunVRFConsumer := ⟨0, 0, 0, fun _ => ⟨false, []⟩, fun _ => false, 0, 0⟩

/-- The consumer has been deployed by the account 8, and its coordinator is 9. -/
def deployed : Raffle ListSet where
  world := staged
  consumer := (RebelRunVRFConsumer.create staged 8 1002 1 9).toOption.getD blank
  requested := []
  payouts := []

/-- There are three addresses, and two words. -/
def threeAddresses : Raffle ListSet :=
  (deployed.call 30 (fun w _ => .ok w) 8 (.requestRandomWords [40, 41, 42] 7)).toOption.getD deployed

def twoWinners : Raffle ListSet :=
  (threeAddresses.call 30 (fun w _ => .ok w) 9 (.rawFulfillRandomWords 7 [5, 3])).toOption.getD
    threeAddresses

theorem run_twoWinners : Run 30 twoWinners := by
  have hinitial : deployed.Initial :=
    ⟨⟨8, 1002, 1, 9, eq_ok_of_isSome (a := blank) (by decide)⟩, rfl, rfl⟩
  have hrequest : Step 30 deployed threeAddresses :=
    .call (fun w _ => .ok w) 8 (.requestRandomWords [40, 41, 42] 7) (fun _ _ _ => List.not_mem_nil)
      (eq_ok_of_isSome (by decide))
  have hcallback : Step 30 threeAddresses twoWinners :=
    .call (fun w _ => .ok w) 9 (.rawFulfillRandomWords 7 [5, 3]) nofun
      (eq_ok_of_isSome (by decide))
  exact ⟨deployed, hinitial, .tail (.single hrequest) hcallback⟩

/-- What the accounts have of the redeem token of the pool. -/
def redeemBalances (s : Raffle ListSet) : List Nat :=
  [1004, 40, 41, 42].map fun a => (s.world.tokens.erc20 1003).elim 0 fun tok => tok.balanceOf a

theorem raffle_is_fair_threeAddresses :
    PaysDraw 30 (fun w _ => .ok w) threeAddresses 7 [5, 3] ∧
    twoWinners.payouts = [(7, [42, 41])] ∧ (twoWinners.payoutsFor 7).length ≤ 1 ∧
    threeAddresses.redeemBalances = [10, 0, 0, 0] ∧ twoWinners.redeemBalances = [0, 0, 5, 5] :=
  ⟨(raffle_is_fair 30).1 _ threeAddresses 7 [5, 3], by decide,
    (raffle_is_fair 30).2.2 twoWinners run_twoWinners 7, by decide, by decide⟩

end Raffle

end Redeemy
