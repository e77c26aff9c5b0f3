import Redeemy.Proof.Payments
import Redeemy.Proof.Solvency

/-!
# One payment, one card

With a wrapper that delivers each request once, a request is made for one price, paid by one user on
one asset pool, and its callback releases one card of that pool to that user.
-/

namespace Redeemy

open Fallible EnumerableSet

variable {F : Type → Type}
variable {w w' : World F} {pool : AssetPoolV1 F} {rp : RewardPoolV1 F} {t t' : Tokens}
variable {a p self sender receiver trailing k : Address} {call : Call} {c : Charge}
variable {n id requestId : Nat} {requestIds words : List Nat}
variable {cfg : CallStack.Config (World F) Call}

/-! ### Charges -/

/-- The price `c.amount` is taken from `c.user` and from nobody else, and no other token contract
changes. -/
inductive Taken (rp : RewardPoolV1 F) (poolId : Nat) (c : Charge) (t : Tokens) : Tokens → Prop where
  | moved {tok tok' : ERC20} (hmethod : rp.redeemMethod = .ExistingERC20)
      (htok : t.erc20 rp.redeemTokenContractAddress = some tok)
      (hbalance : c.amount ≤ tok.balanceOf c.user) (hsink : c.sink = some rp.withdrawAddress)
      (hmove : tok'.balanceOf = Ledger.move tok.balanceOf c.user rp.withdrawAddress c.amount) :
      Taken rp poolId c t (t.setERC20 rp.redeemTokenContractAddress tok')
  | burned {tok : ERC20} (hmethod : rp.redeemMethod = .CustomERC20)
      (htok : t.erc20 rp.redeemTokenContractAddress = some tok)
      (hbalance : c.amount ≤ tok.balanceOf c.user) (hsink : c.sink = none) :
      Taken rp poolId c t (t.setERC20 rp.redeemTokenContractAddress { tok with
        totalSupply := tok.totalSupply - c.amount
        balanceOf := Ledger.debit tok.balanceOf c.user c.amount })
  | burned1155 {tok : ERC1155} (hmethod : rp.redeemMethod = .CustomERC1155)
      (htok : t.erc1155 rp.redeemTokenContractAddress = some tok)
      (hbalance : c.amount ≤ tok.balances poolId c.user) (hsink : c.sink = none) :
      Taken rp poolId c t (t.setERC1155 rp.redeemTokenContractAddress { tok with
        balances := Function.update tok.balances poolId
          (Ledger.debit (tok.balances poolId) c.user c.amount) })

variable [EnumerableSet F]

/-- A payment takes the price, if an ERC20 that is not the system's own moves what it is asked to. -/
theorem taken_takePayment {sink : Option Address}
    (hmoving : rp.redeemMethod = .ExistingERC20 → w.tokens.Moving rp.redeemTokenContractAddress)
    (h : w.takePayment self rp pool c.user c.amount = .ok (t', sink)) (hsink : c.sink = sink) :
    Taken rp pool.id c w.tokens t' := by
  rcases takePayment_cases h with
    ⟨hm, rfl, answer, _, hcall⟩ | ⟨hm, rfl, hburn⟩ | ⟨hm, rfl, hburn⟩
  · have hanswer := ((hmoving hm).call (fun _ _ => Tokens.answers_transferFrom) hcall).2 rfl
    obtain ⟨tok, tok', htok, _, rfl, ⟨_, htransfer⟩ | ⟨hstays, _⟩⟩ := Tokens.erc20Call_eq_ok hcall
    · obtain ⟨_, hbalance, _, _, rfl⟩ := ERC20.transferFrom_eq_ok htransfer
      exact .moved hm htok hbalance hsink rfl
    · rw [hanswer] at hstays
      cases hstays
  · obtain ⟨tok, _, _, htok, _, _, htokBurn, rfl⟩ := Tokens.erc20Burn_eq_ok hburn
    obtain ⟨hbalance, rfl⟩ := ERC20.burn_eq_ok htokBurn
    exact .burned hm htok hbalance hsink
  · obtain ⟨tok, htok, _, hbalance, rfl⟩ := Tokens.erc1155Burn_eq_ok hburn
    exact .burned1155 hm htok hbalance hsink

/-- The call is a redemption on the pool `c.pool` that makes the requests `c.ids`, for the price of one
card each, paid by the sender or by the user the trusted forwarder names. -/
inductive ChargeMade (w : World F) (call : Call) (c : Charge) (w' : World F) : Prop where
  | mk {trailing : Address} {pool : AssetPoolV1 F} {rp : RewardPoolV1 F}
      (hcall : call.action = .assetPool c.pool (.redeemAsset trailing c.ids.length c.ids))
      (hpool : w.assetPools c.pool = some pool) (hrp : w.rewardPools pool.rewardPool = some rp)
      (huser : c.user = World.msgSender pool call.sender trailing)
      (hamount : c.amount = pool.redeemTokenAmount * c.ids.length)
      (hfresh : c.ids.Nodup ∧ ∀ id ∈ c.ids, id ∉ w.vrf.issued)
      (hissued : w'.vrf.issued = c.ids.reverse ++ w.vrf.issued)
      (hcharges : w'.charges = c :: w.charges)
      (htaken : (rp.redeemMethod = .ExistingERC20 →
        w.tokens.Moving rp.redeemTokenContractAddress) → Taken rp pool.id c w.tokens w'.tokens) :
      ChargeMade w call c w'

theorem Redeem.chargeMade
    (hcall : call.action = .assetPool self (.redeemAsset trailing n requestIds))
    (h : Redeem w self call.sender trailing n requestIds w') : ∃ c, ChargeMade w call c w' := by
  cases h with
  | @mk pool rp tokens sink w₁ hpool hrp _ _ _ _ hpay hlen hrequests =>
    have hrequested := hrequests.requested
    obtain ⟨_, _, _, hframe⟩ := hrequests.frame
    subst hlen
    have hissued : w₁.vrf.issued = requestIds.reverse ++ w.vrf.issued := hrequested.issued
    refine ⟨⟨self, World.msgSender pool call.sender trailing, pool.redeemTokenAmount,
      pool.redeemTokenAmount * requestIds.length, sink, requestIds⟩, .mk hcall hpool hrp rfl rfl
      ⟨hrequested.nodup, hrequested.fresh⟩ hissued ?_ fun hmoving => ?_⟩
    · rw [hframe]
      rfl
    · rw [hframe]
      exact taken_takePayment hmoving hpay rfl

/-! ### Cards -/

/-- The callback releases one card of the pool `c.pool` to `c.user`. The request was unfulfilled and
no longer is. -/
inductive CardReleased (w : World F) (id : Nat) (c : Charge) (w' : World F) : Prop where
  | mk {pool pool' : AssetPoolV1 F} {card : Card}
      (hpool : w.assetPools c.pool = some pool) (hpool' : w'.assetPools c.pool = some pool')
      (hstock : pool.stock = pool'.stock +
        Pi.single (card.assetType, card.contractAddress) {card.box.amountOrTokenId})
      (hpay : w.payCard c.pool c.user id card = .ok w'.tokens)
      (hothers : ∀ q, q ≠ c.pool → w'.assetPools q = w.assetPools q)
      (hbefore : (id, c.pool) ∈ w.unfulfilled)
      (hafter : id ∉ w'.unfulfilled.map Prod.fst) : CardReleased w id c w'

theorem Fulfill.cardReleased (hs : Sane w) (ht : Tracked w) (hm : Matched w)
    (hid : requestId ∈ w.unfulfilled.map Prod.fst) (h : Fulfill w k sender requestId words w') :
    ∃ c ∈ w.charges, requestId ∈ c.ids ∧ CardReleased w requestId c w' := by
  cases h with
  | @mk consumer p receiver pool pool' rp card tokens hconsumer _ hrequest hpool _ _ hdraw hpay =>
    have hmem := hm.mem_unfulfilled hs hconsumer hpool hrequest hid
    obtain ⟨c, hc, hcid, rfl, rfl⟩ := hm.charge hs hconsumer hpool hrequest
    refine ⟨c, hc, hcid, .mk hpool (by simp [World.setPool]) (drawCard_eq_ok hdraw).stock_eq hpay
      (fun q hq => by simp [World.setPool, World.forget, hq]) hmem fun hafter => ?_⟩
    obtain ⟨⟨_, q⟩, hq, rfl⟩ := List.mem_map.mp hafter
    exact fst_ne_of_mem_erase ht.nodup hmem hq rfl

/-! ### The claim about every run -/

/-- What holds in every state of a run in which the wrapper delivers each request once. -/
structure OnePaymentOneCard (w : World F) : Prop where
  /-- each request belongs to one charge -/
  requests : (w.charges.flatMap Charge.ids).Perm w.vrf.issued ∧ w.vrf.issued.Nodup
  /-- requests come from redemptions that are paid for -/
  charged : ∀ call w', w.CanCall call → w.enter call = .ok w' →
    (w'.vrf.issued = w.vrf.issued ∧ w'.charges = w.charges) ∨ ∃ c, ChargeMade w call c w'
  /-- a callback releases a card of the pool that was paid to the user who paid -/
  released : ∀ call k id words w', w.CanCall call → w.OnceOnly call →
    call.action = .consumer k (.rawFulfillRandomWords id words) → w.enter call = .ok w' →
    ∃ c ∈ w.charges, id ∈ c.ids ∧ CardReleased w id c w'
  /-- there is no other way to `fulfillRedeemAsset` -/
  outsiders : ∀ call p id receiver words w', w.CanCall call →
    call.action = .assetPool p (.fulfillRedeemAsset id receiver words) → w.enter call ≠ .ok w'
  /-- the rest of a call that has handed over control makes no request and pays no card -/
  rest : ∀ call w', call.sender ≠ 0 → w.leave call = .ok w' → w'.vrf.issued = w.vrf.issued ∧
    w'.charges = w.charges ∧ w'.tokens.log = w.tokens.log
  /-- what was paid out was charged for, and was paid to the user who paid, out of the pool paid -/
  paid : ∀ m ∈ w.tokens.log, ∀ id, m.cause = .fulfill id →
    ∃ c ∈ w.charges, id ∈ c.ids ∧ m.pool = c.pool ∧ m.party = c.user
  once : ∀ id, w.payouts id ≤ 1

theorem kept_delivery : Kept (fun w call => w.OnceOnly call)
    (fun w : World F => ((Sane w ∧ Tracked w) ∧ Matched w) ∧ Once w) :=
  (kept_tracked.rule (fun _ h => h.1) (matched_rule fun _ h => h.1)).rule (fun _ h => h.1.1)
    (once_rule (fun _ h => ⟨h.1.1, h.2⟩) fun w call k requestId words w' hJ honce hcall h => by
      obtain ⟨_, _, hmem⟩ := hJ.1.2.owed requestId k (h.owed hJ.1.1.wired hcall honce)
      exact List.mem_map_of_mem hmem)

/-- For the calls that make no request. -/
theorem Quiet.noRequest (h : Quiet w w') :
    w'.vrf.issued = w.vrf.issued ∧ w'.charges = w.charges := by
  rw [h.vrf]
  exact ⟨rfl, h.charges⟩

theorem charged_of_enter (hs : Sane w) (hcan : w.CanCall call) (h : w.enter call = .ok w') :
    (w'.vrf.issued = w.vrf.issued ∧ w'.charges = w.charges) ∨ ∃ c, ChargeMade w call c w' := by
  rcases enter_eq_ok hs.wired hcan h with ⟨hquiet, _⟩ | hchange
  · exact .inl hquiet.noRequest
  · cases hchange with
    | setPrice => exact .inl ⟨rfl, rfl⟩
    | handOut => exact .inl ⟨rfl, rfl⟩
    | deposit self value assets _ h =>
      cases h
      exact .inl ⟨rfl, rfl⟩
    | withdraw self assets _ h =>
      cases h
      exact .inl ⟨rfl, rfl⟩
    | redeem self trailing n requestIds hcall _ h => exact .inr (h.chargeMade hcall)
    | fulfill k requestId words _ h =>
      cases h
      exact .inl ⟨rfl, rfl⟩

theorem fulfill_of_enter (hcall : call.action = .consumer k (.rawFulfillRandomWords requestId words))
    (h : w.enter call = .ok w') : Fulfill w k call.sender requestId words w' := by
  unfold World.enter at h
  rw [hcall] at h
  exact rawFulfillRandomWords_eq_ok h

/-- In every run of redemptions, callbacks and all other calls, in whatever order, one payment buys one
card for the one who paid, from the pool that was paid. -/
theorem one_payment_one_card (h : World.Run World.OnceOnly cfg) : OnePaymentOneCard cfg.state := by
  obtain ⟨⟨⟨hs, ht⟩, hm⟩, honce⟩ := kept_delivery.run h
  exact {
    requests := ⟨hm.ids, hm.nodup⟩
    charged := fun call w' hcan henter => charged_of_enter hs hcan henter
    released := fun call k id words w' _ hdelivered hcall henter => by
      have hfulfill := fulfill_of_enter hcall henter
      obtain ⟨_, _, hmem⟩ := ht.owed id k (hfulfill.owed hs.wired hcall hdelivered)
      exact hfulfill.cardReleased hs ht hm (List.mem_map_of_mem hmem)
    outsiders := fun call p id receiver words w' hcan hcall henter => by
      unfold World.enter at henter
      simp only [hcall, World.assetPoolCall, bind_eq_ok] at henter
      obtain ⟨_, hfulfill, _⟩ := henter
      exact fulfillRedeemAsset_ne_ok hs.wired hcan.2.1 hcan.1 hfulfill
    rest := fun call w' h0 hleave => by
      obtain ⟨hquiet, _⟩ := leave_eq_ok hs.wired h0 hleave
      exact ⟨hquiet.noRequest.1, hquiet.charges, hquiet.log⟩
    paid := hm.paid
    once := fun id => (Nat.le_add_right _ _).trans (honce id) }

/-- Accounts 5 and 6 have redeemed a card each, and the later request is called back first. -/
def laterFirst : CallStack.Config (World ListSet) Call :=
  World.after World.OnceOnly (oneRedeemed ++ [
    World.poolCall 1 (.transferRedeemTokenNumber 6 1),
    World.poolCall 6 (.redeemAsset 0 1 [78])] ++ callback 78)

theorem one_payment_one_card_laterFirst :
    laterFirst.state.vrf.issued = [78, 77] ∧
      laterFirst.state.tokens.log.head? = some ⟨.fulfill 78, 1004, .NativeToken, 1004, 6, 2⟩ ∧
      OnePaymentOneCard laterFirst.state :=
  ⟨by decide, by decide, one_payment_one_card (World.run_after World.OnceOnly _)⟩

end Redeemy
