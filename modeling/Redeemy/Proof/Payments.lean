import Redeemy.Proof.Record
import Redeemy.Proof.Requests

/-!
# Payments and cards

Every request belongs to one charge, of one user for one pool. What the consumers know of a request
is what was charged for it, so its callback pays a card of that pool to that user. A callback that
comes twice would pay two cards; one that comes for no request pays none.
-/

namespace Redeemy

open Fallible EnumerableSet

variable {F : Type → Type} [EnumerableSet F]
variable {w w' : World F} {pool : AssetPoolV1 F} {rp : RewardPoolV1 F} {t t' : Tokens}
variable {a p self sender receiver trailing k : Address} {call : Call} {c c' : Charge}
variable {n id requestId : Nat} {requestIds words : List Nat}
variable {P : World F → Call → Prop} {J : World F → Prop} {Q : Movement → Prop}
variable {cfg : CallStack.Config (World F) Call}

/-! ### What a consumer knows -/

/-- A redemption tells the consumers of its own requests only. -/
theorem RequestSteps.known (h : RequestSteps a p receiver requestIds w w')
    {consumer' : RewardVRFConsumerV1} (hk : w'.consumers k = some consumer') :
    (id ∈ requestIds ∧ consumer'.requestIds id = ⟨p, receiver⟩) ∨
      ∃ consumer, w.consumers k = some consumer ∧
        consumer.requestIds id = consumer'.requestIds id := by
  induction h with
  | nil w => exact .inr ⟨consumer', hk, rfl⟩
  | @cons w w₁ w₂ requestId requestIds hfirst hrest ih =>
    rcases ih hk with ⟨hid, hrequest⟩ | ⟨consumer₁, hconsumer₁, hsame⟩
    · exact .inl ⟨List.mem_cons_of_mem _ hid, hrequest⟩
    · cases hfirst with
      | @mk rp k₁ consumer _ _ _ hconsumer =>
        by_cases hkk : k = k₁
        · subst hkk
          simp only [Function.update_self, Option.some.injEq] at hconsumer₁
          subst hconsumer₁
          by_cases hid : id = requestId
          · subst hid
            simp only [Function.update_self] at hsame
            exact .inl ⟨List.mem_cons_self, hsame.symm⟩
          · simp only [Function.update_of_ne hid] at hsame
            exact .inr ⟨consumer, hconsumer, hsame⟩
        · simp only [Function.update_of_ne hkk] at hconsumer₁
          exact .inr ⟨consumer₁, hconsumer₁, hsame⟩

/-- Requests, charges and payments belong together. -/
structure Matched (w : World F) : Prop where
  ids : (w.charges.flatMap Charge.ids).Perm w.vrf.issued
  nodup : w.vrf.issued.Nodup
  amount : ∀ c ∈ w.charges, c.amount = c.redeemTokenAmount * c.ids.length
  known : ∀ k consumer id, w.consumers k = some consumer → consumer.requestIds id ≠ ⟨0, 0⟩ →
    ∃ c ∈ w.charges, id ∈ c.ids ∧ consumer.requestIds id = ⟨c.pool, c.user⟩
  unfulfilled : ∀ id p, (id, p) ∈ w.unfulfilled → ∃ c ∈ w.charges, id ∈ c.ids ∧ c.pool = p
  paid : ∀ m ∈ w.tokens.log, ∀ id, m.cause = .fulfill id →
    ∃ c ∈ w.charges, id ∈ c.ids ∧ m.pool = c.pool ∧ m.party = c.user

omit [EnumerableSet F] in
/-- A request belongs to one charge. -/
theorem Matched.unique (hw : Matched w) (hc : c ∈ w.charges) (hid : id ∈ c.ids)
    (hc' : c' ∈ w.charges) (hid' : id ∈ c'.ids) : c = c' := by
  by_contra hne
  have hdisjoint := (List.nodup_flatMap.mp ((hw.ids.nodup_iff).mpr hw.nodup)).2
  have : Std.Symm (Function.onFun List.Disjoint Charge.ids) := ⟨fun _ _ h => h.symm⟩
  exact hdisjoint.forall hc hc' hne hid hid'

omit [EnumerableSet F] in
theorem Matched.issued (hw : Matched w) (hc : c ∈ w.charges) (hid : id ∈ c.ids) :
    id ∈ w.vrf.issued :=
  hw.ids.mem_iff.mp (List.mem_flatMap.mpr ⟨c, hc, hid⟩)

/-- What a callback finds is what was charged. -/
theorem Matched.charge (hs : Sane w) (hw : Matched w) {consumer : RewardVRFConsumerV1}
    (hconsumer : w.consumers k = some consumer) (hpool : w.assetPools p = some pool)
    (hrequest : consumer.requestIds id = ⟨p, receiver⟩) :
    ∃ c ∈ w.charges, id ∈ c.ids ∧ c.pool = p ∧ c.user = receiver := by
  have hp : p ≠ 0 := (hs.wired.system p
    (hs.wired.assetPool p pool.info (Option.map_eq_some_iff.mpr ⟨pool, hpool, rfl⟩)).1).1
  have hne : consumer.requestIds id ≠ ⟨0, 0⟩ := by
    rw [hrequest]
    exact fun heq => hp (congrArg Request.assetPool heq)
  obtain ⟨c, hc, hid, heq⟩ := hw.known k consumer id hconsumer hne
  rw [hrequest, Request.mk.injEq] at heq
  exact ⟨c, hc, hid, heq.1.symm, heq.2.symm⟩

/-! ### The invariant -/

/-- Not the payment of a card. -/
def Movement.NoPayout (m : Movement) : Prop := ∀ id, m.cause ≠ .fulfill id

theorem Movement.By.noPayout {m : Movement} {cause : Cause} (h : m.By p cause)
    (hcause : ∀ id, cause ≠ .fulfill id) : m.NoPayout := by
  intro id
  rw [h.2]
  exact hcause id

theorem Deposit.noPayout {value : Nat} {assets : Assets} (h : Deposit w self sender value assets w') :
    w.tokens.Logs Movement.NoPayout w'.tokens :=
  h.logs.mono fun m hm => hm.1.noPayout (by simp)

theorem Withdraw.noPayout {assets : Assets} (h : Withdraw w self sender assets w') :
    w.tokens.Logs Movement.NoPayout w'.tokens :=
  h.logs.mono fun m hm => hm.noPayout (by simp)

omit [EnumerableSet F] in
/-- Steps that make no request and pay no card. -/
theorem Matched.of_same (hw : Matched w) (hvrf : w'.vrf.issued = w.vrf.issued)
    (hunfulfilled : ∀ r ∈ w'.unfulfilled, r ∈ w.unfulfilled) (hcharges : w'.charges = w.charges)
    (hconsumers : ∀ k consumer id, w'.consumers k = some consumer →
      consumer.requestIds id ≠ ⟨0, 0⟩ → w.consumers k = some consumer)
    (hlog : w.tokens.Logs Movement.NoPayout w'.tokens) : Matched w' where
  ids := by
    rw [hcharges, hvrf]
    exact hw.ids
  nodup := by
    rw [hvrf]
    exact hw.nodup
  amount := by
    rw [hcharges]
    exact hw.amount
  known := by
    rw [hcharges]
    intro k consumer id hk hne
    exact hw.known k consumer id (hconsumers k consumer id hk hne) hne
  unfulfilled := by
    rw [hcharges]
    intro id p hid
    exact hw.unfulfilled id p (hunfulfilled _ hid)
  paid := by
    rw [hcharges]
    intro m hm id hcause
    obtain ⟨l, hl, hQ⟩ := hlog
    rw [hl] at hm
    rcases List.mem_append.mp hm with hm | hm
    · exact absurd hcause (hQ m hm id)
    · exact hw.paid m hm id hcause

theorem Matched.quiet (hw : Matched w) (h : Quiet w w') : Matched w' := by
  refine hw.of_same (by rw [h.vrf]) (by rw [h.unfulfilled]; exact fun _ => id) h.charges ?_
    (Tokens.logs_of_eq h.log)
  intro k consumer id hk hne
  cases hold : w.consumers k with
  | none => exact absurd (h.unused k consumer hold hk id) hne
  | some consumer₁ => exact hk ▸ (h.consumers k consumer₁ hold).symm ▸ rfl

/-- A redemption adds a charge with its requests. -/
theorem Matched.redeem (hw : Matched w) (h : Redeem w self sender trailing n requestIds w') :
    Matched w' := by
  have hlog := h.log_eq
  cases h with
  | @mk pool _ tokens sink w₁ hpool _ _ _ _ _ _ hlen hrequests =>
    have hcharges : w₁.charges = w.charges := by
      obtain ⟨_, _, _, rfl⟩ := hrequests.frame
      rfl
    have hrequested := hrequests.requested
    have hissued : w₁.vrf.issued = requestIds.reverse ++ w.vrf.issued := hrequested.issued
    exact {
      ids := by
        show (requestIds ++ w₁.charges.flatMap Charge.ids).Perm w₁.vrf.issued
        rw [hcharges, hissued]
        exact (List.reverse_perm requestIds).symm.append hw.ids
      nodup := by
        show w₁.vrf.issued.Nodup
        rw [hissued]
        refine List.nodup_append'.mpr ⟨List.nodup_reverse.mpr hrequested.nodup, hw.nodup, ?_⟩
        exact fun id hid hid' => hrequested.fresh id (List.mem_reverse.mp hid) hid'
      amount := by
        rw [hcharges]
        intro c hc
        rcases List.mem_cons.mp hc with rfl | hc
        · exact hlen ▸ rfl
        · exact hw.amount c hc
      known := by
        rw [hcharges]
        intro k consumer' id hk hne
        rcases hrequests.known hk with ⟨hid, hrequest⟩ | ⟨consumer, hconsumer, hsame⟩
        · exact ⟨_, List.mem_cons_self, hid, hrequest⟩
        · rw [← hsame] at hne ⊢
          obtain ⟨c, hc, hrest⟩ := hw.known k consumer id hconsumer hne
          exact ⟨c, List.mem_cons_of_mem _ hc, hrest⟩
      unfulfilled := by
        rw [hcharges]
        intro id p hid
        have hunfulfilled : w₁.unfulfilled =
            (requestIds.map fun id => (id, self)).reverse ++ w.unfulfilled := hrequested.unfulfilled
        rw [hunfulfilled, List.mem_append, List.mem_reverse] at hid
        rcases hid with hid | hid
        · obtain ⟨id', hid', heq⟩ := List.mem_map.mp hid
          cases heq
          exact ⟨_, List.mem_cons_self, hid', rfl⟩
        · obtain ⟨c, hc, hrest⟩ := hw.unfulfilled id p hid
          exact ⟨c, List.mem_cons_of_mem _ hc, hrest⟩
      paid := by
        rw [hcharges, hlog]
        intro m hm id hcause
        obtain ⟨c, hc, hrest⟩ := hw.paid m hm id hcause
        exact ⟨c, List.mem_cons_of_mem _ hc, hrest⟩ }

/-- A callback pays what its request was charged for. -/
theorem Matched.fulfill (hs : Sane w) (hw : Matched w) (h : Fulfill w k sender requestId words w') :
    Matched w' := by
  cases h with
  | @mk consumer p receiver pool pool' rp card tokens hconsumer _ hrequest hpool _ _ _ hpay =>
    exact { hw with
      unfulfilled := fun id q hid => hw.unfulfilled id q (List.mem_of_mem_erase hid)
      paid := fun m hm id hcause => by
        obtain ⟨l, hl, hQ⟩ := logs_payCard hpay
        rw [show tokens.log = _ from hl] at hm
        rcases List.mem_append.mp hm with hm | hm
        · obtain ⟨⟨hp, hfulfill⟩, hparty⟩ := hQ m hm
          rw [hfulfill, Cause.fulfill.injEq] at hcause
          subst hcause
          obtain ⟨c, hc, hid, hcp, huser⟩ := hw.charge hs hconsumer hpool hrequest
          exact ⟨c, hc, hid, hp.trans hcp.symm, hparty.trans huser.symm⟩
        · exact hw.paid m hm id hcause }

theorem matched_rule (hJ : ∀ w, J w → Sane w) : Rule P J (Matched : World F → Prop) where
  initial := fun w hw => by
    refine ⟨?_, ?_, ?_, ?_, ?_, ?_⟩ <;>
      simp [hw.charges, hw.vrf, hw.consumers, hw.unfulfilled, hw.log]
  quiet := fun w w' _ hw h => hw.quiet h
  change := fun w call w' hj hw _ _ h => by
    cases h with
    | setPrice => exact hw.of_same rfl (fun _ => id) rfl (fun _ _ _ h _ => h) (Tokens.logs_of_eq rfl)
    | handOut self dst amount _ _ htransfer =>
      exact hw.of_same rfl (fun _ => id) rfl (fun _ _ _ h _ => h)
        (Tokens.logs_of_eq (Tokens.silent_transferRedeemToken htransfer).log)
    | deposit self value assets _ h =>
      have hlogs := h.noPayout
      cases h with
      | mk => exact hw.of_same rfl (fun _ => id) rfl (fun _ _ _ h _ => h) hlogs
    | withdraw self assets _ h =>
      have hlogs := h.noPayout
      cases h with
      | mk => exact hw.of_same rfl (fun _ => id) rfl (fun _ _ _ h _ => h) hlogs
    | redeem self trailing n requestIds _ _ h => exact hw.redeem h
    | fulfill k requestId words _ h => exact hw.fulfill (hJ w hj) h
  forget := fun w requestId k _ hw =>
    hw.of_same rfl (fun _ => id) rfl (fun _ _ _ h _ => h) (Tokens.logs_of_eq rfl)

/-! ### At most one payment -/

/-- The cards paid for a request. -/
def World.payouts (w : World F) (id : Nat) : Nat :=
  w.tokens.log.countP fun m => m.cause = .fulfill id

section

omit [EnumerableSet F]

theorem payouts_eq_of_logs (h : w.tokens.Logs Movement.NoPayout w'.tokens) (id : Nat) :
    w'.payouts id = w.payouts id := by
  obtain ⟨l, hl, hQ⟩ := h
  unfold World.payouts
  rw [hl, List.countP_append, List.countP_eq_zero.mpr, Nat.zero_add]
  intro m hm
  simpa using hQ m hm id

/-- What is paid was requested. -/
theorem Matched.payouts_eq_zero (hw : Matched w) (hid : id ∉ w.vrf.issued) : w.payouts id = 0 := by
  refine List.countP_eq_zero.mpr fun m hm => ?_
  simp only [decide_eq_true_eq]
  intro hcause
  obtain ⟨c, hc, hmem, _⟩ := hw.paid m hm id hcause
  exact hid (hw.issued hc hmem)

theorem Matched.count_eq_zero (hw : Matched w) (hid : id ∉ w.vrf.issued) :
    (w.unfulfilled.map Prod.fst).count id = 0 := by
  refine List.count_eq_zero.mpr fun hmem => ?_
  obtain ⟨⟨_, p⟩, hp, rfl⟩ := List.mem_map.mp hmem
  obtain ⟨c, hc, hid', _⟩ := hw.unfulfilled _ p hp
  exact hid (hw.issued hc hid')

end

/-- A request was paid once, or it is unfulfilled, or neither. -/
def Once (w : World F) : Prop :=
  ∀ id, w.payouts id + (w.unfulfilled.map Prod.fst).count id ≤ 1

omit [EnumerableSet F] in
theorem Once.of_same (hw : Once w) (hunfulfilled : w'.unfulfilled = w.unfulfilled)
    (hlog : w.tokens.Logs Movement.NoPayout w'.tokens) : Once w' := by
  intro id
  rw [payouts_eq_of_logs hlog, hunfulfilled]
  exact hw id

/-- The requests of a redemption are new, and differ from one another. -/
theorem Once.redeem (hm : Matched w) (hw : Once w)
    (h : Redeem w self sender trailing n requestIds w') : Once w' := by
  have hlog := h.log_eq
  cases h with
  | @mk pool _ tokens sink w₁ hpool _ _ _ _ _ _ _ hrequests =>
    have hrequested := hrequests.requested
    have hunfulfilled : w₁.unfulfilled =
        (requestIds.map fun id => (id, self)).reverse ++ w.unfulfilled := hrequested.unfulfilled
    intro id
    have hpayouts := payouts_eq_of_logs (Tokens.logs_of_eq hlog) id
    have hcount : (w₁.unfulfilled.map Prod.fst).count id =
        requestIds.count id + (w.unfulfilled.map Prod.fst).count id := by
      rw [hunfulfilled, List.map_append, List.map_reverse, List.map_map, List.count_append,
        List.count_reverse]
      simp [Function.comp_def]
    rw [hpayouts]
    show _ + (w₁.unfulfilled.map Prod.fst).count id ≤ 1
    by_cases hid : id ∈ requestIds
    · have hfresh : id ∉ w.vrf.issued := hrequested.fresh id hid
      have hnew : requestIds.count id ≤ 1 := List.nodup_iff_count_le_one.mp hrequested.nodup id
      have hpaid := hm.payouts_eq_zero hfresh
      have hold := hm.count_eq_zero hfresh
      omega
    · have hnone := List.count_eq_zero_of_not_mem hid
      have hold := hw id
      omega

/-- The request a callback fulfils is of the pool that pays, if it is unfulfilled at all. -/
theorem Matched.mem_unfulfilled (hs : Sane w) (hm : Matched w) {consumer : RewardVRFConsumerV1}
    (hconsumer : w.consumers k = some consumer) (hpool : w.assetPools p = some pool)
    (hrequest : consumer.requestIds id = ⟨p, receiver⟩)
    (hid : id ∈ w.unfulfilled.map Prod.fst) : (id, p) ∈ w.unfulfilled := by
  obtain ⟨⟨_, q⟩, hq, rfl⟩ := List.mem_map.mp hid
  obtain ⟨c, hc, hmem, hcq⟩ := hm.unfulfilled _ q hq
  obtain ⟨c', hc', hmem', hcp, _⟩ := hm.charge hs hconsumer hpool hrequest
  have heq : c = c' := hm.unique hc hmem hc' hmem'
  rwa [← hcp, ← heq, hcq]

/-- A callback that fulfils an unfulfilled request pays at most one card for it. -/
theorem Once.fulfill (hs : Sane w) (hm : Matched w) (hw : Once w)
    (hid : requestId ∈ w.unfulfilled.map Prod.fst) (h : Fulfill w k sender requestId words w') :
    Once w' := by
  cases h with
  | @mk consumer p receiver pool pool' rp card tokens hconsumer _ hrequest hpool _ _ _ hpay =>
    have hmem := hm.mem_unfulfilled hs hconsumer hpool hrequest hid
    intro id
    have hperm := ((List.perm_cons_erase hmem).map Prod.fst).count_eq id
    rw [List.map_cons, List.count_cons] at hperm
    have hpaid : tokens.log.countP (fun m => m.cause = .fulfill id) ≤
        w.payouts id + if requestId = id then 1 else 0 := by
      rcases payCard_log hpay with hlog | hlog
      · rw [hlog]
        exact Nat.le_add_right _ _
      · rw [hlog, List.countP_cons]
        simp [World.payouts]
    have hold := hw id
    show tokens.log.countP (fun m => m.cause = .fulfill id) +
      ((w.unfulfilled.erase (requestId, p)).map Prod.fst).count id ≤ 1
    simp only [beq_iff_eq] at hperm
    omega

/-- The rule for runs in which a callback succeeds only for an unfulfilled request. -/
theorem once_rule (hJ : ∀ w, J w → Sane w ∧ Matched w)
    (honly : ∀ w call k requestId words w', J w → P w call →
      call.action = .consumer k (.rawFulfillRandomWords requestId words) →
      Fulfill w k call.sender requestId words w' → requestId ∈ w.unfulfilled.map Prod.fst) :
    Rule P J (Once : World F → Prop) where
  initial := fun w hw id => by simp [World.payouts, hw.log, hw.unfulfilled]
  quiet := fun w w' _ hw h => hw.of_same h.unfulfilled (Tokens.logs_of_eq h.log)
  change := fun w call w' hj hw _ hP h => by
    obtain ⟨hs, hm⟩ := hJ w hj
    cases h with
    | setPrice => exact hw.of_same rfl (Tokens.logs_of_eq rfl)
    | handOut self dst amount _ _ htransfer =>
      exact hw.of_same rfl (Tokens.logs_of_eq (Tokens.silent_transferRedeemToken htransfer).log)
    | deposit self value assets _ h =>
      have hlogs := h.noPayout
      cases h with
      | mk => exact hw.of_same rfl hlogs
    | withdraw self assets _ h =>
      have hlogs := h.noPayout
      cases h with
      | mk => exact hw.of_same rfl hlogs
    | redeem self trailing n requestIds _ _ h => exact hw.redeem hm h
    | fulfill k requestId words hcall h =>
      exact hw.fulfill hs hm (honly w call k requestId words w' hj hP hcall h) h
  forget := fun w requestId k _ hw => hw

/-! ### Callbacks that repeat a request -/

theorem kept_matched : Kept P (fun w : World F => Sane w ∧ Matched w) :=
  kept_sane.rule (fun _ => id) (matched_rule fun _ => id)

/-- No card is paid for what was never requested, whatever the wrapper does. -/
theorem never_requested_never_paid (h : World.Run P cfg) (hid : id ∉ cfg.state.vrf.issued) :
    cfg.state.payouts id = 0 :=
  (kept_matched.run h).2.payouts_eq_zero hid

/-- The wrapper calls a consumer back for a request of its own only while the request is
unfulfilled. -/
def World.NotRepeated (w : World F) (call : Call) : Prop :=
  match call.action with
  | .consumer k (.rawFulfillRandomWords requestId _) =>
    match w.consumers k with
    | some consumer => call.sender = consumer.wrapper → consumer.requestIds requestId ≠ ⟨0, 0⟩ →
      requestId ∈ w.unfulfilled.map Prod.fst
    | none => True
  | _ => True

instance (w : World F) (call : Call) : Decidable (w.NotRepeated call) := by
  unfold World.NotRepeated
  obtain ⟨sender, action⟩ := call
  induction action using Action.casesOn with
  | consumer k c =>
    induction c using ConsumerCall.casesOn with
    | rawFulfillRandomWords requestId words =>
      dsimp only
      generalize w.consumers k = o
      induction o using Option.casesOn <;> infer_instance
    | _ => infer_instance
  | _ => infer_instance

theorem Fulfill.unfulfilled (hs : Sane w) (hcall : call.action =
      .consumer k (.rawFulfillRandomWords requestId words)) (hnew : w.NotRepeated call)
    (h : Fulfill w k call.sender requestId words w') : requestId ∈ w.unfulfilled.map Prod.fst := by
  cases h with
  | @mk consumer p receiver pool pool' rp card tokens hconsumer hsender hrequest hpool =>
    unfold World.NotRepeated at hnew
    rw [hcall] at hnew
    simp only [hconsumer] at hnew
    have hp : p ≠ 0 := (hs.wired.system p
      (hs.wired.assetPool p pool.info (Option.map_eq_some_iff.mpr ⟨pool, hpool, rfl⟩)).1).1
    refine hnew hsender ?_
    rw [hrequest]
    exact fun heq => hp (congrArg Request.assetPool heq)

theorem kept_once :
    Kept World.NotRepeated (fun w : World F => (Sane w ∧ Matched w) ∧ Once w) :=
  kept_matched.rule (fun _ h => h.1) (once_rule (fun _ => id)
    fun _ _ _ _ _ _ hJ hnew hcall h => h.unfulfilled hJ.1 hcall hnew)

/-- If the wrapper repeats no callback that has paid a card, at most one card is paid for each
request, and none for what was never requested. -/
theorem paid_at_most_once (h : World.Run World.NotRepeated cfg) (id : Nat) :
    cfg.state.payouts id ≤ 1 ∧ (id ∉ cfg.state.vrf.issued → cfg.state.payouts id = 0) :=
  ⟨(Nat.le_add_right _ _).trans ((kept_once.run h).2 id), never_requested_never_paid h⟩

/-- Two native cards, one of them redeemed with the id 77 by account 5. -/
def oneRedeemed : List (CallStack.Label Call) :=
  [World.opening .CustomERC20,
    World.poolCall 1 (.depositAssets 4 (World.nativeBoxes [⟨1, .NativeToken, 2, 2⟩])),
    World.poolCall 1 (.transferRedeemTokenNumber 5 1),
    World.poolCall 5 (.redeemAsset 0 1 [77])]

/-- The wrapper calls back the consumer at 1001, and the receiver's hook returns. -/
def callback (requestId : Nat) : List (CallStack.Label Call) :=
  [.call ⟨2, .consumer 1001 (.rawFulfillRandomWords requestId [0, 0, 0])⟩, .ret]

/-- One callback for the request, after one for an id that was never requested. -/
theorem paid_at_most_once_oneCallback :
    (World.after World.NotRepeated (oneRedeemed ++ .call ⟨2, .consumer 1001
        (.rawFulfillRandomWords 99 [0, 0, 0])⟩ :: callback 77)).state.payouts 77 = 1 ∧
      ∀ id, (World.after World.NotRepeated (oneRedeemed ++ .call ⟨2, .consumer 1001
        (.rawFulfillRandomWords 99 [0, 0, 0])⟩ :: callback 77)).state.payouts id ≤ 1 :=
  ⟨by decide, fun id => (paid_at_most_once (World.run_after World.NotRepeated _) id).1⟩

/-- A callback that comes twice pays two cards for one request. -/
theorem repeated_callback_pays_again :
    ∃ cfg : CallStack.Config (World ListSet) Call, World.Run (fun _ _ => True) cfg ∧
      cfg.state.vrf.issued = [77] ∧ cfg.state.payouts 77 = 2 :=
  ⟨World.after (fun _ _ => True) (oneRedeemed ++ callback 77 ++ callback 77),
    World.run_after (fun _ _ => True) _, by decide, by decide⟩

end Redeemy
