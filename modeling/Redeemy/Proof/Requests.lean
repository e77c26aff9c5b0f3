import Redeemy.Proof.Change

/-!
# Requests in flight

A request is issued once, stays unfulfilled until its callback succeeds, and as long as the wrapper
owes the callback, the consumer that gets it knows the pool and the receiver it was made for.
-/

namespace Redeemy

open Fallible EnumerableSet

variable {F : Type → Type}
variable {w w₁ w' : World F} {pool : AssetPoolV1 F} {a p self sender receiver trailing k : Address}
variable {n requestId : Nat} {requestIds requestIds' words : List Nat} {call : Call}

/-! ### What the requests of one redemption change -/

/-- The requests `requestIds` of the pool at `p` for `receiver` have been made. -/
structure Requested (p receiver : Address) (requestIds : List Nat) (w w' : World F) : Prop where
  nodup : requestIds.Nodup
  fresh : ∀ id ∈ requestIds, id ∉ w.vrf.issued
  issued : w'.vrf.issued = requestIds.reverse ++ w.vrf.issued
  unfulfilled : w'.unfulfilled = (requestIds.map fun id => (id, p)).reverse ++ w.unfulfilled
  owedIds : w'.vrf.owed.map Prod.fst = requestIds.reverse ++ w.vrf.owed.map Prod.fst
  owed : ∀ id k, (id, k) ∈ w'.vrf.owed → (id, k) ∈ w.vrf.owed ∨
    (id ∈ requestIds ∧ ∃ consumer, w'.consumers k = some consumer ∧
      consumer.requestIds id = ⟨p, receiver⟩)
  consumers : ∀ k consumer, w.consumers k = some consumer → ∃ consumer',
    w'.consumers k = some consumer' ∧
      ∀ id, id ∉ requestIds → consumer'.requestIds id = consumer.requestIds id

theorem Requested.nil : Requested p receiver [] w w where
  nodup := .nil
  fresh := by simp
  issued := rfl
  unfulfilled := rfl
  owedIds := rfl
  owed := fun _ _ => .inl
  consumers := fun _ consumer hk => ⟨consumer, hk, fun _ _ => rfl⟩

theorem Requested.append (h : Requested p receiver requestIds w w₁)
    (h' : Requested p receiver requestIds' w₁ w') :
    Requested p receiver (requestIds ++ requestIds') w w' := by
  -- the later ids are not among the earlier ones, which have been issued
  have hlater : ∀ id ∈ requestIds', id ∉ requestIds ∧ id ∉ w.vrf.issued := by
    intro id hid
    have hfresh := h'.fresh id hid
    rw [h.issued, List.mem_append, List.mem_reverse, not_or] at hfresh
    exact hfresh
  exact {
    nodup := List.nodup_append'.mpr
      ⟨h.nodup, h'.nodup, fun id hid hid' => (hlater id hid').1 hid⟩
    fresh := fun id hid => (List.mem_append.mp hid).elim (h.fresh id) fun hid => (hlater id hid).2
    issued := by rw [h'.issued, h.issued, List.reverse_append, List.append_assoc]
    unfulfilled := by
      rw [h'.unfulfilled, h.unfulfilled, List.map_append, List.reverse_append, List.append_assoc]
    owedIds := by rw [h'.owedIds, h.owedIds, List.reverse_append, List.append_assoc]
    owed := fun id k hid => by
      rcases h'.owed id k hid with hid | ⟨hid, hconsumer⟩
      · rcases h.owed id k hid with hid | ⟨hid, consumer, hconsumer, hrequest⟩
        · exact .inl hid
        · obtain ⟨consumer', hconsumer', hsame⟩ := h'.consumers k consumer hconsumer
          refine .inr ⟨List.mem_append_left _ hid, consumer', hconsumer', ?_⟩
          rw [hsame id fun hid' => (hlater id hid').1 hid, hrequest]
      · exact .inr ⟨List.mem_append_right _ hid, hconsumer⟩
    consumers := fun k consumer hk => by
      obtain ⟨consumer₁, hk₁, hsame⟩ := h.consumers k consumer hk
      obtain ⟨consumer', hk', hsame'⟩ := h'.consumers k consumer₁ hk₁
      refine ⟨consumer', hk', fun id hid => ?_⟩
      rw [List.mem_append, not_or] at hid
      rw [hsame' id hid.2, hsame id hid.1] }

variable [EnumerableSet F]

theorem RequestStep.requested (h : RequestStep w a p receiver requestId w') :
    Requested p receiver [requestId] w w' := by
  cases h with
  | @mk rp k consumer _ _ _ hconsumer _ hfresh =>
    exact {
      nodup := List.nodup_singleton _
      fresh := fun id hid => List.mem_singleton.mp hid ▸ hfresh
      issued := rfl
      unfulfilled := rfl
      owedIds := rfl
      owed := fun id k' hid => by
        rcases List.mem_cons.mp hid with heq | hid
        · cases heq
          exact .inr ⟨List.mem_singleton_self _, _, Function.update_self .., by simp⟩
        · exact .inl hid
      consumers := fun k' consumer' hk' => by
        by_cases hkk : k' = k
        · subst hkk
          rw [hconsumer, Option.some.injEq] at hk'
          subst hk'
          refine ⟨_, Function.update_self .., fun id hid => ?_⟩
          simp only [List.mem_singleton] at hid
          simp [hid]
        · exact ⟨consumer', by simpa [hkk] using hk', fun _ _ => rfl⟩ }

theorem RequestSteps.requested (h : RequestSteps a p receiver requestIds w w') :
    Requested p receiver requestIds w w' := by
  induction h with
  | nil => exact .nil
  | cons hfirst _ ih => exact hfirst.requested.append ih

/-! ### The invariant -/

/-- The bookkeeping of requests is consistent. -/
structure Tracked (w : World F) : Prop where
  issued : ∀ id p, (id, p) ∈ w.unfulfilled → id ∈ w.vrf.issued
  nodup : (w.unfulfilled.map Prod.fst).Nodup
  owedNodup : (w.vrf.owed.map Prod.fst).Nodup
  owed : ∀ id k, (id, k) ∈ w.vrf.owed → ∃ consumer, w.consumers k = some consumer ∧
    (id, (consumer.requestIds id).assetPool) ∈ w.unfulfilled
  pool : ∀ id p, (id, p) ∈ w.unfulfilled → ∃ pool, w.assetPools p = some pool

section

omit [EnumerableSet F]

theorem Tracked.owed_issued (hw : Tracked w) {id : Nat} (h : id ∈ w.vrf.owed.map Prod.fst) :
    id ∈ w.vrf.issued := by
  obtain ⟨⟨_, k⟩, hid, rfl⟩ := List.mem_map.mp h
  obtain ⟨consumer, _, hunfulfilled⟩ := hw.owed _ k hid
  exact hw.issued _ _ hunfulfilled

/-- A request that is still owed is unfulfilled, on the pool its consumer has noted. -/
theorem Tracked.mem_of_owed (hw : Tracked w) (howed : (requestId, k) ∈ w.vrf.owed)
    {consumer : RewardVRFConsumerV1} (hconsumer : w.consumers k = some consumer)
    (hrequest : consumer.requestIds requestId = ⟨p, receiver⟩) : (requestId, p) ∈ w.unfulfilled := by
  obtain ⟨consumer', hconsumer', hmem⟩ := hw.owed requestId k howed
  obtain rfl := Option.some.inj (hconsumer.symm.trans hconsumer')
  rwa [hrequest] at hmem

theorem tracked_requested (hw : Tracked w) (hpool : ∃ pool, w.assetPools p = some pool)
    (hpools : w'.assetPools = w.assetPools) (h : Requested p receiver requestIds w w') :
    Tracked w' where
  issued := fun id q hid => by
    rw [h.unfulfilled, List.mem_append, List.mem_reverse] at hid
    rw [h.issued, List.mem_append, List.mem_reverse]
    refine hid.imp (fun hid => ?_) (hw.issued id q)
    obtain ⟨_, hid', heq⟩ := List.mem_map.mp hid
    cases heq
    exact hid'
  nodup := by
    rw [h.unfulfilled, List.map_append, List.map_reverse, List.map_map]
    refine List.nodup_append'.mpr ⟨?_, hw.nodup, fun id hid hid' => ?_⟩
    · simpa [Function.comp_def] using h.nodup
    · have hfresh := h.fresh id (by simpa [Function.comp_def] using hid)
      obtain ⟨⟨_, q⟩, hq, rfl⟩ := List.mem_map.mp hid'
      exact hfresh (hw.issued _ q hq)
  owedNodup := by
    rw [h.owedIds]
    exact List.nodup_append'.mpr ⟨List.nodup_reverse.mpr h.nodup, hw.owedNodup,
      fun id hid hid' => h.fresh id (List.mem_reverse.mp hid) (hw.owed_issued hid')⟩
  owed := fun id k hid => by
    rcases h.owed id k hid with hid | ⟨hid, consumer, hconsumer, hrequest⟩
    · obtain ⟨consumer, hconsumer, hunfulfilled⟩ := hw.owed id k hid
      obtain ⟨consumer', hconsumer', hsame⟩ := h.consumers k consumer hconsumer
      refine ⟨consumer', hconsumer', ?_⟩
      have hold : id ∉ requestIds := fun hmem => h.fresh id hmem (hw.issued _ _ hunfulfilled)
      rw [hsame id hold, h.unfulfilled]
      exact List.mem_append_right _ hunfulfilled
    · refine ⟨consumer, hconsumer, ?_⟩
      rw [hrequest, h.unfulfilled]
      exact List.mem_append_left _ (List.mem_reverse.mpr (List.mem_map.mpr ⟨id, hid, rfl⟩))
  pool := fun id q hid => by
    rw [h.unfulfilled, List.mem_append, List.mem_reverse] at hid
    rw [hpools]
    rcases hid with hid | hid
    · obtain ⟨_, _, heq⟩ := List.mem_map.mp hid
      cases heq
      exact hpool
    · exact hw.pool id q hid

end

/-- A callback the wrapper owes is one it is asked for only once. -/
theorem Fulfill.owed (hw : Wired w.wiring) (hcall : call.action =
      .consumer k (.rawFulfillRandomWords requestId words)) (honce : w.OnceOnly call)
    (h : Fulfill w k call.sender requestId words w') : (requestId, k) ∈ w.vrf.owed := by
  unfold World.OnceOnly at honce
  rw [hcall] at honce
  cases h with
  | mk hconsumer hsender =>
    have hinfo := hw.consumer k _ (Option.map_eq_some_iff.mpr ⟨_, hconsumer, rfl⟩)
    exact honce (hsender.trans hinfo.2.2.1)

theorem mem_erase_of_fst_ne {α : Type} [DecidableEq α] {l : List (Nat × α)} {x y : Nat × α}
    (hx : x ∈ l) (hne : x.1 ≠ y.1) : x ∈ l.erase y :=
  (List.mem_erase_of_ne fun heq => hne (congrArg Prod.fst heq)).mpr hx

/-- What is left once the callback of a request is forgotten. -/
theorem fst_ne_of_mem_erase {α : Type} [DecidableEq α] {l : List (Nat × α)} {x y : Nat × α}
    (hnodup : (l.map Prod.fst).Nodup) (hy : y ∈ l) (hx : x ∈ l.erase y) : x.1 ≠ y.1 := by
  have hperm := (List.perm_cons_erase hy).map Prod.fst
  rw [List.map_cons] at hperm
  have hnotin := (List.nodup_cons.mp (hperm.nodup_iff.mp hnodup)).1
  exact fun heq => hnotin (heq ▸ List.mem_map_of_mem hx)

omit [EnumerableSet F] in
/-- Steps that neither make nor fulfil a request. -/
theorem Tracked.of_same (hw : Tracked w) (hvrf : w'.vrf = w.vrf)
    (hunfulfilled : w'.unfulfilled = w.unfulfilled)
    (hconsumers : ∀ k consumer, w.consumers k = some consumer → w'.consumers k = some consumer)
    (hpools : ∀ p pool, w.assetPools p = some pool → ∃ pool', w'.assetPools p = some pool') :
    Tracked w' where
  issued := by
    rw [hunfulfilled, hvrf]
    exact hw.issued
  nodup := by
    rw [hunfulfilled]
    exact hw.nodup
  owedNodup := by
    rw [hvrf]
    exact hw.owedNodup
  owed := by
    rw [hunfulfilled, hvrf]
    intro id k hid
    obtain ⟨consumer, hconsumer, hrest⟩ := hw.owed id k hid
    exact ⟨consumer, hconsumers k consumer hconsumer, hrest⟩
  pool := by
    rw [hunfulfilled]
    intro id p hid
    obtain ⟨pool, hpool⟩ := hw.pool id p hid
    exact hpools p pool hpool

omit [EnumerableSet F] in
theorem exists_setPool {pool' : AssetPoolV1 F} (q : Address) (h : w.assetPools q = some pool) :
    ∃ pool₁, (w.setPool p pool').assetPools q = some pool₁ := by
  by_cases hqp : q = p
  · exact ⟨pool', by simp [World.setPool, hqp]⟩
  · exact ⟨pool, by simpa [World.setPool, hqp] using h⟩

theorem Quiet.exists_pool (h : Quiet w w') (hpool : w.assetPools p = some pool) :
    w'.assetPools p = some pool := by
  rcases h.assetPools p with hsame | ⟨hnone, _⟩
  · exact hsame.trans hpool
  · rw [hnone] at hpool
    cases hpool

/-- A callback that succeeds is neither owed nor unfulfilled any longer. -/
theorem tracked_fulfill (hw : Tracked w) (howed : (requestId, k) ∈ w.vrf.owed)
    (h : Fulfill w k sender requestId words w') : Tracked w' := by
  cases h with
  | @mk consumer p receiver pool pool' rp card tokens hconsumer hsender hrequest =>
    have hmem := hw.mem_of_owed howed hconsumer hrequest
    exact {
      issued := fun id q hid => hw.issued id q (List.mem_of_mem_erase hid)
      nodup := hw.nodup.sublist (List.erase_sublist.map _)
      owedNodup := hw.owedNodup.sublist (List.erase_sublist.map _)
      owed := fun id k' hid => by
        obtain ⟨consumer', hconsumer', hunfulfilled⟩ := hw.owed id k' (List.mem_of_mem_erase hid)
        have hne := fst_ne_of_mem_erase hw.owedNodup howed hid
        exact ⟨consumer', hconsumer', mem_erase_of_fst_ne hunfulfilled hne⟩
      pool := fun id q hid => by
        obtain ⟨pool₁, hpool₁⟩ := hw.pool id q (List.mem_of_mem_erase hid)
        exact exists_setPool q hpool₁ }

theorem tracked_change (hs : Sane w) (hw : Tracked w) (honce : w.OnceOnly call)
    (h : Change w call w') : Tracked w' := by
  cases h with
  | setPrice self redeemTokenAmount =>
    exact hw.of_same rfl rfl (fun _ _ => id) fun q _ => exists_setPool q
  | handOut self dst amount => exact hw.of_same rfl rfl (fun _ _ => id) fun q pool hq => ⟨pool, hq⟩
  | deposit self value assets _ h =>
    cases h with
    | mk => exact hw.of_same rfl rfl (fun _ _ => id) fun q _ => exists_setPool q
  | withdraw self assets _ h =>
    cases h with
    | mk => exact hw.of_same rfl rfl (fun _ _ => id) fun q _ => exists_setPool q
  | redeem self trailing n requestIds _ _ h =>
    cases h with
    | @mk pool _ tokens _ w₁ hpool _ _ _ _ _ _ _ hrequests =>
      -- the cards are reserved first, then the requests are made, then the charge is recorded
      have hreserved : Tracked { w.setPool self { pool with
          totalNumberOfAssets := pool.totalNumberOfAssets - n } with tokens } :=
        hw.of_same rfl rfl (fun _ _ => id) fun q _ => exists_setPool q
      have hpools : w₁.assetPools = (w.setPool self { pool with
          totalNumberOfAssets := pool.totalNumberOfAssets - n }).assetPools := by
        obtain ⟨_, _, _, rfl⟩ := hrequests.frame
        rfl
      exact { tracked_requested hreserved (exists_setPool self hpool) hpools
        hrequests.requested with }
  | fulfill k requestId words hcall h => exact tracked_fulfill hw (h.owed hs.wired hcall honce) h

theorem tracked_rule : Rule (fun w call => w.OnceOnly call) (Sane : World F → Prop) Tracked where
  initial := fun w hw => by
    refine ⟨?_, ?_, ?_, ?_, ?_⟩ <;> simp [hw.unfulfilled, hw.vrf]
  quiet := fun w w' _ hw h => hw.of_same h.vrf h.unfulfilled h.consumers
    fun _ pool hpool => ⟨pool, h.exists_pool hpool⟩
  change := fun w call w' hs hw _ honce h => tracked_change hs hw honce h
  forget := fun w requestId k _ hw =>
    { hw with
      owedNodup := hw.owedNodup.sublist (List.erase_sublist.map _)
      owed := fun id k' hid => hw.owed id k' (List.mem_of_mem_erase hid) }

theorem kept_tracked :
    Kept (fun w call => w.OnceOnly call) (fun w : World F => Sane w ∧ Tracked w) :=
  kept_sane.rule (fun _ => id) tracked_rule

/-! ### The requests of one pool -/

/-- The number of requests of the pool at `p` that no callback has fulfilled yet. -/
def World.pending (w : World F) (p : Address) : Nat := w.unfulfilled.countP fun r => r.2 = p

section

omit [EnumerableSet F]

theorem Requested.pending (h : Requested p receiver requestIds w w') (q : Address) :
    w'.pending q = w.pending q + if q = p then requestIds.length else 0 := by
  unfold World.pending
  rw [h.unfulfilled, List.countP_append, List.countP_reverse, List.countP_map, Nat.add_comm]
  congr 1
  split_ifs with hqp
  · subst hqp
    simp [List.countP_eq_length.mpr]
  · exact List.countP_eq_zero.mpr fun id _ => by simpa using fun heq => hqp heq.symm

theorem pending_erase (h : (requestId, p) ∈ w.unfulfilled) (q : Address) :
    w.pending q = ((w.unfulfilled.erase (requestId, p)).countP fun r => r.2 = q) +
      if q = p then 1 else 0 := by
  unfold World.pending
  rw [(List.perm_cons_erase h).countP_eq, List.countP_cons]
  congr 1
  by_cases hqp : q = p
  · simp [hqp]
  · simp [hqp, Ne.symm hqp]

/-- Only pools have requests. -/
theorem Tracked.pending_eq_zero (hw : Tracked w) (hnone : w.assetPools p = none) :
    w.pending p = 0 := by
  refine List.countP_eq_zero.mpr fun r hr => ?_
  simp only [decide_eq_true_eq]
  rintro rfl
  obtain ⟨pool, hpool⟩ := hw.pool r.1 r.2 hr
  rw [hnone] at hpool
  cases hpool

end

end Redeemy
