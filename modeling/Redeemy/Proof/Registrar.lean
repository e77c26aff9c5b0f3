import Redeemy.Model.RelayRegistrar
import Mathlib.Data.List.Dedup

/-!
# What the registrar lists

The storage of the registrar is a summary of all registrations (`Tells`), and what it lists of a hub is
read off that summary: the managers in the order in which they registered first, each with its first
and its latest registration.
-/

namespace Redeemy

open Fallible Handover

variable {relayHub relayHub' m m' : Address} {registration latest : RelayRegistration}
variable {registrations older : List RelayRegistration} {r : RelayRegistrar}

/-- The registrations of a manager with a hub. -/
def ofRelay (registrations : List RelayRegistration) (relayHub m : Address) : List RelayRegistration :=
  registrations.filter fun x => x.relayHub = relayHub ∧ x.relayManager = m

/-- What is known of a relay by its registrations, latest first. -/
def summary : List RelayRegistration → RelayInfo
  | [] => .blank
  | latest :: older => {
      lastSeenBlockNumber := latest.blockNumber
      lastSeenTimestamp := latest.timestamp
      firstSeenBlockNumber := (older.getLast?.getD latest).blockNumber
      firstSeenTimestamp := (older.getLast?.getD latest).timestamp
      urlParts := latest.url
      relayManager := latest.relayManager }

/-- The managers that have registered with a hub, in the order in which they did so first. -/
def managers (registrations : List RelayRegistration) (relayHub : Address) : List Address :=
  ((registrations.filter fun x => x.relayHub = relayHub).map RelayRegistration.relayManager).dedup.reverse

/-- The storage tells of every relay what its registrations say. -/
structure Tells (s : Listing) : Prop where
  blockNumber : 0 < s.blockNumber ∧ s.blockNumber < 2 ^ 32
  timestamp : s.timestamp < 2 ^ 40
  values : ∀ relayHub m, s.registrar.values relayHub m = summary (ofRelay s.registrations relayHub m)
  indexedValues : ∀ relayHub, s.registrar.indexedValues relayHub = managers s.registrations relayHub
  positive : ∀ x ∈ s.registrations, 0 < x.blockNumber

/-! ### Registrations -/

theorem ofRelay_cons_self : ofRelay (registration :: registrations) registration.relayHub
    registration.relayManager =
      registration :: ofRelay registrations registration.relayHub registration.relayManager := by
  simp [ofRelay]

theorem ofRelay_cons_of_ne (hne : registration.relayHub ≠ relayHub ∨ registration.relayManager ≠ m) :
    ofRelay (registration :: registrations) relayHub m = ofRelay registrations relayHub m := by
  unfold ofRelay
  rw [List.filter_cons_of_neg]
  simp only [decide_eq_true_eq, not_and_or]
  exact hne

theorem mem_managers : m ∈ managers registrations relayHub ↔
    ofRelay registrations relayHub m ≠ [] := by
  unfold managers ofRelay
  rw [List.mem_reverse, List.mem_dedup, List.mem_map]
  constructor
  · rintro ⟨x, hx, rfl⟩ hnone
    obtain ⟨hmem, hhub⟩ := List.mem_filter.mp hx
    have hfilter := List.filter_eq_nil_iff.mp hnone x hmem
    simp only [decide_eq_true_eq] at hhub hfilter
    exact hfilter ⟨hhub, trivial⟩
  · intro hsome
    obtain ⟨x, hx⟩ := List.exists_mem_of_ne_nil _ hsome
    obtain ⟨hmem, hrelay⟩ := List.mem_filter.mp hx
    simp only [decide_eq_true_eq] at hrelay
    exact ⟨x, List.mem_filter.mpr ⟨hmem, by simpa using hrelay.1⟩, hrelay.2⟩

theorem relayManager_summary (hm : m ∈ managers registrations relayHub) :
    (summary (ofRelay registrations relayHub m)).relayManager = m := by
  have hsome := mem_managers.mp hm
  cases hlist : ofRelay registrations relayHub m with
  | nil => exact absurd hlist hsome
  | cons latest older =>
    have hlatest : latest ∈ ofRelay registrations relayHub m := by
      rw [hlist]
      exact List.mem_cons_self ..
    have hrelay := (List.mem_filter.mp hlatest).2
    simp only [decide_eq_true_eq] at hrelay
    exact hrelay.2

theorem nodup_managers : (managers registrations relayHub).Nodup := by
  unfold managers
  rw [List.nodup_reverse]
  exact List.nodup_dedup _

theorem managers_cons_self : managers (registration :: registrations) registration.relayHub =
    if ofRelay registrations registration.relayHub registration.relayManager = [] then
      managers registrations registration.relayHub ++ [registration.relayManager]
    else managers registrations registration.relayHub := by
  have hmem : registration.relayManager ∈ managers registrations registration.relayHub ↔
    ofRelay registrations registration.relayHub registration.relayManager ≠ [] := mem_managers
  unfold managers at hmem ⊢
  rw [List.mem_reverse, List.mem_dedup] at hmem
  rw [List.filter_cons_of_pos (by simp), List.map_cons]
  split_ifs with hnew
  · rw [List.dedup_cons_of_notMem (fun hold => hmem.mp hold hnew), List.reverse_cons]
  · rw [List.dedup_cons_of_mem (hmem.mpr hnew)]

theorem managers_cons_of_ne (hne : registration.relayHub ≠ relayHub) :
    managers (registration :: registrations) relayHub = managers registrations relayHub := by
  unfold managers
  rw [List.filter_cons_of_neg]
  simpa using hne

theorem lastSeen_summary (hpositive : ∀ x ∈ registrations, 0 < x.blockNumber) :
    (summary registrations).lastSeenBlockNumber = 0 ↔ registrations = [] := by
  cases registrations with
  | nil => exact ⟨fun _ => rfl, fun _ => rfl⟩
  | cons latest older =>
    have hlatest := hpositive latest (List.mem_cons_self ..)
    simp only [summary, reduceCtorEq, iff_false]
    omega

theorem firstSeen_summary (hpositive : ∀ x ∈ registrations, 0 < x.blockNumber) :
    (summary registrations).firstSeenBlockNumber = 0 ↔ registrations = [] := by
  cases registrations with
  | nil => exact ⟨fun _ => rfl, fun _ => rfl⟩
  | cons latest older =>
    have hfirst : older.getLast?.getD latest ∈ latest :: older := by
      cases hlast : older.getLast? with
      | none => exact List.mem_cons_self ..
      | some x => exact List.mem_cons_of_mem _ (List.mem_of_getLast? hlast)
    have hpos := hpositive _ hfirst
    simp only [summary, reduceCtorEq, iff_false]
    omega

/-! ### What is stored -/

section

variable {blockNumber timestamp : Nat} {url : Bytes32 × Bytes32 × Bytes32} {s : Listing}

theorem values_addItem : (r.addItem relayHub m).values = r.values := by
  unfold RelayRegistrar.addItem
  split_ifs <;> rfl

theorem indexedValues_store :
    (r.storeRelayServerRegistration blockNumber timestamp m relayHub url).indexedValues relayHub' =
      if relayHub = relayHub' ∧ (r.values relayHub m).lastSeenBlockNumber = 0 then
        r.indexedValues relayHub' ++ [m]
      else r.indexedValues relayHub' := by
  unfold RelayRegistrar.storeRelayServerRegistration RelayRegistrar.setInfo RelayRegistrar.addItem
  dsimp only
  by_cases hnew : (r.values relayHub m).lastSeenBlockNumber = 0
  · rw [if_pos hnew]
    by_cases hhub : relayHub = relayHub'
    · subst hhub
      rw [if_pos ⟨rfl, hnew⟩]
      exact Function.update_self ..
    · rw [if_neg (fun h => hhub h.1)]
      exact Function.update_of_ne (Ne.symm hhub) _ _
  · rw [if_neg hnew, if_neg (fun h => hnew h.2)]

theorem values_store_of_ne (hne : relayHub ≠ relayHub' ∨ m ≠ m') :
    (r.storeRelayServerRegistration blockNumber timestamp m relayHub url).values relayHub' m' =
      r.values relayHub' m' := by
  unfold RelayRegistrar.storeRelayServerRegistration RelayRegistrar.setInfo
  dsimp only
  rw [values_addItem]
  by_cases hhub : relayHub = relayHub'
  · subst hhub
    rw [Function.update_self, Function.update_of_ne (Ne.symm (hne.resolve_left (· rfl)))]
  · rw [Function.update_of_ne (Ne.symm hhub)]

/-- A registration is added to what is known of the relay. -/
theorem values_store_self (hblock : blockNumber < 2 ^ 32) (htime : timestamp < 2 ^ 40)
    (hvalues : r.values relayHub m = summary registrations)
    (hpositive : ∀ x ∈ registrations, 0 < x.blockNumber) :
    (r.storeRelayServerRegistration blockNumber timestamp m relayHub url).values relayHub m =
      summary (⟨relayHub, m, url, blockNumber, timestamp⟩ :: registrations) := by
  have hfirst := firstSeen_summary hpositive
  unfold RelayRegistrar.storeRelayServerRegistration RelayRegistrar.setInfo
  dsimp only
  rw [values_addItem, Function.update_self, Function.update_self, hvalues, Nat.mod_eq_of_lt hblock,
    Nat.mod_eq_of_lt htime]
  cases registrations with
  | nil => rfl
  | cons latest older =>
    rw [if_neg (fun hnone => List.cons_ne_nil _ _ (hfirst.mp hnone))]
    simp only [summary, List.getLast?_cons, Option.getD_some]

theorem Tells.positive_ofRelay (h : Tells s) :
    ∀ x ∈ ofRelay s.registrations relayHub m, 0 < x.blockNumber :=
  fun x hx => h.positive x (List.mem_of_mem_filter hx)

theorem Tells.store (h : Tells s) (x : Registering) : Tells (s.store x) where
  blockNumber := h.blockNumber
  timestamp := h.timestamp
  positive := by
    intro registration hmem
    rcases List.mem_cons.mp hmem with rfl | hmem
    · exact h.blockNumber.1
    · exact h.positive registration hmem
  values := by
    intro relayHub m
    unfold Listing.store
    dsimp only
    by_cases hself : x.relayHub = relayHub ∧ x.relayManager = m
    · obtain ⟨rfl, rfl⟩ := hself
      rw [ofRelay_cons_self]
      exact values_store_self h.blockNumber.2 h.timestamp (h.values _ _) h.positive_ofRelay
    · rw [not_and_or] at hself
      rw [ofRelay_cons_of_ne hself, values_store_of_ne hself]
      exact h.values relayHub m
  indexedValues := by
    intro relayHub
    unfold Listing.store
    dsimp only
    rw [indexedValues_store, h.indexedValues, h.values]
    by_cases hself : x.relayHub = relayHub
    -- it is put at the end of the list if the storage knows nothing of it
    · subst hself
      have hlast : (summary (ofRelay s.registrations x.relayHub x.relayManager)).lastSeenBlockNumber
          = 0 ↔ ofRelay s.registrations x.relayHub x.relayManager = [] :=
        lastSeen_summary h.positive_ofRelay
      rw [managers_cons_self]
      simp only [true_and, hlast]
    · rw [if_neg (fun hboth => hself hboth.1), managers_cons_of_ne hself]

theorem tells_preserved : Preserved Listing.machine Listing.Allowed (fun _ s => Tells s)
    (fun _ _ => True) where
  start := fun c call o hcan h hstart => by
    cases call with
    | mine timestamp =>
      cases hstart
      obtain ⟨_, hle, htime, hblock⟩ := hcan
      exact ⟨⟨Nat.succ_pos _, hblock⟩, htime, h.values, h.indexedValues, h.positive⟩
    | setRelayRegistrationMaxAge sender age =>
      simp only [Listing.machine, Listing.start, RelayRegistrar.setRelayRegistrationMaxAge,
        bind_eq_ok, pure_eq_ok] at hstart
      obtain ⟨_, ⟨_, _, rfl⟩, rfl⟩ := hstart
      exact ⟨h.blockNumber, h.timestamp, h.values, h.indexedValues, h.positive⟩
    | registerRelayServer sender relayHub url =>
      cases hstart
      exact ⟨h, trivial⟩
  resume := fun c f frames data o hf _ h _ hresume => by
    cases hresume
    exact h.store f.rest
  fail := fun c f frames data o hf _ _ _ hfail => by cases hfail

theorem run_tells {c : Config Listing Registering} (h : Listing.Run c) : Tells c.state := by
  obtain ⟨s₀, hs₀, hreach⟩ := h
  have h₀ : Tells (⟨s₀, []⟩ : Config Listing Registering).state := by
    refine ⟨hs₀.blockNumber, hs₀.timestamp, fun relayHub m => ?_, fun relayHub => ?_, ?_⟩
    · rw [hs₀.registrations]
      exact hs₀.values relayHub m
    · rw [hs₀.registrations]
      exact hs₀.indexedValues relayHub
    · rw [hs₀.registrations]
      exact nofun
  exact (hreach.invariant tells_preserved h₀ .nil).1

end

/-! ### What is read -/

section

variable {staked : Address → Bool} {oldestBlockNumber oldestBlockTimestamp maxCount : Nat}
variable {length total : Nat} {items : List Address} {info : List RelayInfo}
variable {c : Config Listing Registering}

/-- A relay that was last seen in the range. -/
def RelayInfo.seenSince (info : RelayInfo) (oldestBlockNumber oldestBlockTimestamp : Nat) : Bool :=
  oldestBlockNumber ≤ info.lastSeenBlockNumber && oldestBlockTimestamp ≤ info.lastSeenTimestamp

/-- The relays that are shown, given what is known of each. -/
def listed (relayInfo : Address → RelayInfo) (staked : Address → Bool)
    (oldestBlockNumber oldestBlockTimestamp : Nat) (items : List Address) : List Address :=
  items.filter fun m =>
    (relayInfo m).seenSince oldestBlockNumber oldestBlockTimestamp && staked m

theorem listed_cons {relayInfo : Address → RelayInfo} :
    listed relayInfo staked oldestBlockNumber oldestBlockTimestamp (m :: items) =
    if (relayInfo m).seenSince oldestBlockNumber oldestBlockTimestamp && staked m then
      m :: listed relayInfo staked oldestBlockNumber oldestBlockTimestamp items
    else listed relayInfo staked oldestBlockNumber oldestBlockTimestamp items :=
  List.filter_cons ..

theorem getRelayInfo_eq (hseen : (r.values relayHub m).lastSeenBlockNumber ≠ 0) :
    r.getRelayInfo relayHub m = .ok (r.values relayHub m) := by
  simp only [RelayRegistrar.getRelayInfo, bind_eq_ok, require_eq_ok, pure_eq_ok]
  exact ⟨(), hseen, trivial⟩

/-- One round of the loop. -/
theorem readLoop_cons (hseen : (r.values relayHub m).lastSeenBlockNumber ≠ 0) :
    r.readLoop staked relayHub oldestBlockNumber oldestBlockTimestamp maxCount length (m :: items)
      info =
    if (r.values relayHub m).seenSince oldestBlockNumber oldestBlockTimestamp && staked m then
      if length ≤ info.length then .error (.panic 0x32)
      else if maxCount ≤ info.length + 1 then .ok (info ++ [r.values relayHub m])
      else r.readLoop staked relayHub oldestBlockNumber oldestBlockTimestamp maxCount length items
        (info ++ [r.values relayHub m])
    else r.readLoop staked relayHub oldestBlockNumber oldestBlockTimestamp maxCount length items
      info := by
  rw [RelayRegistrar.readLoop, getRelayInfo_eq hseen, ok_bind, RelayInfo.seenSince]
  by_cases hold : (r.values relayHub m).lastSeenBlockNumber < oldestBlockNumber ∨
      (r.values relayHub m).lastSeenTimestamp < oldestBlockTimestamp
  · have hnot : ¬ (oldestBlockNumber ≤ (r.values relayHub m).lastSeenBlockNumber ∧
        oldestBlockTimestamp ≤ (r.values relayHub m).lastSeenTimestamp) := by omega
    rw [if_pos hold, if_neg]
    simp only [Bool.and_eq_true, decide_eq_true_eq]
    exact fun h => hnot h.1
  · have hsince : oldestBlockNumber ≤ (r.values relayHub m).lastSeenBlockNumber ∧
        oldestBlockTimestamp ≤ (r.values relayHub m).lastSeenTimestamp := by omega
    rw [if_neg hold, decide_eq_true hsince.1, decide_eq_true hsince.2]
    cases staked m with
    | false => rfl
    | true =>
      rw [List.length_append]
      rfl

/-- The loop takes the first relays that qualify, until there are enough. -/
theorem readLoop_eq (hseen : ∀ m ∈ items, (r.values relayHub m).lastSeenBlockNumber ≠ 0)
    (hroom : info.length + items.length ≤ total)
    (hlength : length = if total < maxCount then total else maxCount)
    (hmax : info.length < maxCount) :
    r.readLoop staked relayHub oldestBlockNumber oldestBlockTimestamp maxCount length items info =
      .ok (info ++ ((listed (r.values relayHub) staked oldestBlockNumber oldestBlockTimestamp
        items).take (maxCount - info.length)).map (r.values relayHub)) := by
  induction items generalizing info with
  | nil =>
    rw [RelayRegistrar.readLoop]
    simp only [listed, List.filter_nil, List.take_nil, List.map_nil, List.append_nil]
    rfl
  | cons m items ih =>
    have hrest := fun m' hm' => hseen m' (List.mem_cons_of_mem _ hm')
    rw [List.length_cons] at hroom
    rw [readLoop_cons (hseen m (List.mem_cons_self ..)), listed_cons]
    split_ifs with hshown hfull henough
    -- the array has room for all items, or for as many as are asked for
    · split_ifs at hlength <;> omega
    · have hone : maxCount - info.length = 1 := by omega
      rw [hone, List.take_succ_cons, List.take_zero]
      rfl
    · have hmore : maxCount - info.length = maxCount - (info ++ [r.values relayHub m]).length + 1 := by
        rw [List.length_append, List.length_singleton]
        omega
      rw [hmore, List.take_succ_cons, List.map_cons,
        ih hrest (by rw [List.length_append, List.length_singleton]; omega)
          (by rw [List.length_append, List.length_singleton]; omega), List.append_assoc]
      rfl
    · exact ih hrest (by omega) hmax

/-- An array without room for a relay fails at the first one that qualifies. -/
theorem readLoop_zero (hseen : ∀ m ∈ items, (r.values relayHub m).lastSeenBlockNumber ≠ 0) :
    r.readLoop staked relayHub oldestBlockNumber oldestBlockTimestamp 0 0 items info =
      if listed (r.values relayHub) staked oldestBlockNumber oldestBlockTimestamp items = [] then
        .ok info
      else .error (.panic 0x32) := by
  induction items with
  | nil => rfl
  | cons m items ih =>
    have hrest := fun m' hm' => hseen m' (List.mem_cons_of_mem _ hm')
    rw [readLoop_cons (hseen m (List.mem_cons_self ..)), listed_cons, if_pos (Nat.zero_le _)]
    by_cases hshown :
        ((r.values relayHub m).seenSince oldestBlockNumber oldestBlockTimestamp && staked m) = true
    · rw [if_pos hshown, if_pos hshown, if_neg (List.cons_ne_nil _ _)]
    · rw [if_neg hshown, if_neg hshown]
      exact ih hrest

/-- What is to be read of a hub. -/
def Listing.relays (s : Listing) (staked : Address → Bool) (relayHub : Address)
    (oldestBlockNumber oldestBlockTimestamp : Nat) : List RelayInfo :=
  (listed (fun m => summary (ofRelay s.registrations relayHub m)) staked oldestBlockNumber
    oldestBlockTimestamp (managers s.registrations relayHub)).map fun m =>
      summary (ofRelay s.registrations relayHub m)

theorem nodup_relays {s : Listing} :
    ((s.relays staked relayHub oldestBlockNumber oldestBlockTimestamp).map
      RelayInfo.relayManager).Nodup := by
  have hself : ∀ m ∈ listed (fun m => summary (ofRelay s.registrations relayHub m)) staked
      oldestBlockNumber oldestBlockTimestamp (managers s.registrations relayHub),
      (summary (ofRelay s.registrations relayHub m)).relayManager = m :=
    fun m hm => relayManager_summary (List.mem_of_mem_filter hm)
  unfold Listing.relays
  rw [List.map_map]
  have hmap := List.map_congr_left hself
  rw [List.map_id'] at hmap
  exact (congrArg List.Nodup hmap).mpr (nodup_managers.filter _)

theorem Tells.readRelayInfosInRange_eq {s : Listing} (h : Tells s) :
    s.registrar.readRelayInfosInRange staked relayHub oldestBlockNumber oldestBlockTimestamp maxCount =
      if maxCount = 0 ∧ s.relays staked relayHub oldestBlockNumber oldestBlockTimestamp ≠ [] then
        .error (.panic 0x32)
      else .ok ((s.relays staked relayHub oldestBlockNumber oldestBlockTimestamp).take maxCount) := by
  have hvalues : s.registrar.values relayHub =
      fun m => summary (ofRelay s.registrations relayHub m) := by
    funext m
    exact h.values relayHub m
  have hseen : ∀ m ∈ managers s.registrations relayHub,
      (s.registrar.values relayHub m).lastSeenBlockNumber ≠ 0 := by
    intro m hm hnone
    rw [h.values] at hnone
    exact mem_managers.mp hm ((lastSeen_summary h.positive_ofRelay).mp hnone)
  unfold RelayRegistrar.readRelayInfosInRange Listing.relays
  dsimp only
  rw [h.indexedValues]
  by_cases hmax : 0 < maxCount
  · rw [readLoop_eq hseen (Nat.zero_add _).le rfl hmax, hvalues, List.map_take,
      if_neg (fun hzero => hmax.ne' hzero.1)]
    rfl
  · have hzero : maxCount = 0 := by omega
    subst hzero
    rw [if_neg (Nat.not_lt_zero _), readLoop_zero hseen, hvalues, List.take_zero]
    simp only [true_and, ne_eq, List.map_eq_nil_iff, ite_not]

/-- What is read of a hub are the first relay managers, in the order in which they registered first, that
have registered again recently enough and that the hub accepts; each once, and with what its first and
its latest registration say. Reading fails only if nothing was to be read and there is something. -/
theorem relays_are_listed (h : Listing.Run c) :
    ((c.state.relays staked relayHub oldestBlockNumber oldestBlockTimestamp).map
      RelayInfo.relayManager).Nodup ∧
    c.state.registrar.readRelayInfosInRange staked relayHub oldestBlockNumber oldestBlockTimestamp
        maxCount =
      if maxCount = 0 ∧ c.state.relays staked relayHub oldestBlockNumber oldestBlockTimestamp ≠ [] then
        .error (.panic 0x32)
      else .ok ((c.state.relays staked relayHub oldestBlockNumber oldestBlockTimestamp).take maxCount) :=
  ⟨nodup_relays, (run_tells h).readRelayInfosInRange_eq⟩

set_option maxRecDepth 4000 in
theorem relays_are_listed_twoRelays : Listing.Run (Listing.after Listing.twoRelays) ∧
    (Listing.after Listing.twoRelays).state.registrar.readRelayInfosInRange (fun _ => true) 100 0 0 5 =
      .ok [⟨1, 0, 1, 0, RelayInfo.blank.urlParts, 21⟩, ⟨2, 10, 1, 0, RelayInfo.blank.urlParts, 20⟩] := by
  have hrun := Listing.run_listing Listing.twoRelays
  refine ⟨hrun, ?_⟩
  rw [(relays_are_listed hrun).2]
  rfl

/-- By default the relays are listed that registered within `relayRegistrationMaxAge`. -/
theorem readRelayInfos_eq (h : Listing.Run c) :
    c.state.registrar.readRelayInfos staked c.state.timestamp relayHub =
      .ok ((c.state.relays staked relayHub 0
        (c.state.timestamp - c.state.registrar.relayRegistrationMaxAge)).take
          RelayRegistrar.MAX_RELAYS_RETURNED_COUNT) := by
  have hage : (if c.state.registrar.relayRegistrationMaxAge ≤ c.state.timestamp then
      c.state.timestamp - c.state.registrar.relayRegistrationMaxAge else 0) =
      c.state.timestamp - c.state.registrar.relayRegistrationMaxAge := by
    split_ifs <;> omega
  unfold RelayRegistrar.readRelayInfos
  rw [hage, (run_tells h).readRelayInfosInRange_eq]
  exact if_neg (fun hzero => by simp [RelayRegistrar.MAX_RELAYS_RETURNED_COUNT] at hzero)

end

end Redeemy
