import Redeemy.Proof.Books
import Redeemy.Proof.Trim

/-!
# The names of the reward pools

The registry maps a name to the reward pool that took it last. A reward pool that is renamed keeps
its old name reserved; and a creation that pays a fee records its name only after the revenue wallet
has had control, when the name may have been taken.
-/

namespace Redeemy

open Fallible EnumerableSet

variable {F : Type → Type}
variable {w w' : World F} {x : Books F} {rp rp' : RewardPoolV1 F} {a b p : Address} {call : Call}
variable {name trimmed : Bytes} {as : List Call}
variable {P : World F → Call → Prop} {cfg : CallStack.Config (World F) Call}

/-! ### What a call does to the names -/

/-- The name of the reward pool at an address. -/
def Books.nameOf (x : Books F) (p : Address) : Option Bytes := (x.rewardPools p).map RewardPoolV1.name

theorem Books.nameOf_setRewardPool :
    (x.setRewardPool p rp).nameOf = Function.update x.nameOf p (some rp.name) := by
  funext q
  unfold nameOf setRewardPool
  by_cases hq : q = p
  · subst hq
    simp
  · simp [hq]

theorem Books.nameOf_setRewardPool_same (hrp : x.rewardPools p = some rp') (h : rp.name = rp'.name) :
    (x.setRewardPool p rp).nameOf = x.nameOf := by
  rw [nameOf_setRewardPool, h]
  refine Function.update_eq_self_iff.mpr ?_
  simp [nameOf, hrp]

variable [EnumerableSet F]

theorem RewardPoolV1.Setting.name_eq {c : RewardPoolCall} (h : rp.Setting c rp') : rp'.name = rp.name := by
  cases h <;> rfl

/-- A name that is neither empty nor too long, without spaces around it. -/
structure Proper (name : Bytes) : Prop where
  head : name.head? ≠ some StringUtils.SPACE
  last : name.getLast? ≠ some StringUtils.SPACE
  nonempty : 1 ≤ name.length
  fits : name.length ≤ MAX_NAME_LENGTH

theorem validateName_eq_ok {registry : RewardPoolRegistryV1}
    (h : registry.validateName name = .ok trimmed) :
    StringUtils.trim name = .ok trimmed ∧ Proper trimmed ∧
      registry.usedRewardPoolNames trimmed = 0 := by
  unfold RewardPoolRegistryV1.validateName RewardPoolRegistryV1.rewardPoolNameExists at h
  simp only [bind_eq_ok, require_eq_ok, pure_eq_ok] at h
  obtain ⟨_, htrim, _, hlen, _, hunused, rfl⟩ := h
  obtain ⟨hhead, hlast⟩ := StringUtils.trim_eq_ok htrim
  exact ⟨htrim, ⟨hhead, hlast, by omega, by omega⟩, by simpa using hunused⟩

/-- What the first half of a call does to the names of the reward pools that there are. -/
inductive NameStep (w : World F) (call : Call) (x : Books F) : Prop where
  | same (hused : x.registry.usedRewardPoolNames = w.registry.usedRewardPoolNames)
      (hname : ∀ p ∈ w.deployed, x.nameOf p = w.books.nameOf p)
  | rename (pool : Address) (rewardPoolName name : Bytes)
      (hcall : call.action = .registry (.setNewRewardPoolName pool rewardPoolName))
      (howner : w.registry.rewardPoolToOwner pool = call.sender)
      (hvalid : w.registry.validateName rewardPoolName = .ok name)
      (hused : x.registry.usedRewardPoolNames =
        Function.update w.registry.usedRewardPoolNames name pool)
      (hname : x.nameOf = Function.update w.books.nameOf pool (some name))

theorem Entry.nameStep (h : Entry w call x) : NameStep w call x := by
  cases h with
  | same => exact .same rfl fun _ _ => rfl
  | setRewardPoolCreationFee => exact .same rfl fun _ _ => rfl
  | setRevenueWallet => exact .same rfl fun _ _ => rfl
  | transferOwnership => exact .same rfl fun _ _ => rfl
  | createPaymaster => exact .same rfl fun _ _ => rfl
  | setPaymaster => exact .same rfl fun _ _ => rfl
  | rename pool rewardPoolName name hcall howner hname hrp =>
    exact .rename pool rewardPoolName name hcall howner hname rfl Books.nameOf_setRewardPool
  | setting a c hcall hrp howner h =>
    exact .same rfl fun p _ => congrFun (Books.nameOf_setRewardPool_same hrp h.name_eq) p
  | @createAssetPool rp a redeemTokenAmount clone hcall hrp howner hprice hfresh =>
    have hname : (rp.addAssetPool clone).name = rp.name := rfl
    exact .same rfl fun p _ => congrFun (Books.nameOf_setRewardPool_same hrp hname) p
  | createRewardPool forwarder redeemToken n hfresh hpool hadmins =>
    refine .same rfl fun p hp => ?_
    rw [Books.nameOf_setRewardPool]
    refine Function.update_of_ne ?_ ..
    rintro rfl
    exact hfresh.2.2 hp

/-- What the second half of a creation does to the names. -/
structure NameRegistration (w : World F) (call : Call) (x : Books F) (a : Address) (name : Bytes) :
    Prop where
  trim : ∃ value newVRFConsumer args, StringUtils.trim args.name = .ok name ∧
    call.action = .registry (.createRewardPool value newVRFConsumer args)
  ne_zero : a ≠ 0
  fresh : a ∉ w.deployed
  owner : x.registry.rewardPoolToOwner = Function.update w.registry.rewardPoolToOwner a call.sender
  used : x.registry.usedRewardPoolNames = Function.update w.registry.usedRewardPoolNames name a
  nameOf : x.nameOf = Function.update w.books.nameOf a (some name)

theorem Registration.names (h : Registration w call x) :
    ∃ a name, NameRegistration w call x a name := by
  cases h with
  | mk n redeemToken ownerToVRFConsumer hcall howner hname _ _ _ hnew =>
    refine ⟨n.rewardPool, n.name, ⟨_, _, _, hname, hcall⟩, hnew.1, hnew.2, ?_, rfl, ?_⟩
    · exact congrArg (Function.update _ _) howner
    · exact Books.nameOf_setRewardPool

/-! ### Stale names -/

/-- A recorded name is the name of a registered reward pool. -/
def Current (x : Books F) : Prop := ∀ name p, x.registry.usedRewardPoolNames name = p → p ≠ 0 →
  x.registry.rewardPoolToOwner p ≠ 0 ∧ x.nameOf p = some name

/-- A reward pool is renamed only if it is not recorded under the name it has. -/
def RenamesUnrecorded (w : World F) (call : Call) : Prop :=
  match call.action with
  | .registry (.setNewRewardPoolName pool rewardPoolName) =>
    w.registry.rewardPoolToOwner pool = call.sender →
    (w.registry.validateName rewardPoolName).toOption.isSome = true →
    ∀ rp ∈ w.rewardPools pool, w.registry.usedRewardPoolNames rp.name ≠ pool
  | _ => True

instance (w : World F) (call : Call) : Decidable (RenamesUnrecorded w call) := by
  unfold RenamesUnrecorded
  obtain ⟨sender, action⟩ := call
  induction action using Action.casesOn with
  | registry c => induction c using RegistryCall.casesOn <;> infer_instance
  | _ => infer_instance

theorem current_rule : BooksRule RenamesUnrecorded (Sane : World F → Prop) Current where
  initial := fun w hw name p hp hne => absurd (hp.symm.trans (hw.usedRewardPoolNames name)) hne
  entry := fun w call x hw hI hcan hP h name p hp hne => by
    rw [h.registered.2.1]
    cases h.nameStep with
    | same hused hname =>
      rw [hused] at hp
      obtain ⟨howner, hold⟩ := hI name p hp hne
      rw [hname p (mem_deployed_of_registered hw.wired howner)]
      exact ⟨howner, hold⟩
    | rename pool rewardPoolName name' hcall howner hvalid hused hname =>
      rw [hused] at hp
      rw [hname]
      have hregistered : w.registry.rewardPoolToOwner pool ≠ 0 := howner ▸ hcan.1
      by_cases hnew : name = name'
      · subst hnew
        rw [Function.update_self] at hp
        subst hp
        exact ⟨hregistered, Function.update_self ..⟩
      · rw [Function.update_of_ne hnew] at hp
        obtain ⟨hregistered', hold⟩ := hI name p hp hne
        -- the renamed reward pool had no name recorded
        have hother : p ≠ pool := by
          rintro rfl
          obtain ⟨rp, hrp, rfl⟩ := Option.map_eq_some_iff.mp hold
          unfold RenamesUnrecorded at hP
          rw [hcall] at hP
          exact hP howner (by rw [hvalid]; rfl) rp hrp hp
        rw [Function.update_of_ne hother]
        exact ⟨hregistered', hold⟩
  registration := fun w call x hw hI hsender h name p hp hne => by
    obtain ⟨a, name', hnew⟩ := h.names
    rw [hnew.used] at hp
    rw [hnew.owner, hnew.nameOf]
    by_cases hname : name = name'
    · subst hname
      rw [Function.update_self] at hp
      subst hp
      rw [Function.update_self, Function.update_self]
      exact ⟨hsender, rfl⟩
    · rw [Function.update_of_ne hname] at hp
      obtain ⟨howner, hold⟩ := hI name p hp hne
      have hother : p ≠ a := by
        rintro rfl
        exact hnew.fresh (mem_deployed_of_registered hw.wired howner)
      rw [Function.update_of_ne hother, Function.update_of_ne hother]
      exact ⟨howner, hold⟩

structure NamesCurrent (w : World F) : Prop where
  current : ∀ name p, w.registry.usedRewardPoolNames name = p → p ≠ 0 →
    ∃ rp, w.rewardPools p = some rp ∧ rp.name = name
  /-- a name that no registered reward pool has can be taken -/
  free : ∀ name trimmed, StringUtils.trim name = .ok trimmed → 1 ≤ trimmed.length →
    trimmed.length ≤ MAX_NAME_LENGTH →
    (∀ p rp, w.registry.rewardPoolToOwner p ≠ 0 → w.rewardPools p = some rp → rp.name ≠ trimmed) →
    w.registry.validateName name = .ok trimmed

omit [EnumerableSet F] in
theorem Current.namesCurrent (h : Current w.books) : NamesCurrent w where
  current := fun name p hp hne => by
    obtain ⟨_, hname⟩ := h name p hp hne
    exact Option.map_eq_some_iff.mp hname
  free := fun name trimmed htrim hnonempty hfits hnobody => by
    have hunused : w.registry.usedRewardPoolNames trimmed = 0 := by
      by_contra hne
      obtain ⟨howner, hname⟩ := h trimmed _ rfl hne
      obtain ⟨rp, hrp, hrpname⟩ := Option.map_eq_some_iff.mp hname
      exact hnobody _ rp howner hrp hrpname
    have hlen : ¬(trimmed.length = 0 ∨ trimmed.length > MAX_NAME_LENGTH) := by omega
    unfold RewardPoolRegistryV1.validateName RewardPoolRegistryV1.rewardPoolNameExists
    rw [htrim, ok_bind, require_of hlen, ok_bind, hunused]
    rfl

/-- In every run in which no reward pool is renamed that is recorded under its name, every recorded
name is the name of its reward pool. -/
theorem recorded_names_are_current (h : World.Run RenamesUnrecorded cfg) : NamesCurrent cfg.state :=
  ((kept_sane.booksRule (fun _ => id) current_rule).run h).2.namesCurrent

/-- A creation by `sender` that pays a fee of 7, with the contracts from `first` on. -/
def creationOf (sender : Address) (name : Bytes) (first : Address) : CallStack.Label Call :=
  .call ⟨sender, .registry (.createRewardPool 7 first {
    owner := sender, name, redeemMethod := .CustomERC20, redeemTokenContractAddress := 0
    redeemTokenAmount := 5, withdrawAddress := 0, admins := [], rewardPool := first + 1
    redeemToken := first + 2, assetPool := first + 3 })⟩

/-- The account 1 creates a reward pool with the name "A", and pays the fee to the revenue wallet 4.
Before this call goes on, the revenue wallet creates a reward pool with the name `name`. -/
def nestedCreations (name : Bytes) : List (CallStack.Label Call) :=
  [.call ⟨1, .registry (.setRewardPoolCreationFee 7)⟩, creationOf 1 [65] 1001,
    creationOf 4 name 1011, .ret, .ret]

/-- The reward pool that lost the name "A" takes the name "B". -/
def loserRenamed : CallStack.Config (World ListSet) Call :=
  World.after RenamesUnrecorded
    (nestedCreations [65] ++ [.call ⟨4, .registry (.setNewRewardPoolName 1012 [66])⟩])

theorem recorded_names_are_current_loserRenamed : NamesCurrent loserRenamed.state ∧
    loserRenamed.state.registry.usedRewardPoolNames [65] = 1002 ∧
    loserRenamed.state.registry.usedRewardPoolNames [66] = 1012 :=
  ⟨recorded_names_are_current (World.run_after RenamesUnrecorded _), by decide⟩

/-- The reward pool "A" is renamed to "B". -/
def renamed : CallStack.Config (World ListSet) Call :=
  World.after (fun _ _ => True)
    [World.opening .CustomERC20, .call ⟨1, .registry (.setNewRewardPoolName 1002 [66])⟩]

theorem isSome_renamed : (renamed.state.rewardPools 1002).isSome = true := by
  decide

theorem old_name_stays_recorded : World.Run (fun _ _ => True) renamed ∧
    ((renamed.state.rewardPools 1002).get isSome_renamed).name = [66] ∧
    renamed.state.registry.usedRewardPoolNames [65] = 1002 ∧
    renamed.state.registry.validateName [65] = .error .NameAlreadyExists :=
  ⟨World.run_after (fun _ _ => True) _, by decide⟩

/-! ### Equal names -/

/-- The name that a call takes, if it succeeds. -/
def Call.takes (call : Call) : Option Bytes :=
  match call.action with
  | .registry (.createRewardPool _ _ n) => (StringUtils.trim n.name).toOption
  | .registry (.setNewRewardPoolName _ rewardPoolName) => (StringUtils.trim rewardPoolName).toOption
  | _ => none

/-- The name that a creation has checked, and records at its end. -/
def Call.reserves (call : Call) : Option Bytes :=
  match call.action with
  | .registry (.createRewardPool _ _ n) => (StringUtils.trim n.name).toOption
  | _ => none

/-- While a creation is open, no call takes its name. -/
def TakesNoOpenName (as : List Call) (call : Call) : Prop :=
  ∀ b ∈ as, b.reserves ≠ none → call.takes ≠ b.reserves

instance (as : List Call) (call : Call) : Decidable (TakesNoOpenName as call) :=
  inferInstanceAs (Decidable (∀ b ∈ as, _))

/-- The name of a registered reward pool is proper, and recorded for it. -/
def Named (x : Books F) : Prop := ∀ p name, x.registry.rewardPoolToOwner p ≠ 0 →
  x.nameOf p = some name → Proper name ∧ x.registry.usedRewardPoolNames name = p

/-- The open creations have different names, which are still free. -/
structure Reserved (as : List Call) (w : World F) : Prop where
  callable : ∀ call ∈ as, ∃ w : World F, w.CanCall call
  free : ∀ call ∈ as, ∀ name, call.reserves = some name →
    Proper name ∧ w.registry.usedRewardPoolNames name = 0
  different : as.Pairwise fun a b => ∀ name, a.reserves = some name → b.reserves ≠ some name

theorem Named.nameStep (hw : Wired w.wiring) (hI : Named w.books)
    (howners : x.registry.rewardPoolToOwner = w.registry.rewardPoolToOwner) (h : NameStep w call x) :
    Named x := by
  intro p name howner hp
  rw [howners] at howner
  cases h with
  | same hused hname =>
    rw [hname p (mem_deployed_of_registered hw howner)] at hp
    rw [hused]
    exact hI p name howner hp
  | rename pool rewardPoolName name' hcall hsender hvalid hused hname =>
    obtain ⟨_, hproper, hunused⟩ := validateName_eq_ok hvalid
    rw [hname] at hp
    rw [hused]
    by_cases hpool : p = pool
    · subst hpool
      rw [Function.update_self, Option.some.injEq] at hp
      subst hp
      exact ⟨hproper, Function.update_self ..⟩
    · rw [Function.update_of_ne hpool] at hp
      obtain ⟨hproper', hold⟩ := hI p name howner hp
      have hother : name ≠ name' := by
        rintro rfl
        have hzero : (0 : Address) = p := hunused.symm.trans hold
        exact (hw.system p (mem_deployed_of_registered hw howner)).1 hzero.symm
      rw [Function.update_of_ne hother]
      exact ⟨hproper', hold⟩

theorem Call.takes_of_reserves (h : call.reserves = some name) : call.takes = some name := by
  unfold Call.reserves at h
  unfold Call.takes
  split at h
  · rename_i hcall
    rw [hcall]
    exact h
  · cases h

/-- A creation has checked its name when it pays the fee. -/
theorem enter_reserves (hreserves : call.reserves = some name) (h : w.enter call = .ok w') :
    Proper name ∧ w.registry.usedRewardPoolNames name = 0 := by
  unfold Call.reserves at hreserves
  split at hreserves
  · rename_i hcall
    unfold World.enter at h
    simp only [hcall, World.registryCall, World.createRewardPoolFee, bind_eq_ok] at h
    obtain ⟨_, _, trimmed, hvalid, _⟩ := h
    obtain ⟨htrim, hproper, hunused⟩ := validateName_eq_ok hvalid
    rw [toOption_eq_some, htrim, Except.ok.injEq] at hreserves
    subst hreserves
    exact ⟨hproper, hunused⟩
  · cases hreserves

theorem Reserved.enter (hI : Reserved as w) (hcan : w.CanCall call)
    (hopen : TakesNoOpenName as call) (hstep : NameStep w call w'.books) (h : w.enter call = .ok w') :
    Reserved (call :: as) w' := by
  have hdifferent : ∀ b ∈ as, ∀ name, call.takes = some name → b.reserves ≠ some name := by
    intro b hb name htakes hreserves
    exact hopen b hb (by simp [hreserves]) (htakes.trans hreserves.symm)
  constructor
  · exact List.forall_mem_cons.mpr ⟨⟨w, hcan⟩, hI.callable⟩
  · cases hstep with
    | same hused _ =>
      change w'.registry.usedRewardPoolNames = _ at hused
      rw [hused]
      exact List.forall_mem_cons.mpr ⟨fun name hreserves => enter_reserves hreserves h, hI.free⟩
    | rename pool rewardPoolName name' hcall _ hvalid hused _ =>
      change w'.registry.usedRewardPoolNames = _ at hused
      have hnone : call.reserves = none := by
        unfold Call.reserves
        rw [hcall]
      have htakes : call.takes = some name' := by
        unfold Call.takes
        rw [hcall]
        exact toOption_eq_some.mpr (validateName_eq_ok hvalid).1
      rw [hused]
      refine List.forall_mem_cons.mpr ⟨fun name hreserves => ?_, fun b hb name hreserves => ?_⟩
      · rw [hnone] at hreserves
        cases hreserves
      · obtain ⟨hproper, hfree⟩ := hI.free b hb name hreserves
        have hother : name ≠ name' := by
          rintro rfl
          exact hdifferent b hb name htakes hreserves
        rw [Function.update_of_ne hother]
        exact ⟨hproper, hfree⟩
  · refine List.pairwise_cons.mpr ⟨fun b hb name hreserves => ?_, hI.different⟩
    exact hdifferent b hb name (Call.takes_of_reserves hreserves)

omit [EnumerableSet F] in
/-- The creation at the end of which a name is recorded is the one that has reserved it. -/
theorem NameRegistration.reserves (h : NameRegistration w call x a name) :
    call.reserves = some name := by
  obtain ⟨_, _, _, htrim, hcall⟩ := h.trim
  unfold Call.reserves
  rw [hcall]
  exact toOption_eq_some.mpr htrim

omit [EnumerableSet F] in
theorem Reserved.registration (hI : Reserved (call :: as) w)
    (h : NameRegistration w call w'.books a name) : Reserved as w' where
  callable := (List.forall_mem_cons.mp hI.callable).2
  free := by
    intro b hb name' hreserves
    obtain ⟨hproper, hfree⟩ := hI.free b (List.mem_cons_of_mem _ hb) name' hreserves
    have hother : name' ≠ name := by
      rintro rfl
      exact (List.pairwise_cons.mp hI.different).1 b hb name' h.reserves hreserves
    have hused : w'.registry.usedRewardPoolNames = _ := h.used
    rw [hused, Function.update_of_ne hother]
    exact ⟨hproper, hfree⟩
  different := (List.pairwise_cons.mp hI.different).2

theorem Named.registration (hw : Wired w.wiring) (hI : Named w.books) (hproper : Proper name)
    (hfree : w.registry.usedRewardPoolNames name = 0) (h : NameRegistration w call x a name) :
    Named x := by
  intro p name' howner hp
  rw [h.owner] at howner
  rw [h.nameOf] at hp
  rw [h.used]
  by_cases hpa : p = a
  · subst hpa
    rw [Function.update_self, Option.some.injEq] at hp
    subst hp
    exact ⟨hproper, Function.update_self ..⟩
  · rw [Function.update_of_ne hpa] at howner hp
    obtain ⟨hproper', hold⟩ := hI p name' howner hp
    have hother : name' ≠ name := by
      rintro rfl
      have hzero : (0 : Address) = p := hfree.symm.trans hold
      exact (hw.system p (mem_deployed_of_registered hw howner)).1 hzero.symm
    rw [Function.update_of_ne hother]
    exact ⟨hproper', hold⟩

omit [EnumerableSet F] in
theorem Reserved.of_used (hI : Reserved as w)
    (h : w'.registry.usedRewardPoolNames = w.registry.usedRewardPoolNames) : Reserved as w' where
  callable := hI.callable
  free := by
    rw [h]
    exact hI.free
  different := hI.different

omit [EnumerableSet F] in
theorem Reserved.tail (hI : Reserved (call :: as) w) : Reserved as w where
  callable := (List.forall_mem_cons.mp hI.callable).2
  free := (List.forall_mem_cons.mp hI.free).2
  different := (List.pairwise_cons.mp hI.different).2

/-- What holds of the names while the calls `as` are open. -/
structure NamesInv (as : List Call) (w : World F) : Prop where
  sane : Sane w
  named : Named w.books
  reserved : Reserved as w

theorem namesInv_preserved : CallStack.PreservedWithin (World.machine F)
    (fun as w call => w.CanCall call ∧ TakesNoOpenName as call) NamesInv where
  enter := fun as call w w' hI hP h => by
    have hsane := (kept_sane (P := fun _ _ => True) (F := F)).preserved
    have hbooks := enter_books hI.sane.wired hP.1 h
    exact {
      sane := hsane.enter call w w' trivial hI.sane ⟨hP.1, trivial⟩ h
      named := hI.named.nameStep hI.sane.wired hbooks.registered.2.1 hbooks.nameStep
      reserved := hI.reserved.enter hP.1 hP.2 hbooks.nameStep h }
  leave := fun as call w w' hI h => by
    have hsane := (kept_sane (P := fun _ _ => True) (F := F)).preserved
    obtain ⟨w₁, hcan⟩ := hI.reserved.callable call List.mem_cons_self
    have hsane' := hsane.leave call w w' trivial hI.sane ⟨w₁, hcan, trivial⟩ h
    rcases leave_books h with hsame | hregistration
    · have hused : w'.registry.usedRewardPoolNames = w.registry.usedRewardPoolNames :=
        congrArg (fun x => x.registry.usedRewardPoolNames) hsame
      exact ⟨hsane', hsame ▸ hI.named, hI.reserved.tail.of_used hused⟩
    · obtain ⟨a, name, hnew⟩ := hregistration.names
      obtain ⟨hproper, hfree⟩ := hI.reserved.free call List.mem_cons_self name hnew.reserves
      exact ⟨hsane', hI.named.registration hI.sane.wired hproper hfree hnew,
        hI.reserved.registration hnew⟩
  abort := fun as call w hI hP => by
    have hsane := (kept_sane (P := fun _ _ => True) (F := F)).preserved
    have hsane' := hsane.abort call w trivial hI.sane ⟨hP.1, trivial⟩
    rcases abort_eq w call with heq | ⟨requestId, k, heq⟩
    · rwa [heq]
    · rw [heq] at hsane' ⊢
      exact ⟨hsane', hI.named, hI.reserved.of_used rfl⟩

/-- Registered reward pools have proper names, which are recorded for them, so no two have the same
name. -/
structure NamesUnique (w : World F) : Prop where
  unique : ∀ a b rp rp', w.registry.rewardPoolToOwner a ≠ 0 → w.registry.rewardPoolToOwner b ≠ 0 →
    w.rewardPools a = some rp → w.rewardPools b = some rp' → rp.name = rp'.name → a = b
  proper : ∀ a rp, w.registry.rewardPoolToOwner a ≠ 0 → w.rewardPools a = some rp → Proper rp.name
  recorded : ∀ a rp, w.registry.rewardPoolToOwner a ≠ 0 → w.rewardPools a = some rp →
    w.registry.usedRewardPoolNames rp.name = a

omit [EnumerableSet F] in
theorem Named.namesUnique (h : Named w.books) : NamesUnique w := by
  have hname : ∀ a rp, w.rewardPools a = some rp → w.books.nameOf a = some rp.name := by
    intro a rp hrp
    exact Option.map_eq_some_iff.mpr ⟨rp, hrp, rfl⟩
  constructor
  · intro a b rp rp' ha hb hrp hrp' heq
    have hused := (h a rp.name ha (hname a rp hrp)).2
    have hused' := (h b rp'.name hb (hname b rp' hrp')).2
    rw [heq] at hused
    exact hused.symm.trans hused'
  · intro a rp ha hrp
    exact (h a rp.name ha (hname a rp hrp)).1
  · intro a rp ha hrp
    exact (h a rp.name ha (hname a rp hrp)).2

/-- In every run in which nobody takes the name of a creation that is open, the names of the
registered reward pools are unique. -/
theorem names_are_unique {w₀ : World F} (hw₀ : w₀.Initial)
    (h : CallStack.ReachableWithin (World.machine F)
      (fun as w call => w.CanCall call ∧ TakesNoOpenName as call) w₀ cfg) :
    NamesUnique cfg.state := by
  have hinv := h.invariant namesInv_preserved ⟨sane_initial hw₀, fun p name howner _ =>
    absurd (hw₀.rewardPoolToOwner p) howner, ⟨by simp, by simp, .nil⟩⟩
  exact hinv.named.namesUnique

def differentNames : CallStack.Config (World ListSet) Call :=
  (CallStack.runWithin (World.machine ListSet)
    (fun as w call => w.CanCall call ∧ TakesNoOpenName as call) (nestedCreations [66])
    ⟨World.genesis, []⟩).getD ⟨World.genesis, []⟩

theorem names_are_unique_nested : NamesUnique differentNames.state ∧
    differentNames.state.registry.rewardPoolToOwner 1002 = 1 ∧
    differentNames.state.registry.rewardPoolToOwner 1012 = 4 :=
  ⟨names_are_unique World.initial_genesis (CallStack.ReachableWithin.init.run_getD _),
    by decide⟩

/-- Two reward pools have the name "A". -/
def sameName : CallStack.Config (World ListSet) Call :=
  World.after (fun _ _ => True) (nestedCreations [65])

theorem isSome_sameName : (sameName.state.rewardPools 1002).isSome = true ∧
    (sameName.state.rewardPools 1012).isSome = true := by
  decide

theorem names_repeat : World.Run (fun _ _ => True) sameName ∧
    sameName.state.registry.rewardPoolToOwner 1002 = 1 ∧
    sameName.state.registry.rewardPoolToOwner 1012 = 4 ∧
    ((sameName.state.rewardPools 1002).get isSome_sameName.1).name = [65] ∧
    ((sameName.state.rewardPools 1012).get isSome_sameName.2).name = [65] ∧
    sameName.state.registry.usedRewardPoolNames [65] = 1002 :=
  ⟨World.run_after (fun _ _ => True) _, by decide⟩

end Redeemy
