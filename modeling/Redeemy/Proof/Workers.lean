import Redeemy.Proof.HubLedger

/-!
# Relay workers

An address becomes the worker of one manager, for good. The hub counts the workers of each manager, and
what it logs as relayed by a worker is credited to the manager of that worker.
-/

namespace Redeemy

open Fallible Handover Gsn

variable {d : Deployment} {h : RelayHub} {s s' : Gsn} {r : Relaying} {rs : List Rest} {stage : Stage}
variable {event : HubEvent} {E : Effect → Prop} {c c' : Config Gsn Rest} {m w : Address}

/-- The number of workers of a manager. -/
def RelayHub.numberOfWorkers (h : RelayHub) (m : Address) : Nat :=
  (Finset.univ.filter fun w => h.workerToManager w = m).card

/-- The workers of `h` have the same managers in `h'`. -/
def RelayHub.Retains (h h' : RelayHub) : Prop :=
  ∀ w, h.workerToManager w ≠ 0 → h'.workerToManager w = h.workerToManager w

/-- A relayed transaction is credited to the manager of the worker, or of the worker that the gateway
names. -/
def HubEvent.Credited (d : Deployment) (h : RelayHub) : HubEvent → Prop
  | .transactionRelayed relayManager relayWorker _ _ _ _ _ => relayManager ≠ 0 ∧
      (relayWorker ≠ d.batchGateway → h.workerToManager relayWorker = relayManager)
  | _ => True

theorem retains_log (hvalid : event.Valid h) : h.Retains (h.log event) := by
  intro w hw
  cases event with
  | relayWorkersAdded relayManager workers count =>
    have hnot : w ∉ workers := fun hmem => hw (hvalid.2.2.1 w hmem)
    show (if w ∈ workers then relayManager else h.workerToManager w) = _
    rw [if_neg hnot]
  | withdrawn => exact hvalid.elim
  | deposited => exact hvalid.elim
  | _ => rfl

theorem retains_step (hstep : GsnStep d E s s') : s.hub.Retains s'.hub := by
  cases hstep with
  | logged event _ hvalid => exact retains_log hvalid
  | mined | staking | committed | revealed | moved | deposited => exact fun _ _ => rfl

/-! ### The count -/

/-- The managers' counts are right. -/
def CountsWorkers (h : RelayHub) : Prop := ∀ m, m ≠ 0 → h.workerCount m = h.numberOfWorkers m

variable {relayManager : Address} {workers : List Address} {count : Nat}

theorem numberOfWorkers_enlist_self (hm : m ≠ 0) (hnodup : workers.Nodup)
    (hfree : ∀ w ∈ workers, h.workerToManager w = 0) :
    (h.enlist m workers count).numberOfWorkers m = h.numberOfWorkers m + workers.length := by
  unfold RelayHub.numberOfWorkers RelayHub.enlist
  have hunion : (Finset.univ.filter fun w =>
      (if w ∈ workers then m else h.workerToManager w) = m) =
        (Finset.univ.filter fun w => h.workerToManager w = m) ∪ workers.toFinset := by
    ext w
    by_cases hw : w ∈ workers <;> simp [hw]
  -- the new workers had no manager before
  have hdisjoint : Disjoint (Finset.univ.filter fun w => h.workerToManager w = m)
      workers.toFinset := by
    rw [Finset.disjoint_left]
    intro w hw hmem
    have hnone := hfree w (List.mem_toFinset.mp hmem)
    exact hm ((Finset.mem_filter.mp hw).2.symm.trans hnone)
  rw [hunion, Finset.card_union_of_disjoint hdisjoint, List.toFinset_card_of_nodup hnodup]

theorem numberOfWorkers_enlist_of_ne (hm : m ≠ 0) (hne : relayManager ≠ m)
    (hfree : ∀ w ∈ workers, h.workerToManager w = 0) :
    (h.enlist relayManager workers count).numberOfWorkers m = h.numberOfWorkers m := by
  have hsame : ∀ w, (h.enlist relayManager workers count).workerToManager w = m ↔
      h.workerToManager w = m := by
    intro w
    by_cases hw : w ∈ workers
    · simp [RelayHub.enlist, hw, hfree w hw, hne, Ne.symm hm]
    · simp [RelayHub.enlist, hw]
  unfold RelayHub.numberOfWorkers
  rw [Finset.filter_congr fun w _ => hsame w]

theorem countsWorkers_enlist (hcounts : CountsWorkers h) (hnodup : workers.Nodup)
    (hfree : ∀ w ∈ workers, h.workerToManager w = 0)
    (hcount : count = h.workerCount relayManager + workers.length) :
    CountsWorkers (h.enlist relayManager workers count) := by
  intro m hm
  have hupdate : (h.enlist relayManager workers count).workerCount =
      Function.update h.workerCount relayManager count := rfl
  by_cases hself : relayManager = m
  · subst hself
    rw [numberOfWorkers_enlist_self hm hnodup hfree, hupdate, Function.update_self, hcount,
      hcounts _ hm]
  · rw [numberOfWorkers_enlist_of_ne hm hself hfree, hupdate,
      Function.update_of_ne (Ne.symm hself), hcounts m hm]

theorem CountsWorkers.of_same {h' : RelayHub} (hcounts : CountsWorkers h)
    (hworkers : h'.workerToManager = h.workerToManager) (hcount : h'.workerCount = h.workerCount) :
    CountsWorkers h' := by
  intro m hm
  rw [hcount, hcounts m hm, RelayHub.numberOfWorkers, RelayHub.numberOfWorkers, hworkers]

theorem countsWorkers_log (hcounts : CountsWorkers h) (hvalid : event.Valid h) :
    CountsWorkers (h.log event) := by
  cases event with
  | relayWorkersAdded relayManager workers count =>
    obtain ⟨_, hnodup, hfree, hcount, _⟩ := hvalid
    exact (countsWorkers_enlist hcounts hnodup hfree hcount).of_same rfl rfl
  | withdrawn => exact hvalid.elim
  | deposited => exact hvalid.elim
  | _ => exact hcounts.of_same rfl rfl

/-! ### The credits -/

/-- Everything relayed so far was credited rightly, and no worker has left its manager since a relay
call was checked. -/
structure Staffed (d : Deployment) (rests : List Rest) (s : Gsn) : Prop where
  counts : CountsWorkers s.hub
  credited : ∀ event ∈ s.hub.events, event.Credited d s.hub
  retains : ∀ r stage, .relaying r stage ∈ rests → r.before.hub.Retains s.hub

theorem HubEvent.Credited.retained {h' : RelayHub} (hcredited : event.Credited d h)
    (hretains : h.Retains h') : event.Credited d h' := by
  cases event with
  | transactionRelayed relayManager relayWorker =>
    refine ⟨hcredited.1, fun hworker => ?_⟩
    have hm := hcredited.2 hworker
    rw [hretains relayWorker (by rw [hm]; exact hcredited.1), hm]
  | _ => trivial

theorem RelayHub.Retains.trans {h₁ h₂ : RelayHub} (hretains : h.Retains h₁)
    (hretains' : h₁.Retains h₂) : h.Retains h₂ := by
  intro w hw
  have hw₁ := hretains w hw
  rw [hretains' w (by rw [hw₁]; exact hw), hw₁]

/-- A change that logs an event which is credited rightly. -/
theorem Staffed.log (hs : Staffed d rs s) (hvalid : event.Valid s.hub)
    (hcredited : event.Credited d s.hub) : Staffed d rs { s with hub := s.hub.log event } := by
  have hretains := retains_log hvalid
  refine ⟨countsWorkers_log hs.counts hvalid, ?_, fun r stage hr => (hs.retains r stage hr).trans hretains⟩
  show ∀ e ∈ (s.hub.log event).events, _
  rw [events_log]
  intro e he
  rcases List.mem_cons.mp he with rfl | he
  · exact hcredited.retained hretains
  · exact (hs.credited e he).retained hretains

/-- A change that leaves the workers alone, and logs at most an event that credits nobody. -/
theorem Staffed.of_same {rs' : List Rest} (hs : Staffed d rs s)
    (hworkers : s'.hub.workerToManager = s.hub.workerToManager)
    (hcount : s'.hub.workerCount = s.hub.workerCount)
    (hevents : ∀ e ∈ s'.hub.events, e ∈ s.hub.events ∨ e.Credited d s'.hub)
    (hrests : ∀ r stage, .relaying r stage ∈ rs' → .relaying r stage ∈ rs) : Staffed d rs' s' := by
  have hretains : s.hub.Retains s'.hub := fun w _ => congrFun hworkers w
  refine ⟨hs.counts.of_same hworkers hcount, fun e he => ?_, fun r stage hr =>
    (hs.retains r stage (hrests r stage hr)).trans hretains⟩
  · rcases hevents e he with he | he
    · exact (hs.credited e he).retained hretains
    · exact he

theorem staffed_rule : GsnRule d (fun _ => True) (Staffed d) where
  step := fun {rs s s' _ _} _ _ hs hstep => by
    cases hstep with
    | mined | staking | committed | revealed | moved =>
      exact hs.of_same rfl rfl (fun _ => .inl) (fun _ _ => id)
    | logged event hlogs hvalid =>
      refine hs.log hvalid ?_
      cases event with
      | transactionRelayed => exact hlogs.elim
      | _ => trivial
    | deposited target sender value =>
      refine hs.of_same rfl rfl (fun e he => ?_) (fun _ _ => id)
      rcases List.mem_cons.mp he with rfl | he
      · exact .inr trivial
      · exact .inl he
  pays := fun _ hs hpays => by
    obtain ⟨_, tokens, _, rfl⟩ := hpays
    exact hs.of_same rfl rfl (fun _ => .inl) fun r stage hr => by simpa using hr
  paid := fun hs => by
    refine hs.of_same rfl rfl (fun e he => ?_) fun r stage hr => List.mem_cons_of_mem _ hr
    rcases List.mem_cons.mp he with rfl | he
    · exact .inr trivial
    · exact .inl he
  opens := fun {rs s r} hs hbefore _ => by
    refine ⟨hs.counts, hs.credited, fun r' stage hr => ?_⟩
    rcases List.mem_cons.mp hr with heq | hr
    · cases heq
      rw [hbefore]
      exact fun _ _ => rfl
    · exact hs.retains r' stage hr
  passes := fun {rs s r stage stage'} hs => by
    refine ⟨hs.counts, hs.credited, fun r' stage₁ hr => ?_⟩
    rcases List.mem_cons.mp hr with heq | hr
    · cases heq
      exact hs.retains r stage (List.mem_cons_self ..)
    · exact hs.retains r' stage₁ (List.mem_cons_of_mem _ hr)
  logs := fun {rs s r stage event} hs hchecked hlogs hvalid => by
    refine hs.log hvalid ?_
    cases event with
    | transactionRelayed relayManager relayWorker =>
      obtain ⟨rfl, rfl, rfl⟩ := hlogs
      refine ⟨hchecked.known, fun hworker => ?_⟩
      -- the worker still has the manager it had when the call was checked
      have hself : r.sender = r.relayData.relayWorker := hchecked.sender.resolve_left hworker
      have hmanager : r.before.hub.workerToManager r.sender = r.relayManager := by
        rw [hself, hchecked.relayManager]
      rw [hs.retains r stage (List.mem_cons_self ..) r.sender (by rw [hmanager]; exact hchecked.known),
        hmanager]
    | _ => trivial
  closes := fun hs =>
    ⟨hs.counts, hs.credited, fun r stage hr => hs.retains r stage (List.mem_cons_of_mem _ hr)⟩
  asks := fun {rs s} hs => by
    refine ⟨hs.counts, hs.credited, fun r stage hr => ?_⟩
    rcases List.mem_cons.mp hr with heq | hr
    · cases heq
    · exact hs.retains r stage hr
  answered := fun hs =>
    ⟨hs.counts, hs.credited, fun r stage hr => hs.retains r stage (List.mem_cons_of_mem _ hr)⟩

theorem staffed_initial (hs : Gsn.Initial d s) : Staffed d [] s := by
  obtain ⟨owner, config, _, hhub⟩ := hs.hub
  refine ⟨fun m hm => ?_, ?_, fun r stage hr => absurd hr List.not_mem_nil⟩
  · have hnone : (Finset.univ.filter fun w => s.hub.workerToManager w = m) = ∅ := by
      apply Finset.filter_false_of_mem
      intro w _
      rw [hhub]
      exact Ne.symm hm
    have hzero : s.hub.workerCount m = 0 := by
      rw [hhub]
      rfl
    rw [RelayHub.numberOfWorkers, hnone, Finset.card_empty, hzero]
  · rw [hhub]
    intro event hevent
    rcases List.mem_cons.mp hevent with rfl | hevent
    · trivial
    · obtain rfl := List.mem_singleton.mp hevent
      trivial

/-- Once all calls have ended, a worker has its manager for good. -/
theorem retained (hquiet : c.frames = [])
    (hreach : Reachable (Gsn.machine d) (Gsn.Allowed d) c c') :
    c.state.hub.Retains c'.state.hub := by
  have hrule : GsnRule d (fun _ => True) fun _ s => c.state.hub.Retains s.hub :=
    .ofStep (fun hs hstep => hs.trans (retains_step hstep))
      (fun hs hpays => by
        obtain ⟨_, tokens, _, rfl⟩ := hpays
        exact hs)
      fun hs => hs
  exact (hreach.invariant hrule.preserved (fun _ _ => rfl) (by rw [hquiet]; exact .nil)).1

/-- In every configuration the hub counts the workers of each manager rightly, and every transaction
that a worker other than the batch gateway has relayed was credited to the manager of that worker. After
every call from outside has ended, a worker has its manager for good. -/
theorem workers_have_one_manager (h : Gsn.Run d c) :
    (∀ m, m ≠ 0 → c.state.hub.workerCount m = c.state.hub.numberOfWorkers m) ∧
    (∀ relayManager relayWorker src dst paymaster status charge,
      .transactionRelayed relayManager relayWorker src dst paymaster status charge ∈
        c.state.hub.events → relayManager ≠ 0 ∧
        (relayWorker ≠ d.batchGateway →
          c.state.hub.workerToManager relayWorker = relayManager)) ∧
    ∀ c', c.frames = [] → Reachable (Gsn.machine d) (Gsn.Allowed d) c c' → ∀ w,
      c.state.hub.workerToManager w ≠ 0 →
      c'.state.hub.workerToManager w = c.state.hub.workerToManager w := by
  have hstaffed := (staffed_rule.run (fun _ => staffed_initial) h).1
  exact ⟨hstaffed.counts, fun _ _ _ _ _ _ _ hevent => hstaffed.credited _ hevent,
    fun _ hquiet hreach => retained hquiet hreach⟩

set_option maxRecDepth 4000 in
theorem workers_have_one_manager_relaying :
    (after (relaying ++ [.ret []])).state.hub.workerCount 20 = 1 ∧
    (after (relaying ++ [.ret []])).state.hub.workerCount 20 =
      (after (relaying ++ [.ret []])).state.hub.numberOfWorkers 20 := by
  have hone := workers_have_one_manager (run_after (relaying ++ [.ret []]))
  exact ⟨by decide, hone.1 20 (by decide)⟩

end Redeemy
