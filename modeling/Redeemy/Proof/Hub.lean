import Redeemy.Proof.Staking

/-!
# What the hub does

Every change of the storage of the hub is what an event says (`HubEvent.apply`), and is logged with that
event (`RelayHub.log`). `GsnStep` is such a change, or one of the stake manager, the penalizer or the
tokens. The parts of a call are some of these steps (`start_cases`, `returned_cases`, `failed_cases`);
only a withdrawal changes the storage before it logs its event.
-/

namespace Redeemy

open Fallible Handover

/-! ### Charges -/

def RelayHub.withBalances (h : RelayHub) (balances : Address → Nat) : RelayHub :=
  { h with balances }

/-- The balances after a charge. -/
def RelayHub.charged (h : RelayHub) (paymaster relayManager : Address) (charge : Nat) : RelayHub :=
  let debited := Ledger.debit h.balances paymaster charge
  let shared := Ledger.credit debited relayManager (charge - h.calculateDevCharge charge)
  h.withBalances (Ledger.credit shared h.config.devAddress (h.calculateDevCharge charge))

/-- The hub with the workers of a manager. -/
def RelayHub.enlist (h : RelayHub) (relayManager : Address) (workers : List Address)
    (count : Nat) : RelayHub :=
  { h with
    workerToManager := fun a => if a ∈ workers then relayManager else h.workerToManager a
    workerCount := Function.update h.workerCount relayManager count }

/-! ### Events -/

/-- The storage after an event. -/
def HubEvent.apply (event : HubEvent) (h : RelayHub) : RelayHub :=
  match event with
  | .relayHubConfigured config => { h with config }
  | .relayWorkersAdded relayManager newRelayWorkers workersCount =>
    h.enlist relayManager newRelayWorkers workersCount
  | .withdrawn account _ amount => h.withBalances (Ledger.debit h.balances account amount)
  | .deposited paymaster _ amount => h.withBalances (Ledger.credit h.balances paymaster amount)
  | .stakingTokenDataChanged token minimumStake => { h with
      minimumStakePerToken := Function.update h.minimumStakePerToken token minimumStake }
  | .transactionRejectedByPaymaster .. => h
  | .transactionRelayed relayManager _ _ _ paymaster _ charge =>
    h.charged paymaster relayManager charge
  | .transactionResult .. => h
  | .hubDeprecated deprecationTime => { h with deprecationTime }
  | .abandonedRelayManagerBalanceEscheated relayManager balance =>
    h.withBalances (Ledger.move h.balances relayManager h.config.devAddress balance)
  | .ownershipTransferred owner => { h with owner }

/-- What holds when the hub changes its storage and logs the event. Payments are made, and told, on
their own. -/
def HubEvent.Valid (h : RelayHub) : HubEvent → Prop
  | .relayHubConfigured config => config.devFee < 100
  | .relayWorkersAdded relayManager workers count => relayManager ≠ 0 ∧ workers.Nodup ∧
      (∀ w ∈ workers, h.workerToManager w = 0) ∧
      count = h.workerCount relayManager + workers.length ∧ count ≤ h.config.maxWorkerCount
  | .transactionRelayed _ _ _ _ paymaster _ charge =>
    charge ≤ h.balances paymaster ∧ h.calculateDevCharge charge ≤ charge
  | .abandonedRelayManagerBalanceEscheated relayManager balance =>
    balance = h.balances relayManager
  | .withdrawn .. => False
  | .deposited .. => False
  | _ => True

/-- The hub after a change of the storage that it logs. -/
def RelayHub.log (h : RelayHub) (event : HubEvent) : RelayHub := (event.apply h).emit event

/-! ### Steps -/

/-- The storage of the hub changes in some steps, with events that satisfy `E`. -/
abbrev HubSteps (E : HubEvent → Prop) : RelayHub → RelayHub → Prop :=
  Relation.ReflTransGen fun h h' => ∃ event, E event ∧ event.Valid h ∧ h' = h.log event

/-- What a step is known by. -/
inductive Effect where
  | event (event : HubEvent)
  | stake (act : StakeAct)
  | commit (commitHash : Bytes32)
  | reveal (commitHash : Bytes32)

/-- The hash that the penalizer has something stored for. -/
def Effect.commitHash : Effect → Option Bytes32
  | .commit commitHash => some commitHash
  | .reveal commitHash => some commitHash
  | _ => none

/-- A step that does not pay out. -/
inductive GsnStep (d : Deployment) (E : Effect → Prop) : Gsn → Gsn → Prop
  | mined {s : Gsn} (timestamp : Nat) : s.timestamp ≤ timestamp → timestamp < 2 ^ 64 →
      GsnStep d E s { s with blockNumber := s.blockNumber + 1, timestamp }
  | staking {s : Gsn} {stakeManager : StakeManager} {tokens : Tokens} (act : StakeAct) :
      E (.stake act) →
      StakeStep d.stakeManager s.timestamp act (s.stakeManager, s.tokens) (stakeManager, tokens) →
      GsnStep d E s { s with stakeManager, tokens }
  | committed {s : Gsn} (commitHash : Bytes32) : E (.commit commitHash) →
      GsnStep d E s { s with penalizer :=
        s.penalizer.setCommit commitHash (s.blockNumber + s.penalizer.penalizeBlockDelay) }
  | revealed {s : Gsn} (commitHash : Bytes32) : E (.reveal commitHash) →
      GsnStep d E s { s with penalizer := s.penalizer.setCommit commitHash 0 }
  | moved {s : Gsn} {tokens : Tokens} : s.tokens.Foreign d.stakeManager tokens →
      s.tokens.native d.hub ≤ tokens.native d.hub →
      ∑ a, tokens.native a = ∑ a, s.tokens.native a → GsnStep d E s { s with tokens }
  | logged {s : Gsn} (event : HubEvent) : E (.event event) → event.Valid s.hub →
      GsnStep d E s { s with hub := s.hub.log event }
  | deposited {s : Gsn} {tokens : Tokens} (target sender : Address) (value : Nat) :
      E (.event (.deposited target sender value)) → Gsn.Outside d sender →
      s.tokens.send sender d.hub value .empty = .ok tokens →
      s.hub.balances target + value < UINT256_SIZE →
      GsnStep d E s { s with tokens, hub := s.hub.log (.deposited target sender value) }

abbrev GsnSteps (d : Deployment) (E : Effect → Prop) : Gsn → Gsn → Prop :=
  Relation.ReflTransGen (GsnStep d E)

/-- The call withdraws from the balance of `account`. -/
def GsnCall.Withdraws (account : Address) : GsnCall → Prop
  | .hub sender (.withdraw ..) => sender = account
  | .hub sender (.withdrawMultiple ..) => sender = account
  | _ => False

/-- The call takes the balance of `account` away. -/
def GsnCall.Escheats (account : Address) : GsnCall → Prop
  | .hub _ (.escheatAbandonedRelayBalance relayManager) => relayManager = account
  | _ => False

/-- The call makes the penalizer convict the worker, for the hub `hub`. -/
def PenalizerCall.Convicts (crypto : Crypto) (hub worker : Address) : PenalizerCall → Prop
  | .commit _ => False
  | .penalizeRepeatedNonce _ tx1 tx2 hub' =>
    hub' = hub ∧ Penalizer.checkRepeatedNonce crypto tx1 tx2 = .ok worker
  | .penalizeIllegalTransaction _ tx hub' =>
    hub' = hub ∧ Penalizer.checkIllegalTransaction crypto hub tx = .ok worker

/-- What the penalizer does with its commits in a call by `sender`. -/
def PenalizerCall.act (crypto : Crypto) (sender : Address) : PenalizerCall → Effect
  | .commit commitHash => .commit commitHash
  | .penalizeRepeatedNonce msgData _ _ _ => .reveal (Penalizer.commitHash crypto msgData sender)
  | .penalizeIllegalTransaction msgData _ _ => .reveal (Penalizer.commitHash crypto msgData sender)

/-- The events that the first part of a call can log. -/
def GsnCall.Logs (call : GsnCall) : HubEvent → Prop
  | .transactionRelayed .. => False
  | .withdrawn .. => False
  | .abandonedRelayManagerBalanceEscheated relayManager _ => call.Escheats relayManager
  | .relayWorkersAdded relayManager newRelayWorkers _ =>
    call = .hub relayManager (.addRelayWorkers newRelayWorkers)
  | _ => True

/-- What the first part of a call does to the stakes, in the state `s`. -/
def GsnCall.Stakes (d : Deployment) (s : Gsn) (act : StakeAct) : GsnCall → Prop
  | .stakeManager sender c => Gsn.Outside d sender ∧ act = c.act sender
  | .hub .. => act = .other
  | .penalizer _ c => ∃ worker, c.Convicts d.crypto d.hub worker ∧
    act = .penalize (s.hub.workerToManager worker) d.hub
  | _ => False

/-- What the first part of a call can do, in the state `s`. -/
def GsnCall.Does (d : Deployment) (s : Gsn) (call : GsnCall) : Effect → Prop
  | .event event => call.Logs event
  | .stake act => call.Stakes d s act
  | effect => ∃ sender c, call = .penalizer sender c ∧ effect = c.act d.crypto sender

/-- The events that the end of a relay call can log. -/
def Relaying.Logs (r : Relaying) : HubEvent → Prop
  | .transactionRelayed relayManager relayWorker _ _ paymaster _ _ =>
    relayManager = r.relayManager ∧ relayWorker = r.sender ∧ paymaster = r.paymaster
  | .transactionRejectedByPaymaster .. => True
  | .transactionResult .. => True
  | _ => False

/-- A payment of the hub is under way: its event is still to come. -/
structure Pays (d : Deployment) (s : Gsn) (account dest : Address) (amount : Nat) (s' : Gsn) : Prop where
  funds : amount ≤ s.hub.balances account
  state : ∃ tokens, s.tokens.send d.hub dest amount (.message "Transfer failed.") = .ok tokens ∧
    s' = { s with
      hub := s.hub.setBalance account (s.hub.balances account - amount), tokens }

/-- What was checked of a relay call before its inner call. -/
structure Checked (d : Deployment) (r : Relaying) : Prop where
  origin : r.call.origin ≠ 0
  relayManager : r.relayManager = r.before.hub.workerToManager r.relayData.relayWorker
  known : r.relayManager ≠ 0
  staked : r.before.verifyRelayManagerStaked d r.relayManager = .ok ()
  limits : r.before.verifyGasAndDataLimits r.call = .ok r.limits
  sender : r.sender = d.batchGateway ∨ r.sender = r.relayData.relayWorker

/-! ### Inversion -/

section

variable {d : Deployment} {h h' h₁ : RelayHub} {s s' base : Gsn} {r : Relaying} {o : Option Rest}
variable {sender relayManager account dest a : Address} {status : RelayCallStatus} {charge : Nat}
variable {stage : Stage} {data ret : Bytes} {success : Bool} {cfg : Config Gsn Rest}

theorem payDev_eq_ok {devCharge : Nat} : Relaying.payDev devCharge h = .ok h' ↔
    (devCharge = 0 ∨ h.balances h.config.devAddress + devCharge < UINT256_SIZE) ∧
      h' = h.withBalances (Ledger.credit h.balances h.config.devAddress devCharge) := by
  unfold Relaying.payDev
  split_ifs with hpos
  · simp only [bind_eq_ok, checkedAdd_eq_ok, pure_eq_ok, Nat.pos_iff_ne_zero.mp hpos, false_or]
    constructor
    · rintro ⟨_, ⟨hfits, rfl⟩, rfl⟩
      exact ⟨hfits, rfl⟩
    · rintro ⟨hfits, rfl⟩
      exact ⟨_, ⟨hfits, rfl⟩, rfl⟩
  · obtain rfl : devCharge = 0 := Nat.eq_zero_of_not_pos hpos
    have hsame : h.withBalances (Ledger.credit h.balances h.config.devAddress 0) = h := by
      simp only [RelayHub.withBalances, Ledger.credit, Nat.add_zero, Function.update_eq_self]
    rw [pure_eq_ok, hsame]
    exact ⟨fun heq => ⟨.inl rfl, heq.symm⟩, fun heq => heq.2.symm⟩

theorem settle_eq_ok (hsettle : r.settle status h = .ok h') : ∃ charge,
    charge ≤ h.balances r.paymaster ∧ h.calculateDevCharge charge ≤ charge ∧
    h' = h.log (.transactionRelayed r.relayManager r.sender r.request.src r.request.dst r.paymaster
      status charge) := by
  simp only [Relaying.settle, bind_eq_ok, checkedSub_eq_ok, checkedAdd_eq_ok, pure_eq_ok] at hsettle
  obtain ⟨_, ⟨_, rfl⟩, _, ⟨_, rfl⟩, _, ⟨_, rfl⟩, charge, _, _, ⟨hle, rfl⟩, _, ⟨hdev, rfl⟩, _, ⟨_, rfl⟩,
    h₁, hlast, rfl⟩ := hsettle
  obtain ⟨_, rfl⟩ := payDev_eq_ok.mp hlast
  exact ⟨charge, hle, hdev, rfl⟩

theorem finish_eq_ok (hfinish : r.finish success data s = .ok s') :
    ∃ hub, HubSteps r.Logs s.hub hub ∧ s' = { s with hub } := by
  simp only [Relaying.finish, bind_eq_ok, pure_eq_ok] at hfinish
  obtain ⟨_, _, ⟨status, value⟩, _, rejected, _, hub, hlast, rfl⟩ := hfinish
  refine ⟨hub, ?_, rfl⟩
  set h₁ := if 0 < value.length then s.hub.emit (.transactionResult status value) else s.hub with hh₁
  have hfirst : HubSteps r.Logs s.hub h₁ := by
    rw [hh₁]
    split_ifs
    · exact .single ⟨.transactionResult status value, trivial, trivial, rfl⟩
    · exact .refl
  refine hfirst.trans ?_
  cases rejected with
  | true =>
    obtain rfl := pure_eq_ok.mp hlast
    exact .single ⟨.transactionRejectedByPaymaster .., trivial, trivial, rfl⟩
  | false =>
    obtain ⟨charge, hle, hdev, rfl⟩ := settle_eq_ok hlast
    exact .single ⟨.transactionRelayed .., ⟨rfl, rfl, rfl⟩, ⟨hle, hdev⟩, rfl⟩

theorem setMinimumStakes_steps {call : GsnCall} {token : List Address} {minimumStake : List Nat}
    (hset : h.setMinimumStakes sender token minimumStake = .ok h') : HubSteps call.Logs h h' := by
  simp only [RelayHub.setMinimumStakes, bind_eq_ok, pure_eq_ok] at hset
  obtain ⟨_, -, _, -, rfl⟩ := hset
  generalize token.zip minimumStake = stakes
  induction stakes generalizing h with
  | nil => exact .refl
  | cons x stakes ih =>
    exact .head ⟨.stakingTokenDataChanged x.1 x.2, trivial, trivial, rfl⟩ ih

/-- The loop of `addRelayWorkers`. -/
theorem addWorkers_eq_ok {workers : List Address} (hm : relayManager ≠ 0)
    (hloop : workers.foldlM (Gsn.addWorker relayManager) h = .ok h') :
    workers.Nodup ∧ (∀ w ∈ workers, h.workerToManager w = 0) ∧
      h' = { h with workerToManager :=
        fun a => if a ∈ workers then relayManager else h.workerToManager a } := by
  induction workers generalizing h with
  | nil =>
    obtain rfl := pure_eq_ok.mp hloop
    simp
  | cons w workers ih =>
    rw [List.foldlM_cons, bind_eq_ok] at hloop
    obtain ⟨h₁, hadd, hloop⟩ := hloop
    simp only [Gsn.addWorker, bind_eq_ok, require_eq_ok, pure_eq_ok] at hadd
    obtain ⟨_, hfree, rfl⟩ := hadd
    obtain ⟨hnodup, hothers, rfl⟩ := ih hloop
    -- a worker that occurs again already has a manager
    have hnot : w ∉ workers := fun hw => hm (by simpa using hothers w hw)
    refine ⟨List.nodup_cons.mpr ⟨hnot, hnodup⟩, ?_, ?_⟩
    · rintro v hv
      rcases List.mem_cons.mp hv with rfl | hv
      · exact hfree
      · have hne : v ≠ w := fun heq => hnot (heq ▸ hv)
        simpa [hne] using hothers v hv
    · congr 1
      funext a
      by_cases ha : a = w
      · subst ha
        simp
      · simp [ha]

theorem addRelayWorkers_step {workers : List Address} (hsender : sender ≠ 0)
    (hadd : s.addRelayWorkers d sender workers = .ok h') : ∃ count,
      (HubEvent.relayWorkersAdded sender workers count).Valid s.hub ∧
        h' = s.hub.log (.relayWorkersAdded sender workers count) := by
  simp only [Gsn.addRelayWorkers, bind_eq_ok, checkedAdd_eq_ok, require_eq_ok, pure_eq_ok] at hadd
  obtain ⟨_, ⟨_, rfl⟩, _, hmax, _, _, h₁, hloop, rfl⟩ := hadd
  obtain ⟨hnodup, hfree, rfl⟩ := addWorkers_eq_ok hsender hloop
  exact ⟨_, ⟨hsender, hnodup, hfree, rfl, hmax⟩, rfl⟩

theorem escheatAbandonedRelayBalance_step
    (hescheat : s.escheatAbandonedRelayBalance sender relayManager = .ok h') :
    h' = s.hub.log (.abandonedRelayManagerBalanceEscheated relayManager
      (s.hub.balances relayManager)) := by
  simp only [Gsn.escheatAbandonedRelayBalance, bind_eq_ok, checkedAdd_eq_ok, require_eq_ok,
    pure_eq_ok] at hescheat
  obtain ⟨_, _, _, _, _, _, _, ⟨_, rfl⟩, rfl⟩ := hescheat
  have hzero : Ledger.debit s.hub.balances relayManager (s.hub.balances relayManager) =
      Function.update s.hub.balances relayManager 0 := by
    rw [Ledger.debit, Nat.sub_self]
  simp only [RelayHub.log, HubEvent.apply, RelayHub.withBalances, Ledger.move, hzero]
  rfl

/-! ### Parts of calls -/

theorem HubSteps.lift {E : Effect → Prop} {hub : RelayHub}
    (hsteps : HubSteps (fun event => E (.event event)) s.hub hub) : GsnSteps d E s { s with hub } := by
  induction hsteps with
  | refl => exact .refl
  | tail _ hstep ih =>
    obtain ⟨event, hE, hvalid, rfl⟩ := hstep
    exact ih.tail (.logged event hE hvalid)

theorem tokenCall_step {t t' : Tokens} {c : TokenCall} (hout : Gsn.Outside d sender)
    (hcall : Gsn.tokenCall t a sender c = .ok t') :
    t.Foreign d.stakeManager t' ∧ t'.native = t.native := by
  cases c with
  | transfer dst amount =>
    simp only [Gsn.tokenCall, bind_eq_ok, pure_eq_ok] at hcall
    obtain ⟨⟨t₁, answer⟩, hcall, rfl⟩ := hcall
    refine ⟨⟨(Tokens.spares_erc20Transfer (Ne.symm hout.2.2.1) hcall).toLeaves, fun τ hmoving =>
      (hmoving.call (fun _ _ => Tokens.answers_transfer) hcall).1⟩, ?_⟩
    obtain ⟨_, _, _, _, rfl, _⟩ := Tokens.erc20Call_eq_ok hcall
    rfl
  | approve spender amount =>
    simp only [Gsn.tokenCall, bind_eq_ok, Tokens.erc20Contract_eq_ok, pure_eq_ok] at hcall
    obtain ⟨tok, htok, rfl⟩ := hcall
    have hspares : ERC20.Spares d.stakeManager tok { tok with
        allowance := Function.update tok.allowance sender
          (Function.update (tok.allowance sender) spender amount) } := by
      refine ⟨⟨rfl, fun hguards s => ?_⟩, fun _ => Nat.le_refl _⟩
      show Function.update tok.allowance sender _ d.stakeManager s = 0
      rw [Function.update_of_ne (Ne.symm hout.2.2.1)]
      exact hguards s
    refine ⟨⟨(Tokens.spares_setERC20 htok hspares).toLeaves, fun τ hmoving tok' htok' answer hanswer => ?_⟩,
      rfl⟩
    · by_cases hτ : τ = a
      · subst hτ
        simp only [Tokens.setERC20, Function.update_self, Option.mem_some_iff] at htok'
        subst htok'
        exact hmoving tok htok answer hanswer
      · simp only [Tokens.setERC20, Function.update_of_ne hτ] at htok'
        exact hmoving tok' htok' answer hanswer
  | transferFrom src dst amount =>
    simp only [Gsn.tokenCall, bind_eq_ok, pure_eq_ok] at hcall
    obtain ⟨⟨t₁, answer⟩, hcall, rfl⟩ := hcall
    refine ⟨⟨(Tokens.spares_erc20TransferFrom hcall).toLeaves, fun τ hmoving =>
      (hmoving.call (fun _ _ => Tokens.answers_transferFrom) hcall).1⟩, ?_⟩
    obtain ⟨_, _, _, _, rfl, _⟩ := Tokens.erc20Call_eq_ok hcall
    rfl

theorem onHub_eq_ok {x : Result RelayHub} (hx : s.onHub x = .ok (s', o)) :
    ∃ hub, x = .ok hub ∧ s' = { s with hub } ∧ o = none := by
  simp only [Gsn.onHub, bind_eq_ok, pure_eq_ok, Prod.mk.injEq] at hx
  obtain ⟨hub, hx, rfl, rfl⟩ := hx
  exact ⟨hub, hx, rfl, rfl⟩

theorem atOnce_eq_ok {x : Result Gsn} (hx : Gsn.atOnce x = .ok (s', o)) : x = .ok s' ∧ o = none := by
  simp only [Gsn.atOnce, bind_eq_ok, pure_eq_ok, Prod.mk.injEq] at hx
  obtain ⟨_, hx, rfl, rfl⟩ := hx
  exact ⟨hx, rfl⟩

theorem withdrawNext_cases {rest : List (Nat × Option Address)}
    (hnext : Gsn.withdrawNext d account rest s = .ok (s', o)) :
    (o = none ∧ s' = s) ∨ ∃ dest amount rest',
      o = some (.withdrawing account dest amount rest') ∧ Pays d s account dest amount s' := by
  unfold Gsn.withdrawNext at hnext
  split at hnext
  · obtain ⟨rfl, rfl⟩ := Prod.mk.inj (pure_eq_ok.mp hnext)
    exact .inl ⟨rfl, rfl⟩
  · simp only [bind_eq_ok, require_eq_ok, pure_eq_ok, Prod.mk.injEq] at hnext
    obtain ⟨_, hfunds, dest, _, tokens, hsend, rfl, rfl⟩ := hnext
    exact .inr ⟨dest, _, _, rfl, hfunds, tokens, hsend, rfl⟩

theorem relayCall_eq_ok {c : RelayCall} (horigin : c.origin ≠ 0)
    (hcall : s.relayCall d sender c = .ok (s', o)) :
    ∃ r, o = some (.relaying r .preRelayedCall) ∧ s' = s ∧ r.before = s ∧ Checked d r := by
  simp only [Gsn.relayCall, Gsn.verifyRelayManager, bind_eq_ok, require_eq_ok, pure_eq_ok,
    Prod.mk.injEq] at hcall
  obtain ⟨_, _, _, hsender, relayManager, hmanager, limits, hlimits, _, _, _, _, _, _, rfl, rfl⟩ := hcall
  have hreal : c.origin ≠ Forwarder.DRY_RUN_ADDRESS := horigin
  rw [if_pos hreal] at hmanager
  simp only [bind_eq_ok, require_eq_ok, pure_eq_ok] at hmanager
  obtain ⟨_, hknown, _, hstaked, rfl⟩ := hmanager
  refine ⟨_, rfl, rfl, rfl, horigin, rfl, hknown, hstaked, hlimits, ?_⟩
  by_cases hgateway : sender = d.batchGateway
  · exact .inl hgateway
  · rw [Gsn.verifySender, if_pos ⟨hgateway, hreal⟩] at hsender
    simp only [bind_eq_ok, require_eq_ok] at hsender
    exact .inr hsender.choose_spec.2.choose_spec.2

/-! ### The penalizer -/

variable {c : PenalizerCall} {msgData : Bytes} {penalizer : Penalizer} {hub relay : Address}

theorem commitRevealOnly_eq_ok (hreveal : s.penalizer.commitRevealOnly d.crypto s.blockNumber sender
    msgData = .ok penalizer) :
    penalizer = s.penalizer.setCommit (Penalizer.commitHash d.crypto msgData sender) 0 := by
  unfold Penalizer.commitRevealOnly at hreveal
  split at hreveal
  · simp only [bind_eq_ok, pure_eq_ok] at hreveal
    obtain ⟨_, _, _, _, _, _, _, _, rfl⟩ := hreveal
    rfl
  · exact (pure_eq_ok.mp hreveal).symm

theorem penalize_step {beneficiary : Address}
    (hpenalize : s.penalize d sender relay beneficiary = .ok s') : ∃ stakeManager tokens,
    StakeStep d.stakeManager s.timestamp (.penalize (s.hub.workerToManager relay) d.hub)
      (s.stakeManager, s.tokens) (stakeManager, tokens) ∧ s' = { s with stakeManager, tokens } := by
  simp only [Gsn.penalize, bind_eq_ok, pure_eq_ok] at hpenalize
  obtain ⟨_, _, _, _, _, _, ⟨stakeManager, tokens⟩, hpenalize, rfl⟩ := hpenalize
  exact ⟨stakeManager, tokens, penalizeRelayManager_step hpenalize, rfl⟩

/-- The penalizer has convicted the relay worker, and calls the hub it was told. -/
theorem penalizeAt_cases (hact : c.act d.crypto sender = .reveal
      (Penalizer.commitHash d.crypto msgData sender))
    (hreveal : s.penalizer.commitRevealOnly d.crypto s.blockNumber sender msgData = .ok penalizer)
    (hconvicts : hub = d.hub → c.Convicts d.crypto d.hub relay)
    (hat : { s with penalizer }.penalizeAt d sender hub relay = .ok (s', o)) :
    (o = none ∧ GsnSteps d ((GsnCall.penalizer sender c).Does d s) s s') ∨
      (o = some .penalizing ∧ GsnSteps d ((GsnCall.penalizer sender c).Does d s) s s') := by
  obtain rfl := commitRevealOnly_eq_ok hreveal
  have hfirst := GsnStep.revealed (d := d) (s := s) (E := (GsnCall.penalizer sender c).Does d s)
    (Penalizer.commitHash d.crypto msgData sender) ⟨sender, c, rfl, hact.symm⟩
  unfold Gsn.penalizeAt at hat
  split at hat
  · rename_i hhub
    obtain ⟨hpenalize, rfl⟩ := atOnce_eq_ok hat
    obtain ⟨stakeManager, tokens, hstake, rfl⟩ := penalize_step hpenalize
    exact .inl ⟨rfl, .tail (.single hfirst) (.staking _ ⟨relay, hconvicts hhub, rfl⟩ hstake)⟩
  · obtain ⟨rfl, rfl⟩ := Prod.mk.inj (pure_eq_ok.mp hat)
    exact .inr ⟨rfl, .single hfirst⟩

theorem penalizerCall_cases (hcall : s.penalizerCall d sender c = .ok (s', o)) :
    (o = none ∧ GsnSteps d ((GsnCall.penalizer sender c).Does d s) s s') ∨
      (o = some .penalizing ∧ GsnSteps d ((GsnCall.penalizer sender c).Does d s) s s') := by
  cases c with
  | commit commitHash =>
    obtain ⟨hcommit, rfl⟩ := atOnce_eq_ok hcall
    simp only [Gsn.commit, Penalizer.commit, bind_eq_ok, checkedAdd_eq_ok, pure_eq_ok] at hcommit
    obtain ⟨_, ⟨_, ⟨_, rfl⟩, rfl⟩, rfl⟩ := hcommit
    exact .inl ⟨rfl, .single (.committed commitHash ⟨sender, _, rfl, rfl⟩)⟩
  | penalizeRepeatedNonce msgData tx1 tx2 hub =>
    simp only [Gsn.penalizerCall, bind_eq_ok] at hcall
    obtain ⟨penalizer, hreveal, relay, hcheck, hat⟩ := hcall
    exact penalizeAt_cases rfl hreveal (fun hhub => ⟨hhub, hcheck⟩) hat
  | penalizeIllegalTransaction msgData tx hub =>
    simp only [Gsn.penalizerCall, bind_eq_ok] at hcall
    obtain ⟨penalizer, hreveal, relay, hcheck, hat⟩ := hcall
    exact penalizeAt_cases rfl hreveal (fun hhub => ⟨hhub, hhub ▸ hcheck⟩) hat

/-- What the first part of a call does. -/
theorem start_cases {c : GsnCall} (hcan : Gsn.CanCall d cfg c)
    (hstart : Gsn.start d c cfg.state = .ok (s', o)) :
    (o = none ∧ GsnSteps d (c.Does d cfg.state) cfg.state s') ∨
    (∃ account dest amount rest, o = some (.withdrawing account dest amount rest) ∧
      c.Withdraws account ∧ Gsn.Outside d account ∧ Pays d cfg.state account dest amount s') ∨
    (∃ r, o = some (.relaying r .preRelayedCall) ∧ s' = cfg.state ∧ r.before = cfg.state ∧
      Checked d r) ∨
    (o = some .penalizing ∧ GsnSteps d (c.Does d cfg.state) cfg.state s') := by
  cases c with
  | mine timestamp =>
    obtain ⟨rfl, rfl⟩ := Prod.mk.inj (pure_eq_ok.mp hstart)
    exact .inl ⟨rfl, .single (.mined timestamp hcan.2.1 hcan.2.2)⟩
  | stakeManager sender c =>
    simp only [Gsn.start, bind_eq_ok, pure_eq_ok, Prod.mk.injEq] at hstart
    obtain ⟨⟨stakeManager, tokens⟩, hcall, rfl, rfl⟩ := hstart
    exact .inl ⟨rfl, .single (.staking _ ⟨hcan, rfl⟩ (stakeCall_step hcan.2.2.1 hcall))⟩
  | sendNative sender dst value =>
    simp only [Gsn.start, bind_eq_ok, pure_eq_ok, Prod.mk.injEq] at hstart
    obtain ⟨tokens, hsend, rfl, rfl⟩ := hstart
    refine .inl ⟨rfl, .single (.moved (Tokens.foreign_send (Ne.symm hcan.2.2.1) hsend) ?_ ?_)⟩
    · exact (Tokens.spares_send (.inl (Ne.symm hcan.2.1)) hsend).native
    · obtain ⟨hle, rfl⟩ := Tokens.send_eq_ok hsend
      exact Ledger.sum_move hle
  | erc20 a sender c =>
    simp only [Gsn.start, bind_eq_ok, pure_eq_ok, Prod.mk.injEq] at hstart
    obtain ⟨tokens, hcall, rfl, rfl⟩ := hstart
    obtain ⟨hforeign, hnative⟩ := tokenCall_step hcan hcall
    exact .inl ⟨rfl, .single (.moved hforeign (by rw [hnative]) (by rw [hnative]))⟩
  | penalizer sender c =>
    rcases penalizerCall_cases hstart with ⟨rfl, hsteps⟩ | ⟨rfl, hsteps⟩
    · exact .inl ⟨rfl, hsteps⟩
    · exact .inr (.inr (.inr ⟨rfl, hsteps⟩))
  | hub sender c =>
    have hout : Gsn.Outside d sender := by
      cases c with
      | relayCall c => exact hcan.1
      | _ => exact hcan
    cases c with
    | setConfiguration config =>
      obtain ⟨hub, hset, rfl, rfl⟩ := onHub_eq_ok hstart
      simp only [RelayHub.setConfiguration, bind_eq_ok, require_eq_ok, pure_eq_ok] at hset
      obtain ⟨_, _, _, hfee, rfl⟩ := hset
      exact .inl ⟨rfl, .single (.logged (.relayHubConfigured config) trivial hfee)⟩
    | setMinimumStakes token minimumStake =>
      obtain ⟨hub, hset, rfl, rfl⟩ := onHub_eq_ok hstart
      exact .inl ⟨rfl, (setMinimumStakes_steps hset).lift⟩
    | onRelayServerRegistered relayManager =>
      obtain ⟨hregister, rfl⟩ := atOnce_eq_ok hstart
      simp only [Gsn.onRelayServerRegistered, bind_eq_ok, pure_eq_ok] at hregister
      obtain ⟨_, _, _, _, _, _, stakeManager, hseen, rfl⟩ := hregister
      exact .inl ⟨rfl, .single (.staking .other rfl (updateRelayKeepaliveTime_step hseen))⟩
    | addRelayWorkers newRelayWorkers =>
      obtain ⟨hub, hadd, rfl, rfl⟩ := onHub_eq_ok hstart
      obtain ⟨count, hvalid, rfl⟩ := addRelayWorkers_step hout.1 hadd
      exact .inl ⟨rfl, .single (.logged _ rfl hvalid)⟩
    | depositFor value target =>
      obtain ⟨hdeposit, rfl⟩ := atOnce_eq_ok hstart
      simp only [Gsn.depositFor, bind_eq_ok, checkedAdd_eq_ok, pure_eq_ok] at hdeposit
      obtain ⟨tokens, hsend, _, _, _, ⟨hfits, rfl⟩, rfl⟩ := hdeposit
      exact .inl ⟨rfl, .single (.deposited target sender value trivial hout hsend hfits)⟩
    | withdraw dest amount =>
      have hnext : Gsn.withdrawNext d sender (pairUp [amount] [dest]) cfg.state = .ok (s', o) := hstart
      rcases withdrawNext_cases hnext with ⟨rfl, rfl⟩ | ⟨dest, amount, rest, rfl, hpays⟩
      · exact .inl ⟨rfl, .refl⟩
      · exact .inr (.inl ⟨sender, dest, amount, rest, rfl, rfl, hout, hpays⟩)
    | withdrawMultiple dest amount =>
      have hnext : Gsn.withdrawNext d sender (pairUp amount dest) cfg.state = .ok (s', o) := hstart
      rcases withdrawNext_cases hnext with ⟨rfl, rfl⟩ | ⟨dest, amount, rest, rfl, hpays⟩
      · exact .inl ⟨rfl, .refl⟩
      · exact .inr (.inl ⟨sender, dest, amount, rest, rfl, rfl, hout, hpays⟩)
    | relayCall c => exact .inr (.inr (.inl (relayCall_eq_ok hcan.2 hstart)))
    | deprecateHub deprecationTime =>
      obtain ⟨hub, hset, rfl, rfl⟩ := onHub_eq_ok hstart
      simp only [RelayHub.deprecateHub, bind_eq_ok, pure_eq_ok] at hset
      obtain ⟨_, _, _, _, rfl⟩ := hset
      exact .inl ⟨rfl, .single (.logged (.hubDeprecated deprecationTime) trivial trivial)⟩
    | penalize relayWorker beneficiary =>
      obtain ⟨hpenalize, rfl⟩ := atOnce_eq_ok hstart
      -- only the penalizer can do this, and it is no account outside
      simp only [Gsn.penalize, bind_eq_ok, require_eq_ok] at hpenalize
      obtain ⟨_, hsender, _⟩ := hpenalize
      exact absurd hsender hout.2.2.2
    | escheatAbandonedRelayBalance relayManager =>
      obtain ⟨hub, hescheat, rfl, rfl⟩ := onHub_eq_ok hstart
      rw [escheatAbandonedRelayBalance_step hescheat]
      exact .inl ⟨rfl, .single (.logged _ rfl rfl)⟩
    | transferOwnership owner =>
      obtain ⟨hub, hset, rfl, rfl⟩ := onHub_eq_ok hstart
      simp only [RelayHub.transferOwnership, bind_eq_ok, pure_eq_ok] at hset
      obtain ⟨_, _, _, _, rfl⟩ := hset
      exact .inl ⟨rfl, .single (.logged (.ownershipTransferred owner) trivial trivial)⟩
    | renounceOwnership =>
      obtain ⟨hub, hset, rfl, rfl⟩ := onHub_eq_ok hstart
      simp only [RelayHub.renounceOwnership, bind_eq_ok, pure_eq_ok] at hset
      obtain ⟨_, _, rfl⟩ := hset
      exact .inl ⟨rfl, .single (.logged (.ownershipTransferred 0) trivial trivial)⟩

/-- What a relay call does once its inner call has come to an end: it goes on from the state that call
has reached, or from the one it was called in. -/
def Closes (r : Relaying) (base s' : Gsn) : Prop :=
  ∃ hub, HubSteps r.Logs base.hub hub ∧ s' = { base with hub }

theorem reverted_eq_ok (hreverted : r.reverted status ret = .ok (s', o)) :
    o = none ∧ Closes r r.before s' := by
  simp only [Relaying.reverted, bind_eq_ok, pure_eq_ok, Prod.mk.injEq] at hreverted
  obtain ⟨s₁, hfinish, rfl, rfl⟩ := hreverted
  exact ⟨rfl, finish_eq_ok hfinish⟩

/-- The value that an open call is to return has been cut. -/
def Stage.Truncated : Stage → Prop
  | .postRelayedCall _ ret => ret.length ≤ MAX_RETURN_SIZE
  | _ => True

theorem length_truncate : (truncate data).length ≤ MAX_RETURN_SIZE :=
  List.length_take_le _ _

theorem returned_cases (hreturned : r.returned stage data s = .ok (s', o)) :
    (∃ stage', o = some (.relaying r stage') ∧ s' = s ∧ stage'.Truncated) ∨
      (o = none ∧ (Closes r s s' ∨ Closes r r.before s')) := by
  cases stage with
  | preRelayedCall =>
    simp only [Relaying.returned, bind_eq_ok, pure_eq_ok, Prod.mk.injEq] at hreturned
    obtain ⟨_, _, rfl, rfl⟩ := hreturned
    exact .inl ⟨_, rfl, rfl, trivial⟩
  | execute rejectOnRecipientRevert =>
    simp only [Relaying.returned, bind_eq_ok] at hreturned
    obtain ⟨⟨callSuccess, ret⟩, _, hreturned⟩ := hreturned
    dsimp only at hreturned
    split_ifs at hreturned
    · obtain ⟨rfl, hcloses⟩ := reverted_eq_ok hreturned
      exact .inr ⟨rfl, .inr hcloses⟩
    · obtain ⟨rfl, rfl⟩ := Prod.mk.inj (pure_eq_ok.mp hreturned)
      exact .inl ⟨_, rfl, rfl, length_truncate⟩
  | postRelayedCall callSuccess ret =>
    by_cases hlost : s.hub.balances r.paymaster < r.before.hub.balances r.paymaster
    · rw [Relaying.returned, if_pos hlost] at hreturned
      obtain ⟨rfl, hcloses⟩ := reverted_eq_ok hreturned
      exact .inr ⟨rfl, .inr hcloses⟩
    · rw [Relaying.returned, if_neg hlost] at hreturned
      simp only [bind_eq_ok, pure_eq_ok, Prod.mk.injEq] at hreturned
      obtain ⟨s₁, hfinish, rfl, rfl⟩ := hreturned
      exact .inr ⟨rfl, .inl (finish_eq_ok hfinish)⟩

theorem failed_cases (hfailed : r.failed stage data = .ok (s', o)) :
    o = none ∧ Closes r r.before s' := by
  cases stage with
  | preRelayedCall => exact reverted_eq_ok hfailed
  | execute _ => exact reverted_eq_ok hfailed
  | postRelayedCall _ _ => exact reverted_eq_ok hfailed

end

end Redeemy
