import Redeemy.Proof.HubLedger
import Redeemy.Proof.Verdicts

/-!
# Honest relay managers

The penalizer can take a stake away from whoever has signed what a relay worker must not sign. A manager
whose workers have not done so keeps its stake, whatever is reported, as long as the signatures of its
workers cannot be forged and it trusts no other hub.
-/

namespace Redeemy

open Fallible Handover Gsn

variable {d : Deployment} {s s' : Gsn} {c c' : Config Gsn Rest} {m hub worker : Address}
variable {crypto : Crypto} {signed : Address → List UnsignedTransaction} {call : PenalizerCall}
variable {workers : Finset Address} {amount : Nat}

/-- Among the transactions `txs` there are relay calls of `hub` only, and no two different ones with the
same nonce. -/
structure Honest (hub : Address) (txs : List UnsignedTransaction) : Prop where
  wellFormed : ∀ tx ∈ txs, tx.WellFormed
  relayCalls : ∀ tx ∈ txs, Penalizer.RelayCallLike hub tx.seen
  nonces : ∀ tx ∈ txs, ∀ tx' ∈ txs, tx.nonce = tx'.nonce → tx.seen = tx'.seen

/-- If the account that was recovered is one of `workers`, it has signed the transaction. -/
def SignedBy (signed : Address → List UnsignedTransaction) (workers : Finset Address)
    (rawTransaction : Bytes) : Result Address → Prop
  | .ok account => account ∈ workers → ∃ tx ∈ signed account, rawTransaction = tx.rawTransaction
  | .error _ => True

/-- The signature is not a forged one of `workers`. What it is if another account is recovered does not
matter. -/
def Evidence.Genuine (crypto : Crypto) (signed : Address → List UnsignedTransaction)
    (workers : Finset Address) (e : Evidence) : Prop :=
  SignedBy signed workers e.unsignedTx (Penalizer.signer crypto e)

/-- The transactions that a call shows to the penalizer. -/
def PenalizerCall.evidence : PenalizerCall → List Evidence
  | .commit _ => []
  | .penalizeRepeatedNonce _ tx1 tx2 _ => [tx1, tx2]
  | .penalizeIllegalTransaction _ tx _ => [tx]

theorem Evidence.Genuine.exists_tx {e : Evidence} (h : e.Genuine crypto signed workers)
    (hworker : worker ∈ workers) (hsigner : Penalizer.signer crypto e = .ok worker) :
    ∃ tx ∈ signed worker, e.unsignedTx = tx.rawTransaction := by
  rw [Evidence.Genuine, hsigner] at h
  exact h hworker

/-- The penalizer convicts no honest worker. -/
theorem Honest.not_convicts (h : Honest hub (signed worker)) (hworker : worker ∈ workers)
    (hgenuine : ∀ e ∈ call.evidence, e.Genuine crypto signed workers) :
    ¬ call.Convicts crypto hub worker := by
  intro hconvicts
  cases call with
  | commit => exact hconvicts
  | penalizeRepeatedNonce msgData tx1 tx2 hub' =>
    obtain ⟨_, hcheck⟩ := hconvicts
    simp only [Penalizer.checkRepeatedNonce, bind_eq_ok, require_eq_ok, pure_eq_ok] at hcheck
    obtain ⟨_, h1, _, h2, _, rfl, _, _, _, hdecode1, _, hdecode2, _, hnonce, _, hdiffer, rfl⟩ := hcheck
    obtain ⟨tx, htx, hraw⟩ := (hgenuine tx1 (by simp [PenalizerCall.evidence])).exists_tx hworker h1
    obtain ⟨tx', htx', hraw'⟩ := (hgenuine tx2 (by simp [PenalizerCall.evidence])).exists_tx hworker h2
    rw [hraw, (Penalizer.decodeTransaction_rawTransaction _ _ (h.wellFormed tx htx)).2] at hdecode1
    rw [hraw', (Penalizer.decodeTransaction_rawTransaction _ _ (h.wellFormed tx' htx')).2] at hdecode2
    cases hdecode1
    cases hdecode2
    exact hdiffer (by rw [h.nonces tx htx tx' htx' hnonce])
  | penalizeIllegalTransaction msgData tx hub' =>
    obtain ⟨_, hcheck⟩ := hconvicts
    have hsigner : Penalizer.signer crypto tx = .ok worker := by
      simp only [Penalizer.checkIllegalTransaction, bind_eq_ok, require_eq_ok, pure_eq_ok] at hcheck
      obtain ⟨_, _, _, _, _, hsigner, _, _, rfl⟩ := hcheck
      exact hsigner
    obtain ⟨tx', htx', hraw⟩ :=
      (hgenuine tx (by simp [PenalizerCall.evidence])).exists_tx hworker hsigner
    exact ((Penalizer.checkIllegalTransaction_eq_ok (h.wellFormed tx' htx') hraw).mp hcheck).2.2
      (h.relayCalls tx' htx')

/-! ### Runs -/

/-- The ways to take from the stake of `m`, or to let a hub other than `hub` do so. -/
def StakeAct.Risks (m hub : Address) : StakeAct → Prop
  | .withdraw m' => m' = m
  | .escheat m' => m' = m
  | .authorize m' hub' => m' = m ∧ hub' ≠ hub
  | _ => False

/-- The workers that a call adds. -/
def HubCall.newRelayWorkers : HubCall → List Address
  | .addRelayWorkers newRelayWorkers => newRelayWorkers
  | _ => []

/-- The calls that take the stake of `m`, let another hub do so, give `m` a worker that is none of
`workers`, or show the penalizer a forged signature of one of these. -/
def Risks (d : Deployment) (signed : Address → List UnsignedTransaction) (workers : Finset Address)
    (m : Address) : GsnCall → Prop
  | .stakeManager sender call => (call.act sender).Risks m d.hub
  | .hub sender call => sender = m ∧ ∃ worker ∈ call.newRelayWorkers, worker ∉ workers
  | .penalizer _ call => ∃ e ∈ call.evidence, ¬ e.Genuine d.crypto signed workers
  | _ => False

instance (hub : Address) (txs : List UnsignedTransaction) : Decidable (Honest hub txs) :=
  decidable_of_iff ((∀ tx ∈ txs, tx.WellFormed) ∧
    (∀ tx ∈ txs, Penalizer.RelayCallLike hub tx.seen) ∧
    ∀ tx ∈ txs, ∀ tx' ∈ txs, tx.nonce = tx'.nonce → tx.seen = tx'.seen)
    ⟨fun ⟨h₁, h₂, h₃⟩ => ⟨h₁, h₂, h₃⟩, fun h => ⟨h.wellFormed, h.relayCalls, h.nonces⟩⟩

instance (rawTransaction : Bytes) (account : Result Address) :
    Decidable (SignedBy signed workers rawTransaction account) :=
  account.casesOn (motive := fun account => Decidable (SignedBy signed workers rawTransaction account))
    (fun _ => inferInstanceAs (Decidable True))
    (fun account => inferInstanceAs (Decidable (account ∈ workers →
      ∃ tx ∈ signed account, rawTransaction = tx.rawTransaction)))

instance (e : Evidence) : Decidable (e.Genuine crypto signed workers) :=
  inferInstanceAs (Decidable (SignedBy signed workers e.unsignedTx (Penalizer.signer crypto e)))

instance (act : StakeAct) : Decidable (act.Risks m hub) :=
  act.casesOn (motive := fun act => Decidable (act.Risks m hub))
    (fun m' => inferInstanceAs (Decidable (m' = m))) (fun m' => inferInstanceAs (Decidable (m' = m)))
    (fun _ _ => inferInstanceAs (Decidable False))
    (fun m' hub' => inferInstanceAs (Decidable (m' = m ∧ hub' ≠ hub)))
    (inferInstanceAs (Decidable False))

instance (sender : Address) (call : HubCall) : Decidable (sender = m ∧
    ∃ worker ∈ call.newRelayWorkers, worker ∉ workers) :=
  @instDecidableAnd _ _ _ (List.decidableBEx (fun worker => worker ∉ workers) call.newRelayWorkers)

instance : DecidablePred (Risks d signed workers m) := fun call =>
  call.casesOn (motive := fun call => Decidable (Risks d signed workers m call))
    (fun _ => inferInstanceAs (Decidable False))
    (fun sender call => inferInstanceAs (Decidable ((call.act sender).Risks m d.hub)))
    (fun sender call => inferInstanceAs (Decidable (sender = m ∧
      ∃ worker ∈ call.newRelayWorkers, worker ∉ workers)))
    (fun _ call => inferInstanceAs (Decidable (∃ e ∈ call.evidence,
      ¬ e.Genuine d.crypto signed workers)))
    (fun _ _ _ => inferInstanceAs (Decidable False)) (fun _ _ _ => inferInstanceAs (Decidable False))

/-- At `now` the stake of `m` is out of the reach of `hub`, which was never authorized for it or whose
authorization has run out. -/
def StakeManager.Barred (sm : StakeManager) (m hub : Address) (now : Nat) : Prop :=
  sm.authorizedHubs m hub ≠ NEVER ∧ sm.authorizedHubs m hub ≤ now

/-- The stake of `m` is at least `amount`, and only `workers` and the hub can cost it. -/
structure Secure (d : Deployment) (workers : Finset Address) (m : Address) (amount : Nat) (s : Gsn) :
    Prop where
  stake : amount ≤ (s.stakeManager.stakes m).stake
  hubs : ∀ hub, hub ≠ d.hub → s.stakeManager.Barred m hub s.timestamp
  workers : ∀ worker, s.hub.workerToManager worker = m → worker ∈ workers

variable {sm : StakeManager} {info : StakeInfo} {m' self : Address} {now : Nat} {act : StakeAct}
variable {x x' : StakeManager × Tokens}

theorem le_stake_setInfo (h : amount ≤ (sm.stakes m).stake) (hinfo : m' = m → amount ≤ info.stake) :
    amount ≤ ((sm.setInfo m' info).stakes m).stake := by
  unfold StakeManager.setInfo
  dsimp only
  rw [Function.update_apply]
  split_ifs with hm
  · exact hinfo hm.symm
  · exact h

theorem StakeManager.Barred.setRemovalTime {hub' : Address} {removalTime : Nat}
    (h : sm.Barred m hub now) (hother : m' ≠ m ∨ hub' ≠ hub) :
    (sm.setRemovalTime m' hub' removalTime).Barred m hub now := by
  have hsame : (sm.setRemovalTime m' hub' removalTime).authorizedHubs m hub =
      sm.authorizedHubs m hub := by
    unfold StakeManager.setRemovalTime
    dsimp only
    by_cases hm : m = m'
    · subst hm
      rw [Function.update_self, Function.update_of_ne (Ne.symm (hother.resolve_left (· rfl)))]
    · rw [Function.update_of_ne hm]
  unfold StakeManager.Barred
  rwa [hsame]

/-- A step that is none of the risks costs nothing, and adds no risk. -/
theorem StakeStep.secure (hstep : StakeStep self now act x x') (hact : ¬ act.Risks m hub)
    (hpenalize : act ≠ .penalize m hub) (hstake : amount ≤ (x.1.stakes m).stake)
    (hhubs : ∀ hub', hub' ≠ hub → x.1.Barred m hub' now) :
    amount ≤ (x'.1.stakes m).stake ∧ ∀ hub', hub' ≠ hub → x'.1.Barred m hub' now := by
  cases hstep with
  | settings hstakes hauthorized =>
    refine ⟨?_, ?_⟩
    · rw [hstakes]
      exact hstake
    · unfold StakeManager.Barred
      rw [hauthorized]
      exact hhubs
  | owned | unlocked | seen =>
    refine ⟨le_stake_setInfo hstake ?_, hhubs⟩
    rintro rfl
    exact hstake
  | staked =>
    refine ⟨le_stake_setInfo hstake ?_, hhubs⟩
    rintro rfl
    exact hstake.trans (Nat.le_add_right ..)
  | withdrawn m' =>
    refine ⟨le_stake_setInfo hstake ?_, hhubs⟩
    rintro rfl
    exact absurd rfl hact
  | escheated m' =>
    refine ⟨le_stake_setInfo hstake ?_, hhubs⟩
    rintro rfl
    exact absurd rfl hact
  | authorized m' hub' =>
    refine ⟨hstake, fun hub₁ hne => (hhubs hub₁ hne).setRemovalTime ?_⟩
    by_cases hm : m' = m
    · subst hm
      right
      rintro rfl
      exact hact ⟨rfl, hne⟩
    · exact .inl hm
  | unauthorized m' hub' hnever =>
    refine ⟨hstake, fun hub₁ hne => (hhubs hub₁ hne).setRemovalTime ?_⟩
    by_cases hm : m' = m
    · subst hm
      right
      -- no other hub is authorized
      rintro rfl
      exact (hhubs _ hne).1 hnever
    · exact .inl hm
  | penalized m' hub' _ _ htimely =>
    refine ⟨le_stake_setInfo hstake ?_, hhubs⟩
    rintro rfl
    -- the hub is no other one either, for those are not authorized
    have hother : hub' ≠ hub := by
      rintro rfl
      exact hpenalize rfl
    exact absurd htimely (Nat.not_lt.mpr (hhubs hub' hother).2)

theorem secure_rule (hhonest : ∀ worker ∈ workers, Honest d.hub (signed worker)) :
    GsnRule d (fun call => ¬ Risks d signed workers m call)
      fun _ s => Secure d workers m amount s :=
  .ofCalls
    (fun {s s' call s₀} hcall hs₀ hs hstep => by
      cases hstep with
      | mined timestamp hlater =>
        exact ⟨hs.stake, fun hub hne => ⟨(hs.hubs hub hne).1, (hs.hubs hub hne).2.trans hlater⟩,
          hs.workers⟩
      | committed | revealed | moved | deposited => exact ⟨hs.stake, hs.hubs, hs.workers⟩
      | staking act hdoes hstake =>
        suffices hsafe : ¬ act.Risks m d.hub ∧ act ≠ .penalize m d.hub by
          obtain ⟨hamount, hhubs⟩ := hstake.secure hsafe.1 hsafe.2 hs.stake hs.hubs
          exact ⟨hamount, hhubs, hs.workers⟩
        cases call with
        | stakeManager sender call =>
          obtain ⟨hout, rfl⟩ := hdoes
          refine ⟨hcall, fun heq => ?_⟩
          -- the hub makes no call by itself
          cases call with
          | penalizeRelayManager =>
            cases heq
            exact hout.2.1 rfl
          | _ => cases heq
        | hub sender call =>
          obtain rfl := hdoes
          exact ⟨id, nofun⟩
        | penalizer sender call =>
          obtain ⟨worker, hconvicts, rfl⟩ := hdoes
          refine ⟨id, fun heq => ?_⟩
          have hworker : worker ∈ workers := hs₀.workers worker (by
            cases heq
            rfl)
          refine (hhonest worker hworker).not_convicts hworker (fun e he => ?_) hconvicts
          by_contra hforged
          exact hcall ⟨e, he, hforged⟩
        | _ => exact hdoes.elim
      | logged event hlogs hvalid =>
        cases event with
        | relayWorkersAdded relayManager newRelayWorkers count =>
          obtain rfl : call = .hub relayManager (.addRelayWorkers newRelayWorkers) := hlogs
          refine ⟨hs.stake, hs.hubs, fun worker hworker => ?_⟩
          replace hworker : (if worker ∈ newRelayWorkers then relayManager else
            s.hub.workerToManager worker) = m := hworker
          split_ifs at hworker with hnew
          · by_contra hother
            exact hcall ⟨hworker, worker, hnew, hother⟩
          · exact hs.workers worker hworker
        | _ => exact ⟨hs.stake, hs.hubs, hs.workers⟩)
    (fun hs hpays => by
      obtain ⟨_, tokens, _, rfl⟩ := hpays
      exact ⟨hs.stake, hs.hubs, hs.workers⟩)
    (fun {s r event} hs hlogs hvalid => by
      cases event with
      | relayWorkersAdded => exact hlogs.elim
      | _ => exact ⟨hs.stake, hs.hubs, hs.workers⟩)
    fun hs => ⟨hs.stake, hs.hubs, hs.workers⟩

/-- A relay manager loses no stake, whatever is called and however the calls are nested and end, if its
workers have signed relay calls of the hub only, and no two different ones with the same nonce; unless
the stake is withdrawn or escheated, another hub is authorized for it, it adds a worker that is none of
these, or a signature of one of these is forged. -/
theorem honest_managers_keep_stakes (hquiet : c.frames = [])
    (hhonest : ∀ worker ∈ workers, Honest d.hub (signed worker))
    (hworkers : ∀ worker, c.state.hub.workerToManager worker = m → worker ∈ workers)
    (hhubs : ∀ hub, hub ≠ d.hub → c.state.stakeManager.Barred m hub c.state.timestamp)
    (hreach : Reachable (Gsn.machine d)
      (fun c l => Gsn.Allowed d c l ∧ Avoids (Risks d signed workers m) l) c c') :
    (c.state.stakeManager.stakes m).stake ≤ (c'.state.stakeManager.stakes m).stake :=
  (hreach.invariant (secure_rule hhonest).preservedWithout ⟨Nat.le_refl _, hhubs, hworkers⟩
    (by rw [hquiet]; exact .nil)).1.stake

/-- The account `signer` has signed `relayTransaction` only, and nobody else has signed anything. -/
def relaySigned (account : Address) : List UnsignedTransaction :=
  if account = signer then [relayTransaction] else []

/-- The workers of 20. -/
def employed : Finset Address := {30, signer}

/-- Where the steps lead, if none of them risks the stake of 20. -/
def keeping (labels : List (Label GsnCall Bytes)) (c : Config Gsn Rest) : Config Gsn Rest :=
  (Handover.run (Gsn.machine sample)
    (fun c l => Gsn.Allowed sample c l ∧ Avoids (Risks sample relaySigned employed 20) l)
    labels c).getD c

/-- 40 reports the relay call. -/
def reporting : List (Label GsnCall Bytes) :=
  [.call (.penalizer 40 (.commit relayCommit))] ++ mining 6 ++ [.call (.penalizer 40 relayReport)]

set_option maxRecDepth 4000 in
theorem honest_relaySigned : ∀ worker ∈ employed, Honest sample.hub (relaySigned worker) := by
  intro worker _
  unfold relaySigned
  split_ifs
  · decide
  · decide

/-- The manager is known to the hub, and its stake is secure. -/
theorem secure_employing : Secure sample employed 20 0 (keeping employing ⟨genesis, []⟩).state := by
  have hreach : Reachable (Gsn.machine sample) (fun c l =>
      Gsn.Allowed sample c l ∧ Avoids (Risks sample relaySigned employed 20) l) ⟨genesis, []⟩
      (keeping employing ⟨genesis, []⟩) := Reachable.refl.run_getD employing
  refine (hreach.invariant (secure_rule honest_relaySigned).preservedWithout ?_ .nil).1
  refine ⟨Nat.zero_le _, fun _ _ => ⟨?_, Nat.zero_le _⟩, fun worker hworker => ?_⟩
  · show 0 ≠ NEVER
    decide
  · exact absurd hworker (by decide : (0 : Address) ≠ 20)

set_option maxRecDepth 4000 in
theorem honest_managers_keep_stakes_reporting :
    ((keeping employing ⟨genesis, []⟩).state.stakeManager.stakes 20).stake = 50 ∧
    (keeping reporting (keeping employing ⟨genesis, []⟩)).state.blockNumber = 106 ∧
    ((keeping employing ⟨genesis, []⟩).state.stakeManager.stakes 20).stake ≤
      ((keeping reporting (keeping employing ⟨genesis, []⟩)).state.stakeManager.stakes 20).stake := by
  have hquiet : (keeping employing ⟨genesis, []⟩).frames = [] := rfl
  refine ⟨by decide, by decide, ?_⟩
  exact honest_managers_keep_stakes hquiet honest_relaySigned secure_employing.workers
    secure_employing.hubs (Reachable.refl.run_getD reporting)

end Redeemy
