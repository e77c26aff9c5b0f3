import Redeemy.Proof.Relays

/-!
# Who pays for a relay call

A balance of the hub goes down in three ways: its account withdraws, the owner of the hub escheats it as
that of an abandoned relay manager, or a paymaster is charged for a request that its `preRelayedCall`
has accepted. `Spends` says which step opens the way to each of them; without such a step the balance
never goes down.
-/

namespace Redeemy

open Fallible Handover Gsn

variable {d : Deployment} {h h' : RelayHub} {s s' base : Gsn} {r : Relaying} {event : HubEvent}
variable {a account dest : Address} {amount b : Nat} {c c' : Config Gsn Rest} {call : GsnCall}

/-- The innermost open call waits for the answer of `a` to a relay request. -/
def Asks (a : Address) : List Rest → Prop
  | .relaying r .preRelayedCall :: _ => r.paymaster = a
  | _ => False

/-- The step is a withdrawal of `a`, an escheat from `a`, or `a` accepting a relay request. -/
def Spends (a : Address) (c : Config Gsn Rest) : Label GsnCall Bytes → Prop
  | .call call => call.Withdraws a ∨ call.Escheats a
  | .ret _ => Asks a c.rests
  | _ => False

instance (call : GsnCall) : Decidable (call.Withdraws a) := by
  unfold GsnCall.Withdraws
  split <;> infer_instance

instance (call : GsnCall) : Decidable (call.Escheats a) := by
  unfold GsnCall.Escheats
  split <;> infer_instance

instance (rests : List Rest) : Decidable (Asks a rests) := by
  unfold Asks
  split <;> infer_instance

instance (c : Config Gsn Rest) (l : Label GsnCall Bytes) : Decidable (Spends a c l) :=
  l.casesOn (motive := fun l => Decidable (Spends a c l))
    (fun call => inferInstanceAs (Decidable (call.Withdraws a ∨ call.Escheats a)))
    (fun _ => inferInstanceAs (Decidable (Asks a c.rests)))
    (fun _ => inferInstanceAs (Decidable False)) (inferInstanceAs (Decidable False))

/-- The events that take from the balance of `a`. -/
def HubEvent.Takes (a : Address) : HubEvent → Prop
  | .transactionRelayed _ _ _ _ paymaster _ _ => paymaster = a
  | .abandonedRelayManagerBalanceEscheated relayManager _ => relayManager = a
  | _ => False

theorem le_balances_log (hvalid : event.Valid h) (htakes : ¬ event.Takes a) :
    h.balances a ≤ (h.log event).balances a := by
  cases event with
  | transactionRelayed relayManager _ _ _ paymaster _ charge =>
    have hdebit : Ledger.debit h.balances paymaster charge a = h.balances a :=
      Ledger.debit_of_ne fun heq => htakes heq.symm
    rw [← hdebit]
    exact Ledger.le_credit.trans Ledger.le_credit
  | abandonedRelayManagerBalanceEscheated relayManager balance =>
    exact Ledger.le_move fun heq => htakes heq.symm
  | withdrawn => exact hvalid.elim
  | deposited => exact hvalid.elim
  | _ => exact Nat.le_refl _

theorem le_balances_hubSteps {E : HubEvent → Prop} (hE : ∀ event, E event → ¬ event.Takes a)
    (hsteps : HubSteps E h h') : h.balances a ≤ h'.balances a := by
  induction hsteps with
  | refl => exact Nat.le_refl _
  | tail _ hstep ih =>
    obtain ⟨event, hevent, hvalid, rfl⟩ := hstep
    exact ih.trans (le_balances_log hvalid (hE event hevent))

theorem le_balances_steps {E : Effect → Prop} (hE : ∀ event, E (.event event) → ¬ event.Takes a)
    (hsteps : GsnSteps d E s s') : s.hub.balances a ≤ s'.hub.balances a := by
  induction hsteps with
  | refl => exact Nat.le_refl _
  | tail _ hstep ih =>
    refine ih.trans ?_
    cases hstep with
    | mined | staking | committed | revealed | moved => exact Nat.le_refl _
    | logged event hevent hvalid => exact le_balances_log hvalid (hE event hevent)
    | deposited => exact Ledger.le_credit

theorem balances_pays (hpays : Pays d s account dest amount s') (hne : account ≠ a) :
    s'.hub.balances a = s.hub.balances a := by
  obtain ⟨_, tokens, _, rfl⟩ := hpays
  exact Function.update_of_ne (Ne.symm hne) _ _

theorem le_balances_closes (hcloses : Closes r base s') (hne : r.paymaster ≠ a) :
    base.hub.balances a ≤ s'.hub.balances a := by
  obtain ⟨hub, hsteps, rfl⟩ := hcloses
  refine le_balances_hubSteps (fun event hlogs => ?_) hsteps
  cases event with
  | transactionRelayed =>
    obtain ⟨_, _, rfl⟩ := hlogs
    exact hne
  | abandonedRelayManagerBalanceEscheated => exact hlogs.elim
  | _ => exact id

/-- The open call does not take from the balance `b` of `a`, and will not go back below it. -/
def Spares (a : Address) (b : Nat) : Rest → Prop
  | .withdrawing account _ _ _ => account ≠ a
  | .relaying r stage =>
    b ≤ r.before.hub.balances a ∧ (r.paymaster = a → stage = .preRelayedCall)
  | .penalizing => True

theorem spares_preserved : Preserved (Gsn.machine d) (fun c l => Gsn.Allowed d c l ∧ ¬ Spends a c l)
    (fun _ s => b ≤ s.hub.balances a) (fun _ => Spares a b) where
  start := fun c call o hcan hle hstart => by
    obtain ⟨s', o⟩ := o
    obtain ⟨hallowed, hspends⟩ := hcan
    have htakes : ∀ event, call.Does d c.state (.event event) → ¬ event.Takes a := by
      intro event hlogs
      cases event with
      | transactionRelayed => exact hlogs.elim
      | abandonedRelayManagerBalanceEscheated relayManager =>
        rintro rfl
        exact hspends (.inr hlogs)
      | _ => exact id
    rcases start_cases hallowed hstart with ⟨rfl, hsteps⟩ |
      ⟨account, dest, amount, rest, rfl, hwithdraws, _, hpays⟩ | ⟨r, rfl, rfl, hbefore, _⟩ |
      ⟨rfl, hsteps⟩
    · exact hle.trans (le_balances_steps htakes hsteps)
    · have hne : account ≠ a := by
        rintro rfl
        exact hspends (.inl hwithdraws)
      exact ⟨hle.trans (balances_pays hpays hne).ge, hne⟩
    · exact ⟨hle, hbefore ▸ hle, fun _ => rfl⟩
    · exact ⟨hle.trans (le_balances_steps htakes hsteps), trivial⟩
  resume := fun c f frames data o hf hcan hle hspares hresume => by
    obtain ⟨s', o⟩ := o
    obtain ⟨saved, mark, rest⟩ := f
    cases rest with
    | withdrawing account dest amount rest =>
      rcases withdrawNext_cases hresume with ⟨rfl, rfl⟩ | ⟨dest', amount', rest', rfl, hpays⟩
      · exact hle
      · exact ⟨Nat.le_trans hle (balances_pays hpays hspares).ge, hspares⟩
    | relaying r stage =>
      -- the paymaster has not accepted, so it is another one
      have hne : r.paymaster ≠ a := by
        intro heq
        obtain rfl := hspares.2 heq
        apply hcan.2
        show Asks a c.rests
        rw [Config.rests, hf]
        exact heq
      rcases returned_cases hresume with ⟨stage', rfl, rfl, _⟩ | ⟨rfl, hcloses | hcloses⟩
      · exact ⟨hle, hspares.1, fun heq => absurd heq hne⟩
      · exact hle.trans (le_balances_closes hcloses hne)
      · exact hspares.1.trans (le_balances_closes hcloses hne)
    | penalizing =>
      obtain ⟨rfl, rfl⟩ := Prod.mk.inj (pure_eq_ok.mp hresume)
      exact hle
  fail := fun c f frames data o hf hcan hle hspares hfail => by
    obtain ⟨s', o⟩ := o
    obtain ⟨saved, mark, rest⟩ := f
    cases rest with
    | withdrawing account dest amount rest => cases hfail
    | relaying r stage =>
      by_cases heq : r.paymaster = a
      · obtain rfl := hspares.2 heq
        obtain ⟨rfl, hsame⟩ := Relaying.balances_failed_preRelayedCall hfail
        show b ≤ s'.hub.balances a
        rw [hsame]
        exact hspares.1
      · obtain ⟨rfl, hcloses⟩ := failed_cases hfail
        exact hspares.1.trans (le_balances_closes hcloses heq)
    | penalizing => cases hfail

/-- A balance of the hub never goes down, whatever calls are made and however they are nested and end,
unless its account withdraws, accepts a relay request as its paymaster, or is escheated. -/
theorem only_sponsors_pay (hquiet : c.frames = [])
    (hreach : Reachable (Gsn.machine d) (fun c l => Gsn.Allowed d c l ∧ ¬ Spends a c l) c c') :
    c.state.hub.balances a ≤ c'.state.hub.balances a :=
  (hreach.invariant spares_preserved (Nat.le_refl _) (by rw [hquiet]; exact .nil)).1

set_option maxRecDepth 4000 in
theorem only_sponsors_pay_refusing :
    (after (staking ++ refusing)).state.hub.events.length = 6 ∧
    (after staking).state.hub.balances 200 ≤ ((Handover.run (Gsn.machine sample)
      (fun c l => Gsn.Allowed sample c l ∧ ¬ Spends 200 c l) refusing (after staking)).getD
        (after staking)).state.hub.balances 200 :=
  ⟨by decide, only_sponsors_pay (d := sample) rfl (Reachable.refl.run_getD refusing)⟩

end Redeemy
