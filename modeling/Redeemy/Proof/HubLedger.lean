import Redeemy.Proof.Hub

/-!
# The balances of the hub

In every configuration, calls in progress included, the hub has the native tokens that its balances
promise; and what it has logged tells the whole of its storage (`replay`), once the payments that are
under way are taken into account.
-/

namespace Redeemy

open Fallible Handover Gsn

variable {d : Deployment} {h h' h₁ : RelayHub} {s s' base : Gsn} {r : Relaying} {rs : List Rest}
variable {account dest a : Address} {amount : Nat} {c c' : Config Gsn Rest} {stage stage' : Stage}

/-! ### The invariant rule -/

/-- A condition on the state, with what is left of the open calls, that all steps keep if the calls
satisfy `P`. -/
structure GsnRule (d : Deployment) (P : GsnCall → Prop) (I : List Rest → Gsn → Prop) : Prop where
  step : ∀ {rs s s' call s₀}, P call → I rs s₀ → I rs s → GsnStep d (GsnCall.Does d s₀ call) s s' →
    I rs s'
  pays : ∀ {rs s s' account dest amount rest}, Gsn.Outside d account → I rs s →
    Pays d s account dest amount s' → I (.withdrawing account dest amount rest :: rs) s'
  paid : ∀ {rs s account dest amount rest}, I (.withdrawing account dest amount rest :: rs) s →
    I rs { s with hub := s.hub.emit (.withdrawn account dest amount) }
  opens : ∀ {rs s r}, I rs s → r.before = s → Checked d r → I (.relaying r .preRelayedCall :: rs) s
  passes : ∀ {rs s r stage stage'}, I (.relaying r stage :: rs) s → I (.relaying r stage' :: rs) s
  logs : ∀ {rs s r stage event}, I (.relaying r stage :: rs) s → Checked d r → r.Logs event →
    event.Valid s.hub → I (.relaying r stage :: rs) { s with hub := s.hub.log event }
  closes : ∀ {rs s r stage}, I (.relaying r stage :: rs) s → I rs s
  asks : ∀ {rs s}, I rs s → I (.penalizing :: rs) s
  answered : ∀ {rs s}, I (.penalizing :: rs) s → I rs s

variable {P : GsnCall → Prop}

/-- A condition on the state alone. -/
theorem GsnRule.ofCalls {J : Gsn → Prop}
    (hstep : ∀ {s s' call s₀}, P call → J s₀ → J s → GsnStep d (GsnCall.Does d s₀ call) s s' → J s')
    (hpays : ∀ {s s' account dest amount}, J s → Pays d s account dest amount s' → J s')
    (hlogs : ∀ {s r event}, J s → Relaying.Logs r event → event.Valid s.hub →
      J { s with hub := s.hub.log event })
    (hpaid : ∀ {s event}, J s → J { s with hub := s.hub.emit event }) :
    GsnRule d P fun _ s => J s where
  step := fun hP h₀ h hs => hstep hP h₀ h hs
  pays := fun _ h hp => hpays h hp
  paid := fun h => hpaid h
  opens := fun h _ _ => h
  passes := fun h => h
  logs := fun h _ hlogged hvalid => hlogs h hlogged hvalid
  closes := fun h => h
  asks := fun h => h
  answered := fun h => h

/-- A condition on the state alone, whatever the calls are. -/
theorem GsnRule.ofStep {J : Gsn → Prop} (hstep : ∀ {s s' E}, J s → GsnStep d E s s' → J s')
    (hpays : ∀ {s s' account dest amount}, J s → Pays d s account dest amount s' → J s')
    (hpaid : ∀ {s event}, J s → J { s with hub := s.hub.emit event }) :
    GsnRule d (fun _ => True) fun _ s => J s :=
  .ofCalls (fun _ _ => hstep) hpays
    (fun h _ hvalid => hstep h (.logged (E := fun _ => True) _ trivial hvalid)) hpaid

/-- What is known of an open call: a payment is for an account outside, and a relay call was checked in
a state that satisfies `I`. -/
def Opened (d : Deployment) (I : List Rest → Gsn → Prop) (rs : List Rest) : Rest → Prop
  | .withdrawing account _ _ _ => Gsn.Outside d account
  | .relaying r stage => I (.relaying r stage :: rs) r.before ∧ Checked d r ∧ stage.Truncated
  | .penalizing => True

variable {I : List Rest → Gsn → Prop} {event : HubEvent}

theorem GsnRule.steps (hI : GsnRule d P I) {call : GsnCall} (hP : P call) (h : I rs s)
    (hsteps : GsnSteps d (call.Does d s) s s') : I rs s' := by
  induction hsteps with
  | refl => exact h
  | tail _ hstep ih => exact hI.step hP h ih hstep

theorem GsnRule.ends (hI : GsnRule d P I) (h : I (.relaying r stage :: rs) base)
    (hchecked : Checked d r) (hcloses : Closes r base s') : I rs s' := by
  obtain ⟨hub, hsteps, rfl⟩ := hcloses
  suffices hall : I (.relaying r stage :: rs) { base with hub } from hI.closes hall
  induction hsteps with
  | refl => exact h
  | tail _ hstep ih =>
    obtain ⟨event, hlogs, hvalid, rfl⟩ := hstep
    exact hI.logs ih hchecked hlogs hvalid

variable {Q : Config Gsn Rest → Label GsnCall Bytes → Prop}

/-- The rule for runs of allowed steps, whose calls satisfy `P`. -/
theorem GsnRule.preservedOf (hI : GsnRule d P I) (hQ : ∀ c l, Q c l → Gsn.Allowed d c l)
    (hP : ∀ c call, Q c (.call call) → P call) :
    Preserved (Gsn.machine d) Q I (Opened d I) where
  start := fun c call o hq h hstart => by
    obtain ⟨s', o⟩ := o
    have hcall := hP c call hq
    rcases start_cases (hQ c _ hq) hstart with ⟨rfl, hsteps⟩ |
      ⟨account, dest, amount, rest, rfl, _, hout, hpays⟩ | ⟨r, rfl, rfl, hbefore, hchecked⟩ |
      ⟨rfl, hsteps⟩
    · exact hI.steps hcall h hsteps
    · exact ⟨hI.pays hout h hpays, hout⟩
    · have hopens := hI.opens h hbefore hchecked
      exact ⟨hopens, hbefore ▸ hopens, hchecked, trivial⟩
    · exact ⟨hI.asks (hI.steps hcall h hsteps), trivial⟩
  resume := fun c f frames data o hf _ h hopened hresume => by
    obtain ⟨s', o⟩ := o
    obtain ⟨saved, mark, rest⟩ := f
    rw [Config.rests, hf] at h
    cases rest with
    | withdrawing account dest amount rest =>
      have hpaid := hI.paid h
      rcases withdrawNext_cases hresume with ⟨rfl, rfl⟩ | ⟨dest', amount', rest', rfl, hpays⟩
      · exact hpaid
      · exact ⟨hI.pays hopened hpaid hpays, hopened⟩
    | relaying r stage =>
      obtain ⟨hbefore, hchecked, _⟩ := hopened
      rcases returned_cases hresume with ⟨stage', rfl, rfl, hcut⟩ | ⟨rfl, hcloses | hcloses⟩
      · exact ⟨hI.passes h, hI.passes hbefore, hchecked, hcut⟩
      · exact hI.ends h hchecked hcloses
      · exact hI.ends hbefore hchecked hcloses
    | penalizing =>
      obtain ⟨rfl, rfl⟩ := Prod.mk.inj (pure_eq_ok.mp hresume)
      exact hI.answered h
  fail := fun c f frames data o hf _ h hopened hfail => by
    obtain ⟨s', o⟩ := o
    obtain ⟨saved, mark, rest⟩ := f
    cases rest with
    | withdrawing account dest amount rest => cases hfail
    | relaying r stage =>
      obtain ⟨rfl, hcloses⟩ := failed_cases hfail
      exact hI.ends hopened.1 hopened.2.1 hcloses
    | penalizing => cases hfail

theorem GsnRule.preserved (hI : GsnRule d (fun _ => True) I) :
    Preserved (Gsn.machine d) (Gsn.Allowed d) I (Opened d I) :=
  hI.preservedOf (fun _ _ hl => hl) fun _ _ _ => trivial

/-- The step is no call that satisfies `A`. -/
def Avoids (A : GsnCall → Prop) : Label GsnCall Bytes → Prop
  | .call call => ¬ A call
  | _ => True

instance (A : GsnCall → Prop) [DecidablePred A] (l : Label GsnCall Bytes) : Decidable (Avoids A l) :=
  l.casesOn (motive := fun l => Decidable (Avoids A l))
    (fun call => inferInstanceAs (Decidable (¬ A call))) (fun _ => inferInstanceAs (Decidable True))
    (fun _ => inferInstanceAs (Decidable True)) (inferInstanceAs (Decidable True))

/-- The rule for runs without certain calls. -/
theorem GsnRule.preservedWithout {A : GsnCall → Prop} (hI : GsnRule d (fun call => ¬ A call) I) :
    Preserved (Gsn.machine d) (fun c l => Gsn.Allowed d c l ∧ Avoids A l) I (Opened d I) :=
  hI.preservedOf (fun _ _ hl => hl.1) fun _ _ hl => hl.2

theorem GsnRule.run (hI : GsnRule d (fun _ => True) I) (hinitial : ∀ s₀, Gsn.Initial d s₀ → I [] s₀)
    (h : Gsn.Run d c) : I c.rests c.state ∧ Holds I (Opened d I) c.frames := by
  obtain ⟨s₀, hs₀, hreach⟩ := h
  have h₀ : I (Config.rests ⟨s₀, []⟩) (⟨s₀, []⟩ : Config Gsn Rest).state := hinitial s₀ hs₀
  exact hreach.invariant hI.preserved h₀ .nil

/-! ### Solvency -/

/-- The balances are covered by the native tokens of the hub, which a `uint256` can count. -/
structure Funded (d : Deployment) (s : Gsn) : Prop where
  covered : ∑ a, s.hub.balances a ≤ s.tokens.native d.hub
  bounded : ∑ a, s.tokens.native a < UINT256_SIZE
  fee : s.hub.config.devFee < 100

theorem sum_charged {paymaster relayManager : Address} {charge : Nat}
    (hle : charge ≤ h.balances paymaster) (hdev : h.calculateDevCharge charge ≤ charge) :
    ∑ a, (h.charged paymaster relayManager charge).balances a = ∑ a, h.balances a := by
  have hsum := Ledger.sum_debit hle
  simp only [RelayHub.charged, RelayHub.withBalances, Ledger.sum_credit]
  omega

theorem sum_log (hvalid : event.Valid h) : ∑ a, (h.log event).balances a = ∑ a, h.balances a := by
  cases event with
  | transactionRelayed => exact sum_charged hvalid.1 hvalid.2
  | abandonedRelayManagerBalanceEscheated => exact Ledger.sum_move hvalid.le
  | withdrawn => exact hvalid.elim
  | deposited => exact hvalid.elim
  | _ => rfl

theorem fee_log (hvalid : event.Valid h) (hfee : h.config.devFee < 100) :
    (h.log event).config.devFee < 100 := by
  cases event with
  | relayHubConfigured => exact hvalid
  | _ => exact hfee

theorem Funded.step {E : Effect → Prop} (hs : Funded d s) (hstep : GsnStep d E s s') :
    Funded d s' := by
  cases hstep with
  | mined | committed | revealed => exact ⟨hs.covered, hs.bounded, hs.fee⟩
  | staking _ _ hstake =>
    have hnative := hstake.native
    dsimp only at hnative
    exact ⟨by rw [hnative]; exact hs.covered, by rw [hnative]; exact hs.bounded, hs.fee⟩
  | moved _ hle hsum => exact ⟨hs.covered.trans hle, by rw [hsum]; exact hs.bounded, hs.fee⟩
  | logged event _ hvalid =>
    exact ⟨by rw [sum_log hvalid]; exact hs.covered, hs.bounded, fee_log hvalid hs.fee⟩
  | deposited target sender value _ hout hsend =>
    obtain ⟨hle, rfl⟩ := Tokens.send_eq_ok hsend
    refine ⟨?_, ?_, hs.fee⟩
    · show ∑ a, Ledger.credit s.hub.balances target value a ≤ Ledger.move _ sender d.hub value d.hub
      rw [Ledger.move_dst hout.2.1, Ledger.sum_credit]
      exact Nat.add_le_add_right hs.covered value
    · exact (Ledger.sum_move hle).trans_lt hs.bounded

theorem Funded.pays (hs : Funded d s) (hpays : Pays d s account dest amount s') : Funded d s' := by
  obtain ⟨hfunds, tokens, hsend, rfl⟩ := hpays
  obtain ⟨hle, rfl⟩ := Tokens.send_eq_ok hsend
  refine ⟨?_, (Ledger.sum_move hle).trans_lt hs.bounded, hs.fee⟩
  have hsum := Ledger.sum_debit hfunds
  have hmove : s.tokens.native d.hub - amount ≤
      Ledger.move s.tokens.native d.hub dest amount d.hub := Ledger.sub_le_move
  have hcovered := hs.covered
  show ∑ a, Ledger.debit s.hub.balances account amount a ≤ _
  refine le_trans ?_ hmove
  omega

theorem funded_rule : GsnRule d (fun _ => True) fun _ s => Funded d s :=
  .ofStep Funded.step Funded.pays fun h => ⟨h.covered, h.bounded, h.fee⟩

theorem funded_initial (hs : Gsn.Initial d s) : Funded d s := by
  obtain ⟨owner, config, hfee, hhub⟩ := hs.hub
  refine ⟨?_, hs.native, ?_⟩
  · rw [hhub]
    simp [RelayHub.deployed, RelayHub.blank]
  · rw [hhub]
    exact hfee

theorem run_funded (h : Gsn.Run d c) : Funded d c.state :=
  (funded_rule.run (fun _ => funded_initial) h).1

/-! ### The log

What an observer of the events knows. -/

/-- The storage after the events, the latest of which comes first. -/
def replay (events : List HubEvent) : RelayHub := events.foldr HubEvent.apply .blank

/-- The payments to an account that are under way. -/
def inFlight (rests : List Rest) (account : Address) : Nat :=
  (rests.map fun
    | .withdrawing a _ amount _ => if a = account then amount else 0
    | .relaying .. => 0
    | .penalizing => 0).sum

/-- The storage without the log, and before the payments that are under way. -/
def RelayHub.shown (h : RelayHub) (pending : Address → Nat) : RelayHub :=
  { h with balances := fun a => h.balances a + pending a, events := [] }

/-- The log tells the storage. -/
def Logged (rests : List Rest) (s : Gsn) : Prop :=
  replay s.hub.events = s.hub.shown (inFlight rests)

variable {pending : Address → Nat}

theorem events_log : (h.log event).events = event :: h.events := by
  cases event <;> rfl

/-- Payments that are under way do not matter to the other changes. -/
theorem apply_shown (hvalid : event.Valid h) :
    event.apply (h.shown pending) = (h.log event).shown pending := by
  cases event with
  | transactionRelayed =>
    simp only [RelayHub.log, HubEvent.apply, RelayHub.charged, RelayHub.shown,
      RelayHub.withBalances, RelayHub.emit]
    rw [Ledger.debit_add hvalid.1, Ledger.credit_add, Ledger.credit_add]
    rfl
  | abandonedRelayManagerBalanceEscheated =>
    simp only [RelayHub.log, HubEvent.apply, RelayHub.shown, RelayHub.withBalances, RelayHub.emit,
      Ledger.move]
    rw [Ledger.debit_add hvalid.le, Ledger.credit_add]
  | withdrawn => exact hvalid.elim
  | deposited => exact hvalid.elim
  | _ => rfl

theorem inFlight_cons_self {rest : List (Nat × Option Address)} :
    inFlight (.withdrawing account dest amount rest :: rs) account = amount + inFlight rs account := by
  simp [inFlight]

theorem inFlight_cons_of_ne {rest : List (Nat × Option Address)} (hne : account ≠ a) :
    inFlight (.withdrawing account dest amount rest :: rs) a = inFlight rs a := by
  simp [inFlight, hne]

theorem inFlight_relaying : inFlight (.relaying r stage :: rs) = inFlight rs := by
  funext a
  simp [inFlight]

theorem inFlight_penalizing : inFlight (.penalizing :: rs) = inFlight rs := by
  funext a
  simp [inFlight]

theorem Logged.log (h : Logged rs s) (hvalid : event.Valid s.hub) :
    Logged rs { s with hub := s.hub.log event } := by
  show replay (s.hub.log event).events = _
  rw [events_log]
  show event.apply (replay s.hub.events) = _
  rw [h, apply_shown hvalid]

theorem logged_rule : GsnRule d (fun _ => True) Logged where
  step := fun {rs s s' _ _} _ _ h hstep => by
    cases hstep with
    | mined | staking | committed | revealed | moved => exact h
    | logged event _ hvalid => exact h.log hvalid
    | deposited target sender value =>
      show HubEvent.apply (.deposited target sender value) (replay s.hub.events) = _
      rw [h]
      simp only [RelayHub.log, HubEvent.apply, RelayHub.shown, RelayHub.withBalances, RelayHub.emit]
      rw [Ledger.credit_add]
  pays := fun {rs s s' account dest amount rest} _ h hpays => by
    obtain ⟨hfunds, tokens, _, rfl⟩ := hpays
    show replay _ = _
    refine Eq.trans h ?_
    simp only [RelayHub.shown, RelayHub.setBalance]
    congr 1
    funext a
    by_cases ha : account = a
    · subst ha
      rw [inFlight_cons_self, Function.update_self]
      omega
    · rw [inFlight_cons_of_ne ha, Function.update_of_ne (Ne.symm ha)]
  paid := fun {rs s account dest amount rest} h => by
    show HubEvent.apply (.withdrawn account dest amount) (replay s.hub.events) = _
    rw [h]
    simp only [HubEvent.apply, RelayHub.shown, RelayHub.withBalances, RelayHub.emit]
    congr 1
    funext a
    by_cases ha : account = a
    · subst ha
      rw [Ledger.debit_self, inFlight_cons_self]
      omega
    · rw [Ledger.debit_of_ne (Ne.symm ha), inFlight_cons_of_ne ha]
  opens := fun h _ _ => by
    rw [Logged, inFlight_relaying]
    exact h
  passes := fun h => by
    rw [Logged, inFlight_relaying] at h ⊢
    exact h
  logs := fun h _ _ hvalid => h.log hvalid
  closes := fun h => by
    rw [Logged, inFlight_relaying] at h
    exact h
  asks := fun h => by
    rw [Logged, inFlight_penalizing]
    exact h
  answered := fun h => by
    rw [Logged, inFlight_penalizing] at h
    exact h

theorem logged_initial (hs : Gsn.Initial d s) : Logged [] s := by
  obtain ⟨owner, config, _, hhub⟩ := hs.hub
  rw [Logged, hhub]
  rfl

/-- An observer who replays the events of the hub knows its storage: the owner, the configuration, the
minimum stakes, the workers and their managers, the balances and the time of deprecation. While calls
are in progress, the payments that are under way are still to be told. -/
theorem log_tells_storage (h : Gsn.Run d c) :
    replay c.state.hub.events = c.state.hub.shown (inFlight c.rests) :=
  (logged_rule.run (fun _ => logged_initial) h).1

set_option maxRecDepth 4000 in
theorem log_tells_storage_withdrawing :
    (after withdrawing).state.hub.balances 200 = 400 ∧
      inFlight (after withdrawing).rests 200 = 100 ∧
      replay (after withdrawing).state.hub.events =
        (after withdrawing).state.hub.shown (inFlight (after withdrawing).rests) :=
  ⟨by decide, by decide, log_tells_storage (run_after withdrawing)⟩

/-- In every configuration, with any calls in progress, the native tokens of the hub cover all balances
together, and every account outside can have what its balance says sent to any address. The withdrawal
ends with the answer of the receiver, whatever has happened meanwhile: it is logged, or undone. -/
theorem hub_is_solvent (h : Gsn.Run d c) :
    ∑ a, c.state.hub.balances a ≤ c.state.tokens.native d.hub ∧
      ∀ account dest amount, amount ≤ c.state.hub.balances account → ∃ s',
        (Gsn.machine d).start (.hub account (.withdraw dest amount)) c.state =
          .ok (s', some (.withdrawing account dest amount [])) ∧
        s'.hub.balances = Ledger.debit c.state.hub.balances account amount ∧
        s'.tokens.native = Ledger.move c.state.tokens.native d.hub dest amount ∧
        ∀ t data frames,
          (Gsn.machine d).step (.ret data)
              ⟨t, ⟨c.state, s', .withdrawing account dest amount []⟩ :: frames⟩ =
            some ⟨{ t with hub := t.hub.emit (.withdrawn account dest amount) }, frames⟩ ∧
          (Gsn.machine d).step (.revert data)
              ⟨t, ⟨c.state, s', .withdrawing account dest amount []⟩ :: frames⟩ =
            some ⟨c.state, frames⟩ := by
  have hfunded := run_funded h
  refine ⟨hfunded.covered, fun account dest amount hle => ?_⟩
  have hnative : amount ≤ c.state.tokens.native d.hub :=
    hle.trans (Ledger.le_sum.trans hfunded.covered)
  refine ⟨{ c.state with
    hub := c.state.hub.setBalance account (c.state.hub.balances account - amount)
    tokens := { c.state.tokens with
      native := Ledger.move c.state.tokens.native d.hub dest amount } }, ?_, rfl, rfl,
    fun _ _ _ => ⟨rfl, rfl⟩⟩
  show Gsn.withdrawNext d account [(amount, some dest)] c.state = _
  simp only [Gsn.withdrawNext, require_of hle, element, orThrow, Tokens.send, require_of hnative,
    ok_bind]
  rfl

set_option maxRecDepth 4000 in
theorem hub_is_solvent_staking :
    (after staking).state.hub.balances 200 = 500 ∧ ∃ s',
      (Gsn.machine sample).start (.hub 200 (.withdraw 40 500)) (after staking).state =
        .ok (s', some (.withdrawing 200 40 500 [])) ∧
      s'.hub.balances = Ledger.debit (after staking).state.hub.balances 200 500 ∧
      s'.tokens.native = Ledger.move (after staking).state.tokens.native sample.hub 40 500 ∧
      (Gsn.machine sample).step (.ret [])
          ⟨s', [⟨(after staking).state, s', .withdrawing 200 40 500 []⟩]⟩ =
        some ⟨{ s' with hub := s'.hub.emit (.withdrawn 200 40 500) }, []⟩ := by
  obtain ⟨s', hstart, hbalances, hnative, hends⟩ :=
    (hub_is_solvent (run_after staking)).2 200 40 500 (by decide)
  exact ⟨by decide, s', hstart, hbalances, hnative, (hends s' [] []).1⟩

end Redeemy
