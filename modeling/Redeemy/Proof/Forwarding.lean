import Redeemy.Lib.Simulation
import Redeemy.Model.Forwarder
import Redeemy.Proof.Change

/-!
# The system behind a forwarder is the system

What a forwarder lets through is a call of the system, in the name of the one who signed the request,
between two movements of native tokens. A run of the chain is therefore a run of the system
(`Chain.run_world`), and what holds in every run of the system holds behind a forwarder too.
-/

namespace Redeemy

open Fallible EnumerableSet CallStack

variable {F : Type → Type}
variable {crypto : Crypto} {fwd src dst : Address} {value : Nat} {e : Execution}
variable {w w' : World F} {s s₁ s' : Chain F} {tokens : Tokens} {action : Action}
variable {P : World F → Call → Prop} {frames : List (Call × World F)}

/-! ### The user a request speaks for -/

theorem ofBytes_packedAddress (a : Address) : ofBytes (packedAddress a) = a := by
  have hvalue : BigEndian.value (BigEndian.encode 20 (a : Nat)) = (a : Nat) % 256 ^ 20 :=
    BigEndian.value_encode
  have hlt : (a : Nat) < 256 ^ 20 := lt_of_lt_of_eq a.isLt (by norm_num)
  rw [Nat.mod_eq_of_lt hlt] at hvalue
  exact hvalue

/-- The target of a request reads its sender from the end of the data it gets. -/
theorem RedeemData.trailing_eq {trailing : Address} {n : Nat}
    (h : RedeemData e.callData trailing n) : trailing = e.req.src := by
  have hlength : (packedAddress e.req.src).length = 20 := BigEndian.length_encode
  have hdrop : e.callData.drop (e.callData.length - 20) = packedAddress e.req.src := by
    unfold Execution.callData
    rw [List.length_append, hlength, Nat.add_sub_cancel, List.drop_left]
  have htrailing := h.trailing
  rw [hdrop, ofBytes_packedAddress] at htrailing
  exact Fin.ext htrailing.symm

/-! ### What stays known of the system -/

variable [EnumerableSet F]

/-- The registry trusts the forwarder at `fwd`, which is no contract of the system. -/
structure Trusts (fwd : Address) (w : World F) : Prop where
  sane : Sane w
  trusted : w.registry.trustedForwarder = fwd
  system : w.system fwd = false
  ne_zero : fwd ≠ 0

theorem Trusts.of_eq (h : Trusts fwd w) (hsane : Sane w') (hsystem : w'.system = w.system)
    (htrusted : w'.registry.trustedForwarder = w.registry.trustedForwarder) : Trusts fwd w' :=
  ⟨hsane, htrusted.trans h.trusted, (congrFun hsystem fwd).trans h.system, h.ne_zero⟩

theorem Trusts.enter {call : Call} (h : Trusts fwd w) (hcan : w.CanCall call)
    (henter : w.enter call = .ok w') : Trusts fwd w' := by
  rcases enter_eq_ok h.sane.wired hcan henter with ⟨hquiet, hwired⟩ | hchange
  · exact h.of_eq ⟨hwired, hquiet.guarded h.sane.guarded⟩ hquiet.system hquiet.trustedForwarder
  · have hwiring := hchange.wiring h.sane.wired hcan
    exact h.of_eq (hchange.sane h.sane hcan) (congrArg Wiring.system hwiring)
      (congrArg Wiring.trustedForwarder hwiring)

theorem Trusts.leave {call : Call} (h : Trusts fwd w) (h0 : call.sender ≠ 0)
    (hleave : w.leave call = .ok w') : Trusts fwd w' := by
  obtain ⟨hquiet, hwired⟩ := leave_eq_ok h.sane.wired h0 hleave
  exact h.of_eq ⟨hwired, hquiet.guarded h.sane.guarded⟩ hquiet.system hquiet.trustedForwarder

theorem Trusts.abort (h : Trusts fwd w) (call : Call) : Trusts fwd (w.abort call) := by
  rcases abort_eq w call with heq | ⟨requestId, k, heq⟩
  · rw [show w.abort call = w from heq]
    exact h
  · rw [show w.abort call = w.forget requestId k from heq]
    exact h.of_eq ⟨h.sane.wired, h.sane.guarded⟩ rfl rfl

theorem trusts_preserved : Preserved (World.machine F) (fun w call => w.CanCall call ∧ P w call)
    (fun _ => True) (Trusts fwd) where
  enter := fun _ _ _ _ hw hP h => hw.enter hP.1 h
  leave := fun _ _ _ _ hw hP h => hw.leave hP.choose_spec.1.1 h
  abort := fun call _ _ hw _ => hw.abort call

/-! ### Movements of native tokens -/

/-- A condition on calls that lets everybody send native tokens. -/
def AllowsSending (P : World F → Call → Prop) : Prop :=
  ∀ w sender dst value, P w ⟨sender, .sendNative dst value⟩

theorem enter_sendNative (haccepts : w.accepts dst = true)
    (hsend : w.tokens.send src dst value .empty = .ok tokens) :
    w.enter ⟨src, .sendNative dst value⟩ = .ok { w with tokens } := by
  simp only [World.enter, require_of haccepts, hsend, ok_bind]
  rfl

theorem moves_send (hP : AllowsSending P) (hsrc : src ≠ 0 ∧ w.system src = false)
    (haccepts : w.accepts dst = true) (hsend : w.tokens.send src dst value .empty = .ok tokens) :
    Moves (World.machine F) (fun w call => w.CanCall call ∧ P w call) ⟨w, frames⟩
      ⟨{ w with tokens }, frames⟩ := by
  refine Moves.single (.call ⟨src, .sendNative dst value⟩) ⟨⟨hsrc.1, hsrc.2, trivial⟩, hP _ _ _ _⟩ ?_
  have henter : (World.machine F).enter ⟨src, .sendNative dst value⟩ w = .ok { w with tokens } :=
    enter_sendNative haccepts hsend
  simp only [Machine.step, henter]
  rfl

theorem Trusts.send (h : Trusts fwd w) (hsrc : src ≠ 0 ∧ w.system src = false)
    (haccepts : w.accepts dst = true) (hsend : w.tokens.send src dst value .empty = .ok tokens) :
    Trusts fwd { w with tokens } :=
  by
  have hcall : w.CanCall ⟨src, .sendNative dst value⟩ := ⟨hsrc.1, hsrc.2, trivial⟩
  exact h.enter hcall (enter_sendNative haccepts hsend)

theorem Trusts.accepts (h : Trusts fwd w) : w.accepts fwd = true := by
  simp [World.accepts, h.system]

namespace Chain

omit [EnumerableSet F] in
theorem authorize_eq_ok (h : s.authorize crypto fwd e = .ok s₁) : ∃ tokens forwarder,
    s.world.tokens.send e.sender fwd e.value .empty = .ok tokens ∧
    s.forwarder.authorize crypto e = .ok forwarder ∧
    s₁ = { s with world := { s.world with tokens }, forwarder } := by
  simp only [authorize, bind_eq_ok, pure_eq_ok] at h
  obtain ⟨tokens, hsend, forwarder, hauth, rfl⟩ := h
  exact ⟨tokens, forwarder, hsend, hauth, rfl⟩

omit [EnumerableSet F] in
theorem refund_eq_ok (h : s.refund fwd e = .ok s') : s' = s ∨ ∃ value tokens,
    s.world.accepts e.req.src = true ∧
    s.world.tokens.send fwd e.req.src value .empty = .ok tokens ∧
    s' = { s with world := { s.world with tokens } } := by
  unfold refund at h
  split_ifs at h
  · simp only [bind_eq_ok, require_eq_ok, pure_eq_ok] at h
    obtain ⟨_, ⟨haccepts, _⟩, tokens, hsend, rfl⟩ := h
    exact .inr ⟨_, tokens, haccepts, hsend, rfl⟩
  · rw [pure_eq_ok] at h
    exact .inl h.symm

theorem moves_authorize (frames) (hP : AllowsSending P) (hs : Trusts fwd s.world)
    (hcan : CanCall crypto fwd P s (.execute e)) (h : s.authorize crypto fwd e = .ok s₁) :
    Moves (World.machine F) (fun w call => w.CanCall call ∧ P w call) ⟨s.world, frames⟩
      ⟨s₁.world, frames⟩ := by
  obtain ⟨tokens, forwarder, hsend, _, rfl⟩ := authorize_eq_ok h
  exact moves_send hP hcan.1 hs.accepts hsend

theorem trusts_authorize (hs : Trusts fwd s.world) (hcan : CanCall crypto fwd P s (.execute e))
    (h : s.authorize crypto fwd e = .ok s₁) : Trusts fwd s₁.world := by
  obtain ⟨tokens, forwarder, hsend, _, rfl⟩ := authorize_eq_ok h
  exact hs.send hcan.1 hs.accepts hsend

theorem moves_refund (frames) (hP : AllowsSending P) (hs : Trusts fwd s.world)
    (h : s.refund fwd e = .ok s') :
    Moves (World.machine F) (fun w call => w.CanCall call ∧ P w call) ⟨s.world, frames⟩
      ⟨s'.world, frames⟩ := by
  rcases refund_eq_ok h with rfl | ⟨value, tokens, haccepts, hsend, rfl⟩
  · exact Relation.ReflTransGen.refl
  · exact moves_send hP ⟨hs.ne_zero, hs.system⟩ haccepts hsend

/-- The forwarder may make the call it relays. -/
theorem canCall_relayed (hs : Trusts fwd s.world) (hcan : CanCall crypto fwd P s (.execute e))
    (haction : e.action = some action) (h : s.authorize crypto fwd e = .ok s₁) :
    s₁.world.CanCall (relayed fwd action) ∧ P s₁.world (relayed fwd action) := by
  obtain ⟨_, _, hsrc, htarget⟩ := hcan
  simp only [Fits, Relays, haction, h] at htarget
  obtain ⟨⟨_, hreceives⟩, hPcall⟩ := htarget
  have hs₁ : s₁.world.system = s.world.system := by
    obtain ⟨_, _, _, _, rfl⟩ := authorize_eq_ok h
    rfl
  refine ⟨⟨hs.ne_zero, by rw [hs₁]; exact hs.system, ?_⟩, hPcall⟩
  rw [hs₁]
  dsimp only [relayed]
  split
  · exact fun _ => hreceives.2.trailing_eq ▸ hsrc
  · trivial

/-! ### The simulation -/

/-- The calls of the system that are open while a call of the chain is. -/
def openCalls (crypto : Crypto) (fwd : Address) (call : ChainCall) (s : Chain F) :
    List (Call × World F) :=
  match call with
  | .direct call => [(call, s.world)]
  | .execute e =>
    match e.action, s.authorize crypto fwd e with
    | some action, .ok s => [(relayed fwd action, s.world)]
    | _, _ => []
  | _ => []

omit [EnumerableSet F] in
theorem openCalls_execute (haction : e.action = some action) (h : s.authorize crypto fwd e = .ok s₁) :
    openCalls crypto fwd (.execute e) s = [(relayed fwd action, s₁.world)] := by
  simp only [openCalls, haction, h]

omit [EnumerableSet F] in
theorem openCalls_foreign (haction : e.action = none) :
    openCalls crypto fwd (.execute e) s = [] := by
  simp only [openCalls, haction]

/-- Everything a successful call of the target does. -/
inductive Targeted (fwd : Address) (s : Chain F) (e : Execution) : Chain F → Prop where
  | action {action : Action} {world : World F} (haction : e.action = some action)
      (henter : s.world.enter (relayed fwd action) = .ok world) : Targeted fwd s e { s with world }
  | foreign {tokens : Tokens} (haction : e.action = none)
      (haccepts : s.world.accepts e.req.dst = true)
      (hsend : s.world.tokens.send fwd e.req.dst e.req.value .empty = .ok tokens) :
      Targeted fwd s e { s with world := { s.world with tokens } }

theorem callTarget_eq_ok (h : s.callTarget fwd e = .ok s') : Targeted fwd s e s' := by
  simp only [callTarget, bind_eq_ok, require_eq_ok] at h
  obtain ⟨_, _, h⟩ := h
  split at h
  · rename_i action haction
    simp only [bind_eq_ok, pure_eq_ok] at h
    obtain ⟨world, henter, rfl⟩ := h
    exact .action haction henter
  · rename_i haction
    simp only [bind_eq_ok, require_eq_ok, pure_eq_ok] at h
    obtain ⟨_, haccepts, tokens, hsend, rfl⟩ := h
    exact .foreign haction haccepts hsend

/-- The first half of an accepted request. -/
theorem enter_execute_eq_ok (h : s.enter crypto fwd (.execute e) = .ok s') : ∃ s₁ s₂,
    s.authorize crypto fwd e = .ok s₁ ∧ Targeted fwd s₁ e s₂ ∧ s' = s₂.accept e true := by
  simp only [enter, bind_eq_ok, pure_eq_ok] at h
  obtain ⟨s₁, hauth, s₂, htarget, rfl⟩ := h
  exact ⟨s₁, s₂, hauth, callTarget_eq_ok htarget, rfl⟩

/-- The steps of the system under a request whose target is a contract of the system. -/
theorem moves_relayed (hP : AllowsSending P) (hs : Trusts fwd s.world)
    (hcan : CanCall crypto fwd P s (.execute e)) (haction : e.action = some action)
    (hauth : s.authorize crypto fwd e = .ok s₁) (henter : s₁.world.enter (relayed fwd action) = .ok w) :
    (s.world.yields (relayed fwd action) = true →
      Moves (World.machine F) (fun w call => w.CanCall call ∧ P w call) ⟨s.world, frames⟩
        ⟨w, openCalls crypto fwd (.execute e) s ++ frames⟩) ∧
    ∀ w', s.world.yields (relayed fwd action) = false → w.leave (relayed fwd action) = .ok w' →
      Moves (World.machine F) (fun w call => w.CanCall call ∧ P w call) ⟨s.world, frames⟩
        ⟨w', frames⟩ := by
  have hcall := canCall_relayed hs hcan haction hauth
  have hstart := moves_authorize frames hP hs hcan hauth
  have hyields : s₁.world.yields (relayed fwd action) = s.world.yields (relayed fwd action) := by
    obtain ⟨_, _, _, _, rfl⟩ := authorize_eq_ok hauth
    rfl
  refine ⟨fun hopen => ?_, fun w' hclosed hleave => ?_⟩
  · rw [openCalls_execute haction hauth]
    exact hstart.trans (moves_opened hcall henter (hyields.trans hopen))
  · exact hstart.trans (moves_passed hcall henter (hyields.trans hclosed) hleave)

theorem leave_execute_eq_ok (h : s.leave fwd (.execute e) = .ok s') : ∃ world,
    (∀ action, e.action = some action → s.world.leave (relayed fwd action) = .ok world) ∧
    (e.action = none → world = s.world) ∧ { s with world }.refund fwd e = .ok s' := by
  cases haction : e.action with
  | none =>
    simp only [leave, haction, bind_eq_ok, pure_eq_ok] at h
    obtain ⟨world, rfl, hrefund⟩ := h
    exact ⟨_, fun _ hsome => absurd hsome (by simp), fun _ => rfl, hrefund⟩
  | some action =>
    simp only [leave, haction, bind_eq_ok] at h
    obtain ⟨world, hleave, hrefund⟩ := h
    exact ⟨world, fun _ hsome => Option.some.inj hsome ▸ hleave,
      fun hnone => absurd hnone (by simp), hrefund⟩

theorem simulation (hP : AllowsSending P) : Simulation (machine F crypto fwd) (CanCall crypto fwd P)
    (World.machine F) (fun w call => w.CanCall call ∧ P w call) (Trusts fwd) Chain.world
    (openCalls crypto fwd) where
  opened := fun call s m frames hs hcan henter hyields => by
    cases call with
    | direct call =>
      simp only [machine, enter, bind_eq_ok, pure_eq_ok] at henter
      obtain ⟨world, henter, rfl⟩ := henter
      exact moves_opened ⟨hcan.1, hcan.2.2⟩ henter hyields
    | execute e =>
      obtain ⟨s₁, s₂, hauth, htarget, rfl⟩ := enter_execute_eq_ok henter
      cases htarget with
      | action haction htarget =>
        refine (moves_relayed hP hs hcan haction hauth htarget).1 ?_
        simpa only [machine, yields, haction] using hyields
      | foreign haction haccepts hsend =>
        rw [openCalls_foreign haction]
        have hs₁ := trusts_authorize hs hcan hauth
        exact (moves_authorize _ hP hs hcan hauth).trans
          (moves_send hP ⟨hs₁.ne_zero, hs₁.system⟩ haccepts hsend)
    | registerRequestType => cases hyields
    | registerDomainSeparator => cases hyields
  closed := fun call s m s' frames hs hm hcan hopens hleave => by
    cases call with
    | direct call =>
      simp only [machine, leave, bind_eq_ok, pure_eq_ok] at hleave
      obtain ⟨world, hleave, rfl⟩ := hleave
      exact moves_closed hleave
    | execute e =>
      obtain ⟨s₁, s₂, hauth, htarget, -⟩ := enter_execute_eq_ok hopens.1.choose_spec
      obtain ⟨world, haction, hforeign, hrefund⟩ := leave_execute_eq_ok hleave
      cases htarget with
      | action ha =>
        have hworld := haction _ ha
        have htrusts : Trusts fwd world := hm.leave hs.ne_zero hworld
        rw [openCalls_execute ha hauth]
        exact (moves_closed hworld).trans (moves_refund _ hP htrusts hrefund)
      | foreign ha =>
        rw [openCalls_foreign ha]
        obtain rfl := hforeign ha
        exact moves_refund _ hP hm hrefund
    | registerRequestType => cases hopens.2
    | registerDomainSeparator => cases hopens.2
  passed := fun call s m s' frames hs hcan henter hyields hleave => by
    cases call with
    | direct call =>
      simp only [machine, enter, leave, bind_eq_ok, pure_eq_ok] at henter hleave
      obtain ⟨world, henter, rfl⟩ := henter
      obtain ⟨world', hleave, rfl⟩ := hleave
      exact moves_passed ⟨hcan.1, hcan.2.2⟩ henter hyields hleave
    | execute e =>
      obtain ⟨s₁, s₂, hauth, htarget, rfl⟩ := enter_execute_eq_ok henter
      obtain ⟨world, haction, hforeign, hrefund⟩ := leave_execute_eq_ok hleave
      cases htarget with
      | action ha htarget =>
        have hworld := haction _ ha
        have hcall := canCall_relayed hs hcan ha hauth
        have hmid := (trusts_authorize hs hcan hauth).enter hcall.1 htarget
        have htrusts : Trusts fwd world := hmid.leave hs.ne_zero hworld
        refine ((moves_relayed hP hs hcan ha hauth htarget).2 world ?_ hworld).trans
          (moves_refund _ hP htrusts hrefund)
        simpa only [machine, yields, ha] using hyields
      | foreign ha =>
        simp [machine, yields, ha] at hyields
    | registerRequestType typeName typeSuffix =>
      simp only [machine, enter, leave, bind_eq_ok, pure_eq_ok] at henter hleave
      obtain ⟨_, _, rfl⟩ := henter
      exact hleave ▸ Relation.ReflTransGen.refl
    | registerDomainSeparator chainId name version =>
      simp only [machine, enter, leave, pure_eq_ok] at henter hleave
      subst henter hleave
      exact Relation.ReflTransGen.refl
  failed := fun call s frames hs hcan hfail => by
    cases call with
    | direct call =>
      refine moves_failed ⟨hcan.1, hcan.2.2⟩ fun world world' henter hyields hleave => ?_
      refine hfail { s with world } { s with world := world' } ?_ hyields ?_
      · simp only [machine, enter, show s.world.enter call = .ok world from henter, ok_bind]
        rfl
      · simp only [machine, leave, show world.leave call = .ok world' from hleave, ok_bind]
        rfl
    | execute e =>
      simp only [machine, abort]
      split
      · rename_i s' hs'
        obtain ⟨s₁, hauth, hrefund⟩ := bind_eq_ok.mp hs'
        have hmoves := moves_refund frames hP (trusts_authorize hs hcan hauth) hrefund
        exact (moves_authorize _ hP hs hcan hauth).trans hmoves
      · exact Relation.ReflTransGen.refl
    | registerRequestType => exact Relation.ReflTransGen.refl
    | registerDomainSeparator => exact Relation.ReflTransGen.refl

theorem trusts_initial {s₀ : Chain F} (h : s₀.Initial crypto fwd) : Trusts fwd s₀.world :=
  ⟨sane_initial h.world, h.trusted, h.foreign.2, h.foreign.1⟩

/-- Every run of the chain is a run of the system, whatever requests are signed and relayed. -/
theorem run_world {c : Config (Chain F) ChainCall} (hP : AllowsSending P)
    (h : Run crypto fwd P c) :
    World.Run P ⟨c.state.world, under (openCalls crypto fwd) c.frames⟩ := by
  obtain ⟨s₀, hs₀, hreach⟩ := h
  refine ⟨s₀.world, hs₀.world, (simulation hP).reachable (fun d hd => ?_) hreach⟩
  exact hd.invariant trusts_preserved (trusts_initial hs₀)

set_option maxRecDepth 4000 in
/-- The second time the request is refused. -/
theorem run_world_relayTwice :
    (after signerCrypto (fun _ _ => True) relayTwice).state.world.charges.length = 1 ∧
      World.Run (fun _ _ => True)
        ⟨(after signerCrypto (fun _ _ => True) relayTwice).state.world,
          under (openCalls signerCrypto 3) (after signerCrypto (fun _ _ => True) relayTwice).frames⟩ :=
  ⟨by decide, run_world (fun _ _ _ _ => trivial) (run_after signerCrypto _ relayTwice)⟩

end Chain

end Redeemy
