import Redeemy.Proof.Digest
import Redeemy.Proof.Signed

/-!
# What a user is charged for

An account that redeems through the forwarder only is charged for the requests it has signed, and for
nothing else: its charges are, one for one and in their order, the redemptions accepted in its name
that went through.
-/

namespace Redeemy

open Fallible EnumerableSet CallStack

variable {F : Type → Type}
variable {crypto : Crypto} {fwd u : Address} {e : Execution} {x : Accepted} {call : Call}
variable {w w' : World F} {s s₁ s₂ s' : Chain F} {ch : Charge} {action : Action}
variable {c : Config (Chain F) ChainCall}

def Action.redeems : Action → Bool
  | .assetPool _ (.redeemAsset _ _ _) => true
  | _ => false

/-- The account `u` makes no redemption by a call of its own. -/
def World.OnlyRelayed (u : Address) (_ : World F) (call : Call) : Prop :=
  call.action.redeems → call.sender ≠ u

instance (w : World F) (call : Call) : Decidable (w.OnlyRelayed u call) :=
  inferInstanceAs (Decidable (_ → _))

namespace Accepted

/-- A redemption that went through. -/
def redeems (x : Accepted) : Bool :=
  x.succeeded && x.execution.action.any Action.redeems

/-- The request is one of the user who pays, to the pool that is paid, for the number of cards that
are paid. -/
structure Pays (x : Accepted) (ch : Charge) : Prop where
  user : x.src = ch.user
  pool : x.execution.req.dst = ch.pool
  data : RedeemData x.execution.callData ch.user ch.ids.length

end Accepted

/-! ### The charges a call adds -/

variable [EnumerableSet F]

theorem redeem_of_enter {p trailing : Address} {n : Nat} {requestIds : List Nat}
    (hcall : call.action = .assetPool p (.redeemAsset trailing n requestIds))
    (h : w.enter call = .ok w') : Redeem w p call.sender trailing n requestIds w' := by
  unfold World.enter at h
  rw [hcall] at h
  exact redeemAsset_eq_ok h

/-- A redemption that goes through adds a charge. -/
theorem not_redeems_of_enter (h : w.enter call = .ok w') (hsame : w'.charges = w.charges) :
    call.action.redeems = false := by
  unfold Action.redeems
  split
  · rename_i p trailing n requestIds haction
    cases redeem_of_enter haction h with
    | mk _ _ _ _ _ _ _ _ hrequests =>
      obtain ⟨_, _, _, rfl⟩ := hrequests.frame
      exact absurd (congrArg List.length hsame) (by simp [World.setPool])
  · rfl

/-- A call adds no charge, or it is a redemption and adds one to its sender, or to the account that
the forwarder names. -/
theorem charges_of_enter (hw : Trusts fwd w) (hcan : w.CanCall call) (h : w.enter call = .ok w') :
    w'.charges = w.charges ∨ ∃ ch trailing,
      call.action = .assetPool ch.pool (.redeemAsset trailing ch.ids.length ch.ids) ∧
      w'.charges = ch :: w.charges ∧
      ch.user = if call.sender = fwd then trailing else call.sender := by
  rcases charged_of_enter hw.sane hcan h with ⟨_, hsame⟩ | ⟨ch, hmade⟩
  · exact .inl hsame
  · cases hmade with
    | @mk trailing pool rp hcall hpool _ huser _ _ _ hcharges =>
      have hforwarder := (redeem_of_enter hcall h).trustedForwarder hw.sane.wired hpool
      refine .inr ⟨ch, trailing, hcall, hcharges, huser.trans ?_⟩
      rw [World.msgSender, hforwarder, hw.trusted]

theorem charges_of_leave (hw : Trusts fwd w) (h0 : call.sender ≠ 0) (h : w.leave call = .ok w') :
    w'.charges = w.charges :=
  (leave_eq_ok hw.sane.wired h0 h).1.charges

namespace Chain

/-! ### Attribution -/

/-- The charges of `u` are the redemptions accepted in its name that went through. -/
structure Attributed (fwd u : Address) (s : Chain F) : Prop where
  trusts : Trusts fwd s.world
  paid : List.Forall₂ (fun ch x => x.Pays ch) (s.world.charges.filter (·.user = u))
    (s.accepted.filter fun x => x.src = u ∧ x.redeems = true)

/-- A step that adds no charge, and no redemption that went through. -/
theorem Attributed.of_same (h : Attributed fwd u s) (htrusts : Trusts fwd s'.world)
    (hcharges : s'.world.charges = s.world.charges)
    (haccepted : (s'.accepted.filter fun x => x.src = u ∧ x.redeems = true) =
      s.accepted.filter fun x => x.src = u ∧ x.redeems = true) : Attributed fwd u s' :=
  ⟨htrusts, by rw [hcharges, haccepted]; exact h.paid⟩

theorem filter_accept_failed {accepted : List Accepted} :
    ((⟨e, false⟩ :: accepted).filter fun x => x.src = u ∧ x.redeems = true) =
      accepted.filter fun x => x.src = u ∧ x.redeems = true := by
  exact List.filter_cons_of_neg (by simp [Accepted.redeems])

theorem trusts_refund (hs : Trusts fwd s.world) (h : s.refund fwd e = .ok s') :
    Trusts fwd s'.world ∧ s'.world.charges = s.world.charges := by
  rcases refund_eq_ok h with rfl | ⟨value, tokens, haccepts, hsend, rfl⟩
  · exact ⟨hs, rfl⟩
  · exact ⟨hs.send ⟨hs.ne_zero, hs.system⟩ haccepts hsend, rfl⟩

/-- The target of an accepted request: what it is charged for is what the request says. -/
theorem attributed_target (hs : Attributed fwd u s)
    (hcan : CanCall crypto fwd (World.OnlyRelayed u) s (.execute e))
    (hauth : s.authorize crypto fwd e = .ok s₁) (h : Targeted fwd s₁ e s₂) :
    Attributed fwd u (s₂.accept e true) := by
  have hs₁ := trusts_authorize hs.trusts hcan hauth
  obtain ⟨tokens, f', _, _, rfl⟩ := authorize_eq_ok hauth
  cases h with
  | foreign haction haccepts hsend =>
    refine hs.of_same (hs₁.send ⟨hs₁.ne_zero, hs₁.system⟩ haccepts hsend) rfl ?_
    exact List.filter_cons_of_neg (by simp [Accepted.redeems, haction])
  | @action action world haction henter =>
    have hcall := canCall_relayed hs.trusts hcan haction hauth
    have htrusts := hs₁.enter hcall.1 henter
    rcases charges_of_enter hs₁ hcall.1 henter with hsame | ⟨ch, trailing, hredeem, hcharges, huser⟩
    · -- an action that adds no charge is no redemption
      refine hs.of_same htrusts hsame ?_
      have hnot : action.redeems = false := not_redeems_of_enter henter hsame
      exact List.filter_cons_of_neg (by simp [Accepted.redeems, haction, hnot])
    · obtain rfl : action = .assetPool ch.pool (.redeemAsset trailing ch.ids.length ch.ids) := hredeem
      obtain ⟨_, _, _, hfits⟩ := hcan
      simp only [Fits, haction, World.Receives] at hfits
      obtain ⟨⟨_, hdst, hdata⟩, _⟩ := hfits
      have huser' : ch.user = e.req.src := by
        rw [huser, relayed, if_pos rfl]
        exact hdata.trailing_eq
      refine ⟨htrusts, ?_⟩
      show List.Forall₂ _ (world.charges.filter _) ((⟨e, true⟩ :: s.accepted).filter _)
      rw [hcharges]
      by_cases hu : e.req.src = u
      · rw [List.filter_cons_of_pos (by simp [huser', hu]),
          List.filter_cons_of_pos (by simp [Accepted.src, Accepted.redeems, Action.redeems, haction, hu])]
        refine .cons ⟨huser'.symm, hdst, ?_⟩ hs.paid
        rw [huser', ← hdata.trailing_eq]
        exact hdata
      · rw [List.filter_cons_of_neg (by simp [huser', hu]),
          List.filter_cons_of_neg (by simp [Accepted.src, hu])]
        exact hs.paid

theorem attributed_preserved : Preserved (machine F crypto fwd)
    (CanCall crypto fwd (World.OnlyRelayed u)) (fun _ => True) (Attributed fwd u) where
  enter := fun call s m _ hs hcan h => by
    cases call with
    | direct call =>
      simp only [machine, enter, bind_eq_ok, pure_eq_ok] at h
      obtain ⟨world, henter, rfl⟩ := h
      obtain ⟨hcan, hsender, hrelayed⟩ := hcan
      have htrusts := hs.trusts.enter hcan henter
      rcases charges_of_enter hs.trusts hcan henter with hsame | ⟨ch, trailing, hcall, hcharges, huser⟩
      · exact hs.of_same htrusts hsame rfl
      · -- the charge is another account's
        have hne : call.sender ≠ u := hrelayed (by rw [hcall, Action.redeems])
        rw [if_neg hsender] at huser
        refine ⟨htrusts, ?_⟩
        show List.Forall₂ _ (world.charges.filter _) _
        rw [hcharges, List.filter_cons_of_neg (by simpa [huser] using hne)]
        exact hs.paid
    | execute e =>
      obtain ⟨s₁, s₂, hauth, htarget, rfl⟩ := enter_execute_eq_ok h
      exact attributed_target hs hcan hauth htarget
    | registerRequestType typeName typeSuffix =>
      simp only [machine, enter, bind_eq_ok, pure_eq_ok] at h
      obtain ⟨_, _, rfl⟩ := h
      exact hs.of_same hs.trusts rfl rfl
    | registerDomainSeparator chainId name version =>
      simp only [machine, enter, pure_eq_ok] at h
      subst h
      exact hs.of_same hs.trusts rfl rfl
  leave := fun call m s' _ hm hcan h => by
    obtain ⟨s, hcan⟩ := hcan
    cases call with
    | direct call =>
      simp only [machine, leave, bind_eq_ok, pure_eq_ok] at h
      obtain ⟨world, hleave, rfl⟩ := h
      exact hm.of_same (hm.trusts.leave hcan.1.1 hleave)
        (charges_of_leave hm.trusts hcan.1.1 hleave) rfl
    | execute e =>
      obtain ⟨world, haction, hforeign, hrefund⟩ := leave_execute_eq_ok h
      obtain ⟨_, ha⟩ := refund_forwarder hrefund
      have hworld : Trusts fwd world ∧ world.charges = m.world.charges := by
        cases he : e.action with
        | none =>
          obtain rfl := hforeign he
          exact ⟨hm.trusts, rfl⟩
        | some action =>
          have hleave := haction action he
          exact ⟨hm.trusts.leave hm.trusts.ne_zero hleave,
            charges_of_leave hm.trusts hm.trusts.ne_zero hleave⟩
      obtain ⟨htrusts, hcharges⟩ := trusts_refund (s := { m with world }) hworld.1 hrefund
      exact hm.of_same htrusts (hcharges.trans hworld.2) (by rw [ha])
    | registerRequestType =>
      simp only [machine, leave, pure_eq_ok] at h
      exact h ▸ hm
    | registerDomainSeparator =>
      simp only [machine, leave, pure_eq_ok] at h
      exact h ▸ hm
  abort := fun call s _ hs hcan => by
    cases call with
    | direct call =>
      refine hs.of_same (hs.trusts.abort call) ?_ rfl
      show (s.world.abort call).charges = s.world.charges
      rcases abort_eq s.world call with heq | ⟨requestId, k, heq⟩
      · rw [show s.world.abort call = s.world from heq]
      · rw [show s.world.abort call = s.world.forget requestId k from heq]
        rfl
    | execute e =>
      rcases abort_execute (s := s) (e := e) with heq | ⟨s₁, s₂, hauth, hrefund, heq⟩
      · show Attributed fwd u (s.abort crypto fwd (.execute e))
        rw [heq]
        exact hs
      · show Attributed fwd u (s.abort crypto fwd (.execute e))
        rw [heq]
        have hs₁ := trusts_authorize hs.trusts hcan hauth
        obtain ⟨htrusts, hcharges⟩ := trusts_refund hs₁ hrefund
        obtain ⟨_, ha⟩ := refund_forwarder hrefund
        obtain ⟨_, _, _, _, rfl⟩ := authorize_eq_ok hauth
        refine hs.of_same htrusts hcharges ?_
        show ((⟨e, false⟩ :: s₂.accepted).filter _) = _
        rw [ha, filter_accept_failed]
    | registerRequestType => exact hs
    | registerDomainSeparator => exact hs

theorem run_attributed (h : Run crypto fwd (World.OnlyRelayed u) c) : Attributed fwd u c.state := by
  obtain ⟨s₀, hs₀, hreach⟩ := h
  refine hreach.invariant attributed_preserved ⟨trusts_initial hs₀, ?_⟩
  rw [hs₀.accepted, hs₀.world.charges]
  exact .nil

/-- The nonces of all accepted requests of an account descend, so those of some of them do. -/
theorem pairwise_nonces (h : Run crypto fwd (World.OnlyRelayed u) c) :
    ((c.state.accepted.filter fun x => x.src = u ∧ x.redeems = true).map Accepted.nonce).Pairwise
      (· > ·) := by
  have hall : ((c.state.accepted.filter (·.src = u)).map Accepted.nonce).Pairwise (· > ·) := by
    rw [(run_sequenced h).nonces, List.pairwise_reverse]
    exact List.pairwise_lt_range
  refine hall.sublist (List.Sublist.map _ ?_)
  have hsub : (c.state.accepted.filter fun x => x.src = u ∧ x.redeems = true) =
      (c.state.accepted.filter (·.src = u)).filter (·.redeems) := by
    rw [List.filter_filter]
    congr 1
    funext x
    simp [Bool.and_comm]
  rw [hsub]
  exact List.filter_sublist

/-- An account that redeems through the forwarder only is charged for the redemptions that were
accepted in its name and went through, for each of them once and in their order. Each of these
requests was signed by the account, names the pool and the number of cards that were paid for, and
carries a nonce of its own. -/
theorem charges_signed (h : Run crypto fwd (World.OnlyRelayed u) c) :
    List.Forall₂ (fun ch x => x.Pays ch) (c.state.world.charges.filter (·.user = u))
      (c.state.accepted.filter fun x => x.src = u ∧ x.redeems = true) ∧
    (∀ x ∈ c.state.accepted, x.Genuine crypto c.state.forwarder) ∧
    ((c.state.accepted.filter fun x => x.src = u ∧ x.redeems = true).map Accepted.nonce).Pairwise
      (· > ·) :=
  ⟨(run_attributed h).paid, (run_sequenced h).genuine, pairwise_nonces h⟩

end Chain

set_option maxRecDepth 4000 in
/-- One redemption of the signer is charged. -/
theorem Chain.charges_signed_relayTwice :
    ((after signerCrypto (World.OnlyRelayed signer) relayTwice).state.world.charges.filter
      (·.user = signer)).length = 1 ∧
      List.Forall₂ (fun ch x => x.Pays ch)
        ((after signerCrypto (World.OnlyRelayed signer) relayTwice).state.world.charges.filter
          (·.user = signer))
        ((after signerCrypto (World.OnlyRelayed signer) relayTwice).state.accepted.filter
          fun x => x.src = signer ∧ x.redeems = true) :=
  ⟨by decide, (charges_signed (run_after signerCrypto (World.OnlyRelayed signer) relayTwice)).1⟩

/-! ### One signature, one payment -/

/-- What is hashed for the accepted requests of a run. -/
def Chain.hashed (crypto : Crypto) (s : Chain F) : Set Bytes :=
  { m | ∃ x ∈ s.accepted, m ∈ Forwarder.hashed crypto x.execution }

/-- The digests of the requests that an account is charged for. -/
def Chain.chargedDigests (crypto : Crypto) (u : Address) (s : Chain F) : List Bytes32 :=
  (s.accepted.filter fun x => x.src = u ∧ x.redeems = true).map fun x =>
    Forwarder.digest crypto x.execution

/-- An account that redeems through the forwarder only, and that has signed the digests `signed`, is
charged at most once for each of them, however often and by whomever the requests are relayed: if no
signature was forged, and the hash function has no collision among what was hashed. -/
theorem Chain.charges_le_signed {signed : Finset Bytes32}
    (hsigned : ∀ x ∈ c.state.accepted,
      crypto.recover (Forwarder.digest crypto x.execution) x.execution.sig = some u →
        Forwarder.digest crypto x.execution ∈ signed)
    (hinj : Set.InjOn crypto.keccak256 (c.state.hashed crypto))
    (h : Run crypto fwd (World.OnlyRelayed u) c) :
    List.Forall₂ (fun ch x => x.Pays ch) (c.state.world.charges.filter (·.user = u))
      (c.state.accepted.filter fun x => x.src = u ∧ x.redeems = true) ∧
    (c.state.chargedDigests crypto u).Nodup ∧ (∀ digest ∈ c.state.chargedDigests crypto u,
      digest ∈ signed) ∧
    (c.state.world.charges.filter (·.user = u)).length ≤ signed.card := by
  have hpaid := (run_attributed h).paid
  have hmem : ∀ x ∈ c.state.accepted.filter fun x => x.src = u ∧ x.redeems = true,
      x ∈ c.state.accepted ∧ x.src = u := fun x hx => by
    have hx := List.mem_filter.mp hx
    exact ⟨hx.1, (of_decide_eq_true hx.2).1⟩
  -- different nonces, different digests
  have hnodup : (c.state.chargedDigests crypto u).Nodup := by
    have hnonces := pairwise_nonces h
    rw [List.pairwise_map] at hnonces
    refine List.pairwise_map.mpr (hnonces.imp_of_mem fun hx hy hgt heq => ?_)
    have hreq := (Forwarder.digest_inj hinj (fun m hm => ⟨_, (hmem _ hx).1, hm⟩)
      (fun m hm => ⟨_, (hmem _ hy).1, hm⟩) heq).1
    exact absurd (congrArg FullForwardRequest.nonce hreq) (Nat.ne_of_gt hgt)
  have hsub : ∀ digest ∈ c.state.chargedDigests crypto u, digest ∈ signed := by
    intro digest hdigest
    obtain ⟨x, hx, rfl⟩ := List.mem_map.mp hdigest
    obtain ⟨haccepted, hsrc⟩ := hmem x hx
    exact hsigned x haccepted (hsrc ▸ ((run_sequenced h).genuine x haccepted).signed)
  refine ⟨hpaid, hnodup, hsub, ?_⟩
  calc (c.state.world.charges.filter (·.user = u)).length
      = (c.state.chargedDigests crypto u).length := by
        rw [hpaid.length_eq, chargedDigests, List.length_map]
    _ = (c.state.chargedDigests crypto u).toFinset.card :=
        (List.toFinset_card_of_nodup hnodup).symm
    _ ≤ signed.card := Finset.card_le_card fun digest hdigest =>
        hsub digest (List.mem_toFinset.mp hdigest)

set_option maxRecDepth 4000 in
/-- The signer has signed one digest. -/
theorem Chain.charges_le_signed_relayTwice :
    (after signerCrypto (World.OnlyRelayed signer) relayTwice).state.chargedDigests signerCrypto signer =
      [Forwarder.digest signerCrypto signedRedemption] ∧
    ((after signerCrypto (World.OnlyRelayed signer) relayTwice).state.world.charges.filter
      (·.user = signer)).length ≤ ({Forwarder.digest signerCrypto signedRedemption} : Finset _).card := by
  have hlist : ∀ m ∈ (after signerCrypto (World.OnlyRelayed signer) relayTwice).state.accepted.flatMap
      fun x => Forwarder.hashed signerCrypto x.execution,
      ∀ m' ∈ (after signerCrypto (World.OnlyRelayed signer) relayTwice).state.accepted.flatMap
        fun x => Forwarder.hashed signerCrypto x.execution,
      signerCrypto.keccak256 m = signerCrypto.keccak256 m' → m = m' := by decide
  refine ⟨by decide, (charges_le_signed (by decide) (fun m hm m' hm' => ?_)
    (run_after signerCrypto (World.OnlyRelayed signer) relayTwice)).2.2.2⟩
  exact hlist m (List.mem_flatMap.mpr hm) m' (List.mem_flatMap.mpr hm')

end Redeemy
