import Redeemy.Proof.HubLedger

/-!
# What a relay call comes to

The inner call tells its outcome as bytes, and the bytes of a failure are cut after 1024. The outcome
can be read back exactly if what came with it fits in 928 bytes (`decodeStatus_revertWithStatus`). With
that, every end of the inner call has one of two outcomes: either the relay call goes through, and the
paymaster pays the charge or is excused, or nothing of the relay call remains (`relay_call_ends`).
-/

namespace Redeemy

open Fallible Handover Gsn

variable {d : Deployment} {h h' : RelayHub} {s s' : Gsn} {r : Relaying} {status : RelayCallStatus}
variable {ret data : Bytes} {stage : Stage} {c : Config Gsn Rest} {frames : List (Frame Gsn Rest)}
variable {relayData : RelayData} {gasprice basefee gas gas' n : Nat}

/-! ### The outcome as bytes -/

theorem ofNat?_toNat : RelayCallStatus.ofNat? status.toNat = some status := by
  cases status <;> rfl

theorem toNat_lt : status.toNat < 2 ^ 256 := by
  cases status <;> decide

/-- The head of the encoding of an outcome. -/
def statusHead (status : RelayCallStatus) : Bytes := Abi.word status.toNat ++ Abi.word 64

theorem length_statusHead : (statusHead status).length = 64 := by
  simp [statusHead]

theorem encodeStatus_eq : encodeStatus status ret = statusHead status ++ Abi.tail ret := rfl

/-- The two words of the head are read back from data that are long enough. -/
theorem wordAt_take (status : RelayCallStatus) (ret : Bytes) (limit : Nat) (hlimit : 64 ≤ limit) :
    Abi.wordAt ((encodeStatus status ret).take limit) 0 = status.toNat ∧
      Abi.wordAt ((encodeStatus status ret).take limit) 32 = 64 := by
  have hsplit : (encodeStatus status ret).take limit =
      statusHead status ++ (Abi.tail ret).take (limit - 64) := by
    rw [encodeStatus_eq, List.take_append, List.take_of_length_le (by rw [length_statusHead]; omega),
      length_statusHead]
  rw [hsplit, statusHead, List.append_assoc]
  exact ⟨Abi.wordAt_word toNat_lt, Abi.wordAt_append Abi.length_word.symm (by decide)⟩

theorem decodeStatus_take (status : RelayCallStatus) (limit : Nat) (hlimit : 96 ≤ limit)
    (hret : ret.length < 2 ^ 64) :
    decodeStatus ((encodeStatus status ret).take limit) =
      if 96 + ret.length ≤ limit then some (status, ret) else none := by
  obtain ⟨hstatus, hoffset⟩ := wordAt_take status ret limit (by omega)
  have hlength : 64 ≤ ((encodeStatus status ret).take limit).length := by
    rw [List.length_take, encodeStatus_eq, List.length_append, length_statusHead]
    omega
  have hbytes : Abi.bytesAt ((encodeStatus status ret).take limit) 32 =
      if 96 + ret.length ≤ limit then some ret else none := by
    rw [encodeStatus_eq] at hoffset ⊢
    rw [Abi.bytesAt_take limit (by rw [hoffset, length_statusHead])
      (by rw [length_statusHead]; omega) (by rw [length_statusHead]; omega) hret, length_statusHead]
  unfold decodeStatus
  rw [hstatus, ofNat?_toNat, hbytes]
  rw [guard, if_pos hlength]
  split_ifs <;> rfl

theorem decodeStatus_encodeStatus (hret : ret.length < 2 ^ 64) :
    decodeStatus (encodeStatus status ret) = some (status, ret) := by
  have hle := Abi.le_paddedLength (n := ret.length)
  have hall : (encodeStatus status ret).take (96 + Abi.paddedLength ret.length) =
      encodeStatus status ret := by
    apply List.take_of_length_le
    rw [encodeStatus_eq, List.length_append, length_statusHead, Abi.length_tail]
    omega
  have hdecode := decodeStatus_take status (96 + Abi.paddedLength ret.length)
    (by omega) hret
  rwa [hall, if_pos (by omega)] at hdecode

/-- What comes with a failure. -/
def REASON_SIZE : Nat := 928

theorem decodeStatus_revertWithStatus (hret : ret.length < 2 ^ 64) :
    decodeStatus (revertWithStatus status ret) =
      if ret.length ≤ REASON_SIZE then some (status, ret) else none := by
  rw [revertWithStatus, truncate, decodeStatus_take status MAX_RETURN_SIZE (by decide) hret]
  have hiff : 96 + ret.length ≤ MAX_RETURN_SIZE ↔ ret.length ≤ REASON_SIZE := by
    simp only [MAX_RETURN_SIZE, REASON_SIZE]
    omega
  simp only [hiff]

/-! ### The charge -/

/-- `calculateCharge` without bounds. -/
def RelayHubConfig.charge (config : RelayHubConfig) (gasprice basefee gasUsed : Nat)
    (relayData : RelayData) : Nat :=
  let basefee := if relayData.maxFeePerGas = relayData.maxPriorityFeePerGas then 0 else basefee
  let price := min relayData.maxFeePerGas (min gasprice (basefee + relayData.maxPriorityFeePerGas))
  config.baseRelayFee.val + gasUsed * price * (config.pctRelayFee.toNat + 100) / 100

/-- The charge for less gas can be computed too, and is no more. -/
theorem calculateCharge_of_le (hle : gas' ≤ gas)
    (hcharge : h.calculateCharge gasprice basefee gas relayData = .ok n) :
    h.calculateCharge gasprice basefee gas' relayData =
        .ok (h.config.charge gasprice basefee gas' relayData) ∧
      h.config.charge gasprice basefee gas' relayData ≤ n := by
  simp only [RelayHub.calculateCharge, bind_eq_ok, checkedAdd_eq_ok, checkedMul_eq_ok,
    require_eq_ok] at hcharge ⊢
  obtain ⟨_, ⟨hsum, rfl⟩, _, hpct, _, ⟨hmul, rfl⟩, _, ⟨hmul', rfl⟩, hadd, rfl⟩ := hcharge
  have hmono := Nat.mul_le_mul_right (min relayData.maxFeePerGas (min gasprice
    ((if relayData.maxFeePerGas = relayData.maxPriorityFeePerGas then 0 else basefee) +
      relayData.maxPriorityFeePerGas))) hle
  have hmono' := Nat.mul_le_mul_right (h.config.pctRelayFee.toNat + 100) hmono
  have hdiv := Nat.div_le_div_right (c := 100) hmono'
  refine ⟨⟨_, ⟨hsum, rfl⟩, (), hpct, _, ⟨hmono.trans_lt hmul, rfl⟩, _, ⟨hmono'.trans_lt hmul', rfl⟩,
    ?_, rfl⟩, ?_⟩
  · exact (Nat.add_le_add_left hdiv _).trans_lt hadd
  · exact Nat.add_le_add_left hdiv _

/-- The share of the developers never exceeds the charge, even where the product wraps around. -/
theorem calculateDevCharge_le (hfee : h.config.devFee < 100) : h.calculateDevCharge n ≤ n := by
  have hfee' : h.config.devFee.toNat < 100 := hfee
  have hmul : n * h.config.devFee.toNat ≤ n * 100 := Nat.mul_le_mul_left _ hfee'.le
  have hmod := Nat.mod_le (n * h.config.devFee.toNat) UINT256_SIZE
  unfold RelayHub.calculateDevCharge
  split_ifs
  · exact Nat.zero_le _
  · omega

/-- The gas runs down, and what is left for the charge covers what comes after it. -/
structure GasReadings.Sane (g : GasReadings) (gasOverhead : Nat) : Prop where
  inner : g.afterInner ≤ g.beforeInner
  charge : g.atCharge ≤ g.initial
  overhead : gasOverhead ≤ g.atCharge

namespace Relaying

/-- The gas the paymaster pays for. -/
def gasUsed (r : Relaying) (config : RelayHubConfig) : Nat :=
  r.relayData.transactionCalldataGasUsed + (r.call.gas.initial - r.call.gas.atCharge) +
    config.gasOverhead

def charge (r : Relaying) (config : RelayHubConfig) : Nat :=
  config.charge r.call.gasprice r.call.basefee (r.gasUsed config) r.relayData

/-- The hub after the paymaster has paid. -/
def paid (r : Relaying) (status : RelayCallStatus) (h : RelayHub) : RelayHub :=
  h.log (.transactionRelayed r.relayManager r.sender r.request.src r.request.dst r.paymaster status
    (r.charge h.config))

/-- A charge that was checked can be paid, by whoever has what was checked. -/
theorem settle_succeeds {maxPossibleCharge : Nat} (hgas : r.call.gas.Sane h.config.gasOverhead)
    (hfits : r.relayData.transactionCalldataGasUsed + r.call.gas.initial < UINT256_SIZE)
    (hcharge : h.calculateCharge r.call.gasprice r.call.basefee
      (r.relayData.transactionCalldataGasUsed + r.call.gas.initial) r.relayData =
        .ok maxPossibleCharge)
    (hfunds : maxPossibleCharge ≤ h.balances r.paymaster)
    (hsum : ∑ a, h.balances a < UINT256_SIZE) (hfee : h.config.devFee < 100) :
    r.settle status h = .ok (r.paid status h) ∧ r.charge h.config ≤ maxPossibleCharge := by
  have hspent := hgas.charge
  have hover := hgas.overhead
  have hused : r.gasUsed h.config ≤ r.relayData.transactionCalldataGasUsed + r.call.gas.initial := by
    unfold Relaying.gasUsed
    omega
  obtain ⟨hless, hle⟩ := calculateCharge_of_le hused hcharge
  refine ⟨?_, hle⟩
  set n := h.config.charge r.call.gasprice r.call.basefee (r.gasUsed h.config) r.relayData with hn
  have hpays : n ≤ h.balances r.paymaster := hle.trans hfunds
  have hdev : h.calculateDevCharge n ≤ n := calculateDevCharge_le hfee
  have hdebit := Ledger.sum_debit hpays
  -- all that is credited was debited before, so no balance overflows
  have hshare : Ledger.debit h.balances r.paymaster n r.relayManager +
      (n - h.calculateDevCharge n) < UINT256_SIZE := by
    have hone := Ledger.le_sum (l := Ledger.debit h.balances r.paymaster n) (a := r.relayManager)
    omega
  have hlast : Ledger.credit (Ledger.debit h.balances r.paymaster n) r.relayManager
      (n - h.calculateDevCharge n) h.config.devAddress + h.calculateDevCharge n < UINT256_SIZE := by
    have hone := Ledger.le_sum (a := h.config.devAddress)
      (l := Ledger.credit (Ledger.debit h.balances r.paymaster n) r.relayManager
        (n - h.calculateDevCharge n))
    rw [Ledger.sum_credit] at hone
    omega
  have hdevPaid : payDev (h.calculateDevCharge n) (h.withBalances (Ledger.credit
      (Ledger.debit h.balances r.paymaster n) r.relayManager (n - h.calculateDevCharge n))) =
        .ok (h.charged r.paymaster r.relayManager n) := by
    exact payDev_eq_ok.mpr ⟨.inr hlast, rfl⟩
  simp only [settle, bind_eq_ok, checkedSub_eq_ok, checkedAdd_eq_ok, pure_eq_ok]
  refine ⟨_, ⟨hspent, rfl⟩, _, ⟨?_, rfl⟩, _, ⟨?_, rfl⟩, n, hless, _, ⟨hpays, rfl⟩, _, ⟨hdev, rfl⟩, _,
    ⟨hshare, rfl⟩, _, hdevPaid, rfl⟩
  · omega
  · omega

/-! ### The end of a relay call -/

/-- How the inner call ends: whether it returns, with which outcome, and in which state. -/
structure InnerEnd where
  success : Bool
  status : RelayCallStatus
  ret : Bytes
  base : Gsn

/-- What an answer of the paymaster or the forwarder makes the inner call end with; `none` if it goes
on, or reverts without an outcome. -/
def innerEnd (r : Relaying) (stage : Stage) (l : Label GsnCall Bytes) (s : Gsn) : Option InnerEnd :=
  match stage, l with
  | .preRelayedCall, .revert data => some ⟨false, .RejectedByPreRelayed, truncate data, r.before⟩
  | .execute _, .revert data => some ⟨false, .RejectedByForwarder, truncate data, r.before⟩
  | .postRelayedCall _ _, .revert data => some ⟨false, .PostRelayedFailed, data, r.before⟩
  | .execute true, .ret data =>
    match decodeExecuted data with
    | some (false, ret) => some ⟨false, .RejectedByRecipientRevert, truncate ret, r.before⟩
    | _ => none
  | .postRelayedCall relayedCallSuccess ret, .ret _ =>
    if s.hub.balances r.paymaster < r.before.hub.balances r.paymaster then
      some ⟨false, .PaymasterBalanceChanged, [], r.before⟩
    else some ⟨true, if relayedCallSuccess then .OK else .RelayedCallFailed, ret, s⟩
  | _, _ => none

/-- The gas the inner call has used, as the hub measures it. -/
def innerGasUsed (r : Relaying) : Nat := r.call.gas.beforeInner - r.call.gas.afterInner

/-- Whether the paymaster does not have to pay: it refused the request, or the request failed before the
acceptance budget was used up. -/
def excused (r : Relaying) (e : InnerEnd) : Bool :=
  !e.success && (e.status = .RejectedByPreRelayed ||
    (r.innerGasUsed ≤ r.limits.acceptanceBudget + r.relayData.transactionCalldataGasUsed &&
      (e.status = .RejectedByForwarder || e.status = .RejectedByRecipientRevert)))

/-- The hub with the event that tells what the inner call returned, if anything. -/
def resulted (e : InnerEnd) (h : RelayHub) : RelayHub :=
  if 0 < e.ret.length then h.emit (.transactionResult e.status e.ret) else h

/-- The hub after the relay call. -/
def outcome (r : Relaying) (e : InnerEnd) : RelayHub :=
  if r.excused e then
    (resulted e e.base.hub).emit (.transactionRejectedByPaymaster r.relayManager r.paymaster
      r.request.src r.request.dst r.sender r.innerGasUsed e.ret)
  else r.paid e.status (resulted e e.base.hub)

variable {e : InnerEnd} {l : Label GsnCall Bytes} {success : Bool}

theorem isRejected_eq (hbudget : r.limits.acceptanceBudget +
    r.relayData.transactionCalldataGasUsed < UINT256_SIZE) :
    r.isRejected e.success e.status r.innerGasUsed = .ok (r.excused e) := by
  unfold isRejected excused
  cases e.success with
  | true => rfl
  | false =>
    by_cases hpre : e.status = .RejectedByPreRelayed
    · simp [hpre]
      rfl
    · simp only [hpre, if_false, bind_eq_ok, checkedAdd_eq_ok, pure_eq_ok, Bool.false_eq_true]
      exact ⟨_, ⟨hbudget, rfl⟩, by simp⟩

/-- A relay call whose inner call has told its outcome goes through. -/
theorem finish_succeeds (hdata : decodeStatus data = some (e.status, e.ret))
    (hinner : r.call.gas.afterInner ≤ r.call.gas.beforeInner)
    (hbudget : r.limits.acceptanceBudget + r.relayData.transactionCalldataGasUsed < UINT256_SIZE)
    (hsettle : ∀ h : RelayHub, h.balances = e.base.hub.balances → h.config = e.base.hub.config →
      r.settle e.status h = .ok (r.paid e.status h)) :
    r.finish e.success data e.base = .ok { e.base with hub := r.outcome e } := by
  have hclose : r.close (r.excused e) e.status r.innerGasUsed e.ret (resulted e e.base.hub) =
      .ok (r.outcome e) := by
    unfold close outcome
    cases r.excused e with
    | true => rfl
    | false =>
      have hsame : (resulted e e.base.hub).balances = e.base.hub.balances ∧
          (resulted e e.base.hub).config = e.base.hub.config := by
        unfold resulted
        split_ifs <;> exact ⟨rfl, rfl⟩
      exact hsettle _ hsame.1 hsame.2
  simp only [finish, bind_eq_ok, checkedSub_eq_ok, orThrow_eq_ok, pure_eq_ok]
  exact ⟨_, ⟨hinner, rfl⟩, _, hdata, _, isRejected_eq hbudget, _, hclose, rfl⟩

theorem finish_fails (r : Relaying) (success : Bool) (s : Gsn) (hdata : decodeStatus data = none) :
    ∃ error, r.finish success data s = .error error := by
  unfold finish
  cases checkedSub r.call.gas.beforeInner r.call.gas.afterInner with
  | error error => exact ⟨error, rfl⟩
  | ok used =>
    rw [ok_bind, hdata]
    exact ⟨.empty, rfl⟩

/-- A request that the paymaster refused costs nobody anything. -/
theorem balances_failed_preRelayedCall {o : Option Rest}
    (hfailed : r.failed .preRelayedCall data = .ok (s', o)) :
    o = none ∧ s'.hub.balances = r.before.hub.balances := by
  have hshort : (truncate data).length < 2 ^ 64 :=
    length_truncate.trans_lt (by decide : MAX_RETURN_SIZE < 2 ^ 64)
  simp only [failed, reverted, finish, bind_eq_ok, orThrow_eq_ok, pure_eq_ok, Prod.mk.injEq,
    decodeStatus_revertWithStatus hshort] at hfailed
  obtain ⟨_, ⟨_, _, ⟨status, value⟩, hdata, rejected, hrejected, hub, hclose, rfl⟩, rfl, rfl⟩ := hfailed
  split_ifs at hdata
  cases hdata
  obtain rfl : true = rejected := pure_eq_ok.mp hrejected
  obtain rfl := pure_eq_ok.mp hclose
  refine ⟨rfl, ?_⟩
  dsimp only [RelayHub.emit]
  split_ifs <;> rfl

/-- The bytes the inner call ends with. -/
def InnerEnd.bytes (e : InnerEnd) : Bytes :=
  if e.success then encodeStatus e.status e.ret else revertWithStatus e.status e.ret

theorem InnerEnd.decode_bytes (hret : e.ret.length < 2 ^ 64) :
    decodeStatus e.bytes =
      if e.success = true ∨ e.ret.length ≤ REASON_SIZE then some (e.status, e.ret) else none := by
  unfold InnerEnd.bytes
  cases e.success with
  | true => simp [decodeStatus_encodeStatus hret]
  | false => simp [decodeStatus_revertWithStatus hret]

/-- The state the inner call ends in, and the length of what it returns. -/
theorem innerEnd_spec (hend : r.innerEnd stage l s = some e)
    (hcut : stage.Truncated) (hlong : ∀ data, l = .revert data → data.length < 2 ^ 64) :
    (e.base = r.before ∨ e.base = s ∧ r.before.hub.balances r.paymaster ≤
      s.hub.balances r.paymaster) ∧ e.ret.length < 2 ^ 64 := by
  have hsize : MAX_RETURN_SIZE < 2 ^ 64 := by decide
  have hshort : ∀ data : Bytes, (truncate data).length < 2 ^ 64 := fun data =>
    length_truncate.trans_lt hsize
  unfold innerEnd at hend
  split at hend
  · cases hend
    exact ⟨.inl rfl, hshort _⟩
  · cases hend
    exact ⟨.inl rfl, hshort _⟩
  · cases hend
    exact ⟨.inl rfl, hlong _ rfl⟩
  · split at hend
    · cases hend
      exact ⟨.inl rfl, hshort _⟩
    · cases hend
  · split at hend
    · cases hend
      exact ⟨.inl rfl, Nat.two_pow_pos 64⟩
    · rename_i hlost
      cases hend
      exact ⟨.inr ⟨rfl, Nat.le_of_not_lt hlost⟩, hcut.trans_lt hsize⟩
  · cases hend

theorem step_of_innerEnd {saved mark : Gsn} (hend : r.innerEnd stage l s = some e) :
    (Gsn.machine d).step l ⟨s, ⟨saved, mark, .relaying r stage⟩ :: frames⟩ =
      some (proceed saved frames (do
        let s ← r.finish e.success e.bytes e.base
        pure (s, none))) := by
  unfold innerEnd at hend
  split at hend
  · cases hend
    simp only [Machine.step, Gsn.machine, Gsn.fail, failed, reverted, InnerEnd.bytes,
      Bool.false_eq_true, if_false]
  · cases hend
    simp only [Machine.step, Gsn.machine, Gsn.fail, failed, reverted, InnerEnd.bytes,
      Bool.false_eq_true, if_false]
  · cases hend
    simp only [Machine.step, Gsn.machine, Gsn.fail, failed, reverted, InnerEnd.bytes,
      Bool.false_eq_true, if_false]
  · split at hend
    · rename_i hdecode
      cases hend
      simp only [Machine.step, Gsn.machine, Gsn.resume, returned, hdecode, orThrow, ok_bind,
        Bool.not_false, Bool.and_self, reverted, InnerEnd.bytes, Bool.false_eq_true, if_false, if_true]
    · cases hend
  · split at hend
    · rename_i hlost
      cases hend
      simp only [Machine.step, Gsn.machine, Gsn.resume, returned, hlost, if_true, reverted,
        InnerEnd.bytes, Bool.false_eq_true, if_false]
    · rename_i hlost
      cases hend
      simp only [Machine.step, Gsn.machine, Gsn.resume, returned, hlost, if_false, InnerEnd.bytes,
        if_true]
  · cases hend

end Relaying

theorem limits_eq_ok {limits : GasAndDataLimits} {call : RelayCall}
    (hlimits : s.verifyGasAndDataLimits call = .ok limits) : ∃ maxPossibleCharge,
    call.relayRequest.relayData.transactionCalldataGasUsed + call.gas.initial < UINT256_SIZE ∧
    s.hub.calculateCharge call.gasprice call.basefee
      (call.relayRequest.relayData.transactionCalldataGasUsed + call.gas.initial)
      call.relayRequest.relayData = .ok maxPossibleCharge ∧
    maxPossibleCharge ≤ s.hub.balances call.relayRequest.relayData.paymaster := by
  simp only [Gsn.verifyGasAndDataLimits, bind_eq_ok, require_eq_ok, checkedAdd_eq_ok,
    pure_eq_ok] at hlimits
  obtain ⟨_, _, _, _, _, _, _, _, _, ⟨hfits, rfl⟩, n, hcharge, _, hfunds, _⟩ := hlimits
  exact ⟨n, hfits, hcharge, hfunds⟩

/-- Whenever the inner part of a relay call comes to an end, in any run and with any calls around it,
the relay call goes through: the paymaster is excused, or pays the charge that the hub computes, which
it had when the request was checked. It goes through unless the failure comes with more than 928 bytes:
then nothing remains of the relay call, and nobody pays. -/
theorem relay_call_ends {saved mark : Gsn} {e : Relaying.InnerEnd} {l : Label GsnCall Bytes}
    (hrun : Gsn.Run d c) (hframes : c.frames = ⟨saved, mark, .relaying r stage⟩ :: frames)
    (hl : Gsn.Allowed d c l) (hend : r.innerEnd stage l c.state = some e)
    (hconfig : e.base.hub.config = r.before.hub.config)
    (hgas : r.call.gas.Sane r.before.hub.config.gasOverhead)
    (hbudget : r.limits.acceptanceBudget + r.relayData.transactionCalldataGasUsed < UINT256_SIZE) :
    (Gsn.machine d).step l c = some (if e.success = true ∨ e.ret.length ≤ REASON_SIZE then
        ⟨{ e.base with hub := r.outcome e }, frames⟩ else ⟨saved, frames⟩) ∧
      r.charge r.before.hub.config ≤ r.before.hub.balances r.paymaster := by
  obtain ⟨hstate, hholds⟩ := funded_rule.run (fun _ => funded_initial) hrun
  rw [hframes] at hholds
  cases hholds with
  | cons _ _ hopened _ =>
    obtain ⟨hbefore, hchecked, hcut⟩ := hopened
    obtain ⟨maxPossibleCharge, hfits, hcharge, hfunds⟩ := limits_eq_ok hchecked.limits
    obtain ⟨hbase, hret⟩ := r.innerEnd_spec hend hcut fun data hdata => by
      subst hdata
      exact hl
    -- the paymaster has what was checked, in whichever state the inner call ends
    have hready : Funded d e.base ∧ maxPossibleCharge ≤ e.base.hub.balances r.paymaster := by
      rcases hbase with heq | ⟨heq, hkept⟩ <;> rw [heq]
      · exact ⟨hbefore, hfunds⟩
      · exact ⟨hstate, hfunds.trans hkept⟩
    obtain ⟨hfunded, hhas⟩ := hready
    have hsum := hfunded.covered.trans_lt (Ledger.le_sum.trans_lt hfunded.bounded)
    have hsettle : ∀ h : RelayHub, h.balances = e.base.hub.balances → h.config = e.base.hub.config →
        r.settle e.status h = .ok (r.paid e.status h) ∧ r.charge h.config ≤ maxPossibleCharge := by
      intro h hbalances hsame
      rw [hconfig] at hsame
      have hcharge' : h.calculateCharge r.call.gasprice r.call.basefee
          (r.relayData.transactionCalldataGasUsed + r.call.gas.initial) r.relayData =
            .ok maxPossibleCharge := by
        rw [← hcharge]
        unfold RelayHub.calculateCharge
        rw [hsame]
        rfl
      refine Relaying.settle_succeeds (by rw [hsame]; exact hgas) hfits hcharge' ?_ ?_ ?_
      · rw [hbalances]
        exact hhas
      · rw [hbalances]
        exact hsum
      · rw [hsame, ← hconfig]
        exact hfunded.fee
    refine ⟨?_, ?_⟩
    · obtain ⟨state, _⟩ := c
      cases hframes
      rw [Relaying.step_of_innerEnd hend]
      have hdecode := Relaying.InnerEnd.decode_bytes hret
      by_cases hfit : e.success = true ∨ e.ret.length ≤ REASON_SIZE
      · rw [if_pos hfit] at hdecode ⊢
        rw [Relaying.finish_succeeds hdecode hgas.inner hbudget fun h hb hc => (hsettle h hb hc).1]
        rfl
      · rw [if_neg hfit] at hdecode ⊢
        obtain ⟨error, hfails⟩ := r.finish_fails e.success e.base hdecode
        rw [hfails]
        rfl
    · have hle := (hsettle e.base.hub rfl rfl).2
      rw [hconfig] at hle
      exact hle.trans hfunds

set_option maxRecDepth 4000 in
theorem relay_call_ends_relaying :
    (Gsn.machine sample).step (.ret []) (after relaying) = some ⟨{ (after relaying).state with
      hub := relayed.outcome ⟨true, .OK, [], (after relaying).state⟩ }, []⟩ ∧
    relayed.charge relayed.before.hub.config = 122 ∧
    [200, 20, 2].map (relayed.outcome ⟨true, .OK, [], (after relaying).state⟩).balances =
      [378, 110, 12] := by
  have hend : relayed.innerEnd (.postRelayedCall true []) (.ret []) (after relaying).state =
      some ⟨true, .OK, [], (after relaying).state⟩ := rfl
  have hends := relay_call_ends (run_after relaying) rfl (by decide) hend rfl
    ⟨by decide, by decide, by decide⟩ (by decide)
  exact ⟨hends.1, by decide, by decide⟩

end Redeemy
