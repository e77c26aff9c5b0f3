import Redeemy.Proof.Change

/-!
# What is recorded

A call to a token contract records nothing by itself. A deposit, a withdrawal and a callback record
movements of their own pool, with their own cause.
-/

namespace Redeemy

open Fallible EnumerableSet

variable {F : Type → Type} [EnumerableSet F]
variable {w w' : World F} {pool : AssetPoolV1 F} {rp : RewardPoolV1 F} {t t₁ t' : Tokens}
variable {c p self admin sender receiver src dst operator trailing k : Address} {assets : Assets}
variable {n id value requestId : Nat} {requestIds words : List Nat}

namespace Tokens

/-! ### Calls to token contracts -/

variable {pools : Address → Option (RewardPoolV1 F)}

/-- Nothing is recorded, and no native tokens move. -/
structure Silent (t t' : Tokens) : Prop where
  log : t'.log = t.log
  native : t'.native = t.native

theorem silent_erc20Call {f : ERC20 → Result ERC20} {answer : ERC20Answer}
    (h : t.erc20Call c f = .ok (t', answer)) : Silent t t' := by
  obtain ⟨_, _, _, _, rfl, _⟩ := erc20Call_eq_ok h
  exact ⟨rfl, rfl⟩

theorem silent_erc721TransferFrom (h : t.erc721TransferFrom c operator src dst id = .ok t') :
    Silent t t' := by
  obtain ⟨_, _, _, _, rfl⟩ := erc721TransferFrom_eq_ok h
  exact ⟨rfl, rfl⟩

theorem log_send {error : Revert} (h : t.send src dst n error = .ok t') : t'.log = t.log := by
  obtain ⟨_, rfl⟩ := send_eq_ok h
  rfl

theorem silent_mintRedeemTokens (h : mintRedeemTokens pools self rp pool t n = .ok t') :
    Silent t t' := by
  rcases mintRedeemTokens_cases h with ⟨_, rfl⟩ | ⟨_, hmint⟩ | ⟨_, hmint⟩
  · exact ⟨rfl, rfl⟩
  · obtain ⟨_, _, _, _, _, _, _, rfl⟩ := erc20Mint_eq_ok hmint
    exact ⟨rfl, rfl⟩
  · obtain ⟨_, _, _, rfl⟩ := erc1155Mint_eq_ok hmint
    exact ⟨rfl, rfl⟩

theorem silent_takePayment {sink : Option Address}
    (h : w.takePayment self rp pool receiver n = .ok (t', sink)) : Silent w.tokens t' := by
  rcases takePayment_cases h with ⟨_, _, _, _, hcall⟩ | ⟨_, _, hburn⟩ | ⟨_, _, hburn⟩
  · exact silent_erc20Call hcall
  · obtain ⟨_, _, _, _, _, _, _, rfl⟩ := erc20Burn_eq_ok hburn
    exact ⟨rfl, rfl⟩
  · obtain ⟨_, _, _, _, rfl⟩ := erc1155Burn_eq_ok hburn
    exact ⟨rfl, rfl⟩

omit [EnumerableSet F] in
theorem silent_transferRedeemToken {system : Address → Bool}
    (h : transferRedeemToken pools self system rp pool t dst n = .ok t') : Silent t t' := by
  rcases transferRedeemToken_cases h with ⟨_, _, hcall⟩ | ⟨_, hcall⟩
  · exact silent_erc20Call hcall
  · obtain ⟨_, _, _, rfl⟩ := erc1155SafeTransferFrom_eq_ok hcall
    exact ⟨rfl, rfl⟩

/-! ### Records -/

/-- Only movements that satisfy `Q` are recorded. -/
def Logs (Q : Movement → Prop) (t t' : Tokens) : Prop :=
  ∃ l, t'.log = l ++ t.log ∧ ∀ m ∈ l, Q m

variable {Q R : Movement → Prop}

theorem logs_of_eq (h : t'.log = t.log) : Logs Q t t' := ⟨[], by simpa using h, by simp⟩

theorem Logs.trans (h : Logs Q t t₁) (h' : Logs Q t₁ t') : Logs Q t t' := by
  obtain ⟨l, hl, hQ⟩ := h
  obtain ⟨l', hl', hQ'⟩ := h'
  refine ⟨l' ++ l, by rw [hl', hl, List.append_assoc], fun m hm => ?_⟩
  exact (List.mem_append.mp hm).elim (hQ' m) (hQ m)

theorem Logs.mono (hQR : ∀ m, Q m → R m) (h : Logs Q t t') : Logs R t t' := by
  obtain ⟨l, hl, hQ⟩ := h
  exact ⟨l, hl, fun m hm => hQR m (hQ m hm)⟩

theorem logs_record {m : Movement} (hlog : t'.log = t.log) (hm : Q m) :
    Logs Q t (t'.record m) :=
  ⟨[m], by simp [record, hlog], by simpa using hm⟩

theorem logs_recordIf {moves : Bool} {m : Movement} (hlog : t'.log = t.log) (hm : Q m) :
    Logs Q t (t'.recordIf moves m) := by
  unfold recordIf
  split
  · exact logs_record hlog hm
  · exact logs_of_eq hlog

end Tokens

/-- A movement of the pool at `p`, made by one kind of call. -/
def Movement.By (p : Address) (cause : Cause) (m : Movement) : Prop := m.pool = p ∧ m.cause = cause

theorem DepositStep.logs {s s' : AssetPoolV1 F × Tokens}
    (h : DepositStep self admin assets s s') :
    Tokens.Logs (fun m => m.By self .deposit ∧ m.party = admin) s.2 s'.2 := by
  cases h with
  | erc20 c boxes _ hpull =>
    exact Tokens.logs_recordIf (Tokens.silent_erc20Call hpull).log ⟨⟨rfl, rfl⟩, rfl⟩
  | erc721Contract => exact Tokens.logs_of_eq rfl
  | erc721Token c tokenId _ hpull =>
    exact Tokens.logs_record (Tokens.silent_erc721TransferFrom hpull).log ⟨⟨rfl, rfl⟩, rfl⟩

theorem DepositSteps.logs {s s' : AssetPoolV1 F × Tokens}
    (h : DepositSteps self admin assets s s') :
    Tokens.Logs (fun m => m.By self .deposit ∧ m.party = admin) s.2 s'.2 := by
  induction h with
  | refl => exact Tokens.logs_of_eq rfl
  | tail _ hstep ih => exact ih.trans hstep.logs

omit [EnumerableSet F] in
theorem WithdrawStep.logs {accepts : Address → Bool} {s s' : AssetPoolV1 F × Tokens}
    (h : WithdrawStep accepts self assets s s') :
    Tokens.Logs (Movement.By self .withdraw) s.2 s'.2 := by
  cases h with
  | erc20 _ _ _ _ _ _ _ hpay =>
    exact Tokens.logs_recordIf (Tokens.silent_erc20Call hpay).log ⟨rfl, rfl⟩
  | erc721 _ _ _ _ _ _ _ hpay =>
    exact Tokens.logs_record (Tokens.silent_erc721TransferFrom hpay).log ⟨rfl, rfl⟩
  | native _ _ _ _ _ hpay => exact Tokens.logs_record (Tokens.log_send hpay) ⟨rfl, rfl⟩

omit [EnumerableSet F] in
theorem WithdrawSteps.logs {accepts : Address → Bool} {s s' : AssetPoolV1 F × Tokens}
    (h : WithdrawSteps accepts self assets s s') :
    Tokens.Logs (Movement.By self .withdraw) s.2 s'.2 := by
  induction h with
  | refl => exact Tokens.logs_of_eq rfl
  | tail _ hstep ih => exact ih.trans hstep.logs

theorem Deposit.logs (h : Deposit w self sender value assets w') :
    Tokens.Logs (fun m => m.By self .deposit ∧ m.party = sender) w.tokens w'.tokens := by
  cases h with
  | mk _ _ _ hsend _ _ _ _ h20 _ hself h721 _ _ hmint =>
    have hin := (Tokens.logs_of_eq (Tokens.log_send hsend)).trans h20.logs
    have hnative := Tokens.logs_record (m := ⟨.deposit, self, .NativeToken, self, sender, value⟩)
      (Q := fun m => m.By self .deposit ∧ m.party = sender) (Tokens.log_send hself) ⟨⟨rfl, rfl⟩, rfl⟩
    exact (hin.trans (hnative.trans h721.logs)).trans
      (Tokens.logs_of_eq (Tokens.silent_mintRedeemTokens hmint).log)

theorem Withdraw.logs (h : Withdraw w self sender assets w') :
    Tokens.Logs (Movement.By self .withdraw) w.tokens w'.tokens := by
  cases h with
  | mk _ _ _ hsteps _ _ _ hmint =>
    exact hsteps.logs.trans (Tokens.logs_of_eq (Tokens.silent_mintRedeemTokens hmint).log)

theorem Redeem.log_eq (h : Redeem w self sender trailing n requestIds w') :
    w'.tokens.log = w.tokens.log := by
  cases h with
  | mk _ _ _ _ _ _ hpay _ hrequests =>
    obtain ⟨_, _, _, rfl⟩ := hrequests.frame
    exact (Tokens.silent_takePayment hpay).log

omit [EnumerableSet F] in
/-- A payment records itself, or nothing if the token contract did not move the tokens. -/
theorem payCard_log {card : Card} (h : w.payCard self receiver requestId card = .ok t') :
    t'.log = w.tokens.log ∨ t'.log = ⟨.fulfill requestId, self, card.assetType,
      card.contractAddress, receiver, card.box.amountOrTokenId⟩ :: w.tokens.log := by
  obtain ⟨tokens₁, moves, rfl, hcase⟩ := payCard_cases h
  have hlog : tokens₁.log = w.tokens.log := by
    split at hcase
    · obtain ⟨_, hcall, _⟩ := hcase
      exact (Tokens.silent_erc20Call hcall).log
    · exact Tokens.log_send hcase.2.2
    · exact (Tokens.silent_erc721TransferFrom hcase.2.2).log
  cases moves with
  | true => exact .inr (congrArg _ hlog)
  | false => exact .inl hlog

omit [EnumerableSet F] in
theorem logs_payCard {card : Card} (h : w.payCard self receiver requestId card = .ok t') :
    Tokens.Logs (fun m => m.By self (.fulfill requestId) ∧ m.party = receiver) w.tokens t' := by
  rcases payCard_log h with hlog | hlog
  · exact Tokens.logs_of_eq hlog
  · exact ⟨[_], hlog, by simp [Movement.By]⟩

end Redeemy
