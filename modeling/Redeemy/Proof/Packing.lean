import Redeemy.Lib.AbiTuple
import Redeemy.Model.RelayHub

/-!
# How relay calls are packed

A relay worker pays for the data of its relay call and is paid back for them, so the hub refuses a call
with more data than its arguments take. Data that follow the encoding of the arguments would not change
what the hub reads.
-/

namespace Redeemy

open Fallible Handover

/-- The arguments of `execute`. -/
def FullForwardRequest.tuple (req : FullForwardRequest) : Abi.Tuple :=
  .word req.src.val <| .word req.dst.val <| .word req.value <| .word req.gas <| .word req.nonce <|
    .bytes req.data <| .word req.validUntilTime .nil

def RelayData.tuple (x : RelayData) : Abi.Tuple :=
  .word x.maxFeePerGas <| .word x.maxPriorityFeePerGas <| .word x.transactionCalldataGasUsed <|
    .word x.relayWorker.val <| .word x.paymaster.val <| .word x.forwarder.val <|
      .bytes x.paymasterData <| .word x.clientId .nil

/-- The arguments of `relayCall`. -/
def RelayCall.arguments (c : RelayCall) : Abi.Tuple :=
  .bytes c.domainSeparatorName <| .word c.maxAcceptanceBudget <|
    .tuple (.tuple c.relayRequest.request.tuple <| .tuple c.relayRequest.relayData.tuple .nil) <|
      .bytes c.signature <| .bytes c.approvalData .nil

/-- `abi.encodeCall(IRelayHub.relayCall, ..)` -/
def RelayCall.encoded (c : RelayCall) : Bytes := RELAY_CALL_SELECTOR ++ c.arguments.encode

/-- What `relayCall` takes. -/
def RELAY_CALL_SHAPE : Abi.Shape :=
  .bytes <| .word <|
    .tuple (.tuple (.word <| .word <| .word <| .word <| .word <| .bytes <| .word .nil) <|
      .tuple (.word <| .word <| .word <| .word <| .word <| .word <| .bytes <| .word .nil) .nil) <|
        .bytes <| .bytes .nil

/-- What the hub reads of the data of a call. -/
def decodeRelayCall (data : Bytes) : Option Abi.Tuple := RELAY_CALL_SHAPE.decode (data.drop 4)

variable {c : RelayCall} {extra : Bytes}

theorem shape_arguments : c.arguments.shape = RELAY_CALL_SHAPE := rfl

theorem length_encoded : c.encoded.length = 4 + 22 * 32 +
    Gsn.dynamicParamSize c.domainSeparatorName + Gsn.dynamicParamSize c.signature +
    Gsn.dynamicParamSize c.approvalData + Gsn.dynamicParamSize c.relayRequest.request.data +
    Gsn.dynamicParamSize c.relayRequest.relayData.paymasterData := by
  rw [RelayCall.encoded, List.length_append, Abi.Tuple.length_encode]
  simp only [RelayCall.arguments, FullForwardRequest.tuple, RelayData.tuple, Abi.Tuple.shape,
    Abi.Shape.headSize, Abi.Shape.isDynamic, Abi.Tuple.tailSize, Bool.true_or, if_true,
    Gsn.dynamicParamSize, RELAY_CALL_SELECTOR, List.length_cons, List.length_nil]
  omega

/-- The check of the hub compares the length of the data with that of the encoding. -/
theorem verifyTransactionPacking_eq_ok :
    Gsn.verifyTransactionPacking c = .ok () ↔ c.dataLength = c.encoded.length := by
  rw [length_encoded, Gsn.verifyTransactionPacking, require_eq_ok]
  exact ⟨Eq.symm, Eq.symm⟩

/-- Data after the encoding of a relay call do not change what is read, but the hub refuses them. -/
theorem extra_data_is_refused (hfits : c.arguments.Fits) (hsize : c.encoded.length < 2 ^ 64)
    (hdata : c.dataLength = (c.encoded ++ extra).length) :
    decodeRelayCall (c.encoded ++ extra) = some c.arguments ∧
    (Gsn.verifyTransactionPacking c = .ok () ↔ extra = []) ∧
    ∀ d s sender o, Gsn.relayCall d s sender c = .ok o → extra = [] := by
  have hselector : RELAY_CALL_SELECTOR.length = 4 := rfl
  have hpacked : Gsn.verifyTransactionPacking c = .ok () ↔ extra = [] := by
    rw [verifyTransactionPacking_eq_ok, hdata, List.length_append, ← List.length_eq_zero_iff]
    omega
  refine ⟨?_, hpacked, ?_⟩
  · have hdrop : (c.encoded ++ extra).drop 4 = c.arguments.encode ++ extra := by
      rw [RelayCall.encoded, List.append_assoc]
      exact List.drop_left' hselector
    have hlength : c.arguments.encode.length < 2 ^ 64 := by
      rw [RelayCall.encoded, List.length_append] at hsize
      exact (Nat.le_add_left _ _).trans_lt hsize
    rw [decodeRelayCall, hdrop, ← shape_arguments]
    exact Abi.Tuple.decode_encode hfits hlength
  · intro d s sender o hcall
    simp only [Gsn.relayCall, bind_eq_ok] at hcall
    obtain ⟨_, _, _, _, _, _, _, _, _, hpacking, _⟩ := hcall
    exact hpacked.mp hpacking

/-- The call of `relay` with three bytes too many. -/
def suffixed : RelayCall := { Gsn.relay with dataLength := 903 }

theorem extra_data_is_refused_suffixed :
    decodeRelayCall (suffixed.encoded ++ [0x12, 0x34, 0x56]) = some suffixed.arguments ∧
      Gsn.verifyTransactionPacking suffixed ≠ .ok () := by
  have hfits : suffixed.arguments.Fits := by
    simp only [RelayCall.arguments, FullForwardRequest.tuple, RelayData.tuple, Abi.Tuple.Fits]
    decide
  have hsize : suffixed.encoded.length < 2 ^ 64 := by
    rw [length_encoded]
    decide
  have hdata : suffixed.dataLength = (suffixed.encoded ++ [0x12, 0x34, 0x56]).length := by
    rw [List.length_append, length_encoded]
    rfl
  obtain ⟨hread, hpacked, _⟩ := extra_data_is_refused hfits hsize hdata
  exact ⟨hread, fun hok => List.cons_ne_nil _ _ (hpacked.mp hok)⟩

end Redeemy
