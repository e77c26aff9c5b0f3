import Redeemy.Model.Penalizer
import Redeemy.Proof.Digest
import Redeemy.Proof.RLPReader

/-!
# The verdicts of the penalizer

A transaction is decoded to what was encoded, for every type of transaction and whatever stands in
memory around it (`decodeTransaction_rawTransaction`). So the penalizer convicts exactly the signers of
two transactions with one nonce that differ in more than their fees, and of transactions that are not
relay calls.
-/

namespace Redeemy

open Fallible Rlp

/-! ### Transactions and their encoding -/

/-- What the penalizer does not look at. The items after a legacy transaction tell its chain. -/
inductive Envelope where
  | legacy (gasPrice : Nat) (chain : List Item)
  | type1 (chainId gasPrice : Nat) (accessList : Item)
  | type2 (chainId maxPriorityFeePerGas maxFeePerGas : Nat) (accessList : Item)

/-- A transaction before it is signed; one that creates a contract has no destination. -/
structure UnsignedTransaction where
  envelope : Envelope
  nonce : Nat
  gasLimit : Nat
  dst : Option Address
  value : Nat
  data : Bytes

namespace UnsignedTransaction

variable (tx : UnsignedTransaction)

def dstItem : Item := .bytes (tx.dst.elim [] packedAddress)

def items : List Item :=
  match tx.envelope with
  | .legacy gasPrice chain => [.number tx.nonce, .number gasPrice, .number tx.gasLimit, tx.dstItem,
      .number tx.value, .bytes tx.data] ++ chain
  | .type1 chainId gasPrice accessList => [.number chainId, .number tx.nonce, .number gasPrice,
      .number tx.gasLimit, tx.dstItem, .number tx.value, .bytes tx.data, accessList]
  | .type2 chainId maxPriorityFeePerGas maxFeePerGas accessList => [.number chainId,
      .number tx.nonce, .number maxPriorityFeePerGas, .number maxFeePerGas, .number tx.gasLimit,
      tx.dstItem, .number tx.value, .bytes tx.data, accessList]

/-- The type, which a legacy transaction does not have. -/
def typeBytes : Bytes :=
  match tx.envelope with
  | .legacy .. => []
  | .type1 .. => [1]
  | .type2 .. => [2]

/-- The bytes whose hash is signed. -/
def rawTransaction : Bytes := tx.typeBytes ++ (Item.list tx.items).encode

/-- What the penalizer looks at. -/
def seen : Transaction := ⟨tx.nonce, tx.gasLimit, tx.dst.getD 0, tx.value, tx.data⟩

/-- The numbers fit, and so does the whole. -/
structure WellFormed : Prop where
  nonce : tx.nonce < UINT256_SIZE
  gasLimit : tx.gasLimit < UINT256_SIZE
  value : tx.value < UINT256_SIZE
  length : tx.rawTransaction.length < 2 ^ 56

instance : Decidable tx.WellFormed :=
  decidable_of_iff (tx.nonce < UINT256_SIZE ∧ tx.gasLimit < UINT256_SIZE ∧ tx.value < UINT256_SIZE ∧
    tx.rawTransaction.length < 2 ^ 56)
    ⟨fun ⟨h₁, h₂, h₃, h₄⟩ => ⟨h₁, h₂, h₃, h₄⟩, fun h => ⟨h.nonce, h.gasLimit, h.value, h.length⟩⟩

end UnsignedTransaction

/-- The transaction of `signedRelay`. -/
def relayTransaction : UnsignedTransaction where
  envelope := .type2 1 1 50 (.list [])
  nonce := 7
  gasLimit := 500000
  dst := some 100
  value := 0
  data := RELAY_CALL_SELECTOR ++ word 1

/-- The transactions of `signedPayment` and `signedPayment2`. -/
def paymentTransaction (value : Nat) : UnsignedTransaction where
  envelope := .legacy 50 [.number 1, .bytes [], .bytes []]
  nonce := 8
  gasLimit := 21000
  dst := some 80
  value := value
  data := []

variable {tx tx1 tx2 : UnsignedTransaction} {m memory : Memory} {p q memPtr n : Nat} {item : Item}
variable {items : List Item} {b : Bytes}

/-! ### Reading it back -/

namespace RLPReader

/-- An item of a list that was read. -/
def Reads (m : Memory) (values : List RLPItem) (i : Nat) (item : Item) : Prop :=
  ∃ q, index values i = .ok ⟨item.encode.length, q⟩ ∧ m.Has q item.encode

theorem reads_layout (h : m.Has p (encodeAll items)) {i : Nat} (hi : items[i]? = some item) :
    Reads m (layout p items) i item := by
  obtain ⟨q, hget, hstands⟩ := layout_get h hi
  exact ⟨q, orThrow_eq_ok.mpr hget, hstands⟩

variable {values : List RLPItem} {i : Nat}

theorem Reads.toUint (hn : n < UINT256_SIZE) (h : Reads m values i (.number n)) :
    (index values i >>= toUint m) = .ok n := by
  obtain ⟨q, hindex, hstands⟩ := h
  rw [Item.number, Item.encode_bytes] at hindex hstands
  rw [hindex, ok_bind, toUint_encodeBytes (length_digits_le.mpr hn) hstands, value_digits]

theorem Reads.toBytes (hb : b.length < 2 ^ 64) (h : Reads m values i (.bytes b)) :
    (index values i >>= toBytes m) = .ok b := by
  obtain ⟨q, hindex, hstands⟩ := h
  rw [Item.encode_bytes] at hindex hstands
  rw [hindex, ok_bind, toBytes_encodeBytes hb hstands]

theorem value_packedAddress (a : Address) : BigEndian.value (packedAddress a) = a.val := by
  rw [packedAddress, BigEndian.value_encode]
  exact Nat.mod_eq_of_lt a.isLt

theorem Reads.toAddress (h : Reads m values i tx.dstItem) :
    (index values i >>= toAddress m) = .ok (tx.dst.getD 0) := by
  obtain ⟨q, hindex, hstands⟩ := h
  rw [UnsignedTransaction.dstItem, Item.encode_bytes] at hindex hstands
  rw [hindex, ok_bind]
  cases hdst : tx.dst with
  | none =>
    rw [hdst] at hstands
    exact toAddress_encodeBytes (Nat.zero_le _) hstands
  | some a =>
    rw [hdst] at hstands
    have hshort : (packedAddress a).length ≤ 20 := by simp [packedAddress]
    have hself : Fin.ofNat (2 ^ 160) (BigEndian.value (packedAddress a)) = a := by
      rw [value_packedAddress]
      exact Fin.ext (Nat.mod_eq_of_lt a.isLt)
    have hread := toAddress_encodeBytes hshort hstands
    rw [hself] at hread
    exact hread

/-- The places of the fields are those where the encoding has them. -/
theorem decodeAt_encode (nonce gasLimit dst value data : Nat) (hwell : tx.WellFormed)
    (hlength : (Item.list items).encode.length < 2 ^ 64) (h : m.Has p (Item.list items).encode)
    (hdata : tx.data.length < 2 ^ 64) (hnonce : items[nonce]? = some (.number tx.nonce))
    (hgasLimit : items[gasLimit]? = some (.number tx.gasLimit))
    (hdst : items[dst]? = some tx.dstItem) (hvalue : items[value]? = some (.number tx.value))
    (hbytes : items[data]? = some (.bytes tx.data)) :
    decodeAt m p (Item.list items).encode.length nonce gasLimit dst value data = .ok tx.seen := by
  obtain ⟨q, htoList, hitems⟩ := toList_encode hlength h
  rw [decodeAt, htoList, ok_bind, (reads_layout hitems hnonce).toUint hwell.nonce, ok_bind,
    (reads_layout hitems hgasLimit).toUint hwell.gasLimit, ok_bind,
    (reads_layout hitems hdst).toAddress, ok_bind,
    (reads_layout hitems hvalue).toUint hwell.value, ok_bind,
    (reads_layout hitems hbytes).toBytes hdata, ok_bind]
  rfl

end RLPReader

theorem length_le_of_mem (h : item ∈ items) : item.encode.length ≤ (encodeAll items).length := by
  induction items with
  | nil => cases h
  | cons first items ih =>
    rw [encodeAll, List.length_append]
    rcases List.mem_cons.mp h with rfl | h
    · exact Nat.le_add_right ..
    · exact (ih h).trans (Nat.le_add_left ..)

theorem UnsignedTransaction.data_mem : Item.bytes tx.data ∈ tx.items := by
  unfold items
  cases tx.envelope <;> simp

theorem UnsignedTransaction.WellFormed.encode_lt (h : tx.WellFormed) :
    (Item.list tx.items).encode.length < 2 ^ 56 := by
  have hlength := h.length
  rw [rawTransaction, List.length_append] at hlength
  omega

theorem UnsignedTransaction.WellFormed.data_lt (h : tx.WellFormed) : tx.data.length < 2 ^ 64 := by
  have hlength := h.encode_lt
  have hitem := length_le_of_mem tx.data_mem
  rw [Item.encode_list] at hlength
  rw [Item.encode_bytes] at hitem
  have hbytes := RLPReader.length_le_encodeBytes (b := tx.data)
  have hlist : (encodeAll tx.items).length ≤ (encodeList (encodeAll tx.items)).length :=
    RLPReader.length_le_encodeList
  omega

namespace Penalizer

/-- The first byte of a list is not that of a typed transaction. -/
theorem first_encodeList {payload : Bytes} (h : (encodeList payload).length < 2 ^ 56) :
    ∃ first rest, encodeList payload = first :: rest ∧ 0xc0 ≤ first.toNat ∧ first.toNat ≤ 0xfe := by
  have hpayload : payload.length < 2 ^ 56 := RLPReader.length_le_encodeList.trans_lt h
  have hle : (digits payload.length).length ≤ 7 := length_digits_le.mpr hpayload
  unfold encodeList
  rcases header_cases 0xc0 (hpayload.trans (by decide)) with ⟨hshort, heq⟩ | ⟨k, hk, _, hdigits, heq⟩
  · refine ⟨_, _, by rw [heq]; rfl, ?_⟩
    rw [RLPReader.toNat_ofNat (by omega)]
    omega
  · refine ⟨_, _, by rw [heq]; rfl, ?_⟩
    rw [RLPReader.toNat_ofNat (by omega)]
    omega

variable {raw rest : Bytes} {first : UInt8}

theorem type1_cons : isTransactionType1 (first :: rest) = .ok (first = 1) := rfl

theorem type2_cons : isTransactionType2 (first :: rest) = .ok (first = 2) := rfl

theorem valid_cons : isTransactionTypeValid (first :: rest) =
    .ok (0xc0 ≤ first && first ≤ 0xfe || first = 1 || first = 2) := rfl

variable (memory memPtr) in
/-- What is decoded is what was encoded, for every type of transaction, and with anything around it in
memory. -/
theorem decodeTransaction_rawTransaction (hwell : tx.WellFormed) :
    isTransactionTypeValid tx.rawTransaction = .ok true ∧
      decodeTransaction memory memPtr tx.rawTransaction = .ok tx.seen := by
  have hlength := hwell.encode_lt
  have hlength64 : (Item.list tx.items).encode.length < 2 ^ 64 := hlength.trans (by decide)
  have hdata := hwell.data_lt
  have hstands : (memory.store memPtr (Item.list tx.items).encode).Has memPtr
      (Item.list tx.items).encode := Memory.has_store
  cases henvelope : tx.envelope with
  | legacy gasPrice chain =>
    have hitems : tx.items = [.number tx.nonce, .number gasPrice, .number tx.gasLimit, tx.dstItem,
        .number tx.value, .bytes tx.data] ++ chain := by
      rw [UnsignedTransaction.items, henvelope]
    have hraw : tx.rawTransaction = (Item.list tx.items).encode := by
      rw [UnsignedTransaction.rawTransaction, UnsignedTransaction.typeBytes, henvelope]
      rfl
    have hread := RLPReader.decodeAt_encode 0 2 3 4 5 hwell hlength64 hstands hdata
      (by rw [hitems]; rfl) (by rw [hitems]; rfl) (by rw [hitems]; rfl) (by rw [hitems]; rfl)
      (by rw [hitems]; rfl)
    obtain ⟨first, rest, heq, hle, hge⟩ := first_encodeList hlength
    rw [← Item.encode_list] at heq
    have hne1 : first ≠ 1 := by
      rintro rfl
      exact absurd hle (by decide)
    have hne2 : first ≠ 2 := by
      rintro rfl
      exact absurd hle (by decide)
    have hlegacy : (0xc0 ≤ first && first ≤ 0xfe) = true := by
      simp only [Bool.and_eq_true, decide_eq_true_eq]
      exact ⟨hle, hge⟩
    rw [hraw]
    constructor
    · rw [heq, valid_cons, hlegacy]
      rfl
    · unfold decodeTransaction
      rw [heq, type1_cons, type2_cons, ← heq, decide_eq_false hne1, decide_eq_false hne2]
      exact hread
  | type1 chainId gasPrice accessList =>
    have hitems : tx.items = [.number chainId, .number tx.nonce, .number gasPrice,
        .number tx.gasLimit, tx.dstItem, .number tx.value, .bytes tx.data, accessList] := by
      rw [UnsignedTransaction.items, henvelope]
    have hraw : tx.rawTransaction = 1 :: (Item.list tx.items).encode := by
      rw [UnsignedTransaction.rawTransaction, UnsignedTransaction.typeBytes, henvelope]
      rfl
    rw [hraw]
    refine ⟨rfl, ?_⟩
    exact RLPReader.decodeAt_encode 1 3 4 5 6 hwell hlength64 hstands hdata (by rw [hitems]; rfl)
      (by rw [hitems]; rfl) (by rw [hitems]; rfl) (by rw [hitems]; rfl) (by rw [hitems]; rfl)
  | type2 chainId maxPriorityFeePerGas maxFeePerGas accessList =>
    have hitems : tx.items = [.number chainId, .number tx.nonce, .number maxPriorityFeePerGas,
        .number maxFeePerGas, .number tx.gasLimit, tx.dstItem, .number tx.value, .bytes tx.data,
        accessList] := by
      rw [UnsignedTransaction.items, henvelope]
    have hraw : tx.rawTransaction = 2 :: (Item.list tx.items).encode := by
      rw [UnsignedTransaction.rawTransaction, UnsignedTransaction.typeBytes, henvelope]
      rfl
    rw [hraw]
    refine ⟨rfl, ?_⟩
    exact RLPReader.decodeAt_encode 1 4 5 6 7 hwell hlength64 hstands hdata (by rw [hitems]; rfl)
      (by rw [hitems]; rfl) (by rw [hitems]; rfl) (by rw [hitems]; rfl) (by rw [hitems]; rfl)

variable (tx) in
/-- The transaction that the penalizer sees is the one that was signed, for every type of transaction,
wherever in memory it is decoded; and no bytes are those of two transactions that are seen differently. -/
theorem transactions_are_read_back (hwell : tx.WellFormed) :
    isTransactionTypeValid tx.rawTransaction = .ok true ∧
      (∀ memory memPtr, decodeTransaction memory memPtr tx.rawTransaction = .ok tx.seen) ∧
      ∀ tx' : UnsignedTransaction, tx'.WellFormed → tx'.rawTransaction = tx.rawTransaction →
        tx'.seen = tx.seen := by
  have hdecode := fun memory memPtr => decodeTransaction_rawTransaction memory memPtr hwell
  refine ⟨(hdecode (fun _ => 0) 0).1, fun memory memPtr => (hdecode memory memPtr).2, ?_⟩
  intro tx' hwell' hraw
  have hdecode' := (decodeTransaction_rawTransaction (fun _ => 0) 0 hwell').2
  rw [hraw, (hdecode (fun _ => 0) 0).2] at hdecode'
  exact (Except.ok.inj hdecode').symm

set_option maxRecDepth 4000 in
theorem transactions_are_read_back_relay :
    decodeTransaction signedRelay.memory signedRelay.memPtr signedRelay.unsignedTx =
      .ok ⟨7, 500000, 100, 0, RELAY_CALL_SELECTOR ++ word 1⟩ := by
  have hraw : signedRelay.unsignedTx = relayTransaction.rawTransaction := by decide
  rw [hraw]
  exact (transactions_are_read_back relayTransaction (by decide)).2.1 _ _

/-! ### Verdicts -/

/-- Two transactions are compared by all that is seen of them but the nonce. -/
theorem dataToCheck_inj {t t' : Transaction} (hgasLimit : t.gasLimit < UINT256_SIZE)
    (hgasLimit' : t'.gasLimit < UINT256_SIZE) (hvalue : t.value < UINT256_SIZE)
    (hvalue' : t'.value < UINT256_SIZE) (h : dataToCheck t = dataToCheck t') :
    t.data = t'.data ∧ t.gasLimit = t'.gasLimit ∧ t.dst = t'.dst ∧ t.value = t'.value := by
  rw [uint256_size_eq] at hgasLimit hgasLimit' hvalue hvalue'
  unfold dataToCheck at h
  -- what follows the data has a fixed length
  obtain ⟨h, hword⟩ := List.append_inj' h (by simp [word])
  obtain ⟨h, haddress⟩ := List.append_inj' h (by simp [packedAddress])
  obtain ⟨hdata, hgas⟩ := List.append_inj' h (by simp [word])
  exact ⟨hdata, BigEndian.encode_inj hgasLimit hgasLimit' hgas,
    Fin.ext (BigEndian.encode_inj t.dst.isLt t'.dst.isLt haddress),
    BigEndian.encode_inj hvalue hvalue' hword⟩

variable {crypto : Crypto} {e e1 e2 : Evidence} {hub relay : Address}

/-- The penalizer convicts for a repeated nonce exactly if the same account has signed both transactions,
and they differ in what they do. -/
theorem checkRepeatedNonce_eq_ok (hwell1 : tx1.WellFormed) (hwell2 : tx2.WellFormed)
    (htx1 : e1.unsignedTx = tx1.rawTransaction) (htx2 : e2.unsignedTx = tx2.rawTransaction)
    (hinj : crypto.keccak256 (dataToCheck tx1.seen) = crypto.keccak256 (dataToCheck tx2.seen) →
      dataToCheck tx1.seen = dataToCheck tx2.seen) :
    checkRepeatedNonce crypto e1 e2 = .ok relay ↔
      signer crypto e1 = .ok relay ∧ signer crypto e2 = .ok relay ∧ relay ≠ 0 ∧
        tx1.nonce = tx2.nonce ∧ tx1.seen ≠ tx2.seen := by
  have hdecode1 := (decodeTransaction_rawTransaction e1.memory e1.memPtr hwell1).2
  have hdecode2 := (decodeTransaction_rawTransaction e2.memory e2.memPtr hwell2).2
  simp only [checkRepeatedNonce, htx1, htx2, hdecode1, hdecode2, bind_eq_ok, require_eq_ok,
    pure_eq_ok, Except.ok.injEq]
  have hsame : tx1.nonce = tx2.nonce → (crypto.keccak256 (dataToCheck tx1.seen) =
      crypto.keccak256 (dataToCheck tx2.seen) ↔ tx1.seen = tx2.seen) := by
    intro hnonce
    refine ⟨fun heq => ?_, fun heq => by rw [heq]⟩
    obtain ⟨hdata, hgas, hdst, hvalue⟩ := dataToCheck_inj hwell1.gasLimit hwell2.gasLimit
      hwell1.value hwell2.value (hinj heq)
    exact Transaction.ext hnonce hgas hdst hvalue hdata
  constructor
  · rintro ⟨addr1, h1, addr2, h2, _, rfl, _, hzero, _, rfl, _, rfl, _, hnonce, _, hdiffer, rfl⟩
    exact ⟨h1, h2, hzero, hnonce, fun heq => hdiffer ((hsame hnonce).mpr heq)⟩
  · rintro ⟨h1, h2, hzero, hnonce, hdiffer⟩
    exact ⟨relay, h1, relay, h2, (), rfl, (), hzero, _, rfl, _, rfl, (), hnonce, (),
      fun heq => hdiffer ((hsame hnonce).mp heq), rfl⟩

/-- The transaction is a call of the hub that the penalizer takes for a relay call, or cannot tell from
one for want of a selector. -/
def RelayCallLike (hub : Address) (t : Transaction) : Prop :=
  t.dst = hub ∧ (t.data.length < 4 ∨ t.data.take 4 = RELAY_CALL_SELECTOR)

instance (t : Transaction) : Decidable (RelayCallLike hub t) :=
  inferInstanceAs (Decidable (_ ∧ (_ ∨ _)))

/-- The penalizer convicts for an illegal transaction exactly if it is not a relay call. -/
theorem checkIllegalTransaction_eq_ok (hwell : tx.WellFormed) (htx : e.unsignedTx = tx.rawTransaction) :
    checkIllegalTransaction crypto hub e = .ok relay ↔
      signer crypto e = .ok relay ∧ relay ≠ 0 ∧ ¬ RelayCallLike hub tx.seen := by
  obtain ⟨hvalid, hdecode⟩ := decodeTransaction_rawTransaction e.memory e.memPtr
    hwell
  have hcheck : checkIllegal hub e true = .ok () ↔ ¬ RelayCallLike hub tx.seen := by
    simp only [checkIllegal, if_true, htx, hdecode, ok_bind, RelayCallLike]
    by_cases hdst : tx.seen.dst = hub
    · simp only [hdst, if_true, readBytes4, bind_eq_ok, require_eq_ok, pure_eq_ok, List.drop_zero,
        Nat.zero_add, true_and, not_or, Nat.not_lt]
      constructor
      · rintro ⟨_, ⟨_, hlength, rfl⟩, hselector⟩
        exact ⟨hlength, hselector⟩
      · rintro ⟨hlength, hselector⟩
        exact ⟨_, ⟨(), hlength, rfl⟩, hselector⟩
    · simp only [hdst, if_false, false_and, not_false_eq_true, iff_true]
      rfl
  simp only [checkIllegalTransaction, htx, hvalid, bind_eq_ok, require_eq_ok, pure_eq_ok]
  constructor
  · rintro ⟨valid, hval, _, hlegal, _, hsigner, _, hzero, rfl⟩
    cases hval
    exact ⟨hsigner, hzero, hcheck.mp hlegal⟩
  · rintro ⟨hsigner, hzero, hlegal⟩
    exact ⟨true, rfl, (), hcheck.mpr hlegal, relay, hsigner, (), hzero, rfl⟩

variable (tx1 tx2 hub relay) in
/-- Exactly two kinds of transactions are held against their signer: two with the same nonce that do
different things, and one that does not call the hub with `relayCall`. -/
theorem verdicts_are_exact (hwell1 : tx1.WellFormed) (hwell2 : tx2.WellFormed)
    (htx1 : e1.unsignedTx = tx1.rawTransaction) (htx2 : e2.unsignedTx = tx2.rawTransaction)
    (hinj : crypto.keccak256 (dataToCheck tx1.seen) = crypto.keccak256 (dataToCheck tx2.seen) →
      dataToCheck tx1.seen = dataToCheck tx2.seen) :
    (checkRepeatedNonce crypto e1 e2 = .ok relay ↔
      signer crypto e1 = .ok relay ∧ signer crypto e2 = .ok relay ∧ relay ≠ 0 ∧
        tx1.nonce = tx2.nonce ∧ tx1.seen ≠ tx2.seen) ∧
    (checkIllegalTransaction crypto hub e1 = .ok relay ↔
      signer crypto e1 = .ok relay ∧ relay ≠ 0 ∧ ¬ RelayCallLike hub tx1.seen) :=
  ⟨checkRepeatedNonce_eq_ok hwell1 hwell2 htx1 htx2 hinj, checkIllegalTransaction_eq_ok hwell1 htx1⟩

set_option maxRecDepth 4000 in
theorem verdicts_are_exact_payments :
    checkRepeatedNonce workerCrypto signedPayment signedPayment2 = .ok Redeemy.signer ∧
      checkIllegalTransaction workerCrypto 100 signedPayment = .ok Redeemy.signer := by
  have hdiffer : workerCrypto.keccak256 (dataToCheck (paymentTransaction 1).seen) ≠
      workerCrypto.keccak256 (dataToCheck (paymentTransaction 2).seen) := by decide
  have htx1 : signedPayment.unsignedTx = (paymentTransaction 1).rawTransaction := by decide
  have htx2 : signedPayment2.unsignedTx = (paymentTransaction 2).rawTransaction := by decide
  obtain ⟨hrepeated, hillegal⟩ := verdicts_are_exact _ _ 100 Redeemy.signer (by decide) (by decide)
    htx1 htx2 (absurd · hdiffer)
  exact ⟨hrepeated.mpr (by decide), hillegal.mpr (by decide)⟩

end Penalizer

end Redeemy
