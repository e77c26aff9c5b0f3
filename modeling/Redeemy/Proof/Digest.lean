import Redeemy.Model.Forwarder
import Mathlib.Data.Set.Function

/-!
# What a signature stands for

The encoding of a request puts every field before the suffix into a word of its own, so the digest that
is signed determines the request (`Forwarder.digest_inj`), as far as the hash function has no collision
among the messages that are hashed for it.
-/

namespace Redeemy

variable {crypto : Crypto} {e e' : Execution} {m n : Nat} {xs ys : Bytes}

/-! ### Words -/

theorem uint256_size_eq : UINT256_SIZE = 256 ^ 32 := by
  norm_num [UINT256_SIZE]

theorem word_append_inj (hm : m < UINT256_SIZE) (hn : n < UINT256_SIZE)
    (h : word m ++ xs = word n ++ ys) : m = n ∧ xs = ys :=
  BigEndian.encode_append_inj (hm.trans_eq uint256_size_eq) (hn.trans_eq uint256_size_eq) h

theorem word_bytes32_append_inj {a b : Bytes32} (h : word a ++ xs = word b ++ ys) :
    a = b ∧ xs = ys := by
  obtain ⟨hvalue, hrest⟩ := word_append_inj a.isLt b.isLt h
  exact ⟨Fin.ext hvalue, hrest⟩

theorem word_bytes32_inj {a b : Bytes32} (h : word a = word b) : a = b :=
  (word_bytes32_append_inj (congrArg (· ++ []) h)).1

theorem word_address_append_inj {a b : Address} (h : word a ++ xs = word b ++ ys) :
    a = b ∧ xs = ys := by
  have hlt : ∀ a : Address, (a : Nat) < UINT256_SIZE := fun a =>
    a.isLt.trans (by decide)
  obtain ⟨hvalue, hrest⟩ := word_append_inj (hlt a) (hlt b) h
  exact ⟨Fin.ext hvalue, hrest⟩

/-! ### Digests -/

theorem FullForwardRequest.eq_of {r r' : FullForwardRequest}
    (hparties : r.src = r'.src ∧ r.dst = r'.dst) (hdata : r.data = r'.data)
    (hwords : r.value = r'.value ∧ r.gas = r'.gas ∧ r.nonce = r'.nonce ∧
      r.validUntilTime = r'.validUntilTime) : r = r' := by
  obtain ⟨⟨src, dst, data⟩, value, gas, nonce, validUntilTime, _⟩ := r
  obtain ⟨⟨src', dst', data'⟩, value', gas', nonce', validUntilTime', _⟩ := r'
  obtain ⟨rfl, rfl⟩ := hparties
  obtain ⟨rfl, rfl, rfl, rfl⟩ := hwords
  obtain rfl := hdata
  rfl

namespace Forwarder

/-- The messages that are hashed for the digest of a request. -/
def hashed (crypto : Crypto) (e : Execution) : List Bytes :=
  [signedBytes crypto e, getEncoded crypto e.req e.requestTypeHash e.suffixData, e.req.data]

/-- The encoding of a request determines it up to the hash of its data. -/
theorem getEncoded_inj (h : getEncoded crypto e.req e.requestTypeHash e.suffixData =
      getEncoded crypto e'.req e'.requestTypeHash e'.suffixData) :
    (e.requestTypeHash = e'.requestTypeHash ∧ e.suffixData = e'.suffixData) ∧
    (e.req.src = e'.req.src ∧ e.req.dst = e'.req.dst) ∧
    (e.req.value = e'.req.value ∧ e.req.gas = e'.req.gas ∧ e.req.nonce = e'.req.nonce ∧
      e.req.validUntilTime = e'.req.validUntilTime) ∧
    crypto.keccak256 e.req.data = crypto.keccak256 e'.req.data := by
  obtain ⟨hvalue, hgas, hnonce, htime⟩ := e.req.isUint256
  obtain ⟨hvalue', hgas', hnonce', htime'⟩ := e'.req.isUint256
  unfold getEncoded at h
  simp only [List.append_assoc] at h
  obtain ⟨h₁, h⟩ := word_bytes32_append_inj h
  obtain ⟨h₂, h⟩ := word_address_append_inj h
  obtain ⟨h₃, h⟩ := word_address_append_inj h
  obtain ⟨h₄, h⟩ := word_append_inj hvalue hvalue' h
  obtain ⟨h₅, h⟩ := word_append_inj hgas hgas' h
  obtain ⟨h₆, h⟩ := word_append_inj hnonce hnonce' h
  obtain ⟨h₇, h⟩ := word_bytes32_append_inj h
  obtain ⟨h₈, h₉⟩ := word_append_inj htime htime' h
  exact ⟨⟨h₁, h₉⟩, ⟨h₂, h₃⟩, ⟨h₄, h₅, h₆, h₈⟩, h₇⟩

theorem digest_inj {messages : Set Bytes} (hinj : Set.InjOn crypto.keccak256 messages)
    (he : ∀ m ∈ hashed crypto e, m ∈ messages) (he' : ∀ m ∈ hashed crypto e', m ∈ messages)
    (h : digest crypto e = digest crypto e') :
    e.req = e'.req ∧ e.domainSeparator = e'.domainSeparator ∧
      e.requestTypeHash = e'.requestTypeHash ∧ e.suffixData = e'.suffixData := by
  have hsigned := hinj (he _ (by simp [hashed])) (he' _ (by simp [hashed])) h
  unfold signedBytes at hsigned
  rw [List.append_assoc, List.append_assoc, List.append_cancel_left_eq] at hsigned
  obtain ⟨hdomain, hencoded⟩ := word_bytes32_append_inj hsigned
  obtain ⟨⟨htype, hsuffix⟩, hparties, hwords, hdata⟩ := getEncoded_inj
    (hinj (he _ (by simp [hashed])) (he' _ (by simp [hashed])) (word_bytes32_inj hencoded))
  have hdata := hinj (he _ (by simp [hashed])) (he' _ (by simp [hashed])) hdata
  exact ⟨FullForwardRequest.eq_of hparties hdata hwords, hdomain, htype, hsuffix⟩

end Forwarder

end Redeemy
