import Redeemy.Lib.Rlp
import Redeemy.Model.RLPReader

/-!
# Reading what was encoded

Where the encoding of an item stands in memory, `RLPReader` finds its length, its items and its bytes,
whatever stands around it.
-/

namespace Redeemy.RLPReader

open Fallible Rlp BigEndian

variable {m : Memory} {p q n k offset : Nat} {b payload : Bytes} {item : Item} {items : List Item}

theorem shifted_eq (hk : k ≤ 32) : shifted m p k = value (m.read p k) := by
  rcases Nat.eq_zero_or_pos k with rfl | hpos
  · have hzero : exp256 ((32 + UINT256_SIZE - 0) % UINT256_SIZE) = 0 := by decide
    rw [shifted, hzero, Nat.div_zero]
    rfl
  · have hsize : (32 : Nat) ≤ UINT256_SIZE := by decide
    have hpower : (32 + UINT256_SIZE - k) % UINT256_SIZE = 32 - k := by
      have hsum : 32 + UINT256_SIZE - k = UINT256_SIZE + (32 - k) := by omega
      rw [hsum, Nat.add_mod_left]
      exact Nat.mod_eq_of_lt (by omega)
    rw [shifted, hpower, exp256, if_pos (by omega), Memory.word_div hk]

theorem toNat_ofNat (hn : n < 256) : (UInt8.ofNat n).toNat = n := by
  rw [UInt8.toNat_ofNat']
  exact Nat.mod_eq_of_lt hn

/-! ### Headers -/

theorem read_header (hoffset : offset = 0x80 ∨ offset = 0xc0) (hn : n < 2 ^ 64)
    (h : m.Has p (header offset n)) : payloadOffset m p = (header offset n).length ∧
      itemLength m p = (header offset n).length + n := by
  rcases header_cases offset hn with ⟨hshort, heq⟩ | ⟨k, hk, hk8, hdigits, heq⟩
  · rw [heq] at h ⊢
    have hfirst : (m p).toNat = offset + n := by
      rw [(Memory.has_cons.mp h).1]
      exact toNat_ofNat (by omega)
    simp only [payloadOffset, itemLength, hfirst, STRING_SHORT_START, STRING_LONG_START,
      LIST_SHORT_START, LIST_LONG_START, List.length_singleton]
    rcases hoffset with rfl | rfl
    · rw [if_neg (by omega), if_pos (by omega), if_neg (by omega), if_pos (by omega)]
      omega
    · rw [if_neg (by omega), if_pos (by omega), if_neg (by omega), if_neg (by omega),
        if_neg (by omega), if_pos (by omega)]
      omega
  · rw [heq] at h ⊢
    obtain ⟨hbyte, hrest⟩ := Memory.has_cons.mp h
    have hfirst : (m p).toNat = offset + 55 + k := by
      rw [hbyte]
      exact toNat_ofNat (by omega)
    -- the digits of the length follow
    have hlong : longLength m (p + 1) k = n + (k + 1) := by
      rw [longLength, shifted_eq (by omega), ← hdigits]
      rw [Memory.Has] at hrest
      rw [hrest, value_digits]
    simp only [payloadOffset, itemLength, hfirst, STRING_SHORT_START, STRING_LONG_START,
      LIST_SHORT_START, LIST_LONG_START, List.length_cons, hdigits]
    rcases hoffset with rfl | rfl
    · have hbytes : 0x80 + 55 + k - 0xb7 = k := by omega
      rw [if_neg (by omega), if_neg (by omega), if_pos (by omega), if_neg (by omega),
        if_neg (by omega), if_pos (by omega), hbytes, hlong]
      omega
    · have hbytes : 0xc0 + 55 + k - 0xf7 = k := by omega
      rw [if_neg (by omega), if_neg (by omega), if_neg (by omega), if_neg (by omega),
        if_neg (by omega), if_neg (by omega), if_neg (by omega), hbytes, hlong]
      omega

/-- A byte that is its own encoding. -/
theorem read_small (hsmall : Small b) (h : m.Has p b) :
    payloadOffset m p = 0 ∧ itemLength m p = 1 := by
  obtain ⟨hlength, hlt⟩ := hsmall
  obtain ⟨x, rfl⟩ := List.length_eq_one_iff.mp hlength
  have hfirst : m p = x := (Memory.has_cons.mp h).1
  have hx : x.toNat < 0x80 := hlt x List.mem_cons_self
  simp only [payloadOffset, itemLength, hfirst, STRING_SHORT_START, if_pos hx, and_self]

/-! ### Items -/

/-- The bytes of a byte string stand after its header. -/
theorem read_bytes (hb : b.length < 2 ^ 64) (h : m.Has p (encodeBytes b)) :
    (encodeBytes b).length = payloadOffset m p + b.length ∧
      itemLength m p = (encodeBytes b).length ∧ m.Has (p + payloadOffset m p) b := by
  unfold encodeBytes at h ⊢
  split_ifs at h ⊢ with hsmall
  · obtain ⟨hoffset, hlength⟩ := read_small hsmall h
    rw [hoffset, hlength]
    exact ⟨(Nat.zero_add _).symm, hsmall.1.symm, h⟩
  · obtain ⟨hheader, hbytes⟩ := Memory.has_append.mp h
    obtain ⟨hoffset, hlength⟩ := read_header (.inl rfl) hb hheader
    rw [hoffset, hlength, List.length_append]
    exact ⟨rfl, rfl, hbytes⟩

theorem read_list (hpayload : payload.length < 2 ^ 64) (h : m.Has p (encodeList payload)) :
    (encodeList payload).length = payloadOffset m p + payload.length ∧
      itemLength m p = (encodeList payload).length ∧ m.Has (p + payloadOffset m p) payload := by
  unfold encodeList at h ⊢
  obtain ⟨hheader, hitems⟩ := Memory.has_append.mp h
  obtain ⟨hoffset, hlength⟩ := read_header (.inr rfl) hpayload hheader
  rw [hoffset, hlength, List.length_append]
  exact ⟨rfl, rfl, hitems⟩

theorem length_le_encodeBytes : b.length ≤ (encodeBytes b).length := by
  unfold encodeBytes
  split_ifs
  · exact Nat.le_refl _
  · rw [List.length_append]
    exact Nat.le_add_left ..

theorem length_le_encodeList : payload.length ≤ (encodeList payload).length := by
  rw [encodeList, List.length_append]
  exact Nat.le_add_left ..

theorem itemLength_encode (hlength : item.encode.length < 2 ^ 64) (h : m.Has p item.encode) :
    itemLength m p = item.encode.length := by
  cases item with
  | bytes b =>
    rw [Item.encode_bytes] at h hlength ⊢
    exact (read_bytes (length_le_encodeBytes.trans_lt hlength) h).2.1
  | list items =>
    rw [Item.encode_list] at h hlength ⊢
    exact (read_list (length_le_encodeList.trans_lt hlength) h).2.1

theorem header_pos : 0 < (header offset n).length := by
  unfold header
  split_ifs <;> simp

theorem encode_pos (item : Item) : 0 < item.encode.length := by
  cases item with
  | bytes b =>
    rw [Item.encode_bytes, encodeBytes]
    split_ifs with hsmall
    · rw [hsmall.1]
      exact Nat.one_pos
    · rw [List.length_append]
      exact Nat.add_pos_left header_pos _
  | list items =>
    rw [Item.encode_list, encodeList, List.length_append]
    exact Nat.add_pos_left header_pos _

/-! ### Lists -/

/-- Where the items stand. -/
def layout : Nat → List Item → List RLPItem
  | _, [] => []
  | p, item :: items => ⟨item.encode.length, p⟩ :: layout (p + item.encode.length) items

theorem length_le_encodeAll (items : List Item) : items.length ≤ (encodeAll items).length := by
  induction items with
  | nil => exact Nat.le_refl _
  | cons item items ih =>
    have hpos := encode_pos item
    rw [encodeAll, List.length_append, List.length_cons]
    omega

theorem countItems_encodeAll {rounds : Nat} (hrounds : items.length ≤ rounds)
    (hlength : (encodeAll items).length < 2 ^ 64) (h : m.Has p (encodeAll items)) :
    countItems m rounds p (p + (encodeAll items).length) = items.length := by
  induction items generalizing p rounds with
  | nil =>
    cases rounds with
    | zero => rfl
    | succ rounds =>
      rw [encodeAll, List.length_nil, countItems, if_neg (by omega)]
      rfl
  | cons item items ih =>
    obtain ⟨rounds, rfl⟩ := Nat.exists_eq_add_of_lt hrounds
    rw [encodeAll, List.length_append] at hlength ⊢
    obtain ⟨hitem, hitems⟩ := Memory.has_append.mp h
    have hpos := encode_pos item
    have hstep := itemLength_encode (by omega) hitem
    have hrest := ih (Nat.le_add_right items.length rounds) (by omega) hitems
    have hnext : p + (item.encode.length + (encodeAll items).length) =
        p + item.encode.length + (encodeAll items).length := by omega
    rw [countItems, if_pos (by omega), hstep, hnext, hrest, List.length_cons]

theorem takeItems_encodeAll (hlength : (encodeAll items).length < 2 ^ 64)
    (h : m.Has p (encodeAll items)) : takeItems m items.length p = layout p items := by
  induction items generalizing p with
  | nil => rfl
  | cons item items ih =>
    rw [encodeAll, List.length_append] at hlength
    obtain ⟨hitem, hitems⟩ := Memory.has_append.mp h
    rw [List.length_cons, takeItems, layout, itemLength_encode (by omega) hitem,
      ih (by omega) hitems]

theorem layout_get (h : m.Has p (encodeAll items)) {i : Nat} (hi : items[i]? = some item) :
    ∃ q, (layout p items)[i]? = some ⟨item.encode.length, q⟩ ∧ m.Has q item.encode := by
  induction items generalizing p i with
  | nil => cases hi
  | cons first items ih =>
    obtain ⟨hfirst, hitems⟩ := Memory.has_append.mp h
    cases i with
    | zero =>
      cases hi
      exact ⟨p, rfl, hfirst⟩
    | succ i => exact ih hitems hi

theorem isList_encodeList (len : Nat) (hpayload : payload.length < 2 ^ 64)
    (h : m.Has p (encodeList payload)) : isList m ⟨len, p⟩ = true := by
  have hheader := (Memory.has_append.mp h).1
  have hfirst : 0xc0 ≤ (m p).toNat := by
    rcases header_cases 0xc0 hpayload with ⟨hshort, heq⟩ | ⟨k, hk, hk8, _, heq⟩
    · rw [heq] at hheader
      rw [(Memory.has_cons.mp hheader).1, toNat_ofNat (by omega)]
      omega
    · rw [heq] at hheader
      rw [(Memory.has_cons.mp hheader).1, toNat_ofNat (by omega)]
      omega
  exact decide_eq_true hfirst

theorem toList_encode (hlength : (Item.list items).encode.length < 2 ^ 64)
    (h : m.Has p (Item.list items).encode) :
    ∃ q, toList m (toRlpItem p (Item.list items).encode.length) = .ok (layout q items) ∧
      m.Has q (encodeAll items) := by
  have hpos := encode_pos (.list items)
  rw [Item.encode_list] at h hlength hpos ⊢
  have hpayload := length_le_encodeList.trans_lt hlength
  obtain ⟨hwhole, _, hitems⟩ := read_list hpayload h
  have hlist := isList_encodeList (encodeList (encodeAll items)).length hpayload h
  have hcount : numItems m ⟨(encodeList (encodeAll items)).length, p⟩ = items.length := by
    have hle := length_le_encodeAll items
    rw [numItems]
    dsimp only
    rw [hwhole, ← Nat.add_assoc]
    exact countItems_encodeAll (by omega) hpayload hitems
  refine ⟨p + payloadOffset m p, ?_, hitems⟩
  rw [toRlpItem, if_neg (by omega), toList, require_of hlist, ok_bind, hcount,
    takeItems_encodeAll hpayload hitems]
  rfl

/-! ### Values -/

theorem toUint_encodeBytes (hb : b.length ≤ 32) (h : m.Has p (encodeBytes b)) :
    toUint m ⟨(encodeBytes b).length, p⟩ = .ok (value b) := by
  obtain ⟨hlength, _, hbytes⟩ := read_bytes (by omega) h
  simp only [toUint, bind_eq_ok, checkedSub_eq_ok, pure_eq_ok]
  refine ⟨b.length, ⟨by omega, by omega⟩, ?_⟩
  rw [shifted_eq hb]
  exact congrArg value hbytes

theorem toBytes_encodeBytes (hb : b.length < 2 ^ 64) (h : m.Has p (encodeBytes b)) :
    toBytes m ⟨(encodeBytes b).length, p⟩ = .ok b := by
  obtain ⟨hlength, _, hbytes⟩ := read_bytes hb h
  simp only [toBytes, bind_eq_ok, checkedSub_eq_ok, pure_eq_ok]
  exact ⟨b.length, ⟨by omega, by omega⟩, hbytes⟩

theorem length_encodeBytes_le (hb : b.length ≤ 55) : (encodeBytes b).length ≤ b.length + 1 := by
  unfold encodeBytes
  split_ifs
  · exact Nat.le_succ _
  · rw [header, if_pos hb, List.length_append, List.length_singleton]
    omega

theorem toAddress_encodeBytes (hb : b.length ≤ 20) (h : m.Has p (encodeBytes b)) :
    toAddress m ⟨(encodeBytes b).length, p⟩ = .ok (Fin.ofNat (2 ^ 160) (value b)) := by
  have hle := length_encodeBytes_le (Nat.le_trans hb (by decide : 20 ≤ 55))
  have hshort : (encodeBytes b).length ≤ 21 := by omega
  simp only [toAddress, bind_eq_ok, require_eq_ok, pure_eq_ok]
  exact ⟨(), hshort, _, toUint_encodeBytes (by omega) h, rfl⟩

end Redeemy.RLPReader
