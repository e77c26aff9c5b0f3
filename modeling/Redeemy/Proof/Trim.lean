import Redeemy.Lib.Strip
import Redeemy.Model.Registry

/-!
# Trimmed names

`trim` strips a string of its spaces at both ends if it has any other byte. A string of spaces only
makes `trim` fail, and the empty string stays empty.
-/

namespace Redeemy

open Fallible Strip

namespace StringUtils

variable {str str' out : Bytes} {pre done bytes rest post : Bytes} {start e i : Nat} {b : UInt8}

def isSpace (b : UInt8) : Bool := b == SPACE

theorem isSpace_iff : isSpace b = true ↔ b = SPACE := beq_iff_eq

theorem ne_space (h : isSpace b = false) : b ≠ SPACE := fun hb => by
  rw [isSpace_iff.mpr hb] at h
  cases h

/-- A string without its leading and trailing spaces. -/
def stripped (str : Bytes) : Bytes := strip isSpace str

theorem stripped_ne_nil (h : ∃ c ∈ str, c ≠ SPACE) : stripped str ≠ [] := by
  intro hnil
  obtain ⟨c, hc, hspace⟩ := h
  exact hspace (isSpace_iff.mp (strip_eq_nil_iff.mp hnil c hc))

/-! ### The three loops -/

/-- The first loop finds the byte behind the leading spaces. -/
theorem findStart_append (hpre : ∀ c ∈ pre, isSpace c = true) (hb : b ≠ SPACE) :
    findStart (pre ++ b :: rest) i = i + pre.length := by
  induction pre generalizing i with
  | nil => exact if_pos hb
  | cons c pre ih =>
    obtain ⟨hc, hpre⟩ := List.forall_mem_cons.mp hpre
    rw [List.cons_append, findStart, if_neg (not_not.mpr (isSpace_iff.mp hc)), ih hpre,
      List.length_cons]
    omega

theorem findStart_spaces (hall : ∀ c ∈ str, isSpace c = true) : findStart str i = 0 := by
  induction str generalizing i with
  | nil => rfl
  | cons c str ih =>
    obtain ⟨hc, hall⟩ := List.forall_mem_cons.mp hall
    rw [findStart, if_neg (not_not.mpr (isSpace_iff.mp hc)), ih hall]

/-- The second loop runs down over spaces until it finds another byte. -/
theorem findEnd_eq (hstart : start ≤ e) (he : str[e]? = some b) (hb : b ≠ SPACE) (hi : e ≤ i)
    (hspaces : ∀ k, e < k → k ≤ i → str[k]? = some SPACE) : findEnd str start i = .ok (e + 1) := by
  induction i with
  | zero =>
    obtain rfl : e = 0 := Nat.le_zero.mp hi
    rw [findEnd, if_pos hstart, index, he]
    exact if_pos hb
  | succ i ih =>
    rw [findEnd, if_pos (hstart.trans hi), index]
    rcases Nat.eq_or_lt_of_le hi with rfl | hlt
    · rw [he]
      exact if_pos hb
    · rw [hspaces (i + 1) hlt (Nat.le_refl _)]
      exact ih (by omega) fun k hk hki => hspaces k hk (by omega)

theorem findEnd_append (hne : bytes ≠ []) (hlast : bytes.getLast hne ≠ SPACE)
    (hpost : ∀ c ∈ post, isSpace c = true) :
    findEnd (pre ++ bytes ++ post) pre.length ((pre ++ bytes ++ post).length - 1) =
      .ok (pre.length + bytes.length) := by
  have hpos : 0 < bytes.length := List.length_pos_iff.mpr hne
  have hend : pre.length + bytes.length = pre.length + (bytes.length - 1) + 1 := by omega
  rw [hend]
  refine findEnd_eq (by omega) ?_ hlast ?_ ?_
  · rw [List.append_assoc, List.getElem?_append_right (Nat.le_add_right ..), Nat.add_sub_cancel_left,
      List.getElem?_append_left (by omega), ← List.getLast?_eq_getElem?,
      List.getLast?_eq_some_getLast hne]
  · simp only [List.length_append]
    omega
  · intro k hk hle
    simp only [List.length_append] at hle
    have hlen : (pre ++ bytes).length ≤ k := by
      rw [List.length_append]
      omega
    have hin : k - (pre ++ bytes).length < post.length := by
      rw [List.length_append] at hlen ⊢
      omega
    rw [List.getElem?_append_right hlen, List.getElem?_eq_getElem hin,
      isSpace_iff.mp (hpost _ (List.getElem_mem hin))]

/-- A string of spaces lets the index of the second loop run below zero. -/
theorem findEnd_spaces (hi : i < str.length) (hall : ∀ c ∈ str, isSpace c = true) :
    findEnd str 0 i = .error (.panic 0x11) := by
  have hspace : ∀ k, k < str.length → str[k]? = some SPACE := by
    intro k hk
    rw [List.getElem?_eq_getElem hk, isSpace_iff.mp (hall _ (List.getElem_mem hk))]
  induction i with
  | zero =>
    rw [findEnd, if_pos (Nat.le_refl 0), index, hspace 0 hi]
    rfl
  | succ i ih =>
    rw [findEnd, if_pos (Nat.zero_le _), index, hspace (i + 1) hi]
    exact ih (by omega)

/-- The third loop copies the bytes behind the leading spaces. -/
theorem copyBytes_eq (hlen : rest.length = bytes.length) :
    copyBytes (pre ++ done ++ bytes ++ post) pre.length bytes.length (pre.length + done.length)
      (done ++ rest) = .ok (done ++ bytes) := by
  induction bytes generalizing done rest with
  | nil =>
    rw [List.eq_nil_of_length_eq_zero hlen]
    rfl
  | cons b bytes ih =>
    obtain ⟨c, rest, rfl⟩ := List.exists_cons_of_length_eq_add_one hlen
    have hread : (pre ++ done ++ (b :: bytes) ++ post)[pre.length + done.length]? = some b := by simp
    have hslot : (done ++ c :: rest)[done.length]? = some c := by simp
    have hnext : copyBytes (pre ++ (done ++ [b]) ++ bytes ++ post) pre.length bytes.length
        (pre.length + (done ++ [b]).length) (done ++ [b] ++ rest) = .ok (done ++ [b] ++ bytes) :=
      ih (by simpa using hlen)
    simp only [List.append_assoc, List.singleton_append, List.length_append, List.length_singleton]
      at hnext hread ⊢
    simp only [List.length_cons, copyBytes, index, hread, checkedSub, Nat.le_add_right, if_true,
      Nat.add_sub_cancel_left, hslot, orThrow, ok_bind]
    rw [List.set_append_right _ _ (Nat.le_refl _), Nat.sub_self, List.set_cons_zero, Nat.add_assoc]
    exact hnext

/-! ### The function -/

theorem trim_nil : trim [] = .ok [] := rfl

theorem trim_eq_stripped (hstr : ∃ c ∈ str, c ≠ SPACE) : trim str = .ok (stripped str) := by
  obtain ⟨⟨pre, post, hsplit, hpre, hpost⟩, hbare⟩ := strips_strip isSpace str
  -- the bytes in the middle are not none, and the loops find their first and their last one
  have hne : stripped str ≠ [] := stripped_ne_nil hstr
  change str = pre ++ stripped str ++ post at hsplit
  change Bare isSpace (stripped str) at hbare
  generalize stripped str = bytes at hsplit hbare hne ⊢
  subst hsplit
  have hstop : findEnd (pre ++ bytes ++ post) pre.length _ = .ok (pre.length + bytes.length) :=
    findEnd_append hne (ne_space (hbare.last _ (List.getLast?_eq_some_getLast hne))) hpost
  have hlen : pre.length + bytes.length - pre.length = bytes.length := Nat.add_sub_cancel_left ..
  have hcopy : copyBytes (pre ++ [] ++ bytes ++ post) pre.length bytes.length
      (pre.length + [].length) ([] ++ List.replicate bytes.length 0) = .ok ([] ++ bytes) :=
    copyBytes_eq List.length_replicate
  rw [List.append_nil, List.length_nil, Nat.add_zero, List.nil_append, List.nil_append] at hcopy
  have hstart : findStart (pre ++ bytes ++ post) 0 = pre.length := by
    obtain ⟨b, rest, rfl⟩ := List.exists_cons_of_ne_nil hne
    rw [List.append_assoc, List.cons_append, findStart_append hpre (ne_space (hbare.head b rfl)),
      Nat.zero_add]
  unfold trim
  rw [if_neg (by simp [hne]), hstart]
  dsimp only
  rw [hstop, ok_bind, checkedSub_eq_ok.mpr ⟨by omega, rfl⟩, ok_bind, hlen]
  exact hcopy

theorem trim_spaces (hne : str ≠ []) (hall : ∀ c ∈ str, isSpace c = true) :
    trim str = .error (.panic 0x11) := by
  have hlen : 0 < str.length := List.length_pos_iff.mpr hne
  unfold trim
  rw [if_neg (by omega), findStart_spaces hall]
  dsimp only
  rw [findEnd_spaces (by omega) hall]
  rfl

/-- Everything `trim` does. -/
theorem trim_eq_ok_iff :
    trim str = .ok out ↔ (str = [] ∨ ∃ c ∈ str, c ≠ SPACE) ∧ out = stripped str := by
  by_cases hstr : ∃ c ∈ str, c ≠ SPACE
  · rw [trim_eq_stripped hstr, Except.ok.injEq]
    exact ⟨fun h => ⟨.inr hstr, h.symm⟩, fun h => h.2.symm⟩
  · push Not at hstr
    by_cases hnil : str = []
    · subst hnil
      rw [trim_nil, Except.ok.injEq]
      exact ⟨fun h => ⟨.inl rfl, h.symm⟩, fun h => h.2.symm⟩
    · rw [trim_spaces hnil fun c hc => isSpace_iff.mpr (hstr c hc)]
      constructor
      · intro h
        cases h
      · rintro ⟨hempty | ⟨c, hc, hspace⟩, _⟩
        · exact absurd hempty hnil
        · exact absurd (hstr c hc) hspace

/-- What `trim` returns starts and ends with a byte that is not a space, or is empty. -/
theorem trim_eq_ok (h : trim str = .ok out) :
    out.head? ≠ some SPACE ∧ out.getLast? ≠ some SPACE := by
  obtain ⟨_, rfl⟩ := trim_eq_ok_iff.mp h
  have hbare : Bare isSpace (stripped str) := bare_strip
  constructor
  · intro hspace
    cases hbare.head _ hspace
  · intro hspace
    cases hbare.last _ hspace

/-- A string with a byte other than a space is trimmed to what is left of it without its outer spaces,
which is one string. Trimming that again changes nothing, and another string is trimmed to it exactly if
the two differ in outer spaces only. -/
theorem trim_removes_outer_spaces (hstr : ∃ c ∈ str, c ≠ SPACE) :
    ∃ t, trim str = .ok t ∧ (∀ t', Strips isSpace str t' ↔ t' = t) ∧ trim t = .ok t ∧
      ∀ str', (∃ c ∈ str', c ≠ SPACE) →
        (trim str' = trim str ↔ ∃ u, Padded isSpace str u ∧ Padded isSpace str' u) := by
  have hbare : Bare isSpace (stripped str) := bare_strip
  refine ⟨stripped str, trim_eq_stripped hstr, fun t' => ⟨Strips.eq_strip, ?_⟩, ?_, ?_⟩
  · rintro rfl
    exact strips_strip isSpace str
  · have hagain : stripped (stripped str) = stripped str := hbare.strip_eq
    refine trim_eq_ok_iff.mpr ⟨.inr ?_, hagain.symm⟩
    -- only a string of spaces is stripped of everything
    by_contra! hspaces
    have hnil : stripped (stripped str) = [] :=
      strip_eq_nil_iff.mpr fun c hc => isSpace_iff.mpr (hspaces c hc)
    exact stripped_ne_nil hstr (hagain ▸ hnil)
  · intro str' hstr'
    rw [trim_eq_stripped hstr', trim_eq_stripped hstr, Except.ok.injEq, eq_comm]
    exact strip_eq_strip_iff

theorem trim_removes_outer_spaces_padded :
    ∃ t, trim [0x20, 0x61, 0x20, 0x62, 0x20] = .ok t ∧
      (∀ t', Strips isSpace [0x20, 0x61, 0x20, 0x62, 0x20] t' ↔ t' = t) ∧ trim t = .ok t ∧
      ∀ str', (∃ c ∈ str', c ≠ SPACE) → (trim str' = trim [0x20, 0x61, 0x20, 0x62, 0x20] ↔
        ∃ u, Padded isSpace [0x20, 0x61, 0x20, 0x62, 0x20] u ∧ Padded isSpace str' u) :=
  trim_removes_outer_spaces ⟨0x61, by decide, by decide⟩

end StringUtils

end Redeemy
