import Mathlib.Data.List.DropRight

/-!
# Stripping a list at both ends

`Strips p l t` says that `t` is what is left of `l` when the elements of `p` are taken off at both
ends, as far as possible. Every list strips to exactly one list, which `strip` computes.
-/

namespace Strip

variable {α : Type} {p : α → Bool} {l l' t u : List α}

/-- Neither the first nor the last element is one of `p`. -/
structure Bare (p : α → Bool) (t : List α) : Prop where
  head : ∀ a ∈ t.head?, p a = false
  last : ∀ a ∈ t.getLast?, p a = false

/-- Up to elements of `p` at the ends, `l` is `t`. -/
def Padded (p : α → Bool) (l t : List α) : Prop :=
  ∃ pre post : List α, l = pre ++ t ++ post ∧ (∀ a ∈ pre, p a = true) ∧ ∀ a ∈ post, p a = true

/-- What is left of `l` when all elements of `p` are taken off at the ends is `t`. -/
def Strips (p : α → Bool) (l t : List α) : Prop := Padded p l t ∧ Bare p t

def strip (p : α → Bool) (l : List α) : List α := (l.dropWhile p).rdropWhile p

theorem Padded.refl (p : α → Bool) (l : List α) : Padded p l l := ⟨[], [], by simp, by simp, by simp⟩

theorem Padded.trans (h : Padded p l t) (h' : Padded p t u) : Padded p l u := by
  obtain ⟨pre, post, rfl, hpre, hpost⟩ := h
  obtain ⟨pre', post', rfl, hpre', hpost'⟩ := h'
  refine ⟨pre ++ pre', post' ++ post, by simp, fun a ha => ?_, fun a ha => ?_⟩
  · exact (List.mem_append.mp ha).elim (hpre a) (hpre' a)
  · exact (List.mem_append.mp ha).elim (hpost' a) (hpost a)

theorem bare_rdropWhile (hhead : ∀ a ∈ l.head?, p a = false) : Bare p (l.rdropWhile p) where
  head := by
    intro a ha
    obtain ⟨post, hl⟩ := List.rdropWhile_prefix p (l := l)
    refine hhead a ?_
    rw [← hl, List.head?_append, ha]
    rfl
  last := by
    intro a ha
    have hne : l.rdropWhile p ≠ [] := by
      intro hnil
      rw [hnil] at ha
      cases ha
    rw [List.getLast?_eq_some_getLast hne, Option.mem_some_iff] at ha
    rw [← ha]
    exact Bool.eq_false_iff.mpr (List.rdropWhile_last_not p l hne)

theorem strips_strip (p : α → Bool) (l : List α) : Strips p l (strip p l) := by
  refine ⟨⟨l.takeWhile p, (l.dropWhile p).rtakeWhile p, ?_, fun a => List.mem_takeWhile_imp,
    fun a => List.mem_rtakeWhile_imp⟩, bare_rdropWhile fun a ha => ?_⟩
  · rw [strip, List.append_assoc, List.rdropWhile_append_rtakeWhile, List.takeWhile_append_dropWhile]
  · have hhead := List.head?_dropWhile_not p l
    rwa [ha] at hhead

theorem Bare.rdropWhile_append {post : List α} (h : Bare p t) (hpost : ∀ a ∈ post, p a = true) :
    (t ++ post).rdropWhile p = t := by
  rw [List.rdropWhile, List.reverse_append,
    List.dropWhile_append_of_pos fun a ha => hpost a (List.mem_reverse.mp ha)]
  refine List.rdropWhile_eq_self_iff.mpr fun hne => ?_
  exact Bool.eq_false_iff.mp (h.last _ (List.getLast?_eq_some_getLast hne))

/-- There is one way to strip a list. -/
theorem Strips.eq_strip (h : Strips p l t) : t = strip p l := by
  obtain ⟨⟨pre, post, rfl, hpre, hpost⟩, hbare⟩ := h
  rw [strip, List.append_assoc, List.dropWhile_append_of_pos hpre]
  cases t with
  | nil => rw [List.nil_append, List.dropWhile_eq_nil_iff.mpr hpost, List.rdropWhile_nil]
  | cons a t =>
    rw [List.cons_append, List.dropWhile_cons_of_neg (Bool.eq_false_iff.mp (hbare.head a rfl)),
      ← List.cons_append, hbare.rdropWhile_append hpost]

theorem Bare.strip_eq (h : Bare p t) : strip p t = t :=
  Strips.eq_strip ⟨.refl p t, h⟩ |>.symm

theorem bare_strip : Bare p (strip p l) := (strips_strip p l).2

/-- Lists that are the same up to elements of `p` at the ends strip to the same list. -/
theorem Padded.strip_eq (h : Padded p l t) : strip p l = strip p t :=
  (Strips.eq_strip ⟨h.trans (strips_strip p t).1, bare_strip⟩).symm

theorem strip_eq_strip_iff :
    strip p l = strip p l' ↔ ∃ t, Padded p l t ∧ Padded p l' t := by
  constructor
  · intro h
    exact ⟨strip p l, (strips_strip p l).1, h ▸ (strips_strip p l').1⟩
  · rintro ⟨t, ht, ht'⟩
    exact ht.strip_eq.trans ht'.strip_eq.symm

theorem strip_eq_nil_iff : strip p l = [] ↔ ∀ a ∈ l, p a = true := by
  constructor
  · intro h a ha
    obtain ⟨⟨pre, post, hl, hpre, hpost⟩, _⟩ := strips_strip p l
    rw [h, List.append_nil] at hl
    rw [hl] at ha
    exact (List.mem_append.mp ha).elim (hpre a) (hpost a)
  · intro h
    rw [strip, List.dropWhile_eq_nil_iff.mpr h, List.rdropWhile_nil]

end Strip
