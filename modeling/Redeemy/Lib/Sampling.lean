import Mathlib.Data.List.Nodup
import Mathlib.Data.Set.Function
import Redeemy.Lib.SwapRemove

/-!
# Sampling without replacement

`sample rs l` draws from `l` until the numbers in `rs` or the elements of `l` run out. A number selects
an element by its residue modulo how many elements there are, and the element drawn is removed by
swapping it with the last one. Different residues draw different elements in a different order, and
everything that can be drawn is drawn (`bijOn_sample`): a draw with uniform residues is uniform.
-/

namespace Sampling

open SwapRemove

variable {α β : Type} {l ps : List α} {rs rs' : List Nat} {i j n r : Nat}

def sample : List Nat → List α → List α
  | [], _ => []
  | r :: rs, l =>
    match l[r % l.length]? with
    | none => []
    | some a => a :: sample rs (swapRemove l (r % l.length))

@[simp] theorem sample_nil : sample rs ([] : List α) = [] := by
  cases rs <;> rfl

theorem sample_cons (h : r % l.length < l.length) :
    sample (r :: rs) l = l[r % l.length] :: sample rs (swapRemove l (r % l.length)) := by
  rw [sample, List.getElem?_eq_getElem h]

theorem length_swapRemove (h : i < l.length) : (swapRemove l i).length = l.length - 1 := by
  rw [← (cons_swapRemove_perm h).length_eq, List.length_cons, Nat.add_sub_cancel]

theorem swapRemove_map (f : α → β) : swapRemove (l.map f) i = (swapRemove l i).map f := by
  unfold swapRemove
  rw [List.getLast?_map]
  cases l.getLast? with
  | none => rfl
  | some last =>
    dsimp only [Option.map_some]
    rw [← List.map_set, ← List.map_dropLast]

theorem sample_map (f : α → β) : sample rs (l.map f) = (sample rs l).map f := by
  induction rs generalizing l with
  | nil => rfl
  | cons r rs ih =>
    rw [sample, sample, List.length_map, List.getElem?_map]
    cases l[r % l.length]? with
    | none => rfl
    | some a => rw [Option.map_some, swapRemove_map, ih, List.map_cons]

theorem length_sample : (sample rs l).length = min rs.length l.length := by
  induction rs generalizing l with
  | nil => simp [sample]
  | cons r rs ih =>
    rcases Nat.eq_zero_or_pos l.length with hzero | hpos
    · rw [List.length_eq_zero_iff.mp hzero, sample_nil]
      simp
    · have hr : r % l.length < l.length := Nat.mod_lt r hpos
      rw [sample_cons hr, List.length_cons, ih, length_swapRemove hr, List.length_cons]
      omega

/-- What is drawn and what is left is everything. -/
theorem exists_rest (rs : List Nat) (l : List α) : ∃ rest, (sample rs l ++ rest).Perm l := by
  induction rs generalizing l with
  | nil => exact ⟨l, .refl l⟩
  | cons r rs ih =>
    rcases Nat.eq_zero_or_pos l.length with hzero | hpos
    · exact ⟨l, by rw [List.length_eq_zero_iff.mp hzero, sample_nil]; exact .refl []⟩
    · have hr : r % l.length < l.length := Nat.mod_lt r hpos
      obtain ⟨rest, hrest⟩ := ih (swapRemove l (r % l.length))
      refine ⟨rest, ?_⟩
      rw [sample_cons hr]
      exact (hrest.cons _).trans (cons_swapRemove_perm hr)

theorem sample_subset {a : α} (h : a ∈ sample rs l) : a ∈ l := by
  obtain ⟨rest, hrest⟩ := exists_rest rs l
  exact hrest.subset (List.mem_append_left _ h)

theorem nodup_sample (h : l.Nodup) : (sample rs l).Nodup := by
  obtain ⟨rest, hrest⟩ := exists_rest rs l
  exact (List.nodup_append.mp (hrest.nodup_iff.mpr h)).1

/-- With enough numbers everything is drawn. -/
theorem sample_perm (h : l.length ≤ rs.length) : (sample rs l).Perm l := by
  obtain ⟨rest, hrest⟩ := exists_rest rs l
  have hlength := hrest.length_eq
  rw [List.length_append, length_sample, Nat.min_eq_right h] at hlength
  have hnone : rest = [] := List.length_eq_zero_iff.mp (by omega)
  rwa [hnone, List.append_nil] at hrest

/-! ### Residues -/

/-- The numbers select among `n` elements, then among one less, and so on. -/
def IsResidues (n : Nat) (rs : List Nat) : Prop :=
  ∀ (i r : Nat), rs[i]? = some r → r < n - i

theorem isResidues_cons : IsResidues n (r :: rs) ↔ r < n ∧ IsResidues (n - 1) rs := by
  constructor
  · intro h
    refine ⟨h 0 r rfl, fun i r' hr' => ?_⟩
    have hlt := h (i + 1) r' hr'
    omega
  · rintro ⟨hr, hrs⟩ i r' hr'
    cases i with
    | zero =>
      rw [List.getElem?_cons_zero, Option.some.injEq] at hr'
      omega
    | succ i =>
      have hlt := hrs i r' hr'
      omega

/-- The residues that draw from `n` elements what the numbers draw. -/
def residues : Nat → List Nat → List Nat
  | 0, _ => []
  | _ + 1, [] => []
  | n + 1, r :: rs => r % (n + 1) :: residues n rs

theorem length_residues : (residues n rs).length = min rs.length n := by
  induction n generalizing rs with
  | zero => simp [residues]
  | succ n ih =>
    cases rs with
    | nil => simp [residues]
    | cons r rs =>
      rw [residues, List.length_cons, ih, List.length_cons]
      omega

theorem isResidues_residues : IsResidues n (residues n rs) := by
  induction n generalizing rs with
  | zero => exact nofun
  | succ n ih =>
    cases rs with
    | nil => exact nofun
    | cons r rs =>
      rw [residues, isResidues_cons]
      exact ⟨Nat.mod_lt r (Nat.succ_pos n), ih⟩

theorem sample_residues : sample (residues l.length rs) l = sample rs l := by
  induction rs generalizing l with
  | nil => cases h : l.length <;> rfl
  | cons r rs ih =>
    rcases Nat.eq_zero_or_pos l.length with hzero | hpos
    · rw [List.length_eq_zero_iff.mp hzero, sample_nil, sample_nil]
    · have hr : r % l.length < l.length := Nat.mod_lt r hpos
      have hresidues : residues l.length (r :: rs) =
          r % l.length :: residues (swapRemove l (r % l.length)).length rs := by
        rw [length_swapRemove hr]
        obtain ⟨n, hn⟩ := Nat.exists_eq_add_one_of_ne_zero hpos.ne'
        rw [hn]
        rfl
      have hmod : r % l.length % l.length = r % l.length := Nat.mod_mod r l.length
      rw [hresidues, sample_cons (hmod.symm ▸ hr), sample_cons hr]
      simp only [hmod, ih]

/-- Different residues draw differently. -/
theorem sample_injective (hl : l.Nodup) (hrs : IsResidues l.length rs)
    (hrs' : IsResidues l.length rs') (hlength : rs.length = rs'.length)
    (h : sample rs l = sample rs' l) : rs = rs' := by
  induction rs generalizing l rs' with
  | nil => exact (List.length_eq_zero_iff.mp hlength.symm).symm
  | cons r rs ih =>
    cases rs' with
    | nil => cases hlength
    | cons r' rs' =>
      rw [isResidues_cons] at hrs hrs'
      have hr : r % l.length = r := Nat.mod_eq_of_lt hrs.1
      have hr' : r' % l.length = r' := Nat.mod_eq_of_lt hrs'.1
      rw [sample_cons (hr.symm ▸ hrs.1), sample_cons (hr'.symm ▸ hrs'.1), List.cons.injEq] at h
      simp only [hr, hr'] at h
      -- the elements are different, so the first residues are the same
      obtain rfl : r = r' := (List.Nodup.getElem_inj_iff hl).mp h.1
      have hrest := (nodup_map_swapRemove id hrs.1 (by rwa [List.map_id])).2
      rw [List.map_id] at hrest
      rw [← length_swapRemove hrs.1] at hrs hrs'
      rw [ih hrest hrs.2 hrs'.2 (Nat.succ.inj hlength) h.2]

/-- Every selection is drawn. -/
theorem exists_sample (hl : l.Nodup) (hps : ps.Nodup) (hmem : ∀ a ∈ ps, a ∈ l) :
    ∃ rs, rs.length = ps.length ∧ IsResidues l.length rs ∧ sample rs l = ps := by
  induction ps generalizing l with
  | nil => exact ⟨[], rfl, nofun, rfl⟩
  | cons a ps ih =>
    obtain ⟨i, hi, rfl⟩ := List.getElem_of_mem (hmem a List.mem_cons_self)
    have hrest := (nodup_map_swapRemove id hi (by rwa [List.map_id])).2
    rw [List.map_id] at hrest
    rw [List.nodup_cons] at hps
    have hmem' : ∀ b ∈ ps, b ∈ swapRemove l i := by
      intro b hb
      refine (mem_swapRemove_or_eq hi (hmem b (List.mem_cons_of_mem _ hb))).resolve_left ?_
      rintro rfl
      exact hps.1 hb
    obtain ⟨rs, hlength, hrs, hsample⟩ := ih hrest hps.2 hmem'
    rw [length_swapRemove hi] at hrs
    have hmod : i % l.length = i := Nat.mod_eq_of_lt hi
    refine ⟨i :: rs, by rw [List.length_cons, hlength, List.length_cons],
      isResidues_cons.mpr ⟨hi, hrs⟩, ?_⟩
    rw [sample_cons (hmod.symm ▸ hi)]
    simp only [hmod, hsample]

/-- Residues and ordered selections of different elements correspond one to one. -/
theorem bijOn_sample (hl : l.Nodup) (j : Nat) :
    Set.BijOn (fun rs => sample rs l) {rs | rs.length = j ∧ IsResidues l.length rs}
      {ps | ps.length = j ∧ ps.Nodup ∧ ∀ a ∈ ps, a ∈ l} := by
  refine ⟨?_, ?_, ?_⟩
  · rintro rs ⟨hlength, hrs⟩
    refine ⟨?_, nodup_sample hl, fun a => sample_subset⟩
    have hle : rs.length ≤ l.length := by
      by_contra hlong
      have hlast := hrs (rs.length - 1) _ (List.getElem?_eq_getElem (by omega))
      omega
    rw [length_sample, Nat.min_eq_left hle, hlength]
  · rintro rs ⟨hlength, hrs⟩ rs' ⟨hlength', hrs'⟩ h
    exact sample_injective hl hrs hrs' (hlength.trans hlength'.symm) h
  · rintro ps ⟨hlength, hps, hmem⟩
    obtain ⟨rs, hlength', hrs, hsample⟩ := exists_sample hl hps hmem
    exact ⟨rs, ⟨hlength'.trans hlength, hrs⟩, hsample⟩

end Sampling
