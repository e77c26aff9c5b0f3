import Redeemy.Proof.Names

/-!
# Which names are refused, and why

A new name is compared without its outer spaces, and the names that are recorded have none. But the
public query looks its argument up as it is, and a name of spaces only makes `trim` fail.
-/

namespace Redeemy

open Fallible EnumerableSet Strip StringUtils

variable {F : Type → Type}
variable {w : World F} {x : Books F} {name trimmed str : Bytes} {call : Call}
variable {registry : RewardPoolRegistryV1}
variable {P : World F → Call → Prop} {cfg : CallStack.Config (World F) Call}

/-! ### Recorded names have no outer spaces -/

theorem stripped_of_trim (h : trim str = .ok trimmed) : stripped trimmed = trimmed := by
  obtain ⟨_, rfl⟩ := trim_eq_ok_iff.mp h
  exact (bare_strip (p := isSpace) (l := str)).strip_eq

def RecordsStripped (x : Books F) : Prop :=
  ∀ name, x.registry.usedRewardPoolNames name ≠ 0 → stripped name = name

theorem RecordsStripped.update {x' : Books F} {p : Address} (hx : RecordsStripped x)
    (hname : stripped name = name)
    (hused : x'.registry.usedRewardPoolNames = Function.update x.registry.usedRewardPoolNames name p) :
    RecordsStripped x' := by
  intro other hother
  rw [hused] at hother
  by_cases heq : other = name
  · exact heq ▸ hname
  · rw [Function.update_of_ne heq] at hother
    exact hx other hother

variable [EnumerableSet F]

theorem recordsStripped_rule : BooksRule P (Sane : World F → Prop) RecordsStripped where
  initial := fun w hw name hused => absurd (hw.usedRewardPoolNames name) hused
  entry := fun w call x _ hI _ _ h => by
    cases h.nameStep with
    | same hused =>
      unfold RecordsStripped
      rwa [hused]
    | rename pool rewardPoolName name _ _ hvalid hused =>
      exact hI.update (stripped_of_trim (validateName_eq_ok hvalid).1) hused
  registration := fun w call x _ hI _ h => by
    obtain ⟨a, name, hnew⟩ := h.names
    obtain ⟨_, _, _, htrim, _⟩ := hnew.trim
    exact hI.update (stripped_of_trim htrim) hnew.used

/-! ### The check -/

/-- The check of a name fails for the reasons it should fail for, in this order: the name is empty or
too long without its outer spaces, or the public query says that it is taken. -/
structure RejectsRightly (registry : RewardPoolRegistryV1) (str : Bytes) : Prop where
  invalidName : registry.validateName str = .error .InvalidName ↔
    stripped str = [] ∨ MAX_NAME_LENGTH < (stripped str).length
  nameAlreadyExists : stripped str ≠ [] → (stripped str).length ≤ MAX_NAME_LENGTH →
    (registry.validateName str = .error .NameAlreadyExists ↔ registry.rewardPoolNameExists str = true)
  accepts : stripped str ≠ [] → (stripped str).length ≤ MAX_NAME_LENGTH →
    registry.rewardPoolNameExists str = false → registry.validateName str = .ok (stripped str)
  noOther : ∀ e, registry.validateName str = .error e → e = .InvalidName ∨ e = .NameAlreadyExists

theorem validateName_spaces (hne : str ≠ []) (hall : ∀ c ∈ str, c = SPACE) :
    registry.validateName str = .error (.panic 0x11) := by
  rw [RewardPoolRegistryV1.validateName, trim_spaces hne fun c hc => isSpace_iff.mpr (hall c hc)]
  rfl

/-- What the check does with a string that can be trimmed. -/
theorem validateName_eq (hstr : str = [] ∨ ∃ c ∈ str, c ≠ SPACE) : registry.validateName str =
    if stripped str = [] ∨ MAX_NAME_LENGTH < (stripped str).length then .error .InvalidName
    else if registry.rewardPoolNameExists (stripped str) = true then .error .NameAlreadyExists
    else .ok (stripped str) := by
  rw [RewardPoolRegistryV1.validateName, trim_eq_ok_iff.mpr ⟨hstr, rfl⟩, ok_bind, require]
  simp only [List.length_eq_zero_iff, gt_iff_lt, ite_not]
  split_ifs with hlen hexists
  · rfl
  · rw [ok_bind, hexists]
    rfl
  · rw [ok_bind, require_of (Bool.eq_false_iff.mpr hexists)]
    rfl

/-- The public query only finds names without outer spaces. -/
theorem rewardPoolNameExists_eq_false (hrecords : ∀ name, registry.usedRewardPoolNames name ≠ 0 →
    stripped name = name) (hne : stripped str ≠ str) : registry.rewardPoolNameExists str = false := by
  rw [RewardPoolRegistryV1.rewardPoolNameExists, bne_eq_false_iff_eq]
  by_contra hused
  exact hne (hrecords str hused)

/-- Where the public query answers for the trimmed name, the check is right. -/
theorem rejectsRightly_of (hstr : str = [] ∨ ∃ c ∈ str, c ≠ SPACE)
    (hquery : (stripped str).length ≤ MAX_NAME_LENGTH →
      registry.rewardPoolNameExists str = registry.rewardPoolNameExists (stripped str)) :
    RejectsRightly registry str := by
  have hvalid : registry.validateName str = _ := validateName_eq hstr
  by_cases hlen : stripped str = [] ∨ MAX_NAME_LENGTH < (stripped str).length
  · rw [if_pos hlen] at hvalid
    constructor
    · exact ⟨fun _ => hlen, fun _ => hvalid⟩
    · intro hne hfits
      exact absurd hlen (not_or.mpr ⟨hne, Nat.not_lt.mpr hfits⟩)
    · intro hne hfits
      exact absurd hlen (not_or.mpr ⟨hne, Nat.not_lt.mpr hfits⟩)
    · intro e he
      rw [hvalid, Except.error.injEq] at he
      exact .inl he.symm
  · rw [if_neg hlen, ← hquery (Nat.not_lt.mp (not_or.mp hlen).2)] at hvalid
    by_cases hexists : registry.rewardPoolNameExists str = true
    · rw [if_pos hexists] at hvalid
      constructor
      · rw [hvalid]
        exact ⟨nofun, fun h => absurd h hlen⟩
      · exact fun _ _ => ⟨fun _ => hexists, fun _ => hvalid⟩
      · intro _ _ hfree
        rw [hexists] at hfree
        cases hfree
      · intro e he
        rw [hvalid, Except.error.injEq] at he
        exact .inr he.symm
    · rw [if_neg hexists] at hvalid
      constructor
      · rw [hvalid]
        exact ⟨nofun, fun h => absurd h hlen⟩
      · intro _ _
        rw [hvalid]
        exact ⟨nofun, fun h => absurd h hexists⟩
      · exact fun _ _ _ => hvalid
      · intro e he
        rw [hvalid] at he
        cases he

/-- The check of a name is right if, and only if, the name is not made of spaces only, and is not a name
that is taken with spaces around it. -/
theorem validateName_rejects_rightly_iff (h : World.Run P cfg) (str : Bytes) :
    RejectsRightly cfg.state.registry str ↔
      (str = [] ∨ ∃ c ∈ str, c ≠ SPACE) ∧
      (stripped str = str ∨ MAX_NAME_LENGTH < (stripped str).length ∨
        cfg.state.registry.rewardPoolNameExists (stripped str) = false) := by
  have hrecords : ∀ name, cfg.state.registry.usedRewardPoolNames name ≠ 0 → stripped name = name :=
    ((kept_sane.booksRule (fun _ => id) recordsStripped_rule).run h).2
  constructor
  · intro hright
    have hstr : str = [] ∨ ∃ c ∈ str, c ≠ SPACE := by
      by_contra! hspaces
      rcases hright.noOther _ (validateName_spaces hspaces.1 hspaces.2) with h | h <;> cases h
    refine ⟨hstr, ?_⟩
    by_contra! hpadded
    obtain ⟨hne, hfits, hexists⟩ := hpadded
    have hnonempty : stripped str ≠ [] := by
      rcases hstr with rfl | hstr
      · exact absurd rfl hne
      · exact stripped_ne_nil hstr
    -- the public query does not find the padded name, but the check finds the trimmed one
    have haccepted := hright.accepts hnonempty hfits (rewardPoolNameExists_eq_false hrecords hne)
    rw [validateName_eq hstr, if_neg (not_or.mpr ⟨hnonempty, Nat.not_lt.mpr hfits⟩),
      if_pos (Bool.eq_true_of_not_eq_false hexists)] at haccepted
    cases haccepted
  · rintro ⟨hstr, hpadded⟩
    refine rejectsRightly_of hstr fun hfits => ?_
    by_cases hne : stripped str = str
    · rw [hne]
    · rw [rewardPoolNameExists_eq_false hrecords hne]
      rcases hpadded with heq | hlong | hfree
      · exact absurd heq hne
      · omega
      · exact hfree.symm

/-- A registry that knows the name "A". -/
def named : CallStack.Config (World ListSet) Call :=
  World.after (fun _ _ => True) [World.opening .CustomERC20]

theorem validateName_rejects_rightly_iff_named :
    RejectsRightly named.state.registry [0x20, 0x42] ∧ RejectsRightly named.state.registry [0x41] :=
  ⟨(validateName_rejects_rightly_iff (World.run_after (fun _ _ => True) _) _).mpr
      ⟨.inr ⟨0x42, by decide, by decide⟩, .inr (.inr (by decide))⟩,
    (validateName_rejects_rightly_iff (World.run_after (fun _ _ => True) _) _).mpr
      ⟨.inr ⟨0x41, by decide, by decide⟩, .inl (by decide)⟩⟩

/-- A name of one space is not refused as an invalid name, and the name "A" with a space in front of it
is refused as taken, although the public query does not find it. -/
theorem validateName_rejects_wrongly : World.Run (fun _ _ => True) named ∧
    named.state.registry.validateName [0x20] = .error (.panic 0x11) ∧
    ¬RejectsRightly named.state.registry [0x20] ∧
    named.state.registry.validateName [0x20, 0x41] = .error .NameAlreadyExists ∧
    named.state.registry.rewardPoolNameExists [0x20, 0x41] = false ∧
    ¬RejectsRightly named.state.registry [0x20, 0x41] := by
  have hpanic : named.state.registry.validateName [0x20] = .error (.panic 0x11) :=
    validateName_spaces (by decide) (List.forall_mem_singleton.mpr rfl)
  obtain ⟨htaken, hunknown⟩ :
      named.state.registry.validateName [0x20, 0x41] = .error .NameAlreadyExists ∧
      named.state.registry.rewardPoolNameExists [0x20, 0x41] = false := by
    decide
  refine ⟨World.run_after (fun _ _ => True) _, hpanic, ?_, htaken, hunknown, ?_⟩
  · intro hright
    rcases hright.noOther _ hpanic with h | h <;> cases h
  · intro hright
    have hfound := (hright.nameAlreadyExists (by decide) (by decide)).mp htaken
    rw [hunknown] at hfound
    cases hfound

end Redeemy
