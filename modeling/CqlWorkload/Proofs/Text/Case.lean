import CqlWorkload.Pattern.Basic
import CqlWorkload.Text.Blank
import CqlWorkload.Text.Case
import Mathlib.Tactic.Basic

/-!
# Letters without case

What ignoring case makes of a character: every character is like itself, ASCII
characters are alike when their lower case is the same, and a blank is like blanks
only.

**Lower case.** Of a text of ASCII characters every letter is lowered on its own,
which changes nothing when it is done again.
-/

namespace CqlWorkload

namespace Text

/-! ## Lower case of ASCII characters -/

/-- A text of ASCII characters. -/
def IsAscii (cs : List Char) : Prop := ∀ c ∈ cs, c.toNat < 0x80

/-- A text of ASCII characters that are their own lower case. -/
def IsLower (cs : List Char) : Prop := ∀ c ∈ cs, c.toNat < 0x80 ∧ c.toLower = c

instance (cs : List Char) : Decidable (IsAscii cs) :=
  List.decidableBAll (fun c : Char => c.toNat < 0x80) cs

instance (cs : List Char) : Decidable (IsLower cs) :=
  List.decidableBAll (fun c : Char => c.toNat < 0x80 ∧ c.toLower = c) cs

/-- What holds of the 128 ASCII characters by inspection holds of each of them. -/
theorem forall_ascii {P : Char → Prop} (h : ∀ n < 0x80, P (Char.ofNat n)) {c : Char}
    (hc : c.toNat < 0x80) : P c := by
  simpa using h c.toNat hc

theorem toLower_toNat_lt {c : Char} (h : c.toNat < 0x80) : c.toLower.toNat < 0x80 :=
  forall_ascii (P := fun c => c.toLower.toNat < 0x80) (by decide +kernel) h

theorem toLower_toLower {c : Char} (h : c.toNat < 0x80) : c.toLower.toLower = c.toLower :=
  forall_ascii (P := fun c => c.toLower.toLower = c.toLower) (by decide +kernel) h

theorem IsAscii.isLower_map {cs : List Char} (h : IsAscii cs) :
    IsLower (cs.map Char.toLower) := by
  intro d hd
  obtain ⟨c, hc, rfl⟩ := List.mem_map.mp hd
  exact ⟨toLower_toNat_lt (h c hc), toLower_toLower (h c hc)⟩

theorem IsLower.map_toLower {cs : List Char} (h : IsLower cs) : cs.map Char.toLower = cs :=
  (List.map_congr_left fun c hc => (h c hc).2).trans (List.map_id cs)

theorem toLower_of_not_ascii {c : Char} (h : ¬c.toNat < 0x80) : c.toLower = c := by
  have hupper : ¬(c.val ≥ 'A'.val ∧ c.val ≤ 'Z'.val) := by
    rintro ⟨-, hle⟩
    exact h (Nat.lt_of_le_of_lt (UInt32.le_iff_toNat_le.mp hle) (by decide))
  exact dif_neg hupper

/-- A mark is the lower case of itself only. -/
theorem toLower_eq_mark_iff {mark : Char} (hm : mark ∈ ['<', '>', ',', ':', '+', '-']) (c : Char) :
    c.toLower = mark ↔ c = mark := by
  by_cases h : c.toNat < 0x80
  · have hmarks := forall_ascii (P := fun c => (['<', '>', ',', ':', '+', '-'].all fun mark =>
      decide (c.toLower = mark ↔ c = mark)) = true) (by decide +kernel) h
    exact of_decide_eq_true (List.all_eq_true.mp hmarks mark hm)
  · rw [toLower_of_not_ascii h]

theorem lower_eq_toLower {c : Char} (h : c.toNat < 0x80) : lower c = c.toLower := if_pos h

theorem lowerAfter_eq_map {cs : List Char} (h : IsAscii cs) (before : List Char) :
    lowerAfter before cs = cs.map Char.toLower := by
  induction cs generalizing before with
  | nil => rfl
  | cons c rest ih =>
      obtain ⟨hc, hrest⟩ := List.forall_mem_cons.mp h
      have hsigma : c ≠ 'Σ' := by
        rintro rfl
        exact absurd hc (by decide)
      have hdotted : c.toNat ≠ 0x130 := by omega
      simp [lowerAfter, hsigma, hdotted, lower_eq_toLower hc, ih hrest]

theorem toList_lowerText {s : String} (h : IsAscii s.toList) :
    (lowerText s).toList = s.toList.map Char.toLower := by
  rw [lowerText, String.toList_ofList, lowerAfter_eq_map h]

/-! ## Blanks -/

theorem isBlank_eq_false_iff (c : Char) :
    isBlank c = false ↔ ∀ range ∈ blankRanges, c.toNat < range.1 ∨ range.2 < c.toNat := by
  simp only [isBlank, inRanges, List.any_eq_false, Bool.and_eq_true, decide_eq_true_eq]
  exact forall₂_congr fun range _ => by omega

/-- Neither the letters that have a lower case nor their lower cases are blanks. -/
theorem lowerRuns_solid : ∀ run ∈ lowerRuns, ∀ range ∈ blankRanges,
    (run.last < range.1 ∨ range.2 < run.first) ∧
      (((run.last : Int) + run.shift).toNat < range.1 ∨
        range.2 < ((run.first : Int) + run.shift).toNat) := by
  decide +kernel

/-- No lower-case letter is a blank, and no letter that has one. -/
theorem isBlank_of_image? {c : Char} {code : Nat}
    (h : CaseRun.image? lowerRuns c.toNat = some code) :
    isBlank c = false ∧ isBlank (Char.ofNat code) = false := by
  obtain ⟨run, hrun, hcode⟩ := Option.map_eq_some_iff.mp h
  have hmem := List.mem_of_find?_eq_some hrun
  have hholds := List.find?_some hrun
  simp only [CaseRun.holds, Bool.and_eq_true, decide_eq_true_eq] at hholds
  rw [isBlank_eq_false_iff, isBlank_eq_false_iff]
  constructor
  · intro range hrange
    have hsolid := (lowerRuns_solid run hmem range hrange).1
    omega
  · intro range hrange
    have hsolid := (lowerRuns_solid run hmem range hrange).2
    have hpos : ∀ range ∈ blankRanges, 0 < range.1 := by decide
    have hnumber : (Char.ofNat code).toNat = code ∨ (Char.ofNat code).toNat = 0 := by
      by_cases hvalid : code.isValidChar
      · exact .inl (congrArg Char.toNat (dif_pos hvalid))
      · exact .inr (congrArg Char.toNat (dif_neg hvalid))
    rcases hnumber with heq | heq
    · omega
    · exact .inl (heq ▸ hpos range hrange)

/-- Lower case makes no blank and takes none away. -/
theorem isBlank_lower (c : Char) : isBlank (lower c) = isBlank c := by
  by_cases hascii : c.toNat < 0x80
  · rw [lower_eq_toLower hascii]
    exact forall_ascii (P := fun c => isBlank c.toLower = isBlank c) (by decide +kernel) hascii
  · rw [lower, if_neg hascii]
    split
    next hdotted =>
      have hc : isBlank c = false := by
        rw [isBlank_eq_false_iff, hdotted]
        decide
      rw [hc]
      decide
    next =>
      cases himage : CaseRun.image? lowerRuns c.toNat with
      | none => rfl
      | some code =>
          obtain ⟨hc, hcode⟩ := isBlank_of_image? himage
          exact hcode.trans hc.symm

end Text

namespace Pattern

open Text

theorem isLike_of_lower_eq {p c : Char} (h : lower c = lower p) : isLike p c = true := by
  rw [isLike, likeLower, h]
  cases hfind : likeGroups.find? (·.contains (lower p).toNat) with
  | none => exact List.contains_iff_mem.mpr (List.mem_singleton.mpr rfl)
  | some group => exact List.find?_some (p := fun g : List Nat => g.contains _) hfind

/-- Alike characters have the same lower case or belong to one group. -/
theorem lower_eq_or_of_isLike {p c : Char} (h : isLike p c = true) : lower c = lower p ∨
    ∃ group ∈ likeGroups, (lower p).toNat ∈ group ∧ (lower c).toNat ∈ group := by
  rw [isLike, likeLower, List.contains_iff_mem] at h
  cases hfind : likeGroups.find? (·.contains (lower p).toNat) with
  | none =>
      rw [hfind] at h
      exact Or.inl (Char.toNat_inj.mp (List.mem_singleton.mp h))
  | some group =>
      rw [hfind] at h
      have hp := List.find?_some (p := fun g : List Nat => g.contains _) hfind
      exact Or.inr ⟨group, List.mem_of_find?_eq_some hfind, List.contains_iff_mem.mp hp, h⟩

/-- Every character is like itself. -/
theorem isLike_self (c : Char) : isLike c c = true := isLike_of_lower_eq rfl

/-- No group of alike letters has two ASCII characters. -/
theorem likeGroups_ascii : ∀ group ∈ likeGroups, ∀ a ∈ group, ∀ b ∈ group,
    a < 0x80 → b < 0x80 → a = b := by
  decide +kernel

theorem likeGroups_solid : ∀ group ∈ likeGroups, ∀ code ∈ group,
    ∀ range ∈ blankRanges, code < range.1 ∨ range.2 < code := by
  decide +kernel

/-- ASCII characters are alike when their lower case is the same. -/
theorem isLike_iff_of_ascii {p c : Char} (hp : p.toNat < 0x80) (hc : c.toNat < 0x80) :
    isLike p c = true ↔ c.toLower = p.toLower := by
  constructor
  · intro h
    rcases lower_eq_or_of_isLike h with heq | ⟨group, hgroup, hpin, hcin⟩
    · rwa [lower_eq_toLower hp, lower_eq_toLower hc] at heq
    · rw [lower_eq_toLower hp] at hpin
      rw [lower_eq_toLower hc] at hcin
      exact Char.toNat_inj.mp
        (likeGroups_ascii group hgroup _ hcin _ hpin (toLower_toNat_lt hc) (toLower_toNat_lt hp))
  · intro h
    exact isLike_of_lower_eq (by rwa [lower_eq_toLower hp, lower_eq_toLower hc])

theorem isLike_toLower (p : Char) {c : Char} (hc : c.toNat < 0x80) :
    isLike p c.toLower = isLike p c := by
  rw [isLike, isLike, lower_eq_toLower (toLower_toNat_lt hc), lower_eq_toLower hc,
    toLower_toLower hc]

/-- A blank is like blanks only. -/
theorem isBlank_eq_of_isLike {p c : Char} (h : isLike p c = true) : isBlank p = isBlank c := by
  rw [← isBlank_lower p, ← isBlank_lower c]
  rcases lower_eq_or_of_isLike h with heq | ⟨group, hgroup, hp, hc⟩
  · rw [heq]
  · have hsolid := likeGroups_solid group hgroup
    rw [(isBlank_eq_false_iff _).mpr (hsolid _ hp), (isBlank_eq_false_iff _).mpr (hsolid _ hc)]

end Pattern
end CqlWorkload
