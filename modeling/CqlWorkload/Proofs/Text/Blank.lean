import CqlWorkload.Text.Blank
import CqlWorkload.Text.Utf8

/-!
# Texts that trimming and reading keep

A text with no blank at its ends is trimmed to itself, and a text without
carriage returns is read from a file as it was written.

**Characters that are no blanks.** They are kept by the words of a text and by setting
one space for every run of blanks.
-/

namespace CqlWorkload

namespace Text

theorem dropEndWhile_append_singleton {p : Char → Bool} {c : Char} (h : p c = false)
    (cs : List Char) : dropEndWhile p (cs ++ [c]) = cs ++ [c] := by
  simp [dropEndWhile, h]

theorem trimWhile_cons_append_singleton {p : Char → Bool} {first last : Char}
    (hf : p first = false) (hl : p last = false) (cs : List Char) :
    trimWhile p (first :: (cs ++ [last])) = first :: (cs ++ [last]) := by
  rw [trimWhile, List.dropWhile_cons_of_neg (by simp [hf])]
  exact dropEndWhile_append_singleton hl (first :: cs)

/-- A text without blanks. -/
def IsBlankFree (s : String) : Prop := ∀ c ∈ s.toList, isBlank c = false

-- The list is named, since a search through all characters would decide this too.
instance (s : String) : Decidable (IsBlankFree s) :=
  List.decidableBAll (fun c => isBlank c = false) s.toList

/-- The words of a text hold its characters that are no blanks. -/
theorem flatten_wordsOf (cs : List Char) : (wordsOf cs).flatten = cs.filter (!isBlank ·) := by
  fun_induction wordsOf cs with
  | case1 => rfl
  | case2 c rest hc ih => simp [ih, hc]
  | case3 c next rest word words hword hblank hnext ih => simp_all
  | case4 c next rest word words hword hblank hnext ih => simp_all
  | case5 c rest hc hnone ih => simp_all

theorem filter_intercalate {p : Char → Bool} {sep : List Char} (h : ∀ c ∈ sep, p c = false)
    (words : List (List Char)) :
    (sep.intercalate words).filter p = words.flatten.filter p := by
  have hsep : sep.filter p = [] := by simpa [List.filter_eq_nil_iff] using h
  induction words with
  | nil => rfl
  | cons word rest ih =>
      cases rest with
      | nil => simp
      | cons next rest =>
          rw [List.intercalate_cons_cons, List.filter_append, List.filter_append, hsep, ih,
            List.append_nil, ← List.filter_append, ← List.flatten_cons]

theorem mem_withoutBlanks {s : String} {c : Char} :
    c ∈ (withoutBlanks s).toList ↔ c ∈ s.toList ∧ isBlank c = false := by
  simp [withoutBlanks]

theorem withoutBlanks_eq_self {s : String} (h : IsBlankFree s) : withoutBlanks s = s := by
  have hkept : s.toList.filter (!isBlank ·) = s.toList :=
    List.filter_eq_self.mpr fun c hc => by simp [h c hc]
  rw [withoutBlanks, hkept, String.ofList_toList]

theorem withoutBlanks_append (s t : String) :
    withoutBlanks (s ++ t) = withoutBlanks s ++ withoutBlanks t := by
  rw [withoutBlanks, String.toList_append, List.filter_append, String.ofList_append]
  rfl

/-- Setting one space for every run of blanks keeps everything that is no blank. -/
theorem withoutBlanks_normalize (s : String) : withoutBlanks (normalize s) = withoutBlanks s := by
  rw [withoutBlanks, normalize, String.toList_ofList, 
    filter_intercalate (List.forall_mem_singleton.mpr rfl), flatten_wordsOf, List.filter_filter]
  simp [withoutBlanks]

/-- The only blank in a text with one space for every run of blanks is the space. -/
theorem eq_space_of_mem_normalize {s : String} {c : Char} (h : c ∈ (normalize s).toList)
    (hc : isBlank c = true) : c = ' ' := by
  refine Decidable.byContradiction fun hne => ?_
  have hsep : ∀ d ∈ [' '], (d == c) = false :=
    List.forall_mem_singleton.mpr (beq_false_of_ne (Ne.symm hne))
  rw [normalize, String.toList_ofList] at h
  have hkept : c ∈ ([' '].intercalate (wordsOf s.toList)).filter (· == c) :=
    List.mem_filter.mpr ⟨h, beq_self_eq_true c⟩
  rw [filter_intercalate hsep, flatten_wordsOf] at hkept
  simp [hc] at hkept

end Text

namespace Utf8

theorem unifyBreaks_of_not_mem {cs : List Char} (h : '\r' ∉ cs) : unifyBreaks cs = cs := by
  induction cs with
  | nil => rfl
  | cons c rest ih =>
      simp only [List.mem_cons, not_or] at h
      rw [unifyBreaks, ih h.2]
      · rintro others rfl
        exact absurd rfl h.1
      · rintro rfl
        exact absurd rfl h.1

end Utf8

theorem Content.read_text {s : String} (h : '\r' ∉ s.toList) : Content.read (.text s) = .ok s := by
  rw [Content.read, Utf8.unifyBreaks_of_not_mem h, String.ofList_toList]

end CqlWorkload
