import CqlWorkload.Text.Blank
import Mathlib.Data.List.Infix
import Mathlib.Tactic.Basic

/-!
# Words and doubled separators

A word neither begins nor ends with its separator and has no two of them in a
row.  So the first doubled separator of a text tells where its first word ends,
and words joined by doubled separators are told apart (`joinWith_inj`).
-/

namespace CqlWorkload.Text

/-- A text that is not empty, has no two separators in a row and none at its ends. -/
structure IsWord (sep : Char) (s : String) : Prop where
  nonempty : s ≠ ""
  single : ¬[sep, sep] <:+: s.toList
  first : s.toList.head? ≠ some sep
  last : s.toList.getLast? ≠ some sep

instance (sep : Char) (s : String) : Decidable (IsWord sep s) :=
  decidable_of_iff (s ≠ "" ∧ ¬[sep, sep] <:+: s.toList ∧ s.toList.head? ≠ some sep ∧
      s.toList.getLast? ≠ some sep)
    ⟨fun h => ⟨h.1, h.2.1, h.2.2.1, h.2.2.2⟩, fun h => ⟨h.1, h.2, h.3, h.4⟩⟩

section Words

variable {sep : Char} {double : String} {a b : String}

/-- A text without separators is a word. -/
theorem isWord_of_not_mem (hne : a ≠ "") (h : sep ∉ a.toList) : IsWord sep a where
  nonempty := hne
  single := fun hi => h (hi.subset (List.mem_cons_self ..))
  first := fun hf => h (List.mem_of_mem_head? hf)
  last := fun hl => h (List.mem_of_getLast? hl)

/-- No word has a doubled separator in it. -/
theorem IsWord.ne_append (hd : double.toList = [sep, sep]) (h : IsWord sep a) (b rest : String) :
    a ≠ b ++ double ++ rest := by
  rintro rfl
  refine h.single ⟨b.toList, rest.toList, ?_⟩
  rw [String.toList_append, String.toList_append, hd]

/-- A word that goes on behind another one up to a doubled separator goes on by nothing. -/
theorem IsWord.eq_nil_of_append {ext rest rest' : List Char} (h : IsWord sep b)
    (hb : b.toList = a.toList ++ ext)
    (hrest : sep :: sep :: rest = ext ++ sep :: sep :: rest') : ext = [] := by
  match ext with
  | [] => rfl
  | [x] =>
      obtain ⟨rfl, -⟩ := List.cons.inj hrest
      exact absurd (by rw [hb, List.getLast?_concat]) h.last
  | x :: y :: more =>
      obtain ⟨hx, hrest⟩ := List.cons.inj hrest
      obtain ⟨hy, -⟩ := List.cons.inj hrest
      exact absurd ⟨a.toList, more, by simp [hb, ← hx, ← hy]⟩ h.single

/-- **The first doubled separator ends the first word.** -/
theorem IsWord.append_inj (hd : double.toList = [sep, sep]) (ha : IsWord sep a)
    (hb : IsWord sep b) {rest rest' : String} (h : a ++ double ++ rest = b ++ double ++ rest') :
    a = b ∧ rest = rest' := by
  have hlist : a.toList ++ sep :: sep :: rest.toList = b.toList ++ sep :: sep :: rest'.toList := by
    have hl := congrArg String.toList h
    simpa [String.toList_append, hd] using hl
  have hab : a.toList = b.toList := by
    rcases List.append_eq_append_iff.mp hlist with ⟨ext, hext, hrest⟩ | ⟨ext, hext, hrest⟩
    · rw [hb.eq_nil_of_append hext hrest, List.append_nil] at hext
      exact hext.symm
    · rw [ha.eq_nil_of_append hext hrest, List.append_nil] at hext
      exact hext
  rw [hab, List.append_cancel_left_eq] at hlist
  obtain ⟨-, hlist⟩ := List.cons.inj hlist
  obtain ⟨-, hlist⟩ := List.cons.inj hlist
  exact ⟨String.toList_inj.mp hab, String.toList_inj.mp hlist⟩

theorem joinWith_cons_cons (double a b : String) (rest : List String) :
    joinWith double (a :: b :: rest) = a ++ double ++ joinWith double (b :: rest) :=
  rfl

theorem joinWith_ne_empty {words : List String} (h : words ≠ [])
    (hne : ∀ word, word ∈ words → word ≠ "") : joinWith double words ≠ "" := by
  cases words with
  | nil => exact absurd rfl h
  | cons a rest =>
      have ha := hne a (List.mem_cons_self ..)
      cases rest with
      | nil => exact ha
      | cons b more =>
          intro he
          rw [joinWith_cons_cons, String.append_eq_empty_iff, String.append_eq_empty_iff] at he
          exact ha he.1.1

/-- **Words joined by doubled separators are told apart.** -/
theorem joinWith_inj (hd : double.toList = [sep, sep]) {first second : List String}
    (hf : ∀ word, word ∈ first → IsWord sep word) (hs : ∀ word, word ∈ second → IsWord sep word)
    (h : joinWith double first = joinWith double second) : first = second := by
  have hempty : ∀ {words : List String}, (∀ word, word ∈ words → IsWord sep word) →
      joinWith double words = "" → words = [] := by
    intro words hw he
    by_contra hne
    exact joinWith_ne_empty hne (fun word hm => (hw word hm).nonempty) he
  induction first generalizing second with
  | nil => exact (hempty hs h.symm).symm
  | cons a rest ih =>
      cases second with
      | nil => exact hempty hf h
      | cons b others =>
          have ha := hf a (List.mem_cons_self ..)
          have hb := hs b (List.mem_cons_self ..)
          -- Both texts end with their first words, or both go on behind a separator.
          match rest, others with
          | [], [] => exact congrArg (fun word => [word]) h
          | [], d :: more => exact absurd h (ha.ne_append hd b _)
          | c :: more, [] => exact absurd h.symm (hb.ne_append hd a _)
          | c :: more, d :: others =>
              rw [joinWith_cons_cons, joinWith_cons_cons] at h
              obtain ⟨rfl, hrest⟩ := ha.append_inj hd hb h
              rw [ih (fun word hm => hf word (List.mem_cons_of_mem _ hm))
                (fun word hm => hs word (List.mem_cons_of_mem _ hm)) hrest]

theorem mem_toList_joinWith {c : Char} {words : List String}
    (h : c ∈ (joinWith double words).toList) :
    c ∈ double.toList ∨ ∃ word, word ∈ words ∧ c ∈ word.toList := by
  induction words with
  | nil => simp [joinWith] at h
  | cons word rest ih =>
      cases rest with
      | nil => exact Or.inr ⟨word, List.mem_cons_self .., h⟩
      | cons other more =>
          rw [joinWith_cons_cons, String.toList_append, String.toList_append, List.mem_append,
            List.mem_append] at h
          rcases h with (h | h) | h
          · exact Or.inr ⟨word, List.mem_cons_self .., h⟩
          · exact Or.inl h
          · rcases ih h with hd | ⟨found, hm, hc⟩
            · exact Or.inl hd
            · exact Or.inr ⟨found, List.mem_cons_of_mem _ hm, hc⟩

end Words

/-! ## Identifiers and names of blocks -/

/-- A word of letters, digits and underscores, by underscores. -/
structure IsIdentifier (s : String) : Prop extends IsWord '_' s where
  chars : ∀ c, c ∈ s.toList → c.isAlphanum = true ∨ c = '_'

instance (s : String) : Decidable (IsIdentifier s) :=
  decidable_of_iff (IsWord '_' s ∧ s.toList.all (fun c => c.isAlphanum || c == '_') = true)
    ⟨fun h => ⟨h.1, by simpa using h.2⟩, fun h => ⟨h.1, by simpa using h.2⟩⟩

/-- A word of letters, digits, underscores and hyphens, by hyphens. -/
structure IsBlockName (s : String) : Prop extends IsWord '-' s where
  chars : ∀ c, c ∈ s.toList → c.isAlphanum = true ∨ c = '_' ∨ c = '-'

instance (s : String) : Decidable (IsBlockName s) :=
  decidable_of_iff
    (IsWord '-' s ∧ s.toList.all (fun c => c.isAlphanum || c == '_' || c == '-') = true)
    ⟨fun h => ⟨h.1, by simpa [or_assoc] using h.2⟩, fun h => ⟨h.1, by simpa [or_assoc] using h.2⟩⟩

/-- Identifiers have no hyphens. -/
theorem IsIdentifier.not_mem_hyphen {s : String} (h : IsIdentifier s) : '-' ∉ s.toList := by
  intro hm
  rcases h.chars '-' hm with hn | hn
  · exact absurd hn (by decide)
  · exact absurd hn (by decide)

theorem IsIdentifier.isWord_hyphen {s : String} (h : IsIdentifier s) : IsWord '-' s :=
  isWord_of_not_mem h.nonempty h.not_mem_hyphen

/-- Nor has a path of identifiers. -/
theorem isWord_joinWith {words : List String} (hne : words ≠ [])
    (h : ∀ word, word ∈ words → IsIdentifier word) : IsWord '-' (joinWith "__" words) := by
  refine isWord_of_not_mem ?_ fun hm => ?_
  · exact joinWith_ne_empty hne fun word hm => (h word hm).nonempty
  · rcases mem_toList_joinWith hm with hd | ⟨word, hw, hc⟩
    · exact absurd hd (by decide)
    · exact (h word hw).not_mem_hyphen hc

end CqlWorkload.Text
