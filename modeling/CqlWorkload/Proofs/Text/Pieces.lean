import CqlWorkload.Text.Blank
import Mathlib.Tactic.Basic

/-!
# Pieces between separators

A text is cut at every separator into pieces that are free of it.  The pieces of a
text, joined again, are the text (`joinWith_splitAt`).
-/

namespace CqlWorkload.Text

/-- A text without the separator is one piece. -/
theorem splitAt_of_not_mem {sep : Char} {cs : List Char} (h : sep ∉ cs) : splitAt sep cs = [cs] := by
  induction cs with
  | nil => rfl
  | cons c rest ih =>
      rw [List.mem_cons, not_or] at h
      rw [splitAt, if_neg (Ne.symm h.1), ih h.2]

/-- The first piece ends at the first separator. -/
theorem splitAt_append_cons {sep : Char} {first : List Char} (h : sep ∉ first) (rest : List Char) :
    splitAt sep (first ++ sep :: rest) = first :: splitAt sep rest := by
  induction first with
  | nil => rw [List.nil_append, splitAt, if_pos rfl]
  | cons c more ih =>
      rw [List.mem_cons, not_or] at h
      rw [List.cons_append, splitAt, if_neg (Ne.symm h.1), ih h.2]

/-- A text is one piece, or a piece, a separator and a text that is shorter. -/
theorem pieces_induction (sep : Char) {motive : List Char → Prop}
    (piece : ∀ cs, sep ∉ cs → motive cs)
    (more : ∀ first rest, sep ∉ first → motive rest → motive (first ++ sep :: rest))
    (cs : List Char) : motive cs := by
  induction h : cs.length using Nat.strongRecOn generalizing cs with
  | ind n ih =>
      by_cases hm : sep ∈ cs
      · obtain ⟨first, rest, rfl, hfirst⟩ := List.eq_append_cons_of_mem hm
        refine more first rest hfirst (ih rest.length ?_ rest rfl)
        rw [← h, List.length_append, List.length_cons]
        omega
      · exact piece cs hm

theorem splitAt_ne_nil (sep : Char) (cs : List Char) : splitAt sep cs ≠ [] := by
  induction cs using pieces_induction sep with
  | piece cs h =>
      rw [splitAt_of_not_mem h]
      exact List.cons_ne_nil _ _
  | more first rest h _ =>
      rw [splitAt_append_cons h]
      exact List.cons_ne_nil _ _

/-- No piece has the separator in it. -/
theorem not_mem_of_mem_splitAt {sep : Char} {cs p : List Char} (h : p ∈ splitAt sep cs) : sep ∉ p := by
  induction cs using pieces_induction sep with
  | piece cs hc =>
      rw [splitAt_of_not_mem hc, List.mem_singleton] at h
      exact h ▸ hc
  | more first rest hf ih =>
      rw [splitAt_append_cons hf, List.mem_cons] at h
      rcases h with rfl | h
      · exact hf
      · exact ih h

/-- Every character is a separator or in a piece. -/
theorem mem_splitAt_of_mem (sep : Char) {c : Char} {cs : List Char} (h : c ∈ cs) :
    c = sep ∨ ∃ p ∈ splitAt sep cs, c ∈ p := by
  induction cs using pieces_induction sep with
  | piece cs hcs => exact Or.inr ⟨cs, by rw [splitAt_of_not_mem hcs, List.mem_singleton], h⟩
  | more first rest hf ih =>
      rw [splitAt_append_cons hf]
      rcases List.mem_append.mp h with h | h
      · exact Or.inr ⟨first, List.mem_cons_self .., h⟩
      · rcases List.mem_cons.mp h with rfl | h
        · exact Or.inl rfl
        · exact (ih h).imp_right fun ⟨p, hp, hc⟩ => ⟨p, List.mem_cons_of_mem _ hp, hc⟩

/-- Characters that are no separators may be dropped or changed before a text is cut. -/
theorem splitAt_filterMap {sep : Char} {f : Char → Option Char}
    (hf : ∀ c, f c = some sep ↔ c = sep) (cs : List Char) :
    splitAt sep (cs.filterMap f) = (splitAt sep cs).map (List.filterMap f) := by
  have hnot {cs : List Char} (h : sep ∉ cs) : sep ∉ cs.filterMap f := by
    intro hm
    obtain ⟨c, hc, hfc⟩ := List.mem_filterMap.mp hm
    exact h ((hf c).mp hfc ▸ hc)
  induction cs using pieces_induction sep with
  | piece cs h => rw [splitAt_of_not_mem h, splitAt_of_not_mem (hnot h), List.map_singleton]
  | more first rest h ih =>
      rw [List.filterMap_append, List.filterMap_cons_some ((hf sep).mpr rfl),
        splitAt_append_cons (hnot h), splitAt_append_cons h, ih, List.map_cons]

/-- What follows the last separator belongs to the last piece. -/
theorem splitAt_append {sep : Char} {rest : List Char} (hrest : sep ∉ rest)
    (cs : List Char) : ∃ before last, splitAt sep cs = before ++ [last] ∧
      splitAt sep (cs ++ rest) = before ++ [last ++ rest] := by
  induction cs using pieces_induction sep with
  | piece cs h =>
      refine ⟨[], cs, splitAt_of_not_mem h, splitAt_of_not_mem ?_⟩
      simpa using ⟨h, hrest⟩
  | more first cs h ih =>
      obtain ⟨before, last, hcs, hboth⟩ := ih
      refine ⟨first :: before, last, ?_, ?_⟩
      · rw [splitAt_append_cons h, hcs, List.cons_append]
      · rw [List.append_assoc, List.cons_append, splitAt_append_cons h, hboth, List.cons_append]

/-- Every separator makes one piece more. -/
theorem length_splitAt (sep : Char) (cs : List Char) :
    (splitAt sep cs).length = cs.count sep + 1 := by
  induction cs using pieces_induction sep with
  | piece cs h => rw [splitAt_of_not_mem h, List.count_eq_zero_of_not_mem h, List.length_singleton]
  | more first rest h ih =>
      rw [splitAt_append_cons h, List.length_cons, ih, List.count_append,
        List.count_eq_zero_of_not_mem h, List.count_cons_self, Nat.zero_add]

theorem head?_of_splitAt {sep c : Char} {cs more : List Char} {rest : List (List Char)}
    (h : splitAt sep cs = (c :: more) :: rest) : cs.head? = some c := by
  induction cs using pieces_induction sep with
  | piece cs hcs =>
      rw [splitAt_of_not_mem hcs] at h
      cases h
      rfl
  | more first others hfirst _ =>
      rw [splitAt_append_cons hfirst] at h
      cases h
      rfl

theorem joinWith_cons (separator s : String) {rest : List String} (h : rest ≠ []) :
    joinWith separator (s :: rest) = s ++ separator ++ joinWith separator rest := by
  obtain ⟨t, more, rfl⟩ := List.exists_cons_of_ne_nil h
  rfl

/-- **The pieces of a text, joined by the separator, are the text.** -/
theorem joinWith_splitAt (sep : Char) (cs : List Char) :
    joinWith (String.singleton sep) ((splitAt sep cs).map String.ofList) = String.ofList cs := by
  induction cs using pieces_induction sep with
  | piece cs h => rw [splitAt_of_not_mem h, List.map_singleton, joinWith]
  | more first rest h ih =>
      have hne : (splitAt sep rest).map String.ofList ≠ [] := by
        simpa using splitAt_ne_nil sep rest
      rw [splitAt_append_cons h, List.map_cons, joinWith_cons _ _ hne, ih,
        List.append_cons, String.ofList_append, String.ofList_append]
      rfl

end CqlWorkload.Text
