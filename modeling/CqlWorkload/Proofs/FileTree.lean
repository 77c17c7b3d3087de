import CqlWorkload.FileTree
import Mathlib.Data.List.Basic
import Mathlib.Tactic.Basic

/-!
# Changes of file trees

Putting a file changes what is found at its own place and nothing else, and writing and
appending put one file.  Where a path leads is fixed by its parts (`destination`): looking
a path up, and making the directories on its way, either fail or end there.

**Missing directories.** Looking a path up needs every directory that it names, also one
that two dots leave again; writing makes them.  A file may therefore be written over that
was not found before, and `LeadsTo` says that this cannot happen.
-/

namespace CqlWorkload
namespace FileTree

variable {tree made : FileTree} {cwd place other : Place} {p : Path} {content : Content}

/-! ## Putting a file -/

theorem get?_put_self (tree : FileTree) (place : Place) (content : Content) :
    (tree.put place content).get? place = some content := by
  induction tree with
  | nil => simp [put, get?]
  | cons file rest ih =>
      by_cases h : file.1 = place
      · simp [put, get?, h]
      · simp [put, get?, h, ih]

theorem get?_put_of_ne (h : other ≠ place) (tree : FileTree) (content : Content) :
    (tree.put place content).get? other = tree.get? other := by
  induction tree with
  | nil => simp [put, get?, h.symm]
  | cons file rest ih =>
      by_cases hf : file.1 = place
      · simp [put, get?, hf, h.symm]
      · simp [put, get?, hf, ih]

theorem isSome_get?_put (h : (tree.get? other).isSome) :
    ((tree.put place content).get? other).isSome := by
  by_cases he : other = place
  · rw [he, get?_put_self]
    rfl
  · rwa [get?_put_of_ne he]

theorem mem_of_get? (h : tree.get? place = some content) : (place, content) ∈ tree := by
  induction tree with
  | nil => cases h
  | cons file rest ih =>
      by_cases hf : file.1 = place
      · simp only [get?, hf, if_true, Option.some.injEq] at h
        exact List.mem_cons.mpr (Or.inl (by rw [← hf, ← h]))
      · simp only [get?, hf, if_false] at h
        exact List.mem_cons_of_mem _ (ih h)

/-! ## Directories -/

theorem isBelow_append_cons (place : Place) (part : String) (rest : List String) :
    isBelow (place ++ part :: rest) place = true := by
  induction place with
  | nil => rfl
  | cons first place ih => simpa [isBelow] using ih

/-- What a place leads through on its way to a file is a directory. -/
theorem isDirectory_of_isSome_get? {part : String} {rest : List String}
    (h : (tree.get? (place ++ part :: rest)).isSome) : tree.isDirectory place = true := by
  obtain ⟨content, h⟩ := Option.isSome_iff_exists.mp h
  rw [isDirectory, Bool.or_eq_true, List.any_eq_true]
  exact Or.inr ⟨_, mem_of_get? h, isBelow_append_cons place part rest⟩

theorem isDirectory_put (h : tree.isDirectory other = true) :
    (tree.put place content).isDirectory other = true := by
  simp only [isDirectory, Bool.or_eq_true] at h ⊢
  rcases h with h | h
  · exact Or.inl h
  · refine Or.inr ?_
    induction tree with
    | nil => simp at h
    | cons file rest ih =>
        rw [List.any_cons, Bool.or_eq_true] at h
        by_cases hf : file.1 = place
        · simpa [put, hf] using h
        · simp only [put, hf, if_false, List.any_cons, Bool.or_eq_true]
          exact h.imp_right ih

/-! ## Where paths lead -/

/-- The place at the end of some parts; two dots go up. -/
def advance (start : Place) : List String → Place
  | [] => start
  | part :: rest =>
    if part = ".." then advance start.dropLast rest else advance (start ++ [part]) rest

/-- The place that a path leads to once the directories that it names exist. -/
def destination (cwd : Place) (p : Path) : Place := advance (origin cwd p) p.parts

/-- All directories that a path names exist. -/
def LeadsTo (tree : FileTree) (cwd : Place) (p : Path) : Prop :=
  (tree.follow (origin cwd p) p.parts).isSome

theorem advance_append_singleton {name : String} (h : name ≠ "..") (start : Place)
    (parts : List String) : advance start (parts ++ [name]) = advance start parts ++ [name] := by
  induction parts generalizing start with
  | nil => simp [advance, h]
  | cons part rest ih =>
      rw [List.cons_append, advance, advance]
      split_ifs
      · exact ih _
      · exact ih _

theorem eq_advance_of_follow {start : Place} {parts : List String}
    (h : tree.follow start parts = some place) : place = advance start parts := by
  induction parts generalizing start with
  | nil =>
      injection h with h
      exact h.symm
  | cons part rest ih =>
      rw [follow] at h
      rw [advance]
      split_ifs at h ⊢
      · exact ih h
      · exact ih h

theorem eq_advance_of_reach {start : Place} {parts : List String}
    (h : tree.reach start parts = some place) : place = advance start parts := by
  induction parts generalizing start with
  | nil =>
      injection h with h
      exact h.symm
  | cons part rest ih =>
      rw [reach] at h
      rw [advance]
      split_ifs at h ⊢
      · exact ih h
      · exact ih h

theorem isSome_follow_put {start : Place} {parts : List String}
    (h : (tree.follow start parts).isSome) :
    ((tree.put place content).follow start parts).isSome := by
  induction parts generalizing start with
  | nil => rfl
  | cons part rest ih =>
      rw [follow] at h ⊢
      by_cases hd : tree.isDirectory start = true
      · rw [isDirectory_put hd]
        simp only [hd, Bool.not_true, Bool.false_eq_true, if_false] at h ⊢
        split_ifs at h ⊢
        · exact ih h
        · exact ih h
      · simp [hd] at h

theorem advance_eq_append {start : Place} {parts : List String} (hd : ".." ∉ parts) :
    advance start parts = start ++ parts := by
  induction parts generalizing start with
  | nil => simp [advance]
  | cons part rest ih =>
      simp only [List.mem_cons, not_or] at hd
      rw [advance, if_neg (Ne.symm hd.1), ih hd.2, List.append_assoc, List.singleton_append]

theorem isSome_follow_of_isSome_get? {start : Place} {parts : List String}
    (hd : ".." ∉ parts) (h : (tree.get? (start ++ parts)).isSome) :
    (tree.follow start parts).isSome := by
  induction parts generalizing start with
  | nil => rfl
  | cons part rest ih =>
      have hdir : tree.isDirectory start = true := isDirectory_of_isSome_get? h
      simp only [List.mem_cons, not_or] at hd
      rw [follow, hdir]
      simp only [Bool.not_true, Bool.false_eq_true, if_false, if_neg (Ne.symm hd.1)]
      exact ih hd.2 (by rwa [List.append_assoc])

/-- A path without two dots leads to every file that stands at its end. -/
theorem leadsTo_of_isSome_get? (hd : ".." ∉ p.parts)
    (h : (tree.get? (destination cwd p)).isSome) : tree.LeadsTo cwd p := by
  rw [destination, advance_eq_append hd] at h
  exact isSome_follow_of_isSome_get? hd h

theorem locate_of_isSome_get? (hl : tree.LeadsTo cwd p)
    (h : (tree.get? (destination cwd p)).isSome) :
    tree.locate cwd p = some (destination cwd p) := by
  obtain ⟨found, hf⟩ := Option.isSome_iff_exists.mp hl
  have he : found = destination cwd p := eq_advance_of_follow hf
  simp only [locate, hf, he, h, Bool.or_true, if_true]

theorem holds_of_isSome_get? (hl : tree.LeadsTo cwd p)
    (h : (tree.get? (destination cwd p)).isSome) : tree.holds cwd p = true := by
  rw [holds, locate_of_isSome_get? hl h]
  rfl

/-! ## Writing -/

theorem makeDirectory_eq_ok (h : tree.makeDirectory cwd p = .ok place) :
    place = destination cwd p := by
  unfold makeDirectory at h
  split at h
  · cases h
  next found hf =>
    split_ifs at h
    injection h with h
    rw [← h]
    exact eq_advance_of_reach hf

theorem placeFor_eq_ok (h : tree.placeFor cwd p = .ok place) : place = destination cwd p := by
  unfold placeFor at h
  cases hm : tree.makeDirectory cwd p.parent with
  | error failure =>
      rw [hm] at h
      cases h
  | ok directory =>
      rw [hm] at h
      dsimp only [bind, Except.bind] at h
      split_ifs at h with hc
      injection h with h
      simp only [Bool.or_eq_true, decide_eq_true_eq, not_or] at hc
      obtain ⟨⟨hname, hdots⟩, -⟩ := hc
      have hparts : p.parts = p.parts.dropLast ++ [p.name] := by
        cases hl : p.parts.getLast? with
        | none => exact absurd (by rw [Path.name, hl]; rfl) hname
        | some name =>
            obtain ⟨front, hfront⟩ := List.getLast?_eq_some_iff.mp hl
            simp [Path.name, hfront]
      rw [← h, makeDirectory_eq_ok hm, destination, destination, hparts,
        advance_append_singleton hdots]
      rfl

/-- **Writing** puts the text at the destination of the path. -/
theorem write_eq_ok {text : String} (h : tree.write cwd p text = .ok made) :
    made = tree.put (destination cwd p) (.text text) := by
  unfold write at h
  cases hp : tree.placeFor cwd p with
  | error failure =>
      rw [hp] at h
      cases h
  | ok place =>
      rw [hp] at h
      injection h with h
      rw [← h, placeFor_eq_ok hp]

theorem append_eq_ok {text : String} (h : tree.append cwd p text = .ok made) :
    ∃ content, made = tree.put (destination cwd p) content := by
  unfold append at h
  cases hp : tree.placeFor cwd p with
  | error failure =>
      rw [hp] at h
      cases h
  | ok place =>
      rw [hp] at h
      injection h with h
      exact ⟨_, by rw [← h, placeFor_eq_ok hp]⟩

end FileTree
end CqlWorkload
