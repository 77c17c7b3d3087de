import CqlWorkload.Yaml.Writer
import CqlWorkload.Yaml.Lexeme

/-!
# Moving over a text

A cursor in front of a known piece of text moves behind it.  Where it then stands
depends on the piece alone: a piece without breaks leaves it on its line, a break
with blanks behind it puts it on a line of its own.

**Stopping.** How far a reader goes depends on what follows.  A text stops a class of
characters when it does not begin with one of them.
-/

namespace CqlWorkload.Yaml

/-- Does a text not begin with a character of a class? -/
def Stops (p : Char → Bool) (cs : List Char) : Prop := ∀ c ∈ cs.head?, p c = false

@[simp] theorem stops_nil (p : Char → Bool) : Stops p [] := by simp [Stops]

@[simp] theorem stops_cons (p : Char → Bool) (c : Char) (cs : List Char) :
    Stops p (c :: cs) ↔ p c = false := by simp [Stops]

theorem Stops.cons {p : Char → Bool} {c : Char} {cs : List Char} (h : p c = false) :
    Stops p (c :: cs) := (stops_cons p c cs).mpr h

theorem stops_iff_any_head? (p : Char → Bool) (cs : List Char) :
    Stops p cs ↔ cs.head?.any p = false := by
  cases cs <;> simp

theorem Stops.append {p : Char → Bool} {cs rest : List Char} (h : Stops p cs)
    (hrest : Stops p rest) : Stops p (cs ++ rest) := by
  cases cs with
  | nil => exact hrest
  | cons c cs => exact h

theorem Stops.takeWhile_eq {p : Char → Bool} {cs : List Char} (h : Stops p cs) :
    cs.takeWhile p = [] := by
  cases cs with
  | nil => rfl
  | cons c cs => simp [(stops_cons p c cs).mp h]

theorem takeWhile_append_of_stops {p : Char → Bool} {cs rest : List Char}
    (hp : ∀ c ∈ cs, p c = true) (h : Stops p rest) : (cs ++ rest).takeWhile p = cs := by
  rw [List.takeWhile_append_of_pos hp, h.takeWhile_eq, List.append_nil]

/-- A text as a run of a class and a text that stops the class. -/
theorem exists_run (p : Char → Bool) (cs : List Char) :
    ∃ run rest, cs = run ++ rest ∧ (∀ c ∈ run, p c = true) ∧ Stops p rest := by
  refine ⟨cs.takeWhile p, cs.dropWhile p, List.takeWhile_append_dropWhile.symm,
    fun c hc => List.all_eq_true.mp List.all_takeWhile c hc, fun c hc => ?_⟩
  have hhead := List.head?_dropWhile_not p cs
  rw [Option.mem_def] at hc
  simpa [hc] using hhead

/-! ## Blanks -/

@[simp] theorem length_blanks (n : Nat) : (blanks n).length = n := List.length_replicate

@[simp] theorem blanks_zero : blanks 0 = [] := rfl

theorem blanks_succ (n : Nat) : blanks (n + 1) = ' ' :: blanks n := rfl

theorem blanks_succ' (n : Nat) : blanks (n + 1) = blanks n ++ [' '] := List.replicate_succ'

theorem eq_blanks {cs : List Char} (h : ∀ c ∈ cs, c = ' ') : cs = blanks cs.length :=
  List.eq_replicate_iff.mpr ⟨rfl, h⟩

theorem mem_blanks {c : Char} {n : Nat} (h : c ∈ blanks n) : c = ' ' :=
  List.eq_of_mem_replicate h

/-! ## Moving -/

namespace Cursor

/-- The cursor behind a piece of the text in front of it. -/
def past (c : Cursor) (written : List Char) : Cursor := skip written.length c

theorem skip_add (m n : Nat) (c : Cursor) : skip (m + n) c = skip n (skip m c) := by
  induction m generalizing c with
  | zero => rw [Nat.zero_add]; rfl
  | succ m ih => rw [Nat.succ_add]; exact ih c.next

theorem past_append (c : Cursor) (a b : List Char) : c.past (a ++ b) = (c.past a).past b := by
  simp only [past, List.length_append, skip_add]

theorem past_cons (c : Cursor) (ch : Char) (a : List Char) :
    c.past (ch :: a) = (c.past [ch]).past a := past_append c [ch] a

theorem next_eq_past (c : Cursor) (ch : Char) : c.next = c.past [ch] := rfl

theorem rest_next {c : Cursor} {ch : Char} {rest : List Char} (h : c.rest = ch :: rest) :
    c.next.rest = rest := by
  simp only [next, h]
  split
  · rfl
  · split <;> rfl

theorem rest_past {c : Cursor} {a rest : List Char} (h : c.rest = a ++ rest) :
    (c.past a).rest = rest := by
  induction a generalizing c with
  | nil => exact h
  | cons ch a ih => exact ih (rest_next h)

theorem index_next {c : Cursor} {ch : Char} {rest : List Char} (h : c.rest = ch :: rest) :
    c.next.index = c.index + 1 := by
  simp only [next, h]
  split
  · rfl
  · split <;> rfl

theorem index_past {c : Cursor} {a rest : List Char} (h : c.rest = a ++ rest) :
    (c.past a).index = c.index + a.length := by
  induction a generalizing c with
  | nil => rfl
  | cons ch a ih =>
      have hnext := ih (c := c.next) (rest_next h)
      rw [index_next h, Nat.add_right_comm, Nat.add_assoc] at hnext
      exact hnext

theorem index_lt_past {c : Cursor} {a rest : List Char} (h : c.rest = a ++ rest) (ha : a ≠ []) :
    c.index < (c.past a).index := by
  rw [index_past h]
  exact Nat.lt_add_of_pos_right (List.length_pos_iff.mpr ha)

theorem index_le_past {c : Cursor} {a rest : List Char} (h : c.rest = a ++ rest) :
    c.index ≤ (c.past a).index := by
  rw [index_past h]
  exact Nat.le_add_right _ _

/-- A character behind which the cursor is one column further on its line. -/
def Inline (ch : Char) : Prop := isBreak ch = false ∧ ch ≠ byteOrderMark

instance (ch : Char) : Decidable (Inline ch) := inferInstanceAs (Decidable (_ ∧ _))

theorem next_inline {c : Cursor} {ch : Char} {rest : List Char} (h : c.rest = ch :: rest)
    (hch : Inline ch) : c.next = ⟨rest, c.line, c.column + 1, c.index + 1⟩ := by
  simp [next, h, hch.1, hch.2]

theorem line_next_le (c : Cursor) : c.line ≤ c.next.line := by
  unfold next
  split
  · exact Nat.le_refl _
  · split
    · exact Nat.le_succ _
    · split <;> exact Nat.le_refl _

theorem line_past_le (c : Cursor) (a : List Char) : c.line ≤ (c.past a).line := by
  induction a generalizing c with
  | nil => exact Nat.le_refl _
  | cons ch a ih => exact Nat.le_trans (line_next_le c) (ih c.next)

theorem column_past {c : Cursor} {a rest : List Char} (h : c.rest = a ++ rest)
    (ha : ∀ ch ∈ a, Inline ch) : (c.past a).column = c.column + a.length := by
  induction a generalizing c with
  | nil => rfl
  | cons ch a ih =>
      have hnext := next_inline h (ha ch (by simp))
      have hrest := ih (c := c.next) (rest_next h) fun x hx => ha x (by simp [hx])
      rw [show c.next.column = c.column + 1 by rw [hnext], Nat.add_right_comm,
        Nat.add_assoc] at hrest
      exact hrest

theorem line_past {c : Cursor} {a rest : List Char} (h : c.rest = a ++ rest)
    (ha : ∀ ch ∈ a, Inline ch) : (c.past a).line = c.line := by
  induction a generalizing c with
  | nil => rfl
  | cons ch a ih =>
      have hnext := next_inline h (ha ch (by simp))
      have hrest := ih (c := c.next) (rest_next h) fun x hx => ha x (by simp [hx])
      rw [show c.next.line = c.line by rw [hnext]] at hrest
      exact hrest

theorem inline_of_mem_blanks {ch : Char} {n : Nat} (h : ch ∈ blanks n) : Inline ch := by
  rw [mem_blanks h]
  decide

theorem next_break {c : Cursor} {ch : Char} {rest : List Char} (h : c.rest = ch :: rest)
    (hch : isBreak ch = true) : c.next = ⟨rest, c.line + 1, 0, c.index + 1⟩ := by
  simp [next, h, hch]

/-- Behind a break and blanks the cursor stands on another line, at their number. -/
theorem past_break_blanks {c : Cursor} {ch : Char} {n : Nat} {rest : List Char}
    (h : c.rest = ch :: (blanks n ++ rest)) (hch : isBreak ch = true) :
    (c.past (ch :: blanks n)).column = n ∧ c.line < (c.past (ch :: blanks n)).line := by
  have hnext := next_break h hch
  have hrest := rest_next h
  have hcolumn := column_past hrest fun _ => inline_of_mem_blanks
  have hline := line_past_le c.next (blanks n)
  rw [hnext] at hcolumn hline
  rw [past_cons, ← next_eq_past, hnext]
  exact ⟨by simpa using hcolumn, hline⟩

section Breaks

variable {c : Cursor} {a breaks rest : List Char} {n : Nat}

/-- So it does behind several breaks, whatever stands in front of them. -/
theorem past_breaks_blanks (h : c.rest = a ++ (breaks ++ (blanks n ++ rest)))
    (hbreaks : ∀ ch ∈ breaks, isBreak ch = true) (hne : breaks ≠ []) :
    (c.past (a ++ breaks ++ blanks n)).column = n ∧
      c.line < (c.past (a ++ breaks ++ blanks n)).line := by
  obtain ⟨init, b, rfl⟩ : ∃ init b, breaks = init ++ [b] :=
    ⟨breaks.dropLast, breaks.getLast hne, (List.dropLast_concat_getLast hne).symm⟩
  have hpiece : a ++ (init ++ [b]) ++ blanks n = (a ++ init) ++ b :: blanks n := by simp
  have hrest : (c.past (a ++ init)).rest = b :: (blanks n ++ rest) :=
    rest_past (by rw [h]; simp)
  obtain ⟨hcolumn, hline⟩ := past_break_blanks hrest (hbreaks b (by simp))
  rw [hpiece, past_append]
  exact ⟨hcolumn, Nat.lt_of_le_of_lt (line_past_le c _) hline⟩

theorem column_past_breaks (h : c.rest = a ++ (breaks ++ (blanks n ++ rest)))
    (hbreaks : ∀ ch ∈ breaks, isBreak ch = true) (hne : breaks ≠ []) :
    (c.past (a ++ breaks ++ blanks n)).column = n := (past_breaks_blanks h hbreaks hne).1

theorem past_newLine (h : c.rest = a ++ (newLine n ++ rest)) :
    (c.past (a ++ newLine n)).column = n ∧ c.line < (c.past (a ++ newLine n)).line := by
  have hpiece : a ++ newLine n = a ++ ['\n'] ++ blanks n := by simp [newLine]
  rw [hpiece]
  exact past_breaks_blanks h (List.forall_mem_singleton.mpr (by decide)) (by simp)

end Breaks

/-! ## What the front of a text shows -/

theorem run_eq {c : Cursor} {p : Char → Bool} {a rest : List Char} (h : c.rest = a ++ rest)
    (ha : ∀ ch ∈ a, p ch = true) (hrest : Stops p rest) : c.run p = a := by
  rw [run, h, takeWhile_append_of_stops ha hrest]

theorem skipWhile_eq {c : Cursor} {p : Char → Bool} {a rest : List Char}
    (h : c.rest = a ++ rest) (ha : ∀ ch ∈ a, p ch = true) (hrest : Stops p rest) :
    c.skipWhile p = c.past a := by
  rw [skipWhile, run_eq h ha hrest, past]

theorem skipWhile_of_stops {c : Cursor} {p : Char → Bool} (h : Stops p c.rest) :
    c.skipWhile p = c := skipWhile_eq (a := []) rfl (by simp) h

theorem skipBlanks_eq {c : Cursor} {n : Nat} {rest : List Char}
    (h : c.rest = blanks n ++ rest) (hrest : Stops (· == ' ') rest) :
    c.skipBlanks = c.past (blanks n) :=
  skipWhile_eq h (fun _ hch => by simp [mem_blanks hch]) hrest

theorem takeBreak?_cons {c : Cursor} {ch : Char} {rest : List Char} (h : c.rest = ch :: rest)
    (hch : isBreak ch = true) : c.takeBreak? = some (breakValue ch, c.past [ch]) := by
  simp [takeBreak?, h, hch, next_eq_past c ch]

theorem takeBreak?_eq_none {c : Cursor} (h : Stops isBreak c.rest) : c.takeBreak? = none := by
  unfold takeBreak?
  cases hrest : c.rest with
  | nil => rfl
  | cons ch rest =>
      rw [hrest, stops_cons] at h
      simp [h]

theorem sees_eq_false {c : Cursor} {ch : Char} (h : Stops (· == ch) c.rest) :
    c.sees ch = false := by
  unfold sees
  cases hrest : c.rest with
  | nil => rfl
  | cons x rest =>
      rw [hrest, stops_cons] at h
      simpa using h

end Cursor

/-- No mark between documents begins with a blank or a break. -/
theorem isDocumentMark_eq_false {cs : List Char} (h : Stops (fun c => c == '-' || c == '.') cs) :
    isDocumentMark cs = false := by
  match cs, h with
  | [], _ | [_], _ | [_, _], _ => rfl
  | a :: b :: c :: rest, h =>
      simp only [stops_cons, Bool.or_eq_false_iff, beq_eq_false_iff_ne] at h
      simp [isDocumentMark, beginsWithMark, h.1, h.2]

end CqlWorkload.Yaml
