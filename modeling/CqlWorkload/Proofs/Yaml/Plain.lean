import CqlWorkload.Proofs.Yaml.Single

/-!
# Plain texts

A plain text is a row of words.  Between two of them stand blanks, or the break of a
line where the text was folded at a single blank; `Folded` relates the text to what is
written, whatever the lines are.

**Ends.** A plain scalar ends in front of the colon of its value, or behind the break
at the end of its line, when the next line belongs to a block around it.
-/

namespace CqlWorkload.Yaml

open Lexeme

/-- A piece of a plain text between gaps. -/
structure IsWord (w : List Char) : Prop where
  solid : ∀ c ∈ w, isLayout c = false
  inline : ∀ c ∈ w, Cursor.Inline c
  start : ∃ c rest, w = c :: rest ∧ c ≠ '#'
  colon : w.getLast? ≠ some ':'

/-- How a plain text (the first argument) is written (the second one). -/
inductive Folded (indent : Nat) : List Char → List Char → Prop
  | word {w : List Char} (hw : IsWord w) : Folded indent w w
  | spaced {w read written : List Char} (hw : IsWord w) (n : Nat)
      (h : Folded indent read written) :
      Folded indent (w ++ blanks (n + 1) ++ read) (w ++ blanks (n + 1) ++ written)
  | fold {w read written : List Char} (hw : IsWord w) (h : Folded indent read written) :
      Folded indent (w ++ ' ' :: read) (w ++ newLine indent ++ written)

/-- A text behind a plain scalar: the scalar ends before it and is read with the piece
`moved` of it; `crossed` says whether the piece crosses a line. -/
structure EndsPlain (level : Nat) (rest moved : List Char) (crossed : Bool) : Prop where
  chunk : chunk false rest = []
  gap : ∀ c : Cursor, c.rest = rest → ∃ gap, plainGap c = (gap, crossed, c.past moved) ∧
    (gap.isEmpty || (c.past moved).sees '#' || decide ((c.past moved).column < level)) = true

/-! ## Words -/

theorem IsWord.ne_blank {w : List Char} (hw : IsWord w) : ∀ c ∈ w, c ≠ ' ' := by
  rintro c hc rfl
  exact absurd (hw.solid _ hc) (by decide)

/-- A chunk is a word, up to where a chunk ends. -/
theorem chunk_append {w rest : List Char} (hsolid : ∀ c ∈ w, isLayout c = false)
    (hcolon : w.getLast? ≠ some ':') (hrest : chunk false rest = []) :
    chunk false (w ++ rest) = w := by
  induction w with
  | nil => exact hrest
  | cons c w ih =>
      have hc : endsWord [c] = false := hsolid c (by simp)
      have hend : (c == ':' && endsWord (w ++ rest)) = false := by
        cases w with
        | nil =>
            have hc : c ≠ ':' := by simpa using hcolon
            simp [hc]
        | cons d w =>
            have hd : endsWord (d :: (w ++ rest)) = false := hsolid d (by simp)
            simp [hd]
      have htail : w.getLast? ≠ some ':' := by
        cases w with
        | nil => simp
        | cons d w => simpa using hcolon
      rw [List.cons_append, chunk]
      simp only [endsChunk, hc, hend, Bool.false_and, Bool.or_false, Bool.false_eq_true, if_false]
      rw [ih (fun d hd => hsolid d (by simp [hd])) htail]

theorem chunk_layout {c : Char} (hc : isLayout c = true) (cs : List Char) :
    chunk false (c :: cs) = [] := by
  have hc : endsWord [c] = true := hc
  simp [chunk, endsChunk, hc]

theorem Folded.head {indent : Nat} {read written : List Char} (h : Folded indent read written) :
    ∃ c rest, written = c :: rest ∧ isLayout c = false ∧ c ≠ '#' := by
  cases h with
  | word hw | spaced hw | fold hw =>
      obtain ⟨c, rest, rfl, hc⟩ := hw.start
      exact ⟨c, _, rfl, hw.solid c (by simp), hc⟩

/-! ## Gaps -/

section Gap

variable {c : Cursor} {rest : List Char}

theorem plainGap_blanks {n : Nat} (h : c.rest = blanks n ++ rest) (hrest : Stops isLayout rest) :
    plainGap c = (blanks n, false, c.past (blanks n)) := by
  have hblank : ∀ ch ∈ blanks n, (ch == ' ') = true := fun ch hch => by simp [mem_blanks hch]
  have hnone : (c.past (blanks n)).takeBreak? = none :=
    Cursor.takeBreak?_eq_none (by rw [Cursor.rest_past h]; exact hrest.isBreak)
  simp only [plainGap, Cursor.run_eq h hblank hrest.isBlank,
    Cursor.skipBlanks_eq h hrest.isBlank, hnone]

/-- A line that ends, and the indentation of the next one. -/
theorem plainGap_newLine {n : Nat} (h : c.rest = newLine n ++ rest)
    (hmark : isDocumentMark (blanks n ++ rest) = false) (hrest : Stops isLayout rest) :
    plainGap c = ([' '], true, c.past (newLine n)) := by
  have h : c.rest = '\n' :: (blanks n ++ rest) := h
  have hstops : Stops (· == ' ') c.rest := by
    rw [h]
    exact Stops.cons (by decide)
  have hbehind : (c.past ['\n']).rest = blanks n ++ rest := Cursor.rest_past (a := ['\n']) h
  have hskip : c.skipBlanks = c := Cursor.skipWhile_of_stops hstops
  have hmark : (c.past ['\n']).atDocumentMark = false := by
    rw [Cursor.atDocumentMark, hbehind, hmark]
  have hbreaks : plainBreaks ((c.past ['\n']).rest.length + 1) (c.past ['\n']) =
      (some [], c.past (newLine n)) := by
    have hnone : ((c.past ['\n']).past (blanks n)).takeBreak? = none :=
      Cursor.takeBreak?_eq_none (by rw [Cursor.rest_past hbehind]; exact hrest.isBreak)
    simp only [plainBreaks, Cursor.skipBlanks_eq hbehind hrest.isBlank, hnone]
    rw [← Cursor.past_append]
    rfl
  simp only [plainGap, hskip, Cursor.takeBreak?_cons h (by decide), hmark, hbreaks]
  rfl

end Gap

/-! ## The reader -/

theorem plainFrom_step {level fuel : Nat} {crossed : Bool} {gap w rest : List Char}
    {c : Cursor} (h : c.rest = w ++ rest) (hw : IsWord w) (hrest : chunk false rest = []) :
    Lexeme.plainFrom false level (fuel + 1) crossed gap c =
      match plainGap (c.past w) with
      | (next, crossed, c) =>
        if next.isEmpty || c.sees '#' || decide (c.column < level) then
          (gap ++ w, crossed, c)
        else
          match Lexeme.plainFrom false level fuel crossed next c with
          | (text, crossed, c) => (gap ++ w ++ text, crossed, c) := by
  obtain ⟨ch, others, rfl, hch⟩ := hw.start
  have hsees : c.sees '#' = false :=
    Cursor.sees_eq_false (by rw [h]; exact Stops.cons (by simpa using hch))
  rw [Lexeme.plainFrom, hsees, h]
  simp only [Bool.false_eq_true, if_false, chunk_append hw.solid hw.colon hrest]
  rfl

/-- Behind a gap in front of another word the scalar goes on. -/
theorem plainFrom_joint {level fuel : Nat} {crossed before : Bool} {gap next w rest : List Char}
    {joint : List Char} {c : Cursor} (h : c.rest = w ++ (joint ++ rest)) (hw : IsWord w)
    (hjoint : chunk false (joint ++ rest) = [])
    (hgap : plainGap (c.past w) = (next, crossed, c.past (w ++ joint))) (hnext : next ≠ [])
    (hsees : Stops (· == '#') rest) (hcolumn : level ≤ (c.past (w ++ joint)).column)
    {text : List Char} {behind : Cursor} {last : Bool}
    (hrest : Lexeme.plainFrom false level fuel crossed next (c.past (w ++ joint)) =
      (next ++ text, last, behind)) :
    Lexeme.plainFrom false level (fuel + 1) before gap c =
      (gap ++ (w ++ (next ++ text)), last, behind) := by
  have hbehind : (c.past (w ++ joint)).rest = rest :=
    Cursor.rest_past (by rw [h, List.append_assoc])
  have hsees : (c.past (w ++ joint)).sees '#' = false :=
    Cursor.sees_eq_false (by rw [hbehind]; exact hsees)
  have hdeep : ¬ (c.past (w ++ joint)).column < level := by omega
  rw [plainFrom_step h hw hjoint, hgap]
  simp only [List.isEmpty_eq_false_iff.mpr hnext, hsees, hdeep, hrest, Bool.or_false,
    decide_false, Bool.false_eq_true, if_false, List.append_assoc]

/-- A plain scalar is read to its end. -/
theorem Folded.plainFrom_eq {indent level : Nat} {read written : List Char}
    (h : Folded indent read written) (hindent : 0 < indent) (hlevel : level ≤ indent)
    {rest moved : List Char} {crossed : Bool} (hend : EndsPlain level rest moved crossed)
    {fuel : Nat} (hfuel : written.length < fuel) (before : Bool) (gap : List Char) {c : Cursor}
    (hc : c.rest = written ++ rest) (hcolumn : level ≤ c.column + 1) :
    Lexeme.plainFrom false level fuel before gap c =
      (gap ++ read, crossed, c.past (written ++ moved)) := by
  induction h generalizing fuel before gap c with
  | @word w hw =>
      obtain ⟨fuel, rfl⟩ : ∃ n, fuel = n + 1 := ⟨fuel - 1, by omega⟩
      obtain ⟨next, hgap, hstop⟩ := hend.gap (c.past w) (Cursor.rest_past hc)
      rw [plainFrom_step hc hw hend.chunk, hgap, ← Cursor.past_append]
      rw [← Cursor.past_append] at hstop
      simp only [hstop, if_true]
  | @spaced w read written hw n h ih =>
      obtain ⟨fuel, rfl⟩ : ∃ n, fuel = n + 1 := ⟨fuel - 1, by omega⟩
      obtain ⟨ch, others, rfl, hlayout, hsees⟩ := h.head
      have hc : c.rest = w ++ (blanks (n + 1) ++ (ch :: others ++ rest)) := by simpa using hc
      have hgap := plainGap_blanks (c := c.past w) (Cursor.rest_past hc)
        (Stops.cons hlayout)
      rw [← Cursor.past_append] at hgap
      have hlong : 0 < w.length := by
        obtain ⟨x, xs, rfl, -⟩ := hw.start
        simp
      have hmoved : (c.past (w ++ blanks (n + 1))).column = c.column + (w.length + (n + 1)) := by
        rw [Cursor.column_past (by rw [hc, List.append_assoc]), List.length_append, length_blanks]
        intro x hx
        rcases List.mem_append.mp hx with hx | hx
        · exact hw.inline x hx
        · exact Cursor.inline_of_mem_blanks hx
      have hfuel : (ch :: others).length < fuel := by
        simp at hfuel ⊢
        omega
      have hrest := ih hfuel false (blanks (n + 1))
        (c := c.past (w ++ blanks (n + 1))) (Cursor.rest_past (by rw [hc, List.append_assoc]))
        (by omega)
      rw [plainFrom_joint hc hw (chunk_layout (by decide) _) hgap (by simp [blanks_succ])
        (Stops.cons (by simpa using hsees)) (by omega) hrest]
      simp [← Cursor.past_append]
  | @fold w read written hw h ih =>
      obtain ⟨fuel, rfl⟩ : ∃ n, fuel = n + 1 := ⟨fuel - 1, by omega⟩
      obtain ⟨ch, others, rfl, hlayout, hsees⟩ := h.head
      have hc : c.rest = w ++ (newLine indent ++ (ch :: others ++ rest)) := by simpa using hc
      have hmark : isDocumentMark (blanks indent ++ (ch :: others ++ rest)) = false := by
        obtain ⟨indent, rfl⟩ : ∃ n, indent = n + 1 := ⟨indent - 1, by omega⟩
        exact isDocumentMark_layout (by decide)
      have hgap := plainGap_newLine (c := c.past w) (Cursor.rest_past hc) hmark
        (Stops.cons hlayout)
      rw [← Cursor.past_append] at hgap
      have hmoved : (c.past (w ++ newLine indent)).column = indent := by
        rw [Cursor.past_append]
        exact (Cursor.past_break_blanks (Cursor.rest_past hc) (by decide)).1
      have hfuel : (ch :: others).length < fuel := by
        simp [newLine] at hfuel ⊢
        omega
      have hrest := ih hfuel true [' ']
        (c := c.past (w ++ newLine indent)) (Cursor.rest_past (by rw [hc, List.append_assoc]))
        (by omega)
      rw [plainFrom_joint hc hw (chunk_layout (by decide) _) hgap (by simp)
        (Stops.cons (by simpa using hsees)) (by omega) hrest]
      simp [← Cursor.past_append]

/-! ## Ends -/

/-- The colon of a value ends a plain key. -/
theorem endsPlain_colon (level : Nat) {rest : List Char} (h : endsWord rest = true) :
    EndsPlain level (':' :: rest) [] false where
  chunk := by simp [chunk, endsChunk, h]
  gap c hc := by
    have hgap := plainGap_blanks (n := 0) hc (Stops.cons (by decide))
    exact ⟨[], hgap, by simp⟩

/-- A line that is less deep ends a plain value. -/
theorem endsPlain_newLine {level n : Nat} {rest : List Char} (hlevel : n < level)
    (hmark : isDocumentMark (blanks n ++ rest) = false) (hrest : Stops isLayout rest) :
    EndsPlain level (newLine n ++ rest) (newLine n) true where
  chunk := chunk_layout (by decide) _
  gap c hc := by
    have hcolumn : (c.past (newLine n)).column = n := (Cursor.past_break_blanks hc (by decide)).1
    exact ⟨[' '], plainGap_newLine hc hmark hrest, by simp [hcolumn, hlevel]⟩

/-! ## The writer -/

/-- From a word of a plain text on. -/
structure PlainText (cs : List Char) : Prop where
  char : ∀ c ∈ cs, isSpecial c = false ∧ isBreak c = false
  inner : Style.isInnerPlain true cs = true
  first : Stops Style.isSpace cs
  last : cs.getLast? ≠ some ' '

theorem isInnerPlain_of_append_blank {b : Bool} {a cs : List Char}
    (h : Style.isInnerPlain b (a ++ ' ' :: cs) = true) : Style.isInnerPlain true cs = true := by
  induction a generalizing b with
  | nil => 
      simp only [List.nil_append, Style.isInnerPlain, Bool.and_eq_true] at h
      exact h.2
  | cons c a ih =>
      simp only [List.cons_append, Style.isInnerPlain, Bool.and_eq_true] at h
      exact ih h.2

theorem endsWord_of_append_colon {b : Bool} {a cs : List Char}
    (h : Style.isInnerPlain b (a ++ ':' :: cs) = true) : endsWord cs = false := by
  induction a generalizing b with
  | nil =>
      simp only [List.nil_append, Style.isInnerPlain, Bool.and_eq_true] at h
      simpa using h.1.1
  | cons c a ih =>
      simp only [List.cons_append, Style.isInnerPlain, Bool.and_eq_true] at h
      exact ih h.2

theorem inline_of_isSpecial {c : Char} (h : isSpecial c = false) (hbreak : isBreak c = false) :
    Cursor.Inline c := by
  refine ⟨hbreak, ?_⟩
  rintro rfl
  contradiction

/-- A word at the front of a plain text. -/
theorem PlainText.isWord {w rest : List Char} (h : PlainText (w ++ rest)) (hw : w ≠ [])
    (hblank : ∀ c ∈ w, c ≠ ' ') (hrest : endsWord rest = true) : IsWord w where
  solid c hc :=
    have hchar := h.char c (by simp [hc])
    isLayout_eq_false hchar.1 (hblank c hc) hchar.2
  inline c hc :=
    have hchar := h.char c (by simp [hc])
    inline_of_isSpecial hchar.1 hchar.2
  start := by
    cases w with
    | nil => contradiction
    | cons c w =>
        refine ⟨c, w, rfl, ?_⟩
        rintro rfl
        have hinner := h.inner
        simp [Style.isInnerPlain] at hinner
  colon hlast := by
    obtain ⟨a, rfl⟩ := List.getLast?_eq_some_iff.mp hlast
    have hinner := h.inner
    rw [List.append_assoc] at hinner
    have hends : endsWord rest = false := endsWord_of_append_colon hinner
    rw [hends] at hrest
    contradiction

section Writer

variable {split : Bool} {indent : Nat}

theorem plainFrom_word {w : List Char} (hw : ∀ c ∈ w, c ≠ ' ') (column : Nat)
    (rest : List Char) : plainFrom split indent false column (w ++ rest) =
      w ++ plainFrom split indent false (column + w.length) rest := by
  induction w generalizing column with
  | nil => rfl
  | cons c w ih =>
      have hc := hw c (by simp)
      have ih := ih (fun d hd => hw d (by simp [hd])) (column + 1)
      rw [List.cons_append, plainFrom, if_neg (by simp [hc]), beq_false_of_ne hc, ih]
      simp [Nat.add_assoc, Nat.add_comm 1]

theorem plainFrom_blanks (n column : Nat) (rest : List Char) :
    plainFrom split indent true column (blanks n ++ rest) =
      blanks n ++ plainFrom split indent true (column + n) rest := by
  induction n generalizing column with
  | zero => rfl
  | succ n ih =>
      rw [blanks_succ, List.cons_append, plainFrom, if_neg (by simp)]
      rw [show (' ' == ' ') = true from rfl, ih, Nat.add_assoc, Nat.add_comm 1]
      rfl

/-- It makes no difference to a word whether a blank is in front of it. -/
theorem plainFrom_afterBlank {cs : List Char} (h : Stops Style.isSpace cs) (b : Bool)
    (column : Nat) : plainFrom split indent b column cs =
      plainFrom split indent false column cs := by
  cases cs with
  | nil => simp [plainFrom]
  | cons c cs =>
      have hc : c ≠ ' ' := by simpa [Style.isSpace] using h
      simp [plainFrom, hc]

/-- A plain text is a word, or a word and blanks before another plain text. -/
theorem PlainText.cases {cs : List Char} (h : PlainText cs) (hne : cs ≠ []) :
    IsWord cs ∨ ∃ w n rest, cs = w ++ blanks (n + 1) ++ rest ∧ IsWord w ∧ PlainText rest ∧
      rest ≠ [] := by
  obtain ⟨w, others, rfl, hw, hothers⟩ := exists_run (· != ' ') cs
  have hblank : ∀ c ∈ w, c ≠ ' ' := fun c hc => by simpa using hw c hc
  have hword : w ≠ [] := by
    rintro rfl
    cases others with
    | nil => exact hne rfl
    | cons c others =>
        have hc : c = ' ' := by simpa using hothers
        have hfirst := h.first
        simp [hc, Style.isSpace] at hfirst
  cases others with
  | nil =>
      have hends : endsWord [] = true := rfl
      rw [List.append_nil]
      exact Or.inl (h.isWord hword hblank hends)
  | cons c others =>
      obtain rfl : c = ' ' := by simpa using hothers
      obtain ⟨gap, rest, rfl, hgap, hrest⟩ := exists_run Style.isSpace others
      obtain ⟨n, rfl⟩ : ∃ n, gap = blanks n :=
        ⟨gap.length, eq_blanks fun c hc => by simpa [Style.isSpace] using hgap c hc⟩
      refine Or.inr ⟨w, n, rest, by simp [blanks_succ], h.isWord hword hblank rfl, ?_, ?_⟩
      · refine ⟨fun c hc => h.char c (by simp [hc]), ?_, hrest, ?_⟩
        · have hinner := h.inner
          rw [← List.cons_append, ← blanks_succ, blanks_succ'] at hinner
          exact isInnerPlain_of_append_blank (a := w ++ blanks n) (by simpa using hinner)
        · intro hlast
          refine h.last ?_
          simp [List.getLast?_append, List.getLast?_cons, hlast]
      · rintro rfl
        refine h.last ?_
        rw [List.append_nil, ← blanks_succ, blanks_succ', ← List.append_assoc]
        exact List.getLast?_concat

/-- A plain text is written word for word. -/
theorem folded_plainFrom (split : Bool) (indent : Nat) {cs : List Char} (h : PlainText cs)
    (hne : cs ≠ []) (column : Nat) :
    Folded indent cs (plainFrom split indent false column cs) := by
  induction hlength : cs.length using Nat.strongRecOn generalizing cs column with
  | _ length ih =>
    subst hlength
    obtain hw | ⟨w, n, rest, rfl, hw, hrest, hne'⟩ := h.cases hne
    · have hwritten : plainFrom split indent false column (cs ++ []) =
          cs ++ plainFrom split indent false (column + cs.length) [] :=
        plainFrom_word hw.ne_blank column []
      rw [List.append_nil] at hwritten
      rw [hwritten, plainFrom, List.append_nil]
      exact .word hw
    · have hshort : rest.length < (w ++ blanks (n + 1) ++ rest).length := by
        simp [blanks_succ]
        omega
      rw [List.append_assoc, plainFrom_word hw.ne_blank, blanks_succ, List.cons_append, plainFrom]
      split
      · next hfold =>
          have hn : n = 0 := by
            cases n with
            | zero => rfl
            | succ n => simp [blanks_succ, goesOn] at hfold
          subst hn
          rw [blanks_zero, List.nil_append, plainFrom_afterBlank hrest.first]
          have hfolded := Folded.fold hw (ih rest.length hshort hrest hne' indent rfl)
          simpa [blanks_succ] using hfolded
      · rw [show (' ' == ' ') = true from rfl, plainFrom_blanks, plainFrom_afterBlank hrest.first]
        have hspaced := Folded.spaced hw n
          (ih rest.length hshort hrest hne' (column + w.length + 1 + n) rfl)
        simpa [blanks_succ] using hspaced

end Writer

end CqlWorkload.Yaml
