import CqlWorkload.Proofs.Yaml.Quoted

/-!
# Texts in single quotes

A text in single quotes is read as `singleSeen` says: character for character, but for
the next-line character U+0085.  It is written as a break like the others and read as
the break of a line.

**Breaks.** Behind a break the writer indents the next word, and the reader takes the
indentation back.  A text has no blank on either side of a break, or it would not be
written in single quotes.
-/

namespace CqlWorkload.Yaml

open Lexeme

/-- The break that is not read as itself. -/
def nextLine : Char := '\x85'

/-- What a text in single quotes is read as; `behind` tells whether a break stands in
front of it. -/
def singleSeen (behind : Bool) : List Char → List Char
  | [] => []
  | c :: rest =>
    if c = nextLine then
      (if behind then ['\n'] else if rest.head?.any isBreak then [] else [' ']) ++
        singleSeen true rest
    else c :: singleSeen (isBreak c) rest

theorem singleSeen_eq_self {cs : List Char} (h : nextLine ∉ cs) (behind : Bool) :
    singleSeen behind cs = cs := by
  induction cs generalizing behind with
  | nil => rfl
  | cons c cs ih =>
      rw [List.mem_cons, not_or] at h
      rw [singleSeen, if_neg (Ne.symm h.1), ih h.2]

theorem nextLine_not_mem_singleSeen (cs : List Char) (behind : Bool) :
    nextLine ∉ singleSeen behind cs := by
  induction cs generalizing behind with
  | nil => simp [singleSeen]
  | cons c cs ih =>
      rw [singleSeen]
      by_cases hc : c = nextLine
      · rw [if_pos hc, List.mem_append, not_or]
        refine ⟨?_, ih true⟩
        split
        · decide
        · split <;> decide
      · rw [if_neg hc, List.mem_cons, not_or]
        exact ⟨Ne.symm hc, ih _⟩

/-! ## Pairs of characters -/

namespace Style

theorem hasPair_cons (p q : Char → Bool) (c : Char) (cs : List Char) :
    hasPair p q (c :: cs) = ((p c && cs.head?.any q) || hasPair p q cs) := by
  cases cs <;> simp [hasPair]

/-- Behind a character of the first class comes none of the second. -/
theorem stops_of_hasPair {p q : Char → Bool} {c : Char} {cs : List Char}
    (h : hasPair p q (c :: cs) = false) (hc : p c = true) : Stops q cs := by
  rw [hasPair_cons, hc, Bool.true_and, Bool.or_eq_false_iff] at h
  intro d hd
  rw [Option.mem_def] at hd
  simpa [hd] using h.1

theorem hasPair_tail {p q : Char → Bool} {c : Char} {cs : List Char}
    (h : hasPair p q (c :: cs) = false) : hasPair p q cs = false := by
  rw [hasPair_cons, Bool.or_eq_false_iff] at h
  exact h.2

end Style

/-- A text that is written in single quotes. -/
structure SingleText (cs : List Char) : Prop where
  char : ∀ c ∈ cs, isSpecial c = false ∧ c ≠ '\n'
  blankBreak : Style.hasPair Style.isSpace isBreak cs = false
  breakBlank : Style.hasPair isBreak Style.isSpace cs = false

theorem SingleText.tail {c : Char} {cs : List Char} (h : SingleText (c :: cs)) :
    SingleText cs :=
  ⟨fun d hd => h.char d (by simp [hd]), Style.hasPair_tail h.blankBreak,
    Style.hasPair_tail h.breakBlank⟩

theorem stops_of_goesOn {cs : List Char} (h : goesOn cs = true) : Stops Style.isSpace cs := by
  cases cs with
  | nil => contradiction
  | cons c cs => simpa [goesOn, Style.isSpace] using h

/-- A character that needs no escape is layout only as a blank or a break. -/
theorem isLayout_eq_false {c : Char} (hspecial : isSpecial c = false) (hblank : c ≠ ' ')
    (hbreak : isBreak c = false) : isLayout c = false := by
  have htab : c ≠ '\t' := by
    rintro rfl
    contradiction
  simp [isLayout_eq, isGap, hblank, htab, hbreak]

theorem SingleText.stops_isLayout {cs : List Char} (h : SingleText cs)
    (hblank : Stops Style.isSpace cs) (hbreak : Stops isBreak cs) : Stops isLayout cs := by
  cases cs with
  | nil => exact stops_nil _
  | cons c cs =>
      simp only [stops_cons, Style.isSpace, beq_eq_false_iff_ne] at hblank hbreak ⊢
      exact isLayout_eq_false (h.char c (by simp)).1 hblank hbreak

/-! ## The writer -/

section Writer

variable {split : Bool} {indent : Nat}

theorem singleFrom_cons {before : Option Char} (hbefore : before.any isBreak = false)
    (column : Nat) (c : Char) (rest : List Char) :
    singleFrom split indent before column (c :: rest) =
      if c = ' ' && split && before.any (· != ' ') && goesOn rest && width < column then
        newLine indent ++ singleFrom split indent (some c) indent rest
      else if c = '\'' then
        '\'' :: '\'' :: singleFrom split indent (some c) (column + 2) rest
      else if c = '\n' then '\n' :: '\n' :: singleFrom split indent (some c) 0 rest
      else c :: singleFrom split indent (some c) (column + 1) rest := by
  simp [singleFrom, hbefore]

/-- Behind a break the first word is indented and begins afresh. -/
theorem singleFrom_behind_break {b c : Char} (hb : isBreak b = true) (hc : isBreak c = false)
    (hblank : c ≠ ' ') (column : Nat) (rest : List Char) :
    singleFrom split indent (some b) column (c :: rest) =
      blanks indent ++ singleFrom split indent none indent (c :: rest) := by
  have hline : c ≠ '\n' := by
    rintro rfl
    contradiction
  by_cases hquote : c = '\''
  · subst hquote
    simp [singleFrom, hb, hc]
  · simp [singleFrom, hb, hc, hblank, hline, hquote]

theorem singleFrom_break {b c : Char} (hc : isBreak c = true) (hline : c ≠ '\n') (column : Nat)
    (rest : List Char) : singleFrom split indent (some b) column (c :: rest) =
      c :: singleFrom split indent (some c) (column + 1) rest := by
  have hblank : c ≠ ' ' := by
    rintro rfl
    contradiction
  have hquote : c ≠ '\'' := by
    rintro rfl
    contradiction
  simp [singleFrom, hc, hblank, hquote, hline]

/-- In front of a word nothing is written but the word. -/
theorem stops_singleFrom {before : Option Char} (hbefore : before.any isBreak = false)
    {cs : List Char} (hcs : Stops isLayout cs) (column : Nat) :
    Stops isLayout (singleFrom split indent before column cs) := by
  cases cs with
  | nil => simp [singleFrom, hbefore]
  | cons c cs =>
      rw [stops_cons] at hcs
      have hblank : c ≠ ' ' := by
        rintro rfl
        contradiction
      have hline : c ≠ '\n' := by
        rintro rfl
        contradiction
      rw [singleFrom_cons hbefore]
      simp only [hblank, hline, decide_false, Bool.false_and, Bool.false_eq_true, if_false]
      split
      · exact Stops.cons (by decide)
      · exact Stops.cons hcs

/-- A blank that was not made a break is not followed by one. -/
theorem stops_singleFrom_blank {cs : List Char} (hcs : Stops isBreak cs) (column : Nat) :
    Stops isBreak (singleFrom split indent (some ' ') column cs) := by
  have hbefore : (some ' ').any isBreak = false := by decide
  cases cs with
  | nil => simp [singleFrom, hbefore]
  | cons c cs =>
      rw [stops_cons] at hcs
      have hline : c ≠ '\n' := by
        rintro rfl
        contradiction
      rw [singleFrom_cons hbefore]
      simp only [Option.any_some, bne_self_eq_false, Bool.and_false, Bool.false_and,
        Bool.false_eq_true, hline, if_false]
      split
      · exact Stops.cons (by decide)
      · exact Stops.cons hcs

/-- A text written behind a break: more breaks, and then a word with its indentation. -/
structure BehindBreak (indent : Nat) (cs text others written read : List Char) : Prop where
  text_eq : text = others ++ blanks indent ++ written
  breaks : ∀ c ∈ others, isBreak c = true
  word : Stops isLayout written
  quoted : Quoted false read written
  seen : singleSeen true cs = others.map Cursor.breakValue ++ read
  others_eq_nil : others = [] ↔ Stops isBreak cs

/-- The break itself joins the breaks behind it. -/
theorem BehindBreak.quoted_cons {c : Char} {cs text others written read : List Char}
    (h : BehindBreak indent cs text others written read) (hc : isBreak c = true)
    (hline : c ≠ '\n') (hindent : 0 < indent) : Quoted false (singleSeen false (c :: cs)) (c :: text) := by
  have hquoted := h.quoted.breaks hc h.breaks hindent h.word
  have hseen : singleSeen false (c :: cs) =
      folded (Cursor.breakValue c) (others.map Cursor.breakValue) ++ read := by
    rw [singleSeen, h.seen]
    have hvalue : Cursor.breakValue c = if c = nextLine then '\n' else c := rfl
    by_cases hnext : c = nextLine
    · rw [if_pos hnext, hvalue, if_pos hnext]
      have hothers := h.others_eq_nil.trans (stops_iff_any_head? isBreak cs)
      cases others with
      | nil => simp [hothers.mp rfl, folded]
      | cons o others =>
          have hhead : cs.head?.any isBreak = true := by simpa using hothers
          simp [hhead, folded]
    · rw [if_neg hnext, hvalue, if_neg hnext, hc, h.seen, folded, bne_iff_ne.mpr hline]
      rfl
  rw [hseen, h.text_eq]
  exact hquoted

/-- One blank, kept or made a break, in front of what is read. -/
theorem quoted_singleFrom_blank {cs : List Char} (h : SingleText (' ' :: cs))
    (hindent : 0 < indent) {before : Option Char} (hbefore : before.any isBreak = false)
    (hrest : ∀ column, Quoted false (singleSeen false cs)
      (singleFrom split indent (some ' ') column cs)) (column : Nat) :
    Quoted false (singleSeen false (' ' :: cs))
      (singleFrom split indent before column (' ' :: cs)) := by
  have hnext : Stops isBreak cs := Style.stops_of_hasPair h.blankBreak rfl
  have hseen : singleSeen false (' ' :: cs) = ' ' :: singleSeen false cs := rfl
  rw [hseen, singleFrom_cons hbefore]
  split
  · next hfold =>
      have hgoesOn : goesOn cs = true := by
        simp only [Bool.and_eq_true] at hfold
        exact hfold.1.2
      have hword := h.tail.stops_isLayout (stops_of_goesOn hgoesOn) hnext
      have hbreak : isBreak '\n' = true := by decide
      have hothers : ∀ ch ∈ ([] : List Char), isBreak ch = true := by simp
      exact (hrest indent).breaks hbreak hothers hindent
        (stops_singleFrom (by decide) hword indent)
  · exact (hrest _).blank (stops_singleFrom_blank hnext _)

/-- One character that is neither a blank nor a break in front of what is read. -/
theorem quoted_singleFrom_solid {c : Char} {cs : List Char} (hc : isLayout c = false)
    {before : Option Char} (hbefore : before.any isBreak = false)
    (hrest : ∀ column, Quoted false (singleSeen false cs)
      (singleFrom split indent (some c) column cs)) (column : Nat) :
    Quoted false (singleSeen false (c :: cs))
      (singleFrom split indent before column (c :: cs)) := by
  have hbreak : isBreak c = false := (Bool.or_eq_false_iff.mp (isLayout_eq c ▸ hc)).2
  have hblank : c ≠ ' ' := by
    rintro rfl
    contradiction
  have hline : c ≠ '\n' := by
    rintro rfl
    contradiction
  have hnext : c ≠ nextLine := by
    rintro rfl
    contradiction
  rw [singleFrom_cons hbefore, if_neg (by simp [hblank]), if_neg hline, singleSeen,
    if_neg hnext, hbreak]
  split
  · next hquote =>
      subst hquote
      exact (hrest _).quote rfl
  · next hquote => exact (hrest _).own ⟨hc, hquote, by simp⟩

/-- A break in front of a text written behind a break is one of the other breaks. -/
theorem BehindBreak.cons {c : Char} {cs text others written read : List Char}
    (h : BehindBreak indent cs text others written read) (hc : isBreak c = true) :
    BehindBreak indent (c :: cs) (c :: text) (c :: others) written read where
  text_eq := by rw [h.text_eq]; rfl
  breaks := List.forall_mem_cons.mpr ⟨hc, h.breaks⟩
  word := h.word
  quoted := h.quoted
  seen := by
    have hvalue : Cursor.breakValue c = if c = nextLine then '\n' else c := rfl
    rw [singleSeen, hc, h.seen, List.map_cons, hvalue]
    split <;> rfl
  others_eq_nil := by simp [hc]

/-- What is written in single quotes, from a word on and from behind a break on. -/
theorem quoted_singleFrom_and (hindent : 0 < indent) {cs : List Char} (h : SingleText cs) :
    (∀ before column, before.any isBreak = false →
      Quoted false (singleSeen false cs) (singleFrom split indent before column cs)) ∧
    ∀ b column, isBreak b = true → Stops Style.isSpace cs →
      ∃ others written read, BehindBreak indent cs
        (singleFrom split indent (some b) column cs) others written read := by
  induction cs with
  | nil =>
      refine ⟨fun before column hbefore => ?_, fun b column hb _ => ?_⟩
      · simp only [singleFrom, hbefore]
        exact .nil
      · exact ⟨[], [], [], by simp [singleFrom, hb], by simp, stops_nil _, .nil, rfl, by simp⟩
  | cons c cs ih =>
      obtain ⟨word, behind⟩ := ih h.tail
      obtain ⟨hspecial, hline⟩ := h.char c (by simp)
      by_cases hblank : c = ' '
      · subst hblank
        refine ⟨fun before column hbefore => ?_, fun b column hb hspace => ?_⟩
        · exact quoted_singleFrom_blank h hindent hbefore
            (fun column => word _ column (by decide)) column
        · simp [Style.isSpace] at hspace
      cases hc : isBreak c with
      | true =>
          have hbehind := fun column =>
            behind c column hc (Style.stops_of_hasPair h.breakBlank hc)
          have hquote : c ≠ '\'' := by
            rintro rfl
            contradiction
          refine ⟨fun before column hbefore => ?_, fun b column hb hspace => ?_⟩
          · obtain ⟨others, written, read, hothers⟩ := hbehind (column + 1)
            rw [singleFrom_cons hbefore, if_neg (by simp [hblank]), if_neg hquote, if_neg hline]
            exact hothers.quoted_cons hc hline hindent
          · obtain ⟨others, written, read, hothers⟩ := hbehind (column + 1)
            rw [singleFrom_break hc hline]
            exact ⟨c :: others, written, read, hothers.cons hc⟩
      | false =>
          have hsolid := isLayout_eq_false hspecial hblank hc
          have hfirst : ∀ before column, before.any isBreak = false →
              Quoted false (singleSeen false (c :: cs))
                (singleFrom split indent before column (c :: cs)) :=
            fun before column hbefore => quoted_singleFrom_solid hsolid hbefore
              (fun column => word _ column hc) column
          refine ⟨hfirst, fun b column hb hspace => ?_⟩
          have hnext : c ≠ nextLine := by
            rintro rfl
            contradiction
          refine ⟨[], _, _, singleFrom_behind_break hb hc hblank column cs, by simp, ?_,
            hfirst none indent rfl, ?_, by simp [hc]⟩
          · exact stops_singleFrom rfl (Stops.cons hsolid) indent
          · rw [singleSeen, singleSeen, if_neg hnext, if_neg hnext]
            rfl

/-- A text in single quotes is read as `singleSeen` says. -/
theorem quoted_singleFrom (split : Bool) (hindent : 0 < indent) {cs : List Char}
    (h : SingleText cs) (column : Nat) :
    Quoted false (singleSeen false cs) (singleFrom split indent none column cs) :=
  (quoted_singleFrom_and hindent h).1 none column rfl

end Writer

end CqlWorkload.Yaml
