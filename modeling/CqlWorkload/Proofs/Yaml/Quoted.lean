import CqlWorkload.Proofs.Yaml.Cursor

/-!
# Reading quoted scalars

`Quoted` relates what stands between quotes to the text that it is read as.  It does
not say where a line is broken, only how a break that is there counts, so that a
writer may choose the places.
-/

namespace CqlWorkload.Yaml

open Lexeme

/-- Is the character a blank, a tab or a break? -/
def isLayout (c : Char) : Bool := endsWord [c]

def quoteMark (double : Bool) : Char := if double then '"' else '\''

/-- A character that stands for itself between quotes. -/
structure IsOwn (double : Bool) (c : Char) : Prop where
  solid : isLayout c = false
  quote : c ≠ quoteMark double
  slash : double = true → c ≠ '\\'

/-- Is an escape read as some character, whatever follows it? -/
def Escapes (code : List Char) (value : Char) : Prop :=
  ∀ (c : Cursor) (rest : List Char), c.rest = code ++ rest →
    Lexeme.escape c = .ok ([value], c.past code)

/-- How the text between quotes (the second argument) is read (the first one). -/
inductive Quoted (double : Bool) : List Char → List Char → Prop
  | nil : Quoted double [] []
  | own {c : Char} {read written : List Char} (hc : IsOwn double c)
      (h : Quoted double read written) : Quoted double (c :: read) (c :: written)
  | quote {read written : List Char} (hdouble : double = false)
      (h : Quoted double read written) :
      Quoted double ('\'' :: read) ('\'' :: '\'' :: written)
  | escape {value : Char} {code read written : List Char} (hdouble : double = true)
      (hcode : Escapes code value) (h : Quoted double read written) :
      Quoted double (value :: read) ('\\' :: code ++ written)
  | blank {read written : List Char} (hnext : Stops isBreak written)
      (h : Quoted double read written) : Quoted double (' ' :: read) (' ' :: written)
  | breaks {first : Char} {others : List Char} {indent : Nat} {read written : List Char}
      (hfirst : isBreak first = true) (hothers : ∀ c ∈ others, isBreak c = true)
      (hindent : 0 < indent) (hnext : Stops isLayout written)
      (h : Quoted double read written) :
      Quoted double
        (folded (Cursor.breakValue first) (others.map Cursor.breakValue) ++ read)
        (first :: others ++ blanks indent ++ written)
  | fold {indent : Nat} {read written : List Char} (hdouble : double = true)
      (hindent : 0 < indent) (hnext : Stops isLayout written)
      (h : Quoted double read written) :
      Quoted double read ('\\' :: '\n' :: blanks indent ++ written)

/-! ## Layout -/

theorem isLayout_eq (c : Char) : isLayout c = (isGap c || isBreak c) := by
  simp [isLayout, endsWord, isGap]

theorem isLayout_quoteMark (double : Bool) : isLayout (quoteMark double) = false := by
  cases double <;> decide

theorem isGap_of_isBreak {c : Char} (h : isBreak c = true) : isGap c = false := by
  simp only [isBreak, Bool.or_eq_true, beq_iff_eq] at h
  rcases h with ((rfl | rfl) | rfl) | rfl <;> decide

theorem Stops.isGap {cs : List Char} (h : Stops isLayout cs) : Stops isGap cs :=
  fun c hc => (Bool.or_eq_false_iff.mp (isLayout_eq c ▸ h c hc)).1

theorem Stops.isBreak {cs : List Char} (h : Stops isLayout cs) : Stops isBreak cs :=
  fun c hc => (Bool.or_eq_false_iff.mp (isLayout_eq c ▸ h c hc)).2

theorem Stops.isBlank {cs : List Char} (h : Stops isLayout cs) : Stops (· == ' ') cs :=
  fun c hc => (Bool.or_eq_false_iff.mp (h.isGap c hc)).1

theorem isDocumentMark_layout {cs : List Char} {c : Char} (h : isLayout c = true) :
    isDocumentMark (c :: cs) = false := by
  refine isDocumentMark_eq_false (Stops.cons ?_)
  rw [isLayout_eq, Bool.or_eq_true] at h
  rcases h with h | h
  · simp only [Lexeme.isGap, Bool.or_eq_true, beq_iff_eq] at h
    rcases h with rfl | rfl <;> decide
  · simp only [Yaml.isBreak, Bool.or_eq_true, beq_iff_eq] at h
    rcases h with ((rfl | rfl) | rfl) | rfl <;> decide

/-- The empty lines in a quoted scalar end in front of the first word behind them. -/
theorem quotedBreaks_eq {others rest : List Char} {indent : Nat}
    (hothers : ∀ c ∈ others, isBreak c = true) (hindent : 0 < indent)
    (hrest : Stops isLayout rest) {fuel : Nat} (hfuel : others.length < fuel) {c : Cursor}
    (h : c.rest = others ++ (blanks indent ++ rest)) :
    quotedBreaks fuel c =
      .ok (others.map Cursor.breakValue, c.past (others ++ blanks indent)) := by
  obtain ⟨indent, rfl⟩ : ∃ n, indent = n + 1 := ⟨indent - 1, by omega⟩
  induction others generalizing c fuel with
  | nil =>
      obtain ⟨fuel, rfl⟩ : ∃ n, fuel = n + 1 := ⟨fuel - 1, by omega⟩
      have h : c.rest = blanks (indent + 1) ++ rest := h
      have hmark : c.atDocumentMark = false := by
        rw [Cursor.atDocumentMark, h]
        exact isDocumentMark_layout (by decide)
      have hskip : c.skipWhile isGap = c.past (blanks (indent + 1)) :=
        Cursor.skipWhile_eq h (fun x hx => by rw [mem_blanks hx]; decide) hrest.isGap
      have hnone : (c.past (blanks (indent + 1))).takeBreak? = none :=
        Cursor.takeBreak?_eq_none (by rw [Cursor.rest_past h]; exact hrest.isBreak)
      simp [quotedBreaks, hmark, hskip, hnone]
  | cons b others ih =>
      obtain ⟨fuel, rfl⟩ : ∃ n, fuel = n + 1 := ⟨fuel - 1, by omega⟩
      have hb := hothers b (by simp)
      have hmark : c.atDocumentMark = false := by
        rw [Cursor.atDocumentMark, h]
        exact isDocumentMark_layout (by rw [isLayout_eq, hb, Bool.or_true])
      have hskip : c.skipWhile isGap = c :=
        Cursor.skipWhile_of_stops (by rw [h]; exact Stops.cons (isGap_of_isBreak hb))
      have htake := Cursor.takeBreak?_cons h hb
      have hrest : (c.past [b]).rest = others ++ (blanks (indent + 1) ++ rest) :=
        Cursor.rest_past (a := [b]) h
      have hfuel : others.length < fuel := by simpa using hfuel
      have ih := ih (fun x hx => hothers x (by simp [hx])) hfuel hrest
      rw [← Cursor.past_append] at ih
      simp [quotedBreaks, hmark, hskip, htake, ih, bind, Except.bind, pure, Except.pure]

/-! ## One step of the reader -/

section Step

variable {double : Bool} {fuel : Nat} {c : Cursor} {rest : List Char}

theorem quotedFrom_close (h : c.rest = quoteMark double :: rest)
    (hrest : double = true ∨ rest.head? ≠ some '\'') :
    quotedFrom double (fuel + 1) c = .ok ([], c.past [quoteMark double]) := by
  have hdoubled : (!double && rest.head? == some '\'') = false := by
    cases double with
    | true => rfl
    | false => simpa using hrest
  rw [quotedFrom, h]
  simp only [hdoubled]
  exact if_pos rfl

theorem quotedFrom_own {ch : Char} (h : c.rest = ch :: rest) (hown : IsOwn double ch) :
    quotedFrom double (fuel + 1) c =
      (quotedFrom double fuel (c.past [ch])).map fun found => (ch :: found.1, found.2) := by
  have hquote : ¬ ch = if double = true then '"' else '\'' := hown.quote
  have hsolid : endsWord [ch] = false := hown.solid
  have hslash : (double && decide (ch = '\\')) = false := by
    cases double with
    | false => rfl
    | true => simpa using hown.slash rfl
  rw [quotedFrom, h]
  simp only [hquote, hsolid, hslash, Cursor.next_eq_past c ch]
  rfl

theorem quotedFrom_quote (h : c.rest = '\'' :: '\'' :: rest) :
    quotedFrom false (fuel + 1) c =
      (quotedFrom false fuel (c.past ['\'', '\''])).map fun found =>
        ('\'' :: found.1, found.2) := by
  rw [quotedFrom, h]
  rfl

theorem quotedFrom_layout {ch : Char} (h : c.rest = ch :: rest) (hch : isLayout ch = true)
    {gap : List Char} {behind : Cursor} (hgap : quotedGap c = .ok (gap, behind)) :
    quotedFrom double (fuel + 1) c =
      (quotedFrom double fuel behind).map fun found => (gap ++ found.1, found.2) := by
  have hquote : ¬ ch = if double = true then '"' else '\'' := by
    rintro rfl
    rw [show (if double = true then '"' else '\'') = quoteMark double from rfl,
      isLayout_quoteMark] at hch
    contradiction
  have hch : endsWord [ch] = true := hch
  rw [quotedFrom, h]
  simp only [hquote, hch, hgap]
  rfl

theorem quotedFrom_escape (h : c.rest = '\\' :: rest) {value : List Char} {behind : Cursor}
    (hvalue : Lexeme.escape (c.past ['\\']) = .ok (value, behind)) :
    quotedFrom true (fuel + 1) c =
      (quotedFrom true fuel behind).map fun found => (value ++ found.1, found.2) := by
  rw [quotedFrom, h]
  simp only [Cursor.next_eq_past c '\\', hvalue]
  rfl

/-- Blanks in front of a word are a gap as they are. -/
theorem quotedGap_blanks {n : Nat} (h : c.rest = blanks n ++ rest)
    (hrest : Stops isLayout rest) : quotedGap c = .ok (blanks n, c.past (blanks n)) := by
  have hgap : ∀ ch ∈ blanks n, isGap ch = true := fun ch hch => by
    rw [mem_blanks hch]
    decide
  have hnone : (c.past (blanks n)).takeBreak? = none :=
    Cursor.takeBreak?_eq_none (by rw [Cursor.rest_past h]; exact hrest.isBreak)
  simp only [quotedGap, Cursor.run_eq h hgap hrest.isGap, Cursor.skipWhile_eq h hgap hrest.isGap,
    hnone]

/-- Of several breaks in front of a word the first does not count. -/
theorem quotedGap_breaks {first : Char} {others : List Char} {indent : Nat}
    (h : c.rest = first :: (others ++ (blanks indent ++ rest))) (hfirst : isBreak first = true)
    (hothers : ∀ ch ∈ others, isBreak ch = true) (hindent : 0 < indent)
    (hrest : Stops isLayout rest) :
    quotedGap c = .ok (folded (Cursor.breakValue first) (others.map Cursor.breakValue),
      c.past (first :: others ++ blanks indent)) := by
  have hstops : Stops isGap c.rest := by
    rw [h]
    exact Stops.cons (isGap_of_isBreak hfirst)
  have hbehind : (c.past [first]).rest = others ++ (blanks indent ++ rest) :=
    Cursor.rest_past (a := [first]) h
  have hfuel : others.length < (c.past [first]).rest.length + 1 := by
    rw [hbehind, List.length_append]
    omega
  have hbreaks := quotedBreaks_eq hothers hindent hrest hfuel hbehind
  rw [← Cursor.past_append] at hbreaks
  simp only [quotedGap, Cursor.skipWhile_of_stops hstops, Cursor.takeBreak?_cons h hfirst, hbreaks]
  rfl

/-- An escaped break counts for nothing. -/
theorem escape_fold {indent : Nat} (h : c.rest = '\n' :: (blanks indent ++ rest))
    (hindent : 0 < indent) (hrest : Stops isLayout rest) :
    Lexeme.escape c = .ok ([], c.past ('\n' :: blanks indent)) := by
  have hbehind := Cursor.rest_past (a := ['\n']) h
  have hothers : ∀ ch ∈ ([] : List Char), isBreak ch = true := by simp
  have hfuel : ([] : List Char).length < (c.past ['\n']).rest.length + 1 := Nat.succ_pos _
  have hbreaks := quotedBreaks_eq hothers hindent hrest hfuel hbehind
  rw [← Cursor.past_append] at hbreaks
  have hlookup : escapes.lookup '\n' = none := by decide
  simp only [Lexeme.escape, h, hlookup, codeLength, Cursor.takeBreak?_cons h (by decide), hbreaks]
  rfl

end Step

/-! ## The reader -/

/-- Blanks at the front stand for themselves, up to a word. -/
theorem Quoted.exists_blanks {double : Bool} {read written : List Char}
    (h : Quoted double read written) (hnext : Stops Yaml.isBreak written) :
    ∃ n read' written', read = blanks n ++ read' ∧ written = blanks n ++ written' ∧
      Quoted double read' written' ∧ Stops isLayout written' := by
  cases h with
  | nil => exact ⟨0, [], [], rfl, rfl, .nil, stops_nil _⟩
  | own hc h => exact ⟨0, _, _, rfl, rfl, .own hc h, Stops.cons hc.solid⟩
  | quote hdouble h =>
      exact ⟨0, _, _, rfl, rfl, .quote hdouble h, Stops.cons (by decide)⟩
  | escape hdouble hcode h =>
      exact ⟨0, _, _, rfl, rfl, .escape hdouble hcode h, Stops.cons (by decide)⟩
  | blank hblank h =>
      obtain ⟨n, read', written', rfl, rfl, h', hstops⟩ := h.exists_blanks hblank
      exact ⟨n + 1, read', written', rfl, rfl, h', hstops⟩
  | breaks hfirst =>
      rw [List.cons_append, List.cons_append, stops_cons, hfirst] at hnext
      contradiction
  | fold hdouble hindent hword h =>
      exact ⟨0, _, _, rfl, rfl, .fold hdouble hindent hword h,
        Stops.cons (by decide)⟩

/-- What is written between quotes is read up to the closing quote. -/
theorem Quoted.quotedFrom_eq {double : Bool} {read written : List Char}
    (h : Quoted double read written) {rest : List Char}
    (hrest : double = true ∨ rest.head? ≠ some '\'') {fuel : Nat}
    (hfuel : written.length < fuel) {c : Cursor}
    (hc : c.rest = written ++ quoteMark double :: rest) :
    quotedFrom double fuel c = .ok (read, c.past (written ++ [quoteMark double])) := by
  have hquote : Stops isLayout (quoteMark double :: rest) :=
    Stops.cons (isLayout_quoteMark double)
  induction fuel generalizing read written c with
  | zero => omega
  | succ fuel ih =>
      -- what is left behind one piece is read by the hypothesis
      have hleft : ∀ piece {read' written' : List Char}, written = piece ++ written' →
          piece ≠ [] → Quoted double read' written' →
          quotedFrom double fuel (c.past piece) =
            .ok (read', c.past (written ++ [quoteMark double])) := by
        rintro piece read' written' rfl hpiece h'
        have hpos := List.length_pos_iff.mpr hpiece
        rw [List.append_assoc, Cursor.past_append]
        exact ih h' (by rw [List.length_append] at hfuel; omega)
          (Cursor.rest_past (by rw [hc, List.append_assoc]))
      cases h with
      | nil => exact quotedFrom_close hc hrest
      | @own ch _ _ hown h =>
          rw [quotedFrom_own hc hown, hleft [ch] rfl (by simp) h]
          rfl
      | quote hdouble h =>
          subst hdouble
          rw [quotedFrom_quote hc, hleft ['\'', '\''] rfl (by simp) h]
          rfl
      | @escape _ code _ written hdouble hcode h =>
          subst hdouble
          have hesc := hcode (c.past ['\\']) (written ++ quoteMark true :: rest)
            (Cursor.rest_past (a := ['\\']) (by rw [hc]; simp))
          rw [← Cursor.past_append] at hesc
          rw [quotedFrom_escape hc hesc, hleft (['\\'] ++ code) rfl (by simp) h]
          rfl
      | blank hnext h =>
          obtain ⟨n, read', written', rfl, rfl, h', hstops⟩ := h.exists_blanks hnext
          have hgap := quotedGap_blanks (n := n + 1) (by rw [hc, blanks_succ]; simp)
            (hstops.append hquote)
          rw [quotedFrom_layout hc (by decide) hgap,
            hleft (blanks (n + 1)) rfl (by simp [blanks_succ]) h']
          rfl
      | @breaks first others indent _ written' hfirst hothers hindent hnext h =>
          have hgap := quotedGap_breaks (by rw [hc]; simp) hfirst hothers hindent
            (hnext.append hquote)
          rw [quotedFrom_layout hc (by rw [isLayout_eq, hfirst, Bool.or_true]) hgap,
            hleft (first :: others ++ blanks indent) rfl (by simp) h]
          rfl
      | @fold indent _ written' hdouble hindent hnext h =>
          subst hdouble
          have hesc := escape_fold (c := c.past ['\\'])
            (Cursor.rest_past (a := ['\\']) (by rw [hc]; simp)) hindent (hnext.append hquote)
          rw [← Cursor.past_append] at hesc
          rw [quotedFrom_escape hc hesc,
            hleft (['\\'] ++ '\n' :: blanks indent) rfl (by simp) h]
          rfl

/-- A scalar in quotes is read with its quotes. -/
theorem Quoted.quoted_eq {double : Bool} {read written : List Char}
    (h : Quoted double read written) {rest : List Char}
    (hrest : double = true ∨ rest.head? ≠ some '\'') {c : Cursor}
    (hc : c.rest = quoteMark double :: (written ++ quoteMark double :: rest)) :
    quoted double c =
      .ok (read, c.past (quoteMark double :: written ++ [quoteMark double])) := by
  have hbehind := Cursor.rest_past (a := [quoteMark double]) hc
  rw [quoted, Cursor.next_eq_past c (quoteMark double),
    h.quotedFrom_eq hrest (by rw [hc]; simp; omega) hbehind, ← Cursor.past_append]
  rfl

end CqlWorkload.Yaml
