import CqlWorkload.Proofs.Number.Layout
import CqlWorkload.Proofs.Yaml.Key

/-!
# Entries

What an entry of a written mapping is made of, apart from mappings below it: a key with
its colon, and a text, a number or an empty mapping up to the next line.

**Two kinds of keys.** A simple key stands in front of its colon.  Any other one is
announced by a question mark, and its colon begins a line.
-/

namespace CqlWorkload.Yaml

open Lexeme

/-- A text as a token. -/
def textToken (s : String) : Token := .scalar (seen s) (Style.ofText s = .plain)

/-- A key and its colon, as they are written at a column. -/
def keyLine (column : Nat) (name : String) : List Char :=
  if isSimpleKey name then keyText name ++ [':']
  else ['?', ' '] ++ (textLine (column + indentStep) (column + 2) name ++ blanks column) ++ [':']

/-! ## Numbers -/

/-- A character of a number in text. -/
def isNumberChar (c : Char) : Bool :=
  c.isDigit || ['.', 'e', '+', '-', 'i', 'n', 'f', 'a'].contains c

theorem isNumberChar_ne {c d : Char} (h : isNumberChar c = true) (hd : isNumberChar d = false) :
    c ≠ d := by
  rintro rfl
  rw [h] at hd
  contradiction

/-- Numbers are single words of plain scalars. -/
theorem isWord_of_isNumberChar {cs : List Char} (h : ∀ c ∈ cs, isNumberChar c = true)
    (hne : cs ≠ []) : IsWord cs where
  solid c hc := by
    have hne := fun d => isNumberChar_ne (d := d) (h c hc)
    simp [isLayout_eq, isGap, isBreak, hne ' ' (by decide), hne '\t' (by decide),
      hne '\n' (by decide), hne '\x85' (by decide), hne '\u2028' (by decide),
      hne '\u2029' (by decide)]
  inline c hc := by
    have hne := fun d => isNumberChar_ne (d := d) (h c hc)
    refine ⟨?_, hne byteOrderMark (by decide)⟩
    simp [isBreak, hne '\n' (by decide), hne '\x85' (by decide), hne '\u2028' (by decide),
      hne '\u2029' (by decide)]
  start := by
    obtain ⟨c, rest, rfl⟩ := List.exists_cons_of_ne_nil hne
    exact ⟨c, rest, rfl, isNumberChar_ne (h c (by simp)) (by decide)⟩
  colon hlast := isNumberChar_ne (h ':' (List.mem_of_getLast? hlast)) (by decide) rfl

theorem beginsPlain_of_isNumberChar {cs : List Char} (h : ∀ c ∈ cs, isNumberChar c = true)
    (hne : cs ≠ []) (hsign : cs ≠ ['-']) : BeginsPlain cs where
  head := by
    have hword := isWord_of_isNumberChar h hne
    obtain ⟨c, rest, rfl, hsharp⟩ := hword.start
    have hc := h c (by simp)
    have hindicators : Style.indicators.all (!isNumberChar ·) = true := by decide
    refine ⟨c, rest, rfl, ?_, ?_, fun hstart => ?_⟩
    · rw [List.contains_eq_mem, decide_eq_false_iff_not]
      intro hmem
      have hnot : isNumberChar c = false := by simpa using List.all_eq_true.mp hindicators c hmem
      exact isNumberChar_ne hc hnot rfl
    · simp [isSkipped, hword.solid c (by simp), hsharp, isNumberChar_ne hc (d := byteOrderMark)
        (by decide)]
    · have hdash : c = '-' := by
        rcases hstart with h | h | h
        · exact h
        · exact absurd h (isNumberChar_ne hc (by decide))
        · exact absurd h (isNumberChar_ne hc (by decide))
      cases rest with
      | nil => exact absurd (by rw [hdash]) hsign
      | cons d rest => exact ⟨d, rest, rfl, hword.solid d (by simp)⟩

/-- A number in text: its characters, and more of them than a sign. -/
structure IsNumberText (cs : List Char) : Prop where
  char : ∀ c ∈ cs, isNumberChar c = true
  ne_nil : cs ≠ []
  ne_sign : cs ≠ ['-']

theorem IsNumberText.signed {cs : List Char} (h : IsNumberText cs) (negative : Bool) :
    IsNumberText ((if negative then ['-'] else []) ++ cs) := by
  cases negative with
  | false => exact h
  | true =>
      refine ⟨fun c hc => ?_, by simp, by simpa using h.ne_nil⟩
      rcases List.mem_cons.mp hc with rfl | hc
      · decide
      · exact h.char c hc

theorem toList_plainScalar_int (n : Int) : (plainScalar (.int n)).toList =
    (if decide (n < 0) then ['-'] else []) ++ Nat.toDigits 10 n.natAbs := by
  by_cases hn : n < 0 <;>
    simp [plainScalar, Value.plainText, Value.shown, intText, hn, FloatLayout.digitsText]

theorem isNumberText_int (n : Int) : IsNumberText (plainScalar (.int n)).toList := by
  have hdigits : IsNumberText (Nat.toDigits 10 n.natAbs) := by
    refine ⟨fun c hc => ?_, by simp, fun heq => ?_⟩
    · simp [isNumberChar, Digit.isDigit_of_mem_toDigits hc]
    · have hsign : ('-' : Char).isDigit = true :=
        Digit.isDigit_of_mem_toDigits (n := n.natAbs) (by simp [heq])
      exact absurd hsign (by decide)
  rw [toList_plainScalar_int]
  exact hdigits.signed _

theorem isNumberText_float (x : Double) : IsNumberText (plainScalar (.float x)).toList := by
  cases x with
  | nan => exact ⟨List.all_eq_true.mp (by decide), by decide, by decide⟩
  | signed negative rank =>
      by_cases hrank : rank.val = Double.infinityRank
      · have htext : plainScalar (.float (.signed negative rank)) =
            if negative then "-.inf" else ".inf" := by
          simp only [plainScalar, FloatLayout.render, hrank, if_true]
          rfl
        rw [htext]
        cases negative <;> exact ⟨List.all_eq_true.mp (by decide), by decide, by decide⟩
      · have hregular : FloatLayout.yaml.IsRegular := Or.inr rfl
        have hfinite : rank.val < Double.infinityRank := by omega
        obtain ⟨s, hs, -, htext⟩ :=
          FloatLayout.exists_spelling_render hregular negative hfinite
        have hspelling : IsNumberText s.text := by
          obtain ⟨c, others, heq, hc⟩ := hs.exists_text_cons
          refine ⟨fun c hc => ?_, by simp [heq], fun hsign => ?_⟩
          · rcases hs.of_mem_text hc with hc | hc
            · simp [isNumberChar, hc]
            · have hall : ['.', 'e', '+', '-'].all isNumberChar = true := by decide
              exact List.all_eq_true.mp hall c hc
          · rw [heq] at hsign
            obtain ⟨rfl, -⟩ := List.cons.inj hsign
            contradiction
        rw [plainScalar, htext]
        exact hspelling.signed negative

namespace Scan

section Value

variable {c : Cursor} {tokens : List Token} {columns : List Nat} {allowed : Bool}
  {top n : Nat} {rest : List Char}

/-! ## Values without parts -/

theorem leads_number {cs : List Char} (h : IsNumberText cs) (hn : n ≤ top)
    (hrest : LineStart n rest) (htop : top < c.column)
    (hc : c.rest = cs ++ (newLine n ++ rest)) (tokens : List Token) (columns : List Nat)
    (allowed : Bool) :
    Leads (between c tokens (top :: columns) allowed)
      (between (c.past (cs ++ newLine n)) (.scalar (String.ofList cs) true :: tokens)
        (top :: columns) true) :=
  leads_plain (.word (isWord_of_isNumberChar h.char h.ne_nil))
    (beginsPlain_of_isNumberChar h.char h.ne_nil h.ne_sign) (Nat.lt_succ_self top) hn hrest htop hc

/-- The candidate in front of a bracket is kept behind the bracket. -/
theorem freshCandidates_opened {next : Cursor} (hline : next.line = c.line)
    (hindex : next.index = c.index + 1) (tokens : List Token) (columns : List Nat)
    (allowed : Bool) :
    freshCandidates next [none, if allowed then some (candidateAt c tokens columns) else none] =
      .ok [none, if allowed then some (candidateAt c tokens columns) else none] := by
  have hreach : ¬ c.index + keyReach < c.index + 1 := by simp [keyReach]
  cases allowed with
  | false => rfl
  | true =>
      have hstale : isStale next (candidateAt c tokens columns) = false := by
        simp [isStale, candidateAt, hline, hindex, hreach]
      simp [freshCandidates, hstale, bind, Except.bind, pure, Except.pure]

/-- A mapping without entries stands in brackets. -/
theorem leads_emptyMap (hrest : LineStart n rest) (htop : top < c.column)
    (hc : c.rest = ['\x7b', '\x7d'] ++ (newLine n ++ rest)) :
    Leads (between c tokens (top :: columns) allowed)
      (between (c.past (['\x7b', '\x7d'] ++ newLine n))
        (.flowMappingEnd :: .flowMapping :: tokens) (top :: columns) true) := by
  have hopen : c.rest = '\x7b' :: '\x7d' :: (newLine n ++ rest) := hc
  have hclose : (c.past ['\x7b']).rest = '\x7d' :: (newLine n ++ rest) :=
    Cursor.rest_past (a := ['\x7b']) hopen
  have hend : (c.past ['\x7b', '\x7d']).rest = newLine n ++ rest := Cursor.rest_past hc
  have hinline : ∀ ch ∈ ['\x7b'], Cursor.Inline ch :=
    List.forall_mem_singleton.mpr (by decide)
  have hline : (c.past ['\x7b']).line = c.line := Cursor.line_past hopen hinline
  have hindex : (c.past ['\x7b']).index = c.index + 1 := Cursor.index_past hopen
  have hcolumn : top < (c.past ['\x7b']).column := by
    have hcolumn : (c.past ['\x7b']).column = c.column + 1 := Cursor.column_past hopen hinline
    omega
  -- the candidate in front of the bracket is kept up to the end of the line
  let k : Option Candidate := if allowed then some (candidateAt c tokens (top :: columns)) else none
  have hopening : (between c tokens (top :: columns) allowed).token '\x7b'
      ('\x7d' :: (newLine n ++ rest)) =
      .ok ⟨c.past ['\x7b'], .flowMapping :: tokens, top :: columns, [none, k], true⟩ := by
    obtain ⟨hdash, hdot⟩ := not_mark (c := c) (by omega)
    simp only [token, between, hdash, hdot]
    cases allowed <;> rfl
  have hkept : settle ⟨c.past ['\x7b'], .flowMapping :: tokens, top :: columns, [none, k], true⟩ =
      .ok ⟨c.past ['\x7b'], .flowMapping :: tokens, top :: columns, [none, k], true⟩ := by
    have hword : Stops isSkipped (c.past ['\x7b']).rest := by
      rw [hclose]
      exact Stops.cons (by decide)
    have hfresh : freshCandidates (c.past ['\x7b']) [none, k] = .ok [none, k] :=
      freshCandidates_opened hline hindex tokens (top :: columns) allowed
    rw [settle, approach_word hword, dropStale]
    simp only [bind, Except.bind, pure, Except.pure, hfresh]
    rfl
  have hclosing : token ⟨c.past ['\x7b'], .flowMapping :: tokens, top :: columns, [none, k], true⟩
      '\x7d' (newLine n ++ rest) =
      .ok ⟨c.past ['\x7b', '\x7d'], .flowMappingEnd :: .flowMapping :: tokens, top :: columns, [k],
        false⟩ := by
    obtain ⟨hdash, hdot⟩ := not_mark (c := c.past ['\x7b']) (by omega)
    simp only [token, hdash, hdot]
    rfl
  have hstart : Stops isSkipped c.rest := by
    rw [hopen]
    exact Stops.cons (by decide)
  have hfirst := Leads.of_token (Cursor.index_lt_past hopen (by simp)) (settle_value htop hstart)
    hopen hopening
  have hsecond := Leads.of_token (Cursor.index_lt_past (a := ['\x7d']) hclose (by simp)) hkept
    hclose hclosing
  rw [Cursor.past_append]
  refine (hfirst.trans hsecond).trans (leads_newLine hend hrest.word fun k' hk' => ?_)
  obtain ⟨hle, hrequired⟩ := candidate_not_required htop k' hk'
  exact ⟨Nat.le_trans hle (Cursor.line_past_le c _), hrequired⟩

/-! ## Keys with their colons -/

variable {outer : List Nat} {opening : List Token}

/-- The mark of a key that stands on lines of its own. -/
theorem leads_question {others : List Char} (hc : c.rest = '?' :: others)
    (hends : endsWord others = true) (hblock : AtBlock c.column outer columns opening) :
    Leads (between c tokens columns true)
      (between (c.past ['?']) (.key :: opening ++ tokens) (c.column :: outer) true) := by
  obtain ⟨hdash, hdot⟩ := not_mark (c := c) fun _ => by
    rw [hc]
    exact isDocumentMark_eq_false (Stops.cons (by decide))
  have hquestion : (between c tokens columns true).token '?' others =
      (between c tokens columns true).question := by
    simp only [token, between, hdash, hdot, hends]
    rfl
  have hopened := openBlock_between hblock tokens true
  have htoken : (between c tokens columns true).token '?' others =
      .ok (between (c.past ['?']) (.key :: opening ++ tokens) (c.column :: outer) true) := by
    rw [hquestion, question, show (between c tokens columns true).inFlow = false from rfl]
    simp only [Bool.false_eq_true, if_false, hopened]
    rfl
  refine .of_token (Cursor.index_lt_past (a := ['?']) hc (by simp)) (settle_between ?_
    hblock.head_le) hc htoken
  rw [hc]
  exact Stops.cons (by decide)

/-- Where a key may begin a colon is read without one in front of it. -/
theorem leads_lateColon {others : List Char} (hc : c.rest = ':' :: others)
    (hends : endsWord others = true) {column : Nat} (hcolumn : c.column = column) :
    Leads (between c tokens (column :: outer) true)
      (between (c.past [':']) (.value :: tokens) (column :: outer) true) := by
  subst hcolumn
  have hinside : AtBlock c.column outer (c.column :: outer) [] := .inside
  have hopened := openBlock_between hinside tokens true
  have hcolon : (between c tokens (c.column :: outer) true).colon =
      .ok { ((between c tokens (c.column :: outer) true).openBlock .blockMapping).take 1 .value with
        keyAllowed :=
          !((between c tokens (c.column :: outer) true).openBlock .blockMapping).inFlow } := rfl
  have htoken : (between c tokens (c.column :: outer) true).token ':' others =
      .ok (between (c.past [':']) (.value :: tokens) (c.column :: outer) true) := by
    rw [token_colon hc hends, hcolon, hopened]
    rfl
  refine .of_token (Cursor.index_lt_past (a := [':']) hc (by simp)) (settle_between ?_
    (by simp)) hc htoken
  rw [hc]
  exact Stops.cons (by decide)

/-- A key that stands on lines of its own. -/
theorem leads_complexKey {name : String} (hname : isSimpleKey name = false)
    (hwidth : c.column + 2 < width) (hblock : AtBlock c.column outer columns opening)
    (hends : endsWord rest = true) (hc : c.rest = keyLine c.column name ++ rest) :
    Leads (between c tokens columns true)
      (between (c.past (keyLine c.column name))
        (.value :: textToken name :: .key :: opening ++ tokens) (c.column :: outer) true) ∧
      (c.past (keyLine c.column name)).column = c.column + 1 := by
  have hpiece : keyLine c.column name = ['?'] ++ (blanks 1 ++
      ((textLine (c.column + 2) (c.column + 2) name ++ blanks c.column) ++ [':'])) := by
    simp [keyLine, hname, indentStep, blanks_succ]
  have hquestion : c.rest = ['?'] ++ (blanks 1 ++
      (textLine (c.column + 2) (c.column + 2) name ++ (blanks c.column ++ ':' :: rest))) := by
    rw [hc, hpiece]
    simp
  have hblank := Cursor.rest_past hquestion
  have htext := Cursor.rest_past hblank
  have hcolumn : ((c.past ['?']).past (blanks 1)).column = c.column + 2 := by
    rw [Cursor.column_past hblank fun _ => Cursor.inline_of_mem_blanks,
      Cursor.column_past hquestion (List.forall_mem_singleton.mpr (by decide))]
    rfl
  have hcolon : ((c.past ['?']).past (blanks 1)).rest =
      (textLine (c.column + 2) (c.column + 2) name ++ blanks c.column) ++ ':' :: rest := by
    rw [htext, List.append_assoc]
  have hbehind := Cursor.rest_past hcolon
  have hdepth := column_past_textLine htext
  have hline : LineStart c.column (':' :: rest) := by
    refine ⟨Stops.cons (by decide), isDocumentMark_eq_false (Stops.append ?_ ?_)⟩
    · intro ch hch
      rw [mem_blanks (List.mem_of_mem_head? hch)]
      decide
    · exact Stops.cons (by decide)
  rw [hpiece, Cursor.past_append, Cursor.past_append, Cursor.past_append]
  refine ⟨(((leads_question hquestion rfl hblock).trans
    (leads_blanks hblank (stops_textLine _ _ _ _))).trans
      (leads_textLine hwidth (Nat.le_refl _) hline (by omega) name _ htext)).trans
        (leads_lateColon hbehind hends hdepth), ?_⟩
  rw [Cursor.column_past (a := [':']) hbehind (List.forall_mem_singleton.mpr (by decide)),
    hdepth]
  rfl

/-- A key and its colon, whatever its form. -/
theorem comes_keyLine (name : String) (hwidth : c.column + 2 < width)
    (hblock : AtBlock c.column outer columns opening) (hends : endsWord rest = true)
    (hc : c.rest = keyLine c.column name ++ rest) :
    Comes (keyFits name) (between c tokens columns true)
      (between (c.past (keyLine c.column name))
        (.value :: textToken name :: .key :: opening ++ tokens) (c.column :: outer)
        (!isSimpleKey name)) ∧
      c.column < (c.past (keyLine c.column name)).column ∧
      (isSimpleKey name = false →
        (c.past (keyLine c.column name)).column = c.column + 1) := by
  cases hname : isSimpleKey name with
  | true =>
      have hline : keyLine c.column name = keyText name ++ [':'] := by simp [keyLine, hname]
      have hinline : ∀ ch ∈ keyText name ++ [':'], Cursor.Inline ch := by
        intro ch hch
        rcases List.mem_append.mp hch with hch | hch
        · exact inline_of_mem_keyText hname hch
        · obtain rfl := List.mem_singleton.mp hch
          decide
      rw [hline] at hc ⊢
      have hcolumn := Cursor.column_past hc hinline
      refine ⟨comes_simpleKey hname hblock hends (by rw [hc]; simp), ?_, by simp⟩
      rw [hcolumn, List.length_append]
      exact Nat.lt_add_of_pos_right (Nat.succ_pos _)
  | false =>
      have hfits : keyFits name = true := by simp [keyFits, hname]
      obtain ⟨hleads, hcolumn⟩ := leads_complexKey hname hwidth hblock hends hc
      rw [hfits]
      exact ⟨hleads, by omega, fun _ => hcolumn⟩

end Value

end Scan

end CqlWorkload.Yaml
