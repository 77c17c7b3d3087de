import CqlWorkload.Proofs.Yaml.Double
import CqlWorkload.Proofs.Yaml.Literal
import CqlWorkload.Proofs.Yaml.Plain
import CqlWorkload.Proofs.Yaml.Scan

/-!
# Written texts as tokens

A text is one scalar token, whatever the style it is written in; `seen` is the text of
the token.  It is the text itself, unless a next-line character stands in single quotes
or in a literal block.
-/

namespace CqlWorkload.Yaml

open Lexeme

/-- The text that a written text is read as. -/
def seen (s : String) : String :=
  match Style.ofText s with
  | .plain | .double => s
  | .single => String.ofList (singleSeen false s.toList)
  | .literal => String.ofList (literalSeen s.toList)

/-! ## Styles -/

namespace Style

theorem isSpecial_of_isClean {cs : List Char} (h : isClean cs = true) :
    ∀ c ∈ cs, isSpecial c = false := by
  simp only [isClean, Bool.and_eq_true, Bool.not_eq_true', List.any_eq_false] at h
  exact fun c hc => by simpa using h.1 c hc

/-- What the style of a text says about it. -/
theorem ofText_cases (s : String) :
    (ofText s = .plain ∧ allowsPlain s.toList = true ∧ Tag.ofPlain s = .text) ∨
    (ofText s = .single ∧ allowsSingle s.toList = true ∧ '\n' ∉ s.toList) ∨
    (ofText s = .double) ∨
    (ofText s = .literal ∧ '\n' ∈ s.toList ∧ allowsLiteral s.toList = true) := by
  simp only [ofText]
  by_cases hline : '\n' ∈ s.toList
  · have hcontains : s.toList.contains '\n' = true := by simpa using hline
    simp only [hcontains, if_true]
    split
    · next hliteral => exact Or.inr (Or.inr (Or.inr ⟨rfl, hline, hliteral⟩))
    · exact Or.inr (Or.inr (Or.inl rfl))
  · have hcontains : s.toList.contains '\n' = false := by simpa using hline
    simp only [hcontains, Bool.false_eq_true, if_false]
    split
    · next hplain =>
        simp only [Bool.and_eq_true, decide_eq_true_eq] at hplain
        exact Or.inl ⟨rfl, hplain⟩
    · split
      · next hsingle => exact Or.inr (Or.inl ⟨rfl, hsingle, hline⟩)
      · exact Or.inr (Or.inr (Or.inl rfl))

theorem singleText_of_allowsSingle {cs : List Char} (h : allowsSingle cs = true)
    (hline : '\n' ∉ cs) : SingleText cs := by
  simp only [allowsSingle, Bool.and_eq_true, Bool.not_eq_true'] at h
  obtain ⟨hclean, hbreak⟩ := h
  refine ⟨fun c hc => ⟨isSpecial_of_isClean hclean c hc, ?_⟩, ?_, hbreak⟩
  · rintro rfl
    contradiction
  · simp only [isClean, Bool.and_eq_true, Bool.not_eq_true'] at hclean
    exact hclean.2

theorem plainText_of_allowsPlain {cs : List Char} (h : allowsPlain cs = true) :
    PlainText cs := by
  simp only [allowsPlain, Bool.and_eq_true, Bool.not_eq_true', List.any_eq_false, hasOuterBlank,
    Bool.or_eq_false_iff, beq_eq_false_iff_ne, Bool.not_eq_true] at h
  obtain ⟨⟨⟨⟨-, hinner⟩, hfirst, hlast⟩, hbreak⟩, hspecial⟩ := h
  refine ⟨fun c hc => ⟨hspecial c hc, hbreak c hc⟩, hinner, fun c hc => ?_, hlast⟩
  rw [Option.mem_def] at hc
  have hne : c ≠ ' ' := by
    rintro rfl
    contradiction
  simpa [isSpace] using hne

end Style

/-- A text that begins a plain scalar, whatever follows it. -/
structure BeginsPlain (written : List Char) : Prop where
  head : ∃ c others, written = c :: others ∧ Style.indicators.contains c = false ∧
    isSkipped c = false ∧
    (c = '-' ∨ c = '?' ∨ c = ':' → ∃ d rest, others = d :: rest ∧ isLayout d = false)

/-- A plain text begins a plain scalar, and so does what is written for it. -/
theorem beginsPlain_plainFrom {cs : List Char} (h : Style.allowsPlain cs = true) (split : Bool)
    (indent column : Nat) : BeginsPlain (plainFrom split indent false column cs) := by
  have hplain := Style.plainText_of_allowsPlain h
  simp only [Style.allowsPlain, Bool.and_eq_true] at h
  obtain ⟨⟨⟨⟨hstart, hinner⟩, -⟩, -⟩, -⟩ := h
  cases cs with
  | nil => simp [Style.hasPlainStart] at hstart
  | cons c cs =>
      obtain ⟨hspecial, hbreak⟩ := hplain.char c (by simp)
      have hblank : c ≠ ' ' := by simpa [Style.isSpace] using hplain.first
      simp only [Style.hasPlainStart, Bool.and_eq_true, Bool.not_eq_true'] at hstart
      obtain ⟨⟨hind, hsign⟩, -⟩ := hstart
      have hsharp : c ≠ '#' := by
        rintro rfl
        contradiction
      have hmark : c ≠ byteOrderMark := by
        rintro rfl
        contradiction
      have hskipped : isSkipped c = false := by
        simp [isSkipped, isLayout_eq_false hspecial hblank hbreak, hsharp, hmark]
      rw [plainFrom, if_neg (by simp [hblank])]
      refine ⟨c, _, rfl, hind, hskipped, fun hc => ?_⟩
      have hends : endsWord cs = false := by
        rcases hc with rfl | rfl | rfl
        · simpa using hsign
        · simpa using hsign
        · exact endsWord_of_append_colon (a := []) hinner
      cases cs with
      | nil => contradiction
      | cons d cs =>
          have hd : d ≠ ' ' := by
            rintro rfl
            contradiction
          exact ⟨d, _, by rw [plainFrom, if_neg (by simp [hd])], hends⟩

/-- Is a text read as itself?  A next-line character has to be escaped. -/
def isKeptText (s : String) : Bool :=
  !s.toList.contains nextLine || decide (Style.ofText s = .double)

theorem seen_eq_self_iff (s : String) : seen s = s ↔ isKeptText s = true := by
  have hown : ∀ cs, String.ofList cs = s ↔ cs = s.toList := fun cs => by
    rw [String.ext_iff, String.toList_ofList]
  rw [isKeptText, Bool.or_eq_true, Bool.not_eq_true', List.contains_eq_mem,
    decide_eq_false_iff_not, decide_eq_true_eq]
  rcases Style.ofText_cases s with ⟨hs, hplain, -⟩ | ⟨hs, -⟩ | hs | ⟨hs, -⟩
  · have hbreak := fun c hc => ((Style.plainText_of_allowsPlain hplain).char c hc).2
    have hnot : nextLine ∉ s.toList := fun hmem => absurd (hbreak _ hmem) (by decide)
    simp [seen, hs, hnot]
  · simp only [seen, hs, hown]
    refine ⟨fun heq => Or.inl ?_, fun h => singleSeen_eq_self (h.resolve_right (by simp)) _⟩
    rw [← heq]
    exact nextLine_not_mem_singleSeen _ _
  · simp [seen, hs]
  · simp only [seen, hs, hown]
    refine ⟨fun heq => Or.inl ?_, fun h => literalSeen_eq_self (h.resolve_right (by simp))⟩
    rw [← heq]
    exact nextLine_not_mem_literalSeen _

/-- The line of a text begins with its scalar. -/
theorem stops_textLine (indent column : Nat) (s : String) (rest : List Char) :
    Stops isSkipped (textLine indent column s ++ rest) := by
  rcases Style.ofText_cases s with ⟨hs, hplain, -⟩ | ⟨hs, -⟩ | hs | ⟨hs, -⟩
  · obtain ⟨c, others, heq, -, hskipped, -⟩ :=
      (beginsPlain_plainFrom hplain true indent column).head
    rw [textLine, textFrom, hs]
    simp only [heq]
    exact Stops.cons hskipped
  · rw [textLine, textFrom, hs]
    exact Stops.cons (by decide)
  · rw [textLine, textFrom, hs]
    exact Stops.cons (by decide)
  · rw [textLine, textFrom, hs]
    exact Stops.cons (by decide)

theorem literalFrom_ends (indent : Nat) (atStart : Bool) (cs : List Char)
    (h : atStart = false ∨ cs ≠ []) :
    ∃ front b, literalFrom indent atStart cs = front ++ [b] ∧ isBreak b = true := by
  induction cs generalizing atStart with
  | nil =>
      have hstart : atStart = false := by simpa using h
      subst hstart
      exact ⟨[], '\n', rfl, by decide⟩
  | cons c cs ih =>
      rw [literalFrom]
      cases hc : isBreak c with
      | true =>
          rw [if_pos rfl]
          cases cs with
          | nil => exact ⟨[], c, rfl, hc⟩
          | cons d cs =>
              obtain ⟨front, b, heq, hb⟩ := ih true (Or.inr (by simp))
              exact ⟨c :: front, b, by rw [heq]; rfl, hb⟩
      | false =>
          obtain ⟨front, b, heq, hb⟩ := ih false (Or.inl rfl)
          rw [if_neg (by simp), heq, ← List.cons_append, ← List.append_assoc]
          exact ⟨_, b, rfl, hb⟩

/-- The line of a text ends in a break. -/
theorem textLine_ends (indent column : Nat) (s : String) :
    ∃ front b, textLine indent column s = front ++ [b] ∧ isBreak b = true := by
  by_cases hs : Style.ofText s = .literal
  · have hne : s.toList ≠ [] := by
      rcases Style.ofText_cases s with ⟨h, -⟩ | ⟨h, -⟩ | h | ⟨-, hline, -⟩
      · simp [h] at hs
      · simp [h] at hs
      · simp [h] at hs
      · exact List.ne_nil_of_mem hline
    obtain ⟨front, b, heq, hb⟩ := literalFrom_ends indent true s.toList (Or.inr hne)
    refine ⟨'|' :: literalMarks s.toList ++ '\n' :: front, b, ?_, hb⟩
    simp [textLine, textFrom, hs, heq]
  · exact ⟨_, '\n', by rw [textLine, if_neg hs], by decide⟩

/-- Behind the line of a text and blanks the cursor stands at their number. -/
theorem column_past_textLine {indent column n : Nat} {s : String} {c : Cursor}
    {rest : List Char} (h : c.rest = textLine indent column s ++ (blanks n ++ rest)) :
    (c.past (textLine indent column s ++ blanks n)).column = n := by
  obtain ⟨front, b, heq, hb⟩ := textLine_ends indent column s
  rw [heq, List.append_assoc] at h
  rw [heq]
  exact Cursor.column_past_breaks h (by simpa using hb) (by simp)

namespace Scan

/-- The candidate that is remembered at a cursor. -/
def candidateAt (c : Cursor) (tokens : List Token) (columns : List Nat) : Candidate :=
  ⟨tokens.length, columns.head? == some c.column, c.line, c.column, c.index⟩

section Token

variable {c : Cursor} {tokens : List Token} {columns : List Nat} {allowed : Bool}

theorem addCandidate_between :
    (between c tokens columns allowed).addCandidate =
      .ok ⟨c, tokens, columns, [if allowed then some (candidateAt c tokens columns) else none],
        allowed⟩ := by
  cases allowed <;> rfl

theorem not_mark (hmark : c.column = 0 → isDocumentMark c.rest = false) :
    (c.column == 0 && beginsWithMark '-' c.rest) = false ∧
      (c.column == 0 && beginsWithMark '.' c.rest) = false := by
  by_cases hcolumn : c.column = 0
  · have hmark := hmark hcolumn
    rw [isDocumentMark, Bool.or_eq_false_iff] at hmark
    simp [hmark]
  · simp [hcolumn]

theorem token_quoted (double : Bool) (hmark : c.column = 0 → isDocumentMark c.rest = false)
    (rest : List Char) :
    (between c tokens columns allowed).token (quoteMark double) rest =
      (between c tokens columns allowed).keyPart (quotedScalar double) := by
  obtain ⟨hdash, hdot⟩ := not_mark hmark
  cases double <;> simp [token, between, quoteMark, hdash, hdot]

theorem token_literal (hmark : c.column = 0 → isDocumentMark c.rest = false)
    (rest : List Char) :
    (between c tokens columns allowed).token '|' rest =
      (between c tokens columns allowed).blockScalar false := by
  obtain ⟨hdash, hdot⟩ := not_mark hmark
  simp [token, between, inFlow, hdash, hdot]

theorem beginsPlain_of {ch : Char} {others : List Char} (h : BeginsPlain (ch :: others))
    (rest : List Char) : beginsPlain false ch (others ++ rest) = true := by
  obtain ⟨c, cs, heq, hind, hskipped, hnext⟩ := h
  obtain ⟨rfl, rfl⟩ := List.cons.inj heq
  have hsolid : endsWord [ch] = false := ((stops_cons _ ch []).mpr hskipped).isLayout ch rfl
  by_cases hsign : ch = '-' ∨ ch = '?' ∨ ch = ':'
  · obtain ⟨d, more, rfl, hd⟩ := hnext hsign
    have hends : endsWord (d :: more ++ rest) = false := hd
    rw [beginsPlain, hends]
    rcases hsign with rfl | rfl | rfl <;> rfl
  · have hmore : indicators.contains ch = false := by
      simp only [Style.indicators, List.contains_eq_mem, decide_eq_false_iff_not, List.mem_cons,
        not_or] at hind
      simp only [not_or] at hsign
      simp [indicators, hind, hsign]
    rw [beginsPlain, hsolid, hmore]
    rfl

theorem token_plain {ch : Char} {others rest : List Char} (h : BeginsPlain (ch :: others))
    (hmark : c.column = 0 → isDocumentMark c.rest = false) :
    (between c tokens columns allowed).token ch (others ++ rest) =
      (between c tokens columns allowed).plainScalar := by
  obtain ⟨hdash, hdot⟩ := not_mark hmark
  have hplain := beginsPlain_of h rest
  obtain ⟨c', cs, heq, hind, -, hnext⟩ := h
  obtain ⟨rfl, rfl⟩ := List.cons.inj heq
  simp only [Style.indicators, List.contains_eq_mem, decide_eq_false_iff_not, List.mem_cons,
    not_or] at hind
  have hsign : ch = '-' ∨ ch = '?' ∨ ch = ':' → endsWord (others ++ rest) = false := by
    intro hsign
    obtain ⟨d, more, rfl, hd⟩ := hnext hsign
    exact hd
  have hdashes : (decide (ch = '-') && endsWord (others ++ rest)) = false := by
    by_cases hch : ch = '-' <;> simp [hch, hsign]
  have hquestion : (decide (ch = '?') && endsWord (others ++ rest)) = false := by
    by_cases hch : ch = '?' <;> simp [hch, hsign]
  have hcolon : (decide (ch = ':') && endsWord (others ++ rest)) = false := by
    by_cases hch : ch = ':' <;> simp [hch, hsign]
  have hflow : (between c tokens columns allowed).inFlow = false := rfl
  simp only [token, hflow, Bool.false_or, hdashes, hquestion, hcolon, hplain, hind]
  simp [between, hdash, hdot]

/-! ## Values -/

/-- The next line: its indentation and what stands there. -/
structure LineStart (n : Nat) (rest : List Char) : Prop where
  word : Stops isSkipped rest
  mark : isDocumentMark (blanks n ++ rest) = false

variable {top n : Nat} {rest : List Char}

/-- Behind the column of the innermost block a candidate is not required to be a key. -/
theorem candidate_not_required (htop : top < c.column) (k : Candidate)
    (hk : k ∈ if allowed then some (candidateAt c tokens (top :: columns)) else none) :
    k.line ≤ c.line ∧ k.required = false := by
  cases allowed with
  | false => simp at hk
  | true =>
      obtain rfl : candidateAt c tokens (top :: columns) = k := by simpa using hk
      exact ⟨Nat.le_refl _, by simp [candidateAt, Nat.ne_of_lt htop]⟩

theorem leads_quoted {double : Bool} {read written : List Char} (h : Quoted double read written)
    (hrest : LineStart n rest) (htop : top < c.column)
    (hc : c.rest =
      quoteMark double :: (written ++ quoteMark double :: (newLine n ++ rest))) :
    Leads (between c tokens (top :: columns) allowed)
      (between (c.past (quoteMark double :: written ++ [quoteMark double] ++ newLine n))
        (.scalar (String.ofList read) false :: tokens) (top :: columns) true) := by
  have hsettle : (between c tokens (top :: columns) allowed).settle =
      .ok (between c tokens (top :: columns) allowed) := by
    refine settle_between ?_ (by simpa using Nat.le_of_lt htop)
    rw [hc]
    exact Stops.cons (by cases double <;> decide)
  have hread := h.quoted_eq (Or.inr (by simp [newLine])) hc
  have hpiece : c.rest =
      (quoteMark double :: written ++ [quoteMark double]) ++ (newLine n ++ rest) := by
    rw [hc]
    simp
  have htoken : (between c tokens (top :: columns) allowed).token (quoteMark double)
      (written ++ quoteMark double :: (newLine n ++ rest)) =
      .ok ⟨c.past (quoteMark double :: written ++ [quoteMark double]),
        .scalar (String.ofList read) false :: tokens, top :: columns,
        [if allowed then some (candidateAt c tokens (top :: columns)) else none], false⟩ := by
    rw [token_quoted double (by omega)]
    simp only [keyPart, addCandidate_between, bind, Except.bind, quotedScalar, hread]
    rfl
  rw [Cursor.past_append]
  refine (Leads.of_token ?_ hsettle hc htoken).trans
    (leads_newLine (Cursor.rest_past hpiece) hrest.word fun k hk => ?_)
  · exact Cursor.index_lt_past hpiece (by simp)
  · obtain ⟨hline, hrequired⟩ := candidate_not_required htop k hk
    exact ⟨Nat.le_trans hline (Cursor.line_past_le c _), hrequired⟩

theorem settle_value (htop : top < c.column) (hrest : Stops isSkipped c.rest) :
    (between c tokens (top :: columns) allowed).settle =
      .ok (between c tokens (top :: columns) allowed) :=
  settle_between hrest (by simpa using Nat.le_of_lt htop)

theorem leads_plain {indent : Nat} {read written : List Char} (h : Folded indent read written)
    (hbegins : BeginsPlain written) (hindent : top < indent) (hn : n ≤ top)
    (hrest : LineStart n rest) (htop : top < c.column)
    (hc : c.rest = written ++ (newLine n ++ rest)) :
    Leads (between c tokens (top :: columns) allowed)
      (between (c.past (written ++ newLine n)) (.scalar (String.ofList read) true :: tokens)
        (top :: columns) true) := by
  have hread : Lexeme.plain false (top + 1) c =
      (read, true, c.past (written ++ newLine n)) :=
    h.plainFrom_eq (by omega) hindent
      (endsPlain_newLine (by omega) hrest.mark hrest.word.isLayout)
      (by rw [hc, List.length_append]; omega) false [] hc (by omega)
  have hpiece : c.rest = written ++ newLine n ++ rest := by rw [hc, List.append_assoc]
  have hbehind : (c.past (written ++ newLine n)).rest = rest := Cursor.rest_past hpiece
  have hline : c.line < (c.past (written ++ newLine n)).line := (Cursor.past_newLine hc).2
  obtain ⟨ch, others, rfl, -, hskipped, -⟩ := hbegins.head
  have htoken : (between c tokens (top :: columns) allowed).token ch
      (others ++ (newLine n ++ rest)) =
      .ok ⟨c.past (ch :: others ++ newLine n), .scalar (String.ofList read) true :: tokens,
        top :: columns,
        [if allowed then some (candidateAt c tokens (top :: columns)) else none], true⟩ := by
    rw [token_plain hbegins (by omega)]
    simp only [plainScalar, addCandidate_between, bind, Except.bind]
    rw [show inFlow _ = false from rfl, show level _ = top + 1 from rfl, hread]
    rfl
  refine (Leads.of_token ?_ (settle_value htop ?_) hc htoken).trans
    (leads_later_line (by rw [hbehind]; exact hrest.word) fun k hk => ?_)
  · exact Cursor.index_lt_past hpiece (by simp)
  · rw [hc]
    exact Stops.cons hskipped
  · obtain ⟨hle, hrequired⟩ := candidate_not_required htop k hk
    exact ⟨Nat.lt_of_le_of_lt hle hline, hrequired⟩

theorem leads_literal {cs : List Char} (hcs : cs ≠ []) (hn : n ≤ top) (hrest : LineStart n rest)
    (htop : top < c.column)
    (hc : c.rest = header (isDeep cs) (chompOf cs) ++
      (literalFrom (top + 2) true cs ++ (blanks n ++ rest))) :
    Leads (between c tokens (top :: columns) allowed)
      (between (c.past (header (isDeep cs) (chompOf cs) ++
          (literalFrom (top + 2) true cs ++ blanks n)))
        (.scalar (String.ofList (literalSeen cs)) false :: tokens) (top :: columns) true) := by
  have hread := block_literal (by omega) hcs (by omega) hrest.word.isLayout hc
  obtain ⟨others, hhead⟩ : ∃ others, c.rest = '|' :: others := ⟨_, hc⟩
  have hpiece : c.rest = header (isDeep cs) (chompOf cs) ++
      (literalFrom (top + 2) true cs ++ blanks n) ++ rest := by
    rw [hc]
    simp
  have hdrop : (between c tokens (top :: columns) allowed).dropCandidate =
      .ok (between c tokens (top :: columns) allowed) := rfl
  have hblock : block false (between c tokens (top :: columns) allowed).level
      (between c tokens (top :: columns) allowed).cursor = _ := hread
  refine Leads.of_token ?_ (settle_value htop ?_) hhead ?_
  · exact Cursor.index_lt_past hpiece (by simp [header])
  · rw [hhead]
    exact Stops.cons (by decide)
  · rw [token_literal (by omega)]
    simp only [blockScalar, hdrop, bind, Except.bind, hblock]
    rfl

/-- The line of a text is read as one token, up to the next line. -/
theorem leads_textLine (hwidth : top + 2 < width) (hn : n ≤ top) (hrest : LineStart n rest)
    (htop : top < c.column) (s : String) (column : Nat)
    (hc : c.rest = textLine (top + 2) column s ++ (blanks n ++ rest)) :
    Leads (between c tokens (top :: columns) allowed)
      (between (c.past (textLine (top + 2) column s ++ blanks n))
        (.scalar (seen s) (Style.ofText s = .plain) :: tokens) (top :: columns) true) := by
  rcases Style.ofText_cases s with ⟨hs, hplain, -⟩ | ⟨hs, hsingle, hline⟩ | hs | ⟨hs, hline, -⟩
  · have hne : s.toList ≠ [] := by
      rintro heq
      rw [heq] at hplain
      contradiction
    have hfolded := folded_plainFrom true (top + 2)
      (Style.plainText_of_allowsPlain hplain) hne column
    have htext : textLine (top + 2) column s ++ blanks n =
        plainFrom true (top + 2) false column s.toList ++ newLine n := by
      simp [textLine, textFrom, hs, newLine]
    have hseen : String.ofList s.toList = seen s := by simp [seen, hs]
    rw [htext, hs, ← hseen]
    exact leads_plain hfolded (beginsPlain_plainFrom hplain _ _ _) (by omega) hn hrest htop
      (by rw [hc, ← List.append_assoc, htext, List.append_assoc])
  · have hquoted := quoted_singleFrom true (show 0 < top + 2 by omega)
      (Style.singleText_of_allowsSingle hsingle hline) (column + 1)
    have htext : textLine (top + 2) column s ++ blanks n = quoteMark false ::
        singleFrom true (top + 2) none (column + 1) s.toList ++ [quoteMark false] ++
          newLine n := by
      simp [textLine, textFrom, hs, newLine, quoteMark]
    have hseen : String.ofList (singleSeen false s.toList) = seen s := by simp [seen, hs]
    rw [htext, hs, ← hseen]
    exact leads_quoted hquoted hrest htop
      (by rw [hc, ← List.append_assoc, htext]; simp)
  · have hquoted := quoted_doubleFrom true (by omega) hwidth
      false true (column + 1) s.toList
    have htext : textLine (top + 2) column s ++ blanks n = quoteMark true ::
        doubleFrom true (top + 2) false true (column + 1) s.toList ++ [quoteMark true] ++
          newLine n := by
      simp [textLine, textFrom, hs, newLine, quoteMark]
    have hseen : String.ofList s.toList = seen s := by simp [seen, hs]
    rw [htext, hs, ← hseen]
    exact leads_quoted hquoted hrest htop
      (by rw [hc, ← List.append_assoc, htext]; simp)
  · have htext : textLine (top + 2) column s ++ blanks n =
        header (isDeep s.toList) (chompOf s.toList) ++
          (literalFrom (top + 2) true s.toList ++ blanks n) := by
      simp [textLine, textFrom, hs, header, literalMarks_eq]
    have hseen : String.ofList (literalSeen s.toList) = seen s := by simp [seen, hs]
    rw [htext, hs, ← hseen]
    exact leads_literal (List.ne_nil_of_mem hline) hn hrest htop
      (by rw [hc, ← List.append_assoc, htext]; simp)

end Token

end Scan
end CqlWorkload.Yaml
