import CqlWorkload.Proofs.Yaml.Text

/-!
# Keys

A simple key shares the line with its value.  The scanner takes its scalar for a key
only when it finds the colon soon enough: more than 1024 characters behind the beginning
of the key it refuses the text.
-/

namespace CqlWorkload.Yaml

open Lexeme

/-- A simple key as it is written, wherever it stands. -/
def keyText (name : String) : List Char := textFrom false indentStep 0 name

/-- Is a key, as it is written, short enough for its colon to be found? -/
def keyFits (name : String) : Bool :=
  !isSimpleKey name || decide ((keyText name).length ≤ Scan.keyReach)

/-! ## Written keys -/

theorem isSimpleKey_ne_nil {name : String} (h : isSimpleKey name = true) :
    name.toList ≠ [] := by
  simp only [isSimpleKey, Bool.and_eq_true, bne_iff_ne] at h
  simpa using h.1.1

theorem isSimpleKey_no_break {name : String} (h : isSimpleKey name = true) :
    ∀ c ∈ name.toList, isBreak c = false := by
  simp only [isSimpleKey, Bool.and_eq_true, Bool.not_eq_true', List.any_eq_false] at h
  exact fun c hc => by simpa using h.1.2 c hc

theorem plainFrom_unbroken (indent : Nat) (b : Bool) (column : Nat) (cs : List Char) :
    plainFrom false indent b column cs = cs := by
  induction cs generalizing b column with
  | nil => rfl
  | cons c cs ih => rw [plainFrom, if_neg (by simp), ih]

/-- A character in single quotes. -/
def singleChar (c : Char) : List Char := if c = '\'' then ['\'', '\''] else [c]

theorem singleFrom_unbroken {cs : List Char} (h : ∀ c ∈ cs, isBreak c = false) (indent : Nat)
    {before : Option Char} (hbefore : before.any isBreak = false) (column : Nat) :
    singleFrom false indent before column cs = cs.flatMap singleChar := by
  induction cs generalizing before column with
  | nil => simp [singleFrom, hbefore]
  | cons c cs ih =>
      have hc := h c (by simp)
      have hline : c ≠ '\n' := by
        rintro rfl
        contradiction
      have hlast : (some c).any isBreak = false := hc
      have ih := fun column => ih (fun d hd => h d (by simp [hd])) hlast column
      rw [singleFrom_cons hbefore, if_neg (by simp), if_neg hline, ih, ih, List.flatMap_cons,
        singleChar]
      split <;> rfl

/-- A character in double quotes. -/
def doubleChar (c : Char) : List Char := if isQuotable c then [c] else escape c

theorem doubleFrom_unbroken (indent : Nat) (inner fresh : Bool) (column : Nat)
    (cs : List Char) : doubleFrom false indent inner fresh column cs = cs.flatMap doubleChar := by
  induction cs generalizing inner fresh column with
  | nil => rfl
  | cons c cs ih =>
      rw [doubleFrom, List.flatMap_cons, doubleChar]
      by_cases hc : isQuotable c = true <;> simp [hc, ih]

theorem textFrom_key {name : String} (h : isSimpleKey name = true) (indent column : Nat) :
    textFrom false indent column name = keyText name := by
  have hbreak := isSimpleKey_no_break h
  rcases Style.ofText_cases name with ⟨hs, -⟩ | ⟨hs, -⟩ | hs | ⟨-, hline, -⟩
  · simp [keyText, textFrom, hs, plainFrom_unbroken]
  · simp [keyText, textFrom, hs, singleFrom_unbroken hbreak]
  · simp [keyText, textFrom, hs, doubleFrom_unbroken]
  · exact absurd (hbreak _ hline) (by decide)

/-! ## Lengths -/

theorem length_escape_le (c : Char) : (escape c).length ≤ 10 := by
  have hcode := toNat_lt c
  rw [escape]
  split
  · simp
  · split
    · next hsmall => simp [length_upperHex (by decide) (show c.toNat < 16 ^ 2 by omega)]
    · split
      · next hsmall =>
          simp [length_upperHex (by decide) (show c.toNat < 16 ^ 4 by omega)]
      · simp [length_upperHex (by decide) (show c.toNat < 16 ^ 8 by omega)]

theorem length_flatMap_le {f : Char → List Char} {bound : Nat} (h : ∀ c, (f c).length ≤ bound)
    (cs : List Char) : (cs.flatMap f).length ≤ bound * cs.length := by
  induction cs with
  | nil => simp
  | cons c cs ih =>
      rw [List.flatMap_cons, List.length_append, List.length_cons, Nat.mul_succ, Nat.add_comm]
      exact Nat.add_le_add ih (h c)

/-- A character takes ten characters at most, besides the quotes around the key. -/
theorem length_keyText_le {name : String} (h : isSimpleKey name = true) :
    (keyText name).length ≤ 10 * name.length + 2 := by
  have hbreak := isSimpleKey_no_break h
  have hlength : name.toList.length = name.length := String.length_toList
  rcases Style.ofText_cases name with ⟨hs, -⟩ | ⟨hs, -⟩ | hs | ⟨-, hline, -⟩
  · simp only [keyText, textFrom, hs, plainFrom_unbroken, hlength]
    omega
  · have hchar : ∀ c, (singleChar c).length ≤ 10 := fun c => by
      rw [singleChar]
      split <;> simp
    have hwritten := length_flatMap_le hchar name.toList
    rw [hlength] at hwritten
    simpa [keyText, textFrom, hs, singleFrom_unbroken hbreak] using hwritten
  · have hchar : ∀ c, (doubleChar c).length ≤ 10 := fun c => by
      rw [doubleChar]
      split
      · simp
      · exact length_escape_le c
    have hwritten := length_flatMap_le hchar name.toList
    rw [hlength] at hwritten
    simpa [keyText, textFrom, hs, doubleFrom_unbroken] using hwritten
  · exact absurd (hbreak _ hline) (by decide)

/-- Short names fit, whatever their characters are. -/
theorem keyFits_of_length_le {name : String} (h : name.length ≤ 102) : keyFits name = true := by
  cases hname : isSimpleKey name with
  | false => simp [keyFits, hname]
  | true =>
      have hwritten := length_keyText_le hname
      have hreach : (keyText name).length ≤ Scan.keyReach := by
        rw [Scan.keyReach]
        omega
      simp [keyFits, hreach]

theorem inline_of_mem_escape {c ch : Char} (h : ch ∈ escape c) : Cursor.Inline ch := by
  have hletters : ∀ entry ∈ escapeLetters, Cursor.Inline entry.2 := by decide
  have hdigits : ∀ d < 16, Cursor.Inline d.digitChar.toUpper := by decide
  have hhex : ∀ size n, ∀ ch ∈ upperHex size n, Cursor.Inline ch := by
    intro size n ch hch
    obtain ⟨x, hx, rfl⟩ := List.mem_map.mp hch
    obtain ⟨d, hd, rfl⟩ := Digit.exists_digitChar_of_mem_hexText hx
    exact hdigits d hd
  unfold escape at h
  split at h
  · next letter hletter =>
      obtain ⟨front, back, hlist, -⟩ := List.lookup_eq_some_iff.mp hletter
      have hletter : Cursor.Inline letter := hletters (c, letter) (by simp [hlist])
      simp only [List.mem_cons, List.not_mem_nil, or_false] at h
      rcases h with rfl | rfl
      · decide
      · exact hletter
  · split at h
    · simp only [List.mem_cons] at h
      rcases h with rfl | rfl | h
      · decide
      · decide
      · exact hhex _ _ _ h
    · split at h <;>
        · simp only [List.mem_cons] at h
          rcases h with rfl | rfl | h
          · decide
          · decide
          · exact hhex _ _ _ h

theorem inline_of_mem_keyText {name : String} (h : isSimpleKey name = true) {ch : Char}
    (hch : ch ∈ keyText name) : Cursor.Inline ch := by
  have hbreak := isSimpleKey_no_break h
  rcases Style.ofText_cases name with ⟨hs, hplain, -⟩ | ⟨hs, hsingle, hline⟩ | hs | ⟨-, hline, -⟩
  · have hchar := (Style.plainText_of_allowsPlain hplain).char
    simp only [keyText, textFrom, hs, plainFrom_unbroken] at hch
    exact inline_of_isSpecial (hchar ch hch).1 (hbreak ch hch)
  · have hchar := (Style.singleText_of_allowsSingle hsingle hline).char
    simp only [keyText, textFrom, hs,
      singleFrom_unbroken hbreak _ (rfl : (none : Option Char).any isBreak = false),
      List.mem_append,
      List.mem_cons, List.mem_flatMap, singleChar, List.not_mem_nil, or_false] at hch
    rcases hch with (rfl | ⟨c, hc, hmem⟩) | rfl
    · decide
    · split at hmem
      · obtain rfl : ch = '\'' := by simpa using hmem
        decide
      · obtain rfl : ch = c := by simpa using hmem
        exact inline_of_isSpecial (hchar ch hc).1 (hbreak ch hc)
    · decide
  · simp only [keyText, textFrom, hs, doubleFrom_unbroken, List.mem_append, List.mem_cons,
      List.mem_flatMap, doubleChar, List.not_mem_nil, or_false] at hch
    rcases hch with (rfl | ⟨c, hc, hmem⟩) | rfl
    · decide
    · split at hmem
      · next hquotable =>
          obtain rfl : ch = c := by simpa using hmem
          refine ⟨hbreak ch hc, ?_⟩
          rintro rfl
          contradiction
      · exact inline_of_mem_escape hmem
    · decide
  · exact absurd (hbreak _ hline) (by decide)

/-- In front of its colon a simple key is a scalar. -/
inductive KeyForm (name : String) : Prop
  | plain (hstyle : Style.ofText name = .plain) (hplain : Style.allowsPlain name.toList = true)
      (htext : keyText name = name.toList)
  | quoted (double : Bool) (written : List Char) (hstyle : Style.ofText name ≠ .plain)
      (h : Quoted double (seen name).toList written)
      (htext : keyText name = quoteMark double :: written ++ [quoteMark double])

theorem keyForm {name : String} (h : isSimpleKey name = true) : KeyForm name := by
  have hbreak := isSimpleKey_no_break h
  rcases Style.ofText_cases name with ⟨hs, hplain, -⟩ | ⟨hs, hsingle, hline⟩ | hs | ⟨-, hline, -⟩
  · exact .plain hs hplain (by simp [keyText, textFrom, hs, plainFrom_unbroken])
  · have hquoted := quoted_singleFrom false (show 0 < indentStep by decide)
      (Style.singleText_of_allowsSingle hsingle hline) 1
    exact .quoted false _ (by simp [hs]) (by simpa [seen, hs] using hquoted)
      (by simp [keyText, textFrom, hs, quoteMark])
  · have hquoted := quoted_doubleFrom false (show 0 < indentStep by decide)
      (by decide) false true 1 name.toList
    exact .quoted true _ (by simp [hs]) (by simpa [seen, hs] using hquoted)
      (by simp [keyText, textFrom, hs, quoteMark])
  · exact absurd (hbreak _ hline) (by decide)

theorem isDocumentMark_plain {cs : List Char} (h : Style.allowsPlain cs = true)
    (rest : List Char) : isDocumentMark (cs ++ ':' :: rest) = false := by
  simp only [Style.allowsPlain, Bool.and_eq_true] at h
  have hstart := h.1.1.1.1
  obtain _ | ⟨a, _ | ⟨b, _ | ⟨c, cs⟩⟩⟩ := cs
  · contradiction
  · cases rest <;> simp [isDocumentMark, beginsWithMark]
  · simp [isDocumentMark, beginsWithMark]
  · simp only [Style.hasPlainStart, Bool.and_eq_true, Bool.not_eq_true', Bool.or_eq_false_iff,
      List.isPrefixOf, Bool.and_true] at hstart
    obtain ⟨-, hdash, hdot⟩ := hstart
    have hmark : ∀ m : Char, (m == a && (m == b && m == c)) = false →
        beginsWithMark m (a :: b :: c :: cs ++ ':' :: rest) = false := by
      intro m hm
      rw [Bool.eq_false_iff] at hm ⊢
      intro htrue
      simp only [List.cons_append, beginsWithMark, Bool.and_eq_true, beq_iff_eq] at htrue
      obtain ⟨⟨⟨rfl, rfl⟩, rfl⟩, -⟩ := htrue
      simp at hm
    rw [isDocumentMark, hmark _ hdash, hmark _ hdot]
    rfl

theorem KeyForm.start {name : String} (h : KeyForm name) (rest : List Char) :
    Stops isSkipped (keyText name ++ ':' :: rest) ∧
      isDocumentMark (keyText name ++ ':' :: rest) = false := by
  cases h with
  | plain _ hplain htext =>
      have hbegins := beginsPlain_plainFrom hplain false 0 0
      rw [plainFrom_unbroken] at hbegins
      obtain ⟨c, others, heq, -, hskipped, -⟩ := hbegins.head
      rw [htext]
      refine ⟨?_, isDocumentMark_plain hplain rest⟩
      rw [heq]
      exact Stops.cons hskipped
  | quoted double written _ _ htext =>
      rw [htext]
      refine ⟨Stops.cons (by cases double <;> decide), ?_⟩
      exact isDocumentMark_eq_false (Stops.cons (by cases double <;> decide))

theorem KeyForm.ne_nil {name : String} (h : KeyForm name) (hname : isSimpleKey name = true) :
    keyText name ≠ [] := by
  cases h with
  | plain _ _ htext => rw [htext]; exact isSimpleKey_ne_nil hname
  | quoted _ _ _ _ htext => rw [htext]; simp

namespace Scan

/-- A mapping at a column, inside of outer blocks: the columns of the open blocks, and
the token that opens the mapping if it is not open yet. -/
inductive AtBlock (column : Nat) (outer : List Nat) : List Nat → List Token → Prop
  | inside : AtBlock column outer (column :: outer) []
  | new (h : ∀ top ∈ outer.head?, top < column) : AtBlock column outer outer [.blockMapping]

theorem AtBlock.head_le {column : Nat} {outer columns : List Nat} {opening : List Token}
    (h : AtBlock column outer columns opening) : ∀ top ∈ columns.head?, top ≤ column := by
  cases h with
  | inside => simp
  | new h => exact fun top htop => Nat.le_of_lt (h top htop)

theorem AtBlock.deepens {column : Nat} {outer columns : List Nat} {opening : List Token}
    (h : AtBlock column outer columns opening) {s : Scan} (hs : s.columns = columns) :
    s.deepens column = !opening.isEmpty := by
  rw [Scan.deepens, hs]
  cases h with
  | inside => simp
  | new h =>
      cases outer with
      | nil => rfl
      | cons top outer => simpa using h

section Key

variable {c : Cursor} {tokens : List Token} {columns : List Nat} {rest : List Char}

theorem level_le (h : ∀ top ∈ columns.head?, top ≤ c.column) (candidates : List (Option Candidate))
    (allowed : Bool) (tokens : List Token) :
    level ⟨c, tokens, columns, candidates, allowed⟩ ≤ c.column + 1 := by
  cases columns with
  | nil => exact Nat.zero_le _
  | cons top columns =>
      have htop : top ≤ c.column := by simpa using h
      simpa [level] using htop

/-- The scalar of a key, and the candidate in front of it. -/
theorem token_key {name : String} (hname : KeyForm name)
    (hcolumns : ∀ top ∈ columns.head?, top ≤ c.column) (hends : endsWord rest = true)
    (hc : c.rest = keyText name ++ ':' :: rest) :
    ∃ ch others, c.rest = ch :: others ∧
      (between c tokens columns true).token ch others =
        .ok ⟨c.past (keyText name), .scalar (seen name) (Style.ofText name = .plain) :: tokens,
          columns, [some (candidateAt c tokens columns)], false⟩ := by
  have hmark := (hname.start rest).2
  rw [← hc] at hmark
  cases hname with
  | plain hs hplain htext => 
      have hbegins := beginsPlain_plainFrom hplain false 0 0
      rw [plainFrom_unbroken] at hbegins
      obtain ⟨ch, others, heq, -⟩ := hbegins.head
      refine ⟨ch, others ++ ':' :: rest, by rw [hc, htext, heq]; rfl, ?_⟩
      have hfolded := folded_plainFrom false (c.column + 1)
        (Style.plainText_of_allowsPlain hplain) (by simp [heq]) 0
      rw [plainFrom_unbroken] at hfolded
      have hread : Lexeme.plain false
          (level ⟨c, tokens, columns, [some (candidateAt c tokens columns)], true⟩) c =
          (name.toList, false, c.past name.toList) := by
        have hlevel := level_le hcolumns [some (candidateAt c tokens columns)] true tokens
        have hlength : name.toList.length < c.rest.length + 1 := by
          rw [hc, htext, List.length_append]
          omega
        have hplain := hfolded.plainFrom_eq (by omega) hlevel (endsPlain_colon _ hends)
          hlength false [] (c := c) (by rw [hc, htext]) hlevel
        simpa [Lexeme.plain] using hplain
      have hseen : String.ofList name.toList = seen name := by simp [seen, hs]
      rw [token_plain (by rw [← heq]; exact hbegins) (fun _ => hmark)]
      simp only [plainScalar, addCandidate_between, bind, Except.bind, if_true]
      rw [show inFlow _ = false from rfl, hread, htext, hs, ← hseen]
      rfl
  | quoted double written hs hquoted htext =>
      have hrest : c.rest = quoteMark double :: (written ++ quoteMark double :: (':' :: rest)) := by
        rw [hc, htext]
        simp
      refine ⟨_, _, hrest, ?_⟩
      have hread := hquoted.quoted_eq (Or.inr (by simp)) hrest
      rw [token_quoted double (fun _ => hmark)]
      simp only [keyPart, addCandidate_between, bind, Except.bind, quotedScalar, hread, if_true]
      rw [htext, String.ofList_toList, decide_eq_false hs]
      rfl

variable {column : Nat} {outer : List Nat} {opening : List Token}

theorem openBlock_between (h : AtBlock c.column outer columns opening) (tokens : List Token)
    (allowed : Bool) :
    (between c tokens columns allowed).openBlock .blockMapping =
      between c (opening ++ tokens) (c.column :: outer) allowed := by
  have hdeepens := h.deepens (s := between c tokens columns allowed) rfl
  rw [openBlock, show (between c tokens columns allowed).cursor.column = c.column from rfl,
    hdeepens]
  cases h <;> rfl

/-- Behind a candidate a colon makes it a key. -/
theorem colon_candidate {k : Candidate} {t : Token} (hk : k.tokens = tokens.length)
    (h : AtBlock k.column outer columns opening) :
    colon ⟨c, t :: tokens, columns, [some k], false⟩ =
      .ok (between (c.past [':']) (.value :: t :: .key :: opening ++ tokens)
        (k.column :: outer) false) := by
  have hflow : inFlow ⟨c, t :: tokens, columns, [some k], false⟩ = false := rfl
  have hdeepens := h.deepens (s := ⟨c, t :: tokens, columns, [some k], false⟩) rfl
  have hlater : (t :: tokens).length - k.tokens = 1 := by simp [hk]
  simp only [colon, hflow, hdeepens, insertAt, hlater]
  cases h <;> rfl

theorem token_colon {s : Scan} (hs : s.cursor.rest = ':' :: rest)
    (hends : endsWord rest = true) : s.token ':' rest = s.colon := by
  have hdash : beginsWithMark '-' s.cursor.rest = false := by
    rw [hs]
    match rest with
    | [] | [_] => rfl
    | _ :: _ :: _ => simp [beginsWithMark]
  have hdot : beginsWithMark '.' s.cursor.rest = false := by
    rw [hs]
    match rest with
    | [] | [_] => rfl
    | _ :: _ :: _ => simp [beginsWithMark]
  simp [token, hdash, hdot, hends]

/-- A colon too far from its key is refused. -/
theorem fails_late_colon {k : Candidate} (hword : Stops isSkipped c.rest)
    (hindex : k.index + keyReach < c.index) (hcolumns : ∀ top ∈ columns.head?, top ≤ c.column)
    (hc : c.rest = ':' :: rest) (hends : endsWord rest = true) :
    Fails ⟨c, tokens, columns, [some k], false⟩ := by
  have hstale := dropStale_far hindex tokens columns false
  cases hrequired : k.required with
  | true =>
      rw [hrequired, if_pos rfl] at hstale
      refine .of_settle ?_
      rw [settle, approach_word hword, hstale]
      rfl
  | false =>
      rw [hrequired, if_neg (by simp)] at hstale
      have hunwind : (between c tokens columns false).unwind = between c tokens columns false :=
        unwind_of_le rfl hcolumns
      have hsettle : settle ⟨c, tokens, columns, [some k], false⟩ =
          .ok (between c tokens columns false) := by
        rw [settle, approach_word hword, hstale]
        simp only [bind, Except.bind, hunwind]
        rfl
      refine .of_token hsettle hc ?_
      rw [token_colon hc hends]
      rfl

/-- A simple key and its colon, if the colon is found soon enough. -/
theorem comes_simpleKey {name : String} (hname : isSimpleKey name = true)
    (hblock : AtBlock c.column outer columns opening) (hends : endsWord rest = true)
    (hc : c.rest = keyText name ++ ':' :: rest) :
    Comes (keyFits name) (between c tokens columns true)
      (between (c.past (keyText name ++ [':']))
        (.value :: .scalar (seen name) (Style.ofText name = .plain) :: .key :: opening ++ tokens)
        (c.column :: outer) false) := by
  have hform := keyForm hname
  have hstart := (hform.start rest).1
  obtain ⟨ch, others, hhead, htoken⟩ := token_key hform hblock.head_le hends hc
  have hsettle : (between c tokens columns true).settle = .ok (between c tokens columns true) :=
    settle_between (by rw [hc]; exact hstart) hblock.head_le
  have hinline := fun ch (hch : ch ∈ keyText name) => inline_of_mem_keyText hname hch
  have hbehind : (c.past (keyText name)).rest = ':' :: rest := Cursor.rest_past hc
  have hline := Cursor.line_past hc hinline
  have hcolumn := Cursor.column_past hc hinline
  have hindex := Cursor.index_past hc
  have hword : Stops isSkipped (c.past (keyText name)).rest := by
    rw [hbehind]
    exact Stops.cons (by decide)
  have hcolumns : ∀ top ∈ columns.head?, top ≤ (c.past (keyText name)).column := fun top htop => by
    have hle := hblock.head_le top htop
    omega
  have hfirst := Leads.of_token (Cursor.index_lt_past hc (hform.ne_nil hname)) hsettle hhead htoken
  by_cases hshort : (keyText name).length ≤ keyReach
  · have hfits : keyFits name = true := by simp [keyFits, hshort]
    rw [hfits]
    have hreach : (c.past (keyText name)).index ≤
        (candidateAt c tokens columns).index + keyReach := by
      rw [hindex]
      exact Nat.add_le_add_left hshort _
    have hsettle := settle_candidate hword hline.symm hreach hcolumns
      (.scalar (seen name) (Style.ofText name = .plain) :: tokens) false
    have htoken := (token_colon (s := ⟨c.past (keyText name),
        .scalar (seen name) (Style.ofText name = .plain) :: tokens, columns,
        [some (candidateAt c tokens columns)], false⟩) hbehind hends).trans
      (colon_candidate (k := candidateAt c tokens columns) rfl hblock)
    rw [← Cursor.past_append] at htoken
    refine Leads.trans hfirst (Leads.of_token ?_ hsettle hbehind htoken)
    rw [Cursor.past_append]
    exact Cursor.index_lt_past hbehind (by simp)
  · have hfits : keyFits name = false := by simp [keyFits, hname, hshort]
    rw [hfits]
    refine Leads.fails hfirst (fails_late_colon hword ?_ hcolumns hbehind hends)
    rw [hindex]
    exact Nat.add_lt_add_left (Nat.lt_of_not_le hshort) _

end Key

end Scan
end CqlWorkload.Yaml
