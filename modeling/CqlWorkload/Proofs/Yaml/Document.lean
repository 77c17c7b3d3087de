import CqlWorkload.Proofs.Yaml.Entry

/-!
# Written documents as tokens

The text of a document is read as the tokens that `valueTokens` lists, whatever its
lines look like, provided that every simple key is short enough; if one is not, the
text is refused.

**Induction.** A value is read up to the next line, and so are the entries of a mapping
from the first key on.  Both claims are proved together, along the writer.
-/

namespace CqlWorkload.Yaml

mutual

/-- A document of so many levels: mappings with different texts for keys, of texts and
numbers, whole numbers with not too many digits. -/
def IsDocument (depth : Nat) : Value → Prop
  | .text _ => True
  | .int n => (Nat.toDigits 10 n.natAbs).length ≤ Digit.limit
  | .float _ => True
  | .map entries =>
    match depth with
    | 0 => entries = []
    | depth + 1 => (entries.map Prod.fst).Nodup ∧ AreEntries depth entries
  | _ => False

def AreEntries (depth : Nat) : List (Value × Value) → Prop
  | [] => True
  | (key, value) :: rest => key = .text key.plainText ∧ IsDocument depth value ∧ AreEntries depth rest

end

mutual

/-- Is every simple key of a value short enough? -/
def keysFit : Value → Bool
  | .map entries => entriesFit entries
  | _ => true

def entriesFit : List (Value × Value) → Bool
  | [] => true
  | (key, value) :: rest => keyFits key.plainText && keysFit value && entriesFit rest

end

mutual

/-- The tokens of a written value. -/
def valueTokens : Value → List Token
  | .text s => [textToken s]
  | .map [] => [.flowMapping, .flowMappingEnd]
  | .map (entry :: rest) => .blockMapping :: (entryTokens (entry :: rest) ++ [.blockEnd])
  | value => [.scalar (plainScalar value) true]

def entryTokens : List (Value × Value) → List Token
  | [] => []
  | (key, value) :: rest =>
    .key :: textToken key.plainText :: .value :: (valueTokens value ++ entryTokens rest)

end

theorem reverse_entryTokens_cons (key value : Value) (others : List (Value × Value))
    (tokens : List Token) : (entryTokens ((key, value) :: others)).reverse ++ tokens =
      (entryTokens others).reverse ++ ((valueTokens value).reverse ++
        (.value :: textToken key.plainText :: .key :: tokens)) := by
  rw [entryTokens]
  simp

/-! ## Lines of a document -/

theorem endsWord_valueFrom (inline : Bool) (indent column : Nat) (value : Value)
    (rest : List Char) : endsWord (valueFrom inline indent column value ++ rest) = true := by
  unfold valueFrom
  split
  · rfl
  · rfl
  · rfl
  · split <;> rfl
  · split <;> rfl
  · rfl

theorem entriesFrom_cons (indent : Nat) (name : String) (value : Value)
    (rest : List (Value × Value)) :
    ∃ column, entriesFrom true indent ((.text name, value) :: rest) =
      keyLine indent name ++ (valueFrom (!isSimpleKey name) indent column value ++
        entriesFrom false indent rest) := by
  cases hname : isSimpleKey name with
  | true =>
      refine ⟨indent + (keyText name).length + 1, ?_⟩
      simp [entriesFrom, keyLine, Value.plainText, hname, textFrom_key hname]
  | false =>
      refine ⟨indent + 1, ?_⟩
      simp [entriesFrom, keyLine, Value.plainText, hname]

theorem entriesFrom_false (indent : Nat) (entry : Value × Value) (rest : List (Value × Value)) :
    entriesFrom false indent (entry :: rest) =
      blanks indent ++ entriesFrom true indent (entry :: rest) := by
  obtain ⟨key, value⟩ := entry
  simp only [entriesFrom]
  split <;> simp

namespace Scan

theorem lineStart_keyLine (indent : Nat) (name : String) (rest : List Char) :
    LineStart indent (keyLine indent name ++ rest) := by
  have hstart : Stops isSkipped (keyLine indent name ++ rest) ∧
      isDocumentMark (keyLine indent name ++ rest) = false := by
    cases hname : isSimpleKey name with
    | true =>
        have hline : keyLine indent name ++ rest = keyText name ++ ':' :: rest := by
          simp [keyLine, hname]
        rw [hline]
        exact (keyForm hname).start rest
    | false =>
        obtain ⟨others, hline⟩ : ∃ others, keyLine indent name ++ rest = '?' :: others :=
          ⟨_, by rw [keyLine, hname]; rfl⟩
        rw [hline]
        exact ⟨Stops.cons (by decide),
          isDocumentMark_eq_false (Stops.cons (by decide))⟩
  refine ⟨hstart.1, ?_⟩
  cases indent with
  | zero => exact hstart.2
  | succ indent => exact isDocumentMark_eq_false (Stops.cons (by decide))

/-- The line of an entry that is not the first one. -/
theorem lineStart_entriesFrom {depth : Nat} {entry : Value × Value}
    {others : List (Value × Value)} (h : AreEntries depth (entry :: others)) (indent : Nat)
    (rest : List Char) : LineStart indent (entriesFrom true indent (entry :: others) ++ rest) := by
  obtain ⟨key, value⟩ := entry
  obtain ⟨hkey, -, -⟩ := h
  obtain ⟨column, heq⟩ := entriesFrom_cons indent key.plainText value others
  rw [hkey, heq, List.append_assoc]
  exact lineStart_keyLine _ _ _

/-- In front of a value that is a block its column is reached. -/
theorem leads_block {c : Cursor} {tokens : List Token} {columns : List Nat} {allowed inline : Bool}
    {top column : Nat} {entry : Value × Value} {others : List (Value × Value)} {rest : List Char}
    (hinline : inline = true → c.column = top + 1 ∧ allowed = true)
    (hrest : Stops isSkipped (entriesFrom true (top + 2) (entry :: others) ++ rest))
    (hc : c.rest = valueFrom inline top column (.map (entry :: others)) ++ rest) :
    ∃ gap, valueFrom inline top column (.map (entry :: others)) =
        gap ++ entriesFrom true (top + 2) (entry :: others) ∧
      (c.past gap).column = top + 2 ∧
      Leads (between c tokens columns allowed) (between (c.past gap) tokens columns true) := by
  cases inline with
  | true =>
      obtain ⟨hcolumn, rfl⟩ := hinline rfl
      have hvalue : valueFrom true top column (.map (entry :: others)) =
          blanks 1 ++ entriesFrom true (top + 2) (entry :: others) := by
        rw [valueFrom, if_pos rfl]
        rfl
      rw [hvalue, List.append_assoc] at hc
      refine ⟨blanks 1, hvalue, ?_, leads_blanks hc hrest⟩
      rw [Cursor.column_past hc fun _ => Cursor.inline_of_mem_blanks, hcolumn]
      rfl
  | false =>
      have hvalue : valueFrom false top column (.map (entry :: others)) =
          newLine (top + 2) ++ entriesFrom true (top + 2) (entry :: others) := by
        rw [valueFrom, if_neg (by simp), entriesFrom_false]
        rfl
      rw [hvalue, List.append_assoc] at hc
      exact ⟨newLine (top + 2), hvalue, (Cursor.past_newLine (a := []) hc).1,
        leads_newLine hc hrest (by simp)⟩

theorem leads_numberLine {c : Cursor} {tokens : List Token} {columns : List Nat} {allowed : Bool}
    {top column n : Nat} {rest : List Char} {inline : Bool} {value : Value}
    {word : String}
    (hnumber : IsNumberText word.toList)
    (hvalue : valueFrom inline top column value = ' ' :: word.toList ++ ['\n'])
    (hn : n ≤ top) (hrest : LineStart n rest) (htop : top < c.column)
    (hc : c.rest = valueFrom inline top column value ++ (blanks n ++ rest)) :
    Leads (between c tokens (top :: columns) allowed)
        (between (c.past (valueFrom inline top column value ++ blanks n))
          (.scalar (word) true :: tokens) (top :: columns) true) ∧
      (c.past (valueFrom inline top column value ++ blanks n)).column = n := by
  have hpiece : valueFrom inline top column value ++ blanks n =
      blanks 1 ++ (word.toList ++ newLine n) := by
    rw [hvalue]
    simp [newLine, blanks_succ]
  rw [← List.append_assoc, hpiece, List.append_assoc, List.append_assoc] at hc
  have hnext := Cursor.rest_past hc
  have hcolumn := Cursor.column_past hc fun _ => Cursor.inline_of_mem_blanks
  have hword : Stops isSkipped (word.toList ++ (newLine n ++ rest)) := by
    obtain ⟨ch, others, heq, -, hskipped, -⟩ :=
      (beginsPlain_of_isNumberChar hnumber.char hnumber.ne_nil hnumber.ne_sign).head
    rw [heq]
    exact Stops.cons hskipped
  have hread := leads_number hnumber hn hrest (by omega) hnext tokens columns allowed
  rw [String.ofList_toList] at hread
  rw [hpiece, Cursor.past_append]
  exact ⟨(leads_blanks hc hword).trans hread, (Cursor.past_newLine hnext).1⟩

mutual

/-- A value is read up to the next line. -/
theorem comes_value {depth : Nat} (value : Value) (h : IsDocument depth value) {c : Cursor}
    (tokens : List Token) (columns : List Nat) {allowed inline : Bool} {top column n : Nat}
    {rest : List Char} (hwidth : top + 2 * depth + 2 < width) (hn : n ≤ top)
    (hrest : LineStart n rest) (htop : top < c.column)
    (hinline : inline = true → c.column = top + 1 ∧ allowed = true)
    (hc : c.rest = valueFrom inline top column value ++ (blanks n ++ rest)) :
    Comes (keysFit value) (between c tokens (top :: columns) allowed)
        (between (c.past (valueFrom inline top column value ++ blanks n))
          ((valueTokens value).reverse ++ tokens) (top :: columns) true) ∧
      (c.past (valueFrom inline top column value ++ blanks n)).column = n := by
  match value, h with
  | .text s, _ =>
      have hvalue : valueFrom inline top column (.text s) =
          blanks 1 ++ textLine (top + 2) (column + 1) s := by rw [valueFrom]; rfl
      rw [hvalue, List.append_assoc] at hc
      have htext := Cursor.rest_past hc
      rw [hvalue, List.append_assoc, Cursor.past_append]
      refine ⟨(leads_blanks hc (stops_textLine _ _ _ _)).trans
        (leads_textLine (by omega) hn hrest ?_ s _ htext), column_past_textLine htext⟩
      rw [Cursor.column_past hc fun _ => Cursor.inline_of_mem_blanks]
      exact Nat.lt_add_right _ htop
  | .int k, _ => exact leads_numberLine (isNumberText_int k) (by rw [valueFrom] <;> simp) hn hrest htop hc
  | .float x, _ => exact leads_numberLine (isNumberText_float x) (by rw [valueFrom] <;> simp) hn hrest htop hc
  | .map [], _ =>
      have hvalue : valueFrom inline top column (.map []) ++ blanks n =
          blanks 1 ++ (['\x7b', '\x7d'] ++ newLine n) := by rw [valueFrom]; rfl
      rw [← List.append_assoc, hvalue, List.append_assoc, List.append_assoc] at hc
      have hnext := Cursor.rest_past hc
      have hcolumn := Cursor.column_past hc fun _ => Cursor.inline_of_mem_blanks
      rw [hvalue, Cursor.past_append]
      exact ⟨(leads_blanks hc (Stops.cons (by decide))).trans
        (leads_emptyMap hrest (by omega) hnext), (Cursor.past_newLine hnext).1⟩
  | .map (entry :: others), h =>
      match depth, h with
      | depth + 1, ⟨_, h⟩ =>
          obtain ⟨gap, hvalue, hcolumn, hgap⟩ := leads_block hinline
            (lineStart_entriesFrom h _ _).word hc
          rw [hvalue, List.append_assoc] at hc
          have hbehind := Cursor.rest_past hc
          have hnew : AtBlock (top + 2) (top :: columns) (top :: columns) [.blockMapping] :=
            .new (by simp)
          obtain ⟨hentries, hend⟩ := comes_entries (entry :: others) h (by simp) tokens
            (c := c.past gap) (n := n) hcolumn (by omega) (by omega) hrest hnew hbehind
          have hlast : ((c.past gap).past
              (entriesFrom true (top + 2) (entry :: others) ++ blanks n)).rest = rest :=
            Cursor.rest_past (by rw [hbehind, List.append_assoc])
          have hclose := leads_blockEnd (by rw [hlast]; exact hrest.word) (by omega : _ < top + 2)
            ((entryTokens (entry :: others)).reverse ++ ([.blockMapping] ++ tokens))
            (top :: columns) true
          rw [hvalue, List.append_assoc, Cursor.past_append]
          refine ⟨(hgap.comes hentries).leads ?_, hend⟩
          simpa [valueTokens] using hclose

theorem comes_entries {depth : Nat} (entries : List (Value × Value))
    (h : AreEntries depth entries) (hne : entries ≠ []) {c : Cursor} (tokens : List Token)
    {columns outer : List Nat} {opening : List Token} {indent n : Nat} {rest : List Char}
    (hcolumn : c.column = indent) (hwidth : indent + 2 * depth + 2 < width) (hn : n ≤ indent)
    (hrest : LineStart n rest) (hblock : AtBlock indent outer columns opening)
    (hc : c.rest = entriesFrom true indent entries ++ (blanks n ++ rest)) :
    Comes (entriesFit entries) (between c tokens columns true)
        (between (c.past (entriesFrom true indent entries ++ blanks n))
          ((entryTokens entries).reverse ++ (opening ++ tokens)) (indent :: outer) true) ∧
      (c.past (entriesFrom true indent entries ++ blanks n)).column = n := by
  match entries, h with
  | (key, value) :: others, ⟨hkey, hdocument, hothers⟩ =>
      subst hcolumn
      obtain ⟨column, hline⟩ := entriesFrom_cons c.column key.plainText value others
      rw [← hkey] at hline
      rw [hline, List.append_assoc, List.append_assoc] at hc
      obtain ⟨hname, hdeeper, hinline⟩ := comes_keyLine key.plainText
        (by omega) hblock (endsWord_valueFrom _ _ _ _ _) hc
      have hbehind := Cursor.rest_past hc
      have hplace : (!isSimpleKey key.plainText) = true →
          (c.past (keyLine c.column key.plainText)).column = c.column + 1 ∧
            (!isSimpleKey key.plainText) = true := fun hcomplex =>
        ⟨hinline (by simpa using hcomplex), hcomplex⟩
      cases others with
      | nil =>
          have hvalue := comes_value value hdocument
            (.value :: textToken key.plainText :: .key :: opening ++ tokens) outer (by omega) hn hrest hdeeper hplace hbehind
          have hdone : entriesFrom true c.column [(key, value)] ++ blanks n =
              keyLine c.column key.plainText ++
                (valueFrom (!isSimpleKey key.plainText) c.column column value ++ blanks n) := by
            rw [hline]
            simp [entriesFrom]
          rw [hdone, Cursor.past_append]
          refine ⟨?_, hvalue.2⟩
          rw [reverse_entryTokens_cons, entriesFit, entriesFit, Bool.and_true]
          exact hname.trans hvalue.1
      | cons entry others =>
          rw [entriesFrom_false, List.append_assoc] at hbehind
          have hvalue := comes_value value hdocument
            (.value :: textToken key.plainText :: .key :: opening ++ tokens) outer
            (by omega) (Nat.le_refl _)
            (lineStart_entriesFrom hothers _ _) hdeeper hplace hbehind
          rw [← List.append_assoc] at hbehind
          have hinside : AtBlock c.column outer (c.column :: outer) [] := .inside
          have hnext := comes_entries (entry :: others) hothers (by simp)
            ((valueTokens value).reverse ++
              (.value :: textToken key.plainText :: .key :: opening ++ tokens))
            hvalue.2 hwidth hn hrest hinside (Cursor.rest_past hbehind)
          have hdone : entriesFrom true c.column ((key, value) :: entry :: others) ++ blanks n =
              keyLine c.column key.plainText ++
                ((valueFrom (!isSimpleKey key.plainText) c.column column value ++
                    blanks c.column) ++
                  (entriesFrom true c.column (entry :: others) ++ blanks n)) := by
            rw [hline, entriesFrom_false]
            simp
          rw [hdone, Cursor.past_append, Cursor.past_append]
          refine ⟨?_, hnext.2⟩
          rw [reverse_entryTokens_cons, entriesFit]
          exact (hname.trans hvalue.1).trans hnext.1

end

/-- At the end of the text the outermost mapping ends. -/
theorem readAll_end {c : Cursor} (tokens : List Token) (hc : c.rest = []) (fuel : Nat) :
    ∃ s, readAll (fuel + 1) (between c tokens [0] true) = .ok s ∧
      s.tokens = .blockEnd :: tokens := by
  have hsettle : (between c tokens [0] true).settle = .ok (between c tokens [0] true) :=
    settle_between (by rw [hc]; exact stops_nil _) (by simp)
  have hrest : (between c tokens [0] true).cursor.rest = [] := hc
  refine ⟨between c (.blockEnd :: tokens) [] true, ?_, rfl⟩
  rw [readAll_succ, hsettle]
  simp only [Except.bind, hrest]
  rfl

end Scan

section Write

variable {depth : Nat} {entries : List (Value × Value)}

theorem write_map (h : AreEntries depth entries) (hne : entries ≠ []) :
    (write (.map entries)).toList = entriesFrom true 0 entries := by
  obtain ⟨entry, others, rfl⟩ := List.exists_cons_of_ne_nil hne
  rw [write, String.toList_ofList, entriesFrom_false]
  rfl

/-- Reading a written document comes to its end, or to a key that is too long. -/
theorem comes_write (h : AreEntries depth entries) (hne : entries ≠ [])
    (hdepth : 2 * depth + 2 < width) :
    Scan.Comes (entriesFit entries) (.start (write (.map entries)).toList)
      (.between ((Cursor.start (write (.map entries)).toList).past (write (.map entries)).toList)
        ((entryTokens entries).reverse ++ [.blockMapping]) [0] true) := by
  have hcolumn : (Cursor.start (write (.map entries)).toList).column = 0 := rfl
  have hnew : Scan.AtBlock 0 [] [] [.blockMapping] := .new (by simp)
  have hread := (Scan.comes_entries entries h hne [] (n := 0) hcolumn (by omega) (Nat.le_refl _)
    ⟨stops_nil _, rfl⟩ hnew (by rw [write_map h hne]; simp [Cursor.start])).1
  rw [blanks_zero, List.append_nil, ← write_map h hne] at hread
  exact hread

/-- A written document is read as its tokens if its keys are short enough. -/
theorem tokens_write (h : AreEntries depth entries) (hne : entries ≠ [])
    (hdepth : 2 * depth + 2 < width) (hfits : entriesFit entries = true) :
    Token.ofText (write (.map entries)).toList = .ok (valueTokens (.map entries)) := by
  have hread := comes_write h hne hdepth
  rw [hfits] at hread
  obtain ⟨n, hn, hread⟩ := hread
  have hstart : (Cursor.start (write (.map entries)).toList).rest =
      (write (.map entries)).toList ++ [] := by rw [List.append_nil]; rfl
  -- one unit of fuel for every character is enough, and the last one is for the end
  obtain ⟨fuel, hfuel⟩ : ∃ fuel, (write (.map entries)).toList.length = n + fuel := by
    refine Nat.exists_eq_add_of_le (Nat.le_trans hn (Nat.le_of_eq ?_))
    exact (Cursor.index_past hstart).trans (Nat.zero_add _)
  obtain ⟨s, hend, htokens⟩ := Scan.readAll_end ((entryTokens entries).reverse ++ [.blockMapping])
    (Cursor.rest_past hstart) fuel
  obtain ⟨entry, others, rfl⟩ := List.exists_cons_of_ne_nil hne
  rw [Token.ofText, hfuel, show n + fuel + 1 = fuel + 1 + n by omega, hread, hend]
  simp [bind, Except.bind, pure, Except.pure, htokens, valueTokens]

/-- If a key of a written document is too long, it has no tokens. -/
theorem tokens_write_ne_ok (h : AreEntries depth entries) (hne : entries ≠ [])
    (hdepth : 2 * depth + 2 < width) (hfits : entriesFit entries = false) (ts : List Token) :
    Token.ofText (write (.map entries)).toList ≠ .ok ts := by
  have hread := comes_write h hne hdepth
  rw [hfits] at hread
  rw [Token.ofText]
  cases hall : Scan.readAll ((write (.map entries)).toList.length + 1)
      (.start (write (.map entries)).toList) with
  | error fault => simp [bind, Except.bind]
  | ok s => exact absurd hall (Scan.Fails.not_ok hread _)

end Write

end CqlWorkload.Yaml
