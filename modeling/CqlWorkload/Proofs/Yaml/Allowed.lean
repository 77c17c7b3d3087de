import CqlWorkload.Proofs.Yaml.Document

/-!
# Characters of written documents

A text with a character that is not allowed is refused before anything is read.  A
written document has none: such characters are escaped, and a text with a character in
need of an escape is written in double quotes.
-/

namespace CqlWorkload.Yaml

/-- Are all characters of a text allowed? -/
abbrev AllAllowed (cs : List Char) : Prop := cs.all isAllowed = true

theorem isAllowed_of_isSpecial {c : Char} (h : isSpecial c = false) : isAllowed c = true := by
  simp only [isSpecial, Bool.not_eq_false', Bool.or_eq_true, Bool.and_eq_true] at h
  simp only [isAllowed, Bool.or_eq_true]
  rcases h with (h | h) | ⟨⟨h, -⟩, -⟩
  · exact Or.inl (Or.inl (Or.inr h))
  · exact Or.inl (Or.inr h)
  · exact Or.inr h

theorem isAllowed_of_isQuotable {c : Char} (h : isQuotable c = true) : isAllowed c = true := by
  simp only [isQuotable, Bool.and_eq_true, Bool.or_eq_true] at h
  simp only [isAllowed, Bool.or_eq_true]
  rcases h.2 with h | h
  · exact Or.inl (Or.inr h)
  · refine Or.inr ?_
    simp only [isForeign, Text.inRanges, List.any_cons, List.any_nil, Bool.or_eq_true] at h ⊢
    rcases h with h | h | h
    · exact Or.inr (Or.inl h)
    · exact Or.inr (Or.inr (Or.inl h))
    · contradiction

theorem isAllowed_of_isNumberChar {c : Char} (h : isNumberChar c = true) :
    isAllowed c = true := by
  simp only [isNumberChar, Bool.or_eq_true, List.contains_eq_mem, decide_eq_true_eq] at h
  rcases h with h | h
  · have hprintable : isPrintableAscii c = true := by
      simp only [Char.isDigit, Bool.and_eq_true, decide_eq_true_eq] at h
      have hlow : 48 ≤ c.toNat := h.1
      have hhigh : c.toNat ≤ 57 := h.2
      simp only [isPrintableAscii, Bool.and_eq_true, decide_eq_true_eq]
      omega
    simp [isAllowed, hprintable]
  · have hall : ['.', 'e', '+', '-', 'i', 'n', 'f', 'a'].all isAllowed = true := by decide
    exact List.all_eq_true.mp hall c h

@[simp] theorem allAllowed_blanks (n : Nat) : AllAllowed (blanks n) :=
  List.all_eq_true.mpr fun c hc => by
    rw [mem_blanks hc]
    decide

@[simp] theorem allAllowed_newLine (n : Nat) : AllAllowed (newLine n) := allAllowed_blanks n

theorem allAllowed_cons {c : Char} {cs : List Char} :
    AllAllowed (c :: cs) ↔ isAllowed c = true ∧ AllAllowed cs := by
  simp [AllAllowed]

theorem allAllowed_append {a b : List Char} :
    AllAllowed (a ++ b) ↔ AllAllowed a ∧ AllAllowed b := by
  simp [AllAllowed]

/-! ## Texts -/

theorem allAllowed_plainFrom {cs : List Char} (h : AllAllowed cs) (split : Bool) (indent : Nat)
    (afterBlank : Bool) (column : Nat) :
    AllAllowed (plainFrom split indent afterBlank column cs) := by
  induction cs generalizing afterBlank column with
  | nil => rfl
  | cons c cs ih =>
      obtain ⟨hc, hcs⟩ := allAllowed_cons.mp h
      rw [plainFrom]
      split
      · exact allAllowed_append.mpr ⟨allAllowed_newLine _, ih hcs _ _⟩
      · exact allAllowed_cons.mpr ⟨hc, ih hcs _ _⟩

theorem allAllowed_singleFrom {cs : List Char} (h : AllAllowed cs) (split : Bool) (indent : Nat)
    (before : Option Char) (column : Nat) :
    AllAllowed (singleFrom split indent before column cs) := by
  induction cs generalizing before column with
  | nil =>
      rw [singleFrom]
      split
      · exact allAllowed_blanks _
      · rfl
  | cons c cs ih =>
      obtain ⟨hc, hcs⟩ := allAllowed_cons.mp h
      simp only [singleFrom]
      generalize (before.any isBreak && !isBreak c) = atStart
      generalize (if atStart = true then indent else column) = column'
      generalize hlead : (if atStart = true then blanks indent else []) = lead
      have hlead : AllAllowed lead := by
        rw [← hlead]
        split
        · exact allAllowed_blanks _
        · rfl
      split
      · exact allAllowed_append.mpr
          ⟨allAllowed_append.mpr ⟨hlead, allAllowed_newLine _⟩, ih hcs _ _⟩
      · split
        · exact allAllowed_append.mpr ⟨hlead, allAllowed_cons.mpr
            ⟨by decide, allAllowed_cons.mpr ⟨by decide, ih hcs _ _⟩⟩⟩
        · split
          · exact allAllowed_append.mpr ⟨hlead, allAllowed_cons.mpr
              ⟨by decide, allAllowed_cons.mpr ⟨by decide, ih hcs _ _⟩⟩⟩
          · exact allAllowed_append.mpr ⟨hlead, allAllowed_cons.mpr ⟨hc, ih hcs _ _⟩⟩

theorem allAllowed_upperHex (size n : Nat) : AllAllowed (upperHex size n) := by
  have hdigits : ∀ d < 16, isAllowed d.digitChar.toUpper = true := by decide
  refine List.all_eq_true.mpr fun c hc => ?_
  obtain ⟨x, hx, rfl⟩ := List.mem_map.mp hc
  obtain ⟨d, hd, rfl⟩ := Digit.exists_digitChar_of_mem_hexText hx
  exact hdigits d hd

theorem allAllowed_escape (c : Char) : AllAllowed (escape c) := by
  have hletters : ∀ entry ∈ escapeLetters, isAllowed entry.2 = true := by decide
  have hcode : ∀ (letter : Char) (size : Nat), isAllowed letter = true →
      AllAllowed ('\\' :: letter :: upperHex size c.toNat) := fun letter size hletter =>
    allAllowed_cons.mpr ⟨by decide, allAllowed_cons.mpr ⟨hletter, allAllowed_upperHex _ _⟩⟩
  rw [escape]
  split
  · next letter hletter =>
      obtain ⟨front, back, hlist, -⟩ := List.lookup_eq_some_iff.mp hletter
      have hallowed := hletters (c, letter) (by simp [hlist])
      exact allAllowed_cons.mpr ⟨by decide, allAllowed_cons.mpr ⟨hallowed, rfl⟩⟩
  · split
    · exact hcode 'x' 2 (by decide)
    · split
      · exact hcode 'u' 4 (by decide)
      · exact hcode 'U' 8 (by decide)

theorem allAllowed_foldDouble (indent : Nat) (rest : List Char) :
    AllAllowed (foldDouble indent rest) := by
  refine allAllowed_append.mpr ⟨allAllowed_cons.mpr ⟨by decide, allAllowed_newLine _⟩, ?_⟩
  split <;> decide

/-- Between double quotes every text is written with allowed characters. -/
theorem allAllowed_doubleFrom (split : Bool) (indent : Nat) (inner fresh : Bool) (column : Nat)
    (cs : List Char) : AllAllowed (doubleFrom split indent inner fresh column cs) := by
  induction cs generalizing inner fresh column with
  | nil => rfl
  | cons c cs ih =>
      rw [doubleFrom]
      split
      · next hc =>
          have hc := isAllowed_of_isQuotable hc
          split
          · exact allAllowed_append.mpr
              ⟨allAllowed_foldDouble _ _, allAllowed_cons.mpr ⟨hc, ih _ _ _⟩⟩
          · exact allAllowed_cons.mpr ⟨hc, ih _ _ _⟩
      · dsimp only
        split
        · exact allAllowed_append.mpr ⟨allAllowed_append.mpr
            ⟨allAllowed_escape c, allAllowed_foldDouble _ _⟩, ih _ _ _⟩
        · exact allAllowed_append.mpr ⟨allAllowed_escape c, ih _ _ _⟩

theorem allAllowed_literalMarks (cs : List Char) : AllAllowed (literalMarks cs) := by
  rw [literalMarks_eq]
  cases isDeep cs <;> cases chompOf cs <;> decide

theorem allAllowed_literalFrom {cs : List Char} (h : AllAllowed cs) (indent : Nat)
    (atStart : Bool) : AllAllowed (literalFrom indent atStart cs) := by
  induction cs generalizing atStart with
  | nil =>
      rw [literalFrom]
      split <;> decide
  | cons c cs ih =>
      obtain ⟨hc, hcs⟩ := allAllowed_cons.mp h
      rw [literalFrom]
      split
      · exact allAllowed_cons.mpr ⟨hc, ih hcs _⟩
      · refine allAllowed_append.mpr ⟨?_, allAllowed_cons.mpr ⟨hc, ih hcs _⟩⟩
        split
        · exact allAllowed_blanks _
        · rfl

/-- A text in another style than double quotes has no character that needs an escape. -/
theorem isSpecial_of_style {s : String} (h : Style.ofText s ≠ .double) :
    ∀ c ∈ s.toList, isSpecial c = false := by
  rcases Style.ofText_cases s with ⟨-, hplain, -⟩ | ⟨-, hsingle, hline⟩ | hs | ⟨-, -, hliteral⟩
  · exact fun c hc => ((Style.plainText_of_allowsPlain hplain).char c hc).1
  · exact fun c hc => ((Style.singleText_of_allowsSingle hsingle hline).char c hc).1
  · exact absurd hs h
  · simp only [Style.allowsLiteral, Bool.and_eq_true] at hliteral
    exact Style.isSpecial_of_isClean hliteral.1.1

theorem allAllowed_textFrom (split : Bool) (indent column : Nat) (s : String) :
    AllAllowed (textFrom split indent column s) := by
  have hown : Style.ofText s ≠ .double → AllAllowed s.toList := fun h =>
    List.all_eq_true.mpr fun c hc => isAllowed_of_isSpecial (isSpecial_of_style h c hc)
  rw [textFrom]
  split
  · next hs => exact allAllowed_plainFrom (hown (by simp [hs])) _ _ _ _
  · next hs =>
      exact allAllowed_append.mpr ⟨allAllowed_cons.mpr
        ⟨by decide, allAllowed_singleFrom (hown (by simp [hs])) _ _ _ _⟩, by decide⟩
  · exact allAllowed_append.mpr ⟨allAllowed_cons.mpr
      ⟨by decide, allAllowed_doubleFrom _ _ _ _ _ _⟩, by decide⟩
  · next hs =>
      exact allAllowed_append.mpr ⟨allAllowed_cons.mpr ⟨by decide, allAllowed_literalMarks _⟩,
        allAllowed_cons.mpr ⟨by decide, allAllowed_literalFrom (hown (by simp [hs])) _ _⟩⟩

theorem allAllowed_textLine (indent column : Nat) (s : String) :
    AllAllowed (textLine indent column s) := by
  refine allAllowed_append.mpr ⟨allAllowed_textFrom _ _ _ _, ?_⟩
  split <;> decide

/-! ## Documents -/

theorem allAllowed_keyLine (indent : Nat) (name : String) : AllAllowed (keyLine indent name) := by
  rw [keyLine]
  split
  · exact allAllowed_append.mpr ⟨allAllowed_textFrom _ _ _ _, by decide⟩
  · exact allAllowed_append.mpr ⟨allAllowed_append.mpr ⟨by decide, allAllowed_append.mpr
      ⟨allAllowed_textLine _ _ _, allAllowed_blanks _⟩⟩, by decide⟩

theorem allAllowed_numberLine {cs : List Char} (h : IsNumberText cs) :
    AllAllowed (' ' :: cs ++ ['\n']) :=
  allAllowed_append.mpr ⟨allAllowed_cons.mpr ⟨by decide,
    List.all_eq_true.mpr fun c hc => isAllowed_of_isNumberChar (h.char c hc)⟩, by decide⟩

mutual

theorem allAllowed_valueFrom {depth : Nat} (value : Value) (h : IsDocument depth value)
    (inline : Bool) (indent column : Nat) :
    AllAllowed (valueFrom inline indent column value) := by
  match value, h with
  | .text s, _ =>
      rw [valueFrom]
      exact allAllowed_cons.mpr ⟨by decide, allAllowed_textLine _ _ _⟩
  | .int k, _ =>
      rw [valueFrom] <;> first
        | exact allAllowed_numberLine (isNumberText_int k)
        | simp
  | .float x, _ =>
      rw [valueFrom] <;> first
        | exact allAllowed_numberLine (isNumberText_float x)
        | simp
  | .map [], _ => rw [valueFrom]; decide
  | .map (entry :: others), h =>
      match depth, h with
      | depth + 1, ⟨_, h⟩ =>
          have hentries := allAllowed_entriesFrom (entry :: others) h (indent + 2)
          rw [valueFrom, entriesFrom_false]
          split
          · exact allAllowed_cons.mpr ⟨by decide, hentries⟩
          · exact allAllowed_cons.mpr
              ⟨by decide, allAllowed_append.mpr ⟨allAllowed_blanks _, hentries⟩⟩

theorem allAllowed_entriesFrom {depth : Nat} (entries : List (Value × Value))
    (h : AreEntries depth entries) (indent : Nat) :
    AllAllowed (entriesFrom true indent entries) := by
  match entries, h with
  | [], _ => rfl
  | (key, value) :: others, ⟨hkey, hdocument, hothers⟩ =>
      obtain ⟨column, hline⟩ := entriesFrom_cons indent key.plainText value others
      rw [hkey, hline]
      refine allAllowed_append.mpr ⟨allAllowed_keyLine _ _, allAllowed_append.mpr
        ⟨allAllowed_valueFrom value hdocument _ _ _, ?_⟩⟩
      cases others with
      | nil => rfl
      | cons entry others =>
          rw [entriesFrom_false]
          exact allAllowed_append.mpr
            ⟨allAllowed_blanks _, allAllowed_entriesFrom (entry :: others) hothers indent⟩

end

/-- A written document is not refused for its characters. -/
theorem allAllowed_write {depth : Nat} {entries : List (Value × Value)}
    (h : AreEntries depth entries) (hne : entries ≠ []) :
    AllAllowed (write (.map entries)).toList := by
  rw [write_map h hne]
  exact allAllowed_entriesFrom entries h 0

end CqlWorkload.Yaml
