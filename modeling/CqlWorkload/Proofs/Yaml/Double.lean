import CqlWorkload.Proofs.Number.Digit
import CqlWorkload.Proofs.Yaml.Quoted

/-!
# Texts in double quotes

A text in double quotes is read as it is, whatever its characters are: those that
cannot stand there are escaped, and an escaped break counts for nothing.
-/

namespace CqlWorkload.Yaml

open Lexeme

/-! ## Escapes -/

theorem number?_upperHex (size n : Nat) : Digit.number? 16 (upperHex size n) = some n := by
  have hall : ∀ d < 16, Digit.value? 16 d.digitChar.toUpper = Digit.value? 16 d.digitChar := by
    decide
  rw [upperHex, Digit.number?_map, Digit.number?_hexText]
  intro c hc
  obtain ⟨d, hd, rfl⟩ := Digit.exists_digitChar_of_mem_hexText hc
  exact hall d hd

theorem length_upperHex {size n : Nat} (hsize : 0 < size) (hn : n < 16 ^ size) :
    (upperHex size n).length = size := by
  rw [upperHex, List.length_map, Digit.length_hexText hsize hn]

theorem hexNumber?_upperHex {size n : Nat} (hsize : 0 < size) (hn : n < 16 ^ size)
    (rest : List Char) : hexNumber? size (upperHex size n ++ rest) = some n := by
  have hlength := length_upperHex hsize hn
  have htake : (upperHex size n ++ rest).take size = upperHex size n := by
    rw [List.take_append_of_le_length (by omega), List.take_of_length_le (by omega)]
  simp only [hexNumber?, htake, hlength, if_true]
  exact number?_upperHex size n

theorem toNat_lt (c : Char) :
    c.toNat < 0x110000 ∧ ¬(0xd800 ≤ c.toNat ∧ c.toNat ≤ 0xdfff) := by
  have hvalid : c.toNat < 0xd800 ∨ 0xdfff < c.toNat ∧ c.toNat < 0x110000 := c.valid
  omega

theorem charOfCode_toNat (c : Char) : charOfCode c.toNat = .ok c := by
  rw [charOfCode, if_neg (toNat_lt c).2, if_pos (toNat_lt c).1, Char.ofNat_toNat]

/-- A letter escape is read as its character. -/
theorem escapes_letter {c letter : Char} (h : escapeLetters.lookup c = some letter) :
    Escapes [letter] c := by
  have hall : ∀ entry ∈ escapeLetters, escapes.lookup entry.2 = some entry.1 := by decide
  have hmem : (c, letter) ∈ escapeLetters := by
    obtain ⟨l, r, heq, -⟩ := List.lookup_eq_some_iff.mp h
    simp [heq]
  intro cursor rest hc
  have hc : cursor.rest = letter :: rest := hc
  simp only [Lexeme.escape, hc, hall _ hmem]
  rfl

/-- A code escape is read as the character of the code. -/
theorem escapes_code {letter : Char} {size : Nat} (hletter : escapes.lookup letter = none)
    (hsize : codeLength letter = some size) (hpos : 0 < size) {c : Char}
    (hc : c.toNat < 16 ^ size) : Escapes (letter :: upperHex size c.toNat) c := by
  intro cursor rest h
  have hlength := length_upperHex hpos hc
  have h : cursor.rest = letter :: (upperHex size c.toNat ++ rest) := h
  simp only [Lexeme.escape, h, hletter, hsize, hexNumber?_upperHex hpos hc, charOfCode_toNat]
  rw [Cursor.past, List.length_cons, hlength]
  rfl

/-- What is escaped is read as it was. -/
theorem exists_escape (c : Char) : ∃ code, escape c = '\\' :: code ∧ Escapes code c := by
  have hc := toNat_lt c
  unfold escape
  split
  · next letter hletter => exact ⟨_, rfl, escapes_letter hletter⟩
  · split
    · exact ⟨_, rfl, escapes_code (by decide) rfl (by decide) (by norm_num; omega)⟩
    · split
      · exact ⟨_, rfl, escapes_code (by decide) rfl (by decide) (by norm_num; omega)⟩
      · exact ⟨_, rfl, escapes_code (by decide) rfl (by decide) (by norm_num; omega)⟩

/-! ## The writer -/

theorem isBreak_of_isQuotable {c : Char} (h : isQuotable c = true) : isBreak c = false := by
  simp only [isQuotable, Bool.and_eq_true, Bool.not_eq_true', Bool.or_eq_false_iff] at h
  exact h.1.1.2

theorem isOwn_of_isQuotable {c : Char} (h : isQuotable c = true) (hblank : c ≠ ' ') :
    IsOwn true c := by
  have hbreak := isBreak_of_isQuotable h
  have htab : c ≠ '\t' := by
    rintro rfl
    contradiction
  refine ⟨by simp [isLayout_eq, isGap, hblank, htab, hbreak], ?_, fun _ => ?_⟩ <;>
    · rintro rfl
      contradiction

/-- A blank that is written begins what is read. -/
theorem Quoted.of_blank {double : Bool} {read written : List Char}
    (h : Quoted double read (' ' :: written)) :
    ∃ read', read = ' ' :: read' ∧ Quoted double read' written := by
  generalize htext : ' ' :: written = text at h
  cases h with
  | nil => contradiction
  | own hc h =>
      obtain ⟨rfl, rfl⟩ := List.cons.inj htext
      exact absurd hc.solid (by decide)
  | quote hdouble h => simp at htext
  | escape hdouble hcode h => simp at htext
  | blank hnext h =>
      obtain ⟨-, rfl⟩ := List.cons.inj htext
      exact ⟨_, rfl, h⟩
  | breaks hfirst =>
      obtain ⟨rfl, -⟩ := List.cons.inj htext
      exact absurd hfirst (by decide)
  | fold hdouble hindent hnext h => simp at htext

theorem escapes_blank : Escapes [' '] ' ' := by
  intro c rest h
  have h : c.rest = ' ' :: rest := h
  have hlookup : escapes.lookup ' ' = some ' ' := by decide
  simp only [Lexeme.escape, h, hlookup]
  rfl

/-- A line may be broken in front of anything, when a blank there is escaped. -/
theorem Quoted.foldDouble {indent : Nat} (hindent : 0 < indent) {cs written : List Char}
    (h : Quoted true cs written) (hbreak : Stops isBreak written)
    (hblank : cs.head? = some ' ' → written.head? = some ' ') :
    Quoted true cs (foldDouble indent cs ++ written) := by
  by_cases hhead : cs.head? = some ' '
  · obtain ⟨w, rfl⟩ : ∃ w, written = ' ' :: w := by
      cases written with
      | nil => simp at hblank; contradiction
      | cons c w =>
          have hc : c = ' ' := by simpa using hblank hhead
          exact ⟨w, by rw [hc]⟩
    obtain ⟨read', rfl, h'⟩ := h.of_blank
    have hesc := (h'.escape rfl escapes_blank).fold rfl hindent
      (Stops.cons (by decide))
    simpa [Yaml.foldDouble, newLine] using hesc
  · obtain ⟨n, read', written', rfl, rfl, h', hstops⟩ := h.exists_blanks hbreak
    cases n with
    | zero =>
        have hfold := h'.fold rfl hindent hstops
        rw [Yaml.foldDouble, if_neg hhead]
        simpa [newLine] using hfold
    | succ n => simp [blanks_succ] at hhead

section Writer

variable {split : Bool} {indent : Nat}

theorem stops_doubleFrom (inner fresh : Bool) (column : Nat) (cs : List Char) :
    Stops isBreak (doubleFrom split indent inner fresh column cs) := by
  cases cs with
  | nil => simp [doubleFrom]
  | cons c cs =>
      obtain ⟨code, hcode, -⟩ := exists_escape c
      have hslash : isBreak '\\' = false := by decide
      rw [doubleFrom]
      by_cases hc : isQuotable c = true
      · have hbreak := isBreak_of_isQuotable hc
        simp only [hc, if_true]
        split <;> simp [foldDouble, hslash, hbreak]
      · simp only [hc, hcode, Bool.false_eq_true, if_false]
        split <;> simp [hslash]

/-- A blank on a line that is not full stands for itself. -/
theorem doubleFrom_blank (inner fresh : Bool) {column : Nat} (hcolumn : column ≤ width)
    (cs : List Char) : doubleFrom split indent inner fresh column (' ' :: cs) =
      ' ' :: doubleFrom split indent true false (column + 1) cs := by
  have hquotable : isQuotable ' ' = true := by decide
  have hwidth : ¬ width < column := by omega
  simp [doubleFrom, hquotable, hwidth]

/-- A text in double quotes is read as it is. -/
theorem quoted_doubleFrom (split : Bool) (hindent : 0 < indent) (hwidth : indent < width)
    (inner fresh : Bool) (column : Nat) (cs : List Char) :
    Quoted true cs (doubleFrom split indent inner fresh column cs) := by
  induction cs generalizing inner fresh column with
  | nil => exact .nil
  | cons c cs ih =>
      rw [doubleFrom]
      by_cases hc : isQuotable c = true
      · have hnext : ∀ column, Quoted true (c :: cs)
            (c :: doubleFrom split indent true false column cs) := by
          intro column
          by_cases hblank : c = ' '
          · subst hblank
            exact (ih true false column).blank (stops_doubleFrom _ _ _ _)
          · exact (ih true false column).own (isOwn_of_isQuotable hc hblank)
        simp only [hc, if_true]
        split
        · exact (hnext _).foldDouble hindent
            (Stops.cons (isBreak_of_isQuotable hc)) (fun h => h)
        · exact hnext _
      · obtain ⟨code, hcode, hesc⟩ := exists_escape c
        simp only [hc, hcode, Bool.false_eq_true, if_false]
        split
        · have hfold := (ih true true (foldColumn indent cs)).foldDouble hindent
            (stops_doubleFrom _ _ _ _) fun hhead => by
              cases cs with
              | nil => contradiction
              | cons d cs =>
                  obtain rfl : d = ' ' := by simpa using hhead
                  have hcolumn : foldColumn indent (' ' :: cs) ≤ width := by
                    simp [foldColumn]
                    omega
                  rw [doubleFrom_blank _ _ hcolumn]
                  rfl
          simpa using hfold.escape rfl hesc
        · simpa using (ih true true _).escape rfl hesc

end Writer

end CqlWorkload.Yaml
