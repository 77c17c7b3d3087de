import CqlWorkload.Json.Reader
import CqlWorkload.Json.Writer
import CqlWorkload.Proofs.Number.Layout

/-!
# Scalars in JSON

What is written for a text, a whole number or a double is read again as the
value that was written, whatever follows it.  Only the text of a number has to
end somewhere: behind it stands no character that a number may go on with.
-/

namespace CqlWorkload.Json

/-! ## Texts -/

theorem exists_hexText_four {n : Nat} (h : n < 0x10000) :
    ∃ a b c d, Text.hexText 4 n = [a, b, c, d] ∧ unit? a b c d = some n := by
  have hlength : (Text.hexText 4 n).length = 4 := Digit.length_hexText (by decide) h
  match hd : Text.hexText 4 n, hlength with
  | [a, b, c, d], _ => exact ⟨a, b, c, d, rfl, by rw [unit?, ← hd, Digit.number?_hexText]⟩

theorem stringBody_unitText {n : Nat} (h : n < 0xd800 ∨ 0xe000 ≤ n ∧ n < 0x10000)
    (rest : List Char) :
    stringBody (unitText n ++ rest) =
      (stringBody rest).map fun found => (Char.ofNat n :: found.1, found.2) := by
  obtain ⟨a, b, c, d, hd, hu⟩ := exists_hexText_four (show n < 0x10000 by omega)
  have hhigh : ¬(0xd800 ≤ n ∧ n < 0xdc00) := by omega
  have hlow : ¬(0xdc00 ≤ n ∧ n < 0xe000) := by omega
  simp [unitText, hd, stringBody, hu, hhigh, hlow]

theorem stringBody_unitText_unitText {high low : Nat} (hh : 0xd800 ≤ high ∧ high < 0xdc00)
    (hl : 0xdc00 ≤ low ∧ low < 0xe000) (rest : List Char) :
    stringBody (unitText high ++ unitText low ++ rest) = (stringBody rest).map fun found =>
      (Char.ofNat (0x10000 + (high - 0xd800) * 0x400 + (low - 0xdc00)) :: found.1, found.2) := by
  obtain ⟨a, b, c, d, hd, hu⟩ := exists_hexText_four (show high < 0x10000 by omega)
  obtain ⟨e, f, g, i, hd', hu'⟩ := exists_hexText_four (show low < 0x10000 by omega)
  simp [unitText, hd, hd', stringBody, hu, hu', hh, hl]

theorem stringBody_escapedChar (c : Char) (rest : List Char) :
    stringBody (escapedChar c ++ rest) =
      (stringBody rest).map fun found => (c :: found.1, found.2) := by
  have hvalid : c.toNat < 0xd800 ∨ 0xdfff < c.toNat ∧ c.toNat < 0x110000 := c.valid
  unfold escapedChar
  split_ifs with h
  · rw [stringBody_unitText (by omega), Char.ofNat_toNat]
  · dsimp only
    rw [stringBody_unitText_unitText (by omega) (by omega)]
    have hcode : 0x10000 + (0xd800 + (c.toNat - 0x10000) / 0x400 - 0xd800) * 0x400 +
        (0xdc00 + (c.toNat - 0x10000) % 0x400 - 0xdc00) = c.toNat := by omega
    rw [hcode, Char.ofNat_toNat]

theorem stringBody_escape {c escaped : Char} (hu : c ≠ 'u') (h : shortEscape? c = some escaped)
    (rest : List Char) :
    stringBody ('\\' :: c :: rest) =
      (stringBody rest).map fun found => (escaped :: found.1, found.2) := by
  rw [stringBody]
  · rw [h]
  · simp_all

theorem stringBody_plain {c : Char} (hq : c ≠ '"') (hb : c ≠ '\\') (hc : 0x20 ≤ c.toNat)
    (rest : List Char) :
    stringBody (c :: rest) = (stringBody rest).map fun found => (c :: found.1, found.2) := by
  rw [stringBody]
  · have hlt : ¬c.toNat < 0x20 := by omega
    simp [hlt, hb]
  all_goals simp_all

theorem stringBody_charText (asciiOnly : Bool) (c : Char) (rest : List Char) :
    stringBody (charText asciiOnly c ++ rest) =
      (stringBody rest).map fun found => (c :: found.1, found.2) := by
  unfold charText
  split_ifs with h1 h2 h3 h4 h5 h6 h7
  · rcases (by simpa using h1 : c = '"' ∨ c = '\\') with rfl | rfl
    · exact stringBody_escape (by decide) rfl rest
    · exact stringBody_escape (by decide) rfl rest
  · exact h2 ▸ stringBody_escape (by decide) rfl rest
  · exact h3 ▸ stringBody_escape (by decide) rfl rest
  · exact h4 ▸ stringBody_escape (by decide) rfl rest
  · exact h5 ▸ stringBody_escape (by decide) rfl rest
  · exact h6 ▸ stringBody_escape (by decide) rfl rest
  · exact stringBody_escapedChar c rest
  · simp only [Bool.or_eq_true, decide_eq_true_eq, not_or] at h1 h7
    exact stringBody_plain h1.1 h1.2 (by omega) rest

theorem stringBody_flatMap (asciiOnly : Bool) (cs rest : List Char) :
    stringBody (cs.flatMap (charText asciiOnly) ++ '"' :: rest) = some (cs, rest) := by
  induction cs with
  | nil => rfl
  | cons c cs ih =>
      rw [List.flatMap_cons, List.append_assoc, stringBody_charText, ih]
      rfl

/-! ## Numbers -/

/-- What stands here cannot go on a number. -/
def EndsNumber (rest : List Char) : Prop :=
  ∀ c ∈ rest.head?, c.isDigit = false ∧ c ≠ '.' ∧ c ≠ 'e' ∧ c ≠ 'E'

/-- No digit stands at the front. -/
def EndsDigits (rest : List Char) : Prop := ∀ c ∈ rest.head?, c.isDigit = false

theorem takeDigits_append {digits rest : List Char} (hd : ∀ c ∈ digits, c.isDigit = true)
    (hr : EndsDigits rest) : takeDigits (digits ++ rest) = (digits, rest) := by
  have hrest : rest.takeWhile Char.isDigit = [] ∧ rest.dropWhile Char.isDigit = rest := by
    cases rest with
    | nil => exact ⟨rfl, rfl⟩
    | cons c rest =>
        have hc := hr c (by simp)
        simp [hc]
  rw [takeDigits, List.takeWhile_append_of_pos hd, List.dropWhile_append_of_pos hd, hrest.1,
    hrest.2, List.append_nil]

theorem fraction?_pointed {places rest : List Char} (hp : ∀ c ∈ places, c.isDigit = true)
    (hr : EndsDigits rest) (hdot : rest.head? ≠ some '.') :
    fraction? (Spelling.pointed places ++ rest) = some (places, rest) := by
  cases places with
  | nil =>
      cases rest with
      | nil => rfl
      | cons c rest =>
          have hc : c ≠ '.' := by simpa using hdot
          simp [Spelling.pointed, fraction?, hc]
  | cons c places =>
      have htake := takeDigits_append hp hr
      rw [List.cons_append] at htake
      simp [Spelling.pointed, fraction?, htake]

theorem exponent?_of_endsNumber {rest : List Char} (h : EndsNumber rest) :
    exponent? rest = some (none, rest) := by
  cases rest with
  | nil => rfl
  | cons c rest =>
      obtain ⟨-, -, he, hE⟩ := h c (by simp)
      simp [exponent?, he, hE]

theorem exponent?_text {e : Spelling.Exponent} (hne : e.digits ≠ [])
    (hd : ∀ c ∈ e.digits, c.isDigit = true) {rest : List Char} (hr : EndsDigits rest) :
    exponent? (e.text ++ rest) = some (some e.value, rest) := by
  have htake := takeDigits_append hd hr
  obtain ⟨c, ds, hc⟩ := List.exists_cons_of_ne_nil hne
  rw [hc, List.cons_append] at htake
  have hdigits (negative : Bool) :
      exponentDigits? ((if negative then '-' else '+') :: (e.digits ++ rest)) =
        some (negative, e.digits, rest) := by
    cases negative <;> simp [exponentDigits?, hc, htake]
  simp [Spelling.Exponent.text, exponent?, hdigits, Spelling.Exponent.value]

/-- A number whose parts are read one after the other. -/
theorem number?_of_parts {whole places tail tail' rest : List Char} {exponent : Option Int}
    (hw : ∀ c ∈ whole, c.isDigit = true)
    (hlead : whole = ['0'] ∨ ∃ c others, whole = c :: others ∧ c ≠ '0') (ht : EndsDigits tail)
    (hf : fraction? tail = some (places, tail')) (he : exponent? tail' = some (exponent, rest))
    (negative : Bool) :
    number? negative (whole ++ tail) =
      match exponent with
      | some size => some (.float (.ofDecimal negative (Digit.number 10 (whole ++ places))
          (size - places.length)), rest)
      | none =>
        if places = [] then
          if digitLimit < whole.length then none
          else
            some (.int (if negative then -(Digit.number 10 whole : Int) else Digit.number 10 whole),
              rest)
        else
          some (.float (.ofDecimal negative (Digit.number 10 (whole ++ places)) (-places.length)),
            rest) := by
  rcases hlead with rfl | ⟨c, others, rfl, h0⟩
  · rw [List.singleton_append, number?]
    simp only [hf, he]
    cases exponent <;> simp
  · have htake := takeDigits_append hw ht
    rw [List.cons_append] at htake ⊢
    rw [number?]
    · simp only [htake, hf, he]
      cases exponent <;> simp
    · simp_all

theorem EndsNumber.endsDigits {rest : List Char} (h : EndsNumber rest) : EndsDigits rest :=
  fun c hc => (h c hc).1

theorem number?_spelling {s : Spelling} (hs : s.WellFormed) (negative : Bool) {rest : List Char}
    (hr : EndsNumber rest) :
    number? negative (s.text ++ rest) = some (.float (s.double negative), rest) := by
  obtain ⟨whole, places, exponent⟩ := s
  have hplaces := hs.places
  have hbroken := hs.broken
  dsimp only at hplaces hbroken
  cases exponent with
  | none =>
      have hne : places ≠ [] := hbroken rfl
      have hf := fraction?_pointed hplaces hr.endsDigits fun hdot =>
        (hr '.' (by simp [hdot])).2.1 rfl
      have ht : EndsDigits (Spelling.pointed places ++ rest) := by
        intro c hc
        rw [Spelling.pointed_of_ne_nil hne] at hc
        simp only [List.cons_append, List.head?_cons, Option.mem_def, Option.some.injEq] at hc
        exact hc ▸ rfl
      have hread := number?_of_parts hs.whole hs.leading ht hf (exponent?_of_endsNumber hr) negative
      simpa [Spelling.text, Spelling.double, Spelling.lastExponent, hne] using hread
  | some e =>
      obtain ⟨hne, hdigits⟩ := hs.exponent e rfl
      have he := exponent?_text hne hdigits hr.endsDigits
      have hstart : EndsDigits (e.text ++ rest) := by
        intro c hc
        simp only [Spelling.Exponent.text, List.cons_append, List.head?_cons, Option.mem_def,
          Option.some.injEq] at hc
        exact hc ▸ rfl
      have hf := fraction?_pointed hplaces hstart (by simp [Spelling.Exponent.text])
      have ht : EndsDigits (Spelling.pointed places ++ (e.text ++ rest)) := by
        cases places with
        | nil => exact hstart
        | cons c places =>
            intro a ha
            simp only [Spelling.pointed, List.cons_append, List.head?_cons, Option.mem_def,
              Option.some.injEq] at ha
            exact ha ▸ rfl
      have hread := number?_of_parts hs.whole hs.leading ht hf he negative
      simpa [Spelling.text, Spelling.double, Spelling.lastExponent] using hread

theorem number?_toDigits (negative : Bool) (n : Nat) {rest : List Char} (hr : EndsNumber rest) :
    number? negative (Nat.toDigits 10 n ++ rest) =
      if digitLimit < (Nat.toDigits 10 n).length then none
      else some (.int (if negative then -(n : Int) else n), rest) := by
  have hlead : Nat.toDigits 10 n = ['0'] ∨ ∃ c others, Nat.toDigits 10 n = c :: others ∧ c ≠ '0' := by
    by_cases hn : n = 0
    · exact Or.inl (by simp [hn])
    · exact Or.inr (Digit.exists_toDigits_cons hn)
  have hplaces : ∀ c ∈ ([] : List Char), c.isDigit = true := by simp
  have hf := fraction?_pointed hplaces hr.endsDigits fun hdot => (hr '.' (by simp [hdot])).2.1 rfl
  rw [Spelling.pointed, List.nil_append] at hf
  rw [number?_of_parts (fun c => Digit.isDigit_of_mem_toDigits) hlead hr.endsDigits hf
    (exponent?_of_endsNumber hr) negative]
  simp [Digit.number_toDigits]

/-! ## Scalars -/

theorem scalar?_stringText (asciiOnly : Bool) (s : String) (rest : List Char) :
    scalar? (stringText asciiOnly s ++ rest) = some (.text s, rest) := by
  have hquote : ∀ cs, scalar? ('"' :: cs) =
      (stringBody cs).map fun found => (.text (String.ofList found.1), found.2) := fun _ => rfl
  simp [stringText, hquote, stringBody_flatMap]

theorem scalar?_of_isDigit {c : Char} (hc : c.isDigit = true) (rest : List Char) :
    scalar? (c :: rest) = number? false (c :: rest) := by
  rw [scalar?]
  all_goals
    intro others h
    injection h with h
    subst h
    simp at hc

theorem scalar?_minus {c : Char} (hc : c.isDigit = true) (rest : List Char) :
    scalar? ('-' :: c :: rest) = number? true (c :: rest) := by
  have hne : 'I' ≠ c := by
    rintro rfl
    simp at hc
  simp [scalar?, literal?, hne]

/-- A number with or without a minus is read without its sign. -/
theorem scalar?_signed (negative : Bool) {cs : List Char}
    (h : ∃ c others, cs = c :: others ∧ c.isDigit = true) (rest : List Char) :
    scalar? ((if negative then ['-'] else []) ++ cs ++ rest) = number? negative (cs ++ rest) := by
  obtain ⟨c, others, rfl, hc⟩ := h
  cases negative with
  | false => exact scalar?_of_isDigit hc _
  | true => exact scalar?_minus hc _

theorem scalar?_intText (n : Int) {rest : List Char} (hr : EndsNumber rest) :
    scalar? ((intText n).toList ++ rest) =
      if digitLimit < (Nat.toDigits 10 n.natAbs).length then none else some (.int n, rest) := by
  have htext : (intText n).toList =
      (if decide (n < 0) then ['-'] else []) ++ Nat.toDigits 10 n.natAbs := by
    by_cases hn : n < 0
    · simp [intText, hn, FloatLayout.digitsText]
    · simp [intText, hn, FloatLayout.digitsText]
  have hvalue : (if decide (n < 0) then -(n.natAbs : Int) else n.natAbs) = n := by
    simp only [decide_eq_true_eq]
    split_ifs <;> omega
  have hstart : ∃ c others, Nat.toDigits 10 n.natAbs = c :: others ∧ c.isDigit = true := by
    obtain ⟨c, others, hc⟩ := List.exists_cons_of_ne_nil (Nat.toDigits_ne_nil (n := n.natAbs) (b := 10))
    exact ⟨c, others, hc, Digit.isDigit_of_mem_toDigits (n := n.natAbs) (by simp [hc])⟩
  rw [htext, scalar?_signed _ hstart, number?_toDigits _ _ hr, hvalue]

/-- **A finite double is read as itself.** -/
theorem scalar?_render {layout : FloatLayout} (hl : layout.IsRegular) {x : Double}
    (hx : x.isFinite = true) {rest : List Char} (hr : EndsNumber rest) :
    scalar? ((layout.render x).toList ++ rest) = some (.float x, rest) := by
  cases x with
  | nan => cases hx
  | signed negative rank =>
      obtain ⟨s, hs, hdouble, htext⟩ :=
        FloatLayout.exists_spelling_render hl negative (of_decide_eq_true hx)
      rw [htext, scalar?_signed _ hs.exists_text_cons, number?_spelling hs negative hr, hdouble]

end CqlWorkload.Json
