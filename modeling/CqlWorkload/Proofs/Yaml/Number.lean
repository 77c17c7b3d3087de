import CqlWorkload.Proofs.Number.Layout
import CqlWorkload.Proofs.Yaml.Entry
import CqlWorkload.Yaml.Scalar

/-!
# Numbers in documents

A written number is a plain scalar whose form is that of its kind, and its value is the
number again.

**Points.** The layout of documents puts a point into every double that has digits.  A
whole number has none, and so its form is that of no double.
-/

namespace CqlWorkload

namespace NumberText

/-! ## Reading the parts of a spelling -/

theorem takeDigits_append {digits : List Char} (rest : List Char)
    (hdigits : ∀ c ∈ digits, c.isDigit = true) (hrest : ∀ c ∈ rest.head?, Digit.value? 10 c = none) :
    takeDigits (digits ++ rest) = (digits.filterMap (Digit.value? 10), rest) := by
  induction digits with
  | nil =>
      cases rest with
      | nil => rfl
      | cons c rest => simp [takeDigits, hrest c (by simp)]
  | cons c digits ih =>
      have hvalue := Digit.value?_of_isDigit (hdigits c (by simp))
      have ih := ih fun d hd => hdigits d (by simp [hd])
      simp [takeDigits, hvalue, ih]

theorem joinDigits?_eq_some {cs : List Char} (h : ∀ c ∈ cs, c ≠ '_') (afterDigit : Bool) :
    joinDigits? afterDigit cs = some cs := by
  induction cs generalizing afterDigit with
  | nil => rfl
  | cons c cs ih =>
      have ih := ih (fun d hd => h d (by simp [hd])) c.isDigit
      have hc := h c (by simp)
      rw [joinDigits?, if_neg hc, ih]
      · rfl
      · rintro next rest rfl
        exact absurd rfl hc

theorem exponent?_text {e : Spelling.Exponent} (hne : e.digits ≠ [])
    (hdigits : ∀ c ∈ e.digits, c.isDigit = true) : exponent? e.text = some e.value := by
  obtain ⟨c, others, hcons⟩ := List.exists_cons_of_ne_nil hne
  have htake := takeDigits_append [] hdigits (by simp)
  rw [List.append_nil] at htake
  have hvalues : e.digits.filterMap (Digit.value? 10) ≠ [] := by
    rw [hcons, List.filterMap_cons, Digit.value?_of_isDigit (hdigits c (by simp [hcons]))]
    simp
  obtain ⟨d, ds, hvalues⟩ := List.exists_cons_of_ne_nil hvalues
  have hsize : digitsValue (d :: ds) = Digit.number 10 e.digits := by
    rw [← hvalues]
    rfl
  have hsign : takeSign ((if e.negative then '-' else '+') :: e.digits) =
      (e.negative, e.digits) := by cases e.negative <;> rfl
  simp only [Spelling.Exponent.text, exponent?, hsign, htake, hvalues, hsize,
    Spelling.Exponent.value]
  rfl

theorem length_filterMap_value? {digits : List Char} (h : ∀ c ∈ digits, c.isDigit = true) :
    (digits.filterMap (Digit.value? 10)).length = digits.length := by
  induction digits with
  | nil => rfl
  | cons c digits ih =>
      rw [List.filterMap_cons, Digit.value?_of_isDigit (h c (by simp)), List.length_cons,
        List.length_cons, ih fun d hd => h d (by simp [hd])]

theorem ne_sign_of_isDigit {c : Char} (h : c.isDigit = true) : c ≠ '-' ∧ c ≠ '+' := by
  constructor <;> rintro rfl <;> contradiction

/-- A number that is no word is read by its parts. -/
theorem double?_of_mantissa? {text rest : List Char} {whole places : List Nat} {exponent : Int}
    (hfirst : ∀ c ∈ text.head?, c ≠ '-' ∧ c ≠ '+')
    (hmark : ∃ c ∈ text.map Char.toLower, c.isAlpha = false)
    (hmantissa : mantissa? text = some (whole, places, rest))
    (hexponent : exponent? rest = some exponent) : double? text =
      some (.ofDecimal false (digitsValue (whole ++ places)) (exponent - places.length)) := by
  have hsign : takeSign text = (false, text) := by
    unfold takeSign
    split
    · exact absurd rfl (hfirst '-' rfl).1
    · exact absurd rfl (hfirst '+' rfl).2
    · rfl
  have hword : ∀ word : String, word.toList.all Char.isAlpha = true →
      String.ofList (text.map Char.toLower) ≠ word := by
    rintro word hletters rfl
    obtain ⟨c, hc, hmark⟩ := hmark
    rw [String.toList_ofList, List.all_eq_true] at hletters
    rw [hletters c hc] at hmark
    cases hmark
  rw [double?, hsign]
  simp only [hword "inf" (by decide), hword "infinity" (by decide), hword "nan" (by decide),
    decide_false, Bool.or_self, Bool.false_eq_true, if_false, hmantissa, hexponent,
    Option.map_some]

/-- An exponent as it is written, or nothing. -/
def exponentText (e : Option Spelling.Exponent) : List Char :=
  (e.map Spelling.Exponent.text).getD []

/-- Digits with a point in front of them, behind them or between them, and perhaps an
exponent. -/
structure IsPointed (whole places : List Char) (e : Option Spelling.Exponent) : Prop where
  ne_nil : whole ≠ [] ∨ places ≠ []
  whole : ∀ c ∈ whole, c.isDigit = true
  places : ∀ c ∈ places, c.isDigit = true
  exponent : ∀ e' ∈ e, e'.digits ≠ [] ∧ ∀ c ∈ e'.digits, c.isDigit = true

section Pointed

variable {whole places : List Char} {e : Option Spelling.Exponent}

theorem IsPointed.mantissa? (h : IsPointed whole places e) :
    mantissa? (whole ++ '.' :: (places ++ exponentText e)) =
      some (whole.filterMap (Digit.value? 10), places.filterMap (Digit.value? 10),
        exponentText e) := by
  have hexponent : ∀ c ∈ (exponentText e).head?, Digit.value? 10 c = none := by
    intro c hc
    cases e with
    | none => cases hc
    | some e =>
        obtain rfl : 'e' = c := by simpa [exponentText, Spelling.Exponent.text] using hc
        decide
  have hplaces := takeDigits_append _ h.places hexponent
  have hwhole := takeDigits_append ('.' :: (places ++ exponentText e)) h.whole (by
    intro c hc
    obtain rfl : '.' = c := by simpa using hc
    decide)
  have hempty {digits : List Char} (hd : ∀ c ∈ digits, c.isDigit = true) (hne : digits ≠ []) :
      (digits.filterMap (Digit.value? 10)).isEmpty = false := by
    obtain ⟨c, others, rfl⟩ := List.exists_cons_of_ne_nil hne
    simp [Digit.value?_of_isDigit (hd c (by simp))]
  rw [NumberText.mantissa?, hwhole]
  simp only [hplaces]
  have hsome : ¬((whole.filterMap (Digit.value? 10)).isEmpty &&
      (places.filterMap (Digit.value? 10)).isEmpty) = true := by
    rcases h.ne_nil with hne | hne
    · rw [hempty h.whole hne]
      exact Bool.false_ne_true
    · rw [hempty h.places hne, Bool.and_false]
      exact Bool.false_ne_true
  rw [if_neg hsome]

/-- **Digits with a point are read** as the double next to what they say. -/
theorem IsPointed.double? (h : IsPointed whole places e) :
    double? (whole ++ '.' :: (places ++ exponentText e)) =
      some (.ofDecimal false (Digit.number 10 (whole ++ places))
        ((e.map Spelling.Exponent.value).getD 0 - places.length)) := by
  have hexponent : exponent? (exponentText e) =
      some ((e.map Spelling.Exponent.value).getD 0) := by
    cases e with
    | none => rfl
    | some e =>
        obtain ⟨hne, hdigits⟩ := h.exponent e rfl
        exact exponent?_text hne hdigits
  have hfirst : ∀ c ∈ (whole ++ '.' :: (places ++ exponentText e)).head?, c ≠ '-' ∧ c ≠ '+' := by
    intro c hc
    cases whole with
    | nil =>
        cases hc
        decide
    | cons first others =>
        cases hc
        exact ne_sign_of_isDigit (h.whole c (List.mem_cons_self ..))
  rw [double?_of_mantissa? hfirst ⟨'.', by simp, by decide⟩ h.mantissa? hexponent,
    length_filterMap_value? h.places, digitsValue, ← List.filterMap_append]
  rfl

end Pointed

section Spelling

variable {s : Spelling}

theorem text_of_point (hpoint : s.places ≠ []) :
    s.text = s.whole ++ '.' :: (s.places ++ exponentText s.exponent) := by
  rw [Spelling.text, Spelling.pointed_of_ne_nil hpoint]
  simp [exponentText]

theorem isPointed_of_wellFormed (hs : s.WellFormed) (hpoint : s.places ≠ []) :
    IsPointed s.whole s.places s.exponent :=
  ⟨Or.inr hpoint, hs.whole, hs.places, hs.exponent⟩

theorem double?_spelling (hs : s.WellFormed) (hpoint : s.places ≠ []) :
    double? s.text = some (s.double false) := by
  rw [text_of_point hpoint, (isPointed_of_wellFormed hs hpoint).double?]
  rfl

end Spelling

end NumberText
namespace Yaml

/-! ## Characters of numbers -/

/-- The characters of numbers in text. -/
def numberChars : List Char := "0123456789.e+-infa".toList

theorem mem_numberChars {c : Char} (h : isNumberChar c = true) : c ∈ numberChars := by
  simp only [isNumberChar, Bool.or_eq_true, List.contains_eq_mem, decide_eq_true_eq] at h
  rcases h with h | h
  · have hall : ∀ n < 58, 48 ≤ n → Char.ofNat n ∈ numberChars := by decide
    obtain ⟨hlow, hhigh⟩ := Char.isDigit_iff_toNat.mp h
    have hmem := hall c.toNat (Nat.lt_succ_of_le hhigh) hlow
    rwa [Char.ofNat_toNat] at hmem
  · have hall : ['.', 'e', '+', '-', 'i', 'n', 'f', 'a'].all numberChars.contains = true := by
      decide
    exact List.contains_iff_mem.mp (List.all_eq_true.mp hall c h)

/-- A character that the readers of numbers leave as it is. -/
structure IsBare (c : Char) : Prop where
  lower : Text.lower c = c
  sigma : c ≠ 'Σ'
  dotted : c.toNat ≠ 0x130
  mark : c ≠ '_'
  colon : c ≠ ':'
  blank : Text.isBlank c = false
  ascii : NumberText.asciiDigit c = c

instance (c : Char) : Decidable (IsBare c) :=
  decidable_of_iff (Text.lower c = c ∧ c ≠ 'Σ' ∧ c.toNat ≠ 0x130 ∧ c ≠ '_' ∧ c ≠ ':' ∧
      Text.isBlank c = false ∧ NumberText.asciiDigit c = c)
    ⟨fun ⟨h1, h2, h3, h4, h5, h6, h7⟩ => ⟨h1, h2, h3, h4, h5, h6, h7⟩,
      fun ⟨h1, h2, h3, h4, h5, h6, h7⟩ => ⟨h1, h2, h3, h4, h5, h6, h7⟩⟩

theorem isBare_of_isNumberChar {c : Char} (h : isNumberChar c = true) : IsBare c := by
  have hall : numberChars.all (fun c => decide (IsBare c)) = true := by decide
  exact of_decide_eq_true (List.all_eq_true.mp hall c (mem_numberChars h))

section Bare

variable {cs : List Char}

theorem lowerAfter_bare (h : ∀ c ∈ cs, IsBare c) (before : List Char) :
    Text.lowerAfter before cs = cs := by
  induction cs generalizing before with
  | nil => rfl
  | cons c cs ih =>
      have hc := h c (by simp)
      rw [Text.lowerAfter, ih fun d hd => h d (by simp [hd])]
      simp [hc.lower, hc.sigma, hc.dotted]

theorem lowerText_bare {s : String} (h : ∀ c ∈ s.toList, IsBare c) : Text.lowerText s = s := by
  rw [Text.lowerText, lowerAfter_bare h, String.ofList_toList]

theorem withoutUnderscores_bare (h : ∀ c ∈ cs, IsBare c) :
    Scalar.withoutUnderscores cs = cs :=
  List.filter_eq_self.mpr fun c hc => by simpa using (h c hc).mark

theorem map_asciiDigit_bare (h : ∀ c ∈ cs, IsBare c) : cs.map NumberText.asciiDigit = cs := by
  rw [List.map_congr_left fun c hc => (h c hc).ascii, List.map_id']

theorem dropWhile_eq_self {p : Char → Bool} (h : ∀ c ∈ cs, p c = false) :
    cs.dropWhile p = cs := by
  cases cs with
  | nil => rfl
  | cons c cs => simp [h c (by simp)]

theorem trimWhile_eq_self {p : Char → Bool} (h : ∀ c ∈ cs, p c = false) :
    Text.trimWhile p cs = cs := by
  rw [Text.trimWhile, dropWhile_eq_self h, Text.dropEndWhile,
    dropWhile_eq_self fun c hc => h c (List.mem_reverse.mp hc), List.reverse_reverse]

theorem statistic?_bare {s : String} (h : ∀ c ∈ s.toList, IsBare c) :
    NumberText.statistic? s = NumberText.double? s.toList := by
  have hspacing : ∀ c ∈ s.toList, NumberText.isSpacing c = false := fun c hc => by
    simp [NumberText.isSpacing, (h c hc).blank]
  rw [NumberText.statistic?, trimWhile_eq_self hspacing, map_asciiDigit_bare h,
    NumberText.joinDigits?_eq_some fun c hc => (h c hc).mark]
  rfl

end Bare

/-! ## Forms -/

/-- A number is no word for nothing or for a truth value. -/
theorem IsNumberText.not_word {w : String} (h : IsNumberText w.toList) :
    Tag.nullWords.contains w = false ∧
      (Tag.trueWords.contains w || Tag.falseWords.contains w) = false := by
  have hwords : ∀ word ∈ Tag.nullWords ++ Tag.trueWords ++ Tag.falseWords,
      word ≠ "" → word.toList.any fun c => !isNumberChar c := by decide
  have hword : w ∉ Tag.nullWords ++ Tag.trueWords ++ Tag.falseWords := by
    intro hmem
    have hne : w ≠ "" := by
      rintro rfl
      exact h.ne_nil rfl
    obtain ⟨c, hc, hnot⟩ := List.any_eq_true.mp (hwords w hmem hne)
    rw [h.char c hc] at hnot
    contradiction
  simpa [and_assoc] using hword

theorem ofPlain_double {w : String} (h : IsNumberText w.toList)
    (hdouble : Tag.isDouble w.toList = true) : Tag.ofPlain w = .double := by
  simp only [Tag.ofPlain, h.not_word.1, h.not_word.2, Bool.false_eq_true, if_false, hdouble,
    if_true]

theorem ofPlain_whole {w : String} (h : IsNumberText w.toList)
    (hdouble : Tag.isDouble w.toList = false) (hwhole : Tag.isWhole w.toList = true) :
    Tag.ofPlain w = .whole := by
  simp only [Tag.ofPlain, h.not_word.1, h.not_word.2, Bool.false_eq_true, if_false, hdouble,
    hwhole, if_true]

section Signed

variable {cs : List Char}

theorem unsigned_eq_self (h : ∀ c ∈ cs.head?, c ≠ '-' ∧ c ≠ '+') : Tag.unsigned cs = cs := by
  unfold Tag.unsigned
  split
  · exact absurd rfl (h '-' rfl).1
  · exact absurd rfl (h '+' rfl).2
  · rfl

/-- A minus in front of a negative number is its sign. -/
theorem unsigned_signed (h : ∃ c others, cs = c :: others ∧ c.isDigit = true)
    (negative : Bool) : Tag.unsigned ((if negative then ['-'] else []) ++ cs) = cs := by
  obtain ⟨c, others, rfl, hc⟩ := h
  cases negative with
  | true => rfl
  | false =>
      refine unsigned_eq_self fun d hd => ?_
      cases hd
      exact NumberText.ne_sign_of_isDigit hc

theorem isNegative_signed (h : ∃ c others, cs = c :: others ∧ c.isDigit = true)
    (negative : Bool) :
    Scalar.isNegative ((if negative then ['-'] else []) ++ cs) = negative := by
  obtain ⟨c, others, rfl, hc⟩ := h
  cases negative with
  | true => rfl
  | false =>
      have hne : c ≠ '-' := by
        rintro rfl
        contradiction
      simp [Scalar.isNegative, hne]

end Signed

theorem isDouble_spelling {s : Spelling} (hs : s.WellFormed) (hpoint : s.places ≠ [])
    (negative : Bool) : Tag.isDouble ((if negative then ['-'] else []) ++ s.text) = true := by
  have htext := NumberText.text_of_point hpoint
  have hwhole : ∀ c ∈ s.whole, (c != '.') = true := fun c hc => by
    rw [bne_iff_ne]
    rintro rfl
    exact absurd (hs.whole _ hc) (by decide)
  have htake : s.text.takeWhile (· != '.') = s.whole := by
    rw [htext, List.takeWhile_append_of_pos hwhole]
    simp
  have hdrop : (s.text.dropWhile (· != '.')).drop 1 =
      s.places ++ NumberText.exponentText s.exponent := by
    rw [htext, List.dropWhile_append_of_pos hwhole]
    simp
  have hcontains : s.text.contains '.' = true := by
    rw [htext]
    simp
  have hrun : Tag.isDigitRun Char.isDigit s.whole = true := by
    obtain ⟨c, others, hcons, hc⟩ := hs.exists_whole_cons
    have hothers : ∀ d ∈ others, d.isDigit = true := fun d hd => hs.whole d (by simp [hcons, hd])
    rw [hcons]
    simp only [Tag.isDigitRun, hc, Bool.true_and, List.all_eq_true, Bool.or_eq_true]
    exact fun d hd => Or.inl (hothers d hd)
  have hfraction : Tag.isFraction
      (s.places ++ NumberText.exponentText s.exponent) = true := by
    rw [Tag.isFraction, List.dropWhile_append_of_pos fun c hc => by simp [hs.places c hc]]
    cases he : s.exponent with
    | none => rfl
    | some e =>
        obtain ⟨hne, hdigits⟩ := hs.exponent e he
        have hdigits : e.digits.all Char.isDigit = true := List.all_eq_true.mpr hdigits
        cases hsign : e.negative <;>
          simp [NumberText.exponentText, Spelling.Exponent.text, hsign, Tag.isExponent, hne,
            hdigits]
  unfold Tag.isDouble
  simp only [unsigned_signed hs.exists_text_cons, htake, hdrop, hcontains, hrun, hfraction,
    Bool.and_self, Bool.true_or]

/-! ## Values -/

/-- The spelling of a double in a document has a point. -/
theorem places_ne_nil_of_render {s : Spelling} (hs : s.WellFormed) {negative : Bool}
    {rank : Fin (Double.infinityRank + 1)} (h : rank.val < Double.infinityRank)
    (htext : (FloatLayout.yaml.render (.signed negative rank)).toList =
      (if negative then ['-'] else []) ++ s.text) : s.places ≠ [] := by
  have hpoint : '.' ∈ (FloatLayout.yaml.render (.signed negative rank)).toList := by
    rw [FloatLayout.render, if_neg h.ne, String.toList_append]
    exact List.mem_append_right _ (FloatLayout.point_mem_decimal rfl _)
  rw [htext, List.mem_append] at hpoint
  rcases hpoint with hpoint | hpoint
  · cases negative <;> simp at hpoint
  · exact hs.places_ne_nil hpoint

/-- A finite double is read from a document as it was written. -/
theorem value_finite (negative : Bool) {rank : Fin (Double.infinityRank + 1)}
    (h : rank.val < Double.infinityRank) :
    Scalar.value (Tag.ofPlain (plainScalar (.float (.signed negative rank))))
      (plainScalar (.float (.signed negative rank))) = .ok (.float (.signed negative rank)) := by
  obtain ⟨s, hs, hdouble, htext⟩ :=
    FloatLayout.exists_spelling_render (show FloatLayout.yaml.IsRegular from Or.inr rfl) negative h
  have hpoint := places_ne_nil_of_render hs h htext
  have hnumber := isNumberText_float (.signed negative rank)
  rw [plainScalar] at hnumber ⊢
  generalize FloatLayout.yaml.render (.signed negative rank) = w at htext hnumber ⊢
  have hbare : ∀ c ∈ w.toList, IsBare c := fun c hc => isBare_of_isNumberChar (hnumber.char c hc)
  have hsize : ∀ c ∈ s.text, IsBare c := fun c hc =>
    hbare c (by rw [htext]; exact List.mem_append_right _ hc)
  have hword : ∀ word : String, (∀ c ∈ word.toList.head?, c.isDigit = false) →
      s.text ≠ word.toList := by
    intro word hfirst heq
    obtain ⟨c, others, hcons, hc⟩ := hs.exists_text_cons
    have hnot := hfirst c (by rw [← heq, hcons]; simp)
    rw [hc] at hnot
    contradiction
  have hcolon : s.text.contains ':' = false := by
    rw [List.contains_eq_mem, decide_eq_false_iff_not]
    exact fun hmem => (hsize _ hmem).colon rfl
  have hempty : w.toList.isEmpty = false := by
    rw [List.isEmpty_eq_false_iff]
    exact hnumber.ne_nil
  have hdecimal : Scalar.decimal s.text = .ok (.signed false rank) := by
    rw [Scalar.decimal, statistic?_bare (by rwa [String.toList_ofList]), String.toList_ofList,
      NumberText.double?_spelling hs hpoint, Spelling.double, Double.ofDecimal_negative hdouble]
  rw [ofPlain_double hnumber (by rw [htext]; exact isDouble_spelling hs hpoint negative),
    Scalar.value, Scalar.double]
  simp only [withoutUnderscores_bare hbare, String.ofList_toList, lowerText_bare hbare, hempty,
    Bool.false_eq_true, if_false]
  simp only [htext, unsigned_signed hs.exists_text_cons, isNegative_signed hs.exists_text_cons,
    hword ".inf" (by simp), hword ".nan" (by simp), hcolon, hdecimal, Bool.false_eq_true,
    if_false]
  simp only [Functor.map, Except.map, Double.ofInt_sign_mul negative false h, Bool.bne_false]

/-- **A double is read from a document as it was written.** -/
theorem value_float (x : Double) :
    Scalar.value (Tag.ofPlain (plainScalar (.float x))) (plainScalar (.float x)) =
      .ok (.float x) := by
  cases x with
  | nan => decide
  | signed negative rank =>
      by_cases hrank : rank.val = Double.infinityRank
      · have hinfinite : Double.signed negative rank = .infinite negative := by
          rw [Double.infinite]
          congr 1
          exact Fin.ext hrank
        rw [hinfinite]
        cases negative <;> decide
      · exact value_finite negative (by omega)

/-! ## Whole numbers -/

/-- A number without a point has the form of no double. -/
theorem isDouble_eq_false {cs : List Char} (h : '.' ∉ cs) : Tag.isDouble cs = false := by
  have hunsigned : '.' ∉ Tag.unsigned cs := by
    unfold Tag.unsigned
    split
    · exact fun hmem => h (List.mem_cons_of_mem _ hmem)
    · exact fun hmem => h (List.mem_cons_of_mem _ hmem)
    · exact h
  have hpointed : (Tag.unsigned cs).contains '.' = false := by simpa using hunsigned
  have hpoints : ∀ word ∈ Tag.infinityWords ++ Tag.nanWords, '.' ∈ word.toList := by decide
  have hword : ∀ words ds, (∀ word ∈ words, '.' ∈ word.toList) → '.' ∉ ds →
      List.contains words (String.ofList ds) = false := by
    intro words ds hwords hnot
    rw [List.contains_eq_mem, decide_eq_false_iff_not]
    intro hmem
    have hpoint := hwords _ hmem
    rw [String.toList_ofList] at hpoint
    exact hnot hpoint
  unfold Tag.isDouble
  simp only [hpointed, Bool.false_and, Bool.false_or,
    hword Tag.infinityWords _ (fun w hw => hpoints w (by simp [hw])) hunsigned,
    hword Tag.nanWords _ (fun w hw => hpoints w (by simp [hw])) h, Bool.or_false]
  split
  · exact absurd (List.mem_cons_self ..) h
  · rfl

theorem exists_toDigits_cons_isDigit (n : Nat) :
    ∃ c others, Nat.toDigits 10 n = c :: others ∧ c.isDigit = true := by
  obtain ⟨c, others, hcons⟩ := List.exists_cons_of_ne_nil
    (List.ne_nil_of_length_pos (Nat.length_toDigits_pos (b := 10) (n := n)))
  exact ⟨c, others, hcons, Digit.isDigit_of_mem_toDigits (n := n) (by simp [hcons])⟩

theorem isWhole_signed (n : Nat) (negative : Bool) :
    Tag.isWhole ((if negative then ['-'] else []) ++ Nat.toDigits 10 n) = true := by
  have hdigits := fun c => Digit.isDigit_of_mem_toDigits (n := n) (c := c)
  unfold Tag.isWhole
  rw [unsigned_signed (exists_toDigits_cons_isDigit n)]
  by_cases hn : n = 0
  · subst hn
    rfl
  · obtain ⟨c, others, hcons, hzero⟩ := Digit.exists_toDigits_cons hn
    rw [hcons] at hdigits ⊢
    have hrun : Tag.isDigitRun Tag.isLeading (c :: others) = true := by
      have hothers : ∀ d ∈ others, d.isDigit = true := fun d hd => hdigits d (by simp [hd])
      simp only [Tag.isDigitRun, Tag.isLeading, hdigits c (by simp), Bool.true_and,
        Bool.and_eq_true, bne_iff_ne, List.all_eq_true, Bool.or_eq_true]
      exact ⟨hzero, fun d hd => Or.inl (hothers d hd)⟩
    split
    · next heq => exact absurd (List.cons.inj heq).1 hzero
    · next heq => exact absurd (List.cons.inj heq).1 hzero
    · next heq => exact absurd (List.cons.inj heq).1 hzero
    · next heq => exact absurd (List.cons.inj heq).1 hzero
    · simp [hrun]

theorem digits_toDigits {n : Nat} (hn : n ≠ 0)
    (hlimit : (Nat.toDigits 10 n).length ≤ Digit.limit) :
    Scalar.digits 10 (Nat.toDigits 10 n) = .ok (n : Int) := by
  have hbare : ∀ c ∈ Nat.toDigits 10 n, IsBare c := fun c hc =>
    isBare_of_isNumberChar (by simp [isNumberChar, Digit.isDigit_of_mem_toDigits hc])
  have hsigns := exists_toDigits_cons_isDigit n
  have hunsigned : Tag.unsigned (Nat.toDigits 10 n) = Nat.toDigits 10 n :=
    unsigned_signed hsigns false
  have hnegative : Scalar.isNegative (Nat.toDigits 10 n) = false :=
    isNegative_signed hsigns false
  have hbase : Scalar.withoutBase 10 (Nat.toDigits 10 n) = Nat.toDigits 10 n := by
    obtain ⟨c, others, hcons, hzero⟩ := Digit.exists_toDigits_cons hn
    rw [hcons, Scalar.withoutBase]
    intro d rest heq
    exact absurd (List.cons.inj heq).1 hzero
  have hnumber : Scalar.digits? 10 (Nat.toDigits 10 n) = some n := by
    obtain ⟨c, others, hcons, -⟩ := hsigns
    rw [Scalar.digits?, Digit.number?_toDigits (by decide) (by decide), hcons]
    rfl
  have hfew : ¬Digit.limit < ((Nat.toDigits 10 n).takeWhile Char.isDigit).length :=
    Nat.not_lt.mpr ((List.takeWhile_prefix _).length_le.trans hlimit)
  rw [Scalar.digits, trimWhile_eq_self fun c hc => (hbare c hc).blank, map_asciiDigit_bare hbare]
  simp only [hunsigned, hbase, hnumber, hnegative, hfew, and_false, Bool.false_eq_true, if_false]

/-- A number that does not begin with a zero announces no base. -/
theorem size_cons {c : Char} (hzero : c ≠ '0') (cs : List Char) :
    Scalar.size (c :: cs) =
      if (c :: cs).contains ':' then
        (·.foldr (fun place n => 60 * n + place) 0) <$> Scalar.places (Scalar.digits 10) (c :: cs)
      else Scalar.digits 10 (c :: cs) := by
  unfold Scalar.size
  split
  · contradiction
  · next heq => exact absurd (List.cons.inj heq).1 hzero
  · next heq => exact absurd (List.cons.inj heq).1 hzero
  · next heq => exact absurd (List.cons.inj heq).1 hzero
  · rfl

/-- Digits are read as their number. -/
theorem size_toDigits {n : Nat} (hlimit : (Nat.toDigits 10 n).length ≤ Digit.limit) :
    Scalar.size (Nat.toDigits 10 n) = .ok (n : Int) := by
  by_cases hn : n = 0
  · subst hn
    rfl
  · have hdigits := digits_toDigits hn hlimit
    have hcolon : (Nat.toDigits 10 n).contains ':' = false := by
      rw [List.contains_eq_mem, decide_eq_false_iff_not]
      exact fun hmem => absurd (Digit.isDigit_of_mem_toDigits hmem) (by decide)
    obtain ⟨c, others, hcons, hzero⟩ := Digit.exists_toDigits_cons hn
    rw [hcons] at hdigits hcolon ⊢
    rw [size_cons hzero, hcolon, if_neg (by simp), hdigits]

/-- **A whole number is read from a document as it was written**, if its digits are not
too many. -/
theorem value_int {n : Int} (hlimit : (Nat.toDigits 10 n.natAbs).length ≤ Digit.limit) :
    Scalar.value (Tag.ofPlain (plainScalar (.int n))) (plainScalar (.int n)) = .ok (.int n) := by
  have hnumber := isNumberText_int n
  have htext := toList_plainScalar_int n
  have hdigits := exists_toDigits_cons_isDigit n.natAbs
  have hpoint : '.' ∉ (plainScalar (.int n)).toList := by
    rw [htext, List.mem_append, not_or]
    refine ⟨by cases decide (n < 0) <;> simp, fun hmem => ?_⟩
    exact absurd (Digit.isDigit_of_mem_toDigits hmem) (by decide)
  have hbare : ∀ c ∈ (plainScalar (.int n)).toList, IsBare c := fun c hc =>
    isBare_of_isNumberChar (hnumber.char c hc)
  rw [ofPlain_whole hnumber (isDouble_eq_false hpoint) (by rw [htext]; exact isWhole_signed _ _),
    Scalar.value, Scalar.whole]
  simp only [withoutUnderscores_bare hbare]
  rw [htext]
  simp only [unsigned_signed hdigits, isNegative_signed hdigits, size_toDigits hlimit, Functor.map,
    Except.map]
  congr 2
  simp only [decide_eq_true_eq]
  split <;> omega

end Yaml
end CqlWorkload
