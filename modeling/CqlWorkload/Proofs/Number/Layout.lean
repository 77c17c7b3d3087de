import CqlWorkload.Number.Layout
import CqlWorkload.Proofs.Number.Digit
import CqlWorkload.Proofs.Number.Shortest

/-!
# Spellings of decimals

The text of a decimal has digits, then a point with digits behind it, an
exponent, or both.  A `Spelling` names these parts, so that a reader of numbers
can be compared with all layouts at once: what a layout writes is a spelling of
the decimal (`FloatLayout.exists_spelling`), and what it writes for a finite
double reads as that double (`FloatLayout.exists_spelling_render`).
-/

namespace CqlWorkload

/-- The exponent of a number in text. -/
structure Spelling.Exponent where
  negative : Bool
  digits : List Char

/-- The parts of a number in text. -/
structure Spelling where
  whole : List Char
  /-- Digits behind the point; there is no point without them. -/
  places : List Char
  exponent : Option Spelling.Exponent

namespace Spelling

def Exponent.value (e : Exponent) : Int :=
  if e.negative then -(Digit.number 10 e.digits : Int) else Digit.number 10 e.digits

def Exponent.text (e : Exponent) : List Char :=
  'e' :: (if e.negative then '-' else '+') :: e.digits

def pointed : List Char → List Char
  | [] => []
  | places => '.' :: places

def text (s : Spelling) : List Char :=
  s.whole ++ pointed s.places ++ (s.exponent.map Exponent.text).getD []

/-- Exponent of the last digit. -/
def lastExponent (s : Spelling) : Int :=
  (s.exponent.map Exponent.value).getD 0 - s.places.length

/-- The double that a number in text reads as. -/
def double (s : Spelling) (negative : Bool) : Double :=
  .ofDecimal negative (Digit.number 10 (s.whole ++ s.places)) s.lastExponent

/-- Well formed: digits with no zero in front of others, and digits wherever a point or an
exponent is; a number without an exponent has a point. -/
structure WellFormed (s : Spelling) : Prop where
  whole : ∀ c ∈ s.whole, c.isDigit = true
  leading : s.whole = ['0'] ∨ ∃ c rest, s.whole = c :: rest ∧ c ≠ '0'
  places : ∀ c ∈ s.places, c.isDigit = true
  exponent : ∀ e ∈ s.exponent, e.digits ≠ [] ∧ ∀ c ∈ e.digits, c.isDigit = true
  broken : s.exponent = none → s.places ≠ []

/-- A number in text that has the digits of a decimal. -/
structure Spells (s : Spelling) (d : Decimal) : Prop extends s.WellFormed where
  value : ∀ negative, s.double negative = .ofDecimal negative d.digits d.exponent

theorem pointed_of_ne_nil {places : List Char} (h : places ≠ []) :
    pointed places = '.' :: places := by
  cases places with
  | nil => exact absurd rfl h
  | cons c rest => rfl

theorem WellFormed.of_mem_text {s : Spelling} (h : s.WellFormed) {c : Char} (hc : c ∈ s.text) :
    c.isDigit = true ∨ c ∈ ['.', 'e', '+', '-'] := by
  rw [text, List.mem_append, List.mem_append] at hc
  rcases hc with (hc | hc) | hc
  · exact Or.inl (h.whole c hc)
  · by_cases hp : s.places = []
    · rw [hp] at hc
      cases hc
    · rw [pointed_of_ne_nil hp, List.mem_cons] at hc
      rcases hc with rfl | hc
      · exact Or.inr (by decide)
      · exact Or.inl (h.places c hc)
  · cases he : s.exponent with
    | none => simp [he] at hc
    | some e =>
        simp only [he, Option.map_some, Option.getD_some, Exponent.text, List.mem_cons] at hc
        rcases hc with rfl | rfl | hc
        · exact Or.inr (by decide)
        · cases e.negative <;> exact Or.inr (by decide)
        · exact Or.inl ((h.exponent e he).2 c hc)

theorem WellFormed.exists_whole_cons {s : Spelling} (h : s.WellFormed) :
    ∃ c others, s.whole = c :: others ∧ c.isDigit = true := by
  have hwhole : ∃ c others, s.whole = c :: others := by
    rcases h.leading with hw | ⟨c, others, hw, -⟩
    · exact ⟨'0', [], hw⟩
    · exact ⟨c, others, hw⟩
  obtain ⟨c, others, hw⟩ := hwhole
  exact ⟨c, others, hw, h.whole c (by simp [hw])⟩

theorem WellFormed.exists_text_cons {s : Spelling} (h : s.WellFormed) :
    ∃ c others, s.text = c :: others ∧ c.isDigit = true := by
  obtain ⟨c, others, hw, hc⟩ := h.exists_whole_cons
  exact ⟨c, others ++ pointed s.places ++ (s.exponent.map Exponent.text).getD [],
    by simp [text, hw], hc⟩

/-- Without a point between the digits there is none in the text. -/
theorem WellFormed.places_ne_nil {s : Spelling} (h : s.WellFormed) (hpoint : '.' ∈ s.text) :
    s.places ≠ [] := by
  intro hplaces
  rw [text, hplaces, pointed, List.append_nil, List.mem_append] at hpoint
  rcases hpoint with hpoint | hpoint
  · exact absurd (h.whole _ hpoint) (by decide)
  · cases he : s.exponent with
    | none => simp [he] at hpoint
    | some e =>
        have hdigits : '.' ∉ e.digits := fun hmem =>
          absurd ((h.exponent e he).2 _ hmem) (by decide)
        cases hsign : e.negative <;> simp [he, Exponent.text, hsign, hdigits] at hpoint

end Spelling

namespace FloatLayout

open Spelling

/-- What may follow a mantissa of one digit. -/
def IsRegular (layout : FloatLayout) : Prop :=
  layout.wholeMantissa = "" ∨ layout.wholeMantissa = ".0"

theorem toList_padded (width n : Nat) :
    (padded width n).toList =
      List.replicate (width - (Nat.toDigits 10 n).length) '0' ++ Nat.toDigits 10 n := by
  simp [padded]

theorem isDigit_of_mem_zeros_append {k n : Nat} {c : Char}
    (h : c ∈ List.replicate k '0' ++ Nat.toDigits 10 n) : c.isDigit = true := by
  rw [List.mem_append, List.mem_replicate] at h
  rcases h with ⟨-, rfl⟩ | h
  · decide
  · exact Digit.isDigit_of_mem_toDigits h

theorem number_zeros_append (k n : Nat) :
    Digit.number 10 (List.replicate k '0' ++ Nat.toDigits 10 n) = n := by
  rw [Digit.number_eq_ofDigitChars fun c => isDigit_of_mem_zeros_append, Nat.ofDigitChars_append]
  simp

/-- The exponent of a mantissa as its layout writes it. -/
def exponentOf (layout : FloatLayout) (leading : Int) : Exponent :=
  ⟨decide (leading < 0), (padded layout.exponentWidth leading.natAbs).toList⟩

theorem value_exponentOf (layout : FloatLayout) (leading : Int) :
    (exponentOf layout leading).value = leading := by
  simp only [exponentOf, Exponent.value, toList_padded, number_zeros_append, decide_eq_true_eq]
  split_ifs <;> omega

theorem exponentOf_digits (layout : FloatLayout) (leading : Int) :
    (exponentOf layout leading).digits ≠ [] ∧
      ∀ c ∈ (exponentOf layout leading).digits, c.isDigit = true := by
  simp only [exponentOf, toList_padded]
  exact ⟨by simp, fun c => isDigit_of_mem_zeros_append⟩

section Decimals

variable {d : Decimal}

/-- The point stands behind the last digit. -/
theorem exists_spelling_whole (hz : d.digits = 0 → d.exponent = 0) (h : 0 ≤ d.exponent) :
    ∃ s : Spelling, s.Spells d ∧
      (positional (Nat.toDigits 10 d.digits) (-d.exponent)).toList = s.text := by
  obtain ⟨k, hk⟩ := Int.eq_ofNat_of_zero_le h
  have hdigits : ∀ c ∈ Nat.toDigits 10 d.digits ++ List.replicate k '0', c.isDigit = true := by
    intro c hc
    rw [List.mem_append, List.mem_replicate] at hc
    rcases hc with hc | ⟨-, rfl⟩
    · exact Digit.isDigit_of_mem_toDigits hc
    · decide
  refine ⟨⟨Nat.toDigits 10 d.digits ++ List.replicate k '0', ['0'], none⟩,
    { whole := hdigits, leading := ?_, places := by simp, exponent := by simp,
      broken := by simp, value := ?_ }, ?_⟩
  · by_cases hd : d.digits = 0
    · have hk0 : k = 0 := by
        have := hz hd
        omega
      simp [hd, hk0]
    · obtain ⟨c, rest, hc, h0⟩ := Digit.exists_toDigits_cons hd
      exact Or.inr ⟨c, rest ++ List.replicate k '0', by rw [hc, List.cons_append], h0⟩
  · intro negative
    have hnumber : Digit.number 10 (Nat.toDigits 10 d.digits ++ List.replicate k '0' ++ ['0']) =
        d.digits * tenTo (k + 1) := by
      rw [Digit.number_eq_ofDigitChars, Nat.ofDigitChars_append, Nat.ofDigitChars_append]
      · simp [Nat.ofDigitChars_cons, tenTo]
        ring
      · intro c hc
        rcases List.mem_append.mp hc with hc | hc
        · exact hdigits c hc
        · rw [List.mem_singleton.mp hc]
          decide
    have hexponent : lastExponent ⟨Nat.toDigits 10 d.digits ++ List.replicate k '0', ['0'], none⟩ =
        d.exponent - (k + 1 : Nat) := by
      simp [lastExponent]
      omega
    rw [double, hnumber, hexponent, Double.ofDecimal_mul_tenTo]
  · simp [positional, hk, text, pointed]

/-- Of digits filled up with zeros those before the point are a single zero, or begin with
the first digit. -/
theorem take_filled {p : Nat} {c : Char} {rest filled : List Char}
    (hfilled : filled = List.replicate (p + 1 - (c :: rest).length) '0' ++ c :: rest) :
    filled.take (filled.length - p) = ['0'] ∨
      ∃ others, filled.take (filled.length - p) = c :: others := by
  have hlength : filled.length = max (p + 1) (c :: rest).length := by
    rw [hfilled, List.length_append, List.length_replicate]
    omega
  -- either no zero is filled in, or the digit before the point is one
  rcases Nat.lt_or_ge p (c :: rest).length with hl | hl
  · have hnone : p + 1 - (c :: rest).length = 0 := by omega
    obtain ⟨m, hm⟩ : ∃ m, filled.length - p = m + 1 := ⟨filled.length - p - 1, by omega⟩
    rw [hnone] at hfilled
    refine Or.inr ⟨rest.take m, ?_⟩
    rw [hm, hfilled]
    rfl
  · obtain ⟨m, hm⟩ : ∃ m, p + 1 - (c :: rest).length = m + 1 := ⟨p - (c :: rest).length, by omega⟩
    have hcut : filled.length - p = 1 := by omega
    rw [hm, List.replicate_succ] at hfilled
    left
    rw [hcut, hfilled]
    rfl

/-- The point stands before the last digit. -/
theorem exists_spelling_broken (hz : d.digits = 0 → d.exponent = 0) (h : d.exponent < 0) :
    ∃ s : Spelling, s.Spells d ∧
      (positional (Nat.toDigits 10 d.digits) (-d.exponent)).toList = s.text := by
  have hd : d.digits ≠ 0 := fun h0 => by
    have := hz h0
    omega
  obtain ⟨p, hp⟩ : ∃ p : Nat, -d.exponent = p := ⟨d.exponent.natAbs, by omega⟩
  have hp0 : 0 < p := by omega
  obtain ⟨c, rest, hc, h0⟩ := Digit.exists_toDigits_cons hd
  obtain ⟨filled, hfilled⟩ : ∃ filled, filled =
      List.replicate (p + 1 - (Nat.toDigits 10 d.digits).length) '0' ++ Nat.toDigits 10 d.digits :=
    ⟨_, rfl⟩
  have hdigits : ∀ c ∈ filled, c.isDigit = true := by
    rw [hfilled]
    exact fun c => isDigit_of_mem_zeros_append
  have hlength : filled.length = max (p + 1) (Nat.toDigits 10 d.digits).length := by
    rw [hfilled, List.length_append, List.length_replicate]
    omega
  have hplaces : (filled.drop (filled.length - p)).length = p := by
    rw [List.length_drop]
    omega
  have hne : filled.drop (filled.length - p) ≠ [] := by
    rw [← List.length_pos_iff, hplaces]
    exact hp0
  refine ⟨⟨filled.take (filled.length - p), filled.drop (filled.length - p), none⟩,
    { whole := fun c hm => hdigits c (List.mem_of_mem_take hm), leading := ?_,
      places := fun c hm => hdigits c (List.mem_of_mem_drop hm), exponent := by simp,
      broken := fun _ => hne, value := ?_ }, ?_⟩
  · rw [hc] at hfilled
    exact (take_filled hfilled).imp_right fun ⟨others, htake⟩ => ⟨c, others, htake, h0⟩
  · intro negative
    have hexponent : lastExponent
        ⟨filled.take (filled.length - p), filled.drop (filled.length - p), none⟩ = d.exponent := by
      simp only [lastExponent, Option.map_none, Option.getD_none, hplaces]
      omega
    rw [double, hexponent]
    dsimp only
    rw [List.take_append_drop, hfilled, number_zeros_append]
  · have hneg : ¬(p : Int) ≤ 0 := by omega
    simp only [positional, hp, hneg, if_false, Int.natAbs_natCast, ← hfilled, text,
      pointed_of_ne_nil hne, String.toList_ofList, Option.map_none, Option.getD_none,
      List.append_nil]

theorem toList_scientific (layout : FloatLayout) (c : Char) (rest : List Char) (leading : Int) :
    (scientific layout (c :: rest) leading).toList =
      c :: (if rest = [] then layout.wholeMantissa.toList else '.' :: rest) ++
        (exponentOf layout leading).text := by
  have hsign : (if leading < 0 then "-" else "+").toList = [if leading < 0 then '-' else '+'] := by
    split_ifs <;> rfl
  cases rest with
  | nil => simp [scientific, exponentOf, Exponent.text, hsign]
  | cons second others => simp [scientific, exponentOf, Exponent.text, hsign]

/-- One digit stands before the point. -/
theorem exists_spelling_scientific {layout : FloatLayout} (hl : layout.IsRegular)
    (hd : d.digits ≠ 0) :
    ∃ s : Spelling, s.Spells d ∧
      (scientific layout (Nat.toDigits 10 d.digits)
        (d.exponent + (Nat.toDigits 10 d.digits).length - 1)).toList = s.text := by
  obtain ⟨c, rest, hc, h0⟩ := Digit.exists_toDigits_cons hd
  have hmem : ∀ a ∈ c :: rest, a.isDigit = true := by
    rw [← hc]
    exact fun a => Digit.isDigit_of_mem_toDigits
  have hnumber : Digit.number 10 (c :: rest) = d.digits := by rw [← hc, Digit.number_toDigits]
  have hdigit : ∀ a ∈ [c], a.isDigit = true := fun a ha => hmem a (by simp_all)
  rw [hc, toList_scientific]
  generalize hleading : d.exponent + (c :: rest).length - 1 = leading
  have he : ∀ x ∈ some (exponentOf layout leading),
      x.digits ≠ [] ∧ ∀ a ∈ x.digits, a.isDigit = true := by
    rintro x ⟨⟩
    exact exponentOf_digits layout leading
  have hlast (whole places : List Char) :
      lastExponent ⟨whole, places, some (exponentOf layout leading)⟩ = leading - places.length := by
    simp [lastExponent, value_exponentOf]
  cases rest with
  | cons second others =>
      refine ⟨⟨[c], second :: others, some (exponentOf layout leading)⟩,
        { whole := hdigit, leading := Or.inr ⟨c, [], rfl, h0⟩,
          places := fun a ha => hmem a (List.mem_cons_of_mem _ ha), exponent := he,
          broken := by simp, value := fun negative => ?_ }, by simp [text, pointed]⟩
      have hexponent : leading - (second :: others).length = d.exponent := by
        simp only [List.length_cons] at hleading ⊢
        omega
      rw [double, hlast, hexponent, ← hnumber]
      rfl
  | nil =>
      have hexponent : leading = d.exponent := by simp [← hleading]
      rcases hl with hl | hl
      · refine ⟨⟨[c], [], some (exponentOf layout leading)⟩,
          { whole := hdigit, leading := Or.inr ⟨c, [], rfl, h0⟩, places := by simp,
            exponent := he, broken := by simp, value := fun negative => ?_ },
          by simp [text, pointed, hl]⟩
        rw [double, hlast, ← hnumber, ← hexponent]
        simp
      · refine ⟨⟨[c], ['0'], some (exponentOf layout leading)⟩,
          { whole := hdigit, leading := Or.inr ⟨c, [], rfl, h0⟩, places := by simp,
            exponent := he, broken := by simp, value := fun negative => ?_ },
          by simp [text, pointed, hl]⟩
        have hten : Digit.number 10 ([c] ++ ['0']) = d.digits * tenTo 1 := by
          rw [← hnumber, Digit.number_eq_ofDigitChars hdigit,
            Digit.number_eq_ofDigitChars, Nat.ofDigitChars_append]
          · simp [Nat.ofDigitChars_cons, tenTo]
            ring
          · intro a ha
            rcases List.mem_append.mp ha with ha | ha
            · exact hdigit a ha
            · rw [List.mem_singleton.mp ha]
              decide
        rw [double, hlast, hten, hexponent]
        exact Double.ofDecimal_mul_tenTo negative d.digits d.exponent 1

/-- **A layout spells decimals.** -/
theorem exists_spelling {layout : FloatLayout} (hl : layout.IsRegular)
    (hz : d.digits = 0 → d.exponent = 0) :
    ∃ s : Spelling, s.Spells d ∧ (layout.decimal d).toList = s.text := by
  unfold decimal
  dsimp only
  split_ifs with h
  · exact exists_spelling_scientific hl h.1
  · rcases Int.lt_or_le d.exponent 0 with hp | hp
    · exact exists_spelling_broken hz hp
    · exact exists_spelling_whole hz hp

/-- A layout that puts a point into mantissas of one digit puts one into every decimal. -/
theorem point_mem_decimal {layout : FloatLayout} (hl : layout.wholeMantissa = ".0")
    (d : Decimal) : '.' ∈ (layout.decimal d).toList := by
  unfold decimal
  dsimp only
  split_ifs
  · obtain ⟨c, rest, hdigits⟩ := List.exists_cons_of_ne_nil
      (List.ne_nil_of_length_pos (Nat.length_toDigits_pos (b := 10) (n := d.digits)))
    rw [hdigits, toList_scientific, hl]
    split_ifs <;> simp
  · unfold positional
    dsimp only
    split_ifs <;> simp

end Decimals

/-- **A layout spells finite doubles**, with a minus in front of the negative ones. -/
theorem exists_spelling_render {layout : FloatLayout} (hl : layout.IsRegular) (negative : Bool)
    {rank : Fin (Double.infinityRank + 1)} (h : rank.val < Double.infinityRank) :
    ∃ s : Spelling, s.WellFormed ∧ s.double negative = .signed negative rank ∧
      (layout.render (.signed negative rank)).toList =
        (if negative then ['-'] else []) ++ s.text := by
  have hz : (Decimal.shortest rank.val).digits = 0 → (Decimal.shortest rank.val).exponent = 0 := by
    intro h0
    by_cases hr : rank.val = 0
    · simp [hr, Decimal.shortest]
    · exact absurd h0 (Decimal.shortest_digits_ne_zero hr h)
  obtain ⟨s, hs, htext⟩ := exists_spelling hl hz
  refine ⟨s, hs.toWellFormed, ?_, ?_⟩
  · rw [hs.value, Decimal.ofDecimal_shortest negative h]
  · rw [render, if_neg h.ne, String.toList_append, htext]
    cases negative <;> rfl

end FloatLayout
end CqlWorkload
