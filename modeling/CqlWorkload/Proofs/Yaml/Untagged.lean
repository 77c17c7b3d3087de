import CqlWorkload.Proofs.Yaml.Whole

/-!
# Scalars without a tag

A plain scalar without a tag has the tag of its form.  The forms promise less than they
seem to: `LacksUntagged` lists the plain scalars that have a form and still no value, and
`value_ofPlain_eq_error_iff` says that there are no others.

**Doubles.** Every number with a point is read; only the places of a double to the base
sixty can be too many (`double_eq_error_iff`).
-/

namespace CqlWorkload.Yaml

namespace Scalar

/-! ## Numbers without underscores, in lower case -/

/-- A text as doubles are read from it. -/
def clean (cs : List Char) : List Char := (withoutUnderscores cs).map Char.toLower

theorem clean_append (cs ds : List Char) : clean (cs ++ ds) = clean cs ++ clean ds := by
  rw [clean, withoutUnderscores, List.filter_append, List.map_append]
  rfl

theorem toLower_of_isDigit {c : Char} (h : c.isDigit = true) : c.toLower = c := by
  have hhigh : c.toNat ≤ 57 := (Char.isDigit_iff_toNat.mp h).2
  exact Text.forall_ascii (P := fun c => c.isDigit = true → c.toLower = c) (by decide)
    (by omega) h

theorem clean_of_isDigit {cs : List Char} (h : ∀ c ∈ cs, c.isDigit = true) : clean cs = cs := by
  rw [clean, withoutUnderscores_of_isDigit h,
    List.map_congr_left fun c hc => toLower_of_isDigit (h c hc), List.map_id']

theorem IsLoose.clean_eq {cs : List Char} (h : IsLoose cs) : clean cs = withoutUnderscores cs := by
  rw [clean, List.map_congr_left fun c hc => toLower_of_isDigit (h.isDigit c hc), List.map_id']

theorem splitAt_clean (cs : List Char) :
    Text.splitAt ':' (clean cs) = (Text.splitAt ':' cs).map clean := by
  have hlower (c : Char) : (some ∘ Char.toLower) c = some ':' ↔ c = ':' := by
    rw [Function.comp_apply, Option.some_inj]
    exact Text.toLower_eq_mark_iff (by decide) c
  have hsplit := Text.splitAt_filterMap hlower (withoutUnderscores cs)
  rw [List.filterMap_eq_map, splitAt_withoutUnderscores, List.map_map] at hsplit
  exact hsplit

theorem unsigned_map_toLower (cs : List Char) :
    Tag.unsigned (cs.map Char.toLower) = (Tag.unsigned cs).map Char.toLower := by
  cases cs with
  | nil => rfl
  | cons c rest =>
      rw [List.map_cons]
      by_cases hsign : c ≠ '-' ∧ c ≠ '+'
      · have hlower := hsign.imp (mt (Text.toLower_eq_mark_iff (by decide) c).mp)
          (mt (Text.toLower_eq_mark_iff (by decide) c).mp)
        rw [unsigned_eq_self fun d hd => by cases hd; exact hlower,
          unsigned_eq_self fun d hd => by cases hd; exact hsign, List.map_cons]
      · rw [not_and_or, not_not, not_not] at hsign
        rcases hsign with rfl | rfl <;> rfl

theorem unsigned_clean {cs : List Char} (h : cs.head? ≠ some '_') :
    Tag.unsigned (clean cs) = clean (Tag.unsigned cs) := by
  rw [clean, unsigned_map_toLower, unsigned_withoutUnderscores h]
  rfl

/-! ## Numbers with and without a point -/

theorem isNumberChar_of_isDigit {c : Char} (h : c.isDigit = true) : isNumberChar c = true := by
  rw [isNumberChar, h, Bool.true_or]

theorem decimal_eq {cs : List Char} (h : ∀ c ∈ cs, isNumberChar c = true) {x : Double}
    (hx : NumberText.double? cs = some x) : decimal cs = .ok x := by
  have hbare : ∀ c ∈ (String.ofList cs).toList, IsBare c := by
    rw [String.toList_ofList]
    exact fun c hc => isBare_of_isNumberChar (h c hc)
  rw [decimal, statistic?_bare hbare, String.toList_ofList, hx]

theorem isAlpha_of_isDigit {c : Char} (h : c.isDigit = true) : c.isAlpha = false := by
  have hhigh : c.toNat ≤ 57 := (Char.isDigit_iff_toNat.mp h).2
  exact Text.forall_ascii (P := fun c => c.isDigit = true → c.isAlpha = false) (by decide)
    (by omega) h

theorem decimal_digits {cs : List Char} (h : ∀ c ∈ cs, c.isDigit = true) (hne : cs ≠ []) :
    ∃ x, decimal cs = .ok x := by
  obtain ⟨c, rest, rfl⟩ := List.exists_cons_of_ne_nil hne
  have hc := h c (List.mem_cons_self ..)
  have htake := NumberText.takeDigits_append [] h nofun
  rw [List.append_nil] at htake
  have hmantissa : NumberText.mantissa? (c :: rest) =
      some ((c :: rest).filterMap (Digit.value? 10), [], []) := by
    rw [NumberText.mantissa?, htake]
    simp [Digit.value?_of_isDigit hc]
  have hfirst : ∀ d ∈ (c :: rest).head?, d ≠ '-' ∧ d ≠ '+' := by
    intro d hd
    cases hd
    exact NumberText.ne_sign_of_isDigit hc
  have hmark : ∃ d ∈ (c :: rest).map Char.toLower, d.isAlpha = false :=
    ⟨c.toLower, List.mem_cons_self .., by rw [toLower_of_isDigit hc, isAlpha_of_isDigit hc]⟩
  exact ⟨_, decimal_eq (fun d hd => isNumberChar_of_isDigit (h d hd))
    (NumberText.double?_of_mantissa? hfirst hmark hmantissa rfl)⟩

theorem decimal_pointed {whole places : List Char} {e : Option Spelling.Exponent}
    (h : NumberText.IsPointed whole places e) :
    ∃ x, decimal (whole ++ '.' :: (places ++ NumberText.exponentText e)) = .ok x := by
  refine ⟨_, decimal_eq (fun c hc => ?_) h.double?⟩
  rw [List.mem_append, List.mem_cons, List.mem_append] at hc
  rcases hc with hc | rfl | hc | hc
  · exact isNumberChar_of_isDigit (h.whole c hc)
  · decide
  · exact isNumberChar_of_isDigit (h.places c hc)
  · cases e with
    | none => cases hc
    | some e =>
        simp only [NumberText.exponentText, Option.map_some, Option.getD_some,
          Spelling.Exponent.text, List.mem_cons] at hc
        rcases hc with rfl | rfl | hc
        · decide
        · cases e.negative <;> decide
        · exact isNumberChar_of_isDigit ((h.exponent e rfl).2 c hc)

/-- A sign, if there is one, stands in front of the rest. -/
theorem exists_sign (cs : List Char) :
    ∃ sign ∈ [[], ['-'], ['+']], cs = sign ++ Tag.unsigned cs := by
  unfold Tag.unsigned
  split
  next rest => exact ⟨['-'], by decide, rfl⟩
  next rest => exact ⟨['+'], by decide, rfl⟩
  · exact ⟨[], by decide, rfl⟩

/-! ## The forms of doubles -/

/-- The words for doubles, with their signs. -/
def doubleWords : List String :=
  (["", "-", "+"].flatMap fun sign => Tag.infinityWords.map (sign ++ ·)) ++ Tag.nanWords

/-- The ways to write a double without its sign, words aside. -/
inductive DoubleForm : List Char → Prop
  | pointed {head run exponent : List Char}
      (hhead : head = [] ∨ Tag.isDigitRun Char.isDigit head = true) (hrun : IsLoose run)
      (hne : head ≠ [] ∨ withoutUnderscores run ≠ []) (he : Tag.isExponent exponent = true) :
      DoubleForm (head ++ '.' :: (run ++ exponent))
  | places {head tail : List Char} (hhead : Tag.isSexagesimal Char.isDigit head = true)
      (htail : IsLoose tail) : DoubleForm (head ++ '.' :: tail)

theorem exists_run_of_isFraction {cs : List Char} (h : Tag.isFraction cs = true) :
    ∃ run exponent, cs = run ++ exponent ∧ IsLoose run ∧ Tag.isExponent exponent = true := by
  let p (c : Char) : Bool := c.isDigit || c == '_'
  exact ⟨cs.takeWhile p, cs.dropWhile p, List.takeWhile_append_dropWhile.symm,
    List.all_eq_true.mp List.all_takeWhile, h⟩

theorem eq_point_of_contains {cs : List Char} (h : cs.contains '.' = true) :
    cs = cs.takeWhile (· != '.') ++ '.' :: (cs.dropWhile (· != '.')).drop 1 := by
  let p (c : Char) : Bool := c != '.'
  obtain ⟨before, after, rfl, hbefore⟩ := List.eq_append_cons_of_mem (List.contains_iff_mem.mp h)
  have hall : ∀ c ∈ before, p c = true := by
    intro c hc
    rw [bne_iff_ne]
    rintro rfl
    exact hbefore hc
  have htake : (before ++ '.' :: after).takeWhile p = before := by
    rw [List.takeWhile_append_of_pos hall, List.takeWhile_cons_of_neg (by decide), List.append_nil]
  have hdrop : (before ++ '.' :: after).dropWhile p = '.' :: after := by
    rw [List.dropWhile_append_of_pos hall, List.dropWhile_cons_of_neg (by decide)]
  rw [htake, hdrop]
  rfl

theorem mem_doubleWords {s : String}
    (h : Tag.infinityWords.contains (String.ofList (Tag.unsigned s.toList)) = true) :
    s ∈ doubleWords := by
  obtain ⟨sign, hs, heq⟩ := exists_sign s.toList
  have hself : s = String.ofList sign ++ String.ofList (Tag.unsigned s.toList) := by
    rw [← String.ofList_append, ← heq, String.ofList_toList]
  have hsign : String.ofList sign ∈ ["", "-", "+"] := by
    simp only [List.mem_cons, List.not_mem_nil, or_false] at hs
    rcases hs with rfl | rfl | rfl <;> decide
  rw [hself]
  refine List.mem_append_left _ (List.mem_flatMap.mpr ⟨_, hsign, ?_⟩)
  exact List.mem_map.mpr ⟨_, List.contains_iff_mem.mp h, rfl⟩

theorem doubleForm {s : String} (h : Tag.isDouble s.toList = true) :
    DoubleForm (Tag.unsigned s.toList) ∨ s ∈ doubleWords := by
  unfold Tag.isDouble at h
  simp only [Bool.or_eq_true, or_assoc] at h
  rcases h with h | h | h | h | h
  · obtain ⟨hhead, hfraction⟩ := Bool.and_eq_true_iff.mp h
    obtain ⟨hpoint, hhead⟩ := Bool.and_eq_true_iff.mp hhead
    obtain ⟨run, exponent, htail, hrun, he⟩ := exists_run_of_isFraction hfraction
    obtain ⟨c, rest, hcons, -⟩ := isDigitRun_cases (fun _ => id) hhead
    rw [eq_point_of_contains hpoint, htail]
    exact Or.inl (.pointed (Or.inr hhead) hrun (Or.inl (hcons ▸ List.cons_ne_nil _ _)) he)
  · split at h
    next c rest heq =>
      obtain ⟨hdigit, hfraction⟩ := Bool.and_eq_true_iff.mp h
      obtain ⟨run, exponent, rfl, hrun, he⟩ := exists_run_of_isFraction hfraction
      have hmark : c ≠ '_' := by
        rintro rfl
        contradiction
      have hloose : IsLoose (c :: run) := List.forall_mem_cons.mpr ⟨by simp [hdigit], hrun⟩
      have hne : withoutUnderscores (c :: run) ≠ [] := by
        rw [withoutUnderscores_cons hmark]
        exact List.cons_ne_nil _ _
      rw [heq]
      exact Or.inl (.pointed (Or.inl rfl) hloose (Or.inr hne) he)
    · cases h
  · obtain ⟨hplaces, htail⟩ := Bool.and_eq_true_iff.mp h
    obtain ⟨hpoint, hplaces⟩ := Bool.and_eq_true_iff.mp hplaces
    rw [eq_point_of_contains hpoint]
    exact Or.inl (.places hplaces (List.all_eq_true.mp htail))
  · exact Or.inr (mem_doubleWords h)
  · rw [String.ofList_toList] at h
    exact Or.inr (List.mem_append_right _ (List.contains_iff_mem.mp h))

/-! ### Reading the forms -/

theorem exists_exponent {cs : List Char} (h : Tag.isExponent cs = true) :
    ∃ e : Option Spelling.Exponent, clean cs = NumberText.exponentText e ∧
      ∀ e' ∈ e, e'.digits ≠ [] ∧ ∀ c ∈ e'.digits, c.isDigit = true := by
  unfold Tag.isExponent at h
  split at h
  · exact ⟨none, rfl, nofun⟩
  next letter sign digits =>
    simp only [Bool.and_eq_true, Bool.or_eq_true, beq_iff_eq, Bool.not_eq_true',
      List.isEmpty_eq_false_iff, List.all_eq_true] at h
    obtain ⟨⟨⟨hletter, hsign⟩, hne⟩, hdigits⟩ := h
    refine ⟨some ⟨sign == '-', digits⟩, ?_, ?_⟩
    · have hclean : clean (letter :: sign :: digits) = clean [letter, sign] ++ clean digits :=
        clean_append [letter, sign] digits
      rw [hclean, clean_of_isDigit hdigits]
      rcases hletter with rfl | rfl <;> rcases hsign with rfl | rfl <;> rfl
    · intro e he
      cases he
      exact ⟨hne, hdigits⟩
  · cases h

theorem clean_point (head tail : List Char) :
    clean (head ++ '.' :: tail) = clean head ++ '.' :: clean tail := by
  rw [clean_append]
  rfl

theorem isLoose_of_head {head : List Char}
    (h : head = [] ∨ Tag.isDigitRun Char.isDigit head = true) :
    IsLoose head ∧ (head ≠ [] → withoutUnderscores head ≠ []) := by
  rcases h with rfl | hhead
  · exact ⟨nofun, absurd rfl⟩
  · obtain ⟨c, rest, rfl, -, hmark, hloose⟩ := isDigitRun_cases (fun _ => id) hhead
    refine ⟨hloose, fun _ => ?_⟩
    rw [withoutUnderscores_cons hmark]
    exact List.cons_ne_nil _ _

/-- A number with a point has no places, and it is read. -/
theorem decimal_clean_pointed {head run exponent : List Char}
    (hhead : head = [] ∨ Tag.isDigitRun Char.isDigit head = true) (hrun : IsLoose run)
    (hne : head ≠ [] ∨ withoutUnderscores run ≠ []) (he : Tag.isExponent exponent = true) :
    ∃ x, decimal (clean (head ++ '.' :: (run ++ exponent))) = .ok x := by
  obtain ⟨e, hexponent, hdigits⟩ := exists_exponent he
  have hloose := isLoose_of_head hhead
  rw [clean_point, clean_append, hexponent, hloose.1.clean_eq, hrun.clean_eq]
  exact decimal_pointed ⟨hne.imp_left hloose.2, hloose.1.isDigit, hrun.isDigit, hdigits⟩

theorem piece_of_isSexagesimal {cs : List Char} (h : Tag.isSexagesimal Char.isDigit cs = true) :
    ∀ piece ∈ Text.splitAt ':' cs, IsLoose piece ∧ withoutUnderscores piece ≠ [] := by
  obtain ⟨first, rest, hsplit, hfirst, hrest⟩ := isSexagesimal_cases h
  rw [hsplit]
  refine List.forall_mem_cons.mpr ⟨?_, fun piece hm => ?_⟩
  · obtain ⟨hloose, hne⟩ := isLoose_of_head (Or.inr hfirst)
    refine ⟨hloose, hne ?_⟩
    rintro rfl
    cases hfirst
  · obtain ⟨hne, -, hdigits⟩ := isSixtieth_cases (hrest piece hm)
    rw [withoutUnderscores_of_isDigit hdigits]
    exact ⟨fun c hc => by simp [hdigits c hc], hne⟩

/-- Every place of a double to the base sixty is read. -/
theorem decimal_clean_places {head tail : List Char}
    (hhead : Tag.isSexagesimal Char.isDigit head = true) (htail : IsLoose tail) :
    ∀ place ∈ Text.splitAt ':' (clean (head ++ '.' :: tail)), ∃ x, decimal place = .ok x := by
  have hcolon : ':' ∉ '.' :: tail := by
    intro hm
    rcases List.mem_cons.mp hm with heq | hm
    · cases heq
    · exact absurd (htail ':' hm) (by decide)
  obtain ⟨before, last, hsplit, hboth⟩ := Text.splitAt_append hcolon head
  have hpieces := piece_of_isSexagesimal hhead
  rw [hsplit] at hpieces
  rw [splitAt_clean, hboth]
  intro place hm
  obtain ⟨piece, hpiece, rfl⟩ := List.mem_map.mp hm
  rcases List.mem_append.mp hpiece with hbefore | hlast
  · obtain ⟨hloose, hne⟩ := hpieces piece (List.mem_append_left _ hbefore)
    rw [hloose.clean_eq]
    exact decimal_digits hloose.isDigit hne
  · obtain rfl := List.mem_singleton.mp hlast
    obtain ⟨hloose, hne⟩ := hpieces last (List.mem_append_right _ (List.mem_singleton_self _))
    rw [clean_point, hloose.clean_eq, htail.clean_eq, ← List.append_nil (withoutUnderscores tail)]
    exact decimal_pointed (e := none) ⟨Or.inl hne, hloose.isDigit, htail.isDigit, nofun⟩

/-! ### Places to the base sixty -/

/-- Sixty to the power of 173 is the largest weight that is a double. -/
theorem isFinite_weight {k : Nat} (h : k < 174) :
    (Double.ofInt ((60 ^ k : Nat) : Int)).isFinite = true := by
  have hlargest : 60 ^ 173 < twoTo 1022 := by decide +kernel
  have hle : 60 ^ k ≤ 60 ^ 173 := Nat.pow_le_pow_right (by decide) (Nat.le_of_lt_succ h)
  exact Double.isFinite_ofInt (Nat.le_refl _) (Nat.lt_of_le_of_lt hle hlargest)

theorem sexagesimal_eq_error_iff {places : List Double} {k : Nat} (hk : k ≤ 174) (total : Double)
    {fault : Fault} : sexagesimal total (60 ^ k) places = .error fault ↔
      174 < k + places.length ∧ fault = .wideWeight := by
  induction places generalizing total k with
  | nil =>
      refine iff_of_false nofun fun h => ?_
      exact absurd h.1 (Nat.not_lt.mpr hk)
  | cons place rest ih =>
      rw [sexagesimal]
      by_cases hlast : k < 174
      · rw [if_pos (isFinite_weight hlast), ← Nat.pow_succ', ih hlast, List.length_cons]
        rw [Nat.succ_add, Nat.add_succ]
      · obtain rfl : k = 174 := by omega
        have hwide : (Double.ofInt ((60 ^ 174 : Nat) : Int)).isFinite = false := by decide +kernel
        rw [if_neg (by rw [hwide]; exact Bool.false_ne_true), Except.error.injEq, List.length_cons]
        exact ⟨fun h => ⟨by omega, h.symm⟩, fun h => h.2.symm⟩

/-! ## Doubles -/

/-- The characters of doubles without a sign. -/
def IsDoubleChar (c : Char) : Prop := c.isDigit = true ∨ c ∈ ['_', ':', '.', 'e', 'E', '+', '-']

theorem IsLoose.isDoubleChar {cs : List Char} (h : IsLoose cs) : ∀ c ∈ cs, IsDoubleChar c := by
  intro c hc
  have hloose := h c hc
  rw [Bool.or_eq_true, beq_iff_eq] at hloose
  exact hloose.imp_right fun heq => by simp [heq]

theorem isDoubleChar_of_isExponent {cs : List Char} (h : Tag.isExponent cs = true) :
    ∀ c ∈ cs, IsDoubleChar c ∧ c ≠ ':' := by
  unfold Tag.isExponent at h
  split at h
  · exact nofun
  next letter sign digits =>
    simp only [Bool.and_eq_true, Bool.or_eq_true, beq_iff_eq, List.all_eq_true] at h
    obtain ⟨⟨⟨hletter, hsign⟩, -⟩, hdigits⟩ := h
    refine List.forall_mem_cons.mpr ⟨?_, List.forall_mem_cons.mpr ⟨?_, fun c hc => ?_⟩⟩
    · rcases hletter with rfl | rfl <;> exact ⟨Or.inr (by decide), by decide⟩
    · rcases hsign with rfl | rfl <;> exact ⟨Or.inr (by decide), by decide⟩
    · refine ⟨Or.inl (hdigits c hc), ?_⟩
      rintro rfl
      exact absurd (hdigits ':' hc) (by decide)
  · cases h

namespace DoubleForm

variable {cs : List Char}

theorem isDoubleChar (h : DoubleForm cs) : ∀ c ∈ cs, IsDoubleChar c := by
  have hpoint {head tail : List Char} (hhead : ∀ c ∈ head, IsDoubleChar c)
      (htail : ∀ c ∈ tail, IsDoubleChar c) : ∀ c ∈ head ++ '.' :: tail, IsDoubleChar c :=
    List.forall_mem_append.mpr ⟨hhead, List.forall_mem_cons.mpr ⟨Or.inr (by decide), htail⟩⟩
  cases h with
  | pointed hhead hrun _ he =>
      exact hpoint (isLoose_of_head hhead).1.isDoubleChar (List.forall_mem_append.mpr
        ⟨hrun.isDoubleChar, fun c hc => (isDoubleChar_of_isExponent he c hc).1⟩)
  | places hhead htail =>
      refine hpoint (fun c hc => ?_) htail.isDoubleChar
      rcases Text.mem_splitAt_of_mem ':' hc with rfl | ⟨piece, hpiece, hc⟩
      · exact Or.inr (by decide)
      · exact (piece_of_isSexagesimal hhead piece hpiece).1.isDoubleChar c hc

/-- **Every place of a double is read.** -/
theorem decimal_places (h : DoubleForm cs) :
    ∀ place ∈ Text.splitAt ':' (clean cs), ∃ x, decimal place = .ok x := by
  cases h with
  | @pointed head run exponent hhead hrun hne he =>
      have hcolon : ':' ∉ head ++ '.' :: (run ++ exponent) := by
        have hloose {cs : List Char} (h : IsLoose cs) : ':' ∉ cs := fun hm =>
          absurd (h ':' hm) (by decide)
        simp only [List.mem_append, List.mem_cons, not_or]
        exact ⟨hloose (isLoose_of_head hhead).1, by decide, hloose hrun,
          fun hm => (isDoubleChar_of_isExponent he ':' hm).2 rfl⟩
      rw [splitAt_clean, Text.splitAt_of_not_mem hcolon, List.map_singleton]
      exact List.forall_mem_singleton.mpr (decimal_clean_pointed hhead hrun hne he)
  | places hhead htail => exact decimal_clean_places hhead htail

end DoubleForm

theorem DoubleForm.exists_head {cs : List Char} (h : DoubleForm cs) :
    ∃ c, cs.head? = some c ∧ c ≠ '_' := by
  have hdigit {c : Char} (hc : c.isDigit = true) : c ≠ '_' := by
    rintro rfl
    contradiction
  cases h with
  | pointed hhead =>
      rcases hhead with rfl | hhead
      · exact ⟨'.', rfl, by decide⟩
      · obtain ⟨c, rest, rfl, hc, -, -⟩ := isDigitRun_cases (fun _ => id) hhead
        exact ⟨c, rfl, hdigit hc⟩
  | places hhead =>
      obtain ⟨first, rest, hsplit, hfirst, -⟩ := isSexagesimal_cases hhead
      obtain ⟨c, more, rfl, hc, -, -⟩ := isDigitRun_cases (fun _ => id) hfirst
      refine ⟨c, ?_, hdigit hc⟩
      rw [List.head?_append, Text.head?_of_splitAt hsplit]
      rfl

/-- A sign is no separator. -/
theorem length_splitAt_unsigned (cs : List Char) :
    (Text.splitAt ':' (Tag.unsigned cs)).length = (Text.splitAt ':' cs).length := by
  obtain ⟨sign, hs, heq⟩ := exists_sign cs
  have hcount : sign.count ':' = 0 := by
    simp only [List.mem_cons, List.not_mem_nil, or_false] at hs
    rcases hs with rfl | rfl | rfl <;> decide
  rw [Text.length_splitAt, Text.length_splitAt]
  conv_rhs => rw [heq]
  rw [List.count_append, hcount, Nat.zero_add]

theorem toList_lowerText_clean {s : String} (h : ∀ c ∈ Tag.unsigned s.toList, IsDoubleChar c) :
    (Text.lowerText (String.ofList (withoutUnderscores s.toList))).toList = clean s.toList := by
  have hascii {c : Char} (hc : IsDoubleChar c) : c.toNat < 0x80 := by
    rcases hc with hdigit | hmark
    · have hhigh : c.toNat ≤ 57 := (Char.isDigit_iff_toNat.mp hdigit).2
      omega
    · have hmarks : (['_', ':', '.', 'e', 'E', '+', '-'].all fun c => decide (c.toNat < 0x80)) =
          true := by decide
      exact of_decide_eq_true (List.all_eq_true.mp hmarks c hmark)
  obtain ⟨sign, hs, heq⟩ := exists_sign s.toList
  have hsign : Text.IsAscii sign := by
    simp only [List.mem_cons, List.not_mem_nil, or_false] at hs
    rcases hs with rfl | rfl | rfl <;> decide
  have hall : Text.IsAscii s.toList := by
    intro c hc
    rw [heq, List.mem_append] at hc
    exact hc.elim (hsign c) fun hc => hascii (h c hc)
  have hfiltered : Text.IsAscii (String.ofList (withoutUnderscores s.toList)).toList := by
    rw [String.toList_ofList]
    exact fun c hc => hall c (List.mem_filter.mp hc).1
  rw [Text.toList_lowerText hfiltered, String.toList_ofList]
  rfl

/-- Places that are read make a double, if they are not too many. -/
theorem sexagesimal_places_eq_error_iff {cs : List Char} (sign : Double)
    (h : ∀ place ∈ Text.splitAt ':' cs, ∃ x, decimal place = .ok x) {fault : Fault} :
    (do
      let found ← places decimal cs
      return sign.mul (← sexagesimal (.ofInt 0) 1 found) : Except Fault Double) = .error fault ↔
      174 < (Text.splitAt ':' cs).length ∧ fault = .wideWeight := by
  obtain ⟨found, hfound, hlength⟩ := exists_mapM_eq_ok h
  have hplaces : places decimal cs = .ok found.reverse := by
    rw [places, hfound]
    rfl
  have hsum : sexagesimal (.ofInt 0) 1 found.reverse = .error fault ↔
      174 < 0 + found.reverse.length ∧ fault = .wideWeight :=
    sexagesimal_eq_error_iff (Nat.zero_le 174) (.ofInt 0)
  rw [Nat.zero_add, List.length_reverse, hlength] at hsum
  rw [hplaces, ← hsum]
  exact map_eq_error_iff (f := sign.mul)

/-- **A double has no value exactly when it has too many places.** -/
theorem double_eq_error_iff {s : String} (h : Tag.isDouble s.toList = true) {fault : Fault} :
    double s = .error fault ↔
      174 < (Text.splitAt ':' s.toList).length ∧ fault = .wideWeight := by
  rcases doubleForm h with hform | hword
  · obtain ⟨c, hhead, hmark⟩ := hform.exists_head
    have hplaces := hform.decimal_places
    have hlength : (Text.splitAt ':' (clean (Tag.unsigned s.toList))).length =
        (Text.splitAt ':' s.toList).length := by
      rw [splitAt_clean, List.length_map, length_splitAt_unsigned]
    have hunsigned := unsigned_clean (head?_ne_of_unsigned hhead hmark)
    have hne : (clean s.toList).isEmpty = false := by
      rw [List.isEmpty_eq_false_iff]
      intro hnone
      rw [← hunsigned, hnone] at hplaces
      obtain ⟨x, hx⟩ := hplaces [] (List.mem_singleton_self _)
      cases hx
    unfold double
    rw [toList_lowerText_clean hform.isDoubleChar]
    dsimp only
    rw [if_neg (by rw [hne]; exact Bool.false_ne_true), hunsigned, ← hlength]
    generalize clean (Tag.unsigned s.toList) = size at hplaces ⊢
    split
    next hword =>
      subst hword
      exact iff_of_false nofun fun hmany => absurd hmany.1 (by decide)
    · split
      next hword =>
        subst hword
        exact iff_of_false nofun fun hmany => absurd hmany.1 (by decide)
      · split
        · exact sexagesimal_places_eq_error_iff _ hplaces
        next hcolon =>
          have hsingle : Text.splitAt ':' size = [size] :=
            Text.splitAt_of_not_mem (by simpa using hcolon)
          rw [hsingle] at hplaces ⊢
          obtain ⟨x, hx⟩ := hplaces size (List.mem_singleton_self _)
          rw [map_eq_error_iff, hx]
          exact iff_of_false nofun fun hmany => absurd hmany.1 (by simp)
  · have hall : ∀ word ∈ doubleWords, (double word).toOption.isSome = true ∧
        (Text.splitAt ':' word.toList).length ≤ 174 := by decide +kernel
    obtain ⟨hvalue, hfew⟩ := hall s hword
    refine iff_of_false (fun herror => ?_) fun hmany => absurd hmany.1 (Nat.not_lt.mpr hfew)
    rw [herror] at hvalue
    cases hvalue

/-! ## Truth values and time stamps -/

theorem truth_eq_ok {s : String} (h : s ∈ Tag.trueWords ++ Tag.falseWords) :
    ∃ b, truth s = .ok b := by
  have hall : ∀ word ∈ Tag.trueWords ++ Tag.falseWords, (truth word).toOption.isSome = true := by
    decide +kernel
  have hvalue := hall s h
  cases htruth : truth s with
  | ok b => exact ⟨b, rfl⟩
  | error fault =>
      rw [htruth] at hvalue
      cases hvalue

/-- **A time stamp has no value exactly when there is no such moment.** -/
theorem stamp_eq_error_iff {s : String} (h : Stamp.isStamp s.toList = true) {fault : Fault} :
    stamp s = .error fault ↔ ∃ found reason, Stamp.read? s.toList = some found ∧
      found.moment = .error reason ∧ fault = .noValue reason := by
  unfold Stamp.isStamp at h
  unfold stamp
  cases hread : Stamp.read? s.toList with
  | none =>
      rw [hread] at h
      cases h
  | some found =>
      cases hmoment : found.moment with
      | ok moment => simp [hmoment, Except.mapError]
      | error reason => simp [hmoment, Except.mapError, eq_comm]

end Scalar

/-! ## Scalars without a tag -/

/-- A plain scalar has the tag of the first form that it has. -/
inductive Tag.IsPlainTag (s : String) : Tag → Prop
  | null : IsPlainTag s .null
  | truth (h : s ∈ trueWords ++ falseWords) : IsPlainTag s .truth
  | double (h : isDouble s.toList = true) : IsPlainTag s .double
  | whole (h : isWhole s.toList = true) : IsPlainTag s .whole
  | merge (h : s = "<<") : IsPlainTag s .merge
  | default (h : s = "=") : IsPlainTag s .default
  | stamp (h : Stamp.isStamp s.toList = true) : IsPlainTag s .stamp
  | text : IsPlainTag s .text

theorem Tag.isPlainTag (s : String) : IsPlainTag s (ofPlain s) := by
  unfold ofPlain
  dsimp only
  split
  · exact .null
  · split
    next h => exact .truth (by simpa using h)
    · split
      next h => exact .double h
      · split
        next h => exact .whole h
        · split
          next h => exact .merge h
          · split
            next h => exact .default h
            · split
              next h => exact .stamp h
              · exact .text

/-- A plain scalar without a tag has no value. -/
inductive LacksUntagged (s : String) : Fault → Prop
  /-- It marks an entry. -/
  | mark (h : s = "<<" ∨ s = "=") : LacksUntagged s .malformed
  /-- It is a whole number whose digits lack something. -/
  | whole {fault : Fault} (htag : Tag.ofPlain s = .whole)
      (h : Scalar.LacksDigits (Tag.unsigned s.toList) fault) : LacksUntagged s fault
  /-- It is a double to the base sixty with too many places. -/
  | double (htag : Tag.ofPlain s = .double) (h : 174 < (Text.splitAt ':' s.toList).length) :
      LacksUntagged s .wideWeight
  /-- It is a time stamp of a moment that does not exist. -/
  | stamp {found : Stamp} {reason : String} (htag : Tag.ofPlain s = .stamp)
      (hread : Stamp.read? s.toList = some found) (h : found.moment = .error reason) :
      LacksUntagged s (.noValue reason)

/-- **The plain scalars without a value.** -/
theorem value_ofPlain_eq_error_iff {s : String} {fault : Fault} :
    Scalar.value (Tag.ofPlain s) s = .error fault ↔ LacksUntagged s fault := by
  have hplain := Tag.isPlainTag s
  constructor
  · intro h
    generalize htag : Tag.ofPlain s = tag at hplain h
    cases hplain with
    | null => cases h
    | truth hword =>
        obtain ⟨b, hb⟩ := Scalar.truth_eq_ok hword
        rw [Scalar.value, Scalar.map_eq_error_iff, hb] at h
        cases h
    | double hdouble =>
        rw [Scalar.value, Scalar.map_eq_error_iff, Scalar.double_eq_error_iff hdouble] at h
        obtain ⟨hcount, rfl⟩ := h
        exact .double htag hcount
    | whole hwhole =>
        rw [Scalar.value, Scalar.map_eq_error_iff, Scalar.whole_eq_error_iff hwhole] at h
        exact .whole htag h
    | merge hmark =>
        cases h
        exact .mark (Or.inl hmark)
    | default hmark =>
        cases h
        exact .mark (Or.inr hmark)
    | stamp hstamp =>
        rw [Scalar.value, Scalar.map_eq_error_iff, Scalar.stamp_eq_error_iff hstamp] at h
        obtain ⟨found, reason, hread, hmoment, rfl⟩ := h
        exact .stamp htag hread hmoment
    | text => cases h
  · intro h
    cases h with
    | mark hmark => rcases hmark with rfl | rfl <;> decide
    | whole htag hdigits =>
        rw [htag] at hplain ⊢
        cases hplain with
        | whole hwhole =>
            rwa [Scalar.value, Scalar.map_eq_error_iff, Scalar.whole_eq_error_iff hwhole]
    | double htag hcount =>
        rw [htag] at hplain ⊢
        cases hplain with
        | double hdouble =>
            rw [Scalar.value, Scalar.map_eq_error_iff, Scalar.double_eq_error_iff hdouble]
            exact ⟨hcount, rfl⟩
    | stamp htag hread hmoment =>
        rw [htag] at hplain ⊢
        cases hplain with
        | stamp hstamp =>
            rw [Scalar.value, Scalar.map_eq_error_iff, Scalar.stamp_eq_error_iff hstamp]
            exact ⟨_, _, hread, hmoment, rfl⟩

end CqlWorkload.Yaml
