import CqlWorkload.Proofs.Text.Case
import CqlWorkload.Proofs.Text.Pieces
import CqlWorkload.Proofs.Yaml.Number
import Mathlib.Data.List.TakeWhile

/-!
# Whole numbers without a value

A text of the form of a whole number may still have no value: a base is announced and no
digit is behind it, or decimal digits are too many.  There is no other reason
(`Scalar.whole_eq_error_iff`).

**Places.** Of the places of a number to the base sixty only the first may have too many
digits (`Scalar.size_places_eq_error_iff`).
-/

namespace CqlWorkload.Yaml

namespace Scalar

/-! ## Texts without underscores -/

theorem withoutUnderscores_cons {c : Char} (h : c ≠ '_') (rest : List Char) :
    withoutUnderscores (c :: rest) = c :: withoutUnderscores rest :=
  List.filter_cons_of_pos (by simpa using h)

theorem unsigned_withoutUnderscores {cs : List Char} (h : cs.head? ≠ some '_') :
    Tag.unsigned (withoutUnderscores cs) = withoutUnderscores (Tag.unsigned cs) := by
  cases cs with
  | nil => rfl
  | cons c rest =>
      have hc : c ≠ '_' := by simpa using h
      rw [withoutUnderscores_cons hc]
      by_cases hsign : c ≠ '-' ∧ c ≠ '+'
      · have hself (ds : List Char) : Tag.unsigned (c :: ds) = c :: ds :=
          unsigned_eq_self fun d hd => by cases hd; exact hsign
        rw [hself, hself, withoutUnderscores_cons hc]
      · rw [not_and_or, not_not, not_not] at hsign
        rcases hsign with rfl | rfl <;> rfl

/-- Digits and underscores. -/
def IsLoose (cs : List Char) : Prop := ∀ c ∈ cs, (c.isDigit || c == '_') = true

theorem IsLoose.isDigit {cs : List Char} (h : IsLoose cs) :
    ∀ c ∈ withoutUnderscores cs, c.isDigit = true := by
  intro c hc
  obtain ⟨hm, hmark⟩ := List.mem_filter.mp hc
  have hloose := h c hm
  rw [Bool.or_eq_true, beq_iff_eq] at hloose
  exact hloose.resolve_right (by simpa using hmark)

/-- A run of digits begins with one and goes on with digits and underscores. -/
theorem isDigitRun_cases {p : Char → Bool} (hp : ∀ c, p c = true → c.isDigit = true)
    {cs : List Char} (h : Tag.isDigitRun p cs = true) :
    ∃ c rest, cs = c :: rest ∧ p c = true ∧ c ≠ '_' ∧ IsLoose cs := by
  cases cs with
  | nil => cases h
  | cons c rest =>
      rw [Tag.isDigitRun, Bool.and_eq_true, List.all_eq_true] at h
      have hdigit := hp c h.1
      refine ⟨c, rest, rfl, h.1, ?_, List.forall_mem_cons.mpr ⟨by simp [hdigit], h.2⟩⟩
      rintro rfl
      contradiction

theorem isSexagesimal_cases {p : Char → Bool} {cs : List Char}
    (h : Tag.isSexagesimal p cs = true) : ∃ first rest, Text.splitAt ':' cs = first :: rest ∧
      Tag.isDigitRun p first = true ∧ ∀ place ∈ rest, Tag.isSixtieth place = true := by
  unfold Tag.isSexagesimal at h
  split at h
  next first next rest hsplit =>
    obtain ⟨hfirst, hrest⟩ := Bool.and_eq_true_iff.mp h
    exact ⟨first, next :: rest, hsplit, hfirst, List.all_eq_true.mp hrest⟩
  · cases h

/-! ## Digits to a base -/

theorem isAlphanum_of_value? {base : Nat} {c : Char} (h : (Digit.value? base c).isSome = true) :
    c.isAlphanum = true := by
  rw [Char.isAlphanum, Bool.or_eq_true]
  by_cases hdigit : c.isDigit = true
  · exact Or.inr hdigit
  · by_cases halpha : c.isAlpha = true
    · exact Or.inl halpha
    · simp [Digit.value?, hdigit, halpha] at h

theorem toNat_lt_of_isAlphanum {c : Char} (h : c.isAlphanum = true) : c.toNat < 128 := by
  rcases Bool.or_eq_true_iff.mp h with halpha | hdigit
  · rcases Bool.or_eq_true_iff.mp halpha with hupper | hlower
    · have hle : c.val ≤ 'Z'.val := (of_decide_eq_true hupper).2
      exact Nat.lt_of_le_of_lt (UInt32.le_iff_toNat_le.mp hle) (by decide)
    · have hle : c.val ≤ 'z'.val := of_decide_eq_true (Bool.and_eq_true_iff.mp hlower).2
      exact Nat.lt_of_le_of_lt (UInt32.le_iff_toNat_le.mp hle) (by decide)
  · exact Nat.lt_of_le_of_lt (Char.isDigit_iff_toNat.mp hdigit).2 (by decide)

/-- Digits are no blanks, signs or digits of other scripts. -/
theorem plain_of_value? {base : Nat} {c : Char} (h : (Digit.value? base c).isSome = true) :
    Text.isBlank c = false ∧ NumberText.asciiDigit c = c ∧ c ≠ '-' ∧ c ≠ '+' := by
  have halphanum := isAlphanum_of_value? h
  exact Text.forall_ascii (P := fun c => c.isAlphanum = true → Text.isBlank c = false ∧
    NumberText.asciiDigit c = c ∧ c ≠ '-' ∧ c ≠ '+') (by decide)
    (toNat_lt_of_isAlphanum halphanum) halphanum

/-- The letter that announces a base is no digit to it. -/
theorem baseLetter?_ne {base : Nat} {c : Char} (h : (Digit.value? base c).isSome = true) :
    baseLetter? base ≠ some c.toLower := by
  by_cases hbase : base ∈ [2, 8, 16]
  · have hletters := Text.forall_ascii (P := fun c => ∀ base ∈ [2, 8, 16],
      (Digit.value? base c).isSome = true → baseLetter? base ≠ some c.toLower) (by decide)
      (toNat_lt_of_isAlphanum (isAlphanum_of_value? h))
    exact hletters base hbase h
  · simp only [List.mem_cons, List.not_mem_nil, or_false, not_or] at hbase
    simp [baseLetter?, hbase]

/-- Digits with nothing around them. -/
structure IsClean (cs : List Char) : Prop where
  signed : (Text.trimWhile Text.isBlank cs).map NumberText.asciiDigit = cs
  unsigned : Tag.unsigned cs = cs
  positive : isNegative cs = false

theorem isClean {base : Nat} {cs : List Char}
    (h : ∀ c ∈ cs, (Digit.value? base c).isSome = true) : IsClean cs := by
  have hfacts (c : Char) (hc : c ∈ cs) := plain_of_value? (h c hc)
  refine ⟨?_, ?_, ?_⟩
  · rw [trimWhile_eq_self fun c hc => (hfacts c hc).1,
      List.map_congr_left fun c hc => (hfacts c hc).2.1, List.map_id']
  · exact unsigned_eq_self fun c hc => (hfacts c (List.mem_of_mem_head? hc)).2.2
  · cases cs with
    | nil => rfl
    | cons c rest => simpa [isNegative] using (hfacts c (List.mem_cons_self ..)).2.2.1

theorem withoutBase_eq {base : Nat} {cs : List Char}
    (h : ∀ c ∈ cs, (Digit.value? base c).isSome = true) : withoutBase base cs = cs := by
  unfold withoutBase
  split
  next c rest => exact if_neg (baseLetter?_ne (h c (by simp)))
  · rfl

theorem isSome_number? {base : Nat} {cs : List Char}
    (h : ∀ c ∈ cs, (Digit.value? base c).isSome = true) : (Digit.number? base cs).isSome = true := by
  rw [Digit.number?, Option.isSome_map]
  induction cs with
  | nil => rfl
  | cons c rest ih =>
      obtain ⟨hc, hrest⟩ := List.forall_mem_cons.mp h
      obtain ⟨d, hd⟩ := Option.isSome_iff_exists.mp hc
      obtain ⟨ds, hds⟩ := Option.isSome_iff_exists.mp (ih hrest)
      simp [List.mapM_cons, hd, hds]

/-- One digit or more, and in a decimal number not too many, have a value. -/
theorem digits_eq_ok {base : Nat} {cs : List Char}
    (h : ∀ c ∈ cs, (Digit.value? base c).isSome = true) (hne : cs ≠ [])
    (hfew : base = 10 → cs.length ≤ Digit.limit) : ∃ n, digits base cs = .ok n := by
  obtain ⟨n, hn⟩ := Option.isSome_iff_exists.mp (isSome_number? h)
  have hdigits : digits? base cs = some n := by
    rw [digits?, List.isEmpty_eq_false_iff.mpr hne, if_neg Bool.false_ne_true, hn]
  have hcount : ¬(base = 10 ∧ Digit.limit < (cs.takeWhile Char.isDigit).length) := by
    rintro ⟨hten, hmany⟩
    have hle := (List.takeWhile_prefix Char.isDigit (l := cs)).length_le
    have hlimit := hfew hten
    omega
  refine ⟨n, ?_⟩
  rw [digits, (isClean h).signed]
  simp only [(isClean h).unsigned, hcount, withoutBase_eq h, hdigits, (isClean h).positive,
    Bool.false_eq_true, if_false]

theorem isSome_value? {c : Char} (h : c.isDigit = true) : (Digit.value? 10 c).isSome = true := by
  rw [Digit.value?_of_isDigit h]
  rfl

/-- **Decimal digits have no value exactly when they are too many.** -/
theorem digits_ten_eq_error_iff {cs : List Char} {fault : Fault}
    (h : ∀ c ∈ cs, c.isDigit = true) (hne : cs ≠ []) : digits 10 cs = .error fault ↔
      Digit.limit < cs.length ∧ fault = .tooManyDigits cs.length := by
  have hvalue : ∀ c ∈ cs, (Digit.value? 10 c).isSome = true := fun c hc => isSome_value? (h c hc)
  by_cases hmany : Digit.limit < cs.length
  · have hrun : cs.takeWhile Char.isDigit = cs := List.takeWhile_eq_self_iff.mpr h
    have herror : digits 10 cs = .error (.tooManyDigits cs.length) := by
      rw [digits, (isClean hvalue).signed]
      simp only [(isClean hvalue).unsigned, hrun, hmany, and_self, if_true]
    rw [herror, Except.error.injEq]
    exact ⟨fun hf => ⟨hmany, hf.symm⟩, fun hf => hf.2.symm⟩
  · obtain ⟨n, hn⟩ := digits_eq_ok hvalue hne fun _ => Nat.not_lt.mp hmany
    simp [hn, hmany]

/-! ## Whole numbers -/

/-- The letters that announce a base in a form. -/
def announced : List (Char × Nat) := [('b', 2), ('x', 16)]

/-- The complaint about a base without digits. -/
def noDigitsTo (base : Nat) : Fault :=
  .noValue ("invalid literal for int() with base " ++ FloatLayout.digitsText base ++ ": ''")

/-- What is wrong with the digits of a whole number without its sign. -/
inductive LacksDigits (cs : List Char) : Fault → Prop
  /-- A base is announced, and no digit is behind it. -/
  | none {letter : Char} {base : Nat} {rest : List Char} (hbase : (letter, base) ∈ announced)
      (h : cs = '0' :: letter :: rest) (hrest : ∀ c ∈ rest, c = '_') :
      LacksDigits cs (noDigitsTo base)
  /-- The first place has too many decimal digits. -/
  | many {first : List Char} {rest : List (List Char)} (h : Text.splitAt ':' cs = first :: rest)
      (hfirst : Tag.isDigitRun Tag.isLeading first = true)
      (hrest : ∀ place ∈ rest, Tag.isSixtieth place = true)
      (hcount : Digit.limit < (withoutUnderscores first).length) :
      LacksDigits cs (.tooManyDigits (withoutUnderscores first).length)

/-- The ways to write a whole number without its sign. -/
inductive WholeForm : List Char → Prop
  | announced {letter : Char} {base : Nat} {rest : List Char}
      (hbase : (letter, base) ∈ announced)
      (h : ∀ c ∈ rest, c ≠ '_' → (Digit.value? base c).isSome = true) :
      WholeForm ('0' :: letter :: rest)
  | octal {rest : List Char} (h : ∀ c ∈ rest, c ≠ '_' → (Digit.value? 8 c).isSome = true) :
      WholeForm ('0' :: rest)
  | places {cs first : List Char} {rest : List (List Char)}
      (h : Text.splitAt ':' cs = first :: rest)
      (hfirst : Tag.isDigitRun Tag.isLeading first = true)
      (hrest : ∀ place ∈ rest, Tag.isSixtieth place = true) : WholeForm cs

theorem value?_of_isRun {p : Char → Bool} {base : Nat} {cs : List Char}
    (hp : ∀ c, p c = true → c.toNat < 128)
    (hall : ∀ n < 128, p (Char.ofNat n) = true → (Digit.value? base (Char.ofNat n)).isSome = true)
    (h : Tag.isRun p cs = true) : ∀ c ∈ cs, c ≠ '_' → (Digit.value? base c).isSome = true := by
  intro c hc hmark
  rw [Tag.isRun, Bool.and_eq_true, List.all_eq_true] at h
  have hclass : p c = true := by simpa [hmark] using h.2 c hc
  exact Text.forall_ascii (P := fun c => p c = true → (Digit.value? base c).isSome = true) hall
    (hp c hclass) hclass

theorem isDigit_of_isLeading (c : Char) (h : Tag.isLeading c = true) : c.isDigit = true :=
  (Bool.and_eq_true_iff.mp h).1

theorem wholeForm {cs : List Char} (h : Tag.isWhole cs = true) :
    WholeForm (Tag.unsigned cs) := by
  unfold Tag.isWhole at h
  split at h
  next heq =>
    rw [heq]
    exact .octal nofun
  next rest heq =>
    have hclass (c : Char) (hc : Digit.isBinary c = true) : c.toNat < 128 := by
      have hdigit : c = '0' ∨ c = '1' := by simpa [Digit.isBinary] using hc
      rcases hdigit with rfl | rfl <;> decide
    rw [heq]
    exact .announced (show ('b', 2) ∈ announced by decide) (value?_of_isRun hclass (by decide) h)
  next rest heq =>
    have hclass (c : Char) (hc : Digit.isHexadecimal c = true) : c.toNat < 128 := by
      simp only [Digit.isHexadecimal, Char.isDigit, Bool.or_eq_true, Bool.and_eq_true,
        decide_eq_true_eq, ge_iff_le, UInt32.le_iff_toNat_le, Char.le_def] at hc
      change ((48 ≤ c.toNat ∧ c.toNat ≤ 57) ∨ (97 ≤ c.toNat ∧ c.toNat ≤ 102)) ∨
        (65 ≤ c.toNat ∧ c.toNat ≤ 70) at hc
      omega
    rw [heq]
    exact .announced (show ('x', 16) ∈ announced by decide) (value?_of_isRun hclass (by decide) h)
  next rest _ _ _ heq =>
    have hclass (c : Char) (hc : Digit.isOctal c = true) : c.toNat < 128 := by
      simp only [Digit.isOctal, Bool.and_eq_true, decide_eq_true_eq, UInt32.le_iff_toNat_le,
        Char.le_def] at hc
      change 48 ≤ c.toNat ∧ c.toNat ≤ 55 at hc
      omega
    rw [heq]
    exact .octal (value?_of_isRun hclass (by decide) h)
  · rcases Bool.or_eq_true_iff.mp h with hrun | hplaces
    · obtain ⟨-, -, -, -, -, hloose⟩ := isDigitRun_cases isDigit_of_isLeading hrun
      refine .places (Text.splitAt_of_not_mem fun hm => ?_) hrun nofun
      exact absurd (hloose ':' hm) (by decide)
    · obtain ⟨first, rest, hsplit, hfirst, hrest⟩ := isSexagesimal_cases hplaces
      exact .places hsplit hfirst hrest

/-! ### Reading the forms -/

theorem withoutUnderscores_value? {base : Nat} {cs : List Char}
    (h : ∀ c ∈ cs, c ≠ '_' → (Digit.value? base c).isSome = true) :
    ∀ c ∈ withoutUnderscores cs, (Digit.value? base c).isSome = true := by
  intro c hc
  obtain ⟨hm, hmark⟩ := List.mem_filter.mp hc
  exact h c hm (by simpa using hmark)

/-- A base is announced, and the digits behind the letter are read. -/
theorem size_announced {letter : Char} {base : Nat} (h : (letter, base) ∈ announced)
    (rest : List Char) : size (withoutUnderscores ('0' :: letter :: rest)) =
      digits base (withoutUnderscores rest) := by
  simp only [announced, List.mem_cons, Prod.mk.injEq, List.not_mem_nil, or_false] at h
  rcases h with ⟨rfl, rfl⟩ | ⟨rfl, rfl⟩ <;> rfl

theorem digits_nil {letter : Char} {base : Nat} (h : (letter, base) ∈ announced) :
    digits base [] = .error (noDigitsTo base) := by
  simp only [announced, List.mem_cons, Prod.mk.injEq, List.not_mem_nil, or_false] at h
  rcases h with ⟨rfl, rfl⟩ | ⟨rfl, rfl⟩ <;> decide

theorem size_octal {rest : List Char} (h : ∀ c ∈ rest, (Digit.value? 8 c).isSome = true) :
    ∃ n, size ('0' :: rest) = .ok n := by
  have hsize : size ('0' :: rest) = digits 8 ('0' :: rest) := by
    unfold size
    split
    · contradiction
    next heq =>
      obtain ⟨-, rfl⟩ := List.cons.inj heq
      exact absurd (h 'b' (List.mem_cons_self ..)) (by decide)
    next heq =>
      obtain ⟨-, rfl⟩ := List.cons.inj heq
      exact absurd (h 'x' (List.mem_cons_self ..)) (by decide)
    · rfl
    next hother => exact absurd rfl (hother _)
  rw [hsize]
  exact digits_eq_ok (List.forall_mem_cons.mpr ⟨by decide, h⟩) (List.cons_ne_nil _ _) nofun

theorem map_eq_error_iff {α β : Type} {found : Except Fault α} {f : α → β} {fault : Fault} :
    f <$> found = .error fault ↔ found = .error fault := by
  cases found <;> simp [Functor.map, Except.map]

theorem exists_mapM_eq_ok {α β : Type} {read : α → Except Fault β} {as : List α}
    (h : ∀ a ∈ as, ∃ b, read a = .ok b) : ∃ bs, as.mapM read = .ok bs ∧ bs.length = as.length := by
  induction as with
  | nil => exact ⟨[], rfl, rfl⟩
  | cons a rest ih =>
      obtain ⟨⟨b, hb⟩, hrest⟩ := List.forall_mem_cons.mp h
      obtain ⟨bs, hbs, hlength⟩ := ih hrest
      refine ⟨b :: bs, ?_, by rw [List.length_cons, List.length_cons, hlength]⟩
      rw [List.mapM_cons, hb, hbs]
      rfl

/-- Only the first of some texts may be one that is not read. -/
theorem mapM_cons_eq_error_iff {α β : Type} {read : α → Except Fault β} {first : α}
    {rest : List α} (hrest : ∀ a ∈ rest, ∃ b, read a = .ok b) {fault : Fault} :
    (first :: rest).mapM read = .error fault ↔ read first = .error fault := by
  obtain ⟨bs, hbs, -⟩ := exists_mapM_eq_ok hrest
  rw [List.mapM_cons, hbs]
  cases read first with
  | error other =>
      show Except.error other = Except.error fault ↔ Except.error other = Except.error fault
      simp
  | ok b => exact ⟨nofun, nofun⟩

theorem isSixtieth_cases {cs : List Char} (h : Tag.isSixtieth cs = true) :
    cs ≠ [] ∧ cs.length ≤ 2 ∧ ∀ c ∈ cs, c.isDigit = true := by
  unfold Tag.isSixtieth at h
  split at h
  · simpa using h
  next a b =>
    simp only [Bool.and_eq_true, decide_eq_true_eq] at h
    have ha : a.isDigit = true :=
      Char.isDigit_iff_toNat.mpr ⟨h.1.1, (show a.toNat ≤ 53 from h.1.2).trans (by decide)⟩
    simp [ha, h.2]
  · cases h

theorem withoutUnderscores_of_isDigit {cs : List Char} (h : ∀ c ∈ cs, c.isDigit = true) :
    withoutUnderscores cs = cs :=
  List.filter_eq_self.mpr fun c hc => by
    rw [bne_iff_ne]
    rintro rfl
    exact absurd (h _ hc) (by decide)

/-- A place below sixty is read. -/
theorem digits_sixtieth {cs : List Char} (h : Tag.isSixtieth cs = true) :
    ∃ n, digits 10 (withoutUnderscores cs) = .ok n := by
  obtain ⟨hne, hlength, hdigits⟩ := isSixtieth_cases h
  rw [withoutUnderscores_of_isDigit hdigits]
  refine digits_eq_ok (fun c hc => isSome_value? (hdigits c hc)) hne fun _ => ?_
  exact hlength.trans (by decide)

theorem splitAt_withoutUnderscores (cs : List Char) :
    Text.splitAt ':' (withoutUnderscores cs) =
      (Text.splitAt ':' cs).map withoutUnderscores := by
  have hkeep (c : Char) : Option.guard (· != '_') c = some ':' ↔ c = ':' := by
    rw [Option.guard_eq_some_iff]
    exact ⟨And.left, fun h => ⟨h, h ▸ rfl⟩⟩
  have hsplit := Text.splitAt_filterMap hkeep cs
  simp only [List.filterMap_eq_filter] at hsplit
  exact hsplit

/-- A whole number that announces no base has no value for its first place only. -/
theorem size_places_eq_error_iff {cs first : List Char} {rest : List (List Char)} {fault : Fault}
    (h : Text.splitAt ':' cs = first :: rest)
    (hfirst : Tag.isDigitRun Tag.isLeading first = true)
    (hrest : ∀ place ∈ rest, Tag.isSixtieth place = true) :
    size (withoutUnderscores cs) = .error fault ↔ Digit.limit < (withoutUnderscores first).length ∧
      fault = .tooManyDigits (withoutUnderscores first).length := by
  obtain ⟨c, more, rfl, hc, hmark, hloose⟩ := isDigitRun_cases isDigit_of_isLeading hfirst
  have hzero : c ≠ '0' := by simpa using (Bool.and_eq_true_iff.mp hc).2
  have hdigits := hloose.isDigit
  have hsplit := splitAt_withoutUnderscores cs
  rw [h, List.map_cons] at hsplit
  rw [withoutUnderscores_cons hmark] at hsplit hdigits ⊢
  rw [← digits_ten_eq_error_iff hdigits (List.cons_ne_nil _ _)]
  have hhead := Text.head?_of_splitAt hsplit
  generalize withoutUnderscores cs = ds at hsplit hhead ⊢
  obtain ⟨others, rfl⟩ : ∃ others, ds = c :: others := by
    cases ds with
    | nil => cases hhead
    | cons d others =>
        cases hhead
        exact ⟨others, rfl⟩
  rw [size_cons hzero]
  split
  next hcolon =>
    have hplaces : ∀ place ∈ rest.map withoutUnderscores, ∃ n, digits 10 place = .ok n := by
      intro place hm
      obtain ⟨sixtieth, hsixtieth, rfl⟩ := List.mem_map.mp hm
      exact digits_sixtieth (hrest sixtieth hsixtieth)
    rw [map_eq_error_iff, places, map_eq_error_iff, hsplit, mapM_cons_eq_error_iff hplaces]
  next hcolon =>
    have hsingle : Text.splitAt ':' (c :: others) = [c :: others] :=
      Text.splitAt_of_not_mem (by simpa using hcolon)
    rw [hsingle] at hsplit
    rw [(List.cons.inj hsplit).1]

theorem WholeForm.exists_head {cs : List Char} (h : WholeForm cs) :
    ∃ c, cs.head? = some c ∧ c.isDigit = true := by
  cases h with
  | announced => exact ⟨'0', rfl, rfl⟩
  | octal => exact ⟨'0', rfl, rfl⟩
  | places hsplit hfirst =>
      obtain ⟨c, more, rfl, hc, -, -⟩ := isDigitRun_cases isDigit_of_isLeading hfirst
      exact ⟨c, Text.head?_of_splitAt hsplit, isDigit_of_isLeading c hc⟩

/-- A sign is no underscore. -/
theorem head?_ne_of_unsigned {cs : List Char} {c : Char} (h : (Tag.unsigned cs).head? = some c)
    (hc : c ≠ '_') : cs.head? ≠ some '_' := by
  intro hmark
  have hunsigned : Tag.unsigned cs = cs := unsigned_eq_self fun d hd => by
    rw [hmark] at hd
    cases hd
    decide
  rw [hunsigned, hmark] at h
  cases h
  exact hc rfl

/-- **A whole number has no value exactly when its digits lack something.** -/
theorem whole_eq_error_iff {s : String} (h : Tag.isWhole s.toList = true) {fault : Fault} :
    whole s = .error fault ↔ LacksDigits (Tag.unsigned s.toList) fault := by
  have hform := wholeForm h
  obtain ⟨c, hhead, hdigit⟩ := hform.exists_head
  have hmark : c ≠ '_' := by
    rintro rfl
    contradiction
  rw [whole, map_eq_error_iff, unsigned_withoutUnderscores (head?_ne_of_unsigned hhead hmark)]
  clear hhead
  constructor
  · intro hfault
    generalize Tag.unsigned s.toList = cs at hform hfault ⊢
    cases hform with
    | @announced letter base rest hbase hvalue =>
        rw [size_announced hbase] at hfault
        by_cases hnone : withoutUnderscores rest = []
        · rw [hnone, digits_nil hbase] at hfault
          cases hfault
          exact .none hbase rfl fun c hc => by simpa using List.filter_eq_nil_iff.mp hnone c hc
        · have hten : base ≠ 10 := by
            rintro rfl
            simp [announced] at hbase
          obtain ⟨n, hn⟩ := digits_eq_ok (withoutUnderscores_value? hvalue) hnone
            fun h => absurd h hten
          rw [hn] at hfault
          cases hfault
    | @octal rest hvalue =>
        rw [withoutUnderscores_cons (by decide)] at hfault
        obtain ⟨n, hn⟩ := size_octal (withoutUnderscores_value? hvalue)
        rw [hn] at hfault
        cases hfault
    | places hsplit hfirst hrest =>
        obtain ⟨hcount, rfl⟩ := (size_places_eq_error_iff hsplit hfirst hrest).mp hfault
        exact .many hsplit hfirst hrest hcount
  · intro hlacks
    cases hlacks with
    | @none letter base rest hbase hcs hrest =>
        have hnone : withoutUnderscores rest = [] :=
          List.filter_eq_nil_iff.mpr fun c hc => by simp [hrest c hc]
        rw [hcs, size_announced hbase, hnone, digits_nil hbase]
    | many hsplit hfirst hrest hcount =>
        exact (size_places_eq_error_iff hsplit hfirst hrest).mpr ⟨hcount, rfl⟩

end Scalar
end CqlWorkload.Yaml
