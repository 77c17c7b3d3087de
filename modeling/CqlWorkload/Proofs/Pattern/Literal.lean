import CqlWorkload.Binding.Library
import CqlWorkload.Proofs.Text.Case

/-!
# Patterns of plain characters

A character that means nothing else in a pattern stands for itself.  So a text of
such characters is read, character by character, as the pattern of itself
(`read_literal`).

**Matching.** Ignoring case, that pattern leaves behind it what a word leaves
behind it, and it matches a text exactly when the two are the same word
(`matches?_literal`).  A pattern with a blank matches nothing without blanks.

**Matchers.** What other developments need to know of a matcher is that it reads
plain characters in this way (`Matcher.ReadsPlain`); the standard one does.
-/

namespace CqlWorkload

namespace Pattern

/-- The pattern of characters that stand for themselves. -/
def literal (casing : Casing) : List Char → Pattern
  | [] => .empty
  | [c] => .one casing false [.char c]
  | c :: rest => .seq (.one casing false [.char c]) (literal casing rest)

/-- The parts that plain characters are read as, the last one first. -/
def reversedParts (casing : Casing) (cs : List Char) : List Pattern :=
  (cs.map fun c => .one casing false [.char c]).reverse

theorem reversedParts_cons (casing : Casing) (c : Char) (rest : List Char) :
    reversedParts casing (c :: rest) =
      reversedParts casing rest ++ [.one casing false [.char c]] := by
  simp [reversedParts]

theorem toPattern_reversedParts (casing : Casing) (cs : List Char) (last : Last) :
    Parts.toPattern ⟨reversedParts casing cs, last⟩ = literal casing cs := by
  induction cs with
  | nil => rfl
  | cons c rest ih =>
      cases rest with
      | nil => rfl
      | cons d rest =>
          obtain ⟨q, others, hq⟩ := List.exists_cons_of_ne_nil
            (l := reversedParts casing (d :: rest)) (by simp [reversedParts])
          rw [literal, ← ih, reversedParts_cons, hq]
          · simp [Parts.toPattern, List.foldl_append]
          · simp

/-- A pattern of plain characters has no flaw, and nothing in it is idle. -/
theorem flaw?_literal (template : Bool) (casing : Casing) (cs : List Char) :
    (literal casing cs).flaw? template = none := by
  induction cs with
  | nil => rfl
  | cons c rest ih =>
      cases rest with
      | nil => rfl
      | cons d rest => simpa [literal, flaw?] using ih

theorem withoutIdle_literal (asked : List Nat) (casing : Casing) (cs : List Char) :
    (literal casing cs).withoutIdle asked = literal casing cs := by
  induction cs with
  | nil => rfl
  | cons c rest ih =>
      cases rest with
      | nil => rfl
      | cons d rest => simpa [literal, withoutIdle] using ih

/-! ## Reading plain characters -/

theorem ofChars_of_not_mem {cs : List Char} (h : '\\' ∉ cs) :
    Token.ofChars cs = cs.map .char := by
  induction cs with
  | nil => rfl
  | cons c rest ih =>
      simp only [List.mem_cons, not_or] at h
      rw [Token.ofChars, ih h.2, List.map_cons]
      · rintro rfl
        exact absurd rfl h.1
      · rintro _ _ rfl
        exact absurd rfl h.1

theorem sound_chars (cs : List Char) (position : Nat) (notes : Notes) :
    Input.sound ⟨cs.map .char, position, notes⟩ = .ok ⟨cs.map .char, position, notes⟩ := by
  cases cs <;> rfl

theorem advance_chars (c : Char) (cs : List Char) (position : Nat) (notes : Notes) :
    Input.advance ⟨.char c :: cs.map .char, position, notes⟩ =
      .ok ⟨cs.map .char, position + 1, notes⟩ :=
  sound_chars cs _ _

variable {mode : Mode}

/-- A plain character becomes the next part of a sequence. -/
theorem sequence_char (hmode : mode.spaced = false) (fuel : Nat) (isFirst : Bool) (parts : Parts)
    (position : Nat) (notes : Notes) {c : Char} (hc : isSpecial c = false) (rest : List Char) :
    sequence (fuel + 1) isFirst mode parts ⟨.char c :: rest.map .char, position, notes⟩ =
      sequence fuel isFirst mode (parts.push (.one mode.casing false [.char c]))
        ⟨rest.map .char, position + 1, notes⟩ := by
  have hne : c ≠ '.' ∧ c ≠ '\\' ∧ c ≠ '[' ∧ c ≠ '{' ∧ c ≠ '(' ∧ c ≠ ')' ∧ c ≠ '*' ∧ c ≠ '+' ∧
      c ≠ '?' ∧ c ≠ '^' ∧ c ≠ '$' ∧ c ≠ '|' := by
    simpa [isSpecial] using hc
  have hsign : signBounds? c = none := by simp [signBounds?, hne]
  simp only [sequence, advance_chars]
  -- All branches but the last one are those of special characters.
  split
  next h => cases h
  next h => simp_all
  next h => simp_all
  next token tail _ _ h =>
    obtain ⟨rfl, rfl⟩ := List.cons.inj h
    simp only [bind, Except.bind, hmode, Bool.false_and, Bool.false_eq_true, if_false]
    split <;> simp_all

/-- Plain characters are read to the end as parts of one sequence. -/
theorem sequence_chars (hmode : mode.spaced = false) (isFirst : Bool) {cs : List Char}
    (hcs : ∀ c ∈ cs, isSpecial c = false) (parts : Parts) (position : Nat) (notes : Notes)
    {fuel : Nat} (hfuel : cs.length < fuel) :
    ∃ last, sequence fuel isFirst mode parts ⟨cs.map .char, position, notes⟩ =
      .ok (Parts.toPattern ⟨reversedParts mode.casing cs ++ parts.reversed, last⟩, mode,
        ⟨[], position + cs.length, notes⟩) := by
  obtain ⟨fuel, rfl⟩ := Nat.exists_eq_add_one_of_ne_zero (Nat.ne_zero_of_lt hfuel)
  induction cs generalizing parts position fuel with
  | nil => exact ⟨parts.last, rfl⟩
  | cons c rest ih =>
      obtain ⟨hc, hrest⟩ := List.forall_mem_cons.mp hcs
      obtain ⟨fuel, rfl⟩ : ∃ less, fuel = less + 1 :=
        Nat.exists_eq_add_one_of_ne_zero (by simp at hfuel; omega)
      obtain ⟨last, ih⟩ := ih hrest (parts.push (.one mode.casing false [.char c])) (position + 1)
        fuel (by simpa using hfuel)
      refine ⟨last, ?_⟩
      rw [List.map_cons, sequence_char hmode _ _ _ _ _ hc, ih, reversedParts_cons]
      simp [Parts.push, Nat.add_assoc, Nat.add_comm 1]

/-- **Plain characters are the pattern of themselves.** -/
theorem read_literal (foldCase : Bool) {s : String} (h : ∀ c ∈ s.toList, isSpecial c = false) :
    read foldCase s = .ok (literal (Mode.start foldCase).casing s.toList) := by
  have hslash : '\\' ∉ s.toList := fun hmem => absurd (h _ hmem) (by decide)
  have hmode : (Mode.start foldCase).spaced = false := rfl
  obtain ⟨last, hsequence⟩ := sequence_chars hmode true h .none 0 .start
    (show s.toList.length < 2 * s.toList.length + 3 by omega)
  have hchoices : choices (2 * s.toList.length + 4) true (.start foldCase)
      ⟨s.toList.map .char, 0, .start⟩ =
        .ok (literal (Mode.start foldCase).casing s.toList, ⟨[], s.toList.length, .start⟩) := by
    rw [choices, hsequence]
    simp [Parts.none, toPattern_reversedParts, bind, Except.bind, Input.accept, Input.nextIs]
  have hwhole : readWhole foldCase s.toList =
      .ok (literal (Mode.start foldCase).casing s.toList, []) := by
    rw [readWhole, ofChars_of_not_mem hslash, sound_chars]
    simp only [bind, Except.bind, hchoices]
    rfl
  simp [read, hwhole, flaw?_literal, withoutIdle_literal]

/-! ## Matching -/

/-- A spot with another rest. -/
def Spot.withRest (s : Spot) (rest : List Char) : Spot := { s with rest := rest }

theorem spots_char (whole : List Char) (p : Char) (s : Spot) :
    spots whole (.one .full false [.char p]) s =
      ((Library.afterWord? [p] s.rest).map s.withRest).toList := by
  obtain ⟨cs, passages⟩ := s
  cases cs with
  | nil => rfl
  | cons c rest =>
      cases h : isLike p c <;>
        simp [spots, Item.holds, Casing.holds, Library.afterWord?, Spot.withRest, h]

theorem afterWord?_cons (p : Char) (ps cs : List Char) :
    Library.afterWord? (p :: ps) cs =
      (Library.afterWord? [p] cs).bind (Library.afterWord? ps) := by
  cases cs with
  | nil => rfl
  | cons c rest => cases h : isLike p c <;> simp [Library.afterWord?, h]

/-- A pattern of plain characters leaves what a word leaves behind it. -/
theorem spots_literal (whole ps : List Char) (s : Spot) :
    spots whole (literal .full ps) s =
      ((Library.afterWord? ps s.rest).map s.withRest).toList := by
  induction ps generalizing s with
  | nil => rfl
  | cons p rest ih =>
      cases rest with
      | nil => exact spots_char whole p s
      | cons q rest =>
          rw [afterWord?_cons, literal, spots, spots_char]
          · cases Library.afterWord? [p] s.rest with
            | none => rfl
            | some after =>
                have hrest : (s.withRest after).rest = after := rfl
                rw [Option.map_some, Option.toList_some, List.flatMap_singleton, ih, hrest,
                  Option.bind_some]
                cases Library.afterWord? (q :: rest) after <;> simp [Spot.withRest, List.eraseDups_cons]
          · simp

theorem afterWord?_eq_nil_iff (ps cs : List Char) :
    Library.afterWord? ps cs = some [] ↔ Library.isWord ps cs = true := by
  induction ps generalizing cs with
  | nil => cases cs <;> simp [Library.afterWord?, Library.isWord]
  | cons p rest ih =>
      cases cs with
      | nil => simp [Library.afterWord?, Library.isWord]
      | cons c others => cases h : isLike p c <;> simp [Library.afterWord?, Library.isWord, h, ih]

/-- **A pattern of plain characters matches its word.** -/
theorem matches?_literal (ps : List Char) (s : String) :
    (literal .full ps).matches? s = Library.isWord ps s.toList := by
  rw [matches?, spots_literal, Bool.eq_iff_iff, ← afterWord?_eq_nil_iff]
  cases Library.afterWord? ps s.toList with
  | none => simp
  | some rest => simp [Spot.withRest]

end Pattern

/-- A matcher that takes plain characters for themselves: ignoring case, a text of them
matches the texts that are the same word. -/
def Matcher.ReadsPlain (m : Matcher) : Prop :=
  ∀ s : String, (∀ c ∈ s.toList, Pattern.isSpecial c = false) →
    ∃ test, m.read true s = .ok test ∧
      ∀ other : String, test other = Library.isWord s.toList other.toList

theorem Matcher.readsPlain_standard : Matcher.standard.ReadsPlain := by
  intro s h
  have hread : standard.read true s = Pattern.matches? <$> Pattern.read true s := rfl
  rw [Pattern.read_literal true h] at hread
  exact ⟨_, hread, Pattern.matches?_literal s.toList⟩

namespace Library

/-- Every text is the same word as itself. -/
theorem isWord_self (cs : List Char) : isWord cs cs = true := by
  induction cs with
  | nil => rfl
  | cons c rest ih => simp [isWord, Pattern.isLike_self, ih]

/-- The same words have blanks at the same places. -/
theorem any_isBlank_of_isWord {ps cs : List Char} (h : isWord ps cs = true) :
    ps.any Text.isBlank = cs.any Text.isBlank := by
  induction ps generalizing cs with
  | nil =>
      cases cs with
      | nil => rfl
      | cons c rest => cases h
  | cons p rest ih =>
      cases cs with
      | nil => cases h
      | cons c others =>
          obtain ⟨hlike, hrest⟩ := Bool.and_eq_true_iff.mp h
          rw [List.any_cons, List.any_cons, Pattern.isBlank_eq_of_isLike hlike, ih hrest]

end Library
end CqlWorkload
