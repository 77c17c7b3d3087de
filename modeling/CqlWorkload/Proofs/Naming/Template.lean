import CqlWorkload.Failure
import CqlWorkload.Naming.Template
import Mathlib.Data.List.Chain
import Mathlib.Data.List.TakeWhile
import Mathlib.Tactic.Basic

/-!
# Reading naming templates

A text is a naming template exactly when it can be written as literals without
brackets and sections of known fields, with at least one section.  Reading it
gives its pieces in order, and writing them gives the text back.

**Parts.** The parts of any text write it back (`isSplit_partsOf`): no literal is
empty, no two literals follow each other, and a section has margins around the
capital letters of its name.

**Pieces.** What is written from proper pieces has the parts of proper pieces, in
which literals that follow each other are joined (`readsAs_written`); so nothing in
it stops the reader.
-/

namespace CqlWorkload

namespace Field

theorem ofText?_text (field : Field) : ofText? field.text = some field := by
  cases field <;> decide

theorem text_of_ofText? {s : String} {field : Field} (h : ofText? s = some field) :
    field.text = s := by
  simpa using List.find?_some h

theorem isCapital_of_mem_text (field : Field) :
    field.text.toList.all Template.isCapital = true ∧ field.text.toList ≠ [] := by
  cases field <;> decide

end Field

namespace Template

/-! ## Written pieces -/

/-- A literal without brackets, or a section with neither brackets nor capital letters
around its field. -/
def Piece.IsProper : Piece → Prop
  | .literal text => ∀ c ∈ text.toList, c ≠ '[' ∧ c ≠ ']'
  | .bracket before _ after =>
    ∀ c ∈ before.toList ++ after.toList, c ≠ '[' ∧ c ≠ ']' ∧ ¬('A' ≤ c ∧ c ≤ 'Z')

/-- Pieces as they are written one behind the other. -/
def written : List Piece → String
  | [] => ""
  | piece :: rest => piece.written ++ written rest

/-- No literal is empty and no two literals follow each other. -/
structure Separated (pieces : List Piece) : Prop where
  solid : ∀ piece ∈ pieces, piece ≠ .literal ""
  apart : pieces.IsChain fun first second => first.isField = true ∨ second.isField = true

/-! ## Parts -/

namespace Part

def written : Part → List Char
  | .literal text => text
  | .bracket before name after => '[' :: (before ++ (name ++ (after ++ [']'])))

def isField : Part → Bool
  | .literal _ => false
  | .bracket _ _ _ => true

/-- A literal that is not empty, or a section with margins around capital letters. -/
def IsSound : Part → Prop
  | .literal text => text ≠ []
  | .bracket before name after =>
    (∀ c ∈ before, isMargin c = true) ∧ name ≠ [] ∧ (∀ c ∈ name, isCapital c = true) ∧
      ∀ c ∈ after, isMargin c = true

end Part

/-- Parts that write a text. -/
structure IsSplit (cs : List Char) (parts : List Part) : Prop where
  written : parts.flatMap Part.written = cs
  sound : ∀ part ∈ parts, part.IsSound
  apart : parts.IsChain fun first second => first.isField = true ∨ second.isField = true

theorem isMargin_iff (c : Char) :
    isMargin c = true ↔ c ≠ '[' ∧ c ≠ ']' ∧ ¬('A' ≤ c ∧ c ≤ 'Z') := by
  simp [isMargin, isCapital, and_assoc, -not_and, not_and_or]

theorem isMargin_of_isCapital {c : Char} (h : isCapital c = true) : isMargin c = false := by
  simp [isMargin, h]

theorem isCapital_of_isMargin {c : Char} (h : isMargin c = true) : isCapital c = false :=
  Bool.eq_false_iff.mpr fun hc => by simp [isMargin_of_isCapital hc] at h

/-- A run of a class ends in front of the first character that is not of it. -/
theorem span_run {p : Char → Bool} {front : List Char} (hfront : ∀ c ∈ front, p c = true)
    (rest : List Char) (hrest : ∀ c ∈ rest.head?, p c = false) :
    (front ++ rest).takeWhile p = front ∧ (front ++ rest).dropWhile p = rest := by
  rw [List.takeWhile_append_of_pos hfront, List.dropWhile_append_of_pos hfront]
  cases rest with
  | nil => exact ⟨List.append_nil _, rfl⟩
  | cons c rest =>
      have hc : p c = false := hrest c rfl
      simp [hc]

/-- A section is found where it is written. -/
theorem section?_eq_some {before name after rest : List Char}
    (h : (Part.bracket before name after).IsSound) :
    Template.section? (before ++ (name ++ (after ++ ']' :: rest))) =
      some (before, name, after, rest) := by
  obtain ⟨hbefore, hne, hname, hafter⟩ := h
  obtain ⟨c, name, rfl⟩ := List.exists_cons_of_ne_nil hne
  -- Margins end at the name, the name at its margin or the bracket, and margins there.
  have hfront := span_run hbefore (c :: name ++ (after ++ ']' :: rest)) (by
    rintro d ⟨⟩
    exact isMargin_of_isCapital (hname c (List.mem_cons_self ..)))
  have hmiddle := span_run hname (after ++ ']' :: rest) (by
    intro d hd
    cases after with
    | nil =>
        obtain rfl : ']' = d := by simpa using hd
        decide
    | cons a after =>
        obtain rfl : a = d := by simpa using hd
        exact isCapital_of_isMargin (hafter a (List.mem_cons_self ..)))
  have hend := span_run hafter (']' :: rest) (by
    rintro d ⟨⟩
    decide)
  simp only [section?, hfront.1, hfront.2, hmiddle.1, hmiddle.2, hend.1, hend.2]

/-- What is found as a section is written there. -/
theorem eq_of_section? {cs before name after rest : List Char}
    (h : section? cs = some (before, name, after, rest)) :
    (Part.bracket before name after).IsSound ∧
      cs = before ++ (name ++ (after ++ ']' :: rest)) := by
  unfold section? at h
  dsimp only at h
  split at h
  next c others others' hname hrest =>
    simp only [Option.some.injEq, Prod.mk.injEq] at h
    obtain ⟨rfl, rfl, rfl, rfl⟩ := h
    refine ⟨⟨fun _ => List.mem_takeWhile_imp, by simp [hname], fun _ => List.mem_takeWhile_imp,
      fun _ => List.mem_takeWhile_imp⟩, ?_⟩
    rw [← hrest, List.takeWhile_append_dropWhile, List.takeWhile_append_dropWhile,
      List.takeWhile_append_dropWhile]
  · cases h

namespace IsSplit

variable {cs : List Char} {parts : List Part}

theorem cons_bracket (h : IsSplit cs parts) {before name after : List Char}
    (hsound : (Part.bracket before name after).IsSound) :
    IsSplit ('[' :: (before ++ (name ++ (after ++ ']' :: cs))))
      (.bracket before name after :: parts) where
  written := by simp [Part.written, h.written]
  sound := List.forall_mem_cons.mpr ⟨hsound, h.sound⟩
  apart := List.isChain_cons.mpr ⟨fun _ _ => Or.inl rfl, h.apart⟩

theorem pushChar (h : IsSplit cs parts) (c : Char) : IsSplit (c :: cs) (pushChar c parts) := by
  cases parts with
  | nil => exact ⟨by simp [← h.written, Template.pushChar, Part.written], by
      simp [Template.pushChar, Part.IsSound], List.isChain_singleton _⟩
  | cons part parts =>
      cases part with
      | literal text =>
          refine ⟨by simp [← h.written, Template.pushChar, Part.written], ?_, ?_⟩
          · exact List.forall_mem_cons.mpr
              ⟨by simp [Part.IsSound], (List.forall_mem_cons.mp h.sound).2⟩
          · exact List.isChain_cons.mpr (List.isChain_cons.mp h.apart)
      | bracket before name after =>
          refine ⟨by simp [← h.written, Template.pushChar, Part.written], ?_, ?_⟩
          · exact List.forall_mem_cons.mpr ⟨by simp [Part.IsSound], h.sound⟩
          · exact List.isChain_cons.mpr ⟨by simp [Part.isField], h.apart⟩

end IsSplit

/-- **The parts of a text write it back.** -/
theorem isSplit_partsOf {fuel : Nat} {cs : List Char} (h : cs.length ≤ fuel) :
    IsSplit cs (partsOf fuel cs) := by
  induction fuel generalizing cs with
  | zero =>
      obtain rfl := List.length_eq_zero_iff.mp (Nat.le_zero.mp h)
      exact ⟨rfl, by simp [partsOf], by simp [partsOf]⟩
  | succ fuel ih =>
      cases cs with
      | nil => exact ⟨rfl, by simp [partsOf], by simp [partsOf]⟩
      | cons c rest =>
          have hrest : rest.length ≤ fuel := Nat.le_of_succ_le_succ h
          rw [partsOf]
          split
          next before name after behind hfound =>
            split_ifs at hfound with hc
            obtain ⟨hsound, rfl⟩ := eq_of_section? hfound
            subst hc
            have hbehind : behind.length ≤ fuel := by
              simp only [List.length_append, List.length_cons] at hrest
              omega
            exact (ih hbehind).cons_bracket hsound
          next => exact (ih hrest).pushChar c

/-! ## Pieces -/

/-- The part that a piece is read from. -/
def Piece.part : Piece → Part
  | .literal text => .literal text.toList
  | .bracket before field after => .bracket before.toList field.text.toList after.toList

theorem Piece.written_part (piece : Piece) : piece.part.written = piece.written.toList := by
  cases piece <;> simp [part, Part.written, Piece.written, String.toList_append]

theorem Piece.isField_part (piece : Piece) : piece.part.isField = piece.isField := by
  cases piece <;> rfl

theorem toList_written (pieces : List Piece) :
    (written pieces).toList = (pieces.map Piece.part).flatMap Part.written := by
  induction pieces with
  | nil => rfl
  | cons piece rest ih =>
      rw [written, String.toList_append, ih, ← Piece.written_part]
      rfl

theorem Piece.isProper_literal_iff (text : String) :
    (Piece.literal text).IsProper ↔ (Piece.literal text).hasBracket = false := by
  simp [IsProper, hasBracket, List.any_eq_false]

theorem Piece.IsProper.isSound {before after : String} {field : Field}
    (h : (Piece.bracket before field after).IsProper) :
    (Piece.bracket before field after).part.IsSound := by
  have hmargin : ∀ c ∈ before.toList ++ after.toList, isMargin c = true := fun c hc =>
    (isMargin_iff c).mpr (h c hc)
  obtain ⟨hcapital, hne⟩ := field.isCapital_of_mem_text
  exact ⟨fun c hc => hmargin c (List.mem_append_left _ hc), hne, List.all_eq_true.mp hcapital,
    fun c hc => hmargin c (List.mem_append_right _ hc)⟩

theorem piece_eq_ok_iff {part : Part} {p : Piece} : piece part = .ok p ↔ part = p.part := by
  cases part with
  | literal text => cases p <;> simp [piece, Piece.part, ← String.toList_inj]
  | bracket before name after =>
      cases p with
      | literal text =>
          rw [piece]
          split <;> simp [Piece.part]
      | bracket before' field after' =>
          rw [piece]
          constructor
          · intro h
            split at h
            next found hfound =>
              simp only [Except.ok.injEq, Piece.bracket.injEq] at h
              obtain ⟨rfl, rfl, rfl⟩ := h
              simp [Piece.part, Field.text_of_ofText? hfound]
            · cases h
          · intro h
            simp only [Piece.part, Part.bracket.injEq] at h
            obtain ⟨rfl, rfl, rfl⟩ := h
            simp [Field.ofText?_text]

/-- The pieces of parts are those that the parts are read from. -/
theorem piecesOf_eq_ok_iff {parts : List Part} {pieces : List Piece} :
    piecesOf parts = .ok pieces ↔ parts = pieces.map Piece.part := by
  induction parts generalizing pieces with
  | nil => cases pieces <;> simp [piecesOf]
  | cons part parts ih =>
      rw [piecesOf]
      constructor
      · intro h
        split at h
        · cases h
        next p hp =>
        split at h
        · cases h
        next found hfound =>
        cases h
        rw [List.map_cons, piece_eq_ok_iff.mp hp, ih.mp hfound]
      · intro h
        cases pieces with
        | nil => cases h
        | cons p rest =>
            obtain ⟨rfl, rfl⟩ := List.cons.inj h
            rw [piece_eq_ok_iff.mpr rfl, ih.mpr rfl]

/-- A text is read when its parts are those of pieces without brackets in literals, some of
them a section. -/
theorem read_eq_ok_iff {s : String} {template : Template} :
    read s = .ok template ↔
      template.text = s ∧
        partsOf s.toList.length s.toList = template.pieces.map Piece.part ∧
        template.pieces.any (·.hasBracket) = false ∧
        template.pieces.any (·.isField) = true := by
  obtain ⟨text, pieces⟩ := template
  rw [read]
  constructor
  · intro h
    split at h
    · cases h
    next found hfound =>
    split_ifs at h with hbracket hfield
    cases h
    exact ⟨rfl, piecesOf_eq_ok_iff.mp hfound, Bool.eq_false_iff.mpr hbracket, hfield⟩
  · rintro ⟨rfl, hparts, hbracket, hfield⟩
    rw [piecesOf_eq_ok_iff.mpr hparts]
    simp only [hbracket, hfield, Bool.false_eq_true, if_false, if_true]

/-- What is read is written as the text, in proper pieces that are apart. -/
theorem written_of_read {s : String} {template : Template} (h : read s = .ok template) :
    written template.pieces = s ∧ (∀ piece ∈ template.pieces, piece.IsProper) ∧
      Separated template.pieces := by
  obtain ⟨-, hparts, hbracket, -⟩ := read_eq_ok_iff.mp h
  have hsplit := isSplit_partsOf (Nat.le_refl s.toList.length)
  rw [hparts] at hsplit
  refine ⟨String.toList_injective ?_, ?_, ?_, ?_⟩
  · rw [toList_written, hsplit.written]
  · intro p hp
    have hsound := hsplit.sound _ (List.mem_map.mpr ⟨p, hp, rfl⟩)
    cases p with
    | literal text =>
        exact (Piece.isProper_literal_iff text).mpr (by simpa using List.any_eq_false.mp hbracket _ hp)
    | bracket before field after =>
        obtain ⟨hbefore, -, -, hafter⟩ := hsound
        intro c hc
        rcases List.mem_append.mp hc with hc | hc
        · exact (isMargin_iff c).mp (hbefore c hc)
        · exact (isMargin_iff c).mp (hafter c hc)
  · rintro p hp rfl
    exact hsplit.sound _ (List.mem_map.mpr ⟨_, hp, rfl⟩) rfl
  · have hapart := (List.isChain_map _).mp hsplit.apart
    simpa only [Piece.isField_part] using hapart

/-! ## Texts of proper pieces -/

theorem partsOf_bracket {before name after : List Char}
    (h : (Part.bracket before name after).IsSound) (fuel : Nat) (cs : List Char) :
    partsOf (fuel + 1) ((Part.bracket before name after).written ++ cs) =
      .bracket before name after :: partsOf fuel cs := by
  have hwritten : (Part.bracket before name after).written ++ cs =
      '[' :: (before ++ (name ++ (after ++ ']' :: cs))) := by simp [Part.written]
  rw [hwritten, partsOf, if_pos rfl, section?_eq_some h]

theorem partsOf_char {c : Char} (h : c ≠ '[') (fuel : Nat) (cs : List Char) :
    partsOf (fuel + 1) (c :: cs) = pushChar c (partsOf fuel cs) := by
  rw [partsOf, if_neg h]

/-- A text whose parts are those of proper pieces, with a section among them or not. -/
def ReadsAs (cs : List Char) (hasField : Bool) : Prop :=
  ∀ fuel, cs.length ≤ fuel → ∃ pieces : List Piece, partsOf fuel cs = pieces.map Piece.part ∧
    (∀ p ∈ pieces, p.IsProper) ∧ pieces.any (·.isField) = hasField

namespace ReadsAs

variable {cs : List Char} {hasField : Bool}

theorem nil : ReadsAs [] false := by
  intro fuel _
  refine ⟨[], ?_, by simp, rfl⟩
  cases fuel <;> rfl

/-- A character in front joins the literal behind it, or is a literal of its own. -/
theorem char (h : ReadsAs cs hasField) {c : Char} (hc : c ≠ '[' ∧ c ≠ ']') :
    ReadsAs (c :: cs) hasField := by
  intro fuel hfuel
  obtain ⟨fuel, rfl⟩ : ∃ n, fuel = n + 1 :=
    Nat.exists_eq_succ_of_ne_zero (Nat.ne_of_gt (Nat.lt_of_lt_of_le (Nat.succ_pos _) hfuel))
  obtain ⟨pieces, hparts, hproper, hfield⟩ := h fuel (Nat.le_of_succ_le_succ hfuel)
  have halone : (Piece.literal (String.ofList [c])).IsProper := by simpa [Piece.IsProper] using hc
  rw [partsOf_char hc.1, hparts]
  cases pieces with
  | nil =>
      exact ⟨[.literal (String.ofList [c])], by simp [pushChar, Piece.part], by
        simpa using halone, hfield⟩
  | cons p rest =>
      cases p with
      | literal text =>
          obtain ⟨htext, hrest⟩ := List.forall_mem_cons.mp hproper
          have hjoined : (Piece.literal (String.ofList (c :: text.toList))).IsProper := by
            simpa [Piece.IsProper] using ⟨hc, htext⟩
          exact ⟨.literal (String.ofList (c :: text.toList)) :: rest, by
            simp [pushChar, Piece.part], List.forall_mem_cons.mpr ⟨hjoined, hrest⟩, hfield⟩
      | bracket before field after =>
          exact ⟨.literal (String.ofList [c]) :: .bracket before field after :: rest, by
            simp [pushChar, Piece.part], List.forall_mem_cons.mpr ⟨halone, hproper⟩, hfield⟩

theorem literal (h : ReadsAs cs hasField) {text : List Char}
    (htext : ∀ c ∈ text, c ≠ '[' ∧ c ≠ ']') : ReadsAs (text ++ cs) hasField := by
  induction text with
  | nil => exact h
  | cons c text ih =>
      obtain ⟨hc, htext⟩ := List.forall_mem_cons.mp htext
      exact (ih htext).char hc

theorem bracket (h : ReadsAs cs hasField) {before after : String} {field : Field}
    (hproper : (Piece.bracket before field after).IsProper) :
    ReadsAs ((Piece.bracket before field after).part.written ++ cs) true := by
  intro fuel hfuel
  obtain ⟨fuel, rfl⟩ : ∃ n, fuel = n + 1 :=
    Nat.exists_eq_succ_of_ne_zero (Nat.ne_of_gt (Nat.lt_of_lt_of_le (Nat.succ_pos _) hfuel))
  obtain ⟨pieces, hparts, hpieces, -⟩ := h fuel (by
    simp only [Piece.part, Part.written, List.length_append, List.length_cons] at hfuel
    omega)
  refine ⟨.bracket before field after :: pieces, ?_, List.forall_mem_cons.mpr ⟨hproper, hpieces⟩,
    rfl⟩
  rw [List.map_cons, ← hparts]
  exact partsOf_bracket hproper.isSound fuel cs

end ReadsAs

/-- **What is written from proper pieces is read as proper pieces.** -/
theorem readsAs_written {pieces : List Piece} (h : ∀ p ∈ pieces, p.IsProper) :
    ReadsAs (written pieces).toList (pieces.any (·.isField)) := by
  induction pieces with
  | nil => exact .nil
  | cons p rest ih =>
      obtain ⟨hp, hrest⟩ := List.forall_mem_cons.mp h
      rw [written, String.toList_append, ← Piece.written_part]
      cases p with
      | literal text => exact (ih hrest).literal hp
      | bracket before field after => exact (ih hrest).bracket hp

theorem exists_read_of_written {pieces : List Piece} (h : ∀ p ∈ pieces, p.IsProper)
    (hfield : ∃ p ∈ pieces, p.isField = true) :
    ∃ template, read (written pieces) = .ok template := by
  obtain ⟨joined, hparts, hjoined, hsame⟩ := readsAs_written h _ (Nat.le_refl _)
  refine ⟨⟨written pieces, joined⟩, read_eq_ok_iff.mpr ⟨rfl, hparts, ?_, ?_⟩⟩
  · rw [List.any_eq_false]
    intro p hp
    cases p with
    | literal text => simpa using (Piece.isProper_literal_iff text).mp (hjoined _ hp)
    | bracket before field after => simp [Piece.hasBracket]
  · rw [hsame]
    exact List.any_eq_true.mpr hfield

/-- **Naming templates.** A text is read exactly when it can be written as literals without
brackets and sections of known fields, one section at least; then writing the pieces gives
the text back, no literal is empty and no two follow each other.  Any other text is an
error of the configuration. -/
theorem read_exactly (s : String) :
    ((∃ template, read s = .ok template) ↔
      ∃ pieces, (∀ p ∈ pieces, p.IsProper) ∧ (∃ p ∈ pieces, p.isField = true) ∧
        written pieces = s) ∧
    (∀ template, read s = .ok template →
      template.text = s ∧ written template.pieces = s ∧
        (∀ p ∈ template.pieces, p.IsProper) ∧ Separated template.pieces) ∧
    ∀ fault, read s = .error fault →
      (Failure.badTemplate s fault).category = .configuration := by
  refine ⟨⟨?_, ?_⟩, ?_, fun _ _ => rfl⟩
  · rintro ⟨template, h⟩
    obtain ⟨hwritten, hproper, -⟩ := written_of_read h
    exact ⟨template.pieces, hproper, List.any_eq_true.mp (read_eq_ok_iff.mp h).2.2.2, hwritten⟩
  · rintro ⟨pieces, hproper, hfield, rfl⟩
    exact exists_read_of_written hproper hfield
  · intro template h
    exact ⟨(read_eq_ok_iff.mp h).1, written_of_read h⟩

end Template
end CqlWorkload
