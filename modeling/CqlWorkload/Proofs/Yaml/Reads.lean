import CqlWorkload.Proofs.Number.Digit
import CqlWorkload.Proofs.Yaml.Cursor

/-!
# Readers of lexemes

A lexeme is read from the front of a text.  Its reader leaves the cursor behind what it has
read, and what it may fail with, besides that the text breaks the rules of the format, is
found in the text itself: an escape for a code that is none of a character or one half of
a pair of surrogates, or a number with too many digits (`Fault.From`).

**Readers.** `Reads` says both of a reader.  Readers one after the other are one reader
(`Reads.bind`).
-/

namespace CqlWorkload.Yaml

/-! ## Cursors move forward -/

namespace Cursor

theorem next_suffix (c : Cursor) : c.next.rest <:+ c.rest := by
  unfold next
  split
  next h => exact List.suffix_refl _
  next ch rest h =>
    rw [h]
    split
    · exact List.suffix_cons ch rest
    · split <;> exact List.suffix_cons ch rest

theorem skip_suffix (n : Nat) (c : Cursor) : (skip n c).rest <:+ c.rest := by
  induction n generalizing c with
  | zero => exact List.suffix_refl _
  | succ n ih => exact (ih c.next).trans c.next_suffix

theorem skipWhile_suffix (c : Cursor) (p : Char → Bool) : (c.skipWhile p).rest <:+ c.rest :=
  skip_suffix _ c

theorem skipBlanks_suffix (c : Cursor) : c.skipBlanks.rest <:+ c.rest := c.skipWhile_suffix _

theorem skipIndent_suffix (c : Cursor) (indent : Nat) : (c.skipIndent indent).rest <:+ c.rest :=
  skip_suffix _ c

theorem skipComment_suffix (c : Cursor) : c.skipComment.rest <:+ c.rest := by
  unfold skipComment
  split
  · exact c.skipWhile_suffix _
  · exact List.suffix_refl _

theorem takeBreak?_suffix {c behind : Cursor} {found : Char}
    (h : c.takeBreak? = some (found, behind)) : behind.rest <:+ c.rest := by
  unfold takeBreak? at h
  split at h
  · cases h
  · split at h
    · cases h
      exact c.next_suffix
    · cases h

end Cursor

open Cursor

namespace Lexeme

theorem plainBreaks_suffix (fuel : Nat) (c : Cursor) :
    (plainBreaks fuel c).2.rest <:+ c.rest := by
  induction fuel generalizing c with
  | zero => exact List.suffix_refl _
  | succ fuel ih =>
      unfold plainBreaks
      dsimp only
      split
      · exact c.skipBlanks_suffix
      next found behind h =>
        have hbehind := (takeBreak?_suffix h).trans c.skipBlanks_suffix
        split
        · exact hbehind
        · exact (ih behind).trans hbehind

theorem plainGap_suffix (c : Cursor) : (plainGap c).2.2.rest <:+ c.rest := by
  unfold plainGap
  dsimp only
  split
  · exact c.skipBlanks_suffix
  next first behind h =>
    have hbehind := (takeBreak?_suffix h).trans c.skipBlanks_suffix
    have hbreaks := (plainBreaks_suffix (behind.rest.length + 1) behind).trans hbehind
    split
    · exact hbehind
    · split <;> simpa only [*] using hbreaks

theorem plainFrom_suffix (inFlow : Bool) (level fuel : Nat) (crossed : Bool) (gap : List Char)
    (c : Cursor) : (plainFrom inFlow level fuel crossed gap c).2.2.rest <:+ c.rest := by
  induction fuel generalizing crossed gap c with
  | zero => exact List.suffix_refl _
  | succ fuel ih =>
      unfold plainFrom
      extract_lets found
      split
      · exact List.suffix_refl _
      · have hbehind := (plainGap_suffix (skip found.length c)).trans (skip_suffix _ c)
        rcases hgap : plainGap (skip found.length c) with ⟨next, crossed, behind⟩
        rw [hgap] at hbehind
        dsimp only
        split
        · exact hbehind
        · have hrest := (ih crossed next behind).trans hbehind
          rcases hfrom : plainFrom inFlow level fuel crossed next behind with ⟨text, last, end'⟩
          rwa [hfrom] at hrest

theorem plain_suffix (inFlow : Bool) (level : Nat) (c : Cursor) :
    (plain inFlow level c).2.2.rest <:+ c.rest :=
  plainFrom_suffix inFlow level _ false [] c

theorem leadingLines_suffix (fuel deepest : Nat) (c : Cursor) :
    (leadingLines fuel deepest c).2.2.rest <:+ c.rest := by
  induction fuel generalizing deepest c with
  | zero => exact List.suffix_refl _
  | succ fuel ih =>
      unfold leadingLines
      dsimp only
      split
      · exact c.skipBlanks_suffix
      next found behind h =>
        exact (ih _ behind).trans ((takeBreak?_suffix h).trans c.skipBlanks_suffix)

theorem blockBreaks_suffix (indent fuel : Nat) (c : Cursor) :
    (blockBreaks indent fuel c).2.rest <:+ c.rest := by
  induction fuel generalizing c with
  | zero => exact List.suffix_refl _
  | succ fuel ih =>
      unfold blockBreaks
      dsimp only
      split
      · exact c.skipIndent_suffix indent
      next found behind h =>
        exact (ih behind).trans ((takeBreak?_suffix h).trans (c.skipIndent_suffix indent))

theorem blockLines_suffix (isFolded : Bool) (indent fuel : Nat) (before : List Char)
    (c : Cursor) : (blockLines isFolded indent fuel before c).2.2.2.rest <:+ c.rest := by
  induction fuel generalizing before c with
  | zero => exact List.suffix_refl _
  | succ fuel ih =>
      unfold blockLines
      dsimp only
      split
      · exact List.suffix_refl _
      · generalize hline : skip (c.run (!isBreak ·)).length c = ending
        have hending : ending.next.rest <:+ c.rest :=
          ending.next_suffix.trans (hline ▸ skip_suffix _ c)
        have hbreaks :=
          (blockBreaks_suffix indent (ending.rest.length + 1) ending.next).trans hending
        rcases hb : blockBreaks indent (ending.rest.length + 1) ending.next with ⟨others, behind⟩
        rw [hb] at hbreaks
        dsimp only
        split
        · exact (ih others behind).trans hbreaks
        · exact hbreaks

end Lexeme

/-! ## Readers -/

/-- What may be wrong with a text while its tokens are read. -/
inductive Fault.From (cs : List Char) : Fault → Prop
  | malformed : From cs .malformed
  /-- A code that is escaped is none of a character. -/
  | code {after : List Char} {code : Nat} {fault : Fault} (h : '\\' :: 'U' :: after <:+ cs)
      (hcode : Lexeme.hexNumber? 8 after = some code)
      (hlarge : 0x110000 ≤ code) (hfault : Lexeme.charOfCode code = .error fault) : From cs fault
  /-- A code that is escaped is one half of a pair of surrogates. -/
  | surrogate {letter : Char} {after : List Char} {count code : Nat}
      (h : '\\' :: letter :: after <:+ cs) (hletter : Lexeme.codeLength letter = some count)
      (hcode : Lexeme.hexNumber? count after = some code)
      (hhalf : 0xd800 ≤ code ∧ code ≤ 0xdfff) : From cs .unsupported
  /-- A number has too many digits. -/
  | number {digits : List Char} (h : digits <:+: cs) (hdigits : ∀ c ∈ digits, c.isDigit = true)
      (hcount : Digit.limit < digits.length) : From cs (.tooManyDigits digits.length)

theorem Fault.From.of_suffix {cs text : List Char} {fault : Fault} (h : fault.From cs)
    (hs : cs <:+ text) : fault.From text := by
  cases h with
  | malformed => exact .malformed
  | code h hcode hlarge hfault => exact .code (h.trans hs) hcode hlarge hfault
  | surrogate h hletter hcode hhalf => exact .surrogate (h.trans hs) hletter hcode hhalf
  | number h hdigits hcount => exact .number (h.trans hs.isInfix) hdigits hcount

/-- What a reader leaves of a text. -/
class Behind (α : Type) where
  rest : α → List Char

instance : Behind Cursor := ⟨Cursor.rest⟩

instance {α : Type} : Behind (α × Cursor) := ⟨fun found => found.2.rest⟩

/-- What is read from the front of a text leaves a rest of it, or fails for a fault that
comes from it. -/
inductive Reads {α : Type} [Behind α] (cs : List Char) : Except Fault α → Prop
  | ok {a : α} (h : Behind.rest a <:+ cs) : Reads cs (.ok a)
  | error {fault : Fault} (h : fault.From cs) : Reads cs (.error fault)

/-- One after the other fails where the first or the second fails. -/
theorem error_of_bind {α β : Type} {found : Except Fault α} {f : α → Except Fault β}
    {fault : Fault} (h : found >>= f = .error fault) :
    found = .error fault ∨ ∃ a, found = .ok a ∧ f a = .error fault := by
  cases found with
  | ok a => exact Or.inr ⟨a, rfl, h⟩
  | error other =>
      cases h
      exact Or.inl rfl

namespace Reads

variable {α β : Type} [Behind α] [Behind β] {cs text : List Char}

theorem malformed : Reads cs (.error .malformed : Except Fault α) := .error .malformed

theorem fault_from {found : Except Fault α} (h : Reads cs found) {fault : Fault}
    (he : found = .error fault) : fault.From cs := by
  cases h with
  | ok h => cases he
  | error h =>
      cases he
      exact h

theorem of_suffix {found : Except Fault α} (h : Reads cs found) (hs : cs <:+ text) :
    Reads text found := by
  cases h with
  | ok h => exact .ok (h.trans hs)
  | error h => exact .error (h.of_suffix hs)

theorem bind {found : Except Fault α} {f : α → Except Fault β} (h : Reads cs found)
    (hf : ∀ a, Reads (Behind.rest a) (f a)) : Reads cs (found >>= f) := by
  cases h with
  | ok h => exact (hf _).of_suffix h
  | error h => exact .error h

/-- What is done with what was read does not matter. -/
theorem returning {found : Except Fault α} {g : α → β} (h : Reads cs found)
    (hg : ∀ a, Behind.rest (g a) <:+ Behind.rest a) :
    Reads cs (found >>= fun a => pure (g a)) :=
  h.bind fun a => .ok (hg a)

theorem map {found : Except Fault α} {g : α → β} (h : Reads cs found)
    (hg : ∀ a, Behind.rest (g a) <:+ Behind.rest a) : Reads cs (found.map g) := by
  cases h with
  | ok h => exact .ok ((hg _).trans h)
  | error h => exact .error h

theorem ite {p : Prop} [Decidable p] {yes no : Except Fault α} (hyes : Reads cs yes)
    (hno : Reads cs no) : Reads cs (if p then yes else no) := by
  split
  · exact hyes
  · exact hno

theorem demand {condition : Bool} {found : Except Fault α} (h : Reads cs found) :
    Reads cs (Lexeme.demand condition >>= fun _ => found) := by
  cases condition with
  | true => exact h
  | false => exact .malformed

end Reads

/-! ## Lexemes -/

namespace Lexeme

theorem reads_quotedBreaks (fuel : Nat) (c : Cursor) : Reads c.rest (quotedBreaks fuel c) := by
  induction fuel generalizing c with
  | zero => exact .malformed
  | succ fuel ih =>
      unfold quotedBreaks
      split
      · exact .malformed
      · dsimp only
        split
        · exact .ok (c.skipWhile_suffix _)
        next found behind h =>
          exact .of_suffix (.returning (ih behind) fun _ => List.suffix_refl _)
            ((takeBreak?_suffix h).trans (c.skipWhile_suffix _))

theorem reads_quotedGap (c : Cursor) : Reads c.rest (quotedGap c) := by
  unfold quotedGap
  dsimp only
  split
  · exact .ok (c.skipWhile_suffix _)
  next first behind h =>
    exact .of_suffix (.returning (reads_quotedBreaks _ behind) fun _ => List.suffix_refl _)
      ((takeBreak?_suffix h).trans (c.skipWhile_suffix _))

theorem charOfCode_eq_error {code : Nat} {fault : Fault} (h : charOfCode code = .error fault) :
    0x110000 ≤ code ∨ (0xd800 ≤ code ∧ code ≤ 0xdfff) ∧ fault = .unsupported := by
  unfold charOfCode at h
  split at h
  next hhalf =>
    cases h
    exact Or.inr ⟨hhalf, rfl⟩
  · split at h
    · cases h
    next hlarge => exact Or.inl (Nat.not_lt.mp hlarge)

/-- Only the longest escapes have codes that are none of a character. -/
theorem eq_of_codeLength {letter : Char} {count code : Nat} {cs : List Char}
    (hletter : codeLength letter = some count) (hcode : hexNumber? count cs = some code)
    (hlarge : 0x110000 ≤ code) : letter = 'U' ∧ count = 8 := by
  have hlt : code < 16 ^ count := by
    simp only [hexNumber?] at hcode
    split at hcode
    next hlength => exact hlength ▸ Digit.number?_lt hcode
    · cases hcode
  unfold codeLength at hletter
  split at hletter
  · cases hletter
    omega
  · cases hletter
    omega
  · cases hletter
    exact ⟨rfl, rfl⟩
  · cases hletter

theorem reads_escape (c : Cursor) : Reads ('\\' :: c.rest) (escape c) := by
  have hcons : c.rest <:+ '\\' :: c.rest := List.suffix_cons _ _
  unfold escape
  split
  · exact .malformed
  next letter rest hrest =>
    split
    · exact .ok (c.next_suffix.trans hcons)
    next count _ hletter =>
      split
      · exact .malformed
      next code hcode =>
        cases hchar : charOfCode code with
        | error fault =>
            rcases charOfCode_eq_error hchar with hlarge | ⟨hhalf, rfl⟩
            · obtain ⟨rfl, rfl⟩ := eq_of_codeLength hletter hcode hlarge
              exact .error (.code (hrest ▸ List.suffix_refl _) hcode hlarge hchar)
            · exact .error (.surrogate (hrest ▸ List.suffix_refl _) hletter hcode hhalf)
        | ok ch => exact .ok ((skip_suffix _ c).trans hcons)
    · split
      · exact .malformed
      next found behind h =>
        exact .of_suffix (reads_quotedBreaks _ behind) ((takeBreak?_suffix h).trans hcons)

theorem reads_quotedFrom (double : Bool) (fuel : Nat) (c : Cursor) :
    Reads c.rest (quotedFrom double fuel c) := by
  induction fuel generalizing c with
  | zero => exact .malformed
  | succ fuel ih =>
      have hrest {behind : Cursor} (hb : behind.rest <:+ c.rest) {g : List Char → List Char} :
          Reads c.rest (quotedFrom double fuel behind >>= fun found =>
            pure (g found.1, found.2)) :=
        .of_suffix (.returning (ih behind) fun _ => List.suffix_refl _) hb
      unfold quotedFrom
      split
      · exact .malformed
      next ch rest hc =>
        by_cases hquote : ch = if double then '"' else '\''
        · rw [if_pos hquote]
          split
          · exact hrest (skip_suffix 2 c)
          · exact .ok c.next_suffix
        · rw [if_neg hquote]
          split
          · exact .bind (reads_quotedGap c) fun gap =>
              .returning (ih gap.2) fun _ => List.suffix_refl _
          · split
            next hescape =>
              have hch : ch = '\\' := by simpa using (Bool.and_eq_true_iff.mp hescape).2
              have hnext : '\\' :: c.next.rest = c.rest := by rw [rest_next hc, hc, hch]
              refine .bind (hnext ▸ reads_escape c.next) fun value => ?_
              exact .returning (ih value.2) fun _ => List.suffix_refl _
            · exact hrest c.next_suffix

theorem reads_quoted (double : Bool) (c : Cursor) : Reads c.rest (quoted double c) :=
  (reads_quotedFrom double _ c.next).of_suffix c.next_suffix

theorem reads_depthMark (c : Cursor) : Reads c.rest (depthMark c) := by
  unfold depthMark
  split
  · exact .ok (List.suffix_refl _)
  · exact .malformed
  · exact .ok c.next_suffix

theorem reads_blockMarks (c : Cursor) : Reads c.rest (blockMarks c) := by
  unfold blockMarks
  split
  · exact .of_suffix (.returning (reads_depthMark c.next) fun _ => List.suffix_refl _)
      c.next_suffix
  · refine .bind (reads_depthMark c) fun found => ?_
    obtain ⟨depth, behind⟩ := found
    dsimp only
    split
    · exact .ok behind.next_suffix
    · exact .ok (List.suffix_refl _)

theorem reads_lineEnd (c : Cursor) : Reads c.rest (lineEnd c) :=
  .demand (.ok ((next_suffix _).trans ((skipComment_suffix _).trans c.skipBlanks_suffix)))

theorem reads_block (isFolded : Bool) (level : Nat) (c : Cursor) :
    Reads c.rest (block isFolded level c) := by
  refine .of_suffix (.bind (reads_blockMarks c.next) fun marks =>
    .demand (.bind (reads_lineEnd marks.2) fun behind => ?_)) c.next_suffix
  obtain ⟨⟨chomp, depth⟩, marked⟩ := marks
  cases depth with
  | none =>
      dsimp only
      exact .ok ((blockLines_suffix ..).trans (leadingLines_suffix _ 0 behind))
  | some depth =>
      dsimp only
      exact .ok ((blockLines_suffix ..).trans (blockBreaks_suffix _ _ behind))

theorem reads_anchor (c : Cursor) : Reads c.rest (anchor c) :=
  .demand (.ok ((skipWhile_suffix _ _).trans c.next_suffix))

theorem reads_uriBytes (fuel : Nat) (c : Cursor) : Reads c.rest (uriBytes fuel c) := by
  induction fuel generalizing c with
  | zero => exact .ok (List.suffix_refl _)
  | succ fuel ih =>
      unfold uriBytes
      split
      · split
        · exact .malformed
        · exact .of_suffix (.returning (ih _) fun _ => List.suffix_refl _) (skip_suffix 3 c)
      · exact .ok (List.suffix_refl _)

theorem reads_uriFrom (fuel : Nat) (c : Cursor) : Reads c.rest (uriFrom fuel c) := by
  induction fuel generalizing c with
  | zero => exact .ok (List.suffix_refl _)
  | succ fuel ih =>
      unfold uriFrom
      split
      · exact .ok (List.suffix_refl _)
      · split
        · refine .bind (reads_uriBytes _ c) fun bytes => ?_
          dsimp only
          split
          · exact .malformed
          · exact .returning (ih bytes.2) fun _ => List.suffix_refl _
        · split
          · exact .of_suffix (.returning (ih c.next) fun _ => List.suffix_refl _) c.next_suffix
          · exact .ok (List.suffix_refl _)

theorem reads_uri (c : Cursor) : Reads c.rest (uri c) :=
  .bind (reads_uriFrom _ c) fun _ => .demand (.ok (List.suffix_refl _))

theorem reads_handle (c : Cursor) : Reads c.rest (handle c) := by
  refine .demand ?_
  dsimp only
  split
  · exact .ok c.next_suffix
  · exact .demand (.ok ((next_suffix _).trans ((skipWhile_suffix _ _).trans c.next_suffix)))

theorem reads_tag (c : Cursor) : Reads c.rest (tag c) := by
  unfold tag
  extract_lets inner finish
  have hinner : inner.rest <:+ c.rest := c.next_suffix
  have hfinish (found : WrittenTag × Cursor) :
      Reads (Behind.rest found) (pure found >>= finish) :=
    .demand (.ok (List.suffix_refl _))
  split
  · refine .of_suffix (.bind (reads_uri inner.next) fun suffix => .demand ?_)
      (inner.next_suffix.trans hinner)
    exact .of_suffix (hfinish _) suffix.2.next_suffix
  · split
    · exact .of_suffix (hfinish _) hinner
    · split
      · exact .bind (reads_handle c) fun handle =>
          .bind (reads_uri handle.2) fun suffix => hfinish (⟨some handle.1, suffix.1⟩, suffix.2)
      · exact .of_suffix (.bind (reads_uri inner) fun suffix =>
          hfinish (⟨some "!", suffix.1⟩, suffix.2)) hinner

theorem reads_number (c : Cursor) : Reads c.rest (number c) := by
  have hdigits : ∀ d ∈ c.run Char.isDigit, d.isDigit = true := fun d hd =>
    List.all_eq_true.mp List.all_takeWhile d hd
  have hprefix : c.run Char.isDigit <:+: c.rest := (List.takeWhile_prefix _).isInfix
  unfold number
  refine .demand ?_
  dsimp only
  split
  next hcount => exact .error (.number hprefix hdigits hcount)
  · exact .ok (c.skipWhile_suffix _)

theorem reads_version (c : Cursor) : Reads c.rest (version c) :=
  .of_suffix (.bind (reads_number c.skipBlanks) fun major => .demand <|
    .of_suffix (.bind (reads_number major.2.next) fun _ => .demand (.ok (List.suffix_refl _)))
      major.2.next_suffix) c.skipBlanks_suffix

theorem reads_handleFor (c : Cursor) : Reads c.rest (handleFor c) :=
  .of_suffix (.bind (reads_handle c.skipBlanks) fun name => .demand <|
    .of_suffix (.bind (reads_uri name.2.skipBlanks) fun _ => .demand (.ok (List.suffix_refl _)))
      name.2.skipBlanks_suffix) c.skipBlanks_suffix

theorem reads_directive (c : Cursor) : Reads c.rest (directive c) := by
  unfold directive
  extract_lets name behind finish
  have hbehind : behind.rest <:+ c.rest := (skipWhile_suffix _ _).trans c.next_suffix
  refine .demand (.of_suffix ?_ hbehind)
  have hfinish (found : Directive × Cursor) : Reads (Behind.rest found) (finish found) :=
    .returning (reads_lineEnd found.2) fun _ => List.suffix_refl _
  split
  · exact .bind (reads_version behind) hfinish
  · exact .bind (reads_handleFor behind) hfinish
  · exact .of_suffix (hfinish (.other, behind.skipWhile (!isBreak ·))) (behind.skipWhile_suffix _)

end Lexeme

end CqlWorkload.Yaml
