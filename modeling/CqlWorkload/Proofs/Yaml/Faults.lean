import CqlWorkload.Proofs.Yaml.Reads
import CqlWorkload.Yaml.Node

/-!
# Faults of a text

What may be wrong with a text that has no node comes from the text itself
(`Node.fault_of_ofText`).

**Tokens.** The tokens are read one after the other, each by a reader.

**Nodes.** What is built from tokens is refused for breaking the rules of the format, or
not built because the text is broken.
-/

namespace CqlWorkload.Yaml

open Cursor

instance : Behind Scan := ⟨fun s => s.cursor.rest⟩

/-! ## Tokens -/

namespace Scan

theorem malformed_of_freshCandidates {c : Cursor} {candidates : List (Option Candidate)}
    {fault : Fault} (h : freshCandidates c candidates = .error fault) : fault = .malformed := by
  induction candidates with
  | nil => cases h
  | cons found rest ih =>
      rcases error_of_bind h with hrest | ⟨others, -, h⟩
      · exact ih hrest
      · split at h
        · cases h
        · split at h
          · split at h <;> cases h
            rfl
          · cases h

theorem reads_dropStale (s : Scan) : Reads s.cursor.rest s.dropStale := by
  unfold dropStale
  cases h : freshCandidates s.cursor s.candidates with
  | error fault => exact malformed_of_freshCandidates h ▸ .malformed
  | ok fresh => exact .ok (List.suffix_refl _)

theorem reads_dropCandidate (s : Scan) : Reads s.cursor.rest s.dropCandidate := by
  unfold dropCandidate
  split
  · split
    · exact .malformed
    · exact .ok (List.suffix_refl _)
  · exact .ok (List.suffix_refl _)

theorem reads_addCandidate (s : Scan) : Reads s.cursor.rest s.addCandidate := by
  unfold addCandidate
  split
  · exact .returning s.reads_dropCandidate fun _ => List.suffix_refl _
  · exact .ok (List.suffix_refl _)

theorem cursor_openBlock (s : Scan) (t : Token) : (s.openBlock t).cursor = s.cursor := by
  unfold openBlock
  split <;> rfl

theorem cursor_unwind (s : Scan) : s.unwind.cursor = s.cursor := by
  unfold unwind
  split <;> rfl

theorem cursor_unwindAll (s : Scan) : s.unwindAll.cursor = s.cursor := by
  unfold unwindAll
  split <;> rfl

theorem toNext_suffix (fuel : Nat) (s : Scan) :
    (toNext fuel s).cursor.rest <:+ s.cursor.rest := by
  induction fuel generalizing s with
  | zero => exact List.suffix_refl _
  | succ fuel ih =>
      have hcomment : s.cursor.skipBlanks.skipComment.rest <:+ s.cursor.rest :=
        (skipComment_suffix _).trans s.cursor.skipBlanks_suffix
      unfold toNext
      dsimp only
      split
      · exact hcomment
      next found behind h => exact (ih _).trans ((takeBreak?_suffix h).trans hcomment)

theorem approach_suffix (s : Scan) : s.approach.cursor.rest <:+ s.cursor.rest := by
  unfold approach
  dsimp only
  refine (toNext_suffix _ _).trans ?_
  dsimp only
  split
  · exact s.cursor.next_suffix
  · exact List.suffix_refl _

theorem reads_documentMark (s : Scan) : Reads s.cursor.rest s.documentMark := by
  have hdrop := s.unwindAll.reads_dropCandidate
  rw [cursor_unwindAll] at hdrop
  exact .returning hdrop fun _ => List.suffix_refl _

theorem reads_openFlow (s : Scan) (t : Token) : Reads s.cursor.rest (s.openFlow t) :=
  .returning s.reads_addCandidate fun _ => skip_suffix 1 _

theorem reads_closeFlow (s : Scan) (t : Token) : Reads s.cursor.rest (s.closeFlow t) :=
  .bind s.reads_dropCandidate fun _ => .demand (.ok (skip_suffix 1 _))

theorem reads_comma (s : Scan) : Reads s.cursor.rest s.comma :=
  .returning s.reads_dropCandidate fun _ => skip_suffix 1 _

/-- A block may begin before an indicator. -/
theorem reads_dropCandidate_opened (s : Scan) (t : Token) :
    Reads s.cursor.rest (if s.inFlow then s else s.openBlock t).dropCandidate := by
  split
  · exact s.reads_dropCandidate
  · have hdrop := (s.openBlock t).reads_dropCandidate
    rwa [cursor_openBlock] at hdrop

theorem reads_dash (s : Scan) : Reads s.cursor.rest s.dash :=
  .demand (.returning (s.reads_dropCandidate_opened _) fun _ => skip_suffix 1 _)

theorem reads_question (s : Scan) : Reads s.cursor.rest s.question :=
  .demand (.returning (s.reads_dropCandidate_opened _) fun _ => skip_suffix 1 _)

theorem reads_colon (s : Scan) : Reads s.cursor.rest s.colon := by
  unfold colon
  split
  · refine .ok ((skip_suffix 1 _).trans ?_)
    split <;> exact List.suffix_refl _
  · refine .demand (.ok ((skip_suffix 1 _).trans ?_))
    split
    · exact List.suffix_refl _
    · exact cursor_openBlock s _ ▸ List.suffix_refl _

theorem reads_keyPart (s : Scan) {read : Cursor → Except Fault (Token × Cursor)}
    (hread : ∀ c, Reads c.rest (read c)) : Reads s.cursor.rest (s.keyPart read) :=
  .bind s.reads_addCandidate fun s => .returning (hread s.cursor) fun _ => List.suffix_refl _

theorem reads_blockScalar (s : Scan) (isFolded : Bool) :
    Reads s.cursor.rest (s.blockScalar isFolded) :=
  .bind s.reads_dropCandidate fun s =>
    .returning (Lexeme.reads_block isFolded s.level s.cursor) fun _ => List.suffix_refl _

theorem reads_plainScalar (s : Scan) : Reads s.cursor.rest s.plainScalar :=
  .bind s.reads_addCandidate fun s => .ok (Lexeme.plain_suffix s.inFlow s.level s.cursor)

theorem reads_quotedScalar (double : Bool) (c : Cursor) :
    Reads c.rest (quotedScalar double c) :=
  .returning (Lexeme.reads_quoted double c) fun _ => List.suffix_refl _

theorem reads_token (s : Scan) (ch : Char) (rest : List Char) :
    Reads s.cursor.rest (s.token ch rest) := by
  have hanchor {t : String → Token} (c : Cursor) :
      Reads c.rest ((Lexeme.anchor c).map fun found => (t found.1, found.2)) :=
    .map (Lexeme.reads_anchor c) fun _ => List.suffix_refl _
  have htag (c : Cursor) :
      Reads c.rest ((Lexeme.tag c).map fun found => (Token.tag found.1, found.2)) :=
    .map (Lexeme.reads_tag c) fun _ => List.suffix_refl _
  have hmark (t : Token) : Reads s.cursor.rest (s.documentMark.map (·.take 3 t)) :=
    .map s.reads_documentMark fun _ => skip_suffix 3 _
  unfold token
  extract_lets c atMargin
  refine .ite (.bind s.reads_documentMark fun s =>
    .returning (Lexeme.reads_directive s.cursor) fun _ => List.suffix_refl _) ?_
  refine .ite (hmark _) (.ite (hmark _) ?_)
  refine .ite (s.reads_openFlow _) (.ite (s.reads_openFlow _) ?_)
  refine .ite (s.reads_closeFlow _) (.ite (s.reads_closeFlow _) ?_)
  refine .ite s.reads_comma (.ite s.reads_dash (.ite s.reads_question (.ite s.reads_colon ?_)))
  refine .ite (s.reads_keyPart hanchor) (.ite (s.reads_keyPart hanchor) ?_)
  refine .ite (s.reads_keyPart htag) ?_
  refine .ite (s.reads_blockScalar false) (.ite (s.reads_blockScalar true) ?_)
  refine .ite (s.reads_keyPart (reads_quotedScalar false)) ?_
  exact .ite (s.reads_keyPart (reads_quotedScalar true)) (.ite s.reads_plainScalar .malformed)

theorem reads_readAll (fuel : Nat) (s : Scan) : Reads s.cursor.rest (readAll fuel s) := by
  induction fuel generalizing s with
  | zero => exact .malformed
  | succ fuel ih =>
      unfold readAll
      refine .of_suffix (.bind s.approach.reads_dropStale fun t => ?_) s.approach_suffix
      dsimp only
      split
      · have hdrop := t.unwind.unwindAll.reads_dropCandidate
        rw [cursor_unwindAll, cursor_unwind] at hdrop
        exact hdrop
      next ch rest _ =>
        have htoken := t.unwind.reads_token ch rest
        rw [cursor_unwind] at htoken
        exact .bind htoken ih

end Scan

theorem Token.fault_of_ofText {cs : List Char} {fault : Fault}
    (h : Token.ofText cs = .error fault) : fault.From cs := by
  rcases error_of_bind h with hscan | ⟨scanned, -, h⟩
  · exact (Scan.reads_readAll _ (.start cs)).fault_from hscan
  · cases h

/-! ## Nodes -/

/-- **What is wrong with a text** that has no node comes from the text itself. -/
theorem Node.fault_of_ofText {s : String} {fault : Fault} (h : ofText s = .error fault) :
    fault.From s.toList := by
  rcases error_of_bind h with hallowed | ⟨⟨⟩, -, h⟩
  · unfold Lexeme.demand at hallowed
    split at hallowed <;> cases hallowed
    exact .malformed
  · cases htokens : Token.ofText s.toList with
    | ok tokens =>
        rw [htokens] at h
        cases hnode : ofTokens tokens with
        | ok node => simp [hnode, Except.mapError] at h
        | error stop =>
            obtain rfl : .malformed = fault := by simpa [hnode, Except.mapError] using h
            exact .malformed
    | error other =>
        rw [htokens] at h
        dsimp only at h
        split at h <;> cases h
        · exact .malformed
        · exact Token.fault_of_ofText htokens

end CqlWorkload.Yaml
