import CqlWorkload.Proofs.Yaml.Allowed
import CqlWorkload.Yaml.Node

/-!
# Written documents as nodes

The tokens of a written document are built into the nodes of its values.  A text has the
tag of texts, whatever its style is: a text is written plainly only if its form is no
other.

**Fuel.** A unit for every token is enough.
-/

namespace CqlWorkload.Yaml

mutual

/-- The node of a written value. -/
def nodeOf : Value → Node
  | .text s => .scalar .text (seen s)
  | .map entries => .mapping .mapping (entryNodes entries)
  | value => .scalar (Tag.ofPlain (plainScalar value)) (plainScalar value)

def entryNodes : List (Value × Value) → List (Node × Node)
  | [] => []
  | (key, value) :: rest => (.scalar .text (seen key.plainText), nodeOf value) :: entryNodes rest

end

theorem scalarTag_textToken (s : String) :
    Node.scalarTag none (decide (Style.ofText s = .plain)) (seen s) = .text := by
  rcases Style.ofText_cases s with ⟨hs, -, htag⟩ | ⟨hs, -⟩ | hs | ⟨hs, -⟩
  · simp [Node.scalarTag, seen, hs, htag]
  · simp [Node.scalarTag, hs]
  · simp [Node.scalarTag, hs]
  · simp [Node.scalarTag, hs]

theorem isBlockGap_valueTokens (value : Value) (rest : List Token) :
    Node.isBlockGap (valueTokens value ++ rest) = false := by
  unfold valueTokens
  split <;> rfl

namespace Node

variable {handles : List (String × String)} {rest : List Token} {fuel : Nat} {block loose : Bool}

theorem build_scalar (text : String) (isPlain : Bool) (hfuel : 0 < fuel) :
    build fuel block loose ⟨.scalar text isPlain :: rest, [], handles⟩ =
      .ok (.scalar (scalarTag none isPlain text) text, ⟨rest, [], handles⟩) := by
  obtain ⟨fuel, rfl⟩ := Nat.exists_eq_succ_of_ne_zero (Nat.ne_of_gt hfuel)
  rw [build]
  rfl

theorem build_text (s : String) (hfuel : 0 < fuel) :
    build fuel block loose ⟨textToken s :: rest, [], handles⟩ =
      .ok (.scalar .text (seen s), ⟨rest, [], handles⟩) := by
  rw [textToken, build_scalar _ _ hfuel, scalarTag_textToken]

theorem build_emptyMap (hfuel : 2 ≤ fuel) :
    build fuel block loose ⟨.flowMapping :: .flowMappingEnd :: rest, [], handles⟩ =
      .ok (.mapping .mapping [], ⟨rest, [], handles⟩) := by
  obtain ⟨fuel, rfl⟩ := Nat.exists_eq_add_of_le' hfuel
  rfl

/-- A mapping in a block is built from its entries. -/
theorem build_blockMapping {tokens : List Token} {entries : List (Node × Node)}
    (h : blockEntries fuel ⟨tokens, [], handles⟩ = .ok (entries, ⟨rest, [], handles⟩)) :
    build (fuel + 1) true loose ⟨.blockMapping :: tokens, [], handles⟩ =
      .ok (.mapping .mapping entries, ⟨rest, [], handles⟩) := by
  have hentries : build (fuel + 1) true loose ⟨.blockMapping :: tokens, [], handles⟩ =
      (blockEntries fuel ⟨tokens, [], handles⟩).bind fun found =>
        .ok (.mapping .mapping found.1, found.2) := rfl
  rw [hentries, h]
  rfl

/-- An entry in a block is built from its key and its value. -/
theorem blockEntries_cons {tokens behindKey behindValue : List Token} {key value : Node}
    {entries : List (Node × Node)} (hgap : isBlockGap tokens = false)
    (hvalueGap : isBlockGap behindKey = false)
    (hkey : build (fuel + 1) true true ⟨tokens, [], handles⟩ =
      .ok (key, ⟨.value :: behindKey, [], handles⟩))
    (hvalue : build fuel true true ⟨behindKey, [], handles⟩ =
      .ok (value, ⟨behindValue, [], handles⟩))
    (hentries : blockEntries (fuel + 1) ⟨behindValue, [], handles⟩ =
      .ok (entries, ⟨rest, [], handles⟩)) :
    blockEntries (fuel + 2) ⟨.key :: tokens, [], handles⟩ =
      .ok ((key, value) :: entries, ⟨rest, [], handles⟩) := by
  have hread : blockValue (fuel + 1) ⟨.value :: behindKey, [], handles⟩ =
      .ok (value, ⟨behindValue, [], handles⟩) := by
    rw [blockValue]
    simp only [hvalueGap, Bool.false_eq_true, if_false, hvalue]
  rw [blockEntries]
  simp only [hgap, Bool.false_eq_true, if_false, hkey, hread, hentries, bind, Except.bind]
  rfl

mutual

theorem build_valueTokens {depth fuel : Nat} {loose : Bool} {rest : List Token} (value : Value)
    (h : IsDocument depth value) (hfuel : (valueTokens value).length ≤ fuel) :
    build fuel true loose ⟨valueTokens value ++ rest, [], handles⟩ =
      .ok (nodeOf value, ⟨rest, [], handles⟩) := by
  match value, h with
  | .text s, _ => exact build_text s hfuel
  | .int k, _ => exact build_scalar _ _ hfuel
  | .float x, _ => exact build_scalar _ _ hfuel
  | .map [], _ => exact build_emptyMap hfuel
  | .map (entry :: others), h =>
      match depth, h with
      | depth + 1, ⟨_, h⟩ =>
          simp only [valueTokens, List.length_cons, List.length_append, List.length_nil] at hfuel
          obtain ⟨fuel, rfl⟩ := Nat.exists_eq_succ_of_ne_zero (by omega : fuel ≠ 0)
          have hentries : blockEntries fuel
              ⟨entryTokens (entry :: others) ++ .blockEnd :: rest, [], handles⟩ =
                .ok (entryNodes (entry :: others), ⟨rest, [], handles⟩) :=
            blockEntries_entryTokens (entry :: others) h (by omega)
          have htokens : valueTokens (.map (entry :: others)) ++ rest =
              .blockMapping :: (entryTokens (entry :: others) ++ .blockEnd :: rest) := by
            rw [valueTokens]
            simp
          rw [htokens, build_blockMapping hentries]
          rfl

theorem blockEntries_entryTokens {depth fuel : Nat} {rest : List Token}
    (entries : List (Value × Value)) (h : AreEntries depth entries)
    (hfuel : (entryTokens entries).length < fuel) :
    blockEntries fuel ⟨entryTokens entries ++ .blockEnd :: rest, [], handles⟩ =
      .ok (entryNodes entries, ⟨rest, [], handles⟩) := by
  match entries, h with
  | [], _ =>
      obtain ⟨fuel, rfl⟩ := Nat.exists_eq_succ_of_ne_zero (Nat.ne_of_gt hfuel)
      rfl
  | (key, value) :: others, ⟨hkey, hdocument, hothers⟩ =>
      simp only [entryTokens, List.length_cons, List.length_append] at hfuel
      obtain ⟨fuel, rfl⟩ := Nat.exists_eq_add_of_le' (by omega : 2 ≤ fuel)
      have htokens : entryTokens ((key, value) :: others) ++ .blockEnd :: rest =
          .key :: textToken key.plainText :: .value ::
            (valueTokens value ++ (entryTokens others ++ .blockEnd :: rest)) := by
        rw [entryTokens]
        simp
      rw [htokens, entryNodes]
      exact blockEntries_cons rfl (isBlockGap_valueTokens _ _) (build_text _ (Nat.succ_pos _))
        (build_valueTokens value hdocument (by omega))
        (blockEntries_entryTokens others hothers (by omega))

end

end Node

section Write

variable {depth : Nat} {entries : List (Value × Value)}

/-- A written document is read as the node of its value if its keys are short enough. -/
theorem node_write (h : IsDocument (depth + 1) (.map entries))
    (hne : entries ≠ []) (hdepth : 2 * depth + 2 < width) (hfits : entriesFit entries = true) :
    Node.ofText (write (.map entries)) = .ok (some (nodeOf (.map entries))) := by
  obtain ⟨entry, others, rfl⟩ := List.exists_cons_of_ne_nil hne
  have hbuild : Node.build (4 * (valueTokens (.map (entry :: others))).length + 8) true false
      ⟨valueTokens (.map (entry :: others)) ++ [], [], Node.standardHandles⟩ =
        .ok (nodeOf (.map (entry :: others)), ⟨[], [], Node.standardHandles⟩) :=
    Node.build_valueTokens (.map (entry :: others)) h (by omega)
  have honly : Node.only Node.standardHandles (valueTokens (.map (entry :: others))) =
      .ok (nodeOf (.map (entry :: others))) := by
    rw [List.append_nil] at hbuild
    rw [Node.only, hbuild]
    rfl
  have htokens : Node.ofTokens (valueTokens (.map (entry :: others))) =
      (Node.only Node.standardHandles (valueTokens (.map (entry :: others)))).map some := rfl
  rw [Node.ofText, tokens_write h.2 hne hdepth hfits, allAllowed_write h.2 hne]
  simp only [bind, Except.bind, Lexeme.demand, if_true]
  rw [htokens, honly]
  rfl

/-- If a key of a written document is too long, the document is no node. -/
theorem node_write_ne_ok (h : IsDocument (depth + 1) (.map entries))
    (hne : entries ≠ []) (hdepth : 2 * depth + 2 < width) (hfits : entriesFit entries = false)
    (node : Option Node) : Node.ofText (write (.map entries)) ≠ .ok node := by
  have htokens := tokens_write_ne_ok h.2 hne hdepth hfits
  rw [Node.ofText, allAllowed_write h.2 hne]
  cases hall : Token.ofText (write (.map entries)).toList with
  | error fault =>
      simp only [bind, Except.bind, Lexeme.demand, if_true]
      cases Node.ofTokens (Token.ofBroken (write (.map entries)).toList) with
      | ok found => simp
      | error stop => cases stop <;> simp
  | ok ts => exact absurd hall (htokens ts)

end Write

end CqlWorkload.Yaml
