import CqlWorkload.Proofs.Json.Storable
import CqlWorkload.Proofs.Yaml.Node
import CqlWorkload.Proofs.Yaml.Number
import CqlWorkload.Yaml.Reader

/-!
# Reading written documents

Reading the text of a document gives a document again, which `reread` describes without
any text, unless a key is too long for its colon to be found (`read_write`).

**What is lost.** Numbers are kept, and so are texts, except that a next-line character
in single quotes or in a literal block counts as the end of a line.  A document with
different keys comes back exactly when all its texts are kept (`read_write_iff`).
-/

namespace CqlWorkload.Yaml

mutual

/-- The value that a written document is read as. -/
def reread : Value → Value
  | .text s => .text (seen s)
  | .map entries => Node.mappingOf (rereadEntries entries)
  | value => value

def rereadEntries : List (Value × Value) → List (Value × Value)
  | [] => []
  | (key, value) :: rest => (.text (seen key.plainText), reread value) :: rereadEntries rest

end

namespace Node

theorem together_fine {α : Type} (parts : List α) :
    together (parts.map Leveled.fine) = .fine parts := by
  induction parts with
  | nil => rfl
  | cons part parts ih =>
      rw [List.map_cons, together, ih]
      rfl

theorem toValue_scalar {tag : Tag} {text : String} {value : Value} (level : Nat)
    (h : Scalar.value tag text = .ok value) : toValue level (.scalar tag text) = .fine value := by
  have hparts : hasParts tag = false := by
    cases tag <;> first
      | rfl
      | simp [Scalar.value] at h
  have hscalar : toValue level (.scalar tag text) =
      if hasParts tag then .faulty (level + 1) .malformed
      else scalarValue level (.scalar tag text) := rfl
  have htext : scalarValue level (.scalar tag text) =
      .atLevel level (Scalar.value tag text) := rfl
  rw [hscalar, hparts, htext, h]
  rfl

mutual

theorem toValue_nodeOf {depth : Nat} (value : Value) (h : IsDocument depth value) (level : Nat) :
    toValue level (nodeOf value) = .fine (reread value) := by
  match value, h with
  | .text s, _ => exact toValue_scalar level rfl
  | .int n, h => exact toValue_scalar level (value_int h)
  | .float x, _ => exact toValue_scalar level (value_float x)
  | .map [], _ => rfl
  | .map (entry :: others), h =>
      match depth, h with
      | depth + 1, ⟨_, h⟩ =>
          have hentries := entryValues_entryNodes (entry :: others) h (level + 1)
          rw [nodeOf, toValue, hentries]
          simp only [List.nil_append, together_fine]
          rfl

theorem entryValues_entryNodes {depth : Nat} (entries : List (Value × Value))
    (h : AreEntries depth entries) (level : Nat) :
    entryValues level (entryNodes entries) =
      .ok ([], (rereadEntries entries).map Leveled.fine) := by
  match entries, h with
  | [], _ => rfl
  | (key, value) :: others, ⟨hkey, hdocument, hothers⟩ =>
      have hvalue := toValue_nodeOf value hdocument level
      have hentries := entryValues_entryNodes others hothers level
      rw [entryNodes, entryValues, hentries, hvalue]
      rfl

end

/-- The form of a text asks for no value that this library has none of. -/
theorem supported_ofPlain (s : String) :
    (Tag.ofPlain s).isFinished = true ∧ (Tag.ofPlain s).isSupported = true := by
  unfold Tag.ofPlain
  extract_lets cs
  repeat (split; · exact ⟨rfl, rfl⟩)
  exact ⟨rfl, rfl⟩

section Tags

variable {p : Tag → Bool}

mutual

theorem allTags_nodeOf (hform : ∀ s, p (Tag.ofPlain s) = true) (htext : p .text = true)
    (hmapping : p .mapping = true) (value : Value) : allTags p (nodeOf value) = true := by
  match value with
  | .map entries =>
      rw [nodeOf, allTags, hmapping, entryTags_entryNodes hform htext hmapping entries]
      rfl
  | .text _ => exact htext
  | .null | .bool _ | .int _ | .float _ | .list _ | .moment _ =>
      rw [nodeOf]
      · exact hform _
      all_goals nofun

theorem entryTags_entryNodes (hform : ∀ s, p (Tag.ofPlain s) = true) (htext : p .text = true)
    (hmapping : p .mapping = true) (entries : List (Value × Value)) :
    entryTags p (entryNodes entries) = true := by
  match entries with
  | [] => rfl
  | (key, value) :: others =>
      rw [entryNodes, entryTags, allTags_nodeOf hform htext hmapping value,
        entryTags_entryNodes hform htext hmapping others, allTags, htext]
      rfl

end

end Tags

end Node

/-! ## Texts that are kept -/

mutual

/-- Is every text of a value read as itself? -/
def isKept : Value → Bool
  | .text s => isKeptText s
  | .map entries => entriesKept entries
  | _ => true

def entriesKept : List (Value × Value) → Bool
  | [] => true
  | (key, value) :: rest =>
    isKeptText key.plainText && isKept value && entriesKept rest

end

theorem length_putKey_le (before : List (Value × Value)) (key value : Value) :
    (Value.putKey before key value).length ≤ before.length + 1 := by
  induction before with
  | nil => exact Nat.le_refl _
  | cons entry before ih =>
      obtain ⟨old, there⟩ := entry
      rw [Value.putKey]
      split
      · exact Nat.le_succ _
      · exact Nat.succ_le_succ ih

/-- A key that makes the entries more is put at their end. -/
theorem putKey_of_length {before : List (Value × Value)} {key value : Value}
    (h : (Value.putKey before key value).length = before.length + 1) :
    Value.putKey before key value = before ++ [(key, value)] := by
  induction before with
  | nil => rfl
  | cons entry before ih =>
      obtain ⟨old, there⟩ := entry
      rw [Value.putKey] at h ⊢
      split at h
      · simp at h
      · next hkey =>
          rw [if_neg hkey, ih (by simpa using h)]
          rfl

/-- Put entries on top of the entries before them. -/
def putAll (before entries : List (Value × Value)) : List (Value × Value) :=
  entries.foldl (fun found entry => Value.putKey found entry.1 entry.2) before

theorem length_putAll_le (before entries : List (Value × Value)) :
    (putAll before entries).length ≤ before.length + entries.length := by
  induction entries generalizing before with
  | nil => exact Nat.le_refl _
  | cons entry entries ih =>
      have hput := length_putKey_le before entry.1 entry.2
      have hall := ih (Value.putKey before entry.1 entry.2)
      rw [List.length_cons]
      exact Nat.le_trans hall (by omega)

/-- Entries that are all there in the end have been put one behind the other. -/
theorem putAll_of_length {before entries : List (Value × Value)}
    (h : (putAll before entries).length = before.length + entries.length) :
    putAll before entries = before ++ entries := by
  induction entries generalizing before with
  | nil => exact (List.append_nil before).symm
  | cons entry entries ih =>
      have hput := length_putKey_le before entry.1 entry.2
      have hall := length_putAll_le (Value.putKey before entry.1 entry.2) entries
      have hcons : putAll before (entry :: entries) =
          putAll (Value.putKey before entry.1 entry.2) entries := rfl
      rw [hcons, List.length_cons] at h
      have hlength : (Value.putKey before entry.1 entry.2).length = before.length + 1 := by omega
      rw [hcons, ih (by omega), putKey_of_length hlength, List.append_assoc]
      rfl

theorem putAll_of_keyed {before entries : List (Value × Value)}
    (h : Value.Keyed (before ++ entries)) : putAll before entries = before ++ entries := by
  induction entries generalizing before with
  | nil => exact (List.append_nil before).symm
  | cons entry entries ih =>
      obtain ⟨key, value⟩ := entry
      obtain ⟨s, hs⟩ := h.1 (key, value) (by simp)
      dsimp only at hs
      subst hs
      have hsplit : before ++ (.text s, value) :: entries =
          before ++ [(.text s, value)] ++ entries := by simp
      rw [hsplit] at h ⊢
      have hput := Value.putKey_of_keyed value h.of_append
      have hcons : putAll before ((.text s, value) :: entries) =
          putAll (Value.putKey before (.text s) value) entries := rfl
      rw [hcons, hput, ih h]

/-- Entries that replace others one by one are read as they are only if nothing changed. -/
theorem mappingOf_eq_iff {entries found : List (Value × Value)} (h : Value.Keyed entries)
    (hlength : found.length = entries.length) :
    Node.mappingOf found = .map entries ↔ found = entries := by
  have hmapping : Node.mappingOf found = .map (putAll [] found) := rfl
  rw [hmapping, Value.map.injEq]
  constructor
  · intro heq
    have hall := putAll_of_length
      (by rw [heq, hlength, List.length_nil, Nat.zero_add])
    rw [← heq, hall, List.nil_append]
  · rintro rfl
    exact putAll_of_keyed h

theorem length_rereadEntries (entries : List (Value × Value)) :
    (rereadEntries entries).length = entries.length := by
  induction entries with
  | nil => rfl
  | cons entry entries ih => rw [rereadEntries, List.length_cons, List.length_cons, ih]

theorem AreEntries.texts {depth : Nat} {entries : List (Value × Value)}
    (h : AreEntries depth entries) : ∀ entry ∈ entries, ∃ s, entry.1 = .text s := by
  induction entries with
  | nil => simp
  | cons entry entries ih =>
      obtain ⟨key, value⟩ := entry
      obtain ⟨hkey, -, hothers⟩ := h
      intro entry hentry
      rcases List.mem_cons.mp hentry with rfl | hentry
      · exact ⟨_, hkey⟩
      · exact ih hothers entry hentry

mutual

/-- A document comes back as it was if and only if all its texts do. -/
theorem reread_eq_self_iff {depth : Nat} (value : Value) (h : IsDocument depth value) :
    reread value = value ↔ isKept value = true := by
  match value, h with
  | .text s, _ => simp [reread, isKept, seen_eq_self_iff]
  | .int n, _ => simp [reread, isKept]
  | .float x, _ => simp [reread, isKept]
  | .map [], _ => exact ⟨fun _ => rfl, fun _ => rfl⟩
  | .map (entry :: others), h =>
      match depth, h with
      | depth + 1, ⟨hkeys, h⟩ =>
          have hkeyed : Value.Keyed (entry :: others) := ⟨h.texts, hkeys⟩
          rw [reread, mappingOf_eq_iff hkeyed (length_rereadEntries _), isKept]
          exact rereadEntries_eq_self_iff (entry :: others) h

theorem rereadEntries_eq_self_iff {depth : Nat} (entries : List (Value × Value))
    (h : AreEntries depth entries) :
    rereadEntries entries = entries ↔ entriesKept entries = true := by
  match entries, h with
  | [], _ => simp [rereadEntries, entriesKept]
  | (key, value) :: others, ⟨hkey, hdocument, hothers⟩ =>
      have hvalue := reread_eq_self_iff value hdocument
      have hentries := rereadEntries_eq_self_iff others hothers
      have htext : Value.text (seen key.plainText) = key ↔ isKeptText key.plainText = true := by
        rw [hkey]
        simp [Value.plainText, seen_eq_self_iff]
      simp only [rereadEntries, List.cons.injEq, Prod.mk.injEq, htext, hvalue, hentries,
        entriesKept, Bool.and_eq_true, and_assoc]

end

section Write

variable {depth : Nat} {entries : List (Value × Value)}

/-- **Reading a written document.** -/
theorem read_write (h : IsDocument (depth + 1) (.map entries)) (hne : entries ≠ [])
    (hdepth : 2 * depth + 2 < width) (hfits : entriesFit entries = true) :
    read (write (.map entries)) = .ok (reread (.map entries)) := by
  rw [read, node_write h hne hdepth hfits]
  have hfinished := Node.allTags_nodeOf (fun s => (Node.supported_ofPlain s).1) rfl rfl
    (.map entries)
  have hsupported := Node.allTags_nodeOf (fun s => (Node.supported_ofPlain s).2) rfl rfl
    (.map entries)
  simp only [bind, Except.bind, hfinished, hsupported, demandSupport, if_true,
    Node.toValue_nodeOf _ h]
  rfl

theorem read_write_ne_ok (h : IsDocument (depth + 1) (.map entries)) (hne : entries ≠ [])
    (hdepth : 2 * depth + 2 < width) (hfits : entriesFit entries = false) (value : Value) :
    read (write (.map entries)) ≠ .ok value := by
  rw [read]
  cases hnode : Node.ofText (write (.map entries)) with
  | error fault => simp [bind, Except.bind]
  | ok node => exact absurd hnode (node_write_ne_ok h hne hdepth hfits node)

/-- **A written document comes back as it was** exactly if its keys are short enough and
its texts are kept. -/
theorem read_write_iff (h : IsDocument (depth + 1) (.map entries)) (hne : entries ≠ [])
    (hdepth : 2 * depth + 2 < width) :
    read (write (.map entries)) = .ok (.map entries) ↔
      entriesFit entries = true ∧ entriesKept entries = true := by
  cases hfits : entriesFit entries with
  | false => simpa using read_write_ne_ok h hne hdepth hfits _
  | true =>
      rw [read_write h hne hdepth hfits, Except.ok.injEq, reread_eq_self_iff _ h, isKept]
      simp

end Write

end CqlWorkload.Yaml
