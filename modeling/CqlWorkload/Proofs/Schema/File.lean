import CqlWorkload.Proofs.FileTree
import CqlWorkload.Proofs.Schema.RoundTrip
import CqlWorkload.Proofs.Text.Blank
import CqlWorkload.Schema.File

/-!
# Saved schemas

The text of a saved schema begins and ends with a brace and has no carriage
return, so a file gives it back unchanged.  What loading it yields is then a
question of its values: the schema comes back exactly when its value is storable
(`Schema.load_save_iff`).
-/

namespace CqlWorkload

/-! ## Carriage returns -/

namespace Json

theorem return_not_mem_unitText (unit : Nat) : '\r' ∉ unitText unit := by
  have hall : ∀ d < 16, '\r' ≠ d.digitChar := by decide
  intro hc
  simp only [unitText, List.mem_cons] at hc
  rcases hc with hc | hc | hc
  · cases hc
  · cases hc
  · obtain ⟨d, hd, he⟩ := Digit.exists_digitChar_of_mem_hexText hc
    exact hall d hd he

theorem return_not_mem_charText (asciiOnly : Bool) (c : Char) : '\r' ∉ charText asciiOnly c := by
  unfold charText
  split_ifs with h1 h2 h3 h4 h5 h6 h7
  · simp only [List.mem_cons, List.not_mem_nil, or_false, not_or]
    refine ⟨by decide, ?_⟩
    rintro rfl
    simp at h1
  · decide
  · decide
  · decide
  · decide
  · decide
  · unfold escapedChar
    split_ifs
    · exact return_not_mem_unitText _
    · exact fun hc => (List.mem_append.mp hc).elim (return_not_mem_unitText _)
        (return_not_mem_unitText _)
  · simpa using fun h => h3 h.symm

theorem return_not_mem_stringText (asciiOnly : Bool) (s : String) :
    '\r' ∉ stringText asciiOnly s := by
  simp only [stringText, List.cons_append, List.mem_cons, List.mem_append, List.mem_flatMap,
    List.not_mem_nil, or_false]
  rintro (hc | ⟨c, -, hc⟩ | hc)
  · cases hc
  · exact return_not_mem_charText asciiOnly c hc
  · cases hc

theorem return_not_mem_intText (n : Int) : '\r' ∉ (intText n).toList := by
  intro hc
  rw [intText, String.toList_append, List.mem_append] at hc
  rcases hc with hc | hc
  · split_ifs at hc
    · simp at hc
    · cases hc
  · rw [FloatLayout.digitsText, String.toList_ofList] at hc
    exact absurd (Digit.isDigit_of_mem_toDigits hc) (by decide)

theorem return_not_mem_render (x : Double) : '\r' ∉ (FloatLayout.saved.render x).toList := by
  cases hx : x.isFinite with
  | false =>
      rw [render_saved_of_not_isFinite hx]
      decide
  | true =>
      cases x with
      | nan => cases hx
      | signed negative rank =>
          obtain ⟨s, hs, -, htext⟩ := FloatLayout.exists_spelling_render
            (show FloatLayout.saved.IsRegular from Or.inl rfl) negative (of_decide_eq_true hx)
          rw [htext, List.mem_append]
          rintro (hc | hc)
          · split_ifs at hc
            · simp at hc
            · cases hc
          · rcases hs.of_mem_text hc with h | h
            · exact absurd h (by decide)
            · exact absurd h (by decide)

theorem return_not_mem_lineStart (level : Nat) : '\r' ∉ lineStart level := by
  simp [lineStart]

theorem return_not_mem_tailText {closing : Char} (hc : '\r' ≠ closing) (level : Nat)
    {parts : List (List Char)} (h : ∀ part ∈ parts, '\r' ∉ part) :
    '\r' ∉ tailText closing level parts := by
  induction parts with
  | nil => simp [tailText, return_not_mem_lineStart, hc]
  | cons next parts ih =>
      simp [tailText, return_not_mem_lineStart, h next (by simp),
        ih fun p hp => h p (List.mem_cons_of_mem _ hp)]

theorem return_not_mem_enclosed {opening closing : Char} (ho : '\r' ≠ opening)
    (hc : '\r' ≠ closing) (level : Nat) {parts : List (List Char)}
    (h : ∀ part ∈ parts, '\r' ∉ part) : '\r' ∉ enclosed opening closing level parts := by
  cases parts with
  | nil => simp [enclosed, ho, hc]
  | cons part parts =>
      have htail : '\r' ∉ tailText closing level parts :=
        return_not_mem_tailText hc level fun p hp => h p (List.mem_cons_of_mem _ hp)
      rw [enclosed_cons]
      simp [ho, return_not_mem_lineStart, h part (by simp), htail]

mutual

theorem return_not_mem_valueText (v : Value) (level : Nat) :
    '\r' ∉ valueText schemaStyle level v := by
  match v with
  | .null => simp [valueText]
  | .bool b => cases b <;> simp [valueText]
  | .int n => exact return_not_mem_intText n
  | .float x => exact return_not_mem_render x
  | .text s => exact return_not_mem_stringText _ s
  | .moment m => exact return_not_mem_stringText _ m.text
  | .list items =>
      exact return_not_mem_enclosed (by decide) (by decide) level
        (return_not_mem_itemTexts items (level + 1))
  | .map entries =>
      exact return_not_mem_enclosed (by decide) (by decide) level
        (return_not_mem_entryTexts entries (level + 1))

theorem return_not_mem_itemTexts (items : List Value) (level : Nat) :
    ∀ part ∈ itemTexts schemaStyle level items, '\r' ∉ part := by
  match items with
  | [] => simp [itemTexts]
  | item :: rest =>
      simp only [itemTexts, List.mem_cons]
      rintro part (rfl | hp)
      · exact return_not_mem_valueText item level
      · exact return_not_mem_itemTexts rest level part hp

theorem return_not_mem_entryTexts (entries : List (Value × Value)) (level : Nat) :
    ∀ part ∈ entryTexts schemaStyle level entries, '\r' ∉ part := by
  match entries with
  | [] => simp [entryTexts]
  | (key, value) :: rest =>
      simp only [entryTexts, List.mem_cons]
      rintro part (rfl | hp)
      · simp [return_not_mem_stringText, return_not_mem_valueText value level]
      · exact return_not_mem_entryTexts rest level part hp

end

theorem exists_valueText_map (style : Style) (level : Nat) (entry : Value × Value)
    (entries : List (Value × Value)) :
    ∃ cs, valueText style level (.map (entry :: entries)) = '{' :: (cs ++ ['}']) := by
  refine ⟨lineStart (level + 1) ++ List.intercalate (',' :: lineStart (level + 1))
    (entryTexts style (level + 1) (entry :: entries)) ++ lineStart level, ?_⟩
  simp [valueText, entryTexts, enclosed]

end Json

namespace Schema

variable {value : Value} {s : Schema}

theorem exists_toList_fileText (s : Schema) :
    ∃ cs, s.fileText.toList = '{' :: (cs ++ ['}']) := by
  obtain ⟨cs, hcs⟩ := Json.exists_valueText_map Json.schemaStyle 0
    (.text "keyspaces", .list (s.keyspaces.map Keyspace.toValue))
    [(.text "types", .list (s.types.map UserType.toValue)),
      (.text "tables", .list (s.tables.map Table.toValue))]
  exact ⟨cs, by rw [fileText, Json.write, String.toList_ofList, ← hcs]; rfl⟩

theorem trim_fileText (s : Schema) : Text.trim s.fileText = s.fileText := by
  obtain ⟨cs, hcs⟩ := exists_toList_fileText s
  rw [Text.trim, hcs, Text.trimWhile_cons_append_singleton (by decide) (by decide), ← hcs,
    String.ofList_toList]

theorem fileText_ne_empty (s : Schema) : s.fileText ≠ "" := by
  obtain ⟨cs, hcs⟩ := exists_toList_fileText s
  intro h
  rw [h] at hcs
  cases hcs

theorem ofFileText_fileText (s : Schema) (path : String) :
    ofFileText path s.fileText =
      match Json.reread Json.savedDouble Json.fileDepth s.toValue with
      | none => .error (.invalidSchemaFile path [⟨[], .malformed⟩])
      | some value =>
        match read value with
        | .valid schema => .ok schema
        | .faulty issues => .error (.invalidSchemaFile path issues) := by
  have hread : Json.read? Json.fileDepth s.fileText =
      Json.reread Json.savedDouble Json.fileDepth s.toValue :=
    Json.read?_write Json.rereads_schemaStyle Json.fileDepth s.toValue
  cases hvalue : Json.reread Json.savedDouble Json.fileDepth s.toValue with
  | none => simp only [ofFileText, trim_fileText, fileText_ne_empty, if_false, hread, hvalue]
  | some value =>
      cases hschema : read value <;>
        simp only [ofFileText, trim_fileText, fileText_ne_empty, if_false, hread, hvalue, hschema]

theorem read_of_ofValue (h : ofValue value = .ok s) : read value = .valid s := by
  unfold ofValue at h
  split at h
  · next hread =>
    injection h with h
    rw [hread, h]
  · cases h

/-- The text of an accepted schema is read as the schema when its value is storable, and
only then. -/
theorem ofFileText_fileText_iff (h : ofValue value = .ok s) (path : String) :
    ofFileText path s.fileText = .ok s ↔ Json.Storable Json.fileDepth s.toValue := by
  have hs := Schema.standsFor (read_of_ofValue h)
  rw [ofFileText_fileText, ← Json.reread_eq_some_iff]
  constructor
  · intro hload
    split at hload
    · cases hload
    next w hw =>
    split at hload
    · next found hread =>
      injection hload with hload
      subst hload
      rw [hw, hs.only _ _ hw hread]
    · cases hload
  · intro hw
    simp only [hw, hs.accepted]

/-- A saved file is found and gives its text back. -/
theorem load_save {tree made : FileTree} {cwd : Place} {p : Path}
    (hsave : s.save tree cwd p = .ok made) (hp : ".." ∉ p.parts ∨ tree.LeadsTo cwd p) :
    load made cwd p = ofFileText p.text s.fileText := by
  have hmade := FileTree.write_eq_ok hsave
  have hget : made.get? (FileTree.destination cwd p) = some (.text s.fileText) := by
    rw [hmade, FileTree.get?_put_self]
  have hleads : made.LeadsTo cwd p := by
    rcases hp with hd | hl
    · exact FileTree.leadsTo_of_isSome_get? hd (by rw [hget]; rfl)
    · rw [hmade]
      exact FileTree.isSome_follow_put hl
  have hlocate := FileTree.locate_of_isSome_get? hleads (by rw [hget]; rfl)
  have hcontent : Content.read (.text s.fileText) = .ok s.fileText := by
    refine Content.read_text ?_
    rw [fileText, Json.write, String.toList_ofList]
    exact Json.return_not_mem_valueText s.toValue 0
  simp only [load, hlocate, FileTree.readAt, hget, hcontent]

/-- **Saving and loading.** Checking an accepted schema again changes nothing.  A schema
that was saved is loaded as it was when its value is storable, and only then. -/
theorem load_save_iff (h : ofValue value = .ok s) :
    ofValue s.toValue = .ok s ∧
      ∀ (tree made : FileTree) (cwd : Place) (p : Path), s.save tree cwd p = .ok made →
        ".." ∉ p.parts ∨ tree.LeadsTo cwd p →
          (load made cwd p = .ok s ↔ Json.Storable Json.fileDepth s.toValue) := by
  have hs := Schema.standsFor (read_of_ofValue h)
  refine ⟨by rw [ofValue, hs.accepted], fun tree made cwd p hsave hp => ?_⟩
  rw [load_save hsave hp]
  exact ofFileText_fileText_iff h p.text

/-! ## Examples -/

/-- A table with statistics in a keyspace with settings for two places. -/
def measured : Schema where
  keyspaces := [⟨"shop", .map [(.text "class", .text "NetworkTopologyStrategy"),
    (.text "places", .map [(.text "east", .int 3), (.text "west", .list [.int 2, .null])])], true⟩]
  types := []
  tables := [⟨"shop", "orders", [⟨"id", "uuid", .partitionKey, some "shop", some "orders"⟩,
    ⟨"placed \"on\"", "date", .clusteringKey, some "shop", some "orders"⟩], ["id"],
    ["placed \"on\""], [.desc], some [("weighted_reads", .float (.ofDecimal false 25 (-2))),
      ("rows", .int 120), ("size", .text "1,5\t")], false⟩]

theorem load_save_iff_measured :
    ofValue measured.toValue = .ok measured ∧
      (measured.save [] [] ⟨"", ["s.json"]⟩ = .ok [(["s.json"], .text measured.fileText)] ∧
        ".." ∉ (⟨"", ["s.json"]⟩ : Path).parts) ∧
      load [(["s.json"], .text measured.fileText)] [] ⟨"", ["s.json"]⟩ = .ok measured := by
  have h : ofValue measured.toValue = .ok measured := rfl
  have hsave : measured.save [] [] ⟨"", ["s.json"]⟩ =
      .ok [(["s.json"], .text measured.fileText)] := rfl
  have hp : ".." ∉ (⟨"", ["s.json"]⟩ : Path).parts := by decide
  exact ⟨h, ⟨hsave, hp⟩, ((load_save_iff h).2 _ _ _ _ hsave (Or.inl hp)).mpr (by decide +kernel)⟩

/-- Settings inside of settings, so many levels deep. -/
def settingsWithin : Nat → Value
  | 0 => .map [(.text "class", .text "SimpleStrategy")]
  | n + 1 => .map [(.text "options", settingsWithin n)]

theorem nesting_settingsWithin (n : Nat) : (settingsWithin n).nesting = n + 1 := by
  induction n with
  | zero => rfl
  | succ n ih => simp [settingsWithin, Value.nesting, Value.entryNesting, ih]

theorem isWritable_settingsWithin (n : Nat) : (settingsWithin n).isWritable = true := by
  induction n with
  | zero => rfl
  | succ n ih => simp [settingsWithin, Value.isWritable, Value.entriesWritable, ih]

/-- A keyspace with settings inside of its settings. -/
def nestedSettings (n : Nat) : Schema where
  keyspaces := [⟨"shop", settingsWithin n, true⟩]
  types := []
  tables := []

theorem nesting_nestedSettings (n : Nat) : (nestedSettings n).toValue.nesting = n + 4 := by
  simp [nestedSettings, toValue, Keyspace.toValue, Value.ofEntries, Value.nesting,
    Value.entryNesting, Value.itemNesting, nesting_settingsWithin]

theorem ofValue_nestedSettings (n : Nat) :
    ofValue (nestedSettings n).toValue = .ok (nestedSettings n) := by
  have hreplication : Keyspace.readReplication (settingsWithin n) = .valid (settingsWithin n) := by
    cases n <;> rfl
  have hreplicated : Keyspace.isReplicated ⟨"shop", settingsWithin n, true⟩ = true := by
    have hwritable := isWritable_settingsWithin n
    cases n <;> simp_all [Keyspace.isReplicated, settingsWithin, Value.isWritable,
      Replication.body?, Replication.body_map, Except.toOption, Replication.plainEntry,
      Text.joinWith]
  have hkeyspace : Keyspace.read (Keyspace.toValue ⟨"shop", settingsWithin n, true⟩) = _ :=
    Keyspace.read_ofEntries.mpr ⟨rfl, hreplication, rfl, hreplicated⟩
  have hread : read (nestedSettings n).toValue = .valid (nestedSettings n) :=
    read_ofEntries.mpr ⟨Checked.list_eq_valid_iff.mpr (.cons hkeyspace .nil), rfl, rfl, rfl⟩
  rw [ofValue, hread]

theorem float_not_mem_settingsWithin (x : Double) (n : Nat) :
    .float x ∉ (settingsWithin n).parts := by
  induction n with
  | zero => simp [settingsWithin, Value.parts, Value.inner, Value.entryParts]
  | succ n ih =>
      simpa [settingsWithin, Value.parts, Value.inner, Value.entryParts] using ih

theorem float_not_mem_nestedSettings (x : Double) (n : Nat) :
    .float x ∉ (nestedSettings n).toValue.parts := by
  have hsettings := float_not_mem_settingsWithin x n
  simp only [Value.parts, List.mem_cons, not_or] at hsettings
  simp [nestedSettings, toValue, Keyspace.toValue, Value.ofEntries, Value.parts, Value.inner,
    Value.entryParts, Value.itemParts, hsettings.1, hsettings.2]

/-- Settings are saved at any depth and loaded only down to some depth, with no double in
them at all. -/
theorem not_load_save_nestedSettings :
    ofValue (nestedSettings 197).toValue = .ok (nestedSettings 197) ∧
      (∀ x, .float x ∈ (nestedSettings 197).toValue.parts → x.isFinite = true) ∧
      ∃ tree made cwd p, (nestedSettings 197).save tree cwd p = .ok made ∧
        load made cwd p ≠ .ok (nestedSettings 197) := by
  have hsave : (nestedSettings 197).save [] [] ⟨"", ["s.json"]⟩ =
      .ok [(["s.json"], .text (nestedSettings 197).fileText)] := rfl
  refine ⟨ofValue_nestedSettings 197,
    fun x hx => absurd hx (float_not_mem_nestedSettings x 197), [], _, [], _, hsave, ?_⟩
  rw [load_save hsave (Or.inl (by decide)), ne_eq,
    ofFileText_fileText_iff (ofValue_nestedSettings 197)]
  intro hs
  have hnested := hs.nested
  rw [nesting_nestedSettings] at hnested
  exact absurd hnested (by decide)

end Schema
end CqlWorkload
