import CqlWorkload.Proofs.Config.Validity
import CqlWorkload.Proofs.Text.Pieces
import CqlWorkload.Config.File

/-!
# Blocks of a plan

What a configuration keeps of the block plan that was given.

**Tags.** `GivesTags` says what the two ways of giving a block's components
mean, and `keeps_of_readBlock` that a block has exactly the components given.

**Blocks.** Every key of the plan is written down as its text.  Each key keeps a
block of its own exactly when no two keys have the same text
(`blockplan_keeps_iff`); else the last block given under a text replaces the
others.
-/

namespace CqlWorkload

theorem Component.ofTag?_eq_some_iff {s : String} {c : Component} :
    Component.ofTag? s = some c ↔ c.tag = s := by
  constructor
  · intro h
    simpa using List.find?_some h
  · rintro rfl
    cases c <;> rfl

namespace Config

/-! ## Tags of a block -/

/-- The tags that a value gives for a block: the trimmed texts of a list's items, or
the trimmed pieces between the commas of a text, but for empty ones. -/
inductive GivesTags : Value → List String → Prop
  | items (items : List Value) :
      GivesTags (.list items) (items.map fun item => Text.trim item.plainText)
  | pieces (pieces : List String) (hne : pieces ≠ []) (h : ∀ p ∈ pieces, ',' ∉ p.toList) :
      GivesTags (.text (Text.joinWith "," pieces)) ((pieces.map Text.trim).filter (· != ""))

theorem eq_plainText_of_writtenText {value : Value} {s : String}
    (h : value.writtenText = .ok s) : s = value.plainText := by
  unfold Value.writtenText at h
  split at h
  · injection h with h
    exact h.symm
  · cases h

theorem tags_of_items {items : List Value} {tags : List String}
    (h : (items.mapM fun item => Text.trim <$> item.writtenText) = .ok tags) :
    tags = items.map fun item => Text.trim item.plainText := by
  induction items generalizing tags with
  | nil =>
      injection h with h
      exact h.symm
  | cons item rest ih =>
      rw [List.mapM_cons] at h
      cases hitem : item.writtenText with
      | error reason =>
          rw [hitem] at h
          cases h
      | ok written =>
          cases hrest : rest.mapM fun item => Text.trim <$> item.writtenText with
          | error reason =>
              rw [hitem, hrest] at h
              cases h
          | ok more =>
              rw [hitem, hrest] at h
              cases h
              rw [ih hrest, eq_plainText_of_writtenText hitem, List.map_cons]

theorem givesTags_of_tagsOf {block : String} {value : Value} {tags : List String}
    (h : tagsOf block value = .ok tags) : GivesTags value tags := by
  cases value with
  | list items => exact tags_of_items h ▸ .items items
  | text s =>
      injection h with h
      have hjoined : Text.joinWith "," ((Text.splitAt ',' s.toList).map String.ofList) = s := by
        have hpieces := Text.joinWith_splitAt ',' s.toList
        rwa [String.ofList_toList] at hpieces
      have hfree : ∀ p ∈ (Text.splitAt ',' s.toList).map String.ofList, ',' ∉ p.toList := by
        intro p hp
        obtain ⟨cs, hcs, rfl⟩ := List.mem_map.mp hp
        rw [String.toList_ofList]
        exact Text.not_mem_of_mem_splitAt hcs
      have hgiven := GivesTags.pieces _ (mt List.map_eq_nil_iff.mp (Text.splitAt_ne_nil _ _)) hfree
      rw [hjoined, List.map_map] at hgiven
      exact h ▸ hgiven
  | _ => cases h

/-! ## Components of a block -/

theorem tags_of_componentsOf {tags : List String} {components : List Component}
    (h : componentsOf tags = .ok components) : components.map Component.tag = tags := by
  induction tags generalizing components with
  | nil =>
      injection h with h
      exact h ▸ rfl
  | cons tag rest ih =>
      rw [componentsOf] at h
      split at h
      · cases h
      · next c hc =>
          cases hrest : componentsOf rest with
          | error unknown => simp [hrest, Functor.map, Except.map] at h
          | ok more =>
              obtain rfl : c :: more = components := by
                simpa [hrest, Functor.map, Except.map] using h
              rw [List.map_cons, ih hrest, Component.ofTag?_eq_some_iff.mp hc]

/-! ## Blocks -/

/-- A block that keeps what was given: it has the text of the key as its name, and
components with the tags given under the key. -/
def Keeps (given : Value × Value) (block : String × List Component) : Prop :=
  block.1 = given.1.plainText ∧ GivesTags given.2 (block.2.map Component.tag)

/-- A block is accepted with what was given for it. -/
theorem keeps_of_readBlock {key value : Value} {block : String × List Component}
    (h : readBlock key value = .ok block) : Keeps (key, value) block := by
  cases hname : key.writtenText with
  | error reason => simp [readBlock, hname, bind, Except.bind] at h
  | ok name =>
      cases htags : tagsOf name value with
      | error reason => simp [readBlock, hname, htags, bind, Except.bind] at h
      | ok tags =>
          cases hcomponents : componentsOf tags with
          | error tag => simp [readBlock, hname, htags, hcomponents, bind, Except.bind] at h
          | ok components =>
              obtain rfl : (name, components) = block := by
                simpa [readBlock, hname, htags, hcomponents, bind, Except.bind, pure,
                  Except.pure] using h
              refine ⟨eq_plainText_of_writtenText hname, ?_⟩
              rw [tags_of_componentsOf hcomponents]
              exact givesTags_of_tagsOf htags

/-- Each given block is read by itself, and they are put one after the other. -/
theorem readBlocks_eq_ok {given : List (Value × Value)}
    {before plan : Entries (List Component)} (h : readBlocks before given = .ok plan) :
    ∃ blocks, List.Forall₂ Keeps given blocks ∧ plan = Entries.putAll before blocks := by
  induction given generalizing before with
  | nil =>
      injection h with h
      exact ⟨[], .nil, h.symm⟩
  | cons entry rest ih =>
      rw [readBlocks] at h
      split at h
      · cases h
      · next name components hread =>
          obtain ⟨blocks, hblocks, hplan⟩ := ih h
          exact ⟨(name, components) :: blocks, .cons (keeps_of_readBlock hread) hblocks, hplan⟩

theorem readBlockplan_eq_valid {value : Value} {plan : Entries (List Component)}
    (h : Config.readBlockplan value = .valid plan) :
    ∃ given blocks, value = .map given ∧ List.Forall₂ Keeps given blocks ∧
      plan = Entries.putAll [] blocks := by
  cases value with
  | map given =>
      simp only [readBlockplan] at h
      split at h
      · cases h
      · next found hread =>
          injection h with h
          obtain ⟨blocks, hblocks, hplan⟩ := readBlocks_eq_ok hread
          exact ⟨given, blocks, rfl, hblocks, h ▸ hplan⟩
  | _ => cases h

theorem keys_of_keeps {given : List (Value × Value)} {blocks : Entries (List Component)}
    (h : List.Forall₂ Keeps given blocks) :
    blocks.keys = given.map fun entry => entry.1.plainText := by
  induction h with
  | nil => rfl
  | cons hfirst _ ih =>
      rw [List.map_cons, ← ih, ← hfirst.1]
      rfl

/-- **What is kept of a plan.**  Every given block is accepted with exactly the tags given
for it, and the blocks are put one after the other, the last one under a text for all of
them.  So the plan has one block for each key, in order, exactly when no two keys have the
same text. -/
theorem blockplan_keeps_iff {entries : List (Value × Value)} {c : Config}
    (h : ofDocument (.map entries) = .ok c) :
    ∃ given, Value.lookup entries "blockplan" = some (.map given) ∧
      (∃ blocks, List.Forall₂ Keeps given blocks ∧ c.blockplan = Entries.putAll [] blocks) ∧
      (List.Forall₂ Keeps given c.blockplan ↔
        (given.map fun entry => entry.1.plainText).Nodup) := by
  have hread := read_of_ofDocument h
  obtain ⟨value, hlookup, hvalue⟩ := Checked.field_eq_valid_iff.mp (fieldsOf_of_read hread).blockplan
  obtain ⟨given, blocks, rfl, hblocks, hplan⟩ := readBlockplan_eq_valid hvalue
  refine ⟨given, hlookup, ⟨blocks, hblocks, hplan⟩, ?_, ?_⟩
  · intro hkept
    rw [← keys_of_keeps hkept]
    exact (valid_of_read hread).blocks
  · intro hn
    rw [← keys_of_keeps hblocks] at hn
    have hput : Entries.putAll [] blocks = blocks := Entries.putAll_eq_append blocks hn
    rwa [hplan, hput]

/-- Blocks with keys of several kinds, in both ways of giving components. -/
def mixedBlocks : List (Value × Value) :=
  [(.int 1, .text " insert,, select ,insert"), (.bool true, .list [.text " scan-10 "]),
    (.null, .list [])]

theorem blockplan_keeps_iff_mixedBlocks :
    ∃ c, ofDocument (.map [(.text "blockplan", .map mixedBlocks)]) = .ok c ∧
      List.Forall₂ Keeps mixedBlocks c.blockplan ∧
      c.blockplan = [("1", [.insert, .select, .insert]), ("True", [.scan]), ("None", [])] := by
  obtain ⟨c, hc⟩ : ∃ c, ofDocument (.map [(.text "blockplan", .map mixedBlocks)]) = .ok c :=
    ⟨_, rfl⟩
  obtain ⟨given, hgiven, -, hiff⟩ := blockplan_keeps_iff hc
  obtain rfl : mixedBlocks = given := by
    injection hgiven with hgiven
    injection hgiven
  refine ⟨c, hc, hiff.mpr (by decide), ?_⟩
  have hplan : (ofDocument (.map [(.text "blockplan", .map mixedBlocks)])).toOption.map
      (·.blockplan) = some [("1", [.insert, .select, .insert]), ("True", [.scan]), ("None", [])] := by
    decide +kernel
  simpa [hc, Except.toOption] using hplan

/-- Keys of different kinds with the same text: the second block takes the place of the
first, which is lost. -/
theorem blockplan_loses_block :
    Yaml.read "blockplan:\n  1: insert\n  '1': select\n" =
        .ok (.map [(.text "blockplan",
          .map [(.int 1, .text "insert"), (.text "1", .text "select")])]) ∧
      (ofFileText "exporter.yaml" "blockplan:\n  1: insert\n  '1': select\n").toOption.map
        (·.blockplan) = some [("1", [.select])] := by
  decide +kernel

end Config
end CqlWorkload
