import CqlWorkload.Proofs.Json.Reread
import Mathlib.Data.List.Nodup
import Mathlib.Data.List.Forall2

/-!
# Storable values

A value is storable when all its doubles are finite, its whole numbers have no
more digits than a reader takes, it holds no moments, its mappings have
different texts as keys, and its lists and mappings are not nested too deeply.
These are the values that a saved text gives back (`reread_eq_some_iff`).
-/

namespace CqlWorkload

namespace Value

/-! ## Parts and nesting -/

mutual

/-- The values inside of a value, at every level. -/
def inner : Value → List Value
  | .list items => itemParts items
  | .map entries => entryParts entries
  | _ => []

def itemParts : List Value → List Value
  | [] => []
  | item :: rest => item :: inner item ++ itemParts rest

def entryParts : List (Value × Value) → List Value
  | [] => []
  | (_, value) :: rest => value :: inner value ++ entryParts rest

end

/-- A value and the values inside of it. -/
def parts (v : Value) : List Value := v :: inner v

mutual

/-- Levels of lists and mappings that are not empty. -/
def nesting : Value → Nat
  | .list items => if items.isEmpty then 0 else itemNesting items + 1
  | .map entries => if entries.isEmpty then 0 else entryNesting entries + 1
  | _ => 0

def itemNesting : List Value → Nat
  | [] => 0
  | item :: rest => max (nesting item) (itemNesting rest)

def entryNesting : List (Value × Value) → Nat
  | [] => 0
  | (_, value) :: rest => max (nesting value) (entryNesting rest)

end

theorem mem_itemParts {w : Value} {items : List Value} :
    w ∈ itemParts items ↔ ∃ item ∈ items, w ∈ item.parts := by
  induction items with
  | nil => simp [itemParts]
  | cons item rest ih => simp [itemParts, parts, ih, or_assoc]

theorem mem_entryParts {w : Value} {entries : List (Value × Value)} :
    w ∈ entryParts entries ↔ ∃ entry ∈ entries, w ∈ entry.2.parts := by
  induction entries with
  | nil => simp [entryParts]
  | cons entry rest ih => simp [entryParts, parts, ih, or_assoc]

theorem itemNesting_le_iff {depth : Nat} {items : List Value} :
    itemNesting items ≤ depth ↔ ∀ item ∈ items, item.nesting ≤ depth := by
  induction items with
  | nil => simp [itemNesting]
  | cons item rest ih => simp [itemNesting, ih]

theorem entryNesting_le_iff {depth : Nat} {entries : List (Value × Value)} :
    entryNesting entries ≤ depth ↔ ∀ entry ∈ entries, entry.2.nesting ≤ depth := by
  induction entries with
  | nil => simp [entryNesting]
  | cons entry rest ih => simp [entryNesting, ih]

/-! ## Keys -/

/-- All keys are texts, and no two of them are the same. -/
def Keyed (entries : List (Value × Value)) : Prop :=
  (∀ entry ∈ entries, ∃ s, entry.1 = .text s) ∧ (entries.map Prod.fst).Nodup

instance (v : Value) : Decidable (∃ s, v = .text s) :=
  match v with
  | .text s => isTrue ⟨s, rfl⟩
  | .null | .bool _ | .int _ | .float _ | .moment _ | .list _ | .map _ => isFalse nofun

instance (entries : List (Value × Value)) : Decidable (Keyed entries) :=
  inferInstanceAs (Decidable (_ ∧ _))

theorem sameKey_text (a b : String) : sameKey (.text a) (.text b) = decide (a = b) := by
  by_cases h : a = b <;> simp [sameKey, amount?, instant?, h]

/-- Whether entries are keyed depends on their keys only. -/
theorem keyed_congr {entries others : List (Value × Value)}
    (h : entries.map Prod.fst = others.map Prod.fst) : Keyed entries ↔ Keyed others := by
  have htexts (entries : List (Value × Value)) : (∀ entry ∈ entries, ∃ s, entry.1 = .text s) ↔
      ∀ key ∈ entries.map Prod.fst, ∃ s, key = .text s := by simp
  rw [Keyed, Keyed, htexts, htexts, h]

theorem Keyed.of_append {before rest : List (Value × Value)} (h : Keyed (before ++ rest)) :
    Keyed before := by
  refine ⟨fun entry he => h.1 entry (List.mem_append_left _ he), ?_⟩
  have hn := h.2
  rw [List.map_append] at hn
  exact hn.of_append_left

theorem keyed_ofNames {entries : List (String × Value)} (h : (entries.map Prod.fst).Nodup) :
    Keyed (entries.map fun entry => (.text entry.1, entry.2)) := by
  refine ⟨?_, ?_⟩
  · intro entry he
    obtain ⟨named, -, rfl⟩ := List.mem_map.mp he
    exact ⟨named.1, rfl⟩
  · have hkeys : (entries.map fun entry => (Value.text entry.1, entry.2)).map Prod.fst =
        (entries.map Prod.fst).map Value.text := by simp
    rw [hkeys]
    exact h.map fun a b hab => by injection hab

theorem putKey_of_keyed {before : List (Value × Value)} {key : String} (value : Value)
    (h : Keyed (before ++ [(.text key, value)])) :
    putKey before (.text key) value = before ++ [(.text key, value)] := by
  induction before with
  | nil => rfl
  | cons entry rest ih =>
      obtain ⟨old, there⟩ := entry
      obtain ⟨s, hs⟩ := h.1 (old, there) (by simp)
      dsimp only at hs
      subst hs
      have hn := h.2
      simp only [List.cons_append, List.map_cons, List.map_append, List.nodup_cons] at hn
      have hne : s ≠ key := by
        rintro rfl
        exact hn.1 (by simp)
      have hrest : Keyed (rest ++ [(.text key, value)]) :=
        ⟨fun entry he => h.1 entry (List.mem_cons_of_mem _ he), by simpa using hn.2⟩
      simp only [putKey, sameKey_text, hne, decide_false, Bool.false_eq_true, if_false,
        List.cons_append, ih hrest]

theorem keyed_putKey {before : List (Value × Value)} (key : String) (value : Value)
    (h : Keyed before) : Keyed (putKey before (.text key) value) := by
  by_cases hm : Value.text key ∈ before.map Prod.fst
  · refine (keyed_congr ?_).mpr h
    clear h
    induction before with
    | nil => cases hm
    | cons entry rest ih =>
        obtain ⟨old, there⟩ := entry
        by_cases hk : old.sameKey (.text key) = true
        · simp [putKey, hk]
        · have hne : Value.text key ≠ old := by
            rintro rfl
            simp [sameKey_text] at hk
          simp only [putKey, hk, Bool.false_eq_true, if_false, List.map_cons]
          rw [ih (by simpa [hne] using hm)]
  · have hk : Keyed (before ++ [(.text key, value)]) := by
      refine ⟨?_, ?_⟩
      · intro entry he
        rcases List.mem_append.mp he with he | he
        · exact h.1 entry he
        · exact ⟨key, by rw [List.mem_singleton.mp he]⟩
      · rw [List.map_append, List.nodup_append]
        refine ⟨h.2, by simp, ?_⟩
        rintro a ha b hb rfl
        simp only [List.map_cons, List.map_nil, List.mem_singleton] at hb
        exact hm (hb ▸ ha)
    rwa [putKey_of_keyed value hk]

end Value

namespace Json

open Value

/-! ## What is read again -/

section Reread

variable {double : Double → Value} {depth : Nat}

theorem rereadItems_eq_some_iff {items found : List Value} :
    rereadItems double depth items = some found ↔
      List.Forall₂ (fun v w => reread double depth v = some w) items found := by
  induction items generalizing found with
  | nil => simp [rereadItems, eq_comm]
  | cons item rest ih =>
      simp only [rereadItems, Option.bind_eq_some_iff, Option.map_eq_some_iff, ih,
        List.forall₂_cons_left_iff]
      constructor
      · rintro ⟨w, hw, ws, hws, rfl⟩
        exact ⟨w, ws, hw, hws, rfl⟩
      · rintro ⟨w, ws, hw, hws, rfl⟩
        exact ⟨w, hw, ws, hws, rfl⟩

/-- Entries read again have different texts as keys. -/
theorem keyed_rereadEntries {entries before found : List (Value × Value)} (hb : Keyed before)
    (h : rereadEntries double depth before entries = some found) : Keyed found := by
  induction entries generalizing before with
  | nil =>
      injection h with h
      exact h ▸ hb
  | cons entry rest ih =>
      obtain ⟨key, value⟩ := entry
      rw [rereadEntries, Option.bind_eq_some_iff] at h
      obtain ⟨w, -, h⟩ := h
      exact ih (keyed_putKey _ w hb) h

/-- Entries with different texts as keys are read one after the other. -/
theorem rereadEntries_eq_some_iff {entries before found : List (Value × Value)}
    (hk : Keyed (before ++ entries)) :
    rereadEntries double depth before entries = some found ↔
      ∃ more, found = before ++ more ∧
        List.Forall₂ (fun e f => f.1 = e.1 ∧ reread double depth e.2 = some f.2) entries more := by
  induction entries generalizing before with
  | nil => simp [rereadEntries, eq_comm]
  | cons entry rest ih =>
      obtain ⟨key, value⟩ := entry
      obtain ⟨s, hs⟩ := hk.1 (key, value) (by simp)
      dsimp only at hs
      subst hs
      have hall : Keyed (before ++ [(.text s, value)] ++ rest) := by simpa using hk
      have hput (w : Value) : putKey before (.text s) w = before ++ [(.text s, w)] :=
        putKey_of_keyed w ((keyed_congr (by simp)).mp hall.of_append)
      have hrest (w : Value) : Keyed (before ++ [(.text s, w)] ++ rest) :=
        (keyed_congr (by simp)).mp hk
      simp only [rereadEntries, Option.bind_eq_some_iff, plainText, hput, ih (hrest _),
        List.forall₂_cons_left_iff]
      constructor
      · rintro ⟨w, hw, more, rfl, hmore⟩
        exact ⟨(.text s, w) :: more, by simp, (.text s, w), more, ⟨rfl, hw⟩, hmore, rfl⟩
      · rintro ⟨more, rfl, ⟨key, w⟩, others, ⟨rfl, hw⟩, hmore, rfl⟩
        exact ⟨w, hw, others, by simp, hmore⟩

theorem reread_list_eq_some {items : List Value} {w : Value}
    (h : reread double depth (.list items) = some w) :
    ∃ found below, w = .list found ∧
      List.Forall₂ (fun v w => reread double below v = some w) items found := by
  cases items with
  | nil => exact ⟨[], depth, by simpa [reread, eq_comm] using h, .nil⟩
  | cons item rest =>
      cases depth with
      | zero => simp [reread] at h
      | succ below =>
          simp only [reread, List.isEmpty_cons, Bool.false_eq_true, if_false,
            Option.map_eq_some_iff] at h
          obtain ⟨found, hf, rfl⟩ := h
          exact ⟨found, below, rfl, rereadItems_eq_some_iff.mp hf⟩

theorem reread_map_eq_some {entries : List (Value × Value)} {w : Value}
    (h : reread double depth (.map entries) = some w) :
    ∃ found below, w = .map found ∧ Keyed found ∧
      (Keyed entries → List.Forall₂
        (fun e f => f.1 = e.1 ∧ reread double below e.2 = some f.2) entries found) := by
  cases entries with
  | nil =>
      refine ⟨[], depth, by simpa [reread, eq_comm] using h, ⟨by simp, by simp⟩, fun _ => .nil⟩
  | cons entry rest =>
      cases depth with
      | zero => simp [reread] at h
      | succ below =>
          simp only [reread, List.isEmpty_cons, Bool.false_eq_true, if_false,
            Option.map_eq_some_iff] at h
          obtain ⟨found, hf, rfl⟩ := h
          refine ⟨found, below, rfl, keyed_rereadEntries ⟨by simp, by simp⟩ hf, fun hk => ?_⟩
          obtain ⟨more, hm, hall⟩ := (rereadEntries_eq_some_iff (by simpa using hk)).mp hf
          exact hm ▸ hall

end Reread

/-! ## Storable values -/

/-- A part that a saved text can hold, whatever is inside of it. -/
def IsStorablePart : Value → Prop
  | .int n => (Nat.toDigits 10 n.natAbs).length ≤ digitLimit
  | .float x => x.isFinite = true
  | .moment _ => False
  | .map entries => Keyed entries
  | _ => True

instance (v : Value) : Decidable (IsStorablePart v) :=
  match v with
  | .int n => inferInstanceAs (Decidable ((Nat.toDigits 10 n.natAbs).length ≤ digitLimit))
  | .float x => inferInstanceAs (Decidable (x.isFinite = true))
  | .moment _ => isFalse id
  | .map entries => inferInstanceAs (Decidable (Keyed entries))
  | .null | .bool _ | .text _ | .list _ => isTrue trivial

structure Storable (depth : Nat) (v : Value) : Prop where
  parts : ∀ w ∈ v.parts, IsStorablePart w
  nested : v.nesting ≤ depth

instance (depth : Nat) (v : Value) : Decidable (Storable depth v) :=
  decidable_of_iff ((∀ w ∈ v.parts, IsStorablePart w) ∧ v.nesting ≤ depth)
    ⟨fun h => ⟨h.1, h.2⟩, fun h => ⟨h.1, h.2⟩⟩

theorem storable_of_isKey {depth : Nat} {v : Value} (hk : v.isKey = true) :
    Storable depth v ↔ IsStorablePart v := by
  have hinner : v.inner = [] ∧ v.nesting = 0 := by
    cases v <;> first | exact ⟨rfl, rfl⟩ | cases hk
  constructor
  · exact fun h => h.parts v (by simp [Value.parts])
  · exact fun h => ⟨by simpa [Value.parts, hinner.1] using h, by omega⟩

theorem storable_list_iff {depth : Nat} {items : List Value} (hne : items ≠ []) :
    Storable depth (.list items) ↔
      ∃ below, depth = below + 1 ∧ ∀ item ∈ items, Storable below item := by
  have hempty : items.isEmpty = false := by simpa using hne
  have hparts (w : Value) :
      w ∈ (Value.list items).parts ↔ w = .list items ∨ ∃ item ∈ items, w ∈ item.parts := by
    simp [Value.parts, Value.inner, mem_itemParts]
  have hnesting : (Value.list items).nesting = itemNesting items + 1 := by simp [nesting, hempty]
  constructor
  · intro h
    have hnested := h.nested
    obtain ⟨below, rfl⟩ : ∃ below, depth = below + 1 := ⟨depth - 1, by omega⟩
    refine ⟨below, rfl, fun item hi => ⟨fun w hw => ?_, ?_⟩⟩
    · exact h.parts w ((hparts w).mpr (Or.inr ⟨item, hi, hw⟩))
    · exact itemNesting_le_iff.mp (by omega) item hi
  · rintro ⟨below, rfl, h⟩
    refine ⟨fun w hw => ?_, ?_⟩
    · rcases (hparts w).mp hw with rfl | ⟨item, hi, hw⟩
      · trivial
      · exact (h item hi).parts w hw
    · rw [hnesting]
      exact Nat.succ_le_succ (itemNesting_le_iff.mpr fun item hi => (h item hi).nested)

theorem storable_map_iff {depth : Nat} {entries : List (Value × Value)} (hne : entries ≠ []) :
    Storable depth (.map entries) ↔ ∃ below, depth = below + 1 ∧ Keyed entries ∧
      ∀ entry ∈ entries, Storable below entry.2 := by
  have hempty : entries.isEmpty = false := by simpa using hne
  have hparts (w : Value) : w ∈ (Value.map entries).parts ↔
      w = .map entries ∨ ∃ entry ∈ entries, w ∈ entry.2.parts := by
    simp only [Value.parts, Value.inner, List.mem_cons, mem_entryParts]
  have hnesting : (Value.map entries).nesting = entryNesting entries + 1 := by
    simp [nesting, hempty]
  constructor
  · intro h
    have hnested := h.nested
    obtain ⟨below, rfl⟩ : ∃ below, depth = below + 1 := ⟨depth - 1, by omega⟩
    refine ⟨below, rfl, h.parts _ ((hparts _).mpr (Or.inl rfl)), fun entry he =>
      ⟨fun w hw => ?_, ?_⟩⟩
    · exact h.parts w ((hparts w).mpr (Or.inr ⟨entry, he, hw⟩))
    · exact entryNesting_le_iff.mp (by omega) entry he
  · rintro ⟨below, rfl, hk, h⟩
    refine ⟨fun w hw => ?_, ?_⟩
    · rcases (hparts w).mp hw with rfl | ⟨entry, he, hw⟩
      · exact hk
      · exact (h entry he).parts w hw
    · rw [hnesting]
      exact Nat.succ_le_succ (entryNesting_le_iff.mpr fun entry he => (h entry he).nested)

theorem reread_list_eq_some_iff {depth : Nat} {items : List Value} (hne : items ≠ []) :
    reread savedDouble depth (.list items) = some (.list items) ↔
      ∃ below, depth = below + 1 ∧
        ∀ item ∈ items, reread savedDouble below item = some item := by
  have hempty : items.isEmpty = false := by simpa using hne
  cases depth with
  | zero => simp [reread, hempty]
  | succ below =>
      have hsome : reread savedDouble (below + 1) (.list items) = some (.list items) ↔
          rereadItems savedDouble below items = some items := by
        simp [reread, hempty]
      rw [hsome, rereadItems_eq_some_iff, List.forall₂_same]
      simp

theorem reread_map_eq_some_iff {depth : Nat} {entries : List (Value × Value)}
    (hne : entries ≠ []) :
    reread savedDouble depth (.map entries) = some (.map entries) ↔
      ∃ below, depth = below + 1 ∧ Keyed entries ∧
        ∀ entry ∈ entries, reread savedDouble below entry.2 = some entry.2 := by
  have hempty : entries.isEmpty = false := by simpa using hne
  cases depth with
  | zero => simp [reread, hempty]
  | succ below =>
      have hsome : reread savedDouble (below + 1) (.map entries) = some (.map entries) ↔
          rereadEntries savedDouble below [] entries = some entries := by
        simp [reread, hempty]
      rw [hsome]
      constructor
      · intro h
        have hk : Keyed entries := keyed_rereadEntries ⟨by simp, by simp⟩ h
        obtain ⟨more, hm, hall⟩ := (rereadEntries_eq_some_iff (by simpa using hk)).mp h
        rw [List.nil_append] at hm
        subst hm
        exact ⟨below, rfl, hk, fun entry he => (List.forall₂_same.mp hall entry he).2⟩
      · rintro ⟨below', hb, hk, hall⟩
        cases hb
        exact (rereadEntries_eq_some_iff (by simpa using hk)).mpr
          ⟨entries, rfl, List.forall₂_same.mpr fun entry he => ⟨rfl, hall entry he⟩⟩

theorem reread_eq_some_iff_of_isKey {depth : Nat} {v : Value} (hk : v.isKey = true) :
    reread savedDouble depth v = some v ↔ IsStorablePart v := by
  cases v with
  | int n =>
      simp only [reread, IsStorablePart]
      split_ifs with h
      · simp
        omega
      · simp
        omega
  | float x => cases hx : x.isFinite <;> simp [reread, savedDouble, IsStorablePart, hx]
  | list items => cases hk
  | map entries => cases hk
  | _ => simp [reread, IsStorablePart]

mutual

/-- **A value comes back from a saved text** exactly when it is storable. -/
theorem reread_eq_some_iff (v : Value) (depth : Nat) :
    reread savedDouble depth v = some v ↔ Storable depth v := by
  match v with
  | .list items =>
      by_cases hne : items = []
      · subst hne
        exact ⟨fun _ => ⟨by simp [Value.parts, Value.inner, itemParts, IsStorablePart], Nat.zero_le _⟩,
          fun _ => rfl⟩
      · rw [reread_list_eq_some_iff hne, storable_list_iff hne]
        exact exists_congr fun below => and_congr_right fun _ =>
          forall₂_congr fun item hi => reread_item_eq_some_iff items item hi below
  | .map entries =>
      by_cases hne : entries = []
      · subst hne
        refine ⟨fun _ => ⟨?_, Nat.zero_le _⟩, fun _ => rfl⟩
        simp [Value.parts, Value.inner, entryParts, IsStorablePart, Keyed]
      · rw [reread_map_eq_some_iff hne, storable_map_iff hne]
        exact exists_congr fun below => and_congr_right fun _ => and_congr_right fun _ =>
          forall₂_congr fun entry he => reread_entry_eq_some_iff entries entry he below
  | .null | .bool _ | .int _ | .float _ | .text _ | .moment _ =>
      rw [reread_eq_some_iff_of_isKey rfl, storable_of_isKey rfl]

theorem reread_item_eq_some_iff (items : List Value) (item : Value) (hi : item ∈ items)
    (depth : Nat) : reread savedDouble depth item = some item ↔ Storable depth item := by
  match items, hi with
  | first :: rest, hi =>
      rcases List.mem_cons.mp hi with h | h
      · rw [h]
        exact reread_eq_some_iff first depth
      · exact reread_item_eq_some_iff rest item h depth

theorem reread_entry_eq_some_iff (entries : List (Value × Value)) (entry : Value × Value)
    (he : entry ∈ entries) (depth : Nat) :
    reread savedDouble depth entry.2 = some entry.2 ↔ Storable depth entry.2 := by
  match entries, he with
  | (key, value) :: rest, he =>
      rcases List.mem_cons.mp he with h | h
      · rw [h]
        exact reread_eq_some_iff value depth
      · exact reread_entry_eq_some_iff rest entry h depth

end

end Json
end CqlWorkload
