import CqlWorkload.Entries
import Mathlib.Data.List.Induction
import Mathlib.Data.List.Nodup
import Mathlib.Tactic.Basic

/-!
# Lookups in ordered entries

Putting a value changes what is found under its own name and nothing else.  A
name that is not there yet goes to the end, so entries with different names are
put one behind the other.

**Groups.** Grouping lists the names in the order of their first items, and
below each name the items of that name in their order.
-/

namespace CqlWorkload
namespace Entries

variable {α : Type}

/-! ## Looking up -/

theorem get?_put_self (name : String) (value : α) (entries : Entries α) :
    get? (put entries name value) name = some value := by
  induction entries with
  | nil => simp [put, get?]
  | cons entry rest ih =>
      by_cases h : entry.1 = name
      · simp [put, get?, h]
      · simp [put, get?, h, ih]

theorem get?_put_of_ne {name other : String} (value : α) (h : other ≠ name)
    (entries : Entries α) : get? (put entries name value) other = get? entries other := by
  induction entries with
  | nil => simp [put, get?, h.symm]
  | cons entry rest ih =>
      by_cases hk : entry.1 = name
      · simp [put, get?, hk, h.symm]
      · simp [put, get?, hk, ih]

theorem get?_eq_none_iff (name : String) (entries : Entries α) :
    get? entries name = none ↔ name ∉ keys entries := by
  induction entries with
  | nil => simp [get?, keys]
  | cons entry rest ih =>
      by_cases h : entry.1 = name
      · simp [get?, keys, h]
      · simp only [get?, h, if_false, ih]
        simp [keys, Ne.symm h]

/-- Entries with different names are found under their names. -/
theorem get?_of_mem {name : String} {value : α} {entries : Entries α}
    (hn : (keys entries).Nodup) (h : (name, value) ∈ entries) :
    get? entries name = some value := by
  induction entries with
  | nil => cases h
  | cons entry rest ih =>
      obtain ⟨key, old⟩ := entry
      simp only [keys, List.map_cons, List.nodup_cons] at hn
      rcases List.mem_cons.mp h with he | h
      · simp only [Prod.mk.injEq] at he
        simp [get?, he.1, he.2]
      · have hne : key ≠ name := by
          rintro rfl
          exact hn.1 (List.mem_map.mpr ⟨_, h, rfl⟩)
        simp only [get?, hne, if_false]
        exact ih hn.2 h

theorem mem_of_get? {name : String} {value : α} {entries : Entries α}
    (h : get? entries name = some value) : (name, value) ∈ entries := by
  induction entries with
  | nil => cases h
  | cons entry rest ih =>
      obtain ⟨key, old⟩ := entry
      by_cases hk : key = name
      · simp only [get?, hk, if_true, Option.some.injEq] at h
        simp [hk, h]
      · simp only [get?, hk, if_false] at h
        exact List.mem_cons_of_mem _ (ih h)

theorem put_of_not_mem {name : String} (value : α) {entries : Entries α}
    (h : name ∉ keys entries) : put entries name value = entries ++ [(name, value)] := by
  induction entries with
  | nil => rfl
  | cons entry rest ih =>
      simp only [keys, List.map_cons, List.mem_cons, not_or] at h
      simp only [put, Ne.symm h.1, if_false, List.cons_append]
      rw [ih h.2]

/-- Putting the value that is there changes nothing. -/
theorem put_of_get? {name : String} {value : α} {entries : Entries α}
    (h : get? entries name = some value) : put entries name value = entries := by
  induction entries with
  | nil => cases h
  | cons entry rest ih =>
      obtain ⟨key, old⟩ := entry
      by_cases hk : key = name
      · simp only [get?, hk, if_true, Option.some.injEq] at h
        simp [put, hk, h]
      · simp only [get?, hk, if_false] at h
        simp [put, hk, ih h]

theorem keys_append (first second : Entries α) :
    keys (first ++ second) = keys first ++ keys second :=
  List.map_append

/-- Entries whose names are all different are put one behind the other. -/
theorem putAll_eq_append {entries : Entries α} (more : List (String × α))
    (h : (keys (entries ++ more)).Nodup) : putAll entries more = entries ++ more := by
  induction more generalizing entries with
  | nil => simp [putAll]
  | cons entry rest ih =>
      obtain ⟨name, value⟩ := entry
      have hn : name ∉ keys entries := by
        intro hm
        rw [keys_append, List.nodup_append] at h
        exact h.2.2 name hm name (by simp [keys]) rfl
      have hs : entries ++ (name, value) :: rest = (entries ++ [(name, value)]) ++ rest := by
        simp
      show putAll (put entries name value) rest = _
      rw [put_of_not_mem value hn, hs]
      exact ih (hs ▸ h)

/-- Putting a value adds at most its own name. -/
theorem nodup_keys_put (name : String) (value : α) {entries : Entries α}
    (h : (keys entries).Nodup) : (keys (put entries name value)).Nodup := by
  by_cases hm : name ∈ keys entries
  · suffices hk : keys (put entries name value) = keys entries by rwa [hk]
    clear h
    induction entries with
    | nil => simp [keys] at hm
    | cons entry rest ih =>
        obtain ⟨key, old⟩ := entry
        by_cases hk : key = name
        · simp [put, keys, hk]
        · have hr : name ∈ keys rest := by
            simpa [keys, Ne.symm hk] using hm
          simpa [put, keys, hk] using ih hr
  · rw [put_of_not_mem value hm, keys_append]
    exact List.nodup_append.mpr ⟨h, by simp [keys], by
      rintro a ha b hb rfl
      simp only [keys, List.map_cons, List.map_nil, List.mem_singleton] at hb
      exact hm (hb ▸ ha)⟩

/-! ## Lengths -/

theorem length_put_of_mem {name : String} (value : α) {entries : Entries α}
    (h : name ∈ keys entries) : (put entries name value).length = entries.length := by
  induction entries with
  | nil => cases h
  | cons entry rest ih =>
      obtain ⟨key, old⟩ := entry
      by_cases hk : key = name
      · simp [put, hk]
      · have hrest : name ∈ keys rest := by simpa [keys, Ne.symm hk] using h
        simp [put, hk, ih hrest]

theorem length_put_le (name : String) (value : α) (entries : Entries α) :
    (put entries name value).length ≤ entries.length + 1 := by
  by_cases h : name ∈ keys entries
  · rw [length_put_of_mem value h]
    omega
  · simp [put_of_not_mem value h]

theorem putAll_concat (entries : Entries α) (more : List (String × α)) (last : String × α) :
    putAll entries (more ++ [last]) = put (putAll entries more) last.1 last.2 :=
  List.foldl_append

/-- An entry after a put is the one that was put or one from before. -/
theorem mem_put {name : String} {value : α} {entries : Entries α} {entry : String × α}
    (h : entry ∈ put entries name value) : entry = (name, value) ∨ entry ∈ entries := by
  induction entries with
  | nil => exact Or.inl (List.mem_singleton.mp h)
  | cons first rest ih =>
      obtain ⟨key, old⟩ := first
      unfold put at h
      split at h
      next hkey =>
        subst hkey
        exact (List.mem_cons.mp h).imp_right (List.mem_cons_of_mem _)
      · rcases List.mem_cons.mp h with rfl | h
        · exact Or.inr (List.mem_cons_self ..)
        · exact (ih h).imp_right (List.mem_cons_of_mem _)

theorem mem_putAll {more : List (String × α)} {entry : String × α}
    (h : entry ∈ putAll [] more) : entry ∈ more := by
  induction more using List.reverseRecOn with
  | nil => exact h
  | append_singleton more last ih =>
      rw [putAll_concat] at h
      rcases mem_put h with rfl | h
      · exact List.mem_append_right _ (List.mem_singleton.mpr rfl)
      · exact List.mem_append_left _ (ih h)

theorem length_putAll_le (more : List (String × α)) : (putAll [] more).length ≤ more.length := by
  induction more using List.reverseRecOn with
  | nil => exact Nat.le_refl 0
  | append_singleton more last ih =>
      rw [putAll_concat, List.length_append]
      exact Nat.le_trans (length_put_le _ _ _) (Nat.succ_le_succ ih)

section FirstOccurrences

variable [BEq α] [LawfulBEq α]

theorem eraseDups_append_singleton (items : List α) (last : α) :
    (items ++ [last]).eraseDups =
      if last ∈ items then items.eraseDups else items.eraseDups ++ [last] := by
  rw [List.eraseDups_append]
  by_cases h : last ∈ items
  · simp [List.removeAll, h]
  · simp [List.removeAll, h, List.eraseDups_cons]

theorem nodup_eraseDups (items : List α) : items.eraseDups.Nodup := by
  induction items using List.reverseRecOn with
  | nil => simp
  | append_singleton items last ih =>
      rw [eraseDups_append_singleton]
      by_cases h : last ∈ items
      · rwa [if_pos h]
      · have hm : last ∉ items.eraseDups := mt List.mem_eraseDups.mp h
        rw [if_neg h]
        exact List.nodup_append.mpr ⟨ih, by simp, by
          rintro a ha b hb rfl
          exact hm (List.mem_singleton.mp hb ▸ ha)⟩

end FirstOccurrences

/-! ## Grouping -/

section Groups

variable (name : α → String)

/-- The items in the order of the first items of their names. -/
def byFirst (items : List α) : List α :=
  (items.map name).eraseDups.flatMap fun key => items.filter (name · == key)

/-- The groups of some items under given names. -/
def groupsOf (items : List α) (keys : List String) : Entries (List α) :=
  keys.map fun key => (key, items.filter (name · == key))

theorem get?_groupsOf (items : List α) (key : String) (keys : List String) :
    get? (groupsOf name items keys) key =
      if key ∈ keys then some (items.filter (name · == key)) else none := by
  induction keys with
  | nil => rfl
  | cons other rest ih =>
      by_cases h : other = key
      · simp [groupsOf, get?, h]
      · simp only [groupsOf, List.map_cons, get?, h, if_false]
        simpa [groupsOf, Ne.symm h] using ih

theorem put_groupsOf (items : List α) (item : α) {keys : List String} (hn : keys.Nodup)
    (hm : name item ∈ keys) :
    put (groupsOf name items keys) (name item) (items.filter (name · == name item) ++ [item]) =
      groupsOf name (items ++ [item]) keys := by
  induction keys with
  | nil => cases hm
  | cons other rest ih =>
      obtain ⟨hr, hn⟩ := List.nodup_cons.mp hn
      by_cases h : other = name item
      · have hrest : groupsOf name items rest = groupsOf name (items ++ [item]) rest := by
          refine List.map_congr_left fun key hk => ?_
          have hne : name item ≠ key := fun he => hr (h ▸ he ▸ hk)
          simp [List.filter_append, hne]
        simp only [groupsOf, List.map_cons, put, h, if_true] at hrest ⊢
        rw [hrest]
        simp [List.filter_append]
      · have ih := ih hn (by simpa [Ne.symm h] using hm)
        simp only [groupsOf, List.map_cons, put, h, if_false] at ih ⊢
        rw [ih]
        simp [List.filter_append, Ne.symm h]

theorem groupBy_eq (items : List α) :
    groupBy name items = groupsOf name items (items.map name).eraseDups := by
  induction items using List.reverseRecOn with
  | nil => rfl
  | append_singleton items item ih =>
      have hstep : groupBy name (items ++ [item]) =
          adjust (groupBy name items) (name item) fun old => old.getD [] ++ [item] := by
        simp [groupBy]
      rw [hstep, ih, adjust, get?_groupsOf, List.map_append, List.map_singleton,
        eraseDups_append_singleton]
      by_cases h : name item ∈ items.map name
      · have hm : name item ∈ (items.map name).eraseDups := List.mem_eraseDups.mpr h
        rw [if_pos hm, if_pos h, Option.getD_some,
          put_groupsOf name items item (nodup_eraseDups _) hm]
      · have hm : name item ∉ (items.map name).eraseDups := mt List.mem_eraseDups.mp h
        have hk : keys (groupsOf name items (items.map name).eraseDups) =
            (items.map name).eraseDups := by
          simp [keys, groupsOf, Function.comp_def]
        have hnone : items.filter (name · == name item) = [] := by
          rw [List.filter_eq_nil_iff]
          intro other ho he
          exact h (List.mem_map.mpr ⟨other, ho, by simpa using he⟩)
        have hsame : groupsOf name items (items.map name).eraseDups =
            groupsOf name (items ++ [item]) (items.map name).eraseDups := by
          refine List.map_congr_left fun key hk => ?_
          have hne : name item ≠ key := fun he => hm (he ▸ hk)
          simp [List.filter_append, hne]
        rw [if_neg hm, if_neg h, Option.getD_none, List.nil_append,
          put_of_not_mem _ (by rw [hk]; exact hm), hsame]
        simp [groupsOf, List.filter_append, hnone]

theorem flatMap_groupBy (items : List α) :
    (groupBy name items).flatMap (·.2) = byFirst name items := by
  rw [groupBy_eq, groupsOf, byFirst, List.flatMap_map]

theorem mem_byFirst {items : List α} {item : α} : item ∈ byFirst name items ↔ item ∈ items := by
  simp only [byFirst, List.mem_flatMap, List.mem_eraseDups, List.mem_filter, beq_iff_eq]
  constructor
  · rintro ⟨key, _, hm, _⟩
    exact hm
  · exact fun hm => ⟨name item, List.mem_map.mpr ⟨item, hm, rfl⟩, hm, rfl⟩

theorem nodup_byFirst {items : List α} (h : items.Nodup) : (byFirst name items).Nodup := by
  refine List.nodup_flatMap.mpr ⟨fun key _ => h.filter _, ?_⟩
  refine (nodup_eraseDups _).imp fun {first second} hne => ?_
  intro item hf hs
  simp only [List.mem_filter, beq_iff_eq] at hf hs
  exact hne (hf.2.symm.trans hs.2)

end Groups

end Entries
end CqlWorkload
