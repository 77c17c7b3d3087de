import CqlWorkload.Proofs.Config.Validity
import Mathlib.Control.Basic

/-!
# Configured timeouts

What a configuration makes of the timeouts that it is given.

**Laying over.** The given values are put one after the other over the standard ones,
each under the text of its key, and checked when all of them are in place (`overlay`).
Reading the timeouts yields the same (`entries_readTimeouts`).

**Kinds.** So there is one timeout for every kind: the one converted from the last value
given for the kind, or else the standard one (`timeouts_of_read`).
-/

namespace CqlWorkload

namespace TimeoutKind

theorem ofText?_eq_some_iff {s : String} {kind : TimeoutKind} :
    ofText? s = some kind ↔ kind.text = s := by
  constructor
  · intro h
    simpa using List.find?_some h
  · rintro rfl
    cases kind <;> rfl

theorem text_injective : Function.Injective text := by
  intro first second h
  have hfirst := ofText?_eq_some_iff.mpr h
  rwa [ofText?_eq_some_iff.mpr rfl, Option.some_inj, eq_comm] at hfirst

/-- A value for every kind, under its name. -/
def table {α : Type} (value : TimeoutKind → α) : Entries α :=
  all.map fun kind => (kind.text, value kind)

theorem put_table {α : Type} (value : TimeoutKind → α) (kind : TimeoutKind) (a : α) :
    (table value).put kind.text a = table (Function.update value kind a) := by
  cases kind <;> rfl

end TimeoutKind

open TimeoutKind Checked

namespace Config

/-! ## The last value of a kind -/

theorem timeoutValue?_cons (key value : Value) (rest : List (Value × Value))
    (kind : TimeoutKind) :
    timeoutValue? ((key, value) :: rest) kind =
      (timeoutValue? rest kind).or (if key.plainText = kind.text then some value else none) := by
  unfold timeoutValue?
  by_cases hkey : key.plainText = kind.text
  · rw [List.filter_cons_of_pos (by simpa using hkey), List.getLast?_cons]
    cases (rest.filter fun entry => entry.1.plainText == kind.text).getLast? <;> simp [hkey]
  · rw [List.filter_cons_of_neg (by simpa using hkey)]
    simp [hkey]

/-! ## Laying over -/

/-- Given values are put over others, each under the text of its key, unless a key names
no kind. -/
def overlay (merged : Entries Value) : List (Value × Value) → Except String (Entries Value)
  | [] => .ok merged
  | (key, value) :: rest =>
    if isTimeoutKey key then overlay (merged.put key.plainText value) rest
    else .error (timeoutKeyComplaint key)

theorem exists_kind_of_isTimeoutKey {key : Value} (h : isTimeoutKey key = true) :
    ∃ kind : TimeoutKind, key.plainText = kind.text := by
  obtain ⟨-, hkind⟩ := Bool.and_eq_true_iff.mp h
  obtain ⟨kind, hk⟩ := Option.isSome_iff_exists.mp hkind
  exact ⟨kind, (ofText?_eq_some_iff.mp hk).symm⟩

theorem overlay_table (given : List (Value × Value)) (value : TimeoutKind → Value) :
    overlay (table value) given =
      match given.find? fun entry => !isTimeoutKey entry.1 with
      | some entry => .error (timeoutKeyComplaint entry.1)
      | none => .ok (table fun kind => (timeoutValue? given kind).getD (value kind)) := by
  induction given generalizing value with
  | nil => rfl
  | cons entry rest ih =>
      obtain ⟨key, v⟩ := entry
      by_cases hkey : isTimeoutKey key = true
      · obtain ⟨kind, hk⟩ := exists_kind_of_isTimeoutKey hkey
        rw [overlay, if_pos hkey, hk, put_table, ih,
          List.find?_cons_of_neg (by simp [hkey])]
        have hvalue : (fun other => (timeoutValue? rest other).getD
              (Function.update value kind v other)) =
            fun other => (timeoutValue? ((key, v) :: rest) other).getD (value other) := by
          funext other
          rw [timeoutValue?_cons, hk]
          by_cases hother : kind = other
          · subst hother
            cases timeoutValue? rest kind <;> simp
          · have htext := text_injective.ne hother
            cases timeoutValue? rest other <;> simp [htext, Function.update_of_ne (Ne.symm hother)]
        rw [hvalue]
      · rw [overlay, if_neg hkey, List.find?_cons_of_pos (by simpa using hkey)]

/-! ## Reading -/

/-- The standard timeouts as values, in order. -/
def standardTimeouts : Entries Value := table fun kind => .float (Timeouts.standard.get kind)

theorem readTimeout_eq (given : List (Value × Value)) (kind : TimeoutKind) :
    readTimeout given kind = (double ((timeoutValue? given kind).getD
      (.float (Timeouts.standard.get kind)))).inField kind.text := by
  unfold readTimeout
  cases timeoutValue? given kind <;> rfl

/-- Checking a value for every kind, in order. -/
theorem mapping_table (check : Value → Checked Double) (value : TimeoutKind → Value) :
    mapping check (.ofEntries (table value)) = Timeouts.entries <$> (
      let get (kind : TimeoutKind) := (check (value kind)).inField kind.text
      Timeouts.mk <$> get .create <*> get .truncate <*> get .drop <*> get .scan <*>
        get .select <*> get .insert <*> get .delete <*> get .update) := by
  have hnil : entriesOf check [] = pure [] := rfl
  simp only [mapping, Value.ofEntries, table, TimeoutKind.all, List.map_cons, List.map_nil,
    entriesOf_text_cons, hnil]
  simp only [seq_assoc, seq_map_assoc, map_seq, Functor.map_map, seq_pure]
  rfl

/-- **Timeouts are laid over the standard ones**, and checked when all are in place. -/
theorem entries_readTimeouts (given : List (Value × Value)) :
    Timeouts.entries <$> readTimeouts (.map given) =
      match overlay standardTimeouts given with
      | .error reason => refuse reason
      | .ok merged => mapping double (.ofEntries merged) := by
  rw [standardTimeouts, overlay_table]
  simp only [readTimeouts]
  cases given.find? fun entry => !isTimeoutKey entry.1 with
  | some entry => rfl
  | none => simp only [mapping_table, readTimeout_eq]

/-! ## The timeouts of accepted configurations -/

/-- A value is the last one given for a kind. -/
def IsLastFor (kind : TimeoutKind) (given : List (Value × Value)) (value : Value) : Prop :=
  ∃ before key after, given = before ++ (key, value) :: after ∧ key.plainText = kind.text ∧
    ∀ entry ∈ after, entry.1.plainText ≠ kind.text

theorem timeoutValue?_eq_some_iff {given : List (Value × Value)} {kind : TimeoutKind}
    {value : Value} : timeoutValue? given kind = some value ↔ IsLastFor kind given value := by
  simp only [timeoutValue?, Option.map_eq_some_iff, List.getLast?_eq_some_iff,
    List.filter_eq_append_iff, List.filter_eq_cons_iff, List.filter_eq_nil_iff]
  constructor
  · rintro ⟨⟨key, _⟩, ⟨_, before, _, rfl, -, between, after, rfl, hbetween, hkey, hafter⟩, rfl⟩
    exact ⟨before ++ between, key, after, by simp, by simpa using hkey, by simpa using hafter⟩
  · rintro ⟨before, key, after, rfl, hkey, hafter⟩
    exact ⟨(key, value), ⟨_, before, _, rfl, rfl, [], after, rfl, by simp, by simpa using hkey,
      by simpa using hafter⟩, rfl⟩

/-- What reading timeouts accepts: keys that name kinds, and the values that count. -/
theorem timeouts_of_read {given : List (Value × Value)} {t : Timeouts}
    (h : readTimeouts (.map given) = .valid t) :
    (∀ entry ∈ given, ∃ kind : TimeoutKind, entry.1.plainText = kind.text) ∧
      ∀ kind, (∃ value, IsLastFor kind given value ∧ double value = .valid (t.get kind)) ∨
        (∀ value, ¬IsLastFor kind given value) ∧ t.get kind = Timeouts.standard.get kind := by
  simp only [readTimeouts] at h
  split at h
  · cases h
  next hkeys =>
    obtain ⟨f₇, update, h₇, hupdate, rfl⟩ := seq_eq_valid h
    obtain ⟨f₆, delete, h₆, hdelete, rfl⟩ := seq_eq_valid h₇
    obtain ⟨f₅, insert, h₅, hinsert, rfl⟩ := seq_eq_valid h₆
    obtain ⟨f₄, select, h₄, hselect, rfl⟩ := seq_eq_valid h₅
    obtain ⟨f₃, scan, h₃, hscan, rfl⟩ := seq_eq_valid h₄
    obtain ⟨f₂, drop, h₂, hdrop, rfl⟩ := seq_eq_valid h₃
    obtain ⟨f₁, truncate, h₁, htruncate, rfl⟩ := seq_eq_valid h₂
    obtain ⟨create, hcreate, rfl⟩ := map_eq_valid h₁
    have hread (kind : TimeoutKind) : readTimeout given kind = .valid
        ((Timeouts.mk create truncate drop scan select insert delete update).get kind) := by
      cases kind <;> assumption
    refine ⟨fun entry hm => ?_, fun kind => ?_⟩
    · have hkey := List.find?_eq_none.mp hkeys entry hm
      exact exists_kind_of_isTimeoutKey (by simpa using hkey)
    · have hkind := hread kind
      unfold readTimeout at hkind
      split at hkind
      next hnone =>
        injection hkind with hkind
        refine Or.inr ⟨fun value hv => ?_, hkind.symm⟩
        rw [timeoutValue?_eq_some_iff.mpr hv] at hnone
        cases hnone
      next value hsome =>
        exact Or.inl ⟨value, timeoutValue?_eq_some_iff.mp hsome, under_eq_valid hkind⟩

end Config
end CqlWorkload
