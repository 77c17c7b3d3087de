import CqlWorkload.Config.Reader
import CqlWorkload.Schema.Reader
import Mathlib.Data.List.Forall2

/-!
# Accepted values

When checking a document accepts it, it has accepted all parts: each lemma says
what was accepted for one way of putting checks together.
-/

namespace CqlWorkload
namespace Checked

variable {α β : Type}

theorem map_eq_valid {f : α → β} {a : Checked α} {b : β} (h : f <$> a = .valid b) :
    ∃ x, a = .valid x ∧ f x = b := by
  cases a with
  | valid x => exact ⟨x, rfl, by injection h⟩
  | faulty issues => cases h

theorem seq_eq_valid {f : Checked (α → β)} {a : Checked α} {b : β}
    (h : f <*> a = .valid b) : ∃ g x, f = .valid g ∧ a = .valid x ∧ g x = b := by
  cases f with
  | valid g =>
      cases a with
      | valid x => exact ⟨g, x, rfl, rfl, by injection h⟩
      | faulty issues => cases h
  | faulty issues => cases a <;> cases h

theorem andThen_eq_valid {a : Checked α} {f : α → Checked β} {b : β}
    (h : a.andThen f = .valid b) : ∃ x, a = .valid x ∧ f x = .valid b := by
  cases a with
  | valid x => exact ⟨x, rfl, h⟩
  | faulty issues => cases h

theorem under_eq_valid {step : Issue.Step} {a : Checked α} {x : α}
    (h : a.under step = .valid x) : a = .valid x := by
  cases a with
  | valid y => exact h
  | faulty issues => cases h

theorem guarded_eq_valid {a b : α} {reason : Option String}
    (h : guarded a reason = .valid b) : reason = none ∧ a = b := by
  cases reason with
  | none => exact ⟨rfl, by injection h⟩
  | some text => cases h

theorem record_eq_valid {name : String} {check : List (Value × Value) → Checked α}
    {value : Value} {a : α} (h : record name check value = .valid a) :
    ∃ entries, check entries = .valid a := by
  cases value with
  | map entries => exact ⟨entries, h⟩
  | _ => cases h

theorem fieldOr_eq_valid {entries : List (Value × Value)} {name : String} {absent a : α}
    {check : Value → Checked α} (h : fieldOr entries name absent check = .valid a) :
    a = absent ∨ ∃ value, check value = .valid a := by
  unfold fieldOr at h
  split at h
  · next value _ => exact Or.inr ⟨value, under_eq_valid h⟩
  · exact Or.inl (by injection h with h; exact h.symm)

theorem field_eq_valid {entries : List (Value × Value)} {name : String} {a : α}
    {check : Value → Checked α} (h : field entries name check = .valid a) :
    ∃ value, check value = .valid a := by
  unfold field at h
  split at h
  · next value _ => exact ⟨value, under_eq_valid h⟩
  · cases h

theorem itemsFrom_eq_valid {check : Value → Checked α} {values : List Value} {n : Nat}
    {items : List α} {a : α} (h : itemsFrom check n values = .valid items) (ha : a ∈ items) :
    ∃ value, check value = .valid a := by
  induction values generalizing n items with
  | nil =>
      injection h with h
      subst h
      cases ha
  | cons value rest ih =>
      obtain ⟨f, more, hf, hm, rfl⟩ := seq_eq_valid h
      obtain ⟨first, hfirst, rfl⟩ := map_eq_valid hf
      rcases List.mem_cons.mp ha with rfl | ha
      · exact ⟨value, under_eq_valid hfirst⟩
      · exact ih hm ha

/-- Every item of an accepted list was accepted. -/
theorem list_eq_valid {check : Value → Checked α} {value : Value} {items : List α} {a : α}
    (h : list check value = .valid items) (ha : a ∈ items) : ∃ item, check item = .valid a := by
  cases value with
  | list values => exact itemsFrom_eq_valid h ha
  | _ => cases h

/-! ## Valid parts -/

@[simp] theorem map_valid (f : α → β) (a : α) : f <$> Checked.valid a = .valid (f a) := rfl

@[simp] theorem seq_valid (f : α → β) (a : α) :
    (Checked.valid f) <*> (Checked.valid a) = .valid (f a) := rfl

@[simp] theorem under_valid (step : Issue.Step) (a : α) :
    (Checked.valid a).under step = .valid a := rfl

theorem under_eq_valid_iff {step : Issue.Step} {a : Checked α} {x : α} :
    a.under step = .valid x ↔ a = .valid x :=
  ⟨under_eq_valid, fun h => by rw [h, under_valid]⟩

theorem map_eq_valid_iff {f : α → β} {a : Checked α} {b : β} :
    f <$> a = .valid b ↔ ∃ x, a = .valid x ∧ f x = b :=
  ⟨map_eq_valid, fun ⟨_, ha, hb⟩ => by rw [ha, map_valid, hb]⟩

theorem seq_eq_valid_iff {f : Checked (α → β)} {a : Checked α} {b : β} :
    f <*> a = .valid b ↔ ∃ g x, f = .valid g ∧ a = .valid x ∧ g x = b :=
  ⟨seq_eq_valid, fun ⟨_, _, hf, ha, hb⟩ => by rw [hf, ha, seq_valid, hb]⟩

theorem andThen_eq_valid_iff {a : Checked α} {f : α → Checked β} {b : β} :
    a.andThen f = .valid b ↔ ∃ x, a = .valid x ∧ f x = .valid b :=
  ⟨andThen_eq_valid, fun ⟨_, ha, hb⟩ => by rw [ha, andThen, hb]⟩

theorem guarded_eq_valid_iff {a b : α} {reason : Option String} :
    guarded a reason = .valid b ↔ reason = none ∧ a = b :=
  ⟨guarded_eq_valid, fun ⟨hr, ha⟩ => by rw [hr, ha, guarded]⟩

theorem fieldOr_eq_valid_iff {entries : List (Value × Value)} {name : String} {absent a : α}
    {check : Value → Checked α} :
    fieldOr entries name absent check = .valid a ↔
      (Value.lookup entries name = none ∧ a = absent) ∨
        ∃ value, Value.lookup entries name = some value ∧ check value = .valid a := by
  unfold fieldOr
  cases Value.lookup entries name with
  | none => simp [eq_comm]
  | some value => simp [inField, under_eq_valid_iff]

theorem field_eq_valid_iff {entries : List (Value × Value)} {name : String} {a : α}
    {check : Value → Checked α} :
    field entries name check = .valid a ↔
      ∃ value, Value.lookup entries name = some value ∧ check value = .valid a := by
  unfold field
  cases Value.lookup entries name with
  | none => simp [inField, fault, under]
  | some value => simp [inField, under_eq_valid_iff]

/-- A list is accepted as its items are, one after the other. -/
theorem list_eq_valid_iff {check : Value → Checked α} {values : List Value} {items : List α} :
    list check (.list values) = .valid items ↔
      List.Forall₂ (fun value a => check value = .valid a) values items := by
  suffices hs : ∀ n, itemsFrom check n values = .valid items ↔
      List.Forall₂ (fun value a => check value = .valid a) values items from hs 0
  induction values generalizing items with
  | nil =>
      intro n
      simp [itemsFrom, eq_comm]
  | cons value rest ih =>
      intro n
      simp only [itemsFrom, seq_eq_valid_iff, map_eq_valid_iff, under_eq_valid_iff, ih,
        List.forall₂_cons_left_iff]
      constructor
      · rintro ⟨g, more, ⟨a, ha, rfl⟩, hmore, rfl⟩
        exact ⟨a, more, ha, hmore, rfl⟩
      · rintro ⟨a, more, ha, hmore, rfl⟩
        exact ⟨_, more, ⟨a, ha, rfl⟩, hmore, rfl⟩

theorem key_eq_valid_iff {k : Value} {name : String} : key k = .valid name ↔ k = .text name := by
  cases k with
  | text s => simp [key]
  | _ => simp [key, fault, under]

/-- A mapping is accepted as its keys and values are, one after the other. -/
theorem mapping_eq_valid_iff {check : Value → Checked α} {entries : List (Value × Value)}
    {found : List (String × α)} :
    mapping check (.map entries) = .valid found ↔
      List.Forall₂ (fun e f => e.1 = .text f.1 ∧ check e.2 = .valid f.2) entries found := by
  show entriesOf check entries = .valid found ↔ _
  induction entries generalizing found with
  | nil => simp [entriesOf, eq_comm]
  | cons entry rest ih =>
      obtain ⟨k, value⟩ := entry
      simp only [entriesOf, seq_eq_valid_iff, map_eq_valid_iff, under_eq_valid_iff,
        key_eq_valid_iff, ih, List.forall₂_cons_left_iff]
      constructor
      · rintro ⟨g, more, ⟨f, a, ⟨name, hk, rfl⟩, ha, rfl⟩, hmore, rfl⟩
        exact ⟨(name, a), more, ⟨hk, ha⟩, hmore, rfl⟩
      · rintro ⟨⟨name, a⟩, more, ⟨hk, ha⟩, hmore, rfl⟩
        exact ⟨_, more, ⟨_, a, ⟨name, hk, rfl⟩, ha, rfl⟩, hmore, rfl⟩

/-! ## Putting checks together -/

instance : LawfulApplicative Checked where
  map_const := rfl
  id_map a := by cases a <;> rfl
  seqLeft_eq a b := by cases a <;> cases b <;> rfl
  seqRight_eq a b := by cases a <;> cases b <;> rfl
  pure_seq f a := by cases a <;> rfl
  map_pure f a := rfl
  seq_pure f a := by cases f <;> rfl
  seq_assoc a f g := by
    cases a <;> cases f <;> cases g <;>
      simp [Seq.seq, Functor.map, both, map]

theorem entriesOf_text_cons (check : Value → Checked α) (name : String) (value : Value)
    (rest : List (Value × Value)) :
    entriesOf check ((.text name, value) :: rest) =
      (fun a more => (name, a) :: more) <$> (check value).inField name <*>
        entriesOf check rest := by
  show pure (fun a more => (name, a) :: more) <*> (check value).inField name <*> _ = _
  rw [pure_seq]

end Checked
end CqlWorkload
