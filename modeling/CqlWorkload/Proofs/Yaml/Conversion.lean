import CqlWorkload.Proofs.Yaml.Faults
import CqlWorkload.Proofs.Yaml.Untagged
import CqlWorkload.Yaml.Reader

/-!
# Values that do not exist

A text that keeps the rules of the format has a value unless one of its scalars has none:
every other fault of a text comes from its characters or is the fault of a scalar of its
node (`read_fault`).

**Scalars.** A scalar that has the tag of its form lacks a value for one of a few reasons
(`LacksUntagged`); any other tag may be written next to a text that it does not fit.

**Parts.** The value of a node is made of the values of its parts, and fails for a fault of
one of them, whichever of several counts.
-/

namespace CqlWorkload.Yaml

namespace Node

/-- A node that another one is made of, on whatever level. -/
inductive PartOf (part : Node) : Node → Prop
  | self : PartOf part part
  | item {tag : Tag} {items : List Node} {item : Node} (hm : item ∈ items)
      (h : PartOf part item) : PartOf part (.list tag items)
  | key {tag : Tag} {entries : List (Node × Node)} {entry : Node × Node} (hm : entry ∈ entries)
      (h : PartOf part entry.1) : PartOf part (.mapping tag entries)
  | value {tag : Tag} {entries : List (Node × Node)} {entry : Node × Node} (hm : entry ∈ entries)
      (h : PartOf part entry.2) : PartOf part (.mapping tag entries)

/-- A node that is read as a scalar has no value. -/
inductive Lacks (node : Node) : Fault → Prop
  /-- The scalar has the tag of its form, and still no value. -/
  | untagged {text : String} {fault : Fault} (htext : node.scalarText? = some text)
      (htag : node.tag = Tag.ofPlain text) (h : LacksUntagged text fault) : Lacks node fault
  /-- The scalar has another tag, and no value of it. -/
  | tagged {text : String} {fault : Fault} (htext : node.scalarText? = some text)
      (htag : node.tag ≠ Tag.ofPlain text) (h : Scalar.value node.tag text = .error fault) :
      Lacks node fault
  /-- A time stamp is asked of a mapping. -/
  | stamp (hmapping : node.isMapping = true) (htag : node.tag = .stamp) :
      Lacks node .stampOfMapping

theorem lacks_of_value {node : Node} {text : String} {fault : Fault}
    (htext : node.scalarText? = some text) (h : Scalar.value node.tag text = .error fault) :
    node.Lacks fault := by
  by_cases htag : node.tag = Tag.ofPlain text
  · rw [htag] at h
    exact .untagged htext htag (value_ofPlain_eq_error_iff.mp h)
  · exact .tagged htext htag h

end Node

namespace Leveled

variable {α β : Type}

/-- All faults are of one kind. -/
def FailsFor (P : Fault → Prop) (found : Leveled α) : Prop :=
  ∀ level fault, found = .faulty level fault → P fault

namespace FailsFor

variable {P : Fault → Prop}

theorem fine (a : α) : FailsFor P (.fine a) := by
  intro level fault h
  cases h

theorem faulty {level : Nat} {fault : Fault} (h : P fault) :
    FailsFor P (.faulty level fault : Leveled α) := by
  intro _ _ hf
  cases hf
  exact h

theorem map {found : Leveled α} (h : FailsFor P found) (f : α → β) :
    FailsFor P (f <$> found) := by
  cases found with
  | fine a => exact fine (f a)
  | faulty level fault => exact faulty (h level fault rfl)

theorem seq {f : Leveled (α → β)} {a : Leveled α} (hf : FailsFor P f) (ha : FailsFor P a) :
    FailsFor P (f <*> a) := by
  cases f with
  | fine f =>
      cases a with
      | fine a => exact fine (f a)
      | faulty m q => exact faulty (ha m q rfl)
  | faulty n p =>
      cases a with
      | fine a => exact faulty (hf n p rfl)
      | faulty m q =>
          show FailsFor P (if m < n then .faulty m q else .faulty n p)
          split
          · exact faulty (ha m q rfl)
          · exact faulty (hf n p rfl)

theorem atLevel {level : Nat} {found : Except Fault α}
    (h : ∀ fault, found = .error fault → P fault) : FailsFor P (.atLevel level found) := by
  cases found with
  | ok a => exact fine a
  | error fault => exact faulty (h fault rfl)

theorem together {parts : List (Leveled α)} (h : ∀ part ∈ parts, FailsFor P part) :
    FailsFor P (Node.together parts) := by
  induction parts with
  | nil => exact fine []
  | cons part rest ih =>
      obtain ⟨hpart, hrest⟩ := List.forall_mem_cons.mp h
      exact (hpart.map List.cons).seq (ih hrest)

end FailsFor
end Leveled

open Leveled

namespace Node

/-! ## Parts of a node -/

section Parts

variable {P : Fault → Prop}

/-- A kind of faults that has the fault of a node that is read as a scalar. -/
theorem failsFor_scalarValue (hm : P .malformed) {node : Node}
    (h : ∀ fault, node.Lacks fault → P fault) (level : Nat) :
    FailsFor P (scalarValue level node) := by
  unfold scalarValue
  split
  · exact .faulty hm
  next text htext =>
    split
    next hstamp =>
      obtain ⟨hmapping, htag⟩ := Bool.and_eq_true_iff.mp hstamp
      exact .faulty (h _ (.stamp hmapping (beq_iff_eq.mp htag)))
    · exact .atLevel fun fault hf => h fault (lacks_of_value htext hf)

theorem failsFor_keyValue (hm : P .malformed) {key : Node}
    (h : ∀ fault, key.Lacks fault → P fault) (level : Nat) :
    FailsFor P (keyValue level key) := by
  unfold keyValue
  split
  · exact .faulty hm
  · split
    · split
      · exact .fine _
      · exact .faulty hm
    · exact failsFor_scalarValue hm h level

/-- Whatever the parts of a node lack is of a kind. -/
def LacksFor (P : Fault → Prop) (node : Node) : Prop :=
  ∀ (part : Node) (fault : Fault), PartOf part node → Lacks part fault → P fault

theorem LacksFor.items {tag : Tag} {items : List Node} (h : LacksFor P (.list tag items)) :
    ∀ item ∈ items, LacksFor P item :=
  fun _ hi part fault hp => h part fault (.item hi hp)

theorem LacksFor.entries {tag : Tag} {entries : List (Node × Node)}
    (h : LacksFor P (.mapping tag entries)) :
    ∀ entry ∈ entries, LacksFor P entry.1 ∧ LacksFor P entry.2 :=
  fun _ he => ⟨fun part fault hp => h part fault (.key he hp),
    fun part fault hp => h part fault (.value he hp)⟩

/-- What is read fails for a fault of a kind, or has a property. -/
def Yields {α : Type} (P : Fault → Prop) (q : α → Prop) : Except Fault α → Prop
  | .error fault => P fault
  | .ok a => q a

theorem Yields.bind {α β : Type} {q : α → Prop} {r : β → Prop} {found : Except Fault α}
    {f : α → Except Fault β} (h : Yields P q found) (hf : ∀ a, q a → Yields P r (f a)) :
    Yields P r (found >>= f) := by
  cases found with
  | ok a => exact hf a h
  | error fault => exact h

/-- All of some parts fail for faults of a kind. -/
def AllFailFor {α : Type} (P : Fault → Prop) (parts : List (Leveled α)) : Prop :=
  ∀ part ∈ parts, FailsFor P part

theorem AllFailFor.append {α : Type} {first second : List (Leveled α)}
    (hfirst : AllFailFor P first) (hsecond : AllFailFor P second) :
    AllFailFor P (first ++ second) :=
  List.forall_mem_append.mpr ⟨hfirst, hsecond⟩

mutual

theorem failsFor_toValue (hm : P .malformed) (node : Node) (h : LacksFor P node) (level : Nat) :
    FailsFor P (toValue level node) := by
  have hother : FailsFor P (if hasParts node.tag then .faulty (level + 1) .malformed
      else scalarValue level node) := by
    split
    · exact .faulty hm
    · exact failsFor_scalarValue hm (fun fault hf => h node fault .self hf) level
  match node, h, hother with
  | .scalar _ _, _, hother =>
      rw [toValue]
      · exact hother
      all_goals nofun
  | .list tag items, h, hother =>
      by_cases hlist : tag = .list
      · subst hlist
        rw [toValue]
        exact .map (.together (allFailFor_itemValues hm items h.items (level + 1))) _
      · by_cases hpairs : tag = .pairs
        · subst hpairs
          rw [toValue]
          exact .map (.together (allFailFor_pairValues hm items h.items (level + 1))) _
        · rw [toValue]
          · exact hother
          · exact fun _ heq => hlist (Node.list.inj heq).1
          · exact fun _ heq => hpairs (Node.list.inj heq).1
          all_goals nofun
  | .mapping tag entries, h, hother =>
      have hentries := yields_entryValues hm entries h.entries (level + 1)
      have hread : FailsFor P (match entryValues (level + 1) entries with
          | .error fault => .faulty (level + 1) fault
          | .ok (merged, own) => mappingOf <$> together (merged ++ own)) := by
        cases hread : entryValues (level + 1) entries with
        | error fault =>
            rw [hread] at hentries
            exact .faulty hentries
        | ok found =>
            rw [hread] at hentries
            exact .map (.together (hentries.1.append hentries.2)) _
      by_cases hmapping : tag = .mapping
      · subst hmapping
        rw [toValue]
        exact hread
      · by_cases hset : tag = .set
        · subst hset
          rw [toValue]
          exact hread
        · rw [toValue]
          · exact hother
          · nofun
          · nofun
          · exact fun _ heq => hmapping (Node.mapping.inj heq).1
          · exact fun _ heq => hset (Node.mapping.inj heq).1

theorem allFailFor_itemValues (hm : P .malformed) (items : List Node)
    (h : ∀ item ∈ items, LacksFor P item) (level : Nat) :
    AllFailFor P (itemValues level items) := by
  match items, h with
  | [], _ => exact List.forall_mem_nil _
  | item :: rest, h =>
      obtain ⟨hitem, hrest⟩ := List.forall_mem_cons.mp h
      rw [itemValues]
      exact List.forall_mem_cons.mpr ⟨failsFor_toValue hm item hitem level,
        allFailFor_itemValues hm rest hrest level⟩

theorem allFailFor_pairValues (hm : P .malformed) (items : List Node)
    (h : ∀ item ∈ items, LacksFor P item) (level : Nat) :
    AllFailFor P (pairValues level items) := by
  match items, h with
  | [], _ => exact List.forall_mem_nil _
  | .mapping tag [(key, value)] :: rest, h =>
      obtain ⟨hitem, hrest⟩ := List.forall_mem_cons.mp h
      obtain ⟨hkey, hvalue⟩ := hitem.entries _ (List.mem_singleton_self _)
      rw [pairValues]
      exact List.forall_mem_cons.mpr
        ⟨((failsFor_toValue hm key hkey level).map _).seq (failsFor_toValue hm value hvalue level),
          allFailFor_pairValues hm rest hrest level⟩
  | .scalar _ _ :: rest, h | .list _ _ :: rest, h | .mapping _ [] :: rest, h
  | .mapping _ (_ :: _ :: _) :: rest, h =>
      exact List.forall_mem_cons.mpr ⟨.faulty hm,
        allFailFor_pairValues hm rest (List.forall_mem_cons.mp h).2 level⟩

theorem yields_entryValues (hm : P .malformed) (entries : List (Node × Node))
    (h : ∀ entry ∈ entries, LacksFor P entry.1 ∧ LacksFor P entry.2) (level : Nat) :
    Yields P (fun found => AllFailFor P found.1 ∧ AllFailFor P found.2)
      (entryValues level entries) := by
  match entries, h with
  | [], _ => exact ⟨List.forall_mem_nil _, List.forall_mem_nil _⟩
  | (key, value) :: rest, h =>
      obtain ⟨⟨hkey, hvalue⟩, hrest⟩ := List.forall_mem_cons.mp h
      have hread : FailsFor P (Prod.mk <$> keyValue level key <*> toValue level value) :=
        ((failsFor_keyValue hm (fun fault hf => hkey key fault .self hf) level).map _).seq
          (failsFor_toValue hm value hvalue level)
      rw [entryValues]
      refine (yields_entryValues hm rest hrest level).bind fun found hfound => ?_
      dsimp only
      split
      · exact (yields_mergedValues hm value hvalue level).bind fun merged hmerged =>
          ⟨hmerged.append hfound.1, hfound.2⟩
      · exact ⟨hfound.1, List.forall_mem_cons.mpr ⟨hread, hfound.2⟩⟩

theorem yields_mergedValues (hm : P .malformed) (node : Node) (h : LacksFor P node)
    (level : Nat) : Yields P (AllFailFor P) (mergedValues level node) := by
  match node, h with
  | .mapping tag entries, h =>
      rw [mergedValues]
      exact (yields_entryValues hm entries h.entries level).bind fun found hfound =>
        hfound.1.append hfound.2
  | .list tag items, h =>
      rw [mergedValues]
      exact yields_mergedItems hm items h.items level
  | .scalar _ _, _ => exact hm

theorem yields_mergedItems (hm : P .malformed) (items : List Node)
    (h : ∀ item ∈ items, LacksFor P item) (level : Nat) :
    Yields P (AllFailFor P) (mergedItems level items) := by
  match items, h with
  | [], _ => exact List.forall_mem_nil _
  | .mapping tag entries :: rest, h =>
      obtain ⟨hitem, hrest⟩ := List.forall_mem_cons.mp h
      rw [mergedItems]
      exact (yields_entryValues hm entries hitem.entries level).bind fun found hfound =>
        (yields_mergedItems hm rest hrest level).bind fun others hothers =>
          hothers.append (hfound.1.append hfound.2)
  | .scalar _ _ :: _, _ => exact hm
  | .list _ _ :: _, _ => exact hm

end

end Parts

/-- A node has no value for the fault of one of its parts. -/
theorem fault_of_toValue {node : Node} {level : Nat} {fault : Fault}
    (h : (toValue level node).toExcept = .error fault) :
    fault = .malformed ∨ ∃ part, PartOf part node ∧ Lacks part fault := by
  let P (fault : Fault) : Prop := fault = .malformed ∨ ∃ part, PartOf part node ∧ Lacks part fault
  have hlacks : LacksFor P node := fun part _ hpart hlacks => Or.inr ⟨part, hpart, hlacks⟩
  cases hvalue : toValue level node with
  | fine value =>
      rw [hvalue] at h
      cases h
  | faulty found other =>
      rw [hvalue] at h
      cases h
      exact failsFor_toValue (Or.inl rfl) node hlacks level found fault hvalue

end Node

theorem unsupported_of_demandSupport {condition : Bool} {fault : Fault}
    (h : demandSupport condition = .error fault) : fault = .unsupported := by
  unfold demandSupport at h
  split at h <;> cases h
  rfl

/-- **What is wrong with a text** comes from its characters, or a scalar of its node has no
value, or the node asks for a value that this library has none of. -/
theorem read_fault {s : String} {fault : Fault} (h : read s = .error fault) :
    fault = .unsupported ∨ fault.From s.toList ∨
      ∃ node part, Node.ofText s = .ok (some node) ∧ Node.PartOf part node ∧ part.Lacks fault := by
  rcases error_of_bind h with hnode | ⟨found, hnode, h⟩
  · exact Or.inr (Or.inl (Node.fault_of_ofText hnode))
  · cases found with
    | none => cases h
    | some node =>
        rcases error_of_bind h with hfinished | ⟨_, -, h⟩
        · exact Or.inl (unsupported_of_demandSupport hfinished)
        · rcases error_of_bind h with hvalue | ⟨value, -, h⟩
          · rcases Node.fault_of_toValue hvalue with rfl | ⟨part, hpart, hlacks⟩
            · exact Or.inr (Or.inl .malformed)
            · exact Or.inr (Or.inr ⟨node, part, hnode, hpart, hlacks⟩)
          · rcases error_of_bind h with hsupported | ⟨_, -, h⟩
            · exact Or.inl (unsupported_of_demandSupport hsupported)
            · cases h

end CqlWorkload.Yaml
