import CqlWorkload.Naming.Registry
import CqlWorkload.Proofs.Entries

/-!
# Issued names

A name that a registry issues is what its template makes of the element and its
role, it stays with its owner, and it is no identifier that a schema declares
for something else only.

**Growth.** `Registry.Extends` says what any number of claims leaves of a
registry: its template and the declared identifiers stay, issued names keep
their owners, and every new name is admitted for its owner.

**Identity.** Hints that stand in for no attribute leave the owner with the
attributes of its element, so owners tell elements apart.
-/

namespace CqlWorkload

/-! ## Names from a template -/

namespace Element

/-- The owner of an element in the role that hints give it. -/
def ownerIn? (e : Element) (hints : List (String × String)) : Option Owner :=
  e.owner?.map (·.inRole (Role.ofHints hints))

/-- The identifier that an element declares. -/
def identifier? (e : Element) : Option String := e.owner?.map (·.name)

end Element

/-- What a template makes of an element in the role that hints give it. -/
def Template.nameOf (t : Template) (e : Element) (hints : List (String × String)) : String :=
  match e.ownerIn? hints with
  | none => ""
  | some owner => render (owner.value e.typeText? (Role.ofHints hints)) t.pieces

namespace Role

/-- The fields that a hint may stand in for. -/
def attributes : List Field := [.kind, .keyspace, .table, .name]

/-- Hints that stand in for no attribute of an element. -/
def IsPlain (role : Entries String) : Prop :=
  ∀ key, key ∈ role.keys → ∀ field, field ∈ attributes → Text.upperText key ≠ field.text

theorem IsPlain.hint?_eq_none {role : Entries String} (h : IsPlain role) {field : Field}
    (hf : field ∈ attributes) : hint? role field = none := by
  rw [hint?, Option.map_eq_none_iff, List.find?_eq_none]
  intro hint hm he
  exact h hint.1 (List.mem_map.mpr ⟨hint, List.mem_reverse.mp hm, rfl⟩) field hf
    (by simpa using he)

theorem ofHints_single {hint : String × String} (h : Text.lowerText hint.1 = hint.1) :
    ofHints [hint] = [hint] := by
  simp [ofHints, Entries.putAll, Entries.put, h]

theorem ofHints_pair {first second : String × String} (hf : Text.lowerText first.1 = first.1)
    (hs : Text.lowerText second.1 = second.1) (hn : first.1 ≠ second.1) :
    ofHints [first, second] = [first, second] := by
  simp [ofHints, Entries.putAll, Entries.put, hf, hs, hn]

end Role

/-- In a role that stands in for no attribute an owner keeps all of its own. -/
theorem Owner.inRole_eq {role : Entries String} (base : Owner) (h : Role.IsPlain role) :
    base.inRole role = { base with role := Text.sortedEntries role } := by
  have hk : Role.hint? role .kind = none := h.hint?_eq_none (by decide)
  have hs : Role.hint? role .keyspace = none := h.hint?_eq_none (by decide)
  have ht : Role.hint? role .table = none := h.hint?_eq_none (by decide)
  have hn : Role.hint? role .name = none := h.hint?_eq_none (by decide)
  simp [inRole, hk, hs, ht, hn]

namespace Registry

/-! ## Claims -/

/-- The owners that declare an identifier. -/
def declarers (r : Registry) (name : String) : List Owner := (r.declared.get? name).getD []

/-- A name that is declared for nothing, or for the element of an owner among others. -/
def Admits (r : Registry) (name : String) (owner : Owner) : Prop :=
  r.declarers name = [] ∨ ∃ d, d ∈ r.declarers name ∧ d.sameElement owner = true

/-- A registry after some claims. -/
structure Extends (r later : Registry) : Prop where
  template : later.template = r.template
  declared : later.declared = r.declared
  kept : ∀ name owner, r.issued.get? name = some owner → later.issued.get? name = some owner
  admitted : ∀ name owner, later.issued.get? name = some owner →
    r.issued.get? name = some owner ∨ r.Admits name owner

theorem Extends.refl (r : Registry) : r.Extends r :=
  ⟨rfl, rfl, fun _ _ h => h, fun _ _ h => Or.inl h⟩

theorem Extends.admits_iff {r later : Registry} (h : r.Extends later) (name : String)
    (owner : Owner) : later.Admits name owner ↔ r.Admits name owner := by
  rw [Admits, Admits, declarers, declarers, h.declared]

theorem Extends.trans {a b c : Registry} (hab : a.Extends b) (hbc : b.Extends c) :
    a.Extends c where
  template := hbc.template.trans hab.template
  declared := hbc.declared.trans hab.declared
  kept := fun name owner h => hbc.kept name owner (hab.kept name owner h)
  admitted := by
    intro name owner h
    rcases hbc.admitted name owner h with h | h
    · exact hab.admitted name owner h
    · exact Or.inr ((hab.admits_iff name owner).mp h)

/-- A claimed name was free or its owner's already, and the claim enters the name only. -/
theorem claim_eq_ok {r later : Registry} {name : String} {owner : Owner}
    (h : r.claim name owner = .ok later) :
    r.Admits name owner ∧ later = { r with issued := r.issued.put name owner } ∧
      (r.issued.get? name = none ∨ r.issued.get? name = some owner) := by
  have hadmits : ¬(∃ first, (r.declarers name).head? = some first ∧
      (r.declarers name).any (·.sameElement owner) = false) → r.Admits name owner := by
    intro hn
    cases hd : r.declarers name with
    | nil => exact Or.inl hd
    | cons first rest =>
        have hany : (r.declarers name).any (·.sameElement owner) = true := by
          by_contra hf
          exact hn ⟨first, by rw [hd]; rfl, Bool.eq_false_iff.mpr hf⟩
        obtain ⟨d, hm, hs⟩ := List.any_eq_true.mp hany
        exact Or.inr ⟨d, hm, hs⟩
  unfold claim at h
  dsimp only at h
  split at h
  · cases h
  next hshadow =>
  have ha : r.Admits name owner := hadmits fun ⟨first, hf, hs⟩ => hshadow first hf hs
  split at h
  next existing he =>
    split at h
    · next hs =>
        injection h with h
        exact ⟨ha, h.symm, Or.inr (hs ▸ he)⟩
    · cases h
  next hn =>
    injection h with h
    exact ⟨ha, h.symm, Or.inl hn⟩

/-- An admitted name is entered unless another owner has it. -/
theorem claim_of_admits {r : Registry} {name : String} {owner : Owner}
    (h : r.Admits name owner) :
    r.claim name owner =
      match r.issued.get? name with
      | some existing =>
        if existing = owner then .ok { r with issued := r.issued.put name owner }
        else .error (.claimedName name existing owner)
      | none => .ok { r with issued := r.issued.put name owner } := by
  rw [Admits, declarers] at h
  rw [claim]
  split
  next first hfirst hany =>
    -- The owner is one of those that declare the name, if any does.
    exfalso
    rcases h with hnone | ⟨d, hm, hs⟩
    · rw [hnone] at hfirst
      cases hfirst
    · rw [List.any_eq_false] at hany
      exact hany d hm hs
  · rfl

/-- A name is claimed again for its owner, and nothing changes. -/
theorem claim_again {r : Registry} {name : String} {owner : Owner} (h : r.Admits name owner)
    (hi : r.issued.get? name = some owner) : r.claim name owner = .ok r := by
  rw [claim_of_admits h, hi]
  simp [Entries.put_of_get? hi]

theorem extends_claim {r later : Registry} {name : String} {owner : Owner}
    (h : r.claim name owner = .ok later) :
    r.Extends later ∧ later.issued.get? name = some owner := by
  obtain ⟨ha, rfl, hfree⟩ := claim_eq_ok h
  refine ⟨⟨rfl, rfl, ?_, ?_⟩, Entries.get?_put_self name owner r.issued⟩
  · intro other its ho
    by_cases hn : other = name
    · subst hn
      rcases hfree with hf | hf
      · rw [hf] at ho
        cases ho
      · rw [← ho, hf]
        exact Entries.get?_put_self other owner r.issued
    · exact (Entries.get?_put_of_ne owner hn r.issued).trans ho
  · intro other its ho
    by_cases hn : other = name
    · subst hn
      have hsame := (Entries.get?_put_self other owner r.issued).symm.trans ho
      injection hsame with hsame
      exact Or.inr (hsame ▸ ha)
    · exact Or.inl ((Entries.get?_put_of_ne owner hn r.issued).symm.trans ho)

/-- A name that is issued is made by the template, is not empty and is claimed. -/
theorem claim_of_nameFor {r later : Registry} {e : Element} {hints : List (String × String)}
    {name : String} (h : r.nameFor e hints = .ok (name, later)) :
    ∃ owner, e.ownerIn? hints = some owner ∧ name = r.template.nameOf e hints ∧ name ≠ "" ∧
      r.claim name owner = .ok later := by
  unfold nameFor at h
  split at h
  · cases h
  next base hb =>
  dsimp only at h
  split at h
  · cases h
  next hne =>
  split at h
  · cases h
  next claimed hc =>
  simp only [Except.ok.injEq, Prod.mk.injEq] at h
  obtain ⟨rfl, rfl⟩ := h
  have ho : e.ownerIn? hints = some (base.inRole (Role.ofHints hints)) := by
    rw [Element.ownerIn?, hb, Option.map_some]
  refine ⟨_, ho, ?_, hne, hc⟩
  rw [Template.nameOf, ho]

/-- **What issuing a name does.** The name comes from the template, and the registry
grows by it. -/
theorem nameFor_eq_ok {r later : Registry} {e : Element} {hints : List (String × String)}
    {name : String} (h : r.nameFor e hints = .ok (name, later)) :
    ∃ owner, e.ownerIn? hints = some owner ∧ name = r.template.nameOf e hints ∧
      r.Extends later ∧ later.issued.get? name = some owner := by
  obtain ⟨owner, ho, hmade, -, hclaim⟩ := claim_of_nameFor h
  exact ⟨owner, ho, hmade, extends_claim hclaim⟩

/-- A name that nothing declares and that no other owner has is entered. -/
theorem claim_of_free {r : Registry} {name : String} {owner : Owner}
    (hd : r.declarers name = [])
    (hi : ∀ existing, r.issued.get? name = some existing → existing = owner) :
    r.claim name owner = .ok { r with issued := r.issued.put name owner } := by
  rw [claim_of_admits (Or.inl hd)]
  cases hg : r.issued.get? name with
  | none => rfl
  | some existing => exact if_pos (hi existing hg)

/-- A name that is not empty is claimed for the owner of the element in its role. -/
theorem nameFor_eq_claim {r : Registry} {e : Element} {hints : List (String × String)}
    {owner : Owner} (ho : e.ownerIn? hints = some owner) (hn : r.template.nameOf e hints ≠ "") :
    r.nameFor e hints =
      (fun later => (r.template.nameOf e hints, later)) <$>
        r.claim (r.template.nameOf e hints) owner := by
  obtain ⟨base, hb, rfl⟩ := Option.map_eq_some_iff.mp ho
  rw [Template.nameOf, ho] at hn ⊢
  dsimp only at hn ⊢
  rw [nameFor, hb]
  dsimp only
  rw [if_neg hn]
  cases r.claim _ (base.inRole (Role.ofHints hints)) <;> rfl

/-- A name that is not empty and can be claimed is issued. -/
theorem nameFor_of_claim {r later : Registry} {e : Element} {hints : List (String × String)}
    {owner : Owner} (ho : e.ownerIn? hints = some owner) (hn : r.template.nameOf e hints ≠ "")
    (hc : r.claim (r.template.nameOf e hints) owner = .ok later) :
    r.nameFor e hints = .ok (r.template.nameOf e hints, later) := by
  rw [nameFor_eq_claim ho hn, hc]
  rfl

/-! ## Names for good -/

/-- A name that an owner has in a registry and in all later ones. -/
structure Holds (r : Registry) (name : String) (owner : Owner) : Prop where
  nonempty : name ≠ ""
  issued : r.issued.get? name = some owner
  admitted : r.Admits name owner

theorem holds_of_nameFor {r later : Registry} {e : Element} {hints : List (String × String)}
    {name : String} (h : r.nameFor e hints = .ok (name, later)) :
    ∃ owner, e.ownerIn? hints = some owner ∧ later.Holds name owner := by
  obtain ⟨owner, ho, -, hne, hclaim⟩ := claim_of_nameFor h
  obtain ⟨hext, hissued⟩ := extends_claim hclaim
  exact ⟨owner, ho, hne, hissued, (hext.admits_iff _ _).mpr (claim_eq_ok hclaim).1⟩

namespace Holds

variable {r later : Registry} {name : String} {owner : Owner} {e : Element}
  {hints : List (String × String)}

theorem extend (h : r.Holds name owner) (hr : r.Extends later) : later.Holds name owner :=
  ⟨h.nonempty, hr.kept _ _ h.issued, (hr.admits_iff _ _).mpr h.admitted⟩

/-- The name is issued again for its owner, and nothing changes. -/
theorem nameFor_eq (h : r.Holds name owner) (ho : e.ownerIn? hints = some owner)
    (hn : r.template.nameOf e hints = name) : r.nameFor e hints = .ok (name, r) := by
  subst hn
  exact nameFor_of_claim ho h.nonempty (claim_again h.admitted h.issued)

end Holds

/-- What was issued once is issued again later, and nothing changes. -/
theorem nameFor_again {r later u : Registry} {e : Element} {hints : List (String × String)}
    {name : String} (h : r.nameFor e hints = .ok (name, later)) (hu : later.Extends u) :
    u.nameFor e hints = .ok (name, u) := by
  obtain ⟨owner, ho, hholds⟩ := holds_of_nameFor h
  obtain ⟨_, -, rfl, hext, -⟩ := nameFor_eq_ok h
  exact (hholds.extend hu).nameFor_eq ho (by rw [hu.template, hext.template])

/-! ## Declared identifiers -/

def owners (s : Schema) : List Owner := (elements s).filterMap (·.owner?)

theorem declarers_declare (r : Registry) (e : Element) (name : String) :
    (r.declare e).declarers name =
      r.declarers name ++ (e.owner?.toList.filter (·.name == name)) := by
  unfold declare
  split
  next ho => simp [ho]
  next owner ho =>
    by_cases hn : owner.name = name
    · subst hn
      simp [declarers, Entries.adjust, Entries.get?_put_self, ho]
    · have hg : Entries.get? (r.declared.adjust owner.name fun old => old.getD [] ++ [owner])
          name = r.declared.get? name := Entries.get?_put_of_ne _ (Ne.symm hn) _
      simp [declarers, hg, ho, hn]

theorem declarers_foldl_declare (name : String) (elements : List Element) (r : Registry) :
    (elements.foldl declare r).declarers name =
      r.declarers name ++ (elements.filterMap (·.owner?)).filter (·.name == name) := by
  induction elements generalizing r with
  | nil => simp
  | cons e rest ih =>
      rw [List.foldl_cons, ih, declarers_declare, List.append_assoc]
      cases he : e.owner? with
      | none => simp [he]
      | some owner =>
          rw [List.filterMap_cons_some he, ← List.singleton_append, List.filter_append]
          rfl

/-- The owners of an identifier are those of the elements that declare it. -/
theorem declarers_prime (t : Template) (s : Schema) (name : String) :
    ((start t).prime s).declarers name = (owners s).filter (·.name == name) := by
  rw [prime, declarers_foldl_declare]
  rfl

theorem foldl_declare_issued (elements : List Element) (r : Registry) :
    (elements.foldl declare r).issued = r.issued ∧
      (elements.foldl declare r).template = r.template := by
  induction elements generalizing r with
  | nil => exact ⟨rfl, rfl⟩
  | cons e rest ih =>
      have hd : (r.declare e).issued = r.issued ∧ (r.declare e).template = r.template := by
        unfold declare
        split <;> exact ⟨rfl, rfl⟩
      exact ⟨(ih _).1.trans hd.1, (ih _).2.trans hd.2⟩

end Registry
end CqlWorkload
