import CqlWorkload.Proofs.Transform.Preservation

/-!
# Validity of transformed schemas

Transformers take keyspaces away and replace the replication of others, and of two
that replace it the later one counts (`keyspaces_applyAll`).  The replication that a
transformer puts in place is a text or a mapping, but nothing keeps it from being
empty.  So what transformers make of a valid schema is valid exactly when no keyspace
that is left has an empty replication from a setting (`valid_applyAll_iff`).
-/

namespace CqlWorkload

/-- The keyspace with another replication, if one is given. -/
def Keyspace.withReplacement (k : Keyspace) (value : Option Value) : Keyspace :=
  { k with replication := value.getD k.replication }

/-- A keyspace whose replication is a text or a mapping. -/
def Keyspace.HasBody (k : Keyspace) : Prop := ∃ body, Replication.body? k.replication = some body

theorem Keyspace.isReplicated_iff {k : Keyspace} (h : k.HasBody) :
    k.isReplicated = true ↔ Replication.body? k.replication ≠ some "" := by
  obtain ⟨body, hbody⟩ := h
  simp [isReplicated, hbody]

theorem Keyspace.hasBody_of_isReplicated {k : Keyspace} (h : k.isReplicated = true) :
    k.HasBody := by
  unfold isReplicated at h
  split at h
  · cases h
  next body hbody => exact ⟨body, hbody⟩

namespace Transformer

/-! ## What becomes of a keyspace -/

/-- Does a keyspace of this name stay in the schema? -/
def keeps (name : String) : Transformer → Bool
  | .keyspaceFilter included excluded => selects included excluded name
  | .clearing => false
  | .replication .. | .ratios => true

/-- The replication that a keyspace of this name is given, if it is given one. -/
def replacement? (name : String) : Transformer → Option Value
  | .replication value listed =>
    if (isChosen listed name).toOption = some true then some value else none
  | _ => none

/-- Does a keyspace of this name stay through all of some transformers? -/
def allKeep (transformers : List Transformer) (name : String) : Bool :=
  transformers.all (·.keeps name)

/-- The last replication that a keyspace of this name is given. -/
def lastReplacement? (transformers : List Transformer) (name : String) : Option Value :=
  transformers.reverse.findSome? (·.replacement? name)

theorem lastReplacement?_cons (transformer : Transformer) (rest : List Transformer)
    (name : String) : lastReplacement? (transformer :: rest) name =
      (lastReplacement? rest name).or (transformer.replacement? name) := by
  simp [lastReplacement?, List.findSome?_append]

theorem map_withReplacement_none (keyspaces : List Keyspace) :
    keyspaces.map (fun k => k.withReplacement none) = keyspaces :=
  List.map_id keyspaces

theorem withReplacement_withReplacement (k : Keyspace) (first second : Option Value) :
    (k.withReplacement first).withReplacement second = k.withReplacement (second.or first) := by
  cases second <;> rfl

/-! ## One transformer -/

variable {s made : Schema}

/-- Every chosen keyspace gets the replication of the setting, which is a text or a
mapping if there is one at all. -/
theorem overrideAll_eq_ok {value : Value} {listed : Option Value}
    {keyspaces replaced : List Keyspace}
    (h : (overrideAll value listed keyspaces).1 = .ok replaced) :
    replaced = keyspaces.map (fun k =>
        k.withReplacement ((Transformer.replication value listed).replacement? k.name)) ∧
      ∀ k, k ∈ keyspaces → ∀ other,
        (Transformer.replication value listed).replacement? k.name = some other →
          ∃ body, Replication.body? other = some body := by
  induction keyspaces generalizing replaced with
  | nil =>
      cases h
      exact ⟨rfl, fun k hk => by cases hk⟩
  | cons k rest ih =>
      unfold overrideAll at h
      split at h
      · cases h
      next chosen hchosen =>
        split at h
        · cases h
        next first log hfirst =>
          -- The first keyspace is replaced if it is chosen, and kept otherwise.
          have hk : first = k.withReplacement
              ((Transformer.replication value listed).replacement? k.name) ∧ ∀ other,
              (Transformer.replication value listed).replacement? k.name = some other →
                ∃ body, Replication.body? other = some body := by
            cases chosen with
            | false =>
                cases hfirst
                simp [replacement?, hchosen, Except.toOption, Keyspace.withReplacement]
            | true =>
                simp only [if_true, overrideOne] at hfirst
                split at hfirst
                · cases hfirst
                next body hbody =>
                  cases hfirst
                  simp [replacement?, hchosen, Except.toOption, Keyspace.withReplacement,
                    Replication.body?_eq_some_iff, hbody]
          split at h
          · cases h
          next others more hothers =>
            cases h
            obtain ⟨rfl, hrest⟩ := ih (congrArg Prod.fst hothers)
            rw [List.map_cons, ← hk.1]
            refine ⟨rfl, fun other hm => ?_⟩
            rcases List.mem_cons.mp hm with rfl | hm
            · exact hk.2
            · exact hrest other hm

theorem keyspaces_apply {transformer : Transformer}
    (ha : (transformer.apply s).1 = .ok made) :
    made.keyspaces = (s.keyspaces.filter fun k => transformer.keeps k.name).map fun k =>
      k.withReplacement (transformer.replacement? k.name) := by
  cases transformer with
  | keyspaceFilter included excluded =>
      cases ha
      exact (map_withReplacement_none _).symm
  | replication value listed =>
      rcases ho : overrideAll value listed s.keyspaces with ⟨found, log⟩
      rw [apply, applyReplication, ho] at ha
      cases found with
      | error failure => cases ha
      | ok replaced =>
          cases ha
          simp only [keeps, List.filter_true]
          exact (overrideAll_eq_ok (congrArg Prod.fst ho)).1
  | ratios =>
      rw [apply, applyRatios] at ha
      split at ha
      · cases ha
      · cases ha
        simp only [keeps, List.filter_true]
        exact (map_withReplacement_none _).symm
  | clearing =>
      cases ha
      simp [keeps]

theorem hasBody_of_replacement? {transformer : Transformer}
    (ha : (transformer.apply s).1 = .ok made) {k : Keyspace} (hk : k ∈ s.keyspaces)
    {value : Value} (hv : transformer.replacement? k.name = some value) :
    ∃ body, Replication.body? value = some body := by
  cases transformer with
  | replication setting listed =>
      rcases ho : overrideAll setting listed s.keyspaces with ⟨found, log⟩
      rw [apply, applyReplication, ho] at ha
      cases found with
      | error failure => cases ha
      | ok replaced => exact (overrideAll_eq_ok (congrArg Prod.fst ho)).2 k hk value hv
  | _ => cases hv

theorem hasBody_apply {transformer : Transformer} (h : ∀ k, k ∈ s.keyspaces → k.HasBody)
    (ha : (transformer.apply s).1 = .ok made) : ∀ k, k ∈ made.keyspaces → k.HasBody := by
  intro k hk
  rw [keyspaces_apply ha] at hk
  obtain ⟨raw, hraw, rfl⟩ := List.mem_map.mp hk
  have hraw := (List.mem_filter.mp hraw).1
  unfold Keyspace.HasBody Keyspace.withReplacement
  cases hv : transformer.replacement? raw.name with
  | none => exact h raw hraw
  | some value => exact hasBody_of_replacement? ha hraw hv

/-! ## Several transformers -/

theorem hasBody_applyAll {transformers : List Transformer}
    (h : ∀ k, k ∈ s.keyspaces → k.HasBody) (ha : (applyAll transformers s).1 = .ok made) :
    ∀ k, k ∈ made.keyspaces → k.HasBody :=
  preserved_applyAll (p := fun made => ∀ k, k ∈ made.keyspaces → k.HasBody) hasBody_apply h ha

/-- **Keyspaces.** Those that all transformers keep are left, each with the last
replication that it is given. -/
theorem keyspaces_applyAll {transformers : List Transformer}
    (ha : (applyAll transformers s).1 = .ok made) :
    made.keyspaces = (s.keyspaces.filter fun k => allKeep transformers k.name).map fun k =>
      k.withReplacement (lastReplacement? transformers k.name) := by
  induction transformers generalizing s with
  | nil =>
      cases ha
      simp only [allKeep, List.all_nil, List.filter_true]
      exact (map_withReplacement_none _).symm
  | cons transformer rest ih =>
      unfold applyAll at ha
      split at ha
      · cases ha
      next next log hnext =>
        rw [ih ha, keyspaces_apply (congrArg Prod.fst hnext), List.filter_map, List.map_map,
          List.filter_filter]
        have hkeep : (fun k : Keyspace => allKeep (transformer :: rest) k.name) =
            fun k => allKeep rest k.name && transformer.keeps k.name := by
          funext k
          rw [allKeep, List.all_cons, Bool.and_comm, allKeep]
        rw [hkeep]
        refine List.map_congr_left fun k _ => ?_
        rw [lastReplacement?_cons, ← withReplacement_withReplacement]
        rfl

/-- **Validity of what transformers make.** It is sound, its user types have fields and
its replications are texts or mappings; it is valid exactly when no keyspace that is
left was last given an empty replication. -/
theorem valid_applyAll_iff {transformers : List Transformer} (hs : s.Valid)
    (ha : (applyAll transformers s).1 = .ok made) :
    made.Sound ∧ (∀ t, t ∈ made.types → t.fields ≠ []) ∧
      (∀ k, k ∈ made.keyspaces → k.HasBody) ∧
      (made.Valid ↔ ∀ k, k ∈ s.keyspaces → allKeep transformers k.name = true →
        ∀ value, lastReplacement? transformers k.name = some value →
          Replication.body? value ≠ some "") := by
  have hsound := sound_applyAll hs.toSound ha
  have htypes : ∀ t, t ∈ made.types → t.fields ≠ [] :=
    fun t ht => hs.types t (mem_types_of_applyAll ha t ht)
  have hbody := hasBody_applyAll
    (fun k hk => Keyspace.hasBody_of_isReplicated (hs.keyspaces k hk)) ha
  refine ⟨hsound, htypes, hbody, ?_⟩
  have hvalid : made.Valid ↔ ∀ k, k ∈ made.keyspaces → k.isReplicated = true :=
    ⟨fun h => h.keyspaces, fun h => ⟨hsound, h, htypes⟩⟩
  have hmem : ∀ k, k ∈ s.keyspaces → allKeep transformers k.name = true →
      k.withReplacement (lastReplacement? transformers k.name) ∈ made.keyspaces := by
    intro k hk hkeep
    rw [keyspaces_applyAll ha]
    exact List.mem_map.mpr ⟨k, List.mem_filter.mpr ⟨hk, hkeep⟩, rfl⟩
  rw [hvalid]
  constructor
  · intro h k hk hkeep value hvalue
    have hreplaced := hmem k hk hkeep
    have hsays := (Keyspace.isReplicated_iff (hbody _ hreplaced)).mp (h _ hreplaced)
    simpa [Keyspace.withReplacement, hvalue] using hsays
  · intro h k hk
    rw [Keyspace.isReplicated_iff (hbody k hk)]
    rw [keyspaces_applyAll ha] at hk
    obtain ⟨raw, hraw, rfl⟩ := List.mem_map.mp hk
    obtain ⟨hraw, hkeep⟩ := List.mem_filter.mp hraw
    cases hvalue : lastReplacement? transformers raw.name with
    | none =>
        have hold := hs.keyspaces raw hraw
        exact (Keyspace.isReplicated_iff (Keyspace.hasBody_of_isReplicated hold)).mp hold
    | some value => exact h raw hraw hkeep value hvalue

end Transformer

/-! ## An example -/

/-- The keyspace of a shop, in a schema of its own. -/
def Schema.shop : Schema where
  keyspaces := [⟨"shop", Replication.standard, true⟩]
  types := []
  tables := []

namespace Transformer

theorem valid_applyAll_iff_shop :
    Schema.shop.Valid ∧ (applyAll [.replication (.text "") none,
      .replication Replication.standard none] .shop).1 = .ok .shop ∧
        ∀ value, lastReplacement? [.replication (.text "") none,
          .replication Replication.standard none] "shop" = some value →
            Replication.body? value ≠ some "" := by
  have hs : Schema.shop.Valid := by decide +kernel
  have ha : (applyAll [.replication (.text "") none,
      .replication Replication.standard none] .shop).1 = .ok .shop := rfl
  exact ⟨hs, ha, (valid_applyAll_iff hs ha).2.2.2.mp hs ⟨"shop", Replication.standard, true⟩
    (List.mem_singleton.mpr rfl) rfl⟩

/-- An empty replication is accepted as a setting and put in place. -/
theorem not_valid_emptyReplication :
    Schema.shop.Valid ∧ ∃ transformers made,
      Catalog.builtIn.getAll [⟨"replication", [("replication", .text "")]⟩] = .ok transformers ∧
        (applyAll transformers .shop).1 = .ok made ∧ ¬made.Valid := by
  refine ⟨by decide +kernel, [.replication (.text "") none], _, rfl, rfl, ?_⟩
  intro h
  exact absurd (h.keyspaces _ (List.mem_singleton.mpr rfl)) (by decide +kernel)

end Transformer
end CqlWorkload
