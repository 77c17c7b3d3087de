import CqlWorkload.Proofs.Config.Blockplan
import CqlWorkload.Proofs.Config.Timeouts
import CqlWorkload.Proofs.Workload.Lookup

/-!
# Safe configurations

A mapping is refused as a configuration, and for nothing else, or it is accepted as one
that is safe to compile with (`ofDocument_safe`).

**Safety.** A safe configuration has a timeout for every kind of operation, made from what
was given for the kind (`IsTimeoutFor`), known components only, and a multiplier that is
not below zero.  With it no lookup of a compile fails, of whatever schema.
-/

namespace CqlWorkload.Config

/-- A refused document is refused as a configuration. -/
theorem category_of_ofDocument {value : Value} {failure : Failure}
    (h : ofDocument value = .error failure) : failure.category = .configuration := by
  cases value with
  | map entries =>
      simp only [ofDocument] at h
      split at h
      · cases h
        rfl
      · cases h
        rfl
      · split at h <;> cases h
        rfl
  | _ =>
      cases h
      rfl

/-- A value is configured for a kind: the last one given for it. -/
def IsConfigured (entries : List (Value × Value)) (kind : TimeoutKind) (value : Value) : Prop :=
  ∃ given, Value.lookup entries "timeouts" = some (.map given) ∧ IsLastFor kind given value

/-- The timeout of a kind: the configured value converted, or else the standard one. -/
def IsTimeoutFor (entries : List (Value × Value)) (kind : TimeoutKind) (seconds : Double) :
    Prop :=
  (∃ value, IsConfigured entries kind value ∧ Checked.double value = .valid seconds) ∨
    (∀ value, ¬IsConfigured entries kind value) ∧ seconds = Timeouts.standard.get kind

/-- A configuration made from some entries that is safe to compile with. -/
structure Safe (entries : List (Value × Value)) (c : Config) : Prop where
  /-- There are the known kinds in order, and no others. -/
  kinds : c.timeouts.entries.keys = TimeoutKind.all.map (·.text)
  timeouts : ∀ kind, IsTimeoutFor entries kind (c.timeouts.get kind)
  /-- The tags given for a block are those of its components. -/
  given : ∃ given, Value.lookup entries "blockplan" = some (.map given) ∧
    ∀ block ∈ c.blockplan, ∃ entry ∈ given, Keeps entry block
  components : ∀ block ∈ c.blockplan, ∀ component ∈ block.2,
    component.tag ∈ Component.tags ∧ Component.named component.tag = .ok component
  multiplier : c.partitionMultiplier.less (.zero false) = false
  /-- A compile finds a timeout for every kind. -/
  lookups : ∀ ctx : Context, ctx.config = c →
    ∀ kind, ctx.timeout kind = .ok (c.timeouts.get kind)
  /-- A compile that looks up the components by their tags plans the same block. -/
  plans : ∀ (ctx : Context) s, ∀ block ∈ c.blockplan,
    ctx.planTags s block.1 (block.2.map (·.tag)) = ctx.planBlock s block.1 block.2
  compiles : ∀ s, Finds (Workload.compile s c).1

variable {entries : List (Value × Value)} {c : Config}

/-- Timeouts that are not given, and null, leave the standard ones. -/
theorem FieldsOf.isTimeoutFor (h : FieldsOf entries c) (kind : TimeoutKind) :
    IsTimeoutFor entries kind (c.timeouts.get kind) := by
  rcases Checked.fieldOr_eq_valid_iff.mp h.timeouts with ⟨hnone, hstandard⟩ | ⟨value, hv, hread⟩
  · refine Or.inr ⟨fun value hc => ?_, by rw [hstandard]⟩
    obtain ⟨given, hgiven, -⟩ := hc
    rw [hnone] at hgiven
    cases hgiven
  · cases value with
    | map given =>
        rcases (timeouts_of_read hread).2 kind with ⟨last, hlast, hdouble⟩ | ⟨hnone, hstandard⟩
        · exact Or.inl ⟨last, ⟨given, hv, hlast⟩, hdouble⟩
        · refine Or.inr ⟨fun value hc => ?_, hstandard⟩
          obtain ⟨other, hother, hlast⟩ := hc
          obtain rfl : given = other := by simpa [hv] using hother
          exact hnone value hlast
    | null =>
        injection hread with hread
        refine Or.inr ⟨fun value hc => ?_, by rw [← hread]⟩
        obtain ⟨given, hgiven, -⟩ := hc
        rw [hv] at hgiven
        cases hgiven
    | _ => cases hread

theorem exists_keeps {given : List (Value × Value)} {blocks : Entries (List Component)}
    (h : List.Forall₂ Keeps given blocks) {block : String × List Component}
    (hm : block ∈ blocks) : ∃ entry ∈ given, Keeps entry block := by
  induction h with
  | nil => cases hm
  | cons hfirst _ ih =>
      rcases List.mem_cons.mp hm with rfl | hm
      · exact ⟨_, List.mem_cons_self .., hfirst⟩
      · obtain ⟨entry, hentry, hkeeps⟩ := ih hm
        exact ⟨entry, List.mem_cons_of_mem _ hentry, hkeeps⟩

theorem safe_of_read (h : read (.map entries) = .valid c) : Safe entries c where
  kinds := rfl
  timeouts := (fieldsOf_of_read h).isTimeoutFor
  given := by
    obtain ⟨value, hlookup, hvalue⟩ :=
      Checked.field_eq_valid_iff.mp (fieldsOf_of_read h).blockplan
    obtain ⟨given, blocks, rfl, hblocks, hplan⟩ := readBlockplan_eq_valid hvalue
    refine ⟨given, hlookup, fun block hm => ?_⟩
    exact exists_keeps hblocks (Entries.mem_putAll (hplan ▸ hm))
  components := fun _ _ component _ =>
    ⟨by cases component <;> decide, component.named_tag⟩
  multiplier := (valid_of_read h).multiplier
  lookups := by
    rintro ctx rfl kind
    exact ctx.timeout_eq kind
  plans := fun ctx s block _ => ctx.planTags_tags s block.2
  compiles := fun s => Workload.finds_compile s c

/-- **Accepted configurations are safe to compile with.** A value is refused as a
configuration, or it is a mapping and the configuration made from it is safe. -/
theorem ofDocument_safe (value : Value) :
    (∃ failure, ofDocument value = .error failure ∧ failure.category = .configuration) ∨
      ∃ entries c, value = .map entries ∧ ofDocument value = .ok c ∧ Safe entries c := by
  cases h : ofDocument value with
  | error failure => exact Or.inl ⟨failure, rfl, category_of_ofDocument h⟩
  | ok c =>
      cases value with
      | map entries => exact Or.inr ⟨entries, c, rfl, rfl, safe_of_read (read_of_ofDocument h)⟩
      | _ => cases h

end CqlWorkload.Config
