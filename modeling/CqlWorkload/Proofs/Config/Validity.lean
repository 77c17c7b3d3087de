import CqlWorkload.Proofs.Checked
import CqlWorkload.Proofs.Entries

/-!
# Valid configurations

A valid configuration has at most one block of a name and a multiplier that is
not below zero: what checking a value yields is valid.
-/

namespace CqlWorkload
namespace Config

/-- A configuration that keeps all rules. -/
structure Valid (c : Config) : Prop where
  blocks : c.blockplan.keys.Nodup
  multiplier : c.partitionMultiplier.less (.zero false) = false

instance (c : Config) : Decidable c.Valid :=
  decidable_of_iff (c.blockplan.keys.Nodup ∧ c.partitionMultiplier.less (.zero false) = false)
    ⟨fun h => ⟨h.1, h.2⟩, fun h => ⟨h.1, h.2⟩⟩

theorem nodup_keys_readBlocks {entries : List (Value × Value)}
    {before plan : Entries (List Component)} (h : readBlocks before entries = .ok plan)
    (hb : before.keys.Nodup) : plan.keys.Nodup := by
  induction entries generalizing before with
  | nil =>
      injection h with h
      exact h ▸ hb
  | cons entry rest ih =>
      unfold readBlocks at h
      split at h
      · cases h
      · exact ih h (Entries.nodup_keys_put _ _ hb)

open Checked

theorem nodup_keys_readBlockplan {value : Value} {plan : Entries (List Component)}
    (h : readBlockplan value = .valid plan) : plan.keys.Nodup := by
  unfold readBlockplan at h
  split at h
  · cases h
  · split at h
    · cases h
    · next found hf =>
        injection h with h
        exact h ▸ nodup_keys_readBlocks hf (by simp [Entries.keys])
  · cases h

theorem not_less_readMultiplier {value : Value} {x : Double}
    (h : readMultiplier value = .valid x) : x.less (.zero false) = false := by
  obtain ⟨y, _, hy⟩ := andThen_eq_valid h
  split at hy
  · cases hy
  · next hn =>
      injection hy with hy
      exact hy ▸ Bool.eq_false_iff.mpr hn

theorem not_less_ofInt {n : Int} (h : 0 ≤ n) : (Double.ofInt n).less (.zero false) = false := by
  have hn : decide (n < 0) = false := decide_eq_false (Int.not_lt.mpr h)
  simp [Double.ofInt, Double.nearest, Double.less, Double.place, Double.zero, hn]

/-- What the fields of a mapping are read as, each with what stands in for it. -/
structure FieldsOf (entries : List (Value × Value)) (c : Config) : Prop where
  template : fieldOr entries "naming_template" Template.standard text = .valid c.namingTemplate
  multiplier :
    fieldOr entries "partition_multiplier" (.ofInt 1) readMultiplier = .valid c.partitionMultiplier
  timeouts : fieldOr entries "timeouts" .standard readTimeouts = .valid c.timeouts
  elide : fieldOr entries "elide_unused_tables" false truth = .valid c.elideUnusedTables
  blockplan : field entries "blockplan" readBlockplan = .valid c.blockplan
  transformers :
    fieldOr entries "model_transformers" [] (list TransformerSpec.read) = .valid c.transformers
  bindings : fieldOr entries "type_bindings" [] (mapping text) = .valid c.typeBindings

theorem fieldsOf_of_read {entries : List (Value × Value)} {c : Config}
    (h : read (.map entries) = .valid c) : FieldsOf entries c := by
  obtain ⟨f₁, bindings, h₁, hbindings, rfl⟩ := seq_eq_valid h
  obtain ⟨f₂, transformers, h₂, htransformers, rfl⟩ := seq_eq_valid h₁
  obtain ⟨f₃, plan, h₃, hplan, rfl⟩ := seq_eq_valid h₂
  obtain ⟨f₄, elide, h₄, helide, rfl⟩ := seq_eq_valid h₃
  obtain ⟨f₅, timeouts, h₅, htimeouts, rfl⟩ := seq_eq_valid h₄
  obtain ⟨f₆, multiplier, h₆, hmultiplier, rfl⟩ := seq_eq_valid h₅
  obtain ⟨template, htemplate, rfl⟩ := map_eq_valid h₆
  exact ⟨htemplate, hmultiplier, htimeouts, helide, hplan, htransformers, hbindings⟩

/-- **Checking a value yields a valid configuration.** -/
theorem valid_of_read {value : Value} {c : Config} (h : read value = .valid c) : c.Valid := by
  cases value with
  | map entries =>
      have hfields := fieldsOf_of_read h
      obtain ⟨value, hv⟩ := field_eq_valid hfields.blockplan
      refine ⟨nodup_keys_readBlockplan hv, ?_⟩
      rcases fieldOr_eq_valid hfields.multiplier with hx | ⟨value, hv⟩
      · exact hx ▸ not_less_ofInt Int.one_nonneg
      · exact not_less_readMultiplier hv
  | _ => cases h

/-- A document is accepted as its mapping is. -/
theorem read_of_ofDocument {entries : List (Value × Value)} {c : Config}
    (h : ofDocument (.map entries) = .ok c) : read (.map entries) = .valid c := by
  simp only [ofDocument] at h
  split at h
  · cases h
  · cases h
  · split at h
    · next found hread =>
        injection h with h
        exact h ▸ hread
    · cases h

end Config
end CqlWorkload
