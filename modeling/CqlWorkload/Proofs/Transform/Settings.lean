import CqlWorkload.Proofs.Workload.Step
import CqlWorkload.Transform.Catalog

/-!
# Settings that overtax a matcher

A pattern with a fault in its form is a fault of the configuration that names it, and
so is every other misfit of settings.  What is not foreseen is a pattern that a matcher
refuses for another reason, such as a repetition count that is too large.  Patterns are
read one after the other, so only those behind patterns that can be read have their turn.
-/

namespace CqlWorkload

/-- A text that is refused as a pattern, though not for its form. -/
def Matcher.Overtaxes (m : Matcher) (foldCase : Bool) (text : String) : Prop :=
  ∃ fault, m.read foldCase text = .error fault ∧ fault.cause.kind ≠ .form

theorem Failure.isCompileFailure_ofPattern_iff (fault : Pattern.Fault)
    {ofForm : Pattern.Fault → Failure} (h : (ofForm fault).isCompileFailure = true) :
    (ofPattern fault ofForm).isCompileFailure = false ↔ fault.cause.kind ≠ .form := by
  unfold ofPattern
  cases hkind : fault.cause.kind with
  | form => simp [h]
  | overflow => simp [isCompileFailure, category, hkind]
  | value => simp [isCompileFailure, category, hkind]

/-- A misfit of settings that is not foreseen. -/
def Misfit.Unforeseen : Misfit → Prop
  | .badPattern fault => fault.cause.kind ≠ .form
  | _ => False

theorem Misfit.isCompileFailure_iff {name : String} (misfit : Misfit) :
    (Failure.ofMisfit name misfit).isCompileFailure = false ↔ misfit.Unforeseen := by
  cases misfit with
  | badPattern fault =>
      rw [Failure.ofMisfit]
      exact Failure.isCompileFailure_ofPattern_iff fault rfl
  | _ => exact iff_of_false Bool.noConfusion id

namespace Catalog

open Misfit (Unforeseen)

/-- The patterns of a setting come to one that overtaxes the matcher. -/
def SettingOvertaxes (settings : Entries Value) (name : String) (m : Matcher) : Prop :=
  ∃ items, itemsOf ((settings.get? name).getD .null) = .ok items ∧
    ∃ before text, before ++ [.text text] <+: items ∧
      (∀ other, other ∈ before → ∃ test, patternOf other m = .ok test) ∧
        m.Overtaxes false text

/-- A keyspace filter with proper names of settings, and patterns that overtax the matcher. -/
def Unfit (catalog : Catalog) (spec : TransformerSpec) (m : Matcher) : Prop :=
  catalog.get? spec.name = some .keyspaceFilter ∧
    onlyNames "KeyspaceFilter" ["include", "exclude"] spec.settings = .ok () ∧
    (SettingOvertaxes spec.settings "include" m ∨
      (∃ included, patternsOf spec.settings "include" m = .ok included) ∧
        SettingOvertaxes spec.settings "exclude" m)

/-- Building transformers comes to one that is unfit. -/
def SomeUnfit (catalog : Catalog) (specs : List TransformerSpec) (m : Matcher) : Prop :=
  ∃ before spec, before ++ [spec] <+: specs ∧
    (∀ other, other ∈ before →
      ∃ transformer, catalog.get other.name other.settings m = .ok transformer) ∧
    catalog.Unfit spec m

variable {catalog : Catalog} {settings : Entries Value} {name : String} {m : Matcher}

theorem failsBy_patternOf_iff (value : Value) :
    FailsBy Unforeseen (patternOf value m) ↔
      ∃ text, value = .text text ∧ m.Overtaxes false text := by
  cases value with
  | text s =>
      rw [patternOf, failsBy_mapError_iff (p := fun fault => fault.cause.kind ≠ .form)]
      · simp [Matcher.Overtaxes, FailsBy]
      · exact fun fault => Iff.rfl
  | _ => exact iff_of_false (by simp [patternOf, failsBy_error_iff, Unforeseen]) (by simp)

theorem failsBy_patternsOf_iff :
    FailsBy Unforeseen (patternsOf settings name m) ↔ SettingOvertaxes settings name m := by
  have hitems (value : Value) : ¬FailsBy Unforeseen (itemsOf value) := by
    rintro ⟨misfit, h, hunforeseen⟩
    unfold itemsOf at h
    split at h
    · cases h
    · split at h <;> cases h
      exact hunforeseen
  rw [patternsOf, failsBy_bind_iff, or_iff_right (hitems _)]
  simp only [failsBy_mapM_iff, failsBy_patternOf_iff]
  constructor
  · rintro ⟨items, hitems, before, _, hprefix, hbefore, text, rfl, htext⟩
    exact ⟨items, hitems, before, text, hprefix, hbefore, htext⟩
  · rintro ⟨items, hitems, before, text, hprefix, hbefore, htext⟩
    exact ⟨items, hitems, before, .text text, hprefix, hbefore, text, rfl, htext⟩

/-- Only a keyspace filter reads patterns; its included ones come first. -/
theorem failsBy_build_iff (kind : Transformer.Kind) :
    FailsBy Unforeseen (build kind settings m) ↔ kind = .keyspaceFilter ∧
      onlyNames "KeyspaceFilter" ["include", "exclude"] settings = .ok () ∧
      (SettingOvertaxes settings "include" m ∨
        (∃ included, patternsOf settings "include" m = .ok included) ∧
          SettingOvertaxes settings "exclude" m) := by
  have hnames (record : String) (known : List String) :
      ¬FailsBy Unforeseen (onlyNames record known settings) := by
    rintro ⟨misfit, h, hunforeseen⟩
    unfold onlyNames at h
    split at h <;> cases h
    exact hunforeseen
  cases kind with
  | keyspaceFilter =>
      have hlast (included : List (String → Bool)) : FailsBy Unforeseen (do
          let excluded ← patternsOf settings "exclude" m
          pure (.keyspaceFilter included excluded) : Except Misfit Transformer) ↔
            SettingOvertaxes settings "exclude" m :=
        (failsBy_map_iff (Transformer.keyspaceFilter included) _).trans failsBy_patternsOf_iff
      simp only [build, failsBy_bind_iff, hnames, failsBy_patternsOf_iff, hlast, false_or,
        true_and]
      constructor
      · rintro ⟨⟨⟩, h, hinclude | ⟨included, hincluded, hexclude⟩⟩
        · exact ⟨h, Or.inl hinclude⟩
        · exact ⟨h, Or.inr ⟨⟨included, hincluded⟩, hexclude⟩⟩
      · rintro ⟨h, hinclude | ⟨⟨included, hincluded⟩, hexclude⟩⟩
        · exact ⟨(), h, Or.inl hinclude⟩
        · exact ⟨(), h, Or.inr ⟨included, hincluded, hexclude⟩⟩
  | replication =>
      refine iff_of_false ?_ nofun
      rw [build, failsBy_bind_iff, or_iff_right (hnames _ _)]
      rintro ⟨⟨⟩, -, h⟩
      cases hvalue : settings.get? "replication" with
      | none => simp [hvalue, failsBy_error_iff, Unforeseen] at h
      | some value => simp [hvalue, pure, Except.pure, not_failsBy_ok] at h
  | ratios =>
      refine iff_of_false ?_ nofun
      rw [build]
      split
      · exact not_failsBy_ok _
      · exact failsBy_error_iff.mp
  | clearing => exact iff_of_false (not_failsBy_ok _) nofun

theorem stuck_get_iff (spec : TransformerSpec) :
    Stuck (catalog.get spec.name spec.settings m) ↔ catalog.Unfit spec m := by
  unfold get Unfit
  cases catalog.get? spec.name with
  | none => exact iff_of_false (not_stuck_error rfl) nofun
  | some kind =>
      rw [Option.some_inj, ← failsBy_build_iff]
      exact failsBy_mapError_iff Misfit.isCompileFailure_iff

/-- **Building transformers is stuck exactly where it comes to one that is unfit.** -/
theorem stuck_getAll_iff {specs : List TransformerSpec} :
    Stuck (catalog.getAll specs m) ↔ catalog.SomeUnfit specs m := by
  refine failsBy_mapM_iff.trans ?_
  simp only [SomeUnfit, ← stuck_get_iff]
  rfl

end Catalog
end CqlWorkload
