import CqlWorkload.Config.File
import CqlWorkload.Proofs.Config.Safety
import CqlWorkload.Proofs.Yaml.Conversion

/-!
# Loading a configuration

A configuration that is loaded is valid.  A missing file, a text that breaks the rules of
the format and a document that is no configuration are refused as configurations, as every
failure should be.

**Escapes.** Two things are not: contents that are no text, and values that a text asks for
and that do not exist (`Escapes`).  Whatever reads the text, the promise is kept exactly when
neither is met (`load_promise_iff`).  To the reader of this library a value does not exist
because of the characters of the text or because a scalar has none (`WhyNoValue`).
-/

namespace CqlWorkload.Config

variable {reader : Yaml.Loader} {tree : FileTree} {cwd place : Place} {p : Path}
  {failure : Failure}

/-- Loading a file at a place ends in a failure that is not one of a configuration. -/
inductive Escapes (reader : Yaml.Loader) (tree : FileTree) (place : Place)
    (p : Path) : Failure → Prop
  /-- There is no text to be read. -/
  | unreadable {failure : Failure} (h : tree.readAt place p = .error failure) :
      Escapes reader tree place p failure
  /-- The text keeps the rules of the format and asks for a value that does not exist. -/
  | noValue {text : String} {fault : Yaml.Fault} (h : tree.readAt place p = .ok text)
      (hf : reader text = .error fault) (hn : fault ≠ .malformed) (hs : fault ≠ .unsupported) :
      Escapes reader tree place p (textFailure p.text fault)

/-- Why a value that a text asks for does not exist. -/
inductive WhyNoValue (text : String) (fault : Yaml.Fault) : Prop
  /-- An escaped code is none of a character, or a version has too many digits. -/
  | characters (hfrom : fault.From text.toList)
  /-- A scalar of the document has no value. -/
  | scalar {node part : Yaml.Node} (hnode : Yaml.Node.ofText text = .ok (some node))
      (hpart : Yaml.Node.PartOf part node) (hlacks : part.Lacks fault)

/-- The file asks for no value that this library has none of: bytes, a set or pairs, a node
inside itself, or one half of a pair of surrogates. -/
def Supports (reader : Yaml.Loader) (tree : FileTree) (cwd : Place)
    (p : Path) : Prop :=
  ∀ place text, tree.locate cwd p = some place → tree.readAt place p = .ok text →
    reader text ≠ .error .unsupported

/-- A valid configuration is loaded, or the load is refused as one of a configuration. -/
def Promised (found : Except Failure Config) : Prop :=
  (∃ c, found = .ok c ∧ c.Valid) ∨
    ∃ failure, found = .error failure ∧ failure.category = .configuration

/-- Only a text that breaks the rules of the format is refused as a configuration. -/
theorem category_textFailure_iff {path : String} {fault : Yaml.Fault} :
    (textFailure path fault).category = .configuration ↔ fault = .malformed := by
  cases fault <;> simp [textFailure, Failure.category]

theorem category_of_readAt {tree : FileTree} {place : Place} {p : Path} {failure : Failure}
    (h : tree.readAt place p = .error failure) :
    failure.category = .directory ∨ failure.category = .decoding := by
  unfold FileTree.readAt at h
  split at h
  next content _ =>
    cases content with
    | text s => cases h
    | bytes bs =>
        simp only [Content.read] at h
        split at h
        · cases h
        · cases h
          exact Or.inr rfl
  · cases h
    exact Or.inl rfl

/-- The failures of a text are those of a configuration, but for values that do not
exist. -/
theorem ofFileText_eq_error {path text : String} (h : ofFileText path text reader = .error failure) :
    failure.category = .configuration ∨
      ∃ fault, reader text = .error fault ∧ failure = textFailure path fault := by
  unfold ofFileText at h
  split at h
  next fault hread =>
    cases h
    exact Or.inr ⟨fault, hread, rfl⟩
  · exact Or.inl (category_of_ofDocument h)
  · exact Or.inl (category_of_ofDocument h)
  · cases h
    exact Or.inl rfl

/-- **What escapes.** A load ends in a failure that is not one of a configuration exactly
when the file is there and its content is no text, or its text asks for a value that does
not exist. -/
theorem load_escapes_iff (hsupports : Supports reader tree cwd p) :
    load tree cwd p reader = .error failure ∧ failure.category ≠ .configuration ↔
      ∃ place, tree.locate cwd p = some place ∧ Escapes reader tree place p failure := by
  unfold load
  cases hplace : tree.locate cwd p with
  | none =>
      simp only [reduceCtorEq, false_and, exists_false, iff_false, not_and, not_not]
      rintro h
      cases h
      rfl
  | some place =>
      simp only [Option.some.injEq, exists_eq_left']
      cases hread : tree.readAt place p with
      | error other =>
          simp only [Except.error.injEq]
          constructor
          · rintro ⟨rfl, -⟩
            exact .unreadable hread
          · intro h
            cases h with
            | unreadable h =>
                obtain rfl : other = failure := by simpa [hread] using h
                refine ⟨rfl, ?_⟩
                rcases category_of_readAt hread with hc | hc <;> simp [hc]
            | noValue h => simp [hread] at h
      | ok text =>
          constructor
          · rintro ⟨h, hc⟩
            rcases ofFileText_eq_error h with hconf | ⟨fault, hfault, rfl⟩
            · exact absurd hconf hc
            · refine .noValue hread hfault (mt category_textFailure_iff.mpr hc) ?_
              rintro rfl
              exact hsupports place text hplace hread hfault
          · intro h
            cases h with
            | unreadable h => simp [hread] at h
            | noValue h hf hn _ =>
                obtain rfl : text = _ := by simpa [hread] using h
                exact ⟨by simp [ofFileText, hf], mt category_textFailure_iff.mp hn⟩

theorem valid_of_load {c : Config} (h : load tree cwd p reader = .ok c) : c.Valid := by
  have hdocument {entries : List (Value × Value)} (h : ofDocument (.map entries) = .ok c) :
      c.Valid := valid_of_read (read_of_ofDocument h)
  unfold load at h
  split at h
  · cases h
  · split at h
    · cases h
    · unfold ofFileText at h
      split at h
      · cases h
      · exact hdocument h
      · exact hdocument h
      · cases h

/-- A load keeps the promise exactly when nothing escapes. -/
theorem promised_load_iff (hsupports : Supports reader tree cwd p) :
    Promised (load tree cwd p reader) ↔
      ¬∃ place failure, tree.locate cwd p = some place ∧ Escapes reader tree place p failure := by
  have hescapes (failure : Failure) :
      load tree cwd p reader = .error failure ∧ failure.category ≠ .configuration ↔
        ∃ place, tree.locate cwd p = some place ∧ Escapes reader tree place p failure :=
    load_escapes_iff hsupports
  cases hload : load tree cwd p reader with
  | ok c =>
      refine iff_of_true (Or.inl ⟨c, rfl, valid_of_load hload⟩) ?_
      rintro ⟨place, failure, h⟩
      have hfailed := ((hescapes failure).mpr ⟨place, h⟩).1
      rw [hload] at hfailed
      cases hfailed
  | error failure =>
      constructor
      · rintro (⟨c, h, -⟩ | ⟨other, h, hc⟩) ⟨place, escaped, he⟩
        · cases h
        · obtain ⟨hfailed, hn⟩ := (hescapes escaped).mpr ⟨place, he⟩
          rw [hload] at hfailed
          cases h
          cases hfailed
          exact hn hc
      · intro h
        refine Or.inr ⟨failure, rfl, ?_⟩
        by_contra hn
        obtain ⟨place, he⟩ := (hescapes failure).mp ⟨hload, hn⟩
        exact h ⟨place, failure, he⟩

/-- **When the promise is kept.** Whatever reads documents, loading a configuration yields a
valid one or is refused as a configuration exactly when nothing escapes; and what the reader
of this library refuses breaks the rules of the format, or asks for a value that does not
exist or that is none of this library. -/
theorem load_promise_iff (reader : Yaml.Loader) (tree : FileTree)
    (cwd : Place) (p : Path) (hsupports : Supports reader tree cwd p) :
    (Promised (load tree cwd p reader) ↔
      ¬∃ place failure, tree.locate cwd p = some place ∧ Escapes reader tree place p failure) ∧
    ∀ text fault, Yaml.read text = .error fault →
      fault = .malformed ∨ fault = .unsupported ∨ WhyNoValue text fault := by
  refine ⟨promised_load_iff hsupports, fun text fault h => ?_⟩
  rcases Yaml.read_fault h with hs | hfrom | ⟨node, part, hnode, hpart, hlacks⟩
  · exact Or.inr (Or.inl hs)
  · exact Or.inr (Or.inr (.characters hfrom))
  · exact Or.inr (Or.inr (.scalar hnode hpart hlacks))

/-- A day that does not exist escapes. -/
theorem load_promise_impossibleDay :
    Supports Yaml.read [(["exporter.yaml"], .text "since: 2024-02-30\n")] []
        (.ofText "exporter.yaml") ∧
      ¬Promised (load [(["exporter.yaml"], .text "since: 2024-02-30\n")] []
        (.ofText "exporter.yaml")) := by
  let tree : FileTree := [(["exporter.yaml"], .text "since: 2024-02-30\n")]
  have hplace : tree.locate [] (.ofText "exporter.yaml") = some ["exporter.yaml"] := by
    decide +kernel
  have hcontent : tree.readAt ["exporter.yaml"] (.ofText "exporter.yaml") =
      .ok "since: 2024-02-30\n" := rfl
  have hfault : Yaml.read "since: 2024-02-30\n" =
      .error (.noValue "day is out of range for month") := by decide +kernel
  have hsupports : Supports Yaml.read tree [] (.ofText "exporter.yaml") := by
    intro place text hlocate hread
    obtain rfl : ["exporter.yaml"] = place := Option.some.inj (hplace.symm.trans hlocate)
    obtain rfl : "since: 2024-02-30\n" = text := Except.ok.inj (hcontent.symm.trans hread)
    rw [hfault]
    nofun
  refine ⟨hsupports, fun hpromised => ?_⟩
  have hnone := (load_promise_iff Yaml.read tree [] (.ofText "exporter.yaml") hsupports).1.mp
    hpromised
  exact hnone ⟨["exporter.yaml"], _, hplace, .noValue hcontent hfault nofun nofun⟩

/-- A byte that begins no character, and a day that does not exist: neither failure is one
of a configuration. -/
theorem load_promise_broken :
    load [(["exporter.yaml"], .bytes [0xff])] [] (.ofText "exporter.yaml") =
        .error (.undecodable ⟨0xff, 0, 0, "invalid start byte"⟩) ∧
      load [(["exporter.yaml"], .text "since: 2024-02-30\n")] [] (.ofText "exporter.yaml") =
        .error (.impossibleValue "day is out of range for month") ∧
      (Failure.undecodable ⟨0xff, 0, 0, "invalid start byte"⟩).category ≠ .configuration ∧
      (Failure.impossibleValue "day is out of range for month").category ≠ .configuration := by
  decide +kernel

end CqlWorkload.Config
