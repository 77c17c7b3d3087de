import CqlWorkload.CommandLine.Run
import CqlWorkload.Proofs.FileTree

/-!
# What an export does to the files

An export either fails, and leaves every file but the log as it was, or it writes exactly
one more file, the target (`Export.run_cases`).

**Overwriting.** A target that is found has to have a name that begins with an underscore.
It is looked for before the directories on its way are made, so a path that goes up again
from a missing directory leads to a file that was not found.
-/

namespace CqlWorkload

open FileTree

variable {tree after opened : FileTree} {cwd place : Place}

/-! ## Trees that agree -/

/-- Every file outside of some places is the same after a change. -/
def FileTree.SameOutside (touched : Place → Prop) (tree after : FileTree) : Prop :=
  ∀ place, ¬touched place → after.get? place = tree.get? place

namespace FileTree.SameOutside

variable {touched : Place → Prop} {made : FileTree} {content : Content}

theorem refl (touched : Place → Prop) (tree : FileTree) : SameOutside touched tree tree :=
  fun _ _ => rfl

theorem trans (h : SameOutside touched tree after) (hm : SameOutside touched after made) :
    SameOutside touched tree made :=
  fun place hp => (hm place hp).trans (h place hp)

theorem put (h : touched place) (tree : FileTree) (content : Content) :
    SameOutside touched tree (tree.put place content) := by
  intro other ho
  refine get?_put_of_ne ?_ tree content
  rintro rfl
  exact ho h

end FileTree.SameOutside

/-! ## The log -/

namespace Settings

variable {s : Settings}

/-- The log is kept at a place. -/
def LogsTo (s : Settings) (cwd place : Place) : Prop :=
  ∃ file, s.logFile = some file ∧ place = destination cwd file

/-- Beginning to log leaves the tree as it is or puts the file of the log. -/
theorem openLog_eq_ok {rank : Nat} (h : s.openLog tree cwd = .ok (rank, opened)) :
    opened = tree ∨ ∃ place content, s.LogsTo cwd place ∧ opened = tree.put place content := by
  unfold openLog at h
  cases hr : Log.rankOf s.logLevel with
  | error failure =>
      rw [hr] at h
      cases h
  | ok level =>
      rw [hr] at h
      dsimp only [bind, Except.bind] at h
      split at h
      · injection h with h
        exact Or.inl (Prod.mk.inj h).2.symm
      next file hfile =>
        cases ha : tree.append cwd file "" with
        | error failure =>
            rw [ha] at h
            cases h
        | ok made =>
            rw [ha] at h
            injection h with h
            obtain ⟨content, hmade⟩ := append_eq_ok ha
            refine Or.inr ⟨_, content, ⟨file, hfile, rfl⟩, ?_⟩
            rw [← (Prod.mk.inj h).2, hmade]

theorem sameOutside_openLog {rank : Nat} (h : s.openLog tree cwd = .ok (rank, opened)) :
    SameOutside (s.LogsTo cwd) tree opened := by
  rcases openLog_eq_ok h with rfl | ⟨place, content, hp, rfl⟩
  · exact .refl _ _
  · exact .put hp _ _

theorem isSome_get?_openLog {rank : Nat} (h : s.openLog tree cwd = .ok (rank, opened))
    (hp : (tree.get? place).isSome) : (opened.get? place).isSome := by
  rcases openLog_eq_ok h with rfl | ⟨other, content, -, rfl⟩
  · exact hp
  · exact isSome_get?_put hp

theorem leadsTo_openLog {rank : Nat} {p : Path} (h : s.openLog tree cwd = .ok (rank, opened))
    (hp : tree.LeadsTo cwd p) : opened.LeadsTo cwd p := by
  rcases openLog_eq_ok h with rfl | ⟨other, content, -, rfl⟩
  · exact hp
  · exact isSome_follow_put hp

theorem sameOutside_record (s : Settings) (tree : FileTree) (cwd : Place) (rank : Nat)
    (log : Log) : SameOutside (s.LogsTo cwd) tree (s.record tree cwd rank log) := by
  unfold record
  split
  · exact .refl _ _
  next file hfile =>
    split
    next made ha =>
      obtain ⟨content, rfl⟩ := append_eq_ok ha
      exact .put ⟨file, hfile, rfl⟩ _ _
    · exact .refl _ _

end Settings

/-! ## The target -/

/-- A settled target has the ending of the format, and a name that begins with an underscore
if it is found. -/
theorem Target.resolve_eq_ok {schema target : Path} {named : Option Path} {format : Format}
    (h : resolve tree cwd schema named format = .ok target) :
    choose schema named format = .ok target ∧ target.suffix = format.suffix ∧
      (tree.holds cwd target = true → isReplaceable target = true) := by
  unfold resolve at h
  split at h
  · cases h
  next found hf =>
    split_ifs at h with hs hh
    injection h with h
    subst h
    refine ⟨hf, not_not.mp hs, fun hheld => ?_⟩
    simpa [hheld] using hh

/-! ## The workload -/

/-- The files of a tree compile to a workload. -/
def Compiles (tree : FileTree) (cwd : Place) (schemaFile configFile : Path)
    (workload : Workload) : Prop :=
  ∃ schema config, Schema.load tree cwd schemaFile = .ok schema ∧
    Config.load tree cwd configFile = .ok config ∧
    (Workload.compile schema config).1 = .ok workload

theorem compileFiles_eq_ok {schemaFile configFile : Path} {workload : Workload}
    (h : (compileFiles tree cwd schemaFile configFile).found = .ok workload) :
    Compiles tree cwd schemaFile configFile workload := by
  unfold compileFiles at h
  dsimp only at h
  split at h
  · cases h
  next schema hs =>
    split at h
    · cases h
    next config hc => exact ⟨schema, config, hs, hc, h⟩

/-- A workload in JSON begins with a brace and the end of a line. -/
theorem Workload.text_json_ne {workload : Workload} {s : String}
    (h : s.toList.take 2 ≠ ['\x7b', '\n']) : workload.text .json ≠ s := by
  rintro rfl
  refine h ?_
  simp [text, Json.write, toValue, Value.ofEntries, Json.valueText, Json.entryTexts,
    Json.enclosed, Json.lineStart]

/-! ## Runs -/

theorem Outcome.failure_exitCode (tree : FileTree) (said : List String) (f : Failure) :
    (Outcome.failure tree said f).exitCode ≠ 0 := by
  unfold failure
  split_ifs <;> simp

theorem Outcome.failure_tree (tree : FileTree) (said : List String) (f : Failure) :
    (Outcome.failure tree said f).tree = tree := by
  unfold failure
  split_ifs <;> rfl

namespace Export

variable {e : Export} {s : Settings} {target : Path} {workload : Workload}

/-- An export has written a workload to its target, from files in which the log is open. -/
structure Exported (e : Export) (s : Settings) (opened : FileTree) (cwd : Place)
    (target : Path) (workload : Workload) (after : FileTree) : Prop where
  settled : Target.resolve opened cwd e.schema e.target e.format = .ok target
  compiled : Compiles opened cwd e.schema (e.config.getD s.configFile) workload
  written : after.get? (destination cwd target) = some (.text (workload.text e.format))
  others : SameOutside (fun place => place = destination cwd target ∨ s.LogsTo cwd place)
    opened after

/-- **What an export does.** It fails and leaves every file but the log as it was, or it
succeeds and has written its target. -/
theorem run_cases (e : Export) (s : Settings) (tree : FileTree) (cwd : Place) :
    ((e.run s tree cwd).exitCode ≠ 0 ∧
      SameOutside (s.LogsTo cwd) tree (e.run s tree cwd).tree) ∨
    ((e.run s tree cwd).exitCode = 0 ∧ ∃ rank opened target workload,
      s.openLog tree cwd = .ok (rank, opened) ∧
        e.Exported s opened cwd target workload (e.run s tree cwd).tree) := by
  unfold run
  cases ho : s.openLog tree cwd with
  | error failure => exact Or.inl ⟨by simp [Outcome.crashed], .refl _ _⟩
  | ok found =>
      obtain ⟨rank, opened⟩ := found
      have hopened := Settings.sameOutside_openLog ho
      dsimp only
      cases ht : Target.resolve opened cwd e.schema e.target e.format with
      | error failure =>
          refine Or.inl ?_
          dsimp only
          split_ifs
          · exact ⟨by simp [Outcome.misuse], hopened⟩
          · exact ⟨by simp [Outcome.crashed], hopened⟩
      | ok target =>
          have hrecorded := Settings.sameOutside_record s opened cwd rank
            (compileFiles opened cwd e.schema (e.config.getD s.configFile)).log
          dsimp only
          cases hp : (compileFiles opened cwd e.schema (e.config.getD s.configFile)).found with
          | error failure =>
              refine Or.inl ⟨Outcome.failure_exitCode _ _ _, ?_⟩
              rw [Outcome.failure_tree]
              exact hopened.trans hrecorded
          | ok workload =>
              dsimp only [finish]
              split
              · exact Or.inl ⟨by simp [Outcome.crashed], hopened.trans hrecorded⟩
              next after hw =>
                refine Or.inr ⟨rfl, rank, opened, target, workload, rfl, ht,
                  compileFiles_eq_ok hp, ?_, ?_⟩
                · rw [write_eq_ok hw]
                  exact get?_put_self _ _ _
                · rw [write_eq_ok hw]
                  refine SameOutside.trans ?_ (.put (Or.inl rfl) _ _)
                  exact fun place hplace => hrecorded place fun hlog => hplace (Or.inr hlog)

/-- A file that the target of an export was written over was not found, or its name begins
with an underscore. -/
theorem Exported.isReplaceable {after : FileTree}
    (h : e.Exported s opened cwd target workload after)
    (hl : opened.LeadsTo cwd target) (hp : (opened.get? (destination cwd target)).isSome) :
    Target.isReplaceable target = true :=
  (Target.resolve_eq_ok h.settled).2.2 (holds_of_isSome_get? hl hp)

end Export

/-! ## The command -/

namespace Command

/-- The command keeps its log at a place. -/
def LogsTo (env : Environment) (tree : FileTree) (cwd place : Place) : Prop :=
  ∃ s, Settings.load tree cwd env [] = .ok s ∧ s.LogsTo cwd place

theorem run_generate_cases (e : Export) (env : Environment) (tree : FileTree) (cwd : Place) :
    (((generate e).run env tree cwd).exitCode ≠ 0 ∧
      SameOutside (LogsTo env tree cwd) tree ((generate e).run env tree cwd).tree) ∨
    (((generate e).run env tree cwd).exitCode = 0 ∧ ∃ s rank opened target workload,
      Settings.load tree cwd env [] = .ok s ∧ s.openLog tree cwd = .ok (rank, opened) ∧
        e.Exported s opened cwd target workload ((generate e).run env tree cwd).tree) := by
  rw [run]
  cases hs : Settings.load tree cwd env [] with
  | error failure => exact Or.inl ⟨by simp [Outcome.crashed], .refl _ _⟩
  | ok s =>
      rcases Export.run_cases e s tree cwd with ⟨hexit, hsame⟩ | ⟨hexit, rank, opened, h⟩
      · exact Or.inl ⟨hexit, fun place hp => hsame place fun hlog => hp ⟨s, hs, hlog⟩⟩
      · obtain ⟨target, workload, ho, h⟩ := h
        exact Or.inr ⟨hexit, s, rank, opened, target, workload, rfl, ho, h⟩

theorem exists_workload_of_exitCode {e : Export} {env : Environment} {target : Path}
    (hexit : ((generate e).run env tree cwd).exitCode = 0)
    (ht : Target.choose e.schema e.target e.format = .ok target) :
    ∃ workload : Workload, ((generate e).run env tree cwd).tree.get? (destination cwd target) =
      some (.text (workload.text e.format)) := by
  rcases run_generate_cases e env tree cwd with ⟨h, -⟩ | ⟨-, s, rank, opened, chosen, w, -, -, h⟩
  · exact absurd hexit h
  · have hchosen := (Target.resolve_eq_ok h.settled).1
    rw [ht] at hchosen
    injection hchosen with hchosen
    exact ⟨w, hchosen ▸ h.written⟩

/-- **All or nothing.** An export that fails leaves every file but the log as it was.  One
that succeeds writes the workload of its files to its target, which has the ending of the
format, and leaves the others but the log as they were; a target that was there before has
a name that begins with an underscore, unless its path goes up from a directory that is
missing. -/
theorem export_all_or_nothing (e : Export) (env : Environment) (tree : FileTree)
    (cwd : Place) :
    (((generate e).run env tree cwd).exitCode ≠ 0 →
      SameOutside (LogsTo env tree cwd) tree ((generate e).run env tree cwd).tree) ∧
    (((generate e).run env tree cwd).exitCode = 0 →
      ∃ s rank opened target workload, Settings.load tree cwd env [] = .ok s ∧
        s.openLog tree cwd = .ok (rank, opened) ∧
        Target.choose e.schema e.target e.format = .ok target ∧
        target.suffix = e.format.suffix ∧
        Compiles opened cwd e.schema (e.config.getD s.configFile) workload ∧
        ((generate e).run env tree cwd).tree.get? (destination cwd target) =
          some (.text (workload.text e.format)) ∧
        SameOutside (fun place => place = destination cwd target ∨ LogsTo env tree cwd place)
          tree ((generate e).run env tree cwd).tree ∧
        ((tree.get? (destination cwd target)).isSome →
          ".." ∉ target.parts ∨ opened.LeadsTo cwd target →
            Target.isReplaceable target = true)) := by
  rcases run_generate_cases e env tree cwd with ⟨hexit, hsame⟩ | ⟨hexit, h⟩
  · exact ⟨fun _ => hsame, fun h => absurd h hexit⟩
  · obtain ⟨s, rank, opened, target, workload, hs, ho, h⟩ := h
    obtain ⟨hchosen, hsuffix, -⟩ := Target.resolve_eq_ok h.settled
    refine ⟨fun h => absurd hexit h, fun _ => ⟨s, rank, opened, target, workload, hs, ho,
      hchosen, hsuffix, h.compiled, h.written, ?_, ?_⟩⟩
    · intro place hplace
      rw [not_or] at hplace
      have hlog : ¬s.LogsTo cwd place := fun hlog => hplace.2 ⟨s, hs, hlog⟩
      rw [h.others place (not_or.mpr ⟨hplace.1, hlog⟩)]
      exact Settings.sameOutside_openLog ho place hlog
    · intro hthere hway
      have hopened := Settings.isSome_get?_openLog ho hthere
      rcases hway with hdots | hleads
      · exact h.isReplaceable (leadsTo_of_isSome_get? hdots hopened) hopened
      · exact h.isReplaceable hleads hopened

/-- A target is written over though its name begins with no underscore: the directory
that its path goes up from is made only after the target was looked for. -/
theorem export_writes_over_unfound :
    ∃ (e : Export) (tree : FileTree) (target : Path),
      tree.get? ["out.json"] = some (.text "kept") ∧
        Target.choose e.schema e.target e.format = .ok target ∧
        destination [] target = ["out.json"] ∧ Target.isReplaceable target = false ∧
        ((generate e).run [] tree []).exitCode = 0 ∧
        ((generate e).run [] tree []).tree.get? ["out.json"] ≠ some (.text "kept") := by
  let e : Export := ⟨⟨"", ["s.json"]⟩, some ⟨"", ["new", "..", "out.json"]⟩,
    some ⟨"", ["c.yaml"]⟩, .json⟩
  let tree : FileTree := [(["s.json"], .text "\x7b\x7d"), (["c.yaml"], .text "blockplan: \x7b\x7d"),
    (["out.json"], .text "kept")]
  have hexit : ((generate e).run [] tree []).exitCode = 0 := by decide +kernel
  have hchosen : Target.choose e.schema e.target e.format = .ok (e.target.get rfl) := rfl
  obtain ⟨workload, hw⟩ := exists_workload_of_exitCode hexit hchosen
  refine ⟨e, tree, e.target.get rfl, rfl, rfl, rfl, by decide +kernel, hexit, ?_⟩
  rw [show ["out.json"] = destination [] (e.target.get rfl) from rfl, hw]
  exact fun h => Workload.text_json_ne (by decide) (Content.text.inj (Option.some.inj h))

/-- **Inputs.** An export that cannot load its settings changes nothing.  Any other one
keeps the schema and the configuration that it reads, unless the log is kept there, or the
target leads there under a name that begins with an underscore; what happens where the
path of the target goes up from a missing directory is left open. -/
theorem export_keeps_inputs (e : Export) (env : Environment) (tree : FileTree) (cwd : Place) :
    (∀ failure, Settings.load tree cwd env [] = .error failure →
      ((generate e).run env tree cwd).tree = tree) ∧
    ∀ s, Settings.load tree cwd env [] = .ok s →
      ∀ input ∈ [e.schema, e.config.getD s.configFile], ∀ content,
        tree.get? (destination cwd input) = some content →
        ¬s.LogsTo cwd (destination cwd input) →
        (∀ target, Target.choose e.schema e.target e.format = .ok target →
          destination cwd target = destination cwd input →
            Target.isReplaceable target = false ∧
              (".." ∉ target.parts ∨ tree.LeadsTo cwd target)) →
        ((generate e).run env tree cwd).tree.get? (destination cwd input) = some content := by
  refine ⟨fun failure hs => by rw [run, hs]; rfl, ?_⟩
  intro s hs input _ content hthere hlog htarget
  rw [run, hs]
  rcases Export.run_cases e s tree cwd with ⟨-, hsame⟩ | ⟨-, rank, opened, target, w, ho, h⟩
  · rw [hsame _ hlog, hthere]
  · have hother : destination cwd target ≠ destination cwd input := by
      intro heq
      obtain ⟨hname, hway⟩ := htarget target (Target.resolve_eq_ok h.settled).1 heq
      have hopened : (opened.get? (destination cwd target)).isSome :=
        Settings.isSome_get?_openLog ho (by rw [heq, hthere]; rfl)
      have hleads : opened.LeadsTo cwd target := by
        rcases hway with hdots | hleads
        · exact leadsTo_of_isSome_get? hdots hopened
        · exact Settings.leadsTo_openLog ho hleads
      rw [h.isReplaceable hleads hopened] at hname
      cases hname
    rw [h.others _ (not_or.mpr ⟨hother.symm, hlog⟩), Settings.sameOutside_openLog ho _ hlog,
      hthere]

theorem export_keeps_inputs_of_scratch :
    let e : Export := ⟨⟨"", ["s.json"]⟩, some ⟨"", ["_s.json"]⟩, some ⟨"", ["c.yaml"]⟩, .json⟩
    let tree : FileTree := [(["s.json"], .text "\x7b\x7d"),
      (["c.yaml"], .text "blockplan: \x7b\x7d"), (["_s.json"], .text "old")]
    Settings.load tree [] [] [] = .ok .standard ∧ ((generate e).run [] tree []).exitCode = 0 ∧
      destination [] e.schema = ["s.json"] ∧
      (∀ target, Target.choose e.schema e.target e.format = .ok target →
        destination [] target = ["_s.json"]) ∧
      ((generate e).run [] tree []).tree.get? ["s.json"] = some (.text "\x7b\x7d") := by
  intro e tree
  have hs : Settings.load tree [] [] [] = .ok .standard := rfl
  have ht : ∀ target, Target.choose e.schema e.target e.format = .ok target →
      destination [] target = ["_s.json"] := by
    intro target h
    injection h with h
    rw [← h]
    rfl
  refine ⟨hs, by decide +kernel, rfl, ht, ?_⟩
  refine (export_keeps_inputs e [] tree []).2 .standard hs e.schema (List.mem_cons_self ..)
    (.text "\x7b\x7d") rfl ?_ ?_
  · rintro ⟨file, hfile, -⟩
    cases hfile
  · intro target hchosen heq
    rw [ht target hchosen] at heq
    exact absurd heq (by decide)

/-- A schema is written over by an export whose target is next to it under its own name,
and a log is appended to the schema that it is kept in. -/
theorem export_writes_over_inputs :
    (∃ (e : Export) (tree : FileTree) (content : Content),
      tree.get? (destination [] e.schema) = some content ∧
        ((generate e).run [] tree []).tree.get? (destination [] e.schema) ≠ some content) ∧
    ∃ (e : Export) (env : Environment) (tree : FileTree) (content : Content),
      tree.get? (destination [] e.schema) = some content ∧
        ((generate e).run env tree []).tree.get? (destination [] e.schema) ≠ some content := by
  constructor
  · let e : Export := ⟨⟨"", ["_s.json"]⟩, none, some ⟨"", ["c.yaml"]⟩, .json⟩
    let tree : FileTree := [(["_s.json"], .text "\x7b\x7d"), (["c.yaml"], .text "blockplan: \x7b\x7d")]
    have hexit : ((generate e).run [] tree []).exitCode = 0 := by decide +kernel
    have ht : Target.choose e.schema e.target e.format = .ok e.schema := by
      have hsuffix : e.schema.withSuffix? e.format.suffix = some e.schema := by decide +kernel
      simp only [Target.choose, e, hsuffix]
    obtain ⟨workload, hw⟩ := exists_workload_of_exitCode hexit ht
    refine ⟨e, tree, .text "\x7b\x7d", rfl, ?_⟩
    rw [hw]
    exact fun h => Workload.text_json_ne (by decide) (Content.text.inj (Option.some.inj h))
  · exact ⟨⟨⟨"", ["s.json"]⟩, none, some ⟨"", ["c.yaml"]⟩, .yaml⟩, [("CQLGEN_LOG_FILE", "s.json")],
      [(["s.json"], .text "\x7b\x7d"), (["c.yaml"], .text "blockplan: \x7b\x7d")], .text "\x7b\x7d", rfl,
      by decide +kernel⟩

end Command
end CqlWorkload
