import CqlWorkload.Proofs.Settings.EnvFile

/-!
# Which variable a setting is read from

The one variable that the process was started with comes before a variable file, and the
nearest file before the standard value (`TakenInOrder`).  `Settings.load_order_iff` says
what is read in every case, and exactly when that order is kept.

**Spellings.** A file adds every variable that is not there by exactly its name, while a
setting is read from the last variable of its name in any case.  So a file that spells
the name in another way than the process does is read in its place.  Of several
variables that the process was started with the last one counts, in the same way.
-/

namespace CqlWorkload
namespace Settings

open Environment EnvFile

/-- The name of the variable of a setting, in lower case. -/
def variableName (name : String) : String := variableStart ++ name

/-- The settings for which these texts are found, the others being standard. -/
def ofTexts (text? : String → Option String) : Settings where
  configFile := ((text? "config_file").map Path.ofText).getD standard.configFile
  logLevel := (text? "log_level").getD standard.logLevel
  logFile := ((text? "log_file").map fun s => some (Path.ofText s)).getD standard.logFile

/-- The text for a setting when variables were added to those of the process. -/
def counted? (env more : Environment) (name : String) : Option String :=
  (values (env ++ more) (variableName name)).getLast?

/-- What a setting is to be taken from: the variable of its name that the process was
started with, if there is exactly one, and if there is none the entries of a variable
file. -/
structure TakenInOrder (env : Environment) (entries : Entries String) (name : String)
    (taken : Option String) : Prop where
  process : ∀ value, env.values (variableName name) = [value] → taken = some value
  file : env.values (variableName name) = [] →
    taken = (values entries (variableName name)).getLast?

/-! ## Reading -/

theorem setting_of_text {α : Type} {check : Value → Checked α} {convert : String → α}
    (h : ∀ s, check (.text s) = .valid (convert s)) (env : Environment) (name : String)
    (absent : α) : setting env [] name absent check =
      .valid (((env.last? (variableName name)).map convert).getD absent) := by
  have hsource : source? env [] name = (env.last? (variableName name)).map .text := rfl
  rw [setting, hsource]
  cases env.last? (variableName name) with
  | none => rfl
  | some s =>
      simp only [Option.map_some, h]
      rfl

/-- Texts are always accepted. -/
theorem read_nil (env : Environment) :
    read env [] = .valid (ofTexts fun name => env.last? (variableName name)) := by
  have hconfig := @setting_of_text _ path _ (fun _ => rfl) env "config_file" standard.configFile
  have hlevel := @setting_of_text _ Checked.text _ (fun _ => rfl) env "log_level" standard.logLevel
  have hlog := @setting_of_text _ optionalPath _ (fun _ => rfl) env "log_file" standard.logFile
  rw [read, hconfig, hlevel, hlog, Option.map_id']
  rfl

/-- Settings are read from the environment with its file. -/
theorem load_nil (tree : FileTree) (cwd : Place) (env : Environment) :
    load tree cwd env [] =
      (fun extended => ofTexts fun name => extended.last? (variableName name)) <$>
        EnvFile.load tree cwd env := by
  rw [load]
  cases EnvFile.load tree cwd env with
  | error failure => rfl
  | ok extended =>
      simp only [bind, Except.bind, read_nil]
      rfl

theorem load_eq_ok_iff {tree : FileTree} {cwd : Place} {env : Environment}
    {entries : Entries String} (h : pairsOf env (nearestFile? tree cwd) = .ok entries)
    (settings : Settings) :
    load tree cwd env [] = .ok settings ↔
      (∀ entry ∈ added tree cwd env entries, IsVariable entry) ∧
        settings = ofTexts (counted? env (added tree cwd env entries)) := by
  have hcounted : ∀ more, (fun name => last? (env ++ more) (variableName name)) =
      counted? env more := fun more => funext fun name => last?_eq _ _
  rw [load_nil, ← hcounted]
  constructor
  · intro hok
    cases hfound : EnvFile.load tree cwd env with
    | error failure => simp [hfound] at hok
    | ok extended =>
        obtain ⟨hall, rfl⟩ := (EnvFile.load_eq_ok_iff h).mp hfound
        rw [hfound] at hok
        injection hok with hok
        exact ⟨hall, hok.symm⟩
  · rintro ⟨hall, rfl⟩
    rw [(EnvFile.load_eq_ok_iff h).mpr ⟨hall, rfl⟩]
    rfl

/-! ## The order -/

theorem values_lacking {env : Environment} {name : String} (h : env.values name = [])
    (entries : Entries String) : values (env.lacking entries) name = values entries name := by
  rw [values, lacking, List.filter_filter, values]
  refine congrArg _ (List.filter_congr fun entry _ => ?_)
  by_cases hname : Text.lowerText entry.1 = name
  · have habsent : entry.1 ∉ Entries.keys env := by
      intro hkey
      obtain ⟨other, hother, hsame⟩ := List.mem_map.mp hkey
      exact values_eq_nil_iff.mp h other hother (hsame ▸ hname)
    simp [hname, (Entries.get?_eq_none_iff _ _).mpr habsent]
  · simp [hname]

theorem counted?_eq (env more : Environment) (name : String) :
    counted? env more name = (more.values (variableName name)).getLast?.or
      (env.values (variableName name)).getLast? := by
  rw [counted?, values_append, List.getLast?_append]

/-- A variable of the process counts unless the file adds another spelling of its name
with another value. -/
theorem process_iff (env more : Environment) (name value : String)
    (h : env.values (variableName name) = [value]) :
    counted? env more name = some value ↔
      ∀ other ∈ (more.values (variableName name)).getLast?, other = value := by
  rw [counted?_eq, h]
  cases (more.values (variableName name)).getLast? <;> simp

/-- Without a variable of the process the nearest file counts unless it is hidden. -/
theorem file_iff (tree : FileTree) (cwd : Place) {env : Environment} (entries : Entries String)
    {name : String} (h : env.values (variableName name) = []) :
    counted? env (added tree cwd env entries) name =
        (values entries (variableName name)).getLast? ↔
      (isHidden tree cwd = true → values entries (variableName name) = []) := by
  rw [counted?_eq, h, List.getLast?_nil, Option.or_none, added]
  cases isHidden tree cwd with
  | true =>
      rw [if_pos rfl, values, List.filter_nil, List.map_nil, List.getLast?_nil, eq_comm,
        List.getLast?_eq_none_iff]
      exact ⟨fun hnone _ => hnone, fun hnone => hnone rfl⟩
  | false =>
      rw [if_neg Bool.false_ne_true, values_lacking h]
      exact ⟨fun _ hfalse => absurd hfalse Bool.false_ne_true, fun _ => rfl⟩

/-- **What settings are read from.** They are read from the variables of the process and,
behind them, those that the nearest file adds; they are refused only if one of these
cannot be a variable.  The order is kept exactly if the file does not add another value
under another spelling of the variable of the process, and no directory hides a file with
a variable that the process lacks. -/
theorem load_order_iff {tree : FileTree} {cwd : Place} {env : Environment}
    {entries : Entries String} (h : pairsOf env (nearestFile? tree cwd) = .ok entries) :
    (∀ settings, load tree cwd env [] = .ok settings ↔
      (∀ entry ∈ added tree cwd env entries, IsVariable entry) ∧
        settings = ofTexts (counted? env (added tree cwd env entries))) ∧
    ∀ name, TakenInOrder env entries name (counted? env (added tree cwd env entries) name) ↔
      (∀ value, env.values (variableName name) = [value] →
        ∀ other ∈ ((added tree cwd env entries).values (variableName name)).getLast?,
          other = value) ∧
      (env.values (variableName name) = [] → isHidden tree cwd = true →
        values entries (variableName name) = []) := by
  refine ⟨load_eq_ok_iff h, fun name => ?_⟩
  constructor
  · intro hname
    exact ⟨fun value hvalue => (process_iff _ _ _ _ hvalue).mp (hname.process value hvalue),
      fun hnone => (file_iff _ _ _ hnone).mp (hname.file hnone)⟩
  · rintro ⟨hprocess, hfile⟩
    exact ⟨fun value hvalue => (process_iff _ _ _ _ hvalue).mpr (hprocess value hvalue),
      fun hnone => (file_iff _ _ _ hnone).mpr (hfile hnone)⟩

/-- A file above the working directory, and another one above that. -/
def nearAndFar : FileTree :=
  [(["a", ".env"], .text "CQLGEN_LOG_LEVEL=WARNING\nCQLGEN_CONFIG_FILE=near.yaml\n"),
    ([".env"], .text "CQLGEN_LOG_FILE=far.log\n")]

/-- What the nearer file gives. -/
def nearEntries : Entries String :=
  [("CQLGEN_LOG_LEVEL", "WARNING"), ("CQLGEN_CONFIG_FILE", "near.yaml")]

/-- A process with one variable. -/
def debugging : Environment := [("CQLGEN_LOG_LEVEL", "DEBUG")]

/-- The process has the level, the nearest file the configuration, and the file farther up
is not read. -/
theorem load_order_iff_nearAndFar :
    pairsOf debugging (nearestFile? nearAndFar ["a", "b"]) = .ok nearEntries ∧
      load nearAndFar ["a", "b"] debugging [] = .ok ⟨Path.ofText "near.yaml", "DEBUG", none⟩ ∧
      TakenInOrder debugging nearEntries "log_level" (some "DEBUG") := by
  have hpairs : pairsOf debugging (nearestFile? nearAndFar ["a", "b"]) = .ok nearEntries := by
    decide +kernel
  have hadded : added nearAndFar ["a", "b"] debugging nearEntries =
      [("CQLGEN_CONFIG_FILE", "near.yaml")] := by decide +kernel
  have hprocess : debugging.values (variableName "log_level") = ["DEBUG"] := by decide +kernel
  have hvalues : values [("CQLGEN_CONFIG_FILE", "near.yaml")] (variableName "log_level") = [] := by
    decide +kernel
  obtain ⟨hload, horder⟩ := load_order_iff hpairs
  have htaken := (horder "log_level").mpr
    ⟨by simp [hadded, hvalues], by simp [hprocess]⟩
  refine ⟨hpairs, (hload _).mpr ⟨?_, ?_⟩, ?_⟩
  · decide +kernel
  · decide +kernel
  · rwa [counted?_eq, hadded, hvalues, hprocess] at htaken

/-! ## Where the order is broken -/

/-- A file that spells the name of a variable in capitals, in a working directory. -/
def capitals : FileTree := [(["w", ".env"], .text "CQLGEN_LOG_LEVEL=WARNING\n")]

/-- The file with capitals behind a directory of its name. -/
def capitalsHidden : FileTree :=
  [(["w", ".env", "notes"], .text ""), ([".env"], .text "CQLGEN_LOG_LEVEL=WARNING\n")]

/-- A process that spells the name in small letters gets the level of the file; and no
level is read from a file that is hidden. -/
theorem load_order_broken :
    load capitals ["w"] [("cqlgen_log_level", "DEBUG")] [] =
        .ok { standard with logLevel := "WARNING" } ∧
      ¬TakenInOrder [("cqlgen_log_level", "DEBUG")] [("CQLGEN_LOG_LEVEL", "WARNING")] "log_level"
        (some "WARNING") ∧
      nearestFile? capitalsHidden ["w"] = some (.text "CQLGEN_LOG_LEVEL=WARNING\n") ∧
      load capitalsHidden ["w"] [] [] = .ok standard ∧
      ¬TakenInOrder [] [("CQLGEN_LOG_LEVEL", "WARNING")] "log_level" none := by
  have hprocess : values [("cqlgen_log_level", "DEBUG")] (variableName "log_level") =
      ["DEBUG"] := by decide +kernel
  have hfile : values [("CQLGEN_LOG_LEVEL", "WARNING")] (variableName "log_level") =
      ["WARNING"] := by decide +kernel
  refine ⟨by decide +kernel, fun h => ?_, by decide +kernel, by decide +kernel, fun h => ?_⟩
  · exact absurd (h.process "DEBUG" hprocess) (by decide)
  · have htaken := h.file rfl
    rw [hfile] at htaken
    cases htaken

end Settings
end CqlWorkload
