import CqlWorkload.Proofs.Entries
import CqlWorkload.Settings.Reader
import Mathlib.Data.List.Infix

/-!
# What a variable file adds

The variable file that counts is the nearest one in the working directory and the three
directories above it, unless a directory of that name stands before it
(`find?_bind_get?`).  It adds the variables that the environment lacks by exactly that
name, behind those that are there, and nothing else (`load_eq_ok_iff`).
-/

namespace CqlWorkload

/-! ## Variables -/

namespace Environment

variable {env : Environment} {name value : String}

/-- The values of the variables with a name, which is given in lower case, in order. -/
def values (env : Environment) (name : String) : List String :=
  (env.filter fun entry => Text.lowerText entry.1 = name).map (·.2)

theorem values_append (env more : Environment) (name : String) :
    values (env ++ more) name = values env name ++ values more name := by
  simp [values]

theorem values_cons_of_pos {key : String} (h : Text.lowerText key = name) (value : String)
    (rest : Environment) : values ((key, value) :: rest) name = value :: values rest name := by
  simp [values, h]

theorem values_cons_of_neg {key : String} (h : Text.lowerText key ≠ name) (value : String)
    (rest : Environment) : values ((key, value) :: rest) name = values rest name := by
  simp [values, h]

theorem values_eq_nil_iff :
    values env name = [] ↔ ∀ entry ∈ env, Text.lowerText entry.1 ≠ name := by
  simp [values]

theorem last?_eq (env : Environment) (name : String) :
    env.last? name = (env.values name).getLast? := by
  induction env with
  | nil => rfl
  | cons entry rest ih =>
      obtain ⟨key, value⟩ := entry
      rw [last?, ih]
      by_cases h : Text.lowerText key = name
      · rw [values_cons_of_pos h, List.getLast?_cons]
        cases (values rest name).getLast? with
        | none => exact if_pos h
        | some later => rfl
      · rw [values_cons_of_neg h]
        cases (values rest name).getLast? with
        | none => exact if_neg h
        | some later => rfl

/-- Can a name and a value be a variable of a process?  A zero character ends either, and
an equals sign ends the name. -/
structure IsVariable (entry : String × String) : Prop where
  name : '\x00' ∉ entry.1.toList ∧ '=' ∉ entry.1.toList
  value : '\x00' ∉ entry.2.toList

instance (entry : String × String) : Decidable (IsVariable entry) :=
  decidable_of_iff (('\x00' ∉ entry.1.toList ∧ '=' ∉ entry.1.toList) ∧ '\x00' ∉ entry.2.toList)
    ⟨fun h => ⟨h.1, h.2⟩, fun h => ⟨h.1, h.2⟩⟩

/-- The entries whose names the environment does not have, by exactly that name. -/
def lacking (env : Environment) (entries : Entries String) : Environment :=
  entries.filter fun entry => (env.get? entry.1).isNone

theorem lacking_concat {entries : Entries String} (value : String) (h : name ∉ entries.keys) :
    lacking (env ++ [(name, value)]) entries = lacking env entries := by
  refine List.filter_congr fun entry hentry => ?_
  have hne : name ≠ entry.1 := by
    rintro rfl
    exact h (List.mem_map_of_mem hentry)
  rw [Bool.eq_iff_iff, Option.isNone_iff_eq_none, Option.isNone_iff_eq_none,
    Entries.get?_eq_none_iff, Entries.get?_eq_none_iff, Entries.keys_append]
  simp [Entries.keys, hne.symm]

theorem extend_of_get? {old : String} (value : String) (h : env.get? name = some old) :
    env.extend name value = .ok env := by
  simp [extend, h]

theorem extend_of_isVariable (hnone : env.get? name = none) (h : IsVariable (name, value)) :
    env.extend name value = .ok (env ++ [(name, value)]) := by
  obtain ⟨⟨hzero, hequals⟩, hvalue⟩ := h
  dsimp only at hzero hequals hvalue
  simp [extend, hnone, hzero, hequals, hvalue]

theorem extend_of_not_isVariable (hnone : env.get? name = none)
    (h : ¬IsVariable (name, value)) : ∃ failure, env.extend name value = .error failure := by
  rw [extend, if_neg (by simp [hnone])]
  split_ifs with hzero hequals
  · exact ⟨_, rfl⟩
  · exact ⟨_, rfl⟩
  · refine absurd ⟨⟨?_, ?_⟩, ?_⟩ h <;> simp_all

end Environment

namespace EnvFile

open Environment

/-! ## Assignments -/

theorem nodup_keys_resolveFrom (env : Environment) (assignments : List (String × Option String))
    {found : Entries (Option String)} (h : found.keys.Nodup) :
    (Entries.keys (resolveFrom env found assignments)).Nodup := by
  induction assignments generalizing found with
  | nil => exact h
  | cons assignment rest ih => exact ih (Entries.nodup_keys_put _ _ h)

theorem nodup_keys_assigned (env : Environment) (s : String) :
    (Entries.keys (assigned env s)).Nodup :=
  nodup_keys_resolveFrom env _ List.nodup_nil

/-- The assigned names with their values; a name without a value is left out. -/
def pairs (found : Entries (Option String)) : Entries String :=
  found.filterMap fun entry => entry.2.map (entry.1, ·)

theorem mem_keys_of_pairs {found : Entries (Option String)} {name : String}
    (h : name ∈ Entries.keys (pairs found)) : name ∈ found.keys := by
  obtain ⟨entry, hentry, rfl⟩ := List.mem_map.mp h
  obtain ⟨assigned, hassigned, hvalue⟩ := List.mem_filterMap.mp hentry
  obtain ⟨value, -, rfl⟩ := Option.map_eq_some_iff.mp hvalue
  exact List.mem_map_of_mem hassigned

/-- **Extending an environment** puts the variables that it lacks behind its own, if all of
them can be variables. -/
theorem extendAll_eq_ok_iff {found : Entries (Option String)} (hfound : found.keys.Nodup)
    {env extended : Environment} :
    env.extendAll found = .ok extended ↔
      (∀ entry ∈ env.lacking (pairs found), IsVariable entry) ∧
        extended = env ++ env.lacking (pairs found) := by
  induction found generalizing env with
  | nil => simp [extendAll, pairs, lacking, eq_comm]
  | cons entry rest ih =>
      obtain ⟨name, value⟩ := entry
      obtain ⟨hname, hrest⟩ := List.nodup_cons.mp hfound
      have hrests := fun env => @ih hrest env
      cases value with
      | none => exact hrests env
      | some value =>
          have hpairs : pairs ((name, some value) :: rest) = (name, value) :: pairs rest := rfl
          rw [extendAll, hpairs]
          cases hget : env.get? name with
          | some old =>
              have hlacking : env.lacking ((name, value) :: pairs rest) =
                  env.lacking (pairs rest) := List.filter_cons_of_neg (by simp [hget])
              rw [extend_of_get? value hget, hlacking]
              exact hrests env
          | none =>
              have hlacking : env.lacking ((name, value) :: pairs rest) =
                  (name, value) :: env.lacking (pairs rest) :=
                List.filter_cons_of_pos (by simp [hget])
              rw [hlacking, List.forall_mem_cons]
              by_cases hvariable : IsVariable (name, value)
              · -- The other names are different, so what they lack stays the same.
                have hnew := hrests (env ++ [(name, value)])
                rw [lacking_concat value fun h => hname (mem_keys_of_pairs h)] at hnew
                rw [extend_of_isVariable hget hvariable]
                refine hnew.trans ?_
                simp [hvariable]
              · obtain ⟨failure, hfailure⟩ := extend_of_not_isVariable hget hvariable
                rw [hfailure]
                exact ⟨nofun, fun h => absurd h.1.1 hvariable⟩

/-! ## The search -/

/-- The places at which a variable file is looked for: in the working directory, and in
the directories above it. -/
def places (cwd : Place) : List Place := (cwd.inits.reverse.take reach).map (· ++ [fileName])

/-- What the nearest variable file in reach holds. -/
def nearestFile? (tree : FileTree) (cwd : Place) : Option Content :=
  (places cwd).findSome? tree.get?

/-- Is there a directory of the name of a variable file nearer than the nearest one? -/
def isHidden (tree : FileTree) (cwd : Place) : Bool :=
  ((places cwd).takeWhile fun place => (tree.get? place).isNone).any tree.isDirectory

theorem reverse_inits_concat (directory : Place) (part : String) :
    (directory ++ [part]).inits.reverse = (directory ++ [part]) :: directory.inits.reverse := by
  simp [List.inits_append]

theorem nearest_eq (tree : FileTree) (count : Nat) (directory : Place) :
    nearest tree count directory =
      ((directory.inits.reverse.take count).map (· ++ [fileName])).find? fun place =>
        (tree.get? place).isSome || tree.isDirectory place := by
  induction count generalizing directory with
  | zero => rfl
  | succ count ih =>
      rcases List.eq_nil_or_concat directory with rfl | ⟨above, part, rfl⟩
      · simp only [nearest, List.inits, List.reverse_singleton, List.take_succ_cons,
          List.take_nil, List.map_cons, List.map_nil, List.nil_append, List.find?_cons,
          List.find?_nil, List.isEmpty_nil, if_true]
        cases (tree.get? [fileName]).isSome || tree.isDirectory [fileName] <;> rfl
      · have hbelow : (above ++ [part]).isEmpty = false := by simp
        rw [List.concat_eq_append, nearest, List.dropLast_concat, ih, reverse_inits_concat,
          List.take_succ_cons, List.map_cons, List.find?_cons, hbelow]
        cases (tree.get? (above ++ [part] ++ [fileName])).isSome ||
          tree.isDirectory (above ++ [part] ++ [fileName]) <;> rfl

/-- **The file that counts** is the nearest one, unless a directory hides it. -/
theorem find?_bind_get? (tree : FileTree) (cwd : Place) :
    (find? tree cwd).bind tree.get? =
      if isHidden tree cwd = true then none else nearestFile? tree cwd := by
  rw [find?, nearest_eq, isHidden, nearestFile?]
  change ((places cwd).find? _).bind _ = _
  -- The induction is on the places, of which nothing else counts.
  induction places cwd with
  | nil => rfl
  | cons place rest ih =>
      cases hfile : tree.get? place with
      | some content => simp [hfile]
      | none =>
          cases hdirectory : tree.isDirectory place with
          | true => simp [hfile, hdirectory]
          | false => simpa [hfile, hdirectory] using ih

/-! ## The environment with the file -/

/-- The names and values that a content gives, if it is there. -/
def pairsOf (env : Environment) : Option Content → Except Failure (Entries String)
  | none => .ok []
  | some content => do return pairs (assigned env (← content.read))

/-- The variables that are added to an environment. -/
def added (tree : FileTree) (cwd : Place) (env : Environment) (entries : Entries String) :
    Environment :=
  if isHidden tree cwd then [] else env.lacking entries

/-- The environment with the nearest file. -/
theorem load_eq_ok_iff {tree : FileTree} {cwd : Place} {env : Environment}
    {entries : Entries String} (h : pairsOf env (nearestFile? tree cwd) = .ok entries)
    {extended : Environment} :
    load tree cwd env = .ok extended ↔
      (∀ entry ∈ added tree cwd env entries, IsVariable entry) ∧
        extended = env ++ added tree cwd env entries := by
  rw [load, find?_bind_get?, added]
  cases hhidden : isHidden tree cwd with
  | true => simp [eq_comm]
  | false =>
      simp only [Bool.false_eq_true, if_false]
      cases hfile : nearestFile? tree cwd with
      | none =>
          obtain rfl : [] = entries := by simpa [hfile, pairsOf] using h
          simp [lacking, eq_comm]
      | some content =>
          rw [hfile, pairsOf] at h
          cases htext : content.read with
          | error failure => simp [htext, bind, Except.bind] at h
          | ok text =>
              obtain rfl : pairs (assigned env text) = entries := by
                simpa [htext, bind, Except.bind, pure, Except.pure] using h
              simp only [htext]
              exact extendAll_eq_ok_iff (nodup_keys_assigned env text)

end EnvFile
end CqlWorkload
