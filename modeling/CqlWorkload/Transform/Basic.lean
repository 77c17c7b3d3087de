import CqlWorkload.Log
import CqlWorkload.Statistic.Ratio

/-!
# Schema transformers

A transformer makes a new schema from a given one before it is compiled.  Three
are built in: one keeps the keyspaces selected by patterns, one replaces the
replication of keyspaces, and one derives the weights of tables from their
counts of reads and writes.
-/

namespace CqlWorkload

/-- A transformer with its settings. -/
inductive Transformer
  | keyspaceFilter (included excluded : List (String → Bool))
  | replication (value : Value) (keyspaces : Option Value)
  | ratios
  /-- Replaces every schema by one without elements. -/
  | clearing

namespace Transformer

def name : Transformer → String
  | .keyspaceFilter .. => "keyspace_filter"
  | .replication .. => "replication"
  | .ratios => "ratio_calculator"
  | .clearing => "clearing"

/-- What applying a transformer yields: a schema or a failure, and the log. -/
abbrev Outcome := Except Failure Schema × Log

/-! ## Keyspace filter -/

def matchesAny (patterns : List (String → Bool)) (s : String) : Bool :=
  patterns.any (· s)

/-- Is a keyspace selected?  Without included patterns all are included. -/
def selects (included excluded : List (String → Bool)) (keyspace : String) : Bool :=
  (included.isEmpty || matchesAny included keyspace) && !matchesAny excluded keyspace

/-- The part of a schema that belongs to selected keyspaces. -/
def keep (select : String → Bool) (s : Schema) : Schema where
  keyspaces := s.keyspaces.filter fun k => select k.name
  types := s.types.filter fun t => select t.keyspace
  tables := s.tables.filter fun t => select t.keyspace

def applyFilter (included excluded : List (String → Bool)) (s : Schema) : Outcome :=
  let kept := keep (selects included excluded) s
  let dropped := s.tables.length - kept.tables.length
  (.ok kept,
    if dropped = 0 then []
    else Log.info ("Keyspace filter removed " ++ FloatLayout.digitsText dropped ++ " tables"))

/-! ## Replication -/

/-- Is one text a part of another one? -/
def isInside (part : List Char) : List Char → Bool
  | [] => part.isEmpty
  | c :: rest => (Text.after? part (c :: rest)).isSome || isInside part rest

/-- Is a keyspace among the listed ones?  A text lists its parts. -/
def isListed (name : String) : Value → Except Failure Bool
  | .text s => .ok (isInside name.toList s.toList)
  | .list items => .ok (items.contains (.text name))
  | .map entries => .ok (entries.any (·.1 == .text name))
  | value => .error (.unfit (.notSearchable value.typeTitle))

/-- Is the replication of this keyspace to be replaced?  All are without a list. -/
def isChosen (keyspaces : Option Value) (name : String) : Except Failure Bool :=
  match keyspaces with
  | none => .ok true
  | some listed => isListed name listed

def overrideOne (value : Value) (k : Keyspace) : Except Failure Keyspace × Log :=
  match Replication.body value with
  | .error fault => (.error (.ofReplication fault), [])
  | .ok body =>
    (.ok { k with replication := value },
      Log.debug (s!"Replication of keyspace '{k.name}' set to " ++ body))

def overrideAll (value : Value) (keyspaces : Option Value) :
    List Keyspace → Except Failure (List Keyspace) × Log
  | [] => (.ok [], [])
  | k :: rest =>
    match isChosen keyspaces k.name with
    | .error failure => (.error failure, [])
    | .ok chosen =>
      match if chosen then overrideOne value k else (.ok k, []) with
      | (.error failure, log) => (.error failure, log)
      | (.ok k, log) =>
        match overrideAll value keyspaces rest with
        | (.error failure, more) => (.error failure, log ++ more)
        | (.ok rest, more) => (.ok (k :: rest), log ++ more)

def applyReplication (value : Value) (keyspaces : Option Value) (s : Schema) : Outcome :=
  match overrideAll value keyspaces s.keyspaces with
  | (found, log) => ((fun keyspaces => { s with keyspaces := keyspaces }) <$> found, log)

/-! ## Weights -/

def readCountName : String := "Local read count"

def writeCountName : String := "Local write count"

/-- The counts of reads and writes of a table with statistics. -/
def countsOf (t : Table) : Except Failure (Option (Double × Double)) :=
  if t.hasStats then
    match Statistic.numeric t.statistics readCountName t.fullName with
    | .error failure => .error failure
    | .ok reads =>
      match Statistic.numeric t.statistics writeCountName t.fullName with
      | .error failure => .error failure
      | .ok writes => .ok (some (reads, writes))
  else .ok none

/-- Every table with its counts. -/
def withCounts : List Table → Except Failure (List (Table × Option (Double × Double)))
  | [] => .ok []
  | t :: rest =>
    match countsOf t with
    | .error failure => .error failure
    | .ok counts =>
      match withCounts rest with
      | .error failure => .error failure
      | .ok rest => .ok ((t, counts) :: rest)

/-- All reads and writes together, added table by table. -/
def total (counts : List (Double × Double)) : Double :=
  counts.foldl (fun sum c => sum.add (c.1.add c.2)) (.zero false)

/-- The share of a count in a total; zero in a total of zero. -/
def share (total count : Double) : Double :=
  if total.isZero then .zero false else count.div total

/-- The table with the weights that its counts give it. -/
def weigh (total : Double) : Table × Option (Double × Double) → Table
  | (t, none) => t
  | (t, some (reads, writes)) =>
    let stats := t.statistics.put Statistic.readsName (.float (share total reads))
    { t with stats := some (stats.put Statistic.writesName (.float (share total writes))) }

def applyRatios (s : Schema) : Outcome :=
  match withCounts s.tables with
  | .error failure => (.error failure, [])
  | .ok tables =>
    let counts := tables.filterMap (·.2)
    let total := total counts
    (.ok { s with tables := tables.map (weigh total) },
      if !counts.isEmpty && total.isZero then
        Log.warning "No reads or writes recorded for any table; all weights will be 0"
      else [])

/-! ## Applying transformers -/

def apply : Transformer → Schema → Outcome
  | .keyspaceFilter included excluded, s => applyFilter included excluded s
  | .replication value keyspaces, s => applyReplication value keyspaces s
  | .ratios, s => applyRatios s
  | .clearing, _ => (.ok ⟨[], [], []⟩, [])

def appliedLog (t : Transformer) (s : Schema) : Log :=
  Log.debug (s!"Applied transformer '{t.name}': " ++ FloatLayout.digitsText s.keyspaces.length ++
    " keyspaces, " ++ FloatLayout.digitsText s.types.length ++ " types, " ++
    FloatLayout.digitsText s.tables.length ++ " tables")

/-- Apply transformers in order, each to what the one before it made. -/
def applyAll : List Transformer → Schema → Outcome
  | [], s => (.ok s, [])
  | t :: rest, s =>
    match t.apply s with
    | (.error failure, log) => (.error failure, log)
    | (.ok s, log) =>
      match applyAll rest s with
      | (found, more) => (found, log ++ t.appliedLog s ++ more)

end Transformer
end CqlWorkload
