import CqlWorkload.Proofs.Schema.KeyCount
import CqlWorkload.Proofs.Text.Blank
import CqlWorkload.Proofs.Text.Marked
import CqlWorkload.Proofs.Workload.Coverage

/-!
# Statements that create tables

The statement that creates a table shows its names, its columns with their types, its
keys and its clustering orders.

**Reading it back.** Types may be any texts, also such that look like a key or go on with
the type of another column.  Still every column has a line of its own that ends with a
comma, which the line of the key does not, so that the statement tells what it was made
of (`createTable_eq_iff`).

**Orders.** The clause on the order of rows goes through clustering columns and orders
side by side and stops at the end of the shorter list.
-/

namespace CqlWorkload

/-- A function that tells the members of two lists apart tells the lists. -/
theorem eq_of_map_eq {α β : Type} {f : α → β} {first second : List α}
    (hf : ∀ a, a ∈ first → ∀ b, b ∈ second → f a = f b → a = b)
    (h : first.map f = second.map f) : first = second := by
  induction first generalizing second with
  | nil => exact (List.map_eq_nil_iff.mp h.symm).symm
  | cons a rest ih =>
      cases second with
      | nil => cases h
      | cons b others =>
          obtain ⟨hab, hrest⟩ := List.cons.inj h
          rw [hf a (List.mem_cons_self ..) b (List.mem_cons_self ..) hab,
            ih (fun c hc d hd => hf c (List.mem_cons_of_mem _ hc) d (List.mem_cons_of_mem _ hd))
              hrest]

theorem Order.text_injective : Function.Injective Order.text := by
  intro o p h
  cases o <;> cases p <;> first | rfl | exact absurd h (by decide)

/-! ## Parts of the statement -/

namespace Statement

open Text

/-- A declaration tells its name from its type if there is no space in the name. -/
theorem declaration_inj {a b : String × String} (ha : ' ' ∉ a.1.toList) (hb : ' ' ∉ b.1.toList)
    (h : declaration a ++ "," = declaration b ++ ",") : a = b := by
  have h := (String.append_left_inj ",").mp h
  simp only [declaration, String.append_assoc, String.append_right_inj] at h
  obtain ⟨hname, htype⟩ := append_mark_inj rfl ha hb h
  exact Prod.ext hname htype

/-- A primary key tells its columns, those of the partition key and the others. -/
theorem primaryKey_inj {keys keys' columns columns' : List String} (hne : keys ≠ [])
    (hne' : keys' ≠ []) (hkeys : ∀ name, name ∈ keys ++ columns → IsPlainName name)
    (hkeys' : ∀ name, name ∈ keys' ++ columns' → IsPlainName name)
    (h : primaryKey keys columns = primaryKey keys' columns') :
    keys = keys' ∧ columns = columns' := by
  have hparen : ∀ {names : List String}, (∀ name, name ∈ names → IsPlainName name) →
      ')' ∉ (joinWith ", " names).toList :=
    fun hnames => not_mem_joinWith (by decide) fun name hn =>
      (hnames name hn).not_mem rfl (by decide)
  have hcomma : ∀ {names : List String}, (∀ name, name ∈ names → IsPlainName name) →
      ∀ name, name ∈ names → ',' ∉ name.toList :=
    fun hnames name hn => (hnames name hn).not_mem rfl (by decide)
  obtain ⟨hk, hc⟩ := List.forall_mem_append.mp hkeys
  obtain ⟨hk', hc'⟩ := List.forall_mem_append.mp hkeys'
  have h := marked_eq_of_joinWith_eq (List.cons_ne_nil _ _) (List.cons_ne_nil _ _) h
  simp only [marked_cons, String.append_assoc, String.append_right_inj] at h
  obtain ⟨hjoined, htail⟩ := append_mark_inj rfl (hparen hk) (hparen hk') h
  have hmarked := marked_eq_of_joinWith_eq hne hne' hjoined
  exact ⟨marked_inj rfl (hcomma hk) (hcomma hk') hmarked,
    marked_inj rfl (hcomma hc) (hcomma hc') ((String.append_right_inj _).mp htail)⟩

/-! ## Orders -/

/-- A column and its order. -/
def orderEntry (entry : String × Order) : String := entry.1 ++ " " ++ entry.2.text

/-- A clause that gives columns their orders. -/
def orderBy (listed : List (String × Order)) : String :=
  " with clustering order by (" ++ joinWith ", " (listed.map orderEntry) ++ ")"

/-- The clause lists the clustering columns and their orders side by side. -/
theorem orderClause_eq (columns : List String) {orders : List Order} (h : orders ≠ []) :
    orderClause columns (orders.map (·.text)) = orderBy (columns.zip orders) := by
  have hne : (orders.map (·.text)).isEmpty = false := by simpa using h
  have hlisted : (columns.zip orders).map orderEntry =
      columns.zipWith (fun column order => column ++ " " ++ order) (orders.map (·.text)) := by
    rw [List.zipWith_map_right, List.map_zip_eq_zipWith]
    rfl
  unfold orderClause orderBy
  rw [hlisted, hne, if_neg Bool.false_ne_true]

/-- Orders of the same columns are told apart, whatever the names of the columns. -/
theorem orders_eq_of_marked_eq {columns : List String} {orders orders' : List Order}
    (hl : orders.length ≤ columns.length) (hl' : orders'.length ≤ columns.length)
    (h : marked ", " ((columns.zip orders).map orderEntry) =
      marked ", " ((columns.zip orders').map orderEntry)) : orders = orders' := by
  have hcomma : ∀ o : Order, ',' ∉ o.text.toList := by
    intro o
    cases o <;> decide
  induction columns generalizing orders orders' with
  | nil =>
      rw [List.length_eq_zero_iff.mp (Nat.le_zero.mp hl),
        List.length_eq_zero_iff.mp (Nat.le_zero.mp hl')]
  | cons c columns ih =>
      match orders, orders' with
      | [], [] => rfl
      | [], o :: rest =>
          rw [List.zip_cons_cons, List.map_cons, marked_cons] at h
          exact absurd h.symm (append_mark_ne_empty rfl _ _)
      | o :: rest, [] =>
          rw [List.zip_cons_cons, List.map_cons, marked_cons] at h
          exact absurd h (append_mark_ne_empty rfl _ _)
      | o :: rest, o' :: rest' =>
          simp only [List.zip_cons_cons, List.map_cons, marked_cons, orderEntry,
            String.append_assoc, String.append_right_inj] at h
          obtain ⟨ho, hrest⟩ := append_mark_inj rfl (hcomma o) (hcomma o') h
          rw [Order.text_injective ho, ih (Nat.le_of_succ_le_succ hl)
            (Nat.le_of_succ_le_succ hl') hrest]

/-- Clauses that list the same columns with orders are told apart by the orders. -/
theorem orderBy_inj {columns : List String} {orders orders' : List Order} (hne : orders ≠ [])
    (hne' : orders' ≠ []) (hl : orders.length ≤ columns.length)
    (hl' : orders'.length ≤ columns.length)
    (h : orderBy (columns.zip orders) = orderBy (columns.zip orders')) : orders = orders' := by
  have hlisted : ∀ {listed : List Order}, listed ≠ [] → listed.length ≤ columns.length →
      (columns.zip listed).map orderEntry ≠ [] := by
    intro listed hlisted hle he
    have hzero := congrArg List.length he
    rw [List.length_map, List.length_zip, List.length_nil] at hzero
    have hpos := List.length_pos_of_ne_nil hlisted
    omega
  have h := (String.append_right_inj _).mp ((String.append_left_inj _).mp h)
  exact orders_eq_of_marked_eq hl hl'
    (marked_eq_of_joinWith_eq (hlisted hne hl) (hlisted hne' hl') h)

theorem orderBy_ne_empty (listed : List (String × Order)) : orderBy listed ≠ "" := by
  intro h
  unfold orderBy at h
  rw [String.append_eq_empty_iff] at h
  exact absurd h.2 (by decide)

theorem orderClause_inj {columns : List String} {orders orders' : List Order}
    (hl : orders.length ≤ columns.length) (hl' : orders'.length ≤ columns.length)
    (h : orderClause columns (orders.map (·.text)) = orderClause columns (orders'.map (·.text))) :
    orders = orders' := by
  by_cases hne : orders = []
  · by_cases hne' : orders' = []
    · rw [hne, hne']
    · rw [hne, orderClause_eq columns hne'] at h
      exact absurd h.symm (orderBy_ne_empty _)
  · by_cases hne' : orders' = []
    · rw [hne', orderClause_eq columns hne] at h
      exact absurd h (orderBy_ne_empty _)
    · rw [orderClause_eq columns hne, orderClause_eq columns hne'] at h
      exact orderBy_inj hne hne' hl hl' h

end Statement

/-! ## The whole statement -/

/-- What the statement that creates a table says of a column. -/
def Column.declared (c : Column) : String × String := (c.name, c.trimmedType)

namespace Table

open Statement Text

variable {t u : Table}

/-- The lines on the columns of a table. -/
def columnLines (t : Table) : List String :=
  t.columns.map fun c => declaration c.declared ++ ","

/-- The line on the key of a table. -/
def keyLine (t : Table) : String :=
  "  primary key (" ++ primaryKey t.partitionKeys t.clusteringColumns ++ ")"

/-- The statement that creates a table, up to the clause on the order of rows. -/
def definition (t : Table) : String :=
  "create table if not exists " ++ t.keyspace ++ "." ++ t.name ++ " (\n" ++
    marked "\n" t.columnLines ++ t.keyLine ++ "\n)"

theorem render_tableStatement (t : Table) : (Context.tableStatement t).render =
    t.definition ++ orderClause t.clusteringColumns (t.clusteringOrders.map (·.text)) ++ ";\n" := by
  have hcomma : ",\n" = "," ++ "\n" := by decide
  have hparen : ")\n)" = ")" ++ "\n)" := by decide
  have hlines : String.join ((t.columns.map (·.declared)).map fun c => declaration c ++ ",\n") =
      marked "\n" t.columnLines := by
    rw [marked, columnLines, List.map_map, List.map_map, hcomma]
    exact congrArg String.join (List.map_congr_left fun c _ => String.append_assoc.symm)
  unfold definition keyLine
  rw [← hlines]
  show _ ++ ")\n)" ++ _ ++ _ = _
  rw [hparen]
  simp only [String.append_assoc]
  rfl

theorem definition_append (t : Table) (rest : String) : t.definition ++ rest =
    "create table if not exists " ++ (t.keyspace ++ ("." ++ (t.name ++ (" (\n" ++
      (marked "\n" t.columnLines ++ (t.keyLine ++ ("\n" ++ (")" ++ rest)))))))) := by
  have hparen : "\n)" = "\n" ++ ")" := by decide
  unfold definition
  rw [hparen]
  simp only [String.append_assoc]

/-- A table whose keyspace, name and columns have plain names. -/
structure IsPlain (t : Table) : Prop where
  keyspace : IsPlainName t.keyspace
  name : IsPlainName t.name
  columns : ∀ c, c ∈ t.columns → IsPlainName c.name

instance (t : Table) : Decidable t.IsPlain :=
  decidable_of_iff (IsPlainName t.keyspace ∧ IsPlainName t.name ∧
      ∀ c ∈ t.columns, IsPlainName c.name)
    ⟨fun h => ⟨h.1, h.2.1, h.2.2⟩, fun h => ⟨h.1, h.2, h.3⟩⟩

/-- Key columns are columns of the table, so their names are plain too. -/
theorem IsPlain.keyNames (hp : t.IsPlain) (h : t.WellKeyed) {name : String}
    (hn : name ∈ t.keyNames) : IsPlainName name := by
  obtain ⟨c, hc, rfl⟩ := List.mem_map.mp (h.declared name hn)
  exact hp.columns c hc

/-- A line on a column is one line: types have no line breaks left. -/
theorem IsPlain.not_mem_columnLines (hp : t.IsPlain) {line : String}
    (hl : line ∈ t.columnLines) : '\n' ∉ line.toList := by
  obtain ⟨c, hc, rfl⟩ := List.mem_map.mp hl
  simp only [declaration, Column.declared, String.toList_append, List.mem_append, not_or]
  refine ⟨⟨⟨⟨by decide, (hp.columns c hc).not_mem rfl (by decide)⟩, by decide⟩, fun hm => ?_⟩,
    by decide⟩
  exact absurd (eq_space_of_mem_normalize hm rfl) (by decide)

theorem IsPlain.not_mem_keyLine (hp : t.IsPlain) (h : t.WellKeyed) :
    '\n' ∉ t.keyLine.toList := by
  have hname : ∀ name, name ∈ t.keyNames → '\n' ∉ name.toList :=
    fun name hn => (hp.keyNames h hn).not_mem rfl (by decide)
  obtain ⟨hkeys, hcolumns⟩ := List.forall_mem_append.mp hname
  have hinner : '\n' ∉ (joinWith ", " t.partitionKeys).toList :=
    not_mem_joinWith (by decide) hkeys
  unfold keyLine
  simp only [String.toList_append, List.mem_append, not_or]
  refine ⟨⟨by decide, not_mem_joinWith (by decide) (List.forall_mem_cons.mpr ⟨?_, hcolumns⟩)⟩,
    by decide⟩
  simp only [String.toList_append, List.mem_append, not_or]
  exact ⟨⟨by decide, hinner⟩, by decide⟩

/-- A line on a column ends with a comma and the line on the key does not. -/
theorem keyLine_not_mem_columnLines {line : String} (hl : line ∈ u.columnLines) :
    t.keyLine ≠ line := by
  obtain ⟨c, _, rfl⟩ := List.mem_map.mp hl
  intro he
  have hlast := congrArg (fun s : String => s.toList.getLast?) he
  unfold keyLine at hlast
  simp only [String.toList_append, List.getLast?_append] at hlast
  change some ')' = some ',' at hlast
  cases hlast

/-- Where the line on the key stands, no line on a column can stand. -/
theorem IsPlain.keyLine_append_ne (hp : t.IsPlain) (ht : t.WellKeyed) (hq : u.IsPlain)
    {line : String} (hl : line ∈ u.columnLines) (rest more : String) :
    t.keyLine ++ ("\n" ++ rest) ≠ line ++ ("\n" ++ more) := by
  intro he
  obtain ⟨hsame, -⟩ := append_mark_inj rfl (hp.not_mem_keyLine ht) (hq.not_mem_columnLines hl) he
  exact keyLine_not_mem_columnLines hl hsame

/-- Tables of the same names, columns, types, keys and orders. -/
structure SameShape (t u : Table) : Prop where
  keyspace : t.keyspace = u.keyspace
  name : t.name = u.name
  columns : t.columns.map (·.declared) = u.columns.map (·.declared)
  partitionKeys : t.partitionKeys = u.partitionKeys
  clusteringColumns : t.clusteringColumns = u.clusteringColumns
  clusteringOrders : t.clusteringOrders = u.clusteringOrders

section TwoTables

variable (hp : t.IsPlain) (hq : u.IsPlain)

include hp hq

theorem declared_eq_of_columnLines_eq (h : t.columnLines = u.columnLines) :
    t.columns.map (·.declared) = u.columns.map (·.declared) := by
  have hspace : ∀ {v : Table}, v.IsPlain → ∀ a, a ∈ v.columns.map (·.declared) →
      ' ' ∉ a.1.toList := by
    intro v hv a ha
    obtain ⟨c, hc, rfl⟩ := List.mem_map.mp ha
    exact (hv.columns c hc).not_mem rfl (by decide)
  refine eq_of_map_eq (f := fun a => declaration a ++ ",") (fun a ha b hb => ?_) ?_
  · exact declaration_inj (hspace hp a ha) (hspace hq b hb)
  · rw [List.map_map, List.map_map]
    exact h

/-- **The definition of a table is read line by line.** -/
theorem definition_append_inj (ht : t.WellKeyed) (hu : u.WellKeyed) {rest rest' : String}
    (h : t.definition ++ rest = u.definition ++ rest') :
    (t.keyspace = u.keyspace ∧ t.name = u.name) ∧
      t.columns.map (·.declared) = u.columns.map (·.declared) ∧
      (t.partitionKeys = u.partitionKeys ∧ t.clusteringColumns = u.clusteringColumns) ∧
      rest = rest' := by
  rw [definition_append, definition_append, String.append_right_inj] at h
  obtain ⟨hkeyspace, h⟩ := append_mark_inj rfl
    (hp.keyspace.not_mem rfl (by decide)) (hq.keyspace.not_mem rfl (by decide)) h
  obtain ⟨hname, h⟩ := append_mark_inj rfl
    (hp.name.not_mem rfl (by decide)) (hq.name.not_mem rfl (by decide)) h
  obtain ⟨hlines, h⟩ := marked_append_inj rfl
    (fun line => hp.not_mem_columnLines) (fun line => hq.not_mem_columnLines)
    (fun _ more hl => hp.keyLine_append_ne ht hq hl _ more)
    (fun _ more hl => hq.keyLine_append_ne hu hp hl _ more) h
  obtain ⟨hkey, h⟩ := append_mark_inj rfl (hp.not_mem_keyLine ht)
    (hq.not_mem_keyLine hu) h
  have hkey := (String.append_right_inj _).mp ((String.append_left_inj _).mp hkey)
  exact ⟨⟨hkeyspace, hname⟩, declared_eq_of_columnLines_eq hp hq hlines,
    primaryKey_inj ht.partitioned hu.partitioned (fun name => hp.keyNames ht)
      (fun name => hq.keyNames hu) hkey, (String.append_right_inj _).mp h⟩

theorem sameShape_of_render_eq (ht : t.WellKeyed) (hu : u.WellKeyed)
    (h : (Context.tableStatement t).render = (Context.tableStatement u).render) :
    t.SameShape u := by
  rw [render_tableStatement, render_tableStatement, String.append_assoc, String.append_assoc] at h
  obtain ⟨⟨hkeyspace, hname⟩, hcolumns, ⟨hpartition, hclustering⟩, h⟩ :=
    definition_append_inj hp hq ht hu h
  have hclause := (String.append_left_inj _).mp h
  rw [← hclustering] at hclause
  exact ⟨hkeyspace, hname, hcolumns, hpartition, hclustering,
    orderClause_inj ht.orders (hclustering ▸ hu.orders) hclause⟩

end TwoTables

theorem SameShape.tableStatement_eq (h : t.SameShape u) :
    Context.tableStatement t = Context.tableStatement u := by
  have hcolumns : t.columns.map (fun c => (c.name, c.trimmedType)) =
      u.columns.map fun c => (c.name, c.trimmedType) := h.columns
  rw [Context.tableStatement, Context.tableStatement, h.keyspace, h.name, hcolumns,
    h.partitionKeys, h.clusteringColumns, h.clusteringOrders]

end Table

namespace Context

variable {ctx ctx' : Context} {block block' : String} {s s' later later' : Session}
  {t u : Table} {op op' : Op}

theorem statement_of_createTable (h : ctx.createTable block t s = (.ok (some op), later)) :
    op.statement = (tableStatement t).render := by
  cases Task.createTable_eq_ok h with
  | done _ _ hyields => exact hyields.statement

/-- **The statement tells the table.** Two valid tables with plain names are created by the
same statement exactly when they have the same names, the same columns in the same order
with the same types, blanks aside, the same keys and the same clustering orders. -/
theorem createTable_eq_iff (ht : t.Valid) (hu : u.Valid) (hp : t.IsPlain) (hq : u.IsPlain)
    (h : ctx.createTable block t s = (.ok (some op), later))
    (h' : ctx'.createTable block' u s' = (.ok (some op'), later')) :
    op.statement = op'.statement ↔ t.SameShape u := by
  rw [statement_of_createTable h, statement_of_createTable h']
  constructor
  · exact Table.sameShape_of_render_eq hp hq ht.wellKeyed hu.wellKeyed
  · intro hsame
    rw [hsame.tableStatement_eq]

theorem createTable_eq_iff_readings :
    (Table.readings [.desc]).Valid ∧ (Table.readings [.desc, .asc]).Valid ∧
      ∃ op op' later later',
        plain.createTable "main" (.readings [.desc]) .plain = (.ok (some op), later) ∧
        plain.createTable "main" (.readings [.desc, .asc]) .plain = (.ok (some op'), later') ∧
        op.statement ≠ op'.statement := by
  have ht : (Table.readings [.desc]).Valid := by decide +kernel
  have hu : (Table.readings [.desc, .asc]).Valid := by decide +kernel
  have h : plain.createTable "main" (.readings [.desc]) .plain = (.ok (some _), _) := rfl
  have h' : plain.createTable "main" (.readings [.desc, .asc]) .plain = (.ok (some _), _) := rfl
  refine ⟨ht, hu, _, _, _, _, h, h', fun hsame => ?_⟩
  have hshape := (createTable_eq_iff ht hu (by decide +kernel) (by decide +kernel) h h').mp hsame
  exact absurd hshape.clusteringOrders (by decide)

end Context

/-! ## Complete clauses -/

namespace Table

open Statement

variable {t : Table} {text : String}

/-- A statement that creates the table and gives some columns their orders. -/
def OrderedBy (t : Table) (text : String) (listed : List (String × Order)) : Prop :=
  text = t.definition ++ orderBy listed ++ ";\n"

/-- A statement that creates the table and gives an order to every clustering column, in key
order. -/
def OrdersAll (t : Table) (text : String) : Prop :=
  ∃ listed, listed.map Prod.fst = t.clusteringColumns ∧ t.OrderedBy text listed

theorem orderedBy_render (ho : t.clusteringOrders ≠ []) :
    t.OrderedBy (Context.tableStatement t).render
      (t.clusteringColumns.zip t.clusteringOrders) := by
  rw [OrderedBy, render_tableStatement, orderClause_eq _ ho]

/-- Two statements of one table that order the same columns order them alike. -/
theorem OrderedBy.orders_eq {columns : List String} {orders orders' : List Order}
    (h : t.OrderedBy text (columns.zip orders)) (h' : t.OrderedBy text (columns.zip orders'))
    (hne : orders ≠ []) (hne' : orders' ≠ []) (hl : orders.length ≤ columns.length)
    (hl' : orders'.length ≤ columns.length) : orders = orders' := by
  have hclause : orderBy (columns.zip orders) = orderBy (columns.zip orders') :=
    (String.append_right_inj _).mp ((String.append_left_inj _).mp (h.symm.trans h'))
  exact orderBy_inj hne hne' hl hl' hclause

/-- The clause is complete exactly when there are as many orders as clustering columns. -/
theorem ordersAll_render_iff (ht : t.WellKeyed) (ho : t.clusteringOrders ≠ []) :
    t.OrdersAll (Context.tableStatement t).render ↔
      t.clusteringOrders.length = t.clusteringColumns.length := by
  have hrendered := orderedBy_render ho
  constructor
  · rintro ⟨listed, hnames, hlisted⟩
    have hzip : listed = t.clusteringColumns.zip (listed.map Prod.snd) :=
      List.zip_of_prod hnames rfl
    have hlength : (listed.map Prod.snd).length = t.clusteringColumns.length := by
      rw [← hnames, List.length_map, List.length_map]
    have hpos := List.length_pos_of_ne_nil ho
    have hle := ht.orders
    rw [hzip] at hlisted
    rw [hrendered.orders_eq hlisted ho (List.ne_nil_of_length_pos (by omega)) hle hlength.le,
      hlength]
  · intro hlength
    exact ⟨_, List.map_fst_zip hlength.ge, hrendered⟩

end Table

/-- The table of readings as it is given, with the texts of its clustering orders. -/
def Value.givenReadings (orders : List String) : Value :=
  .ofEntries [("keyspace", .text "site"), ("name", .text "readings"),
    ("columns", .list [
      .ofEntries [("name", .text "value"), ("type_def", .text "double")],
      .ofEntries [("name", .text "hour"), ("type_def", .text "int")],
      .ofEntries [("name", .text "day"), ("type_def", .text "date")],
      .ofEntries [("name", .text "sensor"), ("type_def", .text "text")]]),
    ("partition_keys", .list [.text "sensor"]),
    ("clustering_columns", .list [.text "day", .text "hour"]),
    ("clustering_orders", .list (orders.map .text))]

namespace Context

variable {ctx : Context} {block : String} {s later : Session} {t : Table} {op : Op}

/-- **Clustering orders.** The statement that creates a valid table with clustering orders
gives them to its first clustering columns, one after the other; so it orders all of them
exactly when the table has as many orders as clustering columns. -/
theorem createTable_ordersAll_iff (ht : t.Valid) (ho : t.clusteringOrders ≠ [])
    (h : ctx.createTable block t s = (.ok (some op), later)) :
    t.OrderedBy op.statement (t.clusteringColumns.zip t.clusteringOrders) ∧
      (t.OrdersAll op.statement ↔
        t.clusteringOrders.length = t.clusteringColumns.length) := by
  rw [statement_of_createTable h]
  exact ⟨Table.orderedBy_render ho, Table.ordersAll_render_iff ht.wellKeyed ho⟩

/-- All clustering columns are ordered if there is an order for each. -/
theorem createTable_ordersAll_iff_readings :
    (Table.readings [.desc, .asc]).Valid ∧ (Table.readings [.desc, .asc]).clusteringOrders ≠ [] ∧
      ∃ op later,
        plain.createTable "main" (.readings [.desc, .asc]) .plain = (.ok (some op), later) ∧
        (Table.readings [.desc, .asc]).OrdersAll op.statement := by
  have ht : (Table.readings [.desc, .asc]).Valid := by decide +kernel
  have ho : (Table.readings [.desc, .asc]).clusteringOrders ≠ [] := by decide
  have h : plain.createTable "main" (.readings [.desc, .asc]) .plain = (.ok (some _), _) := rfl
  exact ⟨ht, ho, _, _, h, (createTable_ordersAll_iff ht ho h).2.mpr rfl⟩

/-- An order for the first of two clustering columns leaves the second one out. -/
theorem createTable_leaves_order_out :
    Table.read (.givenReadings ["desc"]) = .valid (.readings [.desc]) ∧
      (Table.readings [.desc]).clusteringOrders ≠ [] ∧
      ∃ op later,
        plain.createTable "main" (.readings [.desc]) .plain = (.ok (some op), later) ∧
        ¬(Table.readings [.desc]).OrdersAll op.statement := by
  have hkeyed : (Table.readings [.desc]).WellKeyed :=
    (Table.fault?_eq_none_iff _).mp (by decide +kernel)
  have ho : (Table.readings [.desc]).clusteringOrders ≠ [] := by decide
  have h : plain.createTable "main" (.readings [.desc]) .plain = (.ok (some _), _) := rfl
  refine ⟨by rfl, ho, _, _, h, ?_⟩
  rw [statement_of_createTable h, Table.ordersAll_render_iff hkeyed ho]
  decide

end Context
end CqlWorkload
