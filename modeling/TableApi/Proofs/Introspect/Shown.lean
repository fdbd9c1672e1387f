import Mathlib.Data.List.Induction
import TableApi.Proofs.Introspect.Readings

/-!
# What a catalog that was read shows

Readings that are entered into a catalog show in it: the databases are those that were read, and
the tables of each are those of its listing, the last one of a name where a name is repeated. What a
table shows is what the answers to its own two questions say, a row that says nothing under a name
being passed over (`Picked`).

`readCatalog_shows` puts it together: reading a catalog is an interview whose questions and whose
catalog do not depend on the case of any key, and the catalog shows what the answers say.
-/

namespace TableApi.Introspect

/-! ## Entering -/

/-- Tables of a known database bring no other. -/
theorem isDatabase_insertTables {c : Catalog} {database : String}
    (hc : c.isDatabase database = true) (tables : List Table) (db : String) :
    (tables.foldl (·.insertTable database ·) c).isDatabase db = c.isDatabase db := by
  induction tables generalizing c with
  | nil => rfl
  | cons t tables ih =>
    have hknown : ∀ db, (c.insertTable database t).isDatabase db = c.isDatabase db := by
      intro db
      rw [Catalog.isDatabase_insertTable]
      by_cases hdb : db = database <;> simp [hdb, hc]
    rw [List.foldl_cons, ih ((hknown database).trans hc), hknown]

/-- A database is entered, with or without tables. -/
theorem isDatabase_enter (c : Catalog) (found : String × List Table) (db : String) :
    (enter c found).isDatabase db = (db == found.1 || c.isDatabase db) := by
  have hadded : (c.addDatabase found.1).isDatabase found.1 = true := by
    simp
  rw [enter, isDatabase_insertTables hadded, Catalog.isDatabase_addDatabase]

/-- **The databases of a catalog** are those that were entered. -/
theorem isDatabase_foldl_enter (found : List (String × List Table)) (c : Catalog) (db : String) :
    (found.foldl enter c).isDatabase db = true ↔
      db ∈ found.map Prod.fst ∨ c.isDatabase db = true := by
  induction found generalizing c with
  | nil => simp
  | cons f found ih =>
    rw [List.foldl_cons, ih, isDatabase_enter]
    simp [or_assoc, or_left_comm]

/-- The tables of other databases are left as they are. -/
theorem table?_enter_of_ne {found : String × List Table} {db : String} (h : db ≠ found.1)
    (c : Catalog) (name : String) : (enter c found).table? db name = c.table? db name := by
  have htables : ∀ c : Catalog, (found.2.foldl (·.insertTable found.1 ·) c).table? db name =
      c.table? db name := by
    induction found.2 with
    | nil => exact fun _ => rfl
    | cons t tables ih =>
      intro c
      rw [List.foldl_cons, ih, Catalog.table?_insertTable, if_neg fun heq => h heq.1]
  rw [enter, htables, Catalog.table?_addDatabase]

theorem table?_foldl_enter_of_not_mem {found : List (String × List Table)} {db : String}
    (h : db ∉ found.map Prod.fst) (c : Catalog) (name : String) :
    (found.foldl enter c).table? db name = c.table? db name := by
  induction found generalizing c with
  | nil => rfl
  | cons f found ih =>
    rw [List.map_cons, List.mem_cons, not_or] at h
    rw [List.foldl_cons, ih h.2, table?_enter_of_ne h.1]

/-- **The last table of a name is the one that is known**, in a database without tables before. -/
theorem table?_enter {c : Catalog} {found : String × List Table}
    (hc : ∀ name, c.table? found.1 name = none) (name : String) :
    (enter c found).table? found.1 name = found.2.reverse.find? (·.name = name) := by
  rw [enter]
  induction found.2 using List.reverseRecOn with
  | nil => simpa using hc name
  | append_singleton tables t ih =>
    rw [List.foldl_append, List.foldl_cons, List.foldl_nil, Catalog.table?_insertTable, ih,
      List.reverse_concat, List.find?_cons]
    by_cases hname : name = t.name
    · simp [hname]
    · simp [hname, Ne.symm hname]

/-- **The tables of a catalog** are those of the one entry of their database. -/
theorem table?_foldl_enter {found : List (String × List Table)}
    (hnodup : (found.map Prod.fst).Nodup) {c : Catalog}
    (hc : ∀ f ∈ found, ∀ name, c.table? f.1 name = none) {f : String × List Table} (hf : f ∈ found)
    (name : String) :
    (found.foldl enter c).table? f.1 name = f.2.reverse.find? (·.name = name) := by
  induction found generalizing c with
  | nil => exact absurd hf List.not_mem_nil
  | cons g found ih =>
    obtain ⟨hg, hnodup⟩ := List.nodup_cons.1 hnodup
    obtain ⟨hcg, hc⟩ := List.forall_mem_cons.1 hc
    rw [List.foldl_cons]
    rcases List.mem_cons.1 hf with rfl | hf
    · rw [table?_foldl_enter_of_not_mem hg, table?_enter hcg]
    · refine ih hnodup (fun f' hf' name => ?_) hf
      have hne : f'.1 ≠ g.1 := fun heq => hg (heq ▸ List.mem_map_of_mem hf')
      rw [table?_enter_of_ne hne, hc f' hf' name]

/-! ## What is shown -/

variable {β : Type}

/-- **What is picked from rows**, in order: from each row that has something to it, and from no
other. -/
inductive Picked (P : Row → β → Prop) : List Row → List β → Prop
  | nil : Picked P [] []
  | picked {row : Row} {b : β} {rows : List Row} {bs : List β} (h : P row b)
      (rest : Picked P rows bs) : Picked P (row :: rows) (b :: bs)
  | passed {row : Row} {rows : List Row} {bs : List β} (h : ∀ b, ¬P row b)
      (rest : Picked P rows bs) : Picked P (row :: rows) bs

/-- What is read of rows is what is picked from them. -/
theorem picked_iff {P : Row → β → Prop} {f : Row → Option β} {rows : List Row}
    (hf : ∀ row ∈ rows, ∀ {b}, f row = some b ↔ P row b) {bs : List β} :
    Picked P rows bs ↔ rows.filterMap f = bs := by
  induction rows generalizing bs with
  | nil =>
    constructor
    · rintro ⟨⟩
      rfl
    · rintro rfl
      exact .nil
  | cons row rows ih =>
    obtain ⟨hrow, hrows⟩ := List.forall_mem_cons.1 hf
    rw [List.filterMap_cons]
    constructor
    · intro h
      cases h with
      | picked h rest => rw [hrow.2 h, (ih hrows).1 rest]
      | passed h rest =>
        have hnone : f row = none := Option.eq_none_iff_forall_ne_some.2 fun b hb => h b (hrow.1 hb)
        rw [hnone, (ih hrows).1 rest]
    · rintro rfl
      cases hb : f row with
      | none => exact .passed (fun b h => by simp [hrow.2 h] at hb) ((ih hrows).2 rfl)
      | some b => exact .picked (hrow.1 hb) ((ih hrows).2 rfl)

/-- **The key that rows name**: the first of them does, or there is none. -/
def NamesKey : List Row → Option String → Prop
  | [], key => key = none
  | row :: _, key => TextUnder row "column_name" key

/-- **The table is what a reading says of it.** -/
structure TableReading.Describes (t : TableReading) (table : Table) : Prop where
  name : table.name = t.name
  comment : table.comment = t.comment
  key : NamesKey t.key table.primaryKey
  columns : Picked DescribesColumn t.columns table.columns

/-- It is the table that the reading comes to. -/
theorem TableReading.describes_iff {t : TableReading} (hkey : ∀ row ∈ t.key, Distinct row)
    (hcolumns : ∀ row ∈ t.columns, Distinct row) {table : Table} :
    t.Describes table ↔ t.table = table := by
  have hnames : ∀ {key}, NamesKey t.key key ↔ t.key.head?.bind (text? · "column_name") = key := by
    intro key
    cases hrows : t.key with
    | nil => exact eq_comm
    | cons row rows => exact textUnder_iff (hkey row (by simp [hrows]))
  have hpicked : ∀ {columns}, Picked DescribesColumn t.columns columns ↔
      t.columns.filterMap column? = columns :=
    picked_iff fun row hrow => column?_eq_some_iff (hcolumns row hrow)
  constructor
  · rintro ⟨hname, hcomment, hkey, hcolumns⟩
    obtain ⟨name, comment, key, columns⟩ := table
    rw [TableReading.table, ← hname, ← hcomment, hnames.1 hkey, hpicked.1 hcolumns]
  · rintro rfl
    exact ⟨rfl, rfl, hnames.2 rfl, hpicked.2 rfl⟩

/-- **Readings of databases**, one for each: its tables are those that its listing names, and all
its answers are those of the script, reply by reply. -/
structure AreReadings (d : Dialect) (databases : List String) (script : List Reply)
    (readings : List DatabaseReading) : Prop where
  databases : readings.map DatabaseReading.database = databases
  listings : ∀ r ∈ readings, Picked NamesTable r.listing (r.tables.map fun t => (t.name, t.comment))
  answers : Answered script (readings.flatMap (·.exchanges d))

/-- **The catalog shows the readings**: their databases and no others, and in each of them the
tables that were listed and no others, the last one of each name. -/
structure Shows (c : Catalog) (readings : List DatabaseReading) : Prop where
  databases : ∀ database, c.isDatabase database = true ↔
    database ∈ readings.map DatabaseReading.database
  tables : ∀ r ∈ readings, ∀ name table, c.table? r.database name = some table ↔
    ∃ t, r.tables.reverse.find? (·.name = name) = some t ∧ t.Describes table

variable {d : Dialect} {databases : List String} {script : List Reply}
  {readings : List DatabaseReading}

/-- What holds of all rows of a script holds of all rows of readings. -/
theorem Answered.forall_rows {P : Row → Prop}
    (h : Answered script (readings.flatMap (·.exchanges d)))
    (hscript : ∀ rs, .rows rs ∈ script → ∀ row ∈ rs, P row) {r : DatabaseReading}
    (hr : r ∈ readings) :
    (∀ row ∈ r.listing, P row) ∧
      ∀ t ∈ r.tables, (∀ row ∈ t.key, P row) ∧ ∀ row ∈ t.columns, P row := by
  have hanswers : ∀ e ∈ r.exchanges d, ∀ row ∈ e.2, P row := fun e he =>
    h.forall_mem hscript e (List.mem_flatMap.2 ⟨r, hr, he⟩)
  obtain ⟨hlisting, htables⟩ := List.forall_mem_cons.1 hanswers
  refine ⟨hlisting, fun t ht => ?_⟩
  have htable := fun e he => htables e (List.mem_flatMap.2 ⟨t, ht, he⟩)
  obtain ⟨hkey, hcolumns⟩ := List.forall_mem_cons.1 htable
  exact ⟨hkey, hcolumns _ (List.mem_singleton_self _)⟩

/-- The readings of a script are such readings. -/
theorem areReadings_readingsOf (hscript : ∀ rs, .rows rs ∈ script → ∀ row ∈ rs, Distinct row) :
    AreReadings d databases script (readingsOf databases script) where
  databases := map_database_readingsOf databases script
  listings r hr := by
    have hlisting := ((answered_readingsOf d databases script).forall_rows hscript hr).1
    exact (picked_iff fun row hrow => tableName?_eq_some_iff (hlisting row hrow)).2
      (map_name_of_mem_readingsOf hr).symm
  answers := answered_readingsOf d databases script

/-- **The catalog in which readings are entered shows them.** -/
theorem AreReadings.shows (h : AreReadings d databases script readings)
    (hnodup : databases.Nodup)
    (hscript : ∀ rs, .rows rs ∈ script → ∀ row ∈ rs, Distinct row) :
    Shows ((readings.map DatabaseReading.found).foldl enter .empty) readings := by
  have hnames : (readings.map DatabaseReading.found).map Prod.fst = databases := by
    rw [List.map_map, ← h.databases]
    rfl
  refine ⟨fun database => ?_, fun r hr name table => ?_⟩
  · rw [isDatabase_foldl_enter, hnames, h.databases]
    exact or_iff_left (by simp [Catalog.isDatabase, Catalog.empty, Index.has])
  · have htable := table?_foldl_enter (hnames.symm ▸ hnodup) (c := .empty)
      (fun _ _ _ => Catalog.table?_empty ..) (List.mem_map_of_mem hr) name
    have htables : r.found.2.reverse.find? (·.name = name) =
        (r.tables.reverse.find? (·.name = name)).map TableReading.table := by
      rw [DatabaseReading.found, ← List.map_reverse, List.find?_map]
      rfl
    have hdatabase : r.found.1 = r.database := rfl
    rw [← hdatabase, htable, htables, Option.map_eq_some_iff]
    refine exists_congr fun t => and_congr_right fun ht => ?_
    obtain ⟨hkey, hcolumns⟩ := (h.answers.forall_rows hscript hr).2 t
      (List.mem_reverse.1 (List.mem_of_find?_eq_some ht))
    exact (TableReading.describes_iff hkey hcolumns).symm

/-! ## Reading a catalog -/

/-- **A catalog shows what the database answers**, in whatever case its answers have their keys.
Reading it is an interview: a question for the tables of each database, and two for each table that
is listed, for its key and for its columns. If no reply to them is a failure, the catalog has the
databases that were asked for and no others, and in each of them the tables of its listing, each as
its own two answers describe it. Replies that differ in the case of their rows' keys lead to the
same questions and the same answer. -/
theorem readCatalog_shows (d : Dialect) (hnodup : databases.Nodup) {s : Session}
    (hscript : ∀ rs, .rows rs ∈ s.script → ∀ row ∈ rs, Distinct row) :
    (∃ readings c, AreReadings d databases s.script readings ∧ Shows c readings ∧
        (readCatalog d databases).on s =
          s.interview ((readings.flatMap (·.exchanges d)).map Prod.fst) c) ∧
      ∀ script, List.Forall₂ Reply.Recased s.script script →
        ((readCatalog d databases).on { s with script }).1 = ((readCatalog d databases).on s).1 ∧
          ((readCatalog d databases).on { s with script }).2.log =
            ((readCatalog d databases).on s).2.log := by
  constructor
  · have hreadings : AreReadings d databases s.script (readingsOf databases s.script) :=
      areReadings_readingsOf hscript
    refine ⟨_, _, hreadings, hreadings.shows hnodup hscript, ?_⟩
    rw [on_readCatalog, map_fst_flatMap_exchanges]
  · intro script hrecased
    rw [on_readCatalog, on_readCatalog, found_readingsOf_recased hrecased]
    have hfailures : ∀ k, failureHeard (script.drop k) = failureHeard (s.script.drop k) :=
      fun k => (failureHeard_recased (List.forall₂_drop k hrecased)).symm
    refine Session.interview_congr ?_ ?_ hfailures _ _
    · rfl
    · rfl

/-- Two databases, the first one with a table, a row without a name and keys in capitals. The other
database has no tables, since the last reply has no rows. Four questions are asked. -/
theorem readCatalog_shows_capitals :
    let databases := ["home", "attic"]
    let capitals : List Reply := [
      .rows [[("TABLE_NAME", .string "pets")], [("TABLE_COMMENT", .string "no name")]],
      .rows [[("COLUMN_NAME", .string "id")]],
      .rows [[("COLUMN_NAME", .string "id"), ("IS_NULLABLE", .string "NO")]], .silence]
    let small : List Reply := [
      .rows [[("table_name", .string "pets")], [("Table_Comment", .string "no name")]],
      .rows [[("column_name", .string "id")]],
      .rows [[("Column_Name", .string "id"), ("is_nullable", .string "NO")]], .silence]
    let run (script : List Reply) := (readCatalog .mysql databases).on ⟨script, [], false, []⟩
    databases.Nodup ∧ (∀ rs, .rows rs ∈ capitals → ∀ row ∈ rs, Distinct row) ∧
      List.Forall₂ Reply.Recased capitals small ∧
      (∃ readings c, AreReadings .mysql databases capitals readings ∧ Shows c readings ∧
        run capitals = Session.interview ⟨capitals, [], false, []⟩
          ((readings.flatMap (·.exchanges .mysql)).map Prod.fst) c) ∧
      ((run capitals).2.log.filterMap Event.statement?).map
          (fun q => (q.sql, q.params.map Json.compact)) =
        [("SELECT `TABLE_NAME`, `TABLE_COMMENT` FROM `INFORMATION_SCHEMA`.`TABLES` " ++
            "WHERE `TABLE_SCHEMA` = ?", ["\"home\""]),
          ("SELECT `COLUMN_NAME` FROM `INFORMATION_SCHEMA`.`COLUMNS` " ++
            "WHERE `COLUMN_KEY` = 'PRI' AND `TABLE_NAME` = ? AND `TABLE_SCHEMA` = ?",
            ["\"pets\"", "\"home\""]),
          ("SELECT `COLUMN_NAME`, `COLUMN_DEFAULT`, `IS_NULLABLE`, `DATA_TYPE`, " ++
            "`CHARACTER_MAXIMUM_LENGTH`, `EXTRA` FROM `INFORMATION_SCHEMA`.`COLUMNS` " ++
            "WHERE `TABLE_NAME` = ? AND `TABLE_SCHEMA` = ? ORDER BY `ORDINAL_POSITION`",
            ["\"pets\"", "\"home\""]),
          ("SELECT `TABLE_NAME`, `TABLE_COMMENT` FROM `INFORMATION_SCHEMA`.`TABLES` " ++
            "WHERE `TABLE_SCHEMA` = ?", ["\"attic\""])] ∧
      (run capitals).1.toOption.map (fun c =>
        (c.isDatabase "attic", (c.table? "home" "pets").map (·.primaryKey))) =
          some (true, some (some "id")) ∧
      (run small).1 = (run capitals).1 ∧ (run small).2.log = (run capitals).2.log := by
  intro databases capitals small run
  have hnodup : databases.Nodup := by decide
  have hscript : ∀ rs, .rows rs ∈ capitals → ∀ row ∈ rs, Distinct row := by
    intro rs hrs
    simp only [capitals, List.mem_cons, Reply.rows.injEq, reduceCtorEq, List.not_mem_nil,
      or_false] at hrs
    rcases hrs with rfl | rfl | rfl <;> decide
  have hfield : ∀ {key key' : String}, Text.sameLetters key key' = true → ∀ {value : Json}
      {row row' : Row}, Recased row row' → Recased ((key, value) :: row) ((key', value) :: row') :=
    fun hkey _ _ _ hrow => .cons ⟨hkey, rfl⟩ hrow
  have hrecased : List.Forall₂ Reply.Recased capitals small :=
    .cons (.rows (.cons (hfield (by decide) .nil) (.cons (hfield (by decide) .nil) .nil)))
      (.cons (.rows (.cons (hfield (by decide) .nil) .nil))
        (.cons (.rows (.cons (hfield (by decide) (hfield (by decide) .nil)) .nil))
          (.cons (.same .silence) .nil)))
  obtain ⟨hshows, hcase⟩ :=
    readCatalog_shows .mysql hnodup (s := ⟨capitals, [], false, []⟩) hscript
  exact ⟨hnodup, hscript, hrecased, hshows, by decide +kernel, by decide +kernel,
    hcase small hrecased⟩

end TableApi.Introspect
