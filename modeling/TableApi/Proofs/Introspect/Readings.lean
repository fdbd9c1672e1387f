import TableApi.Proofs.Introspect.Rows
import TableApi.Proofs.Session.Interview

/-!
# Reading a catalog as an interview

What is asked for a catalog depends on the answers: a listing has the names of the tables that are
asked about next. Given the replies to come, all of it can be written down as readings, one for each
database with one for each of its tables, each with the answers to its own questions (`readingsOf`).
Reading a catalog is the interview with these questions, and comes to the catalog in which the
readings are entered one after the other (`on_readCatalog`).

Readings have the answers that the script has for their questions (`answered_readingsOf`), and in
another case of keys they come to the same tables (`found_readingsOf_recased`).
-/

namespace TableApi

/-- **The reply is the same but for the case of its rows' keys.** -/
inductive Reply.Recased : Reply → Reply → Prop
  | rows {rs rs' : List Row} (h : List.Forall₂ Introspect.Recased rs rs') :
      Recased (.rows rs) (.rows rs')
  | same (r : Reply) : Recased r r

namespace Introspect

/-! ## Questions -/

/-- **The question for the tables of a database**, with its name. SQLite has but one database, and
no name is asked for. -/
def listingQuestion (d : Dialect) (database : String) : Statement :=
  ⟨d.listTables.sql, if d = .sqlite then [] else [.string database]⟩

/-- What goes with a question about a table: its name and that of its database, but on SQLite. -/
def tableParams (d : Dialect) (database table : String) : List Json :=
  if d = .sqlite then [.string table] else [.string table, .string database]

/-- **The question for the key of a table.** -/
def keyQuestion (d : Dialect) (database table : String) : Statement :=
  ⟨d.reflectKey.sql, tableParams d database table⟩

/-- **The question for the columns of a table.** -/
def columnsQuestion (d : Dialect) (database table : String) : Statement :=
  ⟨d.reflectColumns.sql, tableParams d database table⟩

theorem ask_listTables (d : Dialect) (database : String) :
    ask d.listTables database "" = Work.fetch (listingQuestion d database) := by
  cases d <;> rfl

theorem ask_reflectKey (d : Dialect) (database table : String) :
    ask d.reflectKey database table = Work.fetch (keyQuestion d database table) := by
  cases d <;> rfl

theorem ask_reflectColumns (d : Dialect) (database table : String) :
    ask d.reflectColumns database table = Work.fetch (columnsQuestion d database table) := by
  cases d <;> rfl

/-! ## Readings -/

/-- **A table as it was read**: how a listing names it, and the answers to the question about its
key and to the one about its columns. -/
structure TableReading where
  name : String
  comment : String
  key : List Row
  columns : List Row

/-- **A database as it was read**: the answer to the question about its tables, and each of them. -/
structure DatabaseReading where
  database : String
  listing : List Row
  tables : List TableReading

/-- The table that a reading comes to. -/
def TableReading.table (t : TableReading) : Table where
  name := t.name
  comment := t.comment
  primaryKey := t.key.head?.bind (text? · "column_name")
  columns := t.columns.filterMap column?

namespace DatabaseReading

/-- **The questions about a database, each with its answer.** -/
def exchanges (d : Dialect) (r : DatabaseReading) : List (Statement × List Row) :=
  (listingQuestion d r.database, r.listing) :: r.tables.flatMap fun t =>
    [(keyQuestion d r.database t.name, t.key), (columnsQuestion d r.database t.name, t.columns)]

/-- The database and the tables that a reading comes to. -/
def found (r : DatabaseReading) : String × List Table :=
  (r.database, r.tables.map TableReading.table)

end DatabaseReading

/-- The questions about tables of a database. -/
def tableQuestions (d : Dialect) (database : String) (tables : List Table) : List Statement :=
  tables.flatMap fun t => [keyQuestion d database t.name, columnsQuestion d database t.name]

/-- The questions about a database, given the tables that are found in it. -/
def questions (d : Dialect) (found : String × List Table) : List Statement :=
  listingQuestion d found.1 :: tableQuestions d found.1 found.2

theorem map_fst_exchanges (d : Dialect) (r : DatabaseReading) :
    (r.exchanges d).map Prod.fst = questions d r.found := by
  simp [DatabaseReading.exchanges, questions, tableQuestions, DatabaseReading.found,
    List.map_flatMap, List.flatMap_map, TableReading.table]

/-- The questions about databases are those about what is found in them. -/
theorem map_fst_flatMap_exchanges (d : Dialect) (readings : List DatabaseReading) :
    (readings.flatMap (·.exchanges d)).map Prod.fst =
      (readings.map DatabaseReading.found).flatMap (questions d) := by
  rw [List.map_flatMap, List.flatMap_map]
  exact List.flatMap_congr fun r _ => map_fst_exchanges d r

@[simp] theorem length_tableQuestions (d : Dialect) (database : String) (tables : List Table) :
    (tableQuestions d database tables).length = 2 * tables.length := by
  simp [tableQuestions, Nat.mul_comm]

/-- The catalog with a database and its tables. -/
def enter (c : Catalog) (found : String × List Table) : Catalog :=
  found.2.foldl (·.insertTable found.1 ·) (c.addDatabase found.1)

/-! ## The readings of a script -/

/-- Tables are read with two replies each. -/
def tableReadings : List (String × String) → List Reply → List TableReading
  | [], _ => []
  | (name, comment) :: more, script =>
    ⟨name, comment, rowsHeard script, rowsHeard script.tail⟩ ::
      tableReadings more (script.drop 2)

/-- A database is read with one reply for its listing, and then its tables are. -/
def databaseReading (database : String) (script : List Reply) : DatabaseReading :=
  ⟨database, rowsHeard script,
    tableReadings ((rowsHeard script).filterMap tableName?) script.tail⟩

/-- **The readings of a script**, one database after the other. -/
def readingsOf : List String → List Reply → List DatabaseReading
  | [], _ => []
  | database :: more, script =>
    databaseReading database script ::
      readingsOf more (script.drop (1 + 2 * (databaseReading database script).tables.length))

/-- A reading of tables has the tables that were listed. -/
@[simp] theorem map_name_tableReadings (names : List (String × String)) (script : List Reply) :
    (tableReadings names script).map (fun t => (t.name, t.comment)) = names := by
  induction names generalizing script with
  | nil => rfl
  | cons n names ih => rw [tableReadings, List.map_cons, ih]

/-- There is a reading for each database. -/
@[simp] theorem map_database_readingsOf (databases : List String) (script : List Reply) :
    (readingsOf databases script).map DatabaseReading.database = databases := by
  induction databases generalizing script with
  | nil => rfl
  | cons database databases ih => rw [readingsOf, List.map_cons, ih, databaseReading]

/-- Its tables are those that are read of its listing. -/
theorem map_name_of_mem_readingsOf {databases : List String} {script : List Reply}
    {r : DatabaseReading} (h : r ∈ readingsOf databases script) :
    r.tables.map (fun t => (t.name, t.comment)) = r.listing.filterMap tableName? := by
  induction databases generalizing script with
  | nil => exact absurd h List.not_mem_nil
  | cons database databases ih =>
    rcases List.mem_cons.1 h with rfl | h
    · exact map_name_tableReadings _ _
    · exact ih h

/-! ## The interview -/

section Interview

variable (d : Dialect)

theorem on_readTable (database name comment : String) (s : Session) :
    (readTable d database name comment).on s =
      s.interview [keyQuestion d database name, columnsQuestion d database name]
        (TableReading.table ⟨name, comment, rowsHeard s.script, rowsHeard s.script.tail⟩) := by
  rw [readTable, ask_reflectKey, ask_reflectColumns]
  refine Work.on_fetch_bind fun s' hs' => Work.on_fetch_bind fun s'' _ => ?_
  rw [hs']
  rfl

/-- Tables are read one after the other, and entered. -/
theorem on_readTables (database : String) (names : List (String × String)) (c : Catalog)
    (s : Session) :
    (names.foldlM (fun (c : Catalog) (name, comment) => do
        let t ← readTable d database name comment
        pure (c.insertTable database t)) c : Work Catalog).on s =
      s.interview
        (tableQuestions d database ((tableReadings names s.script).map TableReading.table))
        (((tableReadings names s.script).map TableReading.table).foldl
          (·.insertTable database ·) c) := by
  induction names generalizing c s with
  | nil => rfl
  | cons n names ih =>
    obtain ⟨name, comment⟩ := n
    rw [List.foldlM_cons, tableReadings, List.map_cons, List.foldl_cons, tableQuestions,
      List.flatMap_cons, ← tableQuestions]
    have htable : (readTable d database name comment >>= fun t =>
        (pure (c.insertTable database t) : Work Catalog)).on s =
          s.interview ([keyQuestion d database name, columnsQuestion d database name] ++ [])
            (c.insertTable database
              (TableReading.table ⟨name, comment, rowsHeard s.script, rowsHeard s.script.tail⟩)) :=
      Work.on_bind_interview (on_readTable d database name comment s) fun _ _ => rfl
    refine Work.on_bind_interview htable fun s' hs' => ?_
    rw [ih, hs']
    rfl

/-- **A database is read** by a question for its listing and two for each table in it. -/
theorem on_readDatabase (c : Catalog) (database : String) (s : Session) :
    (readDatabase d c database).on s =
      s.interview (questions d (databaseReading database s.script).found)
        (enter c (databaseReading database s.script).found) := by
  rw [readDatabase, ask_listTables]
  refine Work.on_fetch_bind fun s' hs' => ?_
  rw [on_readTables, hs']
  rfl

/-- **A catalog is read** as its readings say. -/
theorem on_readCatalog (databases : List String) (s : Session) :
    (readCatalog d databases).on s =
      s.interview
        (((readingsOf databases s.script).map DatabaseReading.found).flatMap (questions d))
        (((readingsOf databases s.script).map DatabaseReading.found).foldl enter .empty) := by
  have hloop : ∀ (c : Catalog) (s : Session), (databases.foldlM (readDatabase d) c).on s =
      s.interview
        (((readingsOf databases s.script).map DatabaseReading.found).flatMap (questions d))
        (((readingsOf databases s.script).map DatabaseReading.found).foldl enter c) := by
    induction databases with
    | nil => exact fun _ _ => rfl
    | cons database databases ih =>
      intro c s
      have hlength : (questions d (databaseReading database s.script).found).length =
          1 + 2 * (databaseReading database s.script).tables.length := by
        rw [questions, List.length_cons, length_tableQuestions, DatabaseReading.found,
          List.length_map, Nat.add_comm]
      rw [List.foldlM_cons, readingsOf, List.map_cons, List.flatMap_cons, List.foldl_cons]
      refine Work.on_bind_interview (on_readDatabase d c database s) fun s' hs' => ?_
      rw [ih, hs', hlength]
  exact hloop .empty s

end Interview

/-! ## The answers -/

/-- **The questions are answered by the script**: each by the rows of its own reply. -/
def Answered : List Reply → List (Statement × List Row) → Prop
  | _, [] => True
  | script, e :: later => e.2 = rowsHeard script ∧ Answered script.tail later

theorem Answered.append {script : List Reply} {first later : List (Statement × List Row)}
    (hfirst : Answered script first) (hlater : Answered (script.drop first.length) later) :
    Answered script (first ++ later) := by
  induction first generalizing script with
  | nil => exact hlater
  | cons e first ih =>
    rw [List.length_cons, ← List.drop_tail] at hlater
    exact ⟨hfirst.1, ih hfirst.2 hlater⟩

/-- What holds of all rows of a script holds of all answers. -/
theorem Answered.forall_mem {P : Row → Prop} {script : List Reply}
    {exchanges : List (Statement × List Row)} (h : Answered script exchanges)
    (hscript : ∀ rs, .rows rs ∈ script → ∀ row ∈ rs, P row) :
    ∀ e ∈ exchanges, ∀ row ∈ e.2, P row := by
  induction exchanges generalizing script with
  | nil => simp
  | cons e later ih =>
    refine List.forall_mem_cons.2 ⟨fun row hrow => ?_, ih h.2 fun rs hrs => ?_⟩
    · rw [h.1] at hrow
      cases script with
      | nil => exact absurd hrow List.not_mem_nil
      | cons reply script =>
        cases reply with
        | rows rs => exact hscript rs (List.mem_cons_self ..) row hrow
        | _ => exact absurd hrow List.not_mem_nil
    · exact hscript rs (List.mem_of_mem_tail hrs)

/-- **The answers in readings are those of the script.** -/
theorem answered_readingsOf (d : Dialect) (databases : List String) (script : List Reply) :
    Answered script ((readingsOf databases script).flatMap (·.exchanges d)) := by
  have htables : ∀ (database : String) (names : List (String × String)) (script : List Reply),
      Answered script ((tableReadings names script).flatMap fun t =>
        [(keyQuestion d database t.name, t.key),
          (columnsQuestion d database t.name, t.columns)]) := by
    intro database names
    induction names with
    | nil => exact fun _ => trivial
    | cons n names ih =>
      intro script
      rw [tableReadings, List.flatMap_cons]
      exact Answered.append ⟨rfl, rfl, trivial⟩ (ih _)
  induction databases generalizing script with
  | nil => trivial
  | cons database databases ih =>
    have hlength : ((databaseReading database script).exchanges d).length =
        1 + 2 * (databaseReading database script).tables.length := by
      simp [DatabaseReading.exchanges, Nat.mul_comm, Nat.add_comm]
    rw [readingsOf, List.flatMap_cons]
    refine Answered.append ⟨rfl, htables ..⟩ ?_
    rw [hlength]
    exact ih _

/-! ## The case of keys -/

variable {script script' : List Reply}

theorem tail_recased (h : List.Forall₂ Reply.Recased script script') :
    List.Forall₂ Reply.Recased script.tail script'.tail := by
  cases h with
  | nil => exact .nil
  | cons _ hrest => exact hrest

/-- Replies in another case have rows in another case. -/
theorem rowsHeard_recased (h : List.Forall₂ Reply.Recased script script') :
    List.Forall₂ Recased (rowsHeard script) (rowsHeard script') := by
  cases h with
  | nil => exact .nil
  | @cons reply _ _ _ hreply _ =>
    cases hreply with
    | rows hrows => exact hrows
    | same =>
      have hrefl : ∀ rows, List.Forall₂ Recased rows rows := fun rows =>
        List.forall₂_same.2 fun row _ =>
          List.forall₂_same.2 fun f _ => ⟨Text.sameLetters_refl f.1, rfl⟩
      cases reply <;> exact hrefl _

theorem failureHeard_recased (h : List.Forall₂ Reply.Recased script script') :
    failureHeard script = failureHeard script' := by
  cases h with
  | nil => rfl
  | @cons reply _ _ _ hreply _ =>
    cases hreply with
    | rows hrows => rfl
    | same => cases reply <;> rfl

/-- A reading of a table comes to the same table. -/
theorem table_recased (name comment : String) {key key' columns columns' : List Row}
    (hkey : List.Forall₂ Recased key key') (hcolumns : List.Forall₂ Recased columns columns') :
    TableReading.table ⟨name, comment, key, columns⟩ =
      TableReading.table ⟨name, comment, key', columns'⟩ := by
  have hhead : key.head?.bind (text? · "column_name") =
      key'.head?.bind (text? · "column_name") := by
    cases hkey with
    | nil => rfl
    | cons hrow _ => exact hrow.text?_eq _
  rw [TableReading.table, TableReading.table, hhead, filterMap_recased Recased.column?_eq hcolumns]

/-- Readings of tables come to the same tables. -/
theorem tableReadings_recased (h : List.Forall₂ Reply.Recased script script')
    (names : List (String × String)) :
    (tableReadings names script).map TableReading.table =
      (tableReadings names script').map TableReading.table := by
  induction names generalizing script script' with
  | nil => rfl
  | cons n names ih =>
    rw [tableReadings, tableReadings, List.map_cons, List.map_cons,
      table_recased _ _ (rowsHeard_recased h) (rowsHeard_recased (tail_recased h)),
      ih (List.forall₂_drop 2 h)]

/-- **Readings come to the same databases and tables**, whatever the case of keys. -/
theorem found_readingsOf_recased (h : List.Forall₂ Reply.Recased script script')
    (databases : List String) :
    (readingsOf databases script).map DatabaseReading.found =
      (readingsOf databases script').map DatabaseReading.found := by
  induction databases generalizing script script' with
  | nil => rfl
  | cons database databases ih =>
    have hfound : (databaseReading database script).found =
        (databaseReading database script').found := by
      rw [databaseReading, databaseReading, DatabaseReading.found, DatabaseReading.found,
        filterMap_recased Recased.tableName?_eq (rowsHeard_recased h),
        tableReadings_recased (tail_recased h)]
    have hlength : (databaseReading database script).tables.length =
        (databaseReading database script').tables.length := by
      simpa [DatabaseReading.found] using congrArg (·.2.length) hfound
    rw [readingsOf, readingsOf, List.map_cons, List.map_cons, hfound, hlength,
      ih (List.forall₂_drop _ h)]

end Introspect

end TableApi
