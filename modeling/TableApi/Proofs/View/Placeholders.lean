import Mathlib.Data.List.ReduceOption
import TableApi.Proofs.View.Batches

/-!
# Placeholders stand for parameters

An insert and an update put their texts and their parameters together side by side. Read in the
order of the text, their placeholders stand for the parameters one after the other and are numbered
from one (`params_in_order`): in an insert each cell has the row's value in that column, or the
keyword for a missing one (`View.Fills`), and in an update each assignment has the row's value of
that name (`View.Sets`).
-/

namespace TableApi.View

variable {d : Dialect} {v : View}

/-- The text of a cell under a column: the placeholder of the value that is bound there, with its
number, or the keyword for a missing one. -/
def cellSql (d : Dialect) (c : Column) : Option (Json × Nat) → String
  | some (_, n) => typedPlaceholder d n c
  | none => d.missingValue

/-- **An insert whose cells are filled** with the values of its rows. -/
structure Fills (v : View) (d : Dialect) (rows : List Row) (columns : List Column)
    (table : List (List (Option (Json × Nat)))) (q : Statement) : Prop where
  nodup : (columns.map Column.name).Nodup
  /-- The columns are those of the table that some row has a value for. -/
  known : ∀ name, name ∈ columns.map Column.name ↔
    v.schema.hasColumn name = true ∧ ∃ row ∈ rows, name ∈ row.keys
  /-- In each cell is the row's value in the column, if there is one. -/
  values : table.map (fun cells => cells.map (Option.map Prod.fst)) =
    rows.map fun row => columns.map fun c => row.get? c.name
  /-- **The values in the cells are the parameters, numbered in the order of the text.** -/
  numbered : table.flatten.reduceOption = q.params.zipIdx 1
  sql : q.sql =
    "INSERT INTO " ++ v.tableSql d ++ " ("
      ++ ", ".intercalate (columns.map fun c => d.quoteIdent c.name) ++ ")"
      ++ v.returningClause d .output " OUTPUT INSERTED."
      ++ " VALUES "
      ++ ", ".intercalate (table.map fun cells =>
        "(" ++ ", ".intercalate (List.zipWith (cellSql d) columns cells) ++ ")")
      ++ v.returningClause d .returning " RETURNING "

/-- **An update that sets columns** to the values of a row. -/
structure Sets (v : View) (d : Dialect) (row : Row) (condition : String)
    (assigned : List ((Column × Json) × Nat)) (q : Statement) : Prop where
  ne_nil : assigned ≠ []
  columns : ∀ a ∈ assigned, v.schema.column? a.1.1.name = some a.1.1
  /-- They are those of the row that the table knows, but for its key, in the row's order. -/
  values : assigned.map (fun ((c, value), _) => (c.name, value)) =
    row.filter fun (key, _) => v.primaryKey ≠ some key ∧ v.schema.hasColumn key = true
  /-- **The values are the parameters, numbered in the order of the text.** -/
  numbered : assigned.map (fun ((_, value), n) => (value, n)) = q.params.zipIdx 1
  sql : q.sql =
    "UPDATE " ++ v.tableSql d ++ " SET "
      ++ ", ".intercalate
        (assigned.map fun ((c, _), n) => d.quoteIdent c.name ++ " = " ++ typedPlaceholder d n c)
      ++ " WHERE " ++ condition

/-! ## Inserts -/

/-- The cells of one row, `n` parameters having come before. -/
theorem exists_cells_rowValues (d : Dialect) (row : Row) (n : Nat) (columns : List Column) :
    ∃ cells : List (Option (Json × Nat)),
      cells.map (Option.map Prod.fst) = columns.map (fun c => row.get? c.name) ∧
        cells.reduceOption = (rowValues d row n columns).2.zipIdx (n + 1) ∧
        (rowValues d row n columns).1 = List.zipWith (cellSql d) columns cells := by
  induction columns generalizing n with
  | nil => exact ⟨[], rfl, rfl, rfl⟩
  | cons c columns ih =>
    rw [rowValues]
    cases hvalue : row.get? c.name with
    | some value =>
      obtain ⟨cells, hvalues, hnumbered, htexts⟩ := ih (n + 1)
      refine ⟨some (value, n + 1) :: cells, ?_, ?_, ?_⟩
      · rw [List.map_cons, List.map_cons, hvalues, hvalue]
        rfl
      · rw [List.reduceOption_cons_of_some, hnumbered, List.zipIdx_cons]
      · rw [List.zipWith_cons_cons, ← htexts]
        rfl
    | none =>
      obtain ⟨cells, hvalues, hnumbered, htexts⟩ := ih n
      refine ⟨none :: cells, ?_, ?_, ?_⟩
      · rw [List.map_cons, List.map_cons, hvalues, hvalue]
        rfl
      · rw [List.reduceOption_cons_of_none, hnumbered]
      · rw [List.zipWith_cons_cons, ← htexts]
        rfl

/-- The cells of several rows. The numbers go on from row to row. -/
theorem exists_table_tuples (d : Dialect) (columns : List Column) (n : Nat) (rows : List Row) :
    ∃ table : List (List (Option (Json × Nat))),
      table.map (fun cells => cells.map (Option.map Prod.fst)) =
          rows.map (fun row => columns.map fun c => row.get? c.name) ∧
        table.flatten.reduceOption = (tuples d columns n rows).2.zipIdx (n + 1) ∧
        (tuples d columns n rows).1 = table.map fun cells =>
          "(" ++ ", ".intercalate (List.zipWith (cellSql d) columns cells) ++ ")" := by
  induction rows generalizing n with
  | nil => exact ⟨[], rfl, rfl, rfl⟩
  | cons row rows ih =>
    obtain ⟨cells, hvalues, hnumbered, htexts⟩ := exists_cells_rowValues d row n columns
    obtain ⟨table, hrows, hmore, htuples⟩ := ih (n + (rowValues d row n columns).2.length)
    refine ⟨cells :: table, ?_, ?_, ?_⟩
    · rw [List.map_cons, List.map_cons, hvalues, hrows]
    · rw [List.flatten_cons, List.reduceOption_append, hnumbered, hmore, tuples, List.zipIdx_append,
        Nat.add_right_comm]
    · rw [tuples, List.map_cons, ← htexts, ← htuples]

/-- **Every insert is filled in order.** -/
theorem exists_fills_of_insert {rows : List Row} {q : Statement} (h : v.insert d rows = .ok q) :
    ∃ columns table, v.Fills d rows columns table q := by
  obtain ⟨table, hvalues, hnumbered, htexts⟩ :=
    exists_table_tuples d (v.writtenColumns rows) 0 rows
  rw [insert] at h
  dsimp only at h
  split at h
  · simp at h
  · obtain rfl := Except.ok.inj h
    rw [htexts]
    exact ⟨v.writtenColumns rows, table, nodup_writtenColumns v rows,
      fun _ => mem_names_writtenColumns, hvalues, hnumbered, rfl⟩

/-! ## Updates -/

/-- The columns that are set are the table's. -/
theorem column?_of_mem_updatedColumns {row : Row} {c : Column} {value : Json}
    (h : (c, value) ∈ v.updatedColumns row) : v.schema.column? c.name = some c := by
  obtain ⟨⟨key, value'⟩, -, hcolumn⟩ := List.mem_filterMap.1 h
  dsimp only at hcolumn
  split at hcolumn
  · simp at hcolumn
  · obtain ⟨c', hc', heq⟩ := Option.map_eq_some_iff.1 hcolumn
    obtain ⟨rfl, -⟩ := Prod.mk.inj heq
    have hname : c'.name = key := by simpa using List.find?_some hc'
    rw [hname, hc']

/-- **An update sets what the row has for known columns** other than the key, in the row's order. -/
theorem map_updatedColumns (v : View) (row : Row) :
    (v.updatedColumns row).map (fun (c, value) => (c.name, value)) =
      row.filter fun (key, _) => v.primaryKey ≠ some key ∧ v.schema.hasColumn key = true := by
  induction row with
  | nil => rfl
  | cons field row ih =>
    obtain ⟨key, value⟩ := field
    rw [updatedColumns] at ih ⊢
    rw [List.filterMap_cons, List.filter_cons, ← ih]
    by_cases hkey : v.primaryKey = some key
    · simp [hkey]
    · cases hc : v.schema.column? key with
      | none => simp [Table.hasColumn, hc, hkey]
      | some c =>
        have hname : c.name = key := by simpa using List.find?_some hc
        simp [Table.hasColumn, hc, hkey, hname]

theorem assignments_eq (d : Dialect) (n : Nat) (values : List (Column × Json)) :
    assignments d n values = (values.zipIdx (n + 1)).map fun ((c, _), n) =>
      d.quoteIdent c.name ++ " = " ++ typedPlaceholder d n c := by
  induction values generalizing n with
  | nil => rfl
  | cons a values ih => rw [assignments, ih, List.zipIdx_cons, List.map_cons]

/-- **Every update sets its columns in order.** -/
theorem exists_sets_of_update {row : Row} {condition : String} {q : Statement}
    (h : v.update d row condition = .ok q) : ∃ assigned, v.Sets d row condition assigned q := by
  rw [update] at h
  split at h
  · simp at h
  · next hsome =>
    obtain rfl := Except.ok.inj h
    refine ⟨(v.updatedColumns row).zipIdx 1, ?_, ?_, ?_, ?_, ?_⟩
    · simpa using hsome
    · rintro ⟨⟨c, value⟩, n⟩ ha
      exact column?_of_mem_updatedColumns (List.fst_mem_of_mem_zipIdx ha)
    · rw [← map_updatedColumns, ← List.zipIdx_map_fst 1 (v.updatedColumns row), List.map_map,
        List.zipIdx_map_fst]
      rfl
    · rw [List.zipIdx_map]
      rfl
    · rw [assignments_eq]

/-- **The placeholders of inserts and updates stand for their parameters** in order, for every view,
every dialect, all rows and every condition. -/
theorem params_in_order (v : View) (d : Dialect) :
    (∀ rows q, v.insert d rows = .ok q → ∃ columns table, v.Fills d rows columns table q) ∧
      ∀ row condition q, v.update d row condition = .ok q →
        ∃ assigned, v.Sets d row condition assigned q :=
  ⟨fun _ _ => exists_fills_of_insert, fun _ _ _ => exists_sets_of_update⟩

/-- Two rows that name different columns, and an update of one of them. -/
theorem params_in_order_ragged :
    let v : View :=
      { database := "d"
        schema :=
          { name := "t", primaryKey := some "id",
            columns := [{ name := "id", dataType := "int4" },
              { name := "a", dataType := "integer" }, { name := "b", dataType := "text" }] }
        role := .primary }
    let rows : List Row := [[("a", .ofNat 5)], [("b", .string "x"), ("c", .null), ("a", .null)]]
    (∃ q columns table, v.insert .postgres rows = .ok q ∧ v.Fills .postgres rows columns table q ∧
      q.sql = "INSERT INTO \"d\".\"t\" (\"a\", \"b\") " ++
        "VALUES ($1::integer, DEFAULT), ($2::integer, $3::text) RETURNING \"id\"") ∧
      ∃ q assigned, v.update .postgres [("id", .ofNat 7), ("b", .string "y")] "x = 1" = .ok q ∧
        v.Sets .postgres [("id", .ofNat 7), ("b", .string "y")] "x = 1" assigned q ∧
        q.sql = "UPDATE \"d\".\"t\" SET \"b\" = $1::text WHERE x = 1" := by
  intro v rows
  obtain ⟨hinserts, hupdates⟩ := params_in_order v .postgres
  obtain ⟨columns, table, hfills⟩ := hinserts rows _ rfl
  obtain ⟨assigned, hsets⟩ := hupdates [("id", .ofNat 7), ("b", .string "y")] "x = 1" _ rfl
  exact ⟨⟨_, columns, table, rfl, hfills, by decide +kernel⟩,
    _, assigned, rfl, hsets, by decide +kernel⟩

end TableApi.View
