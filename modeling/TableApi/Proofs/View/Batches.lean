import Mathlib.Data.List.Forall2
import TableApi.Proofs.View.Inserts

/-!
# The rows that share an insert

An insert has one list of columns for all of its rows, and a cell for every row in each of them. Of
a row that leaves a column out the cell is the keyword for the column's default (`View.IsCell`). A
dialect without that keyword writes null there, so its rows are cut into batches of the same columns
(`knownKeys_perm_of_mem_insertBatches`), and no cell is left out at all.
`inserts_of_mem_insertBatches` says what the insert of a batch is for all dialects.
-/

namespace TableApi

theorem Fields.exists_get? {fs : Fields} {key : String} (h : key ∈ keys fs) :
    ∃ value, get? fs key = some value := by
  induction fs with
  | nil => simp [keys] at h
  | cons f fs ih =>
    obtain ⟨k, value⟩ := f
    rw [get?_cons]
    by_cases hk : key = k
    · exact ⟨value, if_pos hk⟩
    · rw [if_neg hk]
      exact ih (by simpa [keys, hk] using h)

namespace View

variable {d : Dialect} {v : View} {rows batch : List Row}

/-- **The cell of a row under a column**: a placeholder where the row has a value, and the keyword
for the default where it leaves the column out. -/
def IsCell (d : Dialect) (row : Row) (c : Column) (text : String) : Prop :=
  match row.get? c.name with
  | some _ => ∃ n, text = typedPlaceholder d n c
  | none => d.hasDefaultKeyword = true ∧ text = "DEFAULT"

/-- **The insert of rows**: a statement with these columns and with these cells, those of one row
after those of the other. -/
structure Inserts (v : View) (d : Dialect) (rows : List Row) (columns : List Column)
    (table : List (List String)) (q : Statement) : Prop where
  nodup : (columns.map Column.name).Nodup
  /-- The columns are those of the table that some row has a value for. -/
  known : ∀ name, name ∈ columns.map Column.name ↔
    v.schema.hasColumn name = true ∧ ∃ row ∈ rows, name ∈ row.keys
  cells : List.Forall₂ (fun row texts => List.Forall₂ (IsCell d row) columns texts) rows table
  /-- Where no keyword stands for a default, no row leaves a column out. -/
  given : d.hasDefaultKeyword = false → ∀ row ∈ rows, ∀ c ∈ columns, c.name ∈ row.keys
  sql : q.sql =
    "INSERT INTO " ++ v.tableSql d ++ " ("
      ++ ", ".intercalate (columns.map fun c => d.quoteIdent c.name) ++ ")"
      ++ v.returningClause d .output " OUTPUT INSERTED."
      ++ " VALUES "
      ++ ", ".intercalate (table.map fun texts => "(" ++ ", ".intercalate texts ++ ")")
      ++ v.returningClause d .returning " RETURNING "
  params : q.params = rows.flatMap fun row => columns.filterMap fun c => row.get? c.name

/-! ## Columns -/

@[simp] theorem nodup_writtenColumns (v : View) (rows : List Row) :
    ((v.writtenColumns rows).map Column.name).Nodup := by
  have hadd : ∀ (columns : List Column) (key : String), (columns.map Column.name).Nodup →
      ((v.addKnownColumn columns key).map Column.name).Nodup := by
    intro columns key hnodup
    rw [addKnownColumn]
    split
    · next c _ =>
      split
      · exact hnodup
      · next hnew =>
        have hname : c.name ∉ columns.map Column.name := by
          simpa using hnew
        rw [List.map_append, List.map_singleton]
        exact List.nodup_append.2 ⟨hnodup, by simp, fun a ha b hb hab =>
          hname (List.mem_singleton.1 hb ▸ hab ▸ ha)⟩
    · exact hnodup
  rw [writtenColumns]
  generalize rows.flatMap Fields.keys = keys
  -- over any columns that are there already
  have hfold : ∀ columns : List Column, (columns.map Column.name).Nodup →
      ((keys.foldl v.addKnownColumn columns).map Column.name).Nodup := by
    induction keys with
    | nil => exact fun _ h => h
    | cons key keys ih => exact fun columns h => ih _ (hadd columns key h)
  exact hfold [] List.nodup_nil

/-! ## Batches -/

/-- **What holds of every run**: it is kept by putting a row before a run whose first row has the
same known columns. -/
theorem forall_mem_sameColumnRuns {P : List Row → Prop} (hone : ∀ row, P [row])
    (hmore : ∀ row next run, (v.knownKeys row).Perm (v.knownKeys next) → P (next :: run) →
      P (row :: next :: run)) (rows : List Row) : ∀ run ∈ v.sameColumnRuns rows, P run := by
  fun_induction sameColumnRuns v rows with
  | case1 => simp
  | case2 row rows next run runs hruns hperm ih =>
    rw [hruns] at ih
    obtain ⟨hnext, hruns⟩ := List.forall_mem_cons.1 ih
    exact List.forall_mem_cons.2 ⟨hmore row next run (List.isPerm_iff.1 hperm) hnext, hruns⟩
  | case3 row rows next run runs hruns hperm ih =>
    rw [hruns] at ih
    exact List.forall_mem_cons.2 ⟨hone row, ih⟩
  | case4 row rows hruns ih => exact List.forall_mem_cons.2 ⟨hone row, ih⟩

/-- **The rows of a run have the same known columns.** -/
theorem knownKeys_perm_of_mem_sameColumnRuns (h : batch ∈ v.sameColumnRuns rows) :
    ∀ a ∈ batch, ∀ b ∈ batch, (v.knownKeys a).Perm (v.knownKeys b) := by
  refine forall_mem_sameColumnRuns
    (P := fun run => ∀ a ∈ run, ∀ b ∈ run, (v.knownKeys a).Perm (v.knownKeys b))
    (by simp) (fun row next run hrow hrun => ?_) rows batch h
  have hnext : ∀ a ∈ row :: next :: run, (v.knownKeys a).Perm (v.knownKeys next) :=
    List.forall_mem_cons.2 ⟨hrow, fun a ha => hrun a ha next (List.mem_cons_self ..)⟩
  exact fun a ha b hb => (hnext a ha).trans (hnext b hb).symm

theorem ne_nil_of_mem_insertBatches (h : batch ∈ v.insertBatches d rows) : batch ≠ [] := by
  rw [insertBatches] at h
  split at h
  · simp at h
  · next hrows =>
    split at h
    · obtain rfl := List.mem_singleton.1 h
      simpa using hrows
    · exact forall_mem_sameColumnRuns (P := (· ≠ [])) (by simp) (by simp) rows batch h

/-- A batch is no longer than the rows that were cut up. -/
theorem length_le_of_mem_insertBatches (h : batch ∈ v.insertBatches d rows) :
    batch.length ≤ rows.length := by
  rw [← flatten_insertBatches v d rows]
  exact (List.sublist_flatten_of_mem h).length_le

/-- **The rows of a batch have the same known columns**, where no keyword stands for a default. -/
theorem knownKeys_perm_of_mem_insertBatches (hd : d.hasDefaultKeyword = false)
    (h : batch ∈ v.insertBatches d rows) :
    ∀ a ∈ batch, ∀ b ∈ batch, (v.knownKeys a).Perm (v.knownKeys b) := by
  rw [insertBatches, hd] at h
  split at h
  · simp at h
  · exact knownKeys_perm_of_mem_sameColumnRuns h

/-- **So none of its rows leaves a written column out.** -/
theorem mem_keys_of_mem_insertBatches (hd : d.hasDefaultKeyword = false)
    (h : batch ∈ v.insertBatches d rows) {row : Row} (hrow : row ∈ batch) {c : Column}
    (hc : c ∈ v.writtenColumns batch) : c.name ∈ row.keys := by
  obtain ⟨hcolumn, other, hother, hkey⟩ :=
    mem_names_writtenColumns.1 (List.mem_map_of_mem hc)
  have hknown : c.name ∈ v.knownKeys other := List.mem_filter.2 ⟨hkey, hcolumn⟩
  have hsame := knownKeys_perm_of_mem_insertBatches hd h other hother row hrow
  exact (List.mem_filter.1 (hsame.mem_iff.1 hknown)).1

/-! ## Cells -/

/-- The texts of a row's values are its cells, if it may leave out what it does. -/
theorem isCell_rowValues (row : Row) (n : Nat) {columns : List Column}
    (hgiven : d.hasDefaultKeyword = false → ∀ c ∈ columns, c.name ∈ row.keys) :
    List.Forall₂ (IsCell d row) columns (rowValues d row n columns).1 := by
  induction columns generalizing n with
  | nil => exact .nil
  | cons c columns ih =>
    have hrest : d.hasDefaultKeyword = false → ∀ c ∈ columns, c.name ∈ row.keys :=
      fun hd => (List.forall_mem_cons.1 (hgiven hd)).2
    rw [rowValues]
    cases hvalue : row.get? c.name with
    | some value =>
      refine .cons ?_ (ih (n + 1) hrest)
      rw [IsCell, hvalue]
      exact ⟨n + 1, rfl⟩
    | none =>
      refine .cons ?_ (ih n hrest)
      rw [IsCell, hvalue]
      have hd : d.hasDefaultKeyword = true := by
        by_contra hd
        obtain ⟨value, hfound⟩ := Fields.exists_get?
          (hgiven (by simpa using hd) c (List.mem_cons_self ..))
        simp [hvalue] at hfound
      exact ⟨hd, by rw [Dialect.missingValue, if_pos hd]⟩

/-- The tuples of rows are their cells in parentheses. -/
theorem exists_cells_tuples (n : Nat) {columns : List Column} {rows : List Row}
    (hgiven : d.hasDefaultKeyword = false → ∀ row ∈ rows, ∀ c ∈ columns, c.name ∈ row.keys) :
    ∃ table, List.Forall₂ (fun row texts => List.Forall₂ (IsCell d row) columns texts) rows table ∧
      (tuples d columns n rows).1 =
        table.map fun texts => "(" ++ ", ".intercalate texts ++ ")" := by
  induction rows generalizing n with
  | nil => exact ⟨[], .nil, rfl⟩
  | cons row rows ih =>
    obtain ⟨table, hcells, htuples⟩ := ih (n + (rowValues d row n columns).2.length)
      fun hd => (List.forall_mem_cons.1 (hgiven hd)).2
    refine ⟨(rowValues d row n columns).1 :: table, .cons ?_ hcells, ?_⟩
    · exact isCell_rowValues row n fun hd => (List.forall_mem_cons.1 (hgiven hd)).1
    · rw [tuples, List.map_cons, ← htuples]

/-- **SQLite has nothing but placeholders for cells**, since it has no keyword for a default. -/
theorem Inserts.cells_sqlite {columns : List Column} {table : List (List String)} {q : Statement}
    (h : v.Inserts .sqlite rows columns table q) :
    ∀ texts ∈ table, ∀ text ∈ texts, text = "?" := by
  have hcell : ∀ row c text, IsCell .sqlite row c text → text = "?" := by
    intro row c text hcell
    rw [IsCell] at hcell
    split at hcell
    · obtain ⟨n, rfl⟩ := hcell
      rfl
    · exact absurd hcell.1 (by decide)
  have hrow : ∀ row texts, List.Forall₂ (IsCell .sqlite row) columns texts →
      ∀ text ∈ texts, text = "?" := fun row texts htexts =>
    ((List.forall₂_and_left _ _).1
      (htexts.flip.imp fun text c htext => ⟨hcell row c text htext, htext⟩)).1
  exact ((List.forall₂_and_left _ _).1
    (h.cells.flip.imp fun texts row htexts => ⟨hrow row texts htexts, htexts⟩)).1

/-- **The insert of a batch.** -/
theorem inserts_of_mem_insertBatches (h : batch ∈ v.insertBatches d rows) {q : Statement}
    (hq : v.insert d batch = .ok q) : ∃ columns table, v.Inserts d batch columns table q := by
  have hgiven : d.hasDefaultKeyword = false →
      ∀ row ∈ batch, ∀ c ∈ v.writtenColumns batch, c.name ∈ row.keys :=
    fun hd row hrow c hc => mem_keys_of_mem_insertBatches hd h hrow hc
  obtain ⟨table, hcells, htuples⟩ := exists_cells_tuples 0 hgiven
  refine ⟨v.writtenColumns batch, table, nodup_writtenColumns v batch,
    fun name => mem_names_writtenColumns, hcells, hgiven, ?_, ?_⟩
  · rw [insert] at hq
    dsimp only at hq
    split at hq
    · simp at hq
    · obtain rfl := Except.ok.inj hq
      rw [← htuples]
  · rw [params_of_insert hq]
    refine List.flatMap_congr fun row _ => ?_
    simp [written, List.map_filterMap, Function.comp_def]

end View

end TableApi
