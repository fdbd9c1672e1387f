import TableApi.Proofs.Json.Unordered
import TableApi.Statement

/-!
# What an insert writes

An insert writes the columns that some of its rows has and the table knows. Its parameters are, row
by row, the row's values in those columns (`params_of_insert`), so that under a known column stands
what the row says and under no other name anything (`get?_written`).
-/

namespace TableApi.View

variable {d : Dialect} {v : View} {rows : List Row}

/-- **What an insert of rows writes of one of them**: its values in the written columns. -/
def written (v : View) (rows : List Row) (row : Row) : Fields :=
  (v.writtenColumns rows).filterMap fun c => (row.get? c.name).map fun value => (c.name, value)

/-- **An insert of rows binds a column to a value in each of them.** -/
def Binds (v : View) (d : Dialect) (rows : List Row) (column : String) (value : Json) : Prop :=
  ∀ q, v.insert d rows = .ok q →
    q.params = rows.flatMap (fun row => (v.written rows row).map Prod.snd) ∧
      ∀ row ∈ rows, (v.written rows row).get? column = some value

/-! ## The written columns -/

/-- A key adds its own column, if the table knows it. -/
theorem mem_names_addKnownColumn {columns : List Column} {key name : String} :
    name ∈ (v.addKnownColumn columns key).map Column.name ↔
      name ∈ columns.map Column.name ∨ name = key ∧ v.schema.hasColumn key = true := by
  rw [addKnownColumn, Table.hasColumn]
  cases hc : v.schema.column? key with
  | none => simp
  | some c =>
    have hname : c.name = key := by simpa using List.find?_some hc
    dsimp only
    split
    · next hany =>
      have hthere : key ∈ columns.map Column.name := by
        obtain ⟨c', hc', hsame⟩ := List.any_eq_true.1 hany
        exact List.mem_map.2 ⟨c', hc', (by simpa using hsame : c'.name = c.name).trans hname⟩
      simp only [Option.isSome_some, and_true, iff_self_or]
      rintro rfl
      exact hthere
    · simp [hname]

/-- **The written columns** are those of the rows that the table knows. -/
theorem mem_names_writtenColumns {name : String} :
    name ∈ (v.writtenColumns rows).map Column.name ↔
      v.schema.hasColumn name = true ∧ ∃ row ∈ rows, name ∈ row.keys := by
  have hfold : ∀ (keys : List String) (columns : List Column),
      name ∈ (keys.foldl v.addKnownColumn columns).map Column.name ↔
        name ∈ columns.map Column.name ∨ name ∈ keys ∧ v.schema.hasColumn name = true := by
    intro keys
    induction keys with
    | nil => simp
    | cons key keys ih =>
      intro columns
      rw [List.foldl_cons, ih, mem_names_addKnownColumn, or_assoc, List.mem_cons, or_and_right]
      refine or_congr_right (or_congr_left (and_congr_right fun h => ?_))
      rw [h]
  rw [writtenColumns, hfold, List.mem_flatMap, and_comm]
  simp

/-- **Under a known column stands what the row says**, and under no other name anything. -/
theorem get?_written {row : Row} (hrow : row ∈ rows) (key : String) :
    (v.written rows row).get? key =
      if v.schema.hasColumn key = true then row.get? key else none := by
  have hcolumns : ∀ columns : List Column,
      Fields.get? (columns.filterMap fun c => (row.get? c.name).map fun value => (c.name, value))
        key = if key ∈ columns.map Column.name then row.get? key else none := by
    intro columns
    induction columns with
    | nil => simp [Fields.get?]
    | cons c columns ih =>
      rw [List.filterMap_cons]
      by_cases hc : key = c.name
      · subst hc
        cases hvalue : row.get? c.name with
        | none => simp [hvalue, ih]
        | some value => simp
      · cases hvalue : row.get? c.name with
        | none => simp [ih, hc]
        | some value => simp [ih, hc]
  rw [written, hcolumns]
  by_cases hkey : key ∈ row.keys
  · have hwritten : key ∈ (v.writtenColumns rows).map Column.name ↔ _ := mem_names_writtenColumns
    simp only [hwritten, and_iff_left (⟨row, hrow, hkey⟩ : ∃ row ∈ rows, key ∈ row.keys)]
  · simp [Fields.get?_eq_none hkey]

/-! ## The parameters -/

@[simp] theorem rowValues_snd (row : Row) (n : Nat) (columns : List Column) :
    (rowValues d row n columns).2 = columns.filterMap fun c => row.get? c.name := by
  induction columns generalizing n with
  | nil => rfl
  | cons c columns ih =>
    rw [rowValues]
    cases h : row.get? c.name with
    | none => simp [h, ih]
    | some value => simp [h, ih]

@[simp] theorem tuples_snd (columns : List Column) (n : Nat) (rows : List Row) :
    (tuples d columns n rows).2 =
      rows.flatMap fun row => columns.filterMap fun c => row.get? c.name := by
  induction rows generalizing n with
  | nil => rfl
  | cons row rows ih => rw [tuples, List.flatMap_cons, ← rowValues_snd, ← ih]

/-- **The parameters of an insert** are what it writes of its rows. -/
theorem params_of_insert {q : Statement} (h : v.insert d rows = .ok q) :
    q.params = rows.flatMap fun row => (v.written rows row).map Prod.snd := by
  rw [insert] at h
  dsimp only at h
  split at h
  · simp at h
  · obtain rfl := Except.ok.inj h
    simp only [tuples_snd, written, List.map_filterMap, Option.map_map, Function.comp_def,
      Option.map_id']

end TableApi.View
