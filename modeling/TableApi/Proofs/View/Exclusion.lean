import TableApi.Proofs.View.Setters
import TableApi.Statement

/-!
# Columns that are left out

An exclusion takes a column out of the select list, however the column got there: listed because
something is excluded, or asked for by its name, with a qualifier or without, under any label. The
entries that are left make up the list (`select_without_excluded`).

Three things an exclusion does not do, each by how the list is made (`select_with_excluded`):

* When it leaves no entry, the list is what it would be if nothing had been asked for or excluded.
* An entry for all columns is no column of its own, so it stays.
* Names are sanitized before they exclude anything, and what stands before the last point is read as
  a table. So a column is out of reach if its name has other characters.
-/

namespace TableApi

variable {d : Dialect}

/-! ## Which entries show a column -/

/-- **The selection is the plain column of this name**: that column of the table, or its name as a
text, with a qualifier or without. -/
def Selection.IsColumn (name : String) : Selection → Prop
  | .column _ n => n = name
  | .expr text => text = name ∨ ∃ qualifier, text = qualifier ++ "." ++ name
  | .aggregate _ _ => False

/-- **The selection is of all columns**, with a qualifier or without. -/
def Selection.IsStar : Selection → Prop
  | .expr text => text = "*" ∨ ∃ qualifier, text = qualifier ++ ".*"
  | _ => False

/-- A name after a qualifier is what stands after the last point. -/
theorem Projection.afterLastPoint_append {name : String} (h : '.' ∉ name.toList)
    (qualifier : String) : afterLastPoint (qualifier ++ "." ++ name) = name := by
  have htext : (qualifier ++ "." ++ name).toList = qualifier.toList ++ '.' :: name.toList := by
    simp [String.toList_append]
  rw [afterLastPoint, htext, Text.cutLast_append h]
  exact String.ofList_toList

/-- A plain column is recognized by its name, if that has no point. -/
theorem Projection.columnName?_of_isColumn {p : Projection} {name : String}
    (hname : '.' ∉ name.toList) (h : p.selection.IsColumn name) : p.columnName? = some name := by
  rw [columnName?]
  cases hp : p.selection with
  | column table n =>
    rw [hp] at h
    exact congrArg some h
  | aggregate f args =>
    rw [hp] at h
    exact h.elim
  | expr text =>
    rw [hp] at h
    rcases h with rfl | ⟨qualifier, rfl⟩
    · dsimp only [afterLastPoint]
      rw [Text.cutLast_eq_none.2 hname]
    · exact congrArg some (afterLastPoint_append hname qualifier)

namespace View

variable {v : View}

/-! ## Exclusions -/

/-- A column's name excludes it, and so does its name after the table's. -/
theorem excludes_of_named {entry name : String} (hname : '.' ∉ name.toList)
    (h : entry = name ∨ entry = v.table ++ "." ++ name) : v.excludes name entry = true := by
  rw [excludes]
  rcases h with rfl | rfl
  · simp
  · have htext : (v.table ++ "." ++ name).toList = v.table.toList ++ '.' :: name.toList := by
      simp [String.toList_append]
    rw [htext, Text.cutLast_append hname]
    simp

/-- **An excluded column is no entry.** -/
theorem not_isColumn_of_mem_projection {entry name : String} (hname : '.' ∉ name.toList)
    (hnamed : entry = name ∨ entry = v.table ++ "." ++ name) (hentry : entry ∈ v.exclude)
    {p : Projection} (hp : p ∈ v.projection) : ¬p.selection.IsColumn name := by
  intro hcolumn
  have hout : v.isExcluded p = true := by
    rw [isExcluded, Projection.columnName?_of_isColumn hname hcolumn]
    exact List.any_eq_true.2 ⟨entry, hentry, excludes_of_named hname hnamed⟩
  have hin := (List.mem_filter.1 hp).2
  simp [hout] at hin

/-- An entry for all columns was asked for. -/
theorem mem_columns_of_isStar {p : Projection} (hp : p ∈ v.projection)
    (hstar : p.selection.IsStar) : p ∈ v.columns := by
  have hbase := (List.mem_filter.1 hp).1
  split at hbase
  · exact hbase
  · split at hbase
    · obtain ⟨c, -, rfl⟩ := List.mem_map.1 hbase
      exact hstar.elim
    · simp at hbase

/-- Without entries, nothing seems to have been asked for or excluded. -/
theorem selectList_of_projection_eq_nil (h : v.projection = []) :
    v.selectList d = View.selectList { v with columns := [], exclude := [] } d := by
  have hbare : View.projection { v with columns := [], exclude := [] } = [] := rfl
  rw [selectList, selectList, h, hbare]
  rfl

/-- The select list stands between the words of the select. -/
theorem exists_select_eq (v : View) (d : Dialect) :
    ∃ rest, (v.select d).sql =
      "SELECT " ++ (if v.distinct then "DISTINCT " else "") ++ v.selectList d ++ " FROM " ++
        rest := by
  refine ⟨v.tableSql d ++ String.join (v.joins.map fun j => " " ++ j.sql) ++
    v.whereClause?.elim "" (" WHERE " ++ ·) ++
    (if v.groupBy.isEmpty then "" else " GROUP BY " ++ ", ".intercalate v.groupBy) ++
    v.having.elim "" (fun h => " HAVING (" ++ h ++ ")") ++
    v.orderClause?.elim "" (" ORDER BY " ++ ·) ++
    d.paginate v.offset v.limit v.orderClause?.isSome, ?_⟩
  unfold select
  simp only [String.append_assoc]

/-! ## Runs -/

/-- The entries that a call asks for. -/
def asked (t : Table) : Setter → List Projection
  | .columns text => (Text.entries text).filterMap (Projection.parse? t)
  | _ => []

/-- The names that a call excludes. -/
def named : Setter → List String
  | .exclude text => ((Text.entries text).map (Text.sanitized ".")).filter (!·.isEmpty)
  | _ => []

/-- **One call** adds what it asks for and what it excludes. -/
theorem attempt_entries (d : Dialect) (v : View) (s : Setter) :
    (v.attempt d s).schema = v.schema ∧
      (v.attempt d s).columns = v.columns ++ asked v.schema s ∧
      (v.attempt d s).exclude = v.exclude ++ named s := by
  rw [attempt]
  split
  · next v' h =>
    cases s with
    | ids keys =>
      rcases setIds_eq_ok h with rfl | ⟨pk, -, -, -, rfl⟩ <;> simp [asked, named]
    | filter text =>
      rcases addFilter_eq_ok h with rfl | ⟨sql, -, rfl⟩ <;> simp [asked, named]
    | columns text | exclude text =>
      obtain rfl := Except.ok.inj h
      simp [asked, named, addColumns, addExclude]
    | _ =>
      obtain ⟨joins, groupBy, having, orderBy, offset, limit, rfl⟩ := Setter.shaped_of_apply rfl h
      simp [asked, named]
  · next h =>
    -- calls that ask for columns or exclude some are never refused
    cases s with
    | columns text | exclude text => simp [Setter.apply, pure, Except.pure] at h
    | _ => simp [asked, named]

/-- **A run** adds what its calls ask for and exclude. -/
theorem run_entries (d : Dialect) (v : View) (setters : List Setter) :
    (v.run d setters).schema = v.schema ∧
      (v.run d setters).columns = v.columns ++ setters.flatMap (asked v.schema) ∧
      (v.run d setters).exclude = v.exclude ++ setters.flatMap named := by
  induction setters generalizing v with
  | nil => simp [run]
  | cons s setters ih =>
    obtain ⟨hschema, hcolumns, hexclude⟩ := attempt_entries d v s
    obtain ⟨hschema', hcolumns', hexclude'⟩ := ih (v.attempt d s)
    rw [hschema] at hschema' hcolumns'
    rw [hcolumns] at hcolumns'
    rw [hexclude] at hexclude'
    rw [run, List.foldl_cons, ← run]
    refine ⟨hschema', ?_, ?_⟩
    · rw [hcolumns', List.flatMap_cons, List.append_assoc]
    · rw [hexclude', List.flatMap_cons, List.append_assoc]

end View

theorem Text.ne_empty_of_mem_entries {text entry : String} (h : entry ∈ Text.entries text) :
    entry ≠ "" := by
  obtain ⟨s, hs, rfl⟩ := List.mem_map.1 h
  have hne := (List.mem_filter.1 hs).2
  intro hempty
  simp [String.ofList_eq_empty_iff.1 hempty] at hne

namespace View

/-- A name of safe characters and points is excluded as it stands. -/
theorem mem_named {text entry : String} (hentry : entry ∈ Text.entries text)
    (hsafe : ∀ c ∈ entry.toList, Text.isNameChar c = true ∨ c = '.') :
    entry ∈ named (.exclude text) := by
  have hhyphen : '-' ∉ entry.toList := by
    intro hmem
    exact absurd (hsafe _ hmem) (by decide)
  have hkept : Text.sanitized "." entry = entry := by
    rw [Text.sanitized, Text.sanitize_eq_self (by simpa using hsafe) hhyphen, String.ofList_toList]
  refine List.mem_filter.2 ⟨List.mem_map.2 ⟨entry, hentry, hkept⟩, ?_⟩
  simpa using Text.ne_empty_of_mem_entries hentry

/-- **An excluded column is not selected**, for every view and every run of setters. -/
theorem select_without_excluded (d : Dialect) (v : View) {setters : List Setter}
    {text entry name : String} (htext : .exclude text ∈ setters)
    (hentry : entry ∈ Text.entries text)
    (hname : ∀ c ∈ name.toList, Text.isNameChar c = true)
    (hnamed : entry = name ∨ entry = v.table ++ "." ++ name ∧
      ∀ c ∈ v.table.toList, Text.isNameChar c = true ∨ c = '.') :
    let w := v.run d setters
    (∀ p ∈ w.projection, ¬p.selection.IsColumn name ∧
        (p.selection.IsStar → p ∈ v.columns ∨ ∃ asking, .columns asking ∈ setters ∧
          ∃ wanted ∈ Text.entries asking, Projection.parse? v.schema wanted = some p)) ∧
      (w.projection ≠ [] → ∃ rest, (w.select d).sql =
        "SELECT " ++ (if w.distinct then "DISTINCT " else "") ++
          ", ".intercalate (w.projection.map (w.entrySql d)) ++ " FROM " ++ rest) ∧
      (w.projection = [] →
        w.selectList d = View.selectList { w with columns := [], exclude := [] } d) := by
  intro w
  obtain ⟨hschema, hcolumns, hexclude⟩ := run_entries d v setters
  have htable : w.table = v.table := congrArg Table.name hschema
  have hpoint : '.' ∉ name.toList := by
    intro hmem
    exact absurd (hname _ hmem) (by decide)
  -- sanitizing leaves what names the column
  have hsafe : ∀ c ∈ entry.toList, Text.isNameChar c = true ∨ c = '.' := by
    intro c hc
    rcases hnamed with rfl | ⟨rfl, hqualifier⟩
    · exact .inl (hname c hc)
    · simp only [String.toList_append, List.mem_append] at hc
      rcases hc with (hc | hc) | hc
      · exact hqualifier c hc
      · exact .inr (by simpa using hc)
      · exact .inl (hname c hc)
  have hexcluded : entry ∈ w.exclude := by
    rw [hexclude]
    exact List.mem_append_right _ (List.mem_flatMap.2 ⟨_, htext, mem_named hentry hsafe⟩)
  have hmeant : entry = name ∨ entry = w.table ++ "." ++ name := by
    rw [htable]
    exact hnamed.imp_right And.left
  refine ⟨fun p hp => ⟨not_isColumn_of_mem_projection hpoint hmeant hexcluded hp, fun hstar => ?_⟩,
    fun hne => ?_, selectList_of_projection_eq_nil⟩
  · -- only a call that asks for columns adds an entry for all of them
    have hp' := mem_columns_of_isStar hp hstar
    rw [hcolumns] at hp'
    refine (List.mem_append.1 hp').imp_right fun hasked => ?_
    obtain ⟨s, hs, hps⟩ := List.mem_flatMap.1 hasked
    cases s with
    | columns asking =>
      obtain ⟨wanted, hwanted, hparse⟩ := List.mem_filterMap.1 hps
      exact ⟨asking, hs, wanted, hwanted, hparse⟩
    | _ => simp [asked] at hps
  · have hlist : w.selectList d = ", ".intercalate (w.projection.map (w.entrySql d)) := by
      rw [selectList, List.isEmpty_eq_false_iff.2 hne]
      rfl
    rw [← hlist]
    exact w.exists_select_eq d

/-- A secret that is asked for after a qualifier and under a label. -/
theorem select_without_secret :
    let schema : Table :=
      { name := "t", primaryKey := none, columns := [{ name := "secret", dataType := "text" }] }
    let v : View := { database := "d", schema, role := .primary }
    let w := v.run .sqlite [.columns "t.secret@s,b", .exclude "t.secret"]
    (w.select .sqlite).sql = "SELECT b FROM \"d\".\"t\"" ∧
      ∀ p ∈ w.projection, ¬p.selection.IsColumn "secret" := by
  intro schema v w
  have htext : Setter.exclude "t.secret" ∈ [.columns "t.secret@s,b", .exclude "t.secret"] := by simp
  have hentry : "t.secret" ∈ Text.entries "t.secret" := by decide
  have hname : ∀ c ∈ "secret".toList, Text.isNameChar c = true := by decide
  have htable : ∀ c ∈ v.table.toList, Text.isNameChar c = true ∨ c = '.' := by decide
  obtain ⟨hleft, -, -⟩ :=
    select_without_excluded .sqlite v htext hentry hname (.inr ⟨by decide, htable⟩)
  exact ⟨by decide +kernel, fun p hp => (hleft p hp).1⟩

/-- **Where an exclusion hides nothing**: no entry is left, all columns were asked for, or the name
has a character that sanitizing drops or a point. -/
theorem select_with_excluded :
    let select (column : String) (setters : List Setter) : String :=
      let schema : Table :=
        { name := "t", primaryKey := none, columns := [{ name := column, dataType := "text" }] }
      let v : View := { database := "d", schema, role := .primary }
      ((v.run .sqlite setters).select .sqlite).sql
    select "a" [.exclude "a"] = "SELECT * FROM \"d\".\"t\"" ∧
      select "a" [.columns "*", .exclude "a"] = "SELECT * FROM \"d\".\"t\"" ∧
      select "a b" [.exclude "a b"] = "SELECT \"t\".\"a b\" FROM \"d\".\"t\"" ∧
      select "a.b" [.exclude "t.a.b"] = "SELECT \"t\".\"a.b\" FROM \"d\".\"t\"" := by
  decide +kernel

end View

end TableApi
