import TableApi.Proofs.Sql.Strings
import TableApi.Proofs.View.Written
import TableApi.Statement

/-!
# The statements of a view are one statement each

However a view was made by its setters, its select, its delete and the check for rows that meet its
condition are lexically one statement. A statement is put together from a harmless text and others
that can follow any text, since each of those starts with a keyword, a space or a comma, or is
empty.
-/

namespace TableApi

open Sql

variable {d : Dialect}

namespace Dialect

@[simp] theorem harmless_unboundedLimit (d : Dialect) : Harmless d d.unboundedLimit.toList := by
  have hsigns : ∀ c ∈ d.unboundedLimit.toList, c ∉ harmfulSigns := by
    cases d <;> decide
  refine harmless_of_signs d hsigns fun hin => ?_
  have hcount : d.unboundedLimit.toList.count '-' ≤ 1 := by
    cases d <;> decide
  have htwo := hin.sublist.count_le '-'
  simp at htwo
  omega

/-- **What pages a query** can follow any of them. -/
theorem led_paginate (d : Dialect) (offset limit : Option Nat) (ordered : Bool) :
    Led d (d.paginate offset limit ordered).toList := by
  have hnumber : ∀ n : Nat, Led d (toString n).toList := fun n => (firm_toString n).led d
  have hwords : ∀ {t : String}, Firm t.toList → Led d t.toList := fun ht => ht.led d
  have hoffset : Led d (offset.elim "" fun o => " OFFSET " ++ toString o).toList :=
    led_elim fun n _ => led_append (hwords (by decide)) (hnumber n)
  have hlimit : Led d (limit.elim "" fun l => " LIMIT " ++ toString l).toList :=
    led_elim fun n _ => led_append (hwords (by decide)) (hnumber n)
  have hcounted : Led d (" LIMIT " ++ limit.elim d.unboundedLimit toString ++
      offset.elim "" fun o => " OFFSET " ++ toString o).toList := by
    refine led_append (led_after (by decide) ?_) hoffset
    cases limit with
    | none => exact d.harmless_unboundedLimit
    | some n => exact (hnumber n).harmless
  have hrows : Led d ((if ordered then "" else " ORDER BY (SELECT NULL)") ++ " OFFSET " ++
      toString (offset.getD 0) ++ " ROWS" ++
      limit.elim "" fun l => " FETCH NEXT " ++ toString l ++ " ROWS ONLY").toList := by
    have horder : Led d (if ordered then "" else " ORDER BY (SELECT NULL)").toList := by
      cases ordered with
      | true => exact led_nil d
      | false => exact hwords (by decide)
    have hskip := led_append (led_append horder (hwords (t := " OFFSET ") (by decide)))
      (hnumber (offset.getD 0))
    have hfetch : Led d
        (limit.elim "" fun l => " FETCH NEXT " ++ toString l ++ " ROWS ONLY").toList :=
      led_elim fun n _ =>
        led_append (led_append (hwords (by decide)) (hnumber n)) (hwords (by decide))
    exact led_append (led_append hskip (hwords (by decide))) hfetch
  dsimp only [paginate]
  split
  · exact led_nil d
  · cases d with
    | postgres => exact led_append hoffset hlimit
    | mysql | sqlite => exact hcounted
    | mssql | oracle => exact hrows

end Dialect

/-! ## Parts of a statement -/

theorem Projection.Written.body {p : Projection} (h : p.Written d) :
    Harmless d (p.body d).toList := by
  rw [Projection.body]
  have hselection := h.selection
  split
  · next table name _ => exact harmless_qualified table name
  · next f args hp =>
    rw [hp] at hselection
    have hname : Firm (f.name ++ "(").toList := by
      cases f <;> decide
    have hclose : Led d ")".toList := Firm.led (by decide) d
    exact harmless_append (led_after hname hselection).harmless hclose
  · next text hp =>
    rw [hp] at hselection
    exact hselection

namespace View

@[simp] theorem harmless_tableSql (d : Dialect) (v : View) : Harmless d (v.tableSql d).toList := by
  rw [tableSql, Dialect.qualifiedTable]
  split
  · exact harmless_quoteIdent v.table
  · exact harmless_qualified v.database v.table

theorem firm_of_entryCast? {v : View} {p : Projection} {cast : String}
    (h : v.entryCast? d p = some cast) : Firm cast.toList := by
  rw [entryCast?] at h
  split at h
  · obtain ⟨c, -, hcast⟩ := Option.bind_eq_some_iff.1 h
    rw [Dialect.projectionCast] at hcast
    split at hcast
    · obtain rfl := Option.some.inj hcast
      decide
    · simp at hcast
  · simp at h

theorem harmless_entrySql (v : View) {p : Projection} (h : p.Written d) :
    Harmless d (v.entrySql d p).toList := by
  have has : Firm " AS ".toList := by decide
  rw [entrySql]
  split
  · next table name cast hp hcast =>
    have hlabel : Harmless d (p.label.getD (d.quoteIdent name)).toList := by
      cases hl : p.label with
      | none => exact harmless_quoteIdent name
      | some a => exact h.label a hl
    have hcast' : Led d cast.toList := (firm_of_entryCast? hcast).led d
    exact harmless_join (harmless_append h.body hcast') has hlabel
  · rw [Projection.sql]
    split
    · next a ha => exact harmless_join h.body has (h.label a ha)
    · exact h.body

/-- **The select list.** -/
theorem Written.selectList {v : View} (h : v.Written d) : Harmless d (v.selectList d).toList := by
  have hcomma : Firm ", ".toList := by decide
  have hstar : Harmless d "*".toList := (Firm.led (by decide) d).harmless
  have hcolumn : ∀ c, Harmless d (v.entrySql d (v.columnEntry c)).toList := fun c =>
    v.harmless_entrySql ⟨trivial, by simp [columnEntry]⟩
  have hprojection : ∀ p ∈ v.projection, p.Written d := by
    intro p hp
    have hbase := (List.mem_filter.1 hp).1
    split at hbase
    · exact h.columns p hbase
    · split at hbase
      · obtain ⟨c, -, rfl⟩ := List.mem_map.1 hbase
        exact ⟨trivial, by simp [columnEntry]⟩
      · simp at hbase
  rw [View.selectList]
  dsimp only
  split
  · refine harmless_intercalate hcomma fun s hs => ?_
    obtain ⟨p, hp, rfl⟩ := List.mem_map.1 hs
    exact v.harmless_entrySql (hprojection p hp)
  · split
    · exact hstar
    · split
      · refine harmless_intercalate hcomma fun s hs => ?_
        obtain ⟨c, -, rfl⟩ := List.mem_map.1 hs
        exact hcolumn c
      · refine harmless_intercalate hcomma (List.forall_mem_cons.2 ⟨hstar, ?_⟩)
        intro s hs
        obtain ⟨c, -, rfl⟩ := List.mem_map.1 hs
        exact hcolumn c

/-- A condition that is a conjunction of fragments. -/
theorem Written.whereClause {v : View} (h : v.Written d) :
    ∀ sql ∈ v.whereClause?, Harmless d sql.toList := by
  have hparts : ∀ p ∈ v.conditions, Harmless d p.toList := by
    intro p hp
    rcases List.mem_append.1 (List.mem_filter.1 hp).1 with hid | hfree
    · exact (h.idFilter p (Option.mem_toList.1 hid)).harmless
    · exact (h.filters p hfree).harmless
  intro sql hsql
  rw [whereClause?, conjunction?] at hsql
  split at hsql
  · simp at hsql
  · obtain rfl := Option.some.inj hsql
    have hand : Firm ") AND (".toList := by decide
    have hinner := harmless_intercalate hand hparts
    exact harmless_append (led_after (by decide) hinner).harmless (Firm.led (by decide) d)

theorem Written.joins {v : View} (h : v.Written d) :
    ∀ j ∈ v.joins, Led d (" " ++ j.sql).toList := by
  intro j hj
  have hkeywords : Firm (j.kind.keywords ++ " ").toList := by
    cases j.kind <;> decide
  have htable : Harmless d (j.kind.keywords ++ " " ++ j.table).toList :=
    (led_after hkeywords (h.tables j hj)).harmless
  refine led_after (by decide) (harmless_append htable (led_elim fun sql hsql => ?_))
  have hcondition := (h.conditions j hj sql hsql).harmless
  exact led_append (led_after (by decide) hcondition) (Firm.led (by decide) d)

theorem Written.orderClause {v : View} (h : v.Written d) :
    ∀ sql ∈ v.orderClause?, Harmless d sql.toList := by
  intro sql hsql
  rw [orderClause?] at hsql
  split at hsql
  · simp at hsql
  · obtain rfl := Option.some.inj hsql
    refine harmless_intercalate (by decide) fun s hs => ?_
    obtain ⟨t, ht, rfl⟩ := List.mem_map.1 hs
    refine harmless_append (h.orderBy t ht) ?_
    cases t.descending <;> exact Firm.led (by decide) d

/-! ## Whole statements -/

theorem Written.select {v : View} (h : v.Written d) : Harmless d (v.select d).sql.toList := by
  have hfirst : Firm ("SELECT " ++ if v.distinct then "DISTINCT " else "").toList := by
    cases v.distinct <;> decide
  have hlist := (led_after hfirst h.selectList).harmless
  have hfrom : Firm " FROM ".toList := by decide
  have hjoins : Led d (String.join (v.joins.map fun j => " " ++ j.sql)).toList := by
    refine led_join fun s hs => ?_
    obtain ⟨j, hj, rfl⟩ := List.mem_map.1 hs
    exact h.joins j hj
  have hwhere : Led d (v.whereClause?.elim "" (" WHERE " ++ ·)).toList :=
    led_elim fun sql hsql => led_after (by decide) (h.whereClause sql hsql)
  have hgroup : Led d (if v.groupBy.isEmpty then ""
      else " GROUP BY " ++ ", ".intercalate v.groupBy).toList := by
    split
    · exact led_nil d
    · exact led_after (by decide) (harmless_intercalate (by decide) h.groupBy)
  have hhaving : Led d (v.having.elim "" fun s => " HAVING (" ++ s ++ ")").toList :=
    led_elim fun sql hsql =>
      led_append (led_after (by decide) (h.having sql hsql).harmless) (Firm.led (by decide) d)
  have horder : Led d (v.orderClause?.elim "" (" ORDER BY " ++ ·)).toList :=
    led_elim fun sql hsql => led_after (by decide) (h.orderClause sql hsql)
  have hpage := d.led_paginate v.offset v.limit v.orderClause?.isSome
  -- the first part is harmless, and each of the others can follow any of them
  have htables := harmless_append (harmless_join hlist hfrom (harmless_tableSql d v)) hjoins
  have hrows := harmless_append (harmless_append htables hwhere) hgroup
  exact harmless_append (harmless_append (harmless_append hrows hhaving) horder) hpage

/-- The delete under a harmless condition. -/
theorem harmless_delete (v : View) {condition : Option String}
    (h : ∀ sql ∈ condition, Harmless d sql.toList) :
    Harmless d (v.delete d condition).sql.toList := by
  have htable : Led d ("DELETE FROM " ++ v.tableSql d).toList :=
    led_after (by decide) (harmless_tableSql d v)
  have hwhere : Led d (condition.elim "" (" WHERE " ++ ·)).toList :=
    led_elim fun sql hsql => led_after (by decide) (h sql hsql)
  exact harmless_append htable.harmless hwhere

/-- The check for rows that meet a harmless condition. -/
theorem harmless_exists (v : View) {condition : String} (h : Harmless d condition.toList) :
    Harmless d (v.exists_ d condition).sql.toList := by
  have htable : Led d ("SELECT 1 AS present FROM " ++ v.tableSql d).toList :=
    led_after (by decide) (harmless_tableSql d v)
  have hwhere := harmless_join htable.harmless (t := " WHERE ") (by decide) h
  exact harmless_append hwhere (d.led_paginate none (some 1) false)

/-- **However a view was made, its statements are one statement each**: its select, its delete, and
the check for rows that meet its condition. -/
theorem oneStatement_run (d : Dialect) (v : View) (setters : List Setter) :
    let made := v.bare.run d setters
    OneStatement d (made.select d).sql.toList ∧
      OneStatement d (made.delete d made.whereClause?).sql.toList ∧
      ∀ condition ∈ made.whereClause?,
        OneStatement d (made.exists_ d condition).sql.toList := by
  intro made
  have h : made.Written d := written_run d v setters
  refine ⟨h.select.oneStatement, (harmless_delete made h.whereClause).oneStatement, ?_⟩
  intro condition hcondition
  exact (harmless_exists made (h.whereClause condition hcondition)).oneStatement

/-- The check for the row of one key. -/
theorem oneStatement_exists_key :
    let table : Table := { name := "t", primaryKey := some "id", columns := [] }
    let view : View := { database := "", schema := table, role := .primary }
    let made := view.bare.run .sqlite [.ids ["7"]]
    made.whereClause? = some "(\"t\".\"id\" = 7)" ∧
      OneStatement .sqlite (made.exists_ .sqlite "(\"t\".\"id\" = 7)").sql.toList := by
  intro table view made
  have hcondition : made.whereClause? = some "(\"t\".\"id\" = 7)" := by decide
  exact ⟨hcondition, (oneStatement_run .sqlite view [.ids ["7"]]).2.2 _ hcondition⟩

end View

end TableApi
