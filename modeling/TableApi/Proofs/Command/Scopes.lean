import TableApi.Command.Basic
import TableApi.Proofs.Request.Views

/-!
# The conditions of a view within its request

A view is narrowed by its own conditions and by the links that make it the child of a view whose
rows are addressed by key (`Request.narrowing`, `Request.conditionsOf`). Where the views are keyed,
as those of a writing request are, a read and a delete both write exactly these conditions:

* `scopedSelect_eq` — the select of a view that nothing else was asked of;
* `deleteScope_eq` — the delete, which is refused only where it would delete all rows of a table
  that is not the primary one.
-/

namespace TableApi

/-- **Conditions as the end of a statement**: each in parentheses, joined by `AND`. -/
def whereText (conditions : List String) : String :=
  if conditions = [] then ""
  else " WHERE " ++ " AND ".intercalate (conditions.map fun c => "(" ++ c ++ ")")

namespace Request

/-- **The links that narrow a view**, each with its parent: they make the view the child of another
one whose rows are addressed by the key that the link refers to. -/
def narrowing (r : Request) (v : View) : List (Link × View) :=
  r.relations.filterMap fun l =>
    if l.childTable = v.table ∧ l.parentTable ≠ v.table then
      ((r.view? l.parentTable).filter fun parent =>
        !parent.ids.isEmpty && parent.primaryKey = some l.parentColumn).map (l, ·)
    else none

/-- What they ask of the view: the reference is one of the parent's keys. -/
def linkConditions (d : Dialect) (r : Request) (v : View) : List String :=
  (r.narrowing v).map fun (l, parent) =>
    Filter.keysCondition d v.table l.childColumn parent.ids

/-- **The conditions of a view**: the one on its keys, the filters, and those of the links that
narrow it. -/
def conditionsOf (d : Dialect) (r : Request) (v : View) : List String :=
  v.idFilter.toList ++ v.filters ++ r.linkConditions d v

/-- **The select of a view**: what was asked for, of the rows within all of these conditions. -/
def selectOf (d : Dialect) (r : Request) (v : View) : Statement where
  sql :=
    "SELECT " ++ (if v.distinct then "DISTINCT " else "") ++ v.selectList d
      ++ " FROM " ++ v.tableSql d
      ++ String.join (v.joins.map fun j => " " ++ j.sql)
      ++ whereText (r.conditionsOf d v)
      ++ (if v.groupBy.isEmpty then "" else " GROUP BY " ++ ", ".intercalate v.groupBy)
      ++ v.having.elim "" (fun h => " HAVING (" ++ h ++ ")")
      ++ v.orderClause?.elim "" (" ORDER BY " ++ ·)
      ++ d.paginate v.offset v.limit v.orderClause?.isSome

end Request

variable {d : Dialect} {r : Request} {v : View}

/-- The condition of a view as the end of a statement. -/
theorem View.elim_conjunction? (parts : List String) :
    (View.conjunction? parts).elim "" (" WHERE " ++ ·) = whereText parts := by
  have hjoin : ∀ p ps, "(" ++ ") AND (".intercalate (p :: ps) ++ ")" =
      " AND ".intercalate ((p :: ps).map fun c => "(" ++ c ++ ")") := by
    intro p ps
    induction ps generalizing p with
    | nil => simp
    | cons q ps ih =>
      have hand : ") AND (" = ")" ++ " AND " ++ "(" := by decide
      have hq := ih q
      rw [List.map_cons] at hq
      rw [String.intercalate_cons_cons, List.map_cons, List.map_cons,
        String.intercalate_cons_cons, ← hq, hand]
      simp only [String.append_assoc]
  cases parts with
  | nil => rfl
  | cons p ps => simp only [View.conjunction?, whereText, hjoin, List.isEmpty_cons]; rfl

@[simp] theorem Filter.keysCondition_ne_empty (d : Dialect) (table column : String)
    (values : List String) :
    Filter.keysCondition d table column values ≠ "" := by
  simp [Filter.keysCondition]

/-- The conditions of a view alone. -/
def View.ownConditions (v : View) : List String :=
  v.idFilter.toList ++ v.filters

theorem View.Keyed.ownConditions_ne_empty (h : v.Keyed d) : ∀ c ∈ v.ownConditions, c ≠ "" := by
  rintro c hc rfl
  rcases List.mem_append.1 hc with hid | hfree
  · have hsome := Option.mem_toList.1 hid
    by_cases hids : v.ids = []
    · simp [h.unkeyed hids] at hsome
    · obtain ⟨pk, -, hpk⟩ := (h.keyed hids).2
      exact Filter.keysCondition_ne_empty _ _ _ _ (Option.some.inj (hpk.symm.trans hsome))
  · exact h.filters hfree

namespace Command

/-- A view with the conditions of its links added. -/
theorem foldl_pushFilter (v : View) {conditions : List String} (h : "" ∉ conditions) :
    conditions.foldl View.pushFilter v = { v with filters := v.filters ++ conditions } := by
  induction conditions generalizing v with
  | nil => simp
  | cons c cs ih =>
    obtain ⟨hc, hcs⟩ := not_or.1 fun hmem => h (List.mem_cons.2 hmem)
    have hne : c.isEmpty = false := by simpa using Ne.symm hc
    rw [List.foldl_cons, ih _ hcs, View.pushFilter, hne]
    simp

section Keyed

variable (hkeyed : ∀ v ∈ r.views, v.Keyed d)

include hkeyed

/-- The condition that one link puts on its child. -/
theorem linkScope_eq (v : View) (l : Link) :
    linkScope d r v l = .ok (((r.view? l.parentTable).filter fun parent =>
      !parent.ids.isEmpty && parent.primaryKey = some l.parentColumn).map fun parent =>
        Filter.keysCondition d v.table l.childColumn parent.ids) := by
  rw [linkScope]
  simp only [equality]
  cases hparent : r.view? l.parentTable with
  | none => rfl
  | some parent =>
    have hmem : parent ∈ r.views := List.mem_of_find?_eq_some hparent
    by_cases hids : parent.ids = []
    · simp [hids, Option.filter]
    · have hd := ((hkeyed parent hmem).keyed hids).1
      have hsql : Filter.equality d v.table l.childColumn parent.ids =
          .ok (Filter.keysCondition d v.table l.childColumn parent.ids) :=
        Filter.equality_eq_ok.2 ⟨hd, hids, rfl⟩
      dsimp only
      rw [hsql]
      by_cases hpk : parent.primaryKey = some l.parentColumn <;>
        simp [hids, hpk, Except.mapError, Except.map, Option.filter]

/-- **The conditions that links put on a view** are those of the links that narrow it. -/
theorem relationScope_eq (v : View) :
    relationScope d r v = .ok (r.linkConditions d v) := by
  rw [relationScope, mapM_eq_ok_map fun l _ => linkScope_eq hkeyed v l]
  refine congrArg Except.ok ?_
  rw [Request.linkConditions, Request.narrowing, List.map_filterMap, List.filterMap_map,
    List.filterMap_filter]
  refine List.filterMap_congr fun l _ => ?_
  by_cases hchild : l.childTable = v.table ∧ l.parentTable ≠ v.table
  · simp [isChildLink, hchild, Option.map_map, Function.comp_def]
  · simp [isChildLink, hchild]

theorem conditionsOf_ne_empty {v : View} (hv : v ∈ r.views) : "" ∉ r.conditionsOf d v := by
  intro hmem
  rcases List.mem_append.1 hmem with hown | hlinked
  · exact (hkeyed v hv).ownConditions_ne_empty "" hown rfl
  · obtain ⟨⟨l, parent⟩, -, hempty⟩ := List.mem_map.1 hlinked
    exact Filter.keysCondition_ne_empty _ _ _ _ hempty

/-- **A read sends these selects.** -/
theorem scopedSelect_eq {v : View} (hv : v ∈ r.views) :
    scopedSelect d r v = .ok (r.selectOf d v) := by
  have hne := conditionsOf_ne_empty hkeyed hv
  have hall : ∀ c ∈ r.conditionsOf d v, (!c.isEmpty) = true := by
    intro c hc
    have hcne : c ≠ "" := by
      rintro rfl
      exact hne hc
    simpa using hcne
  have hlinked : "" ∉ r.linkConditions d v := fun h => hne (List.mem_append_right _ h)
  -- the filters were pushed onto the view's own, so their order is that of `conditionsOf`
  have hwhere : View.conditions { v with filters := v.filters ++ r.linkConditions d v } =
      r.conditionsOf d v := by
    rw [View.conditions, ← List.append_assoc]
    exact List.filter_eq_self.2 hall
  rw [scopedSelect, relationScope_eq hkeyed]
  refine congrArg Except.ok ?_
  rw [foldl_pushFilter v hlinked]
  unfold View.select
  rw [View.whereClause?, hwhere, View.elim_conjunction?]
  rfl

/-- **The delete of a view** is refused only where it would delete all rows of a table that is not
the primary one. -/
theorem deleteScope_eq (v : View) :
    deleteScope d r v =
      if r.conditionsOf d v = [] ∧ v.role ≠ .primary then
        .error (.badRequest (.deletesAll v.table))
      else .ok (View.conjunction? (r.conditionsOf d v)) := by
  rw [deleteScope, relationScope_eq hkeyed]
  change (if (r.conditionsOf d v).isEmpty && v.role != .primary then
    Except.error (ApiError.badRequest (.deletesAll v.table))
      else .ok (View.conjunction? (r.conditionsOf d v))) = _
  by_cases hnone : r.conditionsOf d v = [] <;> by_cases hrole : v.role = .primary <;>
    simp [hnone, hrole]

end Keyed

/-- Where nothing but conditions and links was asked for, the select is of the rows within them. -/
theorem selectOf_of_unshaped (h : v.Unshaped) :
    r.selectOf d v = ⟨"SELECT " ++ v.selectList d ++ " FROM " ++ v.tableSql d ++
      whereText (r.conditionsOf d v), []⟩ := by
  rw [View.Unshaped] at h
  rw [Request.selectOf, h]
  simp [View.orderClause?, Dialect.paginate]

end Command

end TableApi
