import TableApi.Relation.Order
import TableApi.Statement

/-!
# Nesting of linked rows

A read of several tables answers one tree. A link puts the rows of one view into the rows of
another: where the child is the primary view, each of its rows gets the one parent row it refers
to; otherwise each parent row gets the list of its children. The column that referred is dropped.
Deep levels are nested first, so that a row is complete when it is copied into another.
-/

namespace TableApi.Relation

/-- The text under which rows meet, so that `1` and `"1"` are one key. -/
def joinKey? : Json → Option String
  | .string s => some s
  | .number n => some n.text
  | .bool b => some (if b then "true" else "false")
  | .null | .array _ | .object _ => none

/-- The key of a row in a column. -/
def rowKey? (row : Row) (column : String) : Option String :=
  (row.get? column).bind joinKey?

/-- **One step of nesting.** Rows of one view are copied into rows of another. -/
structure Nesting where
  link : Link
  parent : Nat
  child : Nat
  /-- The child is the primary view, so the parent rows are copied into it. -/
  intoChild : Bool
deriving DecidableEq, Repr, Inhabited

namespace Nesting

/-- The view whose rows are copied. -/
def source (n : Nesting) : Nat := if n.intoChild then n.parent else n.child

/-- The view whose rows get them. -/
def target (n : Nesting) : Nat := if n.intoChild then n.child else n.parent

/-- The steps in which a view is copied only after everything that goes into it. On a cycle the
first step goes first. -/
def arrange (waiting : List Nesting) : List Nesting :=
  match _h : waiting with
  | [] => []
  | first :: _ =>
    let ready (n : Nesting) : Bool := waiting.all fun other => other.target != n.source
    let next := (waiting.find? ready).getD first
    next :: arrange (waiting.erase next)
termination_by waiting.length
decreasing_by
  have hnext : (waiting.find? ready).getD first ∈ waiting := by
    cases hf : waiting.find? ready with
    | none => simp [_h]
    | some n => simpa using List.mem_of_find?_eq_some hf
  rw [← _h, List.length_erase_of_mem hnext]
  have := List.length_pos_of_mem hnext
  omega

theorem arrange_perm (waiting : List Nesting) : (arrange waiting).Perm waiting := by
  fun_induction arrange waiting with
  | case1 => exact .nil
  | case2 first rest ready next ih =>
    have hnext : next ∈ first :: rest := by
      cases hf : (first :: rest).find? ready with
      | none => simp [next, hf]
      | some n => simpa [next, hf] using List.mem_of_find?_eq_some hf
    exact (ih.cons next).trans (List.perm_cons_erase hnext).symm

/-- The rows of the target with the parent that each refers to in the place of the reference. -/
def attachParent (l : Link) (parents children : List Row) : List Row :=
  children.map fun row =>
    match rowKey? row l.childColumn with
    | none => row
    | some key =>
      match parents.find? (fun p => rowKey? p l.parentColumn == some key) with
      | some p => (row.erase l.childColumn).insert l.parentTable (.object p)
      | none => row

/-- The children of a key, without the column that refers to it. -/
def childrenOf (l : Link) (children : List Row) (key : String) : List Json :=
  (children.filter fun c => rowKey? c l.childColumn == some key).map fun c =>
    .object (c.erase l.childColumn)

/-- The rows of the target with the list of children of each; a row without children stays. -/
def attachChildren (l : Link) (parents children : List Row) : List Row :=
  parents.map fun row =>
    match rowKey? row l.parentColumn with
    | none => row
    | some key =>
      let found := childrenOf l children key
      if found.isEmpty then row else row.insert l.childTable (.array found)

/-- The target's rows after the step. -/
def attach (n : Nesting) (results : List (List Row)) : List Row :=
  let parents := results[n.parent]?.getD []
  let children := results[n.child]?.getD []
  if n.intoChild then attachParent n.link parents children
  else attachChildren n.link parents children

end Nesting

/-- The steps that links ask for, in the order of the links. -/
def nestings (views : List View) (links : List Link) : List Nesting :=
  links.filterMap fun l =>
    (edge? (views.map View.table) l).map fun (parent, child) =>
      ⟨l, parent, child, (views[child]?.map View.role) == some .primary⟩

/-- The rows of each view, and the views that were copied into others. -/
structure MergeState where
  results : List (List Row)
  nested : List Nat

/-- One step, unless the rows that it would change have been copied already. -/
def MergeState.step (s : MergeState) (n : Nesting) : MergeState :=
  if s.nested.contains n.target then s
  else ⟨s.results.set n.target (n.attach s.results), n.source :: s.nested⟩

/-- The rows of a view as JSON. -/
def rowsJson (rows : List Row) : Json :=
  .array (rows.map .object)

/-- The rows of the views that were copied nowhere, by table. -/
def MergeState.output (views : List View) (s : MergeState) : Fields :=
  let tables := views.map View.table
  let top := (tables.zip s.results).zipIdx.filter fun (_, i) => !s.nested.contains i
  Fields.ofList (top.map fun ((table, rows), _) => (table, rowsJson rows))

/-- **The answer of a read**: rows by table, with linked rows nested. -/
def merge (views : List View) (links : List Link) (results : List (List Row)) : Fields :=
  ((Nesting.arrange (nestings views links)).foldl MergeState.step ⟨results, []⟩).output views

end TableApi.Relation
