import TableApi.Proofs.Relation.Gather

/-!
# Rows that meet along a link

What one step of a merge copies, said by the rows that meet. A row of a parent gets the list of the
child rows that meet it, and a row of the primary view that is the child gets the first parent row
that it meets (`Nesting.received_eq_withChildren`, `Nesting.received_eq_withParent`).
-/

namespace TableApi.Relation

/-- **Rows that meet along a link**: the linked column of the one and the foreign key of the other
have the same text. -/
def Joins (l : Link) (parent child : Row) : Prop :=
  ∃ key ∈ rowKey? parent l.parentColumn, rowKey? child l.childColumn = some key

instance (l : Link) (parent : Row) : DecidablePred (Joins l parent) := fun _ =>
  inferInstanceAs (Decidable (∃ key ∈ rowKey? parent l.parentColumn, _))

/-- The children of a row along a link, without the foreign key. -/
def childList (l : Link) (children : List Row) (row : Row) : List Json :=
  (children.filter (Joins l row)).map fun child => .object (child.erase l.childColumn)

/-- The row with the list of them, if there are any. -/
def withChildren (l : Link) (children : List Row) (row : Row) : Row :=
  if childList l children row = [] then row
  else row.insert l.childTable (.array (childList l children row))

/-- The row with the first parent that it meets in the place of the foreign key, if there is one. -/
def withParent (l : Link) (parents : List Row) (row : Row) : Row :=
  match parents.find? (Joins l · row) with
  | some parent => (row.erase l.childColumn).insert l.parentTable (.object parent)
  | none => row

namespace Nesting

variable {n : Nesting}

/-- A row that takes children gets the list of them. -/
theorem received_eq_withChildren (hinto : n.intoChild = false) (rows : List Row) (row : Row) :
    n.received rows row = withChildren n.link rows row := by
  have hchildren : n.given? rows row =
      if childList n.link rows row = [] then none
      else some (.array (childList n.link rows row)) := by
    rw [given?, column, hinto]
    simp only [Bool.false_eq_true, if_false]
    cases hkey : rowKey? row n.link.parentColumn with
    | none => simp [childList, Joins, hkey]
    | some key =>
      have hsame : childrenOf n.link rows key = childList n.link rows row := by
        rw [childrenOf, childList]
        refine congrArg _ (List.filter_congr fun child _ => ?_)
        simp [Joins, hkey, beq_eq_decide]
      simp [hsame]
  rw [received, hchildren, withChildren, key, hinto]
  by_cases hnil : childList n.link rows row = []
  · rw [if_pos hnil, if_pos hnil]
  · rw [if_neg hnil, if_neg hnil]
    rfl

/-- A row that takes a parent gets the first one that it meets. -/
theorem received_eq_withParent (hinto : n.intoChild = true) (rows : List Row) (row : Row) :
    n.received rows row = withParent n.link rows row := by
  have hparent : n.given? rows row = (rows.find? (Joins n.link · row)).map .object := by
    rw [given?, column, hinto]
    simp only [if_true]
    cases hkey : rowKey? row n.link.childColumn with
    | none => simp [Joins, hkey]
    | some key =>
      have hsame : (fun p => rowKey? p n.link.parentColumn == some key) =
          fun p => decide (Joins n.link p row) := by
        funext p
        simp [Joins, hkey, beq_eq_decide, eq_comm]
      simp [hsame]
  rw [received, hparent, withParent, key, hinto]
  cases rows.find? (Joins n.link · row) <;> rfl

end Nesting

end TableApi.Relation
