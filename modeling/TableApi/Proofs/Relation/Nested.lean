import TableApi.Proofs.Json.Unordered
import TableApi.Proofs.Relation.Order
import TableApi.Relation.Merge

/-!
# Nested rows by recursion

What nesting should come to, said by recursion on the views (`nested`): the rows of a view are its
own, and each of them gets the rows that links put into it from the views below, which are nested
themselves. The recursion ends because the steps form no cycle; nothing is said about an order of
steps or about rows that are changed in place. The answer lists the views that no step copies from
(`tree`).
-/

namespace TableApi.Relation

/-- The rows of a view. -/
def rowsOf (results : List (List Row)) (i : Nat) : List Row :=
  results[i]?.getD []

namespace Nesting

/-- The key under which a row gets what the step copies: the table it comes from. -/
def key (n : Nesting) : String :=
  if n.intoChild then n.link.parentTable else n.link.childTable

/-- The column by which a row of the target finds it. -/
def column (n : Nesting) : String :=
  if n.intoChild then n.link.childColumn else n.link.parentColumn

/-- **What a row gets from rows of the other view**: the first parent row that it refers to, or the
list of the child rows that refer to it, without the reference. -/
def gift? (n : Nesting) (rows : List Row) (row : Row) : Option Json :=
  (rowKey? row n.column).bind fun key =>
    if n.intoChild then
      (rows.find? fun p => rowKey? p n.link.parentColumn == some key).map .object
    else
      let found := rows.filter fun c => rowKey? c n.link.childColumn == some key
      if found.isEmpty then none
      else some (.array (found.map fun c => .object (c.filter fun f => f.1 ≠ n.link.childColumn)))

end Nesting

/-- What a row of a view gets, given the complete rows of every other view. -/
def gifts (steps : List Nesting) (complete : Nat → List Row) (i : Nat) (row : Row) :
    List (Nesting × Json) :=
  (steps.filter (·.target = i)).filterMap fun n =>
    (n.gift? (complete n.source) row).map (n, ·)

/-- The reference stays in the row, for all that the row got. -/
def keeps (got : List (Nesting × Json)) (column : String) : Bool :=
  got.all fun (n, _) => !n.intoChild || n.link.childColumn != column

/-- **A row with what it gets.** A reference goes when the parent row takes its place. -/
def gather (steps : List Nesting) (complete : Nat → List Row) (i : Nat) (row : Row) : Row :=
  let got := gifts steps complete i row
  (row.filter fun f => keeps got f.1) ++ got.map fun (n, v) => (n.key, v)

/-- **Some step copies rows of one view into rows of the other.** -/
def Feeds (steps : List Nesting) (source target : Nat) : Prop :=
  ∃ n ∈ steps, n.source = source ∧ n.target = target

instance (steps : List Nesting) : DecidableRel (Feeds steps) := fun source target =>
  inferInstanceAs (Decidable (∃ n ∈ steps, n.source = source ∧ n.target = target))

variable {steps : List Nesting}

/-- Without a cycle there is recursion along the steps. -/
theorem wellFounded_feeds (h : Acyclic (Feeds steps)) : WellFounded (Feeds steps) := by
  have hsources : ∀ source target, Feeds steps source target →
      source ∈ steps.map Nesting.source := by
    rintro _ _ ⟨n, hn, rfl, -⟩
    exact List.mem_map_of_mem hn
  exact h.wellFounded hsources

/-- **The nested rows of a view**: its rows in order, with what each gets from nested rows. -/
def nested (h : WellFounded (Feeds steps)) (results : List (List Row)) (i : Nat) : List Row :=
  (rowsOf results i).map
    (gather steps (fun j => if _hj : Feeds steps j i then nested h results j else []) i)
termination_by h.wrap i
decreasing_by exact _hj

/-- What a row gets depends on the views that are copied into its own. -/
theorem gather_congr {complete complete' : Nat → List Row} {i : Nat}
    (h : ∀ j, Feeds steps j i → complete j = complete' j) (row : Row) :
    gather steps complete i row = gather steps complete' i row := by
  have hgifts : gifts steps complete i row = gifts steps complete' i row := by
    refine List.filterMap_congr fun n hn => ?_
    obtain ⟨hmem, htarget⟩ := List.mem_filter.1 hn
    rw [h n.source ⟨n, hmem, rfl, by simpa using htarget⟩]
  rw [gather, gather, hgifts]

/-- **The rows of a view get nested rows.** -/
theorem nested_eq (h : WellFounded (Feeds steps)) (results : List (List Row)) (i : Nat) :
    nested h results i = (rowsOf results i).map (gather steps (nested h results) i) := by
  rw [nested]
  refine List.map_congr_left fun row _ => gather_congr (fun j hj => ?_) row
  rw [dif_pos hj]

/-- **The answer as a tree**: the nested rows of each view that no step copies from, by table. -/
def tree (views : List View) (links : List Link) (results : List (List Row))
    (h : Acyclic (Feeds (nestings views links))) : Fields :=
  let top := (views.map View.table).zipIdx.filter fun (_, i) =>
    !(nestings views links).any (·.source = i)
  top.map fun (table, i) => (table, rowsJson (nested (wellFounded_feeds h) results i))

end TableApi.Relation
