import TableApi.Proofs.Filter.Compiled

/-!
# The condition on keys

`Filter.equality` writes one value as `column = value` and several as `column IN (values)`. It has
no text for no value, nor in a dialect that writes no filters; that is all it refuses
(`equality_eq_ok`).
-/

namespace TableApi.Filter

variable {d : Dialect}

/-- A key as it stands in SQL: a number as it is, anything else between quotes. -/
def keyValue (d : Dialect) (value : String) : String :=
  (keyOperand value).value d .values

/-- **The column has one of these values.** -/
def keysCondition (d : Dialect) (table column : String) (values : List String) : String :=
  d.quoteIdent table ++ "." ++ d.quoteIdent column ++
    match values with
    | [value] => " = " ++ keyValue d value
    | _ => " IN (" ++ ",".intercalate (values.map (keyValue d)) ++ ")"

/-- **What the condition on keys is, and when there is one.** -/
theorem equality_eq_ok {table column : String} {values : List String} {sql : String} :
    equality d table column values = .ok sql ↔
      d.supportsFilters = true ∧ values ≠ [] ∧ sql = keysCondition d table column values := by
  have hvalue : keyValue d = fun value => (keyOperand value).value d .values := rfl
  rw [equality, ensureSupported]
  by_cases hd : d.supportsFilters = true
  · simp only [hd, if_true, true_and]
    match values with
    | [] => simp [bind, Except.bind, pure, Except.pure]
    | [value] =>
      simp [bind, Except.bind, pure, Except.pure, Comparison.render, Opcode.form, keysCondition,
        hvalue, String.append_assoc, eq_comm]
    | first :: second :: rest =>
      simp [bind, Except.bind, pure, Except.pure, Comparison.render, Opcode.form, keysCondition,
        hvalue, notText, String.append_assoc, eq_comm, Function.comp_def]
  · simp [hd, bind, Except.bind]

end TableApi.Filter
