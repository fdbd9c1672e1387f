import TableApi.Proofs.Filter.Keys
import TableApi.Proofs.Outcome
import TableApi.View.Basic

/-!
# Runs of setters

A request makes a view by one setter after another, each with a text of its own (`Setter`). A call
that is refused leaves the view as it was (`View.attempt`), so every list of setters makes a view
(`View.run`). What every setter keeps holds of every view that is made (`View.run_keeps`).

What a setter can change is said once: `setIds_eq_ok` and `addFilter_eq_ok` for the conditions, and
`Setter.shaped_of_apply` for the setters that touch neither rows nor columns.
-/

namespace TableApi

/-- **A call of a setter**, with the texts that it takes. -/
inductive Setter
  | ids (keys : List String)
  | filter (text : String)
  | columns (text : String)
  | exclude (text : String)
  | order (text : String)
  | page (text : String) (defaultSize : Nat)
  | start (text : String)
  | length (text : String)
  | join (text : String)
  | group (text : String)
  | having (text : String)
deriving DecidableEq, Repr

/-- The view after a call, if the setter takes the text. -/
def Setter.apply (d : Dialect) (v : View) : Setter → Except ApiError View
  | .ids keys => v.setIds d keys
  | .filter text => v.addFilter d text
  | .columns text => pure (v.addColumns text)
  | .exclude text => pure (v.addExclude text)
  | .order text => pure (v.addOrder text)
  | .page text defaultSize => pure (v.setPage text defaultSize)
  | .start text => pure (v.setStart text)
  | .length text => pure (v.setLength text)
  | .join text => v.addJoin d text
  | .group text => pure (v.addGroup text)
  | .having text => v.setHaving d text

namespace View

/-- What setting keys comes to, if they are taken. -/
theorem setIds_eq_ok {d : Dialect} {v v' : View} {ids : List String} (h : v.setIds d ids = .ok v') :
    v' = v ∨ ∃ pk, v.primaryKey = some pk ∧ ids ≠ [] ∧ d.supportsFilters = true ∧
      v' = { v with idFilter := some (Filter.keysCondition d v.table pk ids), ids } := by
  rw [setIds] at h
  split at h
  · exact .inl (Except.ok.inj h).symm
  · next pk hpk =>
    split at h
    · exact .inl (Except.ok.inj h).symm
    · split at h
      · next sql hsql =>
        obtain ⟨hd, hids, rfl⟩ := Filter.equality_eq_ok.1 hsql
        exact .inr ⟨pk, hpk, hids, hd, (Except.ok.inj h).symm⟩
      · simp at h

/-- Keys are set where the table has a primary key. -/
theorem ids_of_setIds {d : Dialect} {v v' : View} {ids : List String} {pk : String}
    (hpk : v.primaryKey = some pk) (hne : ids ≠ []) (h : v.setIds d ids = .ok v') :
    v'.ids = ids := by
  have hsome : ids.isEmpty = false := by simpa using hne
  rw [setIds, hpk] at h
  dsimp only at h
  rw [hsome] at h
  cases hsql : Filter.equality d v.table pk ids with
  | error why => simp [hsql] at h
  | ok sql =>
    rw [hsql] at h
    obtain rfl := Except.ok.inj h
    rfl

/-- What adding a filter comes to, if it is taken. -/
theorem addFilter_eq_ok {d : Dialect} {v v' : View} {text : String}
    (h : v.addFilter d text = .ok v') :
    v' = v ∨ ∃ sql, sql ≠ "" ∧ v' = { v with filters := v.filters ++ [sql] } := by
  rw [addFilter] at h
  split at h
  · next sql _ =>
    obtain rfl := Except.ok.inj h
    rw [pushFilter]
    split
    · exact .inl rfl
    · next hne => exact .inr ⟨sql, by simpa using hne, rfl⟩
  · simp at h

end View

/-- **The setters that leave which rows and which columns are shown**, and say how. -/
def Setter.isShaping : Setter → Bool
  | .order _ | .page _ _ | .start _ | .length _ | .join _ | .group _ | .having _ => true
  | .ids _ | .filter _ | .columns _ | .exclude _ => false

theorem Setter.shaped_of_apply {d : Dialect} {v v' : View} {s : Setter}
    (hs : s.isShaping = true) (h : s.apply d v = .ok v') :
    ∃ joins groupBy having orderBy offset limit,
      v' = { v with joins, groupBy, having, orderBy, offset, limit } := by
  cases s with
  | order text | group text =>
    obtain rfl := Except.ok.inj h
    exact ⟨_, _, _, _, _, _, rfl⟩
  | page text defaultSize =>
    obtain rfl := Except.ok.inj h
    dsimp only [View.setPage]
    split <;> split <;> exact ⟨_, _, _, _, _, _, rfl⟩
  | start text =>
    obtain rfl := Except.ok.inj h
    rw [View.setStart]
    split <;> exact ⟨_, _, _, _, _, _, rfl⟩
  | length text =>
    obtain rfl := Except.ok.inj h
    rw [View.setLength]
    split <;> exact ⟨_, _, _, _, _, _, rfl⟩
  | join text =>
    dsimp only [Setter.apply, View.addJoin] at h
    split at h
    · simp at h
    · split at h
      · simp at h
      · obtain ⟨condition, -, h⟩ := bind_eq_ok.1 h
        obtain rfl := Except.ok.inj h
        exact ⟨_, _, _, _, _, _, rfl⟩
  | having text =>
    dsimp only [Setter.apply, View.setHaving] at h
    split at h
    · obtain rfl := Except.ok.inj h
      exact ⟨_, _, _, _, _, _, rfl⟩
    · simp at h
  | _ => simp [isShaping] at hs

namespace View

/-- The view before its first setter: it has a table, and how the table came into the request. -/
def bare (v : View) : View :=
  { database := v.database
    schema := v.schema
    role := v.role
    distinct := v.distinct
    relations := v.relations }

/-- The view after a call; one that is refused changes nothing. -/
def attempt (d : Dialect) (v : View) (s : Setter) : View :=
  match s.apply d v with
  | .ok v' => v'
  | .error _ => v

/-- **The view after calls in order.** -/
def run (d : Dialect) (v : View) (setters : List Setter) : View :=
  setters.foldl (attempt d) v

/-- What the setters that succeed keep holds after every call. -/
theorem attempt_keeps {d : Dialect} {P : View → Prop}
    (step : ∀ {v s v'}, P v → Setter.apply d v s = .ok v' → P v') {v : View} (h : P v)
    (s : Setter) : P (v.attempt d s) := by
  rw [attempt]
  split
  · next v' hv => exact step h hv
  · exact h

/-- **What the setters that succeed keep holds after every run.** -/
theorem run_keeps {d : Dialect} {P : View → Prop}
    (step : ∀ {v s v'}, P v → Setter.apply d v s = .ok v' → P v') {v : View} (h : P v)
    (setters : List Setter) : P (v.run d setters) := by
  induction setters generalizing v with
  | nil => exact h
  | cons s setters ih => exact ih (attempt_keeps step h s)

end View

end TableApi
