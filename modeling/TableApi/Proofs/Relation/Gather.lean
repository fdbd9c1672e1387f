import TableApi.Proofs.Relation.Nested

/-!
# One step of nesting

Up to the order of keys, a row is a map from keys to values, and a step changes a row of its target
in a way that depends on nothing else about the rows: the row receives (`Nesting.receive`) what the
rows of the other view give it (`Nesting.gift`). A step of the merge does that
(`unordered_received`), and so does one more step in the recursive definition
(`unordered_gather_append`).
-/

namespace TableApi.Relation

/-! ## Rows without the order of their keys -/

/-- The text under which a value meets others. -/
def meetingText? : Json.Unordered → Option String
  | .string s => some s
  | .number n => some n.text
  | .bool b => some (if b then "true" else "false")
  | .null | .array _ | .object _ => none

theorem joinKey?_eq (v : Json) : joinKey? v = meetingText? v.unordered := by
  cases v <;> simp [joinKey?, Json.unordered, meetingText?]

/-- The key of a row in a column. -/
def keyIn (row : String → Option Json.Unordered) (column : String) : Option String :=
  (row column).bind meetingText?

theorem rowKey?_eq (row : Row) (column : String) :
    rowKey? row column = keyIn row.unordered column := by
  rw [rowKey?, keyIn, Fields.unordered]
  cases row.get? column with
  | none => rfl
  | some v => exact joinKey?_eq v

namespace Nesting

variable {n : Nesting}

/-- What a row gets, without the order of keys. -/
def gift (n : Nesting) (rows : List (String → Option Json.Unordered))
    (row : String → Option Json.Unordered) : Option Json.Unordered :=
  (keyIn row n.column).bind fun key =>
    if n.intoChild then
      (rows.find? fun p => keyIn p n.link.parentColumn == some key).map .object
    else
      let found := rows.filter fun c => keyIn c n.link.childColumn == some key
      if found.isEmpty then none
      else some (.array (found.map fun c => .object (Function.update c n.link.childColumn none)))

/-- A row after it got something, without the order of keys. -/
def receive (n : Nesting) (got : Option Json.Unordered) (row : String → Option Json.Unordered) :
    String → Option Json.Unordered :=
  match got with
  | none => row
  | some v =>
    Function.update (if n.intoChild then Function.update row n.link.childColumn none else row)
      n.key (some v)

/-- A row is looked at in one column only. -/
theorem gift_congr {rows : List (String → Option Json.Unordered)}
    {row row' : String → Option Json.Unordered} (h : keyIn row n.column = keyIn row' n.column) :
    n.gift rows row = n.gift rows row' := by
  rw [gift, gift, h]

theorem unordered_gift? (n : Nesting) (rows : List Row) (row : Row) :
    (n.gift? rows row).map Json.unordered = n.gift (rows.map Fields.unordered) row.unordered := by
  rw [gift?, gift, rowKey?_eq]
  cases keyIn row.unordered n.column with
  | none => rfl
  | some key =>
    simp only [Option.bind_some, rowKey?_eq]
    cases n.intoChild with
    | true =>
      simp only [if_true, List.find?_map, Option.map_map]
      exact congrFun (congrArg Option.map (funext Json.unordered_object)) _
    | false =>
      simp only [Bool.false_eq_true, if_false, List.filter_map, List.isEmpty_map,
        Function.comp_def]
      split
      · rfl
      · simp only [Option.map_some, Json.unordered_array, List.map_map]
        refine congrArg (some ∘ Json.Unordered.array) (List.map_congr_left fun c _ => ?_)
        exact (Json.unordered_object _).trans (congrArg _ (Fields.unordered_filter_ne c _))

/-- What a row gets in the step. -/
def given? (n : Nesting) (rows : List Row) (row : Row) : Option Json :=
  (rowKey? row n.column).bind fun key =>
    if n.intoChild then
      (rows.find? fun p => rowKey? p n.link.parentColumn == some key).map .object
    else
      let found := childrenOf n.link rows key
      if found.isEmpty then none else some (.array found)

/-- It is what the row should get, up to the order of keys. -/
theorem unordered_given? {rows : List Row} (h : ∀ row ∈ rows, (Fields.keys row).Nodup)
    (row : Row) :
    (n.given? rows row).map Json.unordered = n.gift (rows.map Fields.unordered) row.unordered := by
  rw [← unordered_gift?, given?, gift?]
  cases rowKey? row n.column with
  | none => rfl
  | some key =>
    simp only [Option.bind_some]
    cases n.intoChild with
    | true => rfl
    | false =>
      simp only [Bool.false_eq_true, if_false, childrenOf, List.isEmpty_map]
      split
      · rfl
      · simp only [Option.map_some, Json.unordered_array, List.map_map]
        refine congrArg (some ∘ Json.Unordered.array) (List.map_congr_left fun c hc => ?_)
        have hnodup := h c (List.mem_filter.1 hc).1
        simp only [Function.comp_apply, Json.unordered_object, Fields.unordered_erase hnodup,
          Fields.unordered_filter_ne]

/-- A row of the target after the step. -/
def received (n : Nesting) (rows : List Row) (row : Row) : Row :=
  match n.given? rows row with
  | none => row
  | some v => (if n.intoChild then row.erase n.link.childColumn else row).insert n.key v

/-- **A step changes row by row.** -/
theorem attach_eq (n : Nesting) (results : List (List Row)) :
    n.attach results = (rowsOf results n.target).map (n.received (rowsOf results n.source)) := by
  rw [attach]
  change (if n.intoChild then
      attachParent n.link (rowsOf results n.parent) (rowsOf results n.child)
    else attachChildren n.link (rowsOf results n.parent) (rowsOf results n.child)) = _
  cases hinto : n.intoChild with
  | true =>
    simp only [target, source, hinto, if_true, attachParent]
    refine List.map_congr_left fun row _ => ?_
    simp only [received, given?, column, key, hinto, if_true]
    cases rowKey? row n.link.childColumn with
    | none => rfl
    | some key =>
      simp only [Option.bind_some]
      cases (rowsOf results n.parent).find? _ <;> rfl
  | false =>
    simp only [target, source, hinto, Bool.false_eq_true, if_false, attachChildren]
    refine List.map_congr_left fun row _ => ?_
    simp only [received, given?, column, key, hinto, Bool.false_eq_true, if_false]
    cases rowKey? row n.link.parentColumn with
    | none => rfl
    | some key =>
      simp only [Option.bind_some]
      split <;> rfl

/-- The row after the step, without the order of keys. -/
theorem unordered_received {rows : List Row} {row : Row} (h : (Fields.keys row).Nodup) :
    (n.received rows row).unordered =
      n.receive ((n.given? rows row).map Json.unordered) row.unordered := by
  rw [received]
  cases n.given? rows row with
  | none => rfl
  | some v =>
    dsimp only [receive, Option.map_some]
    rw [Fields.unordered_insert]
    cases n.intoChild with
    | true => simp [Fields.unordered_erase h]
    | false => simp

theorem nodup_received {rows : List Row} {row : Row} (h : (Fields.keys row).Nodup) :
    (Fields.keys (n.received rows row)).Nodup := by
  rw [received]
  split
  · exact h
  · refine Fields.nodup_keys_insert ?_ _ _
    split
    · exact Fields.nodup_keys_erase h _
    · exact h

end Nesting

/-! ## What a row gets, one step after the other -/

section Gather

variable {steps done : List Nesting} {complete : Nat → List Row} {n : Nesting} {i : Nat} {row : Row}

/-- The keys of what a row gets are those of steps into its view. -/
theorem exists_of_mem_gifts {got : Nesting × Json} (h : got ∈ gifts steps complete i row) :
    got.1 ∈ steps ∧ got.1.target = i := by
  obtain ⟨m, hm, hgot⟩ := List.mem_filterMap.1 h
  obtain ⟨v, -, rfl⟩ := Option.map_eq_some_iff.1 hgot
  simpa using List.mem_filter.1 hm

/-- What stands under a key once the row got everything. -/
theorem unordered_gather (steps : List Nesting) (complete : Nat → List Row) (i : Nat) (row : Row)
    (key : String) :
    (gather steps complete i row).unordered key =
      ((if keeps (gifts steps complete i row) key then row.get? key else none).or
        (Fields.get? ((gifts steps complete i row).map fun (n, v) => (n.key, v)) key)).map
          Json.unordered := by
  rw [gather, Fields.unordered, Fields.get?_append, Fields.get?_filter]

theorem get?_gifts_eq_none {key : String}
    (h : ∀ m ∈ steps, m.target = i → m.key ≠ key) :
    Fields.get? ((gifts steps complete i row).map fun (n, v) => (n.key, v)) key = none := by
  refine Fields.get?_eq_none fun hmem => ?_
  rw [Fields.keys, List.map_map] at hmem
  obtain ⟨got, hgot, rfl⟩ := List.mem_map.1 hmem
  obtain ⟨hm, htarget⟩ := exists_of_mem_gifts hgot
  exact h got.1 hm htarget rfl

/-- A column that no step into the view takes away is kept. -/
theorem keeps_gifts {column : String}
    (h : ∀ m ∈ steps, m.target = i → m.intoChild = true → m.link.childColumn ≠ column) :
    keeps (gifts steps complete i row) column = true := by
  refine List.all_eq_true.2 fun got hgot => ?_
  obtain ⟨hm, htarget⟩ := exists_of_mem_gifts hgot
  by_cases hinto : got.1.intoChild = true
  · simp [h got.1 hm htarget hinto]
  · simp [hinto]

/-- A row still has the key by which a later step looks at it. -/
theorem keyIn_gather (hkeys : ∀ m ∈ steps, m.target = i → m.key ≠ n.column)
    (hkept : ∀ m ∈ steps, m.target = i → m.intoChild = true → m.link.childColumn ≠ n.column) :
    keyIn (gather steps complete i row).unordered n.column = keyIn row.unordered n.column := by
  rw [keyIn, keyIn, unordered_gather, get?_gifts_eq_none hkeys, keeps_gifts hkept]
  simp [Fields.unordered]

/-- A step into another view gives nothing. -/
theorem gather_append_of_ne (h : n.target ≠ i) :
    gather (done ++ [n]) complete i row = gather done complete i row := by
  have hgifts : gifts (done ++ [n]) complete i row = gifts done complete i row := by
    simp [gifts, List.filter_append, h]
  rw [gather, gather, hgifts]

/-- **One more step into the view**, as the row receives it. -/
theorem unordered_gather_append (hrow : n.key ∉ Fields.keys row)
    (hkeys : ∀ m ∈ done, m.target = n.target → m.key ≠ n.key)
    (hcolumn : ∀ m ∈ done, m.target = n.target → m.key ≠ n.link.childColumn) :
    (gather (done ++ [n]) complete n.target row).unordered =
      n.receive (n.gift ((complete n.source).map Fields.unordered) row.unordered)
        (gather done complete n.target row).unordered := by
  rw [← Nesting.unordered_gift?]
  funext key
  cases hgift : n.gift? (complete n.source) row with
  | none =>
    have hgifts : gifts (done ++ [n]) complete n.target row = gifts done complete n.target row := by
      simp [gifts, List.filter_append, hgift]
    rw [unordered_gather, hgifts, ← unordered_gather]
    rfl
  | some v =>
    have hgifts : gifts (done ++ [n]) complete n.target row =
        gifts done complete n.target row ++ [(n, v)] := by
      simp [gifts, List.filter_append, hgift]
    have hlast : Fields.get? ([(n, v)].map fun (n, v) => (n.key, v)) key =
        if key = n.key then some v else none := by
      rw [List.map_singleton, Fields.get?_cons]
      rfl
    rw [unordered_gather, hgifts, List.map_append, Fields.get?_append, hlast]
    dsimp only [Option.map_some, Nesting.receive]
    rw [Function.update_apply]
    by_cases hkey : key = n.key
    · rw [if_pos hkey, if_pos hkey, hkey, get?_gifts_eq_none hkeys, Fields.get?_eq_none hrow,
        ite_self]
      rfl
    · -- the last step can only take the reference away
      have hkeeps : keeps (gifts done complete n.target row ++ [(n, v)]) key =
          (keeps (gifts done complete n.target row) key &&
            (!n.intoChild || n.link.childColumn != key)) := by
        simp [keeps]
      rw [if_neg hkey, if_neg hkey, Option.or_none, hkeeps]
      cases hinto : n.intoChild with
      | false =>
        simp only [Bool.not_false, Bool.true_or, Bool.and_true, Bool.false_eq_true, if_false]
        rw [← unordered_gather]
      | true =>
        rw [if_pos rfl, Function.update_apply]
        by_cases hlost : key = n.link.childColumn
        · rw [if_pos hlost, hlost, get?_gifts_eq_none hcolumn]
          simp
        · have hstays : (n.link.childColumn != key) = true := by simpa using Ne.symm hlost
          rw [if_neg hlost, hstays, Bool.or_true, Bool.and_true, ← unordered_gather]

/-- The order of the steps into a view does not matter. -/
theorem unordered_gather_perm (hnodup : (Fields.keys (gather done complete i row)).Nodup)
    (hperm : (done.filter (·.target = i)).Perm (steps.filter (·.target = i))) :
    (gather done complete i row).unordered = (gather steps complete i row).unordered := by
  have hgifts : (gifts done complete i row).Perm (gifts steps complete i row) :=
    hperm.filterMap _
  have hkeeps : keeps (gifts done complete i row) = keeps (gifts steps complete i row) := by
    funext column
    exact hgifts.all_eq
  refine Fields.unordered_perm hnodup ?_
  rw [gather, gather, hkeeps]
  exact (List.Perm.refl _).append (hgifts.map _)

end Gather

end TableApi.Relation
