import TableApi.Proofs.Filter.Compiled
import TableApi.Proofs.View.Setters

/-!
# The condition of a view

A view's condition has sources: the last keys that were set, and every filter that was added and
compiled to something (`sources`, read off the calls alone). Each source is confined to parentheses
of its own: cut at depth zero, the condition is one block for each source, with ` AND ` between
them, and the content of a block is the SQL of its source.

* What one call does to the two fields that conditions come from is `attempt_sources`; over a run it
  adds up to `run_sources`.
* That a source cannot leave its block is `pieces_conjunction`, for any fragments.
-/

namespace TableApi.View

open Sql

variable {d : Dialect}

/-! ## Sources -/

/-- The condition on keys that a call sets, if it sets one. -/
def keyCondition? (d : Dialect) (t : Table) : Setter → Option String
  | .ids keys =>
    t.primaryKey.bind fun pk =>
      if keys.isEmpty then none else (Filter.equality d t.name pk keys).toOption
  | _ => none

/-- The condition that a call adds, if it adds one. -/
def freeCondition? (d : Dialect) : Setter → Option String
  | .filter text => (Filter.compile d text).toOption.bind nonempty?
  | _ => none

/-- **The sources of a condition**, in the order of their blocks: the keys that were set last, then
the filters in the order of their calls. -/
def sources (d : Dialect) (t : Table) (setters : List Setter) : List String :=
  (setters.filterMap (keyCondition? d t)).getLast?.toList ++ setters.filterMap (freeCondition? d)

/-- The two views agree on what conditions come from. -/
structure SameSources (v v' : View) : Prop where
  schema : v'.schema = v.schema
  idFilter : v'.idFilter = v.idFilter
  filters : v'.filters = v.filters

/-- Setters of other things leave the sources. -/
theorem sameSources_of_apply {v v' : View} {s : Setter} (h : s.apply d v = .ok v')
    (hids : ∀ keys, s ≠ .ids keys) (hfilter : ∀ text, s ≠ .filter text) : SameSources v v' := by
  cases s with
  | ids keys => exact absurd rfl (hids keys)
  | filter text => exact absurd rfl (hfilter text)
  | columns text | exclude text =>
    obtain rfl := Except.ok.inj h
    exact ⟨rfl, rfl, rfl⟩
  | _ =>
    obtain ⟨joins, groupBy, having, orderBy, offset, limit, rfl⟩ := Setter.shaped_of_apply rfl h
    exact ⟨rfl, rfl, rfl⟩

/-- A call of such a setter leaves them, whether it is refused or not. -/
theorem sameSources_attempt {v : View} {s : Setter} (hids : ∀ keys, s ≠ .ids keys)
    (hfilter : ∀ text, s ≠ .filter text) : SameSources v (v.attempt d s) := by
  rw [attempt]
  split
  · next v' hv => exact sameSources_of_apply hv hids hfilter
  · exact ⟨rfl, rfl, rfl⟩

/-- **One call** sets the keys, or adds a condition, or leaves both. -/
theorem attempt_sources (d : Dialect) (v : View) (s : Setter) :
    (v.attempt d s).schema = v.schema ∧
      (v.attempt d s).idFilter = (keyCondition? d v.schema s).or v.idFilter ∧
      (v.attempt d s).filters = v.filters ++ (freeCondition? d s).toList := by
  -- nine of the setters are one case: they touch neither field
  have hother (hids : ∀ keys, s ≠ .ids keys) (hfilter : ∀ text, s ≠ .filter text) :
      (v.attempt d s).schema = v.schema ∧
        (v.attempt d s).idFilter = (keyCondition? d v.schema s).or v.idFilter ∧
        (v.attempt d s).filters = v.filters ++ (freeCondition? d s).toList := by
    obtain ⟨hschema, hid, hfilters⟩ := sameSources_attempt (d := d) (v := v) hids hfilter
    have hkey : keyCondition? d v.schema s = none := by
      dsimp only [keyCondition?]
      split
      · exact absurd rfl (hids _)
      · rfl
    have hfree : freeCondition? d s = none := by
      dsimp only [freeCondition?]
      split
      · exact absurd rfl (hfilter _)
      · rfl
    simp [hschema, hid, hfilters, hkey, hfree]
  cases s with
  | ids keys =>
    simp only [attempt, Setter.apply, setIds, keyCondition?, freeCondition?, primaryKey, table]
    cases hpk : v.schema.primaryKey with
    | none => simp [pure, Except.pure]
    | some pk =>
      by_cases hkeys : keys.isEmpty
      · simp [hkeys, pure, Except.pure]
      · cases heq : Filter.equality d v.schema.name pk keys <;>
          simp [hkeys, heq, pure, Except.pure, Except.toOption]
  | filter text =>
    simp only [attempt, Setter.apply, addFilter, keyCondition?, freeCondition?]
    cases hsql : Filter.compile d text with
    | error e => simp [Except.toOption]
    | ok sql =>
      by_cases hempty : sql.isEmpty <;>
        simp [pushFilter, nonempty?, hempty, pure, Except.pure, Except.toOption]
  | _ => exact hother (by simp) (by simp)

/-- **A run** sets the keys that were set last, and adds the conditions in order. -/
theorem run_sources (d : Dialect) (v : View) (setters : List Setter) :
    (v.run d setters).idFilter =
        (setters.filterMap (keyCondition? d v.schema)).getLast?.or v.idFilter ∧
      (v.run d setters).filters = v.filters ++ setters.filterMap (freeCondition? d) := by
  induction setters generalizing v with
  | nil => simp [run]
  | cons s setters ih =>
    obtain ⟨hschema, hid, hfilters⟩ := attempt_sources d v s
    obtain ⟨hids, hrest⟩ := ih (v.attempt d s)
    rw [hschema, hid] at hids
    rw [hfilters] at hrest
    refine ⟨?_, ?_⟩
    · rw [run, List.foldl_cons, ← run, hids]
      cases hkey : keyCondition? d v.schema s with
      | none => simp [hkey]
      | some sql =>
        -- a later call wins, and this one stands if there is none
        rw [List.filterMap_cons_some hkey, List.getLast?_cons]
        cases (setters.filterMap (keyCondition? d v.schema)).getLast? <;> rfl
    · rw [run, List.foldl_cons, ← run, hrest]
      cases hfree : freeCondition? d s <;> simp [hfree]

/-- Every source is a fragment, and none is empty. -/
theorem fragment_of_mem_sources {t : Table} {setters : List Setter} {sql : String}
    (h : sql ∈ sources d t setters) : Fragment d sql.toList ∧ sql ≠ "" := by
  rcases List.mem_append.1 h with hkey | hfree
  · have hmem := List.mem_of_getLast? (Option.mem_toList.1 hkey)
    obtain ⟨s, -, hs⟩ := List.mem_filterMap.1 hmem
    cases s with
    | ids keys =>
      obtain ⟨pk, -, heq⟩ := Option.bind_eq_some_iff.1 hs
      split at heq
      · simp at heq
      · have hok := toOption_eq_some.1 heq
        exact ⟨Filter.fragment_equality hok, Filter.equality_ne_empty hok⟩
    | _ => simp [keyCondition?] at hs
  · obtain ⟨s, -, hs⟩ := List.mem_filterMap.1 hfree
    cases s with
    | filter text =>
      obtain ⟨sql', hsql, hne⟩ := Option.bind_eq_some_iff.1 hs
      have hok := toOption_eq_some.1 hsql
      rw [nonempty?] at hne
      split at hne
      · simp at hne
      · next hempty =>
        obtain rfl := Option.some.inj hne
        refine ⟨Filter.fragment_compileAs hok, ?_⟩
        rintro rfl
        exact hempty rfl
    | _ => simp [freeCondition?] at hs

/-! ## Blocks -/

/-- Parts in parentheses with ` AND ` between them. -/
def conjunctionText (parts : List String) : List Char :=
  ("(" ++ ") AND (".intercalate parts ++ ")").toList

@[simp] theorem conjunctionText_singleton (p : String) :
    conjunctionText [p] = '(' :: (p.toList ++ [')']) := by
  simp [conjunctionText]

@[simp] theorem conjunctionText_cons_cons (p q : String) (ps : List String) :
    conjunctionText (p :: q :: ps) =
      '(' :: (p.toList ++ ')' :: (" AND ".toList ++ conjunctionText (q :: ps))) := by
  simp [conjunctionText, String.intercalate_cons_cons]

/-- The marks of a conjunction are cut into its parts, whatever is held before. -/
theorem cut_conjunction {parts : List String} (hne : parts ≠ [])
    (h : ∀ p ∈ parts, Fragment d p.toList) :
    ∃ ms, marks? d .code (conjunctionText parts) = some ms ∧ ∀ held, cut? 0 held ms =
      some (barePiece held ++ (parts.map .block).intersperse (.bare " AND ")) := by
  induction parts with
  | nil => exact absurd rfl hne
  | cons p parts ih =>
    obtain ⟨hp, hparts⟩ := List.forall_mem_cons.1 h
    obtain ⟨ps, hps, hbalanced⟩ := hp.balanced
    have hcontent : String.ofList (ps.map Mark.char) = p := by
      rw [map_char_marks hps, String.ofList_toList]
    cases parts with
    | nil =>
      refine ⟨.code '(' :: (ps ++ [.code ')']), ?_, fun held => ?_⟩
      · rw [conjunctionText_singleton, marks?_block hps]
        rfl
      · rw [cut?_block hbalanced, hcontent]
        rfl
    | cons q parts =>
      obtain ⟨ms, hms, hcut⟩ := ih (List.cons_ne_nil q parts) hparts
      have hand : ∀ c ∈ " AND ".toList, c ∉ quoteSigns := by decide
      -- after the first block ` AND ` is held until the next one opens
      refine ⟨.code '(' :: (ps ++ .code ')' :: (" AND ".toList.map .code ++ ms)), ?_,
        fun held => ?_⟩
      · rw [conjunctionText_cons_cons, marks?_block hps, marks?_plain_append d hand, hms]
        rfl
      · have hplain : ∀ m ∈ " AND ".toList.map Mark.code, m ≠ .code '(' ∧ m ≠ .code ')' := by
          decide
        rw [cut?_block hbalanced, cut?_bare hplain, hcut, hcontent]
        rfl

/-- **Each part of a conjunction is one block**, whatever fragments the parts are. -/
theorem pieces_conjunction {parts : List String} (hne : parts ≠ [])
    (h : ∀ p ∈ parts, Fragment d p.toList) :
    pieces? d ("(" ++ ") AND (".intercalate parts ++ ")") =
      some ((parts.map .block).intersperse (.bare " AND ")) := by
  obtain ⟨ms, hms, hcut⟩ := cut_conjunction hne h
  rw [pieces?, ← conjunctionText, hms, Option.bind_some, hcut]
  rfl

/-! ## Whole conditions -/

/-- The conditions of a view are the sources of its run. -/
theorem conditions_run (d : Dialect) (v : View) (setters : List Setter) :
    (v.bare.run d setters).conditions = sources d v.schema setters := by
  obtain ⟨hid, hfilters⟩ := run_sources d v.bare setters
  have hnonempty : ∀ sql ∈ sources d v.schema setters, (!sql.isEmpty) = true := by
    intro sql hsql
    simpa using (fragment_of_mem_sources hsql).2
  have hparts : (v.bare.run d setters).idFilter.toList ++ (v.bare.run d setters).filters =
      sources d v.schema setters := by
    rw [hid, hfilters]
    simp [bare, sources]
  rw [conditions, hparts, List.filter_eq_self.2 hnonempty]

/-- **A view's condition is one block for each source**, with ` AND ` between them. -/
theorem pieces_whereClause (d : Dialect) (v : View) (setters : List Setter) :
    (v.bare.run d setters).whereClause?.map (pieces? d) =
      if sources d v.schema setters = [] then none
      else some (some (((sources d v.schema setters).map .block).intersperse (.bare " AND "))) := by
  rw [whereClause?, conditions_run, conjunction?]
  by_cases hnone : sources d v.schema setters = []
  · simp [hnone]
  · have hpieces := pieces_conjunction hnone fun p hp => (fragment_of_mem_sources hp).1
    simp [hnone, hpieces]

end TableApi.View
