import TableApi.Proofs.Request.Coherent

/-!
# Requests for rows by key

The segment after a table's name says which of its rows a request is for, by their keys. Where the
first table of a path has a primary key, and the next segment names keys, the primary view of the
request is of that table, and it is for rows of these or of later keys (`addressed_of_ofParts`):
segments before the table are dropped, and nothing that comes later takes the keys away.
-/

namespace TableApi

variable {ctx : Context} {database : String} {schema : Table}

namespace View

/-- **A view of some rows of a table**, by their keys. -/
structure Addressed (database : String) (schema : Table) (v : View) : Prop where
  database_eq : v.database = database
  schema_eq : v.schema = schema
  ids : v.ids ≠ []

theorem Addressed.setIds {d : Dialect} {v v' : View} {ids : List String}
    (h : v.Addressed database schema) (hids : v.setIds d ids = .ok v') :
    v'.Addressed database schema := by
  rcases setIds_eq_ok hids with rfl | ⟨pk, -, hne, -, rfl⟩
  · exact h
  · exact ⟨h.database_eq, h.schema_eq, hne⟩

/-- Keys that are set on a view of a table with a primary key say which rows it is of. -/
theorem addressed_of_setIds {d : Dialect} {v v' : View} {ids : List String} {pk : String}
    (hpk : v.primaryKey = some pk) (hne : ids ≠ []) (h : v.setIds d ids = .ok v') :
    v'.Addressed v.database v.schema := by
  have hset : v'.ids ≠ [] := ids_of_setIds hpk hne h ▸ hne
  rcases setIds_eq_ok h with rfl | ⟨pk', -, -, -, rfl⟩
  · exact ⟨rfl, rfl, hset⟩
  · exact ⟨rfl, rfl, hne⟩

end View

namespace Request

/-! ## The first view -/

/-- The first of some views has a property. -/
def First (P : View → Prop) (views : List View) : Prop :=
  ∃ v ∈ views.head?, P v

variable {P : View → Prop} {views views' : List View}

theorem First.append (h : First P views) (more : List View) : First P (views ++ more) := by
  obtain ⟨v, hv, hP⟩ := h
  exact ⟨v, by simp [List.head?_append, Option.mem_def.1 hv], hP⟩

/-- A change of all views that keeps the property. -/
theorem First.map (h : First P views) {f : View → View} (hf : ∀ v, P v → P (f v)) :
    First P (views.map f) := by
  obtain ⟨v, hv, hP⟩ := h
  refine ⟨f v, ?_, hf v hP⟩
  rw [List.head?_map, Option.mem_def.1 hv]
  rfl

/-- A change of one view keeps what it keeps of that view. -/
theorem First.changeView (h : First P views) {i : Nat} {f : View → Except ApiError View}
    (hf : ∀ v v', P v → f v = .ok v' → P v')
    (hviews : Request.changeView views i f = .ok views') : First P views' := by
  obtain ⟨v, hv, hP⟩ := h
  rw [Request.changeView] at hviews
  split at hviews
  · next w hw =>
    obtain ⟨w', hw', rfl⟩ := map_eq_ok.1 hviews
    cases views with
    | nil => simp at hv
    | cons first rest =>
      obtain rfl : first = v := Option.some.inj hv
      cases i with
      | zero =>
        obtain rfl : first = w := Option.some.inj hw
        exact ⟨w', rfl, hf first w' hP hw'⟩
      | succ i => exact ⟨first, rfl, hP⟩
  · obtain rfl := Except.ok.inj hviews
    exact ⟨v, hv, hP⟩

theorem first_pathStep {s s' : PathState} {segment : String}
    (h : First (View.Addressed database schema) s.views)
    (hstep : pathStep ctx database s segment = .ok s') :
    First (View.Addressed database schema) s'.views := by
  rw [pathStep] at hstep
  split at hstep
  · split at hstep
    · obtain rfl := Except.ok.inj hstep
      exact h
    · obtain rfl := Except.ok.inj hstep
      exact h.append _
  · split at hstep
    · obtain ⟨views, hviews, rfl⟩ := map_eq_ok.1 hstep
      exact h.changeView (fun _ _ hv => hv.setIds) hviews
    · obtain rfl := Except.ok.inj hstep
      exact h

theorem first_includeTable {db entry : String} (h : First P views)
    (hstep : includeTable ctx db views entry = .ok views') : First P views' := by
  dsimp only [includeTable] at hstep
  split at hstep
  · obtain rfl := Except.ok.inj hstep
    exact h
  · split at hstep
    · obtain rfl := Except.ok.inj hstep
      exact h.append _
    · simp at hstep

/-- A parameter, where neither a link nor a parameter takes the property away. -/
theorem First.paramStep {keys : List String} {r r' : Request} {p : Param} (h : First P r.views)
    (hlink : ∀ v relations, P v → P { v with relations })
    (hparam : ∀ v v', P v → applyParam ctx.settings p v = .ok v' → P v')
    (hstep : Request.paramStep ctx keys r p = .ok r') : First P r'.views := by
  rw [Request.paramStep] at hstep
  split at hstep
  · obtain rfl := Except.ok.inj hstep
    exact h
  · split at hstep
    · obtain ⟨views, hviews, hstep⟩ := bind_eq_ok.1 hstep
      obtain rfl := Except.ok.inj hstep
      exact foldlM_ok (fun _ _ _ _ hvs hinclude => first_includeTable hvs hinclude) h hviews
    · split at hstep
      · obtain ⟨l, -, hstep⟩ := bind_eq_ok.1 hstep
        obtain rfl := Except.ok.inj hstep
        refine h.map fun v hv => ?_
        split
        · exact hlink v _ hv
        · exact hv
      · obtain ⟨i, -, hstep⟩ := bind_eq_ok.1 hstep
        obtain ⟨views, hviews, hstep⟩ := bind_eq_ok.1 hstep
        obtain rfl := Except.ok.inj hstep
        exact h.changeView hparam hviews

/-- The first view stays one of some rows of its table. -/
theorem first_paramStep {keys : List String} {r r' : Request} {p : Param}
    (h : First (View.Addressed database schema) r.views)
    (hstep : paramStep ctx keys r p = .ok r') :
    First (View.Addressed database schema) r'.views := by
  refine h.paramStep (fun v relations hv => ⟨hv.database_eq, hv.schema_eq, hv.ids⟩)
    (fun v v' hv hok => ?_) hstep
  have hsame := addressed_of_applyParam hok
  exact ⟨(congrArg View.database hsame :).trans hv.database_eq,
    (congrArg View.schema hsame :).trans hv.schema_eq,
    fun hnone => hv.ids ((congrArg View.ids hsame :).symm.trans hnone)⟩

/-! ## The path -/

/-- Segments before the first table are dropped. -/
theorem foldlM_pathStep_of_unknown {before : List String}
    (h : ∀ s ∈ before, ctx.catalog.table? database s = none) :
    before.foldlM (pathStep ctx database) {} = .ok {} := by
  induction before with
  | nil => rfl
  | cons s before ih =>
    obtain ⟨hs, hbefore⟩ := List.forall_mem_cons.1 h
    have hstep : pathStep ctx database {} s = .ok {} := by
      rw [pathStep, hs]
    rw [List.foldlM_cons, hstep]
    exact ih hbefore

/-- **The first table with a primary key, and keys after it.** -/
theorem first_of_foldlM_pathStep {before after : List String} {table segment pk : String}
    (hbefore : ∀ s ∈ before, ctx.catalog.table? database s = none)
    (htable : ctx.catalog.table? database table = some schema) (hkey : schema.primaryKey = some pk)
    (hsegment : ctx.catalog.table? database segment = none) (hids : idsOf segment ≠ [])
    {s : PathState}
    (h : (before ++ table :: segment :: after).foldlM (pathStep ctx database) {} = .ok s) :
    First (View.Addressed database schema) s.views := by
  let v : View := { database, schema, role := .primary }
  have hfirst : pathStep ctx database {} table = .ok ⟨[v], some 0⟩ := by
    rw [pathStep, htable]
    rfl
  rw [List.foldlM_append, foldlM_pathStep_of_unknown hbefore] at h
  change (table :: segment :: after).foldlM (pathStep ctx database) {} = .ok s at h
  rw [List.foldlM_cons, hfirst] at h
  change (segment :: after).foldlM (pathStep ctx database) ⟨[v], some 0⟩ = .ok s at h
  rw [List.foldlM_cons] at h
  obtain ⟨s', hs', h⟩ := bind_eq_ok.1 h
  refine foldlM_ok (P := fun s : PathState => First (View.Addressed database schema) s.views)
    (fun _ _ _ _ hs hstep => first_pathStep hs hstep) ?_ h
  rw [pathStep, hsegment] at hs'
  obtain ⟨views, hviews, rfl⟩ := map_eq_ok.1 hs'
  obtain ⟨v', hv', rfl⟩ := map_eq_ok.1 hviews
  exact ⟨v', rfl, View.addressed_of_setIds (v := v) hkey hids hv'⟩

/-- **The primary view of a request for rows by key.** -/
theorem addressed_of_ofParts {segments before after : List String} {params : List Param}
    {write : Bool} {r : Request} {table segment pk : String}
    (hpath : chooseDatabase ctx segments = (database, before ++ table :: segment :: after))
    (hbefore : ∀ s ∈ before, ctx.catalog.table? database s = none)
    (htable : ctx.catalog.table? database table = some schema) (hkey : schema.primaryKey = some pk)
    (hsegment : ctx.catalog.table? database segment = none) (hids : idsOf segment ≠ [])
    (h : ofParts ctx segments params write = .ok r) : r.primary.Addressed database schema := by
  rw [ofParts, hpath] at h
  obtain ⟨views, hviews, h⟩ := bind_eq_ok.1 h
  obtain ⟨s, hs, hviews⟩ := bind_eq_ok.1 hviews
  have hfirst := first_of_foldlM_pathStep hbefore htable hkey hsegment hids hs
  split at hviews
  · simp at hviews
  · obtain rfl := Except.ok.inj hviews
    obtain ⟨v, hv, haddressed⟩ := foldlM_ok
      (P := fun r : Request => First (View.Addressed database schema) r.views)
      (fun _ _ _ _ hr hstep => first_paramStep hr hstep) hfirst h
    rw [primary, List.headD_eq_head?_getD, Option.mem_def.1 hv]
    exact haddressed

end Request

end TableApi
