import TableApi.Proofs.Reorder
import TableApi.Proofs.Request.Addressed

/-!
# Parameters in another order

The order of parameters in a query string matters only within one key and one view: parameters are
ranked before they are taken in, and those for different views change different views. So two query
strings with the same parameters come to the same request, or both fail, if the `include` parameters
have the same order in both, and so have the `relation` parameters and, for each view, those of one
rank (`SameOrder`, `parse_reordered`).

Failures are in this too: whether a parameter is refused depends on no view but its own.
-/

namespace TableApi

namespace Request

variable {ctx : Context} {settings : Settings} {keys : List String} {home : Option String}
  {params params' : List Param} {p q : Param} {r : Request}

/-! ## Which order matters -/

/-- The table of the first view of a path. -/
def home? (ctx : Context) (segments : List String) : Option String :=
  let (database, rest) := chooseDatabase ctx segments
  (pathViews ctx database rest).toOption.bind fun views => views.head?.map View.table

/-- The table whose view a parameter is meant for: without a target, the one of the first view. -/
def tableFor (home : Option String) (p : Param) : Option String :=
  p.target.or home

/-- **The same parameters**, each in the same place among those for which the order matters. -/
structure SameOrder (home : Option String) (params params' : List Param) : Prop where
  perm : params.Perm params'
  includes : params.filter (·.key = "include") = params'.filter (·.key = "include")
  relations : params.filter (·.key = "relation") = params'.filter (·.key = "relation")
  /-- For each view those of one rank, which is one rank for `filter` and `where`, and one for each
  other key that requests know. -/
  views : ∀ key ∈ Query.readKeys, ∀ table,
    params.filter (fun p => rank p.key = rank key ∧ tableFor home p = table) =
      params'.filter (fun p => rank p.key = rank key ∧ tableFor home p = table)

/-- The parameter is about a table's view, or about all views. -/
def concerns (home table : Option String) (p : Param) : Bool :=
  Query.readKeys.contains p.key &&
    (p.key = "include" || p.key = "relation" || tableFor home p = table)

/-! ## Parameters by rank -/

/-- A key that no request knows comes last. -/
theorem rank_of_unknown {key : String} (h : key ∉ Query.readKeys) : rank key = 13 := by
  unfold rank
  split <;> first | rfl | exact absurd (by decide) h

theorem rank_ne_of_known {key : String} (h : key ∈ Query.readKeys) : rank key ≠ 13 :=
  (by decide : ∀ key ∈ Query.readKeys, rank key ≠ 13) key h

/-- Every key but `filter` and `where` has a rank of its own. -/
theorem eq_of_rank_eq {key special : String} (hspecial : special ∈ Query.readKeys)
    (hfilter : special ≠ "filter" ∧ special ≠ "where") (hrank : rank key = rank special) :
    key = special := by
  have hknown : key ∈ Query.readKeys := by
    by_contra hunknown
    exact rank_ne_of_known hspecial (hrank ▸ rank_of_unknown hunknown)
  have hall : ∀ special ∈ Query.readKeys, special ≠ "filter" ∧ special ≠ "where" →
      ∀ key ∈ Query.readKeys, rank key = rank special → key = special := by decide
  exact hall special hspecial hfilter key hknown hrank

/-- Of the ranks of `include` and `relation`, all parameters concern every view. -/
theorem filter_concerns_of_special {special : String}
    (hspecial : special = "include" ∨ special = "relation") (table : Option String)
    (params : List Param) :
    (params.filter (rank ·.key = rank special)).filter (concerns home table) =
      params.filter (·.key = special) := by
  have hknown : special ∈ Query.readKeys := by rcases hspecial with rfl | rfl <;> decide
  rw [List.filter_filter]
  refine List.filter_congr fun p _ => Bool.eq_iff_iff.2 ?_
  simp only [Bool.and_eq_true, decide_eq_true_eq]
  have hfilter : special ≠ "filter" ∧ special ≠ "where" := by
    rcases hspecial with rfl | rfl <;> decide
  constructor
  · rintro ⟨-, hrank⟩
    exact eq_of_rank_eq hknown hfilter hrank
  · intro hkey
    refine ⟨?_, congrArg rank hkey⟩
    rw [concerns, hkey, List.contains_iff_mem.2 hknown]
    rcases hspecial with rfl | rfl <;> simp

/-- Of any other rank, those that are meant for it concern a view. -/
theorem filter_concerns_of_rank {key : String} (hkey : key ∈ Query.readKeys)
    (hspecial : rank key ≠ rank "include" ∧ rank key ≠ rank "relation") (table : Option String)
    (params : List Param) :
    (params.filter (rank ·.key = rank key)).filter (concerns home table) =
      params.filter fun p => rank p.key = rank key ∧ tableFor home p = table := by
  rw [List.filter_filter]
  refine List.filter_congr fun p _ => Bool.eq_iff_iff.2 ?_
  simp only [Bool.and_eq_true, decide_eq_true_eq]
  rw [and_comm]
  refine and_congr_right fun hrank => ?_
  have hknown : p.key ∈ Query.readKeys := by
    by_contra hunknown
    exact rank_ne_of_known hkey (hrank ▸ rank_of_unknown hunknown)
  have hinclude : p.key ≠ "include" := fun h => hspecial.1 (h ▸ hrank.symm)
  have hrelation : p.key ≠ "relation" := fun h => hspecial.2 (h ▸ hrank.symm)
  simp [concerns, hknown, hinclude, hrelation]

/-- **What concerns a view has the same order within each rank.** -/
theorem SameOrder.filter_rank (h : SameOrder home params params') (table : Option String)
    (k : Nat) :
    (params.filter (rank ·.key = k)).filter (concerns home table) =
      (params'.filter (rank ·.key = k)).filter (concerns home table) := by
  by_cases hinclude : k = rank "include"
  · subst hinclude
    rw [filter_concerns_of_special (.inl rfl), filter_concerns_of_special (.inl rfl), h.includes]
  by_cases hrelation : k = rank "relation"
  · subst hrelation
    rw [filter_concerns_of_special (.inr rfl), filter_concerns_of_special (.inr rfl), h.relations]
  by_cases hrank : ∃ key ∈ Query.readKeys, rank key = k
  · obtain ⟨key, hkey, rfl⟩ := hrank
    rw [filter_concerns_of_rank hkey ⟨hinclude, hrelation⟩,
      filter_concerns_of_rank hkey ⟨hinclude, hrelation⟩, h.views key hkey]
  · -- what no request knows concerns no view
    have hnone : ∀ params : List Param,
        (params.filter (rank ·.key = k)).filter (concerns home table) = [] := by
      intro params
      refine List.filter_eq_nil_iff.2 fun p hp hconcerns => hrank ⟨p.key, ?_, ?_⟩
      · simpa using (Bool.and_eq_true_iff.1 hconcerns).1
      · simpa using (List.mem_filter.1 hp).2
    rw [hnone, hnone]

/-- **So it has the same order once the parameters are ranked.** -/
theorem SameOrder.filter_ranked (h : SameOrder home params params') (table : Option String) :
    (ranked params).filter (concerns home table) =
      (ranked params').filter (concerns home table) := by
  have hranks : ∀ (params : List Param) (k : Nat),
      ((ranked params).filter (concerns home table)).filter (rank ·.key = k) =
        (params.filter (rank ·.key = k)).filter (concerns home table) := by
    intro params k
    rw [← filter_mergeSort (fun p : Param => rank p.key) params k, List.filter_filter,
      List.filter_filter]
    simp only [Bool.and_comm]
    rfl
  refine eq_of_filter_rank (fun p => rank p.key) ((ranked_pairwise params).filter _)
    ((ranked_pairwise params').filter _) fun k => ?_
  rw [hranks, hranks, h.filter_rank]

/-! ## One view changed -/

/-- The first view of a table changed, if there is one and it can be. -/
def changeOf (table : Option String) (f : View → Option View) : List View → Option (List View)
  | [] => none
  | v :: views =>
    if some v.table = table then (f v).map (· :: views) else (changeOf table f views).map (v :: ·)

section Change

variable {t t' : Option String} {f g : View → Option View} {v : View} {views : List View}

theorem changeOf_cons_of_eq (h : some v.table = t) :
    changeOf t f (v :: views) = (f v).map (· :: views) :=
  if_pos h

theorem changeOf_cons_of_ne (h : some v.table ≠ t) :
    changeOf t f (v :: views) = (changeOf t f views).map (v :: ·) :=
  if_neg h

/-- A view of another table is passed over by both of two changes. -/
theorem changeOf_bind_cons (h : some v.table ≠ t) (h' : some v.table ≠ t') :
    (changeOf t f (v :: views)).bind (changeOf t' g) =
      ((changeOf t f views).bind (changeOf t' g)).map (v :: ·) := by
  rw [changeOf_cons_of_ne h]
  cases changeOf t f views with
  | none => rfl
  | some views' => exact changeOf_cons_of_ne h'

/-- A view of the first of two tables: the change of the other table passes over it, changed or
not. -/
theorem changeOf_comm_cons (hf : ∀ v v', f v = some v' → v'.table = v.table)
    (h : some v.table = t) (h' : some v.table ≠ t') :
    (changeOf t f (v :: views)).bind (changeOf t' g) =
      (changeOf t' g (v :: views)).bind (changeOf t f) := by
  rw [changeOf_cons_of_eq h, changeOf_cons_of_ne h']
  cases hv : f v with
  | none =>
    cases changeOf t' g views with
    | none => rfl
    | some views' => simp [changeOf_cons_of_eq h, hv]
  | some v' =>
    have hpassed : some v'.table ≠ t' := hf v v' hv ▸ h'
    cases hviews : changeOf t' g views with
    | none => simp [changeOf_cons_of_ne hpassed, hviews]
    | some views' => simp [changeOf_cons_of_ne hpassed, changeOf_cons_of_eq h, hv, hviews]

/-- **Changes of the views of two tables** may change places, if they keep the tables. -/
theorem changeOf_comm (hne : t ≠ t') (hf : ∀ v v', f v = some v' → v'.table = v.table)
    (hg : ∀ v v', g v = some v' → v'.table = v.table) (views : List View) :
    (changeOf t f views).bind (changeOf t' g) = (changeOf t' g views).bind (changeOf t f) := by
  induction views with
  | nil => rfl
  | cons v views ih =>
    by_cases h : some v.table = t
    · exact changeOf_comm_cons hf h fun h' => hne (h.symm.trans h')
    · by_cases h' : some v.table = t'
      · exact (changeOf_comm_cons hg h' h).symm
      · rw [changeOf_bind_cons h h', changeOf_bind_cons h' h, ih]

end Change

/-- A change at an index after the first. -/
theorem changeView_cons_succ (v : View) (views : List View) (i : Nat)
    (f : View → Except ApiError View) :
    changeView (v :: views) (i + 1) f = (changeView views i f).map (v :: ·) := by
  rw [changeView, changeView, List.getElem?_cons_succ]
  cases views[i]? with
  | none => rfl
  | some w =>
    dsimp only
    cases f w <;> rfl

/-- What is changed is the first view of the table that is asked for. -/
theorem changeView_findIdx? (table : String) (f : View → Except ApiError View)
    (views : List View) :
    ((views.findIdx? (·.table = table)).bind fun i => (changeView views i f).toOption) =
      changeOf (some table) (fun v => (f v).toOption) views := by
  induction views with
  | nil => rfl
  | cons v views ih =>
    rw [List.findIdx?_cons]
    by_cases h : v.table = table
    · rw [changeOf_cons_of_eq (congrArg some h), if_pos (by simpa using h)]
      cases hv : f v <;> simp [changeView, hv, Except.map, Except.toOption]
    · rw [changeOf_cons_of_ne (by simpa using h), if_neg (by simpa using h), ← ih]
      cases views.findIdx? (·.table = table) with
      | none => rfl
      | some i =>
        simp only [Option.map_some, Option.bind_some, changeView_cons_succ]
        cases changeView views i f <;> rfl

/-- **A parameter's view** is the first one of the table that the parameter is meant for. -/
theorem changeView_targetIndex (hviews : First (fun v => home = some v.table) r.views) (p : Param)
    (f : View → Except ApiError View) :
    ((targetIndex r.views p).toOption.bind fun i => (changeView r.views i f).toOption) =
      changeOf (tableFor home p) (fun v => (f v).toOption) r.views := by
  rw [targetIndex, tableFor]
  cases p.target with
  | none =>
    obtain ⟨v, hv, rfl⟩ := hviews
    obtain ⟨views, hcons⟩ := List.head?_eq_some_iff.1 hv
    rw [hcons, Option.none_or, changeOf_cons_of_eq rfl]
    cases hfv : f v <;> simp [changeView, hfv, Except.map, Except.toOption]
  | some table =>
    rw [Option.some_or, ← changeView_findIdx?]
    dsimp only
    cases r.views.findIdx? (·.table = table) <;> rfl

/-! ## Parameters one after the other -/

/-- A request without the parameters that mean nothing to it. -/
def core (r : Request) : Request :=
  { r with passthrough := [] }

/-- A parameter taken in, if it is not refused. -/
def coreStep (ctx : Context) (keys : List String) (r : Request) (p : Param) : Option Request :=
  (paramStep ctx keys r p).toOption.map core

/-- What means nothing to a request does not matter to it. -/
@[simp] theorem coreStep_core (r : Request) (p : Param) :
    coreStep ctx keys r.core p = coreStep ctx keys r p := by
  have hdatabase : r.core.database = r.database := rfl
  have hviews : r.core.views = r.views := rfl
  rw [coreStep, coreStep, paramStep, paramStep, hdatabase, hviews]
  split
  · rfl
  split
  · cases (Text.entries p.value).foldlM (includeTable ctx r.database) r.views <;> rfl
  split
  · cases linkOf r.views p.value <;> rfl
  · rw [toOption_bind, toOption_bind, Option.map_bind, Option.map_bind]
    refine Option.bind_congr fun i _ => ?_
    dsimp only [Function.comp_apply]
    cases changeView r.views i (applyParam ctx.settings p) <;> rfl

/-- **Reading parameters** apart from those that mean nothing. -/
theorem foldlM_coreStep (params : List Param) (r : Request) :
    (params.foldlM (paramStep ctx keys) r).toOption.map core =
      params.foldlM (coreStep ctx keys) r.core := by
  induction params generalizing r with
  | nil => rfl
  | cons p params ih =>
    rw [List.foldlM_cons, List.foldlM_cons, coreStep_core, coreStep]
    cases hp : paramStep ctx keys r p with
    | error why => rfl
    | ok r' => exact ih r'

theorem coreStep_of_unknown (h : p.key ∉ keys) (r : Request) :
    coreStep ctx keys r p = some r.core := by
  rw [coreStep, paramStep, if_pos (by simpa using h)]
  rfl

/-- The parameter is one that changes one view. -/
def ChangesView (keys : List String) (p : Param) : Prop :=
  p.key ∈ keys ∧ p.key ≠ "include" ∧ p.key ≠ "relation"

/-- The change of its view that a parameter makes, if it is not refused. -/
def change (ctx : Context) (p : Param) (v : View) : Option View :=
  (applyParam ctx.settings p v).toOption

theorem table_of_change {v v' : View} (h : change ctx p v = some v') : v'.table = v.table :=
  congrArg (·.schema.name) (addressed_of_applyParam (toOption_eq_some.1 h))

/-- **A parameter that changes one view.** -/
theorem coreStep_of_changesView (hviews : First (fun v => home = some v.table) r.views)
    (hp : ChangesView keys p) :
    coreStep ctx keys r p =
      (changeOf (tableFor home p) (change ctx p) r.views).map fun views =>
        { r with views }.core := by
  obtain ⟨hknown, hinclude, hrelation⟩ := hp
  have hchange : changeOf (tableFor home p) (change ctx p) r.views = _ :=
    (changeView_targetIndex hviews p (applyParam ctx.settings p)).symm
  rw [hchange, coreStep, paramStep, if_neg (by simpa using hknown),
    if_neg hinclude, if_neg hrelation, toOption_bind, Option.map_bind, Option.map_bind]
  refine Option.bind_congr fun i _ => ?_
  dsimp only [Function.comp_apply]
  cases changeView r.views i (applyParam ctx.settings p) <;> rfl

/-- The first view stays one of its table. -/
theorem first_coreStep {r' : Request} (hviews : First (fun v => home = some v.table) r.views)
    (hstep : coreStep ctx keys r p = some r') :
    First (fun v => home = some v.table) r'.views := by
  obtain ⟨r'', hr'', rfl⟩ := Option.map_eq_some_iff.1 hstep
  have hnext : First (fun v => home = some v.table) r''.views := by
    refine hviews.paramStep (fun v relations hv => hv) (fun v v' hv hok => ?_)
      (toOption_eq_some.1 hr'')
    exact hv.trans (congrArg (some ·.schema.name) (addressed_of_applyParam hok)).symm
  exact hnext

theorem coreStep_bind (hviews : First (fun v => home = some v.table) r.views)
    (hp : ChangesView keys p) (hq : ChangesView keys q) :
    (coreStep ctx keys r p).bind (coreStep ctx keys · q) =
      ((changeOf (tableFor home p) (change ctx p) r.views).bind
        (changeOf (tableFor home q) (change ctx q))).map fun views => { r with views }.core := by
  have hfirst := @coreStep_of_changesView ctx keys home p r hviews hp
  cases hchange : changeOf (tableFor home p) (change ctx p) r.views with
  | none =>
    rw [hchange] at hfirst
    rw [hfirst]
    rfl
  | some views =>
    rw [hchange] at hfirst
    have hviews' := first_coreStep hviews hfirst
    rw [hfirst, Option.map_some, Option.bind_some, Option.bind_some,
      coreStep_of_changesView hviews' hq]
    rfl

/-- A parameter that means nothing may change places with any other. -/
theorem commute_of_unknown {P : Request → Prop} (h : p.key ∉ keys) (q : Param) :
    StepsCommute (coreStep ctx keys) P p q := by
  intro r _
  rw [coreStep_of_unknown h, Option.bind_some, coreStep_core]
  cases hq : coreStep ctx keys r q with
  | none => rfl
  | some r' =>
    -- what was taken in has nothing that means nothing
    obtain ⟨r'', -, rfl⟩ := Option.map_eq_some_iff.1 hq
    rw [Option.bind_some, coreStep_of_unknown h]
    rfl

/-- **Parameters that concern no view together** may change places. -/
theorem commute_of_concerns (hkeys : keys ⊆ Query.readKeys)
    (h : ∀ table, ¬(concerns home table p = true ∧ concerns home table q = true)) :
    StepsCommute (coreStep ctx keys) (fun r => First (fun v => home = some v.table) r.views)
      p q := by
  by_cases hp : p.key ∈ keys
  swap
  · exact commute_of_unknown hp q
  by_cases hq : q.key ∈ keys
  swap
  · intro r hr
    exact (commute_of_unknown (P := fun r => First (fun v => home = some v.table) r.views)
      hq p r hr).symm
  have hconcerns : ∀ p table, p.key ∈ keys → (concerns home table p = true ↔
      p.key = "include" ∨ p.key = "relation" ∨ tableFor home p = table) := by
    intro p table hp
    simp [concerns, hkeys hp, or_assoc]
  simp only [hconcerns p _ hp, hconcerns q _ hq] at h
  -- what concerns all views concerns one with any other parameter
  have hpspecial := h (tableFor home q)
  have hqspecial := h (tableFor home p)
  simp only [or_true, and_true, true_and, not_or] at hpspecial hqspecial
  obtain ⟨hpinclude, hprelation, hne⟩ := hpspecial
  obtain ⟨hqinclude, hqrelation, -⟩ := hqspecial
  intro r hr
  rw [coreStep_bind hr ⟨hp, hpinclude, hprelation⟩ ⟨hq, hqinclude, hqrelation⟩,
    coreStep_bind hr ⟨hq, hqinclude, hqrelation⟩ ⟨hp, hpinclude, hprelation⟩,
    changeOf_comm hne (fun _ _ => table_of_change) fun _ _ => table_of_change]

/-! ## Requests -/

/-- The keys that requests know are among those that reading ones know. -/
theorem knownKeys_subset (write : Bool) : knownKeys write ⊆ Query.readKeys := by
  cases write <;> decide

/-- **Reading the parameters in another order** comes to the same. -/
theorem foldlM_paramStep_reordered (ctx : Context) (write : Bool)
    (hviews : First (fun v => home = some v.table) r.views)
    (horder : SameOrder home params params') :
    ((ranked params).foldlM (paramStep ctx (knownKeys write)) r).toOption.map core =
      ((ranked params').foldlM (paramStep ctx (knownKeys write)) r).toOption.map core := by
  rw [foldlM_coreStep, foldlM_coreStep]
  refine foldlM_eq_of_filter (P := fun r => First (fun v => home = some v.table) r.views)
    (fun r p r' => first_coreStep) (concerns home)
    (fun p q => commute_of_concerns (knownKeys_subset write)) ?_ horder.filter_ranked hviews
  exact (ranked_perm params).trans (horder.perm.trans (ranked_perm params').symm)

/-- The first view of a path is one of its table. -/
theorem first_of_pathViews {segments : List String} {views : List View}
    (h : pathViews ctx (chooseDatabase ctx segments).1 (chooseDatabase ctx segments).2 =
      .ok views) :
    First (fun v => home? ctx segments = some v.table) views := by
  have hhome : home? ctx segments = views.head?.map View.table := by
    rw [home?]
    dsimp only
    rw [h]
    rfl
  have hne : views ≠ [] := by
    obtain ⟨s, -, h⟩ := bind_eq_ok.1 h
    split at h
    · simp at h
    · next hsome =>
      obtain rfl := Except.ok.inj h
      simpa using hsome
  obtain ⟨v, rest, rfl⟩ := List.exists_cons_of_ne_nil hne
  exact ⟨v, rfl, hhome⟩

/-- Both are requests for tables that are the same but for what means nothing to them, or both
fail. -/
def Agree (x y : Except ApiError Target) : Prop :=
  (∃ r s : Request, x = .ok (.views r) ∧ y = .ok (.views s) ∧
    r.database = s.database ∧ r.views = s.views ∧ r.relations = s.relations) ∨
    ((∃ why, x = .error why) ∧ ∃ why, y = .error why)

/-- Two readings that come to the same agree. -/
theorem agree_of_core {x y : Except ApiError Request}
    (h : x.toOption.map core = y.toOption.map core) : Agree (x.map .views) (y.map .views) := by
  cases x with
  | error why =>
    cases y with
    | error why' => exact .inr ⟨⟨why, rfl⟩, why', rfl⟩
    | ok s => simp [Except.toOption] at h
  | ok r =>
    cases y with
    | error why' => simp [Except.toOption] at h
    | ok s =>
      have hcore : r.core = s.core := Option.some.inj h
      exact .inl ⟨r, s, rfl, rfl, (congrArg Request.database hcore :),
        (congrArg Request.views hcore :), (congrArg Request.relations hcore :)⟩

/-- **The order of parameters does not matter**, for every path that names no model and every two
query strings with the same parameters, where the `include` parameters have the same order in both,
the `relation` parameters too, and for each view those of one rank: both are read as the same
request, or both fail. -/
theorem parse_reordered {path query query' : String}
    (hmodel : modelOf? ctx (segments path) = none)
    (horder : SameOrder (home? ctx (segments path)) (Query.parse query) (Query.parse query'))
    (method : String) (write : Bool) :
    Agree (parse ctx method path query write) (parse ctx method path query' write) := by
  rw [parse_of_modelOf?_eq_none hmodel, parse_of_modelOf?_eq_none hmodel, ofParts, ofParts]
  dsimp only
  refine agree_of_core ?_
  cases hviews : pathViews ctx (chooseDatabase ctx (segments path)).1
      (chooseDatabase ctx (segments path)).2 with
  | error why => rfl
  | ok views => exact foldlM_paramStep_reordered ctx write (first_of_pathViews hviews) horder

/-- Conditions on two tables and a page, forwards and backwards. -/
theorem parse_reordered_household :
    let path := "/e/parents/7/children"
    let forwards := "children.filter=parent,gt,1&filter=id,gt,2&page=3"
    let backwards := "page=3&filter=id,gt,2&children.filter=parent,gt,1"
    Query.parse forwards ≠ Query.parse backwards ∧
      SameOrder (home? household (segments path)) (Query.parse forwards) (Query.parse backwards) ∧
      Agree (parse household "GET" path forwards false)
        (parse household "GET" path backwards false) := by
  intro path forwards backwards
  let params : List Param :=
    [⟨some "children", "filter", "parent,gt,1", "children.filter"⟩,
      ⟨none, "filter", "id,gt,2", "filter"⟩, ⟨none, "page", "3", "page"⟩]
  have hforwards : Query.parse forwards = params := by decide +kernel
  have hbackwards : Query.parse backwards = params.reverse := by decide +kernel
  have hhome : home? household (segments path) = some "parents" := by decide +kernel
  have hmodel : modelOf? household (segments path) = none := by cases segments path <;> rfl
  have htables : ∀ p ∈ params, tableFor (some "parents") p ∈ [some "parents", some "children"] := by
    decide
  have horder : SameOrder (home? household (segments path)) (Query.parse forwards)
      (Query.parse backwards) := by
    rw [hhome, hbackwards, hforwards]
    refine ⟨(List.reverse_perm _).symm, by decide, by decide, fun key hkey table => ?_⟩
    by_cases htable : table ∈ [some "parents", some "children"]
    · revert table
      revert key
      decide
    · have hnone : ∀ ps ⊆ params, ps.filter (fun p => rank p.key = rank key ∧
          tableFor (some "parents") p = table) = [] := by
        refine fun ps hps => List.filter_eq_nil_iff.2 fun p hp hmeant => htable ?_
        exact (of_decide_eq_true hmeant).2 ▸ htables p (hps hp)
      rw [hnone params (List.Subset.refl _), hnone params.reverse (by simp)]
  refine ⟨by rw [hbackwards, hforwards]; decide, horder, ?_⟩
  exact parse_reordered hmodel horder "GET" false

end Request

end TableApi
