import TableApi.Proofs.Request.Reordered
import TableApi.Proofs.View.Paging

/-!
# The rows that a request asks for

Which rows of its result each view of a reading request shows depends on the `page`, `start` and
`length` parameters that are meant for it and on nothing else: neither on how these keys are mixed
in the query string, nor on any other parameter (`parse_paged`).

The parameters are taken in by rank, pages before starts and lengths. So the proof goes along the
ranked parameters: each view shows what the ones so far ask for (`Paging`), and the next one keeps
this (`Paging.paramStep`), since it changes the view that it is meant for
(`View.PagedBy.applyParam`) and no other one (`mem_changeOf`).
-/

namespace TableApi

variable {ctx : Context} {settings : Settings} {home : Option String} {done params : List Param}
  {p : Param} {v v' : View}

namespace Request

/-! ## The values of a key -/

/-- The values of a key among the parameters that are meant for a table, in their order. -/
def valuesFor (home : Option String) (table key : String) (params : List Param) : List String :=
  (params.filter fun p => p.key = key ∧ tableFor home p = some table).map Param.value

section ValuesFor

variable {table key : String}

theorem valuesFor_concat_of_eq (hkey : p.key = key) (htable : tableFor home p = some table)
    (done : List Param) :
    valuesFor home table key (done ++ [p]) = valuesFor home table key done ++ [p.value] := by
  simp [valuesFor, hkey, htable]

/-- One more without it, or for another table. -/
theorem valuesFor_concat_of_ne (h : p.key ≠ key ∨ tableFor home p ≠ some table)
    (done : List Param) :
    valuesFor home table key (done ++ [p]) = valuesFor home table key done := by
  have hother : ¬(p.key = key ∧ tableFor home p = some table) := fun hmeant =>
    h.elim (absurd hmeant.1) (absurd hmeant.2)
  simp [valuesFor, hother]

/-- A key that does not occur has no values. -/
theorem valuesFor_eq_nil (h : ∀ p ∈ params, p.key ≠ key) :
    valuesFor home table key params = [] := by
  rw [valuesFor, List.map_eq_nil_iff, List.filter_eq_nil_iff]
  exact fun p hp hmeant => h p hp (of_decide_eq_true hmeant).1

/-- **Ranking keeps the values of a key** in their order, if the key has a rank of its own. -/
theorem valuesFor_ranked (hknown : key ∈ Query.readKeys) (hfilter : key ≠ "filter" ∧ key ≠ "where")
    (params : List Param) :
    valuesFor home table key (ranked params) = valuesFor home table key params := by
  have hrank : ∀ ps : List Param, valuesFor home table key ps =
      ((ps.filter (rank ·.key = rank key)).filter (tableFor home · = some table)).map
        Param.value := by
    intro ps
    rw [valuesFor, List.filter_filter]
    refine congrArg _ (List.filter_congr fun p _ => ?_)
    have hiff : rank p.key = rank key ↔ p.key = key :=
      ⟨eq_of_rank_eq hknown hfilter, congrArg rank⟩
    simp [hiff, Bool.and_comm]
  rw [hrank, hrank]
  exact congrArg (fun ps => (List.filter _ ps).map Param.value)
    (filter_mergeSort (fun p : Param => rank p.key) params (rank key))

end ValuesFor

/-! ## One parameter, one view -/

/-- The keys that say which rows are shown. -/
def pagingKeys : List String :=
  ["page", "start", "length"]

theorem rows_of_applyParam (hkey : p.key ∉ pagingKeys) (h : applyParam settings p v = .ok v') :
    v'.offset = v.offset ∧ v'.limit = v.limit := by
  rw [applyParam] at h
  split at h
  · obtain rfl := Except.ok.inj h
    exact ⟨rfl, rfl⟩
  · exact Setter.rows_of_apply (d := settings.dialect) (s := .filter p.value) rfl h
  · exact Setter.rows_of_apply (d := settings.dialect) (s := .filter p.value) rfl h
  · exact Setter.rows_of_apply (d := settings.dialect) (s := .columns p.value) rfl h
  · exact Setter.rows_of_apply (d := settings.dialect) (s := .exclude p.value) rfl h
  · exact Setter.rows_of_apply (d := settings.dialect) (s := .order p.value) rfl h
  · next hpage => exact absurd (by rw [hpage]; decide) hkey
  · next hstart => exact absurd (by rw [hstart]; decide) hkey
  · next hlength => exact absurd (by rw [hlength]; decide) hkey
  · exact Setter.rows_of_apply (d := settings.dialect) (s := .join p.value) rfl h
  · exact Setter.rows_of_apply (d := settings.dialect) (s := .group p.value) rfl h
  · exact Setter.rows_of_apply (d := settings.dialect) (s := .having p.value) rfl h
  · obtain rfl := Except.ok.inj h
    exact ⟨rfl, rfl⟩

end Request

open Request

namespace View

/-- **The view shows what the parameters ask for** that are meant for it. -/
def PagedBy (settings : Settings) (home : Option String) (params : List Param) (v : View) : Prop :=
  v.Paged settings.pageSize (valuesFor home v.table "page" params)
    (valuesFor home v.table "start" params) (valuesFor home v.table "length" params)

namespace PagedBy

theorem new (h : ∀ q ∈ done, q.key ∉ pagingKeys) (hoffset : v.offset = none)
    (hlimit : v.limit = none) : v.PagedBy settings home done := by
  have hnone : ∀ key ∈ pagingKeys, valuesFor home v.table key done = [] := fun key hkey =>
    valuesFor_eq_nil fun q hq hq' => h q hq (hq' ▸ hkey)
  rw [PagedBy, hnone "page" (by decide), hnone "start" (by decide), hnone "length" (by decide)]
  exact .new hoffset hlimit

/-- A parameter that asks nothing of the view. -/
theorem pass (h : v.PagedBy settings home done)
    (hp : p.key ∉ pagingKeys ∨ tableFor home p ≠ some v.table) :
    v.PagedBy settings home (done ++ [p]) := by
  have hsame : ∀ key ∈ pagingKeys,
      valuesFor home v.table key (done ++ [p]) = valuesFor home v.table key done := fun key hkey =>
    valuesFor_concat_of_ne (hp.imp_left fun hp' hsame => hp' (hsame ▸ hkey)) done
  rw [PagedBy, hsame "page" (by decide), hsame "start" (by decide), hsame "length" (by decide)]
  exact h

theorem congr (h : v.PagedBy settings home done) (htable : v'.table = v.table)
    (hoffset : v'.offset = v.offset) (hlimit : v'.limit = v.limit) :
    v'.PagedBy settings home done := by
  rw [PagedBy, htable]
  exact Paged.congr h hoffset hlimit

/-- **A parameter that is meant for the view**, in the order of ranks. -/
theorem applyParam (h : v.PagedBy settings home done) (hp : tableFor home p = some v.table)
    (hdone : ∀ q ∈ done, rank q.key ≤ rank p.key) (hok : Request.applyParam settings p v = .ok v') :
    v'.PagedBy settings home (done ++ [p]) := by
  have htable : v'.table = v.table := congrArg (·.schema.name) (addressed_of_applyParam hok)
  have hother : ∀ {key}, p.key ≠ key →
      valuesFor home v.table key (done ++ [p]) = valuesFor home v.table key done := fun hkey =>
    valuesFor_concat_of_ne (.inl hkey) done
  by_cases hkey : p.key ∈ pagingKeys
  · rw [PagedBy, htable]
    rw [PagedBy] at h
    have hkeys : p.key = "page" ∨ p.key = "start" ∨ p.key = "length" := by
      simpa [pagingKeys] using hkey
    rcases hkeys with hpage | hstart | hlength
    · -- starts and lengths have not been taken in yet
      have hlater : ∀ key, rank "page" < rank key → valuesFor home v.table key done = [] :=
        fun key hrank => valuesFor_eq_nil fun q hq hq' => by
          have hle := hdone q hq
          rw [hq', hpage] at hle
          omega
      rw [Request.applyParam, hpage] at hok
      obtain rfl := Except.ok.inj hok
      rw [valuesFor_concat_of_eq hpage hp, hother (by simp [hpage]), hother (by simp [hpage])]
      rw [hlater "start" (by decide), hlater "length" (by decide)] at h ⊢
      exact h.setPage p.value
    · rw [Request.applyParam, hstart] at hok
      obtain rfl := Except.ok.inj hok
      rw [valuesFor_concat_of_eq hstart hp, hother (by simp [hstart]), hother (by simp [hstart])]
      exact h.setStart p.value
    · rw [Request.applyParam, hlength] at hok
      obtain rfl := Except.ok.inj hok
      rw [valuesFor_concat_of_eq hlength hp, hother (by simp [hlength]), hother (by simp [hlength])]
      exact h.setLength p.value
  · obtain ⟨hoffset, hlimit⟩ := rows_of_applyParam hkey hok
    exact (h.pass (.inl hkey)).congr htable hoffset hlimit

end PagedBy

end View

namespace Request

/-! ## One parameter, all views -/

variable {r r' : Request} {views views' : List View}

/-- **A change of a table's view** changes that view only, if each table has one. -/
theorem mem_changeOf {t : Option String} {f : View → Option View}
    (htables : (views.map View.table).Nodup) (h : changeOf t f views = some views') :
    ∀ v' ∈ views', (∃ v ∈ views, some v.table = t ∧ f v = some v') ∨
      v' ∈ views ∧ some v'.table ≠ t := by
  induction views generalizing views' with
  | nil => simp [changeOf] at h
  | cons v views ih =>
    obtain ⟨hnew, htables⟩ := List.nodup_cons.1 htables
    by_cases hv : some v.table = t
    · rw [changeOf_cons_of_eq hv] at h
      obtain ⟨w, hw, rfl⟩ := Option.map_eq_some_iff.1 h
      refine List.forall_mem_cons.2 ⟨.inl ⟨v, List.mem_cons_self .., hv, hw⟩, fun v' hv' => ?_⟩
      refine .inr ⟨List.mem_cons_of_mem _ hv', fun hsame => hnew ?_⟩
      rw [Option.some.inj (hv.trans hsame.symm)]
      exact List.mem_map_of_mem hv'
    · rw [changeOf_cons_of_ne hv] at h
      obtain ⟨rest, hrest, rfl⟩ := Option.map_eq_some_iff.1 h
      refine List.forall_mem_cons.2 ⟨.inr ⟨List.mem_cons_self .., hv⟩, fun v' hv' => ?_⟩
      rcases ih htables hrest v' hv' with ⟨w, hw, hfound⟩ | ⟨hmem, hne⟩
      · exact .inl ⟨w, List.mem_cons_of_mem _ hw, hfound⟩
      · exact .inr ⟨List.mem_cons_of_mem _ hmem, hne⟩

/-- **The request so far**: every view shows what the parameters ask for that were taken in. -/
structure Paging (ctx : Context) (home : Option String) (done : List Param) (r : Request) :
    Prop where
  coherent : r.Coherent ctx
  first : First (fun v => home = some v.table) r.views
  shown : ∀ v ∈ r.views, v.PagedBy ctx.settings home done

namespace Paging

theorem shown_of_changesView (h : Paging ctx home done r) (hp : ChangesView Query.readKeys p)
    (hdone : ∀ q ∈ done, rank q.key ≤ rank p.key)
    (hstep : paramStep ctx Query.readKeys r p = .ok r') :
    ∀ v ∈ r'.views, v.PagedBy ctx.settings home (done ++ [p]) := by
  have hcore : coreStep ctx Query.readKeys r p = some r'.core := by
    rw [coreStep, hstep]
    rfl
  rw [coreStep_of_changesView h.first hp] at hcore
  obtain ⟨views, hviews, hsame⟩ := Option.map_eq_some_iff.1 hcore
  obtain rfl : views = r'.views := congrArg Request.views hsame
  intro v' hv'
  rcases mem_changeOf h.coherent.tables hviews v' hv' with ⟨v, hv, htable, hchange⟩ | ⟨hv, hne⟩
  · exact (h.shown v hv).applyParam htable.symm hdone (toOption_eq_some.1 hchange)
  · exact (h.shown v' hv).pass (.inr hne.symm)

/-- Tables that are included: nothing was asked of their views, since they come first. -/
theorem shown_of_include (h : Paging ctx home done r) (hp : p.key = "include")
    (hdone : ∀ q ∈ done, rank q.key ≤ rank p.key)
    (hviews : (Text.entries p.value).foldlM (includeTable ctx r.database) r.views = .ok views) :
    ∀ v ∈ views, v.PagedBy ctx.settings home (done ++ [p]) := by
  have hincludes : ∀ q ∈ done ++ [p], q.key = "include" := by
    refine List.forall_mem_append.2 ⟨fun q hq => ?_, List.forall_mem_singleton.2 hp⟩
    have hle := hdone q hq
    rw [hp] at hle
    exact eq_of_rank_eq (by decide) (by decide) (Nat.le_antisymm hle (Nat.zero_le _))
  have hnone : ∀ q ∈ done ++ [p], q.key ∉ pagingKeys := fun q hq => by
    rw [hincludes q hq]
    decide
  have hkept : ∀ v ∈ r.views, v.PagedBy ctx.settings home (done ++ [p]) := fun v hv =>
    (h.shown v hv).pass (.inl (hnone p (by simp)))
  refine foldlM_ok (P := fun views : List View => ∀ v ∈ views, v.PagedBy ctx.settings home
    (done ++ [p])) (fun views entry _ views' hviews hstep => ?_) hkept hviews
  dsimp only [includeTable] at hstep
  split at hstep
  · obtain rfl := Except.ok.inj hstep
    exact hviews
  · split at hstep
    · obtain rfl := Except.ok.inj hstep
      exact List.forall_mem_append.2 ⟨hviews, List.forall_mem_singleton.2 (.new hnone rfl rfl)⟩
    · simp at hstep

/-- **The next parameter** in the order of ranks. -/
theorem paramStep (hcatalog : ctx.catalog.Built) (h : Paging ctx home done r)
    (hdone : ∀ q ∈ done, rank q.key ≤ rank p.key)
    (hstep : Request.paramStep ctx Query.readKeys r p = .ok r') :
    Paging ctx home (done ++ [p]) r' := by
  refine ⟨h.coherent.paramStep hcatalog hstep, ?_, ?_⟩
  · refine h.first.paramStep (fun v relations hv => hv) (fun v v' hv hok => ?_) hstep
    exact hv.trans (congrArg (some ·.schema.name) (addressed_of_applyParam hok)).symm
  by_cases hchanges : ChangesView Query.readKeys p
  · exact h.shown_of_changesView hchanges hdone hstep
  have hpass : p.key ∉ pagingKeys → ∀ v ∈ r.views, v.PagedBy ctx.settings home (done ++ [p]) :=
    fun hkey v hv => (h.shown v hv).pass (.inl hkey)
  rw [Request.paramStep] at hstep
  split at hstep
  · next hunknown =>
    obtain rfl := Except.ok.inj hstep
    have hpaging : pagingKeys ⊆ Query.readKeys := by decide
    exact hpass fun hkey => by simp [hpaging hkey] at hunknown
  · next hknown =>
    split at hstep
    · next hinclude =>
      obtain ⟨views, hviews, hstep⟩ := bind_eq_ok.1 hstep
      obtain rfl := Except.ok.inj hstep
      exact h.shown_of_include hinclude hdone hviews
    · next hinclude =>
      split at hstep
      · next hrelation =>
        obtain ⟨l, -, hstep⟩ := bind_eq_ok.1 hstep
        obtain rfl := Except.ok.inj hstep
        intro v' hv'
        obtain ⟨v, hv, rfl⟩ := List.mem_map.1 hv'
        have hv := hpass (by rw [hrelation]; decide) v hv
        split
        · exact hv.congr rfl rfl rfl
        · exact hv
      · next hrelation => exact absurd ⟨by simpa using hknown, hinclude, hrelation⟩ hchanges

end Paging

/-! ## Requests that were read -/

/-- The views of a path, before the first parameter. -/
theorem paging_of_pathViews (hcatalog : ctx.catalog.Built) {segments : List String}
    (h : pathViews ctx (chooseDatabase ctx segments).1 (chooseDatabase ctx segments).2 =
      .ok views) :
    Paging ctx (home? ctx segments) [] ⟨(chooseDatabase ctx segments).1, views, [], []⟩ := by
  refine ⟨Coherent.pathViews hcatalog h, first_of_pathViews h, fun v hv => ?_⟩
  have hunshaped : v.Unshaped := kept_unshaped.pathViews h v hv
  exact .new (by simp) (congrArg View.offset hunshaped) (congrArg View.limit hunshaped)

/-- **All parameters.** -/
theorem paging_of_ofParts (hcatalog : ctx.catalog.Built) {segments : List String}
    (h : ofParts ctx segments params false = .ok r) :
    Paging ctx (home? ctx segments) (ranked params) r := by
  obtain ⟨views, hviews, h⟩ := bind_eq_ok.1 h
  refine foldlM_prefix (P := Paging ctx (home? ctx segments))
    (fun done p rest s s' hsplit hs hstep => ?_) (paging_of_pathViews hcatalog hviews) h
  have hranks := ranked_pairwise params
  rw [hsplit, List.pairwise_append] at hranks
  exact hs.paramStep hcatalog (fun q hq => hranks.2.2 q hq p (List.mem_cons_self ..)) hstep

/-- **Every view of a reading request shows the rows that were asked of it.** -/
theorem parse_paged (hcatalog : ctx.catalog.Built) {method path query : String}
    (h : parse ctx method path query false = .ok (.views r)) :
    ∀ v ∈ r.views, v.Paged ctx.settings.pageSize
      (valuesFor (some r.primary.table) v.table "page" (Query.parse query))
      (valuesFor (some r.primary.table) v.table "start" (Query.parse query))
      (valuesFor (some r.primary.table) v.table "length" (Query.parse query)) := by
  have hpaging := paging_of_ofParts hcatalog (ofParts_of_parse h)
  have hhome : home? ctx (segments path) = some r.primary.table := by
    obtain ⟨v, hv, hhome⟩ := hpaging.first
    rw [hhome, primary, List.headD_eq_head?_getD, Option.mem_def.1 hv]
    rfl
  intro v hv
  have hshown := hpaging.shown v hv
  rw [View.PagedBy, hhome, valuesFor_ranked (by decide) (by decide),
    valuesFor_ranked (by decide) (by decide), valuesFor_ranked (by decide) (by decide)] at hshown
  exact hshown

/-- Pages, starts and lengths of two tables, the pages last: a number with a sign in it, a start and
a length that count nothing or too much, and a page whose offset is beyond the greatest count. -/
theorem parse_paged_household :
    let query := "start=7&start=x&length=&children.start=99999999999999999999" ++
      "&children.page=9223372036854775808,4&page=1-0,5"
    ∃ r : Request, household.catalog.Built ∧
      parse household "GET" "/e/parents/children" query false = .ok (.views r) ∧
      r.views.map View.table = ["parents", "children"] ∧
      r.views.map View.offset = [some 7, some 18446744073709551615] ∧
      r.views.map View.limit = [some 5, some 4] ∧
      ∀ v ∈ r.views, v.Paged household.settings.pageSize
        (valuesFor (some r.primary.table) v.table "page" (Query.parse query))
        (valuesFor (some r.primary.table) v.table "start" (Query.parse query))
        (valuesFor (some r.primary.table) v.table "length" (Query.parse query)) := by
  intro query
  let start : Param := ⟨none, "start", "7", "start"⟩
  let noStart : Param := ⟨none, "start", "x", "start"⟩
  let noLength : Param := ⟨none, "length", "", "length"⟩
  let tooMuch : Param := ⟨some "children", "start", "99999999999999999999", "children.start"⟩
  let beyond : Param := ⟨some "children", "page", "9223372036854775808,4", "children.page"⟩
  let page : Param := ⟨none, "page", "1-0,5", "page"⟩
  have hparams : Query.parse query = [start, noStart, noLength, tooMuch, beyond, page] := by
    decide +kernel
  have hranked : ranked (Query.parse query) =
      [beyond, page, start, noStart, tooMuch, noLength] := by
    rw [hparams, ranked]
    simp [start, noStart, noLength, tooMuch, beyond, page, List.mergeSort, rank]
  have hread : ((parse household "GET" "/e/parents/children" query false).toOption.bind
      Target.request?).any (fun r => decide (r.views.map View.table = ["parents", "children"] ∧
        r.views.map View.offset = [some 7, some 18446744073709551615] ∧
        r.views.map View.limit = [some 5, some 4])) = true := by
    rw [parse_of_modelOf?_eq_none rfl, ofParts, hranked]
    decide +kernel
  obtain ⟨r, hfound, hparts⟩ := (Option.any_eq_true _ _).1 hread
  obtain ⟨htables, hoffsets, hlimits⟩ := of_decide_eq_true hparts
  have hcatalog : household.catalog.Built :=
    ((Catalog.Built.empty.insertTable _ _).insertTable _ _).insertTable _ _
  have hparse := parse_of_request? hfound
  exact ⟨r, hcatalog, hparse, htables, hoffsets, hlimits, parse_paged hcatalog hparse⟩

end Request

end TableApi
