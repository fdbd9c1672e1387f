import TableApi.Proofs.View.Setters
import TableApi.Request

/-!
# The views of a request

A request is read segment by segment and parameter by parameter. What a new view has, and what
setting keys, taking a parameter in and learning of a link all keep (`Kept`), every view of every
request has (`Kept.ofParts`).

* A writing request knows conditions and links only. So its views are `View.Unshaped`: nothing else
  was asked for. And they are `View.Keyed`: the condition on keys is the one that the keys write,
  and no condition is empty.

A reading request whose parameters a writing one knows too is that writing request
(`ofParts_read_eq_write`).
-/

namespace TableApi

variable {ctx : Context} {database : String} {segments : List String} {params : List Param}
  {write : Bool} {r : Request} {settings : Settings}

/-! ## Requests for tables -/

/-- The request for tables, if it is one. -/
def Target.request? : Target → Option Request
  | .views r => some r
  | .model _ => none

namespace Request

variable {method path query : String}

/-- A path that names no model addresses tables. -/
theorem parse_of_modelOf?_eq_none (h : modelOf? ctx (Request.segments path) = none)
    (method query : String) (write : Bool) :
    parse ctx method path query write =
      (ofParts ctx (Request.segments path) (Query.parse query) write).map .views := by
  rw [parse, h]

/-- A request for tables names no model. -/
theorem modelOf?_of_parse (h : parse ctx method path query write = .ok (.views r)) :
    modelOf? ctx (Request.segments path) = none := by
  cases hmodel : modelOf? ctx (Request.segments path) with
  | none => rfl
  | some found =>
    rw [parse, hmodel] at h
    simp at h

/-- The parts that a request for tables was read from. -/
theorem ofParts_of_parse (h : parse ctx method path query write = .ok (.views r)) :
    ofParts ctx (Request.segments path) (Query.parse query) write = .ok r := by
  rw [parse_of_modelOf?_eq_none (modelOf?_of_parse h)] at h
  obtain ⟨r', hr', hviews⟩ := map_eq_ok.1 h
  obtain rfl := Target.views.inj hviews
  exact hr'

/-- What is found of a request is what was read. -/
theorem parse_of_request?
    (h : (parse ctx method path query write).toOption.bind Target.request? = some r) :
    parse ctx method path query write = .ok (.views r) := by
  obtain ⟨target, htarget, hr⟩ := Option.bind_eq_some_iff.1 h
  rw [toOption_eq_some.1 htarget]
  cases target with
  | model call => simp [Target.request?] at hr
  | views r' =>
    obtain rfl := Option.some.inj hr
    rfl

end Request

namespace View

/-- **The conditions of a view are well-formed.** -/
structure Keyed (d : Dialect) (v : View) : Prop where
  /-- Without keys there is no condition on them. -/
  unkeyed : v.ids = [] → v.idFilter = none
  /-- With keys there is, on the primary key. -/
  keyed : v.ids ≠ [] → d.supportsFilters = true ∧
    ∃ pk, v.primaryKey = some pk ∧ v.idFilter = some (Filter.keysCondition d v.table pk v.ids)
  filters : "" ∉ v.filters

/-- **Nothing but conditions and links was asked for.** -/
def Unshaped (v : View) : Prop :=
  v = { database := v.database, schema := v.schema, role := v.role, idFilter := v.idFilter,
        ids := v.ids, filters := v.filters, relations := v.relations }

end View

namespace Request

/-! ## Properties of all views -/

/-- **A property that reading a request keeps**, where the request knows these keys. -/
structure Kept (settings : Settings) (keys : List String) (P : View → Prop) : Prop where
  new : ∀ database schema role, P { database, schema, role }
  ids : ∀ {v v' : View} {ids : List String}, P v → v.setIds settings.dialect ids = .ok v' → P v'
  param : ∀ {v v' : View} {p : Param}, p.key ∈ keys → P v → applyParam settings p v = .ok v' → P v'
  link : ∀ {v : View} (l : Link), P v → P { v with relations := v.relations ++ [l] }

/-- A change of one view keeps what it keeps of that view. -/
theorem forall_mem_changeView {P : View → Prop} {views views' : List View} {i : Nat}
    {f : View → Except ApiError View} (hviews : ∀ v ∈ views, P v)
    (hf : ∀ v v', P v → f v = .ok v' → P v') (h : changeView views i f = .ok views') :
    ∀ v ∈ views', P v := by
  rw [changeView] at h
  split at h
  · next v hv =>
    obtain ⟨v', hv', rfl⟩ := map_eq_ok.1 h
    intro w hw
    rcases List.mem_or_eq_of_mem_set hw with hw | rfl
    · exact hviews w hw
    · exact hf v w (hviews v (List.mem_of_getElem? hv)) hv'
  · obtain rfl := Except.ok.inj h
    exact hviews

namespace Kept

variable {keys : List String} {P : View → Prop}

theorem pathStep (hP : Kept ctx.settings keys P) {s s' : PathState} {segment : String}
    (hs : ∀ v ∈ s.views, P v) (h : Request.pathStep ctx database s segment = .ok s') :
    ∀ v ∈ s'.views, P v := by
  rw [Request.pathStep] at h
  split at h
  · next schema _ =>
    split at h
    · obtain rfl := Except.ok.inj h
      exact hs
    · obtain rfl := Except.ok.inj h
      exact List.forall_mem_append.2 ⟨hs, List.forall_mem_singleton.2 (hP.new ..)⟩
  · split at h
    · obtain ⟨views, hviews, rfl⟩ := map_eq_ok.1 h
      exact forall_mem_changeView hs (fun _ _ => hP.ids) hviews
    · obtain rfl := Except.ok.inj h
      exact hs

theorem pathViews (hP : Kept ctx.settings keys P) {views : List View}
    (h : Request.pathViews ctx database segments = .ok views) : ∀ v ∈ views, P v := by
  obtain ⟨s, hs, h⟩ := bind_eq_ok.1 h
  have hpath : ∀ v ∈ s.views, P v :=
    foldlM_ok (P := fun s : PathState => ∀ v ∈ s.views, P v)
      (fun _ _ _ _ hv hstep => hP.pathStep hv hstep) (by simp) hs
  split at h
  · simp at h
  · obtain rfl := Except.ok.inj h
    exact hpath

theorem includeTable (hP : Kept ctx.settings keys P) {views views' : List View} {entry : String}
    (hviews : ∀ v ∈ views, P v)
    (h : Request.includeTable ctx database views entry = .ok views') : ∀ v ∈ views', P v := by
  dsimp only [Request.includeTable] at h
  split at h
  · obtain rfl := Except.ok.inj h
    exact hviews
  · split at h
    · obtain rfl := Except.ok.inj h
      exact List.forall_mem_append.2 ⟨hviews, List.forall_mem_singleton.2 (hP.new ..)⟩
    · simp at h

theorem addLink (hP : Kept settings keys P) (hr : ∀ v ∈ r.views, P v) (l : Link) :
    ∀ v ∈ (r.addLink l).views, P v := by
  intro v hv
  obtain ⟨w, hw, rfl⟩ := List.mem_map.1 hv
  split
  · exact hP.link l (hr w hw)
  · exact hr w hw

theorem paramStep (hP : Kept ctx.settings keys P) {r' : Request} {p : Param}
    (hr : ∀ v ∈ r.views, P v) (h : Request.paramStep ctx keys r p = .ok r') :
    ∀ v ∈ r'.views, P v := by
  rw [Request.paramStep] at h
  split at h
  · obtain rfl := Except.ok.inj h
    exact hr
  · next hknown =>
    have hkey : p.key ∈ keys := by simpa using hknown
    split at h
    · obtain ⟨views, hviews, h⟩ := bind_eq_ok.1 h
      obtain rfl := Except.ok.inj h
      exact foldlM_ok (P := fun views : List View => ∀ v ∈ views, P v)
        (fun _ _ _ _ hv hstep => hP.includeTable hv hstep) hr hviews
    · split at h
      · obtain ⟨l, -, h⟩ := bind_eq_ok.1 h
        obtain rfl := Except.ok.inj h
        exact hP.addLink hr l
      · obtain ⟨i, -, h⟩ := bind_eq_ok.1 h
        obtain ⟨views, hviews, h⟩ := bind_eq_ok.1 h
        obtain rfl := Except.ok.inj h
        exact forall_mem_changeView hr (fun _ _ => hP.param hkey) hviews

/-- **Every view of every request has what reading keeps.** -/
theorem ofParts (hP : Kept ctx.settings (knownKeys write) P)
    (h : Request.ofParts ctx segments params write = .ok r) : ∀ v ∈ r.views, P v := by
  obtain ⟨views, hviews, h⟩ := bind_eq_ok.1 h
  exact foldlM_ok (P := fun r : Request => ∀ v ∈ r.views, P v)
    (fun _ _ _ _ hv hstep => hP.paramStep hv hstep) (hP.pathViews hviews) h

end Kept

end Request

/-! ## Conditions -/

/-- Conditions stay well-formed, whatever else is set. -/
theorem View.Keyed.apply {d : Dialect} {v v' : View} {s : Setter} (h : v.Keyed d)
    (hs : s.apply d v = .ok v') : v'.Keyed d := by
  cases hshape : s.isShaping with
  | true =>
    obtain ⟨_, _, _, _, _, _, rfl⟩ := Setter.shaped_of_apply hshape hs
    exact ⟨h.unkeyed, h.keyed, h.filters⟩
  | false =>
    cases s with
    | ids keys =>
      rcases View.setIds_eq_ok hs with rfl | ⟨pk, hpk, hne, hd, rfl⟩
      · exact h
      · exact ⟨fun hnone => absurd hnone hne, fun _ => ⟨hd, pk, hpk, rfl⟩, h.filters⟩
    | filter text =>
      rcases View.addFilter_eq_ok hs with rfl | ⟨sql, hsql, rfl⟩
      · exact h
      · exact ⟨h.unkeyed, h.keyed, by simpa [h.filters] using hsql.symm⟩
    | columns text | exclude text =>
      obtain rfl := Except.ok.inj hs
      exact ⟨h.unkeyed, h.keyed, h.filters⟩
    | _ => simp [Setter.isShaping] at hshape

namespace Request

/-- A parameter is a call of a setter, or sets whether rows are to be distinct. -/
theorem applyParam_cases (settings : Settings) (p : Param) (v : View) :
    (∃ distinct, applyParam settings p v = .ok { v with distinct }) ∨
      ∃ s : Setter, (∀ keys, s ≠ .ids keys) ∧
        applyParam settings p v = s.apply settings.dialect v := by
  rw [applyParam]
  split
  · exact .inl ⟨_, rfl⟩
  · exact .inr ⟨.filter p.value, by simp, rfl⟩
  · exact .inr ⟨.filter p.value, by simp, rfl⟩
  · exact .inr ⟨.columns p.value, by simp, rfl⟩
  · exact .inr ⟨.exclude p.value, by simp, rfl⟩
  · exact .inr ⟨.order p.value, by simp, rfl⟩
  · exact .inr ⟨.page p.value settings.pageSize, by simp, rfl⟩
  · exact .inr ⟨.start p.value, by simp, rfl⟩
  · exact .inr ⟨.length p.value, by simp, rfl⟩
  · exact .inr ⟨.join p.value, by simp, rfl⟩
  · exact .inr ⟨.group p.value, by simp, rfl⟩
  · exact .inr ⟨.having p.value, by simp, rfl⟩
  · exact .inl ⟨v.distinct, rfl⟩

/-- **The conditions of every request are well-formed**, whatever keys it knows. -/
theorem kept_keyed (keys : List String) : Kept settings keys (View.Keyed settings.dialect) where
  new _ _ _ := ⟨fun _ => rfl, by simp, by simp⟩
  ids {_ _ ids} h hids := h.apply (s := .ids ids) hids
  param {v _ p} _ h hparam := by
    rcases applyParam_cases settings p v with ⟨distinct, heq⟩ | ⟨s, -, heq⟩
    · obtain rfl := Except.ok.inj (heq.symm.trans hparam)
      exact ⟨h.unkeyed, h.keyed, h.filters⟩
    · exact h.apply (heq.symm.trans hparam)
  link _ h := ⟨h.unkeyed, h.keyed, h.filters⟩

end Request

/-! ## Writing requests -/

namespace Request

/-- A writing request takes conditions in, and nothing else of a view. -/
theorem applyParam_of_writeKeys {p : Param} (hp : p.key ∈ Query.writeKeys) {v v' : View}
    (h : applyParam settings p v = .ok v') :
    v' = v ∨ ∃ sql, sql ≠ "" ∧ v' = { v with filters := v.filters ++ [sql] } := by
  have hkeys : p.key = "filter" ∨ p.key = "where" ∨ p.key = "relation" := by
    simpa [Query.writeKeys] using hp
  rcases hkeys with hkey | hkey | hkey <;> rw [applyParam, hkey] at h
  · exact View.addFilter_eq_ok h
  · exact View.addFilter_eq_ok h
  · exact .inl (Except.ok.inj h).symm

/-- **A writing request asks for nothing but conditions and links.** -/
theorem kept_unshaped : Kept settings Query.writeKeys View.Unshaped where
  new _ _ _ := rfl
  ids h hids := by
    rcases View.setIds_eq_ok hids with rfl | ⟨pk, -, -, -, rfl⟩
    · exact h
    · rw [View.Unshaped, h]
  param hp h hparam := by
    rcases applyParam_of_writeKeys hp hparam with rfl | ⟨sql, -, rfl⟩
    · exact h
    · rw [View.Unshaped, h]
  link l h := by rw [View.Unshaped, h]

/-- **Reading what a writing request knows is that writing request.** -/
theorem ofParts_read_eq_write (h : ∀ p ∈ params, p.key ∈ Query.writeKeys) :
    ofParts ctx segments params false = ofParts ctx segments params true := by
  have hstep : ∀ r, ∀ p ∈ ranked params,
      paramStep ctx Query.readKeys r p = paramStep ctx Query.writeKeys r p := by
    intro r p hp
    have hwrite := h p ((ranked_perm params).mem_iff.1 hp)
    have hread : p.key ∈ Query.readKeys := by
      have hkeys : Query.writeKeys ⊆ Query.readKeys := by decide
      exact hkeys hwrite
    rw [paramStep, paramStep, List.contains_iff_mem.2 hwrite, List.contains_iff_mem.2 hread]
  -- over any of the parameters, so that what is known of each goes through the induction
  have hrun : ∀ ps : List Param, (∀ p ∈ ps, p ∈ ranked params) → ∀ r,
      ps.foldlM (paramStep ctx Query.readKeys) r = ps.foldlM (paramStep ctx Query.writeKeys) r := by
    intro ps
    induction ps with
    | nil => intro _ r; rfl
    | cons p ps ih =>
      intro hps r
      obtain ⟨hp, hps⟩ := List.forall_mem_cons.1 hps
      rw [List.foldlM_cons, List.foldlM_cons, hstep r p hp]
      exact bind_congr (ih hps)
  rw [ofParts, ofParts]
  refine bind_congr fun views => ?_
  exact hrun _ (fun _ hp => hp) _

end Request

end TableApi
