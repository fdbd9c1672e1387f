import TableApi.Proofs.Catalog
import TableApi.Proofs.Request.Views

/-!
# Requests whose parts fit together

Commands find views by the tables of links, and links by the tables of views. They can do so because
the parts of a request that was read fit together (`Request.Coherent`): each view is of a table that
the catalog knows and no table has two, each link is between columns of the views, and each view
knows the links that touch it. The path's tables come first, and the included ones after them
(`Request.parse_coherent`).

Four things happen to a request while it is read, and each keeps this: a view of a new table is
added (`Coherent.append`), one view is changed (`Coherent.changeView`), a link is added
(`Coherent.addLink`), and a parameter is passed over.
-/

namespace TableApi

variable {ctx : Context} {database : String} {segments : List String} {params : List Param}
  {write : Bool} {r : Request} {settings : Settings}

/-! ## What changes of a view leave -/

namespace View

/-- The view as the path and the links make it, without what was asked for. -/
def addressed (v : View) : View :=
  { database := v.database
    schema := v.schema
    role := v.role
    idFilter := v.idFilter
    ids := v.ids
    relations := v.relations }

/-- **A view of a table that the catalog knows**, with the condition that its keys write. -/
structure Grounded (ctx : Context) (database : String) (v : View) : Prop where
  database_eq : v.database = database
  known : ctx.catalog.table? database v.table = some v.schema
  filtered : v.idFilter.isSome = true ↔ v.ids ≠ []
  equality : v.ids ≠ [] → ∃ pk sql, v.primaryKey = some pk ∧
    Filter.equality ctx.settings.dialect v.table pk v.ids = .ok sql ∧ v.idFilter = some sql

@[simp] theorem grounded_addressed {v : View} :
    v.addressed.Grounded ctx database ↔ v.Grounded ctx database :=
  ⟨fun h => ⟨h.database_eq, h.known, h.filtered, h.equality⟩,
    fun h => ⟨h.database_eq, h.known, h.filtered, h.equality⟩⟩

/-- Keys write the condition that they are said to write. -/
theorem Grounded.setIds {v v' : View} {ids : List String} (h : v.Grounded ctx database)
    (hids : v.setIds ctx.settings.dialect ids = .ok v') : v'.Grounded ctx database := by
  rcases setIds_eq_ok hids with rfl | ⟨pk, hpk, hne, hd, rfl⟩
  · exact h
  · refine ⟨h.database_eq, h.known, by simp [hne], fun _ => ⟨pk, _, hpk, ?_, rfl⟩⟩
    exact Filter.equality_eq_ok.2 ⟨hd, hne, rfl⟩

end View

/-- No setter but the one of the keys changes what the path says. -/
theorem Setter.addressed_of_apply {d : Dialect} {v v' : View} {s : Setter}
    (hs : ∀ keys, s ≠ .ids keys) (h : s.apply d v = .ok v') : v'.addressed = v.addressed := by
  cases hshape : s.isShaping with
  | true =>
    obtain ⟨_, _, _, _, _, _, rfl⟩ := Setter.shaped_of_apply hshape h
    rfl
  | false =>
    cases s with
    | ids keys => exact absurd rfl (hs keys)
    | filter text => rcases View.addFilter_eq_ok h with rfl | ⟨sql, -, rfl⟩ <;> rfl
    | columns text | exclude text =>
      obtain rfl := Except.ok.inj h
      rfl
    | _ => simp [isShaping] at hshape

namespace Request

/-- **So neither does a parameter.** -/
theorem addressed_of_applyParam {p : Param} {v v' : View} (h : applyParam settings p v = .ok v') :
    v'.addressed = v.addressed := by
  rcases applyParam_cases settings p v with ⟨distinct, heq⟩ | ⟨s, hs, heq⟩
  · rw [heq] at h
    obtain rfl := Except.ok.inj h
    rfl
  · rw [heq] at h
    exact Setter.addressed_of_apply hs h

/-- What a change of one view leaves of that view, it leaves of all. -/
theorem map_changeView {α : Type} {g : View → α} {views views' : List View} {i : Nat}
    {f : View → Except ApiError View} (hf : ∀ v v', f v = .ok v' → g v' = g v)
    (h : Request.changeView views i f = .ok views') : views'.map g = views.map g := by
  rw [Request.changeView] at h
  split at h
  · next v hv =>
    obtain ⟨v', hv', rfl⟩ := map_eq_ok.1 h
    obtain ⟨hi, rfl⟩ := List.getElem?_eq_some_iff.1 hv
    have hmap : i < (views.map g).length := by simpa using hi
    have hsame : g v' = (views.map g)[i] := by rw [List.getElem_map, hf _ _ hv']
    rw [List.map_set, hsame, List.set_getElem_self]
  · obtain rfl := Except.ok.inj h
    rfl

/-- What does not depend on links, a link leaves. -/
theorem map_views_addLink {α : Type} {g : View → α}
    (hg : ∀ v relations, g { v with relations } = g v) (l : Link) :
    (r.addLink l).views.map g = r.views.map g := by
  rw [addLink, List.map_map]
  refine List.map_congr_left fun v _ => ?_
  rw [Function.comp_apply]
  split
  · exact hg v _
  · rfl

/-! ## Coherence -/

/-- **One of the views has this column.** -/
def HasColumn (r : Request) (table column : String) : Prop :=
  ∃ v ∈ r.views, v.table = table ∧ v.schema.hasColumn column = true

/-- It depends on the tables of the views only. -/
theorem hasColumn_iff {table column : String} :
    r.HasColumn table column ↔
      ∃ t ∈ r.views.map View.schema, t.name = table ∧ t.hasColumn column = true := by
  simp only [HasColumn, List.mem_map, exists_exists_and_eq_and, View.table]

/-- **The parts of a request fit together.** -/
structure Coherent (ctx : Context) (r : Request) : Prop where
  views : ∀ v ∈ r.views, v.Grounded ctx r.database
  tables : (r.views.map View.table).Nodup
  links : ∀ l ∈ r.relations,
    r.HasColumn l.parentTable l.parentColumn ∧ r.HasColumn l.childTable l.childColumn
  relations : ∀ v ∈ r.views, v.relations = r.relations.filter (·.touches v.table)

/-- The end of a link that is accepted is a column of a view. -/
theorem hasColumn_of_checkEndpoint {table column : String}
    (h : checkEndpoint r.views table column = .ok ()) : r.HasColumn table column := by
  rw [checkEndpoint] at h
  split at h
  · simp at h
  · next v hv =>
    split at h
    · next hcolumn =>
      exact ⟨v, List.mem_of_find?_eq_some hv, by simpa using List.find?_some hv, hcolumn⟩
    · simp at h

namespace Coherent

theorem empty (ctx : Context) (database : String) : Coherent ctx ⟨database, [], [], []⟩ :=
  ⟨by simp, by simp, by simp, by simp⟩

/-- **A view of a new table.** -/
theorem append (h : r.Coherent ctx) (hcatalog : ctx.catalog.Built) {name : String}
    (hnew : ∀ v ∈ r.views, v.table ≠ name) {schema : Table}
    (hschema : ctx.catalog.table? r.database name = some schema) (role : Role) :
    Coherent ctx { r with views := r.views ++ [{ database := r.database, schema, role }] } := by
  have hname : schema.name = name := hcatalog.name_eq hschema
  have hkept : ∀ {table column : String}, r.HasColumn table column →
      HasColumn { r with views := r.views ++ [{ database := r.database, schema, role }] }
        table column :=
    fun ⟨v, hv, hcolumn⟩ => ⟨v, List.mem_append_left _ hv, hcolumn⟩
  -- no link can touch the table, since the tables of the links are views already
  have huntouched : r.relations.filter (·.touches schema.name) = [] := by
    refine List.filter_eq_nil_iff.2 fun l hl => ?_
    obtain ⟨⟨parent, hparent, hptable, -⟩, child, hchild, hctable, -⟩ := h.links l hl
    have hp : l.parentTable ≠ name := hptable ▸ hnew parent hparent
    have hc : l.childTable ≠ name := hctable ▸ hnew child hchild
    simp [Link.touches, hname, hp, hc]
  refine ⟨List.forall_mem_append.2 ⟨h.views, List.forall_mem_singleton.2 ?_⟩, ?_,
    fun l hl => ⟨hkept (h.links l hl).1, hkept (h.links l hl).2⟩,
    List.forall_mem_append.2 ⟨h.relations, List.forall_mem_singleton.2 huntouched.symm⟩⟩
  · exact ⟨rfl, by rwa [View.table, hname], by simp, by simp⟩
  · rw [List.map_append, List.map_singleton, List.nodup_append]
    refine ⟨h.tables, by simp, fun a ha b hb => ?_⟩
    obtain ⟨v, hv, rfl⟩ := List.mem_map.1 ha
    obtain rfl : b = name := (List.mem_singleton.1 hb).trans hname
    exact hnew v hv

/-- **A change of one view** that keeps its table and its links. -/
theorem changeView (h : r.Coherent ctx) {views : List View} {i : Nat}
    {f : View → Except ApiError View}
    (hf : ∀ v v', v.Grounded ctx r.database → f v = .ok v' → v'.Grounded ctx r.database)
    (hschema : ∀ v v', f v = .ok v' → v'.schema = v.schema)
    (hrelations : ∀ v v', f v = .ok v' → v'.relations = v.relations)
    (hviews : Request.changeView r.views i f = .ok views) :
    Coherent ctx { r with views } := by
  have hschemas : views.map View.schema = r.views.map View.schema := map_changeView hschema hviews
  have htable : ∀ v v', f v = .ok v' → v'.table = v.table := fun v v' hv => by
    rw [View.table, View.table, hschema v v' hv]
  refine ⟨forall_mem_changeView h.views hf hviews, ?_, ?_, ?_⟩
  · rw [show views.map View.table = r.views.map View.table from map_changeView htable hviews]
    exact h.tables
  · simp only [hasColumn_iff, hschemas]
    simpa only [hasColumn_iff] using h.links
  · refine forall_mem_changeView (P := fun v => v.relations = r.relations.filter
      (·.touches v.table)) h.relations (fun v v' hv hok => ?_) hviews
    rw [hrelations v v' hok, htable v v' hok, hv]

/-- **A link between columns of the views.** -/
theorem addLink (h : r.Coherent ctx) {l : Link} (hparent : r.HasColumn l.parentTable l.parentColumn)
    (hchild : r.HasColumn l.childTable l.childColumn) : (r.addLink l).Coherent ctx := by
  have hschemas : (r.addLink l).views.map View.schema = r.views.map View.schema :=
    map_views_addLink (fun _ _ => rfl) l
  refine ⟨fun v hv => ?_, ?_, ?_, fun v hv => ?_⟩
  · obtain ⟨w, hw, rfl⟩ := List.mem_map.1 hv
    have hground := h.views w hw
    split
    · exact ⟨hground.database_eq, hground.known, hground.filtered, hground.equality⟩
    · exact hground
  · rw [map_views_addLink (fun _ _ => rfl) l]
    exact h.tables
  · simp only [hasColumn_iff, hschemas] at hparent hchild ⊢
    refine List.forall_mem_append.2 ⟨?_, List.forall_mem_singleton.2 ⟨hparent, hchild⟩⟩
    simpa only [hasColumn_iff] using h.links
  · obtain ⟨w, hw, rfl⟩ := List.mem_map.1 hv
    split
    · next htouches =>
      rw [show View.table { w with relations := w.relations ++ [l] } = w.table from rfl]
      simp [Request.addLink, htouches, h.relations w hw]
    · next htouches => simp [Request.addLink, htouches, h.relations w hw]

/-! ## Reading -/

variable (hcatalog : ctx.catalog.Built)

include hcatalog

theorem pathStep {s s' : PathState} {segment : String}
    (h : Coherent ctx ⟨database, s.views, [], []⟩)
    (hstep : Request.pathStep ctx database s segment = .ok s') :
    Coherent ctx ⟨database, s'.views, [], []⟩ := by
  rw [Request.pathStep] at hstep
  split at hstep
  · next schema hschema =>
    split at hstep
    · obtain rfl := Except.ok.inj hstep
      exact h
    · next hnew =>
      obtain rfl := Except.ok.inj hstep
      refine h.append hcatalog (fun v hv => ?_) hschema _
      simpa using List.findIdx?_eq_none_iff.1 hnew v hv
  · split at hstep
    · obtain ⟨views, hviews, rfl⟩ := map_eq_ok.1 hstep
      refine h.changeView (fun v v' hv => hv.setIds) (fun v v' hok => ?_) (fun v v' hok => ?_)
        hviews
      all_goals rcases View.setIds_eq_ok hok with rfl | ⟨pk, -, -, -, rfl⟩ <;> rfl
    · obtain rfl := Except.ok.inj hstep
      exact h

theorem includeTable {views views' : List View} {entry : String}
    (h : Coherent ctx { r with views })
    (hstep : Request.includeTable ctx r.database views entry = .ok views') :
    Coherent ctx { r with views := views' } := by
  dsimp only [Request.includeTable] at hstep
  split at hstep
  · obtain rfl := Except.ok.inj hstep
    exact h
  · next hnew =>
    split at hstep
    · next schema hschema =>
      obtain rfl := Except.ok.inj hstep
      refine h.append hcatalog (fun v hv heq => hnew ?_) hschema .included
      simpa using .inr ⟨v, hv, heq⟩
    · simp at hstep

theorem paramStep {keys : List String} {r' : Request} {p : Param} (h : r.Coherent ctx)
    (hstep : Request.paramStep ctx keys r p = .ok r') : r'.Coherent ctx := by
  rw [Request.paramStep] at hstep
  split at hstep
  · obtain rfl := Except.ok.inj hstep
    exact ⟨h.views, h.tables, h.links, h.relations⟩
  · split at hstep
    · obtain ⟨views, hviews, hstep⟩ := bind_eq_ok.1 hstep
      obtain rfl := Except.ok.inj hstep
      exact foldlM_ok (P := fun views : List View => Coherent ctx { r with views })
        (fun _ _ _ _ hv hinclude => hv.includeTable hcatalog hinclude) h hviews
    · split at hstep
      · obtain ⟨l, hl, hstep⟩ := bind_eq_ok.1 hstep
        obtain rfl := Except.ok.inj hstep
        obtain ⟨l', -, hl⟩ := bind_eq_ok.1 hl
        obtain ⟨⟨⟩, hparent, hl⟩ := bind_eq_ok.1 hl
        obtain ⟨⟨⟩, hchild, hl⟩ := bind_eq_ok.1 hl
        obtain rfl := Except.ok.inj hl
        exact h.addLink (hasColumn_of_checkEndpoint hparent) (hasColumn_of_checkEndpoint hchild)
      · obtain ⟨i, -, hstep⟩ := bind_eq_ok.1 hstep
        obtain ⟨views, hviews, hstep⟩ := bind_eq_ok.1 hstep
        obtain rfl := Except.ok.inj hstep
        refine h.changeView (fun v v' hv hok => ?_)
          (fun v v' hok => (congrArg View.schema (addressed_of_applyParam hok) :))
          (fun v v' hok => (congrArg View.relations (addressed_of_applyParam hok) :)) hviews
        rw [← View.grounded_addressed, addressed_of_applyParam hok, View.grounded_addressed]
        exact hv

theorem pathViews {views : List View} (h : Request.pathViews ctx database segments = .ok views) :
    Coherent ctx ⟨database, views, [], []⟩ := by
  obtain ⟨s, hs, h⟩ := bind_eq_ok.1 h
  have hpath := foldlM_ok (P := fun s : PathState => Coherent ctx ⟨database, s.views, [], []⟩)
    (fun _ _ _ _ hv hstep => hv.pathStep hcatalog hstep) (empty ctx _) hs
  split at h
  · simp at h
  · obtain rfl := Except.ok.inj h
    exact hpath

/-- **The parts of every request fit together.** -/
theorem ofParts (h : Request.ofParts ctx segments params write = .ok r) : r.Coherent ctx := by
  obtain ⟨views, hviews, h⟩ := bind_eq_ok.1 h
  exact foldlM_ok (fun _ _ _ _ hr hstep => hr.paramStep hcatalog hstep)
    (pathViews hcatalog hviews) h

end Coherent

/-! ## Roles -/

/-- **The order of roles**: the primary view, then the other tables of the path, then the included
ones. -/
def RolesInOrder (foreign included : Nat) (views : List View) : Prop :=
  views.map View.role =
    .primary :: (List.replicate foreign .foreign ++ List.replicate included .included)

/-- A segment of the path adds at most one foreign view. -/
theorem roles_pathStep {s s' : PathState} {segment : String}
    (h : s.views = [] ∨ ∃ foreign, RolesInOrder foreign 0 s.views)
    (hstep : pathStep ctx database s segment = .ok s') :
    s'.views = [] ∨ ∃ foreign, RolesInOrder foreign 0 s'.views := by
  rw [pathStep] at hstep
  split at hstep
  · split at hstep
    · obtain rfl := Except.ok.inj hstep
      exact h
    · obtain rfl := Except.ok.inj hstep
      right
      rcases h with hnil | ⟨foreign, hroles⟩
      · exact ⟨0, by simp [RolesInOrder, hnil]⟩
      · have hne : s.views.isEmpty = false := by
          cases hviews : s.views with
          | nil => simp [RolesInOrder, hviews] at hroles
          | cons v rest => rfl
        rw [RolesInOrder, List.replicate_zero, List.append_nil] at hroles
        refine ⟨foreign + 1, ?_⟩
        simp [RolesInOrder, hroles, hne, List.replicate_succ']
  · split at hstep
    · obtain ⟨views, hviews, rfl⟩ := map_eq_ok.1 hstep
      have hroles : views.map View.role = s.views.map View.role := by
        refine map_changeView (fun v v' hok => ?_) hviews
        rcases View.setIds_eq_ok hok with rfl | ⟨pk, -, -, -, rfl⟩ <;> rfl
      rcases h with hnil | ⟨foreign, hforeign⟩
      · rw [hnil] at hroles
        exact .inl (by simpa using hroles)
      · exact .inr ⟨foreign, hroles.trans hforeign⟩
    · obtain rfl := Except.ok.inj hstep
      exact h

/-- An included table adds at most one included view. -/
theorem roles_includeTable {views views' : List View} {entry : String} {foreign : Nat}
    (h : ∃ included, RolesInOrder foreign included views)
    (hstep : includeTable ctx database views entry = .ok views') :
    ∃ included, RolesInOrder foreign included views' := by
  obtain ⟨included, hroles⟩ := h
  dsimp only [includeTable] at hstep
  split at hstep
  · obtain rfl := Except.ok.inj hstep
    exact ⟨included, hroles⟩
  · split at hstep
    · obtain rfl := Except.ok.inj hstep
      rw [RolesInOrder] at hroles
      exact ⟨included + 1, by simp [RolesInOrder, hroles, List.replicate_succ']⟩
    · simp at hstep

/-- A parameter adds included views only, and those only where requests may include tables. -/
theorem roles_paramStep {keys : List String} {r' : Request} {p : Param} {foreign : Nat}
    (h : ∃ included, RolesInOrder foreign included r.views ∧ ("include" ∉ keys → included = 0))
    (hstep : paramStep ctx keys r p = .ok r') :
    ∃ included, RolesInOrder foreign included r'.views ∧ ("include" ∉ keys → included = 0) := by
  obtain ⟨included, hroles, hnone⟩ := h
  rw [paramStep] at hstep
  split at hstep
  · obtain rfl := Except.ok.inj hstep
    exact ⟨included, hroles, hnone⟩
  · next hknown =>
    have hkey : p.key ∈ keys := by simpa using hknown
    split at hstep
    · next hinclude =>
      obtain ⟨views, hviews, hstep⟩ := bind_eq_ok.1 hstep
      obtain rfl := Except.ok.inj hstep
      obtain ⟨included', hroles'⟩ := foldlM_ok
        (P := fun views => ∃ included, RolesInOrder foreign included views)
        (fun _ _ _ _ hv hstep => roles_includeTable hv hstep) ⟨included, hroles⟩ hviews
      exact ⟨included', hroles', fun hno => absurd (hinclude ▸ hkey) hno⟩
    · split at hstep
      · obtain ⟨l, -, hstep⟩ := bind_eq_ok.1 hstep
        obtain rfl := Except.ok.inj hstep
        exact ⟨included, (map_views_addLink (fun _ _ => rfl) l).trans hroles, hnone⟩
      · obtain ⟨i, -, hstep⟩ := bind_eq_ok.1 hstep
        obtain ⟨views, hviews, hstep⟩ := bind_eq_ok.1 hstep
        obtain rfl := Except.ok.inj hstep
        have hsame : views.map View.role = r.views.map View.role := map_changeView
          (fun v v' hok => (congrArg View.role (addressed_of_applyParam hok) :)) hviews
        exact ⟨included, hsame.trans hroles, hnone⟩

/-- **The roles of every request are in order.** -/
theorem roles_ofParts (h : ofParts ctx segments params write = .ok r) :
    ∃ foreign included, RolesInOrder foreign included r.views ∧ (write = true → included = 0) := by
  obtain ⟨views, hviews, h⟩ := bind_eq_ok.1 h
  obtain ⟨s, hs, hviews⟩ := bind_eq_ok.1 hviews
  have hpath := foldlM_ok
    (P := fun s : PathState => s.views = [] ∨ ∃ foreign, RolesInOrder foreign 0 s.views)
    (fun _ _ _ _ hv hstep => roles_pathStep hv hstep) (.inl rfl) hs
  split at hviews
  · simp at hviews
  · next hne =>
    obtain rfl := Except.ok.inj hviews
    obtain ⟨foreign, hroles⟩ := hpath.resolve_left fun hnil => hne (by simp [hnil])
    obtain ⟨included, hroles, hnone⟩ := foldlM_ok
      (fun _ _ _ _ hr hstep => roles_paramStep hr hstep) ⟨0, hroles, fun _ => rfl⟩ h
    refine ⟨foreign, included, hroles, fun hwrite => hnone ?_⟩
    rw [hwrite]
    decide

/-- So the first view of a request is the primary one, and no other one is. -/
theorem views_of_ofParts (h : ofParts ctx segments params write = .ok r) :
    ∃ rest, r.views = r.primary :: rest ∧ r.primary.role = .primary ∧
      ∀ v ∈ rest, v.role ≠ .primary := by
  obtain ⟨foreign, included, hroles, -⟩ := roles_ofParts h
  obtain ⟨first, rest, hviews, hfirst, hrest⟩ := List.map_eq_cons_iff.1 hroles
  have hprimary : r.primary = first := by
    rw [primary, hviews]
    rfl
  refine ⟨rest, hprimary ▸ hviews, hprimary ▸ hfirst, fun v hv => ?_⟩
  have hrole : v.role ∈ rest.map View.role := List.mem_map_of_mem hv
  rw [hrest] at hrole
  rcases List.mem_append.1 hrole with hforeign | hincluded
  · simp [(List.mem_replicate.1 hforeign).2]
  · simp [(List.mem_replicate.1 hincluded).2]

/-! ## Requests that were read -/

/-- **The parts of every request for tables fit together**, whatever the path and the parameters
mix, and its roles are in order; a writing request includes no table. -/
theorem parse_coherent (hcatalog : ctx.catalog.Built) {method path query : String}
    (h : parse ctx method path query write = .ok (.views r)) :
    r.Coherent ctx ∧ ∃ foreign included,
      RolesInOrder foreign included r.views ∧ (write = true → included = 0) :=
  ⟨.ofParts hcatalog (ofParts_of_parse h), roles_ofParts (ofParts_of_parse h)⟩

/-- A second database with parents, their children and their pets. -/
def household : Context where
  settings := { Settings.ofMain .sqlite "d" with databases := ["d", "e"] }
  models := .empty
  catalog :=
    let table (name column : String) (primaryKey : Option String) : Table :=
      { name, primaryKey, columns := [{ name := column, dataType := "int" }] }
    ((Catalog.empty.insertTable "e" (table "parents" "id" (some "id"))).insertTable "e"
      (table "children" "parent" none)).insertTable "e" (table "pets" "owner" (some "owner"))

/-- A request that names the parents twice, gives keys to tables with and without a primary key, and
links the pets before it includes them. -/
theorem parse_coherent_household :
    ∃ r : Request, r.database = "e" ∧ r.views.map View.table = ["parents", "children", "pets"] ∧
      r.views.map View.ids = [["7", "8"], [], []] ∧ r.relations.length = 1 ∧
      r.Coherent household ∧ ∃ foreign included,
        RolesInOrder foreign included r.views ∧ (false = true → included = 0) := by
  let query := "relation=parents.id,pets.owner&include=pets,children"
  have hparams : Query.parse query =
      [⟨none, "relation", "parents.id,pets.owner", "relation"⟩,
        ⟨none, "include", "pets,children", "include"⟩] := by
    decide +kernel
  have hranked : ranked (Query.parse query) =
      [⟨none, "include", "pets,children", "include"⟩,
        ⟨none, "relation", "parents.id,pets.owner", "relation"⟩] := by
    rw [hparams, ranked, List.mergeSort]
    simp [rank]
  have hread : ((parse household "GET" "/e/parents/6/children/5/parents/7,8" query
      false).toOption.bind Target.request?).any
      (fun r => decide (r.database = "e" ∧
        r.views.map View.table = ["parents", "children", "pets"] ∧
        r.views.map View.ids = [["7", "8"], [], []] ∧ r.relations.length = 1)) = true := by
    rw [parse_of_modelOf?_eq_none rfl, ofParts, hranked]
    decide +kernel
  obtain ⟨r, hfound, hparts⟩ := (Option.any_eq_true _ _).1 hread
  obtain ⟨hdatabase, htables, hids, hlinks⟩ := of_decide_eq_true hparts
  have hcatalog : household.catalog.Built :=
    ((Catalog.Built.empty.insertTable _ _).insertTable _ _).insertTable _ _
  exact ⟨r, hdatabase, htables, hids, hlinks, parse_coherent hcatalog (parse_of_request? hfound)⟩

end Request

end TableApi
