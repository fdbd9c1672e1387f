import TableApi.Proofs.Request.Addressed
import TableApi.Proofs.Text.Joined
import TableApi.Proofs.Text.Percent

/-!
# Keys in a path

A path names keys between commas, and every key may be written in codes. A segment is decoded before
it is cut, so a comma cuts whether it was written as it is or as a code: each key stands for the
pieces of it (`parse_keys`). A key without commas is read as it was meant, whatever else is in it,
and a key with a comma is read as two (`parse_splits_key`).
-/

namespace TableApi

/-- **A primary view of the rows of a table with these keys.** -/
structure View.Picks (database : String) (schema : Table) (ids : List String) (v : View) :
    Prop where
  role_eq : v.role = .primary
  database_eq : v.database = database
  schema_eq : v.schema = schema
  ids_eq : v.ids = ids

/-- Keys are always taken where the table has a primary key, and the dialect writes filters. -/
theorem View.exists_setIds {v : View} {d : Dialect} (hd : d.supportsFilters = true)
    (hkey : v.primaryKey.isSome = true) (hrole : v.role = .primary) (hnone : v.ids = [])
    (ids : List String) :
    ∃ v', v.setIds d ids = .ok v' ∧ v'.Picks v.database v.schema ids := by
  obtain ⟨pk, hpk⟩ := Option.isSome_iff_exists.1 hkey
  rw [setIds, hpk]
  by_cases hids : ids = []
  · subst hids
    exact ⟨v, rfl, hrole, rfl, rfl, hnone⟩
  · have hsql : Filter.equality d v.table pk ids = .ok (Filter.keysCondition d v.table pk ids) :=
      Filter.equality_eq_ok.2 ⟨hd, hids, rfl⟩
    dsimp only
    rw [if_neg (by simpa using hids), hsql]
    exact ⟨_, rfl, hrole, rfl, rfl, rfl⟩

namespace Request

/-! ## Keys of a segment -/

/-- A key without commas is the only one that it writes. -/
theorem idsOf_eq_singleton {id : String} (hne : id ≠ "") (htrim : Text.trimmed id = id)
    (hcomma : ',' ∉ id.toList) : idsOf id = [id] := by
  rw [idsOf, Query.piecesBetween_eq, List.splitOn_eq_singleton hcomma]
  simp [Text.trim_toList htrim, hne]

/-- No key that is read has a comma in it. -/
theorem comma_not_mem_of_mem_idsOf {segment id : String} (h : id ∈ idsOf segment) :
    ',' ∉ id.toList := by
  obtain ⟨piece, hpiece, rfl⟩ := List.mem_map.1 h
  obtain ⟨raw, hraw, rfl⟩ := List.mem_map.1 (List.mem_filter.1 hpiece).1
  rw [String.toList_ofList]
  exact fun hmem => Query.not_mem_of_mem_piecesBetween hraw (Text.trim_subset raw hmem)

/-- **Keys between commas** are read one after the other. -/
theorem idsOf_intercalate (ids : List String) :
    idsOf (",".intercalate ids) = ids.flatMap idsOf := by
  cases ids with
  | nil => rfl
  | cons id ids =>
    have hcomma : ",".toList = [','] := rfl
    have hne : (id :: ids).map String.toList ≠ [] := by simp
    rw [idsOf, String.toList_intercalate, hcomma, Query.piecesBetween_intercalate hne]
    simp only [List.flatMap_map, List.map_flatMap, List.filter_flatMap]
    rfl

/-- **They are read as they were meant** exactly where none of them has a comma in it. -/
theorem flatMap_idsOf_eq_self {ids : List String}
    (h : ∀ id ∈ ids, id ≠ "" ∧ Text.trimmed id = id) :
    ids.flatMap idsOf = ids ↔ ∀ id ∈ ids, ',' ∉ id.toList := by
  constructor
  · intro hsame id hid
    rw [← hsame] at hid
    obtain ⟨whole, -, hmem⟩ := List.mem_flatMap.1 hid
    exact comma_not_mem_of_mem_idsOf hmem
  · intro hcomma
    have hone : ∀ id ∈ ids, idsOf id = [id] := fun id hid =>
      idsOf_eq_singleton (h id hid).1 (h id hid).2 (hcomma id hid)
    rw [List.flatMap_congr hone, List.flatMap_singleton']

/-! ## The path -/

/-- **A path to rows of a table of the main database**, by these keys in these codes. -/
structure WritesKeys (ctx : Context) (table : String) (schema : Table) (ids codes : List String) :
    Prop where
  filters : ctx.settings.dialect.supportsFilters = true
  known : ctx.catalog.table? ctx.settings.mainDb table = some schema
  keyed : schema.primaryKey.isSome = true
  /-- The name of the table is written as it is. -/
  name : table ≠ "" ∧ Text.trimmed table = table ∧ '/' ∉ table.toList ∧ '%' ∉ table.toList
  /-- It is the name of no model. -/
  model : ctx.models.get? table = none
  ne_nil : ids ≠ []
  trimmed : ∀ id ∈ ids, id ≠ "" ∧ Text.trimmed id = id
  /-- The keys are not written as a table is. -/
  other : ctx.catalog.table? ctx.settings.mainDb (",".intercalate ids) = none
  coded : List.Forall₂
    (fun id code => Text.Percent.Coded ['/', '%', ','] id.toList code.toList) ids codes

namespace WritesKeys

variable {ctx : Context} {table : String} {schema : Table} {ids codes : List String}

theorem coded_intercalate (h : WritesKeys ctx table schema ids codes) :
    Text.Percent.Coded ['/', '%'] (",".intercalate ids).toList (",".intercalate codes).toList := by
  have hcomma : ",".toList = [','] := rfl
  rw [String.toList_intercalate, String.toList_intercalate, hcomma]
  refine Text.Percent.Coded.intercalate (by decide) ?_
  rw [List.forall₂_map_left_iff, List.forall₂_map_right_iff]
  exact h.coded.imp fun id code hcode => hcode.mono (by simp)

theorem trim_intercalate (h : WritesKeys ctx table schema ids codes) :
    Text.trim (",".intercalate ids).toList = (",".intercalate ids).toList := by
  have hcomma : ",".toList = [','] := rfl
  rw [String.toList_intercalate, hcomma]
  refine Text.trim_intercalate fun id hid => ?_
  obtain ⟨id, hmem, rfl⟩ := List.mem_map.1 hid
  obtain ⟨hne, htrim⟩ := h.trimmed id hmem
  exact ⟨String.toList_eq_nil_iff.not.2 hne, Text.trim_toList htrim⟩

theorem intercalate_ne (h : WritesKeys ctx table schema ids codes) : ",".intercalate ids ≠ "" := by
  cases ids with
  | nil => exact absurd rfl h.ne_nil
  | cons id rest =>
    have hid : id ≠ "" := (h.trimmed id (List.mem_cons_self ..)).1
    cases rest with
    | nil => simpa using hid
    | cons next rest => simp [String.intercalate_cons_cons]

/-- **The segments of the path** are the table's name and the keys between commas. -/
theorem segments_eq (h : WritesKeys ctx table schema ids codes) :
    segments ("/" ++ table ++ "/" ++ ",".intercalate codes) = [table, ",".intercalate ids] := by
  obtain ⟨hne, htrim, hslash, hpercent⟩ := h.name
  have hcodes := h.coded_intercalate
  have hslash' : '/' ∉ (",".intercalate codes).toList :=
    hcodes.not_mem (by simp) (by decide) (by decide)
  have hpath : ("/" ++ table ++ "/" ++ ",".intercalate codes).toList =
      [] ++ '/' :: (table.toList ++ '/' :: (",".intercalate codes).toList) := by
    simp [String.toList_append]
  have hpieces : Query.piecesBetween '/' ("/" ++ table ++ "/" ++ ",".intercalate codes).toList =
      [[], table.toList, (",".intercalate codes).toList] := by
    rw [hpath]
    simp only [Query.piecesBetween_eq]
    rw [List.splitOn_append_cons_self, List.splitOn_append_cons_self,
      List.splitOn_eq_singleton hslash, List.splitOn_eq_singleton hslash']
    rfl
  have hplain : Text.Percent.Coded ['%'] table.toList table.toList := by
    refine Text.Percent.coded_self fun c hc hmem => ?_
    obtain rfl := List.mem_singleton.1 hmem
    exact hpercent hc
  have hname : Text.Percent.decode table.toList = table.toList :=
    hplain.decode_eq (List.mem_singleton_self _)
  have hkeys : Text.Percent.decode (",".intercalate codes).toList = (",".intercalate ids).toList :=
    hcodes.decode_eq (by simp)
  have hnone : Text.Percent.decode [] = [] := rfl
  rw [segments, hpieces]
  simp only [List.map_cons, List.map_nil, hnone, hname, hkeys, Text.trim_toList htrim,
    h.trim_intercalate, String.ofList_toList]
  have hne' := h.intercalate_ne
  generalize ",".intercalate ids = keys at hne'
  have hblank : (String.ofList (Text.trim [])).isEmpty = true := rfl
  simp [hblank, hne, hne']

/-- **The view that is read of the path.** -/
theorem exists_pathViews (h : WritesKeys ctx table schema ids codes) :
    ∃ v : View, pathViews ctx ctx.settings.mainDb [table, ",".intercalate ids] = .ok [v] ∧
      v.Picks ctx.settings.mainDb schema (ids.flatMap idsOf) := by
  let start : View := { database := ctx.settings.mainDb, schema, role := .primary }
  obtain ⟨v, hset, hpicks⟩ := View.exists_setIds (v := start) h.filters h.keyed rfl rfl
    (idsOf (",".intercalate ids))
  have htable : pathStep ctx ctx.settings.mainDb {} table = .ok ⟨[start], some 0⟩ := by
    rw [pathStep, h.known]
    rfl
  have hkeys : pathStep ctx ctx.settings.mainDb ⟨[start], some 0⟩ (",".intercalate ids) =
      .ok ⟨[v], some 0⟩ := by
    rw [pathStep, h.other]
    dsimp only
    rw [changeView, List.getElem?_cons_zero]
    dsimp only
    rw [hset]
    rfl
  have hpath : [table, ",".intercalate ids].foldlM (pathStep ctx ctx.settings.mainDb) {} =
      .ok ⟨[v], some 0⟩ := by
    rw [List.foldlM_cons, htable]
    change [",".intercalate ids].foldlM (pathStep ctx ctx.settings.mainDb) ⟨[start], some 0⟩ = _
    rw [List.foldlM_cons, hkeys]
    rfl
  refine ⟨v, ?_, idsOf_intercalate ids ▸ hpicks⟩
  rw [pathViews, hpath]
  rfl

/-- **The request that is read of the path** and the parameters. -/
theorem ofParts_eq (h : WritesKeys ctx table schema ids codes) (params : List Param)
    (write : Bool) :
    ∃ v : View, v.Picks ctx.settings.mainDb schema (ids.flatMap idsOf) ∧
      ofParts ctx [table, ",".intercalate ids] params write =
        (ranked params).foldlM (paramStep ctx (knownKeys write))
          ⟨ctx.settings.mainDb, [v], [], []⟩ := by
  have hdatabase : chooseDatabase ctx [table, ",".intercalate ids] =
      (ctx.settings.mainDb, [table, ",".intercalate ids]) := by
    simp [chooseDatabase, Catalog.isTable, h.known]
  obtain ⟨v, hviews, hpicks⟩ := h.exists_pathViews
  refine ⟨v, hpicks, ?_⟩
  rw [ofParts, hdatabase]
  dsimp only
  rw [hviews]
  rfl

end WritesKeys

/-- A parameter leaves the keys of the primary view. -/
theorem first_picks_of_paramStep {ctx : Context} {database : String} {schema : Table}
    {ids keys : List String} {r r' : Request} {p : Param}
    (h : First (View.Picks database schema ids) r.views) (hstep : paramStep ctx keys r p = .ok r') :
    First (View.Picks database schema ids) r'.views := by
  refine h.paramStep
    (fun v relations hv => ⟨hv.role_eq, hv.database_eq, hv.schema_eq, hv.ids_eq⟩)
    (fun v v' hv hok => ?_) hstep
  have hsame := addressed_of_applyParam hok
  exact ⟨(congrArg View.role hsame :).trans hv.role_eq,
    (congrArg View.database hsame :).trans hv.database_eq,
    (congrArg View.schema hsame :).trans hv.schema_eq,
    (congrArg View.ids hsame :).trans hv.ids_eq⟩

namespace WritesKeys

variable {ctx : Context} {table : String} {schema : Table} {ids codes : List String}

/-- **How the path is read.** -/
theorem parse_eq (h : WritesKeys ctx table schema ids codes) (method query : String)
    (write : Bool) :
    parse ctx method ("/" ++ table ++ "/" ++ ",".intercalate codes) query write =
      (ofParts ctx [table, ",".intercalate ids] (Query.parse query) write).map .views := by
  have hmodel : modelOf? ctx (segments ("/" ++ table ++ "/" ++ ",".intercalate codes)) = none := by
    rw [h.segments_eq, modelOf?, h.model]
    rfl
  rw [parse_of_modelOf?_eq_none hmodel, h.segments_eq]

/-- A request that is read is for these rows, whatever the query string says. -/
theorem picks_of_parse (h : WritesKeys ctx table schema ids codes) {method query : String}
    {write : Bool} {target : Target}
    (hok : parse ctx method ("/" ++ table ++ "/" ++ ",".intercalate codes) query write =
      .ok target) :
    ∃ r : Request, target = .views r ∧
      r.primary.Picks ctx.settings.mainDb schema (ids.flatMap idsOf) := by
  obtain ⟨v, hpicks, hparts⟩ := h.ofParts_eq (Query.parse query) write
  rw [h.parse_eq, hparts] at hok
  obtain ⟨r, hr, rfl⟩ := map_eq_ok.1 hok
  have hfirst : First (View.Picks ctx.settings.mainDb schema (ids.flatMap idsOf)) [v] :=
    ⟨v, rfl, hpicks⟩
  obtain ⟨w, hw, hwpicks⟩ := foldlM_ok
    (P := fun r : Request => First (View.Picks ctx.settings.mainDb schema (ids.flatMap idsOf))
      r.views) (fun _ _ _ _ hr hstep => first_picks_of_paramStep hr hstep) hfirst hr
  have hprimary : r.primary = w := by
    rw [primary, List.headD_eq_head?_getD, Option.mem_def.1 hw]
    rfl
  exact ⟨r, rfl, hprimary ▸ hwpicks⟩

/-- Without a query string there is a request for them. -/
theorem exists_parse (h : WritesKeys ctx table schema ids codes) (method : String) (write : Bool) :
    ∃ r : Request,
      parse ctx method ("/" ++ table ++ "/" ++ ",".intercalate codes) "" write = .ok (.views r) ∧
        r.primary.Picks ctx.settings.mainDb schema (ids.flatMap idsOf) := by
  obtain ⟨v, -, hparts⟩ := h.ofParts_eq (Query.parse "") write
  have hnone : ranked (Query.parse "") = [] := List.mergeSort_nil
  have hok : parse ctx method ("/" ++ table ++ "/" ++ ",".intercalate codes) "" write =
      .ok (.views ⟨ctx.settings.mainDb, [v], [], []⟩) := by
    rw [h.parse_eq, hparts, hnone]
    rfl
  obtain ⟨r, hr, hpicks⟩ := h.picks_of_parse hok
  obtain rfl := Target.views.inj hr
  exact ⟨_, hok, hpicks⟩

end WritesKeys

/-- **The keys of a path**, for every such path. There is a request for it, and whatever the query
string says, a request that is read is for rows of the table. Their keys are the pieces between the
commas of the keys that were written, so they are the keys that were written exactly where none of
these has a comma in it. -/
theorem parse_keys {ctx : Context} {table : String} {schema : Table} {ids codes : List String}
    (h : WritesKeys ctx table schema ids codes) (method : String) (write : Bool) :
    let path := "/" ++ table ++ "/" ++ ",".intercalate codes
    (∃ r, parse ctx method path "" write = .ok (.views r)) ∧
      ∀ query target, parse ctx method path query write = .ok target →
        ∃ r : Request, target = .views r ∧
          r.primary.Picks ctx.settings.mainDb schema (ids.flatMap idsOf) ∧
          (r.primary.ids = ids ↔ ∀ id ∈ ids, ',' ∉ id.toList) := by
  intro path
  constructor
  · obtain ⟨r, hok, -⟩ := h.exists_parse method write
    exact ⟨r, hok⟩
  · intro query target hok
    obtain ⟨r, rfl, hpicks⟩ := h.picks_of_parse hok
    refine ⟨r, rfl, hpicks, ?_⟩
    rw [hpicks.ids_eq]
    exact flatMap_idsOf_eq_self h.trimmed

/-- A shop's articles, by their numbers. -/
def articles : Table where
  name := "articles"
  primaryKey := some "number"
  columns := [{ name := "number", dataType := "text" }]

/-- A shop with nothing else. -/
def shop : Context where
  settings := Settings.ofMain .sqlite "d"
  models := .empty
  catalog := Catalog.empty.insertTable "d" articles

theorem writesKeys_shop {ids codes : List String} (hne : ids ≠ [])
    (htrim : ∀ id ∈ ids, id ≠ "" ∧ Text.trimmed id = id)
    (hother : shop.catalog.table? "d" (",".intercalate ids) = none)
    (hcoded : List.Forall₂
      (fun id code => Text.Percent.Coded ['/', '%', ','] id.toList code.toList) ids codes) :
    WritesKeys shop "articles" articles ids codes where
  filters := rfl
  known := rfl
  keyed := rfl
  name := by decide +kernel
  model := rfl
  ne_nil := hne
  trimmed := htrim
  other := hother
  coded := hcoded

/-- Two numbers with a slash and a percent sign in them are read as they were meant. -/
theorem parse_keys_shop :
    ∃ r : Request, parse shop "GET" "/articles/a%2Fb,100%25" "" false = .ok (.views r) ∧
      r.primary.ids = ["a/b", "100%"] := by
  have hkeys : WritesKeys shop "articles" articles ["a/b", "100%"] ["a%2Fb", "100%25"] := by
    refine writesKeys_shop (by decide) (by decide +kernel) rfl (.cons ?_ (.cons ?_ .nil))
    · apply Text.Percent.Coded.plain (by decide)
      apply Text.Percent.Coded.byte rfl (by decide) (by decide)
      exact .plain (by decide) .nil
    · apply Text.Percent.Coded.plain (by decide)
      apply Text.Percent.Coded.plain (by decide)
      apply Text.Percent.Coded.plain (by decide)
      exact .byte rfl (by decide) (by decide) .nil
  obtain ⟨⟨r, hok⟩, hread⟩ := parse_keys hkeys "GET" false
  obtain ⟨r', hr', -, hids⟩ := hread "" (.views r) hok
  obtain rfl := Target.views.inj hr'
  exact ⟨r, hok, hids.2 (by decide +kernel)⟩

/-- **A number with a comma in it is read as two**, though the comma was written as a code. -/
theorem parse_splits_key :
    WritesKeys shop "articles" articles ["1,2"] ["1%2C2"] ∧
      ∃ r : Request, parse shop "DELETE" "/articles/1%2C2" "" true = .ok (.views r) ∧
        r.primary.ids = ["1", "2"] := by
  have hkeys : WritesKeys shop "articles" articles ["1,2"] ["1%2C2"] := by
    refine writesKeys_shop (by decide) (by decide +kernel) rfl (.cons ?_ .nil)
    apply Text.Percent.Coded.plain (by decide)
    apply Text.Percent.Coded.byte rfl (by decide) (by decide)
    exact .plain (by decide) .nil
  obtain ⟨r, hok, hpicks⟩ := hkeys.exists_parse "DELETE" true
  have hids : ["1,2"].flatMap idsOf = ["1", "2"] := by decide +kernel
  exact ⟨hkeys, r, hok, hpicks.ids_eq.trans hids⟩

end Request

end TableApi
