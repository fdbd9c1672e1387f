import TableApi.Proofs.Command.Deletes
import TableApi.Proofs.Engine.Access
import TableApi.Proofs.Request.Coherent

/-!
# What is deleted

An allowed delete is refused before anything is sent, or it deletes the rows of every view within
the conditions of that view, children before parents and all in one transaction (`handle_delete`).
These are the conditions that a read of the same address shows rows by (`deletes_what_is_read`), if
it asks for nothing but conditions and links.
-/

namespace TableApi

namespace Engine

variable {e : Engine} {method path query : String} {body : Option Json} {r : Request}
  {turns : List Turn}

/-- Nothing but conditions and links is asked of the views of a writing request. -/
theorem unshaped_of_parse (h : Request.parse e.context method path query true = .ok (.views r)) :
    ∀ v ∈ r.views, v.Unshaped :=
  Request.kept_unshaped.ofParts (Request.ofParts_of_parse h)

section Delete

variable (hmethod : Text.uppered method = Verb.delete.name)
  (hparse : Request.parse e.context (Text.uppered method) path query true = .ok (.views r))

include hmethod hparse

/-- **The plan of a delete**: its scopes are found, and then the deletes are the work. -/
theorem plan_delete (hallows : e.settings.allows (Text.uppered method) = true)
    (body : Option Json) :
    e.plan method path query body =
      (r.views.mapM (Command.deleteScope e.settings.dialect r)).map fun scopes =>
        .json <$> Command.deleteAll (Command.deletesAt e.settings.dialect r.views scopes
          (Relation.deleteOrder (r.views.map View.table) r.relations)) := by
  have hbody : bodyFor .delete body = .ok (body.getD .null) := rfl
  rw [plan_of_parse (v := .delete) hmethod hallows hparse, hbody]
  dsimp only [bind, Except.bind, Command.workOf, Command.Config.ofSettings]
  cases r.views.mapM (Command.deleteScope e.settings.dialect r) <;> rfl

/-- A delete that is refused before anything is sent. -/
theorem refused_delete (body : Option Json) (script : List Reply) (turns : List Turn)
    (h : e.settings.allows (Text.uppered method) = false ∨
      ∃ v ∈ r.views, v.role ≠ .primary ∧ r.conditionsOf e.settings.dialect v = []) :
    let run := (e.handle method path query body).on ⟨script, [], false, turns⟩
    run.2.log = [] ∧ ∃ why, run.1 = .error why := by
  have hmodel := Request.modelOf?_of_parse hparse
  cases hallows : e.settings.allows (Text.uppered method) with
  | false =>
    rw [handle_of_not_allowed hallows]
    exact ⟨rfl, _, rfl⟩
  | true =>
    obtain ⟨v, hv, hrole, hnone⟩ := h.resolve_left (by simp [hallows])
    cases hplan : e.plan method path query body with
    | error why =>
      rw [on_handle_of_refused (v := .delete) rfl hmethod hmodel hplan]
      exact ⟨rfl, why, rfl⟩
    | ok work =>
      rw [plan_delete hmethod hparse hallows body] at hplan
      obtain ⟨scopes, hscopes, -⟩ := map_eq_ok.1 hplan
      obtain ⟨hlimited, -⟩ := (Command.deleteScopes_eq_ok (keyed_of_parse hparse)).1 hscopes
      exact absurd hnone (hlimited v hv hrole)

theorem planned_delete (body : Option Json) (script : List Reply) (turns : List Turn)
    (hallows : e.settings.allows (Text.uppered method) = true)
    (hlimited : ∀ v ∈ r.views, v.role ≠ .primary → r.conditionsOf e.settings.dialect v ≠ []) :
    InTurn (r.deletes e.settings.dialect)
      (told script ((e.handle method path query body).on ⟨script, [], false, turns⟩).2.log) := by
  have hscopes := (Command.deleteScopes_eq_ok (keyed_of_parse hparse)).2 ⟨hlimited, rfl⟩
  have hplan := plan_delete hmethod hparse hallows body
  rw [hscopes] at hplan
  rw [on_handle_of_planned (v := .delete) rfl hmethod (Request.modelOf?_of_parse hparse) hplan]
  refine inTurn_transaction (fun s hs => ?_) script turns
  obtain ⟨events, hsession, hloop⟩ := Command.on_deleteAll (Command.deletesAt e.settings.dialect
    r.views (r.views.map fun v => View.conjunction? (r.conditionsOf e.settings.dialect v))
    (Relation.deleteOrder (r.views.map View.table) r.relations)) hs
  rw [Command.map_snd_deletesAt] at hloop
  rw [Work.on_map]
  exact ⟨events, hsession, hloop.map Output.json⟩

end Delete

/-- **What a delete does**, for every request for tables and every script of replies. Either it is
refused, for a method that is not allowed or a view other than the primary one that has no
conditions, and nothing is sent. Or it sends one delete for each view, in turn until all succeeded
or one failed, and all in one transaction; the views come in the reverse of the order of writing, so
that without a cycle of links each child comes before its parent. -/
theorem handle_delete (hmethod : Text.uppered method = "DELETE")
    (hparse : Request.parse e.context (Text.uppered method) path query true = .ok (.views r))
    (body : Option Json) (script : List Reply) (turns : List Turn) :
    let run := (e.handle method path query body).on ⟨script, [], false, turns⟩
    let scope := r.conditionsOf e.settings.dialect
    ((run.2.log = [] ∧ (∃ why, run.1 = .error why) ∧
          (e.settings.allows "DELETE" = false ∨
            ∃ v ∈ r.views, v.role ≠ .primary ∧ scope v = [])) ∨
        (e.settings.allows "DELETE" = true ∧ (∀ v ∈ r.views, v.role ≠ .primary → scope v ≠ []) ∧
          InTurn (r.deletes e.settings.dialect) (told script run.2.log))) ∧
      r.inDeleteOrder.Perm r.views ∧
      (e.catalog.Built → Relation.Acyclic (Relation.Leads r.relations) → ∀ l ∈ r.relations,
        l.parentTable ≠ l.childTable → ∀ parent ∈ r.views, ∀ child ∈ r.views,
          parent.table = l.parentTable → child.table = l.childTable →
            [child, parent].Sublist r.inDeleteOrder) := by
  refine ⟨?_, r.inDeleteOrder_perm, fun hcatalog hacyclic l hl hne parent hp child hc =>
    Request.inDeleteOrder_sublist
      (Request.Coherent.ofParts hcatalog (Request.ofParts_of_parse hparse)).tables hacyclic hl hne
      hp hc⟩
  by_cases hrefused : e.settings.allows "DELETE" = false ∨
      ∃ v ∈ r.views, v.role ≠ .primary ∧ r.conditionsOf e.settings.dialect v = []
  · rw [← hmethod] at hrefused ⊢
    obtain ⟨hlog, hanswer⟩ := refused_delete hmethod hparse body script turns hrefused
    exact .inl ⟨hlog, hanswer, hrefused⟩
  · obtain ⟨hallows, hlimited⟩ := not_or.1 hrefused
    have hallows : e.settings.allows "DELETE" = true := by simpa using hallows
    have hlimited : ∀ v ∈ r.views, v.role ≠ .primary →
        r.conditionsOf e.settings.dialect v ≠ [] :=
      fun v hv hrole hnone => hlimited ⟨v, hv, hrole, hnone⟩
    exact .inr ⟨hallows, hlimited,
      planned_delete hmethod hparse body script turns (hmethod ▸ hallows) hlimited⟩

/-- A service for a table of parents and one of their children, which may delete. -/
def family : Engine where
  settings := (Settings.ofMain .sqlite "d").withMethods ["DELETE"]
  models := .empty
  catalog :=
    let table (name : String) (primaryKey : Option String) (column : String) : Table :=
      { name, primaryKey, columns := [{ name := column, dataType := "int" }] }
    (Catalog.empty.insertTable "d" (table "parents" (some "id") "id")).insertTable "d"
      (table "children" none "parent")

/-- The children of one parent are deleted before it. -/
theorem handle_delete_family :
    let run := (family.handle "delete" "/parents/7/children" "relation=parents.id,children.parent"
      none).on ⟨[], [], false, []⟩
    ∃ r : Request, InTurn (r.deletes .sqlite) (told [] run.2.log) ∧
      ∃ parent child : View, parent.ids = ["7"] ∧ child.table = "children" ∧
        [child, parent].Sublist r.inDeleteOrder := by
  intro run
  let l : Link := ⟨"parents", "id", "children", "parent"⟩
  have hread : ((Request.parse family.context "DELETE" "/parents/7/children"
      "relation=parents.id,children.parent" true).toOption.bind Target.request?).any
      (fun r => decide (r.relations = [l]) &&
        r.views.map (fun v => (v.table, v.ids)) ==
          [("parents", ["7"]), ("children", [])]) = true := by
    decide +kernel
  have hmethod : Text.uppered "delete" = "DELETE" := by decide +kernel
  have hlog : run.2.log.length = 4 := by decide +kernel
  obtain ⟨r, hfound, hparts⟩ := (Option.any_eq_true _ _).1 hread
  obtain ⟨hlinks, hviews⟩ : r.relations = [l] ∧
      r.views.map (fun v => (v.table, v.ids)) = [("parents", ["7"]), ("children", [])] := by
    simpa using hparts
  obtain ⟨parent, rest, hr, hparent, hrest⟩ := List.map_eq_cons_iff.1 hviews
  obtain ⟨child, rest', rfl, hchild, -⟩ := List.map_eq_cons_iff.1 hrest
  obtain ⟨hptable, hids⟩ := Prod.mk.inj hparent
  obtain ⟨hctable, -⟩ := Prod.mk.inj hchild
  obtain ⟨hgoes, -, horder⟩ :=
    handle_delete hmethod (hmethod ▸ Request.parse_of_request? hfound) none [] []
  obtain ⟨-, -, hturns⟩ := hgoes.resolve_left fun h => by
    rw [h.1] at hlog
    simp at hlog
  have hpair := horder ((Catalog.Built.empty.insertTable _ _).insertTable _ _)
    (hlinks ▸ Relation.acyclic_leads_singleton l) l (by simp [hlinks]) (by decide)
    parent (by simp [hr]) child (by simp [hr]) hptable hctable
  exact ⟨r, hturns, parent, child, hids, hctable, hpair⟩

/-! ## Reading and deleting -/

/-- **What a read sends** that asks for nothing but conditions and links: the select of each view,
within the conditions of the view. -/
theorem sendsApart_of_get (hmethod : Text.uppered method = "GET")
    (hparse : Request.parse e.context (Text.uppered method) path query false = .ok (.views r))
    (hplain : ∀ v ∈ r.views, v.Unshaped) (body : Option Json) :
    Work.SendsApart (e.handle method path query body) (r.views.map fun v =>
      .fetch false ⟨"SELECT " ++ v.selectList e.settings.dialect ++ " FROM " ++
        v.tableSql e.settings.dialect ++ whereText (r.conditionsOf e.settings.dialect v), []⟩) := by
  have hverb : e.verb? (Text.uppered method) = some .get := by rw [hmethod, verb?_get]
  have hserve : e.handle method path query body = e.serve .get body (.views r) := by
    rw [handle_of_some hverb (by simp), Verb.isWrite, hparse]
    rfl
  have hselects := List.map_congr_left fun v hv =>
    congrArg (Event.fetch false)
      (Command.selectOf_of_unshaped (r := r) (d := e.settings.dialect) (hplain v hv))
  rw [hserve, ← hselects]
  exact (reads_of_parse body hparse).1

/-- A read that sends anything is for tables. -/
theorem exists_parse_of_get (hmethod : Text.uppered method = "GET") (script : List Reply)
    (turns : List Turn)
    (hlog : ((e.handle method path query body).on ⟨script, [], false, turns⟩).2.log ≠ []) :
    ∃ r, Request.parse e.context (Text.uppered method) path query false = .ok (.views r) :=
  exists_parse_of_log (v := .get) (by rw [hmethod, verb?_get]) (by simp) hlog

/-- **A delete deletes what a read shows**, for every address whose parameters are conditions and
links. Where both get as far as sending something, they are for the same views, and the select and
the delete of each view end in the same conditions. -/
theorem deletes_what_is_read {read delete : String} (hread : Text.uppered read = "GET")
    (hdelete : Text.uppered delete = "DELETE")
    (hkeys : ∀ p ∈ Query.parse query, p.key ∈ ["filter", "where", "relation"])
    (readBody deleteBody : Option Json) (readScript deleteScript : List Reply)
    (readTurns deleteTurns : List Turn) :
    let shows := (e.handle read path query readBody).on ⟨readScript, [], false, readTurns⟩
    let deleted :=
      ((e.handle delete path query deleteBody).on ⟨deleteScript, [], false, deleteTurns⟩).2.log
    let d := e.settings.dialect
    shows.2.log ≠ [] → deleted ≠ [] → ∃ r : Request,
      Request.parse e.context "GET" path query false = .ok (.views r) ∧
        Request.parse e.context "DELETE" path query true = .ok (.views r) ∧
        SentApart readTurns (∃ out, shows.1 = .ok out) (r.views.map fun v => .fetch false
          ⟨"SELECT " ++ v.selectList d ++ " FROM " ++ v.tableSql d ++
            whereText (r.conditionsOf d v), []⟩) shows.2.log ∧
        r.inDeleteOrder.Perm r.views ∧
        InTurn (r.inDeleteOrder.map fun v =>
          ⟨"DELETE FROM " ++ v.tableSql d ++ whereText (r.conditionsOf d v), []⟩)
            (told deleteScript deleted) := by
  intro shows deleted d hshown hdeleted
  have hshows : shows = (e.handle read path query readBody).on
      ⟨readScript, [], false, readTurns⟩ := rfl
  clear_value shows
  obtain ⟨r, hparse⟩ := exists_parse_of_get hread readScript readTurns (hshows ▸ hshown)
  -- the delete reads the same parts
  have hparts : Request.ofParts e.context (Request.segments path) (Query.parse query) true =
      .ok r := by
    rw [← Request.ofParts_read_eq_write hkeys]
    exact Request.ofParts_of_parse hparse
  have hwritten : Request.parse e.context (Text.uppered delete) path query true =
      .ok (.views r) := by
    rw [Request.parse_of_modelOf?_eq_none (Request.modelOf?_of_parse hparse), hparts]
    rfl
  have hselects := sendsApart_of_get hread hparse (unshaped_of_parse hwritten) readBody readScript
    readTurns
  rw [← hshows] at hselects
  have haccepted : ¬(e.settings.allows (Text.uppered delete) = false ∨
      ∃ v ∈ r.views, v.role ≠ .primary ∧ r.conditionsOf d v = []) := by
    intro hrefused
    exact hdeleted (refused_delete hdelete hwritten deleteBody deleteScript deleteTurns hrefused).1
  obtain ⟨hallows, hlimited⟩ := not_or.1 haccepted
  have hturns := planned_delete hdelete hwritten deleteBody deleteScript deleteTurns
    (by simpa using hallows) fun v hv hrole hnone => hlimited ⟨v, hv, hrole, hnone⟩
  rw [hread] at hparse
  rw [hdelete] at hwritten
  exact ⟨r, hparse, hwritten, hselects, r.inDeleteOrder_perm, hturns⟩

/-- Both for the children of one parent. -/
theorem deletes_what_is_read_family :
    let query := "relation=parents.id,children.parent"
    let shown := ((family.handle "get" "/parents/7/children" query none).on
      ⟨[], [], false, []⟩).2.log
    let deleted := ((family.handle "delete" "/parents/7/children" query none).on
      ⟨[], [], false, []⟩).2.log
    ∃ r : Request,
      shown = (r.views.map fun v => .fetch false
        ⟨"SELECT " ++ v.selectList .sqlite ++ " FROM " ++ v.tableSql .sqlite ++
          whereText (r.conditionsOf .sqlite v), []⟩) ∧
      shown.length = r.views.length ∧
      InTurn (r.inDeleteOrder.map fun v =>
        ⟨"DELETE FROM " ++ v.tableSql .sqlite ++ whereText (r.conditionsOf .sqlite v), []⟩)
          (told [] deleted) := by
  intro query shown deleted
  have hshown : shown ≠ [] := by
    have hlength : shown.length = 2 := by decide +kernel
    exact List.ne_nil_of_length_eq_add_one hlength
  have hdeleted : deleted ≠ [] := by
    have hlength : deleted.length = 4 := by decide +kernel
    exact List.ne_nil_of_length_eq_add_one hlength
  have hget : Text.uppered "get" = "GET" := by decide +kernel
  have hdelete : Text.uppered "delete" = "DELETE" := by decide +kernel
  have hkeys : ∀ p ∈ Query.parse query, p.key ∈ ["filter", "where", "relation"] := by
    decide +kernel
  obtain ⟨r, -, -, hselects, -, hturns⟩ :=
    deletes_what_is_read hget hdelete hkeys none none [] [] [] [] hshown hdeleted
  have hall : shown = _ := hselects.alone rfl
  refine ⟨r, hall, ?_, hturns⟩
  rw [hall, List.length_map]

end Engine

end TableApi
