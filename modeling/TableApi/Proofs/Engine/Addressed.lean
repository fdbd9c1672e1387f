import TableApi.Proofs.Engine.Deletes
import TableApi.Proofs.Request.Addressed

/-!
# Deletes of rows by key

A delete of a whole table is possible, of the primary one. It is not what comes of a path that names
keys of that table's rows (`handle_delete_addressed`): the keys are among the conditions of its
delete, and no other table is deleted from without conditions. The table must have a primary key,
and the segment must name a key. Without either the segment means nothing, and the whole table is
deleted (`deletes_all_of_unkeyed`).
-/

namespace TableApi.Engine

variable {e : Engine} {method path query : String} {turns : List Turn}

/-- **What a delete sends**: its steps, and deletes within conditions, or of all rows of the primary
view. -/
theorem delete_of_mem_log (hmethod : Text.uppered method = "DELETE") {body : Option Json}
    {script : List Reply} {event : Event}
    (h : event ∈ ((e.handle method path query body).on ⟨script, [], false, turns⟩).2.log) :
    (∃ k, event = .step k) ∨ ∃ r : Request,
      Request.parse e.context (Text.uppered method) path query true = .ok (.views r) ∧
        ∃ v ∈ r.views, (v.role ≠ .primary → r.conditionsOf e.settings.dialect v ≠ []) ∧
          event = .execute true ⟨"DELETE FROM " ++ v.tableSql e.settings.dialect ++
            whereText (r.conditionsOf e.settings.dialect v), []⟩ := by
  have hallows := allows_of_log (List.ne_nil_of_mem h)
  have hverb : e.verb? (Text.uppered method) = some .delete := verb?_of_name hmethod hallows
  obtain ⟨r, hparse⟩ := exists_parse_of_log hverb (by simp) (List.ne_nil_of_mem h)
  have hlimited : ∀ v ∈ r.views, v.role ≠ .primary →
      r.conditionsOf e.settings.dialect v ≠ [] := by
    -- a view without conditions would have had the delete refused
    intro v hv hrole hnone
    rw [(refused_delete hmethod hparse body script turns (.inr ⟨v, hv, hrole, hnone⟩)).1] at h
    simp at h
  rcases (planned_delete hmethod hparse body script turns hallows hlimited).mem h with
    hstep | ⟨q, hq, rfl⟩
  · exact .inl hstep
  · obtain ⟨v, hv, rfl⟩ := List.mem_map.1 hq
    have hview : v ∈ r.views := r.inDeleteOrder_perm.mem_iff.1 hv
    exact .inr ⟨r, hparse, v, hview, hlimited v hview, rfl⟩

/-- The primary view of a request for rows by key, and the condition on these keys. -/
theorem primary_of_addressed {r : Request} {database pk : String} {schema : Table}
    (hparse : Request.parse e.context method path query true = .ok (.views r))
    (haddressed : r.primary.Addressed database schema) (hkey : schema.primaryKey = some pk) :
    r.primary ∈ r.views ∧ r.primary.role = .primary ∧ (∀ v ∈ r.views, v.role = .primary →
      v = r.primary) ∧ Filter.keysCondition e.settings.dialect schema.name pk r.primary.ids ∈
        r.conditionsOf e.settings.dialect r.primary := by
  obtain ⟨rest, hviews, hrole, hrest⟩ := Request.views_of_ofParts (Request.ofParts_of_parse hparse)
  have hmem : r.primary ∈ r.views := by simp [hviews]
  refine ⟨hmem, hrole, fun v hv hprimary => ?_, ?_⟩
  · rw [hviews] at hv
    exact (List.mem_cons.1 hv).resolve_right fun hlater => hrest v hlater hprimary
  · obtain ⟨pk', hpk', hfilter⟩ := ((keyed_of_parse hparse r.primary hmem).keyed haddressed.ids).2
    rw [View.primaryKey, haddressed.schema_eq, hkey] at hpk'
    obtain rfl := Option.some.inj hpk'
    rw [View.table, haddressed.schema_eq] at hfilter
    rw [Request.conditionsOf, hfilter]
    simp

/-- **A delete of rows by key**, for every query string, every body and every script of replies.
Where the path's first table has a primary key, and the next segment is no table and names a key,
that table is the primary view's of the request that is parsed, and the condition on the keys is
among the conditions of that view. Every delete that is sent is of a view of this request, within
its conditions, which there are. -/
theorem handle_delete_addressed (hmethod : Text.uppered method = "DELETE")
    {database table segment pk : String} {before after : List String} {schema : Table}
    (hpath : Request.chooseDatabase e.context (Request.segments path) =
      (database, before ++ table :: segment :: after))
    (hbefore : ∀ s ∈ before, e.catalog.table? database s = none)
    (htable : e.catalog.table? database table = some schema) (hkey : schema.primaryKey = some pk)
    (hsegment : e.catalog.table? database segment = none) (hids : Request.idsOf segment ≠ [])
    (query : String) (body : Option Json) (script : List Reply) (turns : List Turn) :
    let run := (e.handle method path query body).on ⟨script, [], false, turns⟩
    let d := e.settings.dialect
    (∀ r : Request, Request.parse e.context (Text.uppered method) path query true =
        .ok (.views r) →
      r.primary ∈ r.views ∧ r.primary.role = .primary ∧
        r.primary.database = database ∧ r.primary.schema = schema ∧
        ∃ ids, ids ≠ [] ∧
          Filter.keysCondition d schema.name pk ids ∈ r.conditionsOf d r.primary) ∧
      ∀ event ∈ run.2.log, (∃ k, event = .step k) ∨ ∃ r : Request,
        Request.parse e.context (Text.uppered method) path query true = .ok (.views r) ∧
          ∃ v ∈ r.views, (v.role = .primary → v = r.primary) ∧ r.conditionsOf d v ≠ [] ∧
            event = .execute true
              ⟨"DELETE FROM " ++ v.tableSql d ++ whereText (r.conditionsOf d v), []⟩ := by
  intro run
  have hrun : run = (e.handle method path query body).on ⟨script, [], false, turns⟩ := rfl
  clear_value run
  intro d
  have haddressed : ∀ {r : Request}, Request.parse e.context (Text.uppered method) path query
      true = .ok (.views r) → r.primary.Addressed database schema := fun hparse =>
    Request.addressed_of_ofParts hpath hbefore htable hkey hsegment hids
      (Request.ofParts_of_parse hparse)
  refine ⟨fun r hparse => ?_, fun event hevent => ?_⟩
  · obtain ⟨hmem, hrole, -, hcondition⟩ := primary_of_addressed hparse (haddressed hparse) hkey
    exact ⟨hmem, hrole, (haddressed hparse).database_eq, (haddressed hparse).schema_eq,
      r.primary.ids, (haddressed hparse).ids, hcondition⟩
  · rw [hrun] at hevent
    rcases delete_of_mem_log hmethod hevent with hstep | ⟨r, hparse, v, hv, hlimited, hsent⟩
    · exact .inl hstep
    obtain ⟨-, -, honly, hcondition⟩ := primary_of_addressed hparse (haddressed hparse) hkey
    refine .inr ⟨r, hparse, v, hv, honly v hv, ?_, hsent⟩
    by_cases hrole : v.role = .primary
    · rw [honly v hv hrole]
      exact List.ne_nil_of_mem hcondition
    · exact hlimited hrole

/-- The parents of two keys and their children are deleted, after a segment that names nothing. -/
theorem handle_delete_addressed_family :
    let query := "relation=parents.id,children.parent"
    let run := (family.handle "delete" "/x/parents/7,8/children" query none).on
      ⟨[], [], false, []⟩
    run.2.log.filterMap (fun event => event.statement?.map Statement.sql) =
        ["DELETE FROM \"d\".\"children\" WHERE (\"children\".\"parent\" IN (7,8))",
          "DELETE FROM \"d\".\"parents\" WHERE (\"parents\".\"id\" IN (7,8))"] ∧
      ∃ r : Request,
        Request.parse family.context "DELETE" "/x/parents/7,8/children" query true =
          .ok (.views r) ∧
        r.primary.database = "d" ∧ r.primary.schema.name = "parents" ∧
        (∃ ids, ids ≠ [] ∧ Filter.keysCondition .sqlite "parents" "id" ids ∈
          r.conditionsOf .sqlite r.primary) ∧
        ∀ event ∈ run.2.log, (∃ k, event = .step k) ∨
          ∃ v ∈ r.views, r.conditionsOf .sqlite v ≠ [] ∧ event = .execute true
            ⟨"DELETE FROM " ++ v.tableSql .sqlite ++ whereText (r.conditionsOf .sqlite v), []⟩ := by
  intro query run
  let parents : Table :=
    { name := "parents", primaryKey := some "id", columns := [{ name := "id", dataType := "int" }] }
  have hmethod : Text.uppered "delete" = "DELETE" := by decide +kernel
  have hpath : Request.chooseDatabase family.context
      (Request.segments "/x/parents/7,8/children") =
        ("d", ["x"] ++ "parents" :: "7,8" :: ["children"]) := by
    decide +kernel
  have htable : family.catalog.table? "d" "parents" = some parents := by decide +kernel
  have hlog : 0 < run.2.log.length := by decide +kernel
  obtain ⟨hprimary, hsent⟩ := handle_delete_addressed hmethod hpath (by decide +kernel) htable rfl
    (by decide +kernel) (by decide +kernel) query none [] []
  rw [hmethod] at hprimary hsent
  obtain ⟨r, hparse⟩ : ∃ r, Request.parse family.context "DELETE" "/x/parents/7,8/children"
      query true = .ok (.views r) :=
    hmethod ▸ exists_parse_of_log (v := .delete) (by decide +kernel) (by simp)
      (List.ne_nil_of_length_pos hlog)
  obtain ⟨-, -, hdatabase, hschema, hkeys⟩ := hprimary r hparse
  refine ⟨by decide +kernel, r, hparse, hdatabase, hschema ▸ rfl, hkeys, fun event hevent => ?_⟩
  rcases hsent event hevent with hstep | ⟨r', hparse', v, hv, -, hsome, hevent⟩
  · exact .inl hstep
  · obtain rfl := Target.views.inj (Except.ok.inj (hparse.symm.trans hparse'))
    exact .inr ⟨v, hv, hsome, hevent⟩

/-- **The whole table is deleted** where it has no primary key, and where the segment after it names
no key. -/
theorem deletes_all_of_unkeyed :
    let sent (path : String) : List String :=
      ((family.handle "delete" path "" none).on ⟨[], [], false, []⟩).2.log.filterMap fun event =>
        event.statement?.map Statement.sql
    (Request.segments "/children/5" = ["children", "5"] ∧ family.catalog.isTable "d" "5" = false ∧
        sent "/children/5" = ["DELETE FROM \"d\".\"children\""]) ∧
      (Request.segments "/parents/," = ["parents", ","] ∧ family.catalog.isTable "d" "," = false ∧
        sent "/parents/," = ["DELETE FROM \"d\".\"parents\""]) := by
  decide +kernel

end TableApi.Engine
