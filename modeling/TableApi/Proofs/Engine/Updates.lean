import TableApi.Proofs.Engine.Deletes
import TableApi.Proofs.Engine.Saves

/-!
# The rows that are updated

An update or a save of one row is for the rows within the view's own conditions, or for the row of
the body's key where the view has none (`View.updateScope`, `handle_update`). The conditions that
links put on a view are not among these, though a read and a delete have them. So where a link
narrows the primary view, more rows are updated than a delete of the same address is for
(`updates_beyond_deletes`). Where none does, they are the same.
-/

namespace TableApi

namespace View

variable {d : Dialect} {v : View}

/-- The condition on the key that a row gives, if it gives one. -/
def bodyKey? (d : Dialect) (v : View) (row : Row) : Option String :=
  v.primaryKey.bind fun pk =>
    (Relation.rowKey? row pk).map fun key => Filter.keysCondition d v.table pk [key]

/-- **The conditions on the rows that a single row is written to.** -/
def updateScope (d : Dialect) (v : View) (row : Row) : List String :=
  if v.ownConditions = [] then (v.bodyKey? d row).toList else v.ownConditions

/-- The conditions of a view that was read are its own, as they were asked for. -/
theorem Keyed.whereClause?_eq (h : v.Keyed d) : v.whereClause? = conjunction? v.ownConditions := by
  refine congrArg conjunction? (List.filter_eq_self.2 fun c hc => ?_)
  simpa using h.ownConditions_ne_empty c hc

/-- All of the view's own conditions are among them. -/
theorem mem_updateScope {row : Row} {c : String} (h : c ∈ v.ownConditions) :
    c ∈ v.updateScope d row := by
  rw [updateScope, if_neg (List.ne_nil_of_mem h)]
  exact h

/-- Where no link narrows the view, and it has conditions, they are the conditions of the view. -/
theorem updateScope_eq {r : Request} {row : Row} (hlinks : r.linkConditions d v = [])
    (hsome : r.conditionsOf d v ≠ []) : v.updateScope d row = r.conditionsOf d v := by
  have hown : r.conditionsOf d v = v.ownConditions := by
    rw [Request.conditionsOf, hlinks, List.append_nil, ownConditions]
  rw [hown] at hsome ⊢
  exact if_neg hsome

end View

namespace Command

variable {d : Dialect} {v : View} {row : Row}

/-- The condition on the key that a row gives. -/
theorem keyFilter_eq_ok {condition : Option String} (h : keyFilter d v row = .ok condition) :
    condition = v.bodyKey? d row := by
  rw [keyFilter] at h
  rw [View.bodyKey?]
  cases hpk : v.primaryKey with
  | none =>
    rw [hpk] at h
    exact (Except.ok.inj h).symm
  | some pk =>
    rw [hpk] at h
    dsimp only [Option.bind] at h ⊢
    cases hkey : Relation.rowKey? row pk with
    | none =>
      rw [hkey] at h
      exact (Except.ok.inj h).symm
    | some key =>
      rw [hkey] at h
      obtain ⟨sql, hsql, rfl⟩ := map_eq_ok.1 h
      obtain ⟨-, -, rfl⟩ := Filter.equality_eq_ok.1 (mapError_eq_ok.1 hsql)
      rfl

/-- **The scope of a single row** is the conjunction of these conditions. -/
theorem rowScope_eq_ok (hkeyed : v.Keyed d) {scope : Option String}
    (h : rowScope d v row = .ok scope) : scope = View.conjunction? (v.updateScope d row) := by
  rw [rowScope, hkeyed.whereClause?_eq] at h
  rw [View.updateScope]
  cases hown : v.ownConditions with
  | nil =>
    rw [hown] at h
    rw [if_pos rfl]
    obtain ⟨condition, hcondition, rfl⟩ := map_eq_ok.1 h
    rw [keyFilter_eq_ok hcondition]
    cases v.bodyKey? d row <;> simp [View.conjunction?]
  | cons c cs =>
    rw [hown] at h
    rw [if_neg (List.cons_ne_nil c cs)]
    exact (Except.ok.inj h).symm

/-- **A statement within conditions**: a check whether a row is within them, or an update of the
rows that are. -/
def StaysWithin (d : Dialect) (v : View) (row : Row) (conditions : List String) (q : Statement) :
    Prop :=
  q.sql = "SELECT 1 AS present FROM " ++ v.tableSql d ++ whereText conditions ++
      d.paginate none (some 1) false ∨
    q.sql = "UPDATE " ++ v.tableSql d ++ " SET " ++
      ", ".intercalate (View.assignments d 0 (v.updatedColumns row)) ++ whereText conditions

/-- What is checked and updated in the scope of a row stays within the conditions. -/
theorem staysWithin_updateScope (hkeyed : v.Keyed d) {condition : String}
    (hscope : rowScope d v row = .ok (some condition)) {q : Statement}
    (hq : q = v.exists_ d condition ∨ v.update d row condition = .ok q) :
    v.updateScope d row ≠ [] ∧ StaysWithin d v row (v.updateScope d row) q := by
  have hconjunction := rowScope_eq_ok hkeyed hscope
  have hwhere : " WHERE " ++ condition = whereText (v.updateScope d row) := by
    rw [← View.elim_conjunction?, ← hconjunction]
    rfl
  refine ⟨?_, ?_⟩
  · intro hnone
    rw [hnone] at hconjunction
    simp [View.conjunction?] at hconjunction
  · rw [StaysWithin, ← hwhere]
    rcases hq with rfl | hupdate
    · left
      rw [View.sql_exists]
      simp only [String.append_assoc]
    · right
      rw [View.sql_of_update hupdate]
      simp only [String.append_assoc]

/-- The update of a single row is one within its scope. -/
theorem updateOne_eq_ok {q : Statement} (h : updateOne d v row = .ok q) :
    ∃ condition, rowScope d v row = .ok (some condition) ∧ v.update d row condition = .ok q := by
  obtain ⟨scope, hscope, h⟩ := bind_eq_ok.1 h
  cases scope with
  | none => simp at h
  | some condition => exact ⟨condition, hscope, h⟩

/-- **What is sent for the update of a single row.** -/
theorem log_of_patch (c : Config) (r : Request) (row : Row) (script : List Reply)
    (turns : List Turn) {event : Event}
    (h : event ∈ ((patch c r (.object row)).on ⟨script, [], false, turns⟩).2.log) :
    ∃ q, updateOne c.dialect r.primary row = .ok q ∧ event = .execute false q := by
  have hpatch : patch c r (.object row) = Work.ofExcept (updateOne c.dialect r.primary row) >>=
      fun q => (fun n => .object [(r.primary.table, .ofNat n)]) <$> Work.execute q := rfl
  rw [hpatch, Work.on_bind, Work.on_ofExcept] at h
  cases hupdate : updateOne c.dialect r.primary row with
  | error why =>
    rw [hupdate] at h
    simp at h
  | ok q =>
    rw [hupdate] at h
    dsimp only at h
    rw [Work.on_map, Work.on_execute_eq] at h
    exact ⟨q, rfl, List.mem_singleton.1 h⟩

end Command

namespace Engine

open Command

variable {e : Engine} {method path query : String} {r : Request} {turns : List Turn}

/-- The conditions of the primary view are well-formed. -/
theorem keyed_primary
    (hparse : Request.parse e.context (Text.uppered method) path query true = .ok (.views r)) :
    r.primary.Keyed e.settings.dialect := by
  obtain ⟨rest, hviews, -⟩ := Request.views_of_ofParts (Request.ofParts_of_parse hparse)
  exact keyed_of_parse hparse r.primary (by rw [hviews]; exact List.mem_cons_self ..)

theorem update_of_mem_log (hmethod : Text.uppered method = "PATCH")
    (hparse : Request.parse e.context (Text.uppered method) path query true = .ok (.views r))
    {row : Row} {script : List Reply} {event : Event}
    (h : event ∈
      ((e.handle method path query (some (.object row))).on ⟨script, [], false, turns⟩).2.log) :
    ∃ q, updateOne e.settings.dialect r.primary row = .ok q ∧ event = .execute false q := by
  have hallows := allows_of_log (List.ne_nil_of_mem h)
  have hserve : e.serve .patch (some (.object row)) (.views r) =
      .json <$> patch (.ofSettings e.settings) r (.object row) := rfl
  rw [handle_of_some (verb?_of_name (v := .patch) hmethod hallows) (by simp), Verb.isWrite, hparse,
    Work.on_bind, Work.on_ofExcept] at h
  dsimp only at h
  rw [hserve, Work.on_map] at h
  exact log_of_patch (.ofSettings e.settings) r row script turns h

theorem saving_of_mem_log (hmethod : Text.uppered method = "PUT")
    (hparse : Request.parse e.context (Text.uppered method) path query true = .ok (.views r))
    {row : Row} {script : List Reply} {event : Event}
    (h : event ∈
      ((e.handle method path query (some (.object row))).on ⟨script, [], false, turns⟩).2.log) :
    (∃ k, event = .step k) ∨ .ok event ∈ (saving e.settings.dialect r.primary row
      (rowScope e.settings.dialect r.primary row) script).agenda := by
  have hallows := allows_of_log (List.ne_nil_of_mem h)
  have hpayload : Payload.ofBody (.object row) = .ok (.one row) := rfl
  obtain ⟨work, sent, hfollows, henclosed, -⟩ :=
    follows_put hmethod hparse hallows hpayload script turns
  have hagenda := henclosed.mem_agenda hfollows h
  rwa [Payload.savings, Payload.rows, savings, savings, List.flatMap_singleton] at hagenda

theorem written_of_mem_log (hmethod : Text.uppered method ∈ ["PATCH", "PUT"])
    (hparse : Request.parse e.context (Text.uppered method) path query true = .ok (.views r))
    {row : Row} {script : List Reply} {event : Event}
    (h : event ∈
      ((e.handle method path query (some (.object row))).on ⟨script, [], false, turns⟩).2.log)
    {q : Statement} (hq : event.statement? = some q) :
    (Text.uppered method = "PUT" ∧ r.primary.insert e.settings.dialect [row] = .ok q) ∨
      ∃ condition, rowScope e.settings.dialect r.primary row = .ok (some condition) ∧
        (q = r.primary.exists_ e.settings.dialect condition ∨
          r.primary.update e.settings.dialect row condition = .ok q) := by
  rcases List.mem_pair.1 hmethod with hpatch | hput
  · obtain ⟨q', hupdate, rfl⟩ := update_of_mem_log hpatch hparse h
    obtain rfl := Option.some.inj hq
    obtain ⟨condition, hscope, hq'⟩ := updateOne_eq_ok hupdate
    exact .inr ⟨condition, hscope, .inr hq'⟩
  · rcases saving_of_mem_log hput hparse h with ⟨k, rfl⟩ | hmem
    · simp [Event.statement?] at hq
    rcases event_of_mem_saving hmem with ⟨q', hinsert, rfl⟩ | ⟨condition, hscope, hsent⟩
    · rw [statement?_insertEvent] at hq
      obtain rfl := Option.some.inj hq
      exact .inl ⟨hput, hinsert⟩
    · refine .inr ⟨condition, hscope, ?_⟩
      rcases hsent with rfl | ⟨q', hupdate, rfl⟩
      · exact .inl (Option.some.inj hq).symm
      · obtain rfl := Option.some.inj hq
        exact .inr hupdate

/-- **What an update or a save of a single row is for**, for every request for tables and every
script of replies. What is checked and updated stays within the scope of the row, which has all of
the view's own conditions. Where no link narrows the view, and a delete of the same address is not
for all of its rows, the scope is that of the delete. -/
theorem handle_update (hmethod : Text.uppered method ∈ ["PATCH", "PUT"])
    (hparse : Request.parse e.context (Text.uppered method) path query true = .ok (.views r))
    (row : Row) (script : List Reply) (turns : List Turn) :
    let run := (e.handle method path query (some (.object row))).on ⟨script, [], false, turns⟩
    let d := e.settings.dialect
    let v := r.primary
    let scope := v.updateScope d row
    (∀ event ∈ run.2.log, ∀ q, event.statement? = some q →
        (Text.uppered method = "PUT" ∧ v.insert d [row] = .ok q) ∨
          (scope ≠ [] ∧ StaysWithin d v row scope q)) ∧
      (∀ c ∈ v.ownConditions, c ∈ scope) ∧
      (r.linkConditions d v = [] → r.conditionsOf d v ≠ [] → scope = r.conditionsOf d v) := by
  refine ⟨fun event hevent q hq => ?_, fun c => View.mem_updateScope, View.updateScope_eq⟩
  rcases written_of_mem_log hmethod hparse hevent hq with hinsert | ⟨condition, hscope, hwritten⟩
  · exact .inl hinsert
  · exact .inr (staysWithin_updateScope (keyed_primary hparse) hscope hwritten)

/-- A service for a table of parents and one of their children with ages, which may update, save and
delete. -/
def playground : Engine where
  settings := (Settings.ofMain .sqlite "d").withMethods ["PATCH", "PUT", "DELETE"]
  models := .empty
  catalog :=
    let table (name : String) (columns : List String) : Table :=
      { name, primaryKey := some "id",
        columns := columns.map fun name => { name, dataType := "int" } }
    (Catalog.empty.insertTable "d" (table "parents" ["id"])).insertTable "d"
      (table "children" ["id", "parent", "age"])

/-- An update of one child, if it is older than three. -/
theorem handle_update_playground :
    let row : Row := [("age", .ofNat 9)]
    let run := (playground.handle "patch" "/children/5" "filter=age,gt,3" (some (.object row))).on
      ⟨[.count 1], [], false, []⟩
    run.2.log.length = 1 ∧ ∃ r : Request,
      r.conditionsOf .sqlite r.primary = ["\"children\".\"id\" = 5", "age > 3"] ∧
        ∀ event ∈ run.2.log, ∀ q, event.statement? = some q →
          StaysWithin .sqlite r.primary row (r.conditionsOf .sqlite r.primary) q := by
  intro row run
  have hmethod : Text.uppered "patch" = "PATCH" := by decide +kernel
  have hread : ((Request.parse playground.context "PATCH" "/children/5" "filter=age,gt,3"
      true).toOption.bind Target.request?).any (fun r =>
        decide (r.linkConditions .sqlite r.primary = [] ∧ r.conditionsOf .sqlite r.primary =
          ["\"children\".\"id\" = 5", "age > 3"])) = true := by
    decide +kernel
  obtain ⟨r, hfound, hparts⟩ := (Option.any_eq_true _ _).1 hread
  obtain ⟨hlinks, hconditions⟩ := of_decide_eq_true hparts
  obtain ⟨hwritten, -, hscope⟩ := handle_update (by simp [hmethod])
    (hmethod ▸ Request.parse_of_request? hfound) row [.count 1] []
  have hsome : r.conditionsOf .sqlite r.primary ≠ [] := by simp [hconditions]
  have hsame : r.primary.updateScope .sqlite row = r.conditionsOf .sqlite r.primary :=
    hscope hlinks hsome
  refine ⟨by decide +kernel, r, hconditions, fun event hevent q hq => ?_⟩
  rcases hwritten event hevent q hq with ⟨hput, -⟩ | ⟨-, hwithin⟩
  · simp [hmethod] at hput
  · exact hsame ▸ hwithin

/-- **More rows are updated than a delete is for**: where the primary view is the child of a parent
that the path addresses by key, a delete and a read are for children of that parent, and an update
or a save is for a child of any parent. -/
theorem updates_beyond_deletes :
    let sent (method : String) (body : Option Json) (script : List Reply) : List String :=
      ((playground.handle method "/children/5/parents/7" "relation=parents.id,children.parent"
        body).on ⟨script, [], false, []⟩).2.log.filterMap fun event =>
          event.statement?.map Statement.sql
    let body : Json := .object [("age", .ofNat 9)]
    sent "delete" none [] =
        ["DELETE FROM \"d\".\"children\" " ++
            "WHERE (\"children\".\"id\" = 5) AND (\"children\".\"parent\" = 7)",
          "DELETE FROM \"d\".\"parents\" WHERE (\"parents\".\"id\" = 7)"] ∧
      sent "patch" (some body) [] =
        ["UPDATE \"d\".\"children\" SET \"age\" = ? WHERE (\"children\".\"id\" = 5)"] ∧
      sent "put" (some body) [.rows [[("present", .ofNat 1)]]] =
        ["SELECT 1 AS present FROM \"d\".\"children\" WHERE (\"children\".\"id\" = 5) LIMIT 1",
          "UPDATE \"d\".\"children\" SET \"age\" = ? WHERE (\"children\".\"id\" = 5)"] := by
  decide +kernel

end Engine

end TableApi
