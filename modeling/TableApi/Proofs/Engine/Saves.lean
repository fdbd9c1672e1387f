import TableApi.Proofs.Command.Batches
import TableApi.Proofs.Command.Saves
import TableApi.Proofs.Engine.Access

/-!
# What is saved

An allowed save goes row by row in one transaction (`handle_put`): for each row of the body the
check of its scope, where it has one, and then its update or its insert, as the reply to the check
says. A success answers for every row in order. Nothing is ever deleted.
-/

namespace TableApi

/-- **The kinds of statement that save rows**: checks, updates and inserts. -/
def Statement.Saves (q : Statement) : Prop :=
  ∃ start ∈ ["SELECT 1 ", "UPDATE ", "INSERT INTO "], start.toList <+: q.sql.toList

namespace Command

variable {d : Dialect} {v : View} {row : Row}

/-- A start of a text is a start of every longer one. -/
theorem prefix_append {start a : String} (h : start.toList <+: a.toList) (b : String) :
    start.toList <+: (a ++ b).toList := by
  rw [String.toList_append]
  exact h.trans (List.prefix_append ..)

@[simp] theorem saves_exists (d : Dialect) (v : View) (condition : String) :
    (v.exists_ d condition).Saves := by
  refine ⟨"SELECT 1 ", by simp, ?_⟩
  rw [View.sql_exists]
  iterate 4 refine prefix_append ?_ _
  decide

theorem saves_of_update {condition : String} {q : Statement}
    (h : v.update d row condition = .ok q) : q.Saves := by
  refine ⟨"UPDATE ", by simp, ?_⟩
  rw [View.sql_of_update h]
  iterate 5 refine prefix_append ?_ _
  exact List.prefix_rfl

theorem saves_of_insert {rows : List Row} {q : Statement} (h : v.insert d rows = .ok q) :
    q.Saves := by
  refine ⟨"INSERT INTO ", by simp, ?_⟩
  rw [View.insert] at h
  dsimp only at h
  split at h
  · simp at h
  · obtain rfl := Except.ok.inj h
    iterate 8 refine prefix_append ?_ _
    exact List.prefix_rfl

/-- The statement of an insert is the insert. -/
@[simp] theorem statement?_insertEvent (d : Dialect) (v : View) (q : Statement) :
    (insertEvent d v q).statement? = some q := by
  rw [insertEvent]
  split <;> rfl

/-- **A save sends no other statement.** -/
theorem saves_of_mem_savings {scope : Row → Except ApiError (Option String)} {rows : List Row}
    {script : List Reply} {event : Event}
    (h : .ok event ∈ (savings d v scope rows script).flatMap Saving.agenda) :
    ∀ q, event.statement? = some q → q.Saves := by
  intro q hq
  obtain ⟨saved, hsaved, hevent⟩ := List.mem_flatMap.1 h
  obtain ⟨k, hk⟩ := List.getElem?_of_mem hsaved
  rw [getElem?_savings] at hk
  obtain ⟨row, -, rfl⟩ := Option.map_eq_some_iff.1 hk
  rcases event_of_mem_saving hevent with ⟨q', hq', rfl⟩ | ⟨condition, -, rfl | ⟨q', hq', rfl⟩⟩
  · rw [statement?_insertEvent] at hq
    obtain rfl := Option.some.inj hq
    exact saves_of_insert hq'
  · obtain rfl := Option.some.inj hq
    exact saves_exists d v condition
  · obtain rfl := Option.some.inj hq
    exact saves_of_update hq'

end Command

namespace Engine

open Command

variable {e : Engine} {method path query : String} {r : Request} {turns : List Turn}

/-- A body that is taken is taken as it is. -/
theorem eq_of_bodyFor {v : Verb} {body b : Json} (h : bodyFor v (some body) = .ok b) :
    b = body := by
  rw [bodyFor.eq_def] at h
  split at h
  · simp at h
  · simp at h
  · exact (Except.ok.inj h).symm

section Put

variable (hmethod : Text.uppered method = Verb.put.name)
  (hparse : Request.parse e.context (Text.uppered method) path query true = .ok (.views r))

include hmethod hparse

/-- A save that is refused before anything is sent. -/
theorem refused_put {body : Json} (script : List Reply) (turns : List Turn)
    (h : e.settings.allows (Text.uppered method) = false ∨
      ∃ why, Payload.ofBody body = .error why) :
    let run := (e.handle method path query (some body)).on ⟨script, [], false, turns⟩
    run.2.log = [] ∧ ∃ why, run.1 = .error why := by
  cases hallows : e.settings.allows (Text.uppered method) with
  | false =>
    rw [handle_of_not_allowed hallows]
    exact ⟨rfl, _, rfl⟩
  | true =>
    obtain ⟨why, hwhy⟩ := h.resolve_left (by simp [hallows])
    obtain ⟨why, hplan⟩ : ∃ why, e.plan method path query (some body) = .error why := by
      rw [plan_of_parse hmethod hallows hparse]
      cases hbody : bodyFor .put (some body) with
      | error why => exact ⟨why, rfl⟩
      | ok b =>
        obtain rfl := eq_of_bodyFor hbody
        refine ⟨why, ?_⟩
        dsimp only [bind, Except.bind, workOf]
        rw [hwhy]
        rfl
    rw [on_handle_of_refused (v := .put) rfl hmethod (Request.modelOf?_of_parse hparse) hplan]
    exact ⟨rfl, why, rfl⟩

/-- **The plan of a save** whose body has a payload: its rows are saved. -/
theorem plan_put (hallows : e.settings.allows (Text.uppered method) = true) {body : Json}
    {payload : Payload} (hpayload : Payload.ofBody body = .ok payload) :
    e.plan method path query (some body) = .ok (Output.json <$>
      (fun result => Json.object [(r.primary.table, result)]) <$>
        upsertAll (.ofSettings e.settings) r.primary payload) := by
  have hbody : bodyFor .put (some body) = .ok body := by
    cases body with
    | null => simp [Payload.ofBody] at hpayload
    | _ => rfl
  rw [plan_of_parse hmethod hallows hparse, hbody]
  dsimp only [bind, Except.bind, workOf]
  rw [hpayload]
  rfl

/-- **A save follows the agendas of its rows**, in a transaction, and answers what they do. -/
theorem follows_put (hallows : e.settings.allows (Text.uppered method) = true) {body : Json}
    {payload : Payload} (hpayload : Payload.ofBody body = .ok payload) (script : List Reply)
    (turns : List Turn) :
    let run := (e.handle method path query (some body)).on ⟨script, [], false, turns⟩
    let saved := payload.savings e.settings.dialect r.primary script
    ∃ (work : Except ApiError Output) (sent : List (Event × Option DatabaseError)),
      Follows (saved.flatMap Saving.agenda) work sent ∧
        Enclosed work sent run.1 (told script run.2.log) ∧
        ∀ out, work = .ok out →
          out = .json (.object [(r.primary.table, collapse (saved.map Saving.answer))]) := by
  intro run saved
  have hrun : run = (e.handle method path query (some body)).on ⟨script, [], false, turns⟩ := rfl
  clear_value run
  have hsaved := followsTo_upsertAll (.ofSettings e.settings) r.primary payload
    (s := .begun script turns) rfl
  obtain ⟨hagenda, hresult⟩ :=
    (hsaved.map fun result => Json.object [(r.primary.table, result)]).map Output.json
  obtain ⟨sent, hfollows, henclosed⟩ := follows_of_planned (v := .put) rfl hmethod
    (Request.modelOf?_of_parse hparse) (plan_put hmethod hparse hallows hpayload) hagenda
  rw [← hrun] at henclosed
  exact ⟨_, sent, hfollows, henclosed, fun out hout => hresult out _ (Prod.ext hout rfl)⟩

end Put

/-- **What a save does**, for every request for tables, every body and every script of replies.
Either it is refused, for a method that is not allowed or a body without rows, and nothing is sent.
Or its rows are saved in turn, as `saving` says of each with the replies that are left to it, in one
transaction and up to the first failure. A success has sent all of that, and answers for each row in
turn; for a single row it answers that alone, and not a list. No other statement is sent than
checks, updates and inserts. -/
theorem handle_put (hmethod : Text.uppered method = "PUT")
    (hparse : Request.parse e.context (Text.uppered method) path query true = .ok (.views r))
    (body : Json) (script : List Reply) (turns : List Turn) :
    let run := (e.handle method path query (some body)).on ⟨script, [], false, turns⟩
    let d := e.settings.dialect
    let v := r.primary
    (run.2.log = [] ∧ (∃ why, run.1 = .error why) ∧
        (e.settings.allows "PUT" = false ∨ ∃ why, Payload.ofBody body = .error why)) ∨
      (e.settings.allows "PUT" = true ∧ ∃ payload, Payload.ofBody body = .ok payload ∧
        let saved := payload.savings d v script
        let agenda := saved.flatMap Saving.agenda
        saved.length = payload.rows.length ∧
        (∀ (k : Nat) (row : Row), payload.rows[k]? = some row →
          saved[k]? = some (saving d v row (payload.scope d v row)
            (script.drop ((saved.take k).flatMap Saving.agenda).length))) ∧
        (∃ (work : Except ApiError Output) (sent : _),
          Follows agenda work sent ∧ Enclosed work sent run.1 (told script run.2.log)) ∧
        (∀ out, run.1 = .ok out →
          (∃ answer, out = .json (.object [(v.table, answer)]) ∧
            answer.Collects (saved.map Saving.answer)) ∧
            ∃ events, agenda = events.map .ok ∧
              run.2.log = .step .beginTransaction :: (events ++ [.step .commit])) ∧
        ∀ event ∈ run.2.log, ∀ q, event.statement? = some q → q.Saves) := by
  intro run d v
  have hrun : run = (e.handle method path query (some body)).on ⟨script, [], false, turns⟩ := rfl
  clear_value run
  by_cases hrefused : e.settings.allows "PUT" = false ∨ ∃ why, Payload.ofBody body = .error why
  · obtain ⟨hlog, hanswer⟩ := refused_put hmethod hparse script turns (hmethod ▸ hrefused)
    rw [← hrun] at hlog hanswer
    exact .inl ⟨hlog, hanswer, hrefused⟩
  · obtain ⟨hallows, hrows⟩ := not_or.1 hrefused
    have hallows : e.settings.allows "PUT" = true := by simpa using hallows
    obtain ⟨payload, hpayload⟩ : ∃ payload, Payload.ofBody body = .ok payload := by
      cases hbody : Payload.ofBody body with
      | error why => exact absurd ⟨why, hbody⟩ hrows
      | ok payload => exact ⟨payload, rfl⟩
    refine .inr ⟨hallows, payload, hpayload, ?_⟩
    obtain ⟨work, sent, hfollows, henclosed, hwork⟩ :=
      follows_put hmethod hparse (hmethod ▸ hallows) hpayload script turns
    rw [← hrun] at henclosed
    intro saved agenda
    refine ⟨length_savings _ _ _, fun k row hrow => ?_, ⟨work, sent, hfollows, henclosed⟩,
      fun out hout => ?_, fun event hevent q hq => ?_⟩
    · have hsaved := getElem?_savings (d := d) (v := v) (payload.scope d v) payload.rows script k
      rwa [hrow] at hsaved
    · rw [hout] at henclosed
      exact ⟨⟨_, hwork out henclosed.work_of_ok, collects_collapse _⟩,
        henclosed.log_of_ok hfollows⟩
    · rcases henclosed.mem_agenda hfollows hevent with ⟨k, rfl⟩ | hmem
      · simp [Event.statement?] at hq
      · exact saves_of_mem_savings hmem q hq

/-- A service for a table of people with names, which may save. -/
def registry : Engine where
  settings := (Settings.ofMain .sqlite "d").withMethods ["PUT"]
  models := .empty
  catalog :=
    let column (name : String) : Column := { name, dataType := "text" }
    Catalog.empty.insertTable "d"
      { name := "people", primaryKey := some "id", columns := ["id", "name"].map column }

/-- The answer to a request as it is written down, if there is one. -/
def answerText (run : Except ApiError Output × Session) : Option String :=
  run.1.toOption.map fun
    | .json v => v.compact
    | .empty => ""

/-- Of two people the first one is known and is updated, and the second one is inserted. One of them
alone is not answered in a list. -/
theorem handle_put_registry :
    let person (id : Nat) (name : String) : Json :=
      .object [("id", .ofNat id), ("name", .string name)]
    let script : List Reply := [.rows [[("present", .ofNat 1)]], .count 1,
      .rows [], .rows [[("id", .ofNat 2)]]]
    let put (people : List Json) :=
      (registry.handle "put" "/people" "" (some (.array people))).on ⟨script, [], false, []⟩
    let run := put [person 1 "a", person 2 "b"]
    let alone := put [person 1 "a"]
    run.2.log.filterMap (fun event => event.statement?.map Statement.sql) =
        ["SELECT 1 AS present FROM \"d\".\"people\" WHERE (\"people\".\"id\" = 1) LIMIT 1",
          "UPDATE \"d\".\"people\" SET \"name\" = ? WHERE (\"people\".\"id\" = 1)",
          "SELECT 1 AS present FROM \"d\".\"people\" WHERE (\"people\".\"id\" = 2) LIMIT 1",
          "INSERT INTO \"d\".\"people\" (\"id\", \"name\") VALUES (?, ?) RETURNING \"id\""] ∧
      answerText run = some "\x7b\"people\":[1,2]\x7d" ∧
      answerText alone = some "\x7b\"people\":1\x7d" ∧
      (∃ saved : List Saving, saved.length = 2 ∧
        run.1 = .ok (.json (.object [("people", .array (saved.map Saving.answer))])) ∧
        ∃ events : List Event, saved.flatMap Saving.agenda = events.map .ok ∧
          run.2.log = .step .beginTransaction :: (events ++ [.step .commit])) ∧
      ∃ only : Saving, alone.1 = .ok (.json (.object [("people", only.answer)])) := by
  intro person script put run alone
  have hmethod : Text.uppered "put" = "PUT" := by decide +kernel
  have hread : ((Request.parse registry.context "PUT" "/people" "" true).toOption.bind
      Target.request?).any (fun r => decide (r.primary.table = "people")) = true := by
    decide +kernel
  have hruns : run.1.isOk = true ∧ alone.1.isOk = true := by decide +kernel
  have hlogs : run.2.log ≠ [] ∧ alone.2.log ≠ [] := by
    constructor <;> exact List.ne_nil_of_length_pos (by decide +kernel)
  obtain ⟨r, hfound, htable⟩ := (Option.any_eq_true _ _).1 hread
  have htable := of_decide_eq_true htable
  have hput (people : List Json) := handle_put hmethod
    (hmethod ▸ Request.parse_of_request? hfound) (.array people) script []
  refine ⟨by decide +kernel, by decide +kernel, by decide +kernel, ?_, ?_⟩
  · obtain ⟨-, payload, hpayload, hlength, -, -, hsuccess, -⟩ :=
      (hput [person 1 "a", person 2 "b"]).resolve_left fun h => hlogs.1 h.1
    obtain rfl : Payload.many _ = payload := Except.ok.inj hpayload
    obtain ⟨out, hout⟩ := exists_of_isOk hruns.1
    obtain ⟨⟨answer, rfl, -, hmany⟩, hevents⟩ := hsuccess out hout
    refine ⟨_, hlength, ?_, hevents⟩
    rw [← htable, ← hmany (by rw [List.length_map, hlength]; decide)]
    exact hout
  · obtain ⟨-, payload, hpayload, hlength, -, -, hsuccess, -⟩ :=
      (hput [person 1 "a"]).resolve_left fun h => hlogs.2 h.1
    obtain rfl : Payload.many _ = payload := Except.ok.inj hpayload
    obtain ⟨out, hout⟩ := exists_of_isOk hruns.2
    obtain ⟨⟨answer, rfl, hone, -⟩, -⟩ := hsuccess out hout
    obtain ⟨only, honly⟩ := List.length_eq_one_iff.1 hlength
    refine ⟨only, ?_⟩
    rw [← htable, ← hone only.answer (by rw [honly]; rfl)]
    exact hout

end Engine

end TableApi
