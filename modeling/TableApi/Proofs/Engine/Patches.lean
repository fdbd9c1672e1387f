import TableApi.Proofs.Engine.Updates
import TableApi.Proofs.Session.All
import TableApi.Proofs.Session.Effects

/-!
# Updates of several rows

A list of rows is updated by one statement for each row (`Engine.updates`). All of them are checked
before anything is sent, but they are not sent in a transaction. So where some of them fail, the
others stay (`handle_patch_rows`, `patch_leaves_others`), and a failure is answered all the same. A
write in a transaction leaves nothing then (`staying_of_transactional`).
-/

namespace TableApi

/-- The update of each row, or the first check that fails. -/
def Command.rowUpdates (d : Dialect) (v : View) (rows : List Json) :
    Except ApiError (List Statement) := do
  let payload ← Payload.ofBody (.array rows)
  payload.rows.mapM (updateElement d v)

/-- **The updates of several rows**: the view, and one statement for each row, or the first check
that fails. -/
def Engine.updates (e : Engine) (method path query : String) (rows : List Json) :
    Except ApiError (View × List Statement) :=
  match e.verb? (Text.uppered method) with
  | none => .error (.notFound ("method '" ++ Text.uppered method ++ "'"))
  | some v => do
    let r ← Request.ofParts e.context (Request.segments path) (Query.parse query) v.isWrite
    let qs ← Command.rowUpdates e.settings.dialect r.primary rows
    pure (r.primary, qs)

namespace Payload

/-- A list of objects is a list of rows. -/
theorem rowsOf_eq_ok {items : List Json} {rows : List Row} :
    rowsOf items = .ok rows ↔ items = rows.map .object := by
  constructor
  · intro h
    induction items generalizing rows with
    | nil =>
      obtain rfl := Except.ok.inj h
      rfl
    | cons item items ih =>
      cases item with
      | object row =>
        obtain ⟨rest, hrest, rfl⟩ := map_eq_ok.1 h
        rw [List.map_cons, ← ih hrest]
      | _ => simp [rowsOf] at h
  · rintro rfl
    induction rows with
    | nil => rfl
    | cons row rows ih =>
      rw [List.map_cons, rowsOf, ih]
      rfl

/-- A list that is not empty is read row by row. -/
theorem ofBody_array {items : List Json} (hne : items ≠ []) :
    ofBody (.array items) = (rowsOf items).map .many := by
  cases items with
  | nil => exact absurd rfl hne
  | cons item items => rfl

/-- **The payload of a list** is that of its objects. -/
theorem ofBody_array_eq_ok {items : List Json} {payload : Payload} :
    ofBody (.array items) = .ok payload ↔
      ∃ rows, rows ≠ [] ∧ items = rows.map .object ∧ payload = .many rows := by
  by_cases hne : items = []
  · subst hne
    refine ⟨fun h => by simp [ofBody] at h, ?_⟩
    rintro ⟨rows, hrows, hitems, -⟩
    exact absurd (List.map_eq_nil_iff.1 hitems.symm) hrows
  rw [ofBody_array hne]
  constructor
  · intro h
    obtain ⟨rows, hrows, rfl⟩ := map_eq_ok.1 h
    have hitems := rowsOf_eq_ok.1 hrows
    refine ⟨rows, ?_, hitems, rfl⟩
    rintro rfl
    exact hne hitems
  · rintro ⟨rows, -, hitems, rfl⟩
    rw [rowsOf_eq_ok.2 hitems]
    rfl

end Payload

namespace Command

theorem length_rowUpdates {d : Dialect} {v : View} {items : List Json} {qs : List Statement}
    (h : rowUpdates d v items = .ok qs) : qs.length = items.length := by
  obtain ⟨payload, hpayload, hqs⟩ := bind_eq_ok.1 h
  obtain ⟨rows, -, rfl, rfl⟩ := Payload.ofBody_array_eq_ok.1 hpayload
  rw [List.length_map]
  exact (mapM_eq_ok.1 hqs).length_eq.symm

/-- **What is done for a list of rows**: their updates are made, and then all of them are sent. -/
theorem patch_array (c : Config) (r : Request) (items : List Json) :
    patch c r (.array items) =
      Work.ofExcept (rowUpdates c.dialect r.primary items) >>= fun qs =>
        (fun counts => .object [(r.primary.table, collapse (counts.map .ofNat))]) <$>
          Work.all (qs.map Work.execute) := by
  cases hpayload : Payload.ofBody (.array items) with
  | error why =>
    rw [patch, rowUpdates, hpayload]
    rfl
  | ok payload =>
    obtain ⟨rows, -, -, rfl⟩ := Payload.ofBody_array_eq_ok.1 hpayload
    have hupdates : rowUpdates c.dialect r.primary items =
        rows.mapM (updateElement c.dialect r.primary) := by
      rw [rowUpdates, hpayload]
      rfl
    have hpatch : patch c r (.array items) =
        Work.ofExcept (rows.mapM (updateElement c.dialect r.primary)) >>= fun qs =>
          Work.all (qs.map Work.execute) >>= fun counts =>
            pure (.object [(r.primary.table, collapse (counts.map .ofNat))]) := by
      rw [patch, hpayload]
      rfl
    simp only [hpatch, hupdates, map_eq_pure_bind]

end Command

namespace Engine

open Command

variable {e : Engine} {method path : String} {turns : List Turn}

theorem length_updates {query : String} {rows : List Json} {v : View} {qs : List Statement}
    (h : e.updates method path query rows = .ok (v, qs)) : qs.length = rows.length := by
  rw [updates] at h
  split at h
  · simp at h
  · obtain ⟨r, -, h⟩ := bind_eq_ok.1 h
    obtain ⟨qs', hqs, h⟩ := bind_eq_ok.1 h
    obtain ⟨-, rfl⟩ := Prod.mk.inj (Except.ok.inj h)
    exact length_rowUpdates hqs

/-- **A list of rows is updated so.** -/
theorem handle_array (hmethod : Text.uppered method = Verb.patch.name)
    (hmodel : Request.modelOf? e.context (Request.segments path) = none) (query : String)
    (rows : List Json) :
    e.handle method path query (some (.array rows)) =
      Work.ofExcept (e.updates method path query rows) >>= fun (v, qs) =>
        (fun counts => .json (.object [(v.table, collapse (counts.map .ofNat))])) <$>
          Work.all (qs.map Work.execute) := by
  cases hfound : e.verb? (Text.uppered method) with
  | none =>
    rw [handle_of_none hfound, updates, hfound]
    rfl
  | some v =>
    obtain rfl : Verb.patch = v := by
      have hnamed := (verb?_eq_some.1 hfound).1
      rw [hmethod, Verb.ofMethod?_name] at hnamed
      exact Option.some.inj hnamed
    rw [handle_of_some hfound (by simp), Request.parse_of_modelOf?_eq_none hmodel, updates, hfound]
    dsimp only
    cases Request.ofParts e.context (Request.segments path) (Query.parse query)
        Verb.patch.isWrite with
    | error why => rfl
    | ok r =>
      have hserve : e.serve .patch (some (.array rows)) (.views r) =
          .json <$> patch (.ofSettings e.settings) r (.array rows) := rfl
      have hrun : Work.ofExcept ((Except.ok r : Except ApiError Request).map .views) >>=
          e.serve .patch (some (.array rows)) =
            e.serve .patch (some (.array rows)) (.views r) := rfl
      have hconfig : (Config.ofSettings e.settings).dialect = e.settings.dialect := rfl
      rw [hrun, hserve, patch_array, hconfig, map_bind]
      simp only [Functor.map_map]
      cases hupdates : rowUpdates e.settings.dialect r.primary rows with
      | error why =>
        dsimp only [bind, Except.bind]
        rw [hupdates]
        rfl
      | ok qs =>
        dsimp only [bind, Except.bind]
        rw [hupdates]
        rfl

/-- **A write in a transaction** leaves nothing if it answers a failure, and all of its statements
if it answers a result. -/
theorem staying_of_transactional {v : Verb} (hv : v.isTransactional = true)
    (hmethod : Text.uppered method = v.name)
    (hmodel : Request.modelOf? e.context (Request.segments path) = none) (query : String)
    (body : Option Json) (script : List Reply) (turns : List Turn) :
    let run := (e.handle method path query body).on ⟨script, [], false, turns⟩
    staying [] (told script run.2.log) =
      if run.1.isOk then run.2.log.filterMap Event.statement? else [] := by
  intro run
  obtain ⟨hrefused, hplanned, -⟩ := handle_transacted hv hmethod hmodel query body script turns
  have hrun : run = (e.handle method path query body).on ⟨script, [], false, turns⟩ := rfl
  rw [← hrun] at hrefused hplanned
  clear_value run
  cases hplan : e.plan method path query body with
  | error why =>
    obtain ⟨hanswer, hlog⟩ := hrefused why hplan
    rw [hanswer, hlog]
    rfl
  | ok work =>
    have hstatements : (told script run.2.log).filterMap (·.1.statement?) =
        run.2.log.filterMap Event.statement? := by
      conv_rhs => rw [← map_fst_told script run.2.log, List.filterMap_map]
      rfl
    rw [(hplanned work hplan).staying_eq, hstatements]

theorem on_handle_array_of_error (hmethod : Text.uppered method = Verb.patch.name)
    (hmodel : Request.modelOf? e.context (Request.segments path) = none) {query : String}
    {rows : List Json} {why : ApiError}
    (hupdates : e.updates method path query rows = .error why) (s : Session) :
    (e.handle method path query (some (.array rows))).on s = (.error why, s) := by
  rw [handle_array hmethod hmodel, hupdates]
  rfl

/-- **How the updates of several rows go**, once they are made. -/
theorem on_handle_array (hmethod : Text.uppered method = Verb.patch.name)
    (hmodel : Request.modelOf? e.context (Request.segments path) = none) {query : String}
    {rows : List Json} {v : View} {qs : List Statement}
    (hupdates : e.updates method path query rows = .ok (v, qs)) (script : List Reply)
    (turns : List Turn) :
    let run := (e.handle method path query (some (.array rows))).on ⟨script, [], false, turns⟩
    ∃ order counts, Work.Gathered turns qs.length countHeard script order counts ∧
      run.1 = counts.map (fun ns => .json (.object [(v.table, collapse (ns.map .ofNat))])) ∧
        run.2.log = (order.filterMap (qs[·]?)).map (.execute false) := by
  obtain ⟨order, hgathered, hsession⟩ :=
    Work.on_all Work.takesOne_execute qs ⟨script, [], false, turns⟩
  refine ⟨order, _, hgathered, ?_⟩
  rw [handle_array hmethod hmodel, hupdates, Work.on_bind, Work.on_ofExcept]
  dsimp only
  rw [Work.on_map, hsession]
  refine ⟨rfl, ?_⟩
  simp [Session.afterSome, List.map_filterMap]

theorem sentApart_of_gathered {script : List Reply} {order : List Nat} {qs : List Statement}
    {counts : Except ApiError (List Nat)} {run : Except ApiError Output × Session}
    {answer : List Nat → Output}
    (hgathered : Work.Gathered turns qs.length countHeard script order counts)
    (hanswer : run.1 = counts.map answer)
    (hlog : run.2.log = (order.filterMap (qs[·]?)).map (.execute false)) :
    SentApart turns (∃ out, run.1 = .ok out) (qs.map (.execute false)) run.2.log := by
  have hevents : order.filterMap ((qs.map (Event.execute false))[·]?) = run.2.log := by
    simp [hlog, List.map_filterMap]
  have hapart : SentApart turns _ (qs.map (.execute false)) _ :=
    hgathered.sentApart (List.length_map ..)
  rw [hevents] at hapart
  exact hapart.congr (hanswer ▸ exists_map_eq_ok)

/-- **A failure that is answered** is that of an update that was sent. -/
theorem exists_failed_of_gathered {script : List Reply} {order : List Nat} {qs : List Statement}
    {why : ApiError}
    (h : Work.Gathered turns qs.length countHeard script order (.error why)) :
    ∃ o ∈ apart (order.filterMap (qs[·]?)) script,
      ∃ failure, o.2 = some failure ∧ why = .database failure := by
  obtain ⟨k, hk, failure, hheard, rfl⟩ := h.error why rfl
  rw [← h.length_filterMap qs rfl] at hk
  exact ⟨_, List.mem_mapIdx.2 ⟨k, hk, rfl⟩, failure, hheard, rfl⟩

/-- **Where counts are answered**, all of the updates stay. -/
theorem staying_perm_of_gathered {script : List Reply} {order : List Nat} {qs : List Statement}
    {ns : List Nat} (h : Work.Gathered turns qs.length countHeard script order (.ok ns)) :
    (staying [] (apart (order.filterMap (qs[·]?)) script)).Perm qs := by
  obtain ⟨hperm, hnone, -⟩ := h.ok ns rfl
  have hlength : (order.filterMap (qs[·]?)).length = qs.length := by
    rw [h.length_filterMap qs rfl, hperm.length_eq, List.length_range]
  have hwent : ∀ o ∈ apart (order.filterMap (qs[·]?)) script, o.2 = none := by
    intro o ho
    obtain ⟨k, hk, rfl⟩ := List.mem_mapIdx.1 ho
    exact hnone k (hlength ▸ hk)
  rw [staying_apart_eq hwent]
  exact filterMap_getElem?_perm hperm

/-- **What an update of several rows leaves**, for every request for tables, every list of rows,
every script of replies and whatever turns the updates go in. If a check of any row fails, nothing
is sent. Otherwise there is one update for each row, and none of them is in a transaction. Those
that were sent and did not fail stay, whatever the answer is. A result says that all of them were
sent and stay. A failure is that of one of them, and leaves nothing exactly where all that were sent
failed, as the only one does where there is but one. -/
theorem handle_patch_rows (hmethod : Text.uppered method = "PATCH")
    (hmodel : Request.modelOf? e.context (Request.segments path) = none) (query : String)
    (rows : List Json) (script : List Reply) (turns : List Turn) :
    let run := (e.handle method path query (some (.array rows))).on ⟨script, [], false, turns⟩
    let sent := told script run.2.log
    (∀ why, e.updates method path query rows = .error why →
        run.1 = .error why ∧ run.2.log = []) ∧
      (∀ v qs, e.updates method path query rows = .ok (v, qs) →
        qs.length = rows.length ∧
        SentApart turns (∃ out, run.1 = .ok out) (qs.map (.execute false)) run.2.log ∧
        staying [] sent = sent.filterMap succeeded? ∧
        ((∃ out, run.1 = .ok out) → (staying [] sent).Perm qs) ∧
        (∀ why, run.1 = .error why →
          (∃ o ∈ sent, ∃ failure, o.2 = some failure ∧ why = .database failure) ∧
            (staying [] sent = [] ↔ ∀ o ∈ sent, o.2 ≠ none))) ∧
      (rows.length ≤ 1 → (∃ why, run.1 = .error why) → staying [] sent = []) := by
  intro run sent
  have hrun : run = (e.handle method path query (some (.array rows))).on
    ⟨script, [], false, turns⟩ := rfl
  have hsent : sent = told script run.2.log := rfl
  clear_value sent run
  cases hupdates : e.updates method path query rows with
  | error why =>
    rw [on_handle_array_of_error hmethod hmodel hupdates] at hrun
    subst hrun
    subst hsent
    refine ⟨fun why' h => ?_, by simp, fun _ _ => rfl⟩
    obtain rfl := Except.error.inj h
    exact ⟨rfl, rfl⟩
  | ok planned =>
    obtain ⟨v, qs⟩ := planned
    obtain ⟨order, counts, hgathered, hanswer, hlog⟩ :=
      on_handle_array hmethod hmodel hupdates script turns
    rw [← hrun] at hanswer hlog
    clear hrun
    have hlength := length_updates hupdates
    -- the updates that were sent, in the order in which they were
    rw [hlog, told_executes] at hsent
    obtain rfl : sent = apart (order.filterMap (qs[·]?)) script := hsent
    have hfailed : ∀ why, run.1 = .error why → ∃ o ∈ apart (order.filterMap (qs[·]?)) script,
        ∃ failure, o.2 = some failure ∧ why = .database failure := by
      intro why hwhy
      obtain rfl := map_eq_error.1 (hanswer ▸ hwhy)
      exact exists_failed_of_gathered hgathered
    refine ⟨by simp, ?_, fun hone ⟨why, hwhy⟩ => ?_⟩
    · rintro v' qs' h
      obtain ⟨rfl, rfl⟩ := Prod.mk.inj (Except.ok.inj h)
      refine ⟨hlength, sentApart_of_gathered hgathered hanswer hlog, staying_apart _ script,
        fun hout => ?_, fun why hwhy => ⟨hfailed why hwhy, staying_apart_eq_nil⟩⟩
      obtain ⟨ns, rfl⟩ := exists_map_eq_ok.1 (hanswer ▸ hout)
      exact staying_perm_of_gathered hgathered
    · obtain ⟨o, ho, failure, hfailure, -⟩ := hfailed why hwhy
      refine staying_apart_eq_nil_of_length_le ?_ ⟨o, ho, by simp [hfailure]⟩
      exact (filterMap_getElem?_subperm hgathered.nodup hgathered.lt).length_le.trans
        (hlength ▸ hone)

/-- An update of one row that fails leaves nothing. -/
theorem handle_patch_rows_playground :
    let rows : List Json := [.object [("id", .ofNat 5), ("age", .ofNat 9)]]
    let script : List Reply := [.failure none (.protocol "busy")]
    let run := (playground.handle "patch" "/children" "" (some (.array rows))).on
      ⟨script, [], false, []⟩
    run.2.log.length = 1 ∧ run.1.isOk = false ∧ staying [] (told script run.2.log) = [] := by
  intro rows script run
  have hmethod : Text.uppered "patch" = "PATCH" := by decide +kernel
  have hmodel : Request.modelOf? playground.context (Request.segments "/children") = none := by
    cases Request.segments "/children" <;> rfl
  have hfailed : run.1.isOk = false := by decide +kernel
  obtain ⟨-, -, hone⟩ := handle_patch_rows hmethod hmodel "" rows script []
  refine ⟨by decide +kernel, hfailed, hone (Nat.le_refl 1) ?_⟩
  cases hanswer : run.1 with
  | ok out => simp [hanswer, Except.isOk, Except.toBool] at hfailed
  | error why => exact ⟨why, rfl⟩

/-- **A failure may leave the other rows updated**: here the second of two updates fails, which is
answered, and the first one stays. -/
theorem patch_leaves_others :
    let body : Json :=
      .array [.object [("id", .ofNat 5), ("age", .ofNat 9)],
        .object [("id", .ofNat 6), ("age", .ofNat 9)]]
    let script : List Reply := [.count 1, .failure none (.protocol "busy")]
    let run := (playground.handle "patch" "/children" "" (some body)).on ⟨script, [], false, []⟩
    run.1.isOk = false ∧ (staying [] (told script run.2.log)).map Statement.sql =
      ["UPDATE \"d\".\"children\" SET \"age\" = ? WHERE (\"children\".\"id\" = 5)"] := by
  decide +kernel

end Engine

end TableApi
