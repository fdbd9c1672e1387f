import TableApi.Proofs.Command.Inserts
import TableApi.Proofs.Engine.Writes

/-!
# What is inserted

An allowed insert sends its agenda in one transaction (`handle_post`): the primary rows, and then,
parents first, the rows of each child under the key of its parent. If it succeeds, all of the agenda
was sent. A child without a parent key stops it before any of the child's rows, and what was sent is
rolled back.
-/

namespace TableApi

/-- Payloads that were assigned have one for the primary view. -/
theorem Payload.head?_of_assign {r : Request} {body : Json} {payloads : List (Option Payload)}
    (h : assign r body = .ok payloads) : ∃ payload, payloads.head? = some (some payload) := by
  rw [assign] at h
  split at h
  · obtain ⟨payload, -, h⟩ := bind_eq_ok.1 h
    obtain rfl := Except.ok.inj h
    exact ⟨payload, rfl⟩
  · obtain ⟨shared, -, h⟩ := bind_eq_ok.1 h
    split at h
    · next hhead =>
      obtain rfl := Except.ok.inj h
      obtain ⟨payload, hpayload⟩ := Option.isSome_iff_exists.1 hhead
      refine ⟨payload, ?_⟩
      obtain ⟨first, hfirst, rfl⟩ := Option.bind_eq_some_iff.1 hpayload
      exact hfirst
    · simp at h

namespace Engine

open Command

variable {e : Engine} {method path query : String} {body : Option Json} {r : Request} {b : Json}
  {turns : List Turn}
  {payloads : List (Option Payload)}

section Post

variable (hmethod : Text.uppered method = Verb.post.name)
  (hparse : Request.parse e.context (Text.uppered method) path query true = .ok (.views r))

include hmethod hparse

/-- **An insert follows its agenda**, in a transaction. -/
theorem follows_post (hallows : e.settings.allows (Text.uppered method) = true)
    (hbody : bodyFor .post body = .ok b) (hassign : Payload.assign r b = .ok payloads)
    {payload : Payload} (hpayload : payloads.head? = some (some payload)) (script : List Reply)
    (turns : List Turn) :
    let run := (e.handle method path query body).on ⟨script, [], false, turns⟩
    ∃ (work : Except ApiError Output) (sent : List (Event × Option DatabaseError)),
      Follows (r.insertAgenda (.ofSettings e.settings) payload payloads script) work sent ∧
        Enclosed work sent run.1 (told script run.2.log) := by
  have hplan : e.plan method path query body =
      .ok (.json <$> insertCascade (.ofSettings e.settings) r payloads) := by
    rw [plan_of_parse (v := .post) hmethod hallows hparse, hbody]
    dsimp only [bind, Except.bind, workOf]
    rw [hassign]
    rfl
  have hagenda := (followsOn_insertCascade (c := .ofSettings e.settings) (r := r) hpayload
    (s := .begun script turns) rfl).map Output.json
  obtain ⟨sent, hfollows, henclosed⟩ := follows_of_planned (v := .post) rfl hmethod
    (Request.modelOf?_of_parse hparse) hplan hagenda
  exact ⟨_, sent, hfollows, henclosed⟩

end Post

/-- **What an insert does**, for every request for tables, every body whose rows are assigned to its
views, and every script of replies. Either its method is not allowed, and nothing is sent, or it
follows its agenda in one transaction. A success has sent all of the agenda. Where a child has a
parent key, each of its rows binds the link's column to that key. Where one has none, the request
fails, and what was sent is rolled back if the transaction began; none of it is of that child or of
a later one. -/
theorem handle_post (hcatalog : e.catalog.Built) (hmethod : Text.uppered method = "POST")
    (hparse : Request.parse e.context (Text.uppered method) path query true = .ok (.views r))
    (hbody : bodyFor .post body = .ok b) (hassign : Payload.assign r b = .ok payloads)
    (script : List Reply) (turns : List Turn) :
    let run := (e.handle method path query body).on ⟨script, [], false, turns⟩
    let c := Config.ofSettings e.settings
    ∃ payload, payloads.head? = some (some payload) ∧
      let agenda := r.insertAgenda c payload payloads script
      ((e.settings.allows "POST" = false ∧ run.2.log = [] ∧ ∃ why, run.1 = .error why) ∨
        (e.settings.allows "POST" = true ∧ ∃ (work : Except ApiError Output) (sent : _),
          Follows agenda work sent ∧ Enclosed work sent run.1 (told script run.2.log))) ∧
      (∀ out, run.1 = .ok out → ∃ inserts, agenda = inserts.map .ok ∧
        run.2.log = .step .beginTransaction :: (inserts ++ [.step .commit])) ∧
      ∀ before child after, r.children payloads = before ++ child :: after →
        (∀ key, parentKey? c.dialect r.primary payload script child.link = some key →
          ∀ group ∈ insertGroups c child.view (child.rows key),
            child.view.Binds c.dialect group child.link.childColumn key) ∧
        (parentKey? c.dialect r.primary payload script child.link = none →
          (∃ why, run.1 = .error why) ∧
            ((.step .beginTransaction, none) ∈ told script run.2.log → ∃ inserts,
              inserts.map .ok <+: insertAgenda c r.primary payload.rows ++
                before.flatMap (Child.agenda c r.primary payload script) ∧
              run.2.log = .step .beginTransaction :: (inserts ++ [.step .rollback]))) := by
  intro run c
  have hrun : run = (e.handle method path query body).on ⟨script, [], false, turns⟩ := rfl
  clear_value run
  obtain ⟨payload, hpayload⟩ := Payload.head?_of_assign hassign
  refine ⟨payload, hpayload, ?_⟩
  intro agenda
  have hcoherent := Request.Coherent.ofParts hcatalog (Request.ofParts_of_parse hparse)
  have hbinds : ∀ child ∈ r.children payloads, ∀ key,
      ∀ group ∈ insertGroups c child.view (child.rows key),
        child.view.Binds c.dialect group child.link.childColumn key := fun child hchild key group =>
    binds_of_mem_insertGroups (hasColumn_of_mem_children hcoherent hchild)
  cases hallows : e.settings.allows "POST" with
  | false =>
    rw [handle_of_not_allowed (hmethod ▸ hallows), Work.on_fail] at hrun
    rw [hrun]
    refine ⟨.inl ⟨rfl, rfl, _, rfl⟩, by simp, fun before child after hchildren => ?_⟩
    exact ⟨fun key _ => hbinds child (by simp [hchildren]) key, fun _ => ⟨⟨_, rfl⟩, by simp [told]⟩⟩
  | true =>
    obtain ⟨work, sent, hfollows, henclosed⟩ :=
      follows_post hmethod hparse (hmethod ▸ hallows) hbody hassign hpayload script turns
    rw [← hrun] at henclosed
    refine ⟨.inr ⟨rfl, work, sent, hfollows, henclosed⟩, fun out hout => ?_,
      fun before child after hchildren =>
        ⟨fun key _ => hbinds child (by simp [hchildren]) key, fun hkey => ?_⟩⟩
    · rw [hout] at henclosed
      exact henclosed.log_of_ok hfollows
    · rw [Request.insertAgenda_of_parentKey?_eq_none hchildren hkey] at hfollows
      exact henclosed.log_of_refusal hfollows

/-- A service for a table of parents with names and one of their children with ages, which may
insert. -/
def nursery : Engine where
  settings := (Settings.ofMain .sqlite "d").withMethods ["POST"]
  models := .empty
  catalog :=
    let column (name : String) : Column := { name, dataType := "int" }
    let parents : Table :=
      { name := "parents", primaryKey := some "id", columns := ["id", "name"].map column }
    let children : Table :=
      { name := "children", primaryKey := none, columns := ["parent", "age"].map column }
    (Catalog.empty.insertTable "d" parents).insertTable "d" children

/-- Two children of a new parent, one of which is said to be another's, are inserted under the key
that the database hands back. -/
theorem handle_post_nursery :
    let body : Json := .object [("parents", .object [("name", .string "a")]),
      ("children", .array [.object [("parent", .ofNat 5), ("age", .ofNat 3)],
        .object [("age", .ofNat 4)]])]
    let script : List Reply := [.rows [[("id", .ofNat 7)]]]
    let run := (nursery.handle "post" "/parents/children" "relation=parents.id,children.parent"
      (some body)).on ⟨script, [], false, []⟩
    (∃ inserts : List Event, inserts.length = 2 ∧
        run.2.log = .step .beginTransaction :: (inserts ++ [.step .commit])) ∧
      ∃ (r : Request) (payloads : List (Option Payload)) (child : Child) (key : Json),
        r.children payloads = [child] ∧ key.compact = "7" ∧
          ∀ group ∈ insertGroups (.ofSettings nursery.settings) child.view (child.rows key),
            child.view.Binds .sqlite group "parent" key := by
  intro body script run
  have hread : ((Request.parse nursery.context "POST" "/parents/children"
      "relation=parents.id,children.parent" true).toOption.bind Target.request?).any
      (fun r => (Payload.assign r body).toOption.any fun payloads =>
        payloads.head?.join.any fun payload =>
          (r.children payloads).map (fun child => (child.link.childColumn,
            (parentKey? .sqlite r.primary payload script child.link).map Json.compact)) ==
              [("parent", some "7")]) = true := by
    decide +kernel
  have hcatalog : nursery.catalog.Built := (Catalog.Built.empty.insertTable _ _).insertTable _ _
  have hmethod : Text.uppered "post" = "POST" := by decide +kernel
  have hlog : run.2.log.length = 4 := by decide +kernel
  have hok : run.1.isOk = true := by decide +kernel
  obtain ⟨r, hfound, hassigned⟩ := (Option.any_eq_true _ _).1 hread
  obtain ⟨payloads, hpayloads, hfirst⟩ := (Option.any_eq_true _ _).1 hassigned
  obtain ⟨payload, hpayload, hkeys⟩ := (Option.any_eq_true _ _).1 hfirst
  obtain ⟨child, rest, hchildren, hchild, hrest⟩ := List.map_eq_cons_iff.1 (eq_of_beq hkeys)
  obtain rfl := List.map_eq_nil_iff.1 hrest
  obtain ⟨hcolumn, hkey⟩ := Prod.mk.inj hchild
  obtain ⟨key, hfoundKey, hcompact⟩ := Option.map_eq_some_iff.1 hkey
  have hbody : bodyFor .post (some body) = .ok body := rfl
  obtain ⟨payload', hpayload', -, hsent, hplaced⟩ := handle_post hcatalog hmethod
    (hmethod ▸ Request.parse_of_request? hfound) hbody (toOption_eq_some.1 hpayloads) script []
  obtain rfl : payload' = payload := by
    rw [hpayload'] at hpayload
    exact Option.some.inj hpayload
  refine ⟨?_, r, payloads, child, key, hchildren, hcompact, ?_⟩
  · cases hrun : run.1 with
    | error why => simp [hrun, Except.isOk, Except.toBool] at hok
    | ok out =>
      obtain ⟨inserts, -, hinserts⟩ := hsent out hrun
      refine ⟨inserts, ?_, hinserts⟩
      rw [show run.2.log = _ from hinserts] at hlog
      simpa using hlog
  · exact hcolumn ▸ (hplaced [] child [] hchildren).1 key hfoundKey

end Engine

end TableApi
