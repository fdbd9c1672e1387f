import TableApi.Proofs.Command.Scopes
import TableApi.Proofs.Relation.Order
import TableApi.Proofs.Session.InTurn
import TableApi.Proofs.Session.Turns

/-!
# The deletes of a request

A delete has one statement for each view of the request (`Request.deletes`). The views come in the
reverse of the order of writing, each of them once (`inDeleteOrder_perm`), and where the links have
no cycle every child comes before its parents (`inDeleteOrder_sublist`). The scopes of all views are
found before anything is sent, and one view without conditions is enough for a refusal, unless it is
the primary one (`deleteScopes_eq_ok`).
-/

namespace TableApi

namespace Request

variable {r : Request}

/-- **The views in the order in which their rows are deleted.** -/
def inDeleteOrder (r : Request) : List View :=
  (Relation.writeOrder (r.views.map View.table) r.relations).reverse.filterMap (r.views[·]?)

/-- **The deletes of a request**, one for each view. -/
def deletes (d : Dialect) (r : Request) : List Statement :=
  r.inDeleteOrder.map fun v =>
    { sql := "DELETE FROM " ++ v.tableSql d ++ whereText (r.conditionsOf d v) }

theorem inDeleteOrder_perm (r : Request) : r.inDeleteOrder.Perm r.views := by
  have hperm := Relation.deleteOrder_perm (r.views.map View.table) r.relations
  rw [List.length_map] at hperm
  have hviews := hperm.filterMap (r.views[·]?)
  rwa [filterMap_getElem?_range] at hviews

/-- **Without a cycle of links a child comes before its parent.** -/
theorem inDeleteOrder_sublist (hnodup : (r.views.map View.table).Nodup)
    (hacyclic : Relation.Acyclic (Relation.Leads r.relations)) {l : Link} (hl : l ∈ r.relations)
    (hne : l.parentTable ≠ l.childTable) {parent child : View} (hparent : parent ∈ r.views)
    (hchild : child ∈ r.views) (hp : parent.table = l.parentTable)
    (hc : child.table = l.childTable) : [child, parent].Sublist r.inDeleteOrder := by
  obtain ⟨i, hi⟩ := List.getElem?_of_mem hchild
  obtain ⟨j, hj⟩ := List.getElem?_of_mem hparent
  have hindex : ∀ {v : View} {k : Nat}, r.views[k]? = some v →
      Relation.indexOf? (r.views.map View.table) v.table = some k := by
    intro v k hk
    rw [Relation.indexOf?_eq_some hnodup, List.getElem?_map, hk]
    rfl
  have hedge : Relation.edge? (r.views.map View.table) l = some (j, i) := by
    refine Relation.edge?_eq_some.2 ⟨hp ▸ hindex hj, hc ▸ hindex hi, ?_⟩
    -- at one index the two would be one view
    rintro rfl
    rw [hi] at hj
    obtain rfl := Option.some.inj hj
    exact hne (hp.symm.trans hc)
  have hviews := (Relation.deleteOrder_sublist hacyclic hl hedge).filterMap (r.views[·]?)
  simp only [List.filterMap_cons, hi, hj, List.filterMap_nil] at hviews
  exact hviews

end Request

namespace Command

variable {d : Dialect} {r : Request}

/-- **All scopes are found, or the delete is refused**: by a view other than the primary one whose
rows nothing limits. -/
theorem deleteScopes_eq_ok (hkeyed : ∀ v ∈ r.views, v.Keyed d) {scopes : List (Option String)} :
    r.views.mapM (deleteScope d r) = .ok scopes ↔
      (∀ v ∈ r.views, v.role ≠ .primary → r.conditionsOf d v ≠ []) ∧
        scopes = r.views.map fun v => View.conjunction? (r.conditionsOf d v) := by
  have hscope : ∀ v, (v.role ≠ .primary → r.conditionsOf d v ≠ []) →
      deleteScope d r v = .ok (View.conjunction? (r.conditionsOf d v)) := by
    intro v hv
    rw [deleteScope_eq hkeyed, if_neg fun h => hv h.2 h.1]
  constructor
  · intro h
    have hlimited : ∀ v ∈ r.views, v.role ≠ .primary → r.conditionsOf d v ≠ [] := by
      -- every view has a scope, also the one that should have been refused
      intro v hv hrole hnone
      have hall := ((List.forall₂_and_left _ _).1
        ((mapM_eq_ok.1 h).imp fun v scope hv => ⟨Exists.intro scope hv, hv⟩)).1
      obtain ⟨scope, hfound⟩ := hall v hv
      rw [deleteScope_eq hkeyed, if_pos ⟨hnone, hrole⟩] at hfound
      simp at hfound
    rw [mapM_eq_ok_map fun v hv => hscope v (hlimited v hv)] at h
    exact ⟨hlimited, (Except.ok.inj h).symm⟩
  · rintro ⟨hlimited, rfl⟩
    exact mapM_eq_ok_map fun v hv => hscope v (hlimited v hv)

/-- The statements of the deletes are those of the request. -/
theorem map_snd_deletesAt :
    (deletesAt d r.views (r.views.map fun v => View.conjunction? (r.conditionsOf d v))
      (Relation.deleteOrder (r.views.map View.table) r.relations)).map Prod.snd = r.deletes d := by
  rw [deletesAt, Request.deletes, Request.inDeleteOrder, Relation.deleteOrder, List.map_filterMap,
    List.map_filterMap]
  refine List.filterMap_congr fun i _ => ?_
  rw [List.getElem?_map]
  cases r.views[i]? with
  | none => rfl
  | some v =>
    simp only [Option.map_some, Option.join_some, View.delete, View.elim_conjunction?]

/-- **The deletes are sent in turn.** -/
theorem on_deleteAll (deletes : List (View × Statement)) {s : Session}
    (hs : s.inTransaction = true) :
    ∃ events,
      ((deleteAll deletes).on s).2 = ⟨left s.script events, s.log ++ events, true, s.turns⟩ ∧
      LoopInTurn (deletes.map Prod.snd) ((deleteAll deletes).on s).1 (told s.script events) := by
  have hstep : ∀ (out : Fields) (a : View × Statement),
      (do
        let n ← Work.execute a.2
        pure (out.insert a.1.table (.ofNat n)) : Work Fields) =
      (fun n => out.insert a.1.table (.ofNat n)) <$> Work.execute a.2 := by
    intro out a
    exact (map_eq_pure_bind _ _).symm
  obtain ⟨events, hsession, hloop⟩ := on_foldlM_execute hstep deletes [] hs
  rw [deleteAll, ← map_eq_pure_bind, Work.on_map]
  exact ⟨events, hsession, hloop.map Json.object⟩

end Command

end TableApi
