import Mathlib.Data.List.Lex
import TableApi.Proofs.Relation.Order

/-!
# The least order with parents first

Many orders may have every parent before its children. Where the links between the tables have no
cycle, the order of writing is the one of them that comes first in the lexicographic order of lists
of indices (`writeOrder_least`): tables that no link orders keep the order of the request.
-/

namespace TableApi.Relation

variable {tables : List String} {links : List Link}

/-- The links between two of the tables. -/
def linksAmong (tables : List String) (links : List Link) : List Link :=
  links.filter fun l => tables.contains l.parentTable && tables.contains l.childTable

/-- **Every parent stands before its children**, in an order of the tables' indices. -/
def ParentsFirst (tables : List String) (links : List Link) (order : List Nat) : Prop :=
  ∀ l ∈ links, l.parentTable ≠ l.childTable → ∀ parent child,
    tables[parent]? = some l.parentTable → tables[child]? = some l.childTable →
      [parent, child].Sublist order

/-- Links of other tables make no edges. -/
@[simp] theorem edges_linksAmong : edges tables (linksAmong tables links) = edges tables links := by
  rw [edges, edges, linksAmong, List.filterMap_filter]
  congr 1
  refine List.filterMap_congr fun l _ => ?_
  split
  · rfl
  · next hother =>
    -- an edge has both its tables
    refine (Option.eq_none_iff_forall_ne_some.2 ?_).symm
    rintro ⟨parent, child⟩ hedge
    apply hother
    obtain ⟨hp, hc, -⟩ := edge?_eq_some.1 hedge
    have hparent := List.mem_of_getElem? (getElem?_of_indexOf? hp)
    have hchild := List.mem_of_getElem? (getElem?_of_indexOf? hc)
    simp [hparent, hchild]

/-- Without repeated tables the edges are the pairs that parents first asks about. -/
theorem parentsFirst_iff (hnodup : tables.Nodup) {order : List Nat} :
    ParentsFirst tables links order ↔ ∀ e ∈ edges tables links, [e.1, e.2].Sublist order := by
  constructor
  · rintro h ⟨parent, child⟩ he
    obtain ⟨l, hl, hedge⟩ := mem_edges.1 he
    obtain ⟨hp, hc, hne⟩ := edge?_eq_some.1 hedge
    refine h l hl (fun heq => hne ?_) parent child (getElem?_of_indexOf? hp)
      (getElem?_of_indexOf? hc)
    rw [heq] at hp
    exact Option.some.inj (hp.symm.trans hc)
  · intro h l hl hne parent child hp hc
    refine h (parent, child) (mem_edges.2 ⟨l, hl, edge?_eq_some.2 ⟨?_, ?_, ?_⟩⟩)
    · exact (indexOf?_eq_some hnodup).2 hp
    · exact (indexOf?_eq_some hnodup).2 hc
    · rintro rfl
      exact hne (Option.some.inj (hp.symm.trans hc))

/-- Two members of a list without repetition stand in it in one order only. -/
theorem not_sublist_swap {α : Type} {xs : List α} (hnodup : xs.Nodup) {a b : α}
    (h : [a, b].Sublist xs) : ¬[b, a].Sublist xs := by
  induction xs with
  | nil => simp at h
  | cons x xs ih =>
    obtain ⟨hx, hxs⟩ := List.nodup_cons.1 hnodup
    intro hswap
    cases h with
    | cons _ h =>
      cases hswap with
      | cons _ hswap => exact ih hxs h hswap
      | cons_cons _ hswap => exact hx (h.subset (by simp))
    | cons_cons _ h =>
      cases hswap with
      | cons _ hswap => exact hx (hswap.subset (by simp))
      | cons_cons _ hswap => exact hx (h.subset (by simp))

/-- An order that has the first end of every edge before the second has no edge back. -/
theorem pairwise_of_sublist {es : List (Nat × Nat)} {order : List Nat} (hnodup : order.Nodup)
    (h : ∀ e ∈ es, [e.1, e.2].Sublist order) : order.Pairwise fun i j => (j, i) ∉ es :=
  List.pairwise_iff_forall_sublist.2 fun hij hedge => not_sublist_swap hnodup hij (h _ hedge)

/-- **Taking the earliest table that is ready gives the least order** of those without an edge
back. -/
theorem place_le {es : List (Nat × Nat)} (hacyclic : Acyclic fun p c => (p, c) ∈ es)
    {waiting : List Nat} (hsorted : waiting.Pairwise (· < ·)) {order : List Nat}
    (hperm : order.Perm waiting) (hback : order.Pairwise fun i j => (j, i) ∉ es) :
    place es waiting ≤ order := by
  fun_induction place es waiting generalizing order with
  | case1 waiting i hi ih =>
    obtain ⟨hready, before, after, rfl, hbefore⟩ := List.find?_eq_some_iff_append.1 hi
    cases order with
    | nil => simp at hperm
    | cons j rest =>
      obtain ⟨hj, hrest⟩ := List.pairwise_cons.1 hback
      -- what comes first in any such order is ready, so it is not earlier than `i`
      have hfirst : isReady es (before ++ i :: after) j = true := by
        refine isReady_iff.2 fun parent hwaits hedge => ?_
        rcases List.mem_cons.1 (hperm.mem_iff.2 hwaits) with rfl | hparent
        · exact hacyclic parent (.single hedge)
        · exact hj parent hparent hedge
      have hwaits : j ∈ before ++ i :: after := hperm.mem_iff.1 (List.mem_cons_self ..)
      rcases List.mem_append.1 hwaits with hmem | hmem
      · exact absurd hfirst (by simpa using hbefore j hmem)
      rcases List.mem_cons.1 hmem with rfl | hmem
      · refine List.cons_le_cons _ (ih (hsorted.sublist List.erase_sublist) ?_ hrest)
        exact List.Perm.cons_inv (hperm.trans (List.perm_cons_erase hwaits))
      · have hlt : i < j := List.rel_of_pairwise_cons (List.pairwise_append.1 hsorted).2.1 hmem
        exact le_of_lt (List.Lex.rel hlt)
  | case2 waiting hnone =>
    by_cases hne : waiting = []
    · subst hne
      rw [hperm.eq_nil]
    · obtain ⟨i, hi, hready⟩ := hacyclic.exists_isReady hne
      exact absurd hready (List.find?_eq_none.1 hnone i hi)

/-- In which order the edges are listed does not matter. -/
theorem place_congr {es es' : List (Nat × Nat)} (h : es.Perm es') (waiting : List Nat) :
    place es waiting = place es' waiting := by
  have hready : ∀ waiting, isReady es waiting = isReady es' waiting := fun waiting =>
    funext fun i => Bool.eq_iff_iff.2 (by simp only [isReady_iff, h.mem_iff])
  fun_induction place es waiting with
  | case1 waiting i hi ih =>
    rw [hready] at hi
    rw [place_of_find?_eq_some hi, ih]
  | case2 waiting hnone =>
    rw [hready] at hnone
    rw [place_of_find?_eq_none hnone]

/-- **The order of writing is the least with parents first**, where the links between the tables
have no cycle. The counters come to it in whatever order the edges are gone through, and none of
them is negative on the way. The order of deleting is its reverse. -/
theorem writeOrder_least (hnodup : tables.Nodup)
    (hacyclic : Acyclic (Leads (linksAmong tables links))) :
    (writeOrder tables links).Perm (List.range tables.length) ∧
      ParentsFirst tables links (writeOrder tables links) ∧
      (∀ order : List Nat, order.Perm (List.range tables.length) →
        ParentsFirst tables links order → writeOrder tables links ≤ order) ∧
      (∀ es : List (Nat × Nat), es.Perm (edges tables links) →
        countedOrder tables.length es = writeOrder tables links ∧
          ∀ s, Countdown.Reached tables.length es s → ∀ count ∈ s.pending, 0 ≤ count) ∧
      deleteOrder tables links = (writeOrder tables links).reverse := by
  have hedges : Acyclic fun parent child => (parent, child) ∈ edges tables links := by
    rw [← edges_linksAmong]
    exact acyclic_edges tables hacyclic
  refine ⟨writeOrder_perm tables links, ?_, fun order hperm hparents => ?_, fun es hes => ?_, rfl⟩
  · rw [parentsFirst_iff hnodup]
    exact fun e he => writeOrder_sublist hedges he
  · rw [writeOrder_eq_place]
    rw [parentsFirst_iff hnodup] at hparents
    have horder : order.Nodup := hperm.nodup_iff.2 List.nodup_range
    exact place_le hedges List.pairwise_lt_range hperm (pairwise_of_sublist horder hparents)
  · have hlt : ∀ e ∈ es, e.1 < tables.length ∧ e.2 < tables.length :=
      fun e he => lt_of_mem_edges (hes.mem_iff.1 he)
    rw [countedOrder_eq_place hlt, writeOrder_eq_place]
    exact ⟨place_congr hes _, fun s hs => Countdown.pending_nonneg hlt hs⟩

/-- One of four tables waits for the last one; a link to itself, one that is repeated and links of a
table that is not there change nothing. -/
theorem writeOrder_least_four :
    let tables := ["a", "b", "c", "d"]
    let links : List Link :=
      [⟨"d", "id", "a", "d"⟩, ⟨"b", "id", "b", "up"⟩, ⟨"d", "id", "a", "d"⟩, ⟨"a", "id", "x", "a"⟩,
        ⟨"x", "id", "a", "x"⟩]
    writeOrder tables links = [1, 2, 3, 0] ∧ deleteOrder tables links = [0, 3, 2, 1] ∧
      ∀ order : List Nat, order.Perm (List.range 4) → ParentsFirst tables links order →
        [1, 2, 3, 0] ≤ order := by
  intro tables links
  have hacyclic : Acyclic (Leads (linksAmong tables links)) := by
    refine acyclic_of_lt (fun table => if table = "d" then 1 else 0) fun parent child h => ?_
    obtain ⟨l, hl, rfl, rfl, hne⟩ := h
    have hall : ∀ l ∈ linksAmong tables links, l.parentTable ≠ l.childTable →
        (if l.childTable = "d" then 1 else 0) < (if l.parentTable = "d" then 1 else 0) := by
      decide
    exact hall l hl hne
  have horder : writeOrder tables links = [1, 2, 3, 0] := by decide +kernel
  obtain ⟨-, -, hleast, -, hdelete⟩ := @writeOrder_least tables links (by decide) hacyclic
  rw [horder] at hleast hdelete
  exact ⟨horder, hdelete, hleast⟩

end TableApi.Relation
