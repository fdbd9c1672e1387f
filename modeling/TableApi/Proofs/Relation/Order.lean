import Mathlib.Data.Fintype.Card
import Mathlib.Data.List.Pairwise
import Mathlib.Data.Set.Finite.Basic
import Mathlib.Logic.Relation
import Mathlib.Order.WellFounded
import TableApi.Proofs.Relation.Countdown

/-!
# Linked tables in order

The orders of writing and deleting are those of the links' edges between tables
(`writeOrder_eq_place`), and have every table once (`writeOrder_perm`, `deleteOrder_perm`).

Where no chain of links leads from a table back to itself (`Acyclic`), some table of those that wait
always has no parent among them (`Acyclic.exists_minimal`). So the order of writing never falls back
on the order of the request, and every table stands in it after its parents (`place_pairwise`). The
order of deleting has every child before its parent (`deleteOrder_sublist`).
-/

namespace TableApi.Relation

/-! ## Relations without cycles -/

section Acyclic

variable {α β : Type} {r : α → α → Prop}

/-- **No chain leads from anything back to itself.** -/
def Acyclic (r : α → α → Prop) : Prop :=
  ∀ a, ¬ Relation.TransGen r a a

/-- A relation that another one follows has no cycle if that one has none. -/
theorem Acyclic.of_map {s : β → β → Prop} (hs : Acyclic s) (f : α → β)
    (hf : ∀ a b, r a b → s (f a) (f b)) : Acyclic r :=
  fun a h => hs (f a) (h.lift f hf)

/-- A relation that only leads from greater to lesser has no cycle. -/
theorem acyclic_of_lt [Preorder β] (f : α → β) (hf : ∀ a b, r a b → f b < f a) : Acyclic r := by
  intro a h
  have hlt : ∀ b, Relation.TransGen r a b → f b < f a := by
    intro b hb
    induction hb with
    | single hab => exact hf _ _ hab
    | tail _ hbc ih => exact (hf _ _ hbc).trans ih
  exact lt_irrefl _ (hlt a h)

/-- **Of several things at least one comes after none of them.** -/
theorem Acyclic.exists_minimal (h : Acyclic r) {xs : List α} (hne : xs ≠ []) :
    ∃ x ∈ xs, ∀ y ∈ xs, ¬ r y x := by
  -- chains, not single steps: those are transitive, and finitely many things have a first one
  let before (y x : {x // x ∈ xs}) : Prop := Relation.TransGen r y.1 x.1
  have : IsTrans _ before := ⟨fun _ _ _ hab hbc => hab.trans hbc⟩
  have : Std.Irrefl before := ⟨fun x hx => h x.1 hx⟩
  have hfinite : Finite {x // x ∈ xs} := List.finite_toSet xs
  have hwf : WellFounded before := Finite.wellFounded_of_trans_of_irrefl before
  obtain ⟨x, hx⟩ := List.exists_mem_of_ne_nil xs hne
  obtain ⟨⟨m, hm⟩, -, hmin⟩ := hwf.has_min Set.univ ⟨⟨x, hx⟩, trivial⟩
  exact ⟨m, hm, fun y hy hym => hmin ⟨y, hy⟩ trivial (.single hym)⟩

/-- Where only some listed things come before any others, there is recursion along the relation. -/
theorem Acyclic.wellFounded (h : Acyclic r) {xs : List α} (hxs : ∀ a b, r a b → a ∈ xs) :
    WellFounded r := by
  classical
  refine WellFounded.wellFounded_iff_has_min.2 fun s ⟨a, ha⟩ => ?_
  by_cases hfirst : ∃ b ∈ s, r b a
  · obtain ⟨b, hb, hba⟩ := hfirst
    have hne : xs.filter (· ∈ s) ≠ [] := by
      refine List.ne_nil_of_mem (a := b) (List.mem_filter.2 ⟨hxs b a hba, ?_⟩)
      simpa using hb
    obtain ⟨m, hm, hmin⟩ := h.exists_minimal hne
    refine ⟨m, by simpa using (List.mem_filter.1 hm).2, fun y hy hym => ?_⟩
    exact hmin y (List.mem_filter.2 ⟨hxs y m hym, by simpa using hy⟩) hym
  · exact ⟨a, ha, fun b hb hba => hfirst ⟨b, hb, hba⟩⟩

end Acyclic

/-! ## Tables and their indices -/

section Tables

variable {tables : List String} {links : List Link} {table : String} {i : Nat}

/-- At a table's index stands the table. -/
theorem getElem?_of_indexOf? (h : indexOf? tables table = some i) : tables[i]? = some table := by
  induction tables generalizing i with
  | nil => simp [indexOf?] at h
  | cons t rest ih =>
    rw [indexOf?] at h
    split at h
    · next j hj =>
      obtain rfl := Option.some.inj h
      exact ih hj
    · split at h
      · next ht =>
        obtain rfl := Option.some.inj h
        simp [ht]
      · simp at h

/-- A table that is not there has no index. -/
@[simp] theorem indexOf?_eq_none : indexOf? tables table = none ↔ table ∉ tables := by
  induction tables with
  | nil => simp [indexOf?]
  | cons t rest ih =>
    rw [indexOf?]
    split
    · next j hj =>
      have hmem := List.mem_of_getElem? (getElem?_of_indexOf? hj)
      simp [hmem]
    · next hnone =>
      have hrest := ih.1 hnone
      by_cases ht : t = table
      · simp [ht]
      · simp [ht, hrest, Ne.symm ht]

/-- Where no table is repeated, the index of a table is the one at which it stands. -/
theorem indexOf?_eq_some (hnodup : tables.Nodup) :
    indexOf? tables table = some i ↔ tables[i]? = some table := by
  refine ⟨getElem?_of_indexOf?, fun h => ?_⟩
  cases hfound : indexOf? tables table with
  | none => exact absurd (List.mem_of_getElem? h) (indexOf?_eq_none.1 hfound)
  | some j =>
    have hj := getElem?_of_indexOf? hfound
    obtain ⟨hlt, -⟩ := List.getElem?_eq_some_iff.1 hj
    rw [(List.getElem?_inj hlt hnodup).1 (hj.trans h.symm)]

/-- A link is an edge where both its tables are there and differ. -/
theorem edge?_eq_some {l : Link} {parent child : Nat} :
    edge? tables l = some (parent, child) ↔
      indexOf? tables l.parentTable = some parent ∧ indexOf? tables l.childTable = some child ∧
        parent ≠ child := by
  simp only [edge?, bind, Option.bind_eq_some_iff]
  constructor
  · rintro ⟨p, hp, c, hc, h⟩
    split at h
    · simp at h
    · next hne =>
      obtain ⟨rfl, rfl⟩ := Prod.mk.inj (Option.some.inj h)
      exact ⟨hp, hc, hne⟩
  · rintro ⟨hp, hc, hne⟩
    exact ⟨parent, hp, child, hc, by rw [if_neg hne]⟩

theorem mem_edges {e : Nat × Nat} :
    e ∈ edges tables links ↔ ∃ l ∈ links, edge? tables l = some e := by
  rw [edges, List.mem_eraseDups, List.mem_filterMap]

theorem lt_of_mem_edges {e : Nat × Nat} (h : e ∈ edges tables links) :
    e.1 < tables.length ∧ e.2 < tables.length := by
  obtain ⟨l, -, hedge⟩ := mem_edges.1 h
  obtain ⟨hp, hc, -⟩ := edge?_eq_some.1 hedge
  exact ⟨(List.getElem?_eq_some_iff.1 (getElem?_of_indexOf? hp)).1,
    (List.getElem?_eq_some_iff.1 (getElem?_of_indexOf? hc)).1⟩

/-- **A link leads from its parent table to its child table**, unless they are the same. -/
def Leads (links : List Link) (parent child : String) : Prop :=
  ∃ l ∈ links, l.parentTable = parent ∧ l.childTable = child ∧ parent ≠ child

@[simp] theorem acyclic_leads_singleton (l : Link) : Acyclic (Leads [l]) := by
  intro a h
  obtain ⟨b, hfirst, -⟩ := Relation.TransGen.head'_iff.1 h
  obtain ⟨c, -, hlast⟩ := Relation.TransGen.tail'_iff.1 h
  simp only [Leads, List.mem_singleton, exists_eq_left] at hfirst hlast
  exact hlast.2.2 (hlast.1.symm.trans hfirst.1)

/-- The edges have no cycle if the links have none. -/
theorem acyclic_edges (tables : List String) (h : Acyclic (Leads links)) :
    Acyclic fun parent child => (parent, child) ∈ edges tables links := by
  refine h.of_map (fun i => tables[i]?.getD "") fun p c he => ?_
  obtain ⟨l, hl, hedge⟩ := mem_edges.1 he
  obtain ⟨hp, hc, hne⟩ := edge?_eq_some.1 hedge
  rw [getElem?_of_indexOf? hp, getElem?_of_indexOf? hc]
  refine ⟨l, hl, rfl, rfl, fun heq => hne ?_⟩
  -- one table has one index
  simp only [Option.getD_some] at heq
  rw [heq] at hp
  exact Option.some.inj (hp.symm.trans hc)

/-! ## The orders -/

/-- **The order of writing** takes the earliest table that no waiting one leads to. -/
theorem writeOrder_eq_place (tables : List String) (links : List Link) :
    writeOrder tables links = place (edges tables links) (List.range tables.length) :=
  countedOrder_eq_place fun _ h => lt_of_mem_edges h

theorem writeOrder_perm (tables : List String) (links : List Link) :
    (writeOrder tables links).Perm (List.range tables.length) := by
  rw [writeOrder_eq_place]
  exact place_perm _ _

theorem deleteOrder_perm (tables : List String) (links : List Link) :
    (deleteOrder tables links).Perm (List.range tables.length) :=
  (List.reverse_perm _).trans (writeOrder_perm tables links)

/-- A table is ready if no parent of it waits. -/
theorem isReady_iff {es : List (Nat × Nat)} {waiting : List Nat} {i : Nat} :
    isReady es waiting i = true ↔ ∀ parent ∈ waiting, (parent, i) ∉ es := by
  rw [isReady, List.all_eq_true]
  constructor
  · intro h parent hwaits hedge
    have hready := h (parent, i) hedge
    simp [hwaits] at hready
  · rintro h ⟨parent, child⟩ hedge
    by_cases hchild : child = i
    · have hgone : parent ∉ waiting := fun hwaits => h parent hwaits (hchild ▸ hedge)
      simp [hgone]
    · simp [hchild]

/-- Without a cycle some table is ready as long as any waits. -/
theorem Acyclic.exists_isReady {es : List (Nat × Nat)}
    (h : Acyclic fun parent child => (parent, child) ∈ es) {waiting : List Nat}
    (hne : waiting ≠ []) : ∃ i ∈ waiting, isReady es waiting i = true := by
  obtain ⟨i, hi, hfirst⟩ := h.exists_minimal hne
  exact ⟨i, hi, isReady_iff.2 hfirst⟩

/-- **Without a cycle no table stands before a parent of it.** -/
theorem place_pairwise {es : List (Nat × Nat)}
    (h : Acyclic fun parent child => (parent, child) ∈ es) (waiting : List Nat) :
    (place es waiting).Pairwise fun i j => (j, i) ∉ es := by
  fun_induction place es waiting with
  | case1 waiting i hi ih =>
    refine List.pairwise_cons.2 ⟨fun j hj hedge => ?_, ih⟩
    have hwaits := List.mem_of_mem_erase ((place_perm _ _).mem_iff.1 hj)
    exact isReady_iff.1 (List.find?_some hi) j hwaits hedge
  | case2 waiting hnone =>
    by_cases hne : waiting = []
    · simp [hne]
    · -- the order of the request is fallen back on where no table is ready, but one is
      obtain ⟨i, hi, hready⟩ := h.exists_isReady hne
      exact absurd hready (List.find?_eq_none.1 hnone i hi)

/-- Two members of a list stand in it in one order or the other. -/
theorem pair_sublist {α : Type} {xs : List α} {a b : α} (ha : a ∈ xs) (hb : b ∈ xs) (hne : a ≠ b) :
    [a, b].Sublist xs ∨ [b, a].Sublist xs := by
  induction xs with
  | nil => simp at ha
  | cons x xs ih =>
    rcases List.mem_cons.1 ha with rfl | ha'
    · have hb' := (List.mem_cons.1 hb).resolve_left hne.symm
      exact .inl ((List.singleton_sublist.2 hb').cons_cons a)
    · rcases List.mem_cons.1 hb with rfl | hb'
      · exact .inr ((List.singleton_sublist.2 ha').cons_cons b)
      · exact (ih ha' hb').imp (.cons x) (.cons x)

/-- **Without a cycle a parent is written before its child is.** -/
theorem writeOrder_sublist (h : Acyclic fun parent child => (parent, child) ∈ edges tables links)
    {parent child : Nat} (hedge : (parent, child) ∈ edges tables links) :
    [parent, child].Sublist (writeOrder tables links) := by
  obtain ⟨hp, hc⟩ := lt_of_mem_edges hedge
  have hmem : ∀ {i}, i < tables.length → i ∈ writeOrder tables links := fun hi =>
    (writeOrder_perm tables links).mem_iff.2 (List.mem_range.2 hi)
  have hne : parent ≠ child := by
    rintro rfl
    exact h parent (.single hedge)
  refine (pair_sublist (hmem hp) (hmem hc) hne).resolve_right fun hwrong => ?_
  rw [writeOrder_eq_place] at hwrong
  exact List.pairwise_iff_forall_sublist.1 (place_pairwise h _) hwrong hedge

/-- **Without a cycle a child is deleted from before its parent is.** -/
theorem deleteOrder_sublist (h : Acyclic (Leads links)) {l : Link} (hl : l ∈ links)
    {parent child : Nat} (hedge : edge? tables l = some (parent, child)) :
    [child, parent].Sublist (deleteOrder tables links) :=
  (writeOrder_sublist (acyclic_edges tables h) (mem_edges.2 ⟨l, hl, hedge⟩)).reverse

end Tables

end TableApi.Relation
