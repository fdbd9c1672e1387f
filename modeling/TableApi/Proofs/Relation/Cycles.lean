import TableApi.Proofs.Relation.Least

/-!
# The order of tables behind a cycle

Where links form a cycle, no table on it is ever ready, and neither is a table that edges lead to
from there. These are the tables that a cycle holds up (`HeldUp`). The order of writing has all the
others first, and then the ones held up, in the order of the request (`exists_writeOrder_eq`). So a
parent that no cycle holds up stands before its children, and one that is held up stands before the
children that come later in the request, and before no others (`writeOrder_heldUp`).

A table that is held up need not be on a cycle itself. It falls back on the order of the request
all the same, and can stand before its parent (`writeOrder_behind_cycle`).
-/

namespace TableApi.Relation

/-! ## What a cycle holds up -/

section HeldUp

variable {es : List (Nat × Nat)}

/-- **Edges lead from a table back to itself.** -/
def OnCycle (es : List (Nat × Nat)) (i : Nat) : Prop :=
  Relation.TransGen (fun parent child => (parent, child) ∈ es) i i

/-- **A cycle holds the table up**: it is on one, or edges lead to it from one. -/
def HeldUp (es : List (Nat × Nat)) (i : Nat) : Prop :=
  ∃ j, OnCycle es j ∧ Relation.ReflTransGen (fun parent child => (parent, child) ∈ es) j i

/-- The children of a table that is held up are held up too. -/
theorem HeldUp.child {parent child : Nat} (h : HeldUp es parent) (he : (parent, child) ∈ es) :
    HeldUp es child := by
  obtain ⟨j, hcycle, hreach⟩ := h
  exact ⟨j, hcycle, hreach.tail he⟩

/-- **Tables that each wait for one of them are held up.** -/
theorem heldUp_of_waits {rest : List Nat} (h : ∀ i ∈ rest, ∃ parent ∈ rest, (parent, i) ∈ es)
    {i : Nat} (hi : i ∈ rest) : HeldUp es i := by
  classical
  by_contra hfree
  -- the ones from which edges lead to this table have no cycle, so one of them would be first
  let above := rest.filter fun j =>
    Relation.ReflTransGen (fun parent child => (parent, child) ∈ es) j i
  have hmem : ∀ {j}, j ∈ above ↔ j ∈ rest ∧
      Relation.ReflTransGen (fun parent child => (parent, child) ∈ es) j i := by simp [above]
  have hacyclic : Acyclic fun parent child => (parent, child) ∈ es ∧ child ∈ above := by
    intro j hj
    obtain ⟨k, -, -, hlast⟩ := Relation.TransGen.tail'_iff.1 hj
    exact hfree ⟨j, hj.lift id fun _ _ he => he.1, (hmem.1 hlast).2⟩
  have hne : above ≠ [] := List.ne_nil_of_mem (hmem.2 ⟨hi, .refl⟩)
  obtain ⟨first, hfirst, hnone⟩ := hacyclic.exists_minimal hne
  obtain ⟨parent, hparent, he⟩ := h first (hmem.1 hfirst).1
  exact hnone parent (hmem.2 ⟨hparent, (hmem.1 hfirst).2.head he⟩) ⟨he, hfirst⟩

/-- **Tables that each come after all their parents are not held up.** -/
theorem not_heldUp_of_parents {free : List Nat} (hnodup : free.Nodup)
    (h : ∀ before i after, free = before ++ i :: after → ∀ parent, (parent, i) ∈ es →
      parent ∈ before) {i : Nat} (hi : i ∈ free) : ¬HeldUp es i := by
  have hearlier : ∀ {parent child}, child ∈ free → (parent, child) ∈ es →
      parent ∈ free ∧ free.idxOf parent < free.idxOf child := by
    intro parent child hchild he
    obtain ⟨before, after, rfl⟩ := List.append_of_mem hchild
    have hparent := h before child after rfl parent he
    have hnew : child ∉ before := fun hmem =>
      (List.nodup_append.1 hnodup).2.2 child hmem child (List.mem_cons_self ..) rfl
    refine ⟨List.mem_append_left _ hparent, ?_⟩
    rw [List.idxOf_append_of_mem hparent, List.idxOf_append_of_notMem hnew, List.idxOf_cons_self]
    exact List.idxOf_lt_length_of_mem hparent
  -- whatever leads to one of these tables is one of them, so a cycle would be among them
  have hfree : ∀ {j}, Relation.ReflTransGen (fun parent child => (parent, child) ∈ es) j i →
      j ∈ free := by
    intro j hj
    induction hj using Relation.ReflTransGen.head_induction_on with
    | refl => exact hi
    | head he _ ih => exact (hearlier ih he).1
  have hlt : ∀ {j k}, k ∈ free → Relation.TransGen (fun parent child => (parent, child) ∈ es) j k →
      j ∈ free ∧ free.idxOf j < free.idxOf k := by
    intro j k hk hj
    induction hj using Relation.TransGen.head_induction_on with
    | single he => exact hearlier hk he
    | head he _ ih =>
      obtain ⟨hparent, hless⟩ := hearlier ih.1 he
      exact ⟨hparent, hless.trans ih.2⟩
  rintro ⟨j, hcycle, hreach⟩
  exact lt_irrefl _ (hlt (hfree hreach) hcycle).2

end HeldUp

/-! ## Free tables first -/

section Place

variable {es : List (Nat × Nat)}

/-- **Taking tables that are ready**, as long as there are any: each of those comes after all its
parents, and each of the rest waits for one of the rest. -/
theorem place_eq_append (es : List (Nat × Nat)) (waiting : List Nat) :
    ∃ free rest, place es waiting = free ++ rest ∧ rest.Sublist waiting ∧
      (∀ before i after, free = before ++ i :: after → ∀ parent ∈ waiting, (parent, i) ∈ es →
        parent ∈ before) ∧
      ∀ i ∈ rest, ∃ parent ∈ rest, (parent, i) ∈ es := by
  fun_induction place es waiting with
  | case1 waiting i hi ih =>
    obtain ⟨free, rest, horder, hsub, hfree, hrest⟩ := ih
    refine ⟨i :: free, rest, by rw [horder]; rfl, hsub.trans List.erase_sublist, ?_, hrest⟩
    intro before j after hsplit parent hparent he
    cases before with
    | nil =>
      obtain ⟨rfl, -⟩ := List.cons.inj hsplit
      exact absurd he (isReady_iff.1 (List.find?_some hi) parent hparent)
    | cons first before =>
      obtain ⟨rfl, htail⟩ := List.cons.inj hsplit
      by_cases heq : parent = i
      · exact heq ▸ List.mem_cons_self ..
      · have hwaits : parent ∈ waiting.erase i := (List.mem_erase_of_ne heq).2 hparent
        exact List.mem_cons_of_mem _ (hfree before j after htail parent hwaits he)
  | case2 waiting hnone =>
    refine ⟨[], waiting, rfl, .refl _, by simp, fun i hi => ?_⟩
    have hwaits := List.find?_eq_none.1 hnone i hi
    rw [isReady_iff] at hwaits
    push Not at hwaits
    exact hwaits

end Place

/-! ## The orders -/

section Orders

variable {tables : List String} {links : List Link}

@[simp] theorem writeOrder_nodup (tables : List String) (links : List Link) :
    (writeOrder tables links).Nodup :=
  (writeOrder_perm tables links).nodup_iff.2 List.nodup_range

/-- **The order of writing** is that of the tables that no cycle holds up, each after its parents,
and then the tables that one holds up, in the order of the request. -/
theorem exists_writeOrder_eq (tables : List String) (links : List Link) :
    ∃ free rest, writeOrder tables links = free ++ rest ∧
      (∀ before i after, free = before ++ i :: after →
        ∀ parent, (parent, i) ∈ edges tables links → parent ∈ before) ∧
      (∀ i ∈ free, ¬HeldUp (edges tables links) i) ∧
      (∀ i ∈ rest, HeldUp (edges tables links) i) ∧ rest.Pairwise (· < ·) := by
  obtain ⟨free, rest, horder, hsub, hfree, hrest⟩ :=
    place_eq_append (edges tables links) (List.range tables.length)
  rw [← writeOrder_eq_place] at horder
  have hparents : ∀ before i after, free = before ++ i :: after →
      ∀ parent, (parent, i) ∈ edges tables links → parent ∈ before :=
    fun before i after hsplit parent he =>
      hfree before i after hsplit parent (List.mem_range.2 (lt_of_mem_edges he).1) he
  have hnodup : (free ++ rest).Nodup := horder ▸ writeOrder_nodup tables links
  exact ⟨free, rest, horder, hparents,
    fun i hi => not_heldUp_of_parents (List.nodup_append.1 hnodup).1 hparents hi,
    fun i hi => heldUp_of_waits hrest hi, List.pairwise_lt_range.sublist hsub⟩

/-- **When a parent is written before its child**: where no cycle holds the parent up, or the
request has it earlier. -/
theorem writeOrder_sublist_iff {parent child : Nat} (he : (parent, child) ∈ edges tables links) :
    [parent, child].Sublist (writeOrder tables links) ↔
      ¬HeldUp (edges tables links) parent ∨ parent < child := by
  obtain ⟨free, rest, horder, hparents, hfree, hrest, hsorted⟩ := exists_writeOrder_eq tables links
  have hnodup : (free ++ rest).Nodup := horder ▸ writeOrder_nodup tables links
  have hmem : ∀ {i}, i < tables.length → i ∈ free ∨ i ∈ rest := by
    intro i hi
    rw [← List.mem_append, ← horder]
    exact (writeOrder_perm tables links).mem_iff.2 (List.mem_range.2 hi)
  rw [horder]
  rcases hmem (lt_of_mem_edges he).1 with hparent | hparent
  · refine iff_of_true ?_ (.inl (hfree parent hparent))
    rcases hmem (lt_of_mem_edges he).2 with hchild | hchild
    · obtain ⟨before, after, rfl⟩ := List.append_of_mem hchild
      have hbefore := List.singleton_sublist.2 (hparents before child after rfl parent he)
      have hafter : [child].Sublist (child :: after ++ rest) := by simp
      simpa using hbefore.append hafter
    · exact (List.singleton_sublist.2 hparent).append (List.singleton_sublist.2 hchild)
  · have hheld := hrest parent hparent
    -- a child of a table that is held up is held up, so both stand among the last ones
    have hchild : child ∈ rest := (hmem (lt_of_mem_edges he).2).resolve_left fun hchild =>
      hfree child hchild (hheld.child he)
    obtain ⟨l, -, hedge⟩ := mem_edges.1 he
    have hne : parent ≠ child := (edge?_eq_some.1 hedge).2.2
    rcases pair_sublist hparent hchild hne with hsub | hsub
    · have hlt := List.pairwise_iff_forall_sublist.1 hsorted hsub
      exact iff_of_true (List.sublist_append_of_sublist_right hsub) (.inr hlt)
    · have hlt := List.pairwise_iff_forall_sublist.1 hsorted hsub
      have hlater : [child, parent].Sublist (free ++ rest) :=
        List.sublist_append_of_sublist_right hsub
      refine iff_of_false (not_sublist_swap hnodup hlater) ?_
      rintro (hfree | hless)
      · exact hfree hheld
      · exact Nat.lt_asymm hlt hless

/-- **Links and cycles.** Every table is written once, whatever the links: first the tables that no
cycle holds up, and then the others, in the order of the request. So a link's parent is written
before its child exactly where no cycle holds the parent up or the request has it earlier, and then
it is deleted from after the child. -/
theorem writeOrder_heldUp (tables : List String) (links : List Link) :
    (writeOrder tables links).Perm (List.range tables.length) ∧
      (∃ free rest, writeOrder tables links = free ++ rest ∧
        (∀ i ∈ free, ¬HeldUp (edges tables links) i) ∧
        (∀ i ∈ rest, HeldUp (edges tables links) i) ∧ rest.Pairwise (· < ·)) ∧
      ∀ l ∈ links, ∀ parent child, edge? tables l = some (parent, child) →
        ([parent, child].Sublist (writeOrder tables links) ↔
          ¬HeldUp (edges tables links) parent ∨ parent < child) ∧
        ([child, parent].Sublist (deleteOrder tables links) ↔
          ¬HeldUp (edges tables links) parent ∨ parent < child) := by
  obtain ⟨free, rest, horder, -, hfree, hrest, hsorted⟩ := exists_writeOrder_eq tables links
  refine ⟨writeOrder_perm tables links, ⟨free, rest, horder, hfree, hrest, hsorted⟩, ?_⟩
  intro l hl parent child hedge
  have hwrite := writeOrder_sublist_iff (mem_edges.2 ⟨l, hl, hedge⟩)
  refine ⟨hwrite, ?_⟩
  rw [← hwrite, deleteOrder, ← List.reverse_sublist]
  simp

/-- Two tables that refer to each other, one that refers to the second of them, and one that refers
to that. The last two come first in the request. -/
def behindCycle : List Link :=
  [⟨"a", "id", "b", "a"⟩, ⟨"b", "id", "a", "b"⟩, ⟨"b", "id", "c", "b"⟩, ⟨"c", "id", "d", "c"⟩]

/-- With a table more that refers to none, and is referred to by one behind the cycle. -/
theorem writeOrder_heldUp_five :
    let tables := ["d", "c", "a", "b", "e"]
    let links := ⟨"e", "id", "c", "e"⟩ :: behindCycle
    (⟨"e", "id", "c", "e"⟩ ∈ links ∧ ⟨"c", "id", "d", "c"⟩ ∈ links) ∧
      edge? tables ⟨"e", "id", "c", "e"⟩ = some (4, 1) ∧
      edge? tables ⟨"c", "id", "d", "c"⟩ = some (1, 0) ∧
      writeOrder tables links = [4, 0, 1, 2, 3] ∧ [4, 1].Sublist (writeOrder tables links) ∧
      ¬[1, 0].Sublist (writeOrder tables links) ∧ ¬[0, 1].Sublist (deleteOrder tables links) := by
  intro tables links
  have hedges : edges tables links = [(4, 1), (2, 3), (3, 2), (3, 1), (1, 0)] := by decide +kernel
  have hheld : HeldUp (edges tables links) 1 := by
    have hcycle : OnCycle (edges tables links) 3 := .tail (.single (b := 2) (by simp [hedges]))
      (by simp [hedges])
    exact ⟨3, hcycle, .single (by simp [hedges])⟩
  have hfree : ¬HeldUp (edges tables links) 4 := by
    rintro ⟨j, hcycle, hreach⟩
    have hnone : ∀ parent, (parent, 4) ∉ edges tables links := by simp [hedges]
    obtain rfl : 4 = j := by
      rcases Relation.ReflTransGen.cases_tail hreach with heq | ⟨k, -, he⟩
      · exact heq
      · exact absurd he (hnone k)
    obtain ⟨k, -, he⟩ := Relation.TransGen.tail'_iff.1 hcycle
    exact hnone k he
  have hlinks : ⟨"e", "id", "c", "e"⟩ ∈ links ∧ ⟨"c", "id", "d", "c"⟩ ∈ links := by decide
  have hedge : edge? tables ⟨"e", "id", "c", "e"⟩ = some (4, 1) := by decide +kernel
  have hedge' : edge? tables ⟨"c", "id", "d", "c"⟩ = some (1, 0) := by decide +kernel
  obtain ⟨-, -, horders⟩ := writeOrder_heldUp tables links
  obtain ⟨hfirst, -⟩ := horders _ hlinks.1 4 1 hedge
  obtain ⟨hwrite, hdelete⟩ := horders _ hlinks.2 1 0 hedge'
  have hback : ¬(¬HeldUp (edges tables links) 1 ∨ 1 < 0) := by simp [hheld]
  exact ⟨hlinks, hedge, hedge', by decide +kernel, hfirst.2 (.inl hfree), mt hwrite.1 hback,
    mt hdelete.1 hback⟩

/-- **A child that is on no cycle can be written before its parent**, which is on none either, and
deleted from after it. -/
theorem writeOrder_behind_cycle :
    let tables := ["d", "c", "a", "b"]
    tables.Nodup ∧ ⟨"c", "id", "d", "c"⟩ ∈ behindCycle ∧
      edge? tables ⟨"c", "id", "d", "c"⟩ = some (1, 0) ∧
      (¬OnCycle (edges tables behindCycle) 0 ∧ ¬OnCycle (edges tables behindCycle) 1) ∧
      writeOrder tables behindCycle = [0, 1, 2, 3] ∧
      ¬[1, 0].Sublist (writeOrder tables behindCycle) ∧
      ¬[0, 1].Sublist (deleteOrder tables behindCycle) := by
  intro tables
  have hedges : edges tables behindCycle = [(2, 3), (3, 2), (3, 1), (1, 0)] := by decide +kernel
  -- edges lead from the last two tables to the first two, and never back
  have hfirst : ¬OnCycle (edges tables behindCycle) 0 := by
    intro hcycle
    obtain ⟨k, he, -⟩ := Relation.TransGen.head'_iff.1 hcycle
    simp [hedges] at he
  have hsecond : ¬OnCycle (edges tables behindCycle) 1 := by
    intro hcycle
    obtain ⟨k, he, hrest⟩ := Relation.TransGen.head'_iff.1 hcycle
    obtain rfl : k = 0 := by simpa [hedges] using he
    rcases Relation.ReflTransGen.cases_head hrest with heq | ⟨l, he, -⟩
    · simp at heq
    · simp [hedges] at he
  exact ⟨by decide, by decide, by decide +kernel, ⟨hfirst, hsecond⟩, by decide +kernel,
    by decide +kernel, by decide +kernel⟩

end Orders

end TableApi.Relation
