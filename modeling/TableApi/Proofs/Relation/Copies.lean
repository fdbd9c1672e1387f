import TableApi.Proofs.Relation.Joins
import TableApi.Proofs.Relation.Merge

/-!
# Views that are copied into others

A merge goes through its steps whatever the links are, on cycles in the order of the request. A step
is skipped if the rows that it would change have been copied before (`copiesAt_iff`), and otherwise
it copies rows along a link (`CopiesRows`). So a view's rows are settled once they are copied
(`rowsAfter_of_copiesAt`), and a view is copied before the view that it is copied into is
(`CopiesAt.lt`). Hence no chain of copies comes back (`acyclic_copiedInto`), and each one ends at a
view that is copied nowhere and stands in the answer (`merge_keeps_views`).
-/

namespace TableApi.Relation

/-- **The rows after so many of the steps.** -/
def stateAfter (steps : List Nesting) (results : List (List Row)) (k : Nat) : MergeState :=
  (steps.take k).foldl MergeState.step ⟨results, []⟩

/-- The rows of a view after so many of the steps. -/
def rowsAfter (steps : List Nesting) (results : List (List Row)) (k i : Nat) : List Row :=
  rowsOf (stateAfter steps results k).results i

/-- **At a step one view is copied into another**: the step is not skipped. -/
def CopiesAt (steps : List Nesting) (results : List (List Row)) (k source target : Nat) : Prop :=
  ∃ n, steps[k]? = some n ∧ n.source = source ∧ n.target = target ∧
    target ∉ (stateAfter steps results k).nested

/-- **One view was copied into another.** -/
def CopiedInto (steps : List Nesting) (results : List (List Row)) (source target : Nat) : Prop :=
  ∃ k, CopiesAt steps results k source target

/-- The columns that a step takes away or sets in the rows of its target. -/
def Nesting.touched (n : Nesting) : List String :=
  if n.intoChild then [n.link.childColumn, n.key] else [n.key]

/-- Those of all steps into a view. -/
def touched (steps : List Nesting) (i : Nat) : List String :=
  (steps.filter (·.target = i)).flatMap Nesting.touched

/-- **Rows of one view are copied into those of another along a link**: where the other is the child
and the primary view, each of its rows gets its parent, and otherwise each gets its children. -/
def CopiesRows (views : List View) (l : Link) (source target : Nat)
    (sourceRows targetRows targetRows' : List Row) : Prop :=
  ∃ v w : View, views[source]? = some v ∧ views[target]? = some w ∧
    ((v.table = l.parentTable ∧ w.table = l.childTable ∧ w.role = .primary ∧
        targetRows' = targetRows.map (withParent l sourceRows)) ∨
      (v.table = l.childTable ∧ w.table = l.parentTable ∧ v.role ≠ .primary ∧
        targetRows' = targetRows.map (withChildren l sourceRows)))

/-- **All but these columns of a row are kept.** -/
def Keeps (columns : List String) (row row' : Row) : Prop :=
  (Fields.keys row).Nodup →
    (Fields.keys row').Nodup ∧ ∀ column ∉ columns, row'.get? column = row.get? column

/-- **What becomes of the views in a merge**, by its steps and its answer. -/
structure Accounted (views : List View) (links : List Link) (results : List (List Row))
    (steps : List Nesting) (out : Fields) : Prop where
  /-- The primary view is copied nowhere. -/
  primary : ∀ j, ¬CopiedInto steps results 0 j
  /-- Whatever is copied nowhere stands under its table, with its rows after all steps. -/
  stands : ∀ i v, views[i]? = some v → (∀ j, ¬CopiedInto steps results i j) →
    out.get? v.table = some (rowsJson (rowsAfter steps results steps.length i))
  /-- Whatever was copied does not stand there. -/
  absent : ∀ i v, views[i]? = some v → (∃ j, CopiedInto steps results i j) →
    out.get? v.table = none
  /-- No chain of copies comes back, -/
  acyclic : Acyclic (CopiedInto steps results)
  /-- and each ends at a view that stands there. -/
  reaches : ∀ i v, views[i]? = some v → ∃ j w,
    Relation.ReflTransGen (CopiedInto steps results) i j ∧ views[j]? = some w ∧
      (out.get? w.table).isSome
  /-- A view keeps its rows in their order, and each of them what no step into the view touches. -/
  rows : ∀ k i, ∃ f : Row → Row,
    rowsAfter steps results k i = (rowsOf results i).map f ∧
      ∀ row, Keeps (touched steps i) row (f row)
  /-- At each copy the rows of the one view go into those of the other along a link, -/
  copies : ∀ k i j, CopiesAt steps results k i j → ∃ l ∈ links,
    CopiesRows views l i j (rowsAfter steps results k i) (rowsAfter steps results k j)
      (rowsAfter steps results (k + 1) j)
  /-- and are not changed from then on. -/
  settled : ∀ k i j, CopiesAt steps results k i j → ∀ m ≥ k,
    rowsAfter steps results m i = rowsAfter steps results k i
  /-- Nothing else changes a view's rows. -/
  unchanged : ∀ k j, (∀ i, ¬CopiesAt steps results k i j) →
    rowsAfter steps results (k + 1) j = rowsAfter steps results k j
  /-- A link between two views copies the one into the other, unless that was copied before. -/
  linked : ∀ l ∈ links, ∀ p c v w, views[p]? = some v → v.table = l.parentTable →
    views[c]? = some w → w.table = l.childTable → p ≠ c →
      (w.role = .primary → CopiedInto steps results p c ∨ ∃ j, CopiedInto steps results c j) ∧
        (w.role ≠ .primary → CopiedInto steps results c p ∨ ∃ j, CopiedInto steps results p j)

@[simp] theorem Keeps.refl (columns : List String) (row : Row) : Keeps columns row row :=
  fun h => ⟨h, fun _ _ => rfl⟩

theorem Keeps.trans {columns : List String} {row row' row'' : Row} (h : Keeps columns row row')
    (h' : Keeps columns row' row'') : Keeps columns row row'' := by
  intro hrow
  obtain ⟨hrow', hkept⟩ := h hrow
  obtain ⟨hrow'', hkept'⟩ := h' hrow'
  exact ⟨hrow'', fun column hcolumn => (hkept' column hcolumn).trans (hkept column hcolumn)⟩

theorem Keeps.mono {columns columns' : List String} {row row' : Row} (h : Keeps columns row row')
    (hsub : columns ⊆ columns') : Keeps columns' row row' :=
  fun hrow => ⟨(h hrow).1, fun column hcolumn => (h hrow).2 column fun hmem => hcolumn (hsub hmem)⟩

/-- A step keeps the other columns of a row. -/
theorem Nesting.keeps_received (n : Nesting) (rows : List Row) (row : Row) :
    Keeps n.touched row (n.received rows row) := by
  intro hrow
  refine ⟨nodup_received hrow, fun column hcolumn => ?_⟩
  rw [touched] at hcolumn
  rw [received]
  cases n.given? rows row with
  | none => rfl
  | some v =>
    dsimp only
    cases hinto : n.intoChild with
    | true =>
      obtain ⟨hchild, hkey⟩ : column ≠ n.link.childColumn ∧ column ≠ n.key := by
        simpa [hinto] using hcolumn
      rw [if_pos rfl, Fields.get?_insert, if_neg hkey, Fields.get?_erase hrow, if_neg hchild]
    | false =>
      have hkey : column ≠ n.key := by simpa [hinto] using hcolumn
      rw [if_neg (by simp), Fields.get?_insert, if_neg hkey]

/-- The rows of a view after each of them was changed. -/
theorem rowsOf_set_map (results : List (List Row)) (i : Nat) (f : Row → Row) :
    rowsOf (results.set i ((rowsOf results i).map f)) i = (rowsOf results i).map f := by
  by_cases hi : i < results.length
  · rw [rowsOf_set hi, if_pos rfl]
  · simp [rowsOf, hi]

section Copies

variable {steps : List Nesting} {results : List (List Row)} {i j k l m : Nat}

/-- **What the next step does**: it copies one view into another, or changes nothing. -/
theorem stateAfter_succ (steps : List Nesting) (results : List (List Row)) (k : Nat) :
    (stateAfter steps results (k + 1) = stateAfter steps results k ∧
        ∀ i j, ¬CopiesAt steps results k i j) ∨
      ∃ n, steps[k]? = some n ∧ CopiesAt steps results k n.source n.target ∧
        stateAfter steps results (k + 1) =
          ⟨(stateAfter steps results k).results.set n.target
              (n.attach (stateAfter steps results k).results),
            n.source :: (stateAfter steps results k).nested⟩ := by
  cases hk : steps[k]? with
  | none =>
    refine .inl ⟨?_, ?_⟩
    · rw [stateAfter, List.take_add_one, hk, Option.toList_none, List.append_nil, stateAfter]
    · rintro i j ⟨n, hn, -⟩
      simp [hk] at hn
  | some n =>
    have hnext : stateAfter steps results (k + 1) = (stateAfter steps results k).step n := by
      rw [stateAfter, List.take_add_one, hk, Option.toList_some, List.foldl_append]
      rfl
    by_cases hskipped : n.target ∈ (stateAfter steps results k).nested
    · refine .inl ⟨?_, ?_⟩
      · rw [hnext, MergeState.step, if_pos (by simpa using hskipped)]
      · rintro i j ⟨n', hn', -, rfl, hfree⟩
        obtain rfl := Option.some.inj (hk.symm.trans hn')
        exact hfree hskipped
    · refine .inr ⟨n, rfl, ⟨n, hk, rfl, rfl, hskipped⟩, ?_⟩
      rw [hnext, MergeState.step, if_neg (by simpa using hskipped)]

/-- A step copies one view into one other. -/
theorem CopiesAt.unique {i' j' : Nat} (h : CopiesAt steps results k i j)
    (h' : CopiesAt steps results k i' j') : i = i' ∧ j = j' := by
  obtain ⟨n, hn, rfl, rfl, -⟩ := h
  obtain ⟨n', hn', rfl, rfl, -⟩ := h'
  obtain rfl := Option.some.inj (hn.symm.trans hn')
  exact ⟨rfl, rfl⟩

/-- **The marked views are those that were copied.** -/
theorem mem_nested_stateAfter :
    i ∈ (stateAfter steps results k).nested ↔ ∃ m < k, ∃ j, CopiesAt steps results m i j := by
  induction k with
  | zero => simp [stateAfter]
  | succ k ih =>
    rcases stateAfter_succ steps results k with ⟨hsame, hnone⟩ | ⟨n, -, hcopies, hnext⟩
    · rw [hsame, ih]
      constructor
      · rintro ⟨m, hm, hj⟩
        exact ⟨m, by omega, hj⟩
      · rintro ⟨m, hm, j, hj⟩
        have hne : m ≠ k := by
          rintro rfl
          exact hnone i j hj
        exact ⟨m, by omega, j, hj⟩
    · rw [hnext, List.mem_cons, ih]
      constructor
      · rintro (rfl | ⟨m, hm, hj⟩)
        · exact ⟨k, by omega, n.target, hcopies⟩
        · exact ⟨m, by omega, hj⟩
      · rintro ⟨m, hm, j, hj⟩
        rcases Nat.lt_succ_iff_lt_or_eq.1 hm with hlt | rfl
        · exact .inr ⟨m, hlt, j, hj⟩
        · exact .inl (hj.unique hcopies).1

/-- **A step copies rows unless those that it would change have been copied before.** -/
theorem copiesAt_iff : CopiesAt steps results k i j ↔ ∃ n, steps[k]? = some n ∧ n.source = i ∧
    n.target = j ∧ ∀ m < k, ∀ l, ¬CopiesAt steps results m j l := by
  have hfree : ∀ target, target ∉ (stateAfter steps results k).nested ↔
      ∀ m < k, ∀ l, ¬CopiesAt steps results m target l := fun target => by
    rw [mem_nested_stateAfter]
    simp only [not_exists, not_and]
  constructor
  · rintro ⟨n, hn, hsource, htarget, h⟩
    exact ⟨n, hn, hsource, htarget, (hfree j).1 h⟩
  · rintro ⟨n, hn, hsource, htarget, h⟩
    exact ⟨n, hn, hsource, htarget, (hfree j).2 h⟩

/-- The rows of the target get what the rows of the source have for them. -/
theorem CopiesAt.rowsAfter_target (h : CopiesAt steps results k i j) :
    ∃ n ∈ steps, n.source = i ∧ n.target = j ∧
      rowsAfter steps results (k + 1) j =
        (rowsAfter steps results k j).map (n.received (rowsAfter steps results k i)) := by
  rcases stateAfter_succ steps results k with ⟨-, hnone⟩ | ⟨n, hn, hcopies, hnext⟩
  · exact absurd h (hnone i j)
  · obtain ⟨rfl, rfl⟩ := h.unique hcopies
    refine ⟨n, List.mem_of_getElem? hn, rfl, rfl, ?_⟩
    rw [rowsAfter, hnext, n.attach_eq]
    exact rowsOf_set_map _ _ _

theorem rowsAfter_succ_of_not (h : ∀ i, ¬CopiesAt steps results k i j) :
    rowsAfter steps results (k + 1) j = rowsAfter steps results k j := by
  rcases stateAfter_succ steps results k with ⟨hsame, -⟩ | ⟨n, -, hcopies, hnext⟩
  · rw [rowsAfter, hsame, rowsAfter]
  · have hne : n.target ≠ j := by
      rintro rfl
      exact h n.source hcopies
    rw [rowsAfter, hnext, rowsOf, List.getElem?_set_ne hne]
    rfl

section Order

variable (hdiffer : ∀ n ∈ steps, n.source ≠ n.target)

include hdiffer

/-- **Nothing goes into a view from the step on that copies it.** -/
theorem CopiesAt.target_ne (h : CopiesAt steps results k i j) (hkm : k ≤ m) {i' j' : Nat}
    (h' : CopiesAt steps results m i' j') : j' ≠ i := by
  rintro rfl
  rcases Nat.lt_or_eq_of_le hkm with hlt | rfl
  · obtain ⟨n, -, -, -, hfree⟩ := h'
    exact hfree (mem_nested_stateAfter.2 ⟨k, hlt, j, h⟩)
  · obtain ⟨rfl, rfl⟩ := h.unique h'
    obtain ⟨n, hn, hsource, htarget, -⟩ := h
    exact hdiffer n (List.mem_of_getElem? hn) (hsource.trans htarget.symm)

/-- **A view is copied before the view that it is copied into is.** -/
theorem CopiesAt.lt (h : CopiesAt steps results k i j) (h' : CopiesAt steps results m j l) :
    k < m := by
  by_contra hmk
  exact h'.target_ne hdiffer (Nat.le_of_not_lt hmk) h rfl

/-- **A view's rows are settled once they are copied.** -/
theorem rowsAfter_of_copiesAt (h : CopiesAt steps results k i j) (hkm : k ≤ m) :
    rowsAfter steps results m i = rowsAfter steps results k i := by
  induction m, hkm using Nat.le_induction with
  | base => rfl
  | succ m hkm ih =>
    have hnone : ∀ i', ¬CopiesAt steps results m i' i := fun i' h' =>
      h.target_ne hdiffer hkm h' rfl
    rw [rowsAfter_succ_of_not hnone, ih]

/-- **No chain of copies comes back.** -/
theorem acyclic_copiedInto : Acyclic (CopiedInto steps results) := by
  -- along a chain views are copied later and later
  have hlater : ∀ {i j}, Relation.TransGen (CopiedInto steps results) i j →
      ∃ k l, CopiesAt steps results k i l ∧
        ∀ m l', CopiesAt steps results m j l' → k < m := by
    intro i j hchain
    induction hchain with
    | single hij =>
      obtain ⟨k, hk⟩ := hij
      exact ⟨k, _, hk, fun m l' hm => hk.lt hdiffer hm⟩
    | tail _ hjl ih =>
      obtain ⟨k, l, hk, hbefore⟩ := ih
      obtain ⟨m, hm⟩ := hjl
      exact ⟨k, l, hk, fun m' l' hm' => (hbefore m _ hm).trans (hm.lt hdiffer hm')⟩
  intro i hcycle
  obtain ⟨k, l, hk, hbefore⟩ := hlater hcycle
  exact Nat.lt_irrefl k (hbefore k l hk)

/-- **Every chain of copies ends**: from any view one comes to a view that is copied nowhere. -/
theorem exists_not_copied (results : List (List Row)) (i : Nat) :
    ∃ j, Relation.ReflTransGen (CopiedInto steps results) i j ∧
      ∀ l, ¬CopiedInto steps results j l := by
  have hback : Acyclic fun target source => CopiedInto steps results source target :=
    fun i hcycle => acyclic_copiedInto hdiffer i hcycle.swap
  have htargets : ∀ target source, CopiedInto steps results source target →
      target ∈ steps.map Nesting.target := by
    rintro _ _ ⟨k, n, hn, -, rfl, -⟩
    exact List.mem_map_of_mem (List.mem_of_getElem? hn)
  induction i using (hback.wellFounded htargets).induction with
  | _ i ih =>
    by_cases hcopied : ∃ j, CopiedInto steps results i j
    · obtain ⟨j, hj⟩ := hcopied
      obtain ⟨top, hreach, htop⟩ := ih j hj
      exact ⟨top, .head hj hreach, htop⟩
    · exact ⟨i, .refl, not_exists.1 hcopied⟩

end Order

@[simp] theorem length_stateAfter (steps : List Nesting) (results : List (List Row)) (k : Nat) :
    (stateAfter steps results k).results.length = results.length := by
  induction k with
  | zero => simp [stateAfter]
  | succ k ih =>
    rcases stateAfter_succ steps results k with ⟨hsame, -⟩ | ⟨n, -, -, hnext⟩
    · rw [hsame, ih]
    · rw [hnext, List.length_set, ih]

/-- The views that are marked after all steps are those that were copied. -/
theorem mem_nested_iff_copiedInto :
    i ∈ (stateAfter steps results steps.length).nested ↔ ∃ j, CopiedInto steps results i j := by
  rw [mem_nested_stateAfter]
  constructor
  · rintro ⟨m, -, j, hj⟩
    exact ⟨j, m, hj⟩
  · rintro ⟨j, m, hj⟩
    obtain ⟨n, hn, -⟩ := id hj
    exact ⟨m, (List.getElem?_eq_some_iff.1 hn).1, j, hj⟩

/-- **Row by row**: a view keeps its rows in their order, and each of them keeps what no step into
the view touches. -/
theorem exists_rowsAfter (steps : List Nesting) (results : List (List Row)) (k j : Nat) :
    ∃ f : Row → Row, rowsAfter steps results k j = (rowsOf results j).map f ∧
      ∀ row, Keeps (touched steps j) row (f row) := by
  induction k with
  | zero => exact ⟨id, by simp [rowsAfter, stateAfter], fun row => .refl _ row⟩
  | succ k ih =>
    obtain ⟨f, hf, hkeeps⟩ := ih
    by_cases hcopied : ∃ i, CopiesAt steps results k i j
    · obtain ⟨i, hi⟩ := hcopied
      obtain ⟨n, hn, -, htarget, hrows⟩ := hi.rowsAfter_target
      let g := n.received (rowsAfter steps results k i)
      refine ⟨g ∘ f, by rw [hrows, hf, List.map_map], fun row => (hkeeps row).trans ?_⟩
      refine (n.keeps_received _ (f row)).mono fun column hcolumn => ?_
      exact List.mem_flatMap.2 ⟨n, List.mem_filter.2 ⟨hn, by simpa using htarget⟩, hcolumn⟩
    · exact ⟨f, by rw [rowsAfter_succ_of_not (not_exists.1 hcopied), hf], hkeeps⟩

end Copies

section Views

variable {views : List View} {links : List Link} {results : List (List Row)}

/-- **What stands under a view's table** in the answer: its rows, unless it was copied. -/
theorem get?_output {s : MergeState} (hlength : s.results.length = views.length)
    (htables : (views.map View.table).Nodup) {i : Nat} {v : View} (hv : views[i]? = some v) :
    (s.output views).get? v.table =
      if i ∈ s.nested then none else some (rowsJson (rowsOf s.results i)) := by
  have hkeys : (Fields.keys (s.output views)).Nodup := Fields.nodup_keys_ofList _
  have hmem : ∀ value, (v.table, value) ∈ s.output views ↔
      i ∉ s.nested ∧ value = rowsJson (rowsOf s.results i) := by
    intro value
    rw [output_eq hlength htables, List.mem_map]
    constructor
    · rintro ⟨⟨table, i'⟩, hentry, heq⟩
      obtain ⟨rfl, rfl⟩ := Prod.mk.inj heq
      obtain ⟨hat, hfree⟩ := List.mem_filter.1 hentry
      have htable : (views.map View.table)[i]? = some v.table := by rw [List.getElem?_map, hv]; rfl
      have hat' : (views.map View.table)[i']? = some v.table :=
        List.mem_zipIdx_iff_getElem?.1 hat
      obtain rfl : i' = i :=
        (List.getElem?_inj (List.getElem?_eq_some_iff.1 hat').1 htables).1 (hat'.trans htable.symm)
      exact ⟨by simpa using hfree, rfl⟩
    · rintro ⟨hfree, rfl⟩
      refine ⟨(v.table, i), List.mem_filter.2 ⟨?_, by simpa using hfree⟩, rfl⟩
      rw [List.mem_zipIdx_iff_getElem?, List.getElem?_map, hv]
      rfl
  refine Option.ext fun value => ?_
  rw [Fields.get?_eq_some_iff hkeys, hmem]
  split <;> simp_all [eq_comm]

theorem get?_merge (hlength : results.length = views.length)
    (htables : (views.map View.table).Nodup) {i : Nat} {v : View} (hv : views[i]? = some v) :
    let steps := Nesting.arrange (nestings views links)
    let last := stateAfter steps results steps.length
    (merge views links results).get? v.table =
      if i ∈ last.nested then none
      else some (rowsJson (rowsAfter steps results steps.length i)) := by
  intro steps last
  have hmerge : merge views links results = last.output views := by
    have hlast : last = steps.foldl MergeState.step ⟨results, []⟩ := by
      rw [← List.take_length (l := steps)]
      rfl
    rw [hlast]
    rfl
  rw [hmerge]
  exact get?_output ((length_stateAfter ..).trans hlength) htables hv

theorem source_ne_target (htables : (views.map View.table).Nodup) {n : Nesting}
    (hn : n ∈ nestings views links) : n.source ≠ n.target := by
  obtain ⟨-, hne, -⟩ := (mem_nestings htables).1 hn
  rw [Nesting.source, Nesting.target]
  split
  · exact hne
  · exact hne.symm

/-- **The primary view is copied nowhere**: its links are into it. -/
theorem source_ne_zero (htables : (views.map View.table).Nodup)
    (hprimary : ∀ i v, views[i]? = some v → (v.role = .primary ↔ i = 0)) {n : Nesting}
    (hn : n ∈ nestings views links) : n.source ≠ 0 := by
  obtain ⟨-, hne, parent, child, hparent, hchild, -, -, hinto⟩ := (mem_nestings htables).1 hn
  have hrole := hprimary n.child child hchild
  rw [Nesting.source]
  cases h : n.intoChild with
  | true =>
    -- the child is the primary view, so the parent is not
    rw [h] at hinto
    have hzero : n.child = 0 := hrole.1 (by simpa using hinto.symm)
    simpa [hzero] using hne
  | false =>
    rw [h] at hinto
    have hother : child.role ≠ .primary := by simpa using hinto.symm
    simpa using fun hzero => hother (hrole.2 hzero)

/-- **A copy is along a link.** -/
theorem copiesRows_of_copiesAt (htables : (views.map View.table).Nodup) {k i j : Nat}
    (h : CopiesAt (Nesting.arrange (nestings views links)) results k i j) :
    let rows := rowsAfter (Nesting.arrange (nestings views links)) results
    ∃ l ∈ links, CopiesRows views l i j (rows k i) (rows k j) (rows (k + 1) j) := by
  intro rows
  obtain ⟨n, hn, rfl, rfl, hrows⟩ := h.rowsAfter_target
  obtain ⟨hlink, -, parent, child, hparent, hchild, hptable, hctable, hinto⟩ :=
    (mem_nestings htables).1 ((Nesting.arrange_perm _).mem_iff.1 hn)
  refine ⟨n.link, hlink, ?_⟩
  cases h : n.intoChild with
  | true =>
    rw [Nesting.source, Nesting.target, h] at hrows ⊢
    refine ⟨parent, child, hparent, hchild, .inl ⟨hptable, hctable, ?_, ?_⟩⟩
    · simpa [h] using hinto.symm
    · exact hrows.trans (List.map_congr_left fun row _ => n.received_eq_withParent h _ row)
  | false =>
    rw [Nesting.source, Nesting.target, h] at hrows ⊢
    refine ⟨child, parent, hchild, hparent, .inr ⟨hctable, hptable, ?_, ?_⟩⟩
    · simpa [h] using hinto.symm
    · exact hrows.trans (List.map_congr_left fun row _ => n.received_eq_withChildren h _ row)

/-- **Each link between two views is a step**, which copies rows or comes too late. -/
theorem copiedInto_of_mem_nestings {n : Nesting} (hn : n ∈ nestings views links) :
    let steps := Nesting.arrange (nestings views links)
    CopiedInto steps results n.source n.target ∨ ∃ j, CopiedInto steps results n.target j := by
  intro steps
  obtain ⟨k, hk⟩ := List.mem_iff_getElem?.1 ((Nesting.arrange_perm _).mem_iff.2 hn)
  by_cases hlate : ∃ m < k, ∃ j, CopiesAt steps results m n.target j
  · obtain ⟨m, -, j, hj⟩ := hlate
    exact .inr ⟨j, m, hj⟩
  · refine .inl ⟨k, copiesAt_iff.2 ⟨n, hk, rfl, rfl, fun m hm l h => hlate ⟨m, hm, l, h⟩⟩⟩

/-- **No view is lost**, for every list of views with tables of their own and one primary view at
its head, every list of links and all rows. -/
theorem merge_keeps_views (hlength : results.length = views.length)
    (htables : (views.map View.table).Nodup)
    (hprimary : ∀ i v, views[i]? = some v → (v.role = .primary ↔ i = 0)) :
    Accounted views links results (Nesting.arrange (nestings views links))
      (merge views links results) := by
  let steps := Nesting.arrange (nestings views links)
  let out := merge views links results
  have hmem : ∀ {n}, n ∈ steps ↔ n ∈ nestings views links := (Nesting.arrange_perm _).mem_iff
  have hdiffer : ∀ n ∈ steps, n.source ≠ n.target := fun n hn =>
    source_ne_target htables (hmem.1 hn)
  have hout : ∀ {i v}, views[i]? = some v → out.get? v.table =
      if i ∈ (stateAfter steps results steps.length).nested then none
      else some (rowsJson (rowsAfter steps results steps.length i)) := get?_merge hlength htables
  have hfree : ∀ {i v}, views[i]? = some v → (∀ j, ¬CopiedInto steps results i j) →
      out.get? v.table = some (rowsJson (rowsAfter steps results steps.length i)) := by
    intro i v hv hnone
    rw [hout hv, if_neg (mem_nested_iff_copiedInto.not.2 (not_exists.2 hnone))]
  refine
    { primary := ?_
      stands := fun i v hv hnone => hfree hv hnone
      absent := fun i v hv hcopied => by rw [hout hv, if_pos (mem_nested_iff_copiedInto.2 hcopied)]
      acyclic := acyclic_copiedInto hdiffer
      reaches := fun i v hv => ?_
      rows := exists_rowsAfter steps results
      copies := fun k i j h => copiesRows_of_copiesAt htables h
      settled := fun k i j h m hkm => rowsAfter_of_copiesAt hdiffer h hkm
      unchanged := fun k j h => rowsAfter_succ_of_not h
      linked := ?_ }
  · rintro j ⟨k, n, hn, hsource, -⟩
    exact source_ne_zero htables hprimary (hmem.1 (List.mem_of_getElem? hn)) hsource
  · obtain ⟨j, hreach, hnone⟩ := exists_not_copied hdiffer results i
    -- the chain ends at a view, as the target of a step is one
    obtain ⟨w, hw⟩ : ∃ w, views[j]? = some w := by
      rcases hreach.cases_tail with rfl | ⟨c, -, k, n, hn, -, rfl, -⟩
      · exact ⟨v, hv⟩
      · obtain ⟨w, -, hw, -⟩ := views_of_mem_nestings htables (hmem.1 (List.mem_of_getElem? hn))
        exact ⟨w, hw⟩
    exact ⟨j, w, hreach, hw, by rw [hfree hw hnone]; rfl⟩
  · intro l hl p c v w hv hvtable hw hwtable hne
    let n : Nesting := ⟨l, p, c, w.role == .primary⟩
    have hn : n ∈ nestings views links :=
      (mem_nestings htables).2 ⟨hl, hne, v, w, hv, hw, hvtable, hwtable, rfl⟩
    have hcopied : CopiedInto steps results n.source n.target ∨ _ := copiedInto_of_mem_nestings hn
    refine ⟨fun hrole => ?_, fun hrole => ?_⟩
    · simpa [Nesting.source, Nesting.target, n, hrole] using hcopied
    · simpa [Nesting.source, Nesting.target, n, hrole] using hcopied

/-- Two views on a cycle below the primary one: one of them is copied into the other, which is
copied into the primary view. -/
theorem merge_keeps_views_cycle :
    let view (name : String) (role : Role) : View :=
      { database := "d", schema := { name, primaryKey := some "id", columns := [] }, role }
    let views := [view "parents" .primary, view "kids" .foreign, view "toys" .foreign]
    let links : List Link :=
      [⟨"kids", "id", "toys", "kid"⟩, ⟨"toys", "id", "kids", "toy"⟩,
        ⟨"parents", "id", "kids", "of"⟩]
    let results : List (List Row) :=
      [[[("id", .ofNat 1)], [("id", .ofNat 2)]],
        [[("id", .ofNat 10), ("of", .ofNat 1), ("toy", .ofNat 100)]],
        [[("id", .ofNat 100), ("kid", .ofNat 10)]]]
    Accounted views links results (Nesting.arrange (nestings views links))
        (merge views links results) ∧
      (Json.object (merge views links results)).compact =
        "\x7b\"parents\":[\x7b\"id\":1," ++
            "\"kids\":[\x7b\"id\":10,\"toys\":[\x7b\"id\":100\x7d],\"toy\":100\x7d]\x7d," ++
          "\x7b\"id\":2\x7d]\x7d" := by
  intro view views links results
  have hprimary : ∀ i v, views[i]? = some v → (v.role = .primary ↔ i = 0) := by
    intro i v hv
    match i with
    | 0 | 1 | 2 =>
      obtain rfl := Option.some.inj hv
      simp [view]
    | i + 3 => simp [views] at hv
  exact ⟨merge_keeps_views rfl (by decide) hprimary, by decide +kernel⟩

end Views

end TableApi.Relation
