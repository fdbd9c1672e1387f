import TableApi.Proofs.Relation.Gather

/-!
# The run of the steps

The steps of a merge change rows in place, one view after the other. Without a cycle they come in an
order in which every view is complete when it is copied (`arrange_pairwise`). So after some of the
steps each row has got, up to the order of keys, what these steps bring it in the recursive
definition (`Merged`): at the start, after one more step (`Merged.step`), and after the whole run
(`Tidy.merged`).
-/

namespace TableApi.Relation

/-! ## The order of the steps -/

namespace Nesting

/-- **Two steps stay out of each other's way**: into one view they bring different keys, and neither
takes away a column by which the other one looks for its rows. -/
def Apart (m n : Nesting) : Prop :=
  m.target = n.target → m.key ≠ n.key ∧
    (m.intoChild = true → m.link.childColumn ≠ n.column) ∧
      (n.intoChild = true → n.link.childColumn ≠ m.column)

theorem Apart.symm {m n : Nesting} (h : Apart m n) : Apart n m := by
  intro htarget
  obtain ⟨hkey, hm, hn⟩ := h htarget.symm
  exact ⟨hkey.symm, hn, hm⟩

/-- **Without a cycle a view is copied after everything that goes into it.** -/
theorem arrange_pairwise {steps : List Nesting} (h : Acyclic (Feeds steps)) {waiting : List Nesting}
    (hwaiting : waiting ⊆ steps) :
    (arrange waiting).Pairwise fun m n => n.target ≠ m.source := by
  have hsteps : Acyclic fun m n => m ∈ steps ∧ m.target = n.source :=
    h.of_map source fun m n hmn => ⟨m, hmn.1, rfl, hmn.2⟩
  fun_induction arrange waiting with
  | case1 => exact .nil
  | case2 first rest ready next ih =>
    obtain ⟨m, hm, hmin⟩ := hsteps.exists_minimal (List.cons_ne_nil first rest)
    have hready : ready m = true := by
      refine List.all_eq_true.2 fun other hother => ?_
      simpa using fun htarget => hmin other hother ⟨hwaiting hother, htarget⟩
    obtain ⟨found, hfound⟩ := Option.isSome_iff_exists.1 (List.find?_isSome.2 ⟨m, hm, hready⟩)
    have hnext : next = found := by simp only [next, hfound, Option.getD_some]
    have hfirst : ∀ other ∈ first :: rest, other.target ≠ next.source := by
      intro other hother
      have hall : ready found = true := List.find?_some hfound
      simpa [hnext] using List.all_eq_true.1 hall other hother
    have herase : (first :: rest).erase next ⊆ first :: rest := List.erase_subset
    refine List.pairwise_cons.2 ⟨fun n hn => ?_, ih fun n hn => hwaiting (herase hn)⟩
    exact hfirst n (herase ((arrange_perm _).mem_iff.1 hn))

end Nesting

/-! ## The run of the steps -/

/-- **What the steps and the rows are to be like.** -/
structure Tidy (steps : List Nesting) (results : List (List Row)) : Prop where
  apart : steps.Pairwise Nesting.Apart
  inside : ∀ n ∈ steps, n.target < results.length
  /-- What is copied is no column of a link. -/
  columns : ∀ m ∈ steps, ∀ n ∈ steps, m.key ≠ n.link.parentColumn ∧ m.key ≠ n.link.childColumn
  rows : ∀ i, ∀ row ∈ rowsOf results i, (Fields.keys row).Nodup
  /-- Nothing is copied over a field. -/
  fresh : ∀ i, ∀ row ∈ rowsOf results i, ∀ n ∈ steps, n.key ∉ Fields.keys row
  acyclic : Acyclic (Feeds steps)

/-- **The rows after some of the steps**: each has got what these steps bring, and the views that
they copy from are marked. -/
structure Merged (done : List Nesting) (complete : Nat → List Row) (results : List (List Row))
    (s : MergeState) : Prop where
  length : s.results.length = results.length
  nested : ∀ i, i ∈ s.nested ↔ ∃ m ∈ done, m.source = i
  nodup : ∀ i, ∀ row ∈ rowsOf s.results i, (Fields.keys row).Nodup
  rows : ∀ i, (rowsOf s.results i).map Fields.unordered =
    (rowsOf results i).map fun row => (gather done complete i row).unordered

section Run

variable {steps done rest : List Nesting} {complete : Nat → List Row} {results : List (List Row)}
  {n : Nesting} {s : MergeState} {i : Nat} {row : Row}

/-- A row repeats no key for what it gets. -/
theorem Tidy.nodup_gather (h : Tidy steps results) (hperm : (done ++ rest).Perm steps)
    (hrow : row ∈ rowsOf results i) : (Fields.keys (gather done complete i row)).Nodup := by
  have hsub : ∀ m ∈ done, m ∈ steps := fun m hm => hperm.mem_iff.1 (List.mem_append_left _ hm)
  have hapart : done.Pairwise Nesting.Apart :=
    (List.pairwise_append.1 ((hperm.pairwise_iff Nesting.Apart.symm).2 h.apart)).1
  have hkeys : (done.filter (·.target = i)).Pairwise fun m n => m.key ≠ n.key := by
    refine List.pairwise_filter.2 (hapart.imp fun hmn hm hn => (hmn ?_).1)
    exact (of_decide_eq_true hm).trans (of_decide_eq_true hn).symm
  have hgot : (gifts done complete i row).Pairwise fun a b => a.1.key ≠ b.1.key := by
    refine List.Pairwise.filterMap _ (fun m n hmn a ha b hb => ?_) hkeys
    obtain ⟨_, -, rfl⟩ := Option.map_eq_some_iff.1 ha
    obtain ⟨_, -, rfl⟩ := Option.map_eq_some_iff.1 hb
    exact hmn
  rw [gather, Fields.keys, List.map_append, List.nodup_append]
  refine ⟨(h.rows i row hrow).sublist (List.filter_sublist.map _), ?_, ?_⟩
  · rw [List.map_map]
    exact List.pairwise_map.2 hgot
  · -- what is got stands under a table's name, which is no column of the row
    intro key hkey other hother
    obtain ⟨f, hf, rfl⟩ := List.mem_map.1 hkey
    rw [List.map_map] at hother
    obtain ⟨got, hmem, rfl⟩ := List.mem_map.1 hother
    have hfield : f.1 ∈ Fields.keys row := List.mem_map_of_mem (List.mem_of_mem_filter hf)
    have hnew := h.fresh i row hrow got.1 (hsub _ (exists_of_mem_gifts hmem).1)
    exact fun heq => hnew ((congrArg (· ∈ Fields.keys row) heq).mp hfield)

/-- **A step is done on complete rows**: whatever goes into the view that it copies came before. -/
theorem Merged.source (htidy : Tidy steps results) (hperm : (done ++ n :: rest).Perm steps)
    (horder : (done ++ n :: rest).Pairwise fun m k => k.target ≠ m.source)
    (hcomplete : ∀ i, complete i = (rowsOf results i).map (gather steps complete i))
    (hs : Merged done complete results s) :
    (rowsOf s.results n.source).map Fields.unordered =
      (complete n.source).map Fields.unordered := by
  have hlater : ∀ k ∈ n :: rest, k.target ≠ n.source := by
    intro k hk
    rcases List.mem_cons.1 hk with rfl | hk
    · -- a step into the view that it copies would be a cycle of its own
      intro heq
      have hmem : k ∈ steps := hperm.mem_iff.1 (by simp)
      exact htidy.acyclic k.source (.single ⟨k, hmem, rfl, heq⟩)
    · exact (List.pairwise_cons.1 (List.pairwise_append.1 horder).2.1).1 k hk
  have hinto : (done.filter (·.target = n.source)).Perm (steps.filter (·.target = n.source)) := by
    have hnone : (n :: rest).filter (·.target = n.source) = [] :=
      List.filter_eq_nil_iff.2 fun k hk => by simpa using hlater k hk
    have hall := hperm.filter (·.target = n.source)
    rwa [List.filter_append, hnone, List.append_nil] at hall
  rw [hs.rows, hcomplete n.source, List.map_map]
  refine List.map_congr_left fun row hrow => ?_
  exact unordered_gather_perm (htidy.nodup_gather hperm hrow) hinto

/-- **The rows of the target after the step** have got what it brings. -/
theorem Merged.attach (htidy : Tidy steps results) (hperm : (done ++ n :: rest).Perm steps)
    (horder : (done ++ n :: rest).Pairwise fun m k => k.target ≠ m.source)
    (hcomplete : ∀ i, complete i = (rowsOf results i).map (gather steps complete i))
    (hs : Merged done complete results s) :
    (n.attach s.results).map Fields.unordered =
      (rowsOf results n.target).map fun row =>
        (gather (done ++ [n]) complete n.target row).unordered := by
  have hn : n ∈ steps := hperm.mem_iff.1 (by simp)
  have hapart : ∀ m ∈ done, m.Apart n := fun m hm =>
    (List.pairwise_append.1 ((hperm.pairwise_iff Nesting.Apart.symm).2 htidy.apart)).2.2
      m hm n (by simp)
  have hcolumns : ∀ m ∈ done, m.key ≠ n.link.parentColumn ∧ m.key ≠ n.link.childColumn :=
    fun m hm => htidy.columns m (hperm.mem_iff.1 (List.mem_append_left _ hm)) n hn
  have hcolumn : ∀ m ∈ done, m.key ≠ n.column := by
    intro m hm
    rw [Nesting.column]
    split
    · exact (hcolumns m hm).2
    · exact (hcolumns m hm).1
  have hreceived : (n.attach s.results).map Fields.unordered =
      ((rowsOf s.results n.target).map Fields.unordered).map fun row =>
        n.receive (n.gift ((complete n.source).map Fields.unordered) row) row := by
    rw [n.attach_eq, List.map_map, List.map_map]
    refine List.map_congr_left fun row hrow => ?_
    rw [Function.comp_apply, Nesting.unordered_received (hs.nodup _ row hrow),
      Nesting.unordered_given? (hs.nodup n.source), hs.source htidy hperm horder hcomplete]
    rfl
  rw [hreceived, hs.rows, List.map_map]
  refine List.map_congr_left fun row hrow => ?_
  -- the steps so far left the column by which the row is looked up
  have hkey : keyIn (gather done complete n.target row).unordered n.column =
      keyIn row.unordered n.column :=
    keyIn_gather (fun m hm _ => hcolumn m hm) fun m hm htarget => (hapart m hm htarget).2.1
  rw [unordered_gather_append (htidy.fresh _ row hrow n hn)
    (fun m hm htarget => (hapart m hm htarget).1) (fun m hm _ => (hcolumns m hm).2),
    Function.comp_apply, Nesting.gift_congr hkey]

/-- The rows of the views after one of them was changed. -/
theorem rowsOf_set {j : Nat} (hj : j < results.length) (rows : List Row) (i : Nat) :
    rowsOf (results.set j rows) i = if i = j then rows else rowsOf results i := by
  rw [rowsOf, List.getElem?_set]
  by_cases hi : i = j
  · simp [hi, hj]
  · simp [hi, Ne.symm hi, rowsOf]

/-- **One step.** -/
theorem Merged.step (htidy : Tidy steps results) (hperm : (done ++ n :: rest).Perm steps)
    (horder : (done ++ n :: rest).Pairwise fun m k => k.target ≠ m.source)
    (hcomplete : ∀ i, complete i = (rowsOf results i).map (gather steps complete i))
    (hs : Merged done complete results s) :
    Merged (done ++ [n]) complete results (s.step n) := by
  have hn : n ∈ steps := hperm.mem_iff.1 (by simp)
  -- a view that was copied gets nothing any more, so the step is not skipped
  have hfree : n.target ∉ s.nested := by
    intro hmem
    obtain ⟨m, hm, hsource⟩ := (hs.nested n.target).1 hmem
    exact (List.pairwise_append.1 horder).2.2 m hm n (by simp) hsource.symm
  have hlength : n.target < s.results.length := hs.length ▸ htidy.inside n hn
  have hstep : s.step n = ⟨s.results.set n.target (n.attach s.results), n.source :: s.nested⟩ := by
    rw [MergeState.step, if_neg (by simpa using hfree)]
  rw [hstep]
  refine ⟨by rw [List.length_set, hs.length], fun i => ?_, fun i row hrow => ?_, fun i => ?_⟩
  · rw [List.mem_cons, hs.nested]
    simp only [List.mem_append, List.mem_singleton, or_and_right, exists_or, exists_eq_left]
    rw [or_comm, eq_comm]
  · rw [rowsOf_set hlength, n.attach_eq] at hrow
    split at hrow
    · obtain ⟨row', hrow', rfl⟩ := List.mem_map.1 hrow
      exact Nesting.nodup_received (hs.nodup n.target row' hrow')
    · exact hs.nodup i row hrow
  · rw [rowsOf_set hlength]
    by_cases hi : i = n.target
    · rw [if_pos hi, hi]
      exact hs.attach htidy hperm horder hcomplete
    · rw [if_neg hi, hs.rows]
      refine List.map_congr_left fun row _ => ?_
      rw [gather_append_of_ne (Ne.symm hi)]

/-- **All steps**, in an order in which no view is copied too early. -/
theorem Merged.run (htidy : Tidy steps results) (hperm : (done ++ rest).Perm steps)
    (horder : (done ++ rest).Pairwise fun m k => k.target ≠ m.source)
    (hcomplete : ∀ i, complete i = (rowsOf results i).map (gather steps complete i))
    (hs : Merged done complete results s) :
    Merged (done ++ rest) complete results (rest.foldl MergeState.step s) := by
  induction rest generalizing done s with
  | nil => rwa [List.append_nil]
  | cons n rest ih =>
    have hnext : done ++ n :: rest = done ++ [n] ++ rest := by simp
    rw [hnext, List.foldl_cons]
    exact ih (hnext ▸ hperm) (hnext ▸ horder) (hs.step htidy hperm horder hcomplete)

theorem Merged.start (htidy : Tidy steps results) (complete : Nat → List Row) :
    Merged [] complete results ⟨results, []⟩ where
  length := rfl
  nested := by simp
  nodup := htidy.rows
  rows i := by
    refine List.map_congr_left fun row _ => ?_
    simp [gather, gifts, keeps]

/-- **The rows after all steps are the nested rows**, up to the order of keys. -/
theorem Tidy.merged (htidy : Tidy steps results) (i : Nat) :
    let s := (Nesting.arrange steps).foldl MergeState.step ⟨results, []⟩
    s.results.length = results.length ∧ (i ∈ s.nested ↔ ∃ n ∈ steps, n.source = i) ∧
      (rowsOf s.results i).map Fields.unordered =
        (nested (wellFounded_feeds htidy.acyclic) results i).map Fields.unordered := by
  intro s
  have hperm : ([] ++ Nesting.arrange steps).Perm steps := Nesting.arrange_perm steps
  have hall : (Nesting.arrange steps ++ []).Perm steps := by simpa using hperm
  have hcomplete := nested_eq (wellFounded_feeds htidy.acyclic) results
  have horder := Nesting.arrange_pairwise htidy.acyclic (List.Subset.refl steps)
  have hs := (Merged.start htidy _).run htidy hperm horder hcomplete
  refine ⟨hs.length, ?_, ?_⟩
  · rw [hs.nested]
    simp only [hperm.mem_iff]
  · rw [hs.rows, hcomplete i, List.map_map]
    refine List.map_congr_left fun row hrow => ?_
    exact unordered_gather_perm (htidy.nodup_gather hall hrow) (hperm.filter _)

end Run

end TableApi.Relation
