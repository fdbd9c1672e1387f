import Mathlib.Data.Sym.Sym2
import TableApi.Json.Printer
import TableApi.Proofs.Relation.Steps

/-!
# A merge nests every row completely

For views and links as `Nestable` has them, a merge of any rows is the tree that the recursive
definition gives, up to the order of keys (`merge_eq_tree`).
-/

namespace TableApi.Relation

/-! ## Views and links -/

/-- The link is about this column of the table. -/
def Uses (l : Link) (table column : String) : Prop :=
  (l.parentTable = table ∧ l.parentColumn = column) ∨
    (l.childTable = table ∧ l.childColumn = column)

/-- **What nesting asks of views, links and rows.** -/
structure Nestable (views : List View) (links : List Link) (results : List (List Row)) : Prop where
  /-- Every view has its rows. -/
  length : results.length = views.length
  /-- No table has two views. -/
  tables : (views.map View.table).Nodup
  /-- No two links are between the same two tables. -/
  pairs : links.Pairwise fun l m => s(l.parentTable, l.childTable) ≠ s(m.parentTable, m.childTable)
  /-- No view is copied into itself, not even over others. -/
  acyclic : Acyclic (Feeds (nestings views links))
  /-- A row repeats no key. -/
  rows : ∀ rows ∈ results, ∀ row ∈ rows, (Fields.keys row).Nodup
  /-- No key of a row is a view's table. -/
  fresh : ∀ rows ∈ results, ∀ row ∈ rows, ∀ v ∈ views, v.table ∉ Fields.keys row
  /-- Nor is a column of a link. -/
  columns : ∀ l ∈ links, ∀ v ∈ views, l.parentColumn ≠ v.table ∧ l.childColumn ≠ v.table
  /-- A reference of the primary view is used by no second link. -/
  references : ∀ v ∈ views, v.role = .primary → ∀ l ∈ links, ∀ m ∈ links, l ≠ m →
    l.childTable = v.table → ¬Uses m v.table l.childColumn

section Views

variable {views : List View} {links : List Link} {results : List (List Row)}

/-- **The steps are those of the links between two of the views.** -/
theorem mem_nestings (hnodup : (views.map View.table).Nodup) {n : Nesting} :
    n ∈ nestings views links ↔ n.link ∈ links ∧ n.parent ≠ n.child ∧
      ∃ parent child : View, views[n.parent]? = some parent ∧ views[n.child]? = some child ∧
        parent.table = n.link.parentTable ∧ child.table = n.link.childTable ∧
          n.intoChild = (child.role == .primary) := by
  have hindex : ∀ {table : String} {i : Nat},
      indexOf? (views.map View.table) table = some i ↔
        ∃ v, views[i]? = some v ∧ v.table = table := by
    intro table i
    rw [indexOf?_eq_some hnodup, List.getElem?_map, Option.map_eq_some_iff]
  rw [nestings, List.mem_filterMap]
  constructor
  · rintro ⟨l, hl, hn⟩
    obtain ⟨⟨p, c⟩, hedge, rfl⟩ := Option.map_eq_some_iff.1 hn
    obtain ⟨hp, hc, hne⟩ := edge?_eq_some.1 hedge
    obtain ⟨parent, hparent, hptable⟩ := hindex.1 hp
    obtain ⟨child, hchild, hctable⟩ := hindex.1 hc
    refine ⟨hl, hne, parent, child, hparent, hchild, hptable, hctable, ?_⟩
    simp [hchild]
  · rintro ⟨hl, hne, parent, child, hparent, hchild, hptable, hctable, hinto⟩
    have hedge : edge? (views.map View.table) n.link = some (n.parent, n.child) :=
      edge?_eq_some.2
        ⟨hindex.2 ⟨parent, hparent, hptable⟩, hindex.2 ⟨child, hchild, hctable⟩, hne⟩
    refine ⟨n.link, hl, Option.map_eq_some_iff.2 ⟨_, hedge, ?_⟩⟩
    simp [hchild, ← hinto]

/-- The views of a step: its target, which the column is a column of, and the one that it copies. -/
theorem views_of_mem_nestings (hnodup : (views.map View.table).Nodup) {n : Nesting}
    (h : n ∈ nestings views links) :
    ∃ target source : View, views[n.target]? = some target ∧ source ∈ views ∧
      source.table = n.key ∧ Uses n.link target.table n.column ∧
        s(n.link.parentTable, n.link.childTable) = s(target.table, n.key) ∧
          (n.intoChild = true → target.role = .primary ∧ n.link.childTable = target.table) := by
  obtain ⟨-, -, parent, child, hparent, hchild, hptable, hctable, hrole⟩ :=
    (mem_nestings hnodup).1 h
  cases hinto : n.intoChild with
  | true =>
    refine ⟨child, parent, ?_, List.mem_of_getElem? hparent, ?_, ?_, ?_, fun _ => ⟨?_, ?_⟩⟩
    · rw [Nesting.target, hinto, if_pos rfl, hchild]
    · rw [Nesting.key, hinto, if_pos rfl, hptable]
    · rw [Nesting.column, hinto, if_pos rfl]
      exact .inr ⟨hctable.symm, rfl⟩
    · rw [Nesting.key, hinto, if_pos rfl, hctable, Sym2.eq_swap]
    · rw [hinto] at hrole
      simpa using hrole.symm
    · exact hctable.symm
  | false =>
    refine ⟨parent, child, ?_, List.mem_of_getElem? hchild, ?_, ?_, ?_, by simp⟩
    · rw [Nesting.target, hinto, if_neg (by simp), hparent]
    · rw [Nesting.key, hinto, if_neg (by simp), hctable]
    · rw [Nesting.column, hinto, if_neg (by simp)]
      exact .inl ⟨hptable.symm, rfl⟩
    · rw [Nesting.key, hinto, if_neg (by simp), hptable]

namespace Nestable

/-- The rows of a view are among the results. -/
theorem mem_of_mem_rowsOf {i : Nat} {row : Row} (h : row ∈ rowsOf results i) :
    ∃ rows ∈ results, row ∈ rows := by
  rw [rowsOf] at h
  cases hi : results[i]? with
  | none => simp [hi] at h
  | some rows =>
    rw [hi] at h
    exact ⟨rows, List.mem_of_getElem? hi, h⟩

/-- A reference that one step takes away is not looked at by another one. -/
theorem childColumn_ne (h : Nestable views links results) {m n : Nesting}
    (hm : m ∈ nestings views links) (hn : n ∈ nestings views links) (hlinks : m.link ≠ n.link)
    (htarget : m.target = n.target) (hinto : m.intoChild = true) :
    m.link.childColumn ≠ n.column := by
  obtain ⟨view, -, hview, -, -, -, -, hchild⟩ := views_of_mem_nestings h.tables hm
  obtain ⟨view', -, hview', -, -, huses, -, -⟩ := views_of_mem_nestings h.tables hn
  rw [htarget, hview'] at hview
  obtain rfl := Option.some.inj hview
  -- the view is the primary one, and the column that goes is its reference
  obtain ⟨hrole, htable⟩ := hchild hinto
  obtain ⟨hmlink, -⟩ := (mem_nestings h.tables).1 hm
  obtain ⟨hnlink, -⟩ := (mem_nestings h.tables).1 hn
  intro hcolumn
  exact h.references view' (List.mem_of_getElem? hview') hrole m.link hmlink n.link hnlink hlinks
    htable (hcolumn ▸ huses)

/-- Steps into one view come from different tables. -/
theorem key_ne (h : Nestable views links results) {m n : Nesting}
    (hm : m ∈ nestings views links) (hn : n ∈ nestings views links)
    (hpair : s(m.link.parentTable, m.link.childTable) ≠ s(n.link.parentTable, n.link.childTable))
    (htarget : m.target = n.target) : m.key ≠ n.key := by
  obtain ⟨view, -, hview, -, -, -, hmpair, -⟩ := views_of_mem_nestings h.tables hm
  obtain ⟨view', -, hview', -, -, -, hnpair, -⟩ := views_of_mem_nestings h.tables hn
  rw [htarget, hview'] at hview
  obtain rfl := Option.some.inj hview
  intro hkey
  exact hpair (by rw [hmpair, hnpair, hkey])

/-- **The steps of the links stay out of each other's way.** -/
theorem tidy (h : Nestable views links results) : Tidy (nestings views links) results where
  apart := by
    refine List.Pairwise.filterMap _ (fun l l' hll m hm n hn => ?_)
      (List.Pairwise.and_mem.1 h.pairs)
    obtain ⟨hl, hl', hpair⟩ := hll
    have hmsteps : m ∈ nestings views links := List.mem_filterMap.2 ⟨l, hl, hm⟩
    have hnsteps : n ∈ nestings views links := List.mem_filterMap.2 ⟨l', hl', hn⟩
    obtain rfl : m.link = l := by
      obtain ⟨_, -, rfl⟩ := Option.map_eq_some_iff.1 hm
      rfl
    obtain rfl : n.link = l' := by
      obtain ⟨_, -, rfl⟩ := Option.map_eq_some_iff.1 hn
      rfl
    have hlinks : m.link ≠ n.link := fun heq => hpair (by rw [heq])
    intro htarget
    exact ⟨h.key_ne hmsteps hnsteps hpair htarget,
      h.childColumn_ne hmsteps hnsteps hlinks htarget,
      h.childColumn_ne hnsteps hmsteps hlinks.symm htarget.symm⟩
  inside n hn := by
    obtain ⟨target, -, htarget, -⟩ := views_of_mem_nestings h.tables hn
    rw [h.length]
    exact (List.getElem?_eq_some_iff.1 htarget).1
  columns m hm n hn := by
    obtain ⟨-, source, -, hsource, hkey, -⟩ := views_of_mem_nestings h.tables hm
    obtain ⟨hparent, hchild⟩ := h.columns n.link ((mem_nestings h.tables).1 hn).1 source hsource
    exact hkey ▸ ⟨hparent.symm, hchild.symm⟩
  rows i row hrow := by
    obtain ⟨rows, hrows, hmem⟩ := mem_of_mem_rowsOf hrow
    exact h.rows rows hrows row hmem
  fresh i row hrow n hn := by
    obtain ⟨rows, hrows, hmem⟩ := mem_of_mem_rowsOf hrow
    obtain ⟨-, source, -, hsource, hkey, -⟩ := views_of_mem_nestings h.tables hn
    exact hkey ▸ h.fresh rows hrows row hmem source hsource
  acyclic := h.acyclic

end Nestable

/-- The rows of a view as JSON, without the order of keys. -/
theorem unordered_rowsJson {rows rows' : List Row}
    (h : rows.map Fields.unordered = rows'.map Fields.unordered) :
    (rowsJson rows).unordered = (rowsJson rows').unordered := by
  have hobjects : ∀ rows : List Row, (rows.map Json.object).map Json.unordered =
      (rows.map Fields.unordered).map Json.Unordered.object := by
    intro rows
    rw [List.map_map, List.map_map]
    exact List.map_congr_left fun row _ => Json.unordered_object row
  rw [rowsJson, rowsJson, Json.unordered_array, Json.unordered_array, hobjects, hobjects, h]

theorem output_eq {s : MergeState} (hlength : s.results.length = views.length)
    (hnodup : (views.map View.table).Nodup) :
    s.output views =
      ((views.map View.table).zipIdx.filter fun (_, i) => !s.nested.contains i).map
        fun (table, i) => (table, rowsJson (rowsOf s.results i)) := by
  have hzip : ((views.map View.table).zip s.results).zipIdx =
      (views.map View.table).zipIdx.map fun (table, i) => ((table, rowsOf s.results i), i) := by
    refine List.ext_getElem (by simp [hlength]) fun i hi hi' => ?_
    have hin : i < s.results.length := by simp at hi; omega
    simp [rowsOf, hin]
  rw [MergeState.output, hzip, List.filter_map, List.map_map]
  refine Fields.ofList_eq_self (hnodup.sublist ?_)
  have hkeys := (List.filter_sublist (l := (views.map View.table).zipIdx)
    (p := fun x => !s.nested.contains x.2)).map Prod.fst
  rw [List.zipIdx_map_fst] at hkeys
  rw [Fields.keys, List.map_map]
  exact hkeys

/-- **Merging nests every row completely**, up to the order of keys. -/
theorem merge_eq_tree (h : Nestable views links results) :
    (Json.object (merge views links results)).unordered =
      (Json.object (tree views links results h.acyclic)).unordered := by
  have hmerged := h.tidy.merged
  have hlength := (hmerged 0).1.trans h.length
  rw [merge]
  -- from here on only the rows after the run matter, not how they came about
  generalize (Nesting.arrange (nestings views links)).foldl MergeState.step ⟨results, []⟩ = s
    at hmerged hlength ⊢
  have htop : ∀ x : String × Nat,
      (!s.nested.contains x.2) = !(nestings views links).any (·.source = x.2) := by
    intro x
    refine congrArg (! ·) (Bool.eq_iff_iff.2 ?_)
    simpa using (hmerged x.2).2.1
  rw [output_eq hlength h.tables, tree, Json.unordered_object, Json.unordered_object]
  refine congrArg Json.Unordered.object (Fields.unordered_congr ?_)
  rw [List.map_map, List.map_map, List.filter_congr fun x _ => htop x]
  refine List.map_congr_left fun x _ => ?_
  exact congrArg (x.1, ·) (unordered_rowsJson (hmerged x.2).2.2)

/-- Toys of a child of a parent, next to a child whose parent is not there. -/
theorem merge_eq_tree_family :
    let view (name : String) (role : Role) : View :=
      { database := "d", schema := { name, primaryKey := some "id", columns := [] }, role }
    let views := [view "parents" .primary, view "kids" .foreign, view "toys" .foreign]
    let links : List Link := [⟨"parents", "id", "kids", "of"⟩, ⟨"kids", "id", "toys", "of"⟩]
    let results : List (List Row) :=
      [[[("id", .ofNat 1)]],
        [[("id", .ofNat 10), ("of", .string "1")], [("id", .ofNat 11), ("of", .ofNat 2)]],
        [[("of", .ofNat 10), ("id", .ofNat 100)]]]
    ∃ h : Acyclic (Feeds (nestings views links)),
      (Json.object (merge views links results)).unordered =
        (Json.object (tree views links results h)).unordered ∧
      (Json.object (merge views links results)).compact =
        "\x7b\"parents\":[\x7b\"id\":1," ++
          "\"kids\":[\x7b\"id\":10,\"toys\":[\x7b\"id\":100\x7d]\x7d]\x7d]\x7d" := by
  intro view views links results
  have hacyclic : Acyclic (Feeds (nestings views links)) := by
    have hsteps : nestings views links =
        [⟨⟨"parents", "id", "kids", "of"⟩, 0, 1, false⟩,
          ⟨⟨"kids", "id", "toys", "of"⟩, 1, 2, false⟩] := by decide +kernel
    -- every step copies from a later view
    refine acyclic_of_lt id fun source target hfeeds => ?_
    obtain ⟨n, hn, rfl, rfl⟩ := hfeeds
    rw [hsteps] at hn
    simp only [List.mem_cons, List.not_mem_nil, or_false] at hn
    rcases hn with rfl | rfl <;> decide
  have h : Nestable views links results :=
    { length := rfl
      tables := by decide
      pairs := by simp [links]
      acyclic := hacyclic
      rows := by decide
      fresh := by decide
      columns := by decide
      references := by simp [views, links, view, Uses, View.table] }
  exact ⟨hacyclic, merge_eq_tree h, by decide +kernel⟩

end Views

end TableApi.Relation
