import TableApi.Proofs.Relation.Copies

/-!
# Lists of children in the primary view

Where every link leads from the primary view to another one, a merge goes through the links in
their order, and each of them puts its children into the rows of the primary view under the child's
table (`FromPrimary.get?_merge`). Two links to one table share that place, so the last of them that
has children of a row decides which ones are listed there (`merge_lists`), and children that only an
earlier link finds are lost (`merge_loses_message`).
-/

namespace TableApi.Relation

/-- **A row with the lists of all links**, one after the other. -/
def hosting (rows : String → List Row) (links : List Link) (row : Row) : Row :=
  links.foldl (fun row l => withChildren l (rows l.childTable) row) row

/-- The child is listed in the row. -/
def Lists (l : Link) (row child : Row) : Prop :=
  ∃ list, row.get? l.childTable = some (.array list) ∧ .object (child.erase l.childColumn) ∈ list

/-- **Every link leads from the primary view**, which has this place, to another one. -/
structure FromPrimary (views : List View) (links : List Link) (p : Nat) (v : View) : Prop where
  /-- No table has two views. -/
  tables : (views.map View.table).Nodup
  view : views[p]? = some v
  primary : ∀ i w, views[i]? = some w → (w.role = .primary ↔ i = p)
  links : ∀ l ∈ links, l.parentTable = v.table ∧ l.childTable ≠ v.table ∧
    l.childTable ∈ views.map View.table

/-- The rows of a table. -/
def rowsUnder (views : List View) (results : List (List Row)) (table : String) : List Row :=
  ((indexOf? (views.map View.table) table).map (rowsOf results)).getD []

/-! ## One row -/

section Row

variable {l : Link} {links : List Link} {children : List Row} {rows : String → List Row}
  {row row' : Row} {column : String}

@[simp] theorem childList_eq_nil_iff :
    childList l children row = [] ↔ ∀ child ∈ children, ¬Joins l row child := by
  simp [childList]

theorem mem_childList {child : Row} (hchild : child ∈ children) (hjoins : Joins l row child) :
    .object (child.erase l.childColumn) ∈ childList l children row :=
  List.mem_map_of_mem (List.mem_filter.2 ⟨hchild, by simpa using hjoins⟩)

/-- Only the linked column of the row matters. -/
theorem childList_congr (h : row.get? l.parentColumn = row'.get? l.parentColumn) :
    childList l children row = childList l children row' := by
  have hkey : rowKey? row l.parentColumn = rowKey? row' l.parentColumn := by
    rw [rowKey?, rowKey?, h]
  have hjoins : ∀ child, Joins l row child ↔ Joins l row' child := by
    intro child
    rw [Joins, Joins, hkey]
  rw [childList, childList]
  exact congrArg _ (List.filter_congr fun child _ => decide_eq_decide.2 (hjoins child))

/-- **The later row has no keys but those of the earlier one.** A list is no key, so a row that gets
lists can only lose some. -/
def FewerKeys (row row' : Row) : Prop :=
  ∀ column key, rowKey? row' column = some key → rowKey? row column = some key

theorem FewerKeys.trans {row'' : Row} (h : FewerKeys row row') (h' : FewerKeys row' row'') :
    FewerKeys row row'' :=
  fun column key hkey => h column key (h' column key hkey)

/-- What joined nothing joins nothing later. -/
theorem FewerKeys.childList_eq_nil (h : FewerKeys row row')
    (hnil : childList l children row = []) : childList l children row' = [] := by
  rw [childList_eq_nil_iff] at hnil ⊢
  rintro child hchild ⟨key, hkey, hmeets⟩
  exact hnil child hchild ⟨key, h _ _ hkey, hmeets⟩

theorem fewerKeys_withChildren (l : Link) (children : List Row) (row : Row) :
    FewerKeys row (withChildren l children row) := by
  intro column key hkey
  rw [withChildren] at hkey
  split at hkey
  · exact hkey
  · rw [rowKey?, Fields.get?_insert] at hkey
    split at hkey
    · exact absurd hkey (by simp [joinKey?])
    · exact hkey

/-- **A place stays as it is** where no link that leads there has children of the row. -/
theorem get?_hosting_of_forall (hkeys : FewerKeys row row')
    (h : ∀ m ∈ links, m.childTable = column → childList m (rows m.childTable) row = []) :
    (hosting rows links row').get? column = row'.get? column := by
  induction links generalizing row' with
  | nil => rfl
  | cons m links ih =>
    obtain ⟨hm, hlinks⟩ := List.forall_mem_cons.1 h
    have hnext := ih (hkeys.trans (fewerKeys_withChildren m (rows m.childTable) row')) hlinks
    refine hnext.trans ?_
    rw [withChildren]
    split
    · rfl
    · next hsome =>
      have hne : column ≠ m.childTable := fun heq =>
        hsome (hkeys.childList_eq_nil (hm heq.symm))
      rw [Fields.get?_insert, if_neg hne]

theorem fewerKeys_hosting (rows : String → List Row) (links : List Link) (row : Row) :
    FewerKeys row (hosting rows links row) := by
  induction links generalizing row with
  | nil => exact fun _ _ hkey => hkey
  | cons m links ih => exact (fewerKeys_withChildren m (rows m.childTable) row).trans (ih _)

/-- **The last link that has children of the row** decides what is listed under their table. -/
theorem get?_hosting {earlier later : List Link}
    (hcolumn : ∀ m ∈ earlier, m.childTable ≠ l.parentColumn)
    (hsome : childList l (rows l.childTable) row ≠ [])
    (hlast : ∀ m ∈ later, m.childTable = l.childTable → childList m (rows m.childTable) row = []) :
    (hosting rows (earlier ++ l :: later) row).get? l.childTable =
      some (.array (childList l (rows l.childTable) row)) := by
  let before := hosting rows earlier row
  have hbefore : FewerKeys row before := fewerKeys_hosting rows earlier row
  have hcolumns : before.get? l.parentColumn = row.get? l.parentColumn :=
    get?_hosting_of_forall (fun _ _ hkey => hkey) fun m hm heq => absurd heq (hcolumn m hm)
  have hlist : childList l (rows l.childTable) before = childList l (rows l.childTable) row :=
    childList_congr hcolumns
  have hafter : (withChildren l (rows l.childTable) before).get? l.childTable =
      some (.array (childList l (rows l.childTable) row)) := by
    rw [withChildren, hlist, if_neg hsome, Fields.get?_insert, if_pos rfl]
  have hsplit : hosting rows (earlier ++ l :: later) row =
      hosting rows later (withChildren l (rows l.childTable) before) := by
    rw [hosting, List.foldl_append, List.foldl_cons]
    rfl
  have hkeys := hbefore.trans (fewerKeys_withChildren l (rows l.childTable) before)
  rw [hsplit, get?_hosting_of_forall hkeys hlast, hafter]

end Row

/-! ## The steps of the merge -/

namespace Nesting

/-- Steps that copy no view that rows go into keep their order. -/
theorem arrange_eq_self {waiting : List Nesting}
    (h : ∀ n ∈ waiting, ∀ other ∈ waiting, other.target ≠ n.source) :
    arrange waiting = waiting := by
  fun_induction arrange waiting with
  | case1 => rfl
  | case2 first rest ready next ih =>
    have hready : ready first = true := by
      simp only [ready, List.all_eq_true, bne_iff_ne]
      exact h first (List.mem_cons_self ..)
    have hnext : next = first := by
      simp only [next, List.find?_cons_of_pos hready, Option.getD_some]
    change next :: arrange ((first :: rest).erase next) = first :: rest
    rw [hnext, List.erase_cons_head] at ih ⊢
    rw [ih fun n hn other hother =>
      h n (List.mem_cons_of_mem _ hn) other (List.mem_cons_of_mem _ hother)]

end Nesting

/-- **Steps into one view that is copied nowhere** change its rows one after the other. -/
theorem foldl_step_into {p : Nat} {steps : List Nesting}
    (h : ∀ n ∈ steps, n.target = p ∧ n.source ≠ p) {s : MergeState} (hp : p ∉ s.nested) :
    let s' := steps.foldl MergeState.step s
    p ∉ s'.nested ∧ rowsOf s'.results p = (rowsOf s.results p).map fun row =>
      steps.foldl (fun row n => n.received (rowsOf s.results n.source) row) row := by
  induction steps generalizing s with
  | nil => simpa using hp
  | cons n steps ih =>
    obtain ⟨⟨htarget, hsource⟩, hsteps⟩ := List.forall_mem_cons.1 h
    have hstep : s.step n =
        ⟨s.results.set p ((rowsOf s.results p).map (n.received (rowsOf s.results n.source))),
          n.source :: s.nested⟩ := by
      rw [MergeState.step, htarget, if_neg (by simpa using hp), n.attach_eq, htarget]
    have hnext : p ∉ (s.step n).nested := by
      rw [hstep, List.mem_cons, not_or]
      exact ⟨hsource.symm, hp⟩
    have hothers : ∀ m ∈ steps, rowsOf (s.step n).results m.source = rowsOf s.results m.source := by
      intro m hm
      rw [hstep, rowsOf, List.getElem?_set_ne (hsteps m hm).2.symm]
      rfl
    have hrows : rowsOf (s.step n).results p =
        (rowsOf s.results p).map (n.received (rowsOf s.results n.source)) := by
      rw [hstep]
      exact rowsOf_set_map _ _ _
    obtain ⟨hfree, hlast⟩ := ih hsteps hnext
    refine ⟨hfree, hlast.trans ?_⟩
    rw [hrows, List.map_map]
    refine List.map_congr_left fun row _ => ?_
    exact List.foldl_ext _ _ _ fun row m hm => by rw [hothers m hm]

section Views

variable {views : List View} {links : List Link} {results : List (List Row)} {p : Nat} {v : View}

namespace FromPrimary

theorem exists_indexOf? (h : FromPrimary views links p v) {l : Link} (hl : l ∈ links) :
    ∃ c, indexOf? (views.map View.table) l.childTable = some c :=
  Option.ne_none_iff_exists'.1 (indexOf?_eq_none.not.2 (not_not.2 (h.links l hl).2.2))

theorem nestings_eq (h : FromPrimary views links p v) :
    let nesting (l : Link) : Nesting :=
      ⟨l, p, (indexOf? (views.map View.table) l.childTable).getD 0, false⟩
    nestings views links = links.map nesting := by
  intro nesting
  have hp : indexOf? (views.map View.table) v.table = some p := by
    rw [indexOf?_eq_some h.tables, List.getElem?_map, h.view]
    rfl
  rw [nestings, List.filterMap_eq_map_iff_forall_eq_some]
  intro l hl
  obtain ⟨hparent, hne, -⟩ := h.links l hl
  obtain ⟨c, hc⟩ := h.exists_indexOf? hl
  have hview : (views.map View.table)[c]? = some l.childTable := (indexOf?_eq_some h.tables).1 hc
  rw [List.getElem?_map] at hview
  obtain ⟨w, hw, hwtable⟩ := Option.map_eq_some_iff.1 hview
  have hpc : p ≠ c := by
    rintro rfl
    rw [h.view] at hw
    obtain rfl := Option.some.inj hw
    exact hne hwtable.symm
  have hedge : edge? (views.map View.table) l = some (p, c) := by
    rw [edge?_eq_some, hparent]
    exact ⟨hp, hc, hpc⟩
  have hrole : ((views[c]?.map View.role) == some .primary) = false := by
    rw [hw, beq_eq_false_iff_ne]
    exact fun hsome => hpc ((h.primary c w hw).1 (Option.some.inj hsome)).symm
  simp [nesting, hedge, hc, hrole]

/-- **What stands under the primary view's table**: its rows with the lists of all links. -/
theorem get?_merge (h : FromPrimary views links p v) (hlength : results.length = views.length) :
    (merge views links results).get? v.table =
      some (rowsJson ((rowsOf results p).map (hosting (rowsUnder views results) links))) := by
  have hsteps := h.nestings_eq
  have hinto : ∀ n ∈ nestings views links, n.target = p ∧ n.source ≠ p := by
    intro n hn
    have htarget : n.target = p := by
      rw [hsteps] at hn
      obtain ⟨l, -, rfl⟩ := List.mem_map.1 hn
      rfl
    exact ⟨htarget, htarget ▸ source_ne_target h.tables hn⟩
  have horder : Nesting.arrange (nestings views links) = nestings views links := by
    refine Nesting.arrange_eq_self fun n hn other hother => ?_
    rw [(hinto other hother).1]
    exact (hinto n hn).2.symm
  obtain ⟨hfree, hrows⟩ := foldl_step_into hinto (s := ⟨results, []⟩) List.not_mem_nil
  rw [Relation.get?_merge hlength h.tables h.view, horder, rowsAfter, stateAfter,
    List.take_length, if_neg hfree, hrows]
  refine congrArg (some ∘ rowsJson) (List.map_congr_left fun row _ => ?_)
  rw [hsteps, List.foldl_map, hosting]
  refine List.foldl_ext _ _ _ fun row l hl => ?_
  rw [Nesting.received_eq_withChildren rfl, rowsUnder]
  obtain ⟨c, hc⟩ := h.exists_indexOf? hl
  rw [hc]
  rfl

end FromPrimary

/-- **Children of the primary view's rows**, for all views, every list of links from the primary
one to others, and all rows. The primary view's rows stand in the answer under its table. Take one
of them, and a link whose column no earlier link puts a list into. If the link has children of the
row and no later link to their table has any, then exactly these are listed under the table, in
their order and without the foreign key. So a child that a link finds is listed, unless a later link
to the same table has children of the row. -/
theorem merge_lists (h : FromPrimary views links p v) (hlength : results.length = views.length) :
    ∃ f : Row → Row,
      (merge views links results).get? v.table = some (rowsJson ((rowsOf results p).map f)) ∧
        ∀ row ∈ rowsOf results p, ∀ earlier l later, links = earlier ++ l :: later →
          (∀ m ∈ earlier, m.childTable ≠ l.parentColumn) →
            let children := rowsUnder views results l.childTable
            let OthersJoin := ∃ m ∈ later, m.childTable = l.childTable ∧
              ∃ child ∈ children, Joins m row child
            ((∃ child ∈ children, Joins l row child) → ¬OthersJoin →
              (f row).get? l.childTable = some (.array (childList l children row))) ∧
            ∀ child ∈ children, Joins l row child → Lists l (f row) child ∨ OthersJoin := by
  refine ⟨_, h.get?_merge hlength, ?_⟩
  rintro row - earlier l later rfl hcolumn children OthersJoin
  have hlist : (∃ child ∈ children, Joins l row child) → ¬OthersJoin →
      (hosting (rowsUnder views results) (earlier ++ l :: later) row).get? l.childTable =
        some (.array (childList l children row)) := by
    rintro ⟨child, hchild, hjoins⟩ hnone
    refine get?_hosting hcolumn (fun hnil => childList_eq_nil_iff.1 hnil child hchild hjoins) ?_
    intro m hm htable
    rw [childList_eq_nil_iff, htable]
    exact fun other hother hjoin => hnone ⟨m, hm, htable, other, hother, hjoin⟩
  refine ⟨hlist, fun child hchild hjoins => ?_⟩
  by_cases hothers : OthersJoin
  · exact .inr hothers
  · exact .inl ⟨_, hlist ⟨child, hchild, hjoins⟩ hothers, mem_childList hchild hjoins⟩

/-- Users and messages. -/
def mailbox : List View :=
  [{ database := "d", schema := { name := "users", primaryKey := some "id", columns := [] },
     role := .primary },
    { database := "d", schema := { name := "messages", primaryKey := some "id", columns := [] },
      role := .foreign }]

/-- A message has a sender and a recipient. -/
def mailboxLinks : List Link :=
  [⟨"users", "id", "messages", "sender"⟩, ⟨"users", "id", "messages", "recipient"⟩]

theorem fromPrimary_mailbox : ∃ v, FromPrimary mailbox mailboxLinks 0 v ∧ v.table = "users" := by
  refine ⟨_, { tables := by decide, view := rfl, primary := ?_, links := by decide }, rfl⟩
  intro i v hv
  match i with
  | 0 | 1 =>
    obtain rfl := Option.some.inj hv
    simp
  | i + 2 => simp [mailbox] at hv

/-- A message from one user to another is listed with its sender. -/
theorem merge_lists_mailbox :
    let sender : Row := [("id", .ofNat 1)]
    let message : Row := [("id", .ofNat 10), ("sender", .ofNat 1), ("recipient", .ofNat 2)]
    ∃ rows : List Row,
      (merge mailbox mailboxLinks [[sender], [message]]).get? "users" = some (rowsJson rows) ∧
        ∃ row ∈ rows, row.get? "messages" =
          some (.array [.object [("id", .ofNat 10), ("recipient", .ofNat 2)]]) := by
  intro sender message
  obtain ⟨v, hmailbox, htable⟩ := fromPrimary_mailbox
  have hlength : [[sender], [message]].length = mailbox.length := rfl
  obtain ⟨f, hget, hlists⟩ := merge_lists hmailbox hlength
  rw [htable] at hget
  obtain ⟨hlist, -⟩ := hlists sender (List.mem_singleton_self _) [] _ _ rfl (by simp)
  have hmessage := hlist (by decide +kernel) (by decide +kernel)
  exact ⟨_, hget, f sender, List.mem_singleton_self _, hmessage⟩

/-- **A message is lost**: it is not listed with its sender, who was sent another one. -/
theorem merge_loses_message :
    let user : Row := [("id", .ofNat 1)]
    let sent : Row := [("id", .ofNat 10), ("sender", .ofNat 1), ("recipient", .ofNat 2)]
    let received : Row := [("id", .ofNat 11), ("sender", .ofNat 2), ("recipient", .ofNat 1)]
    Joins ⟨"users", "id", "messages", "sender"⟩ user sent ∧
      ∃ row, (merge mailbox mailboxLinks [[user], [sent, received]]).get? "users" =
          some (rowsJson [row]) ∧
        ¬Lists ⟨"users", "id", "messages", "sender"⟩ row sent := by
  intro user sent received
  obtain ⟨v, hmailbox, htable⟩ := fromPrimary_mailbox
  have hlength : [[user], [sent, received]].length = mailbox.length := rfl
  have hget := hmailbox.get?_merge hlength
  rw [htable] at hget
  refine ⟨by decide +kernel, _, hget, ?_⟩
  rintro ⟨list, hlist, hmem⟩
  -- the list is that of the other link
  have hother : (hosting (rowsUnder mailbox [[user], [sent, received]]) mailboxLinks user).get?
      "messages" = some (.array [.object (received.erase "recipient")]) := rfl
  obtain rfl := Json.array.inj (Option.some.inj (hother.symm.trans hlist))
  have hsame := congrArg Json.compact (List.mem_singleton.1 hmem)
  revert hsame
  decide +kernel

end Views

end TableApi.Relation
