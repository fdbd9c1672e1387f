import TableApi.Proofs.Filter.Compiled
import TableApi.Proofs.View.Setters

/-!
# Views of harmless texts

The texts that a view holds reach its statements as they are. Each of them is harmless, whatever
the setters were given (`View.Written`, `View.written_run`):

* conditions are compiled, so they are fragments;
* names, fields and arguments are sanitized. What is left of a text has no harmful sign and no two
  hyphens in a row, and neither has any part of it (`Plain`).
-/

namespace TableApi

open Sql

variable {d : Dialect}

namespace Sql

/-! ## Plain texts -/

/-- **A plain text**: no harmful signs, and no two hyphens in a row. -/
structure Plain (s : List Char) : Prop where
  signs : ∀ c ∈ s, c ∉ harmfulSigns
  hyphens : ¬['-', '-'] <:+: s

theorem Plain.harmless {s : List Char} (h : Plain s) : Harmless d s :=
  harmless_of_signs d h.signs h.hyphens

theorem Plain.part {s t : List Char} (h : Plain s) (hpart : t <:+: s) : Plain t :=
  ⟨fun c hc => h.signs c (hpart.subset hc), fun hin => h.hyphens (hin.trans hpart)⟩

/-- **Sanitized texts are plain**, if no harmful sign is kept on purpose. -/
theorem plain_sanitize {extra : String} (hextra : ∀ c ∈ harmfulSigns, c ∉ extra.toList)
    (s : List Char) : Plain (Text.sanitize extra s) := by
  have hname : ∀ c ∈ harmfulSigns, Text.isNameChar c = false := by decide
  refine ⟨fun c hc hmem => ?_, Text.not_infix_sanitize extra s⟩
  rcases Text.isSafe_of_mem_sanitize hc with h | h
  · rw [hname c hmem] at h
    exact absurd h (by decide)
  · exact hextra c hmem h

theorem plain_sanitized {extra : String} (hextra : ∀ c ∈ harmfulSigns, c ∉ extra.toList)
    (s : String) : Plain (Text.sanitized extra s).toList := by
  rw [Text.sanitized, String.toList_ofList]
  exact plain_sanitize hextra s.toList

/-- The two sides of a cut are parts of the text. -/
theorem Plain.cutAt {s before after : List Char} (h : Plain s) {mark : Char}
    (hcut : Text.cutAt mark s = some (before, after)) : Plain before ∧ Plain after := by
  obtain ⟨rfl, -⟩ := Text.cutAt_eq_some hcut
  exact ⟨h.part (List.prefix_append ..).isInfix,
    h.part ((List.suffix_cons ..).trans (List.suffix_append ..)).isInfix⟩

/-- The two sides of a cut at the last mark. -/
theorem Plain.cutLast {s before after : List Char} (h : Plain s) {mark : Char}
    (hcut : Text.cutLast mark s = some (before, after)) : Plain before ∧ Plain after := by
  obtain ⟨rfl, -⟩ := Text.cutLast_eq_some hcut
  exact ⟨h.part (List.prefix_append ..).isInfix,
    h.part ((List.suffix_cons ..).trans (List.suffix_append ..)).isInfix⟩

end Sql

/-! ## Entries of a select list -/

/-- **An entry of harmless texts.** A column's names are quoted, so they may be any. -/
def Selection.Written (d : Dialect) : Selection → Prop
  | .column _ _ => True
  | .aggregate _ args => Harmless d args.toList
  | .expr text => Harmless d text.toList

/-- An entry of harmless texts, with a harmless label. -/
structure Projection.Written (d : Dialect) (p : Projection) : Prop where
  selection : p.selection.Written d
  label : ∀ a ∈ p.label, Harmless d a.toList

namespace Projection

theorem plain_callLabel? {s : List Char} {label : Option String} (hs : Plain s)
    (h : callLabel? s = some label) : ∀ a ∈ label, Plain a.toList := by
  cases s with
  | nil =>
    obtain rfl := Option.some.inj h
    simp
  | cons c rest =>
    rw [callLabel?] at h
    split at h
    · obtain rfl := Option.some.inj h
      intro a ha
      obtain rfl := Option.some.inj ha
      rw [String.toList_ofList]
      exact hs.part (List.suffix_cons ..).isInfix
    · simp at h

theorem plain_call? {s : List Char} {name args : String} {label : Option String} (hs : Plain s)
    (h : call? s = some (name, args, label)) :
    Plain name.toList ∧ Plain args.toList ∧ ∀ a ∈ label, Plain a.toList := by
  obtain ⟨⟨before, rest⟩, hopen, h⟩ := Option.bind_eq_some_iff.1 h
  obtain ⟨hbefore, hrest⟩ := hs.cutAt hopen
  dsimp only at h
  split at h
  · simp at h
  · obtain ⟨⟨inner, after⟩, hclose, h⟩ := Option.bind_eq_some_iff.1 h
    obtain ⟨hinner, hafter⟩ := hrest.cutLast hclose
    obtain ⟨label', hlabel, h⟩ := Option.bind_eq_some_iff.1 h
    obtain ⟨rfl, rfl, rfl⟩ : String.ofList before = name ∧ String.ofList inner = args ∧
        label' = label := by simpa using h
    rw [String.toList_ofList, String.toList_ofList]
    exact ⟨hbefore, hinner, plain_callLabel? hafter hlabel⟩

theorem written_ofName (t : Table) {s : List Char} (hs : Plain s) : (ofName t s).Written d := by
  have hselection : ∀ {name : List Char}, Plain name → Selection.Written d
      (if t.hasColumn (String.ofList name) then .column t.name (String.ofList name)
        else .expr (String.ofList name)) := by
    intro name hname
    split
    · trivial
    · simpa [Selection.Written] using hname.harmless
  rw [ofName]
  cases hcut : Text.cutAt '@' s with
  | none => exact ⟨hselection hs, by simp⟩
  | some parts =>
    obtain ⟨name, a⟩ := parts
    refine ⟨hselection (hs.cutAt hcut).1, fun label hlabel => ?_⟩
    dsimp only at hlabel
    split at hlabel
    · simp at hlabel
    · obtain rfl := Option.some.inj hlabel
      rw [String.toList_ofList]
      exact (plain_sanitize (by decide) a).harmless

/-- **An entry that is read is one of harmless texts.** -/
theorem written_parse? {t : Table} {text : String} {p : Projection} (h : parse? t text = some p) :
    p.Written d := by
  have hs : Plain (Text.sanitize ".*(),@" text.toList) := plain_sanitize (by decide) _
  dsimp only [parse?] at h
  split at h
  · simp at h
  · split at h
    · next name args label hcall =>
      obtain ⟨hname, hargs, hlabel⟩ := plain_call? hs hcall
      have hlabel' : ∀ a ∈ label, Harmless d a.toList := fun a ha => (hlabel a ha).harmless
      split at h
      · obtain rfl := Option.some.inj h
        exact ⟨hargs.harmless, hlabel'⟩
      · -- a call of no known function is written out again
        obtain rfl := Option.some.inj h
        refine ⟨?_, hlabel'⟩
        have hopen : Firm "(".toList := by decide
        have hclose : Led d ")".toList := Firm.led (by decide) d
        have htext := hname.harmless.append (hopen.append (hargs.harmless.append hclose))
        simpa [Selection.Written] using htext
    · obtain rfl := Option.some.inj h
      exact written_ofName t hs

end Projection

/-! ## Views -/

/-- **A view of harmless texts.** -/
structure View.Written (d : Dialect) (v : View) : Prop where
  idFilter : ∀ sql ∈ v.idFilter, Fragment d sql.toList
  filters : ∀ sql ∈ v.filters, Fragment d sql.toList
  columns : ∀ p ∈ v.columns, p.Written d
  tables : ∀ j ∈ v.joins, Harmless d j.table.toList
  conditions : ∀ j ∈ v.joins, ∀ sql ∈ j.condition, Fragment d sql.toList
  groupBy : ∀ g ∈ v.groupBy, Harmless d g.toList
  having : ∀ sql ∈ v.having, Fragment d sql.toList
  orderBy : ∀ t ∈ v.orderBy, Harmless d t.field.toList

namespace View

/-- A view that no setter has touched has no texts yet. -/
theorem written_bare (d : Dialect) (v : View) : v.bare.Written d := by
  constructor <;> simp [bare]

/-- The condition on groups or on a join, if there is one. -/
theorem fragment_of_mem_nonempty? {sql : String} (h : Fragment d sql.toList) :
    ∀ s ∈ nonempty? sql, Fragment d s.toList := by
  intro s hs
  rw [nonempty?] at hs
  split at hs
  · simp at hs
  · obtain rfl := Option.some.inj hs
    exact h

/-- The fields that an order text adds, each of them sanitized. -/
theorem harmless_orderStep {state : Bool × List OrderTerm}
    (h : ∀ t ∈ state.2, Harmless d t.field.toList) (token : String) :
    ∀ t ∈ (orderStep state token).2, Harmless d t.field.toList := by
  rw [orderStep]
  dsimp only
  split
  · cases hterms : state.2 with
    | nil => simp [redirectLast]
    | cons t rest =>
      rw [hterms] at h
      exact List.forall_mem_cons.2 (List.forall_mem_cons.1 h)
  · split
    · exact h
    · exact List.forall_mem_cons.2 ⟨(plain_sanitized (by decide) token).harmless, h⟩

/-- The fields after a whole order text. -/
theorem harmless_orderSteps {tokens : List String} {state : Bool × List OrderTerm}
    (h : ∀ t ∈ state.2, Harmless d t.field.toList) :
    ∀ t ∈ (tokens.foldl orderStep state).2, Harmless d t.field.toList := by
  induction tokens generalizing state with
  | nil => exact h
  | cons token tokens ih => exact ih (harmless_orderStep h token)

theorem fragment_joinCondition {entries : List String} {condition : Option String}
    (h : joinCondition d entries = .ok condition) :
    ∀ sql ∈ condition, Fragment d sql.toList := by
  rw [joinCondition] at h
  split at h
  · obtain rfl := Except.ok.inj h
    simp
  · split at h
    · next sql hsql =>
      obtain rfl := Except.ok.inj h
      exact fragment_of_mem_nonempty? (Filter.fragment_compileAs hsql)
    · simp at h

/-- A join, added to a view of harmless texts. -/
theorem Written.addJoin {v v' : View} (h : v.Written d) {text : String}
    (hv : v.addJoin d text = .ok v') : v'.Written d := by
  dsimp only [View.addJoin] at hv
  split at hv
  · simp at hv
  · next first rest hentries =>
    split at hv
    · simp at hv
    · obtain ⟨condition, hcondition, hv⟩ := bind_eq_ok.1 hv
      obtain rfl := Except.ok.inj hv
      refine { h with tables := fun j hj => ?_, conditions := fun j hj => ?_ }
      · rcases List.mem_append.1 hj with hj | hj
        · exact h.tables j hj
        · obtain rfl := List.mem_singleton.1 hj
          exact (plain_sanitized (by decide) first).harmless
      · rcases List.mem_append.1 hj with hj | hj
        · exact h.conditions j hj
        · obtain rfl := List.mem_singleton.1 hj
          exact fragment_joinCondition hcondition

/-- **Every setter that takes its text keeps the view harmless.** -/
theorem Written.apply {v v' : View} (h : v.Written d) {s : Setter} (hv : s.apply d v = .ok v') :
    v'.Written d := by
  cases s with
  | ids keys =>
    dsimp only [Setter.apply, setIds] at hv
    split at hv
    · obtain rfl := Except.ok.inj hv
      exact h
    · split at hv
      · obtain rfl := Except.ok.inj hv
        exact h
      · split at hv
        · next sql hsql =>
          obtain rfl := Except.ok.inj hv
          refine { h with idFilter := fun s hs => ?_ }
          obtain rfl := Option.some.inj hs
          exact Filter.fragment_equality hsql
        · simp at hv
  | filter text =>
    dsimp only [Setter.apply, addFilter] at hv
    split at hv
    · next sql hsql =>
      obtain rfl := Except.ok.inj hv
      rw [pushFilter]
      split
      · exact h
      · refine { h with filters := fun s hs => ?_ }
        rcases List.mem_append.1 hs with hs | hs
        · exact h.filters s hs
        · obtain rfl := List.mem_singleton.1 hs
          exact Filter.fragment_compileAs hsql
    · simp at hv
  | columns text =>
    obtain rfl := Except.ok.inj hv
    refine { h with columns := fun p hp => ?_ }
    rcases List.mem_append.1 hp with hp | hp
    · exact h.columns p hp
    · obtain ⟨entry, -, hentry⟩ := List.mem_filterMap.1 hp
      exact Projection.written_parse? hentry
  | exclude text =>
    obtain rfl := Except.ok.inj hv
    exact { h with }
  | order text =>
    obtain rfl := Except.ok.inj hv
    dsimp only [addOrder]
    refine { h with orderBy := fun t ht => ?_ }
    refine harmless_orderSteps (fun t ht => ?_) t (List.mem_reverse.1 ht)
    exact h.orderBy t (List.mem_reverse.1 ht)
  | page text defaultSize =>
    obtain rfl := Except.ok.inj hv
    dsimp only [setPage]
    split <;> split <;> exact { h with }
  | start text =>
    obtain rfl := Except.ok.inj hv
    rw [setStart]
    split <;> exact { h with }
  | length text =>
    obtain rfl := Except.ok.inj hv
    rw [setLength]
    split <;> exact { h with }
  | join text =>
    rw [Setter.apply] at hv
    exact h.addJoin hv
  | group text =>
    obtain rfl := Except.ok.inj hv
    refine { h with groupBy := fun g hg => ?_ }
    rcases List.mem_append.1 hg with hg | hg
    · exact h.groupBy g hg
    · obtain ⟨entry, -, rfl⟩ := List.mem_map.1 (List.mem_filter.1 hg).1
      exact (plain_sanitized (by decide) entry).harmless
  | having text =>
    dsimp only [Setter.apply, setHaving] at hv
    split at hv
    · next sql hsql =>
      obtain rfl := Except.ok.inj hv
      exact { h with having := fragment_of_mem_nonempty? (Filter.fragment_compileAs hsql) }
    · simp at hv

/-- **Every run of setters makes a view of harmless texts.** -/
theorem written_run (d : Dialect) (v : View) (setters : List Setter) :
    (v.bare.run d setters).Written d :=
  run_keeps (P := Written d) (fun h hv => h.apply hv) (written_bare d v) setters

end View

end TableApi
