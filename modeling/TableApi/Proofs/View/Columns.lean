import Mathlib.Data.List.Forall2
import Mathlib.Tactic.MkIffOfInductiveProp
import TableApi.Proofs.Text.Entries
import TableApi.Proofs.Text.Letters
import TableApi.View.Basic

/-!
# The columns that are asked for

The entries of a columns text ask for columns of the table and for calls of functions, under labels
or without. The arguments of a call may hold commas and calls again; as long as their parentheses
are balanced, the commas in them separate no entries, and the last closing parenthesis is that of
the call. So every entry is one column of the select list, in its place: it is shown as what it asks
for (`ColumnEntry.Shows`), and as nothing else (`addColumns_columnsText`).
-/

namespace TableApi

/-! ## Names -/

/-- A sign is not among the characters of a name. -/
theorem Text.not_mem_of_isNameChar {s : List Char} (h : ∀ c ∈ s, isNameChar c = true) {c : Char}
    (hc : isNameChar c = false) : c ∉ s := by
  intro hmem
  rw [h c hmem] at hc
  exact absurd hc (by decide)

theorem Text.whole_of_isNameChar {s : List Char} (h : ∀ c ∈ s, isNameChar c = true) : Whole s := by
  have hsigns : ∀ c ∈ listSigns, isNameChar c = false := by decide
  exact whole_of_plain fun c hc hmem => not_mem_of_isNameChar h (hsigns c hmem) hc

/-- The function of a name is the one that the name is written for, in any case. -/
theorem Aggregate.ofName?_eq_some {name : String} {f : Aggregate}
    (hname : ∀ c ∈ name.toList, Text.isNameChar c = true) :
    ofName? name = some f ↔ Text.sameLetters name f.name = true := by
  have hsmall : ∀ c ∈ f.name.toList, c.toLower = c := by
    cases f <;> decide
  rw [← Text.lowered_eq_iff (fun c hc => Text.toNat_lt_of_isNameChar (hname c hc)) hsmall]
  constructor
  · intro h
    rw [ofName?] at h
    have hfound := List.find?_some h
    exact (beq_iff_eq.1 hfound).symm
  · intro h
    rw [ofName?, h]
    cases f <;> decide

/-! ## Entries -/

/-- **What an entry asks for**: a column, or a call of a function. -/
inductive Asked
  | column (name : String)
  | call (function args : String)
deriving DecidableEq, Repr

namespace Asked

/-- What is asked for, as it is written. -/
def written : Asked → String
  | .column name => name
  | .call function args => function ++ "(" ++ args ++ ")"

@[simp] theorem toList_call (function args : String) :
    (call function args).written.toList = function.toList ++ '(' :: (args.toList ++ [')']) := by
  simp [written]

/-- **A column that the table has, or a call**: the function has a name, which may be empty, and the
parentheses of the arguments are balanced. -/
def Valid (t : Table) : Asked → Prop
  | .column name =>
    name ≠ "" ∧ (∀ c ∈ name.toList, Text.isNameChar c = true) ∧ t.hasColumn name = true
  | .call function args =>
    (∀ c ∈ function.toList, Text.isNameChar c = true) ∧
      (∀ c ∈ args.toList, Text.isNameChar c = true ∨ c ∈ ['.', '*', ',', '(', ')']) ∧
      Text.Balanced args.toList

instance (t : Table) : DecidablePred (Valid t)
  | .column _ => inferInstanceAs (Decidable (_ ∧ _ ∧ _))
  | .call _ _ => inferInstanceAs (Decidable (_ ∧ _ ∧ _))

/-- The signs of an entry. -/
def signs : String := ".*(),@"

variable {t : Table} {a : Asked}

/-- It is a piece of a list, for the commas of a call are in its parentheses. -/
theorem Valid.whole (h : a.Valid t) : Text.Whole a.written.toList := by
  cases a with
  | column name => exact Text.whole_of_isNameChar h.2.1
  | call function args =>
    obtain ⟨hfunction, hargs, hbalanced⟩ := h
    have hplain : ∀ c ∈ args.toList, c ≠ '\'' ∧ c ≠ '[' ∧ c ≠ ']' := by
      intro c hc
      refine ⟨?_, ?_, ?_⟩ <;> rintro rfl <;> exact absurd (hargs _ hc) (by decide)
    rw [toList_call]
    exact (Text.whole_of_isNameChar hfunction).append (Text.whole_parens hbalanced hplain)

/-- Its characters are those that are kept of an entry. -/
theorem Valid.safe (h : a.Valid t) :
    ∀ c ∈ a.written.toList, Text.isNameChar c = true ∨ c ∈ signs.toList := by
  cases a with
  | column name => exact fun c hc => .inl (h.2.1 c hc)
  | call function args =>
    obtain ⟨hfunction, hargs, -⟩ := h
    have hmarks : ∀ c ∈ ['.', '*', ',', '(', ')'], c ∈ signs.toList := by decide
    rw [toList_call, List.forall_mem_append, List.forall_mem_cons, List.forall_mem_append]
    exact ⟨fun c hc => .inl (hfunction c hc), by decide,
      fun c hc => (hargs c hc).imp_right (hmarks c), by decide⟩

theorem Valid.ne_nil (h : a.Valid t) : a.written.toList ≠ [] := by
  cases a with
  | column name => exact fun hnil => h.1 (String.toList_eq_nil_iff.1 hnil)
  | call function args => simp

end Asked

/-- **An entry of a columns text**, with the blanks around it. -/
structure ColumnEntry where
  before : String := ""
  asked : Asked
  label : Option String := none
  after : String := ""
deriving DecidableEq, Repr

namespace ColumnEntry

/-- The entry without the blanks. -/
def written (e : ColumnEntry) : String :=
  e.asked.written ++ e.label.elim "" ("@" ++ ·)

/-- The entry with the blanks. -/
def text (e : ColumnEntry) : String :=
  e.before ++ e.written ++ e.after

@[mk_iff] structure WellFormed (t : Table) (e : ColumnEntry) : Prop where
  before : ∀ c ∈ e.before.toList, Text.isBlank c = true
  asked : e.asked.Valid t
  label : ∀ name ∈ e.label, name ≠ "" ∧ ∀ c ∈ name.toList, Text.isNameChar c = true
  after : ∀ c ∈ e.after.toList, Text.isBlank c = true

instance (t : Table) (e : ColumnEntry) : Decidable (e.WellFormed t) :=
  decidable_of_iff' _ (wellFormed_iff t e)

/-- **How an entry is shown**, with its label: a column as that of the table, a call of an aggregate
function in any case as that aggregate, and any other call as it is written. -/
inductive Shows (t : Table) : ColumnEntry → Projection → Prop
  | column {before name after : String} {label : Option String} :
    Shows t ⟨before, .column name, label, after⟩ ⟨.column t.name name, label⟩
  | aggregate {before function args after : String} {label : Option String} {f : Aggregate}
    (h : Text.sameLetters function f.name = true) :
    Shows t ⟨before, .call function args, label, after⟩ ⟨.aggregate f args, label⟩
  | call {before function args after : String} {label : Option String}
    (h : ∀ f : Aggregate, Text.sameLetters function f.name = false) :
    Shows t ⟨before, .call function args, label, after⟩
      ⟨.expr (function ++ "(" ++ args ++ ")"), label⟩

variable {t : Table} {e : ColumnEntry} {label : Option String}

/-! ## One entry of a list -/

/-- The label with its sign. -/
def labelText (label : Option String) : List Char :=
  label.elim [] fun name => '@' :: name.toList

theorem toList_written (e : ColumnEntry) :
    e.written.toList = e.asked.written.toList ++ labelText e.label := by
  rw [written, String.toList_append]
  cases e.label <;> simp [labelText]

theorem WellFormed.whole (h : e.WellFormed t) : Text.Whole e.written.toList := by
  have hlabel : Text.Whole (labelText e.label) := by
    cases hname : e.label with
    | none => exact fun _ => rfl
    | some name =>
      have hat : Text.Whole ['@'] := Text.whole_of_plain (by decide)
      exact hat.append (Text.whole_of_isNameChar (h.label name hname).2)
  rw [toList_written]
  exact h.asked.whole.append hlabel

/-- **The characters of an entry** are those that are kept of it. -/
theorem WellFormed.safe (h : e.WellFormed t) :
    ∀ c ∈ e.written.toList, Text.isNameChar c = true ∨ c ∈ Asked.signs.toList := by
  have hlabel : ∀ c ∈ labelText e.label,
      Text.isNameChar c = true ∨ c ∈ Asked.signs.toList := by
    cases hname : e.label with
    | none => simp [labelText]
    | some name =>
      exact List.forall_mem_cons.2 ⟨by decide, fun c hc => .inl ((h.label name hname).2 c hc)⟩
  rw [toList_written]
  exact List.forall_mem_append.2 ⟨h.asked.safe, hlabel⟩

theorem WellFormed.ne_empty (h : e.WellFormed t) : e.written ≠ "" := by
  rw [Ne, ← String.toList_eq_nil_iff, toList_written]
  exact List.append_ne_nil_of_left_ne_nil h.asked.ne_nil _

/-- **An entry with blanks around it is a piece of a list**, and it is read without them. -/
theorem WellFormed.text_spec (h : e.WellFormed t) :
    Text.Whole e.text.toList ∧ Text.trimmed e.text = e.written := by
  have hmarks : ∀ c ∈ Asked.signs.toList, Text.isBlank c = false := by decide
  have htrim : Text.trim e.written.toList = e.written.toList :=
    Text.trim_of_forall fun c hc => (h.safe c hc).elim Text.isBlank_of_isNameChar (hmarks c)
  have htext : e.text.toList = e.before.toList ++ (e.written.toList ++ e.after.toList) := by
    simp [text]
  rw [Text.trimmed, htext, Text.trim_append h.before h.after, htrim, String.ofList_toList]
  exact ⟨h.whole.padded h.before h.after, rfl⟩

/-! ## What it is read as -/

section

variable (hlabel : ∀ name ∈ label, name ≠ "" ∧ ∀ c ∈ name.toList, Text.isNameChar c = true)

include hlabel

@[simp] theorem callLabel?_labelText : Projection.callLabel? (labelText label) = some label := by
  cases label with
  | none => rfl
  | some name =>
    obtain ⟨hne, hname⟩ := hlabel name rfl
    have hall : name.toList.all Text.isNameChar = true := List.all_eq_true.2 hname
    simp [labelText, Projection.callLabel?, hne, hall]

/-- **A call is taken apart** at its first and its last parenthesis. -/
@[simp] theorem call?_call {function args : String}
    (hfunction : ∀ c ∈ function.toList, Text.isNameChar c = true) :
    Projection.call? ((Asked.call function args).written.toList ++ labelText label) =
      some (function, args, label) := by
  have hopen : '(' ∉ function.toList := Text.not_mem_of_isNameChar hfunction (by decide)
  have hclose : ')' ∉ labelText label := by
    cases hname : label with
    | none => simp [labelText]
    | some name =>
      have hnot := Text.not_mem_of_isNameChar (hlabel name hname).2 (c := ')') (by decide)
      simp [labelText, hnot]
  have htext : (Asked.call function args).written.toList ++ labelText label =
      function.toList ++ '(' :: (args.toList ++ ')' :: labelText label) := by
    simp
  have hall : function.toList.all Text.isNameChar = true := List.all_eq_true.2 hfunction
  rw [htext, Projection.call?, Text.cutAt_append hopen]
  simp only [hall, Bool.not_true, Bool.false_eq_true, if_false, Text.cutLast_append hclose,
    callLabel?_labelText hlabel, Option.bind_eq_bind, Option.bind_some, Option.pure_def,
    String.ofList_toList]

@[simp] theorem call?_column {name : String} (hname : ∀ c ∈ name.toList, Text.isNameChar c = true) :
    Projection.call? ((Asked.column name).written.toList ++ labelText label) = none := by
  have hopen : '(' ∉ (Asked.column name).written.toList ++ labelText label := by
    have hnot := Text.not_mem_of_isNameChar hname (c := '(') (by decide)
    cases hlabelled : label with
    | none => simpa [Asked.written, labelText] using hnot
    | some other =>
      have hnot' := Text.not_mem_of_isNameChar (hlabel other hlabelled).2 (c := '(') (by decide)
      simp [Asked.written, labelText, hnot, hnot']
  rw [Projection.call?, Text.cutAt_eq_none.2 hopen]
  rfl

/-- A column of the table is shown as such. -/
@[simp] theorem ofName_column {name : String} (hname : ∀ c ∈ name.toList, Text.isNameChar c = true)
    (hcolumn : t.hasColumn name = true) :
    Projection.ofName t ((Asked.column name).written.toList ++ labelText label) =
      ⟨.column t.name name, label⟩ := by
  have hat : '@' ∉ name.toList := Text.not_mem_of_isNameChar hname (by decide)
  rw [Projection.ofName]
  cases label with
  | none =>
    have htext : (Asked.column name).written.toList ++ labelText none = name.toList :=
      List.append_nil _
    simp [htext, Text.cutAt_eq_none.2 hat, hcolumn]
  | some other =>
    obtain ⟨hne, hother⟩ := hlabel other rfl
    have hcut : Text.cutAt '@' ((Asked.column name).written.toList ++ labelText (some other)) =
        some (name.toList, other.toList) := Text.cutAt_append hat _
    have hkept : Text.sanitize "" other.toList = other.toList :=
      Text.sanitize_eq_self (fun c hc => .inl (hother c hc))
        (Text.not_mem_of_isNameChar hother (by decide))
    simp [hcut, hkept, hne, hcolumn]

end

/-- **An entry is shown as what it asks for.** -/
theorem WellFormed.exists_parse? (h : e.WellFormed t) :
    ∃ p, Projection.parse? t e.written = some p ∧ Shows t e p := by
  have hkept : Text.sanitize Asked.signs e.written.toList = e.written.toList := by
    refine Text.sanitize_eq_self h.safe fun hmem => ?_
    exact absurd (h.safe _ hmem) (by decide)
  have hne : e.written.toList.isEmpty = false := by
    simpa using h.ne_empty
  rw [Projection.parse?, ← Asked.signs, hkept, hne, toList_written]
  have hvalid := h.asked
  have hlabel := h.label
  obtain ⟨before, asked, label, after⟩ := e
  cases asked with
  | column name =>
    obtain ⟨-, hname, hcolumn⟩ := hvalid
    refine ⟨_, ?_, .column⟩
    simp [call?_column hlabel hname, ofName_column hlabel hname hcolumn]
  | call function args =>
    obtain ⟨hfunction, -, -⟩ := hvalid
    simp only [call?_call hlabel hfunction]
    cases hname : Aggregate.ofName? function with
    | some f => exact ⟨_, rfl, .aggregate ((Aggregate.ofName?_eq_some hfunction).1 hname)⟩
    | none =>
      refine ⟨_, rfl, .call fun f => ?_⟩
      rw [← Bool.not_eq_true, ← Aggregate.ofName?_eq_some hfunction, hname]
      exact Option.some_ne_none f ∘ Eq.symm

end ColumnEntry

/-! ## The list -/

namespace View

variable {es : List ColumnEntry} {v : View}

/-- The text of columns. -/
def columnsText (es : List ColumnEntry) : String :=
  ",".intercalate (es.map ColumnEntry.text)

/-- The entries of a columns text are read without their blanks. -/
theorem entries_columnsText {t : Table} (h : ∀ e ∈ es, e.WellFormed t) :
    Text.entries (columnsText es) = es.map ColumnEntry.written := by
  have htexts : ∀ s ∈ es.map ColumnEntry.text, Text.Whole s.toList ∧ Text.trimmed s ≠ "" := by
    intro s hs
    obtain ⟨e, he, rfl⟩ := List.mem_map.1 hs
    obtain ⟨hwhole, htrim⟩ := (h e he).text_spec
    exact ⟨hwhole, htrim ▸ (h e he).ne_empty⟩
  rw [columnsText, Text.entries_intercalate htexts, List.map_map]
  exact List.map_congr_left fun e he => (h e he).text_spec.2

/-- **Every entry of a columns text is one column more**, in its place, and shown as what it asks
for. -/
theorem addColumns_columnsText (h : ∀ e ∈ es, e.WellFormed v.schema) :
    ∃ added, v.addColumns (columnsText es) = { v with columns := v.columns ++ added } ∧
      List.Forall₂ (ColumnEntry.Shows v.schema) es added := by
  have hparsed : ∃ added, (es.map ColumnEntry.written).filterMap (Projection.parse? v.schema) =
      added ∧ List.Forall₂ (ColumnEntry.Shows v.schema) es added := by
    refine ⟨_, rfl, ?_⟩
    induction es with
    | nil => exact .nil
    | cons e es ih =>
      obtain ⟨he, hes⟩ := List.forall_mem_cons.1 h
      obtain ⟨p, hp, hshows⟩ := he.exists_parse?
      rw [List.map_cons, List.filterMap_cons_some hp]
      exact .cons hshows (ih hes)
  obtain ⟨added, hadded, hshows⟩ := hparsed
  refine ⟨added, ?_, hshows⟩
  rw [addColumns, entries_columnsText h, hadded]

/-- Commas between entries, in the arguments of a call and in those of a call in it. -/
theorem addColumns_nested_calls :
    let schema : Table :=
      { name := "t", primaryKey := none, columns := [{ name := "name", dataType := "text" }] }
    let v : View := { database := "d", schema, role := .primary }
    let es : List ColumnEntry :=
      [{ asked := .column "name", label := some "n", after := " " },
        { before := "\t", asked := .call "COUNT" "*", label := some "total" },
        { asked := .call "coalesce" "name,min(id,f(1,2))" },
        { before := " ", asked := .call "" "()" }]
    (∀ e ∈ es, e.WellFormed schema) ∧
      columnsText es = "name@n ,\tCOUNT(*)@total,coalesce(name,min(id,f(1,2))), (())" ∧
      ∃ added, v.addColumns (columnsText es) = { v with columns := added } ∧
        List.Forall₂ (ColumnEntry.Shows schema) es added ∧
        added.map (Projection.sql .sqlite) =
          ["\"t\".\"name\" AS n", "count(*) AS total", "coalesce(name,min(id,f(1,2)))",
            "(())"] := by
  intro schema v es
  have hes : ∀ e ∈ es, e.WellFormed schema := by decide +kernel
  obtain ⟨added, hadded, hshows⟩ := addColumns_columnsText (v := v) hes
  have hcolumns : (v.addColumns (columnsText es)).columns = added := congrArg View.columns hadded
  refine ⟨hes, by decide +kernel, added, hadded, hshows, ?_⟩
  rw [← hcolumns]
  decide +kernel

end View

end TableApi
