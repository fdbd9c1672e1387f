import Mathlib.Data.List.Forall2
import TableApi.Introspect.Basic
import TableApi.Proofs.Session.Run
import TableApi.Proofs.Text.Letters

/-!
# What rows say of tables and columns

A row of an introspection says something under a name if it has a value other than null under a key
that is the name in some case of its ASCII letters (`Says`). Where no two keys are the same but for
case, this is what is read of it (`tells_iff`), and so a row names the table or describes the column
that is read of it, and no other (`tableName?_eq_some_iff`, `column?_eq_some_iff`).

The case of keys makes no difference to any of it: rows that differ in nothing else
(`Recased`) are read alike.
-/

namespace TableApi.Introspect

variable {row row' : Row} {name : String}

/-! ## What a row says -/

/-- No two keys of the row are the same but for the case of their letters. -/
def Distinct (row : Row) : Prop :=
  row.Pairwise fun f g => Text.sameLetters f.1 g.1 = false

instance (row : Row) : Decidable (Distinct row) :=
  inferInstanceAs (Decidable (row.Pairwise _))

/-- **The row says so under the name**, in whatever case its key is. Null says nothing. -/
def Says (row : Row) (name : String) (value : Json) : Prop :=
  value ≠ .null ∧ ∃ key, Text.sameLetters key name = true ∧ (key, value) ∈ row

/-- **All that the row says under the name**, or none if it says nothing. -/
def Tells (row : Row) (name : String) (o : Option Json) : Prop :=
  ∀ value, o = some value ↔ Says row name value

/-- A field of another name is passed over. -/
theorem field?_cons_of_ne {key : String} (h : Text.sameLetters key name = false) (value : Json)
    (row : Row) : field? ((key, value) :: row) name = field? row name := by
  rw [field?, List.find?_cons_of_neg (by simp [h])]
  rfl

/-- A field of the name is what is read, unless it is null. -/
theorem field?_cons_of_same {key : String} (h : Text.sameLetters key name = true) (value : Json)
    (row : Row) (v : Json) :
    field? ((key, value) :: row) name = some v ↔ value = v ∧ v ≠ .null := by
  rw [field?, List.find?_cons_of_pos (by simpa using h)]
  cases value <;> simp <;> rintro rfl <;> simp

/-- **What is read is what the row says**, if no two keys are the same but for case. -/
theorem field?_eq_some_iff (h : Distinct row) {v : Json} :
    field? row name = some v ↔ Says row name v := by
  induction row with
  | nil => simp [field?, Says]
  | cons f row ih =>
    obtain ⟨key, value⟩ := f
    obtain ⟨hkey, hrow⟩ := List.pairwise_cons.1 h
    cases hname : Text.sameLetters key name with
    | true =>
      -- no other key is the name, since it would be the same as this one
      have hother : ∀ k w, Text.sameLetters k name = true → (k, w) ∉ row := by
        intro k w hk hmem
        have hdistinct := hkey (k, w) hmem
        rw [Text.sameLetters_iff] at hk hname
        rw [Text.sameLetters, hname, hk, beq_self_eq_true] at hdistinct
        exact absurd hdistinct (by decide)
      rw [field?_cons_of_same hname]
      constructor
      · rintro ⟨rfl, hnull⟩
        exact ⟨hnull, key, hname, List.mem_cons_self ..⟩
      · rintro ⟨hnull, k, hk, hmem⟩
        rcases List.mem_cons.1 hmem with heq | hmem
        · exact ⟨(Prod.mk.inj heq).2.symm, hnull⟩
        · exact absurd hmem (hother k v hk)
    | false =>
      rw [field?_cons_of_ne hname, ih hrow]
      refine and_congr_right fun _ => exists_congr fun k => and_congr_right fun hk => ?_
      rw [List.mem_cons, or_iff_right]
      rintro heq
      rw [(Prod.mk.inj heq).1, hname] at hk
      exact absurd hk (by decide)

theorem tells_iff (h : Distinct row) {o : Option Json} :
    Tells row name o ↔ field? row name = o := by
  refine ⟨fun htells => Option.ext fun v => ?_, fun hfield v => ?_⟩
  · rw [field?_eq_some_iff h]
    exact (htells v).symm
  · rw [← hfield]
    exact field?_eq_some_iff h

/-! ## Texts and numbers -/

/-- The text of a value: that of a string, and of any other value its JSON. -/
def said : Json → String
  | .string s => s
  | other => other.compact

/-- The whole number of a value, if it is one of 64 bits, or a string that writes one. -/
def wholeNumber? : Json → Option Int
  | .number (.int n) => signed? n
  | .string s => (Text.integer? (Text.trim s.toList)).bind signed?
  | _ => none

/-- **The text that the row has under the name**, or none if it says nothing. -/
def TextUnder (row : Row) (name : String) (text : Option String) : Prop :=
  ∃ o, Tells row name o ∧ text = o.map said

theorem text?_eq (row : Row) (name : String) : text? row name = (field? row name).map said := by
  rw [text?]
  congr 1

theorem integer?_eq (row : Row) (name : String) :
    integer? row name = (field? row name).bind wholeNumber? := by
  rw [integer?]
  cases field? row name with
  | none => rfl
  | some v => cases v with
    | number n => cases n <;> rfl
    | _ => rfl

theorem textUnder_iff (h : Distinct row) {text : Option String} :
    TextUnder row name text ↔ text? row name = text := by
  simp only [TextUnder, tells_iff h, text?_eq]
  constructor
  · rintro ⟨o, rfl, rfl⟩
    rfl
  · rintro rfl
    exact ⟨_, rfl, rfl⟩

/-! ## Tables and columns -/

/-- **The row names the table**, and has its comment or none. -/
structure NamesTable (row : Row) (table : String × String) : Prop where
  name : TextUnder row "table_name" (some table.1)
  comment : ∃ text, TextUnder row "table_comment" text ∧ table.2 = text.getD ""

/-- **The row describes the column.** What it does not say is a column that may be null, without a
length and a default, of no type and with nothing else to it. -/
structure DescribesColumn (row : Row) (c : Column) : Prop where
  name : TextUnder row "column_name" (some c.name)
  nullable : ∃ text, TextUnder row "is_nullable" text ∧
    c.nullable = text.all (Text.sameLetters · "yes")
  dataType : ∃ text, TextUnder row "data_type" text ∧ c.dataType = text.getD ""
  maxLength : ∃ o, Tells row "character_maximum_length" o ∧ c.maxLength = o.bind wholeNumber?
  default : TextUnder row "column_default" c.default
  extra : ∃ text, TextUnder row "extra" text ∧ c.extra = text.getD ""

/-- **The table that is read of a row is the one that it names.** -/
theorem tableName?_eq_some_iff (h : Distinct row) {table : String × String} :
    tableName? row = some table ↔ NamesTable row table := by
  obtain ⟨name, comment⟩ := table
  rw [tableName?, Option.map_eq_some_iff]
  constructor
  · rintro ⟨n, hn, heq⟩
    obtain ⟨rfl, rfl⟩ := Prod.mk.inj heq
    exact ⟨(textUnder_iff h).2 hn, _, (textUnder_iff h).2 rfl, rfl⟩
  · rintro ⟨hname, text, htext, hcomment⟩
    rw [textUnder_iff h] at hname htext
    exact ⟨name, hname, by rw [htext, ← hcomment]⟩

theorem getD_map_eq_all (text : Option String) :
    (text.map (Text.sameLetters · "yes")).getD true = text.all (Text.sameLetters · "yes") := by
  cases text <;> rfl

/-- **The column that is read of a row is the one that it describes.** -/
theorem column?_eq_some_iff (h : Distinct row) {c : Column} :
    column? row = some c ↔ DescribesColumn row c := by
  rw [column?, Option.map_eq_some_iff]
  constructor
  · rintro ⟨name, hname, rfl⟩
    exact {
      name := (textUnder_iff h).2 hname
      nullable := ⟨_, (textUnder_iff h).2 rfl, getD_map_eq_all _⟩
      dataType := ⟨_, (textUnder_iff h).2 rfl, rfl⟩
      maxLength := ⟨_, (tells_iff h).2 rfl, integer?_eq ..⟩
      default := (textUnder_iff h).2 rfl
      extra := ⟨_, (textUnder_iff h).2 rfl, rfl⟩ }
  · rintro ⟨hname, ⟨nullable, hnullable, hn⟩, ⟨dataType, hdataType, ht⟩, ⟨length, hlength, hl⟩,
      hdefault, ⟨extra, hextra, he⟩⟩
    rw [textUnder_iff h] at hname hnullable hdataType hdefault hextra
    rw [tells_iff h] at hlength
    obtain ⟨name, dataType', nullable', maxLength, default, extra'⟩ := c
    refine ⟨name, hname, ?_⟩
    rw [hnullable, getD_map_eq_all, ← hn, hdataType, ← ht, integer?_eq, hlength, ← hl, hdefault,
      hextra, ← he]

/-! ## The case of keys -/

/-- **The rows differ at most in the case of their keys' letters.** -/
def Recased (row row' : Row) : Prop :=
  List.Forall₂ (fun f g => Text.sameLetters f.1 g.1 = true ∧ f.2 = g.2) row row'

/-- What is read of a row does not depend on the case of its keys. -/
theorem Recased.field?_eq (h : Recased row row') (name : String) :
    field? row name = field? row' name := by
  induction h with
  | nil => rfl
  | @cons f g row row' hfg _ ih =>
    obtain ⟨key, value⟩ := f
    obtain ⟨key', value'⟩ := g
    obtain ⟨hkey, rfl⟩ : Text.sameLetters key key' = true ∧ value = value' := hfg
    have hsame : Text.sameLetters key' name = Text.sameLetters key name :=
      Text.sameLetters_left hkey name
    cases hname : Text.sameLetters key name with
    | true =>
      refine Option.ext fun v => ?_
      rw [field?_cons_of_same hname, field?_cons_of_same (hsame.trans hname)]
    | false => rw [field?_cons_of_ne hname, field?_cons_of_ne (hsame.trans hname), ih]

theorem Recased.text?_eq (h : Recased row row') (name : String) :
    text? row name = text? row' name := by
  rw [Introspect.text?_eq, Introspect.text?_eq, h.field?_eq]

theorem Recased.tableName?_eq (h : Recased row row') : tableName? row = tableName? row' := by
  rw [tableName?, tableName?, h.text?_eq, h.text?_eq]

theorem Recased.column?_eq (h : Recased row row') : column? row = column? row' := by
  simp only [column?, integer?_eq, h.text?_eq, h.field?_eq]

/-- **Rows that differ in the case of keys are read alike**, one after the other. -/
theorem filterMap_recased {α : Type} {f : Row → Option α}
    (hf : ∀ {row row'}, Recased row row' → f row = f row') {rows rows' : List Row}
    (h : List.Forall₂ Recased rows rows') : rows.filterMap f = rows'.filterMap f := by
  induction h with
  | nil => rfl
  | cons hrow _ ih => rw [List.filterMap_cons, List.filterMap_cons, hf hrow, ih]

end TableApi.Introspect
