import Mathlib.Tactic.MkIffOfInductiveProp
import TableApi.Proofs.Text.Entries
import TableApi.Proofs.Text.Letters
import TableApi.View.Basic

/-!
# The order that is asked for

The texts of an order list fields, with a direction behind a field or without. A field without one
goes the way of the direction that was given last before it, and as long as none was given, fields
ascend (`descending`).

Only the terms of a view are kept from one text to the next, and no direction. That is enough: the
last term has the direction that was given last, since a field takes it over or is given its own
(`orderTerms_concat`). So every text goes on where the one before it ended (`addOrder_orderText`),
and over how many texts the fields are spread makes no difference (`addOrder_texts`).
-/

namespace TableApi

/-- **A field to order by**, with the direction that is written behind it, if one is. -/
structure OrderEntry where
  field : String
  direction : Option String
deriving DecidableEq, Repr

namespace OrderEntry

/-- The field and its direction, one after the other. -/
def words (e : OrderEntry) : List String :=
  e.field :: e.direction.toList

/-- **A field and a direction in any case.** The field is made of safe characters, has no two
hyphens in a row, and is no direction itself. -/
@[mk_iff] structure WellFormed (e : OrderEntry) : Prop where
  ne_empty : e.field ≠ ""
  safe : ∀ c ∈ e.field.toList, Text.isNameChar c = true ∨ c ∈ ['.', '*', '-']
  hyphens : ¬['-', '-'] <:+: e.field.toList
  no_direction : ∀ word ∈ ["asc", "desc"], Text.sameLetters e.field word = false
  direction : ∀ given ∈ e.direction, ∃ word ∈ ["asc", "desc"], Text.sameLetters given word = true

instance (e : OrderEntry) : Decidable e.WellFormed :=
  decidable_of_iff' _ (wellFormed_iff e)

/-- Whether the direction of the entry descends, if it has one. -/
def descends? (e : OrderEntry) : Option Bool :=
  e.direction.map (Text.sameLetters · "desc")

end OrderEntry

namespace View

variable {before es : List OrderEntry} {e : OrderEntry} {v : View}

/-- The text of an order. -/
def orderText (es : List OrderEntry) : String :=
  ",".intercalate (es.flatMap OrderEntry.words)

/-- **The direction after these fields descends**: the last one that is given does. -/
def descending (es : List OrderEntry) : Bool :=
  (es.filterMap OrderEntry.descends?).getLast?.getD false

/-- **The order that is asked for**: every field in its place, in the direction that was given last
when it has been read. -/
def orderTerms (es : List OrderEntry) : List OrderTerm :=
  es.mapIdx fun k e => ⟨e.field, descending (es.take (k + 1))⟩

/-- A direction that is given goes on, and otherwise the one before it does. -/
@[simp] theorem descending_concat (before : List OrderEntry) (e : OrderEntry) :
    descending (before ++ [e]) = e.descends?.getD (descending before) := by
  rw [descending, List.filterMap_append]
  cases hgiven : e.descends? with
  | none => simp [hgiven, descending]
  | some d => simp [hgiven]

/-- **One more field is one more term**, in the direction after it. -/
@[simp] theorem orderTerms_concat (before : List OrderEntry) (e : OrderEntry) :
    orderTerms (before ++ [e]) = orderTerms before ++ [⟨e.field, descending (before ++ [e])⟩] := by
  rw [orderTerms, List.mapIdx_concat, orderTerms, List.take_of_length_le (by simp)]
  congr 1
  refine List.mapIdx_eq_mapIdx_iff.2 fun k hk => ?_
  rw [List.take_append_of_le_length hk]

/-- The last term has the direction after the last field. -/
theorem direction_orderTerms (before : List OrderEntry) :
    ((orderTerms before).reverse.head?.map OrderTerm.descending).getD false =
      descending before := by
  rcases List.eq_nil_or_concat' before with rfl | ⟨init, e, rfl⟩
  · rfl
  · rw [orderTerms_concat, List.reverse_concat]
    rfl

/-! ## The words of a text -/

/-- The characters of a field are neither blanks nor signs of a list. -/
theorem plain_of_safe {c : Char} (h : Text.isNameChar c = true ∨ c ∈ ['.', '*', '-']) :
    c ∉ Text.listSigns ∧ Text.isBlank c = false := by
  have hsigns : ∀ c ∈ Text.listSigns, Text.isNameChar c = false ∧ c ∉ ['.', '*', '-'] := by decide
  have hmarks : ∀ c ∈ ['.', '*', '-'], Text.isBlank c = false := by decide
  refine ⟨fun hmem => ?_, h.elim Text.isBlank_of_isNameChar (hmarks c)⟩
  obtain ⟨hname, hmark⟩ := hsigns c hmem
  rcases h with h | h
  · simp [hname] at h
  · exact hmark h

theorem isNameChar_of_direction {given word : String} (hword : word ∈ ["asc", "desc"])
    (h : Text.sameLetters given word = true) : ∀ c ∈ given.toList, Text.isNameChar c = true := by
  have hletters : ∀ word ∈ ["asc", "desc"], ∀ c ∈ word.toList.map Char.toLower,
      c.isAlpha = true := by decide
  have hsame : Text.sameLetters word given = true :=
    Text.sameLetters_iff.2 (Text.sameLetters_iff.1 h).symm
  intro c hc
  have halpha := Text.isAlpha_of_sameLetters hsame (hletters word hword) c hc
  simp [Text.isNameChar, Char.isAlphanum, halpha]

/-- **The words of an entry are entries of the list.** -/
theorem words_spec (he : e.WellFormed) :
    ∀ w ∈ e.words, Text.Whole w.toList ∧ Text.trimmed w = w ∧ w ≠ "" := by
  have hplain : ∀ w : String, w ≠ "" →
      (∀ c ∈ w.toList, Text.isNameChar c = true ∨ c ∈ ['.', '*', '-']) →
      Text.Whole w.toList ∧ Text.trimmed w = w ∧ w ≠ "" := by
    intro w hne hsafe
    have htrim : Text.trim w.toList = w.toList :=
      Text.trim_of_forall fun c hc => (plain_of_safe (hsafe c hc)).2
    refine ⟨Text.whole_of_plain fun c hc => (plain_of_safe (hsafe c hc)).1, ?_, hne⟩
    rw [Text.trimmed, htrim, String.ofList_toList]
  intro w hw
  rcases List.mem_cons.1 hw with rfl | hw
  · exact hplain e.field he.ne_empty he.safe
  · obtain ⟨word, hword, hsame⟩ := he.direction w (by simpa using hw)
    have hne : w ≠ "" := by
      rintro rfl
      have hempty : ∀ word ∈ ["asc", "desc"], Text.sameLetters "" word = false := by decide
      simp [hempty word hword] at hsame
    exact hplain w hne fun c hc => .inl (isNameChar_of_direction hword hsame c hc)

/-- The entries of an order text are its words. -/
theorem entries_orderText (h : ∀ e ∈ es, e.WellFormed) :
    Text.entries (orderText es) = es.flatMap OrderEntry.words := by
  have hwords : ∀ w ∈ es.flatMap OrderEntry.words,
      Text.Whole w.toList ∧ Text.trimmed w = w ∧ w ≠ "" := by
    intro w hw
    obtain ⟨e, he, hmem⟩ := List.mem_flatMap.1 hw
    exact words_spec (h e he) w hmem
  have hentries := Text.entries_intercalate fun w hw =>
    ⟨(hwords w hw).1, by rw [(hwords w hw).2.1]; exact (hwords w hw).2.2⟩
  rw [orderText, hentries]
  exact (List.map_congr_left fun w hw => (hwords w hw).2.1).trans (List.map_id _)

/-! ## The terms of a text -/

/-- A field is a term in the direction that it is read in. -/
theorem orderStep_field (he : e.WellFormed) (direction : Bool) (terms : List OrderTerm) :
    orderStep (direction, terms) e.field = (direction, ⟨e.field, direction⟩ :: terms) := by
  have hascii : ∀ c ∈ e.field.toList, c.toNat < 128 := by
    have hmarks : ∀ c ∈ ['.', '*', '-'], c.toNat < 128 := by decide
    exact fun c hc => (he.safe c hc).elim Text.toNat_lt_of_isNameChar (hmarks c)
  have hother : ∀ word ∈ ["asc", "desc"], Text.lowered e.field ≠ word := by
    intro word hword
    have hsmall : ∀ word ∈ ["asc", "desc"], ∀ c ∈ word.toList, c.toLower = c := by decide
    rw [Ne, Text.lowered_eq_iff hascii (hsmall word hword), he.no_direction word hword]
    exact Bool.false_ne_true
  have hsafe : ∀ c ∈ e.field.toList, Text.isNameChar c = true ∨ c ∈ ".*()-".toList := by
    have hmarks : ∀ c ∈ ['.', '*', '-'], c ∈ ".*()-".toList := by decide
    exact fun c hc => (he.safe c hc).imp_right (hmarks c)
  have hkept : Text.sanitized ".*()-" e.field = e.field := by
    rw [Text.sanitized, Text.sanitize_of_safe hsafe he.hyphens, String.ofList_toList]
  have hword : ¬(Text.lowered e.field = "asc" ∨ Text.lowered e.field = "desc") := by
    rw [not_or]
    exact ⟨hother "asc" (by simp), hother "desc" (by simp)⟩
  rw [orderStep]
  dsimp only
  rw [if_neg hword, hkept, if_neg (by simpa using he.ne_empty)]

/-- A direction is that of the last term, and of what comes next. -/
@[simp] theorem orderStep_direction {given word : String} (hword : word ∈ ["asc", "desc"])
    (h : Text.sameLetters given word = true) (direction : Bool) (t : OrderTerm)
    (terms : List OrderTerm) :
    orderStep (direction, t :: terms) given =
      (Text.sameLetters given "desc",
        { t with descending := Text.sameLetters given "desc" } :: terms) := by
  have hsmall : ∀ word ∈ ["asc", "desc"], ∀ c ∈ word.toList, c.toNat < 128 ∧ c.toLower = c := by
    decide
  have hlowered : Text.lowered given = word := Text.lowered_eq_of_sameLetters (hsmall word hword) h
  have hdirection : Text.lowered given = "asc" ∨ Text.lowered given = "desc" := by
    simpa [hlowered] using hword
  rw [orderStep]
  dsimp only
  rw [if_pos hdirection]
  rfl

/-- **One entry**: what has been read so far grows by it. -/
theorem foldl_words (he : e.WellFormed) :
    e.words.foldl orderStep (descending before, (orderTerms before).reverse) =
      (descending (before ++ [e]), (orderTerms (before ++ [e])).reverse) := by
  rw [OrderEntry.words, List.foldl_cons, orderStep_field he, orderTerms_concat,
    List.reverse_concat, descending_concat]
  cases hgiven : e.direction with
  | none => simp [OrderEntry.descends?, hgiven]
  | some given =>
    obtain ⟨word, hword, hsame⟩ := he.direction given hgiven
    simp [OrderEntry.descends?, hgiven, orderStep_direction hword hsame]

theorem foldl_orderStep (h : ∀ e ∈ es, e.WellFormed) :
    (es.flatMap OrderEntry.words).foldl orderStep (descending before, (orderTerms before).reverse) =
      (descending (before ++ es), (orderTerms (before ++ es)).reverse) := by
  induction es generalizing before with
  | nil => simp
  | cons e es ih =>
    obtain ⟨he, hes⟩ := List.forall_mem_cons.1 h
    rw [List.flatMap_cons, List.foldl_append, foldl_words he, ih hes, List.append_assoc,
      List.singleton_append]

/-- **A text goes on where the terms end.** -/
theorem addOrder_orderText (hbefore : v.orderBy = orderTerms before)
    (h : ∀ e ∈ es, e.WellFormed) :
    v.addOrder (orderText es) = { v with orderBy := orderTerms (before ++ es) } := by
  rw [addOrder, hbefore, direction_orderTerms, entries_orderText h, foldl_orderStep h,
    List.reverse_reverse]

/-- **Over how many texts an order is spread makes no difference**: a view that has no order gets
each field in turn, in its own direction or else in the one that was given last before it. -/
theorem addOrder_texts (hfresh : v.orderBy = []) {texts : List (List OrderEntry)}
    (h : ∀ e ∈ texts.flatten, e.WellFormed) :
    (texts.map orderText).foldl addOrder v = { v with orderBy := orderTerms texts.flatten } := by
  -- the induction is on the texts, behind any that have been read
  have hrun : ∀ before, v.orderBy = orderTerms before →
      (texts.map orderText).foldl addOrder v =
        { v with orderBy := orderTerms (before ++ texts.flatten) } := by
    clear hfresh
    induction texts generalizing v with
    | nil =>
      intro before hbefore
      simp [← hbefore]
    | cons es texts ih =>
      intro before hbefore
      obtain ⟨hes, htexts⟩ := List.forall_mem_append.1 h
      rw [List.map_cons, List.foldl_cons, addOrder_orderText hbefore hes,
        ih htexts (before ++ es) rfl, List.flatten_cons, List.append_assoc]
  exact hrun [] hfresh

/-- An order in three texts, the second of which lists nothing. -/
theorem addOrder_three_texts :
    let schema : Table := { name := "t", primaryKey := none, columns := [] }
    let v : View := { database := "d", schema, role := .primary }
    let texts : List (List OrderEntry) :=
      [[⟨"name", none⟩, ⟨"t.age", some "DESC"⟩], [], [⟨"a-b", none⟩, ⟨"descent", some "Asc"⟩,
        ⟨"*", none⟩]]
    v.orderBy = [] ∧ (∀ e ∈ texts.flatten, e.WellFormed) ∧
      (texts.map orderText) = ["name,t.age,DESC", "", "a-b,descent,Asc,*"] ∧
      ((texts.map orderText).foldl addOrder v).orderClause? =
        some "name ASC, t.age DESC, a-b DESC, descent ASC, * ASC" := by
  intro schema v texts
  have hentries : ∀ e ∈ texts.flatten, e.WellFormed := by decide +kernel
  refine ⟨rfl, hentries, by decide, ?_⟩
  rw [addOrder_texts (v := v) rfl hentries]
  decide

end View

end TableApi
