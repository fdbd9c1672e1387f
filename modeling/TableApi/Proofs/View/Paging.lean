import Mathlib.Data.Nat.Digits.Defs
import TableApi.Proofs.View.Setters

/-!
# The rows that a view shows

Three setters write the two numbers that say which rows of its result a view shows: a page sets both
the offset and the limit, a start sets the offset, and a length sets the limit. A text that counts
nothing, or counts beyond the greatest count, leaves both as they were.

So where the pages come first, the offset is the last start that counts or else that of the last
page that is asked for, and the limit goes the same way (`View.Paged`). Each of the three setters
keeps this (`View.Paged.setPage`, `View.Paged.setStart`, `View.Paged.setLength`), and no other one
changes either number (`Setter.rows_of_apply`).
-/

namespace TableApi

variable {n defaultSize : Nat} {text : String} {pages starts lengths : List String} {v v' : View}

/-! ## Counts -/

namespace Text

/-- **The characters write a count**: they are its decimal digits, perhaps with zeros before them,
and it fits into a word. -/
structure IsCount (s : List Char) (n : Nat) : Prop where
  ne_nil : s ≠ []
  digits : ∀ c ∈ s, c.isDigit = true
  value : n = Nat.ofDigits 10 (s.reverse.map fun c => c.toNat - '0'.toNat)
  fits : n < 2 ^ 64

/-- The value of digits is their value in base ten. -/
theorem digitsValue_eq_ofDigits (s : List Char) :
    digitsValue s = Nat.ofDigits 10 (s.reverse.map fun c => c.toNat - '0'.toNat) := by
  have hzero : '0'.toNat = 48 := rfl
  induction s using List.reverseRecOn with
  | nil => rfl
  | append_singleton s c ih =>
    have hstep : digitsValue (s ++ [c]) = digitsValue s * 10 + (c.toNat - 48) := by
      simp [digitsValue]
    rw [hstep, ih, List.reverse_append, List.reverse_singleton, List.singleton_append,
      List.map_cons, Nat.ofDigits_cons, hzero]
    omega

/-- **What counts is read as the number that it writes**, and nothing else is read. -/
theorem count?_eq_some {s : List Char} : count? s = some n ↔ IsCount s n := by
  have hfits : ∀ m, m ≤ maxCount ↔ m < 2 ^ 64 := fun m => by rw [maxCount]; omega
  rw [count?, Option.ite_none_right_eq_some, Option.some.injEq, isDigits, hfits,
    digitsValue_eq_ofDigits]
  simp only [Bool.and_eq_true, Bool.not_eq_true', List.isEmpty_eq_false_iff, List.all_eq_true]
  constructor
  · rintro ⟨⟨⟨hne, hdigits⟩, hfit⟩, rfl⟩
    exact ⟨hne, hdigits, rfl, hfit⟩
  · rintro ⟨hne, hdigits, rfl, hfit⟩
    exact ⟨⟨⟨hne, hdigits⟩, hfit⟩, rfl⟩

end Text

/-- **The text counts so many rows**: its digits do, whatever stands between them. -/
def Counts (text : String) (n : Nat) : Prop :=
  Text.IsCount (text.toList.filter Char.isDigit) n

theorem looseCount?_eq_some : Text.looseCount? text = some n ↔ Counts text n :=
  Text.count?_eq_some

/-! ## Pages -/

/-- **A page**: its number, where pages are counted from zero, and how many rows a page has. -/
structure Page where
  number : Nat
  rows : Nat

/-- The offset of a page: the rows before it, as far as they can be counted. -/
def Page.offset (p : Page) : Nat :=
  min (p.number * p.rows) (2 ^ 64 - 1)

/-- **The text asks for a page.** Of its digits and commas, the number stands before the first comma
and the rows after it. Without a comma the page has the rows that pages have by default. -/
def AsksFor (defaultSize : Nat) (text : String) (p : Page) : Prop :=
  let kept := text.toList.filter fun c => c.isDigit || c == ','
  (∃ before after, kept = before ++ ',' :: after ∧ ',' ∉ before ∧
      Text.IsCount before p.number ∧ Text.IsCount (after.filter Char.isDigit) p.rows) ∨
    (',' ∉ kept ∧ Text.IsCount kept p.number ∧ p.rows = defaultSize)

/-- The page that a text asks for. -/
def pageOf? (defaultSize : Nat) (text : String) : Option Page :=
  let kept := text.toList.filter fun c => c.isDigit || c == ','
  match Text.cutAt ',' kept with
  | some (number, rows) => do
    let number ← Text.count? number
    let rows ← Text.count? (rows.filter Char.isDigit)
    pure ⟨number, rows⟩
  | none => (Text.count? kept).map (⟨·, defaultSize⟩)

/-- A text is cut at the first mark, if it has one. -/
theorem cutAt_eq_some_iff {mark : Char} {s before after : List Char} :
    Text.cutAt mark s = some (before, after) ↔ s = before ++ mark :: after ∧ mark ∉ before :=
  ⟨Text.cutAt_eq_some, fun h => h.1 ▸ Text.cutAt_append h.2 after⟩

theorem pageOf?_eq_some {p : Page} :
    pageOf? defaultSize text = some p ↔ AsksFor defaultSize text p := by
  obtain ⟨number, rows⟩ := p
  rw [pageOf?, AsksFor]
  generalize text.toList.filter (fun c => c.isDigit || c == ',') = kept
  simp only [← and_assoc, ← cutAt_eq_some_iff]
  simp only [← Text.cutAt_eq_none, ← Text.count?_eq_some]
  cases hcut : Text.cutAt ',' kept with
  | none => simp [eq_comm]
  | some cut =>
    obtain ⟨before, after⟩ := cut
    simp [Option.bind_eq_some_iff, and_assoc]

/-! ## The last text that says something -/

/-- **The last of the values that means anything means this.** -/
def LastOf {α β : Type} (R : α → β → Prop) (values : List α) (b : β) : Prop :=
  ∃ before a after, values = before ++ a :: after ∧ R a b ∧ ∀ later ∈ after, ∀ b, ¬R later b

section LastOf

variable {α β : Type} {f : α → Option β} {R : α → β → Prop} {values : List α} {b : β}

/-- One more value is the last one, if it means something. -/
theorem getLast?_filterMap_concat (f : α → Option β) (values : List α) (a : α) :
    ((values ++ [a]).filterMap f).getLast? = (f a).or (values.filterMap f).getLast? := by
  rw [List.filterMap_append]
  cases ha : f a with
  | none => simp [ha]
  | some b => simp [ha]

theorem getLast?_filterMap_eq_none (hR : ∀ {a b}, f a = some b ↔ R a b) :
    (values.filterMap f).getLast? = none ↔ ∀ a ∈ values, ∀ b, ¬R a b := by
  rw [List.getLast?_eq_none_iff, List.filterMap_eq_nil_iff]
  simp only [Option.eq_none_iff_forall_ne_some, ne_eq, hR]

/-- **The last one that means anything.** -/
theorem getLast?_filterMap_eq_some (hR : ∀ {a b}, f a = some b ↔ R a b) :
    (values.filterMap f).getLast? = some b ↔ LastOf R values b := by
  constructor
  · intro h
    obtain ⟨init, hinit⟩ := List.getLast?_eq_some_iff.1 h
    obtain ⟨before, rest, rfl, -, hrest⟩ := List.filterMap_eq_append_iff.1 hinit
    obtain ⟨dropped, a, after, rfl, -, ha, hafter⟩ := List.filterMap_eq_cons_iff.1 hrest
    refine ⟨before ++ dropped, a, after, by simp, hR.1 ha, fun later hlater b hb => ?_⟩
    have hnone := List.filterMap_eq_nil_iff.1 hafter later hlater
    exact absurd (hnone.symm.trans (hR.2 hb)) (by simp)
  · rintro ⟨before, a, after, rfl, ha, hafter⟩
    have hnone : after.filterMap f = [] := List.filterMap_eq_nil_iff.2 fun later hlater =>
      Option.eq_none_iff_forall_ne_some.2 fun b hb => hafter later hlater b (hR.1 hb)
    simp [hR.2 ha, hnone]

end LastOf

/-! ## Views -/

namespace View

/-- **The view shows the rows that pages, starts and lengths ask for.** The offset is the last start
that counts, or else that of the last page that is asked for; the limit is the last length that
counts, or else the rows of that page. Where nothing says it, there is none. -/
structure Paged (defaultSize : Nat) (pages starts lengths : List String) (v : View) : Prop where
  offset : ∀ n, v.offset = some n ↔ LastOf Counts starts n ∨
    (∀ text ∈ starts, ∀ m, ¬Counts text m) ∧
      ∃ p, LastOf (AsksFor defaultSize) pages p ∧ n = p.offset
  limit : ∀ n, v.limit = some n ↔ LastOf Counts lengths n ∨
    (∀ text ∈ lengths, ∀ m, ¬Counts text m) ∧
      ∃ p, LastOf (AsksFor defaultSize) pages p ∧ n = p.rows

/-- The last count, or else a number of the last page. -/
def lastCount (defaultSize : Nat) (pages counts : List String) (number : Page → Nat) : Option Nat :=
  (counts.filterMap Text.looseCount?).getLast?.or
    ((pages.filterMap (pageOf? defaultSize)).getLast?.map number)

theorem lastCount_eq_some {counts : List String} {number : Page → Nat} :
    lastCount defaultSize pages counts number = some n ↔ LastOf Counts counts n ∨
      (∀ text ∈ counts, ∀ m, ¬Counts text m) ∧
        ∃ p, LastOf (AsksFor defaultSize) pages p ∧ n = number p := by
  rw [lastCount, Option.or_eq_some_iff, getLast?_filterMap_eq_some looseCount?_eq_some,
    getLast?_filterMap_eq_none looseCount?_eq_some, Option.map_eq_some_iff]
  simp only [getLast?_filterMap_eq_some pageOf?_eq_some, eq_comm]

/-- **In other words**, each of the two numbers is the last of its own texts, or that of the
page. -/
theorem paged_iff : v.Paged defaultSize pages starts lengths ↔
    v.offset = lastCount defaultSize pages starts Page.offset ∧
      v.limit = lastCount defaultSize pages lengths Page.rows := by
  have hall : ∀ {x y : Option Nat}, (∀ n, x = some n ↔ y = some n) ↔ x = y :=
    ⟨fun h => Option.ext h, fun h n => by rw [h]⟩
  rw [← hall, ← hall]
  simp only [lastCount_eq_some]
  exact ⟨fun h => ⟨h.offset, h.limit⟩, fun h => ⟨h.1, h.2⟩⟩

/-! ## The setters -/

theorem setPage_eq (v : View) (text : String) (defaultSize : Nat) :
    v.setPage text defaultSize =
      (pageOf? defaultSize text).elim v fun p =>
        { v with limit := some p.rows, offset := some p.offset } := by
  rw [setPage, pageOf?]
  generalize text.toList.filter (fun c => c.isDigit || c == ',') = kept
  cases Text.cutAt ',' kept with
  | none => cases Text.count? kept <;> rfl
  | some cut =>
    obtain ⟨number, rows⟩ := cut
    dsimp only
    cases Text.count? number with
    | none => rfl
    | some number => cases Text.count? (rows.filter Char.isDigit) <;> rfl

namespace Paged

/-- A view that no text said anything about. -/
theorem new (hoffset : v.offset = none) (hlimit : v.limit = none) : v.Paged defaultSize [] [] [] :=
  paged_iff.2 ⟨hoffset, hlimit⟩

/-- **A page**, while there is neither a start nor a length. -/
theorem setPage (h : v.Paged defaultSize pages [] []) (text : String) :
    (v.setPage text defaultSize).Paged defaultSize (pages ++ [text]) [] [] := by
  obtain ⟨hoffset, hlimit⟩ := paged_iff.1 h
  rw [paged_iff, setPage_eq, lastCount, lastCount, getLast?_filterMap_concat]
  cases pageOf? defaultSize text with
  | none => exact ⟨hoffset, hlimit⟩
  | some p => exact ⟨rfl, rfl⟩

/-- **A start.** -/
theorem setStart (h : v.Paged defaultSize pages starts lengths) (text : String) :
    (v.setStart text).Paged defaultSize pages (starts ++ [text]) lengths := by
  obtain ⟨hoffset, hlimit⟩ := paged_iff.1 h
  rw [paged_iff, View.setStart, lastCount, getLast?_filterMap_concat]
  cases Text.looseCount? text with
  | none => exact ⟨hoffset, hlimit⟩
  | some n => exact ⟨rfl, hlimit⟩

/-- **A length.** -/
theorem setLength (h : v.Paged defaultSize pages starts lengths) (text : String) :
    (v.setLength text).Paged defaultSize pages starts (lengths ++ [text]) := by
  obtain ⟨hoffset, hlimit⟩ := paged_iff.1 h
  rw [paged_iff, View.setLength, lastCount, lastCount, getLast?_filterMap_concat]
  cases Text.looseCount? text with
  | none => exact ⟨hoffset, hlimit⟩
  | some n => exact ⟨hoffset, rfl⟩

theorem congr (h : v.Paged defaultSize pages starts lengths) (hoffset : v'.offset = v.offset)
    (hlimit : v'.limit = v.limit) : v'.Paged defaultSize pages starts lengths :=
  ⟨hoffset ▸ h.offset, hlimit ▸ h.limit⟩

end Paged

end View

/-- The setters that say which rows of the result are shown. -/
def Setter.isPaging : Setter → Bool
  | .page _ _ | .start _ | .length _ => true
  | _ => false

/-- **No other setter changes that.** -/
theorem Setter.rows_of_apply {d : Dialect} {s : Setter} (hs : s.isPaging = false)
    (h : s.apply d v = .ok v') : v'.offset = v.offset ∧ v'.limit = v.limit := by
  cases s with
  | ids keys => rcases View.setIds_eq_ok h with rfl | ⟨pk, -, -, -, rfl⟩ <;> exact ⟨rfl, rfl⟩
  | filter text => rcases View.addFilter_eq_ok h with rfl | ⟨sql, -, rfl⟩ <;> exact ⟨rfl, rfl⟩
  | columns text | exclude text | order text | group text =>
    obtain rfl := Except.ok.inj h
    exact ⟨rfl, rfl⟩
  | join text =>
    dsimp only [Setter.apply, View.addJoin] at h
    split at h
    · simp at h
    · split at h
      · simp at h
      · obtain ⟨condition, -, h⟩ := bind_eq_ok.1 h
        obtain rfl := Except.ok.inj h
        exact ⟨rfl, rfl⟩
  | having text =>
    dsimp only [Setter.apply, View.setHaving] at h
    split at h
    · obtain rfl := Except.ok.inj h
      exact ⟨rfl, rfl⟩
    · simp at h
  | page text defaultSize | start text | length text => simp [isPaging] at hs

end TableApi
