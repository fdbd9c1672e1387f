import Mathlib.Algebra.Group.Nat.Even
import Mathlib.Data.List.Infix
import Mathlib.Data.Nat.Bits
import Mathlib.Tactic.MkIffOfInductiveProp
import TableApi.Proofs.Text.Chars
import TableApi.Proofs.Text.Joined
import TableApi.Text.Split

/-!
# Entries of a list

A list is cut at commas, but not inside groups and quotes. What a text does to the cut is decided by
the position after each part of it: where no comma of the text separates, it is passed over as a
whole, and what follows is cut from the position behind it (`segments_append`). A text that is
passed over so from the outermost level, and leads back to it, is one piece of every list that it
stands in (`Whole`), and the entries of a list of such pieces are the pieces without the blanks
around them (`entries_intercalate`).

The position is counted from the characters outside quotes (`Nesting.afterAll_eq`), and so is what
makes a text a piece (`whole_of_counts`): names (`whole_of_plain`) and calls (`whole_parens`) are
such pieces.
-/

namespace TableApi.Text

/-- The signs that the cut of a list looks at. -/
def listSigns : List Char := ['\'', '(', '[', ')', ']', ',']

/-- The position after a text. -/
def Nesting.afterAll (n : Nesting) (s : List Char) : Nesting :=
  s.foldl Nesting.after n

/-- **A text is passed over** where none of its commas separates. -/
theorem segments_append {n : Nesting} {s : List Char}
    (h : ∀ before, before ++ [','] <+: s → (n.afterAll before).separates = false)
    (rest : List Char) :
    segments n (s ++ rest) =
      (s ++ (segments (n.afterAll s) rest).1, (segments (n.afterAll s) rest).2) := by
  induction s generalizing n with
  | nil => rfl
  | cons c s ih =>
    have hcomma : ¬(c = ',' ∧ n.separates = true) := by
      rintro ⟨rfl, hseparates⟩
      have hinside : n.separates = false := h [] (by simp)
      rw [hinside] at hseparates
      exact absurd hseparates (by decide)
    have hrest : ∀ before, before ++ [','] <+: s →
        ((n.after c).afterAll before).separates = false := fun before hbefore =>
      h (c :: before) (List.cons_prefix_cons.2 ⟨rfl, hbefore⟩)
    rw [List.cons_append, segments, if_neg hcomma, ih hrest]
    rfl

/-! ## Outside quotes -/

/-- The characters outside single quotes, for a text that starts in a quote or outside. -/
def outsideQuotes (quoted : Bool) : List Char → List Char
  | [] => []
  | c :: s =>
    if c = '\'' then outsideQuotes (!quoted) s
    else if quoted then outsideQuotes quoted s
    else c :: outsideQuotes quoted s

/-- How many groups a text opens. -/
def openings (s : List Char) : Nat :=
  s.count '(' + s.count '['

/-- How many groups a text closes. -/
def closings (s : List Char) : Nat :=
  s.count ')' + s.count ']'

@[simp] theorem openings_append (s t : List Char) :
    openings (s ++ t) = openings s + openings t := by
  simp only [openings, List.count_append]
  omega

@[simp] theorem closings_append (s t : List Char) :
    closings (s ++ t) = closings s + closings t := by
  simp only [closings, List.count_append]
  omega

/-- What follows a text stands in a quote if the text starts in one and has an even number of
quotes, or if it starts outside and has an odd number. -/
theorem outsideQuotes_append (quoted : Bool) (s t : List Char) :
    outsideQuotes quoted (s ++ t) =
      outsideQuotes quoted s ++ outsideQuotes (quoted ^^ (s.count '\'').bodd) t := by
  induction s generalizing quoted with
  | nil => simp [outsideQuotes]
  | cons c s ih =>
    by_cases hquote : c = '\''
    · subst hquote
      rw [List.cons_append, outsideQuotes, if_pos rfl, ih, outsideQuotes, if_pos rfl,
        List.count_cons_self, Nat.bodd_succ, Bool.xor_not, Bool.not_xor]
    · rw [List.cons_append, outsideQuotes, if_neg hquote, outsideQuotes, if_neg hquote, ih,
        List.count_cons_of_ne hquote]
      cases quoted <;> simp

/-- A text without quotes is outside of them. -/
theorem outsideQuotes_eq_self {s : List Char} (h : '\'' ∉ s) : outsideQuotes false s = s := by
  induction s with
  | nil => rfl
  | cons c s ih =>
    obtain ⟨hc, hs⟩ := not_or.1 (mt List.mem_cons.2 h)
    rw [outsideQuotes, if_neg (Ne.symm hc), ih hs]
    rfl

/-- **The position after a text**, counted from its quotes and from the characters outside them. -/
theorem Nesting.afterAll_eq (n : Nesting) (s : List Char) :
    n.afterAll s =
      ⟨n.depth + openings (outsideQuotes n.quoted s) - closings (outsideQuotes n.quoted s),
        n.quoted ^^ (s.count '\'').bodd⟩ := by
  induction s generalizing n with
  | nil => simp [afterAll, outsideQuotes, openings, closings]
  | cons c s ih =>
    obtain ⟨depth, quoted⟩ := n
    rw [afterAll, List.foldl_cons, ← afterAll, ih]
    by_cases hquote : c = '\''
    · subst hquote
      simp [after, outsideQuotes, Nat.bodd_succ]
    · rw [List.count_cons_of_ne hquote, outsideQuotes, if_neg hquote, after, if_neg hquote]
      cases quoted with
      | true => simp
      | false =>
        simp only [Bool.false_eq_true, if_false]
        by_cases hopen : c = '(' ∨ c = '['
        · rw [if_pos hopen]
          rcases hopen with rfl | rfl <;> simp [openings, closings] <;> omega
        · rw [if_neg hopen]
          by_cases hclose : c = ')' ∨ c = ']'
          · rw [if_pos hclose]
            rcases hclose with rfl | rfl <;> simp [openings, closings] <;> omega
          · rw [if_neg hclose]
            simp only [not_or] at hopen hclose
            simp [openings, closings, List.count_cons_of_ne, hopen, hclose]

/-! ## Pieces -/

/-- **A piece of a list**: it is passed over as a whole, and what follows is cut as it is alone. -/
def Whole (s : List Char) : Prop :=
  ∀ rest, segments {} (s ++ rest) = (s ++ (segments {} rest).1, (segments {} rest).2)

/-- **What makes a text a piece.** Its quotes are closed, and outside them as many groups are closed
as are opened, and no comma stands outside of a group. -/
theorem whole_of_counts {s : List Char} (hquotes : Even (s.count '\''))
    (hgroups : openings (outsideQuotes false s) = closings (outsideQuotes false s))
    (hcommas : ∀ before, before ++ [','] <+: outsideQuotes false s →
      closings before < openings before) : Whole s := by
  have hclosed : (s.count '\'').bodd = false := by
    obtain ⟨k, hk⟩ := hquotes
    rw [hk, Nat.bodd_add, Bool.xor_self]
  have hback : Nesting.afterAll {} s = {} := by
    rw [Nesting.afterAll_eq, hclosed, hgroups]
    simp
  have hinside : ∀ before, before ++ [','] <+: s →
      (Nesting.afterAll {} before).separates = false := by
    intro before hbefore
    rw [Nesting.afterAll_eq, Nesting.separates]
    cases hquoted : (before.count '\'').bodd with
    | true => rfl
    | false =>
      -- a comma outside quotes stands where a group is open
      have hcomma : outsideQuotes false before ++ [','] <+: outsideQuotes false s := by
        obtain ⟨rest, rfl⟩ := hbefore
        rw [outsideQuotes_append, outsideQuotes_append, hquoted]
        exact List.prefix_append _ _
      have hdeep := hcommas _ hcomma
      simp only [Bool.xor_false, Bool.not_false, Bool.true_and, decide_eq_false_iff_not]
      omega
  intro rest
  rw [segments_append hinside, hback]

theorem Whole.append {s t : List Char} (hs : Whole s) (ht : Whole t) : Whole (s ++ t) := by
  intro rest
  rw [List.append_assoc, hs, ht, List.append_assoc]

theorem whole_of_plain {s : List Char} (h : ∀ c ∈ s, c ∉ listSigns) : Whole s := by
  have hsign : ∀ c ∈ listSigns, c ∉ s := fun c hc hmem => h c hmem hc
  have hcount : ∀ c ∈ listSigns, s.count c = 0 := fun c hc => List.count_eq_zero.2 (hsign c hc)
  have houtside : outsideQuotes false s = s := outsideQuotes_eq_self (hsign _ (by decide))
  refine whole_of_counts ?_ ?_ fun before hbefore => ?_
  · rw [hcount _ (by decide)]
    exact Even.zero
  · rw [houtside, openings, closings]
    iterate 4 rw [hcount _ (by decide)]
  · rw [houtside] at hbefore
    exact absurd (hbefore.subset (by simp)) (hsign ',' (by decide))

theorem whole_of_isBlank {s : List Char} (h : ∀ c ∈ s, isBlank c = true) : Whole s := by
  have hsigns : ∀ c ∈ listSigns, isBlank c = false := by decide
  refine whole_of_plain fun c hc hsign => ?_
  have hblank := h c hc
  rw [hsigns c hsign] at hblank
  exact absurd hblank (by decide)

theorem Whole.padded {before s after : List Char} (hs : Whole s)
    (hbefore : ∀ c ∈ before, isBlank c = true) (hafter : ∀ c ∈ after, isBlank c = true) :
    Whole (before ++ (s ++ after)) :=
  (whole_of_isBlank hbefore).append (hs.append (whole_of_isBlank hafter))

/-- **Balanced parentheses**: never more of them closed than opened before, and as many in all. -/
@[mk_iff] structure Balanced (s : List Char) : Prop where
  opened : ∀ before, before <+: s → before.count ')' ≤ before.count '('
  closed : s.count '(' = s.count ')'

instance (s : List Char) : Decidable (Balanced s) :=
  decidable_of_iff
    ((∀ before ∈ s.inits, before.count ')' ≤ before.count '(') ∧ s.count '(' = s.count ')')
    (by simp only [balanced_iff, List.mem_inits])

/-- **Balanced text in parentheses is a piece**, whatever commas are in it. -/
theorem whole_parens {s : List Char} (hs : Balanced s)
    (h : ∀ c ∈ s, c ≠ '\'' ∧ c ≠ '[' ∧ c ≠ ']') : Whole ('(' :: (s ++ [')'])) := by
  have hcounts : ∀ t, t <+: s →
      openings ('(' :: t) = t.count '(' + 1 ∧ closings ('(' :: t) = t.count ')' := by
    intro t ht
    have hopen : t.count '[' = 0 := List.count_eq_zero.2 fun hmem => (h _ (ht.subset hmem)).2.1 rfl
    have hclose : t.count ']' = 0 := List.count_eq_zero.2 fun hmem => (h _ (ht.subset hmem)).2.2 rfl
    simp [openings, closings, hopen, hclose]
  have hquote : '\'' ∉ '(' :: (s ++ [')']) := by
    simpa using fun hmem => (h _ hmem).1 rfl
  refine whole_of_counts (by simp [List.count_eq_zero.2 hquote]) ?_ ?_
  · obtain ⟨hopenings, hclosings⟩ := hcounts s List.prefix_rfl
    rw [outsideQuotes_eq_self hquote, ← List.cons_append, openings_append, closings_append,
      hopenings, hclosings, hs.closed]
    rfl
  · intro before hbefore
    rw [outsideQuotes_eq_self hquote] at hbefore
    -- the text before a comma is the opening parenthesis and the start of the balanced text
    cases before with
    | nil => simp at hbefore
    | cons c before =>
      obtain ⟨rfl, hstart⟩ := List.cons_prefix_cons.1 hbefore
      have hprefix : before <+: s := by
        rcases List.prefix_concat_iff.1 hstart with heq | hstart
        · simp at heq
        · exact (List.prefix_append before [',']).trans hstart
      obtain ⟨hopenings, hclosings⟩ := hcounts before hprefix
      have hopened := hs.opened before hprefix
      omega

/-! ## Lists of pieces -/

/-- The commas between pieces are those that separate. -/
theorem segments_intercalate {p : List Char} {ps : List (List Char)}
    (h : ∀ q ∈ p :: ps, Whole q) : segments {} ([','].intercalate (p :: ps)) = (p, ps) := by
  induction ps generalizing p with
  | nil => simpa [segments] using h p (List.mem_singleton_self p) []
  | cons q ps ih =>
    obtain ⟨hp, hps⟩ := List.forall_mem_cons.1 h
    have hcomma : ∀ s, segments {} (',' :: s) = ([], (segments {} s).1 :: (segments {} s).2) :=
      fun s => by rw [segments, if_pos ⟨rfl, rfl⟩]
    rw [List.intercalate_cons_cons, List.append_assoc, hp, List.singleton_append, hcomma, ih hps,
      List.append_nil]

/-- **The entries of a list of pieces** are the pieces, trimmed. -/
theorem entries_intercalate {ps : List String}
    (h : ∀ p ∈ ps, Whole p.toList ∧ trimmed p ≠ "") :
    entries (",".intercalate ps) = ps.map trimmed := by
  have hcomma : ",".toList = [','] := rfl
  rw [entries, splitTopLevel, String.toList_intercalate, hcomma]
  cases ps with
  | nil => rfl
  | cons p ps =>
    have hwhole : ∀ s ∈ p.toList :: ps.map String.toList, Whole s := by
      intro s hs
      obtain ⟨q, hq, rfl⟩ := List.mem_map.1 (List.map_cons (f := String.toList) ▸ hs)
      exact (h q hq).1
    have hkept : ∀ s ∈ (p.toList :: ps.map String.toList).map trim, (!s.isEmpty) = true := by
      intro s hs
      rw [← List.map_cons, List.map_map] at hs
      obtain ⟨q, hq, rfl⟩ := List.mem_map.1 hs
      have hne := (h q hq).2
      rw [trimmed, Ne, String.ofList_eq_empty_iff] at hne
      simpa using hne
    rw [List.map_cons, segments_intercalate hwhole]
    dsimp only
    rw [List.filter_eq_self.2 hkept, ← List.map_cons, List.map_map, List.map_map]
    rfl

end TableApi.Text
