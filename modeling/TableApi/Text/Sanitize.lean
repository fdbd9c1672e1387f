import TableApi.Text.Blank
import TableApi.Text.Case

/-!
# Text that is safe to write bare

Names, words and numbers taken from a request are reduced to a short list of characters before they
stand in a statement. No two hyphens are left in a row, so nothing kept can open a `--` comment.
-/

namespace TableApi.Text

/-- The text with every run of hyphens shrunk to one. -/
def squeezeHyphens : List Char → List Char
  | [] => []
  | [c] => [c]
  | c :: d :: rest =>
    if c = '-' ∧ d = '-' then squeezeHyphens (d :: rest) else c :: squeezeHyphens (d :: rest)

/-- A letter, digit or underscore of ASCII. -/
def isNameChar (c : Char) : Bool :=
  c.isAlphanum || c == '_'

/-- **Sanitized text.** Name characters and the extra ones are kept, everything else is dropped,
then runs of hyphens shrink to one. -/
def sanitize (extra : String) (s : List Char) : List Char :=
  squeezeHyphens (s.filter fun c => isNameChar c || extra.toList.contains c)

/-- Shrinking runs keeps no character that was not there. -/
theorem squeezeHyphens_sublist (s : List Char) : (squeezeHyphens s).Sublist s := by
  fun_induction squeezeHyphens s with
  | case1 => exact .slnil
  | case2 => exact .refl _
  | case3 c d rest h ih => exact ih.cons c
  | case4 c d rest h ih => exact ih.cons_cons c

/-- Shrinking runs keeps the first character. -/
@[simp] theorem head?_squeezeHyphens (s : List Char) : (squeezeHyphens s).head? = s.head? := by
  fun_induction squeezeHyphens s with
  | case1 => rfl
  | case2 => rfl
  | case3 c d rest h ih =>
    obtain ⟨rfl, rfl⟩ := h
    simpa using ih
  | case4 c d rest h ih => rfl

/-- Shrinking runs leaves no two hyphens in a row. -/
@[simp] theorem not_infix_squeezeHyphens (s : List Char) : ¬ ['-', '-'] <:+: squeezeHyphens s := by
  fun_induction squeezeHyphens s with
  | case1 => simp
  | case2 c =>
    intro h
    have := h.length_le
    simp at this
  | case3 c d rest h ih => exact ih
  | case4 c d rest h ih =>
    intro hinfix
    rcases List.infix_cons_iff.1 hinfix with hprefix | hrest
    · obtain ⟨hc, hd⟩ := List.cons_prefix_cons.1 hprefix
      have hhead := head?_squeezeHyphens (d :: rest)
      obtain ⟨t, ht⟩ := hd
      rw [← ht] at hhead
      simp only [List.cons_append, List.head?_cons, Option.some.injEq] at hhead
      exact h ⟨hc.symm, hhead.symm⟩
    · exact ih hrest

/-- Without two hyphens in a row there is nothing to shrink. -/
@[simp] theorem squeezeHyphens_eq_self {s : List Char} (h : ¬['-', '-'] <:+: s) :
    squeezeHyphens s = s := by
  fun_induction squeezeHyphens s with
  | case1 => rfl
  | case2 c => rfl
  | case3 c d rest hcd ih =>
    obtain ⟨rfl, rfl⟩ := hcd
    exact absurd (List.prefix_append ['-', '-'] rest).isInfix h
  | case4 c d rest hcd ih =>
    have hrest : ¬['-', '-'] <:+: d :: rest := fun hin => h (List.infix_cons hin)
    rw [ih hrest]

/-- A text of safe characters without two hyphens in a row is kept as it is. -/
theorem sanitize_of_safe {extra : String} {s : List Char}
    (hsafe : ∀ c ∈ s, isNameChar c = true ∨ c ∈ extra.toList) (hpair : ¬['-', '-'] <:+: s) :
    sanitize extra s = s := by
  have hfilter : s.filter (fun c => isNameChar c || extra.toList.contains c) = s := by
    refine List.filter_eq_self.2 fun c hc => ?_
    simpa using hsafe c hc
  rw [sanitize, hfilter, squeezeHyphens_eq_self hpair]

/-- A text of safe characters other than hyphens is kept as it is. -/
theorem sanitize_eq_self {extra : String} {s : List Char}
    (hsafe : ∀ c ∈ s, isNameChar c = true ∨ c ∈ extra.toList) (hyphen : '-' ∉ s) :
    sanitize extra s = s :=
  sanitize_of_safe hsafe fun hin => hyphen (hin.subset (List.mem_cons_self ..))

/-- What is sanitized keeps safe characters only. -/
theorem isSafe_of_mem_sanitize {extra : String} {s : List Char} {c : Char}
    (h : c ∈ sanitize extra s) : isNameChar c = true ∨ c ∈ extra.toList := by
  have := (squeezeHyphens_sublist _).subset h
  simpa using (List.mem_filter.1 this).2

/-- What is sanitized cannot open a comment. -/
@[simp] theorem not_infix_sanitize (extra : String) (s : List Char) :
    ¬ ['-', '-'] <:+: sanitize extra s :=
  not_infix_squeezeHyphens _

/-- A string, sanitized. -/
def sanitized (extra : String) (s : String) : String :=
  String.ofList (sanitize extra s.toList)

/-- A flag is set unless its value says no. -/
def truthy (s : String) : Bool :=
  !(["false", "0", "no"].contains (lowered (trimmed s)))

example : sanitized ".-" "name;--x" = "name-x" := by decide

end TableApi.Text
