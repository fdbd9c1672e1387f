import Mathlib.Data.List.Infix
import TableApi.Filter.Render
import TableApi.Proofs.Text.Chars
import TableApi.Proofs.Text.Letters

/-!
# The language of filters

Which trees can be written as filters (`WellFormed`), and which texts write them (`Writes`). A
comparison is written `field,opcode,operands` and a group stands between parentheses; clauses are
joined by the words *and* and *or*. Opcodes and joiners are written in any case of their letters, so
a tree has many texts, and it has at least one (`WellFormed.exists_writes`).
-/

namespace TableApi.Filter

/-! ## Trees -/

/-- The characters of names besides letters and digits. -/
def nameMarks : List Char := ['_', '.', '*', '#', '-']

/-- **A name**, which may stand bare: a field or an operand. -/
structure IsName (w : String) : Prop where
  not_empty : w ≠ ""
  chars : ∀ c ∈ w.toList, c.isAlphanum = true ∨ c ∈ nameMarks
  no_comment : ¬['-', '-'] <:+: w.toList
  not_and : Text.sameLetters w "and" = false
  not_or : Text.sameLetters w "or" = false

instance (w : String) : Decidable (IsName w) :=
  decidable_of_iff
    (w ≠ "" ∧ (∀ c ∈ w.toList, c.isAlphanum = true ∨ c ∈ nameMarks) ∧ ¬['-', '-'] <:+: w.toList ∧
      Text.sameLetters w "and" = false ∧ Text.sameLetters w "or" = false)
    ⟨fun h => ⟨h.1, h.2.1, h.2.2.1, h.2.2.2.1, h.2.2.2.2⟩,
      fun h => ⟨h.not_empty, h.chars, h.no_comment, h.not_and, h.not_or⟩⟩

/-- **A well-formed operand**: a text without a quote, or a name that means what it is taken for. -/
def Operand.WellFormed : Operand → Prop
  | .text s => '\'' ∉ s.toList
  | o => IsName o.raw ∧ classify o.raw = o

instance : (o : Operand) → Decidable o.WellFormed
  | .text s => inferInstanceAs (Decidable ('\'' ∉ s.toList))
  | .number s => inferInstanceAs (Decidable (IsName s ∧ classify s = .number s))
  | .column s => inferInstanceAs (Decidable (IsName s ∧ classify s = .column s))
  | .word s => inferInstanceAs (Decidable (IsName s ∧ classify s = .word s))

/-- **The opcode takes so many operands.** -/
def Opcode.Takes (op : Opcode) (n : Nat) : Prop :=
  match op with
  | .is_ | .nis => n = 0
  | .bt | .nbt => n = 2
  | .in_ | .nin => 1 ≤ n
  | _ => n = 1

instance : (op : Opcode) → (n : Nat) → Decidable (op.Takes n)
  | .is_, n | .nis, n => inferInstanceAs (Decidable (n = 0))
  | .bt, n | .nbt, n => inferInstanceAs (Decidable (n = 2))
  | .in_, n | .nin, n => inferInstanceAs (Decidable (1 ≤ n))
  | .eq, n | .neq, n | .lt, n | .le, n | .ge, n | .gt, n | .nlt, n | .nle, n | .nge, n | .ngt, n
  | .cs, n | .ncs, n | .sw, n | .nsw, n | .ew, n | .new, n => inferInstanceAs (Decidable (n = 1))

/-- **A well-formed comparison.** -/
structure Comparison.WellFormed (c : Comparison) : Prop where
  field : IsName c.field
  operands : ∀ o ∈ c.operands, o.WellFormed
  count : c.op.Takes c.operands.length

instance (c : Comparison) : Decidable c.WellFormed :=
  decidable_of_iff
    (IsName c.field ∧ (∀ o ∈ c.operands, o.WellFormed) ∧ c.op.Takes c.operands.length)
    ⟨fun h => ⟨h.1, h.2.1, h.2.2⟩, fun h => ⟨h.field, h.operands, h.count⟩⟩

/-- **Joined clauses**: nothing joins the first clause to one before it, and each later clause is
joined to the one before. -/
def Joined : List Clause → Prop
  | [] => True
  | first :: later => first.1 = none ∧ ∀ c ∈ later, c.1 ≠ none

/-- **A well-formed expression.** Words without an opcode are none. -/
inductive Expr.WellFormed : Expr → Prop
  | compare {c : Comparison} (h : c.WellFormed) : Expr.WellFormed (.compare c)
  | group {clauses : List (Option Joiner × Expr)} (joined : Joined clauses)
      (each : ∀ c ∈ clauses, Expr.WellFormed c.2) : Expr.WellFormed (.group clauses)

/-- **A well-formed filter.** -/
structure WellFormed (clauses : List Clause) : Prop where
  joined : Joined clauses
  each : ∀ c ∈ clauses, c.2.WellFormed

/-! ## Texts -/

/-- An operand as it is written: a text between quotes, anything else bare. -/
def Operand.written : Operand → List Char
  | .text s => '\'' :: (s.toList ++ ['\''])
  | o => o.raw.toList

/-- **The text writes the comparison.** -/
def Comparison.Writes (c : Comparison) (text : List Char) : Prop :=
  ∃ word : String, Text.sameLetters c.op.mnemonic word = true ∧
    text = c.field.toList ++ ',' :: (word.toList ++ c.operands.flatMap fun o => ',' :: o.written)

/-- **The text joins a clause to the one before it.** -/
def JoinerWrites (joiner : Option Joiner) (text : List Char) : Prop :=
  match joiner with
  | none => text = []
  | some j => ∃ word : String, Text.sameLetters j.keyword word = true ∧
      text = ',' :: (word.toList ++ [','])

mutual

/-- **The text writes the expression.** -/
def Expr.Writes : Expr → List Char → Prop
  | .compare c, text => c.Writes text
  | .group clauses, text => ∃ inner, Writes clauses inner ∧ text = '(' :: (inner ++ [')'])
  | .raw _, _ => False

/-- **The text writes the clauses**, one after the other. -/
def Writes : List (Option Joiner × Expr) → List Char → Prop
  | [], text => text = []
  | (joiner, e) :: later, text =>
    ∃ lead first rest, JoinerWrites joiner lead ∧ e.Writes first ∧ Writes later rest ∧
      text = lead ++ (first ++ rest)

end

/-! ## Every tree can be written -/

theorem exists_joinerWrites (joiner : Option Joiner) : ∃ text, JoinerWrites joiner text := by
  cases joiner with
  | none => exact ⟨_, rfl⟩
  | some j => exact ⟨_, j.keyword, Text.sameLetters_refl _, rfl⟩

/-- Clauses can be written if their expressions can. -/
theorem exists_writes_of_forall {clauses : List Clause}
    (h : ∀ c ∈ clauses, ∃ text, c.2.Writes text) : ∃ text, Writes clauses text := by
  induction clauses with
  | nil => exact ⟨[], by rw [Writes]⟩
  | cons c later ih =>
    obtain ⟨⟨first, hfirst⟩, hlater⟩ := List.forall_mem_cons.1 h
    obtain ⟨lead, hlead⟩ := exists_joinerWrites c.1
    obtain ⟨rest, hrest⟩ := ih hlater
    refine ⟨lead ++ (first ++ rest), ?_⟩
    rw [Writes]
    exact ⟨lead, first, rest, hlead, hfirst, hrest, rfl⟩

/-- A well-formed expression can be written. -/
theorem Expr.WellFormed.exists_writes {e : Expr} (h : e.WellFormed) : ∃ text, e.Writes text := by
  induction h with
  | @compare c h =>
    simp only [Expr.Writes]
    exact ⟨_, c.op.mnemonic, Text.sameLetters_refl _, rfl⟩
  | group joined each ih =>
    obtain ⟨inner, hinner⟩ := exists_writes_of_forall ih
    refine ⟨'(' :: (inner ++ [')']), ?_⟩
    rw [Expr.Writes]
    exact ⟨inner, hinner, rfl⟩

/-- **A well-formed filter can be written.** -/
theorem WellFormed.exists_writes {clauses : List Clause} (h : WellFormed clauses) :
    ∃ text, Writes clauses text :=
  exists_writes_of_forall fun c hc => (h.each c hc).exists_writes

end TableApi.Filter
