import TableApi.Proofs.Sql.Marks

/-!
# Parentheses outside quotes

`pieces?` cuts a text at depth zero of its parentheses, those in quotes not counted: blocks, each
with what stands between its two parentheses, and the texts between blocks. It gives nothing if a
quote is left open, if the depth falls below zero, or if it does not come back to zero.

A text is `Balanced` if scanning it from any depth comes back to that depth and never falls below
it. Such a text is passed over as a whole in a block, so a balanced text in parentheses is one block
of its own, whatever it says (`cut?_block`).
-/

namespace TableApi.Sql

/-- The depth after a mark, unless it falls below zero. -/
def Mark.deepen? (depth : Nat) : Mark → Option Nat
  | .code '(' => some (depth + 1)
  | .code ')' => if depth = 0 then none else some (depth - 1)
  | _ => some depth

/-- **Balanced marks.** From any depth they come back to it and never fall below it: they do so
from depth zero. -/
def Balanced (ms : List Mark) : Prop :=
  ∀ n, ms.foldlM Mark.deepen? n = some n

/-! ## Balanced texts -/

theorem Balanced.append {a b : List Mark} (ha : Balanced a) (hb : Balanced b) :
    Balanced (a ++ b) := by
  intro n
  rw [List.foldlM_append, ha n]
  exact hb n

theorem Balanced.parenthesized {ms : List Mark} (h : Balanced ms) :
    Balanced (.code '(' :: (ms ++ [.code ')'])) := by
  intro n
  have hopen : Mark.deepen? n (.code '(') = some (n + 1) := rfl
  have hclose : Mark.deepen? (n + 1) (.code ')') = some n := by simp [Mark.deepen?]
  rw [List.foldlM_cons, hopen, Option.bind_eq_bind, Option.bind_some, List.foldlM_append, h,
    Option.bind_eq_bind, Option.bind_some, List.foldlM_cons, hclose]
  rfl

/-- A mark that is no parenthesis outside quotes leaves the depth. -/
theorem deepen?_eq_self {m : Mark} (h : m ≠ .code '(' ∧ m ≠ .code ')') (n : Nat) :
    m.deepen? n = some n := by
  dsimp only [Mark.deepen?]
  split
  · exact absurd rfl h.1
  · exact absurd rfl h.2
  · rfl

/-- Marks without parentheses outside quotes. -/
theorem balanced_of_no_parens {ms : List Mark} (h : ∀ m ∈ ms, m ≠ .code '(' ∧ m ≠ .code ')') :
    Balanced ms := by
  intro n
  induction ms with
  | nil => rfl
  | cons m ms ih =>
    rw [List.foldlM_cons, deepen?_eq_self (h m (List.mem_cons_self ..)), Option.bind_eq_bind,
      Option.bind_some]
    exact ih fun m' hm' => h m' (List.mem_cons_of_mem _ hm')

/-! ## Cutting -/

/-- **A piece of a text**, cut at depth zero. -/
inductive Piece
  /-- What stands outside parentheses. -/
  | bare (text : String)
  /-- What stands between a parenthesis at depth zero and the one that closes it. -/
  | block (content : String)
deriving DecidableEq, Repr

/-- What marks spell, held last first. -/
def spelled (held : List Mark) : String :=
  String.ofList (held.reverse.map Mark.char)

/-- A bare piece, unless it is empty. -/
def barePiece (held : List Mark) : List Piece :=
  if held.isEmpty then [] else [.bare (spelled held)]

/-- The pieces of marks, at a depth in a piece of which `held` has been read, last first. -/
def cut? (depth : Nat) (held : List Mark) : List Mark → Option (List Piece)
  | [] => if depth = 0 then some (barePiece held) else none
  | m :: rest =>
    (m.deepen? depth).bind fun next =>
      if depth = 0 ∧ next = 1 then (cut? next [] rest).map (barePiece held ++ ·)
      else if depth = 1 ∧ next = 0 then (cut? next [] rest).map (.block (spelled held) :: ·)
      else cut? next (m :: held) rest

/-- **The pieces of a text**, if its quotes and parentheses are closed. -/
def pieces? (d : Dialect) (text : String) : Option (List Piece) :=
  (marks? d .code text.toList).bind (cut? 0 [])

/-- What is possible from a depth is possible from one deeper. -/
theorem deepen?_succ {m : Mark} {n k : Nat} (h : m.deepen? n = some k) :
    m.deepen? (n + 1) = some (k + 1) := by
  dsimp only [Mark.deepen?] at h ⊢
  split at h
  · simpa using h
  · next hclose =>
    by_cases hn : n = 0
    · simp [hn] at h
    · simp only [hn, if_false, Option.some.injEq] at h
      simp only [Nat.add_eq_zero_iff, Nat.one_ne_zero, and_false, if_false, Option.some.injEq]
      omega
  · simpa using h

/-- In a block, marks that do not fall below the depth at which they start are held as a whole. -/
theorem cut?_append {ms : List Mark} {n k : Nat} (h : ms.foldlM Mark.deepen? n = some k)
    (held rest : List Mark) :
    cut? (n + 1) held (ms ++ rest) = cut? (k + 1) (ms.reverse ++ held) rest := by
  induction ms generalizing n held with
  | nil =>
    obtain rfl : n = k := by simpa using h
    rfl
  | cons m ms ih =>
    obtain ⟨next, hnext, hrest⟩ : ∃ next, m.deepen? n = some next ∧
        ms.foldlM Mark.deepen? next = some k := Option.bind_eq_some_iff.1 h
    rw [List.cons_append, cut?, deepen?_succ hnext, Option.bind_some, if_neg (by omega),
      if_neg (by omega), ih hrest]
    simp

/-- **A balanced text in parentheses is one block.** -/
theorem cut?_block {ms : List Mark} (h : Balanced ms) (held rest : List Mark) :
    cut? 0 held (.code '(' :: (ms ++ .code ')' :: rest)) =
      (cut? 0 [] rest).map
        (barePiece held ++ .block (String.ofList (ms.map Mark.char)) :: ·) := by
  have hopen : Mark.deepen? 0 (.code '(') = some 1 := rfl
  have hclose : Mark.deepen? 1 (.code ')') = some 0 := by simp [Mark.deepen?]
  rw [cut?, hopen, Option.bind_some, if_pos ⟨rfl, rfl⟩, cut?_append (h 0), cut?, hclose,
    Option.bind_some, if_neg (by omega), if_pos ⟨rfl, rfl⟩, Option.map_map]
  simp [spelled, Function.comp_def]

/-- At depth zero a text without parentheses is held. -/
theorem cut?_bare {ms : List Mark} (h : ∀ m ∈ ms, m ≠ .code '(' ∧ m ≠ .code ')')
    (held rest : List Mark) : cut? 0 held (ms ++ rest) = cut? 0 (ms.reverse ++ held) rest := by
  induction ms generalizing held with
  | nil => rfl
  | cons m ms ih =>
    rw [List.cons_append, cut?, deepen?_eq_self (h m (List.mem_cons_self ..)), Option.bind_some,
      if_neg (by omega), if_neg (by omega), ih fun m' hm' => h m' (List.mem_cons_of_mem _ hm')]
    simp

end TableApi.Sql
