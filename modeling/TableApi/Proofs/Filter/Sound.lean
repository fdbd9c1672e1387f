import TableApi.Proofs.Filter.Grammar
import TableApi.Proofs.Filter.Syntax
import TableApi.Proofs.Filter.Words

/-!
# From the words of a text to its clauses

The texts in a filter's clauses come from the bare words of its text, some of them by way of
function calls; all the others are quoted. So what holds of those words and passes on to calls holds
of every text in the clauses that is not quoted (`parse_sound`). Comparisons have as many operands
as the form that they are written in needs, too (`Comparison.Counted`).
-/

namespace TableApi.Filter

variable {P Q : String → Prop}

/-! ## Sound expressions -/

/-- The number of operands suits the form that the comparison is written in. -/
def Comparison.Counted (c : Comparison) : Prop :=
  match c.op.form with
  | .symbol _ | .like _ _ _ => c.operands.length = 1
  | .between _ => c.operands.length = 2
  | .null _ => c.operands = []
  | .member _ => True

/-- **The operand is quoted, or its text has the property.** -/
def Operand.Sound (P : String → Prop) : Operand → Prop
  | .number s | .column s | .word s => P s
  | .text _ => True

/-- **All that an expression may write bare has the property**, and its comparisons are complete. -/
inductive Expr.Sound (P : String → Prop) : Expr → Prop
  | compare {c : Comparison} (count : c.Counted) (field : P c.field)
      (operands : ∀ o ∈ c.operands, o.Sound P) : Expr.Sound P (.compare c)
  | group {clauses : List (Option Joiner × Expr)} (h : ∀ c ∈ clauses, Expr.Sound P c.2) :
      Expr.Sound P (.group clauses)
  | raw {operands : List Operand} (h : ∀ o ∈ operands, o.Sound P) : Expr.Sound P (.raw operands)

/-- What has a property has a weaker one. -/
theorem Operand.Sound.mono {o : Operand} (h : o.Sound P) (hPQ : ∀ s, P s → Q s) : o.Sound Q := by
  cases o with
  | text s => trivial
  | _ => exact hPQ _ h

theorem Expr.Sound.mono {e : Expr} (h : e.Sound P) (hPQ : ∀ s, P s → Q s) : e.Sound Q := by
  induction h with
  | compare count field operands =>
    exact .compare count (hPQ _ field) fun o ho => (operands o ho).mono hPQ
  | group _ ih => exact .group ih
  | raw h => exact .raw fun o ho => (h o ho).mono hPQ

/-! ## From words to clauses -/

/-- The word of a value, unless it is quoted. -/
def Atom.word? : Atom → Option String
  | .bare w => some w
  | .quoted _ => none

/-- The bare words of a token. -/
def Token.words : Token → List String
  | .atom a => a.word?.toList
  | .list members => members.filterMap Atom.word?
  | .openParen | .closeParen => []

/-- The words of a well-formed token are well-formed. -/
theorem Token.Valid.words {t : Token} (h : t.Valid) : ∀ w ∈ t.words, (Atom.bare w).Valid := by
  have hword : ∀ {a : Atom}, a.Valid → ∀ w ∈ a.word?, (Atom.bare w).Valid := by
    intro a ha w hw
    cases a with
    | bare w' => exact Option.some.inj hw ▸ ha
    | quoted s => simp [Atom.word?] at hw
  intro w hw
  cases t with
  | atom a => exact hword h w (Option.mem_toList.1 hw)
  | list members =>
    obtain ⟨a, ha, hw⟩ := List.mem_filterMap.1 hw
    exact hword (h a ha) w hw
  | openParen => simp [Token.words] at hw
  | closeParen => simp [Token.words] at hw

/-- What of an item may be written bare has the property. -/
def Item.Sound (P : String → Prop) : Item → Prop
  | .word s | .call s => P s
  | .quoted _ => True
  | .list members => ∀ w ∈ members.filterMap Atom.word?, P w

/-- A bare word is an operand with its own text. -/
theorem sound_classify {w : String} (h : P w) : (classify w).Sound P := by
  rw [classify]
  split
  · exact h
  · split <;> exact h

theorem sound_operand {a : Atom} (h : ∀ w ∈ a.word?, P w) : a.operand.Sound P := by
  cases a with
  | quoted s => trivial
  | bare w =>
    rw [Atom.operand, classifyMember]
    split <;> exact h w rfl

theorem Item.Sound.operands {i : Item} (h : i.Sound P) : ∀ o ∈ i.operands, o.Sound P := by
  cases i with
  | word w => exact List.forall_mem_singleton.2 (sound_classify h)
  | quoted s => exact List.forall_mem_singleton.2 trivial
  | call s => exact List.forall_mem_singleton.2 h
  | list members =>
    refine List.forall_mem_map.2 fun a ha => sound_operand fun w hw => ?_
    exact h w (List.mem_filterMap.2 ⟨a, ha, hw⟩)

/-- The operands of a comparison are those that were given, or none. -/
theorem checkedOperands_subset {op : Opcode} {given operands : List Operand}
    (h : checkedOperands op given = .ok operands) : operands ⊆ given := by
  dsimp only [checkedOperands] at h
  split at h
  · split at h
    · simp_all
    · split at h <;> simp_all
    · simp at h
  all_goals split at h <;> simp_all

/-- Operands that pass the check are as many as the opcode takes. -/
theorem takes_of_checkedOperands {op : Opcode} {given operands : List Operand}
    (h : checkedOperands op given = .ok operands) : op.Takes operands.length := by
  cases op with
  | is_ | nis =>
    simp only [checkedOperands, Opcode.arity] at h
    split at h
    · obtain rfl := Except.ok.inj h
      rfl
    · split at h
      · obtain rfl := Except.ok.inj h
        rfl
      · simp at h
    · simp at h
  | in_ | nin =>
    simp only [checkedOperands, Opcode.arity] at h
    split at h
    · simp at h
    · next hsome =>
      obtain rfl := Except.ok.inj h
      exact Nat.pos_of_ne_zero hsome
  | _ =>
    simp only [checkedOperands, Opcode.arity] at h
    split at h
    · obtain rfl := Except.ok.inj h
      assumption
    · simp at h

/-- They are as many as the form needs that the comparison is written in. -/
theorem Comparison.counted_of_takes {c : Comparison} (h : c.op.Takes c.operands.length) :
    c.Counted := by
  obtain ⟨field, op, operands⟩ := c
  cases op with
  | is_ | nis => exact List.length_eq_zero_iff.1 h
  | in_ | nin => trivial
  | _ => exact h

/-- What a clause means is sound if its items are. -/
theorem sound_interpret {items : List Item} {e : Expr} (hitems : ∀ i ∈ items, i.Sound P)
    (h : interpret items = .ok e) : e.Sound P := by
  have hoperands : ∀ part : List Item, part ⊆ items →
      ∀ o ∈ part.flatMap Item.operands, o.Sound P := by
    intro part hpart o ho
    obtain ⟨i, hi, ho⟩ := List.mem_flatMap.1 ho
    exact (hitems i (hpart hi)).operands o ho
  dsimp only [interpret] at h
  split at h
  · next first second rest =>
    split at h
    · next field op hfield hop =>
      obtain ⟨operands, hchecked, h⟩ := bind_eq_ok.1 h
      obtain rfl := Except.ok.inj h
      have hcount := Comparison.counted_of_takes (c := ⟨field, op, operands⟩)
        (takes_of_checkedOperands hchecked)
      refine .compare hcount ?_ fun o ho => ?_
      · have hfirst := hitems first (List.mem_cons_self ..)
        cases first <;> simp only [Item.field?, Option.some.injEq, reduceCtorEq] at hfield <;>
          exact hfield ▸ hfirst
      · exact hoperands rest (by simp) o (checkedOperands_subset hchecked ho)
    · obtain rfl := Except.ok.inj h
      exact .raw (hoperands _ (List.Subset.refl _))
  · obtain rfl := Except.ok.inj h
    exact .raw (hoperands _ (List.Subset.refl _))

/-- **A property of words and calls is kept by the grammar.** -/
def soundness (P : String → Prop) (quoted : ∀ {s : String}, '\'' ∉ s.toList → P (quotedArg s))
    (nameless : P "")
    (call : ∀ {name args}, P name → (∀ a ∈ args, P a) → P (callText name args)) : Invariant where
  token t := t.Valid ∧ ∀ w ∈ t.words, P w
  item := Item.Sound P
  arg := P
  expr := Expr.Sound P
  item_of_token := by
    intro t i ht hi
    cases t with
    | atom a =>
      cases a with
      | bare w =>
        obtain rfl := Option.some.inj hi
        exact ht.2 w (List.mem_singleton_self w)
      | quoted s =>
        obtain rfl := Option.some.inj hi
        trivial
    | list members =>
      obtain rfl := Option.some.inj hi
      exact ht.2
    | openParen => simp [Token.item?] at hi
    | closeParen => simp [Token.item?] at hi
  arg_of_bare := fun h => h.2 _ (List.mem_singleton_self _)
  arg_of_quoted := fun h => quoted h.1
  arg_of_group := call nameless
  arg_of_call := call
  item_of_call := call
  expr_of_items := sound_interpret
  expr_of_group := .group

/-- **What holds of the words of a text** and passes on to calls holds of all that its filter writes
bare. -/
theorem parse_sound (quoted : ∀ {s : String}, '\'' ∉ s.toList → P (quotedArg s)) (nameless : P "")
    (call : ∀ {name args}, P name → (∀ a ∈ args, P a) → P (callText name args)) {text : String}
    (hwords : ∀ t ∈ tokenize text, ∀ w ∈ t.words, P w) {clauses : List Clause}
    (h : parse (tokenize text) = .ok clauses) : ∀ c ∈ clauses, c.2.Sound P :=
  (soundness P quoted nameless call).parse
    (fun t ht => ⟨valid_of_mem_tokenize ht, hwords t ht⟩) h

end TableApi.Filter
