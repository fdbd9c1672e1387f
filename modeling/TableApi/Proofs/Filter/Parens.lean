import TableApi.Filter.Render
import TableApi.Proofs.Outcome

/-!
# Parentheses

The grammar reads parentheses in two ways: after a word they hold the arguments of a call, and
anywhere else they hold a group. It counts both alike (`ParseState.depth`): every token changes the
depth by its own parenthesis (`ParseState.depth_step`), and a parenthesis is refused only where it
closes none (`ParseState.closes_of_step`). So a filter whose parentheses are balanced is not refused
for them, and any other filter is refused (`parseText_parens`), for its parentheses or for a clause
that was read before them.
-/

namespace TableApi.Filter

/-- **Balanced parentheses**: never more of them closed than opened before, and as many in all. -/
structure Balanced (tokens : List Token) : Prop where
  opened : ∀ before, before <+: tokens → before.count .closeParen ≤ before.count .openParen
  closed : tokens.count .openParen = tokens.count .closeParen

/-- **How many parentheses are open**: those of groups, and those of the call in progress. -/
def ParseState.depth (s : ParseState) : Nat :=
  s.outer.length + s.call.elim 0 fun c => c.outer.length + 1

/-! ## One token -/

/-- Operands are refused for their number. -/
theorem failsAs_checkedOperands (op : Opcode) (operands : List Operand) :
    FailsAs (· ≠ .unbalanced) (checkedOperands op operands) := by
  have hwrong : ∀ expected, FailsAs (· ≠ .unbalanced)
      (.error (.arity op.mnemonic expected operands.length) : Except FilterError (List Operand)) :=
    fun expected => .error (by simp)
  dsimp only [checkedOperands]
  split
  · split
    · exact .ok _
    · split
      · exact .ok _
      · exact hwrong 0
    · exact hwrong 0
  all_goals split <;> first | exact .ok _ | exact hwrong _

theorem failsAs_interpret (items : List Item) : FailsAs (· ≠ .unbalanced) (interpret items) := by
  dsimp only [interpret]
  split
  · split
    · exact (failsAs_checkedOperands _ _).bind fun _ => .ok _
    · exact .ok _
  · exact .ok _

theorem Level.failsAs_close (l : Level) : FailsAs (· ≠ .unbalanced) l.close := by
  rw [Level.close]
  split
  · exact .ok _
  · exact (failsAs_interpret _).map _

namespace ParseState

variable {s s' : ParseState}

/-- Outside a call the open parentheses are those of groups. -/
theorem depth_of_call_eq_none (h : s.call = none) : s.depth = s.outer.length := by
  simp [depth, h]

theorem depth_of_call_eq_some {c : Call} (h : s.call = some c) :
    s.depth = s.outer.length + (c.outer.length + 1) := by
  simp [depth, h]

/-- A token among the arguments of a call. The last parenthesis of the call ends it. -/
theorem depth_argument {c : Call} (hcall : s.call = some c) (t : Token) :
    (s.argument c t).depth + [t].count .closeParen = s.depth + [t].count .openParen := by
  rw [depth_of_call_eq_some hcall]
  cases t with
  | openParen => simp [argument, depth, Nat.add_assoc]
  | closeParen =>
    cases hout : c.outer with
    | nil => simp [argument, depth, hout]
    | cons args outer => simp [argument, depth, hout, Nat.add_assoc]
  | atom a => cases a <;> simp [argument, depth]
  | list members => simp [argument, depth, hcall]

/-- A parenthesis that opens outside a call, whether it opens a call or a group. -/
theorem depth_openParen (hcall : s.call = none) (h : s.openParen = .ok s') :
    s'.depth = s.depth + 1 := by
  rw [depth_of_call_eq_none hcall]
  rw [openParen] at h
  split at h
  · obtain rfl := Except.ok.inj h
    rfl
  · obtain ⟨l, -, h⟩ := bind_eq_ok.1 h
    obtain rfl := Except.ok.inj h
    rfl

theorem failsAs_openParen (s : ParseState) : FailsAs (· ≠ .unbalanced) s.openParen := by
  rw [openParen]
  split
  · exact .ok _
  · exact s.level.failsAs_close.bind fun _ => .ok _

/-- A parenthesis that closes outside a call closes a group. -/
theorem depth_closeParen (hcall : s.call = none) (h : s.closeParen = .ok s') :
    s'.depth + 1 = s.depth := by
  rw [depth_of_call_eq_none hcall]
  obtain ⟨l, -, h⟩ := bind_eq_ok.1 h
  cases hout : s.outer with
  | nil => simp [hout] at h
  | cons parent outer =>
    simp only [hout] at h
    obtain rfl := Except.ok.inj h
    rfl

/-- It has none to close where none is open. -/
theorem outer_of_closeParen (h : s.closeParen = .error .unbalanced) : s.outer = [] := by
  obtain ⟨l, -, h⟩ := s.level.failsAs_close.of_bind (by simp) h
  cases hout : s.outer with
  | nil => rfl
  | cons parent outer => simp [hout, pure, Except.pure] at h

theorem clause_cases (s : ParseState) (t : Token) :
    (t ≠ .openParen ∧ t ≠ .closeParen ∧ FailsAs (· ≠ .unbalanced) (s.clause t) ∧
        ∀ s', s.clause t = .ok s' → s'.outer = s.outer ∧ s'.call = s.call) ∨
      (t = .openParen ∧ s.clause t = s.openParen) ∨
        (t = .closeParen ∧ s.clause t = s.closeParen) := by
  cases t with
  | openParen => exact .inr (.inl ⟨rfl, rfl⟩)
  | closeParen => exact .inr (.inr ⟨rfl, rfl⟩)
  | list members =>
    refine .inl ⟨by simp, by simp, .ok _, fun s' h => ?_⟩
    obtain rfl := Except.ok.inj h
    exact ⟨rfl, rfl⟩
  | atom a =>
    refine .inl ⟨by simp, by simp, ?_⟩
    dsimp only [clause]
    split
    · refine ⟨s.level.failsAs_close.bind fun _ => .ok _, fun s' h => ?_⟩
      obtain ⟨l, -, h⟩ := bind_eq_ok.1 h
      obtain rfl := Except.ok.inj h
      exact ⟨rfl, rfl⟩
    · have hitem : ∃ i, (Token.atom a).item? = some i := by cases a <;> exact ⟨_, rfl⟩
      obtain ⟨i, hi⟩ := hitem
      rw [hi]
      refine ⟨.ok _, fun s' h => ?_⟩
      obtain rfl := Except.ok.inj h
      exact ⟨rfl, rfl⟩

/-- **A token changes the depth by its parenthesis.** -/
theorem depth_step {t : Token} (h : s.step t = .ok s') :
    s'.depth + [t].count .closeParen = s.depth + [t].count .openParen := by
  rw [step] at h
  cases hcall : s.call with
  | some c =>
    rw [hcall] at h
    obtain rfl := Except.ok.inj h
    exact depth_argument hcall t
  | none =>
    rw [hcall] at h
    rcases s.clause_cases t with ⟨hopen, hclose, -, hkept⟩ | ⟨rfl, heq⟩ | ⟨rfl, heq⟩
    · obtain ⟨houter, hnone⟩ := hkept s' h
      simp [depth, houter, hnone, hopen, hclose]
    · exact depth_openParen hcall (heq ▸ h)
    · exact depth_closeParen hcall (heq ▸ h)

/-- **A token is refused for its parenthesis** where it closes one and none is open. -/
theorem closes_of_step {t : Token} (h : s.step t = .error .unbalanced) :
    t = .closeParen ∧ s.depth = 0 := by
  rw [step] at h
  cases hcall : s.call with
  | some c =>
    rw [hcall] at h
    simp [pure, Except.pure] at h
  | none =>
    rw [hcall] at h
    rcases s.clause_cases t with ⟨-, -, hfails, -⟩ | ⟨rfl, heq⟩ | ⟨rfl, heq⟩
    · exact absurd rfl (hfails _ h)
    · exact absurd rfl (s.failsAs_openParen _ (heq ▸ h))
    · refine ⟨rfl, ?_⟩
      rw [depth_of_call_eq_none hcall, outer_of_closeParen (heq ▸ h), List.length_nil]

/-- **A machine has read every token** where no parenthesis is open any more. -/
theorem depth_of_finish {clauses : List Clause} (h : s.finish = .ok clauses) : s.depth = 0 := by
  rw [finish] at h
  split at h
  · simp at h
  · next hcall =>
    obtain ⟨l, -, h⟩ := bind_eq_ok.1 h
    split at h
    · next houter => simpa [depth_of_call_eq_none hcall] using houter
    · simp at h

theorem depth_of_finish_unbalanced (h : s.finish = .error .unbalanced) : s.depth ≠ 0 := by
  rw [finish] at h
  split at h
  · next c hcall => simp [depth_of_call_eq_some hcall]
  · next hcall =>
    obtain ⟨l, -, h⟩ := s.level.failsAs_close.of_bind (by simp) h
    split at h
    · simp [pure, Except.pure] at h
    · next houter => simpa [depth_of_call_eq_none hcall] using houter

/-! ## All tokens -/

/-- **Tokens change the depth by their parentheses.** -/
theorem depth_run {tokens : List Token} (h : tokens.foldlM step s = .ok s') :
    s'.depth + tokens.count .closeParen = s.depth + tokens.count .openParen := by
  induction tokens generalizing s with
  | nil =>
    obtain rfl : s = s' := Except.ok.inj h
    rfl
  | cons t tokens ih =>
    rw [List.foldlM_cons] at h
    obtain ⟨u, hu, h⟩ := bind_eq_ok.1 h
    have hfirst := depth_step hu
    have hrest := ih h
    rw [← List.singleton_append, List.count_append, List.count_append]
    omega

/-- So no part of what was read closes more than it opened. -/
theorem closed_le_of_run {tokens before : List Token} (h : tokens.foldlM step .start = .ok s)
    (hbefore : before <+: tokens) : before.count .closeParen ≤ before.count .openParen := by
  obtain ⟨after, rfl⟩ := hbefore
  rw [List.foldlM_append] at h
  obtain ⟨u, hu, -⟩ := bind_eq_ok.1 h
  have hdepth := depth_run hu
  have hstart : ParseState.start.depth = 0 := rfl
  omega

end ParseState

/-! ## Whole filters -/

/-- **What is parsed is balanced.** -/
theorem balanced_of_parse {tokens : List Token} {clauses : List Clause}
    (h : parse tokens = .ok clauses) : Balanced tokens := by
  obtain ⟨s, hs, hfinish⟩ := bind_eq_ok.1 h
  have hdepth := ParseState.depth_run hs
  have hstart : ParseState.start.depth = 0 := rfl
  have hend := ParseState.depth_of_finish hfinish
  exact ⟨fun before hbefore => ParseState.closed_le_of_run hs hbefore, by omega⟩

/-- **What is refused for its parentheses is not.** -/
theorem not_balanced_of_parse {tokens : List Token} (h : parse tokens = .error .unbalanced) :
    ¬Balanced tokens := by
  intro hbalanced
  have hstart : ParseState.start.depth = 0 := rfl
  rw [parse] at h
  cases hrun : tokens.foldlM ParseState.step .start with
  | error e =>
    -- the token that was refused closes more than was opened
    rw [hrun] at h
    obtain rfl : e = .unbalanced := Except.error.inj h
    obtain ⟨before, t, after, s, rfl, hbefore, ht⟩ := foldlM_error hrun
    obtain ⟨rfl, hzero⟩ := ParseState.closes_of_step ht
    have hdepth := ParseState.depth_run hbefore
    have hopened := hbalanced.opened (before ++ [.closeParen]) ⟨after, by simp⟩
    have hclosing : [Token.closeParen].count .closeParen = 1 := rfl
    have hopening : [Token.closeParen].count .openParen = 0 := rfl
    rw [List.count_append, List.count_append] at hopened
    omega
  | ok s =>
    rw [hrun] at h
    have hdepth := ParseState.depth_run hrun
    have hopen := ParseState.depth_of_finish_unbalanced h
    have hclosed := hbalanced.closed
    omega

/-- **Parentheses.** A filter whose parentheses are balanced is never refused for them, and one
whose parentheses are not is always refused, whatever else is wrong with it. -/
theorem parseText_parens (d : Dialect) (text : String) :
    (Balanced (tokenize text) → parseText d text ≠ .error .unbalanced) ∧
      (¬Balanced (tokenize text) → ∃ e, parseText d text = .error e) := by
  by_cases hd : d.supportsFilters = true
  · have hparse : parseText d text = parse (tokenize text) := by
      rw [parseText, ensureSupported, if_pos hd]
      rfl
    rw [hparse]
    refine ⟨fun hbalanced hrefused => not_balanced_of_parse hrefused hbalanced, fun hnot => ?_⟩
    cases hclauses : parse (tokenize text) with
    | error e => exact ⟨e, rfl⟩
    | ok clauses => exact absurd (balanced_of_parse hclauses) hnot
  · have hunsupported : parseText d text = .error (.unsupported d) := by
      rw [parseText, ensureSupported, if_neg hd]
      rfl
    rw [hunsupported]
    exact ⟨fun _ => by simp, fun _ => ⟨_, rfl⟩⟩

/-- A clause that a parenthesis closes is read before the parenthesis is. -/
example : compile .sqlite "a,eq)" = .error (.arity "eq" 1 0) := by decide +kernel

end TableApi.Filter
