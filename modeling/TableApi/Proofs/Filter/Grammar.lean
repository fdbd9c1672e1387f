import TableApi.Filter.Parser
import TableApi.Proofs.Outcome

/-!
# What every parsed filter has

The parser is a machine with clause lists and calls in progress. A property of its output is proved
by saying what holds of tokens, of items, of the arguments of calls and of expressions, and that
each is kept where one is made of the others (`Invariant`). Then it holds of every clause of every
filter that is parsed (`Invariant.parse`): the induction over the tokens, with both kinds of
nesting, is done here once.
-/

namespace TableApi.Filter

/-- **An invariant of the grammar**: what holds of tokens, items, arguments and expressions, and why
it is passed on. -/
structure Invariant where
  token : Token → Prop
  item : Item → Prop
  arg : String → Prop
  expr : Expr → Prop
  item_of_token : ∀ {t i}, token t → t.item? = some i → item i
  arg_of_bare : ∀ {w}, token (.atom (.bare w)) → arg w
  arg_of_quoted : ∀ {s}, token (.atom (.quoted s)) → arg (quotedArg s)
  arg_of_group : ∀ {args}, (∀ a ∈ args, arg a) → arg (callText "" args)
  arg_of_call : ∀ {name args}, arg name → (∀ a ∈ args, arg a) → arg (callText name args)
  item_of_call : ∀ {name args}, item (.word name) → (∀ a ∈ args, arg a) →
    item (.call (callText name args))
  expr_of_items : ∀ {items e}, (∀ i ∈ items, item i) → interpret items = .ok e → expr e
  expr_of_group : ∀ {clauses : List Clause}, (∀ c ∈ clauses, expr c.2) → expr (.group clauses)

namespace Invariant

variable (I : Invariant)

/-- What holds of a clause list in progress. -/
structure Level (l : Filter.Level) : Prop where
  clauses : ∀ c ∈ l.clauses, I.expr c.2
  items : ∀ i ∈ l.items, I.item i

/-- What holds of a call in progress. -/
structure Call (c : Filter.Call) : Prop where
  name : I.item (.word c.name)
  args : ∀ a ∈ c.args, I.arg a
  outer : ∀ as ∈ c.outer, ∀ a ∈ as, I.arg a

/-- What holds of the machine. -/
structure State (s : ParseState) : Prop where
  level : I.Level s.level
  outer : ∀ l ∈ s.outer, I.Level l
  call : ∀ c ∈ s.call, I.Call c

variable {I}

@[simp] theorem level_empty : I.Level .empty := ⟨by simp [Level.empty], by simp [Level.empty]⟩

/-! ## Clause lists in progress -/

theorem Level.push {l : Filter.Level} (h : I.Level l) {e : Expr} (he : I.expr e) :
    I.Level (l.push e) :=
  ⟨List.forall_mem_cons.2 ⟨he, h.clauses⟩, by simp [Filter.Level.push]⟩

theorem Level.close {l l' : Filter.Level} (h : I.Level l) (hl : l.close = .ok l') :
    I.Level l' := by
  rw [Filter.Level.close] at hl
  split at hl
  · obtain rfl : l = l' := Except.ok.inj hl
    exact h
  · obtain ⟨e, he, rfl⟩ := map_eq_ok.1 hl
    exact h.push (I.expr_of_items (fun i hi => h.items i (List.mem_reverse.1 hi)) he)

theorem Level.settle {l : Filter.Level} (h : I.Level l) : I.Level l.settle := by
  rw [Filter.Level.settle]
  split
  · have hraw : interpret [] = .ok (.raw []) := rfl
    exact h.push (I.expr_of_items (by simp) hraw)
  · exact h

theorem Level.result {l : Filter.Level} (h : I.Level l) : ∀ c ∈ l.result, I.expr c.2 :=
  fun c hc => h.settle.clauses c (List.mem_reverse.1 hc)

theorem Level.addItem {l : Filter.Level} (h : I.Level l) {i : Item} (hi : I.item i) :
    I.Level (l.addItem i) :=
  ⟨h.clauses, List.forall_mem_cons.2 ⟨hi, h.items⟩⟩

/-! ## One token -/

/-- A parenthesis that closes among arguments. -/
theorem applyLast_args {args inner : List String} (hargs : ∀ a ∈ args, I.arg a)
    (hinner : ∀ a ∈ inner, I.arg a) : ∀ a ∈ applyLast args inner, I.arg a := by
  cases args with
  | nil => exact List.forall_mem_cons.2 ⟨I.arg_of_group hinner, by simp⟩
  | cons name before =>
    obtain ⟨hname, hbefore⟩ := List.forall_mem_cons.1 hargs
    exact List.forall_mem_cons.2 ⟨I.arg_of_call hname hinner, hbefore⟩

/-- A token among the arguments of a call. -/
theorem State.argument {s : ParseState} (h : I.State s) {c : Filter.Call} (hc : I.Call c)
    {t : Token} (ht : I.token t) : I.State (s.argument c t) := by
  -- all but one of the cases change the call in progress and nothing else
  have hcall : ∀ {c' : Filter.Call}, I.Call c' → I.State { s with call := some c' } := by
    intro c' hc'
    refine ⟨h.level, h.outer, fun x hx => ?_⟩
    obtain rfl := Option.some.inj hx
    exact hc'
  obtain ⟨hname, hargs, houter⟩ := hc
  cases t with
  | openParen => exact hcall ⟨hname, by simp, List.forall_mem_cons.2 ⟨hargs, houter⟩⟩
  | closeParen =>
    cases hout : c.outer with
    | nil =>
      simp only [ParseState.argument, hout]
      exact ⟨h.level.addItem (I.item_of_call hname hargs), h.outer, by simp⟩
    | cons args outer =>
      rw [hout] at houter
      obtain ⟨hfirst, hrest⟩ := List.forall_mem_cons.1 houter
      simp only [ParseState.argument, hout]
      exact hcall ⟨hname, applyLast_args hfirst hargs, hrest⟩
  | atom a =>
    cases a with
    | bare w => exact hcall ⟨hname, List.forall_mem_cons.2 ⟨I.arg_of_bare ht, hargs⟩, houter⟩
    | quoted w => exact hcall ⟨hname, List.forall_mem_cons.2 ⟨I.arg_of_quoted ht, hargs⟩, houter⟩
  | list members => exact h

/-- A parenthesis that opens outside a call. -/
theorem State.openParen {s s' : ParseState} (h : I.State s) (hs : s.openParen = .ok s') :
    I.State s' := by
  rw [ParseState.openParen] at hs
  split at hs
  · next name before hitems =>
    obtain rfl := Except.ok.inj hs
    have hword := h.level.items
    rw [hitems] at hword
    obtain ⟨hname, hbefore⟩ := List.forall_mem_cons.1 hword
    refine ⟨⟨h.level.clauses, hbefore⟩, h.outer, fun x hx => ?_⟩
    obtain rfl := Option.some.inj hx
    exact ⟨hname, by simp, by simp⟩
  · obtain ⟨l, hl, hs⟩ := bind_eq_ok.1 hs
    obtain rfl := Except.ok.inj hs
    exact ⟨level_empty, List.forall_mem_cons.2 ⟨h.level.close hl, h.outer⟩, by simp⟩

/-- A parenthesis that closes outside a call. -/
theorem State.closeParen {s s' : ParseState} (h : I.State s) (hs : s.closeParen = .ok s') :
    I.State s' := by
  obtain ⟨l, hl, hs⟩ := bind_eq_ok.1 hs
  cases hout : s.outer with
  | nil => simp [hout] at hs
  | cons parent outer =>
    have houter := h.outer
    rw [hout] at houter
    obtain ⟨hparent, hrest⟩ := List.forall_mem_cons.1 houter
    simp only [hout] at hs
    obtain rfl := Except.ok.inj hs
    exact ⟨hparent.push (I.expr_of_group (h.level.close hl).result), hrest, by simp⟩

/-- **One step keeps the invariant.** -/
theorem State.step {s s' : ParseState} (h : I.State s) {t : Token} (ht : I.token t)
    (hs : s.step t = .ok s') : I.State s' := by
  rw [ParseState.step] at hs
  cases hcall : s.call with
  | some c =>
    simp only [hcall] at hs
    obtain rfl := Except.ok.inj hs
    exact h.argument (h.call c hcall) ht
  | none =>
    simp only [hcall, ParseState.clause] at hs
    split at hs
    · next j hj =>
      obtain ⟨l, hl, hs⟩ := bind_eq_ok.1 hs
      obtain rfl := Except.ok.inj hs
      have hsettled := (h.level.close hl).settle
      exact ⟨⟨hsettled.clauses, hsettled.items⟩, h.outer, by simp⟩
    · split at hs
      · next i hi =>
        obtain rfl := Except.ok.inj hs
        exact ⟨h.level.addItem (I.item_of_token ht hi), h.outer, by simp⟩
      · split at hs
        · exact h.openParen hs
        · exact h.closeParen hs

/-- **Every clause of a parsed filter has what the invariant says of expressions.** -/
theorem parse {tokens : List Token} (ht : ∀ t ∈ tokens, I.token t) {clauses : List Clause}
    (h : Filter.parse tokens = .ok clauses) : ∀ c ∈ clauses, I.expr c.2 := by
  obtain ⟨s, hs, hfinish⟩ := bind_eq_ok.1 h
  have hstart : I.State .start :=
    ⟨level_empty, by simp [ParseState.start], by simp [ParseState.start]⟩
  have hstate : I.State s :=
    foldlM_ok (fun _ t htok _ hI hstep => hI.step (ht t htok) hstep) hstart hs
  rw [ParseState.finish] at hfinish
  split at hfinish
  · simp at hfinish
  · obtain ⟨l, hl, hfinish⟩ := bind_eq_ok.1 hfinish
    split at hfinish
    · obtain rfl := Except.ok.inj hfinish
      exact (hstate.level.close hl).result
    · simp at hfinish

end Invariant

end TableApi.Filter
