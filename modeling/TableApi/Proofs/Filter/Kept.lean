import TableApi.Proofs.Filter.Reading
import TableApi.Proofs.Outcome

/-!
# Lists that are kept

A word can change what it is: before a parenthesis it names a function. A list cannot. Once one was
read in the first clause of a filter, that clause begins with the list and with what stands before
it, whatever follows (`parse_begins`). The invariant is about the outermost clause list, at any
depth of parentheses (`ParseState.Keeps`), and every token keeps it (`ParseState.Keeps.step`).
-/

namespace TableApi.Filter

/-- **A clause list begins with what these items are read as**, with whatever follows them. -/
def Begins (base : List Item) (clauses : List Clause) : Prop :=
  ∃ more e, interpret (base ++ more) = .ok e ∧ clauses.head? = some (none, e)

/-- The list in progress begins so. -/
def Level.Opened (base : List Item) (l : Level) : Prop :=
  Begins base l.clauses.reverse

/-- It will: its first clause begins with the items. -/
def Level.Gathers (base : List Item) (l : Level) : Prop :=
  l.clauses = [] ∧ l.pending = none ∧ base <+: l.items.reverse

/-- **The outermost list** begins with the items, or will. Only the innermost list has items. -/
def ParseState.Keeps (base : List Item) (s : ParseState) : Prop :=
  match s.outer.getLast? with
  | none => s.level.Opened base ∨ s.level.Gathers base
  | some l => l.Opened base

variable {base front : List Item} {members : List Atom}

/-! ## Clause lists in progress -/

/-- A clause after the first one changes nothing. -/
theorem Level.Opened.push {l : Level} (h : l.Opened base) (e : Expr) : (l.push e).Opened base := by
  obtain ⟨more, e', he', hhead⟩ := h
  refine ⟨more, e', he', ?_⟩
  simp [Level.push, hhead]

theorem Level.Opened.settle {l : Level} (h : l.Opened base) : l.settle.Opened base := by
  rw [Level.settle]
  split
  · exact h.push _
  · exact h

/-- Once its clause in progress is read, the list begins with the items. -/
theorem Level.opened_close (hbase : base ≠ []) {l l' : Level}
    (h : l.Opened base ∨ l.Gathers base) (hl : l.close = .ok l') : l'.Opened base := by
  rw [Level.close] at hl
  rcases h with h | ⟨hclauses, hpending, more, hmore⟩
  · split at hl
    · exact Except.ok.inj hl ▸ h
    · obtain ⟨e, -, rfl⟩ := map_eq_ok.1 hl
      exact h.push e
  · have hitems : l.items.isEmpty = false := by
      rw [List.isEmpty_eq_false_iff, ← List.reverse_ne_nil_iff, ← hmore]
      simp [hbase]
    rw [hitems, ← hmore] at hl
    obtain ⟨e, he, rfl⟩ := map_eq_ok.1 hl
    exact ⟨more, e, he, by simp [Level.push, hclauses, hpending]⟩

theorem Level.keeps_addItem {l : Level} (h : l.Opened base ∨ l.Gathers base) (i : Item) :
    (l.addItem i).Opened base ∨ (l.addItem i).Gathers base := by
  refine h.imp id fun ⟨hclauses, hpending, hitems⟩ => ⟨hclauses, hpending, ?_⟩
  rw [Level.addItem, List.reverse_cons]
  exact hitems.trans (List.prefix_append ..)

/-! ## One token -/

/-- The outermost list stays as it is where only the innermost one changes, unless they are one. -/
theorem ParseState.Keeps.withLevel {s : ParseState} (h : s.Keeps base) {l : Level}
    (hl : s.level.Opened base ∨ s.level.Gathers base → l.Opened base ∨ l.Gathers base)
    (call : Option Call) : ParseState.Keeps base ⟨l, s.outer, call⟩ := by
  rw [ParseState.Keeps] at h ⊢
  dsimp only
  split at h
  · exact hl h
  · exact h

/-- A token among the arguments of a call. -/
theorem ParseState.Keeps.argument {s : ParseState} (h : s.Keeps base) (c : Call) (t : Token) :
    (s.argument c t).Keeps base := by
  have hsame : ∀ call, ParseState.Keeps base { s with call } := h.withLevel id
  cases t with
  | openParen => exact hsame _
  | closeParen =>
    rw [ParseState.argument]
    split
    · exact hsame _
    · exact h.withLevel (fun hl => Level.keeps_addItem hl _) _
  | atom a =>
    cases a with
    | bare w => exact hsame _
    | quoted w => exact hsame _
  | list members => exact h

/-- A parenthesis that opens outside a call can only take back a word. -/
theorem ParseState.Keeps.openParen {s s' : ParseState} (h : s.Keeps (front ++ [.list members]))
    (hs : s.openParen = .ok s') : s'.Keeps (front ++ [.list members]) := by
  rw [ParseState.openParen] at hs
  split at hs
  · next name before hitems =>
    obtain rfl := Except.ok.inj hs
    refine h.withLevel (l := { s.level with items := before }) (fun hl => hl.imp id ?_) _
    rintro ⟨hclauses, hpending, hprefix⟩
    rw [hitems, List.reverse_cons, List.prefix_concat_iff] at hprefix
    exact ⟨hclauses, hpending, hprefix.resolve_left (by simp)⟩
  · obtain ⟨l, hl, hs⟩ := bind_eq_ok.1 hs
    obtain rfl := Except.ok.inj hs
    rw [ParseState.Keeps] at h ⊢
    rw [List.getLast?_cons]
    cases hlast : s.outer.getLast? with
    | none =>
      rw [hlast] at h
      exact Level.opened_close (by simp) h hl
    | some outermost =>
      rw [hlast] at h
      exact h

/-- A parenthesis that closes outside a call. -/
theorem ParseState.Keeps.closeParen {s s' : ParseState} (h : s.Keeps base)
    (hs : s.closeParen = .ok s') : s'.Keeps base := by
  obtain ⟨l, -, hs⟩ := bind_eq_ok.1 hs
  cases hout : s.outer with
  | nil => simp [hout] at hs
  | cons parent outer =>
    rw [ParseState.Keeps, hout, List.getLast?_cons] at h
    simp only [hout] at hs
    obtain rfl := Except.ok.inj hs
    rw [ParseState.Keeps]
    dsimp only
    cases hlast : outer.getLast? with
    | none =>
      rw [hlast] at h
      exact .inl (Level.Opened.push h _)
    | some outermost =>
      rw [hlast] at h
      exact h

/-- **No token takes back a list that was read.** -/
theorem ParseState.Keeps.step {s s' : ParseState} (h : s.Keeps (front ++ [.list members]))
    {t : Token} (hs : s.step t = .ok s') : s'.Keeps (front ++ [.list members]) := by
  rw [ParseState.step] at hs
  cases hcall : s.call with
  | some c =>
    simp only [hcall] at hs
    exact Except.ok.inj hs ▸ h.argument c t
  | none =>
    simp only [hcall, ParseState.clause] at hs
    split at hs
    · next j hj =>
      obtain ⟨l, hl, hs⟩ := bind_eq_ok.1 hs
      obtain rfl := Except.ok.inj hs
      refine h.withLevel (fun hlevel => .inl ?_) _
      exact (Level.opened_close (by simp) hlevel hl).settle
    · split at hs
      · next i hi =>
        obtain rfl := Except.ok.inj hs
        exact h.withLevel (fun hl => Level.keeps_addItem hl i) _
      · split at hs
        · exact h.openParen hs
        · exact h.closeParen hs

/-! ## All tokens -/

/-- **Whatever follows a list**, the filter begins with the clause that the list stands in. -/
theorem parse_begins {tokens : List Token} {s : ParseState}
    (hs : tokens.foldlM ParseState.step (gathering [] [] none (front ++ [.list members])) = .ok s)
    {clauses : List Clause} (hclauses : s.finish = .ok clauses) :
    Begins (front ++ [.list members]) clauses := by
  have hstart : (gathering [] [] none (front ++ [.list members])).Keeps
      (front ++ [.list members]) := .inr ⟨rfl, rfl, by simp [gathering]⟩
  have hkeeps : s.Keeps (front ++ [.list members]) :=
    foldlM_ok (fun _ _ _ _ hI hstep => hI.step hstep) hstart hs
  rw [ParseState.finish] at hclauses
  split at hclauses
  · simp at hclauses
  · obtain ⟨l, hl, hclauses⟩ := bind_eq_ok.1 hclauses
    split at hclauses
    · next houter =>
      obtain rfl := Except.ok.inj hclauses
      rw [ParseState.Keeps, List.isEmpty_iff.1 houter] at hkeeps
      exact (Level.opened_close (by simp) hkeeps hl).settle
    · simp at hclauses

end TableApi.Filter
