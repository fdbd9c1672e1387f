import TableApi.Proofs.Filter.Reading

/-!
# Fields that are read back

A field is a name or a function call, and the arguments of a call are values or calls themselves.
Calls are read as fields with their arguments in order (`Field.WellFormed.reading`), by induction
over the nesting: every argument joins the ones before it in its own parentheses
(`Argument.WellFormed.isRead`).
-/

namespace TableApi.Filter

/-! ## Calls -/

/-- **An argument of a function call.** -/
inductive Argument
  | value (a : Atom)
  | call (name : String) (args : List Argument)

/-- A value as it is written. -/
def Atom.written : Atom → List Char
  | .bare w => w.toList
  | .quoted s => '\'' :: (s.toList ++ ['\''])

mutual

/-- **An argument as it is written.** -/
def Argument.written : Argument → List Char
  | .value a => a.written
  | .call name args => name.toList ++ '(' :: (argumentsWritten args ++ [')'])

/-- Arguments as they are written, with a comma between each two of them. -/
def argumentsWritten : List Argument → List Char
  | [] => []
  | a :: later => a.written ++ ((if later.isEmpty then [] else [',']) ++ argumentsWritten later)

end

/-- A call of a function in SQL. -/
def callSql (name : String) (args : List String) : String :=
  name ++ "(" ++ ", ".intercalate args ++ ")"

mutual

/-- **An argument in SQL.** -/
def Argument.sql : Argument → String
  | .value (.bare w) => w
  | .value (.quoted s) => quotedArg s
  | .call name args => callSql name (argumentsSql args)

/-- Arguments in SQL. -/
def argumentsSql : List Argument → List String
  | [] => []
  | a :: later => a.sql :: argumentsSql later

end

/-- **A well-formed argument.** -/
inductive Argument.WellFormed : Argument → Prop
  | value {a : Atom} (h : a.Valid) : Argument.WellFormed (.value a)
  | call {name : String} {args : List Argument} (word : (Atom.bare name).Valid)
      (each : ∀ a ∈ args, Argument.WellFormed a) : Argument.WellFormed (.call name args)

/-- **A field**: a name, or the call of a function. -/
inductive Field
  | column (w : String)
  | call (name : String) (args : List Argument)

namespace Field

/-- A field as it is written. -/
def written : Field → List Char
  | .column w => w.toList
  | .call name args => (Argument.call name args).written

/-- A field in SQL. -/
def sql : Field → String
  | .column w => w
  | .call name args => (Argument.call name args).sql

/-- A field as an item of a clause. -/
def item : Field → Item
  | .column w => .word w
  | .call name args => .call (Argument.call name args).sql

/-- **A well-formed field.** -/
def WellFormed : Field → Prop
  | .column w => IsName w
  | .call name args => IsName name ∧ ∀ a ∈ args, a.WellFormed

@[simp] theorem field?_item (f : Field) : f.item.field? = some f.sql := by
  cases f <;> rfl

end Field

/-! ## Arguments -/

/-- The machine among the arguments of a call. -/
def ParseState.inCall (s : ParseState) (name : String) (args : List String)
    (around : List (List String)) : ParseState :=
  { s with call := some ⟨name, args, around⟩ }

/-- **What reading an argument does**, whatever ends it: it joins the ones before it. -/
def Argument.IsRead (a : Argument) : Prop :=
  ∀ (s : ParseState) (fn : String) (args : List String) (around : List (List String))
    (rest : List Char), Ends rest →
      reading (s.inCall fn args around) (a.written ++ rest) =
        reading (s.inCall fn (a.sql :: args) around) rest

@[simp] theorem reading_comma (s : ParseState) (rest : List Char) :
    reading s (',' :: rest) = reading s rest := by
  rw [reading, scan_comma, reading]

/-- A word is read back before a parenthesis too. -/
theorem scan_bare_openParen {w : String} (h : (Atom.bare w).Valid) (rest : List Char) :
    scan [] (w.toList ++ '(' :: rest) = [.atom (.bare w), .openParen] ++ scan [] rest := by
  obtain ⟨hne, hchars, hhyphens⟩ := h
  have hempty : w.toList.reverse.isEmpty = false := by simpa using hne
  rw [scan_wordChars hchars, List.append_nil]
  simp [scan, wordToken, hempty, Text.squeezeHyphens_eq_self hhyphens]

/-- **A well-formed value is read back.** -/
theorem scan_value {a : Atom} (h : a.Valid) {rest : List Char} (hrest : Ends rest) :
    scan [] (a.written ++ rest) = .atom a :: scan [] rest := by
  cases a with
  | bare w => exact scan_bare h hrest
  | quoted s => simpa [Atom.written] using scan_quoted h rest

/-- Values are read back, each after a comma. -/
theorem scan_values {values : List Atom} (h : ∀ a ∈ values, a.Valid) {rest : List Char}
    (hrest : Ends rest) :
    scan [] ((values.flatMap fun a => ',' :: a.written) ++ rest) =
      values.map .atom ++ scan [] rest := by
  induction values with
  | nil => rfl
  | cons a later ih =>
    obtain ⟨ha, hlater⟩ := List.forall_mem_cons.1 h
    have hends : Ends ((later.flatMap fun a => ',' :: a.written) ++ rest) := by
      cases later with
      | nil => exact hrest
      | cons b later => exact ends_comma _
    rw [List.flatMap_cons, List.cons_append, List.cons_append, List.append_assoc, scan_comma,
      scan_value ha hends, ih hlater]
    rfl

theorem isRead_value {a : Atom} (h : a.Valid) : (Argument.value a).IsRead := by
  intro s fn args around rest hrest
  have hstep : (s.inCall fn args around).step (.atom a) =
      .ok (s.inCall fn ((Argument.value a).sql :: args) around) := by
    cases a with
    | bare w => rfl
    | quoted t => rfl
  exact reading_of_step (scan_value h hrest) hstep

/-- Arguments are read one after the other. -/
theorem reads_arguments {later : List Argument} (h : ∀ a ∈ later, a.IsRead) (s : ParseState)
    (fn : String) (args : List String) (around : List (List String)) {rest : List Char}
    (hrest : Ends rest) :
    reading (s.inCall fn args around) (argumentsWritten later ++ rest) =
      reading (s.inCall fn ((argumentsSql later).reverse ++ args) around) rest := by
  induction later generalizing args with
  | nil => simp [argumentsWritten, argumentsSql]
  | cons a later ih =>
    obtain ⟨ha, hlater⟩ := List.forall_mem_cons.1 h
    rw [argumentsWritten, argumentsSql, List.reverse_cons, List.append_assoc, List.append_assoc,
      List.append_assoc, List.singleton_append, ← ih hlater (a.sql :: args)]
    cases later with
    | nil => exact ha s fn args around _ hrest
    | cons next later => exact (ha s fn args around _ (ends_comma _)).trans (reading_comma _ _)

/-- A call written out, given the arguments as the machine holds them. -/
theorem callText_reverse (name : String) (args : List String) :
    callText name args.reverse = callSql name args := by
  rw [callText, List.reverse_reverse, callSql]

/-- **A call among arguments is read** if its arguments are. -/
theorem isRead_call {name : String} (hname : (Atom.bare name).Valid) {inner : List Argument}
    (h : ∀ a ∈ inner, a.IsRead) : (Argument.call name inner).IsRead := by
  intro s fn args around rest hrest
  have hopen : [.atom (.bare name), .openParen].foldlM ParseState.step (s.inCall fn args around) =
      .ok (s.inCall fn [] ((name :: args) :: around)) := rfl
  have hclose : (s.inCall fn ((argumentsSql inner).reverse ++ [])
      ((name :: args) :: around)).step .closeParen =
      .ok (s.inCall fn ((Argument.call name inner).sql :: args) around) := by
    rw [Argument.sql, ← callText_reverse, List.append_nil]
    rfl
  rw [Argument.written, List.append_assoc, List.cons_append, List.append_assoc,
    reading_of_scan (scan_bare_openParen hname _) hopen]
  exact (reads_arguments h s fn [] _ (ends_closeParen rest)).trans
    (reading_of_step (scan_closeParen rest) hclose)

/-- **Every well-formed argument is read.** -/
theorem Argument.WellFormed.isRead {a : Argument} (h : a.WellFormed) : a.IsRead := by
  induction h with
  | value h => exact isRead_value h
  | call word _ ih => exact isRead_call word ih

/-! ## Fields -/

/-- **A field is read** as the first item of a clause. -/
theorem Field.WellFormed.reading {f : Field} (h : f.WellFormed) (outer : List Level)
    (done : List Clause) (joiner : Option Joiner) {rest : List Char} (hrest : Ends rest) :
    reading (waiting outer done joiner) (f.written ++ rest) =
      reading (gathering outer done joiner [f.item]) rest := by
  have hstep : ∀ {w}, IsName w → (waiting outer done joiner).step (.atom (.bare w)) =
      .ok (gathering outer done joiner [.word w]) := by
    intro w hw
    have hplain : (Token.atom (.bare w)).joiner? = none := plain_bare hw.not_and hw.not_or
    simp [ParseState.step, waiting, gathering, ParseState.clause, hplain, Token.item?,
      Level.addItem, pure, Except.pure]
  cases f with
  | column w => exact reading_of_step (scan_bare h.valid hrest) (hstep h)
  | call name args =>
    obtain ⟨hname, hargs⟩ := h
    -- the parenthesis takes the name back and makes it a function's
    have hopen : [.atom (.bare name), .openParen].foldlM ParseState.step
        (waiting outer done joiner) = .ok ((waiting outer done joiner).inCall name [] []) := by
      rw [List.foldlM_cons, hstep hname]
      rfl
    have hclose : ((waiting outer done joiner).inCall name ((argumentsSql args).reverse ++ [])
        []).step .closeParen = .ok (gathering outer done joiner [(Field.call name args).item]) := by
      rw [Field.item, Argument.sql, ← callText_reverse, List.append_nil]
      rfl
    have hread : ∀ a ∈ args, a.IsRead := fun a ha => (hargs a ha).isRead
    rw [Field.written, Argument.written, List.append_assoc, List.cons_append, List.append_assoc,
      reading_of_scan (scan_bare_openParen hname.valid _) hopen]
    exact (reads_arguments hread _ name [] [] (ends_closeParen rest)).trans
      (reading_of_step (scan_closeParen rest) hclose)

end TableApi.Filter
