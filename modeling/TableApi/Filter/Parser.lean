import TableApi.Error
import TableApi.Filter.Expr
import TableApi.Filter.Token

/-!
# The grammar of filters

A machine that takes one token at a time. It holds the clause list in progress at every open level
of parentheses, and, while the arguments of a function are read, the arguments at every open level
of those. A clause is read as soon as a joiner, a parenthesis or the end of the text closes it, so
of two errors the one that closes first is reported.
-/

namespace TableApi.Filter

/-- One item of a clause before it is read. -/
inductive Item
  | word (text : String)
  | quoted (text : String)
  | list (members : List Atom)
  /-- A function call, written out. -/
  | call (text : String)
deriving DecidableEq, Repr, Inhabited

/-- A member of a list as an operand. -/
def Atom.operand : Atom → Operand
  | .quoted s => .text s
  | .bare w => classifyMember w

/-- The operands that an item gives. -/
def Item.operands : Item → List Operand
  | .word w => [classify w]
  | .call c => [.column c]
  | .quoted s => [.text s]
  | .list members => members.map Atom.operand

/-- The field that an item names. -/
def Item.field? : Item → Option String
  | .word w | .call w => some w
  | .quoted _ | .list _ => none

/-- The opcode that an item is. -/
def Item.opcode? : Item → Option Opcode
  | .word w => Opcode.ofWord? w
  | _ => none

/-- The word `null` as the operand of an opcode that takes none. -/
def Operand.isNull : Operand → Bool
  | .word w => Text.sameLetters w "null"
  | _ => false

/-- The operands of a comparison, if their number suits the opcode. -/
def checkedOperands (op : Opcode) (operands : List Operand) :
    Except FilterError (List Operand) :=
  let wrong (expected : Nat) := FilterError.arity op.mnemonic expected operands.length
  match op.arity with
  | .nullary =>
    match operands with
    | [] => .ok []
    | [only] => if only.isNull then .ok [] else .error (wrong 0)
    | _ => .error (wrong 0)
  | .unary => if operands.length = 1 then .ok operands else .error (wrong 1)
  | .binary => if operands.length = 2 then .ok operands else .error (wrong 2)
  | .variadic => if operands.length = 0 then .error (wrong 1) else .ok operands

/-- **The expression that the items of a clause write.** A comparison needs a field and then an
opcode; without them the items are kept as raw text. -/
def interpret (items : List Item) : Except FilterError Expr :=
  match items with
  | first :: second :: rest =>
    match first.field?, second.opcode? with
    | some field, some op => do
      let operands ← checkedOperands op (rest.flatMap Item.operands)
      pure (.compare ⟨field, op, operands⟩)
    | _, _ => pure (.raw (items.flatMap Item.operands))
  | _ => pure (.raw (items.flatMap Item.operands))

/-- **A clause list in progress.** -/
structure Level where
  /-- The clauses read so far, last first. -/
  clauses : List Clause
  /-- The joiner that waits for its clause. -/
  pending : Option Joiner
  /-- The items of the clause in progress, last first. -/
  items : List Item
deriving Repr, Inhabited

namespace Level

/-- A clause list before its first token. -/
def empty : Level := ⟨[], none, []⟩

/-- The list with an expression as its next clause. -/
def push (l : Level) (e : Expr) : Level :=
  ⟨(l.pending, e) :: l.clauses, none, []⟩

/-- The list once the clause in progress, if there is one, is read. -/
def close (l : Level) : Except FilterError Level :=
  if l.items.isEmpty then pure l else l.push <$> interpret l.items.reverse

/-- The list once a joiner that still waits has got an empty clause. -/
def settle (l : Level) : Level :=
  if l.pending.isSome then l.push (.raw []) else l

/-- The clauses of a list that has ended, given that its last clause is read. -/
def result (l : Level) : List Clause :=
  l.settle.clauses.reverse

/-- The list with one more item in the clause in progress. -/
def addItem (l : Level) (item : Item) : Level :=
  { l with items := item :: l.items }

end Level

/-- **A function call in progress.** Arguments are held written out, last first. -/
structure Call where
  name : String
  /-- The arguments at the innermost open parenthesis. -/
  args : List String
  /-- The arguments at the parentheses around it, innermost first. -/
  outer : List (List String)
deriving Repr, Inhabited

/-- **The machine.** -/
structure ParseState where
  /-- The clause list at the innermost open parenthesis. -/
  level : Level
  /-- The clause lists around it, innermost first. -/
  outer : List Level
  /-- The call whose arguments are being read, in the clause in progress. -/
  call : Option Call
deriving Repr, Inhabited

/-- The machine before the first token. -/
def ParseState.start : ParseState := ⟨.empty, [], none⟩

/-- A call written out. -/
def callText (name : String) (args : List String) : String :=
  name ++ "(" ++ ", ".intercalate args.reverse ++ ")"

/-- The arguments with a parenthesis of their own closed: it belongs to the argument before it. -/
def applyLast (args : List String) (inner : List String) : List String :=
  match args with
  | name :: before => callText name inner :: before
  | [] => [callText "" inner]

/-- The joiner that a token is. -/
def Token.joiner? : Token → Option Joiner
  | .atom (.bare w) =>
    if Text.sameLetters w "and" then some .and
    else if Text.sameLetters w "or" then some .or
    else none
  | _ => none

/-- The item that a token is. -/
def Token.item? : Token → Option Item
  | .atom (.bare w) => some (.word w)
  | .atom (.quoted s) => some (.quoted s)
  | .list members => some (.list members)
  | .openParen | .closeParen => none

/-- A quoted argument written out. -/
def quotedArg (s : String) : String :=
  "'" ++ String.ofList (s.toList.filter (· ≠ '\\')) ++ "'"

/-- A token among the arguments of a call. Lists are dropped there. -/
def ParseState.argument (s : ParseState) (c : Call) : Token → ParseState
  | .openParen => { s with call := some { c with args := [], outer := c.args :: c.outer } }
  | .closeParen =>
    match c.outer with
    | args :: outer => { s with call := some { c with args := applyLast args c.args, outer } }
    | [] => { s with level := s.level.addItem (.call (callText c.name c.args)), call := none }
  | .atom (.bare w) => { s with call := some { c with args := w :: c.args } }
  | .atom (.quoted t) => { s with call := some { c with args := quotedArg t :: c.args } }
  | .list _ => s

/-- An opening parenthesis outside a call: after a word it opens a call, otherwise it closes the
clause in progress and opens a group. -/
def ParseState.openParen (s : ParseState) : Except FilterError ParseState :=
  match s.level.items with
  | .word name :: before =>
    pure { s with level := { s.level with items := before }, call := some ⟨name, [], []⟩ }
  | _ => do
    let level ← s.level.close
    pure ⟨.empty, level :: s.outer, none⟩

/-- A closing parenthesis outside a call: it ends a group. -/
def ParseState.closeParen (s : ParseState) : Except FilterError ParseState := do
  let level ← s.level.close
  match s.outer with
  | parent :: outer => pure ⟨parent.push (.group level.result), outer, none⟩
  | [] => .error .unbalanced

/-- A token outside a call. -/
def ParseState.clause (s : ParseState) (t : Token) : Except FilterError ParseState :=
  match t.joiner? with
  | some j => do
    let level ← s.level.close
    pure { s with level := { level.settle with pending := some j } }
  | none =>
    match t.item? with
    | some item => pure { s with level := s.level.addItem item }
    | none => if t = .openParen then s.openParen else s.closeParen

/-- **One step of the grammar.** -/
def ParseState.step (s : ParseState) (t : Token) : Except FilterError ParseState :=
  match s.call with
  | some c => pure (s.argument c t)
  | none => s.clause t

/-- The clauses of a machine that has read every token. -/
def ParseState.finish (s : ParseState) : Except FilterError (List Clause) :=
  match s.call with
  | some _ => .error .unbalanced
  | none => do
    let level ← s.level.close
    if s.outer.isEmpty then pure level.result else .error .unbalanced

/-- **The clauses of a filter's tokens.** -/
def parse (tokens : List Token) : Except FilterError (List Clause) := do
  let s ← tokens.foldlM ParseState.step .start
  s.finish

end TableApi.Filter
