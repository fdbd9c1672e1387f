import TableApi.Json.Written

/-!
# Tokens of JSON

The lexer is a machine that takes one character at a time. Digits, signs, points and exponent marks
are gathered and read as a number once another character ends them, so a malformed number is
refused there; words are gathered the same way.
-/

namespace TableApi.Json

/-- **A token.** -/
inductive Token
  | openArray
  | closeArray
  | openObject
  | closeObject
  | comma
  | colon
  | null
  | bool (b : Bool)
  | number (n : Numeral)
  | string (pieces : List Piece)
deriving DecidableEq, Repr, Inhabited

/-- The machine between two characters. What was gathered is held last first. -/
inductive LexState
  | between
  | number (gathered : List Char)
  | word (gathered : List Char)
  | string (pieces : List Piece)
  | escape (pieces : List Piece)
  | hex (pieces : List Piece) (owed value : Nat)
deriving Repr, Inhabited

/-- The digits at the start of a text, and the rest. -/
def digitsSpan (s : List Char) : List Char × List Char :=
  s.span Char.isDigit

/-- The value of exponent digits with their sign. -/
def exponentOf (negative : Bool) (ds : List Char) : Int :=
  if negative then -(Text.digitsValue ds : Int) else Text.digitsValue ds

/-- The exponent that stands after the digits, if the text ends with it: absent, or a mark, an
optional sign and digits. -/
def exponent? : List Char → Option (Option Int)
  | [] => some none
  | mark :: rest =>
    if mark = 'e' ∨ mark = 'E' then
      let (negative, rest) :=
        match rest with
        | '+' :: r => (false, r)
        | '-' :: r => (true, r)
        | r => (false, r)
      if !rest.isEmpty ∧ rest.all Char.isDigit then some (some (exponentOf negative rest)) else none
    else none

/-- **A number's text.** An optional minus, digits without a leading zero, an optional fraction and
an optional exponent. -/
def Numeral.ofChars? (s : List Char) : Option Numeral :=
  let (negative, s) :=
    match s with
    | '-' :: r => (true, r)
    | r => (false, r)
  let (whole, s) := digitsSpan s
  if whole.isEmpty ∨ (whole.head? = some '0' ∧ whole.length ≠ 1) then none
  else
    match s with
    | '.' :: r =>
      let (fraction, r) := digitsSpan r
      if fraction.isEmpty then none
      else (exponent? r).map fun e => ⟨negative, whole, fraction, e⟩
    | r => (exponent? r).map fun e => ⟨negative, whole, [], e⟩

/-- The token of a word. -/
def Token.ofWord? (s : List Char) : Option Token :=
  if s = "null".toList then some .null
  else if s = "true".toList then some (.bool true)
  else if s = "false".toList then some (.bool false)
  else none

/-- The token of a character that stands alone. -/
def Token.ofSign? (c : Char) : Option Token :=
  if c = '[' then some .openArray
  else if c = ']' then some .closeArray
  else if c = '\x7b' then some .openObject
  else if c = '\x7d' then some .closeObject
  else if c = ',' then some .comma
  else if c = ':' then some .colon
  else none

/-- The blanks between tokens. -/
def isTokenBlank (c : Char) : Bool :=
  c == ' ' || c == '\t' || c == '\n' || c == '\r'

/-- The character belongs to a number. -/
def isNumberChar (c : Char) : Bool :=
  c.isDigit || c == '-' || c == '+' || c == '.' || c == 'e' || c == 'E'

/-- A character read between tokens. -/
def LexState.start (c : Char) : Option (List Token × LexState) :=
  if isTokenBlank c then some ([], .between)
  else if c = '"' then some ([], .string [])
  else if c.isDigit ∨ c = '-' then some ([], .number [c])
  else if c.isLower then some ([], .word [c])
  else (Token.ofSign? c).map fun t => ([t], .between)

/-- The character after a backslash, other than the `u` of a code unit. -/
def unescape? (c : Char) : Option Char :=
  if c = '"' ∨ c = '\\' ∨ c = '/' then some c
  else if c = 'b' then some '\x08'
  else if c = 'f' then some '\x0c'
  else if c = 'n' then some '\n'
  else if c = 'r' then some '\r'
  else if c = 't' then some '\t'
  else none

/-- The value of a hexadecimal digit of either case. -/
def hexValue? (c : Char) : Option Nat :=
  if c.isDigit then some (c.toNat - 48)
  else if 'a' ≤ c ∧ c ≤ 'f' then some (c.toNat - 87)
  else if 'A' ≤ c ∧ c ≤ 'F' then some (c.toNat - 55)
  else none

/-- **One step of the lexer**: the tokens that a character completes, and the state after it. -/
def LexState.step (state : LexState) (c : Char) : Option (List Token × LexState) :=
  match state with
  | .between => start c
  | .number gathered =>
    if isNumberChar c then some ([], .number (c :: gathered))
    else do
      let n ← Numeral.ofChars? gathered.reverse
      let (ts, state) ← start c
      pure (.number n :: ts, state)
  | .word gathered =>
    if c.isLower then some ([], .word (c :: gathered))
    else do
      let t ← Token.ofWord? gathered.reverse
      let (ts, state) ← start c
      pure (t :: ts, state)
  | .string pieces =>
    if c = '"' then some ([.string pieces.reverse], .between)
    else if c = '\\' then some ([], .escape pieces)
    else if c.toNat < 0x20 then none
    else some ([], .string (.char c :: pieces))
  | .escape pieces =>
    if c = 'u' then some ([], .hex pieces 4 0)
    else (unescape? c).map fun c => ([], .string (.char c :: pieces))
  | .hex pieces owed value =>
    (hexValue? c).map fun h =>
      if owed ≤ 1 then ([], .string (.unit (value * 16 + h) :: pieces))
      else ([], .hex pieces (owed - 1) (value * 16 + h))

/-- The token that the end of the text completes. -/
def LexState.finish? : LexState → Option (List Token)
  | .between => some []
  | .number gathered => (Numeral.ofChars? gathered.reverse).map fun n => [.number n]
  | .word gathered => (Token.ofWord? gathered.reverse).map fun t => [t]
  | _ => none

/-- The tokens of a text read from a state, after those already found, last first. -/
def lexFrom (found : List Token) (state : LexState) : List Char → Option (List Token)
  | [] => state.finish?.map fun ts => found.reverse ++ ts
  | c :: rest =>
    match state.step c with
    | some (ts, state) => lexFrom (ts.reverse ++ found) state rest
    | none => none

/-- **The tokens of a text.** -/
def lex? (s : List Char) : Option (List Token) :=
  lexFrom [] .between s

end TableApi.Json
