import TableApi.Text.Case

/-!
# Opcodes

The comparisons that a filter can make, how many operands each takes, and the form of SQL that it
is written in.
-/

namespace TableApi.Filter

/-- **An opcode.** The names are the words that filters use. -/
inductive Opcode
  | eq | neq
  | lt | le | ge | gt
  | nlt | nle | nge | ngt
  | bt | nbt
  | in_ | nin
  | is_ | nis
  | cs | ncs
  | sw | nsw
  | ew | new
deriving DecidableEq, Repr, Inhabited

/-- How many operands an opcode takes. -/
inductive Arity
  /-- None, or the word `null`. -/
  | nullary
  | unary
  | binary
  /-- One or more. -/
  | variadic
deriving DecidableEq, Repr

/-- **The form of a comparison in SQL.** -/
inductive Form
  /-- `field symbol value`. -/
  | symbol (s : String)
  /-- `field BETWEEN low AND high`. -/
  | between (negated : Bool)
  /-- `field IN (values)`. -/
  | member (negated : Bool)
  /-- `field IS NULL`. -/
  | null (negated : Bool)
  /-- `field LIKE pattern`, with a wildcard before or after the text. -/
  | like (negated before after : Bool)
deriving DecidableEq, Repr

namespace Opcode

/-- Every opcode. -/
def all : List Opcode :=
  [.eq, .neq, .lt, .le, .ge, .gt, .nlt, .nle, .nge, .ngt, .bt, .nbt, .in_, .nin, .is_, .nis, .cs,
    .ncs, .sw, .nsw, .ew, .new]

/-- The word for an opcode. -/
def mnemonic : Opcode → String
  | .eq => "eq"
  | .neq => "neq"
  | .lt => "lt"
  | .le => "le"
  | .ge => "ge"
  | .gt => "gt"
  | .nlt => "nlt"
  | .nle => "nle"
  | .nge => "nge"
  | .ngt => "ngt"
  | .bt => "bt"
  | .nbt => "nbt"
  | .in_ => "in"
  | .nin => "nin"
  | .is_ => "is"
  | .nis => "nis"
  | .cs => "cs"
  | .ncs => "ncs"
  | .sw => "sw"
  | .nsw => "nsw"
  | .ew => "ew"
  | .new => "new"

/-- The opcode of a word, in any case of its ASCII letters. -/
def ofWord? (word : String) : Option Opcode :=
  all.find? fun op => Text.sameLetters op.mnemonic word

/-- How many operands an opcode takes. -/
def arity : Opcode → Arity
  | .is_ | .nis => .nullary
  | .bt | .nbt => .binary
  | .in_ | .nin => .variadic
  | _ => .unary

/-- The form of SQL that an opcode is written in. A negated order is the opposite order. -/
def form : Opcode → Form
  | .eq => .symbol "="
  | .neq => .symbol "<>"
  | .lt | .nge => .symbol "<"
  | .le | .ngt => .symbol "<="
  | .ge | .nlt => .symbol ">="
  | .gt | .nle => .symbol ">"
  | .bt => .between false
  | .nbt => .between true
  | .in_ => .member false
  | .nin => .member true
  | .is_ => .null false
  | .nis => .null true
  | .cs => .like false true true
  | .ncs => .like true true true
  | .sw => .like false false true
  | .nsw => .like true false true
  | .ew => .like false true false
  | .new => .like true true false

end Opcode

end TableApi.Filter
