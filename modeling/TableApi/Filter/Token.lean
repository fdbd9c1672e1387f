import TableApi.Text.Cut
import TableApi.Text.Sanitize

/-!
# Tokens of the filter language

`field,opcode,operand` comparisons are written with words, quoted texts, bracketed lists and
parentheses. Quoted texts and lists are lifted out first, so their commas and parentheses never
reach the grammar. Bare words keep the characters `A-Z a-z 0-9 - _ . * #` and nothing else. A quote
or a bracket without its partner is dropped like any other character.
-/

namespace TableApi.Filter

/-- **A value in a filter.** -/
inductive Atom
  /-- A bare word. -/
  | bare (word : String)
  /-- A text between single quotes. -/
  | quoted (text : String)
deriving DecidableEq, Repr, Inhabited

/-- **A token.** -/
inductive Token
  | atom (a : Atom)
  | list (members : List Atom)
  | openParen
  | closeParen
deriving DecidableEq, Repr, Inhabited

/-- The characters of bare words besides name characters. -/
def wordMarks : String := "-.*#"

/-- A character of a bare word. -/
def isWordChar (c : Char) : Bool :=
  Text.isNameChar c || wordMarks.toList.contains c

/-- A word as it is kept: word characters only, no two hyphens in a row. -/
def sanitizeWord (s : String) : String :=
  Text.sanitized wordMarks s

/-- A member of a list before it is sanitized, with the quotes taken out. -/
structure Member where
  text : List Char
  /-- There was a quote in it. -/
  quoted : Bool
deriving DecidableEq, Repr

/-- The members of a list, the first one and the rest. Commas inside quotes are text. -/
def members (inQuote : Bool) : List Char → Member × List Member
  | [] => (⟨[], false⟩, [])
  | c :: rest =>
    if c = '\'' then
      let (m, more) := members (!inQuote) rest
      ({ m with quoted := true }, more)
    else if c = ',' ∧ inQuote = false then
      let (m, more) := members inQuote rest
      (⟨[], false⟩, m :: more)
    else
      let (m, more) := members inQuote rest
      ({ m with text := c :: m.text }, more)

/-- The value of a member: quoted text as it is, anything else as a word, if some of it is kept. -/
def Member.atom? (m : Member) : Option Atom :=
  if m.quoted then some (.quoted (String.ofList m.text))
  else
    let word := Text.sanitize wordMarks m.text
    if word.isEmpty then none else some (.bare (String.ofList word))

/-- The values of a list, given what stands between its brackets. -/
def listAtoms (inner : List Char) : List Atom :=
  let (m, more) := members false inner
  (m :: more).filterMap Member.atom?

/-- The word gathered so far, last character first, as a token, unless it is empty. -/
def wordToken (word : List Char) : List Token :=
  if word.isEmpty then []
  else [.atom (.bare (String.ofList (Text.squeezeHyphens word.reverse)))]

/-- What stands in the brackets of a list and after it, given the text after the opening bracket. A
list holds no second opening bracket. -/
def cutList (s : List Char) : Option (List Char × List Char) :=
  (Text.cutAt ']' s).filter fun (inner, _) => !inner.contains '['

/-- What stands after a list is shorter than what stands after its opening bracket. -/
theorem length_of_cutList {s inner after : List Char} (h : cutList s = some (inner, after)) :
    after.length < s.length :=
  Text.length_of_cutAt (Option.filter_eq_some_iff.1 h).1

/-- **The tokens of a text**, the word gathered so far being `word`, last character first. -/
def scan (word : List Char) : List Char → List Token
  | [] => wordToken word
  | c :: rest =>
    if c = '\'' then
      match _h : Text.cutAt '\'' rest with
      | some (text, after) =>
        wordToken word ++ .atom (.quoted (String.ofList text)) :: scan [] after
      | none => scan word rest
    else if c = '[' then
      match _h : cutList rest with
      | some (inner, after) => wordToken word ++ .list (listAtoms inner) :: scan [] after
      | none => scan word rest
    else if c = '(' then wordToken word ++ .openParen :: scan [] rest
    else if c = ')' then wordToken word ++ .closeParen :: scan [] rest
    else if c = ',' then wordToken word ++ scan [] rest
    else if isWordChar c then scan (c :: word) rest
    else scan word rest
termination_by s => s.length
decreasing_by
  all_goals simp only [List.length_cons]
  · have := Text.length_of_cutAt _h; omega
  · omega
  · have := length_of_cutList _h; omega
  all_goals omega

/-- **The tokens of a filter.** -/
def tokenize (text : String) : List Token :=
  scan [] text.toList

end TableApi.Filter
