import TableApi.Text.Blank

/-!
# Lists in a query value

A value such as `name,count(id, x)@n,'a,b'` lists entries between commas. A comma separates entries
only outside parentheses, brackets and single quotes; entries are trimmed, and blank ones are no
entries.
-/

namespace TableApi.Text

/-- **Position in a list.** How deep in groups the next character stands, and whether in a quote. A
closing sign too many takes the depth below zero, where commas still separate. The depth has no
bounds; a counter of 32 bits counts the same in every text of less than `2 ^ 31` signs. -/
structure Nesting where
  depth : Int := 0
  quoted : Bool := false

/-- The position after a character. -/
def Nesting.after (n : Nesting) (c : Char) : Nesting :=
  if c = '\'' then { n with quoted := !n.quoted }
  else if n.quoted then n
  else if c = '(' ∨ c = '[' then { n with depth := n.depth + 1 }
  else if c = ')' ∨ c = ']' then { n with depth := n.depth - 1 }
  else n

/-- A comma at this position separates entries. -/
def Nesting.separates (n : Nesting) : Bool :=
  !n.quoted && n.depth ≤ 0

/-- The texts between the separating commas, from a position on: the first of them, and the rest. -/
def segments (n : Nesting) : List Char → List Char × List (List Char)
  | [] => ([], [])
  | c :: rest =>
    if c = ',' ∧ n.separates = true then
      let (first, more) := segments n rest
      ([], first :: more)
    else
      let (first, more) := segments (n.after c) rest
      (c :: first, more)

/-- The entries of a list: the texts between separating commas, trimmed, without the empty ones. -/
def splitTopLevel (s : List Char) : List (List Char) :=
  let (first, more) := segments {} s
  ((first :: more).map trim).filter (!·.isEmpty)

/-- The entries of a list held in a string. -/
def entries (s : String) : List String :=
  (splitTopLevel s.toList).map String.ofList

example : entries "a, f(b,c) ,,'x,y'" = ["a", "f(b,c)", "'x,y'"] := by decide

end TableApi.Text
