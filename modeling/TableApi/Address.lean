import TableApi.Text.Cut

/-!
# Addresses of requests

What a request asks for is a path and a query string. Its address may be just these, or a lone `*`,
or they may stand after a scheme and an authority. An authority alone has no path. Scheme, authority
and fragment say nothing about what is asked for, so they are dropped.
-/

namespace TableApi

/-- **The address of a request**, as far as it says what is asked for. -/
structure Address where
  path : String
  query : String
deriving DecidableEq, Repr, Inhabited

namespace Address

/-- The characters of a scheme besides the letters and digits of ASCII. -/
def schemeMarks : String := "+-.~"

/-- A character of a scheme. -/
def isSchemeChar (c : Char) : Bool :=
  c.isAlphanum || schemeMarks.toList.contains c

/-- What stands after the scheme, if there is one. -/
def afterScheme? (s : List Char) : Option (List Char) :=
  match s.dropWhile isSchemeChar with
  | ':' :: '/' :: '/' :: rest => some rest
  | _ => none

/-- What stands after the authority: the path, where the query string may follow. -/
def afterAuthority (s : List Char) : List Char :=
  s.dropWhile fun c => c ≠ '/' && c ≠ '?'

/-- The address that is a path with its query string. -/
def ofPath (s : List Char) : Address :=
  match Text.cutAt '?' s with
  | some (path, query) => ⟨String.ofList path, String.ofList query⟩
  | none => ⟨String.ofList s, ""⟩

/-- The address with the root as its path, if it has none. -/
def rooted (a : Address) : Address :=
  { a with path := if a.path = "" then "/" else a.path }

/-- **The address that a text writes.** -/
def ofString (text : String) : Address :=
  let s := text.toList.takeWhile (· ≠ '#')
  if s.head? = some '/' ∨ s = ['*'] then ofPath s
  else
    match afterScheme? s with
    | some rest => (ofPath (afterAuthority rest)).rooted
    | none => ⟨"", ""⟩

example : ofString "/a/b?c=1#d" = ⟨"/a/b", "c=1"⟩ := by decide +kernel
example : ofString "http://h:80/a?b" = ⟨"/a", "b"⟩ := by decide +kernel
example : ofString "http://h?b" = ⟨"/", "b"⟩ := by decide +kernel
example : ofString "a~b://h/c" = ⟨"/c", ""⟩ := by decide +kernel
example : ofString "*" = ⟨"*", ""⟩ := by decide +kernel
example : ofString "h:80" = ⟨"", ""⟩ := by decide +kernel

end Address

end TableApi
