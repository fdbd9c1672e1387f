import TableApi.Text.Case

/-!
# Verbs

The commands that a request's method can name.
-/

namespace TableApi

/-- **A verb.** -/
inductive Verb
  | get
  | post
  | put
  | patch
  | delete
  | head
  | options
deriving DecidableEq, Repr, Inhabited

namespace Verb

/-- The verb's name. -/
def name : Verb → String
  | .get => "GET"
  | .post => "POST"
  | .put => "PUT"
  | .patch => "PATCH"
  | .delete => "DELETE"
  | .head => "HEAD"
  | .options => "OPTIONS"

/-- Every verb. -/
def all : List Verb := [.get, .post, .put, .patch, .delete, .head, .options]

/-- The verb that a method names in any case. -/
def ofMethod? (method : String) : Option Verb :=
  all.find? fun v => v.name == Text.uppered method

/-- The verb changes rows. -/
def isWrite : Verb → Bool
  | .post | .put | .patch | .delete => true
  | .get | .head | .options => false

/-- The verb takes its rows from the body. -/
def needsBody : Verb → Bool
  | .post | .put | .patch => true
  | .get | .delete | .head | .options => false

end Verb

end TableApi
