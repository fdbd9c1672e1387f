import TableApi.Error
import TableApi.Statement

/-!
# Sessions with a database

A command talks to a database: it sends statements and gets replies, inside a transaction or
outside. A session is that conversation as a value, the replies to come and what was sent so far.
A command is then a function on sessions, so what it sends, and what it answers, can be stated for
every sequence of replies.

Some statements do not wait for each other. In which turns they are sent and their replies are
looked at is not for the command to say, so that is a part of the session too.
-/

namespace TableApi

/-- The steps of a transaction. -/
inductive Step
  | beginTransaction
  | commit
  | rollback
deriving DecidableEq, Repr, Inhabited

/-- **A reply of the database.** -/
inductive Reply
  /-- Rows of a query. -/
  | rows (rs : List Row)
  /-- How many rows a statement changed. -/
  | count (n : Nat)
  /-- A failure, kept for a step of a transaction if it names one. -/
  | failure (step : Option Step) (e : DatabaseError)
  /-- Nothing in particular. -/
  | silence
deriving BEq, Repr, Inhabited

/-- **What was sent.** Statements remember whether a transaction was open. -/
inductive Event
  | fetch (inTransaction : Bool) (s : Statement)
  | execute (inTransaction : Bool) (s : Statement)
  | step (s : Step)
deriving BEq, Repr, Inhabited

/-- **A turn of pieces of work that do not wait for each other**: the piece with this number runs,
or its result is taken. -/
inductive Turn
  | run (i : Nat)
  | take (i : Nat)
deriving DecidableEq, Repr, Inhabited

/-- **A session.** -/
structure Session where
  /-- The replies to come. -/
  script : List Reply
  /-- What was sent, in order. -/
  log : List Event := []
  inTransaction : Bool := false
  /-- The turns in which pieces of work go that do not wait for each other. -/
  turns : List Turn := []
deriving BEq, Repr, Inhabited

/-- **Work on a session**, which may fail. What was sent stays sent. -/
abbrev Work := ExceptT ApiError (StateM Session)

namespace Work

/-- Work that fails. -/
def fail {α : Type} (e : ApiError) : Work α :=
  throw e

/-- A result that was found without the database. -/
def ofExcept {α : Type} : Except ApiError α → Work α
  | .ok a => pure a
  | .error e => throw e

/-- The result of work, or how it fails, as a value. -/
def attempt {α : Type} (work : Work α) : Work (Except ApiError α) :=
  ExceptT.lift work.run

/-- The event is noted. -/
def note (e : Event) : Work Unit :=
  modify fun s => { s with log := s.log ++ [e] }

/-- The next reply, if there is one left. -/
def nextReply : Work Reply := do
  let s ← getThe Session
  match s.script with
  | [] => pure .silence
  | r :: rest =>
    set { s with script := rest }
    pure r

/-- **The rows of a query.** A reply that is no list of rows stands for none. -/
def fetch (q : Statement) : Work (List Row) := do
  note (.fetch (← getThe Session).inTransaction q)
  match ← nextReply with
  | .rows rs => pure rs
  | .failure _ e => fail (.database e)
  | .count _ | .silence => pure []

/-- **How many rows a statement changes.** A reply that is no count stands for one. -/
def execute (q : Statement) : Work Nat := do
  note (.execute (← getThe Session).inTransaction q)
  match ← nextReply with
  | .count n => pure n
  | .failure _ e => fail (.database e)
  | .rows _ | .silence => pure 1

/-- A step of a transaction. It fails if the next reply is a failure kept for it, and takes no
other reply. -/
def step (k : Step) : Work Unit := do
  note (.step k)
  let s ← getThe Session
  match s.script with
  | .failure (some k') e :: rest =>
    if k' = k then
      set { s with script := rest }
      fail (.database e)
    else pure ()
  | _ => pure ()

/-- A transaction is open from here on, or none is. -/
def setInTransaction (b : Bool) : Work Unit :=
  modify fun s => { s with inTransaction := b }

/-- The end of a transaction: a commit after a result, a rollback after a failure. The failure is
what is answered, whether the rollback fails or not. -/
def close {α : Type} (result : Except ApiError α) : Work α := do
  match result with
  | .ok a =>
    setInTransaction false
    step .commit
    pure a
  | .error e =>
    setInTransaction false
    let _ ← attempt (step .rollback)
    fail e

/-- **All or nothing.** The work runs in a transaction of its own. -/
def transaction {α : Type} (work : Work α) : Work α := do
  step .beginTransaction
  setInTransaction true
  let result ← attempt work
  close result

/-- One turn of pieces of work, with the results there are so far. A piece runs once at most. A
failure that is taken is the end of all of them. -/
def turn {α : Type} (works : List (Work α)) (results : List (Option (Except ApiError α))) :
    Turn → Work (List (Option (Except ApiError α)))
  | .run i =>
    match works[i]?, results[i]? with
    | some work, some none => do
      let result ← attempt work
      pure (results.set i (some result))
    | _, _ => pure results
  | .take i =>
    match results[i]? with
    | some (some (.error e)) => fail e
    | _ => pure results

/-- **Pieces of work that do not wait for each other**, in the turns of the session. The first
failure that is taken is what is answered, and a piece that has not run by then never does. When the
turns are over, the pieces that are left run in their order, and results are taken in theirs. -/
def all {α : Type} (works : List (Work α)) : Work (List α) := do
  let turns := (← getThe Session).turns ++ (List.range works.length).map .run
  let results ← turns.foldlM (turn works) (works.map fun _ => none)
  ofExcept ((results.filterMap id).mapM id)

end Work

end TableApi
