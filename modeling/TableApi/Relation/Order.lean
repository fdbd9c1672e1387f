import TableApi.Relation.Link

/-!
# The order of linked tables

Parents are written before their children and deleted after them. Tables that no link orders keep
the order of the request, and so do tables on a cycle of links once nothing else is left.
-/

namespace TableApi.Relation

/-- The last index at which a table stands. -/
def indexOf? (tables : List String) (table : String) : Option Nat :=
  match tables with
  | [] => none
  | t :: rest =>
    match indexOf? rest table with
    | some i => some (i + 1)
    | none => if t = table then some 0 else none

/-- The indices of a link's parent and child, if both tables are there and differ. -/
def edge? (tables : List String) (l : Link) : Option (Nat × Nat) := do
  let parent ← indexOf? tables l.parentTable
  let child ← indexOf? tables l.childTable
  if parent = child then none else some (parent, child)

/-- The pairs of parent and child, each once. -/
def edges (tables : List String) (links : List Link) : List (Nat × Nat) :=
  (links.filterMap (edge? tables)).eraseDups

/-- **Tables being put in order.** Each counts the parents that it waits for. -/
structure Countdown where
  /-- How many parents each table waits for. -/
  pending : List Int
  /-- The tables that wait for none and are not placed, in ascending order. -/
  ready : List Nat
  /-- The children that have not counted the table placed last. -/
  untold : List Nat
  /-- The tables placed so far, in order. -/
  placed : List Nat
deriving Repr

namespace Countdown

/-- Nothing is placed, and each table waits for all its parents. -/
def start (n : Nat) (es : List (Nat × Nat)) : Countdown :=
  let pending := es.foldl (fun pending (_, child) => pending.modify child (· + 1))
    (List.replicate n 0)
  { pending, ready := (List.range n).filter (pending[·]? == some 0), untold := [], placed := [] }

/-- Tables in ascending order with one more, unless it is there. -/
def insertReady (i : Nat) : List Nat → List Nat
  | [] => [i]
  | j :: rest =>
    if i < j then i :: j :: rest else if i = j then j :: rest else j :: insertReady i rest

/-- A child counts one parent less, and is ready once it has counted all of them. -/
def tell (s : Countdown) (child : Nat) : Countdown :=
  let pending := s.pending.modify child (· - 1)
  { s with
    pending
    ready := if pending[child]? = some 0 then insertReady child s.ready else s.ready }

/-- **One step**: a child is told of the table placed last, or else the earliest table that is ready
is placed. -/
def step? (es : List (Nat × Nat)) (s : Countdown) : Option Countdown :=
  match s.untold, s.ready with
  | child :: untold, _ => some ({ s with untold }.tell child)
  | [], i :: ready =>
    some { s with
      ready
      untold := (es.filter (·.1 = i)).map Prod.snd
      placed := s.placed ++ [i] }
  | [], [] => none

/-- At most so many steps. -/
def run (es : List (Nat × Nat)) : Nat → Countdown → Countdown
  | 0, s => s
  | steps + 1, s =>
    match s.step? es with
    | some t => run es steps t
    | none => s

end Countdown

/-- The tables in order, each placed once all its parents are and the earliest first. Those that are
never ready follow as they are. Each table is placed at most once and told of each parent once, so
there are no more steps than these. -/
def countedOrder (n : Nat) (es : List (Nat × Nat)) : List Nat :=
  let placed := ((Countdown.start n es).run es (n + es.length)).placed
  placed ++ (List.range n).filter (!placed.contains ·)

/-- **The order of writing**, as indices: parents before children. -/
def writeOrder (tables : List String) (links : List Link) : List Nat :=
  countedOrder tables.length (edges tables links)

/-- The order of deleting: children before parents. -/
def deleteOrder (tables : List String) (links : List Link) : List Nat :=
  (writeOrder tables links).reverse

end TableApi.Relation
