import TableApi.Error
import TableApi.Index
import TableApi.Statement
import TableApi.Store.Key
import TableApi.Text.Utf8

/-!
# A keyed table

The table `kv` of an embedded database: values under integer keys, changed one statement at a time,
inside a transaction or outside. A transaction that is rolled back leaves the table as it was when
the transaction began.
-/

namespace TableApi

/-- **The table**, and what it was when the open transaction began. -/
structure Store where
  /-- Keys and values, sorted by key. -/
  rows : List (Int × Cell) := []
  /-- The rows at the begin of the open transaction. -/
  saved : Option (List (Int × Cell)) := none
deriving DecidableEq, Repr, Inhabited

namespace Store

/-- The rows with one more, given that they are sorted and the key is new. -/
def insertRow (k : Int) (v : Cell) : List (Int × Cell) → List (Int × Cell)
  | [] => [(k, v)]
  | r :: rest => if k < r.1 then (k, v) :: r :: rest else r :: insertRow k v rest

/-- The key that a row without one gets: one more than the largest, or one. -/
def nextKey (s : Store) : Int :=
  match s.rows.getLast? with
  | some (k, _) => k + 1
  | none => 1

/-- The key is in the table. -/
def has (s : Store) (k : Int) : Bool :=
  s.rows.any (·.1 = k)

/-- What the database says to a key that is taken. -/
def duplicateKey : DatabaseError :=
  .refused 1555 "UNIQUE constraint failed: kv.k"

/-- What the database says to a key that is no integer. -/
def mismatch : DatabaseError :=
  .refused 20 "datatype mismatch"

/-- **A new row.** A null key is chosen by the table. The answer counts the rows inserted. -/
def put (s : Store) (k v : Cell) : Except DatabaseError (Store × Nat) :=
  match if k = .null then some s.nextKey else keyOf? k with
  | none => .error mismatch
  | some k =>
    if s.has k then .error duplicateKey
    else .ok ({ s with rows := insertRow k v s.rows }, 1)

/-- The rows of a key, which are one or none. -/
def rowsOf (s : Store) (k : Cell) : List (Int × Cell) :=
  match keyOf? k with
  | some k => s.rows.filter (·.1 = k)
  | none => []

/-- **A new value** for the row of a key. The answer counts the rows changed. -/
def set (s : Store) (k v : Cell) : Store × Nat :=
  match keyOf? k with
  | some key =>
    ({ s with rows := s.rows.map fun r => if r.1 = key then (key, v) else r }, (s.rowsOf k).length)
  | none => (s, 0)

/-- **The row of a key is taken out.** The answer counts the rows deleted. -/
def delete (s : Store) (k : Cell) : Store × Nat :=
  match keyOf? k with
  | some key => ({ s with rows := s.rows.filter (·.1 ≠ key) }, (s.rowsOf k).length)
  | none => (s, 0)

/-- A transaction begins. -/
def beginTransaction (s : Store) : Store :=
  { s with saved := some s.rows }

/-- The open transaction ends, and what it did stays. -/
def commit (s : Store) : Store :=
  { s with saved := none }

/-- The open transaction ends, and what it did is undone. -/
def rollback (s : Store) : Store :=
  ⟨s.saved.getD s.rows, none⟩

/-- A row of the table as a result row. -/
def resultRow (r : Int × Cell) : Row :=
  [("k", .number (.int r.1)), ("v", r.2.toJson)]

/-- The row that selects bound values back, as the columns `c0`, `c1` and so on. -/
def echo (values : List Json) : Row :=
  values.zipIdx.map fun (v, i) => ("c" ++ toString i, (Cell.ofJson v).toJson)

/-- A blob as a result row. It is read as UTF-8 text, or as null if it is none. -/
def blobRow (bytes : List UInt8) : Row :=
  [("b", Json.ofOption ((Text.Utf8.decode? bytes).map String.ofList))]

end Store

end TableApi
