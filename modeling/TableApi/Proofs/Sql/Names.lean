import TableApi.Proofs.Sql.Marks

/-!
# Reading a table's name back

A statement names its table by quoted identifiers. Here is how a database reads them
(`readTable?`): an identifier goes from its opening quote to the first closing one that is not
doubled, a doubled one is a character of the name, and a point leads from a database's name to a
table's. Read so, a written name gives back the database and the table and nothing is left over
(`readTable?_qualifiedTable`), whatever quotes, brackets and points they have in them.
-/

namespace TableApi.Sql

variable {d : Dialect}

/-! ## The reader -/

/-- What is read up to the quote that closes a name, and what stands after the quote. A doubled
quote is one character of the name. -/
def readName? (close : Char) : List Char → Option (List Char × List Char)
  | [] => none
  | [c] => if c = close then some ([], []) else none
  | c :: next :: rest =>
    if c = close then
      if next = close then (readName? close rest).map fun (name, after) => (close :: name, after)
      else some ([], next :: rest)
    else (readName? close (next :: rest)).map fun (name, after) => (c :: name, after)

/-- **A quoted identifier, and what stands after it.** A quote in which a string literal may stand
is none of an identifier. -/
def readIdent? (d : Dialect) : List Char → Option (List Char × List Char)
  | [] => none
  | c :: rest =>
    match d.quote? c with
    | some q => if q = .single ∨ d.escapes q = true then none else readName? q.close rest
    | none => none

/-- **The database, if there is one, and the table that a text names, and what stands after.** -/
def readTable? (d : Dialect) (s : List Char) : Option (Option String × String × List Char) :=
  (readIdent? d s).bind fun (first, after) =>
    if after.head? = some '.' then
      (readIdent? d after.tail).map fun (table, after) =>
        (some (String.ofList first), String.ofList table, after)
    else some (none, String.ofList first, after)

/-! ## Written names -/

/-- **A name whose quotes were doubled is read back**, up to the quote that is not doubled. -/
theorem readName?_doubleQuotes (close : Char) (name : List Char) {rest : List Char}
    (hrest : ∀ c ∈ rest.head?, c ≠ close) :
    readName? close (Dialect.doubleQuotes close name ++ close :: rest) = some (name, rest) := by
  induction name with
  | nil =>
    cases rest with
    | nil => simp [Dialect.doubleQuotes, readName?]
    | cons c rest => simp [Dialect.doubleQuotes, readName?, hrest c rfl]
  | cons c name ih =>
    by_cases hc : c = close
    · subst hc
      have hdoubled : Dialect.doubleQuotes c (c :: name) ++ c :: rest =
          c :: c :: (Dialect.doubleQuotes c name ++ c :: rest) := by simp [Dialect.doubleQuotes]
      rw [hdoubled, readName?, if_pos rfl, if_pos rfl, ih]
      rfl
    · have hkept : Dialect.doubleQuotes close (c :: name) ++ close :: rest =
          c :: (Dialect.doubleQuotes close name ++ close :: rest) := by
        simp [Dialect.doubleQuotes, hc]
      -- what follows the character has at least the closing quote in it
      obtain ⟨next, later, hlater⟩ :=
        List.exists_cons_of_ne_nil (l := Dialect.doubleQuotes close name ++ close :: rest) (by simp)
      rw [hkept, hlater, readName?, if_neg hc, ← hlater, ih]
      rfl

/-- The quotes of written identifiers are quotes of identifiers in their dialect. -/
theorem exists_identQuote (d : Dialect) :
    ∃ q, d.quote? d.identQuotes.1 = some q ∧ q.close = d.identQuotes.2 ∧ q ≠ .single ∧
      d.escapes q = false := by
  cases d
  case mysql => exact ⟨.grave, by decide⟩
  case mssql => exact ⟨.bracket, by decide⟩
  all_goals exact ⟨.double, by decide⟩

/-- **A quoted identifier is read back**, if what follows does not double its closing quote. -/
theorem readIdent?_quoteIdent (name : String) {rest : List Char}
    (hrest : ∀ c ∈ rest.head?, c ≠ d.identQuotes.2) :
    readIdent? d ((d.quoteIdent name).toList ++ rest) = some (name.toList, rest) := by
  obtain ⟨q, hopen, hclose, hsingle, hescapes⟩ := exists_identQuote d
  have hsplit : (d.quoteIdent name).toList ++ rest = d.identQuotes.1 ::
      (Dialect.doubleQuotes d.identQuotes.2 name.toList ++ d.identQuotes.2 :: rest) := by
    simp [Dialect.quoteIdent]
  rw [hsplit, readIdent?, hopen]
  dsimp only
  rw [if_neg (by simp [hsingle, hescapes]), hclose]
  exact readName?_doubleQuotes _ _ hrest

/-- **A table's name is read back** before whatever follows it in a statement. -/
theorem readTable?_append (database table : String) {rest : List Char}
    (hrest : ∀ c ∈ rest.head?, c ≠ d.identQuotes.2 ∧ c ≠ '.') :
    readTable? d ((d.qualifiedTable database table).toList ++ rest) =
      some (if database = "" then none else some database, table, rest) := by
  have hident := readIdent?_quoteIdent (d := d) table fun c hc => (hrest c hc).1
  by_cases hdatabase : database = ""
  · have hend : rest.head? ≠ some '.' := fun hpoint => (hrest '.' hpoint).2 rfl
    rw [Dialect.qualifiedTable, if_pos (by simpa using hdatabase), readTable?, hident,
      Option.bind_some]
    dsimp only
    rw [if_neg hend, if_pos hdatabase, String.ofList_toList]
  · have hpoint : ∀ c ∈ ('.' :: ((d.quoteIdent table).toList ++ rest)).head?,
        c ≠ d.identQuotes.2 := by
      intro c hc
      obtain rfl : '.' = c := Option.some.inj hc
      cases d <;> decide
    have hsplit : (d.qualifiedTable database table).toList ++ rest =
        (d.quoteIdent database).toList ++ '.' :: ((d.quoteIdent table).toList ++ rest) := by
      rw [Dialect.qualifiedTable, if_neg (by simpa using hdatabase)]
      simp
    rw [hsplit, readTable?, readIdent?_quoteIdent _ hpoint, Option.bind_some]
    dsimp only
    rw [List.head?_cons, if_pos rfl, List.tail_cons, hident, if_neg hdatabase, Option.map_some,
      String.ofList_toList, String.ofList_toList]

/-- **Written names are read back as they are.** The name of a table, read by the rules of the
dialect, gives the database (none if it is empty) and the table, and the text is read to its end.
So a text is the name of one database and table only. -/
theorem readTable?_qualifiedTable (d : Dialect) (database table : String) :
    readTable? d (d.qualifiedTable database table).toList =
        some (if database = "" then none else some database, table, []) ∧
      ∀ database' table', d.qualifiedTable database' table' = d.qualifiedTable database table ↔
        database' = database ∧ table' = table := by
  have hread : ∀ database table : String, readTable? d (d.qualifiedTable database table).toList =
      some (if database = "" then none else some database, table, []) := by
    intro database table
    have hend : ∀ c ∈ ([] : List Char).head?, c ≠ d.identQuotes.2 ∧ c ≠ '.' := by simp
    simpa using readTable?_append database table hend
  refine ⟨hread database table, fun database' table' => ⟨fun heq => ?_, ?_⟩⟩
  · have hsame := hread database' table'
    rw [heq, hread database table, Option.some.injEq, Prod.mk.injEq, Prod.mk.injEq] at hsame
    obtain ⟨hdatabase, htable, -⟩ := hsame
    refine ⟨?_, htable.symm⟩
    by_cases hempty : database = "" <;> by_cases hempty' : database' = "" <;> simp_all
  · rintro ⟨rfl, rfl⟩
    rfl

example : readTable? .mssql (Dialect.qualifiedTable .mssql "a].[b" "c]").toList =
    some (some "a].[b", "c]", []) := by decide

end TableApi.Sql
