import TableApi.Json.Parser
import TableApi.Query
import TableApi.Settings.Basic
import TableApi.Text.Count

/-!
# Loading settings

Settings come from a JSON document or from variables of the environment. Both readers only collect
what is given; normal form and rules are applied by `Settings.checked` in the end, so that both ways
of writing the same settings give the same result.
-/

namespace TableApi.Settings

/-! ## From JSON -/

/-- The dialect of a name in a document, exactly as written. -/
def dialectOfName? (name : String) : Option Dialect :=
  match name with
  | "postgres" | "pg" | "postgresql" => some .postgres
  | "mysql" | "mariadb" => some .mysql
  | "mssql" => some .mssql
  | "sqlite" | "sqlite3" => some .sqlite
  | "oracle" | "oracledb" => some .oracle
  | _ => none

/-- A string of a document. -/
def readString? : Json.Written → Option String
  | .string pieces => Json.stringOf? pieces
  | _ => none

/-- A count of a document: an integer that is not negative. -/
def readCount? : Json.Written → Option Nat
  | .number n =>
    match n.value? with
    | some (.int k) => if 0 ≤ k then some k.toNat else none
    | _ => none
  | _ => none

/-- A list of strings of a document. -/
def readStrings? : Json.Written → Option (List String)
  | .array items => items.mapM readString?
  | _ => none

/-- A value that may be null. -/
def readOption? {α : Type} (read : Json.Written → Option α) : Json.Written → Option (Option α)
  | .null => some none
  | w => (read w).map some

/-- A dialect of a document: its name, or an object with null under its name. -/
def readDialect? : Json.Written → Option Dialect
  | .string pieces => (Json.stringOf? pieces).bind dialectOfName?
  | .object [(key, .null)] => (Json.stringOf? key).bind dialectOfName?
  | _ => none

/-- The fields of a document, in the order of a document that is a list. -/
def fieldNames : List String :=
  ["dialect", "main_db", "databases", "page_size", "allowed_methods", "insert_chunk_size",
    "catalog_ttl_secs", "body_limit_bytes", "database_url"]

/-- The fields of a document that settings know, each at most once. Other fields are passed over,
whatever their values. -/
def knownFields? (fields : List (String × Json.Written)) : Option (List (String × Json.Written)) :=
  let known := fields.filter fun f => fieldNames.contains f.1
  if (known.map Prod.fst).Nodup then some known else none

/-- The fields of a document. A list gives the first so many fields in their order. -/
def documentFields? : Json.Written → Option (List (String × Json.Written))
  | .object fields => do
    let named ← fields.mapM fun (key, value) => (Json.stringOf? key).map (·, value)
    knownFields? named
  | .array items => if items.length ≤ fieldNames.length then some (fieldNames.zip items) else none
  | _ => none

/-- The value of a field that may be missing. -/
def readOr? {α : Type} (fields : List (String × Json.Written)) (name : String) (default : α)
    (read : Json.Written → Option α) : Option α :=
  match fields.lookup name with
  | some w => read w
  | none => some default

/-- **The settings of a document's fields**, as given. -/
def ofFields? (fields : List (String × Json.Written)) : Option Settings := do
  let dialect ← (fields.lookup "dialect").bind readDialect?
  let mainDb ← (fields.lookup "main_db").bind readString?
  let blank : Settings := { dialect, mainDb, databases := [] }
  let databases ← readOr? fields "databases" blank.databases readStrings?
  let pageSize ← readOr? fields "page_size" blank.pageSize readCount?
  let allowedMethods ← readOr? fields "allowed_methods" blank.allowedMethods readStrings?
  let insertChunkSize ← readOr? fields "insert_chunk_size" blank.insertChunkSize readCount?
  let catalogTtl ← readOr? fields "catalog_ttl_secs" none (readOption? readCount?)
  let bodyLimit ← readOr? fields "body_limit_bytes" blank.bodyLimit readCount?
  let databaseUrl ← readOr? fields "database_url" none (readOption? readString?)
  pure {
    dialect, mainDb, databases, pageSize, allowedMethods, insertChunkSize, catalogTtl, bodyLimit
    databaseUrl }

/-- **The settings of a JSON document**, in normal form. -/
def ofJson (text : String) : Except ConfigError Settings :=
  match ((Json.parseWritten? text.toList).bind documentFields?).bind ofFields? with
  | some s => s.checked
  | none => .error (.load (.malformed "not a settings document"))

/-- The settings of a file with this content; without content there is no such file. -/
def ofFile (path : String) (content : Option String) : Except ConfigError Settings :=
  match content with
  | some text => ofJson text
  | none => .error (.load (.noFile path))

/-! ## From the environment -/

/-- Variables and their values. -/
abbrev Environment := List (String × String)

/-- The full name of a variable of this server. -/
def variableName (name : String) : String :=
  "RESTAPI_" ++ name

/-- The trimmed value of a variable, unless it is blank. -/
def setValue? (env : Environment) (name : String) : Option String :=
  ((env.lookup (variableName name)).map Text.trimmed).filter (!·.isEmpty)

/-- A variable that must be set. -/
def required (env : Environment) (name : String) : Except ConfigError String :=
  match setValue? env name with
  | some value => .ok value
  | none => .error (.load (.unset (variableName name)))

/-- The count that a text writes: digits, with an optional plus. -/
def countOfText? (s : List Char) : Option Nat :=
  Text.count? (if s.head? = some '+' then s.drop 1 else s)

/-- The count that a variable holds, or a default where it is not set. -/
def countOr {α : Type} (env : Environment) (name : String) (default : α) (f : Nat → α) :
    Except ConfigError α :=
  match setValue? env name with
  | none => .ok default
  | some value =>
    match countOfText? value.toList with
    | some n => .ok (f n)
    | none => .error (.load (.notNumber (variableName name) value))

/-- The entries of a list of names between commas, trimmed, without the blank ones. -/
def splitList (value : String) : List String :=
  (((Query.piecesBetween ',' value.toList).map Text.trim).filter (!·.isEmpty)).map String.ofList

/-- The dialect that a word names, or a refusal that quotes the word. -/
def parseDialect (word : String) : Except ConfigError Dialect :=
  match Dialect.ofWord? word with
  | some d => .ok d
  | none => .error (.unknownDialect (Text.lowered (Text.trimmed word)))

/-- The address of the database: the server's own variable, or else the common one. -/
def environmentUrl? (env : Environment) : Option String :=
  match setValue? env "DATABASE_URL" with
  | some url => some url
  | none => (env.lookup "DATABASE_URL").filter (!·.isEmpty)

/-- **The settings of an environment**, in normal form. -/
def ofEnvironment (env : Environment) : Except ConfigError Settings := do
  let dialect ← parseDialect (← required env "DIALECT")
  let mainDb ← required env "MAIN_DB"
  let base := Settings.ofMain dialect mainDb
  let databases := ((setValue? env "DATABASES").map splitList).getD base.databases
  let pageSize ← countOr env "PAGE_SIZE" base.pageSize id
  let allowedMethods := ((setValue? env "ALLOWED_METHODS").map splitList).getD base.allowedMethods
  let insertChunkSize ← countOr env "INSERT_CHUNK_SIZE" base.insertChunkSize id
  let catalogTtl ← countOr env "CATALOG_TTL_SECS" none some
  let bodyLimit ← countOr env "BODY_LIMIT_BYTES" base.bodyLimit id
  let given : Settings := {
    dialect, mainDb, databases, pageSize, allowedMethods, insertChunkSize, catalogTtl, bodyLimit
    databaseUrl := environmentUrl? env }
  given.checked

end TableApi.Settings
