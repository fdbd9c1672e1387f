import TableApi.Error
import TableApi.Json.Basic
import TableApi.Text.Sanitize

/-!
# Settings

Which databases are served, how they are paged, and which methods may change them. Settings that
come from outside are normalized and then checked.
-/

namespace TableApi

/-- **The settings.** -/
structure Settings where
  dialect : Dialect
  /-- The database that paths address when they name none. -/
  mainDb : String
  databases : List String
  /-- Rows of a page whose size the request leaves open. -/
  pageSize : Nat := 20
  allowedMethods : List String := ["GET"]
  /-- Rows of one insert at most. -/
  insertChunkSize : Nat := 30
  /-- Seconds between two readings of the catalog; without them it is read once. -/
  catalogTtl : Option Nat := none
  /-- Bytes of a request body at most. -/
  bodyLimit : Nat := 2097152
  databaseUrl : Option String := none
deriving DecidableEq, Repr, Inhabited

namespace Settings

/-- The methods that settings can allow. -/
def knownMethods : List String :=
  ["GET", "POST", "PUT", "PATCH", "DELETE", "HEAD", "OPTIONS"]

/-- Settings of one database with everything else left open. -/
def ofMain (dialect : Dialect) (mainDb : String) : Settings :=
  { dialect, mainDb, databases := [mainDb] }

/-- The settings with these methods allowed, in upper case. -/
def withMethods (s : Settings) (methods : List String) : Settings :=
  { s with allowedMethods := methods.map Text.uppered }

/-- **A method is allowed.** Reading always is. -/
def allows (s : Settings) (method : String) : Bool :=
  method == "GET" || method == "HEAD" || method == "OPTIONS" ||
    s.allowedMethods.any (Text.sameLetters · method)

/-- The database is served besides the main one. -/
def isSecondary (s : Settings) (name : String) : Bool :=
  name != s.mainDb && s.databases.contains name

/-- A text of blanks only. -/
def isBlankText (s : String) : Bool :=
  (Text.trimmed s).isEmpty

/-- The databases without blank names; the main one comes first where it is not listed. -/
def normalDatabases (s : Settings) : List String :=
  let named := s.databases.filter fun d => !isBlankText d
  if named.contains s.mainDb then named else s.mainDb :: named

/-- **Settings in normal form**: no blank databases, the main database listed, methods in upper
case. -/
def normalize (s : Settings) : Settings :=
  { s with
    databases := s.normalDatabases
    allowedMethods := s.allowedMethods.map fun m => Text.uppered (Text.trimmed m) }

/-- The first method that no settings can allow. -/
def unknownMethod? (s : Settings) : Option String :=
  s.allowedMethods.find? fun m => !knownMethods.any (Text.sameLetters · m)

/-- **The rules for settings.** The first rule that is broken is reported. -/
def validate (s : Settings) : Except ConfigError Unit :=
  if isBlankText s.mainDb then .error (.validation .blankMainDb)
  else if s.pageSize = 0 then .error (.validation .zeroPageSize)
  else if s.insertChunkSize = 0 then .error (.validation .zeroChunkSize)
  else if s.catalogTtl = some 0 then .error (.validation .zeroTtl)
  else
    match s.unknownMethod? with
    | some m => .error (.validation (.unknownMethod m))
    | none => .ok ()

/-- Settings from outside: in normal form, if they keep the rules. -/
def checked (s : Settings) : Except ConfigError Settings :=
  let s := s.normalize
  s.validate.map fun _ => s

/-- The settings as JSON. The address of the database is not shown. -/
def toJson (s : Settings) : Json :=
  .object [("dialect", .string s.dialect.name), ("main_db", .string s.mainDb),
    ("databases", .array (s.databases.map .string)), ("page_size", .ofNat s.pageSize),
    ("allowed_methods", .array (s.allowedMethods.map .string)),
    ("insert_chunk_size", .ofNat s.insertChunkSize),
    ("catalog_ttl_secs", (s.catalogTtl.map Json.ofNat).getD .null),
    ("body_limit_bytes", .ofNat s.bodyLimit)]

end Settings

end TableApi
