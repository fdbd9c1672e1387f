import TableApi.Dialect

/-!
# Errors

Why a request, a filter or the settings are refused. Each kind of error names its causes, and one
function gives their wording. `ApiError` gathers them with the status and the code that a client
sees.
-/

namespace TableApi

/-- **Why a filter is refused.** -/
inductive FilterError
  /-- An opcode with the wrong number of operands. -/
  | arity (opcode : String) (expected found : Nat)
  /-- A parenthesis without its partner. -/
  | unbalanced
  /-- A dialect that writes no filters. -/
  | unsupported (dialect : Dialect)
deriving DecidableEq, Repr

/-- The wording of a filter error. -/
def FilterError.message : FilterError → String
  | .arity opcode expected found =>
    "opcode '" ++ opcode ++ "' expects " ++ toString expected ++ " operand(s), got "
      ++ toString found
  | .unbalanced => "unbalanced parentheses in filter"
  | .unsupported d => "filters are not supported for the " ++ d.name ++ " dialect"

/-- **Why settings cannot be read.** -/
inductive LoadError
  /-- A variable that must be set. -/
  | unset (name : String)
  /-- A variable that must hold a number. -/
  | notNumber (name value : String)
  /-- A file that does not exist. -/
  | noFile (path : String)
  /-- A text that does not hold settings, and what is wrong with it. -/
  | malformed (detail : String)
deriving DecidableEq, Repr

/-- The wording of a load error. -/
def LoadError.message : LoadError → String
  | .unset name => name ++ " is not set"
  | .notNumber name value => name ++ " must be a number, got '" ++ value ++ "'"
  | .noFile path => path ++ ": No such file or directory (os error 2)"
  | .malformed detail => detail

/-- **Which rule settings break.** -/
inductive SettingsError
  | blankMainDb
  | zeroPageSize
  | zeroChunkSize
  | zeroTtl
  | unknownMethod (method : String)
  /-- The database speaks another dialect than the settings say. -/
  | dialectMismatch (actual expected : Dialect)
  /-- Any other rule, in its own words. -/
  | other (detail : String)
deriving DecidableEq, Repr

/-- The wording of a broken rule. -/
def SettingsError.message : SettingsError → String
  | .blankMainDb => "main_db must not be empty"
  | .zeroPageSize => "page_size must be greater than zero"
  | .zeroChunkSize => "insert_chunk_size must be greater than zero"
  | .zeroTtl => "catalog_ttl_secs must be greater than zero"
  | .unknownMethod method => "unknown method '" ++ method ++ "' in allowed_methods"
  | .dialectMismatch actual expected =>
    "executor dialect '" ++ actual.name ++ "' does not match configured dialect '"
      ++ expected.name ++ "'"
  | .other detail => detail

/-- **Why there are no usable settings.** -/
inductive ConfigError
  | load (e : LoadError)
  | validation (e : SettingsError)
  | unknownDialect (word : String)
deriving DecidableEq, Repr

/-- The wording of a configuration error. -/
def ConfigError.message : ConfigError → String
  | .load e => "config load: " ++ e.message
  | .validation e => "validation: " ++ e.message
  | .unknownDialect word => "unknown dialect: " ++ word

/-- **What a database answers instead of a result.** -/
inductive DatabaseError
  /-- A row was expected and none came. -/
  | rowNotFound
  /-- The conversation with the database broke down. -/
  | protocol (detail : String)
  /-- The database refused the statement, with its own code. -/
  | refused (code : Nat) (detail : String)
deriving DecidableEq, Repr

/-- The wording of a database error. -/
def DatabaseError.message : DatabaseError → String
  | .rowNotFound => "no rows returned by a query that expected to return at least one row"
  | .protocol detail => "encountered unexpected or invalid data: " ++ detail
  | .refused code detail =>
    "error returned from database: (code: " ++ toString code ++ ") " ++ detail

/-- **What is wrong with a request.** -/
inductive BadRequest
  /-- The body is not JSON. -/
  | invalidJson
  | bodyRequired
  | missingBody
  | notObjectOrArray
  | emptyPayload
  | nonObjectItem
  /-- A body that has one entry a table leaves out the main one. -/
  | noEntry (table : String)
  | noWritableColumns (table : String)
  | noUpdatableColumns (table : String)
  /-- Child rows of several parents in one request. -/
  | manyParents
  /-- The parent key of child rows is unknown. -/
  | unresolvedParent (table column : String)
  | unscopedUpdate
  | itemWithoutKey
  | deletesAll (table : String)
  | joinWithoutTable (text : String)
  | malformedLink (text : String)
  | foreignEndpoint (table : String)
  | unknownColumn (table column : String)
  /-- Anything else, in its own words. -/
  | other (detail : String)
deriving DecidableEq, Repr

/-- The wording of a bad request. -/
def BadRequest.message : BadRequest → String
  | .invalidJson => "invalid JSON body: "
  | .bodyRequired => "request body is required"
  | .missingBody => "missing request body"
  | .notObjectOrArray => "body must be a JSON object or array"
  | .emptyPayload => "empty payload"
  | .nonObjectItem => "array payload must contain objects"
  | .noEntry table => "payload has no entry for table '" ++ table ++ "'"
  | .noWritableColumns table => "no writable columns for table '" ++ table ++ "'"
  | .noUpdatableColumns table => "no updatable columns for table '" ++ table ++ "'"
  | .manyParents => "cascading insert needs a single parent object"
  | .unresolvedParent table column =>
    "cannot resolve '" ++ table ++ "." ++ column ++ "' for cascading insert"
  | .unscopedUpdate => "update needs a filter or the primary key in the body"
  | .itemWithoutKey => "every array element needs its primary key"
  | .deletesAll table => "refusing to delete every row of '" ++ table ++ "'"
  | .joinWithoutTable text => "join '" ++ text ++ "' names no table"
  | .malformedLink text => "relation '" ++ text ++ "' must look like parent.column,child.column"
  | .foreignEndpoint table => "relation endpoint '" ++ table ++ "' is not part of the request"
  | .unknownColumn table column =>
    "relation column '" ++ table ++ "." ++ column ++ "' does not exist"
  | .other detail => detail

/-- **Why a request fails.** -/
inductive ApiError
  | config (e : ConfigError)
  | notFound (what : String)
  | accessDenied (what : String)
  | badRequest (e : BadRequest)
  | filter (e : FilterError)
  | unsupported (what : String)
  | database (e : DatabaseError)
  /-- The work was given up, for a reason of the server's own. -/
  | task (detail : String)
deriving DecidableEq, Repr

namespace ApiError

/-- The wording of a failure. -/
def message : ApiError → String
  | .config e => e.message
  | .notFound what => what ++ " not found"
  | .accessDenied what => "access denied: " ++ what
  | .badRequest e => "bad request: " ++ e.message
  | .filter e => "filter: " ++ e.message
  | .unsupported what => "unsupported: " ++ what
  | .database e => "database: " ++ e.message
  | .task detail => "task: " ++ detail

/-- The status of the answer. -/
def status : ApiError → Nat
  | .config _ => 500
  | .notFound _ => 404
  | .accessDenied _ => 403
  | .badRequest _ => 400
  | .filter (.unsupported _) => 501
  | .filter _ => 400
  | .unsupported _ => 501
  | .database .rowNotFound => 404
  | .database _ => 500
  | .task _ => 500

/-- The code by which a client tells failures apart. -/
def code : ApiError → String
  | .config _ => "config_error"
  | .notFound _ => "not_found"
  | .accessDenied _ => "access_denied"
  | .badRequest _ => "bad_request"
  | .filter _ => "invalid_filter"
  | .unsupported _ => "unsupported"
  | .database .rowNotFound => "not_found"
  | .database _ => "database_error"
  | .task _ => "internal_error"

/-- A table that the database does not have. -/
def noTable (name : String) : ApiError :=
  .notFound ("table '" ++ name ++ "'")

end ApiError

end TableApi
