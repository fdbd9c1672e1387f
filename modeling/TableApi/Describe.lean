import TableApi.Catalog
import TableApi.Settings.Basic

/-!
# Self-description

The document that answers `OPTIONS`: the settings, the type of each table of the main database, and
the routes and parameters under which it is served.
-/

namespace TableApi.Describe

/-- The groups of column types, each with its members. -/
def typeGroups : List (String × List String) := [
  ("numeric",
    ["tinyint", "smallint", "mediumint", "int", "integer", "bigint", "decimal", "numeric", "float",
      "double", "double precision", "real", "bit", "boolean", "serial", "bigserial", "money"]),
  ("date",
    ["date", "datetime", "datetime2", "timestamp", "timestamp without time zone",
      "timestamp with time zone", "time", "time without time zone", "year"]),
  ("string",
    ["char", "character", "varchar", "character varying", "nvarchar", "tinytext", "text",
      "mediumtext", "longtext", "binary", "varbinary", "tinyblob", "mediumblob", "blob", "longblob",
      "enum", "set", "uuid"]),
  ("spatial",
    ["geometry", "point", "linestring", "polygon", "multipoint", "multilinestring", "multipolygon",
      "geometrycollection"]),
  ("json", ["json", "jsonb"])]

/-- **The group of a column type.** A type of no group is its own, in lower case. -/
def typeGroup (dataType : String) : String :=
  let lower := Text.lowered dataType
  ((typeGroups.find? fun g => g.2.contains lower).map Prod.fst).getD lower

/-- A column as a property of its table's type. -/
def property (c : Column) : Json :=
  .object ([("required", .bool !c.nullable), ("type", .string (typeGroup c.dataType)),
      ("format", .string c.dataType)] ++
    (if c.extra = "" then [] else [("extra", .string c.extra)]) ++
    c.maxLength.toList.map fun n => ("maxLength", .number (.int n)))

/-- The properties of a table's type, by name. -/
def properties (t : Table) : Index Json :=
  t.columns.foldl (fun ix c => ix.insert c.name (property c)) .empty

/-- A table's type. -/
def typeOf (t : Table) : Json :=
  .object [("type", .string "object"), ("displayName", .string t.name),
    ("description", .string t.comment), ("properties", .object (properties t).entries)]

/-- The description of one parameter, with an example. -/
def parameter (type : String) (example_ : String) : Json :=
  .object [("type", .string type), ("example", .string example_)]

/-- The parameters that a reading request takes, with examples for a table. -/
def queryParameters (name : String) : Json :=
  let query (text : String) := name ++ "?" ++ text
  .object [
    ("filter", parameter "(field,opcode,value)" (query "filter=col1,eq,aaa")),
    ("columns", parameter "string" (query "columns=col1,col2,col3")),
    ("distinct", .object [("type", .string "boolean"), ("default", .bool false),
      ("example", .string (query "distinct=true"))]),
    ("exclude", parameter "string" (query "exclude=col1,col2")),
    ("include", parameter "string" (query "include=other")),
    ("order", parameter "(field,asc|desc)" (query "order=id,desc")),
    ("page", .object [("type", .string "number | [number,number]"),
      ("example", .array [.string (query "page=0"), .string (query "page=0,10")])]),
    ("start", parameter "number" (query "start=10")),
    ("length", parameter "number" (query "length=10")),
    ("join", parameter "(joinType,table,field,opcode,field)"
      (query "join=left,other,other.id,eq," ++ name ++ ".other_id")),
    ("group", parameter "string" (query "group=id")),
    ("having", parameter "(field,opcode,value)" (query "having=id,eq,1")),
    ("relation", parameter "(parent.column,child.column)"
      (query "relation=" ++ name ++ ".id,other." ++ name ++ "_id"))]

/-- An object of one field. -/
def single (key : String) (value : Json) : Json :=
  .object [(key, value)]

/-- The response of a reading route. -/
def jsonResponse (type : String) : Json :=
  single "200" (single "body" (single "application/json" (single "type" (.string type))))

/-- The response of a writing route, under its status. -/
def writeResponse (status type description : String) : Json :=
  single status (single "body"
    (.object [("type", .string type), ("description", .string description)]))

/-- A reading route. -/
def readRoute (description : String) (parameters : Json) (type : String) : Json :=
  .object [("description", .string description), ("queryParameters", parameters),
    ("responses", jsonResponse type)]

/-- A writing route that takes a body. -/
def bodyRoute (description type : String) (response : Json) : Json :=
  .object [("description", .string description), ("body", single "type" (.string type)),
    ("responses", response)]

/-- A route, if the settings allow its method. -/
def whenAllowed (s : Settings) (method key : String) (route : Json) : List (String × Json) :=
  if s.allows method then [(key, route)] else []

/-- The routes of single rows, addressed by primary key. -/
def itemRoutes (s : Settings) (name pk : String) : Json :=
  let described (verb : String) := verb ++ " the " ++ name ++ " entity with " ++ pk ++ "."
  .object ([("get", readRoute (described "Get") (queryParameters name) name)] ++
    whenAllowed s "PATCH" "patch"
      (bodyRoute (described "Update") name
        (writeResponse "200" "number | number[]" "number of affected rows")) ++
    whenAllowed s "DELETE" "delete"
      (.object [("description", .string (described "Delete")),
        ("responses", writeResponse "200" "number" "number of affected rows")]))

/-- **The routes of a table.** -/
def routes (s : Settings) (t : Table) : Json :=
  let name := t.name
  let described (verb : String) := verb ++ " the " ++ name ++ " entities."
  let rows := name ++ " | " ++ name ++ "[]"
  let read := readRoute (described "Return") (queryParameters name) (name ++ "[]")
  .object (Fields.ofList ([("get", read)] ++
    whenAllowed s "POST" "post"
      (bodyRoute (described "Insert") rows
        (writeResponse "201" "number | number[]" "inserted id(s)")) ++
    whenAllowed s "PUT" "put"
      (bodyRoute (described "Save") rows
        (writeResponse "200" "number | number[]" "affected rows or inserted id")) ++
    t.primaryKey.toList.map fun pk => ("/\x7b" ++ pk ++ "\x7d", itemRoutes s name pk)))

/-- **The document.** -/
def document (s : Settings) (c : Catalog) : Json :=
  let tables := c.tables s.mainDb
  .object [("title", .string ("RestAPI for '" ++ s.mainDb ++ "'")), ("settings", s.toJson),
    ("types", .object (Fields.ofList (tables.map fun t => (t.name, typeOf t)))),
    ("routes", .object (Fields.ofList (tables.map fun t => ("/" ++ t.name, routes s t))))]

end TableApi.Describe
