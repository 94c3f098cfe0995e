import Tabulary.Engine
import Tabulary.Text.Percent

/-!
The engine over HTTP: which request asks for what, and how each outcome is answered.
-/

namespace Tabulary
namespace Http

structure Request where
  method : String
  path : String
  /-- Parameters given apart from the path; those go before any in the path. -/
  parameters : Option (List (String × String))
  body : Option Json

structure Response where
  status : Nat
  body : Option Json
deriving Repr

inductive Endpoint where
  | health
  | stats
  | databases
  | newDatabase (name : String)
  | tables (database : String)
  | rows (database table : String)
  | query
deriving DecidableEq, Repr

namespace Endpoint

def method : Endpoint → String
  | newDatabase _ | query => "POST"
  | _ => "GET"

def ofNames : List String → Option Endpoint
  | ["", "health"] => some health
  | ["", "stats"] => some stats
  | ["", "api", "dbs"] => some databases
  | ["", "api", "dbs", name] => if name = "" then none else some (newDatabase name)
  | ["", "api", "dbs", name, "tables"] => if name = "" then none else some (tables name)
  | ["", "api", "dbs", name, "tables", table] =>
    if name = "" ∨ table = "" then none else some (rows name table)
  | ["", "api", "query"] => some query
  | _ => none

/-- The endpoint at a path; slashes at the end of the path do not count. -/
def ofPath (path : String) : Option Endpoint :=
  match ofNames (path.splitOn "/") with
  | some e => some e
  | none =>
    let bare := String.ofList (path.toList.reverse.dropWhile (· = '/')).reverse
    ofNames (bare.splitOn "/")

end Endpoint

/-- Resolves the names `.` and `..` in a path. -/
def resolveDots (names : List String) : List String :=
  (names.foldl (fun done name =>
    if name = "." then done
    else if name = ".." then if done = [""] then done else done.drop 1
    else name :: done) []).reverse

/-- The path of a request without parameters and marks, with its percent encoding undone.  It is
undone twice: once for the address and once for the path in it. -/
def pathOf (written : String) : String :=
  let path := String.ofList (written.toList.takeWhile fun c => c ≠ '?' && c ≠ '#')
  let names := path.splitOn "/"
  let path := "/".intercalate (if names.contains "." || names.contains ".." then resolveDots names
    else names)
  Text.percentDecoded (Text.percentDecoded path)

def parametersOf (written : String) : List (String × String) :=
  let text := written.toList.takeWhile (· ≠ '#') |>.dropWhile (· ≠ '?') |>.drop 1
  let decoded (cs : List Char) : String :=
    Text.percentDecoded (String.ofList (cs.map fun c => if c = '+' then ' ' else c))
  ((String.ofList text).splitOn "&").map fun part =>
    (decoded (part.toList.takeWhile (· ≠ '=')),
      decoded ((part.toList.dropWhile (· ≠ '=')).drop 1))

def Request.database? (r : Request) : Option String :=
  (r.parameters.getD (parametersOf r.path)).reverse.lookup "db"

def Request.command? (r : Request) : Option String :=
  match r.body.bind (·.field? "sql") with
  | some (.text s) => some s
  | _ => none

/-- The version that the health endpoint reports. -/
def version : String := "0.1.0"

def reply (status : Nat) (body : Json) : Response := ⟨status, some body⟩

def problem (status : Nat) (detail : String) : Response :=
  reply status (.object [("detail", .text detail)])

def texts (items : List String) : Json := .array (items.map .text)

def statsJson (s : Stats) : Json :=
  .object [("started", .bool s.started), ("data_dir", .text s.dataDir),
    ("default_database", .text s.defaultDatabase),
    ("databases", .object ((s.databases.getD []).map fun (name, tables) =>
      (name, .object (tables.map fun (table, rows) => (table, .int rows)))))]

def resultJson (r : Result) : Json :=
  .object [("success", .bool r.succeeded), ("message", .text r.message),
    ("error_kind", match r.errorKind with
      | some kind => .text kind
      | none => .null),
    ("rows", .array (r.rows.map ResultRow.toJson)), ("columns", texts r.columns),
    ("affected_rows", .int r.affected)]

def rowJson (r : Row) : Json := .object (r.values.map fun (name, v) => (name, v.toJson))

/-- The answer to an error of the catalog, if it is one that the endpoint answers. -/
def catalogProblem? (answered : EngineError → Bool) (e : EngineError) : Option Response :=
  if answered e then
    match e with
    | .noDatabase _ | .noTable _ | .tableDropped _ => some (problem 404 e.message)
    | .databaseExists _ => some (problem 409 e.message)
    | _ => some (problem 400 e.message)
  else none

/-- The answer to a request to the catalog.  Failures other than those answered stay failures. -/
def catalog {α : Type} (answered : EngineError → Bool) (status : Nat) (x : Work Engine α)
    (body : α → Json) : Work Engine Response := do
  match ← x.outcome with
  | .ok a => return reply status (body a)
  | .error f =>
    let response? := match f with
      | .engine e => catalogProblem? answered e
      | _ => none
    match response? with
    | some r => return r
    | none => throw f

def isAbsence : EngineError → Bool
  | .noDatabase _ | .noTable _ | .tableDropped _ => true
  | _ => false

def isClash : EngineError → Bool
  | .databaseExists _ | .schema _ => true
  | _ => false

def runQuery (database? : Option String) (command : String) : Work Engine Response := do
  let e ← Work.state
  let name := match database? with
    | some "" | none => e.defaultDatabase
    | some name => name
  if !(← Engine.databases).contains name then
    return problem 404 (EngineError.noDatabase name).message
  let r ← Engine.execute command (some name)
  return reply (if r.succeeded then 200 else 400) (resultJson r)

/-- What an endpoint of a started engine answers. -/
def serve (r : Request) : Endpoint → Work Engine Response
  | .health => return reply 200 (.object [("status", .text "healthy"), ("version", .text version)])
  | .stats => return reply 200 (statsJson (← Engine.stats))
  | .databases => return reply 200 (texts (← Engine.databases))
  | .newDatabase name =>
    catalog isClash 201 (Engine.createDatabase name) fun _ =>
      .object [("database", .text name), ("message", .text s!"OK: Database '{name}' created")]
  | .tables database => catalog isAbsence 200 (Engine.tables database) texts
  | .rows database table =>
    catalog isAbsence 200 (Engine.rows database table) fun rows => .array (rows.map rowJson)
  | .query => runQuery r.database? (r.command?.getD "")

def answer (r : Request) : Work Engine Response := do
  match Endpoint.ofPath (pathOf r.path) with
  | none => return problem 404 "Not Found"
  | some e =>
    if e.method ≠ r.method then return problem 405 "Method Not Allowed"
    else if e = .query ∧ r.command?.isNone then return ⟨422, none⟩
    else if (← Work.state).started then serve r e
    else if e = .health then
      return reply 200 (.object [("status", .text "unhealthy"), ("version", .text version)])
    else return problem 503 "Engine not started"

end Http
end Tabulary
