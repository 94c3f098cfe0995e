import Tabulary.Json.Check
import Tabulary.Json.Reader
import Tabulary.Keyed
import Tabulary.Telemetry.Event

/-!
Settings, taken from environment variables.  A variable names a section and a setting in it, or
holds a whole section as a JSON object; a single setting goes before what the object says.
-/

namespace Tabulary

/-- Whether each write is forced to the disk before it is reported. -/
inductive SyncMode where
  | fsync
  | none
deriving DecidableEq, Repr

def SyncMode.name : SyncMode → String
  | .fsync => "fsync"
  | .none => "none"

inductive LogFormat where
  | json
  | console
deriving DecidableEq, Repr

def LogFormat.name : LogFormat → String
  | .json => "json"
  | .console => "console"

structure Settings.Storage where
  dataDir : String := "data"
  syncMode : SyncMode := .fsync
deriving DecidableEq, Repr

structure Settings.Catalog where
  defaultDatabase : String := "default"
  seedDemoData : Bool := true
deriving DecidableEq, Repr

structure Settings.Server where
  host : String := "0.0.0.0"
  port : Int := 5220
  metricsPort : Int := 8001
deriving DecidableEq, Repr

structure Settings.Observability where
  logLevel : String := "INFO"
  logFormat : LogFormat := .json
  traceEndpoint : Option String := none
  serviceName : String := Event.service
deriving DecidableEq, Repr

structure Settings where
  storage : Settings.Storage
  catalog : Settings.Catalog
  server : Settings.Server
  observability : Settings.Observability
deriving DecidableEq, Repr

namespace Settings

/-- The form in which a path is kept: without empty names, single dots and a slash at the end.
Exactly two slashes at the front stay two. -/
def normalPath (s : String) : String :=
  let slashes := (s.toList.takeWhile (· = '/')).length
  let root := if slashes = 0 then "" else if slashes = 2 then "//" else "/"
  let names := (s.splitOn "/").filter fun name => name ≠ "" && name ≠ "."
  let text := root ++ "/".intercalate names
  if text = "" then "." else text

def checkPath (location : String) : Json → Checked String
  | .text s => .ok (normalPath s)
  | _ => Checked.fail location "path_type"

/-- One of some words, and what it stands for. -/
def checkChoice {α : Type} (choices : List (String × α)) (location : String) (v : Json) :
    Checked α :=
  let found := match v with
    | .text s => choices.lookup s
    | _ => none
  match found with
  | some a => .ok a
  | none => Checked.fail location "literal_error"

def checkName (location : String) : Json → Checked String
  | .text "" => Checked.fail location "string_too_short"
  | v => Json.checkText location v

def checkOptionalText (location : String) : Json → Checked (Option String)
  | .null => .ok none
  | v => (Json.checkText location v).map some

/-- The digits of a number with single underscores between them. -/
def groupedDigits? (cs : List Char) : Option (List Nat) :=
  let groups := (String.ofList cs).splitOn "_"
  if groups.any (·.isEmpty) then none
  else Text.Numeral.digits? (cs.filter (· ≠ '_'))

/-- The integer that a text of ASCII digits denotes.  Blanks around it, a sign, single underscores
between digits, and a point with zeros behind it are allowed. -/
def integer? (s : String) : Option Int :=
  let cs := Text.stripChars (fun c => Text.isBlank c && !(0x1C ≤ c.toNat && c.toNat ≤ 0x1F))
    s.toList
  if cs.any fun c => c.toNat ≥ 0x80 then none
  else
    let (negative, cs) := match cs with
      | '-' :: rest => (true, rest)
      | '+' :: rest => (false, rest)
      | cs => (false, cs)
    let (whole, point) := (cs.takeWhile (· ≠ '.'), cs.dropWhile (· ≠ '.'))
    if (point.drop 1).all (· = '0') then
      (groupedDigits? whole).map fun ds =>
        if negative then -(Text.ofDigits ds : Int) else Text.ofDigits ds
    else none

/-- The most bytes of a text that is read as a number. -/
def maxNumberText : Nat := 4300

def checkInteger (location : String) : Json → Checked Int
  | .int n => .ok n
  | .bool b => .ok (if b then 1 else 0)
  | .text s =>
    if maxNumberText < s.utf8ByteSize then Checked.fail location "int_parsing_size"
    else match integer? s with
      | some n => .ok n
      | none => Checked.fail location "int_parsing"
  | .decimal mantissa exponent =>
    match Json.integral mantissa exponent with
    | .ok n => .ok n
    | .error rule => Checked.fail location rule
  | .notANumber => Checked.fail location "finite_number"
  | _ => Checked.fail location "int_type"

def checkPort (location : String) (v : Json) : Checked Int := do
  let n ← checkInteger location v
  if n < 1 then Checked.fail location "greater_than_equal"
  else if 65535 < n then Checked.fail location "less_than_equal"
  else return n

def syncModes : List (String × SyncMode) := [.fsync, .none].map fun m => (m.name, m)

def logFormats : List (String × LogFormat) := [.json, .console].map fun f => (f.name, f)

def logLevels : List String := ["DEBUG", "INFO", "WARNING", "ERROR", "CRITICAL"]

def checkStorage : String → Json → Checked Storage := fun location =>
  Json.checkObject (fun v =>
    (Checked.both (Json.optional "data_dir" "data" checkPath location v)
      (Json.optional "sync_mode" .fsync (checkChoice syncModes) location v)).map
      fun (dataDir, syncMode) => { dataDir, syncMode }) location

def checkCatalog : String → Json → Checked Catalog := fun location =>
  Json.checkObject (fun v =>
    (Checked.both (Json.optional "default_database" "default" checkName location v)
      (Json.optional "seed_demo_data" true Json.checkBool location v)).map
      fun (defaultDatabase, seedDemoData) => { defaultDatabase, seedDemoData }) location

def checkServer : String → Json → Checked Server := fun location =>
  Json.checkObject (fun v =>
    (Checked.both (Json.optional "host" "0.0.0.0" Json.checkText location v)
      (Checked.both (Json.optional "port" 5220 checkPort location v)
        (Json.optional "metrics_port" 8001 checkPort location v))).map
      fun (host, port, metricsPort) => { host, port, metricsPort }) location

def checkObservability : String → Json → Checked Observability := fun location =>
  Json.checkObject (fun v =>
    (Checked.both
      (Json.optional "log_level" "INFO" (checkChoice (logLevels.map fun w => (w, w))) location v)
      (Checked.both (Json.optional "log_format" .json (checkChoice logFormats) location v)
        (Checked.both (Json.optional "otel_endpoint" none checkOptionalText location v)
          (Json.optional "otel_service_name" Event.service Json.checkText location v)))).map
      fun (logLevel, logFormat, traceEndpoint, serviceName) =>
        { logLevel, logFormat, traceEndpoint, serviceName }) location

/-- Sets the value at the end of a path of names, unless the path runs through a text. -/
def place : List String → String → List (String × Json) → List (String × Json)
  | [], _, fields => fields
  | [name], text, fields => Keyed.set name (.text text) fields
  | name :: rest, text, fields =>
    match fields.lookup name with
    | none => Keyed.set name (.object (place rest text [])) fields
    | some (.object inner) => Keyed.set name (.object (place rest text inner)) fields
    | some _ => fields

/-- What joins the names of a section and of a setting in it. -/
def separator : String := "__"

/-- The settings that single variables give to a section. -/
def ofVariables (environment : List (String × String)) (part : String) : List (String × Json) :=
  environment.foldl (fun fields (name, text) =>
    match name.splitOn separator with
    | first :: rest => if first = part then place rest text fields else fields
    | [] => fields) []

/-- The fields of the first object with those of the second over them. -/
def override (fields : List (String × Json)) : List (String × Json) → List (String × Json)
  | [] => fields
  | (name, .object new) :: rest =>
    match fields.lookup name with
    | some (.object old) =>
      override (Keyed.set name (.object (override old new)) fields) rest
    | _ => override (Keyed.set name (.object new) fields) rest
  | (name, v) :: rest => override (Keyed.set name v fields) rest

def sectionData? (environment : List (String × String)) (part : String) :
    Except Fault (Option Json) :=
  let single := ofVariables environment part
  match environment.reverse.lookup part with
  | none => .ok (if single.isEmpty then none else some (.object single))
  | some text =>
    match Json.read? text with
    | none => .error .badSetting
    | some .null => .ok none
    | some (.object fields) =>
      .ok (some (.object (override (fields.foldl (fun fs f => Keyed.set f.1 f.2 fs) []) single)))
    | some v => .ok (some v)

/-- A section by its check, or the defaults where there is no data for it. -/
def checkSection {α : Type} (part : String) (default : α)
    (check : String → Json → Checked α) : Option Json → Checked α
  | none => .ok default
  | some v => check part v

/-- The front of the names of the variables that hold settings. -/
def variableStem : String := "mini_rdbms_"

def names : List (String × List String) :=
  [("storage", ["data_dir", "sync_mode"]), ("catalog", ["default_database", "seed_demo_data"]),
    ("server", ["host", "port", "metrics_port"]),
    ("observability", ["log_level", "log_format", "otel_endpoint", "otel_service_name"])]

/-- The variables of all settings, in capitals. -/
def variableNames : List String :=
  names.flatMap fun (part, settings) =>
    (part :: settings.map fun name => part ++ separator ++ name).map fun name =>
      Text.capitals (variableStem ++ name)

/-- The names after their front, in lower case.  Of several that agree the last counts. -/
def relevant (environment : List (String × String)) : List (String × String) :=
  environment.foldl (fun found (name, text) =>
    let name := name.toList.map Char.toLower
    if variableStem.toList.isPrefixOf name then
      Keyed.set (String.ofList (name.drop variableStem.length)) text found
    else found) []

def ofEnvironment (environment : List (String × String)) : Except Fault Settings := do
  let environment := relevant environment
  let storage ← sectionData? environment "storage"
  let catalog ← sectionData? environment "catalog"
  let server ← sectionData? environment "server"
  let observability ← sectionData? environment "observability"
  let checked := Checked.both (checkSection "storage" {} checkStorage storage)
    (Checked.both (checkSection "catalog" {} checkCatalog catalog)
      (Checked.both (checkSection "server" {} checkServer server)
        (checkSection "observability" {} checkObservability observability)))
  let (storage, catalog, server, observability) ← checked.result
  return ⟨storage, catalog, server, observability⟩

def shows (s : Settings) (level : Level) : Bool :=
  logLevels.idxOf s.observability.logLevel ≤ logLevels.idxOf (Text.capitals level.name)

def toJson (s : Settings) : Json :=
  .object
    [("storage", .object [("data_dir", .text s.storage.dataDir),
        ("sync_mode", .text s.storage.syncMode.name)]),
      ("catalog", .object [("default_database", .text s.catalog.defaultDatabase),
        ("seed_demo_data", .bool s.catalog.seedDemoData)]),
      ("server", .object [("host", .text s.server.host), ("port", .int s.server.port),
        ("metrics_port", .int s.server.metricsPort)]),
      ("observability", .object [("log_level", .text s.observability.logLevel),
        ("log_format", .text s.observability.logFormat.name),
        ("otel_endpoint", match s.observability.traceEndpoint with
          | some e => .text e
          | none => .null),
        ("otel_service_name", .text s.observability.serviceName)])]

end Settings
end Tabulary
