import Tabulary.Store.Disk
import Tabulary.World

/-!
A table with the file that holds its rows.  Inserting appends a record, deleting sets the flag of a
record in place, and replacing does both.  The index is never written: opening a table reads the
file from its start, and cuts off a last record that is incomplete.
-/

namespace Tabulary

structure Store where
  table : Table
  path : Path
  /-- The open file; a closed store has none. -/
  handle : Option Handle
  dropped : Bool
deriving Repr

namespace Store

def schema (s : Store) : Schema := s.table.schema

def index (s : Store) : Index := s.table.index

def rowCount (s : Store) : Nat := s.table.rowCount

def log (level : Level) (name : String) (fields : List (String × Json)) : Work Store Unit := do
  Work.log level name (("table", .text (← Work.state).schema.name) :: fields)

def ensureOpen : Work Store Handle := do
  let s ← Work.state
  if s.dropped then throw (.engine (.tableDropped s.schema.name))
  match s.handle with
  | some h => return h
  | none => throw (.tableClosed s.schema.name)

def setHandle (h : Handle) : Work Store Unit := do
  Work.setState { ← Work.state with handle := some h }

def fileBytes (h : Handle) : Work Store Bytes := do return (← Work.world).files.nodeBytes h.node

/-- Writes to the open file, past its window. -/
def writeFile (h : Handle) (bytes : Bytes) : Work Store Unit := do
  Work.changeWorld fun w => { w with files := w.files.setNode h.node bytes }
  setHandle h.discard

/-- Reads the records again and replaces the index.  Bytes after the last complete record are cut
off; a damaged record is a failure and leaves the file and the index alone. -/
def rebuild : Work Store Unit := do
  let h ← ensureOpen
  let s ← Work.state
  let file ← fileBytes h
  let found := Record.scan s.schema none ⟨0, h.view file 0⟩
  match found.corruption with
  | some e =>
    setHandle (h.advance file 0 found.cursor.position)
    throw (.record e)
  | none =>
    setHandle h.discard
    let path ← Work.pathText s.path
    if found.stop < file.length then
      log .warning "torn_tail_truncated"
        [("path", .text path), ("valid_bytes", .int found.stop),
          ("discarded_bytes", .int (file.length - found.stop : Nat))]
      writeFile h (file.take found.stop)
    Work.setState { ← Work.state with
      table := { s.table with index := Index.ofRecords s.schema found.records } }
    let live := found.liveRows.length
    log .info "index_rebuilt"
      [("path", .text path), ("live_rows", .int live),
        ("tombstoned_rows", .int (found.records.length - live : Nat)),
        ("bytes", .int found.stop)]

/-- Opens a table's file, made empty if it is not there, and reads its index. -/
def openFile {σ : Type} (schema : Schema) (path : Path) : Work σ Store := do
  Work.ensureDirectory path.dropLast
  if !(← Work.query fun fs => fs.isThere path) then
    Work.change fun fs => (fs.create path).map (·.2)
  let node ← Work.query fun fs => fs.openFile path
  Work.addOpenTables 1
  let (result, s) ←
    Work.beside ⟨Table.empty schema, path, some ⟨node, none⟩, false⟩ rebuild
  match result with
  | .ok () => return s
  | .error e =>
    Work.addOpenTables (-1)
    throw e

/-- The stored row of this key, read through the open file. -/
def readLive (h : Handle) (id : Value) : Work Store Row := do
  let s ← Work.state
  match s.index.offset? id with
  | none => throw (.raised (.noRecord id))
  | some offset =>
    let file ← fileBytes h
    let (result, stop) := (Record.Decoder.record s.schema).run ⟨offset, h.view file offset⟩
    match result with
    | .ok none =>
      setHandle h.discard
      throw (.raised (.noRecord id))
    | .ok (some r) =>
      setHandle (h.advance file offset stop.position)
      if r.isLive then return r.row else throw (.raised (.noRecord id))
    | .error e =>
      setHandle (if e.isTruncation then h.discard else h.advance file offset stop.position)
      throw (.record e)

/-- Writes a change and takes over its table. -/
def commit (h : Handle) (c : Change) : Work Store Unit := do
  let file ← fileBytes h
  writeFile h (Patch.applyAll c.patches file)
  Work.setState { ← Work.state with table := c.table }

/-- Writes a change on a disk that may refuse, and takes over its table once all is written.  What
then still waits in the buffer is not followed any further. -/
def commitOn (disk : Disk) (h : Handle) (c : Change) : Work Store Unit := do
  let file ← fileBytes h
  let (result, draft) := (Draft.commit (← Work.state).index.stop c.patches).run
    (.ofFile disk file)
  writeFile h draft.file
  match result with
  | .ok () => Work.setState { ← Work.state with table := c.table }
  | .error why => throw (.disk why)

/-- Forces out what an open file holds. -/
def syncOn (disk : Disk) : Work Store Unit :=
  match (Draft.sync.run (.ofFile disk [])).1 with
  | .ok () => pure ()
  | .error why => throw (.disk why)

def countWrite : Work Store Unit := do
  Work.count (.written (← Work.state).schema.name)

/-! The operations that change a row are the same on every disk but for the way a change is
written. -/

def insertWith (write : Handle → Change → Work Store Unit) (r : Row) : Work Store Unit := do
  Attempt.ofExcept (Table.checkRow (← Work.state).schema r)
  let h ← ensureOpen
  let c ← Attempt.ofExcept ((← Work.state).table.add r)
  write h c
  countWrite
  log .debug "row_inserted" [("id", r.id.toJson), ("offset", .int c.newOffset)]

def deleteWith (write : Handle → Change → Work Store Unit) (id : Value) : Work Store Unit := do
  let h ← ensureOpen
  let existing ← readLive h id
  let h ← ensureOpen
  let c ← Attempt.ofExcept ((← Work.state).table.delete existing)
  write h c
  log .debug "row_deleted" [("id", id.toJson), ("offset", .int c.oldOffset)]

/-- Puts a row in the place of a stored one. -/
def replaceWith (write : Handle → Change → Work Store Unit) (existing r : Row) :
    Work Store Unit := do
  let h ← ensureOpen
  let c ← Attempt.ofExcept ((← Work.state).table.replace existing r)
  write h c
  countWrite
  log .debug "row_updated"
    [("id", r.id.toJson), ("old_offset", .int c.oldOffset), ("offset", .int c.newOffset)]

def updateWith (write : Handle → Change → Work Store Unit) (r : Row) : Work Store Unit := do
  Attempt.ofExcept (Table.checkRow (← Work.state).schema r)
  let h ← ensureOpen
  let existing ← readLive h r.id
  replaceWith write existing r

/-- Changes some values of the row of this key, and gives the row as it was written. -/
def updateValuesWith (write : Handle → Change → Work Store Unit) (id : Value)
    (changes : List (String × Value)) : Work Store Row := do
  let h ← ensureOpen
  let existing ← readLive h id
  let r ← Attempt.ofExcept ((← Work.state).table.merge existing changes)
  replaceWith write existing r
  return r

/-- Closes the file, once it is forced out; a closed store stays closed. -/
def closeWith (sync : Work Store Unit) : Work Store Unit := do
  let s ← Work.state
  match s.handle with
  | none => pure ()
  | some _ =>
    sync
    Work.setState { s with handle := none }
    Work.addOpenTables (-1)

def insert : Row → Work Store Unit := insertWith commit

def delete : Value → Work Store Unit := deleteWith commit

def replace : Row → Row → Work Store Unit := replaceWith commit

def update : Row → Work Store Unit := updateWith commit

def updateValues : Value → List (String × Value) → Work Store Row := updateValuesWith commit

def close : Work Store Unit := closeWith (pure ())

def select (id : Value) : Work Store (Option Row) := do
  let _ ← ensureOpen
  let s ← Work.state
  Work.count (.lookups s.schema.name)
  match s.index.offset? id with
  | none => return none
  | some offset =>
    let file ← Work.query fun fs => fs.read s.path
    match ((Record.Decoder.record s.schema).run ⟨offset, file.drop offset⟩).1 with
    | .ok (some r) => return if r.isLive then some r.row else none
    | .ok none => return none
    | .error e => throw (.record e)

/-- All rows, in the order of their records. -/
def selectAll : Work Store (List Row) := do
  let _ ← ensureOpen
  let s ← Work.state
  Work.count (.scans s.schema.name)
  let file ← Work.query fun fs => fs.read s.path
  let found := Record.scan s.schema (some s.index.stop) ⟨0, file⟩
  match found.corruption with
  | some e => throw (.record e)
  | none => return found.liveRows

def drop : Work Store Unit := do
  let s ← Work.state
  if s.dropped then throw (.engine (.tableDropped s.schema.name))
  close
  Work.change fun fs => fs.removeIfThere s.path
  Work.setState { ← Work.state with table := Table.empty s.schema, dropped := true }
  log .info "table_file_deleted" [("path", .text (← Work.pathText s.path))]

/-- The values in use in a unique column. -/
def uniqueValues (s : Store) (column : String) : Except Fault ValueSet :=
  match s.index.used.lookup column with
  | some values => .ok values
  | none => .error (.noColumn column)

def describe (s : Store) (anchor : String) : String :=
  "FileRowStore(table=" ++ Text.quoted s.schema.name ++ ", path=" ++
    Text.quoted (s.path.text anchor) ++ ")"

end Store
end Tabulary
