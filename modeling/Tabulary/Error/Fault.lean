import Tabulary.Error.Engine

/-!
Everything that can stop an operation: a recoverable engine error, a damaged table file, a refusal
of the file system, a value that has no encoding, data that does not validate, or a call out of
turn.
-/

namespace Tabulary

/-- Why the bytes at a position of a table file are no record. -/
inductive RecordError where
  /-- The bytes end inside a record: of `expected` bytes only `found` are there. -/
  | truncated (expected found : Nat)
  /-- There are no bytes at all. -/
  | nothing
  | unknownFlag (flag offset : Nat)
  | notUtf8 (column : String) (offset : Nat)
deriving DecidableEq, Repr

namespace RecordError

def message : RecordError → String
  | truncated expected found => s!"Expected {expected} bytes, got {found}"
  | nothing => "Empty record buffer"
  | unknownFlag flag offset => s!"Unknown record flag {flag} at offset {offset}"
  | notUtf8 column offset => s!"Column '{column}' at offset {offset} is not valid UTF-8"

/-- A file that ends too early is truncated; any other fault is corruption. -/
def isTruncation : RecordError → Bool
  | truncated _ _ | nothing => true
  | unknownFlag _ _ | notUtf8 _ _ => false

end RecordError

inductive Refusal where
  | missing
  | alreadyExists
  | notDirectory
  | isDirectory
  | nameTooLong
  | notEmpty
deriving DecidableEq, Repr

namespace Refusal

def code : Refusal → Nat
  | missing => 2
  | alreadyExists => 17
  | notDirectory => 20
  | isDirectory => 21
  | nameTooLong => 36
  | notEmpty => 39

def text : Refusal → String
  | missing => "No such file or directory"
  | alreadyExists => "File exists"
  | notDirectory => "Not a directory"
  | isDirectory => "Is a directory"
  | nameTooLong => "File name too long"
  | notEmpty => "Directory not empty"

/-- The message about the path `path`, or about moving it to `target`. -/
def message (r : Refusal) (path : String) (target : Option String) : String :=
  "[Errno " ++ toString r.code ++ "] " ++ r.text ++ ": " ++ Text.quoted path ++
    match target with
    | none => ""
    | some t => " -> " ++ Text.quoted t

end Refusal

/-- Why a disk refuses to write to an open file, to cut it or to force it out. -/
inductive DiskFault where
  | inputOutput
  | tooLarge
  | noSpace
  | overQuota
deriving DecidableEq, Repr

namespace DiskFault

def code : DiskFault → Nat
  | inputOutput => 5
  | tooLarge => 27
  | noSpace => 28
  | overQuota => 122

def text : DiskFault → String
  | inputOutput => "Input/output error"
  | tooLarge => "File too large"
  | noSpace => "No space left on device"
  | overQuota => "Disk quota exceeded"

/-- The message names no file. -/
def message (why : DiskFault) : String := "[Errno " ++ toString why.code ++ "] " ++ why.text

end DiskFault

/-- One rule that a piece of data breaks, and the place where it does. -/
structure Complaint where
  location : String
  rule : String
deriving DecidableEq, Repr

inductive LockMode where
  | shared
  | exclusive
deriving DecidableEq, Repr

inductive Fault where
  | engine (e : EngineError)
  | record (e : RecordError)
  | refused (why : Refusal) (path : String) (target : Option String)
  | disk (why : DiskFault)
  | tableClosed (table : String)
  /-- A numeral of more digits than are read. -/
  | digitLimit (digits : Nat)
  /-- An integer of more digits than are written. -/
  | unwritten
  | nulInPath
  /-- A value that has no form as a 64-bit integer. -/
  | notInteger
  /-- A value that has no form as a text. -/
  | notText
  | noColumn (name : String)
  | noOffset (id : Value)
  | noResultColumn (name : String)
  | noPosition
  | notUtf8
  | invalid (complaints : List Complaint)
  | badSetting
  | engineStarted
  | engineStopped
  | seeding (command message : String)
  | lockTimeout (mode : LockMode)
  | lockNotHeld (mode : LockMode)
deriving DecidableEq, Repr

namespace Fault

/-- What comes of raising an error.  Its message is written at once, and where it is to show an
integer that is too long to be written, that is the failure. -/
def raised (e : EngineError) : Fault :=
  if e.value?.all Value.writable then engine e else unwritten

def label : Fault → String
  | engine e => e.kind
  | record e => if e.isTruncation then "TruncatedRecordError" else "CorruptRecordError"
  | refused _ _ _ | disk _ | tableClosed _ => "OSError"
  | digitLimit _ | unwritten | nulInPath => "ValueError"
  | notInteger => "error"
  | notText => "AttributeError"
  | noColumn _ | noOffset _ | noResultColumn _ => "KeyError"
  | noPosition => "IndexError"
  | notUtf8 => "UnicodeDecodeError"
  | invalid _ => "ValidationError"
  | badSetting => "SettingsError"
  | engineStarted | engineStopped | seeding _ _ | lockNotHeld _ => "RuntimeError"
  | lockTimeout _ => "LockTimeoutError"

/-- What is said of an integer that is too long to be read or written. -/
def digitLimitText (detail : String) : String :=
  s!"Exceeds the limit ({Text.maxDigits} digits) for integer string conversion{detail}; " ++
    "use sys.set_int_max_str_digits() to increase the limit"

/-- The text of a failure; some have none of their own. -/
def message? : Fault → Option String
  | engine e => some e.message
  | record e => some e.message
  | refused why path target => some (why.message path target)
  | disk why => some why.message
  | tableClosed table => some s!"Row store for table '{table}' is closed"
  | digitLimit digits => some (digitLimitText s!": value has {digits} digits")
  | unwritten => some (digitLimitText "")
  | nulInPath => some "embedded null byte"
  | noColumn name => some name
  | noOffset id => some id.plain
  | noResultColumn name => some s!"Column '{name}' not found"
  | noPosition => some "list index out of range"
  | engineStarted => some "Database engine already started"
  | engineStopped => some "Database engine not started"
  | seeding command message => some s!"Failed to seed demo data ({command}): {message}"
  | lockTimeout .shared => some "Timed out waiting for shared lock"
  | lockTimeout .exclusive => some "Timed out waiting for exclusive lock"
  | lockNotHeld .shared => some "Shared lock released but not held"
  | lockNotHeld .exclusive => some "Exclusive lock released but not held"
  | notInteger | notText | notUtf8 | invalid _ | badSetting => none

theorem raised_of_writable {e : EngineError} (h : e.value?.all Value.writable = true) :
    raised e = engine e := if_pos h

/-- An error is raised as itself unless its message is to show an integer that is too long. -/
theorem raised_cases (e : EngineError) :
    raised e = engine e ∨
      ∃ n, e.value? = some (.int n) ∧ Text.maxDigits < (Nat.toDigits 10 n.natAbs).length ∧
        raised e = unwritten := by
  by_cases h : e.value?.all Value.writable = true
  · exact .inl (raised_of_writable h)
  · right
    cases hv : e.value? with
    | none =>
      rw [hv] at h
      exact absurd rfl h
    | some v =>
      rw [hv, Option.all_some] at h
      cases v with
      | int n =>
        exact ⟨n, rfl, by simpa [Value.writable, Text.writable] using h,
          if_neg (by simpa [hv] using h)⟩
      | text _ | bool _ | null => exact absurd rfl h

def isFileFailure : Fault → Bool
  | refused _ _ _ | disk _ | tableClosed _ => true
  | _ => false

/-- Whether a failure is one of storage: the file system refuses, or a file is damaged. -/
def isStorageFailure : Fault → Bool
  | record _ => true
  | e => e.isFileFailure

end Fault
end Tabulary
