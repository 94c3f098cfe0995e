import Tabulary.Text.Order

/-!
Counts of what the engine did.
-/

namespace Tabulary

/-- What is counted, with the labels that tell the counts of one kind apart. -/
inductive Counter where
  | commands (type : String) (success : Bool)
  | latencies (type : String)
  | lookups (table : String)
  | scans (table : String)
  | written (table : String)
deriving DecidableEq, Repr

namespace Counter

def name : Counter → String
  | commands _ _ => "rdbms_commands_total"
  | latencies _ => "rdbms_command_latency_seconds_count"
  | lookups _ => "rdbms_index_lookups_total"
  | scans _ => "rdbms_full_scans_total"
  | written _ => "rdbms_records_written_total"

def labels : Counter → List (String × String)
  | commands type success =>
    [("command_type", type), ("status", if success then "success" else "error")]
  | latencies type => [("command_type", type)]
  | lookups table | scans table | written table => [("table", table)]

end Counter

structure Metrics where
  counts : List (Counter × Nat)
  openTables : Int
deriving Repr

structure Sample where
  name : String
  labels : List (String × String)
  value : Int
deriving DecidableEq, Repr

namespace Metrics

def zero : Metrics := ⟨[], 0⟩

def increment (c : Counter) : List (Counter × Nat) → List (Counter × Nat)
  | [] => [(c, 1)]
  | (d, n) :: rest => if c = d then (d, n + 1) :: rest else (d, n) :: increment c rest

def count (m : Metrics) (c : Counter) : Metrics := { m with counts := increment c m.counts }

/-- The words by which samples are ordered. -/
def sortKey (s : Sample) : List String := s.name :: s.labels.flatMap fun l => [l.1, l.2]

/-- All counts, and the number of open tables, by name and then by labels. -/
def samples (m : Metrics) : List Sample :=
  (⟨"rdbms_tables_open", [], m.openTables⟩ ::
    m.counts.map fun (c, n) => ⟨c.name, c.labels, n⟩).mergeSort fun a b =>
      Text.inOrder (sortKey a) (sortKey b)

end Metrics
end Tabulary
