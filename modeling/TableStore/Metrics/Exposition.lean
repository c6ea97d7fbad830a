import TableStore.Metrics.Basic
import TableStore.Decimal.Shortest

/-!
# Metrics as text

One family a metric, in the order of the names: a line of help, a line with the type,
and the samples. A number passes through a double on its way to the text. A histogram
has one sample for each bound, counting the durations up to it, then the sum in
seconds and the count.
-/

namespace TableStore.Metrics

/-- The beginning of every family's name. -/
def familySpace : String := "nova_store_"

/-- The bounds of a histogram in microseconds, and as text in seconds. -/
def bounds : List (Nat × String) :=
  [(100, "0.0001"), (500, "0.0005"), (1000, "0.001"), (5000, "0.005"), (10000, "0.01"),
    (50000, "0.05"), (100000, "0.1"), (500000, "0.5"), (1000000, "1"), (5000000, "5")]

/-- A total as text. It is kept in sixty-four bits and written as a double. -/
def showTotal (n : Nat) : String := (Decimal.Shortest.of (UInt64.ofNat n).toFloat).positional

/-- A gauge as text. -/
def showGauge (n : Int) : String := (Decimal.Shortest.of (Float.ofInt n)).positional

def showSeconds (micros : Nat) : String :=
  (Decimal.Shortest.of (micros.toFloat / 1000000)).positional

/-- The value of a family. -/
inductive Sample where
  | counter (n : Nat)
  | gauge (n : Int)
  | histogram (h : Histogram)

/-- The type of a family. -/
def Sample.type : Sample → String
  | counter _ => "counter"
  | gauge _ => "gauge"
  | histogram _ => "histogram"

def Sample.lines (name : String) : Sample → List String
  | counter n => [name ++ " " ++ showTotal n]
  | gauge n => [name ++ " " ++ showGauge n]
  | histogram h =>
    bounds.map (fun b =>
        name ++ "_bucket\x7ble=\"" ++ b.2 ++ "\"\x7d " ++ showTotal (h.upTo b.1))
      ++ [name ++ "_bucket\x7ble=\"+Inf\"\x7d " ++ showTotal h.count,
        name ++ "_sum " ++ showSeconds h.sum,
        name ++ "_count " ++ showTotal h.count]

/-- A metric with its name and what it is. -/
structure Family where
  name : String
  help : String
  sample : Sample

/-- The families in the order of their names. -/
def families (m : Metrics) : List Family :=
  [⟨familySpace ++ "commit_duration_seconds", "Time spent writing commit batches",
      .histogram m.commitDuration⟩,
    ⟨familySpace ++ "commit_failures_total", "Commits whose batch write failed",
      .counter m.failures⟩,
    ⟨familySpace ++ "commits_total", "Committed transactions", .counter m.commits⟩,
    ⟨familySpace ++ "rollbacks_total", "Rolled back transactions", .counter m.rollbacks⟩,
    ⟨familySpace ++ "rows_deleted_total", "Physical rows deleted by commits",
      .counter m.deleted⟩,
    ⟨familySpace ++ "rows_written_total", "Physical rows put by commits", .counter m.written⟩,
    ⟨familySpace ++ "tables", "Registered tables", .gauge m.tables⟩,
    ⟨familySpace ++ "writer_wait_seconds", "Time spent waiting for the writer lock",
      .histogram m.writerWait⟩]

def Family.lines (f : Family) : List String :=
  ["# HELP " ++ f.name ++ " " ++ f.help, "# TYPE " ++ f.name ++ " " ++ f.sample.type]
    ++ f.sample.lines f.name

def lines (m : Metrics) : List String := m.families.flatMap Family.lines

/-- All metrics as text, each line ended. -/
def exposition (m : Metrics) : String := String.join (m.lines.map (· ++ "\n"))

end TableStore.Metrics
