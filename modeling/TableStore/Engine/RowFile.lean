import TableStore.Engine.Batch
import TableStore.Text.Hex

/-!
# Rows as text

The rows of an engine as lines, one a row: the key and the value in hexadecimal with a
tab between them. It is how rows outlive the program.
-/

namespace TableStore.RowFile

def line (key value : Bytes) : String := Hex.encode key ++ "\t" ++ Hex.encode value ++ "\n"

/-- Rows as text. -/
def render (rows : Rows) : String := String.join (rows.toList.map (fun e => line e.1 e.2))

/-- The row of a line, if it is one. -/
def readLine? (text : String) : Option (Bytes × Bytes) :=
  match text.splitOn "\t" with
  | [key, value] =>
    match Hex.decode key, Hex.decode value with
    | .ok key, .ok value => some (key, value)
    | _, _ => none
  | _ => none

/-- The rows of a text, if every line of it is one. -/
def parse? (text : String) : Option Rows :=
  (((text.splitOn "\n").filter (· ≠ "")).mapM readLine?).map SortedMap.ofList

end TableStore.RowFile
