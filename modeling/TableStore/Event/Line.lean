import TableStore.Event.Basic
import TableStore.Json.Text

/-!
# Log lines

An event as one line of a log, in either form. Times are left to whoever writes it.
-/

namespace TableStore

def FieldValue.toJson : FieldValue → Json.Printed
  | number n => .number n
  | text s => .text s

/-- The content of a field for readers. -/
def FieldValue.plain : FieldValue → String
  | number n => toString n
  | text s => s

def Event.line (format : LogFormat) (e : Event) : String :=
  match format with
  | .json =>
    (Json.Printed.object
      [("level", .text e.level.name),
        ("fields", .object
          (("message", .text e.message) :: e.fields.map (fun f => (f.1, f.2.toJson)))),
        ("target", .text e.target)]).render ++ "\n"
  | .pretty =>
    e.level.name ++ " " ++ e.target ++ ": "
      ++ String.intercalate " " (e.message :: e.fields.map (fun f => f.1 ++ "=" ++ f.2.plain))
      ++ "\n"

end TableStore
