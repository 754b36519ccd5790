import DataBinding.Json.Token

/-!
# Documents

A document as it is written, with the members of objects in order and repetitions kept. It is read from
tokens by a stack of the containers that are still open.
-/

namespace DataBinding.Json

inductive Document where
  | null
  | bool (b : Bool)
  | number (n : Option Number)
  | text (s : Option String)
  | array (items : List Document)
  | object (members : List (Option String × Document))

/-- An open container with what it holds so far, the last first. A member waits for its value. -/
inductive Frame where
  | items (done : List Document)
  | members (done : List (Option String × Document))
  | member (done : List (Option String × Document)) (key : Option String)

/-- What may come next. -/
inductive Reading where
  | value (stack : List Frame)
  /-- The first item of an array, or its end. -/
  | firstItem (stack : List Frame)
  /-- A key, or the end of the object where that is allowed. -/
  | key (done : List (Option String × Document)) (mayClose : Bool) (stack : List Frame)
  | colon (done : List (Option String × Document)) (key : Option String) (stack : List Frame)
  /-- A comma or the end of the innermost container. -/
  | afterValue (top : Frame) (stack : List Frame)
  | done (d : Document)

/-- Puts a finished value where the innermost open container waits for it. -/
def finish (d : Document) : List Frame → Reading
  | [] => .done d
  | .items ds :: stack => .afterValue (.items (d :: ds)) stack
  | .member ms key :: stack => .afterValue (.members ((key, d) :: ms)) stack
  | .members ms :: stack => .afterValue (.members ms) stack

/-- The first token of a value. -/
def startValue (stack : List Frame) : Token → Option Reading
  | .null => some (finish .null stack)
  | .bool b => some (finish (.bool b) stack)
  | .number n => some (finish (.number n) stack)
  | .text s => some (finish (.text s) stack)
  | .mark '[' => some (.firstItem stack)
  | .mark '\x7b' => some (.key [] true stack)
  | .mark _ => none

def Reading.step : Reading → Token → Option Reading
  | .value stack, t => startValue stack t
  | .firstItem stack, .mark ']' => some (finish (.array []) stack)
  | .firstItem stack, t => startValue (.items [] :: stack) t
  | .key ms _ stack, .text s => some (.colon ms s stack)
  | .key ms true stack, .mark '\x7d' => some (finish (.object ms.reverse) stack)
  | .colon ms name stack, .mark ':' => some (.value (.member ms name :: stack))
  | .afterValue (.items ds) stack, .mark ',' => some (.value (.items ds :: stack))
  | .afterValue (.items ds) stack, .mark ']' => some (finish (.array ds.reverse) stack)
  | .afterValue (.members ms) stack, .mark ',' => some (.key ms false stack)
  | .afterValue (.members ms) stack, .mark '\x7d' => some (finish (.object ms.reverse) stack)
  | _, _ => none

def Document.read? (s : String) : Option Document := do
  match (← (← tokens? s.toList).foldlM Reading.step (.value [])) with
  | .done d => some d
  | _ => none

end DataBinding.Json
