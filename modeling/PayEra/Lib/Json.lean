import Mathlib.Data.Rat.Defs
import Mathlib.Data.Rat.Cast.Order

/-!
# JSON values

What a parser of JSON makes of a text, and how JavaScript reads it: its truth value, and its properties.
-/

inductive Json where
  | null
  | bool (b : Bool)
  | num (x : ℚ)
  | str (s : String)
  | arr (items : List Json)
  | obj (fields : List (String × Json))

namespace Json

/-- What a condition takes for true. -/
def truthy : Json → Bool
  | .null => false
  | .bool b => b
  | .num x => x ≠ 0
  | .str s => s ≠ ""
  | .arr _ | .obj _ => true

/-- `json === s`. -/
def isStr (s : String) : Json → Bool
  | .str t => t = s
  | _ => false

/-- `json.key`, where `none` stands for `undefined`. -/
def get (key : String) : Json → Except String (Option Json)
  | .null => .error "Cannot destructure property of null"
  | .obj fields => .ok (fields.lookup key)
  | _ => .ok none

/-- The braces around the text of an object. -/
def opening : String := "\x7b"

def closing : String := "\x7d"

end Json
