import Mathlib

namespace Json

/-- A JSON value; an object lists its fields. -/
inductive Value
  | null
  | str (s : String)
  | arr (items : List Value)
  | obj (fields : List (String × Value))

namespace Value

def field? : Value → String → Option Value
  | .obj fields, key => fields.lookup key
  | _, _ => none

def push : Value → Value → Value
  | .arr items, item => .arr (items ++ [item])
  | v, _ => v

/-- Appends to the array that is the field `key`. -/
def pushTo : Value → String → Value → Value
  | .obj fields, key, item =>
    .obj (fields.map fun f => if f.1 = key then (f.1, f.2.push item) else f)
  | v, _, _ => v

def remove : Value → String → Value
  | .obj fields, key => .obj (fields.filter fun f => f.1 ≠ key)
  | v, _ => v

def isEmptyArray : Value → Bool
  | .arr [] => true
  | _ => false

end Value
end Json
