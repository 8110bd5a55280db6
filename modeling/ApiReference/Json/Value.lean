import ApiReference.Decimal.Binary64
import ApiReference.Text.Basic

/-! # JSON values

Values whose objects keep the order of their keys, and which tell whole numbers from
floating-point ones. -/

namespace ApiReference

/-- A JSON value. -/
inductive Json
  | null
  | bool (b : Bool)
  | int (n : Int)
  | float (x : Binary64)
  | str (x : Text)
  | arr (items : List Json)
  | obj (fields : List (Text × Json))
deriving Inhabited

namespace Json

/-- The value says nothing: null, false, zero, or empty. -/
def isVoid : Json → Bool
  | null => true
  | bool b => !b
  | int n => n == 0
  | float x => x.isZero
  | str x => x.isEmpty
  | arr items => items.isEmpty
  | obj fields => fields.isEmpty

/-- The value is that text. -/
def isText (x : Text) : Json → Bool
  | str y => y == x
  | _ => false

/-- The field of that name, if the value is an object that has it. -/
def field? (key : Text) : Json → Option Json
  | obj fields => fields.lookup key
  | _ => none

/-- Puts a field: in its old place if the key is there, else at the end. -/
def putField (key : Text) (value : Json) : List (Text × Json) → List (Text × Json)
  | [] => [(key, value)]
  | (k, v) :: more => if k == key then (k, value) :: more else (k, v) :: putField key value more

mutual

/-- How deeply values are nested. -/
def depth : Json → Nat
  | arr items => depthOfItems items + 1
  | obj fields => depthOfFields fields + 1
  | _ => 1

/-- The depth of the deepest item. -/
def depthOfItems : List Json → Nat
  | [] => 0
  | item :: more => max (depth item) (depthOfItems more)

/-- The depth of the deepest field. -/
def depthOfFields : List (Text × Json) → Nat
  | [] => 0
  | (_, value) :: more => max (depth value) (depthOfFields more)

end

end Json

end ApiReference
