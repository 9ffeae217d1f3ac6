/-
  RecordQuery.Json.Value

  JSON values. The members of an object keep their order, and a number is an integer of 64 bits or
  the text of any other number.
-/

namespace RecordQuery

/-- The number of a JSON value. -/
inductive JsonNumber where
  /-- An integer written without fraction and exponent that has a signed or unsigned type. -/
  | integer (value : Int)
  /-- Any other number, as it is written. -/
  | other (text : String)
deriving DecidableEq, Repr

/-- A JSON value. -/
inductive Json where
  | null
  | bool (value : Bool)
  | number (value : JsonNumber)
  | string (value : String)
  | array (items : List Json)
  | object (members : List (String × Json))
deriving Repr

namespace Json

/-- The value of an integer. -/
def integer (n : Int) : Json :=
  .number (.integer n)

/-- A member that is left out with its value. -/
def optional (key : String) (value : Option Json) : List (String × Json) :=
  match value with
  | some j => [(key, j)]
  | none => []

end Json

end RecordQuery
