import Ambient.Json.Value
import Ambient.Kind

namespace Ambient

/-- Why a value is not what it should be. -/
inductive Issue where
  /-- There is no `Kind`, or it is not a natural number. -/
  | noKind
  /-- A number that is no kind. -/
  | unknownKind (code : Nat)
  /-- A kind that may not stand here. -/
  | unexpectedKind (kind : Kind) (expected : String)
  | missingField (name : String)
  | repeatedField (name : String)
  /-- A value of another type. -/
  | wrongType (found : Json) (expected : String)
  /-- An integer that is too small or too large. -/
  | outOfRange (value : Int) (expected : String)
  /-- An array with too few or too many items. -/
  | wrongLength (length : Nat) (expected : String)

/-- The text of an issue. -/
def Issue.message : Issue → String
  | .noKind => "node has no integer `Kind` field"
  | .unknownKind code => "unknown syntax kind " ++ toString code
  | .unexpectedKind kind expected => "kind " ++ kind.name ++ " is not a valid " ++ expected
  | .missingField name => "missing field `" ++ name ++ "`"
  | .repeatedField name => "duplicate field `" ++ name ++ "`"
  | .wrongType found expected => "invalid type: " ++ found.describe ++ ", expected " ++ expected
  | .outOfRange value expected =>
    "invalid value: integer `" ++ toString value ++ "`, expected " ++ expected
  | .wrongLength length expected =>
    "invalid length " ++ toString length ++ ", expected " ++ expected

end Ambient
