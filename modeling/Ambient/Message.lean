namespace Ambient

/-- How serious a diagnostic is. -/
inductive Severity where
  | warning | error | suggestion | message
deriving DecidableEq

def Severity.render : Severity → String
  | .warning => "warning"
  | .error => "error"
  | .suggestion => "suggestion"
  | .message => "message"

/-- What a diagnostic can say. -/
inductive Message where
  | unterminatedString | identifierExpected | tokenExpected | commentEndExpected
  | unexpectedToken | restParameterNotLast | indexTypeMissing | indexParameterTypeMissing
  | modifierRepeated | modifierMisplaced | restParameterOptional | enumValueNotConstant
  | classMemberExpected | modifierOnTypeMember
  | typeExpected | digitExpected | hexDigitExpected | invalidCharacter | statementExpected
  | typeMemberExpected | enumMemberExpected | variableExpected | parameterExpected
  | typeParameterExpected | typeArgumentExpected | stringExpected
  | fileUnreadable | fileNotFound | errorsFound
deriving DecidableEq

namespace Message

/-- The number shown behind `TS`. -/
def code : Message → Nat
  | .unterminatedString => 1002
  | .identifierExpected => 1003
  | .tokenExpected => 1005
  | .commentEndExpected => 1010
  | .unexpectedToken => 1012
  | .restParameterNotLast => 1014
  | .indexTypeMissing => 1021
  | .indexParameterTypeMissing => 1022
  | .modifierRepeated => 1030
  | .modifierMisplaced => 1042
  | .restParameterOptional => 1047
  | .enumValueNotConstant => 1066
  | .classMemberExpected => 1068
  | .modifierOnTypeMember => 1070
  | .typeExpected => 1110
  | .digitExpected => 1124
  | .hexDigitExpected => 1125
  | .invalidCharacter => 1127
  | .statementExpected => 1128
  | .typeMemberExpected => 1131
  | .enumMemberExpected => 1132
  | .variableExpected => 1134
  | .parameterExpected => 1138
  | .typeParameterExpected => 1139
  | .typeArgumentExpected => 1140
  | .stringExpected => 1141
  | .fileUnreadable => 5012
  | .fileNotFound => 6053
  | .errorsFound => 6194

def severity : Message → Severity
  | .errorsFound => .message
  | _ => .error

def template : Message → String
  | .unterminatedString => "Unterminated string literal."
  | .identifierExpected => "Identifier expected."
  | .tokenExpected => "'\x7b0\x7d' expected."
  | .commentEndExpected => "'*/' expected."
  | .unexpectedToken => "Unexpected token."
  | .restParameterNotLast => "A rest parameter must be last in a parameter list."
  | .indexTypeMissing => "An index signature must have a type annotation."
  | .indexParameterTypeMissing => "An index signature parameter must have a type annotation."
  | .modifierRepeated => "'\x7b0\x7d' modifier already seen."
  | .modifierMisplaced => "'\x7b0\x7d' modifier cannot be used here."
  | .restParameterOptional => "A rest parameter cannot be optional."
  | .enumValueNotConstant =>
    "In ambient enum declarations member initializer must be constant expression."
  | .classMemberExpected =>
    "Unexpected token. A constructor, method, accessor, or property was expected."
  | .modifierOnTypeMember => "'\x7b0\x7d' modifier cannot appear on a type member."
  | .typeExpected => "Type expected."
  | .digitExpected => "Digit expected."
  | .hexDigitExpected => "Hexadecimal digit expected."
  | .invalidCharacter => "Invalid character."
  | .statementExpected => "Declaration or statement expected."
  | .typeMemberExpected => "Property or signature expected."
  | .enumMemberExpected => "Enum member expected."
  | .variableExpected => "Variable declaration expected."
  | .parameterExpected => "Parameter declaration expected."
  | .typeParameterExpected => "Type parameter declaration expected."
  | .typeArgumentExpected => "Type argument expected."
  | .stringExpected => "String literal expected."
  | .fileUnreadable => "Cannot read file '\x7b0\x7d': \x7b1\x7d."
  | .fileNotFound => "File '\x7b0\x7d' not found."
  | .errorsFound => "Found \x7b0\x7d errors."

/-- Drops `skip` characters, then puts `value` in place of every `pattern`, from left to right. -/
def replaceFrom (pattern value : List Char) : Nat → List Char → List Char
  | _, [] => []
  | skip + 1, _ :: cs => replaceFrom pattern value skip cs
  | 0, c :: cs =>
    if pattern.isPrefixOf (c :: cs) then
      value ++ replaceFrom pattern value (pattern.length - 1) cs
    else c :: replaceFrom pattern value 0 cs

/-- The placeholder with number `i`. -/
def placeholder (i : Nat) : List Char := ('{' :: (toString i).toList) ++ ['}']

/-- Substitutes the arguments one after another, each into the outcome of the one before. -/
def fill (template : String) (arguments : List String) : String :=
  String.ofList <| (arguments.zipIdx).foldl
    (fun text (argument, i) => replaceFrom (placeholder i) argument.toList 0 text)
    template.toList

/-- The text of a message with its arguments. -/
def text (m : Message) (arguments : List String) : String := fill m.template arguments

end Message

end Ambient
