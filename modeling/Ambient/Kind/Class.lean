import Ambient.Kind

namespace Ambient.Kind

/-- Whether the number of `k` lies between those of `first` and `last`, both included. -/
def between (k first last : Kind) : Bool :=
  first.code ≤ k.code && k.code ≤ last.code

def isAnyKeyword (k : Kind) : Bool := k.between .breakKeyword .ofKeyword

/-- A keyword that can never be used as a name. -/
def isReservedWord (k : Kind) : Bool := k.between .breakKeyword .withKeyword

def isPunctuation (k : Kind) : Bool := k.between .openBraceToken .caretEqualsToken

def isLiteral (k : Kind) : Bool := k.between .numericLiteral .noSubstitutionTemplateLiteral

def isTrivia (k : Kind) : Bool := k.between .singleLineCommentTrivia .nonTextFileMarkerTrivia

def isTypeNode (k : Kind) : Bool := k.between .typePredicate .importType

/-- Whether a token of kind `k` can be a declared name: an identifier or a keyword that is not
reserved. -/
def isName (k : Kind) : Bool := k = .identifier || (k.isAnyKeyword && !k.isReservedWord)

/-- Whether a token of kind `k` can be a member name: an identifier or any keyword. -/
def isMemberName (k : Kind) : Bool := k = .identifier || k.isAnyKeyword

/-- The modifier keywords with their bits in a set of modifiers. -/
def modifierBits : List (Kind × Nat) := [
  (.publicKeyword, 0x1), (.privateKeyword, 0x2), (.protectedKeyword, 0x4),
  (.readonlyKeyword, 0x8), (.overrideKeyword, 0x10), (.exportKeyword, 0x20),
  (.abstractKeyword, 0x40), (.declareKeyword, 0x80), (.staticKeyword, 0x100),
  (.accessorKeyword, 0x200), (.asyncKeyword, 0x400), (.defaultKeyword, 0x800),
  (.constKeyword, 0x1000), (.inKeyword, 0x2000), (.outKeyword, 0x4000)]

/-- The bit of a modifier keyword, and no bit for any other kind. -/
def modifierBit (k : Kind) : Nat := (modifierBits.lookup k).getD 0

def isModifier (k : Kind) : Bool := (modifierBits.lookup k).isSome

/-- The keywords that are a type by themselves. -/
def keywordTypes : List Kind := [
  .anyKeyword, .bigIntKeyword, .booleanKeyword, .intrinsicKeyword, .neverKeyword, .numberKeyword,
  .objectKeyword, .stringKeyword, .symbolKeyword, .undefinedKeyword, .unknownKeyword,
  .voidKeyword, .nullKeyword]

def isKeywordType (k : Kind) : Bool := keywordTypes.contains k

/-- The keywords that make a type out of the type after them. -/
def isTypeOperator (k : Kind) : Bool :=
  k = .keyOfKeyword || k = .uniqueKeyword || k = .readonlyKeyword

/-- Every keyword with its text. -/
def keywords : List (Kind × String) := [
  (.breakKeyword, "break"), (.caseKeyword, "case"), (.catchKeyword, "catch"),
  (.classKeyword, "class"), (.constKeyword, "const"), (.continueKeyword, "continue"),
  (.debuggerKeyword, "debugger"), (.defaultKeyword, "default"), (.deleteKeyword, "delete"),
  (.doKeyword, "do"), (.elseKeyword, "else"), (.enumKeyword, "enum"), (.exportKeyword, "export"),
  (.extendsKeyword, "extends"), (.falseKeyword, "false"), (.finallyKeyword, "finally"),
  (.forKeyword, "for"), (.functionKeyword, "function"), (.ifKeyword, "if"),
  (.importKeyword, "import"), (.inKeyword, "in"), (.instanceOfKeyword, "instanceof"),
  (.newKeyword, "new"), (.nullKeyword, "null"), (.returnKeyword, "return"),
  (.superKeyword, "super"), (.switchKeyword, "switch"), (.thisKeyword, "this"),
  (.throwKeyword, "throw"), (.trueKeyword, "true"), (.tryKeyword, "try"),
  (.typeOfKeyword, "typeof"), (.varKeyword, "var"), (.voidKeyword, "void"),
  (.whileKeyword, "while"), (.withKeyword, "with"), (.implementsKeyword, "implements"),
  (.interfaceKeyword, "interface"), (.letKeyword, "let"), (.packageKeyword, "package"),
  (.privateKeyword, "private"), (.protectedKeyword, "protected"), (.publicKeyword, "public"),
  (.staticKeyword, "static"), (.yieldKeyword, "yield"), (.abstractKeyword, "abstract"),
  (.accessorKeyword, "accessor"), (.asKeyword, "as"), (.assertsKeyword, "asserts"),
  (.assertKeyword, "assert"), (.anyKeyword, "any"), (.asyncKeyword, "async"),
  (.awaitKeyword, "await"), (.booleanKeyword, "boolean"), (.constructorKeyword, "constructor"),
  (.declareKeyword, "declare"), (.getKeyword, "get"), (.inferKeyword, "infer"),
  (.intrinsicKeyword, "intrinsic"), (.isKeyword, "is"), (.keyOfKeyword, "keyof"),
  (.moduleKeyword, "module"), (.namespaceKeyword, "namespace"), (.neverKeyword, "never"),
  (.outKeyword, "out"), (.readonlyKeyword, "readonly"), (.requireKeyword, "require"),
  (.numberKeyword, "number"), (.objectKeyword, "object"), (.satisfiesKeyword, "satisfies"),
  (.setKeyword, "set"), (.stringKeyword, "string"), (.symbolKeyword, "symbol"),
  (.typeKeyword, "type"), (.undefinedKeyword, "undefined"), (.uniqueKeyword, "unique"),
  (.unknownKeyword, "unknown"), (.usingKeyword, "using"), (.fromKeyword, "from"),
  (.globalKeyword, "global"), (.bigIntKeyword, "bigint"), (.overrideKeyword, "override"),
  (.ofKeyword, "of")]

/-- The punctuation that the grammar asks for, with its text. -/
def punctuators : List (Kind × String) := [
  (.openBraceToken, "\x7b"), (.closeBraceToken, "\x7d"), (.openParenToken, "("),
  (.closeParenToken, ")"), (.openBracketToken, "["), (.closeBracketToken, "]"), (.dotToken, "."),
  (.dotDotDotToken, "..."), (.semicolonToken, ";"), (.commaToken, ","), (.lessThanToken, "<"),
  (.greaterThanToken, ">"), (.equalsGreaterThanToken, "=>"), (.plusToken, "+"),
  (.minusToken, "-"), (.asteriskToken, "*"), (.ampersandToken, "&"), (.barToken, "|"),
  (.questionToken, "?"), (.colonToken, ":"), (.atToken, "@"), (.equalsToken, "=")]

def keywordText (k : Kind) : Option String := keywords.lookup k

def punctuationText (k : Kind) : Option String := punctuators.lookup k

/-- The text of a token that is always written the same way. -/
def tokenText (k : Kind) : Option String := k.punctuationText <|> k.keywordText

/-- The keyword with a given text. -/
def keyword? (text : String) : Option Kind :=
  (keywords.find? fun entry => entry.2 == text).map Prod.fst

end Ambient.Kind
