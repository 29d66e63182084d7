import Ambient.Tree.Node

namespace Ambient

/-- A token as it is written. -/
structure Word where
  kind : Kind
  text : String
deriving DecidableEq

namespace Word

/-- A token that is always written the same way. -/
def mark (k : Kind) : Word := ⟨k, k.tokenText.getD ""⟩

/-- A name, or a keyword in its place. -/
def name (text : String) : Word := ⟨(Kind.keyword? text).getD .identifier, text⟩

def string (text : String) : Word := ⟨.stringLiteral, "\"" ++ text ++ "\""⟩

def number (text : String) : Word := ⟨.numericLiteral, text⟩

/-- The mark of kind `k`, behind the sign if a node keeps one in its place. -/
def signed (k : Kind) : Option Node → List Word
  | none => []
  | some (.token sign) => if sign = k then [mark k] else [mark sign, mark k]
  | some _ => []

/-- A text that is made up of some words. -/
def join (ws : List Word) : String := String.ofList (ws.flatMap fun w => ' ' :: w.text.toList)

end Word

namespace Node

mutual

/-- The words of a type, or of a part of one. What stands in no type has none. -/
def spelled : Node → List Word
  | .token k | .keywordType k => [.mark k]
  | .identifier text _ => [.name text]
  | .qualifiedName left right => left.spelled ++ .mark .dotToken :: right.spelled
  | .stringLiteral text => [.string text]
  | .numericLiteral text => [.number text]
  | .thisType => [.mark .thisKeyword]
  | .literalType literal => literal.spelled
  | .typeReference named arguments => named.spelled ++ spelledInAngles arguments
  | .typeQuery named arguments =>
    .mark .typeOfKeyword :: (named.spelled ++ spelledInAngles arguments)
  | .typePredicate asserts subject type =>
    spelled? asserts ++ (subject.spelled ++ spelledBehind .isKeyword type)
  | .functionType typeParameters parameters result =>
    spelledInAngles typeParameters ++
      (spelledInParens parameters ++ .mark .equalsGreaterThanToken :: result.spelled)
  | .constructorType modifiers typeParameters parameters result =>
    spelledAll? modifiers ++ .mark .newKeyword :: (spelledInAngles typeParameters ++
      (spelledInParens parameters ++ .mark .equalsGreaterThanToken :: result.spelled))
  | .typeLiteral members =>
    .mark .openBraceToken :: (spelledAll members ++ [.mark .closeBraceToken])
  | .arrayType element =>
    element.spelled ++ [.mark .openBracketToken, .mark .closeBracketToken]
  | .indexedAccessType object index =>
    object.spelled ++ .mark .openBracketToken :: (index.spelled ++ [.mark .closeBracketToken])
  | .tupleType elements =>
    .mark .openBracketToken :: (spelledList .commaToken elements ++ [.mark .closeBracketToken])
  | .optionalType type => type.spelled ++ [.mark .questionToken]
  | .restType type => .mark .dotDotDotToken :: type.spelled
  | .namedTupleMember dots label question type =>
    spelled? dots ++ (label.spelled ++ (spelled? question ++ .mark .colonToken :: type.spelled))
  | .unionType types => spelledList .barToken types
  | .intersectionType types => spelledList .ampersandToken types
  | .parenthesizedType type =>
    .mark .openParenToken :: (type.spelled ++ [.mark .closeParenToken])
  | .typeOperator operator type => .mark operator :: type.spelled
  | .mappedType readonlyToken (.typeParameter key constraint _) nameType question type =>
    .mark .openBraceToken :: (Word.signed .readonlyKeyword readonlyToken ++
      .mark .openBracketToken :: (key.spelled ++ (spelledBehind .inKeyword constraint ++
        (spelledBehind .asKeyword nameType ++ .mark .closeBracketToken ::
          (Word.signed .questionToken question ++
            (spelledBehind .colonToken type ++ [.mark .closeBraceToken]))))))
  | .typeParameter declared constraint defaultType =>
    declared.spelled ++
      (spelledBehind .extendsKeyword constraint ++ spelledBehind .equalsToken defaultType)
  | .parameter modifiers dots declared question type =>
    spelledAll? modifiers ++ (spelled? dots ++ (declared.spelled ++
      (spelled? question ++ .mark .colonToken :: type.spelled)))
  | .propertySignature modifiers declared question type =>
    spelledAll? modifiers ++ (declared.spelled ++
      (spelled? question ++ .mark .colonToken :: (type.spelled ++ [.mark .semicolonToken])))
  | .methodSignature declared question typeParameters parameters result =>
    declared.spelled ++ (spelled? question ++ (spelledInAngles typeParameters ++
      (spelledInParens parameters ++
        .mark .colonToken :: (result.spelled ++ [.mark .semicolonToken]))))
  | .callSignature typeParameters parameters result =>
    spelledInAngles typeParameters ++ (spelledInParens parameters ++
      .mark .colonToken :: (result.spelled ++ [.mark .semicolonToken]))
  | .constructSignature typeParameters parameters result =>
    .mark .newKeyword :: (spelledInAngles typeParameters ++ (spelledInParens parameters ++
      .mark .colonToken :: (result.spelled ++ [.mark .semicolonToken])))
  | .indexSignature modifiers parameters type =>
    spelledAll? modifiers ++ .mark .openBracketToken :: (spelledAll parameters ++
      .mark .closeBracketToken :: .mark .colonToken :: (type.spelled ++ [.mark .semicolonToken]))
  | _ => []

def spelled? : Option Node → List Word
  | none => []
  | some n => n.spelled

/-- What may stand behind a mark of kind `k`. -/
def spelledBehind (k : Kind) : Option Node → List Word
  | none => []
  | some n => .mark k :: n.spelled

def spelledAll : List Node → List Word
  | [] => []
  | n :: ns => n.spelled ++ spelledAll ns

def spelledAll? : Option (List Node) → List Word
  | none => []
  | some ns => spelledAll ns

/-- Nodes with a separator in front of each. -/
def spelledTail (separator : Kind) : List Node → List Word
  | [] => []
  | n :: ns => .mark separator :: (n.spelled ++ spelledTail separator ns)

/-- Nodes with a separator between them. -/
def spelledList (separator : Kind) : List Node → List Word
  | [] => []
  | n :: ns => n.spelled ++ spelledTail separator ns

def spelledInAngles : Option (List Node) → List Word
  | none => []
  | some ns =>
    .mark .lessThanToken :: (spelledList .commaToken ns ++ [.mark .greaterThanToken])

/-- Parentheses are written even if there is nothing to stand in them. -/
def spelledInParens : Option (List Node) → List Word
  | none => [.mark .openParenToken, .mark .closeParenToken]
  | some ns => .mark .openParenToken :: (spelledList .commaToken ns ++ [.mark .closeParenToken])

end

theorem spelledAll_eq (ns : List Node) : spelledAll ns = ns.flatMap spelled := by
  induction ns with
  | nil => rfl
  | cons n ns ih => rw [spelledAll, ih, List.flatMap_cons]

theorem spelledTail_eq (separator : Kind) (ns : List Node) :
    spelledTail separator ns = ns.flatMap fun n => .mark separator :: n.spelled := by
  induction ns with
  | nil => rfl
  | cons n ns ih => rw [spelledTail, ih, List.flatMap_cons, List.cons_append]

theorem spelledList_cons (separator : Kind) (n : Node) (ns : List Node) :
    spelledList separator (n :: ns) =
      n.spelled ++ ns.flatMap fun n => .mark separator :: n.spelled := by
  rw [spelledList, spelledTail_eq]

/-- The text of a type. -/
def toTypeText (n : Node) : String := Word.join n.spelled

end Node

end Ambient
