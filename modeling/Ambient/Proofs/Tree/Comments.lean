import Mathlib.Tactic.Common
import Ambient.Tree.Node

namespace Ambient

namespace Node

mutual

/-- The tree with `f` applied to each of its comments. -/
def mapComments (f : Option String → Option String) : Node → Node
  | .token kind => .token kind
  | .identifier text comment => .identifier text (f comment)
  | .qualifiedName left right => .qualifiedName (left.mapComments f) (right.mapComments f)
  | .stringLiteral text => .stringLiteral text
  | .numericLiteral text => .numericLiteral text
  | .keywordType kind => .keywordType kind
  | .thisType => .thisType
  | .typeReference name arguments =>
    .typeReference (name.mapComments f) (mapCommentsList? f arguments)
  | .typePredicate asserts subject type =>
    .typePredicate (mapComments? f asserts) (subject.mapComments f) (mapComments? f type)
  | .functionType tps ps result =>
    .functionType (mapCommentsList? f tps) (mapCommentsList? f ps) (result.mapComments f)
  | .constructorType ms tps ps result =>
    .constructorType (mapCommentsList? f ms) (mapCommentsList? f tps) (mapCommentsList? f ps)
      (result.mapComments f)
  | .typeQuery name arguments => .typeQuery (name.mapComments f) (mapCommentsList? f arguments)
  | .typeLiteral members => .typeLiteral (mapCommentsList f members)
  | .arrayType element => .arrayType (element.mapComments f)
  | .tupleType elements => .tupleType (mapCommentsList f elements)
  | .optionalType type => .optionalType (type.mapComments f)
  | .restType type => .restType (type.mapComments f)
  | .namedTupleMember dots name question type =>
    .namedTupleMember (mapComments? f dots) (name.mapComments f) (mapComments? f question)
      (type.mapComments f)
  | .unionType types => .unionType (mapCommentsList f types)
  | .intersectionType types => .intersectionType (mapCommentsList f types)
  | .parenthesizedType type => .parenthesizedType (type.mapComments f)
  | .typeOperator operator type => .typeOperator operator (type.mapComments f)
  | .indexedAccessType object index =>
    .indexedAccessType (object.mapComments f) (index.mapComments f)
  | .mappedType readonly bound nameType question type =>
    .mappedType (mapComments? f readonly) (bound.mapComments f) (mapComments? f nameType)
      (mapComments? f question) (mapComments? f type)
  | .literalType literal => .literalType (literal.mapComments f)
  | .typeParameter name constraint defaultType =>
    .typeParameter (name.mapComments f) (mapComments? f constraint) (mapComments? f defaultType)
  | .parameter ms dots name question type =>
    .parameter (mapCommentsList? f ms) (mapComments? f dots) (name.mapComments f)
      (mapComments? f question) (type.mapComments f)
  | .heritageClause types => .heritageClause (mapCommentsList f types)
  | .expressionWithTypeArguments expression arguments =>
    .expressionWithTypeArguments (expression.mapComments f) (mapCommentsList? f arguments)
  | .propertySignature ms name question type =>
    .propertySignature (mapCommentsList? f ms) (name.mapComments f) (mapComments? f question)
      (type.mapComments f)
  | .methodSignature name question tps ps result =>
    .methodSignature (name.mapComments f) (mapComments? f question) (mapCommentsList? f tps)
      (mapCommentsList? f ps) (result.mapComments f)
  | .callSignature tps ps result =>
    .callSignature (mapCommentsList? f tps) (mapCommentsList? f ps) (result.mapComments f)
  | .constructSignature tps ps result =>
    .constructSignature (mapCommentsList? f tps) (mapCommentsList? f ps) (result.mapComments f)
  | .indexSignature ms ps type =>
    .indexSignature (mapCommentsList? f ms) (mapCommentsList f ps) (type.mapComments f)
  | .propertyDeclaration ms name question type =>
    .propertyDeclaration (mapCommentsList? f ms) (name.mapComments f) (mapComments? f question)
      (type.mapComments f)
  | .methodDeclaration ms name question tps ps result =>
    .methodDeclaration (mapCommentsList? f ms) (name.mapComments f) (mapComments? f question)
      (mapCommentsList? f tps) (mapCommentsList? f ps) (result.mapComments f)
  | .constructorDeclaration comment ms ps =>
    .constructorDeclaration (f comment) (mapCommentsList? f ms) (mapCommentsList? f ps)
  | .interfaceDeclaration ms name tps heritage members =>
    .interfaceDeclaration (mapCommentsList? f ms) (name.mapComments f) (mapCommentsList? f tps)
      (mapCommentsList? f heritage) (mapCommentsList f members)
  | .classDeclaration ms name tps heritage members =>
    .classDeclaration (mapCommentsList? f ms) (name.mapComments f) (mapCommentsList? f tps)
      (mapCommentsList? f heritage) (mapCommentsList f members)
  | .enumDeclaration ms name members =>
    .enumDeclaration (mapCommentsList? f ms) (name.mapComments f) (mapCommentsList f members)
  | .enumMember name initializer => .enumMember (name.mapComments f) (mapComments? f initializer)
  | .functionDeclaration ms name tps ps result =>
    .functionDeclaration (mapCommentsList? f ms) (name.mapComments f) (mapCommentsList? f tps)
      (mapCommentsList? f ps) (result.mapComments f)
  | .typeAliasDeclaration ms name tps type =>
    .typeAliasDeclaration (mapCommentsList? f ms) (name.mapComments f) (mapCommentsList? f tps)
      (type.mapComments f)
  | .variableStatement ms declarations =>
    .variableStatement (mapCommentsList? f ms) (declarations.mapComments f)
  | .variableDeclarationList flags declarations =>
    .variableDeclarationList flags (mapCommentsList f declarations)
  | .variableDeclaration name type => .variableDeclaration (name.mapComments f) (type.mapComments f)
  | .moduleDeclaration flags ms name body =>
    .moduleDeclaration flags (mapCommentsList? f ms) (name.mapComments f) (mapComments? f body)
  | .moduleBlock statements => .moduleBlock (mapCommentsList f statements)
  | .importDeclaration clause module =>
    .importDeclaration (mapComments? f clause) (module.mapComments f)
  | .importClause isTypeOnly name bindings =>
    .importClause isTypeOnly (mapComments? f name) (mapComments? f bindings)
  | .namespaceImport name => .namespaceImport (name.mapComments f)
  | .namedImports elements => .namedImports (mapCommentsList f elements)
  | .importSpecifier isTypeOnly original name =>
    .importSpecifier isTypeOnly (mapComments? f original) (name.mapComments f)
  | .exportDeclaration isTypeOnly clause module =>
    .exportDeclaration isTypeOnly (mapComments? f clause) (mapComments? f module)
  | .namedExports elements => .namedExports (mapCommentsList f elements)
  | .exportSpecifier isTypeOnly original name =>
    .exportSpecifier isTypeOnly (mapComments? f original) (name.mapComments f)
  | .exportAssignment isExportEquals expression =>
    .exportAssignment isExportEquals (expression.mapComments f)
  | .namespaceExportDeclaration name => .namespaceExportDeclaration (name.mapComments f)
  | .sourceFile statements => .sourceFile (mapCommentsList f statements)

def mapComments? (f : Option String → Option String) : Option Node → Option Node
  | none => none
  | some n => some (n.mapComments f)

def mapCommentsList (f : Option String → Option String) : List Node → List Node
  | [] => []
  | n :: ns => n.mapComments f :: mapCommentsList f ns

def mapCommentsList? (f : Option String → Option String) :
    Option (List Node) → Option (List Node)
  | none => none
  | some ns => some (mapCommentsList f ns)

end

/-- The tree with all comments left out. -/
def withoutComments (n : Node) : Node := n.mapComments fun _ => none

variable {f : Option String → Option String}

@[simp] theorem mapComments?_eq (n : Option Node) : mapComments? f n = n.map (mapComments f) := by
  cases n <;> rfl

@[simp] theorem mapCommentsList_eq (ns : List Node) :
    mapCommentsList f ns = ns.map (mapComments f) := by
  induction ns with
  | nil => rfl
  | cons n ns ih => exact congrArg (n.mapComments f :: ·) ih

@[simp] theorem mapCommentsList?_eq (ns : Option (List Node)) :
    mapCommentsList? f ns = ns.map (List.map (mapComments f)) := by
  cases ns with
  | none => rfl
  | some ns => exact congrArg some (mapCommentsList_eq ns)

/-- Applying the identity to the comments of a tree leaves it as it is. -/
theorem mapComments_id (n : Node) : n.mapComments id = n := by
  induction n using Node.rec (motive_2 := fun ns => mapCommentsList? id ns = ns)
    (motive_3 := fun n => mapComments? id n = n) (motive_4 := fun ns => mapCommentsList id ns = ns)
  all_goals simp only [mapComments, mapComments?, mapCommentsList, mapCommentsList?, id_eq, *]

end Node

/-- Values that hold comments, with the action of functions on these. -/
class Commented (α : Type) where
  commented : (Option String → Option String) → α → α

export Commented (commented)

namespace Commented

variable {α β : Type} [Commented α] [Commented β]

instance : Commented Node := ⟨Node.mapComments⟩

/-- A comment by itself. -/
instance (priority := high) comment : Commented (Option String) := ⟨fun f c => f c⟩

instance option : Commented (Option α) := ⟨fun f => Option.map (commented f)⟩

instance list : Commented (List α) := ⟨fun f => List.map (commented f)⟩

instance pair : Commented (α × β) := ⟨fun f p => (commented f p.1, commented f p.2)⟩

instance : Commented Unit := ⟨fun _ x => x⟩

instance : Commented Bool := ⟨fun _ b => b⟩

/-- Kinds hold no comments, and neither do lists of them. -/
instance (priority := high) kinds : Commented (List Kind) := ⟨fun _ ks => ks⟩

end Commented

/-- The value `a` is what `f` makes of `a'`. This is found from the parts of the values. -/
class Shown (f : Option String → Option String) {α : Type} [Commented α] (a a' : α) : Prop where
  eq : a = commented f a'

namespace Shown

variable {f : Option String → Option String} {α β : Type} [Commented α] [Commented β]

instance refl (a : α) : Shown f (commented f a) a := ⟨rfl⟩

instance unit (x y : Unit) : Shown f x y := ⟨rfl⟩

instance bool (b : Bool) : Shown f b b := ⟨rfl⟩

instance kinds (ks : List Kind) : Shown f ks ks := ⟨rfl⟩

instance none : Shown f (none : Option α) none := ⟨rfl⟩

instance some {a a' : α} [h : Shown f a a'] : Shown f (some a) (some a') :=
  ⟨congrArg Option.some h.eq⟩

instance nil : Shown f ([] : List α) [] := ⟨rfl⟩

instance cons {a a' : α} {l l' : List α} [h : Shown f a a'] [g : Shown f l l'] :
    Shown f (a :: l) (a' :: l') := ⟨by rw [h.eq, g.eq]; rfl⟩

instance pair {a a' : α} {b b' : β} [h : Shown f a a'] [g : Shown f b b'] :
    Shown f (a, b) (a', b') := ⟨by rw [h.eq, g.eq]; rfl⟩

instance ite {c : Prop} [Decidable c] {a a' b b' : α} [h : Shown f a a'] [g : Shown f b b'] :
    Shown f (if c then a else b) (if c then a' else b') := by
  split
  · exact h
  · exact g

end Shown

namespace Node

variable {f : Option String → Option String} {k : Kind} {text : String} {flags : UInt32}
  {only equals : Bool}

@[simp] theorem commented_comment (c : Option String) : commented f c = f c := rfl

@[simp] theorem commented_node (n : Node) : commented f n = n.mapComments f := rfl

@[simp] theorem commented_option (n : Option Node) : commented f n = n.map (mapComments f) := rfl

@[simp] theorem commented_list (ns : List Node) : commented f ns = ns.map (mapComments f) := rfl

@[simp] theorem commented_list? (ns : Option (List Node)) :
    commented f ns = ns.map (List.map (mapComments f)) := rfl

instance : Shown f (Node.token k) (.token k) := ⟨rfl⟩

instance [h₁ : Shown f a a'] : Shown f (Node.identifier text a) (.identifier text a') :=
  ⟨by simp [mapComments, h₁.eq]⟩

instance [h₁ : Shown f a a'] [h₂ : Shown f b b'] :
    Shown f (Node.qualifiedName a b) (.qualifiedName a' b') := ⟨by simp [mapComments, h₁.eq, h₂.eq]⟩

instance : Shown f (Node.stringLiteral text) (.stringLiteral text) := ⟨rfl⟩

instance : Shown f (Node.numericLiteral text) (.numericLiteral text) := ⟨rfl⟩

instance : Shown f (Node.keywordType k) (.keywordType k) := ⟨rfl⟩

instance : Shown f Node.thisType .thisType := ⟨rfl⟩

instance [h₁ : Shown f a a'] [h₂ : Shown f b b'] :
    Shown f (Node.typeReference a b) (.typeReference a' b') := ⟨by simp [mapComments, h₁.eq, h₂.eq]⟩

instance [h₁ : Shown f a a'] [h₂ : Shown f b b'] [h₃ : Shown f c c'] :
    Shown f (Node.typePredicate a b c) (.typePredicate a' b' c') :=
  ⟨by simp [mapComments, h₁.eq, h₂.eq, h₃.eq]⟩

instance [h₁ : Shown f a a'] [h₂ : Shown f b b'] [h₃ : Shown f c c'] :
    Shown f (Node.functionType a b c) (.functionType a' b' c') :=
  ⟨by simp [mapComments, h₁.eq, h₂.eq, h₃.eq]⟩

instance [h₁ : Shown f a a'] [h₂ : Shown f b b'] [h₃ : Shown f c c'] [h₄ : Shown f d d'] :
    Shown f (Node.constructorType a b c d) (.constructorType a' b' c' d') :=
  ⟨by simp [mapComments, h₁.eq, h₂.eq, h₃.eq, h₄.eq]⟩

instance [h₁ : Shown f a a'] [h₂ : Shown f b b'] :
    Shown f (Node.typeQuery a b) (.typeQuery a' b') := ⟨by simp [mapComments, h₁.eq, h₂.eq]⟩

instance [h₁ : Shown f a a'] : Shown f (Node.typeLiteral a) (.typeLiteral a') :=
  ⟨by simp [mapComments, h₁.eq]⟩

instance [h₁ : Shown f a a'] : Shown f (Node.arrayType a) (.arrayType a') :=
  ⟨by simp [mapComments, h₁.eq]⟩

instance [h₁ : Shown f a a'] : Shown f (Node.tupleType a) (.tupleType a') :=
  ⟨by simp [mapComments, h₁.eq]⟩

instance [h₁ : Shown f a a'] : Shown f (Node.optionalType a) (.optionalType a') :=
  ⟨by simp [mapComments, h₁.eq]⟩

instance [h₁ : Shown f a a'] : Shown f (Node.restType a) (.restType a') :=
  ⟨by simp [mapComments, h₁.eq]⟩

instance [h₁ : Shown f a a'] [h₂ : Shown f b b'] [h₃ : Shown f c c'] [h₄ : Shown f d d'] :
    Shown f (Node.namedTupleMember a b c d) (.namedTupleMember a' b' c' d') :=
  ⟨by simp [mapComments, h₁.eq, h₂.eq, h₃.eq, h₄.eq]⟩

instance [h₁ : Shown f a a'] : Shown f (Node.unionType a) (.unionType a') :=
  ⟨by simp [mapComments, h₁.eq]⟩

instance [h₁ : Shown f a a'] : Shown f (Node.intersectionType a) (.intersectionType a') :=
  ⟨by simp [mapComments, h₁.eq]⟩

instance [h₁ : Shown f a a'] : Shown f (Node.parenthesizedType a) (.parenthesizedType a') :=
  ⟨by simp [mapComments, h₁.eq]⟩

instance [h₁ : Shown f a a'] : Shown f (Node.typeOperator k a) (.typeOperator k a') :=
  ⟨by simp [mapComments, h₁.eq]⟩

instance [h₁ : Shown f a a'] [h₂ : Shown f b b'] :
    Shown f (Node.indexedAccessType a b) (.indexedAccessType a' b') :=
  ⟨by simp [mapComments, h₁.eq, h₂.eq]⟩

instance [h₁ : Shown f a a'] [h₂ : Shown f b b'] [h₃ : Shown f c c'] [h₄ : Shown f d d']
    [h₅ : Shown f e e'] :
    Shown f (Node.mappedType a b c d e) (.mappedType a' b' c' d' e') :=
  ⟨by simp [mapComments, h₁.eq, h₂.eq, h₃.eq, h₄.eq, h₅.eq]⟩

instance [h₁ : Shown f a a'] : Shown f (Node.literalType a) (.literalType a') :=
  ⟨by simp [mapComments, h₁.eq]⟩

instance [h₁ : Shown f a a'] [h₂ : Shown f b b'] [h₃ : Shown f c c'] :
    Shown f (Node.typeParameter a b c) (.typeParameter a' b' c') :=
  ⟨by simp [mapComments, h₁.eq, h₂.eq, h₃.eq]⟩

instance [h₁ : Shown f a a'] [h₂ : Shown f b b'] [h₃ : Shown f c c'] [h₄ : Shown f d d']
    [h₅ : Shown f e e'] :
    Shown f (Node.parameter a b c d e) (.parameter a' b' c' d' e') :=
  ⟨by simp [mapComments, h₁.eq, h₂.eq, h₃.eq, h₄.eq, h₅.eq]⟩

instance [h₁ : Shown f a a'] : Shown f (Node.heritageClause a) (.heritageClause a') :=
  ⟨by simp [mapComments, h₁.eq]⟩

instance [h₁ : Shown f a a'] [h₂ : Shown f b b'] :
    Shown f (Node.expressionWithTypeArguments a b) (.expressionWithTypeArguments a' b') :=
  ⟨by simp [mapComments, h₁.eq, h₂.eq]⟩

instance [h₁ : Shown f a a'] [h₂ : Shown f b b'] [h₃ : Shown f c c'] [h₄ : Shown f d d'] :
    Shown f (Node.propertySignature a b c d) (.propertySignature a' b' c' d') :=
  ⟨by simp [mapComments, h₁.eq, h₂.eq, h₃.eq, h₄.eq]⟩

instance [h₁ : Shown f a a'] [h₂ : Shown f b b'] [h₃ : Shown f c c'] [h₄ : Shown f d d']
    [h₅ : Shown f e e'] :
    Shown f (Node.methodSignature a b c d e) (.methodSignature a' b' c' d' e') :=
  ⟨by simp [mapComments, h₁.eq, h₂.eq, h₃.eq, h₄.eq, h₅.eq]⟩

instance [h₁ : Shown f a a'] [h₂ : Shown f b b'] [h₃ : Shown f c c'] :
    Shown f (Node.callSignature a b c) (.callSignature a' b' c') :=
  ⟨by simp [mapComments, h₁.eq, h₂.eq, h₃.eq]⟩

instance [h₁ : Shown f a a'] [h₂ : Shown f b b'] [h₃ : Shown f c c'] :
    Shown f (Node.constructSignature a b c) (.constructSignature a' b' c') :=
  ⟨by simp [mapComments, h₁.eq, h₂.eq, h₃.eq]⟩

instance [h₁ : Shown f a a'] [h₂ : Shown f b b'] [h₃ : Shown f c c'] :
    Shown f (Node.indexSignature a b c) (.indexSignature a' b' c') :=
  ⟨by simp [mapComments, h₁.eq, h₂.eq, h₃.eq]⟩

instance [h₁ : Shown f a a'] [h₂ : Shown f b b'] [h₃ : Shown f c c'] [h₄ : Shown f d d'] :
    Shown f (Node.propertyDeclaration a b c d) (.propertyDeclaration a' b' c' d') :=
  ⟨by simp [mapComments, h₁.eq, h₂.eq, h₃.eq, h₄.eq]⟩

instance [h₁ : Shown f a a'] [h₂ : Shown f b b'] [h₃ : Shown f c c'] [h₄ : Shown f d d']
    [h₅ : Shown f e e'] [h₆ : Shown f g g'] :
    Shown f (Node.methodDeclaration a b c d e g) (.methodDeclaration a' b' c' d' e' g') :=
  ⟨by simp [mapComments, h₁.eq, h₂.eq, h₃.eq, h₄.eq, h₅.eq, h₆.eq]⟩

instance [h₁ : Shown f a a'] [h₂ : Shown f b b'] [h₃ : Shown f c c'] :
    Shown f (Node.constructorDeclaration a b c) (.constructorDeclaration a' b' c') :=
  ⟨by simp [mapComments, h₁.eq, h₂.eq, h₃.eq]⟩

instance [h₁ : Shown f a a'] [h₂ : Shown f b b'] [h₃ : Shown f c c'] [h₄ : Shown f d d']
    [h₅ : Shown f e e'] :
    Shown f (Node.interfaceDeclaration a b c d e) (.interfaceDeclaration a' b' c' d' e') :=
  ⟨by simp [mapComments, h₁.eq, h₂.eq, h₃.eq, h₄.eq, h₅.eq]⟩

instance [h₁ : Shown f a a'] [h₂ : Shown f b b'] [h₃ : Shown f c c'] [h₄ : Shown f d d']
    [h₅ : Shown f e e'] :
    Shown f (Node.classDeclaration a b c d e) (.classDeclaration a' b' c' d' e') :=
  ⟨by simp [mapComments, h₁.eq, h₂.eq, h₃.eq, h₄.eq, h₅.eq]⟩

instance [h₁ : Shown f a a'] [h₂ : Shown f b b'] [h₃ : Shown f c c'] :
    Shown f (Node.enumDeclaration a b c) (.enumDeclaration a' b' c') :=
  ⟨by simp [mapComments, h₁.eq, h₂.eq, h₃.eq]⟩

instance [h₁ : Shown f a a'] [h₂ : Shown f b b'] :
    Shown f (Node.enumMember a b) (.enumMember a' b') := ⟨by simp [mapComments, h₁.eq, h₂.eq]⟩

instance [h₁ : Shown f a a'] [h₂ : Shown f b b'] [h₃ : Shown f c c'] [h₄ : Shown f d d']
    [h₅ : Shown f e e'] :
    Shown f (Node.functionDeclaration a b c d e) (.functionDeclaration a' b' c' d' e') :=
  ⟨by simp [mapComments, h₁.eq, h₂.eq, h₃.eq, h₄.eq, h₅.eq]⟩

instance [h₁ : Shown f a a'] [h₂ : Shown f b b'] [h₃ : Shown f c c'] [h₄ : Shown f d d'] :
    Shown f (Node.typeAliasDeclaration a b c d) (.typeAliasDeclaration a' b' c' d') :=
  ⟨by simp [mapComments, h₁.eq, h₂.eq, h₃.eq, h₄.eq]⟩

instance [h₁ : Shown f a a'] [h₂ : Shown f b b'] :
    Shown f (Node.variableStatement a b) (.variableStatement a' b') :=
  ⟨by simp [mapComments, h₁.eq, h₂.eq]⟩

instance [h₁ : Shown f a a'] :
    Shown f (Node.variableDeclarationList flags a) (.variableDeclarationList flags a') :=
  ⟨by simp [mapComments, h₁.eq]⟩

instance [h₁ : Shown f a a'] [h₂ : Shown f b b'] :
    Shown f (Node.variableDeclaration a b) (.variableDeclaration a' b') :=
  ⟨by simp [mapComments, h₁.eq, h₂.eq]⟩

instance [h₁ : Shown f a a'] [h₂ : Shown f b b'] [h₃ : Shown f c c'] :
    Shown f (Node.moduleDeclaration flags a b c) (.moduleDeclaration flags a' b' c') :=
  ⟨by simp [mapComments, h₁.eq, h₂.eq, h₃.eq]⟩

instance [h₁ : Shown f a a'] : Shown f (Node.moduleBlock a) (.moduleBlock a') :=
  ⟨by simp [mapComments, h₁.eq]⟩

instance [h₁ : Shown f a a'] [h₂ : Shown f b b'] :
    Shown f (Node.importDeclaration a b) (.importDeclaration a' b') :=
  ⟨by simp [mapComments, h₁.eq, h₂.eq]⟩

instance [h₁ : Shown f a a'] [h₂ : Shown f b b'] :
    Shown f (Node.importClause only a b) (.importClause only a' b') :=
  ⟨by simp [mapComments, h₁.eq, h₂.eq]⟩

instance [h₁ : Shown f a a'] : Shown f (Node.namespaceImport a) (.namespaceImport a') :=
  ⟨by simp [mapComments, h₁.eq]⟩

instance [h₁ : Shown f a a'] : Shown f (Node.namedImports a) (.namedImports a') :=
  ⟨by simp [mapComments, h₁.eq]⟩

instance [h₁ : Shown f a a'] [h₂ : Shown f b b'] :
    Shown f (Node.importSpecifier only a b) (.importSpecifier only a' b') :=
  ⟨by simp [mapComments, h₁.eq, h₂.eq]⟩

instance [h₁ : Shown f a a'] [h₂ : Shown f b b'] :
    Shown f (Node.exportDeclaration only a b) (.exportDeclaration only a' b') :=
  ⟨by simp [mapComments, h₁.eq, h₂.eq]⟩

instance [h₁ : Shown f a a'] : Shown f (Node.namedExports a) (.namedExports a') :=
  ⟨by simp [mapComments, h₁.eq]⟩

instance [h₁ : Shown f a a'] [h₂ : Shown f b b'] :
    Shown f (Node.exportSpecifier only a b) (.exportSpecifier only a' b') :=
  ⟨by simp [mapComments, h₁.eq, h₂.eq]⟩

instance [h₁ : Shown f a a'] :
    Shown f (Node.exportAssignment equals a) (.exportAssignment equals a') :=
  ⟨by simp [mapComments, h₁.eq]⟩

instance [h₁ : Shown f a a'] :
    Shown f (Node.namespaceExportDeclaration a) (.namespaceExportDeclaration a') :=
  ⟨by simp [mapComments, h₁.eq]⟩

instance [h₁ : Shown f a a'] : Shown f (Node.sourceFile a) (.sourceFile a') :=
  ⟨by simp [mapComments, h₁.eq]⟩

end Node

end Ambient
