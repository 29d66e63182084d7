import Ambient.Grammar.Signature
import Ambient.Proofs.Spelling.Scan
import Ambient.Proofs.Tree.Levels

namespace Ambient

namespace Node

/-- A name that is no keyword, without documentation. -/
def IsName (n : Node) : Prop := ∃ text, IsToken .identifier text ∧ n = .identifier text none

inductive IsEntityName : Node → Prop where
  | name {n : Node} (is : n.IsName) : IsEntityName n
  | qualified {left right : Node} (front : IsEntityName left) (last : right.IsName) :
    IsEntityName (.qualifiedName left right)

def IsLiteral (n : Node) : Prop :=
  (∃ text, IsQuotable text ∧ n = .stringLiteral text) ∨
    ∃ text, IsToken .numericLiteral text ∧ n = .numericLiteral text

/-- How loosely a type holds together: operands of operators are looser than what brackets may stand
behind, terms of intersections looser than these, then terms of unions, then all other types. -/
def looseness : Node → Nat
  | .unionType _ | .functionType .. | .constructorType .. => 3
  | .intersectionType _ => 2
  | .typeOperator .. => 1
  | _ => 0

/-- Modifiers that are allowed, each at most once; none are no list. -/
def Modifies (allowed : List Kind) (modifiers : Option (List Node)) : Prop :=
  ∃ ks : List Kind, ks.Nodup ∧ (∀ k ∈ ks, k ∈ allowed) ∧
    modifiers = if ks.isEmpty then none else some (ks.map .token)

/-- No node, or the token of kind `k`. -/
def IsMark (k : Kind) (mark : Option Node) : Prop := ∀ n ∈ mark, n = .token k

/-- No node, or the token of kind `k` or the sign in front of it. -/
def IsSigned (k : Kind) (mark : Option Node) : Prop :=
  ∀ n ∈ mark, n = .token k ∨ n = .token .plusToken ∨ n = .token .minusToken

end Node

/-- What is written in a place of a type. A signature is that of a function type. -/
inductive Slot where
  | type | result | element | typeParameter | parameter | signature | member

open Node Grammar in
/-- The trees that can be written in a place. -/
inductive Written : Slot → Node → Prop where
  | keywordType {k : Kind} (is : k.isKeywordType = true) : Written .type (.keywordType k)
  | thisType : Written .type .thisType
  | literalType {literal : Node} (is : literal.IsLiteral) : Written .type (.literalType literal)
  | booleanType {k : Kind} (is : k = .trueKeyword ∨ k = .falseKeyword) :
    Written .type (.literalType (.token k))
  | typeReference {named : Node} {arguments : Option (List Node)} (name : named.IsEntityName)
      (given : arguments ≠ some []) (types : ∀ l ∈ arguments, ∀ m ∈ l, Written .type m) :
    Written .type (.typeReference named arguments)
  | typeQuery {named : Node} {arguments : Option (List Node)} (name : named.IsEntityName)
      (given : arguments ≠ some []) (types : ∀ l ∈ arguments, ∀ m ∈ l, Written .type m) :
    Written .type (.typeQuery named arguments)
  | parenthesizedType {type : Node} (inner : Written .type type) :
    Written .type (.parenthesizedType type)
  | arrayType {element : Node} (inner : Written .type element) (tight : element.looseness = 0) :
    Written .type (.arrayType element)
  | indexedAccessType {object index : Node} (inner : Written .type object)
      (tight : object.looseness = 0) (pick : Written .type index) :
    Written .type (.indexedAccessType object index)
  | typeOperator {k : Kind} {type : Node} (is : k.isTypeOperator = true)
      (inner : Written .type type) (tight : type.looseness ≤ 1) :
    Written .type (.typeOperator k type)
  | intersectionType {types : List Node} (several : 2 ≤ types.length)
      (terms : ∀ m ∈ types, Written .type m) (tight : ∀ m ∈ types, m.looseness ≤ 1) :
    Written .type (.intersectionType types)
  | unionType {types : List Node} (several : 2 ≤ types.length)
      (terms : ∀ m ∈ types, Written .type m) (tight : ∀ m ∈ types, m.looseness ≤ 2) :
    Written .type (.unionType types)
  | functionType {typeParameters parameters : Option (List Node)} {result : Node}
      (signature : Written .signature (.functionType typeParameters parameters result)) :
    Written .type (.functionType typeParameters parameters result)
  | constructorType {modifiers typeParameters parameters : Option (List Node)} {result : Node}
      (abstract : Modifies [.abstractKeyword] modifiers)
      (signature : Written .signature (.functionType typeParameters parameters result)) :
    Written .type (.constructorType modifiers typeParameters parameters result)
  | tupleType {elements : List Node} (each : ∀ m ∈ elements, Written .element m) :
    Written .type (.tupleType elements)
  | typeLiteral {members : List Node} (each : ∀ m ∈ members, Written .member m) :
    Written .type (.typeLiteral members)
  | mappedType {readonlyToken question nameType type : Option Node} {key constraint : Node}
      (mark : IsSigned .readonlyKeyword readonlyToken) (name : key.IsName)
      (keys : Written .type constraint) (names : ∀ m ∈ nameType, Written .type m)
      (mark' : IsSigned .questionToken question) (values : ∀ m ∈ type, Written .type m) :
    Written .type (.mappedType readonlyToken (.typeParameter key (some constraint) none) nameType
      question type)
  | result {type : Node} (plain : Written .type type) : Written .result type
  | predicate {subject type : Node} (about : subject.IsName ∨ subject = .thisType)
      (inner : Written .type type) : Written .result (.typePredicate none subject (some type))
  | assertion {subject : Node} {type : Option Node} (about : subject.IsName ∨ subject = .thisType)
      (inner : ∀ m ∈ type, Written .type m) :
    Written .result (.typePredicate (some (.token .assertsKeyword)) subject type)
  | element {type : Node} (plain : Written .type type) : Written .element type
  | optionalType {type : Node} (inner : Written .type type) : Written .element (.optionalType type)
  | restType {type : Node} (inner : Written .type type) : Written .element (.restType type)
  | namedTupleMember {dots question : Option Node} {label type : Node}
      (mark : IsMark .dotDotDotToken dots) (name : label.IsName)
      (mark' : IsMark .questionToken question) (inner : Written .type type) :
    Written .element (.namedTupleMember dots label question type)
  | typeParameter {declared : Node} {constraint defaultType : Option Node} (name : declared.IsName)
      (bound : ∀ m ∈ constraint, Written .type m) (other : ∀ m ∈ defaultType, Written .type m) :
    Written .typeParameter (.typeParameter declared constraint defaultType)
  | parameter {modifiers : Option (List Node)} {dots question : Option Node} {declared type : Node}
      (modify : Modifies parameterModifiers modifiers) (mark : IsMark .dotDotDotToken dots)
      (name : declared.IsName ∨ declared = .identifier "this" none)
      (mark' : IsMark .questionToken question) (single : dots.isSome = true → question = none)
      (inner : Written .type type) :
    Written .parameter (.parameter modifiers dots declared question type)
  | signature {typeParameters parameters : Option (List Node)} {result : Node}
      (given : typeParameters ≠ some [])
      (each : ∀ l ∈ typeParameters, ∀ p ∈ l, Written .typeParameter p)
      (given' : parameters ≠ some []) (each' : ∀ l ∈ parameters, ∀ p ∈ l, Written .parameter p)
      (rest_last : ∀ l ∈ parameters, ∀ p ∈ l.dropLast, isRest p = false)
      (gives : Written .result result) :
    Written .signature (.functionType typeParameters parameters result)
  | propertySignature {modifiers : Option (List Node)} {question : Option Node} {declared type : Node}
      (modify : Modifies typeMemberModifiers modifiers) (name : declared.IsName ∨ declared.IsLiteral)
      (mark : IsMark .questionToken question) (inner : Written .type type) :
    Written .member (.propertySignature modifiers declared question type)
  | methodSignature {question : Option Node} {typeParameters parameters : Option (List Node)}
      {declared result : Node} (name : declared.IsName ∨ declared.IsLiteral)
      (mark : IsMark .questionToken question)
      (signature : Written .signature (.functionType typeParameters parameters result)) :
    Written .member (.methodSignature declared question typeParameters parameters result)
  | callSignature {typeParameters parameters : Option (List Node)} {result : Node}
      (signature : Written .signature (.functionType typeParameters parameters result)) :
    Written .member (.callSignature typeParameters parameters result)
  | constructSignature {typeParameters parameters : Option (List Node)} {result : Node}
      (signature : Written .signature (.functionType typeParameters parameters result)) :
    Written .member (.constructSignature typeParameters parameters result)
  | indexSignature {modifiers : Option (List Node)} {key keyType type : Node}
      (modify : Modifies typeMemberModifiers modifiers) (name : key.IsName)
      (keys : Written .type keyType) (inner : Written .type type) :
    Written .member (.indexSignature modifiers [.parameter none none key none keyType] type)

namespace Word

variable {w : Word} {ws vs : List Word}

/-- All of some words are scanned as they are written. -/
def AllSound (ws : List Word) : Prop := ∀ w ∈ ws, w.Sound

@[simp] theorem allSound_nil : AllSound [] := List.forall_mem_nil _

@[simp] theorem allSound_cons : AllSound (w :: ws) ↔ w.Sound ∧ AllSound ws := List.forall_mem_cons

@[simp] theorem allSound_append : AllSound (ws ++ vs) ↔ AllSound ws ∧ AllSound vs :=
  List.forall_mem_append

theorem allSound_flatMap {α : Type} {l : List α} {f : α → List Word}
    (each : ∀ a ∈ l, AllSound (f a)) : AllSound (l.flatMap f) := by
  intro w mem
  obtain ⟨a, mem, here⟩ := List.mem_flatMap.mp mem
  exact each a mem w here

end Word

namespace Node

variable {n : Node} {m : Option Node} {k : Kind}

open Word

theorem allSound_spelledList {ns : List Node} (sound : (mark k).Sound)
    (each : ∀ n ∈ ns, AllSound n.spelled) : AllSound (spelledList k ns) := by
  cases ns with
  | nil => exact allSound_nil
  | cons n ns =>
    obtain ⟨first, others⟩ := List.forall_mem_cons.mp each
    rw [spelledList_cons, allSound_append]
    exact ⟨first, allSound_flatMap fun m mem => allSound_cons.mpr ⟨sound, others m mem⟩⟩

theorem allSound_spelledInAngles {ns : Option (List Node)}
    (each : ∀ l ∈ ns, ∀ n ∈ l, AllSound n.spelled) : AllSound (spelledInAngles ns) := by
  cases ns with
  | none => exact allSound_nil
  | some l =>
    have list := allSound_spelledList (k := .commaToken) (sound_mark (by decide)) (each l rfl)
    simp (disch := decide) only [spelledInAngles, allSound_cons, allSound_append, allSound_nil,
      sound_mark, list, and_self]

theorem allSound_spelledInParens {ns : Option (List Node)}
    (each : ∀ l ∈ ns, ∀ n ∈ l, AllSound n.spelled) : AllSound (spelledInParens ns) := by
  cases ns with
  | none =>
    simp (disch := decide) only [spelledInParens, allSound_cons, allSound_nil, sound_mark, and_self]
  | some l =>
    have list := allSound_spelledList (k := .commaToken) (sound_mark (by decide)) (each l rfl)
    simp (disch := decide) only [spelledInParens, allSound_cons, allSound_append, allSound_nil,
      sound_mark, list, and_self]

theorem allSound_spelledBehind (sound : (mark k).Sound) (each : ∀ n ∈ m, AllSound n.spelled) :
    AllSound (spelledBehind k m) := by
  cases m with
  | none => exact allSound_nil
  | some n => exact allSound_cons.mpr ⟨sound, each n rfl⟩

theorem IsName.sound (h : n.IsName) : AllSound n.spelled := by
  obtain ⟨text, token, rfl⟩ := h
  exact List.forall_mem_singleton.mpr (sound_name token)

theorem IsEntityName.sound (h : n.IsEntityName) : AllSound n.spelled := by
  induction h with
  | name is => exact is.sound
  | qualified _ last ih =>
    simp (disch := decide) only [spelled, allSound_append, allSound_cons, sound_mark, ih, last.sound,
      and_self]

theorem IsLiteral.sound (h : n.IsLiteral) : AllSound n.spelled := by
  rcases h with ⟨text, quotable, rfl⟩ | ⟨text, token, rfl⟩
  · exact List.forall_mem_singleton.mpr (sound_string quotable)
  · exact List.forall_mem_singleton.mpr (sound_number token)

theorem IsMark.sound (h : IsMark k m) (sound : (mark k).Sound) : AllSound (spelled? m) := by
  cases m with
  | none => exact allSound_nil
  | some n =>
    obtain rfl := h n rfl
    exact List.forall_mem_singleton.mpr sound

theorem IsSigned.sound (h : IsSigned k m) (sound : (mark k).Sound) : AllSound (signed k m) := by
  cases m with
  | none => exact allSound_nil
  | some n =>
    have plus : (mark .plusToken).Sound := sound_mark (by decide)
    have minus : (mark .minusToken).Sound := sound_mark (by decide)
    rcases h n rfl with rfl | rfl | rfl
    · simp [signed, sound]
    · simp only [signed]
      split_ifs <;> simp [sound, plus]
    · simp only [signed]
      split_ifs <;> simp [sound, minus]

theorem Modifies.sound {allowed : List Kind} {ms : Option (List Node)} (h : Modifies allowed ms)
    (sound : ∀ k ∈ allowed, k ∈ marks) : AllSound (spelledAll? ms) := by
  obtain ⟨ks, -, mem, rfl⟩ := h
  split_ifs
  · exact allSound_nil
  · rw [spelledAll?, spelledAll_eq, List.flatMap_map]
    exact allSound_flatMap fun k here =>
      List.forall_mem_singleton.mpr (sound_mark (sound k (mem k here)))

theorem sound_keywordType {k : Kind} (is : k.isKeywordType = true) : (mark k).Sound :=
  sound_mark (List.mem_append_left _ (List.contains_iff_mem.mp is))

theorem sound_typeOperator {k : Kind} (is : k.isTypeOperator = true) : (mark k).Sound := by
  simp only [Kind.isTypeOperator, Bool.or_eq_true, decide_eq_true_eq] at is
  rcases is with (rfl | rfl) | rfl
  all_goals exact sound_mark (by decide)

theorem sound_subject {n : Node} (h : n.IsName ∨ n = .thisType) : AllSound n.spelled := by
  rcases h with is | rfl
  · exact is.sound
  · exact List.forall_mem_singleton.mpr (sound_mark (by decide))

theorem sound_parameterName {n : Node} (h : n.IsName ∨ n = .identifier "this" none) :
    AllSound n.spelled := by
  rcases h with is | rfl
  · exact is.sound
  · have this : (name "this").Sound := sound_mark (k := .thisKeyword) (by decide)
    exact List.forall_mem_singleton.mpr this

theorem sound_propertyName {n : Node} (h : n.IsName ∨ n.IsLiteral) : AllSound n.spelled :=
  h.elim IsName.sound IsLiteral.sound

end Node

namespace Written

variable {slot : Slot} {n : Node}

open Word Node

theorem sound (h : Written slot n) : AllSound n.spelled := by
  induction h with
  | keywordType is => exact List.forall_mem_singleton.mpr (sound_keywordType is)
  | thisType => exact List.forall_mem_singleton.mpr (sound_mark (by decide))
  | literalType is => exact is.sound
  | booleanType is =>
    rcases is with rfl | rfl
    all_goals exact List.forall_mem_singleton.mpr (sound_mark (by decide))
  | typeReference name _ _ ih | typeQuery name _ _ ih =>
    simp (disch := decide) only [spelled, allSound_cons, allSound_append, sound_mark, name.sound,
      allSound_spelledInAngles ih, and_self]
  | parenthesizedType _ ih | arrayType _ _ ih | optionalType _ ih | restType _ ih =>
    simp (disch := decide) only [spelled, allSound_cons, allSound_append, allSound_nil, sound_mark,
      ih, and_self]
  | indexedAccessType _ _ _ ih ih' =>
    simp (disch := decide) only [spelled, allSound_cons, allSound_append, allSound_nil, sound_mark,
      ih, ih', and_self]
  | typeOperator is _ _ ih => exact allSound_cons.mpr ⟨sound_typeOperator is, ih⟩
  | intersectionType _ _ _ ih | unionType _ _ _ ih =>
    exact allSound_spelledList (sound_mark (by decide)) ih
  | functionType _ ih => exact ih
  | constructorType abstract _ ih =>
    have modifiers := abstract.sound (by decide)
    simp only [spelled, allSound_cons, allSound_append] at ih ⊢
    exact ⟨modifiers, sound_mark (by decide), ih⟩
  | tupleType _ ih =>
    have list := allSound_spelledList (k := .commaToken) (sound_mark (by decide)) ih
    simp (disch := decide) only [spelled, allSound_cons, allSound_append, allSound_nil, sound_mark,
      list, and_self]
  | typeLiteral _ ih =>
    simp (disch := decide) only [spelled, spelledAll_eq, allSound_cons, allSound_append,
      allSound_nil, sound_mark, allSound_flatMap ih, and_self]
  | mappedType front name _ _ behind _ ih ih' ih'' =>
    have names := allSound_spelledBehind (k := .asKeyword) (sound_mark (by decide)) ih'
    have values := allSound_spelledBehind (k := .colonToken) (sound_mark (by decide)) ih''
    have front := front.sound (sound_mark (by decide))
    have behind := behind.sound (sound_mark (by decide))
    simp (disch := decide) only [spelled, spelledBehind, allSound_cons, allSound_append,
      allSound_nil, sound_mark, name.sound, front, behind, names, values, ih, and_self]
  | result _ ih | element _ ih => exact ih
  | predicate about _ ih =>
    simp (disch := decide) only [spelled, spelled?, spelledBehind, allSound_cons, allSound_append,
      allSound_nil, sound_mark, sound_subject about, ih, and_self]
  | assertion about _ ih =>
    have type := allSound_spelledBehind (k := .isKeyword) (sound_mark (by decide)) ih
    simp (disch := decide) only [spelled, spelled?, allSound_cons, allSound_append, allSound_nil,
      sound_mark, sound_subject about, type, and_self]
  | namedTupleMember dots name question _ ih =>
    have dots := dots.sound (sound_mark (by decide))
    have question := question.sound (sound_mark (by decide))
    simp (disch := decide) only [spelled, allSound_cons, allSound_append, sound_mark, name.sound, dots,
      question, ih, and_self]
  | typeParameter name _ _ ih ih' =>
    have bound := allSound_spelledBehind (k := .extendsKeyword) (sound_mark (by decide)) ih
    have other := allSound_spelledBehind (k := .equalsToken) (sound_mark (by decide)) ih'
    simp only [spelled, allSound_append, name.sound, bound, other, and_self]
  | parameter modify dots name question _ _ ih =>
    have modifiers := modify.sound (by decide)
    have dots := dots.sound (sound_mark (by decide))
    have question := question.sound (sound_mark (by decide))
    simp (disch := decide) only [spelled, allSound_cons, allSound_append, sound_mark, modifiers, dots,
      sound_parameterName name, question, ih, and_self]
  | signature _ _ _ _ _ _ ih ih' ih'' =>
    simp (disch := decide) only [spelled, allSound_cons, allSound_append, sound_mark,
      allSound_spelledInAngles ih, allSound_spelledInParens ih', ih'', and_self]
  | propertySignature modify name question _ ih =>
    have modifiers := modify.sound (by decide)
    have question := question.sound (sound_mark (by decide))
    simp (disch := decide) only [spelled, allSound_cons, allSound_append, allSound_nil, sound_mark,
      modifiers, sound_propertyName name, question, ih, and_self]
  | methodSignature name question _ ih =>
    have question := question.sound (sound_mark (by decide))
    simp only [spelled, allSound_cons, allSound_append] at ih
    simp (disch := decide) only [spelled, allSound_cons, allSound_append, allSound_nil, sound_mark,
      sound_propertyName name, question, ih, and_self]
  | callSignature _ ih | constructSignature _ ih =>
    simp only [spelled, allSound_cons, allSound_append] at ih
    simp (disch := decide) only [spelled, allSound_cons, allSound_append, allSound_nil, sound_mark, ih,
      and_self]
  | indexSignature modify name _ _ ih ih' =>
    have modifiers := modify.sound (by decide)
    simp (disch := decide) only [spelled, spelled?, spelledAll, spelledAll?, allSound_cons,
      allSound_append, allSound_nil, sound_mark, modifiers, name.sound, ih, ih', and_self]

end Written

end Ambient
