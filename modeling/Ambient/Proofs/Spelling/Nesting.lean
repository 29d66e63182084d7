import Ambient.Proofs.Spelling.Precedence

namespace Ambient

namespace Node

variable {n m : Node} {t : Target}

/-- The open levels of a node and its own. -/
def room (n : Node) : Nat := n.level + n.openLevels

theorem openLevels_le (plain : n.isPlain = true) (mem : (t, m) ∈ n.children) :
    m.levelIn t + m.openLevels ≤ n.openLevels := by
  have way : (m.levelIn t, m) ∈ n.ways ⟨0, chain⟩ := by
    rw [ways_of_isPlain plain]
    exact List.mem_map.mpr ⟨(t, m), mem, rfl⟩
  exact way_le_tally way

theorem openLevels_le_of_child (plain : n.isPlain = true) (mem : (t, m) ∈ n.children) :
    m.openLevels ≤ n.openLevels :=
  Nat.le_trans (Nat.le_add_left _ _) (openLevels_le plain mem)

theorem room_le (plain : n.isPlain = true) (mem : (t, m) ∈ n.children)
    (takes : t.takesLevel = true ∨ m.level = 0) : m.room ≤ n.openLevels := by
  have below := openLevels_le plain mem
  have same : m.levelIn t = m.level := by
    unfold levelIn
    split
    · rfl
    · exact (takes.resolve_left ‹_›).symm
  rwa [same] at below

/-- The terms of a union or an intersection open no more levels than it does. -/
theorem openLevels_le_of_terms {types : List Node} (ways : n.ways ⟨0, chain⟩ = types.map (0, ·))
    (mem : m ∈ types) : m.openLevels ≤ n.openLevels := by
  have way : (0, m) ∈ n.ways ⟨0, chain⟩ := ways ▸ List.mem_map.mpr ⟨m, mem, rfl⟩
  have le := way_le_tally way
  rwa [Nat.zero_add] at le

/-- A node whose parts are all right below another one too opens no more levels. -/
theorem openLevels_mono (plain : n.isPlain = true) (plain' : m.isPlain = true)
    (sub : ∀ c ∈ n.children, c ∈ m.children) : n.openLevels ≤ m.openLevels :=
  tally_le_of_plain plain fun c mem => openLevels_le plain' (sub c mem)

end Node

open Rule Grammar Node

/-- A node is read back by the rule for a place. -/
def ReadsIn : Slot → Node → Prop
  | .type, n => Reads n
  | .result, n => (resultType type).Recites n.spelled n n.room TypeEnds
  | .element, n => (tupleElement type).Recites n.spelled n n.room ElementEnds
  | .typeParameter, n => (Grammar.typeParameter type).Recites n.spelled n n.room
      fun k => k ≠ .extendsKeyword ∧ k ≠ .equalsToken ∧ TypeEnds k
  | .parameter, n => (Grammar.parameter type).Recites n.spelled n n.room TypeEnds
  | .signature, n => ∀ tps ps result, n = .functionType tps ps result →
      ReadsSignature type tps ps result n.openLevels
  | .member, n => (typeMember type).Recites n.spelled n n.room fun _ => True

namespace Written

variable {slot : Slot} {n : Node} {l : Nat}

theorem level_eq_one (h : Written .type n) : n.level = 1 := by
  cases h <;> rfl

theorem starts_typeParameter (h : Written .typeParameter n) :
    Word.Starts (· ≠ .greaterThanToken) n.spelled fun _ => True := by
  cases h with
  | typeParameter name => exact (name.starts (by decide)).front

theorem starts_parameter (h : Written .parameter n) :
    Word.Starts (· ≠ .closeParenToken) n.spelled fun _ => True := by
  cases h with
  | parameter modify mark name =>
    have named := starts_parameterName (P := (· ≠ .closeParenToken)) name (by decide) (by decide)
    exact modify.starts (by decide) (mark.starts (by decide) named.front)

theorem level_eq_zero (h : Written slot n)
    (part : slot = .typeParameter ∨ slot = .parameter ∨ slot = .member) : n.level = 0 := by
  cases h <;> first | rfl | simp at part

theorem readsBack_room (h : Written .type n) (reads : Reads n) :
    Grammar.type.ReadsBack n n.room := by
  refine reads.readsBack.deeper ?_
  rw [Node.room, h.level_eq_one]
  omega

/-- A type is read back with the levels of the node in which it stands. -/
theorem readsBack {m : Node} (h : Written .type n) (reads : Reads n) (plain : m.isPlain = true)
    (mem : (.category .type, n) ∈ m.children) : Grammar.type.ReadsBack n m.openLevels :=
  (h.readsBack_room reads).deeper (room_le plain mem (.inl rfl))

theorem recites {m : Node} (h : Written .type n) (reads : Reads n) (plain : m.isPlain = true)
    (mem : (.category .type, n) ∈ m.children) :
    Grammar.type.Recites n.spelled n m.openLevels TypeEnds :=
  (h.readsBack reads plain mem).recites

theorem readsIn_member {r : Rule Nat Node} (h : Written .member n) (mem : r ∈ memberRules Grammar.type)
    (read : r.Recites n.spelled n n.openLevels fun _ => True) : ReadsIn .member n :=
  (typeMember_recites h mem read).deeper (Nat.le_add_left _ _)

theorem reads_arrayType {element : Node} (inner : Written .type element)
    (tight : element.looseness = 0) (read : Reads element) : Reads (.arrayType element) := by
  have own : element.chain + 1 ≤ (Node.arrayType element).openLevels :=
    own_le_tally (n := .arrayType element) (a := ⟨0, chain⟩)
  have front : 0 + element.openLevels ≤ (Node.arrayType element).openLevels :=
    way_le_tally (n := .arrayType element) (a := ⟨0, chain⟩) (w := (0, element)) List.mem_cons_self
  exact .of_bracketed read tight (arrayType inner tight).opening rfl rfl rfl (by omega)
    bracketed_array own

theorem reads_indexedAccessType {object index : Node} (inner : Written .type object)
    (tight : object.looseness = 0) (pick : Written .type index) (read : Reads object)
    (picked : Reads index) : Reads (.indexedAccessType object index) := by
  let node := Node.indexedAccessType object index
  have front : 0 + object.openLevels ≤ node.openLevels :=
    way_le_tally (n := node) (a := ⟨0, chain⟩) (w := (0, object)) List.mem_cons_self
  have behind : node.chain + index.level + index.openLevels ≤ node.openLevels :=
    way_le_tally (n := node) (a := ⟨0, chain⟩) (w := (node.chain + index.level, index))
      (List.mem_cons_of_mem _ List.mem_cons_self)
  have last : node.chain = object.chain + 1 := rfl
  rw [pick.level_eq_one] at behind
  have read : Reads node := .of_bracketed read tight (indexedAccessType inner tight pick).opening rfl
    rfl last (by omega) (bracketed_index picked.readsBack) (by omega)
  exact read

theorem reads_typeOperator {k : Kind} {type : Node} (is : k.isTypeOperator = true)
    (inner : Written .type type) (tight : type.looseness ≤ 1) (read : Reads type) :
    Reads (.typeOperator k type) := by
  have room : type.room ≤ (Node.typeOperator k type).openLevels :=
    room_le rfl List.mem_cons_self (.inl rfl)
  rw [Node.room, inner.level_eq_one] at room
  exact .of_operand (typeOperator is inner tight).opening Nat.one_pos
    ((typeOperator_recites is (read.asOperand tight)).deeper (by omega))

section

variable {types : List Node} (several : 2 ≤ types.length) (terms : ∀ m ∈ types, Written .type m)
  (read : ∀ m ∈ types, Reads m)
include several terms read

theorem reads_intersectionType (tight : ∀ m ∈ types, m.looseness ≤ 1) :
    Reads (.intersectionType types) := by
  refine .of_term (intersectionType several terms tight).opening (Nat.lt_succ_self 1)
    (terms_recites (P := PostfixEnds) several (fun m mem => ?_)
      (fun m mem => starts_other (terms m mem).opening (by decide)) (by decide) fun _ ends => ends)
  exact ((read m mem).asOperand (tight m mem)).deeper (openLevels_le_of_terms rfl mem)

theorem reads_unionType (tight : ∀ m ∈ types, m.looseness ≤ 2) : Reads (.unionType types) := by
  refine .of_union (unionType several terms tight).opening (Nat.lt_succ_self 2)
    (terms_recites (P := IntersectionEnds) several (fun m mem => ?_)
      (fun m mem => starts_other (terms m mem).opening (by decide)) (by decide)
      fun _ => intersectionEnds_of_typeEnds)
  exact ((read m mem).asTerm (tight m mem)).deeper (openLevels_le_of_terms rfl mem)

end

section

variable {typeParameters parameters : Option (List Node)} {result : Node}

theorem reads_constructorType {modifiers : Option (List Node)}
    (abstract : Modifies [.abstractKeyword] modifiers)
    (signature : Written .signature (.functionType typeParameters parameters result))
    (read : ReadsSignature type typeParameters parameters result
      (Node.functionType typeParameters parameters result).openLevels) :
    Reads (.constructorType modifiers typeParameters parameters result) := by
  have le : (Node.functionType typeParameters parameters result).openLevels ≤
      (Node.constructorType modifiers typeParameters parameters result).openLevels :=
    openLevels_mono rfl rfl fun c mem => List.mem_append_right _ mem
  exact .of_function (constructorType abstract signature).opening (Nat.lt_succ_self 2)
    (abstract.starts (by decide) (.cons rfl)) (constructorType_recites abstract (read.deeper le))

/-- The parts of a signature stand right below it. -/
theorem reads_signature (given : typeParameters ≠ some [])
    (each : ∀ l ∈ typeParameters, ∀ p ∈ l, Written .typeParameter p)
    (given' : parameters ≠ some []) (each' : ∀ l ∈ parameters, ∀ p ∈ l, Written .parameter p)
    (rest_last : ∀ l ∈ parameters, ∀ p ∈ l.dropLast, isRest p = false)
    (read : ∀ l ∈ typeParameters, ∀ p ∈ l, ReadsIn .typeParameter p)
    (read' : ∀ l ∈ parameters, ∀ p ∈ l, ReadsIn .parameter p) (gives : ReadsIn .result result) :
    ReadsSignature type typeParameters parameters result
      (Node.functionType typeParameters parameters result).openLevels := by
  refine ⟨typeParameters_recites given (fun l mem p here => ?_)
    (fun l mem p here => starts_typeParameter (each l mem p here)),
    parameters_recites given' (fun l mem p here => ?_)
      (fun l mem p here => starts_parameter (each' l mem p here)) rest_last,
    Recites.deeper gives (room_le (t := .category .type) rfl ?_ (.inl rfl))⟩
  · refine Recites.deeper (read l mem p here) (room_le (t := .shape .typeParameter) rfl ?_
      (.inr ((each l mem p here).level_eq_zero (.inl rfl))))
    simp [children, parts, Part.places, Option.mem_def.mp mem, here]
  · refine Recites.deeper (read' l mem p here) (room_le (t := .shape .parameter) rfl ?_
      (.inr ((each' l mem p here).level_eq_zero (.inr (.inl rfl)))))
    simp [children, parts, Part.places, Option.mem_def.mp mem, here]
  · simp [children, parts, Part.places]

end

theorem reads (h : Written slot n) : ReadsIn slot n := by
  induction h with
  | keywordType is =>
    exact .of_primary (keywordType is).opening rfl rfl
      ((keywordType_recites is).mono fun k ends => ends.1)
  | thisType => exact .of_primary thisType.opening rfl rfl thisType_recites
  | literalType is => exact .of_primary (literalType is).opening rfl rfl (literalType_recites is)
  | booleanType is => exact .of_primary (booleanType is).opening rfl rfl (booleanType_recites is)
  | typeReference name given types ih =>
    refine .of_primary (typeReference name given types).opening rfl rfl (typeReference_recites name
      (openLevels_le_of_child rfl List.mem_cons_self) given fun l mem m here => ?_)
    refine (types l mem m here).readsBack (ih l mem m here) rfl ?_
    simp [children, parts, Part.places, Option.mem_def.mp mem, here]
  | typeQuery name given types ih =>
    refine .of_primary (typeQuery name given types).opening rfl rfl (typeQuery_recites name
      (openLevels_le_of_child rfl List.mem_cons_self) given fun l mem m here => ?_)
    refine (types l mem m here).readsBack (ih l mem m here) rfl ?_
    simp [children, parts, Part.places, Option.mem_def.mp mem, here]
  | parenthesizedType inner ih =>
    exact .of_primary (parenthesizedType inner).opening rfl rfl
      (parenthesizedType_recites (.inl rfl) (inner.recites ih rfl List.mem_cons_self))
  | arrayType inner tight ih => exact reads_arrayType inner tight ih
  | indexedAccessType inner tight pick ih ih' =>
    exact reads_indexedAccessType inner tight pick ih ih'
  | typeOperator is inner tight ih => exact reads_typeOperator is inner tight ih
  | intersectionType several terms tight ih => exact reads_intersectionType several terms ih tight
  | unionType several terms tight ih => exact reads_unionType several terms ih tight
  | functionType signature ih =>
    exact .of_function (functionType signature).opening (Nat.lt_succ_self 2) (starts_signature rfl rfl)
      (function_recites (.inl rfl) (ih _ _ _ rfl))
  | constructorType abstract signature ih =>
    exact reads_constructorType abstract signature (ih _ _ _ rfl)
  | tupleType each ih =>
    refine .of_primary (tupleType each).opening rfl rfl (tupleType_recites each fun m mem => ?_)
    refine Recites.deeper (ih m mem) (room_le (t := .category .type) rfl ?_ (.inl rfl))
    simp [children, parts, Part.places, mem]
  | typeLiteral each ih =>
    refine .of_primary (typeLiteral each).opening rfl rfl (typeLiteral_recites each fun m mem => ?_)
    refine Recites.deeper (ih m mem) (room_le (t := .category .typeMember) rfl ?_
      (.inr ((each m mem).level_eq_zero (.inr (.inr rfl)))))
    simp [children, parts, Part.places, mem]
  | @mappedType _ _ _ _ key constraint mark name keys names mark' values ih ih' ih'' =>
    refine .of_primary (mappedType mark name keys names mark' values).opening rfl rfl
      (mappedType_recites mark name ?_ (fun m mem => ?_) mark' fun m mem => ?_)
    · refine (keys.recites (m := .typeParameter key (some constraint) none) ih rfl ?_).deeper
        (openLevels_le_of_child (t := .shape .typeParameter) rfl ?_)
      · simp [children, parts, Part.places]
      · simp [children, parts, Part.places]
    · refine (names m mem).recites (ih' m mem) rfl ?_
      simp [children, parts, Part.places, Option.mem_def.mp mem]
    · refine (values m mem).recites (ih'' m mem) rfl ?_
      simp [children, parts, Part.places, Option.mem_def.mp mem]
  | result plain ih => exact resultType_recites (plain.readsBack_room ih)
  | predicate about inner ih =>
    refine (resultType_recites_predicate about (inner.recites ih rfl ?_)).deeper (Nat.le_add_left _ _)
    simp [children, parts, Part.places]
  | assertion about inner ih =>
    refine (resultType_recites_assertion about fun m mem => (inner m mem).recites (ih m mem) rfl
      ?_).deeper (Nat.le_add_left _ _)
    simp [children, parts, Part.places, Option.mem_def.mp mem]
  | element plain ih => exact element_recites (plain.readsBack_room ih)
  | optionalType inner ih =>
    exact (optionalType_recites (inner.readsBack ih rfl List.mem_cons_self)).deeper (Nat.le_add_left _ _)
  | restType inner ih =>
    exact (restType_recites (inner.readsBack ih rfl List.mem_cons_self)).deeper (Nat.le_add_left _ _)
  | namedTupleMember mark name mark' inner ih =>
    refine (namedTupleMember_recites mark name mark' (inner.recites ih rfl ?_)).deeper
      (Nat.le_add_left _ _)
    simp [children, parts, Part.places]
  | typeParameter name bound other ih ih' =>
    refine (typeParameter_recites name (fun m mem => (bound m mem).recites (ih m mem) rfl ?_)
      fun m mem => (other m mem).recites (ih' m mem) rfl ?_).deeper (Nat.le_add_left _ _)
    · simp [children, parts, Part.places, Option.mem_def.mp mem]
    · simp [children, parts, Part.places, Option.mem_def.mp mem]
  | parameter modify mark name mark' single inner ih =>
    refine (parameter_recites modify mark name mark' single (inner.recites ih rfl ?_)).deeper
      (Nat.le_add_left _ _)
    simp [children, parts, Part.places]
  | signature given each given' each' rest_last gives ih ih' ih'' =>
    rintro _ _ _ ⟨⟩
    exact reads_signature given each given' each' rest_last ih ih' ih''
  | propertySignature modify name mark inner ih =>
    refine (propertySignature modify name mark inner).readsIn_member (by simp)
      (propertySignature_recites modify name mark (inner.recites ih rfl ?_))
    simp [children, parts, Part.places]
  | @methodSignature question _ _ _ _ name mark signature ih =>
    refine (methodSignature name mark signature).readsIn_member (by simp)
      (methodSignature_recites name mark ((ih _ _ _ rfl).deeper ?_))
    exact openLevels_mono rfl rfl fun c mem =>
      List.mem_cons_of_mem _ (List.mem_append_right (Part.token "QuestionToken" question).places mem)
  | callSignature signature ih =>
    exact (callSignature signature).readsIn_member (by simp) (callSignature_recites
      ((ih _ _ _ rfl).deeper (openLevels_mono rfl rfl fun c mem => mem)))
  | constructSignature signature ih =>
    exact (constructSignature signature).readsIn_member (by simp) (constructSignature_recites
      ((ih _ _ _ rfl).deeper (openLevels_mono rfl rfl fun c mem => mem)))
  | @indexSignature modifiers key keyType type modify name keys inner ih ih' =>
    have keyed := keys.recites (m := .parameter none none key none keyType) ih rfl
      (by simp [children, parts, Part.places])
    refine (indexSignature modify name keys inner).readsIn_member (by simp) (indexMember_recites modify
      name (keyed.deeper (openLevels_le_of_child (t := .shape .parameter) rfl ?_))
      (inner.recites ih' rfl ?_))
    · simp [children, parts, Part.places]
    · simp [children, parts, Part.places]

end Written

end Ambient
