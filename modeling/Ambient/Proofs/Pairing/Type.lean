import Ambient.Grammar.Type
import Ambient.Proofs.Pairing.Member

namespace Ambient

namespace Grammar

open Rule Follows

set_option synthInstance.maxSize 1000

variable {P : Pairing} [laws : P.Lawful] {p q : Closeness}

section

variable {type type' : Rule Nat Node} [h : Follows P .met .met type type']

instance : Follows P .met .met (typeReference type) (typeReference type') := by
  unfold typeReference
  infer_instance

instance : Follows P .met .met (typeQuery type) (typeQuery type') := by
  unfold typeQuery
  infer_instance

instance : Follows P .met .met (arrowResult type) (arrowResult type') := by
  unfold arrowResult
  infer_instance

instance : Follows P .met .met (functionType type) (functionType type') := by
  unfold functionType
  infer_instance

instance shown_singleton (x : Option Node) :
    Shown P.comment (Option.map ([·]) (commented P.comment x)) (Option.map ([·]) x) := by
  cases x <;> exact ⟨rfl⟩

instance : Follows P .met .met (constructorType type) (constructorType type') := by
  unfold constructorType
  infer_instance

instance : Follows P .met .met (parenthesizedType type) (parenthesizedType type') := by
  unfold parenthesizedType
  infer_instance

omit h in
theorem follows_label : Follows P .met .met
    (do
      let _ ← accept .dotDotDotToken
      if (← Rule.current).kind.isMemberName then
        advance
        let _ ← accept .questionToken
        atKind .colonToken
      else return false : Rule Nat Bool)
    (do
      let _ ← accept .dotDotDotToken
      if (← Rule.current).kind.isMemberName then
        advance
        let _ ← accept .questionToken
        atKind .colonToken
      else return false) :=
  next fun _ => current_if rfl rfl (fun _ _ _ => inferInstance) inferInstance

instance : Follows P .met .met atLabel atLabel := by
  have label := follows_label (P := P)
  unfold atLabel
  infer_instance

instance : Follows P .met .met (labelledElement type) (labelledElement type') := by
  unfold labelledElement
  infer_instance

instance : Follows P .met .met (tupleElement type) (tupleElement type') := by
  unfold tupleElement
  infer_instance

instance : Follows P .met .met (tupleType type) (tupleType type') := by
  unfold tupleType
  infer_instance

instance {k : Kind} [inner : Holds k.isInner] : Follows P .met .met (signed k) (signed k) := by
  refine current_if (c := fun k => k = .plusToken || k = .minusToken) rfl rfl
    (fun t t' like => ?_) inferInstance
  rw [like.kind]
  infer_instance

omit h in
theorem atMappedKey_eq {s s' : State Nat} (stands : P.Stands .met s s') :
    s.stream.atMappedKey = s'.stream.atMappedKey := by
  unfold Stream.atMappedKey
  by_cases bracket : s.stream.current.kind = .openBracketToken
  · have inside := stands.inside (by rw [bracket]; decide)
    have bracket' := (stands.kind_iff (by decide) (by decide)).mp bracket
    have same : s.next.stream.current.kind.isName = s'.next.stream.current.kind.isName :=
      inside.next.class_eq rfl rfl
    rw [decide_eq_true bracket, decide_eq_true bracket', Bool.true_and, Bool.true_and]
    by_cases name : s.next.stream.current.kind.isName = true
    · have inside' := inside.next.inside (Kind.ne_of_class name rfl)
      have last : decide (s.next.next.stream.current.kind = .inKeyword) =
          decide (s'.next.next.stream.current.kind = .inKeyword) :=
        inside'.next.class_eq (c := (decide <| · = .inKeyword)) rfl rfl
      exact congr (congrArg _ same) last
    · have none : s'.next.stream.current.kind.isName = false := same ▸ Bool.eq_false_iff.mpr name
      rw [show s.stream.next.current.kind.isName = false from Bool.eq_false_iff.mpr name,
        show s'.stream.next.current.kind.isName = false from none, Bool.false_and, Bool.false_and]
  · have bracket' := mt (stands.kind_iff (by decide) (by decide)).mpr bracket
    simp [bracket, bracket']

omit h in
theorem opensMappedType_eq {s s' : State Nat} (stands : P.Stands .inside s s') :
    s.stream.opensMappedType = s'.stream.opensMappedType := by
  have sign : s.stream.next.atSign = s'.stream.next.atSign :=
    stands.next.class_eq (c := fun k => k = .plusToken || k = .minusToken) rfl rfl
  have readonly {u u' : State Nat} (met : P.Stands .met u u') :=
    met.kind_iff (k := .readonlyKeyword) (by decide) (by decide)
  unfold Stream.opensMappedType
  by_cases signed : s.stream.next.atSign = true
  · have inside := stands.next.inside
      (Kind.ne_of_class (p := fun k => k = .plusToken || k = .minusToken) signed (by decide))
    rw [if_pos signed, if_pos (sign ▸ signed)]
    by_cases is : s.next.next.stream.current.kind = .readonlyKeyword
    · have key := atMappedKey_eq (inside.next.inside (by rw [is]; decide)).next
      have is' := (readonly inside.next).mp is
      exact congr (congrArg _ ((decide_eq_true is).trans (decide_eq_true is').symm)) key
    · have is' := mt (readonly inside.next).mpr is
      rw [show decide (s.stream.next.next.current.kind = .readonlyKeyword) = false from
          decide_eq_false is,
        show decide (s'.stream.next.next.current.kind = .readonlyKeyword) = false from
          decide_eq_false is', Bool.false_and, Bool.false_and]
  · have unsigned : ¬ s'.stream.next.atSign = true := sign ▸ signed
    rw [if_neg signed, if_neg unsigned]
    by_cases is : s.next.stream.current.kind = .readonlyKeyword
    · have key := atMappedKey_eq (stands.next.inside (by rw [is]; decide)).next
      rwa [if_pos (show s.stream.next.current.kind = _ from is),
        if_pos (show s'.stream.next.current.kind = _ from (readonly stands.next).mp is)]
    · have key := atMappedKey_eq stands.next
      rwa [if_neg (show ¬ s.stream.next.current.kind = _ from is),
        if_neg (show ¬ s'.stream.next.current.kind = _ from mt (readonly stands.next).mpr is)]

omit h in
instance : Follows P .inside .inside atMappedType atMappedType where
  gives {s s' mapped t} stands read := by
    cases (atMappedType_gives P.left s).symm.trans read
    have right := atMappedType_gives P.right s'
    rw [← opensMappedType_eq stands] at right
    exact ⟨_, s', right, rfl, stands, Nat.le_refl _⟩
  fails _ s s' e t _ read := by cases (atMappedType_gives P.left s).symm.trans read

omit h in
instance : Tests P .abreast (atKind .semicolonToken) (atKind .semicolonToken) where
  gives {s s'} stands := by
    refine ⟨_, .atKind, ?_, fun is => ⟨stands.depth, stands.meet, ?_⟩⟩
    · rw [(laws.like stands.meet).kind]
      exact .atKind
    · rw [of_decide_eq_true is]
      decide

/-- The end of a mapped type, before which a semicolon or a comma may stand. -/
abbrev mappedEnd (n : Node) : Rule Nat Node := do
  if !(← accept .semicolonToken) then let _ ← accept .commaToken
  expect .closeBraceToken
  return n

omit h in
theorem follows_mappedEnd {n n' : Node} [shown : Shown P.comment n n'] :
    Follows P .met .met (mappedEnd n) (mappedEnd n') := by
  have accepts : Follows P .abreast .met (accept .semicolonToken) (accept .semicolonToken) := by
    unfold Rule.accept
    infer_instance
  refine of_abreast (bind_of accepts fun b => ?_) fun {o s a t} last read => ?_
  · exact ite_of .rfl inferInstance inferInstance
  · obtain ⟨b, u, semicolon, comma⟩ := read.of_bind
    rcases semicolon.of_accept with ⟨-, is, -⟩ | ⟨rfl, -, rfl⟩
    · rw [last] at is
      cases is
    · obtain ⟨b, v, comma, brace⟩ := Gives.of_bind (r := accept .commaToken) comma
      rcases comma.of_accept with ⟨-, is, -⟩ | ⟨rfl, -, rfl⟩
      · rw [last] at is
        cases is
      · obtain ⟨_, _, brace, -⟩ := brace.of_bind
        have is := (expect_gives brace).1
        rw [last] at is
        cases is

instance : Follows P .met .met (mappedType type) (mappedType type') :=
  next fun _ => next fun _ => next fun _ => next fun _ => next fun _ => next fun _ => next fun _ =>
    next fun _ => next fun _ => next fun _ => follows_mappedEnd

omit h in
/-- The type that a literal is, if there is one. -/
theorem follows_literal : Follows P .met .met
    (do
      match ← literal? with
      | some n => return .literalType n
      | none => failHere .typeExpected : Rule Nat Node)
    (do
      match ← literal? with
      | some n => return .literalType n
      | none => failHere .typeExpected) := by
  refine bind_of (inferInstance : Follows P .met .met literal? literal?) fun found => ?_
  cases found with
  | none => exact Follows.failHere .typeExpected []
  | some n =>
    exact inferInstanceAs (Follows P .met .met
      (Pure.pure (Node.literalType (commented P.comment n))) (Pure.pure (Node.literalType n)))

omit h in
instance : Follows P .met .met literalType literalType := by
  refine current_if (c := fun k => k = .trueKeyword || k = .falseKeyword) rfl rfl
    (fun t t' like => ?_) follows_literal
  rw [like.kind]
  infer_instance

instance {k : Kind} : Follows P .met .met (wordType type k) (wordType type' k) := by
  unfold wordType
  infer_instance

omit h in
instance {k : Kind} [inner : Holds k.isInner] : Follows P .inside .inside (nextIs k) (nextIs k) := by
  unfold nextIs
  infer_instance

end

section

variable {type type' : Rule Nat Node} [isType : TypeRule type] [isType' : TypeRule type']
  [h : Follows P .met .met type type']

theorem follows_parenthesis :
    Follows P .inside .met (alternatives [functionType type, parenthesizedType type] .typeExpected)
      (alternatives [functionType type', parenthesizedType type'] .typeExpected) := by
  let rules := [(functionType type, functionType type'), (parenthesizedType type, parenthesizedType type')]
  have balanced : ∀ e ∈ rules, Balanced e.1 ∧ Balanced e.2 := by
    simp only [rules, List.forall_mem_cons, List.not_mem_nil, false_imp_iff, implies_true, and_true]
    refine ⟨⟨?_, ?_⟩, ⟨?_, ?_⟩⟩ <;> infer_instance
  have each : ∀ e ∈ rules, Follows P .inside .met e.1 e.2 := by
    simp only [rules, List.forall_mem_cons, List.not_mem_nil, false_imp_iff, implies_true, and_true]
    refine ⟨?_, ?_⟩ <;> infer_instance
  have settle : P.Settles .inside (fun _ => False) (functionType type, functionType type')
      (parenthesizedType type, parenthesizedType type') := by
    intro s s' n t n' t' b u _ _ _ parenthesized function
    have read := leads_of_gives function
    have read' := leads_of_gives parenthesized
    exact functionType_not_parenthesizedType isType'.is.stuck read read'
  exact alternatives inferInstance balanced each (List.pairwise_pair.mpr settle)

theorem follows_primaryTypeAt (k : Kind) :
    Follows P .inside .met (primaryTypeAt type k) (primaryTypeAt type' k) := by
  refine bind_of (inferInstance : Follows P .inside .inside (nextIs .dotToken) _) fun dotted => ?_
  refine ite_of .rfl inferInstance ?_
  split
  · infer_instance
  · exact follows_parenthesis
  · infer_instance
  · infer_instance
  · infer_instance
  · exact bind_of (inferInstance : Follows P .inside .inside atMappedType _) fun mapped => inferInstance
  · exact bind_of (inferInstance : Follows P .inside .inside (nextIs .newKeyword) _) fun new =>
      inferInstance
  · infer_instance

omit laws isType isType' h in
theorem primaryTypeAt_outside {k : Kind} (is : k = .endOfFileToken ∨ k = .semicolonToken) :
    primaryTypeAt type k = failHere .typeExpected := by
  rcases is with rfl | rfl <;> rfl

instance : Follows P .met .met (primaryType type) (primaryType type') := by
  refine current_cases (f := fun t => primaryTypeAt type t.kind)
    (g := fun t => primaryTypeAt type' t.kind) (fun t t' like _ => ?_) fun t t' last last' => ?_
  · rw [like.kind]
    exact follows_primaryTypeAt t'.kind
  · rw [primaryTypeAt_outside (.inl last), primaryTypeAt_outside last']
    infer_instance

instance : Follows P .met .met (postfixType type) (postfixType type') := by
  have tests : Tests P .met (atKindOnLine .openBracketToken) (atKindOnLine .openBracketToken) :=
    .atKindOnLine (by decide)
  unfold postfixType
  infer_instance

theorem follows_operatorTypeWithin (l l' : Budget) (le : l.length ≤ l'.length)
    (eq : P.faithful → l.length = l'.length) :
    Follows P .met .met (operatorTypeWithin type l : Rule Nat Node) (operatorTypeWithin type' l') := by
  induction l generalizing l' with
  | nil =>
    refine spent (m := .typeExpected) fun faithful => ?_
    rw [List.eq_nil_of_length_eq_zero (eq faithful).symm]
    rfl
  | cons _ l ih =>
    obtain _ | ⟨_, l'⟩ := l'
    · exact absurd le (Nat.not_succ_le_zero _)
    have operand := ih l' (Nat.le_of_succ_le_succ le) fun faithful => Nat.succ.inj (eq faithful)
    have deeper : Follows P .met .met (nested (operatorTypeWithin type l : Rule Nat Node))
      (nested (operatorTypeWithin type' l')) := Follows.nested
    have operated (k : Kind) : Follows P .inside .met (operated type l k) (operated type' l' k) :=
      inferInstance
    rw [operatorTypeWithin_cons, operatorTypeWithin_cons]
    refine current_if (c := Kind.isTypeOperator) rfl rfl (fun t t' like => ?_) inferInstance
    rw [like.kind]
    exact operated t'.kind

instance : Follows P .met .met (operatorType type) (operatorType type') :=
  bounded follows_operatorTypeWithin

end

theorem follows_terms {separator : Kind} [inner : Holds separator.isInner]
    {join : List Node → Node} (shown : ∀ l, Shown P.comment (join (commented P.comment l)) (join l))
    {term term' : Rule Nat Node} [h : Follows P .met .met term term'] :
    Follows P .met .met (terms separator join term) (terms separator join term') := by
  refine next fun _ => next fun first => next fun others => ?_
  rw [isEmpty_commented]
  have joined : Shown P.comment
      (join (commented P.comment first :: commented P.comment others)) (join (first :: others)) :=
    shown (first :: others)
  infer_instance

section

variable {type type' : Rule Nat Node} [isType : TypeRule type] [isType' : TypeRule type']
  [h : Follows P .met .met type type']

instance : Follows P .met .met (intersectionType type) (intersectionType type') :=
  follows_terms fun _ => inferInstance

theorem follows_unionType : Follows P .met .met (unionType type) (unionType type') :=
  follows_terms fun _ => inferInstance

end

theorem follows_typeWithin (l l' : Budget) (le : l.length ≤ l'.length)
    (eq : P.faithful → l.length = l'.length) :
    Follows P .met .met (typeWithin l : Rule Nat Node) (typeWithin l') := by
  induction l generalizing l' with
  | nil =>
    refine spent (m := .typeExpected) fun faithful => ?_
    rw [List.eq_nil_of_length_eq_zero (eq faithful).symm]
    rfl
  | cons _ l ih =>
    obtain _ | ⟨_, l'⟩ := l'
    · exact absurd le (Nat.not_succ_le_zero _)
    have inner := ih l' (Nat.le_of_succ_le_succ le) fun faithful => Nat.succ.inj (eq faithful)
    have union : Follows P .met .met (unionType (typeWithin l)) (unionType (typeWithin l')) :=
      follows_unionType
    exact (inferInstance : Follows P .met .met (nested (unionType (typeWithin l)))
      (nested (unionType (typeWithin l'))))

instance : Follows P .met .met Grammar.type Grammar.type := bounded follows_typeWithin

end Grammar

end Ambient
