import Ambient.Proofs.Ground.Signature

namespace Ambient.Grammar

open Rule Walks

variable {G : Ground} [laws : G.Lawful] {x y z : Bool}

set_option synthInstance.maxSize 1000

section

variable {type type' : Rule Nat Node} [types : Walks G true false true type type']

instance : Walks G x y z (typeReference type) (typeReference type') := by
  unfold typeReference
  infer_instance

instance : Walks G x y z (typeQuery type) (typeQuery type') := by
  unfold typeQuery
  infer_instance

instance : Walks G x y z (arrowResult type) (arrowResult type') := by
  unfold arrowResult
  infer_instance

instance : Walks G x y z (functionType type) (functionType type') := by
  unfold functionType
  infer_instance

instance : Walks G x y z (constructorType type) (constructorType type') := by
  unfold constructorType
  infer_instance

instance : Walks G x y z (parenthesizedType type) (parenthesizedType type') := by
  unfold parenthesizedType
  infer_instance

omit laws types in
instance : Asks atLabel := by
  unfold atLabel
  infer_instance

instance : Walks G x y z (labelledElement type) (labelledElement type') := by
  unfold labelledElement
  infer_instance

instance : Walks G true y z (tupleElement type) (tupleElement type') := by
  unfold tupleElement
  infer_instance

instance : Walks G x y z (tupleType type) (tupleType type') := by
  unfold tupleType
  infer_instance

omit laws types in
instance : Asks atMappedType := by
  unfold atMappedType
  dsimp only
  refine @Asks.lookAhead _ (@Sure.bind _ _ _ _ _ fun _ => @Sure.bind _ _ _ _ _ fun t => ?_) inferInstance
  split <;> infer_instance

omit types in
instance {k : Kind} [Holds k.isFirm] : Walks G x y x (signed k) (signed k) := by
  refine current_kind (c := fun k => (decide (k = .plusToken) || decide (k = .minusToken)) = true)
    (fun k is => ?_) (fun _ => inferInstance) fun _ => inferInstance
  rcases Bool.or_eq_true _ _ ▸ is with plus | minus
  · exact of_decide_eq_true plus ▸ rfl
  · exact of_decide_eq_true minus ▸ rfl

instance : Walks G x y z (mappedType type) (mappedType type') := by
  unfold mappedType
  dsimp only
  infer_instance

omit types in
instance : Walks G x y z literalType literalType := by
  refine current_kind (c := fun k => (decide (k = .trueKeyword) || decide (k = .falseKeyword)) = true)
    (fun k is => ?_) (fun _ => inferInstance)
    fun _ => literal_walks (fun _ => inferInstance) inferInstance
  rcases Bool.or_eq_true _ _ ▸ is with plus | minus
  · exact of_decide_eq_true plus ▸ rfl
  · exact of_decide_eq_true minus ▸ rfl

omit laws types in
instance {k : Kind} : Asks (nextIs k) := by
  unfold nextIs
  infer_instance

instance {k : Kind} : Walks G x y z (wordType type k) (wordType type' k) := by
  unfold wordType
  infer_instance

theorem parenthesis_walks :
    Walks G x y z (alternatives [functionType type, parenthesizedType type] .typeExpected)
      (alternatives [functionType type', parenthesizedType type'] .typeExpected) := by
  refine alternatives [(functionType type, functionType type'),
    (parenthesizedType type, parenthesizedType type')] ?_
  simp only [List.forall_mem_cons, List.not_mem_nil, false_imp_iff, implies_true, and_true]
  refine ⟨?_, ?_⟩ <;> infer_instance

omit laws types in
/-- Of a token that may not be read the rules for words find out what it is. -/
theorem primaryType_word {o : Options} {s : State Nat} (word : s.stream.current.kind.isFirm ≠ true) :
    primaryType type o s = wordType type s.stream.current.kind o s := by
  have bare (k : Kind) (h : k.isFirm ≠ true) :
      k = .unknown ∨ k = .stringLiteral ∨ k = .numericLiteral ∨ k = .endOfFileToken := by
    revert h
    cases k <;> first | exact fun h => absurd rfl h | decide
  obtain ⟨dotted, found⟩ := Asks.gives (c := nextIs .dotToken) o s
  refine (Gives.current.bind_eq _).trans ((found.bind_eq _).trans ?_)
  rcases bare _ word with is | is | is | is
  all_goals
    rw [is]
    rfl

instance : Walks G x y z (primaryType type) (primaryType type') := by
  refine of_onward fun o s here => ?_
  by_cases firm : s.stream.current.kind.isFirm = true
  · have firm := (laws.scanned here.here).genuine_head.firm firm
    refine ⟨x, true, _, _, s, .stay (here.of_firm firm) ?_ (Gives.current.bind_eq _)
      (Gives.current.bind_eq _)⟩
    refine ask_of fun dotted => ?_
    split
    · infer_instance
    · split
      · infer_instance
      · exact parenthesis_walks
      all_goals infer_instance
  · exact ⟨x, y, _, _, s, .stay here (inferInstance : Walks G x y z (wordType type _) (wordType type' _))
      (primaryType_word firm) (primaryType_word firm)⟩

omit laws types in
theorem isFirm_of_isTypeOperator (k : Kind) (h : k.isTypeOperator = true) : k.isFirm = true := by
  simp only [Kind.isTypeOperator, Bool.or_eq_true, decide_eq_true_eq] at h
  rcases h with (rfl | rfl) | rfl <;> rfl

instance : Walks G x y z (postfixType type) (postfixType type') := by
  unfold postfixType
  infer_instance

theorem operatorTypeWithin_walks (budget : Budget) :
    Walks G x y z (operatorTypeWithin type budget : Rule Nat Node) (operatorTypeWithin type' budget) := by
  induction budget generalizing x y z with
  | nil => exact failHere .typeExpected []
  | cons first budget ih =>
    have operand : Walks G true false true (nested (operatorTypeWithin type budget : Rule Nat Node))
        (nested (operatorTypeWithin type' budget)) := Walks.nested (h := ih)
    rw [operatorTypeWithin_cons, operatorTypeWithin_cons]
    exact current_kind isFirm_of_isTypeOperator (fun t => inferInstance) fun t => inferInstance

instance : Walks G x y z (operatorType type) (operatorType type') :=
  bounded (h := operatorTypeWithin_walks)

instance {separator : Kind} [Holds separator.isFirm] {join : List Node → Node}
    {term term' : Rule Nat Node} [∀ x z, Walks G x false z term term'] :
    Walks G x y z (terms separator join term) (terms separator join term') := by
  unfold terms
  infer_instance

instance : Walks G x y z (intersectionType type) (intersectionType type') := by
  unfold intersectionType
  infer_instance

theorem unionType_walks : Walks G x y z (unionType type) (unionType type') := by
  unfold unionType
  infer_instance

end

theorem typeWithin_walks (budget : Budget) :
    Walks G x y z (typeWithin budget : Rule Nat Node) (typeWithin budget) := by
  induction budget generalizing x y z with
  | nil => exact failHere .typeExpected []
  | cons first budget ih =>
    have : Walks G true false true (typeWithin budget : Rule Nat Node) (typeWithin budget) := ih
    exact Walks.nested (h := unionType_walks)

instance : Walks G x y z type type := bounded (h := typeWithin_walks)

end Ambient.Grammar
