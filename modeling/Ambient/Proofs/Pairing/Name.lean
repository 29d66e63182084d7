import Ambient.Grammar.Name
import Ambient.Proofs.Grammar.Modifiers
import Ambient.Proofs.Pairing.Repeat

namespace Ambient

namespace Grammar

open Rule Follows

set_option synthInstance.maxSize 1000

variable {P : Pairing} [laws : P.Lawful] {p q : Closeness}

theorem follows_identifierOf {allowed : Kind → Bool} (ends : allowed .endOfFileToken = false)
    (semicolon : allowed .semicolonToken = false) {c c' : Option String}
    [shown : Shown P.comment c c'] :
    Follows P .met .met (identifierOf allowed c) (identifierOf allowed c') := by
  refine current_if ends semicolon (fun t t' like => ?_) inferInstance
  rw [like.value]
  infer_instance

instance {c c' : Option String} [shown : Shown P.comment c c'] :
    Follows P .met .met (name c) (name c') := follows_identifierOf rfl rfl

instance {c c' : Option String} [shown : Shown P.comment c c'] :
    Follows P .met .met (anyName c) (anyName c') := follows_identifierOf rfl rfl

theorem literal?_outside {t : Lexeme} (is : t.kind = .endOfFileToken ∨ t.kind = .semicolonToken) :
    (if t.error.isSome = true then Pure.pure none
      else if t.kind = .stringLiteral then do
        advance
        return some (.stringLiteral t.value)
      else if t.kind = .numericLiteral then do
        advance
        return some (.numericLiteral t.value)
      else return none : Rule Nat (Option Node)) = Pure.pure none := by
  rcases is with is | is <;> simp [is]

instance : Follows P .met .met literal? literal? := by
  refine current_cases (fun t t' like _ => ?_) fun t t' last last' => ?_
  · rw [like.kind, like.error, like.value]
    infer_instance
  · rw [literal?_outside (.inl last), literal?_outside last']
    infer_instance

instance : Follows P .met .met stringLiteral stringLiteral := by
  refine current_cases (fun t t' like _ => ?_) fun t t' last last' => ?_
  · rw [like.kind, like.error, like.value]
    infer_instance
  · rcases last' with last' | last' <;>
      simp only [last, last', reduceCtorEq, decide_false, Bool.false_and, Bool.false_eq_true,
        if_false] <;>
      infer_instance

instance : Shown P.comment (none : Option String) none := ⟨laws.comment_none.symm⟩

instance : Follows P .met .met entityName entityName := by
  unfold entityName
  infer_instance

instance {c c' : Option String} [shown : Shown P.comment c c'] :
    Follows P .met .met (propertyName c) (propertyName c') := by
  refine current_if rfl rfl (fun t t' like => inferInstance) ?_
  refine bind_of (inferInstance : Follows P .met .met literal? literal?) fun found => ?_
  cases found with
  | none => exact Follows.failHere .identifierExpected []
  | some n => exact inferInstanceAs (Follows P .met .met (Pure.pure (commented P.comment n)) _)

instance {α : Type} [Commented α] (m : Message) :
    Follows P .met q (failAtKeyword m : Rule Nat α) (failAtKeyword m) := by
  refine of_abreast (current fun t t' like => ?_) fun last h => ?_
  · rw [like.kind]
    infer_instance
  · cases h

theorem tests_atModifier {kinds : Kind → Bool} (ends : kinds .endOfFileToken = false)
    (semicolon : kinds .semicolonToken = false) :
    Tests P .met (atModifier kinds) (atModifier kinds) := by
  refine .of_value (atModifier_gives kinds) (fun s is => ?_) fun {s s'} stands => ?_
  · rcases is with is | is <;> simp [nextModifies, is, ends, semicolon]
  · have next : canFollowModifier s.next.stream.current.kind =
        canFollowModifier s'.next.stream.current.kind := stands.next.class_eq rfl rfl
    unfold nextModifies
    rw [stands.within.class_eq ends semicolon]
    exact congrArg _ next

instance shown_tokens (ks : List Kind) :
    Shown P.comment (ks.map Node.token) (ks.map Node.token) :=
  ⟨by rw [Node.commented_list, List.map_map]; rfl⟩

/-- Kinds that are modifiers, none of which is asked for at the end of a text by mistake. -/
class ModifierKinds (allowed : List Kind) : Prop where
  ends : allowed.contains .endOfFileToken = false
  semicolon : allowed.contains .semicolonToken = false

instance : ModifierKinds interfaceModifiers := ⟨rfl, rfl⟩

instance : ModifierKinds classModifiers := ⟨rfl, rfl⟩

instance : ModifierKinds enumModifiers := ⟨rfl, rfl⟩

instance : ModifierKinds ambientModifiers := ⟨rfl, rfl⟩

instance : ModifierKinds classMemberModifiers := ⟨rfl, rfl⟩

instance : ModifierKinds typeMemberModifiers := ⟨rfl, rfl⟩

instance : ModifierKinds parameterModifiers := ⟨rfl, rfl⟩

instance (allowed : List Kind) [kinds : ModifierKinds allowed] :
    Follows P .met .met (modifiers allowed) (modifiers allowed) := by
  have tests := tests_atModifier (P := P) kinds.ends kinds.semicolon
  have grow (seen : List Kind) : Follows P .inside .met (modifierRead seen) (modifierRead seen) := by
    refine current fun t t' like => ?_
    rw [like.kind]
    infer_instance
  have eats (seen : List Kind) : Consumes P .inside (modifierRead seen) (modifierRead seen) := by
    have refused : Consumes P .inside (failAtKeyword .modifierRepeated : Rule Nat (Option (List Kind)))
        (failAtKeyword .modifierRepeated) := ⟨fun _ h => by cases h⟩
    exact .current fun t => .ite
  have loop : Follows P .met .met (iterate (modifierStep allowed) [])
      (iterate (modifierStep allowed) []) := inferInstance
  exact bind_of loop fun kinds => inferInstance

theorem follows_refuseModifier (m : Message) {exempted : Kind → Bool} [within : p.Within .met] :
    Follows P p p (refuseModifier m exempted) (refuseModifier m exempted) := by
  have tests : Tests P p (atModifier fun k => k.isModifier && !exempted k)
    (atModifier fun k => k.isModifier && !exempted k) :=
      ⟨fun stands => (tests_atModifier rfl rfl).gives stands.within⟩
  unfold refuseModifier
  infer_instance

instance (allowed : List Kind) [kinds : ModifierKinds allowed] :
    Follows P .met .met (declarationModifiers allowed) (declarationModifiers allowed) := by
  have refuse : Follows P .met .met (refuseModifier .modifierMisplaced (· = .constKeyword))
    (refuseModifier .modifierMisplaced (· = .constKeyword)) := follows_refuseModifier _
  unfold declarationModifiers
  infer_instance

instance : Follows P .met .met memberModifiers memberModifiers := by
  have refuse : Follows P .met .met (refuseModifier .modifierOnTypeMember fun _ => false)
    (refuseModifier .modifierOnTypeMember fun _ => false) := follows_refuseModifier _
  unfold memberModifiers
  infer_instance

end Grammar

end Ambient
