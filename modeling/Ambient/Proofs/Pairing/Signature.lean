import Ambient.Proofs.Grammar.Heritage
import Ambient.Proofs.Pairing.Name

namespace Ambient

namespace Grammar

open Rule Follows

set_option synthInstance.maxSize 1000

variable {P : Pairing} [laws : P.Lawful] {p q : Closeness}

section

variable {type type' : Rule Nat Node} [h : Follows P .met .met type type']

instance : Follows P .met .met (typeArguments type) (typeArguments type') := by
  unfold typeArguments
  infer_instance

instance : Follows P .met .met (typeArgumentsOnLine type) (typeArgumentsOnLine type') := by
  have tests : Tests P .met (atKindOnLine .lessThanToken) (atKindOnLine .lessThanToken) :=
    .atKindOnLine (by decide)
  unfold typeArgumentsOnLine
  infer_instance

instance : Follows P .met .met (typeParameter type) (typeParameter type') := by
  refine current_if rfl rfl (fun t t' like => inferInstance) inferInstance

instance : Follows P .met .met (typeParameters type) (typeParameters type') := by
  unfold typeParameters
  infer_instance

instance : Follows P .met .met parameterName parameterName :=
  next fun _ => ite_of .rfl inferInstance (current_if rfl rfl (fun _ _ _ => inferInstance) inferInstance)

omit laws in
theorem isSome_commented (x : Option Node) : (commented P.comment x).isSome = x.isSome := by
  cases x <;> rfl

instance : Follows P .met .met (parameter type) (parameter type') := by
  refine next fun ms => next fun dots => next fun declared => current_start fun t t' near =>
    next fun question => ite_of ?_ (fail fun faithful => ⟨near faithful, rfl, rfl⟩) inferInstance
  rw [isSome_commented, isSome_commented]

omit laws in
theorem isRest_commented (n : Node) : isRest (commented P.comment n) = isRest n := by
  cases n with
  | parameter ms dots name question type => cases dots <;> rfl
  | _ => rfl

instance : Follows P .met .met (listedParameter type) (listedParameter type') := by
  refine current_start fun t t' near => next fun read => next fun found =>
    ite_of ?_ (fail fun faithful => ⟨near faithful, rfl, rfl⟩) inferInstance
  rw [isRest_commented]
  rfl

instance : Follows P .met .met (parameters type) (parameters type') := by
  unfold parameters
  infer_instance

instance : Follows P .met .met predicateSubject predicateSubject := by
  unfold predicateSubject
  infer_instance

end

instance : Tests P .met atAssertion atAssertion := by
  refine .of_value atAssertion_gives (fun s is => ?_) fun {s s'} stands => ?_
  · rcases is with is | is <;> simp [nextAsserts, is]
  · unfold nextAsserts
    rw [stands.sameLine_eq (c := isSubject) rfl rfl]
    have here := (stands.within (q := .met)).class_eq (c := (decide <| · = .assertsKeyword)) rfl rfl
    exact congrArg (· && _) here

instance : Tests P .met atPredicate atPredicate := by
  refine .of_value atPredicate_gives (fun s is => ?_) fun {s s'} stands => ?_
  · unfold nextPredicates
    rcases is with is | is <;> rw [is] <;> rfl
  · unfold nextPredicates
    rw [stands.sameLine_eq (c := (decide <| · = .isKeyword)) rfl rfl]
    have here := (stands.within (q := .met)).class_eq (c := isSubject) rfl rfl
    exact congrArg (· && _) here

section

variable {type type' : Rule Nat Node} [h : Follows P .met .met type type']

instance : Follows P .met .met (resultType type) (resultType type') := by
  unfold resultType
  infer_instance

instance : Follows P .met .met (annotatedResult type) (annotatedResult type') := by
  unfold annotatedResult
  infer_instance

instance (missing : Message) :
    Follows P .met .met (annotatedType type missing) (annotatedType type' missing) := by
  unfold annotatedType
  infer_instance

instance {ms ms' : Option (List Node)} [shown : Shown P.comment ms ms'] :
    Follows P .met .met (indexSignature type ms) (indexSignature type' ms') := by
  unfold indexSignature
  infer_instance

instance : Follows P .met .met (heritageType type) (heritageType type') := by
  unfold heritageType
  infer_instance

instance : Follows P .met .met acceptHeritage acceptHeritage := by
  unfold acceptHeritage
  infer_instance

omit laws in
theorem acceptHeritage_true {o : Options} {s t : State Nat} (h : acceptHeritage.Gives o s true t) :
    (s.stream.current.kind = .extendsKeyword ∨ s.stream.current.kind = .implementsKeyword) ∧
      t = s.next := by
  obtain ⟨found, u, first, read⟩ := h.of_bind
  rcases first.of_accept with ⟨rfl, is, rfl⟩ | ⟨rfl, -, rfl⟩
  · cases read
    exact ⟨.inl is, rfl⟩
  · have second : (accept .implementsKeyword).Gives o u true t := read
    rcases second.of_accept with ⟨-, is, rfl⟩ | ⟨no, -⟩
    · exact ⟨.inr is, rfl⟩
    · cases no

omit laws in
theorem flatten_commented (ls : List (List Node)) :
    (commented P.comment ls).flatten = commented P.comment ls.flatten := List.map_flatten.symm

omit laws in
theorem isEmpty_commented (l : List Node) : (commented P.comment l).isEmpty = l.isEmpty :=
  List.isEmpty_map

instance : Follows P .met .met (heritage type) (heritage type') := by
  have eats : Eats P .met (heritageTypes type) (heritageTypes type') := by
    refine ⟨fun {s s' l t} stands read => ?_⟩
    obtain ⟨found, u, first, read⟩ := read.of_bind
    cases found with
    | false => cases read
    | true =>
      obtain ⟨is, rfl⟩ := acceptHeritage_true first
      have inside := stands.inside (by rcases is with is | is <;> rw [is] <;> decide)
      have types : Follows P .met .met
        (some <$> delimited .openBraceToken false (heritageType type))
        (some <$> delimited .openBraceToken false (heritageType type')) := inferInstance
      obtain ⟨_, _, -, -, -, le⟩ := types.gives inside.next read
      have lt := inside.ahead_lt
      omega
  have lists : Follows P .met .met (many (heritageTypes type)) (many (heritageTypes type')) :=
    inferInstance
  refine bind_of lists fun lists => ?_
  dsimp only
  rw [flatten_commented, isEmpty_commented]
  infer_instance

end

end Grammar

end Ambient
