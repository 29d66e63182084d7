import Ambient.Proofs.Ground.Walks

namespace Ambient.Grammar

open Rule Walks

variable {G : Ground} [laws : G.Lawful] {x y z : Bool}

set_option synthInstance.maxSize 1000

theorem isFirm_of_isMemberName (k : Kind) (h : k.isMemberName = true) : k.isFirm = true := by
  revert h
  cases k <;> first | exact fun _ => rfl | decide

theorem isFirm_of_isName (k : Kind) (h : k.isName = true) : k.isFirm = true := by
  revert h
  cases k <;> first | exact fun _ => rfl | decide

theorem identifierOf_walks {allowed : Kind → Bool} {comment : Option String}
    (firm : ∀ k, allowed k = true → k.isFirm = true) :
    Walks G x y z (identifierOf allowed comment) (identifierOf allowed comment) :=
  current_kind firm (fun _ => inferInstance) fun _ => inferInstance

instance {comment : Option String} : Walks G x y z (name comment) (name comment) :=
  identifierOf_walks isFirm_of_isName

instance {comment : Option String} : Walks G x y z (anyName comment) (anyName comment) :=
  identifierOf_walks isFirm_of_isMemberName

/-- What goes on with a literal has read it. -/
theorem literal_walks {α : Type} {f f' : Option Node → Rule Nat α}
    (found : ∀ n, Walks G true false z (f (some n)) (f' (some n)))
    (none : Walks G x y z (f none) (f' none)) : Walks G x y z (literal? >>= f) (literal? >>= f') := by
  refine of_onward fun o s here => ?_
  have still (nothing : literal?.Gives o s Option.none s) : ∃ x' y' q q' s',
      Onward G x z (literal? >>= f) (literal? >>= f') o s x' y' q q' s' :=
    ⟨x, y, _, _, s, .stay here none (nothing.bind_eq f) (nothing.bind_eq f')⟩
  have read {n : Node} (more : s.stream.current.kind ≠ .endOfFileToken)
      (sound : s.stream.current.error = Option.none) (some : literal?.Gives o s (.some n) s.next) :
      ∃ x' y' q q' s', Onward G x z (literal? >>= f) (literal? >>= f') o s x' y' q q' s' := by
    have nearer := Stream.nearer_next (laws.scanned here.here) more
    exact ⟨true, false, _, _, s.next, .of_behind (laws.next here.here ⟨sound, more⟩), found n,
      some.bind_eq f, some.bind_eq f', nearer.suffix, fun _ _ => nearer.fewer⟩
  by_cases sound : s.stream.current.error = Option.none
  · have outside : ¬ s.stream.current.error.isSome = true := by simp [sound]
    by_cases string : s.stream.current.kind = .stringLiteral
    · exact read (string ▸ nofun) sound (.bind .current (.ite_neg outside (.ite_pos string
        (.bind .advance .pure))))
    · by_cases number : s.stream.current.kind = .numericLiteral
      · exact read (number ▸ nofun) sound (.bind .current (.ite_neg outside (.ite_neg string
          (.ite_pos number (.bind .advance .pure)))))
      · exact still (.bind .current (.ite_neg outside (.ite_neg string (.ite_neg number .pure))))
  · exact still (.bind .current (.ite_pos (Option.isSome_iff_ne_none.mpr sound) .pure))

instance : Walks G x y z stringLiteral stringLiteral := by
  refine current_if (fun t _ is => ?_) (fun _ => inferInstance) fun _ => inferInstance
  obtain ⟨string, sound⟩ := Bool.and_eq_true_iff.mp is
  exact ⟨by simpa using sound, by rw [of_decide_eq_true string]; nofun⟩

instance : Walks G x y z entityName entityName := by
  unfold entityName
  infer_instance

instance {comment : Option String} :
    Walks G x y z (propertyName comment) (propertyName comment) := by
  refine current_of fun t => ?_
  split
  · infer_instance
  · exact literal_walks (fun n => inferInstance) inferInstance

instance : Holds (interfaceModifiers.all Kind.isFirm) := ⟨rfl⟩

instance : Holds (classModifiers.all Kind.isFirm) := ⟨rfl⟩

instance : Holds (enumModifiers.all Kind.isFirm) := ⟨rfl⟩

instance : Holds (ambientModifiers.all Kind.isFirm) := ⟨rfl⟩

instance : Holds (classMemberModifiers.all Kind.isFirm) := ⟨rfl⟩

instance : Holds (typeMemberModifiers.all Kind.isFirm) := ⟨rfl⟩

instance : Holds (parameterModifiers.all Kind.isFirm) := ⟨rfl⟩

instance {kinds : Kind → Bool} : Asks (atModifier kinds) := by
  unfold atModifier
  infer_instance

instance {allowed : List Kind} [firm : Holds (allowed.all Kind.isFirm)] :
    Vouches (atModifier allowed.contains) :=
  .of_kind fun {o s} found => by
    by_cases among : allowed.contains s.stream.current.kind = true
    · exact List.all_eq_true.mp firm.eq _ (List.contains_iff_mem.mp among)
    · change (if _ then _ else _ : Rule Nat Bool).Gives _ _ _ _ at found
      rw [if_neg among] at found
      cases found

instance {α : Type} {m : Message} :
    Walks G x y z (failAtKeyword m : Rule Nat α) (failAtKeyword m) := by
  unfold failAtKeyword
  infer_instance

instance {allowed : List Kind} [Holds (allowed.all Kind.isFirm)] :
    Walks G x y x (modifiers allowed) (modifiers allowed) := by
  unfold modifiers
  infer_instance

instance {m : Message} {exempted : Kind → Bool} :
    Walks G x y x (refuseModifier m exempted) (refuseModifier m exempted) := by
  unfold refuseModifier
  infer_instance

instance {allowed : List Kind} [Holds (allowed.all Kind.isFirm)] :
    Walks G x y x (declarationModifiers allowed) (declarationModifiers allowed) := by
  unfold declarationModifiers
  infer_instance

instance : Walks G x y x memberModifiers memberModifiers := by
  unfold memberModifiers
  infer_instance

section

variable {type type' : Rule Nat Node} [types : Walks G true false true type type']

instance : Walks G x y z (typeArguments type) (typeArguments type') := by
  unfold typeArguments
  infer_instance

instance : Walks G x y x (typeArgumentsOnLine type) (typeArgumentsOnLine type') := by
  unfold typeArgumentsOnLine
  infer_instance

instance : Walks G x y z (typeParameter type) (typeParameter type') := by
  unfold typeParameter
  infer_instance

instance : Walks G x y x (typeParameters type) (typeParameters type') := by
  unfold typeParameters
  infer_instance

instance : Walks G x y z parameterName parameterName := by
  unfold parameterName
  infer_instance

/-- What is said about a question mark is said at the token that it is. -/
theorem marked_walks {f f' : Lexeme → Option Node → Rule Nat Node}
    (without : ∀ t, Walks G x y z (f t none) (f' t none))
    (behind : ∀ t : Lexeme, (∀ m, G.Blames ⟨t.start, m, []⟩) → ∀ n,
      Walks G true false z (f t (some n)) (f' t (some n))) :
    Walks G x y z (Rule.current >>= fun t => token? .questionToken >>= f t)
      (Rule.current >>= fun t => token? .questionToken >>= f' t) := by
  refine of_onward fun o s here => ?_
  by_cases is : s.stream.current.kind = .questionToken
  · have firm := (laws.scanned here.here).genuine_head.firm (is ▸ rfl)
    have nearer := Stream.nearer_next (laws.scanned here.here) firm.more
    have read : (token? .questionToken).Gives o s (some (.token .questionToken)) s.next :=
      (Gives.accept is).bind .pure
    have said (m : Message) : G.Blames ⟨s.stream.current.start, m, []⟩ := by
      have failure := laws.failure here.here m []
      rwa [Lexeme.failure, firm.error] at failure
    exact ⟨true, false, _, _, s.next, .of_behind (laws.next here.here firm), behind _ said _,
      read.bind_eq _, read.bind_eq _, nearer.suffix, fun _ _ => nearer.fewer⟩
  · have read : (token? .questionToken).Gives o s none s := .token?_not is
    exact ⟨x, y, _, _, s, .stay here (without _) (read.bind_eq _) (read.bind_eq _)⟩

instance : Walks G x y z (parameter type) (parameter type') := by
  refine step fun _ => step fun dots => next fun declared => marked_walks (fun t => ?_) ?_
  · simp only [Option.isSome_none, Bool.and_false, Bool.false_eq_true, if_false]
    infer_instance
  · intro t said n
    have := fail (x := true) (y := false) (z := z) (α := Node) (said .restParameterOptional)
    infer_instance

/-- What is said about a parameter in front of another one is said at its first token. -/
instance : Walks G x y z (listedParameter type) (listedParameter type') := by
  refine of_onward fun o s here => ?_
  have parameters : Walks G false false true (parameter type) (parameter type') := inferInstance
  have eq' := parameters.eq (o := o) here.start
  cases eq : parameter type o s with | mk result u => ?_
  rw [eq] at eq'
  cases result with
  | error e =>
    have refused : parameter type' o s = (.error e, u) := eq'.symm
    exact ⟨x, y, parameter type, parameter type', s, .stay here inferInstance
      ((bind_error eq).trans eq.symm) ((bind_error refused).trans refused.symm)⟩
  | ok n =>
    have behind := parameters.reaches here.start eq
    have nearer : u.stream.Nearer s.stream :=
      ⟨parameters.suffix here.start eq, parameters.fewer here.start eq rfl rfl⟩
    have := fail (x := true) (y := false) (z := z) (α := Node)
      (laws.earlier here.here behind.here nearer .restParameterNotLast)
    exact ⟨true, false, _, _, u, behind, inferInstance, Gives.bind_eq eq _, Gives.bind_eq eq'.symm _,
      nearer.suffix, fun _ _ => nearer.fewer⟩

instance : Walks G x y z (parameters type) (parameters type') := by
  unfold parameters
  infer_instance

omit types in
instance : Walks G x y z predicateSubject predicateSubject := by
  unfold predicateSubject
  infer_instance

omit laws types in
instance : Vouches atAssertion := by
  unfold atAssertion
  infer_instance

omit laws types in
instance : Asks atPredicate := by
  unfold atPredicate
  infer_instance

instance : Walks G true y z (resultType type) (resultType type') := by
  unfold resultType
  infer_instance

instance : Walks G x y z (annotatedResult type) (annotatedResult type') := by
  unfold annotatedResult
  infer_instance

instance {missing : Message} :
    Walks G x y z (annotatedType type missing) (annotatedType type' missing) := by
  unfold annotatedType
  infer_instance

instance {ms : Option (List Node)} :
    Walks G x y z (indexSignature type ms) (indexSignature type' ms) := by
  unfold indexSignature
  infer_instance

instance : Walks G x y z (heritageType type) (heritageType type') := by
  unfold heritageType
  infer_instance

omit types in
instance : Walks G x y x acceptHeritage acceptHeritage := by
  unfold acceptHeritage
  infer_instance

instance : Walks G x y x (heritage type) (heritage type') := by
  unfold heritage
  infer_instance

omit types in
instance : Walks G x y x memberEnd memberEnd := by
  unfold memberEnd
  infer_instance

instance : Walks G x y z (indexMember type) (indexMember type') := by
  unfold indexMember
  infer_instance

instance : Walks G x y z (callSignature type) (callSignature type') := by
  unfold callSignature
  infer_instance

instance : Walks G x y z (constructSignature type) (constructSignature type') := by
  unfold constructSignature
  infer_instance

instance : Walks G x y z (propertySignature type) (propertySignature type') := by
  unfold propertySignature
  infer_instance

instance : Walks G x y z (methodSignature type) (methodSignature type') := by
  unfold methodSignature
  infer_instance

instance : Walks G x y z (typeMember type) (typeMember type') := by
  refine step fun _ => alternatives [(indexMember type, indexMember type'),
    (callSignature type, callSignature type'), (constructSignature type, constructSignature type'),
    (propertySignature type, propertySignature type'), (methodSignature type, methodSignature type')] ?_
  simp only [List.forall_mem_cons, List.not_mem_nil, false_imp_iff, implies_true, and_true]
  refine ⟨?_, ?_, ?_, ?_, ?_⟩ <;> infer_instance

omit laws types in
instance : Asks atBlockEnd := by
  unfold atBlockEnd
  infer_instance

instance : Walks G x y z (typeMembers type) (typeMembers type') := by
  unfold typeMembers
  infer_instance

instance : Walks G x y z (constructorMember type) (constructorMember type') := by
  unfold constructorMember
  infer_instance

instance : Walks G x y z (classIndexMember type) (classIndexMember type') := by
  unfold classIndexMember
  infer_instance

instance : Walks G x y z (propertyMember type) (propertyMember type') := by
  unfold propertyMember
  infer_instance

instance : Walks G x y z (methodMember type) (methodMember type') := by
  unfold methodMember
  infer_instance

instance : Walks G x y z (classMember type) (classMember type') := by
  refine alternatives [(constructorMember type, constructorMember type'),
    (classIndexMember type, classIndexMember type'), (propertyMember type, propertyMember type'),
    (methodMember type, methodMember type')] ?_
  simp only [List.forall_mem_cons, List.not_mem_nil, false_imp_iff, implies_true, and_true]
  refine ⟨?_, ?_, ?_, ?_⟩ <;> infer_instance

instance : Walks G x y z (classMembers type) (classMembers type') := by
  unfold classMembers
  infer_instance

end

end Ambient.Grammar
