import Ambient.Proofs.Seat.Rule

namespace Ambient.Grammar

open Rule Regime Ensures

section

variable {R : Regime} [R.Lawful] {d : Nat} {type : Rule Nat Node} [Balanced type]
  [Heeds R .bare d type]

instance : Heeds R .bare d (typeArguments type) :=
  ⟨step fun _ => step fun _ => ite failHere (next fun _ read => step fun _ => pure read)⟩

instance : Heeds R .bare d (typeArgumentsOnLine type) := ⟨step fun _ => orNone Heeds.holds⟩

instance : Heeds R .bare d (typeParameter type) :=
  ⟨step fun _ => ite (next fun _ declared => next fun _ constraint => next fun _ default =>
    pure (.of_parts ⟨declared, constraint, default, trivial⟩)) failHere⟩

instance : Heeds R .bare d (typeParameters type) :=
  ⟨.optionalAfter (step fun _ => ite failHere (next fun _ read => step fun _ => pure read))⟩

instance : Heeds R .bare d parameterName :=
  ⟨step fun _ => ite (pure (holds_identifier _ _)) (step fun _ => ite Heeds.holds failHere)⟩

instance : Heeds R .bare d (parameter type) :=
  ⟨next fun _ modifiers => next fun _ dots => next fun _ declared => step fun _ =>
    next fun _ question => ite fail (step fun _ => next fun _ annotated =>
      pure (.of_parts ⟨modifiers, dots, declared, question, annotated, trivial⟩))⟩

instance : Heeds R .bare d (listedParameter type) :=
  ⟨step fun _ => next fun _ read => step fun _ => ite fail (pure read)⟩

instance : Heeds R .bare d (parameters type) := by
  refine ⟨step fun _ => step fun _ => ite (pure .none) (next (R := R) fun _ first => ?_)⟩
  refine bind (P := R.Holds .bare d) (.many (step fun _ => ite (pure .none) ?_))
    fun _ others => step fun _ => ?_
  · exact step fun _ => step fun _ => noneOr Heeds.holds
  · exact pure (Holds.some.mpr (Holds.cons.mpr ⟨first, others⟩))

instance : Heeds R .subject d predicateSubject :=
  ⟨step fun _ => ite (pure (.of_parts trivial)) (identifierOf_ensures.imp fun _ ⟨_, eq⟩ =>
    eq ▸ .of_parts ⟨trivial, trivial, trivial⟩)⟩

instance : Heeds R .result d (resultType type) := by
  refine ⟨step fun _ => ite ?_ (step fun _ => ite ?_ ?_)⟩
  · exact step fun _ => next fun _ about => next fun _ annotated =>
      pure (.of_parts ⟨Holds.some.mpr (holds_token _), about, annotated, trivial⟩)
  · exact next fun _ about => step fun _ => next fun _ annotated =>
      pure (.of_parts ⟨.none, about, Holds.some.mpr annotated, trivial⟩)
  · exact Heeds.holds.imp fun _ => Holds.result

instance : Heeds R .result d (annotatedResult type) := ⟨step fun _ => Heeds.holds⟩

instance {missing : Message} : Heeds R .bare d (annotatedType type missing) :=
  ⟨step fun _ => ite Heeds.holds failHere⟩

theorem indexSignature_ensures {ms : Option (List Node)} (modifiers : R.Holds .bare d ms) :
    (indexSignature type ms).Ensures d (R.Holds .bare d) := by
  refine step fun _ => next (R := R) fun key named => next (R := R) fun keyType annotated =>
    step fun _ => next fun _ value => pure (.of_parts ⟨modifiers, ?_, value, trivial⟩)
  exact Holds.cons.mpr ⟨.of_parts ⟨.none, .none, named, .none, annotated, trivial⟩, .nil⟩

instance [Heeds R .bare d entityName] : Heeds R .bare d (heritageType type) :=
  ⟨next fun _ expression => step fun _ => ite (next fun _ arguments =>
    pure (.of_parts ⟨expression, Holds.some.mpr arguments, trivial⟩))
    (pure (.of_parts ⟨expression, .none, trivial⟩))⟩

instance [Heeds R .bare d entityName] : Heeds R .bare d (heritage type) := by
  refine ⟨bind (P := R.Holds .bare d) (.many (step fun _ => orNone Heeds.holds)) fun lists read => pure ?_⟩
  split
  · exact .none
  · refine Holds.some.mpr (Holds.cons.mpr ⟨.of_parts ⟨?_, trivial⟩, .nil⟩)
    refine Holds.list.mpr fun n mem => ?_
    obtain ⟨l, hl, hn⟩ := List.mem_flatten.mp mem
    exact Holds.list.mp (Holds.list.mp read l hl) n hn

instance : Heeds R .bare d (indexMember type) :=
  ⟨next fun _ modifiers => bind (indexSignature_ensures modifiers) fun _ read => step fun _ =>
    pure read⟩

instance : Heeds R .bare d (callSignature type) :=
  ⟨next fun _ typeParameters => next fun _ parameters => next fun _ result => step fun _ =>
    pure (.of_parts ⟨typeParameters, parameters, result, trivial⟩)⟩

instance : Heeds R .bare d (constructSignature type) :=
  ⟨step fun _ => next fun _ typeParameters => next fun _ parameters => next fun _ result =>
    step fun _ => pure (.of_parts ⟨typeParameters, parameters, result, trivial⟩)⟩

instance : Heeds R .bare d (propertySignature type) :=
  ⟨step fun _ => next fun _ modifiers => next fun _ declared => next fun _ question =>
    step fun _ => next fun _ value => step fun _ =>
      pure (.of_parts ⟨modifiers, declared, question, value, trivial⟩)⟩

instance : Heeds R .bare d (methodSignature type) :=
  ⟨step fun _ => next fun _ declared => next fun _ question => next fun _ typeParameters =>
    next fun _ parameters => next fun _ result => step fun _ =>
      pure (.of_parts ⟨declared, question, typeParameters, parameters, result, trivial⟩)⟩

instance : Heeds R .bare d (typeMember type) := by
  refine ⟨step fun _ => .alternatives (balanced_typeMemberRules type) ?_⟩
  simp only [List.forall_mem_cons]
  exact ⟨Heeds.holds, Heeds.holds, Heeds.holds, Heeds.holds, Heeds.holds, List.forall_mem_nil _⟩

instance : Heeds R .bare d (typeMembers type) := by
  refine ⟨step fun _ => bind (P := R.Holds .bare d) (.many (step fun _ => noneOr Heeds.holds))
    fun _ read => ?_⟩
  exact step fun _ => pure read

instance : Heeds R .bare d (constructorMember type) :=
  ⟨step fun _ => next fun _ modifiers => step fun _ => next fun _ parameters => step fun _ =>
    pure (.of_parts ⟨trivial, modifiers, parameters, trivial⟩)⟩

instance : Heeds R .bare d (classIndexMember type) :=
  ⟨next fun _ modifiers => bind (indexSignature_ensures modifiers) fun _ read => step fun _ =>
    pure read⟩

instance : Heeds R .bare d (propertyMember type) := by
  refine ⟨step fun _ => next (R := R) fun _ modifiers => next (R := R) fun _ declared =>
    next (R := R) fun _ question => ?_⟩
  refine ite (step fun _ => ?_) ?_
  all_goals
    exact step fun _ => next fun _ value => step fun _ =>
      pure (.of_parts ⟨modifiers, declared, question, value, trivial⟩)

instance : Heeds R .bare d (methodMember type) :=
  ⟨step fun _ => next fun _ modifiers => next fun _ declared => next fun _ question =>
    next fun _ typeParameters => next fun _ parameters => next fun _ result => step fun _ =>
      pure (.of_parts ⟨modifiers, declared, question, typeParameters, parameters, result, trivial⟩)⟩

instance : Heeds R .bare d (classMember type) := by
  refine ⟨.alternatives (balanced_classMemberRules type) ?_⟩
  simp only [List.forall_mem_cons]
  exact ⟨Heeds.holds, Heeds.holds, Heeds.holds, Heeds.holds, List.forall_mem_nil _⟩

instance : Heeds R .bare d (classMembers type) := by
  refine ⟨step fun _ => bind (P := R.Holds .bare d)
    (.many (step fun _ => step fun _ => noneOr Heeds.holds)) fun _ read => ?_⟩
  exact step fun _ => pure read

end

end Ambient.Grammar
