import Ambient.Proofs.Seat.Type

namespace Ambient.Grammar

open Rule Regime Ensures

variable {R : Regime} [R.Typed] {d : Nat}

theorem declarationHead_ensures {allowed : List Kind} :
    (declarationHead allowed).Ensures d fun head => R.Holds .bare d head.2 :=
  step fun _ => next fun _ read => pure read

/-- Goes on behind the head of a declaration. -/
theorem head {allowed : List Kind} {f : Option String × Option (List Node) → Rule Nat Node}
    {Q : Node → Prop} (others : ∀ comment ms, R.Holds .bare d ms → (f (comment, ms)).Ensures d Q) :
    (declarationHead allowed >>= f).Ensures d Q :=
  bind declarationHead_ensures fun (comment, ms) read => others comment ms read

theorem interfaceDeclaration_ensures : interfaceDeclaration.Ensures d (R.Whole d) :=
  head fun _ _ modifiers => step fun _ => next fun _ declared => next fun _ typeParameters =>
    next fun _ heritage => next fun _ members =>
      pure (.of_parts ⟨modifiers, declared, typeParameters, heritage, members, trivial⟩)

theorem classDeclaration_ensures : classDeclaration.Ensures d (R.Whole d) :=
  head fun _ _ modifiers => step fun _ => next fun _ declared => next fun _ typeParameters =>
    next fun _ heritage => next fun _ members =>
      pure (.of_parts ⟨modifiers, declared, typeParameters, heritage, members, trivial⟩)

theorem typeAlias_ensures : typeAlias.Ensures d (R.Whole d) :=
  head fun _ _ modifiers => step fun _ => next fun _ declared => next fun _ typeParameters =>
    step fun _ => next fun _ value => step fun _ =>
      pure (.of_parts ⟨modifiers, declared, typeParameters, value, trivial⟩)

instance : Heeds R .bare d enumValue := by
  refine ⟨next (R := R) fun found fits => ?_⟩
  split
  · exact pure (Holds.some.mp fits)
  · exact failHere

instance : Heeds R .bare d enumMember :=
  ⟨step fun _ => step fun _ => ite (next fun _ declared => next fun _ value =>
    pure (.of_parts ⟨declared, value, trivial⟩)) failHere⟩

theorem enumDeclaration_ensures : enumDeclaration.Ensures d (R.Whole d) :=
  head fun _ _ modifiers => step fun _ => next fun _ declared => step fun _ =>
    next fun _ members => step fun _ => pure (.of_parts ⟨modifiers, declared, members, trivial⟩)

theorem functionDeclaration_ensures : functionDeclaration.Ensures d (R.Whole d) :=
  head fun _ _ modifiers => step fun _ => next fun _ declared => next fun _ typeParameters =>
    next fun _ parameters => next fun _ result => step fun _ =>
      pure (.of_parts ⟨modifiers, declared, typeParameters, parameters, result, trivial⟩)

instance {comment : Option String} : Heeds R .bare d (variableDeclaration comment) :=
  ⟨next fun _ declared => step fun _ => next fun _ annotated =>
    pure (.of_parts ⟨declared, annotated, trivial⟩)⟩

instance {comment : Option String} : Heeds R .bare d (variableList comment) :=
  ⟨next fun _ first => next fun _ others => pure (Holds.cons.mpr ⟨first, others⟩)⟩

theorem variableStatement_ensures : variableStatement.Ensures d (R.Whole d) := by
  refine head (R := R) fun _ _ modifiers => step fun _ => ?_
  split
  · exact failHere
  · exact step fun _ => next fun _ declarations => step fun _ =>
      pure (.of_parts ⟨modifiers, .of_parts ⟨trivial, declarations, trivial⟩, trivial⟩)

/-- A specifier is made of a mark and two names, of which the first may be left out. -/
theorem specifier_ensures {make : Bool → Option Node → Node → Node}
    (made : ∀ b x n, R.Holds .bare d x → R.Holds .bare d n → R.Holds .bare d (make b x n)) :
    (specifier make).Ensures d (R.Holds .bare d) := by
  refine step fun _ => next (R := R) fun first named => next (R := R) fun second fits => ?_
  split
  · exact pure (made _ _ _ (Holds.some.mpr named) (Holds.some.mp fits))
  · exact pure (made _ _ _ .none named)

instance : Heeds R .bare d (specifier .importSpecifier) :=
  ⟨specifier_ensures fun _ _ _ other named => .of_parts ⟨trivial, other, named, trivial⟩⟩

instance : Heeds R .bare d (specifier .exportSpecifier) :=
  ⟨specifier_ensures fun _ _ _ other named => .of_parts ⟨trivial, other, named, trivial⟩⟩

instance {make : Bool → Option Node → Node → Node} [Heeds R .bare d (specifier make)] :
    Heeds R .bare d (specifiers make) :=
  ⟨step fun _ => step fun _ => ite (pure .nil) (next fun _ read => step fun _ => pure read)⟩

instance : Heeds R .bare d importBindings :=
  ⟨step fun _ => ite (step fun _ => next fun _ named => pure (.of_parts ⟨named, trivial⟩))
    (next fun _ read => pure (.of_parts ⟨read, trivial⟩))⟩

instance : Heeds R .bare d importClause := by
  refine ⟨step fun _ => step fun _ => ite ?_ ?_⟩
  · exact next fun _ named => next fun _ bindings =>
      pure (.of_parts ⟨trivial, Holds.some.mpr named, bindings, trivial⟩)
  · exact next fun _ bindings =>
      pure (.of_parts ⟨trivial, .none, Holds.some.mpr bindings, trivial⟩)

theorem importDeclaration_ensures : importDeclaration.Ensures d (R.Whole d) := by
  refine step fun _ => step fun _ => ite ?_ ?_
  · exact next fun _ module => step fun _ => pure (.of_parts ⟨.none, module, trivial⟩)
  · exact next fun _ clause => step fun _ => next fun _ module => step fun _ =>
      pure (.of_parts ⟨Holds.some.mpr clause, module, trivial⟩)

theorem exportDeclaration_ensures : exportDeclaration.Ensures d (R.Whole d) := by
  refine step fun _ => step fun _ => step fun _ => ite ?_ ?_
  · exact step fun _ => next fun _ module => step fun _ =>
      pure (.of_parts ⟨trivial, .none, Holds.some.mpr module, trivial⟩)
  · refine next (R := R) fun _ elements => next (R := R) fun _ module => step fun _ =>
      pure (.of_parts ⟨trivial, Holds.some.mpr ?_, module, trivial⟩)
    exact .of_parts ⟨elements, trivial⟩

theorem exportAssignment_ensures : exportAssignment.Ensures d (R.Whole d) :=
  step fun _ => step fun _ => step fun _ => ite (step fun _ => next fun _ expression =>
    step fun _ => pure (.of_parts ⟨trivial, expression, trivial⟩)) failHere

theorem namespaceExport_ensures : namespaceExport.Ensures d (R.Whole d) :=
  step fun _ => step fun _ => step fun _ => next fun _ declared => step fun _ =>
    pure (.of_parts ⟨declared, trivial⟩)

section

variable {statement : Rule Nat Node} [Balanced statement] [heeds : ∀ d, Heeds R .bare d statement]

instance {close : Kind} : Heeds R .bare d (statementsUntil statement close) :=
  ⟨.many (step fun _ => step fun _ => noneOr (heeds d).holds)⟩

instance : Heeds R .bare d (moduleBlock statement) :=
  ⟨step fun _ => next fun _ statements => step fun _ => pure (.of_parts ⟨statements, trivial⟩)⟩

theorem namespaceWithin_ensures (budget : Budget) (d : Nat) (flags : UInt32)
    {ms : Option (List Node)} (modifiers : R.Holds .bare d ms) (comment : Option String) :
    Ensures d (namespaceWithin statement budget flags ms comment) (R.Whole d) := by
  induction budget generalizing d flags ms comment with
  | nil => exact failHere
  | cons _ budget ih =>
    have inner (flags : UInt32) : (Rule.nested
        (namespaceWithin statement budget flags none none)).Ensures d (R.Holds .bare d) := by
      refine Ensures.nested (r := namespaceWithin statement budget flags none none) ?_
      rintro d' rfl
      exact (ih d' flags .none none).imp fun n => Whole.nested
    rintro s n u ⟨o, depth, left, h⟩
    unfold namespaceWithin at h
    refine next (R := R) (fun declared named => step fun _ => ite ?_ ?_) ⟨o, depth, left, h⟩
    · exact bind (inner _) fun _ below =>
        pure (.of_parts ⟨trivial, modifiers, named, Holds.some.mpr below, trivial⟩)
    · exact next fun _ body =>
        pure (.of_parts ⟨trivial, modifiers, named, Holds.some.mpr body, trivial⟩)

theorem quotedModule_ensures {ms : Option (List Node)} (modifiers : R.Holds .bare d ms) :
    (quotedModule statement ms).Ensures d (R.Whole d) :=
  next fun _ quoted => step fun _ => ite
    (next fun _ body =>
      pure (.of_parts ⟨trivial, modifiers, quoted, Holds.some.mpr body, trivial⟩))
    (step fun _ => pure (.of_parts ⟨trivial, modifiers, quoted, .none, trivial⟩))

theorem moduleDeclaration_ensures : (moduleDeclaration statement).Ensures d (R.Whole d) := by
  refine head (R := R) fun comment ms modifiers => step fun _ => ?_
  split
  · exact failHere
  · refine step fun _ => step fun _ => ite (quotedModule_ensures modifiers) ?_
    exact .bounded fun budget => namespaceWithin_ensures budget d _ modifiers comment

theorem globalBlock_ensures : (globalBlock statement).Ensures d (R.Whole d) :=
  next fun _ modifiers => step fun _ => next fun _ body =>
    pure (.of_parts ⟨trivial, modifiers, holds_identifier _ _, Holds.some.mpr body, trivial⟩)

theorem statementRules_ensure : ∀ r ∈ statementRules statement, r.Ensures d (R.Whole d) := by
  simp only [statementRules, List.forall_mem_cons]
  exact ⟨importDeclaration_ensures, namespaceExport_ensures, exportDeclaration_ensures,
    interfaceDeclaration_ensures, classDeclaration_ensures, functionDeclaration_ensures,
    typeAlias_ensures, enumDeclaration_ensures, variableStatement_ensures,
    moduleDeclaration_ensures, globalBlock_ensures, exportAssignment_ensures, List.forall_mem_nil _⟩

end

theorem statementWithin_heeds (budget : Budget) (d : Nat) :
    Heeds R .bare d (statementWithin budget : Rule Nat Node) := by
  induction budget generalizing d with
  | nil => exact ⟨failHere⟩
  | cons _ budget ih =>
    have : ∀ d, Heeds R .bare d (statementWithin budget : Rule Nat Node) := ih
    have balanced := balanced_statementRules (statementWithin budget)
    have : Balanced (alternatives (statementRules (statementWithin budget)) .statementExpected) :=
      .alternatives balanced
    refine ⟨(Ensures.nested (r := alternatives (statementRules (statementWithin budget))
      .statementExpected) ?_ :)⟩
    rintro d' rfl
    exact (Ensures.alternatives balanced (statementRules_ensure (R := R))).imp fun n => Whole.nested

instance : Heeds R .bare d statement := ⟨.bounded fun budget => (statementWithin_heeds budget d).holds⟩

end Ambient.Grammar
