import Ambient.Grammar.Import
import Ambient.Proofs.Grammar.Name

namespace Ambient.Grammar

open Rule Node

variable {d : Nat} {s u : Stream}

/-- The word `type` is read only where it is no name. -/
theorem acceptTypeOnly_leads {follows : Kind → Bool} {x : Bool}
    (h : (acceptTypeOnly follows).Leads d s x u) :
    (s.current.kind = .typeKeyword ∧ follows s.next.current.kind = true ∧ u = s.next) ∨ s = u := by
  obtain ⟨found, _, here, h⟩ := h.bind
  obtain ⟨⟨t, ahead⟩, rfl⟩ := here.lookAhead
  obtain ⟨accepted, t', keyword, ahead⟩ := ahead.bind
  rcases keyword.accept with ⟨rfl, is, rfl⟩ | ⟨rfl, -, rfl⟩
  · obtain ⟨token, t', here, ahead⟩ := ahead.of_true.bind
    obtain ⟨rfl, rfl⟩ := here.current
    obtain ⟨rfl, -⟩ := ahead.pure
    rcases h.ite with ⟨found, h⟩ | ⟨-, h⟩
    · obtain ⟨_, _, step, h⟩ := h.bind
      obtain rfl := step.advance
      exact .inl ⟨is, found, h.pure.2.symm⟩
    · exact .inr h.pure.2
  · obtain ⟨rfl, -⟩ := ahead.of_false.pure
    exact .inr h.of_false.pure.2

theorem acceptTypeOnly_yields {follows : Kind → Bool} {x : Bool}
    (h : (acceptTypeOnly follows).Leads d s x u) : Yields 0 s 0 [] u := by
  rcases acceptTypeOnly_leads h with ⟨is, -, rfl⟩ | rfl
  · exact (Yields.mark (by rw [is]; decide)).weaken (Nat.zero_le 1) (by omega)
  · exact .refl s

/-- The parts of a name in an import or export. -/
theorem specifier_yields {make : Bool → Option Node → Node → Node} {n : Node}
    (h : (specifier make).Leads d s n u) :
    ∃ isTypeOnly propertyName name, n = make isTypeOnly propertyName name ∧
      Yields (5 * d + 1) s 1 ((Part.node? "PropertyName" (.shape .identifier) propertyName).places ++
        [(.shape .identifier, name)]) u := by
  obtain ⟨isTypeOnly, s1, h1, h⟩ := h.bind
  obtain ⟨first, s2, h2, h⟩ := h.bind
  obtain ⟨renamed, s3, h3, h⟩ := h.bind
  have y1 := acceptTypeOnly_yields h1
  have y2 := anyName_reads (t := .shape .identifier) (by decide) h2
  have y3 := optionalAfter_yields "Name" (anyName_reads (t := .shape .identifier) (by decide))
    h3 rfl
  cases renamed with
  | some second =>
    obtain ⟨rfl, rfl⟩ := h.pure
    exact ⟨isTypeOnly, some first, second, rfl, (y1.trans (y2.trans y3)).weaken (by decide)
      (by omega)⟩
  | none =>
    obtain ⟨rfl, rfl⟩ := h.pure
    exact ⟨isTypeOnly, none, first, rfl, (y1.trans (y2.trans y3)).weaken (by decide) (by omega)⟩

theorem importSpecifier_reads : (specifier .importSpecifier).Reads 2 (.shape .importSpecifier) := by
  intro d s n u h
  obtain ⟨isTypeOnly, propertyName, name, rfl, yields⟩ := specifier_yields h
  exact .node yields (.of_shape .importSpecifier (by simp [parts]) trivial rfl (by decide))
    rfl (by omega)

theorem exportSpecifier_reads : (specifier .exportSpecifier).Reads 2 (.shape .exportSpecifier) := by
  intro d s n u h
  obtain ⟨isTypeOnly, propertyName, name, rfl, yields⟩ := specifier_yields h
  exact .node yields (.of_shape .exportSpecifier (by simp [parts]) trivial rfl (by decide))
    rfl (by omega)

theorem specifiers_yields {make : Bool → Option Node → Node → Node} {t : Target}
    (hm : (specifier make).Reads 2 t) {l : List Node} (h : (specifiers make).Leads d s l u) :
    Yields (5 * d + 2) s 1 (l.map (t, ·)) u := by
  obtain ⟨_, s1, h1, h⟩ := h.bind
  obtain ⟨found, s2, h2, h⟩ := h.bind
  have y1 := expect_yields h1 rfl
  have y2 := accept_yields h2 rfl
  rcases h.ite with ⟨-, h⟩ | ⟨-, h⟩
  · obtain ⟨rfl, rfl⟩ := h.pure
    exact (y1.trans y2).weaken (by decide) (by omega)
  · obtain ⟨read, s3, h3, h⟩ := h.bind
    obtain ⟨_, s4, h4, h⟩ := h.bind
    obtain ⟨rfl, rfl⟩ := h.pure
    have all := y1.trans (y2.trans ((delimited_yields hm h3).1.trans (expect_yields h4 rfl)))
    rw [List.append_nil] at all
    exact all.weaken (by decide) (by omega)

theorem importBindings_reads : importBindings.Reads 3 (.category .importBindings) := by
  intro d s n u h
  obtain ⟨found, s1, h1, h⟩ := h.bind
  have y1 := accept_yields h1 rfl
  rcases h.ite with ⟨-, h⟩ | ⟨-, h⟩
  · obtain ⟨_, s2, h2, h⟩ := h.bind
    obtain ⟨declared, s3, h3, h⟩ := h.bind
    obtain ⟨rfl, rfl⟩ := h.pure
    have y3 := name_reads (t := .shape .identifier) (by decide) h3
    exact .node (y1.trans ((expect_yields h2 rfl).trans y3))
      (.of_shape .namespaceImport (by simp [parts]) trivial rfl (by decide)) rfl (by omega)
  · obtain ⟨elements, s2, h2, h⟩ := h.bind
    obtain ⟨rfl, rfl⟩ := h.pure
    have y2 := specifiers_yields importSpecifier_reads h2
    exact .node (y1.trans (y2.trans (.refl _)))
      (.of_shape .namedImports (by simp [parts, Part.lawful_list]) trivial rfl (by decide))
        rfl (by omega)

theorem importClause_reads : importClause.Reads 4 (.shape .importClause) := by
  intro d s n u h
  obtain ⟨isTypeOnly, s1, h1, h⟩ := h.bind
  obtain ⟨_, _, here, h⟩ := h.bind
  obtain ⟨rfl, rfl⟩ := here.current
  have y1 := acceptTypeOnly_yields h1
  rcases h.ite with ⟨-, h⟩ | ⟨-, h⟩
  · obtain ⟨default, s2, h2, h⟩ := h.bind
    obtain ⟨bindings, s3, h3, h⟩ := h.bind
    obtain ⟨rfl, rfl⟩ := h.pure
    have y2 := name_reads (t := .shape .identifier) (by decide) h2
    have y3 := optionalAfter_yields "NamedBindings" importBindings_reads h3 rfl
    exact .node (y1.trans (y2.trans (y3.trans (.refl _))))
      (.of_shape .importClause (by simp [parts]) trivial rfl (by decide)) rfl (by omega)
  · obtain ⟨bindings, s2, h2, h⟩ := h.bind
    obtain ⟨rfl, rfl⟩ := h.pure
    exact .node (y1.trans (importBindings_reads h2))
      (.of_shape .importClause (by simp [parts]) trivial rfl (by decide)) rfl (by omega)

theorem importDeclaration_reads : importDeclaration.Reads 6 (.category .statement) := by
  intro d s n u h
  obtain ⟨_, s1, h1, h⟩ := h.bind
  obtain ⟨_, _, here, h⟩ := h.bind
  obtain ⟨-, rfl⟩ := here.atKind
  have y1 := expect_yields h1 rfl
  rcases h.ite with ⟨-, h⟩ | ⟨-, h⟩
  · obtain ⟨module, s2, h2, h⟩ := h.bind
    obtain ⟨_, s3, h3, h⟩ := h.bind
    obtain ⟨rfl, rfl⟩ := h.pure
    have y2 := stringLiteral_reads (t := .shape .stringLiteral) (by decide) h2
    exact .node (y1.trans (y2.trans (semicolon_yields h3)))
      (.of_shape .importDeclaration (by simp [parts]) trivial rfl (by decide)) rfl (by omega)
  · obtain ⟨clause, s2, h2, h⟩ := h.bind
    obtain ⟨_, s3, h3, h⟩ := h.bind
    obtain ⟨module, s4, h4, h⟩ := h.bind
    obtain ⟨_, s5, h5, h⟩ := h.bind
    obtain ⟨rfl, rfl⟩ := h.pure
    have y4 := stringLiteral_reads (t := .shape .stringLiteral) (by decide) h4
    exact .node (y1.trans ((importClause_reads h2).trans ((expect_yields h3 rfl).trans (y4.trans
      (semicolon_yields h5))))) (.of_shape .importDeclaration (by simp [parts]) trivial rfl
        (by decide)) rfl (by omega)

theorem exportDeclaration_reads : exportDeclaration.Reads 6 (.category .statement) := by
  intro d s n u h
  obtain ⟨_, s1, h1, h⟩ := h.bind
  obtain ⟨isTypeOnly, s2, h2, h⟩ := h.bind
  obtain ⟨found, s3, h3, h⟩ := h.bind
  have head := (expect_yields h1 rfl).trans
    ((acceptTypeOnly_yields h2).trans (accept_yields h3 rfl))
  rcases h.ite with ⟨-, h⟩ | ⟨-, h⟩
  · obtain ⟨_, s4, h4, h⟩ := h.bind
    obtain ⟨module, s5, h5, h⟩ := h.bind
    obtain ⟨_, s6, h6, h⟩ := h.bind
    obtain ⟨rfl, rfl⟩ := h.pure
    have y5 := stringLiteral_reads (t := .shape .stringLiteral) (by decide) h5
    exact .node (head.trans ((expect_yields h4 rfl).trans (y5.trans (semicolon_yields h6))))
      (.of_shape .exportDeclaration (by simp [parts]) trivial rfl (by decide)) rfl (by omega)
  · obtain ⟨elements, s4, h4, h⟩ := h.bind
    obtain ⟨module, s5, h5, h⟩ := h.bind
    obtain ⟨_, s6, h6, h⟩ := h.bind
    obtain ⟨rfl, rfl⟩ := h.pure
    have y4 := specifiers_yields exportSpecifier_reads h4
    have clause : Yields (5 * d + 3) s3 1 [(.shape .namedExports, .namedExports elements)] s4 :=
      .node (y4.trans (.refl _))
        (.of_shape .namedExports (by simp [parts, Part.lawful_list]) trivial rfl (by decide))
          rfl (by omega)
    have y5 := optionalAfter_yields "ModuleSpecifier"
      (stringLiteral_reads (t := .shape .stringLiteral) (by decide)) h5 rfl
    exact .node (head.trans (clause.trans (y5.trans (semicolon_yields h6))))
      (.of_shape .exportDeclaration (by simp [parts]) trivial rfl (by decide)) rfl (by omega)

theorem exportAssignment_reads : exportAssignment.Reads 6 (.category .statement) := by
  intro d s n u h
  obtain ⟨_, s1, h1, h⟩ := h.bind
  obtain ⟨isExportEquals, _, here, h⟩ := h.bind
  obtain ⟨rfl, rfl⟩ := here.atKind
  obtain ⟨isDefault, _, here, h⟩ := h.bind
  obtain ⟨rfl, rfl⟩ := here.atKind
  rcases h.ite with ⟨is, h⟩ | ⟨-, h⟩
  · obtain ⟨_, s2, step, h⟩ := h.bind
    obtain rfl := step.advance
    obtain ⟨expression, s3, h3, h⟩ := h.bind
    obtain ⟨_, s4, h4, h⟩ := h.bind
    obtain ⟨rfl, rfl⟩ := h.pure
    have y2 : Yields 0 s1 1 [] s1.next := by
      simp only [Bool.or_eq_true, decide_eq_true_eq] at is
      rcases is with is | is
      · exact .mark (by rw [is]; decide)
      · exact .mark (by rw [is]; decide)
    exact .node ((expect_yields h1 rfl).trans (y2.trans ((entityName_reads h3).trans
      (semicolon_yields h4)))) (.of_shape .exportAssignment (by simp [parts]) trivial rfl
        (by decide)) rfl (by omega)
  · exact h.failHere.elim

theorem namespaceExport_reads : namespaceExport.Reads 6 (.category .statement) := by
  intro d s n u h
  obtain ⟨_, s1, h1, h⟩ := h.bind
  obtain ⟨_, s2, h2, h⟩ := h.bind
  obtain ⟨_, s3, h3, h⟩ := h.bind
  obtain ⟨declared, s4, h4, h⟩ := h.bind
  obtain ⟨_, s5, h5, h⟩ := h.bind
  obtain ⟨rfl, rfl⟩ := h.pure
  have y4 := name_reads (t := .shape .identifier) (by decide) h4
  exact .node ((expect_yields h1 rfl).trans
    ((expect_yields h2 rfl).trans ((expect_yields h3 rfl).trans
    (y4.trans (semicolon_yields h5)))))
    (.of_shape .namespaceExportDeclaration (by simp [parts]) trivial rfl (by decide)) rfl (by omega)

end Ambient.Grammar
