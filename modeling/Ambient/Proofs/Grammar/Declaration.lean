import Ambient.Grammar.Declaration
import Ambient.Proofs.Grammar.Type

namespace Ambient.Grammar

open Rule Node

variable {d : Nat} {s u : Stream}

theorem declarationHead_yields {allowed : List Kind} {head : Option String × Option (List Node)}
    (h : (declarationHead allowed).Leads d s head u)
    (tokens : ∀ k ∈ allowed, Shape.token.accepts k = true ∧ k.isMark = true) :
    Yields 1 s 0 (Part.modifiers head.2).places u ∧ (Part.modifiers head.2).Lawful allowed := by
  obtain ⟨comment, _, here, h⟩ := h.bind
  obtain rfl := here.documentationHere
  obtain ⟨ms, s1, h1, h⟩ := h.bind
  obtain ⟨rfl, rfl⟩ := h.pure
  exact declarationModifiers_yields h1 tokens

theorem interfaceDeclaration_reads : interfaceDeclaration.Reads 6 (.category .statement) := by
  intro d s n u h
  obtain ⟨⟨comment, ms⟩, s1, h1, h⟩ := h.bind
  obtain ⟨_, s2, h2, h⟩ := h.bind
  obtain ⟨declared, s3, h3, h⟩ := h.bind
  obtain ⟨tps, s4, h4, h⟩ := h.bind
  obtain ⟨clauses, s5, h5, h⟩ := h.bind
  obtain ⟨members, s6, h6, h⟩ := h.bind
  obtain ⟨rfl, rfl⟩ := h.pure
  obtain ⟨y1, allowed⟩ := declarationHead_yields h1 (by decide)
  have y3 := name_reads (t := .shape .identifier) (by decide) h3
  obtain ⟨y4, l4⟩ := typeParameters_yields type_reads h4
  obtain ⟨y5, l5, merged⟩ := heritage_yields type_reads h5
  have y6 := typeMembers_yields type_reads h6
  refine .node (y1.trans ((expect_yields h2 rfl).trans (y3.trans (y4.trans (y5.trans (y6.trans
    (.refl _))))))) (.of_shape .interfaceDeclaration ?_ merged rfl (by decide)) rfl (by omega)
  simpa [parts, allowedModifiers, interfaceModifiers, l4, l5, Part.lawful_list] using allowed

theorem classDeclaration_reads : classDeclaration.Reads 6 (.category .statement) := by
  intro d s n u h
  obtain ⟨⟨comment, ms⟩, s1, h1, h⟩ := h.bind
  obtain ⟨_, s2, h2, h⟩ := h.bind
  obtain ⟨declared, s3, h3, h⟩ := h.bind
  obtain ⟨tps, s4, h4, h⟩ := h.bind
  obtain ⟨clauses, s5, h5, h⟩ := h.bind
  obtain ⟨members, s6, h6, h⟩ := h.bind
  obtain ⟨rfl, rfl⟩ := h.pure
  obtain ⟨y1, allowed⟩ := declarationHead_yields h1 (by decide)
  have y3 := name_reads (t := .shape .identifier) (by decide) h3
  obtain ⟨y4, l4⟩ := typeParameters_yields type_reads h4
  obtain ⟨y5, l5, merged⟩ := heritage_yields type_reads h5
  have y6 := classMembers_yields type_reads h6
  refine .node (y1.trans ((expect_yields h2 rfl).trans (y3.trans (y4.trans (y5.trans (y6.trans
    (.refl _))))))) (.of_shape .classDeclaration ?_ merged rfl (by decide)) rfl (by omega)
  simpa [parts, allowedModifiers, classModifiers, l4, l5, Part.lawful_list] using allowed

theorem typeAlias_reads : typeAlias.Reads 6 (.category .statement) := by
  intro d s n u h
  obtain ⟨⟨comment, ms⟩, s1, h1, h⟩ := h.bind
  obtain ⟨_, s2, h2, h⟩ := h.bind
  obtain ⟨declared, s3, h3, h⟩ := h.bind
  obtain ⟨tps, s4, h4, h⟩ := h.bind
  obtain ⟨_, s5, h5, h⟩ := h.bind
  obtain ⟨value, s6, h6, h⟩ := h.bind
  obtain ⟨_, s7, h7, h⟩ := h.bind
  obtain ⟨rfl, rfl⟩ := h.pure
  obtain ⟨y1, allowed⟩ := declarationHead_yields h1 (by decide)
  have y3 := name_reads (t := .shape .identifier) (by decide) h3
  obtain ⟨y4, l4⟩ := typeParameters_yields type_reads h4
  refine .node (y1.trans ((expect_yields h2 rfl).trans (y3.trans (y4.trans
    ((expect_yields h5 rfl).trans ((type_reads h6).trans (semicolon_yields h7)))))))
      (.of_shape .typeAliasDeclaration ?_ trivial rfl (by decide)) rfl (by omega)
  simpa [parts, allowedModifiers, ambientModifiers, l4] using allowed

theorem enumValue_reads : enumValue.Reads 1 (.category .literal) := by
  intro d s n u h
  obtain ⟨found, s1, read, h⟩ := h.bind
  rcases literal?_yields (t := .category .literal) read (by decide) (by decide) with
    ⟨m, rfl, yields⟩ | ⟨rfl, rfl⟩
  · obtain ⟨rfl, rfl⟩ := h.pure
    exact yields.weaken (Nat.le_refl 1) (by omega)
  · exact h.failHere.elim

theorem enumMember_reads : enumMember.Reads 2 (.shape .enumMember) := by
  intro d s n u h
  obtain ⟨comment, _, here, h⟩ := h.bind
  obtain rfl := here.documentationHere
  obtain ⟨_, _, here, h⟩ := h.bind
  obtain ⟨rfl, rfl⟩ := here.current
  rcases h.ite with ⟨-, h⟩ | ⟨-, h⟩
  · obtain ⟨declared, s1, h1, h⟩ := h.bind
    obtain ⟨value, s2, h2, h⟩ := h.bind
    obtain ⟨rfl, rfl⟩ := h.pure
    have y2 := optionalAfter_yields "Initializer" enumValue_reads h2 rfl
    exact .node ((propertyName_reads h1).trans (y2.trans (.refl _)))
      (.of_shape .enumMember (by simp [parts]) trivial rfl (by decide)) rfl (by omega)
  · exact h.failHere.elim

theorem enumDeclaration_reads : enumDeclaration.Reads 6 (.category .statement) := by
  intro d s n u h
  obtain ⟨⟨comment, ms⟩, s1, h1, h⟩ := h.bind
  obtain ⟨_, s2, h2, h⟩ := h.bind
  obtain ⟨declared, s3, h3, h⟩ := h.bind
  obtain ⟨_, s4, h4, h⟩ := h.bind
  obtain ⟨members, s5, h5, h⟩ := h.bind
  obtain ⟨_, s6, h6, h⟩ := h.bind
  obtain ⟨rfl, rfl⟩ := h.pure
  obtain ⟨y1, allowed⟩ := declarationHead_yields h1 (by decide)
  have y3 := name_reads (t := .shape .identifier) (by decide) h3
  obtain ⟨y5, some_member⟩ := delimited_yields enumMember_reads h5
  refine .node (y1.trans ((expect_yields h2 rfl).trans (y3.trans ((expect_yields h4 rfl).trans
    (y5.trans
    (expect_yields h6 rfl)))))) (.of_shape .enumDeclaration ?_ some_member rfl (by decide)) rfl
      (by omega)
  simpa [parts, allowedModifiers, enumModifiers, Part.lawful_list] using allowed

theorem functionDeclaration_reads : functionDeclaration.Reads 6 (.category .statement) := by
  intro d s n u h
  obtain ⟨⟨comment, ms⟩, s1, h1, h⟩ := h.bind
  obtain ⟨_, s2, h2, h⟩ := h.bind
  obtain ⟨declared, s3, h3, h⟩ := h.bind
  obtain ⟨tps, s4, h4, h⟩ := h.bind
  obtain ⟨ps, s5, h5, h⟩ := h.bind
  obtain ⟨result, s6, h6, h⟩ := h.bind
  obtain ⟨_, s7, h7, h⟩ := h.bind
  obtain ⟨rfl, rfl⟩ := h.pure
  obtain ⟨y1, allowed⟩ := declarationHead_yields h1 (by decide)
  have y3 := name_reads (t := .shape .identifier) (by decide) h3
  obtain ⟨y4, l4⟩ := typeParameters_yields type_reads h4
  obtain ⟨y5, l5⟩ := parameters_yields type_reads h5
  have y6 := annotatedResult_reads type_reads h6
  refine .node (y1.trans ((expect_yields h2 rfl).trans (y3.trans (y4.trans (y5.trans (y6.trans
    (semicolon_yields h7))))))) (.of_shape .functionDeclaration ?_ trivial rfl (by decide)) rfl
      (by omega)
  simpa [parts, allowedModifiers, interfaceModifiers, l4, l5] using allowed

theorem variableDeclaration_reads {comment : Option String} :
    (variableDeclaration comment).Reads 2 (.shape .variableDeclaration) := by
  intro d s n u h
  obtain ⟨declared, s1, h1, h⟩ := h.bind
  obtain ⟨_, s2, h2, h⟩ := h.bind
  obtain ⟨annotated, s3, h3, h⟩ := h.bind
  obtain ⟨rfl, rfl⟩ := h.pure
  have y1 := name_reads (t := .shape .identifier) (by decide) h1
  exact .node (y1.trans ((expect_yields h2 rfl).trans (type_reads h3)))
    (.of_shape .variableDeclaration (by simp [parts]) trivial rfl (by decide)) rfl (by omega)

theorem variableList_yields {comment : Option String} {l : List Node}
    (h : (variableList comment).Leads d s l u) :
    Yields (5 * d + 2) s 1 (l.map (.shape .variableDeclaration, ·)) u ∧ l ≠ [] := by
  obtain ⟨first, s1, h1, h⟩ := h.bind
  obtain ⟨others, s2, h2, h⟩ := h.bind
  obtain ⟨rfl, rfl⟩ := h.pure
  have y2 := manyAfter_yields variableDeclaration_reads h2 rfl
  exact ⟨((variableDeclaration_reads h1).trans y2).weaken (by omega) (by omega), by simp⟩

/-- A keyword that declares variables is a mark. -/
theorem isMark_of_variableFlags {k : Kind} {flags : UInt32} (h : variableFlags k = some flags) :
    k.isMark = true := by
  unfold variableFlags at h
  split at h <;> first | decide | simp at h

theorem variableStatement_reads : variableStatement.Reads 6 (.category .statement) := by
  intro d s n u h
  obtain ⟨⟨comment, ms⟩, s1, h1, h⟩ := h.bind
  obtain ⟨_, _, here, h⟩ := h.bind
  obtain ⟨rfl, rfl⟩ := here.current
  obtain ⟨y1, allowed⟩ := declarationHead_yields h1 (by decide)
  cases flags : variableFlags s1.current.kind with
  | none =>
    rw [flags] at h
    exact h.failHere.elim
  | some bits =>
    rw [flags] at h
    obtain ⟨_, s2, step, h⟩ := h.bind
    obtain rfl := step.advance
    obtain ⟨declarations, s3, h3, h⟩ := h.bind
    obtain ⟨_, s4, h4, h⟩ := h.bind
    obtain ⟨rfl, rfl⟩ := h.pure
    obtain ⟨y3, some_variable⟩ := variableList_yields h3
    have list : Yields (5 * d + 3) s1 1
        [(.shape .variableDeclarationList, .variableDeclarationList bits declarations)] s3 :=
      .node ((Yields.mark (isMark_of_variableFlags flags)).trans (y3.trans (.refl _)))
        (.of_shape .variableDeclarationList (by simp [parts, Part.lawful_list]) some_variable rfl
          (by decide)) rfl (by omega)
    refine .node (y1.trans (list.trans (semicolon_yields h4)))
      (.of_shape .variableStatement ?_ trivial rfl (by decide)) rfl (by omega)
    simpa [parts, allowedModifiers, ambientModifiers] using allowed

end Ambient.Grammar
