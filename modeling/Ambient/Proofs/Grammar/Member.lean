import Ambient.Grammar.Member
import Ambient.Proofs.Grammar.Signature

namespace Ambient.Grammar

open Rule Node

variable {type : Rule Nat Node} [Balanced type] {d : Nat} {s u : Stream}

theorem memberEnd_yields {x : Unit} (h : memberEnd.Leads d s x u) : Yields 0 s 0 [] u := by
  obtain ⟨found, s1, comma, h⟩ := h.bind
  have y1 := accept_yields comma rfl
  rcases h.ite with ⟨-, h⟩ | ⟨-, h⟩
  · obtain ⟨-, rfl⟩ := h.pure
    exact y1
  · exact y1.trans (semicolon_yields h)

theorem indexMember_reads (ht : type.Reads 1 (.category .type)) :
    (indexMember type).Reads 3 (.category .typeMember) := by
  intro d s n u h
  obtain ⟨ms, s1, h1, h⟩ := h.bind
  obtain ⟨read, s2, h2, h⟩ := h.bind
  obtain ⟨_, s3, h3, h⟩ := h.bind
  obtain ⟨rfl, rfl⟩ := h.pure
  obtain ⟨y1, allowed⟩ := memberModifiers_yields h1
  obtain ⟨key, value, rfl, y2⟩ := indexSignature_yields ht h2
  refine .node (y1.trans (y2.trans (memberEnd_yields h3)))
    (.of_shape .indexSignature ?_ rfl rfl (by decide)) rfl (by omega)
  simpa [parts, allowedModifiers, Part.Lawful] using allowed

theorem callSignature_reads (ht : type.Reads 1 (.category .type)) :
    (callSignature type).Reads 3 (.category .typeMember) := by
  intro d s n u h
  obtain ⟨tps, s1, h1, h⟩ := h.bind
  obtain ⟨ps, s2, h2, h⟩ := h.bind
  obtain ⟨result, s3, h3, h⟩ := h.bind
  obtain ⟨_, s4, h4, h⟩ := h.bind
  obtain ⟨rfl, rfl⟩ := h.pure
  obtain ⟨y1, l1⟩ := typeParameters_yields ht h1
  obtain ⟨y2, l2⟩ := parameters_yields ht h2
  have y3 := annotatedResult_reads ht h3
  exact .node (y1.trans (y2.trans (y3.trans (memberEnd_yields h4))))
    (.of_shape .callSignature (by simp [parts, l1, l2]) trivial rfl (by decide)) rfl (by omega)

theorem constructSignature_reads (ht : type.Reads 1 (.category .type)) :
    (constructSignature type).Reads 3 (.category .typeMember) := by
  intro d s n u h
  obtain ⟨_, s1, h1, h⟩ := h.bind
  obtain ⟨tps, s2, h2, h⟩ := h.bind
  obtain ⟨ps, s3, h3, h⟩ := h.bind
  obtain ⟨result, s4, h4, h⟩ := h.bind
  obtain ⟨_, s5, h5, h⟩ := h.bind
  obtain ⟨rfl, rfl⟩ := h.pure
  obtain ⟨y2, l2⟩ := typeParameters_yields ht h2
  obtain ⟨y3, l3⟩ := parameters_yields ht h3
  have y4 := annotatedResult_reads ht h4
  exact .node ((expect_yields h1 rfl).trans (y2.trans (y3.trans (y4.trans (memberEnd_yields h5)))))
    (.of_shape .constructSignature (by simp [parts, l2, l3]) trivial rfl (by decide)) rfl (by omega)

theorem propertySignature_reads (ht : type.Reads 1 (.category .type)) :
    (propertySignature type).Reads 3 (.category .typeMember) := by
  intro d s n u h
  obtain ⟨comment, _, here, h⟩ := h.bind
  obtain rfl := here.documentationHere
  obtain ⟨ms, s1, h1, h⟩ := h.bind
  obtain ⟨declared, s2, h2, h⟩ := h.bind
  obtain ⟨question, s3, h3, h⟩ := h.bind
  obtain ⟨_, s4, h4, h⟩ := h.bind
  obtain ⟨value, s5, h5, h⟩ := h.bind
  obtain ⟨_, s6, h6, h⟩ := h.bind
  obtain ⟨rfl, rfl⟩ := h.pure
  obtain ⟨y1, allowed⟩ := memberModifiers_yields h1
  have y3 := token?_yields "QuestionToken" h3 rfl rfl
  exact .node (y1.trans ((propertyName_reads h2).trans (y3.trans ((expect_yields h4 rfl).trans
    ((ht h5).trans (memberEnd_yields h6))))))
    (.of_shape .propertySignature (by simpa [parts, allowedModifiers] using allowed) trivial rfl
      (by decide)) rfl (by omega)

theorem methodSignature_reads (ht : type.Reads 1 (.category .type)) :
    (methodSignature type).Reads 3 (.category .typeMember) := by
  intro d s n u h
  obtain ⟨comment, _, here, h⟩ := h.bind
  obtain rfl := here.documentationHere
  obtain ⟨declared, s1, h1, h⟩ := h.bind
  obtain ⟨question, s2, h2, h⟩ := h.bind
  obtain ⟨tps, s3, h3, h⟩ := h.bind
  obtain ⟨ps, s4, h4, h⟩ := h.bind
  obtain ⟨result, s5, h5, h⟩ := h.bind
  obtain ⟨_, s6, h6, h⟩ := h.bind
  obtain ⟨rfl, rfl⟩ := h.pure
  have y2 := token?_yields "QuestionToken" h2 rfl rfl
  obtain ⟨y3, l3⟩ := typeParameters_yields ht h3
  obtain ⟨y4, l4⟩ := parameters_yields ht h4
  have y5 := annotatedResult_reads ht h5
  exact .node ((propertyName_reads h1).trans (y2.trans (y3.trans (y4.trans (y5.trans
    (memberEnd_yields h6))))))
    (.of_shape .methodSignature (by simp [parts, l3, l4]) trivial rfl (by decide)) rfl (by omega)

theorem typeMember_reads (ht : type.Reads 1 (.category .type)) :
    (typeMember type).Reads 3 (.category .typeMember) := by
  intro d s n u h
  obtain ⟨_, _, refuse, h⟩ := h.bind
  obtain rfl := refuseModifier_leads refuse
  obtain ⟨r, mem, h⟩ := h.alternatives (balanced_typeMemberRules type)
  simp only [List.mem_cons, List.not_mem_nil, or_false] at mem
  rcases mem with rfl | rfl | rfl | rfl | rfl
  · exact indexMember_reads ht h
  · exact callSignature_reads ht h
  · exact constructSignature_reads ht h
  · exact propertySignature_reads ht h
  · exact methodSignature_reads ht h

theorem atBlockEnd_leads {x : Bool} (h : atBlockEnd.Leads d s x u) : s = u := by
  obtain ⟨_, _, here, h⟩ := h.bind
  obtain ⟨-, rfl⟩ := here.current
  exact h.pure.2

theorem typeMembers_yields (ht : type.Reads 1 (.category .type)) {l : List Node}
    (h : (typeMembers type).Leads d s l u) :
    Yields (5 * d + 3) s 1 (l.map (.category .typeMember, ·)) u := by
  obtain ⟨_, s1, h1, h⟩ := h.bind
  obtain ⟨read, s2, h2, h⟩ := h.bind
  obtain ⟨_, s3, h3, h⟩ := h.bind
  obtain ⟨rfl, rfl⟩ := h.pure
  have y2 : Yields (5 * d + 3) s1 l.length (l.map (.category .typeMember, ·)) s2 := by
    refine many_yields ?_ h2
    intro s x u step
    obtain ⟨_, _, here, step⟩ := step.bind
    obtain rfl := atBlockEnd_leads here
    rcases step.noneOr with ⟨rfl, -, rfl⟩ | ⟨m, rfl, read⟩
    · exact .nothing s
    · exact typeMember_reads ht read
  have all := (expect_yields h1 rfl).trans (y2.trans (expect_yields h3 rfl))
  rw [List.nil_append, List.append_nil] at all
  exact all.weaken (by omega) (by omega)

theorem constructorMember_reads (ht : type.Reads 1 (.category .type)) :
    (constructorMember type).Reads 3 (.category .classMember) := by
  intro d s n u h
  obtain ⟨comment, _, here, h⟩ := h.bind
  obtain rfl := here.documentationHere
  obtain ⟨ms, s1, h1, h⟩ := h.bind
  obtain ⟨_, s2, h2, h⟩ := h.bind
  obtain ⟨ps, s3, h3, h⟩ := h.bind
  obtain ⟨_, s4, h4, h⟩ := h.bind
  obtain ⟨rfl, rfl⟩ := h.pure
  obtain ⟨y1, allowed⟩ := modifiers_yields h1 (by decide)
  obtain ⟨y3, l3⟩ := parameters_yields ht h3
  exact .node (y1.trans ((expect_yields h2 rfl).trans (y3.trans (semicolon_yields h4))))
    (.of_shape .constructorDeclaration (by simpa [parts, allowedModifiers, l3] using allowed)
      trivial rfl (by decide)) rfl (by omega)

theorem classIndexMember_reads (ht : type.Reads 1 (.category .type)) :
    (classIndexMember type).Reads 3 (.category .classMember) := by
  intro d s n u h
  obtain ⟨ms, s1, h1, h⟩ := h.bind
  obtain ⟨read, s2, h2, h⟩ := h.bind
  obtain ⟨_, s3, h3, h⟩ := h.bind
  obtain ⟨rfl, rfl⟩ := h.pure
  obtain ⟨y1, allowed⟩ := modifiers_yields h1 (by decide)
  obtain ⟨key, value, rfl, y2⟩ := indexSignature_yields ht h2
  refine .node (y1.trans (y2.trans (semicolon_yields h3)))
    (.of_shape .indexSignature ?_ rfl rfl (by decide)) rfl (by omega)
  simpa [parts, allowedModifiers, Part.Lawful] using allowed

theorem propertyMember_reads (ht : type.Reads 1 (.category .type)) :
    (propertyMember type).Reads 3 (.category .classMember) := by
  intro d s n u h
  obtain ⟨comment, _, here, h⟩ := h.bind
  obtain rfl := here.documentationHere
  obtain ⟨ms, s1, h1, h⟩ := h.bind
  obtain ⟨declared, s2, h2, h⟩ := h.bind
  obtain ⟨question, s3, h3, h⟩ := h.bind
  obtain ⟨y1, allowed⟩ := modifiers_yields h1 (by decide)
  have y3 := token?_yields "QuestionToken" h3 rfl rfl
  obtain ⟨s4, y4, h⟩ : ∃ s4, Yields 0 s3 0 [] s4 ∧ Leads (do
      expect .colonToken
      let value ← type
      semicolon
      return .propertyDeclaration ms declared question value) d s4 n u := by
    rcases h.ite with ⟨-, h⟩ | ⟨-, h⟩
    · obtain ⟨_, s4, mark, h⟩ := h.bind
      exact ⟨s4, accept_yields mark rfl, h⟩
    · exact ⟨s3, .refl s3, h⟩
  obtain ⟨_, s5, h5, h⟩ := h.bind
  obtain ⟨value, s6, h6, h⟩ := h.bind
  obtain ⟨_, s7, h7, h⟩ := h.bind
  obtain ⟨rfl, rfl⟩ := h.pure
  exact .node (y1.trans ((propertyName_reads h2).trans (y3.trans (y4.trans
    ((expect_yields h5 rfl).trans ((ht h6).trans (semicolon_yields h7)))))))
    (.of_shape .propertyDeclaration (by simpa [parts, allowedModifiers] using allowed) trivial rfl
      (by decide)) rfl (by omega)

theorem methodMember_reads (ht : type.Reads 1 (.category .type)) :
    (methodMember type).Reads 3 (.category .classMember) := by
  intro d s n u h
  obtain ⟨comment, _, here, h⟩ := h.bind
  obtain rfl := here.documentationHere
  obtain ⟨ms, s1, h1, h⟩ := h.bind
  obtain ⟨declared, s2, h2, h⟩ := h.bind
  obtain ⟨question, s3, h3, h⟩ := h.bind
  obtain ⟨tps, s4, h4, h⟩ := h.bind
  obtain ⟨ps, s5, h5, h⟩ := h.bind
  obtain ⟨result, s6, h6, h⟩ := h.bind
  obtain ⟨_, s7, h7, h⟩ := h.bind
  obtain ⟨rfl, rfl⟩ := h.pure
  obtain ⟨y1, allowed⟩ := modifiers_yields h1 (by decide)
  have y3 := token?_yields "QuestionToken" h3 rfl rfl
  obtain ⟨y4, l4⟩ := typeParameters_yields ht h4
  obtain ⟨y5, l5⟩ := parameters_yields ht h5
  have y6 := annotatedResult_reads ht h6
  exact .node (y1.trans ((propertyName_reads h2).trans (y3.trans (y4.trans (y5.trans (y6.trans
    (semicolon_yields h7)))))))
    (.of_shape .methodDeclaration (by simpa [parts, allowedModifiers, l4, l5] using allowed)
      trivial rfl (by decide)) rfl (by omega)

theorem classMember_reads (ht : type.Reads 1 (.category .type)) :
    (classMember type).Reads 3 (.category .classMember) := by
  intro d s n u h
  obtain ⟨r, mem, h⟩ := h.alternatives (balanced_classMemberRules type)
  simp only [List.mem_cons, List.not_mem_nil, or_false] at mem
  rcases mem with rfl | rfl | rfl | rfl
  · exact constructorMember_reads ht h
  · exact classIndexMember_reads ht h
  · exact propertyMember_reads ht h
  · exact methodMember_reads ht h

theorem classMembers_yields (ht : type.Reads 1 (.category .type)) {l : List Node}
    (h : (classMembers type).Leads d s l u) :
    Yields (5 * d + 3) s 1 (l.map (.category .classMember, ·)) u := by
  obtain ⟨_, s1, h1, h⟩ := h.bind
  obtain ⟨read, s2, h2, h⟩ := h.bind
  obtain ⟨_, s3, h3, h⟩ := h.bind
  obtain ⟨rfl, rfl⟩ := h.pure
  have y2 : Yields (5 * d + 3) s1 l.length (l.map (.category .classMember, ·)) s2 := by
    refine many_yields ?_ h2
    intro s x u step
    obtain ⟨_, v, skip, step⟩ := step.bind
    obtain ⟨_, _, here, step⟩ := step.bind
    obtain rfl := atBlockEnd_leads here
    rcases step.noneOr with ⟨rfl, -, rfl⟩ | ⟨m, rfl, read⟩
    · exact (skipSemicolons_yields skip).weaken (Nat.le_refl 0) (by omega)
    · exact ((skipSemicolons_yields skip).trans (classMember_reads ht read)).weaken
        (Nat.le_refl 1) (by omega)
  have all := (expect_yields h1 rfl).trans (y2.trans (expect_yields h3 rfl))
  rw [List.nil_append, List.append_nil] at all
  exact all.weaken (by omega) (by omega)

end Ambient.Grammar
