import Ambient.Grammar.Type
import Ambient.Proofs.Grammar.Member

namespace Ambient.Grammar

open Rule Node

section

variable {type : Rule Nat Node} [Balanced type] {d : Nat} {s u : Stream}

theorem typeReference_reads (ht : type.Reads 1 (.category .type)) :
    (typeReference type).Reads 4 (.category .type) := by
  intro d s n u h
  obtain ⟨named, s1, h1, h⟩ := h.bind
  obtain ⟨arguments, s2, h2, h⟩ := h.bind
  obtain ⟨rfl, rfl⟩ := h.pure
  obtain ⟨y2, l2⟩ := typeArgumentsOnLine_yields ht h2
  exact .node ((entityName_reads h1).trans (y2.trans (.refl _)))
    (.of_shape .typeReference (by simp [parts, l2]) trivial rfl (by decide)) rfl (by omega)

theorem typeQuery_reads (ht : type.Reads 1 (.category .type)) :
    (typeQuery type).Reads 4 (.category .type) := by
  intro d s n u h
  obtain ⟨_, s1, h1, h⟩ := h.bind
  obtain ⟨named, s2, h2, h⟩ := h.bind
  obtain ⟨arguments, s3, h3, h⟩ := h.bind
  obtain ⟨rfl, rfl⟩ := h.pure
  obtain ⟨y3, l3⟩ := typeArgumentsOnLine_yields ht h3
  exact .node ((expect_yields h1 rfl).trans ((entityName_reads h2).trans (y3.trans (.refl _))))
    (.of_shape .typeQuery (by simp [parts, l3]) trivial rfl (by decide)) rfl (by omega)

theorem arrowResult_reads (ht : type.Reads 1 (.category .type)) :
    (arrowResult type).Reads 2 (.category .type) := by
  intro d s n u h
  obtain ⟨_, s1, arrow, h⟩ := h.bind
  exact ((expect_yields arrow rfl).trans (resultType_reads ht h)).weaken (by decide) (by omega)

theorem functionType_reads (ht : type.Reads 1 (.category .type)) :
    (functionType type).Reads 4 (.category .type) := by
  intro d s n u h
  obtain ⟨tps, s1, h1, h⟩ := h.bind
  obtain ⟨ps, s2, h2, h⟩ := h.bind
  obtain ⟨result, s3, h3, h⟩ := h.bind
  obtain ⟨rfl, rfl⟩ := h.pure
  obtain ⟨y1, l1⟩ := typeParameters_yields ht h1
  obtain ⟨y2, l2⟩ := parameters_yields ht h2
  exact .node (y1.trans (y2.trans (arrowResult_reads ht h3)))
    (.of_shape .functionType (by simp [parts, l1, l2]) trivial rfl (by decide)) rfl (by omega)

/-- The modifier of a constructor type, as a list. -/
theorem abstractToken_yields {x : Option Node} (h : (token? .abstractKeyword).Leads d s x u) :
    Yields 1 s 0 (Part.modifiers (x.map ([·]))).places u ∧
      (Part.modifiers (x.map ([·]))).Lawful [.abstractKeyword] := by
  rcases h.token? with ⟨rfl, is, rfl⟩ | ⟨rfl, rfl⟩
  · refine ⟨?_, by simp [Part.Lawful, Node.kind]⟩
    have yields : Yields 1 s 1 [(.shape .token, .token s.current.kind)] s.next :=
      .token (by rw [is]; decide) (by rw [is]; decide) (by decide)
    rw [is] at yields
    exact yields.weaken (Nat.zero_le 1) (by omega)
  · exact ⟨.nothing s, by simp [Part.Lawful]⟩

theorem constructorType_reads (ht : type.Reads 1 (.category .type)) :
    (constructorType type).Reads 4 (.category .type) := by
  intro d s n u h
  obtain ⟨abstractToken, s1, h1, h⟩ := h.bind
  obtain ⟨_, s2, h2, h⟩ := h.bind
  obtain ⟨tps, s3, h3, h⟩ := h.bind
  obtain ⟨ps, s4, h4, h⟩ := h.bind
  obtain ⟨result, s5, h5, h⟩ := h.bind
  obtain ⟨rfl, rfl⟩ := h.pure
  obtain ⟨y1, allowed⟩ := abstractToken_yields h1
  obtain ⟨y3, l3⟩ := typeParameters_yields ht h3
  obtain ⟨y4, l4⟩ := parameters_yields ht h4
  exact .node (y1.trans ((expect_yields h2 rfl).trans (y3.trans (y4.trans (arrowResult_reads ht
    h5)))))
    (.of_shape .constructorType (by simpa [parts, allowedModifiers, l3, l4] using allowed) trivial
      rfl (by decide)) rfl (by omega)

theorem parenthesizedType_reads (ht : type.Reads 1 (.category .type)) :
    (parenthesizedType type).Reads 4 (.category .type) := by
  intro d s n u h
  obtain ⟨_, s1, h1, h⟩ := h.bind
  obtain ⟨inner, s2, h2, h⟩ := h.bind
  obtain ⟨_, s3, h3, h⟩ := h.bind
  obtain ⟨rfl, rfl⟩ := h.pure
  exact .node ((expect_yields h1 rfl).trans ((ht h2).trans (expect_yields h3 rfl)))
    (.of_shape .parenthesizedType (by simp [parts]) trivial rfl (by decide)) rfl (by omega)

theorem labelledElement_reads (ht : type.Reads 1 (.category .type)) :
    (labelledElement type).Reads 2 (.category .type) := by
  intro d s n u h
  obtain ⟨dots, s1, h1, h⟩ := h.bind
  obtain ⟨label, s2, h2, h⟩ := h.bind
  obtain ⟨question, s3, h3, h⟩ := h.bind
  obtain ⟨_, s4, h4, h⟩ := h.bind
  obtain ⟨element, s5, h5, h⟩ := h.bind
  obtain ⟨rfl, rfl⟩ := h.pure
  have y1 := token?_yields "DotDotDotToken" h1 rfl rfl
  have y2 := anyName_reads (t := .shape .identifier) (by decide) h2
  have y3 := token?_yields "QuestionToken" h3 rfl rfl
  exact .node (y1.trans (y2.trans (y3.trans ((expect_yields h4 rfl).trans (ht h5)))))
    (.of_shape .namedTupleMember (by simp [parts]) trivial rfl (by decide)) rfl (by omega)

theorem tupleElement_reads (ht : type.Reads 1 (.category .type)) :
    (tupleElement type).Reads 2 (.category .type) := by
  intro d s n u h
  obtain ⟨found, _, here, h⟩ := h.bind
  obtain ⟨-, rfl⟩ := here.lookAhead
  rcases h.ite with ⟨-, h⟩ | ⟨-, h⟩
  · exact labelledElement_reads ht h
  · obtain ⟨found, s1, dots, h⟩ := h.bind
    have y1 := accept_yields dots rfl
    rcases h.ite with ⟨-, h⟩ | ⟨-, h⟩
    · obtain ⟨element, s2, h2, h⟩ := h.bind
      obtain ⟨rfl, rfl⟩ := h.pure
      exact .node (y1.trans (ht h2)) (.of_shape .restType (by simp [parts]) trivial rfl (by decide))
        rfl (by omega)
    · obtain ⟨element, s2, h2, h⟩ := h.bind
      obtain ⟨found, s3, h3, h⟩ := h.bind
      have y2 := y1.trans ((ht h2).trans (accept_yields h3 rfl))
      rcases h.ite with ⟨-, h⟩ | ⟨-, h⟩
      · obtain ⟨rfl, rfl⟩ := h.pure
        exact .node y2 (.of_shape .optionalType (by simp [parts]) trivial rfl (by decide))
          rfl (by omega)
      · obtain ⟨rfl, rfl⟩ := h.pure
        exact y2.weaken (by decide) (by omega)

theorem tupleType_reads (ht : type.Reads 1 (.category .type)) :
    (tupleType type).Reads 4 (.category .type) := by
  intro d s n u h
  obtain ⟨_, s1, h1, h⟩ := h.bind
  obtain ⟨found, _, here, h⟩ := h.bind
  obtain ⟨-, rfl⟩ := here.atKind
  obtain ⟨elements, s2, y2, h⟩ : ∃ elements s2,
      Yields (5 * d + 2) s1 0 (elements.map (.category .type, ·)) s2 ∧ Leads (do
        expect .closeBracketToken
        return .tupleType elements) d s2 n u := by
    rcases h.ite with ⟨-, h⟩ | ⟨-, h⟩
    · obtain ⟨elements, s2, nothing, h⟩ := h.bind
      obtain ⟨rfl, rfl⟩ := nothing.pure
      exact ⟨[], s1, .nothing s1, h⟩
    · obtain ⟨elements, s2, loop, h⟩ := h.bind
      exact ⟨elements, s2,
        (delimited_yields (tupleElement_reads ht) loop).1.weaken (Nat.zero_le 1) (by omega), h⟩
  obtain ⟨_, s3, h3, h⟩ := h.bind
  obtain ⟨rfl, rfl⟩ := h.pure
  exact .node ((expect_yields h1 rfl).trans (y2.trans (expect_yields h3 rfl)))
    (.of_shape .tupleType (by simp [parts, Part.lawful_list]) trivial rfl (by decide))
      rfl (by omega)

theorem signed_yields {k : Kind} {x : Option Node} (key : String) (h : (signed k).Leads d s x u)
    (mark : k.isMark = true) (accepted : Shape.token.accepts k = true) :
    Yields 1 s 0 (Part.token key x).places u := by
  obtain ⟨_, _, here, h⟩ := h.bind
  obtain ⟨rfl, rfl⟩ := here.current
  rcases h.ite with ⟨is, h⟩ | ⟨-, h⟩
  · obtain ⟨_, s1, step, h⟩ := h.bind
    obtain rfl := step.advance
    obtain ⟨_, s2, behind, h⟩ := h.bind
    obtain ⟨rfl, rfl⟩ := h.pure
    have sign : Yields 1 s 1 [(.shape .token, .token s.current.kind)] s.next := by
      simp only [Bool.or_eq_true, decide_eq_true_eq] at is
      rcases is with is | is
      · exact .token (by rw [is]; decide) (by rw [is]; decide) (by decide)
      · exact .token (by rw [is]; decide) (by rw [is]; decide) (by decide)
    exact (sign.trans (expect_yields behind mark)).weaken (Nat.zero_le _) (by omega)
  · exact token?_yields key h mark accepted

theorem mappedType_reads (ht : type.Reads 1 (.category .type)) :
    (mappedType type).Reads 4 (.category .type) := by
  intro d s n u h
  obtain ⟨_, s1, h1, h⟩ := h.bind
  obtain ⟨readonlyToken, s2, h2, h⟩ := h.bind
  obtain ⟨_, s3, h3, h⟩ := h.bind
  obtain ⟨key, s4, h4, h⟩ := h.bind
  obtain ⟨_, s5, h5, h⟩ := h.bind
  obtain ⟨constraint, s6, h6, h⟩ := h.bind
  obtain ⟨nameType, s7, h7, h⟩ := h.bind
  obtain ⟨_, s8, h8, h⟩ := h.bind
  obtain ⟨question, s9, h9, h⟩ := h.bind
  obtain ⟨value, s10, h10, h⟩ := h.bind
  obtain ⟨_, s11, h11, h⟩ := h.bind
  have y11 := accept_yields h11 rfl
  obtain ⟨s12, y12, h⟩ : ∃ s12, Yields 0 s11 0 [] s12 ∧ Leads (do
      expect .closeBraceToken
      return .mappedType readonlyToken (.typeParameter key (some constraint) none) nameType question
        value) d s12 n u := by
    rcases h.ite with ⟨-, h⟩ | ⟨-, h⟩
    · obtain ⟨_, s12, comma, h⟩ := h.bind
      exact ⟨s12, accept_yields comma rfl, h⟩
    · exact ⟨s11, .refl s11, h⟩
  obtain ⟨_, s13, h13, h⟩ := h.bind
  obtain ⟨rfl, rfl⟩ := h.pure
  have y2 := signed_yields "ReadonlyToken" h2 rfl rfl
  have y4 := name_reads (t := .shape .identifier) (by decide) h4
  have bound : Yields (5 * d + 2) s3 1
      [(.shape .typeParameter, .typeParameter key (some constraint) none)] s6 :=
    .node (y4.trans ((expect_yields h5 rfl).trans (ht h6)))
      (.of_shape .typeParameter (by simp [parts]) trivial rfl (by decide)) rfl (by omega)
  have y7 := optionalAfter_yields "NameType" ht h7 rfl
  have y9 := signed_yields "QuestionToken" h9 rfl rfl
  have y10 := optionalAfter_yields "Type" ht h10 rfl
  exact .node ((expect_yields h1 rfl).trans
    (y2.trans ((expect_yields h3 rfl).trans (bound.trans (y7.trans
    ((expect_yields h8 rfl).trans (y9.trans (y10.trans (y11.trans (y12.trans
      (expect_yields h13 rfl)))))))))))
    (.of_shape .mappedType (by simp [parts]) trivial rfl (by decide)) rfl (by omega)

theorem literalType_reads : literalType.Reads 4 (.category .type) := by
  intro d s n u h
  obtain ⟨_, _, here, h⟩ := h.bind
  obtain ⟨rfl, rfl⟩ := here.current
  rcases h.ite with ⟨is, h⟩ | ⟨-, h⟩
  · obtain ⟨_, s1, step, h⟩ := h.bind
    obtain rfl := step.advance
    obtain ⟨rfl, rfl⟩ := h.pure
    have truth : Yields 1 s 1 [(.category .literal, .token s.current.kind)] s.next := by
      simp only [Bool.or_eq_true, decide_eq_true_eq] at is
      rcases is with is | is
      · exact .token (by rw [is]; decide) (by rw [is]; decide) (by decide)
      · exact .token (by rw [is]; decide) (by rw [is]; decide) (by decide)
    exact .node truth (.of_shape .literalType (by simp [parts]) trivial rfl (by decide))
      rfl (by omega)
  · obtain ⟨found, s1, read, h⟩ := h.bind
    rcases literal?_yields (t := .category .literal) read (by decide) (by decide) with
      ⟨m, rfl, yields⟩ | ⟨rfl, rfl⟩
    · obtain ⟨rfl, rfl⟩ := h.pure
      exact .node yields (.of_shape .literalType (by simp [parts]) trivial rfl (by decide))
        rfl (by omega)
    · exact h.failHere.elim

theorem nextIs_leads {k : Kind} {x : Bool} (h : (nextIs k).Leads d s x u) : s = u := h.lookAhead.2

theorem wordType_reads (ht : type.Reads 1 (.category .type)) {k : Kind} :
    (wordType type k).Reads 4 (.category .type) := by
  intro d s n u h
  rcases h.ite with ⟨-, h⟩ | ⟨-, h⟩
  · exact typeQuery_reads ht h
  · rcases h.ite with ⟨-, h⟩ | ⟨-, h⟩
    · exact literalType_reads h
    · rcases h.ite with ⟨-, h⟩ | ⟨-, h⟩
      · exact typeReference_reads ht h
      · exact h.failHere.elim

theorem isAnyKeyword_of_isKeywordType {k : Kind} (h : k.isKeywordType = true) :
    k.isAnyKeyword = true := by
  have all : ∀ k ∈ Kind.keywordTypes, k.isAnyKeyword = true := by decide
  exact all k (List.contains_iff_mem.mp h)

theorem primaryType_reads (ht : type.Reads 1 (.category .type)) :
    (primaryType type).Reads 4 (.category .type) := by
  intro d s n u h
  obtain ⟨_, _, here, h⟩ := h.bind
  obtain ⟨rfl, rfl⟩ := here.current
  obtain ⟨_, _, ahead, h⟩ := h.bind
  obtain rfl := nextIs_leads ahead
  rcases h.ite with ⟨is, h⟩ | ⟨-, h⟩
  · obtain ⟨_, s1, step, h⟩ := h.bind
    obtain rfl := step.advance
    obtain ⟨rfl, rfl⟩ := h.pure
    have keyword : s.current.kind.isKeywordType = true := (Bool.and_eq_true_iff.mp is).1
    exact .node (.mark (Kind.isMark_of_isAnyKeyword (isAnyKeyword_of_isKeywordType keyword)))
      ⟨(by decide : Shape.keywordType ∈ (Target.category .type).shapes), keyword, by simp [parts],
        trivial⟩ rfl (by omega)
  · split at h
    · rename_i this
      obtain ⟨_, s1, step, h⟩ := h.bind
      obtain rfl := step.advance
      obtain ⟨rfl, rfl⟩ := h.pure
      exact .node (.mark (by rw [this]; decide))
        (.of_shape .thisType (by simp [parts]) trivial rfl (by decide)) rfl (by omega)
    · obtain ⟨r, mem, h⟩ := h.alternatives (balanced_parenthesisRules type)
      simp only [List.mem_cons, List.not_mem_nil, or_false] at mem
      rcases mem with rfl | rfl
      · exact functionType_reads ht h
      · exact parenthesizedType_reads ht h
    · exact functionType_reads ht h
    · exact constructorType_reads ht h
    · exact tupleType_reads ht h
    · obtain ⟨_, _, ahead, h⟩ := h.bind
      obtain ⟨-, rfl⟩ := ahead.lookAhead
      rcases h.ite with ⟨-, h⟩ | ⟨-, h⟩
      · exact mappedType_reads ht h
      · obtain ⟨members, read, rfl⟩ := h.map
        exact .node ((typeMembers_yields ht read).trans (.refl _))
          (.of_shape .typeLiteral (by simp [parts, Part.lawful_list]) trivial rfl (by decide))
            rfl (by omega)
    · obtain ⟨_, _, ahead, h⟩ := h.bind
      obtain rfl := nextIs_leads ahead
      rcases h.ite with ⟨-, h⟩ | ⟨-, h⟩
      · exact constructorType_reads ht h
      · exact wordType_reads ht h
    · exact wordType_reads ht h

theorem postfixType_reads (ht : type.Reads 1 (.category .type)) :
    (postfixType type).Reads 4 (.category .type) := by
  intro d s n u h
  obtain ⟨first, v, read, h⟩ := h.bind
  -- what stands left of a bracket has been read as a type already, with all its levels to open
  have climbed : ∃ d' ≤ d, d' ≤ d ∧ Yields (5 * d + 4) s 1 [(.category .type, n)] u := by
    refine Leads.climb (P := fun d' n v => d' ≤ d ∧
      Yields (5 * d + 4) s 1 [(.category .type, n)] v) ?_ ?_ ?_ h
      ⟨Nat.le_refl d, primaryType_reads ht read⟩
    · intro d' element n v w x before here step
      obtain ⟨le, before⟩ := before
      obtain ⟨is, rfl⟩ := here.atKindOnLine
      obtain ⟨_, v1, step1, step⟩ := step.bind
      obtain rfl := step1.advance
      obtain ⟨_, v2, h2, step⟩ := step.bind
      have y1 : Yields 0 v 1 [] v.next := .mark (by rw [is rfl]; decide)
      have y2 := accept_yields h2 rfl
      refine ⟨by omega, ?_⟩
      rcases step.ite with ⟨-, step⟩ | ⟨-, step⟩
      · obtain ⟨eq, rfl⟩ := step.pure
        obtain rfl := Option.some.inj eq
        exact .suffix (before.trans (y1.trans y2))
          (.of_shape .arrayType (by simp [parts]) trivial rfl (by decide)) rfl rfl (by omega)
      · obtain ⟨index, v3, h3, step⟩ := step.bind
        obtain ⟨_, v4, h4, step⟩ := step.bind
        obtain ⟨eq, rfl⟩ := step.pure
        obtain rfl := Option.some.inj eq
        exact .suffix (before.trans (y1.trans (y2.trans ((ht h3).trans (expect_yields h4 rfl)))))
          (.of_shape .indexedAccessType (by simp [parts]) trivial rfl (by decide)) rfl
            rfl (by omega)
    · intro d' element v w before here
      obtain ⟨-, rfl⟩ := here.atKindOnLine
      exact before
    · intro d' element v w step
      obtain ⟨_, _, -, step⟩ := step.bind
      obtain ⟨_, _, -, step⟩ := step.bind
      rcases step.ite with ⟨-, step⟩ | ⟨-, step⟩
      · cases step.pure.1
      · obtain ⟨_, _, -, step⟩ := step.bind
        obtain ⟨_, _, -, step⟩ := step.bind
        cases step.pure.1
  obtain ⟨d', -, -, y⟩ := climbed
  exact y

theorem isAnyKeyword_of_isTypeOperator {k : Kind} (h : k.isTypeOperator = true) :
    k.isAnyKeyword = true := by
  simp only [Kind.isTypeOperator, Bool.or_eq_true, decide_eq_true_eq] at h
  rcases h with (rfl | rfl) | rfl <;> decide

theorem operatorTypeWithin_reads (ht : type.Reads 1 (.category .type)) (budget : Budget) :
    Rule.Reads (operatorTypeWithin type budget) 4 (.category .type) := by
  induction budget with
  | nil =>
    intro d s n u h
    exact (Leads.failHere h).elim
  | cons _ budget ih =>
    intro d s n u h
    obtain ⟨o, depth, left, h⟩ := h
    simp only [operatorTypeWithin] at h
    split at h
    · rename_i operator
      obtain ⟨_, s1, step, h⟩ := Leads.bind ⟨o, depth, left, h⟩
      obtain rfl := step.advance
      obtain ⟨operand, s2, h2, h⟩ := h.bind
      obtain ⟨rfl, rfl⟩ := h.pure
      obtain ⟨d', rfl, inner⟩ := h2.nested
      have y1 := Yields.mark (Kind.isMark_of_isAnyKeyword (isAnyKeyword_of_isTypeOperator operator))
      refine .node (y1.trans (ih inner)) (.of_shape .typeOperator ?_ trivial rfl (by decide))
        rfl (by omega)
      simpa [parts, Part.Lawful] using operator
    · exact postfixType_reads ht ⟨o, depth, left, h⟩

theorem operatorType_reads (ht : type.Reads 1 (.category .type)) :
    (operatorType type).Reads 4 (.category .type) :=
  fun h => operatorTypeWithin_reads ht _ h.bounded

theorem terms_reads {separator : Kind} {join : List Node → Node} {term : Rule Nat Node}
    [Balanced term] {extra : Nat} (hterm : term.Reads extra (.category .type))
    (joined : ∀ {top s l u}, 2 ≤ l.length → Yields top s 1 (l.map (.category .type, ·)) u →
      Yields (top + 1) s 1 [(.category .type, join l)] u)
    (mark : separator.isMark = true) :
    (terms separator join term).Reads (extra + 1) (.category .type) := by
  intro d s n u h
  obtain ⟨_, s1, h1, h⟩ := h.bind
  obtain ⟨first, s2, h2, h⟩ := h.bind
  obtain ⟨others, s3, h3, h⟩ := h.bind
  obtain ⟨rfl, rfl⟩ := h.pure
  have y3 := manyAfter_yields hterm h3 mark
  have all := (accept_yields h1 mark).trans ((hterm h2).trans y3)
  split
  · rename_i none
    rw [List.isEmpty_iff] at none
    subst none
    exact all.weaken (by simp) (by omega)
  · rename_i some_more
    show Yields (5 * d + extra + 1) _ _ _ _
    refine joined ?_ (all.weaken (by omega) (by omega))
    rw [List.isEmpty_iff, ← ne_eq, ← List.length_pos_iff] at some_more
    exact Nat.succ_le_succ some_more

theorem intersectionType_reads (ht : type.Reads 1 (.category .type)) :
    (intersectionType type).Reads 5 (.category .type) := by
  refine terms_reads (operatorType_reads ht) ?_ rfl
  intro top s l u two all
  exact .node (all.trans (.refl _))
    (.of_shape .intersectionType (by simp [parts, Part.lawful_list]) two rfl (by decide))
      rfl (by omega)

theorem unionType_reads (ht : type.Reads 1 (.category .type)) :
    (unionType type).Reads 6 (.category .type) := by
  refine terms_reads (intersectionType_reads ht) ?_ rfl
  intro top s l u two all
  exact .node (all.trans (.refl _))
    (.of_shape .unionType (by simp [parts, Part.lawful_list]) two rfl (by decide)) rfl (by omega)

end

theorem typeWithin_reads (budget : Budget) :
    Rule.Reads (typeWithin budget) 1 (.category .type) := by
  induction budget with
  | nil =>
    intro d s n u h
    exact (Leads.failHere h).elim
  | cons _ budget ih =>
    intro d s n u h
    obtain ⟨o, depth, left, h⟩ := h
    simp only [typeWithin] at h
    obtain ⟨d', rfl, inner⟩ := Leads.nested ⟨o, depth, left, h⟩
    exact (unionType_reads ih inner).weaken (Nat.le_refl 1) (by omega)

theorem type_reads : type.Reads 1 (.category .type) := fun h => typeWithin_reads _ h.bounded

end Ambient.Grammar
