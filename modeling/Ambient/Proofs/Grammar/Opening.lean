import Ambient.Grammar.Type
import Ambient.Proofs.Grammar.Modifiers

namespace Ambient

/-- What two rules do with the same token differs. -/
theorem Kind.ne_of_class {k l : Kind} {p : Kind → Bool} (h : p k = true) (other : p l = false) :
    k ≠ l := by
  rintro rfl
  exact absurd (h.symm.trans other) (by decide)

namespace Rule.Leads

variable {α : Type} {d : Nat} {s u : Stream}

/-- Nothing is repeated where the mark in front of it is missing. -/
theorem many_stops {k : Kind} {r : Rule Nat α} [Balanced r] {l : List α}
    (h : (Rule.many (Rule.optionalAfter k r)).Leads d s l u) (stop : s.current.kind ≠ k) :
    u = s := by
  refine many (P := fun _ v => v = s) ?_ ?_ h rfl
  · rintro l a v w rfl step
    rcases step.optionalAfter with ⟨_, -, is, -⟩ | ⟨no, -⟩
    · exact absurd is stop
    · cases no
  · rintro l v w rfl step
    rcases step.optionalAfter with ⟨_, no, -⟩ | ⟨-, rfl⟩
    · cases no
    · rfl

end Rule.Leads

namespace Grammar

open Rule

variable {d : Nat} {s u : Stream} {n : Node}

theorem identifierOf_word {allowed : Kind → Bool} {comment : Option String}
    (h : (identifierOf allowed comment).Leads d s n u) :
    allowed s.current.kind = true ∧ u = s.next ∧ n = .identifier s.current.value comment := by
  obtain ⟨token, v, here, h⟩ := h.bind
  obtain ⟨rfl, rfl⟩ := here.current
  rcases h.ite with ⟨is, h⟩ | ⟨-, h⟩
  · obtain ⟨_, v, step, h⟩ := h.bind
    obtain rfl := step.advance
    obtain ⟨rfl, rfl⟩ := h.pure
    exact ⟨is, rfl, rfl⟩
  · exact h.failHere.elim

theorem entityName_starts (h : entityName.Leads d s n u) : s.current.kind.isName = true := by
  obtain ⟨first, v, read, -⟩ := h.bind
  exact (identifierOf_word read).1

/-- A name without dots is one token. -/
theorem entityName_stops (h : entityName.Leads d s n u) (stop : s.next.current.kind ≠ .dotToken) :
    u = s.next := by
  obtain ⟨first, v, read, h⟩ := h.bind
  obtain ⟨-, rfl, -⟩ := identifierOf_word read
  obtain ⟨_, -, rfl⟩ := Leads.climb (P := fun _ _ v => v = s.next)
    (by
      rintro d' left n v w x rfl here -
      obtain ⟨dot, -⟩ := here.atKind
      exact absurd (of_decide_eq_true dot.symm) stop)
    (by
      rintro d' left v w rfl here
      exact here.atKind.2.symm)
    (by
      intro d' left v w step
      obtain ⟨_, w, step', step⟩ := step.bind
      obtain ⟨right, w, read, step⟩ := step.bind
      cases step.pure.1) h rfl
  rfl

/-- The tokens that a type can start with, except words. -/
def typeMarks : List Kind := [
  .thisKeyword, .openParenToken, .lessThanToken, .newKeyword, .openBracketToken, .openBraceToken,
  .typeOfKeyword, .stringLiteral, .numericLiteral, .trueKeyword, .falseKeyword]

/-- Whether a token of kind `k` can be the first one of a type, a separator in front apart. -/
def startsType (k : Kind) : Bool := k.isKeywordType || k.isName || typeMarks.contains k

variable {type : Rule Nat Node}

theorem wordType_starts [Balanced type] {k : Kind} (h : (wordType type k).Leads d s n u) :
    startsType k = true := by
  have mark (mem : k ∈ typeMarks) : startsType k = true := by
    rw [startsType, List.contains_iff_mem.mpr mem, Bool.or_true]
  rcases h.ite with ⟨rfl, -⟩ | ⟨-, h⟩
  · exact mark (by decide)
  · rcases h.ite with ⟨is, -⟩ | ⟨-, h⟩
    · simp only [Bool.or_eq_true, decide_eq_true_eq] at is
      rcases is with ((rfl | rfl) | rfl) | rfl <;> exact mark (by decide)
    · rcases h.ite with ⟨is, -⟩ | ⟨-, h⟩
      · rw [startsType, is, Bool.or_true, Bool.true_or]
      · exact h.failHere.elim

theorem primaryType_starts [Balanced type] (h : (primaryType type).Leads d s n u) :
    startsType s.current.kind = true := by
  obtain ⟨_, _, here, h⟩ := h.bind
  obtain ⟨rfl, rfl⟩ := here.current
  obtain ⟨_, _, ahead, h⟩ := h.bind
  obtain ⟨-, rfl⟩ := ahead.lookAhead
  rcases h.ite with ⟨is, -⟩ | ⟨-, h⟩
  · rw [startsType, (Bool.and_eq_true_iff.mp is).1, Bool.true_or, Bool.true_or]
  · split at h
    case h_8 => exact wordType_starts h
    all_goals
      rename_i is
      rw [is]
      decide

/-- The tokens that go on with a word as a type, or could. -/
def typeContinuations : List Kind := [
  .dotToken, .lessThanToken, .openBracketToken, .ampersandToken, .barToken, .newKeyword]

/-- Whether a token of kind `k` is a type by itself unless another token goes on with it. -/
def isTypeWord (k : Kind) : Bool := k.isName || k = .thisKeyword

theorem typeArgumentsOnLine_stops [Balanced type] {x : Option (List Node)}
    (h : (typeArgumentsOnLine type).Leads d s x u) (stop : s.current.kind ≠ .lessThanToken) :
    u = s := by
  obtain ⟨found, v, here, h⟩ := h.bind
  obtain ⟨is, rfl⟩ := here.atKindOnLine
  rcases h.ite with ⟨found, -⟩ | ⟨-, h⟩
  · exact absurd (is found) stop
  · exact h.pure.2.symm

theorem typeReference_stops [Balanced type] (h : (typeReference type).Leads d s n u)
    (stop : s.next.current.kind ∉ typeContinuations) : u = s.next := by
  obtain ⟨named, v, read, h⟩ := h.bind
  obtain rfl := entityName_stops read fun is => stop (by rw [is]; decide)
  obtain ⟨arguments, v, read', h⟩ := h.bind
  obtain rfl := typeArgumentsOnLine_stops read' fun is => stop (by rw [is]; decide)
  exact h.pure.2.symm

theorem wordType_stops [Balanced type] {k : Kind} (word : k.isName = true)
    (h : (wordType type k).Leads d s n u) (stop : s.next.current.kind ∉ typeContinuations) :
    u = s.next := by
  have ne {l : Kind} (other : l.isName = false) : k ≠ l := Kind.ne_of_class word other
  rcases h.ite with ⟨is, -⟩ | ⟨-, h⟩
  · exact absurd is (ne (by decide))
  · rcases h.ite with ⟨is, -⟩ | ⟨-, h⟩
    · simp only [Bool.or_eq_true, decide_eq_true_eq] at is
      rcases is with ((is | is) | is) | is <;> exact absurd is (ne (by decide))
    · rcases h.ite with ⟨-, h⟩ | ⟨-, h⟩
      · exact typeReference_stops h stop
      · exact h.failHere.elim

theorem primaryType_stops [Balanced type] (h : (primaryType type).Leads d s n u)
    (word : isTypeWord s.current.kind = true)
    (stop : s.next.current.kind ∉ typeContinuations) : u = s.next := by
  have ne {k : Kind} (other : isTypeWord k = false) : s.current.kind ≠ k :=
    Kind.ne_of_class word other
  obtain ⟨_, _, here, h⟩ := h.bind
  obtain ⟨rfl, rfl⟩ := here.current
  obtain ⟨_, _, ahead, h⟩ := h.bind
  obtain ⟨-, rfl⟩ := ahead.lookAhead
  rcases h.ite with ⟨-, h⟩ | ⟨-, h⟩
  · obtain ⟨_, v, step, h⟩ := h.bind
    obtain rfl := step.advance
    exact h.pure.2.symm
  · have name (other : s.current.kind ≠ .thisKeyword) : s.current.kind.isName = true := by
      simpa [isTypeWord, other] using word
    split at h
    case h_1 =>
      obtain ⟨_, v, step, h⟩ := h.bind
      obtain rfl := step.advance
      exact h.pure.2.symm
    case h_7 is =>
      obtain ⟨found, v, ahead, h⟩ := h.bind
      obtain ⟨⟨w, next⟩, rfl⟩ := ahead.lookAhead
      obtain ⟨_, w, step, next⟩ := next.bind
      obtain rfl := step.advance
      obtain ⟨rfl, -⟩ := next.atKind
      rcases h.ite with ⟨found, -⟩ | ⟨-, h⟩
      · exact absurd (by rw [of_decide_eq_true found]; decide) stop
      · exact wordType_stops (name (by rw [is]; decide)) h stop
    case h_8 other _ _ _ _ _ _ => exact wordType_stops (name other) h stop
    all_goals
      rename_i is
      exact absurd is (ne (by decide))

theorem postfixType_stops [Balanced type] (h : (postfixType type).Leads d s n u)
    (word : isTypeWord s.current.kind = true)
    (stop : s.next.current.kind ∉ typeContinuations) : u = s.next := by
  obtain ⟨first, v, read, h⟩ := h.bind
  obtain rfl := primaryType_stops read word stop
  obtain ⟨_, -, rfl⟩ := Leads.climb (P := fun _ _ v => v = s.next)
    (by
      rintro d' left n v w x rfl here -
      exact absurd (by rw [here.atKindOnLine.1 rfl]; decide) stop)
    (by
      rintro d' left v w rfl here
      exact here.atKindOnLine.2.symm)
    (by
      intro d' left v w step
      obtain ⟨_, _, -, step⟩ := step.bind
      obtain ⟨_, _, -, step⟩ := step.bind
      rcases step.ite with ⟨-, step⟩ | ⟨-, step⟩
      · cases step.pure.1
      · obtain ⟨_, _, -, step⟩ := step.bind
        obtain ⟨_, _, -, step⟩ := step.bind
        cases step.pure.1) h rfl
  rfl

/-- What stands behind an opening parenthesis of parameters: nothing but the closing one, or a
parameter, of which no more is said than where its type starts. -/
inductive ParametersHead : Stream → Prop where
  | none {s : Stream} (other : startsType s.current.kind = false)
      (ends : s.current.kind ∉ typeContinuations) : ParametersHead s
  | name {s : Stream} (word : isTypeWord s.current.kind = true)
      (behind : s.next.current.kind = .questionToken ∨ s.next.current.kind = .colonToken) :
      ParametersHead s
  | modifier {s : Stream} (mem : s.current.kind ∈ parameterModifiers)
      (follows : canFollowModifier s.next.current.kind = true) (others : ParametersHead s.next) :
      ParametersHead s

theorem isTypeWord_of_parameterModifier {k : Kind} (h : k ∈ parameterModifiers) :
    isTypeWord k = true := by
  have all : ∀ k ∈ parameterModifiers, isTypeWord k = true := by decide
  exact all k h

theorem not_continuation_of_word {k : Kind} (h : isTypeWord k = true) :
    k ∉ typeContinuations := by
  have all : ∀ k ∈ typeContinuations, isTypeWord k = false := by decide
  exact fun mem => Kind.ne_of_class h (all k mem) rfl

namespace ParametersHead

theorem not_continuation (h : ParametersHead s) : s.current.kind ∉ typeContinuations := by
  cases h with
  | none _ ends => exact ends
  | name word _ => exact not_continuation_of_word word
  | modifier mem _ _ => exact not_continuation_of_word (isTypeWord_of_parameterModifier mem)

theorem of_parameterName {v : Stream} (h : parameterName.Leads d s n v)
    (behind : v.current.kind = .questionToken ∨ v.current.kind = .colonToken) :
    ParametersHead s := by
  obtain ⟨this, s1, accepted, h⟩ := h.bind
  rcases accepted.accept with ⟨rfl, is, rfl⟩ | ⟨rfl, -, rfl⟩
  · obtain ⟨-, rfl⟩ := h.of_true.pure
    exact .name (by rw [is]; decide) behind
  · obtain ⟨token, s1, here, h⟩ := h.of_false.bind
    obtain ⟨rfl, rfl⟩ := here.current
    rcases h.ite with ⟨-, h⟩ | ⟨-, h⟩
    · obtain ⟨word, rfl, -⟩ := identifierOf_word h
      exact .name (by rw [isTypeWord, word, Bool.true_or]) behind
    · exact h.failHere.elim

theorem of_modifiersRead {ks : List Kind} {v : Stream}
    (h : ModifiersRead parameterModifiers s ks v) (head : ParametersHead v) :
    ParametersHead s := by
  induction h with
  | nil => exact head
  | cons mem follows _ ih => exact .modifier mem follows (ih head)

theorem of_parameter [Balanced type] (h : (parameter type).Leads d s n u) :
    ParametersHead s := by
  obtain ⟨ms, s1, h1, h⟩ := h.bind
  obtain ⟨ks, read, -, -⟩ := modifiers_read h1
  refine of_modifiersRead read ?_
  obtain ⟨dots, s2, h2, h⟩ := h.bind
  rcases h2.token? with ⟨-, is, -⟩ | ⟨-, rfl⟩
  · exact .none (by rw [is]; decide) (by rw [is]; decide)
  · obtain ⟨declared, s2, h2, h⟩ := h.bind
    refine of_parameterName h2 ?_
    obtain ⟨_, _, here, h⟩ := h.bind
    obtain ⟨-, rfl⟩ := here.current
    obtain ⟨question, s3, h3, h⟩ := h.bind
    rcases h3.token? with ⟨-, is, -⟩ | ⟨-, rfl⟩
    · exact .inl is
    · rcases h.ite with ⟨-, h⟩ | ⟨-, h⟩
      · exact h.fail.elim
      · obtain ⟨_, _, colon, -⟩ := h.bind
        exact .inr colon.expect.1

/-- Between parentheses parameters start differently from a type that fills them. -/
theorem of_parameters [Balanced type] {l : Option (List Node)}
    (h : (parameters type).Leads d s l u) :
    s.current.kind = .openParenToken ∧ ParametersHead s.next := by
  obtain ⟨_, s1, h1, h⟩ := h.bind
  obtain ⟨is, rfl⟩ := h1.expect
  refine ⟨is, ?_⟩
  obtain ⟨close, s1, h1, h⟩ := h.bind
  rcases h1.accept with ⟨rfl, is, rfl⟩ | ⟨rfl, -, rfl⟩
  · exact .none (by rw [is]; decide) (by rw [is]; decide)
  · obtain ⟨first, s1, h1, -⟩ := h.of_false.bind
    obtain ⟨_, s2, here, h1⟩ := h1.bind
    obtain ⟨-, rfl⟩ := here.current
    obtain ⟨p, s2, h2, -⟩ := h1.bind
    exact of_parameter h2

end ParametersHead

/-- Where a type that starts like parameters comes to its end: neither at the closing parenthesis
nor at a token that goes on with it. -/
structure Stuck (u : Stream) : Prop where
  not_close : u.current.kind ≠ .closeParenToken
  not_continuation : u.current.kind ∉ typeContinuations

theorem postfixType_stuck [Balanced type] (head : ParametersHead s)
    (h : (postfixType type).Leads d s n u) : Stuck u := by
  cases head with
  | none other ends =>
    obtain ⟨first, v, read, -⟩ := h.bind
    exact absurd (primaryType_starts read) (by rw [other]; decide)
  | name word behind =>
    have stop : s.next.current.kind ∉ typeContinuations := by
      rcases behind with is | is <;> rw [is] <;> decide
    obtain rfl := postfixType_stops h word stop
    refine ⟨?_, stop⟩
    rcases behind with is | is <;> rw [is] <;> decide
  | modifier mem follows others =>
    have stop := others.not_continuation
    obtain rfl := postfixType_stops h (isTypeWord_of_parameterModifier mem) stop
    exact ⟨Kind.ne_of_class follows (by decide), stop⟩

/-- An operator in front of parameters is a modifier or a name, so that it lacks its type or what
follows is a modifier or a name again. -/
theorem operatorTypeWithin_stuck [Balanced type] {budget : Budget} (head : ParametersHead s)
    (h : Leads (operatorTypeWithin type budget) d s n u) : Stuck u := by
  induction budget generalizing d s n with
  | nil => exact (Leads.failHere h).elim
  | cons _ budget ih =>
    obtain ⟨o, depth, left, h⟩ := h
    simp only [operatorTypeWithin] at h
    split at h
    · rename_i operator
      obtain ⟨_, s1, step, h⟩ := Leads.bind ⟨o, depth, left, h⟩
      obtain rfl := step.advance
      obtain ⟨operand, s2, h2, h⟩ := h.bind
      obtain ⟨-, rfl⟩ := h.pure
      obtain ⟨d', -, inner⟩ := h2.nested
      refine ih ?_ inner
      cases head with
      | none other ends =>
        simp only [Kind.isTypeOperator, Bool.or_eq_true, decide_eq_true_eq] at operator
        rcases operator with (is | is) | is <;> rw [is] at other <;> exact absurd other (by decide)
      | name word behind =>
        refine .none ?_ ?_ <;> rcases behind with is | is <;> rw [is] <;> decide
      | modifier mem follows others => exact others
    · exact postfixType_stuck head ⟨o, depth, left, h⟩

theorem terms_stuck {separator : Kind} {join : List Node → Node} {term : Rule Nat Node}
    [Balanced term] (mem : separator ∈ typeContinuations) (head : ParametersHead s)
    (stuck : ∀ {n v}, term.Leads d s n v → Stuck v)
    (h : (terms separator join term).Leads d s n u) : Stuck u := by
  obtain ⟨_, s1, h1, h⟩ := h.bind
  rcases h1.accept with ⟨-, is, -⟩ | ⟨-, -, rfl⟩
  · exact absurd (is ▸ mem) head.not_continuation
  · obtain ⟨first, s2, h2, rest⟩ := h.bind
    have ends := stuck h2
    obtain ⟨others, s3, h3, last⟩ := rest.bind
    obtain rfl := h3.many_stops fun is => ends.not_continuation (is ▸ mem)
    obtain ⟨-, rfl⟩ := last.pure
    exact ends

theorem unionType_stuck [Balanced type] (head : ParametersHead s)
    (h : (unionType type).Leads d s n u) : Stuck u := by
  have operator {d n u} (h : (operatorType type).Leads d s n u) : Stuck u :=
    operatorTypeWithin_stuck head h.bounded
  have intersection {d n u} (h : (intersectionType type).Leads d s n u) : Stuck u :=
    terms_stuck (by decide) head operator h
  exact terms_stuck (by decide) head intersection h

theorem typeWithin_stuck {budget : Budget} (head : ParametersHead s)
    (h : Leads (typeWithin budget) d s n u) : Stuck u := by
  cases budget with
  | nil => exact (Leads.failHere h).elim
  | cons _ budget =>
    obtain ⟨d', -, union⟩ := Leads.nested h
    exact unionType_stuck head union

/-- What is a function type is no type in parentheses. -/
theorem functionType_not_parenthesizedType {type type' : Rule Nat Node} [Balanced type]
    [Balanced type'] (stuck : ∀ {d s n u}, ParametersHead s → type'.Leads d s n u → Stuck u)
    {d d' : Nat} {m : Node} {v : Stream} (h : (functionType type).Leads d s n u)
    (g : (parenthesizedType type').Leads d' s m v) : False := by
  obtain ⟨_, s1, g1, g⟩ := g.bind
  obtain ⟨is, rfl⟩ := g1.expect
  obtain ⟨inner, s2, g2, g⟩ := g.bind
  obtain ⟨_, s3, g3, -⟩ := g.bind
  obtain ⟨tps, t1, h1, h⟩ := h.bind
  rcases h1.optionalAfter with ⟨_, -, other, -⟩ | ⟨-, rfl⟩
  · exact absurd (other.symm.trans is) (by decide)
  · obtain ⟨ps, t2, h2, -⟩ := h.bind
    have head := (ParametersHead.of_parameters h2).2
    exact (stuck head g2).not_close g3.expect.1

end Grammar

end Ambient
