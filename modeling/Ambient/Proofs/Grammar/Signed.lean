import Ambient.Proofs.Grammar.Misplaced
import Ambient.Proofs.Grammar.Parenthesis

namespace Ambient

namespace Rule

variable {r : Rule Nat Node} {o : Options} {s : State Nat} {e : Failure} {p : Nat}

/-- A rule fails in front of an offset or at it, or with `e`. -/
def FailsBy (r : Rule Nat Node) (o : Options) (s : State Nat) (p : Nat) (e : Failure) : Prop :=
  ∃ f, r.Fails o s f ∧ (f.position ≤ p ∨ f = e)

namespace FailsBy

theorem of_token {t : Lexeme} {m : Message} {arguments : List String}
    (h : r.Fails o s (t.failure m arguments)) (le : t.start ≤ p) : r.FailsBy o s p e :=
  ⟨_, h, .inl (by rwa [t.position_failure])⟩

theorem of_failsAt {t : Lexeme} (h : r.FailsAt o s t) (le : t.start ≤ p) : r.FailsBy o s p e := by
  obtain ⟨m, arguments, -, fails⟩ := h
  exact of_token fails le

theorem same (h : r.Fails o s e) : r.FailsBy o s p e := ⟨e, h, .inr rfl⟩

/-- A failure is reported if all other rules fail in front of it. -/
theorem alternatives {rules : List (Rule Nat Node)} {fallback : Message} {owner : Rule Nat Node}
    (balanced : ∀ r ∈ rules, Balanced r) (mem : owner ∈ rules) (h : owner.Fails o s e)
    (others : ∀ r ∈ rules, r.FailsBy o s p e) (behind : p < e.position) :
    (alternatives rules fallback).Fails o s e :=
  alternatives_fails balanced mem h fun r among => by
    obtain ⟨f, fails, le⟩ := others r among
    exact ⟨f, fails, le.imp_left fun le => Nat.lt_of_le_of_lt le behind⟩

end FailsBy

end Rule

open Rule Grammar

namespace Grammar

section

variable {o : Options} {depth : Nat} {s v u : Stream} {n : Node} {e : Failure}

theorem nextModifies_of_settled (settled : s.Settled) {kinds : Kind → Bool}
    (modifies : ∀ k, kinds k = true → k.isModifier = true) : nextModifies kinds s = false := by
  by_cases is : kinds s.current.kind = true
  · rw [nextModifies, settled (modifies _ is), Bool.and_false]
  · rw [nextModifies, Bool.eq_false_iff.mpr is, Bool.false_and]

theorem refuseModifier_settled (settled : s.Settled) (m : Message) (exempted : Kind → Bool) :
    (refuseModifier m exempted).Gives o ⟨s, depth⟩ () ⟨s, depth⟩ :=
  refuseModifier_gives (nextModifies_of_settled settled fun _ is => (Bool.and_eq_true_iff.mp is).1)

theorem memberModifiers_settled (settled : s.Settled) (scanned : Scanned s.toList) :
    memberModifiers.Gives o ⟨s, depth⟩ none ⟨s, depth⟩ := by
  have stop : nextModifies typeMemberModifiers.contains s = false :=
    nextModifies_of_settled settled fun _ mem =>
      typeMemberModifiers_modify _ (List.contains_iff_mem.mp mem)
  have read : (modifiers typeMemberModifiers).Gives o ⟨s, depth⟩ none ⟨s, depth⟩ :=
    modifiers_gives (.nil s) stop List.nodup_nil scanned (by decide)
  exact .bind read (.bind (refuseModifier_settled settled _ _) .pure)

/-- Behind type parameters, or none, there is a list of parameters. -/
structure Signed (o : Options) (depth : Nat) (v u : Stream) : Prop where
  signature : ∃ tps, (typeParameters type).Gives o ⟨v, depth⟩ tps ⟨u, depth⟩
  paren : u.current.kind = .openParenToken

namespace Signed

theorem less_or_eq (h : Signed o depth v u) : v.current.kind = .lessThanToken ∨ v = u := by
  obtain ⟨tps, read⟩ := h.signature
  rcases (leads_of_gives read).optionalAfter with ⟨_, -, less, -⟩ | ⟨-, same⟩
  · exact .inl less
  · exact .inr same

theorem first (h : Signed o depth v u) :
    v.current.kind = .lessThanToken ∨ v.current.kind = .openParenToken := by
  rcases h.less_or_eq with less | rfl
  · exact .inl less
  · exact .inr h.paren

theorem ne (h : Signed o depth v u) {k : Kind} (less : k ≠ .lessThanToken)
    (paren : k ≠ .openParenToken) : v.current.kind ≠ k := by
  rcases h.first with is | is <;> rw [is] <;> exact Ne.symm ‹_›

theorem suffix (h : Signed o depth v u) (scanned : Scanned v.toList) : u.toList <:+ v.toList := by
  obtain ⟨tps, read⟩ := h.signature
  exact read.suffix inferInstance scanned

/-- What reads a signature fails as its parameters do. -/
theorem fails (h : Signed o depth v u) (parameters : (parameters type).Fails o ⟨u, depth⟩ e)
    {rest : Option (List Node) → Option (List Node) → Rule Nat Node} :
    (do
      let tps ← typeParameters type
      let ps ← Grammar.parameters type
      rest tps ps).Fails o ⟨v, depth⟩ e := by
  obtain ⟨tps, read⟩ := h.signature
  exact .behind read (.bind parameters)

end Signed

/-- A signature is missing. -/
theorem unsigned_fails (less : s.current.kind ≠ .lessThanToken)
    (paren : s.current.kind ≠ .openParenToken)
    {rest : Option (List Node) → Option (List Node) → Rule Nat Node} :
    (do
      let tps ← typeParameters type
      let ps ← parameters type
      rest tps ps).Fails o ⟨s, depth⟩
        (s.current.failure .tokenExpected [Kind.openParenToken.tokenText.getD "token"]) :=
  .behind (.optionalAfter_not less) (.bind (.bind (.expect paren)))

theorem propertyName_gives (word : s.current.kind.isMemberName = true) (comment : Option String) :
    (propertyName comment).Gives o ⟨s, depth⟩ (.identifier s.current.value comment) ⟨s.next, depth⟩ :=
  .bind .current (.ite_pos word (.bind .current (.ite_pos word (.bind .advance .pure))))

/-- The name of a member with a signature behind it. -/
structure Named (o : Options) (depth : Nat) (s v u : Stream) : Prop where
  name : ∀ comment, ∃ n, (propertyName comment).Gives o ⟨s, depth⟩ n ⟨s.next, depth⟩
  mark : s.next.current.kind = .questionToken ∧ v = s.next.next ∨ v = s.next
  signed : Signed o depth v u

namespace Named

theorem of_word (word : s.current.kind.isMemberName = true) (signed : Signed o depth s.next u) :
    Named o depth s s.next u where
  name comment := ⟨_, propertyName_gives word comment⟩
  mark := .inr rfl
  signed := signed

/-- A name is read whatever is known of it. -/
theorem of_gives {comment : Option String} {m : Node} {q : Option Node} {w : Stream}
    (name : (propertyName comment).Gives o ⟨s, depth⟩ m ⟨w, depth⟩)
    (question : (token? .questionToken).Gives o ⟨w, depth⟩ q ⟨v, depth⟩) (signed : Signed o depth v u) :
    Named o depth s v u := by
  obtain ⟨-, rfl, -⟩ := propertyName_leads (leads_of_gives name)
  refine ⟨fun other => ?_, ?_, signed⟩
  · by_cases word : s.current.kind.isMemberName = true
    · exact ⟨_, propertyName_gives word other⟩
    · refine ⟨m, ?_⟩
      rw [Gives, propertyName, Gives.current.bind_eq, if_neg word] at name ⊢
      exact name
  · rcases (leads_of_gives question).token? with ⟨-, is, rfl⟩ | ⟨-, rfl⟩
    · exact .inl ⟨is, rfl⟩
    · exact .inr rfl

variable (h : Named o depth s v u)
include h

theorem atMemberName : s.AtMemberName := by
  obtain ⟨n, read⟩ := h.name none
  exact (propertyName_leads (leads_of_gives read)).1

theorem settled : s.Settled := by
  rcases h.mark with ⟨is, -⟩ | rfl
  · exact .of_next is (by decide)
  · rcases h.signed.first with is | is <;> exact .of_next is (by decide)

theorem question : ∃ q, (token? .questionToken).Gives o ⟨s.next, depth⟩ q ⟨v, depth⟩ := by
  rcases h.mark with ⟨is, rfl⟩ | rfl
  · exact ⟨_, .bind (.accept is) .pure⟩
  · exact ⟨none, .token?_not (h.signed.ne (by decide) (by decide))⟩

theorem suffix_next : v.toList <:+ s.next.toList := by
  rcases h.mark with ⟨-, rfl⟩ | rfl
  · exact Stream.suffix_next _
  · exact List.suffix_refl _

/-- The offsets of the name, of what stands behind it, of the signature and of the parameters. -/
theorem starts (row : s.Row) : s.current.start ≤ u.current.start ∧
    s.next.current.start ≤ u.current.start ∧ v.current.start ≤ u.current.start := by
  have next := row.of_suffix s.suffix_next
  have signature := next.of_suffix h.suffix_next
  have last := signature.start_le (h.signed.suffix signature.scanned)
  have behind := next.start_le h.suffix_next
  have first := row.start_le s.suffix_next
  exact ⟨by omega, by omega, last⟩

end Named

theorem indexMember_fails (settled : s.Settled) (scanned : Scanned s.toList)
    (other : s.current.kind ≠ .openBracketToken) : (indexMember type).Fails o ⟨s, depth⟩
      (s.current.failure .tokenExpected [Kind.openBracketToken.tokenText.getD "token"]) :=
  .behind (memberModifiers_settled settled scanned) (.bind (.bind (.expect other)))

theorem methodSignature_fails (h : Named o depth s v u)
    (parameters : (parameters type).Fails o ⟨u, depth⟩ e) :
    (methodSignature type).Fails o ⟨s, depth⟩ e := by
  obtain ⟨q, question⟩ := h.question
  refine .behind (t := ⟨s, depth⟩) rfl ?_
  obtain ⟨n, name⟩ := h.name _
  exact .behind name (.behind question (h.signed.fails parameters))

theorem propertySignature_fails (h : Named o depth s v u) (scanned : Scanned s.toList) :
    (propertySignature type).Fails o ⟨s, depth⟩
      (v.current.failure .tokenExpected [Kind.colonToken.tokenText.getD "token"]) := by
  obtain ⟨q, question⟩ := h.question
  have colon : v.current.kind ≠ .colonToken := h.signed.ne (by decide) (by decide)
  refine .behind (t := ⟨s, depth⟩) rfl ?_
  obtain ⟨n, name⟩ := h.name _
  exact .behind (memberModifiers_settled h.settled scanned)
    (.behind name (.behind question (.bind (.expect colon))))

/-- A member that starts with a name and a signature fails as its parameters do. -/
theorem typeMember_fails_named (h : Named o depth s v u) (row : s.Row)
    (parameters : (parameters type).Fails o ⟨u, depth⟩ e) (behind : u.current.start < e.position) :
    (typeMember type).Fails o ⟨s, depth⟩ e := by
  obtain ⟨first, second, third⟩ := h.starts row
  have ne {k : Kind} (other : (k.isMemberName || k = .stringLiteral || k = .numericLiteral) = false) :=
    h.atMemberName.ne (k := k) other
  refine .behind (refuseModifier_settled h.settled _ _) (FailsBy.alternatives
    (balanced_typeMemberRules type) (by simp)
    (methodSignature_fails h parameters) ?_ behind)
  simp only [List.forall_mem_cons, List.not_mem_nil, false_imp_iff, implies_true, and_true]
  refine ⟨?_, ?_, ?_, ?_, ?_⟩
  · exact .of_token (indexMember_fails h.settled row.scanned (ne (by decide))) first
  · exact .of_token (unsigned_fails (ne (by decide)) (ne (by decide))) first
  · by_cases new : s.current.kind = .newKeyword
    · rcases h.mark with ⟨is, -⟩ | rfl
      · refine .of_token (.behind (.expect new) (unsigned_fails (s := s.next) ?_ ?_)) second <;>
          rw [is] <;> decide
      · exact .same (.behind (.expect new) (h.signed.fails parameters))
    · exact .of_token (.bind (.expect new)) first
  · exact .of_token (propertySignature_fails h row.scanned) third
  · exact .same (methodSignature_fails h parameters)

theorem propertyName_fails (other : ¬ s.AtMemberName) (comment : Option String) :
    (propertyName comment).Fails o ⟨s, depth⟩ (s.current.failure .identifierExpected []) := by
  simp only [Stream.AtMemberName, not_or] at other
  obtain ⟨word, string, number⟩ := other
  have none : literal?.Gives o ⟨s, depth⟩ none ⟨s, depth⟩ := by
    refine .bind .current ?_
    by_cases malformed : s.current.error.isSome = true
    · exact .ite_pos malformed .pure
    · exact .ite_neg malformed (.ite_neg string (.ite_neg number .pure))
  exact .behind .current (.ite_neg word (.behind none .failHere))

/-- A member that starts with a signature fails as its parameters do. -/
theorem typeMember_fails_signed (h : Signed o depth s u) (row : s.Row)
    (parameters : (parameters type).Fails o ⟨u, depth⟩ e) (behind : u.current.start < e.position) :
    (typeMember type).Fails o ⟨s, depth⟩ e := by
  have le := row.start_le (h.suffix row.scanned)
  have nameless : ¬ s.AtMemberName := by
    rintro (is | is | is) <;> rcases h.first with is' | is' <;> rw [is'] at is <;>
      exact absurd is (by decide)
  have settled : s.Settled := by
    rcases h.first with is | is <;> exact .of_kind is (by decide)
  have call : (callSignature type).Fails o ⟨s, depth⟩ e := h.fails parameters
  refine .behind (refuseModifier_settled settled _ _) (FailsBy.alternatives
    (balanced_typeMemberRules type) (by simp) call ?_ behind)
  simp only [List.forall_mem_cons, List.not_mem_nil, false_imp_iff, implies_true, and_true]
  refine ⟨?_, ?_, ?_, ?_, ?_⟩
  · have other : s.current.kind ≠ .openBracketToken := h.ne (by decide) (by decide)
    exact .of_token (indexMember_fails settled row.scanned other) le
  · exact .same call
  · exact .of_token (.bind (.expect (h.ne (by decide) (by decide)))) le
  · exact .of_token (.behind (t := ⟨s, depth⟩) rfl (.behind
      (memberModifiers_settled settled row.scanned) (.bind (propertyName_fails nameless _)))) le
  · exact .of_token (.behind (t := ⟨s, depth⟩) rfl (.bind (propertyName_fails nameless _))) le

theorem propertyMember_fails {s0 : Stream} {ms : Option (List Node)}
    (modifiers : (modifiers classMemberModifiers).Gives o ⟨s0, depth⟩ ms ⟨s, depth⟩)
    (h : Named o depth s v u) : (propertyMember type).Fails o ⟨s0, depth⟩
      (v.current.failure .tokenExpected [Kind.colonToken.tokenText.getD "token"]) := by
  obtain ⟨q, question⟩ := h.question
  have colon : v.current.kind ≠ .colonToken := h.signed.ne (by decide) (by decide)
  have exclamation : v.current.kind ≠ .exclamationToken := h.signed.ne (by decide) (by decide)
  refine .behind (t := ⟨s0, depth⟩) rfl (.behind modifiers ?_)
  obtain ⟨n, name⟩ := h.name _
  refine .behind name (.behind question ?_)
  by_cases none : q.isNone = true
  · exact .ite_pos none (.behind (.accept_not exclamation) (.bind (.expect colon)))
  · exact .ite_neg none (.bind (.expect colon))

/-- A member of a class with a name and a signature behind its modifiers fails as its parameters do. -/
theorem classMember_fails {s0 : Stream} {ms : Option (List Node)}
    (modifiers : (modifiers classMemberModifiers).Gives o ⟨s0, depth⟩ ms ⟨s, depth⟩)
    (h : Named o depth s v u) (row : s0.Row) (parameters : (parameters type).Fails o ⟨u, depth⟩ e)
    (behind : u.current.start < e.position) : (classMember type).Fails o ⟨s0, depth⟩ e := by
  have reached : s.Row := row.of_suffix (modifiers.suffix inferInstance row.scanned)
  obtain ⟨first, second, third⟩ := h.starts reached
  obtain ⟨q, question⟩ := h.question
  have method : (methodMember type).Fails o ⟨s0, depth⟩ e := by
    refine .behind (t := ⟨s0, depth⟩) rfl (.behind modifiers ?_)
    obtain ⟨n, name⟩ := h.name _
    exact .behind name (.behind question (h.signed.fails parameters))
  refine FailsBy.alternatives (balanced_classMemberRules type) (by simp)
    method ?_ behind
  simp only [List.forall_mem_cons, List.not_mem_nil, false_imp_iff, implies_true, and_true]
  refine ⟨?_, ?_, .of_token (propertyMember_fails modifiers h) third, .same method⟩
  · by_cases is : s.current.kind = .constructorKeyword
    · have reads {e : Failure} (fails : (Grammar.parameters type).Fails o ⟨s.next, depth⟩ e) :
          (constructorMember type).Fails o ⟨s0, depth⟩ e :=
        .behind (t := ⟨s0, depth⟩) rfl (.behind modifiers (.behind (.expect is) (.bind fails)))
      by_cases paren : s.next.current.kind = .openParenToken
      · rcases h.mark with ⟨mark, -⟩ | rfl
        · exact absurd (mark.symm.trans paren) (by decide)
        · rcases h.signed.less_or_eq with less | rfl
          · exact absurd (less.symm.trans paren) (by decide)
          · exact .same (reads parameters)
      · exact .of_token (reads (.bind (.expect paren))) second
    · exact .of_token (.behind (t := ⟨s0, depth⟩) rfl (.behind modifiers (.bind (.expect is)))) first
  · have other : s.current.kind ≠ .openBracketToken := h.atMemberName.ne (by decide)
    exact .of_token (.behind modifiers (.bind (.bind (.expect other)))) first

end

end Grammar

end Ambient
