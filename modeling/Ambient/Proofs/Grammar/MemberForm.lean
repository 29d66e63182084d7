import Ambient.Grammar.Member
import Ambient.Proofs.Grammar.Opening

namespace Ambient

/-- The forms of members: index signatures, calls without a name, and names with a value or with
parameters. -/
inductive MemberForm where
  | index | call | value | method
deriving DecidableEq

namespace Stream

variable {s : Stream}

/-- The kind of the token behind a name, a mark for what is optional or certain apart. -/
def markKind (s : Stream) : Kind :=
  if s.next.current.kind = .questionToken || s.next.current.kind = .exclamationToken then
    s.next.next.current.kind
  else s.next.current.kind

/-- The form of the member that stands here, if there is one. -/
def memberForm (s : Stream) : MemberForm :=
  if s.current.kind = .openBracketToken then .index
  else if s.current.kind = .lessThanToken || s.current.kind = .openParenToken then .call
  else if s.markKind = .colonToken then .value
  else .method

/-- A token that is no modifier settles where modifiers end. -/
theorem Settled.of_kind {k : Kind} (is : s.current.kind = k) (other : k.isModifier = false) :
    s.Settled := by
  intro modifier
  rw [is, other] at modifier
  cases modifier

/-- So does a token behind which a modifier cannot stand. -/
theorem Settled.of_next {k : Kind} (is : s.next.current.kind = k)
    (other : Grammar.canFollowModifier k = false) : s.Settled := by
  intro _
  rw [is, other]

/-- A token that the name of a member can be. -/
def AtMemberName (s : Stream) : Prop :=
  s.current.kind.isMemberName = true ∨ s.current.kind = .stringLiteral ∨
    s.current.kind = .numericLiteral

theorem AtMemberName.ne {k : Kind} (h : s.AtMemberName)
    (other : (k.isMemberName || k = .stringLiteral || k = .numericLiteral) = false) :
    s.current.kind ≠ k := by
  rintro rfl
  rcases h with is | is | is <;> simp [is] at other

theorem AtMemberName.memberForm_eq (h : s.AtMemberName) :
    s.memberForm = if s.markKind = .colonToken then .value else .method := by
  have bracket := h.ne (k := .openBracketToken) (by decide)
  have less := h.ne (k := .lessThanToken) (by decide)
  have paren := h.ne (k := .openParenToken) (by decide)
  simp [memberForm, bracket, less, paren]

end Stream

/-- Behind some modifiers at `s`, a member of a form stands at `v`. -/
structure MemberAt (form : MemberForm) (s v : Stream) : Prop where
  read : ∃ allowed ks, (∀ k ∈ allowed, k.isModifier = true) ∧ ModifiersRead allowed s ks v
  settled : v.Settled
  form_eq : v.memberForm = form
  starts : v.current.kind = .openBracketToken ∨ v.current.kind = .lessThanToken ∨
    v.current.kind = .openParenToken ∨ v.AtMemberName

theorem Kind.isMemberName_of_isModifier {k : Kind} (h : k.isModifier = true) :
    k.isMemberName = true := by
  have all : ∀ entry ∈ Kind.modifierBits, entry.1.isMemberName = true := by decide
  obtain ⟨bit, found⟩ := Option.isSome_iff_exists.mp h
  obtain ⟨before, behind, eq, -⟩ := List.lookup_eq_some_iff.mp found
  exact all (k, bit) (by simp [eq])

/-- A member starts with a bracket or with what can be a name. -/
theorem MemberAt.first {form : MemberForm} {s v : Stream} (h : MemberAt form s v) :
    s.current.kind = .openBracketToken ∨ s.current.kind = .lessThanToken ∨
      s.current.kind = .openParenToken ∨ s.AtMemberName := by
  obtain ⟨allowed, ks, modifier, read⟩ := h.read
  cases read with
  | nil => exact h.starts
  | cons mem _ _ => exact .inr (.inr (.inr (.inl (Kind.isMemberName_of_isModifier (modifier _ mem)))))

/-- All members that stand at a place have the same form, and the same place behind their
modifiers. -/
theorem MemberAt.unique {form form' : MemberForm} {s v v' : Stream} (h : MemberAt form s v)
    (g : MemberAt form' s v') : v = v' ∧ form = form' := by
  obtain ⟨allowed, ks, modifier, read⟩ := h.read
  obtain ⟨allowed', ks', modifier', read'⟩ := g.read
  have same : v = v' := read.eq_of_settled read'
    (fun k mem => (List.mem_append.mp mem).elim (modifier k) (modifier' k)) h.settled g.settled
  refine ⟨same, ?_⟩
  rw [← h.form_eq, same, g.form_eq]

namespace Grammar

open Rule

variable {type : Rule Nat Node} [Balanced type] {d : Nat} {s u v : Stream} {n : Node}

theorem no_modifiers : ∀ k ∈ ([] : List Kind), k.isModifier = true := by simp

theorem typeMemberModifiers_modify : ∀ k ∈ typeMemberModifiers, k.isModifier = true := by decide

theorem classMemberModifiers_modify : ∀ k ∈ classMemberModifiers, k.isModifier = true := by decide

theorem memberModifiers_read {l : Option (List Node)} (h : memberModifiers.Leads d s l u) :
    ∃ ks, ModifiersRead typeMemberModifiers s ks u := by
  obtain ⟨read, v, loop, h⟩ := h.bind
  obtain ⟨_, v', refuse, h⟩ := h.bind
  obtain rfl := refuseModifier_leads refuse
  obtain ⟨rfl, rfl⟩ := h.pure
  obtain ⟨ks, read, -⟩ := modifiers_read loop
  exact ⟨ks, read⟩

theorem literal?_leads {x : Option Node} (h : literal?.Leads d s x u) :
    (s.current.kind = .stringLiteral ∨ s.current.kind = .numericLiteral) ∧ u = s.next ∨
      x = none := by
  obtain ⟨_, _, here, h⟩ := h.bind
  obtain ⟨rfl, rfl⟩ := here.current
  rcases h.ite with ⟨-, h⟩ | ⟨-, h⟩
  · exact .inr h.pure.1
  · rcases h.ite with ⟨is, h⟩ | ⟨-, h⟩
    · obtain ⟨_, v, step, h⟩ := h.bind
      obtain rfl := step.advance
      exact .inl ⟨.inl is, h.pure.2.symm⟩
    · rcases h.ite with ⟨is, h⟩ | ⟨-, h⟩
      · obtain ⟨_, v, step, h⟩ := h.bind
        obtain rfl := step.advance
        exact .inl ⟨.inr is, h.pure.2.symm⟩
      · exact .inr h.pure.1

theorem propertyName_leads {comment : Option String} (h : (propertyName comment).Leads d s n u) :
    s.AtMemberName ∧ u = s.next ∧
      (s.current.kind.isMemberName = true → n = .identifier s.current.value comment) := by
  obtain ⟨_, _, here, h⟩ := h.bind
  obtain ⟨rfl, rfl⟩ := here.current
  rcases h.ite with ⟨is, h⟩ | ⟨is_not, h⟩
  · obtain ⟨_, rfl, rfl⟩ := identifierOf_word h
    exact ⟨.inl is, rfl, fun _ => rfl⟩
  · obtain ⟨found, v, read, h⟩ := h.bind
    split at h
    · obtain ⟨-, rfl⟩ := h.pure
      rcases literal?_leads read with ⟨is, rfl⟩ | none
      · exact ⟨.inr is, rfl, fun word => absurd word is_not⟩
      · cases none
    · exact h.failHere.elim

omit [Balanced type] in
theorem parameters_starts {l : Option (List Node)} (h : (parameters type).Leads d s l u) :
    s.current.kind = .openParenToken := by
  obtain ⟨_, v, open_, -⟩ := h.bind
  exact open_.expect.1

/-- Type parameters and parameters start with the bracket of the first or of the second. -/
theorem signature_starts {e : Nat} {tps ps : Option (List Node)}
    (h : (typeParameters type).Leads d s tps v) (g : (parameters type).Leads e v ps u) :
    s.current.kind = .lessThanToken ∨ s.current.kind = .openParenToken := by
  rcases h.optionalAfter with ⟨_, -, is, -⟩ | ⟨-, rfl⟩
  · exact .inl is
  · exact .inr (parameters_starts g)

theorem indexSignature_leads {ms : Option (List Node)} (h : (indexSignature type ms).Leads d s n u) :
    s.current.kind = .openBracketToken ∧ s.next.next.current.kind = .colonToken := by
  obtain ⟨_, s1, h1, h⟩ := h.bind
  obtain ⟨is, rfl⟩ := h1.expect
  obtain ⟨key, s2, h2, h⟩ := h.bind
  obtain ⟨-, rfl, -⟩ := identifierOf_word h2
  obtain ⟨keyType, s3, h3, -⟩ := h.bind
  obtain ⟨found, s4, h4, h3⟩ := h3.bind
  rcases h4.accept with ⟨-, colon, -⟩ | ⟨rfl, -, -⟩
  · exact ⟨is, colon⟩
  · exact h3.of_false.failHere.elim

variable {allowed ks : List Kind}

theorem memberAt_index (modifier : ∀ k ∈ allowed, k.isModifier = true)
    (read : ModifiersRead allowed s ks v) (is : v.current.kind = .openBracketToken) :
    MemberAt .index s v :=
  ⟨⟨allowed, ks, modifier, read⟩, .of_kind is (by decide), by simp [Stream.memberForm, is], .inl is⟩

theorem memberAt_call (is : s.current.kind = .lessThanToken ∨ s.current.kind = .openParenToken) :
    MemberAt .call s s := by
  refine ⟨⟨[], [], no_modifiers, .nil s⟩, ?_, ?_, .inr (is.imp_right .inl)⟩
  · rcases is with is | is <;> exact .of_kind is (by decide)
  · rcases is with is | is <;> simp [Stream.memberForm, is]

theorem memberAt_value (modifier : ∀ k ∈ allowed, k.isModifier = true)
    (read : ModifiersRead allowed s ks v) (name : v.AtMemberName)
    (mark : v.next.current.kind = .colonToken ∨ (v.next.current.kind = .questionToken ∨
      v.next.current.kind = .exclamationToken) ∧ v.next.next.current.kind = .colonToken) :
    MemberAt .value s v := by
  refine ⟨⟨allowed, ks, modifier, read⟩, ?_, ?_, .inr (.inr (.inr name))⟩
  · rcases mark with is | ⟨is | is, -⟩ <;> exact .of_next is (by decide)
  · rw [name.memberForm_eq, if_pos]
    rcases mark with is | ⟨is | is, colon⟩
    · simp [Stream.markKind, is]
    · simp [Stream.markKind, is, colon]
    · simp [Stream.markKind, is, colon]

theorem memberAt_method (modifier : ∀ k ∈ allowed, k.isModifier = true)
    (read : ModifiersRead allowed s ks v) (name : v.AtMemberName) {w : Stream} (question : w = v.next ∨
      v.next.current.kind = .questionToken ∧ w = v.next.next)
    (signature : w.current.kind = .lessThanToken ∨ w.current.kind = .openParenToken) :
    MemberAt .method s v := by
  refine ⟨⟨allowed, ks, modifier, read⟩, ?_, ?_, .inr (.inr (.inr name))⟩
  · rcases question with rfl | ⟨is, -⟩
    · rcases signature with is | is <;> exact .of_next is (by decide)
    · exact .of_next is (by decide)
  · rw [name.memberForm_eq, if_neg]
    rcases question with rfl | ⟨is, rfl⟩
    · rcases signature with is' | is' <;> simp [Stream.markKind, is']
    · rcases signature with is' | is' <;> simp [Stream.markKind, is, is']

theorem indexMember_at (h : (indexMember type).Leads d s n u) :
    ∃ v, MemberAt .index s v ∧ v.next.next.current.kind = .colonToken := by
  obtain ⟨ms, s1, h1, h⟩ := h.bind
  obtain ⟨read, s2, h2, -⟩ := h.bind
  obtain ⟨ks, read⟩ := memberModifiers_read h1
  obtain ⟨is, colon⟩ := indexSignature_leads h2
  exact ⟨s1, memberAt_index typeMemberModifiers_modify read is, colon⟩

theorem callSignature_at (h : (callSignature type).Leads d s n u) : MemberAt .call s s := by
  obtain ⟨tps, s1, h1, h⟩ := h.bind
  obtain ⟨ps, s2, h2, -⟩ := h.bind
  exact memberAt_call (signature_starts h1 h2)

theorem constructSignature_at (h : (constructSignature type).Leads d s n u) :
    MemberAt .method s s ∧ s.current.kind = .newKeyword ∧
      ∃ tps ps result, n = .constructSignature tps ps result := by
  obtain ⟨_, s1, h1, h⟩ := h.bind
  obtain ⟨is, rfl⟩ := h1.expect
  obtain ⟨tps, s2, h2, h⟩ := h.bind
  obtain ⟨ps, s3, h3, h⟩ := h.bind
  obtain ⟨result, s4, h4, h⟩ := h.bind
  obtain ⟨_, s5, h5, h⟩ := h.bind
  obtain ⟨rfl, -⟩ := h.pure
  have name : s.AtMemberName := .inl (by rw [is]; decide)
  refine ⟨?_, is, tps, ps, result, rfl⟩
  exact memberAt_method no_modifiers (.nil s) name (.inl rfl) (signature_starts h2 h3)

omit [Balanced type] in
theorem propertySignature_at (h : (propertySignature type).Leads d s n u) :
    ∃ v, MemberAt .value s v := by
  obtain ⟨comment, _, here, h⟩ := h.bind
  obtain rfl := here.documentationHere
  obtain ⟨ms, s1, h1, h⟩ := h.bind
  obtain ⟨declared, s2, h2, h⟩ := h.bind
  obtain ⟨question, s3, h3, h⟩ := h.bind
  obtain ⟨_, s4, h4, -⟩ := h.bind
  obtain ⟨ks, read⟩ := memberModifiers_read h1
  obtain ⟨name, rfl, -⟩ := propertyName_leads h2
  have colon := h4.expect.1
  refine ⟨s1, memberAt_value typeMemberModifiers_modify read name ?_⟩
  rcases h3.token? with ⟨-, is, rfl⟩ | ⟨-, rfl⟩
  · exact .inr ⟨.inl is, colon⟩
  · exact .inl colon

theorem methodSignature_at (h : (methodSignature type).Leads d s n u) :
    MemberAt .method s s ∧ (s.current.kind.isMemberName = true →
      ∃ comment question tps ps result,
        n = .methodSignature (.identifier s.current.value comment) question tps ps result) := by
  obtain ⟨comment, _, here, h⟩ := h.bind
  obtain rfl := here.documentationHere
  obtain ⟨declared, s1, h1, h⟩ := h.bind
  obtain ⟨question, s2, h2, h⟩ := h.bind
  obtain ⟨tps, s3, h3, h⟩ := h.bind
  obtain ⟨ps, s4, h4, h⟩ := h.bind
  obtain ⟨result, s5, h5, h⟩ := h.bind
  obtain ⟨_, s6, h6, h⟩ := h.bind
  obtain ⟨rfl, -⟩ := h.pure
  obtain ⟨name, rfl, named⟩ := propertyName_leads h1
  refine ⟨memberAt_method no_modifiers (.nil s) name ?_ (signature_starts h3 h4), fun word =>
    ⟨comment, question, tps, ps, result, by rw [named word]⟩⟩
  rcases h2.token? with ⟨-, is, rfl⟩ | ⟨-, rfl⟩
  · exact .inr ⟨is, rfl⟩
  · exact .inl rfl

theorem constructorMember_at (h : (constructorMember type).Leads d s n u) :
    ∃ v, MemberAt .method s v ∧ v.current.kind = .constructorKeyword ∧
      ∃ comment ms ps, n = .constructorDeclaration comment ms ps := by
  obtain ⟨comment, _, here, h⟩ := h.bind
  obtain rfl := here.documentationHere
  obtain ⟨ms, s1, h1, h⟩ := h.bind
  obtain ⟨_, s2, h2, h⟩ := h.bind
  obtain ⟨ps, s3, h3, h⟩ := h.bind
  obtain ⟨_, s4, h4, h⟩ := h.bind
  obtain ⟨rfl, -⟩ := h.pure
  obtain ⟨ks, read, -⟩ := modifiers_read h1
  obtain ⟨is, rfl⟩ := h2.expect
  have name : s1.AtMemberName := .inl (by rw [is]; decide)
  refine ⟨s1, ?_, is, comment, ms, ps, rfl⟩
  exact memberAt_method classMemberModifiers_modify read name (.inl rfl)
    (.inr (parameters_starts h3))

theorem classIndexMember_at (h : (classIndexMember type).Leads d s n u) :
    ∃ v, MemberAt .index s v := by
  obtain ⟨ms, s1, h1, h⟩ := h.bind
  obtain ⟨read, s2, h2, -⟩ := h.bind
  obtain ⟨ks, read, -⟩ := modifiers_read h1
  exact ⟨s1, memberAt_index classMemberModifiers_modify read (indexSignature_leads h2).1⟩

omit [Balanced type] in
theorem propertyMember_at (h : (propertyMember type).Leads d s n u) :
    ∃ v, MemberAt .value s v := by
  obtain ⟨comment, _, here, h⟩ := h.bind
  obtain rfl := here.documentationHere
  obtain ⟨ms, s1, h1, h⟩ := h.bind
  obtain ⟨declared, s2, h2, h⟩ := h.bind
  obtain ⟨question, s3, h3, h⟩ := h.bind
  obtain ⟨ks, read, -⟩ := modifiers_read h1
  obtain ⟨name, rfl, -⟩ := propertyName_leads h2
  refine ⟨s1, memberAt_value classMemberModifiers_modify read name ?_⟩
  rcases h3.token? with ⟨rfl, is, rfl⟩ | ⟨rfl, rfl⟩
  · obtain ⟨_, s4, h4, -⟩ := h.of_false.bind
    exact .inr ⟨.inl is, h4.expect.1⟩
  · obtain ⟨found, s4, h4, h⟩ := h.of_true.bind
    obtain ⟨_, s5, h5, -⟩ := h.bind
    have colon := h5.expect.1
    rcases h4.accept with ⟨-, is, rfl⟩ | ⟨-, -, rfl⟩
    · exact .inr ⟨.inr is, colon⟩
    · exact .inl colon

theorem methodMember_at (h : (methodMember type).Leads d s n u) :
    ∃ v, MemberAt .method s v ∧ (v.current.kind.isMemberName = true →
      ∃ comment ms question tps ps result, n = .methodDeclaration ms
        (.identifier v.current.value comment) question tps ps result) := by
  obtain ⟨comment, _, here, h⟩ := h.bind
  obtain rfl := here.documentationHere
  obtain ⟨ms, s1, h1, h⟩ := h.bind
  obtain ⟨declared, s2, h2, h⟩ := h.bind
  obtain ⟨question, s3, h3, h⟩ := h.bind
  obtain ⟨tps, s4, h4, h⟩ := h.bind
  obtain ⟨ps, s5, h5, h⟩ := h.bind
  obtain ⟨result, s6, h6, h⟩ := h.bind
  obtain ⟨_, s7, h7, h⟩ := h.bind
  obtain ⟨rfl, -⟩ := h.pure
  obtain ⟨ks, read, -⟩ := modifiers_read h1
  obtain ⟨name, rfl, named⟩ := propertyName_leads h2
  refine ⟨s1, memberAt_method classMemberModifiers_modify read name ?_ (signature_starts h4 h5),
    fun word => ⟨comment, ms, question, tps, ps, result, by rw [named word]⟩⟩
  rcases h3.token? with ⟨-, is, rfl⟩ | ⟨-, rfl⟩
  · exact .inr ⟨is, rfl⟩
  · exact .inl rfl

end Grammar

end Ambient
