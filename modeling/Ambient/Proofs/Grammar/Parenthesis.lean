import Ambient.Proofs.Grammar.Parameters

namespace Ambient

open Rule Grammar

/-- How parameters start, with the place where their first name has been read, or where they start
otherwise. -/
inductive HeadTo : Stream → Stream → Prop where
  | mark {s : Stream} (other : startsType s.current.kind = false)
      (ends : s.current.kind ∉ typeContinuations) : HeadTo s s
  | name {s : Stream} (word : isTypeWord s.current.kind = true)
      (behind : s.next.current.kind = .questionToken ∨ s.next.current.kind = .colonToken) :
      HeadTo s s.next
  | modifier {s w : Stream} (mem : s.current.kind ∈ parameterModifiers)
      (follows : canFollowModifier s.next.current.kind = true) (others : HeadTo s.next w) :
      HeadTo s w

namespace HeadTo

variable {s w : Stream}

theorem head (h : HeadTo s w) : ParametersHead s := by
  induction h with
  | mark other ends => exact .none other ends
  | name word behind => exact .name word behind
  | modifier mem follows _ ih => exact .modifier mem follows ih

theorem suffix (h : HeadTo s w) : w.toList <:+ s.toList := by
  induction h with
  | mark => exact List.suffix_refl _
  | @name s => exact s.suffix_next
  | @modifier s w _ _ _ ih => exact ih.trans s.suffix_next

end HeadTo

/-- A rule fails for want of a type, or gives a type that cannot go on, at some place up to `w`. -/
def Rule.StopsBy (r : Rule Nat Node) (o : Options) (s : State Nat) (w : Stream) : Prop :=
  ∃ v : Stream, v.toList <:+ s.stream.toList ∧ w.toList <:+ v.toList ∧
    (r.Fails o s (v.current.failure .typeExpected []) ∨ (∃ n, r.Gives o s n ⟨v, s.depth⟩) ∧ Stuck v)

theorem Rule.StopsBy.nested {r : Rule Nat Node} {o : Options} {depth : Nat} {s w : Stream}
    (h : r.StopsBy o ⟨s, depth + 1⟩ w) (behind : w.toList <:+ s.toList) :
    (nested r).StopsBy o ⟨s, depth⟩ w := by
  by_cases full : o.depthLimit ≤ depth
  · exact ⟨s, List.suffix_refl _, behind, .inl (.nested_full full)⟩
  · have room : depth < o.depthLimit := Nat.not_le.mp full
    obtain ⟨v, after, before, fails | ⟨⟨n, gives⟩, stuck⟩⟩ := h
    · exact ⟨v, after, before, .inl (.nested room fails)⟩
    · exact ⟨v, after, before, .inr ⟨⟨n, .nested room gives⟩, stuck⟩⟩

namespace Grammar

variable {type : Rule Nat Node} {o : Options} {depth : Nat} {s w : Stream} {n : Node}

/-- A token that no type starts with. -/
theorem primaryType_fails (other : startsType s.current.kind = false) :
    (primaryType type).Fails o ⟨s, depth⟩ (s.current.failure .typeExpected []) := by
  have ahead : (nextIs .dotToken).Gives o ⟨s, depth⟩ (decide (s.next.current.kind = .dotToken))
      ⟨s, depth⟩ := rfl
  have not {k : Kind} (starts : startsType k = true) : s.current.kind ≠ k := by
    rintro rfl
    exact absurd (other.symm.trans starts) (by decide)
  simp only [startsType, Bool.or_eq_false_iff] at other
  obtain ⟨⟨keyword, name⟩, -⟩ := other
  refine .behind .current (.behind ahead (.ite_neg (by simp [keyword]) ?_))
  split
  case h_8 =>
    refine .ite_neg (not (by decide)) (.ite_neg ?_ (.ite_neg (by simp [name]) .failHere))
    have string := not (k := .stringLiteral) (by decide)
    have number := not (k := .numericLiteral) (by decide)
    have yes := not (k := .trueKeyword) (by decide)
    have no := not (k := .falseKeyword) (by decide)
    simp [string, number, yes, no]
  all_goals
    rename_i is
    exact absurd is (not (by decide))

theorem wordType_gives {k : Kind} (is : s.current.kind = k) (name : k.isName = true)
    (stop : s.next.current.kind ∉ typeContinuations) :
    ∃ n, (wordType type k).Gives o ⟨s, depth⟩ n ⟨s.next, depth⟩ := by
  subst is
  have not {k : Kind} (other : k.isName = false) : s.current.kind ≠ k := Kind.ne_of_class name other
  have string := not (k := .stringLiteral) (by decide)
  have number := not (k := .numericLiteral) (by decide)
  have yes := not (k := .trueKeyword) (by decide)
  have no := not (k := .falseKeyword) (by decide)
  have reference : (typeReference type).Gives o ⟨s, depth⟩
      (.typeReference (.identifier s.current.value none) none) ⟨s.next, depth⟩ :=
    .bind (entityName_gives name fun dot => stop (by rw [dot]; decide))
      (.bind (.bind (.atKindOnLine_not fun less => stop (by rw [less]; decide)) .pure) .pure)
  exact ⟨_, .ite_neg (not (by decide)) (.ite_neg (by simp [string, number, yes, no])
    (.ite_pos name reference))⟩

/-- A word that nothing goes on with is a type. -/
theorem primaryType_gives (word : isTypeWord s.current.kind = true)
    (stop : s.next.current.kind ∉ typeContinuations) :
    ∃ n, (primaryType type).Gives o ⟨s, depth⟩ n ⟨s.next, depth⟩ := by
  have not {k : Kind} (other : isTypeWord k = false) : s.current.kind ≠ k :=
    Kind.ne_of_class word other
  have ahead (k : Kind) : (nextIs k).Gives o ⟨s, depth⟩ (decide (s.next.current.kind = k))
      ⟨s, depth⟩ := rfl
  have stays {k : Kind} (mem : k ∈ typeContinuations) : decide (s.next.current.kind = k) = false :=
    decide_eq_false fun is => stop (is ▸ mem)
  by_cases keyword : s.current.kind.isKeywordType = true
  · refine ⟨_, .bind .current (.bind (ahead .dotToken) (.ite_pos ?_ (.bind .advance .pure)))⟩
    rw [keyword, stays (by decide)]
    rfl
  have plain : ¬ (s.current.kind.isKeywordType && !decide (s.next.current.kind = .dotToken)) = true := by
    simp [keyword]
  by_cases this : s.current.kind = .thisKeyword
  · refine ⟨.thisType, .bind .current (.bind (ahead .dotToken) (.ite_neg plain ?_))⟩
    simp only [this]
    exact .bind .advance .pure
  have name : s.current.kind.isName = true := by simpa [isTypeWord, this] using word
  obtain ⟨n, reads⟩ : ∃ n, (wordType type s.current.kind).Gives o ⟨s, depth⟩ n ⟨s.next, depth⟩ :=
    wordType_gives rfl name stop
  refine ⟨n, .bind .current (.bind (ahead .dotToken) (.ite_neg plain ?_))⟩
  split
  case h_7 => exact .bind (ahead .newKeyword) (.ite_neg (Bool.eq_false_iff.mp (stays (by decide))) reads)
  case h_8 => exact reads
  all_goals
    rename_i is
    first | exact absurd is this | exact absurd is (not (by decide))

theorem postfixType_gives (word : isTypeWord s.current.kind = true)
    (stop : s.next.current.kind ∉ typeContinuations) :
    ∃ n, (postfixType type).Gives o ⟨s, depth⟩ n ⟨s.next, depth⟩ := by
  obtain ⟨n, first⟩ : ∃ n, (primaryType type).Gives o ⟨s, depth⟩ n ⟨s.next, depth⟩ :=
    primaryType_gives word stop
  have bracket : s.next.current.kind ≠ .openBracketToken := fun is => stop (by rw [is]; decide)
  refine ⟨n, .bind first (.closingLevels (.iterate_stop (t := ⟨s.next, depth⟩) ?_))⟩
  exact .bind (.atKindOnLine_not bracket) (.ite_neg (by decide) .pure)

theorem operatorCall_eq (scanned : Scanned s.toList) :
    operatorCall (fun _ => operatorType Grammar.type) () o ⟨s, depth⟩ =
      operatorType Grammar.type o ⟨s, depth⟩ :=
  descends_operatorType s.ahead.length (fun _ => operatorType Grammar.type) (fun _ _ _ _ _ => rfl)
    () o ⟨s, depth⟩ scanned (Nat.le_refl _)

theorem typeCall_eq (scanned : Scanned s.toList) :
    typeCall (fun _ => Grammar.type) () o ⟨s, depth⟩ = Grammar.type o ⟨s, depth⟩ :=
  descends_type s.ahead.length (fun _ => Grammar.type) (fun _ _ _ _ _ => rfl) () o ⟨s, depth⟩
    scanned (Nat.le_refl _)

/-- A modifier or a name that is an operator, too, leaves the operator without its type. -/
theorem operatorType_stops (head : HeadTo s w) (scanned : Scanned s.toList) :
    (operatorType Grammar.type).StopsBy o ⟨s, depth⟩ w := by
  have mark {s : Stream} {depth : Nat} (scanned : Scanned s.toList)
      (other : startsType s.current.kind = false) : (operatorType Grammar.type).Fails o ⟨s, depth⟩
        (s.current.failure .typeExpected []) := by
    have plain : s.current.kind.isTypeOperator = false := by
      by_contra operator
      simp only [Kind.isTypeOperator, Bool.not_eq_false, Bool.or_eq_true, decide_eq_true_eq] at operator
      rcases operator with (is | is) | is <;> rw [is] at other <;> exact absurd other (by decide)
    rw [Fails, ← operatorCall_eq scanned]
    exact Fails.behind .current (.ite_neg (by simp [plain]) (.bind (primaryType_fails other)))
  -- an operator is followed by its type; anything else is a type by itself
  have step {s : Stream} {depth : Nat} (scanned : Scanned s.toList)
      (word : isTypeWord s.current.kind = true) (stop : Stuck s.next)
      (behind : w.toList <:+ s.next.toList)
      (inner : (operatorType Grammar.type).StopsBy o ⟨s.next, depth + 1⟩ w) :
      (operatorType Grammar.type).StopsBy o ⟨s, depth⟩ w := by
    by_cases operator : s.current.kind.isTypeOperator = true
    · obtain ⟨v, after, before, fails | ⟨⟨n, gives⟩, stuck⟩⟩ := StopsBy.nested inner behind
      · refine ⟨v, after.trans s.suffix_next, before, .inl ?_⟩
        rw [Fails, ← operatorCall_eq scanned]
        exact Fails.behind .current (.ite_pos operator (.behind .advance (.bind fails)))
      · refine ⟨v, after.trans s.suffix_next, before, .inr ⟨⟨.typeOperator s.current.kind n, ?_⟩, stuck⟩⟩
        rw [Gives, ← operatorCall_eq scanned]
        exact Gives.bind .current (.ite_pos operator (.bind .advance (.bind gives .pure)))
    · obtain ⟨n, gives⟩ : ∃ n, (postfixType Grammar.type).Gives o ⟨s, depth⟩ n ⟨s.next, depth⟩ :=
        postfixType_gives word stop.not_continuation
      refine ⟨s.next, s.suffix_next, behind, .inr ⟨⟨n, ?_⟩, stop⟩⟩
      rw [Gives, ← operatorCall_eq scanned]
      exact Gives.bind .current (.ite_neg operator gives)
  induction head generalizing depth with
  | @mark s other ends => exact ⟨s, List.suffix_refl _, List.suffix_refl _, .inl (mark scanned other)⟩
  | @name s word behind =>
    have stop : Stuck s.next := by
      constructor <;> rcases behind with is | is <;> rw [is] <;> decide
    have other : startsType s.next.current.kind = false := by
      rcases behind with is | is <;> rw [is] <;> decide
    exact step scanned word stop (List.suffix_refl _)
      ⟨s.next, List.suffix_refl _, List.suffix_refl _, .inl (mark scanned.next other)⟩
  | @modifier s w mem follows others ih =>
    have stop : Stuck s.next :=
      ⟨Kind.ne_of_class follows (by decide), others.head.not_continuation⟩
    exact step scanned (isTypeWord_of_parameterModifier mem) stop others.suffix
      (ih scanned.next step)

theorem terms_stops {separator : Kind} {join : List Node → Node} {term : Rule Nat Node}
    (mem : separator ∈ typeContinuations) (head : ParametersHead s)
    (h : term.StopsBy o ⟨s, depth⟩ w) : (terms separator join term).StopsBy o ⟨s, depth⟩ w := by
  have first : (accept separator).Gives o ⟨s, depth⟩ false ⟨s, depth⟩ :=
    .accept_not fun is => head.not_continuation (is ▸ mem)
  obtain ⟨v, after, before, fails | ⟨⟨n, gives⟩, stuck⟩⟩ := h
  · exact ⟨v, after, before, .inl (.behind first (.bind fails))⟩
  · have last : (many (optionalAfter separator term)).Gives o ⟨v, depth⟩ [] ⟨v, depth⟩ :=
      .many_none (.optionalAfter_not fun is => stuck.not_continuation (is ▸ mem))
    exact ⟨v, after, before, .inr ⟨⟨n, .bind first (.bind gives (.bind last .pure))⟩, stuck⟩⟩

theorem type_stops (head : HeadTo s w) (scanned : Scanned s.toList) :
    Grammar.type.StopsBy o ⟨s, depth⟩ w := by
  have intersection : (intersectionType Grammar.type).StopsBy o ⟨s, depth + 1⟩ w :=
    terms_stops (by decide) head.head (operatorType_stops head scanned)
  have union : (unionType Grammar.type).StopsBy o ⟨s, depth + 1⟩ w :=
    terms_stops (by decide) head.head intersection
  obtain ⟨v, after, before, fails | ⟨⟨n, gives⟩, stuck⟩⟩ := StopsBy.nested union head.suffix
  · exact ⟨v, after, before, .inl (by rw [Fails, ← typeCall_eq scanned]; exact fails)⟩
  · exact ⟨v, after, before, .inr ⟨⟨n, by rw [Gives, ← typeCall_eq scanned]; exact gives⟩, stuck⟩⟩

/-- Where parameters start the rule for types in parentheses fails, at the latest behind the first
name, and not because of a rest parameter. -/
theorem parenthesizedType_fails (paren : s.current.kind = .openParenToken) (head : HeadTo s.next w)
    (scanned : Scanned s.toList) :
    ∃ v : Stream, v.toList <:+ s.next.toList ∧ w.toList <:+ v.toList ∧
      ∃ m arguments, m ≠ .restParameterNotLast ∧
        (parenthesizedType Grammar.type).Fails o ⟨s, depth⟩ (v.current.failure m arguments) := by
  have first : (expect .openParenToken).Gives o ⟨s, depth⟩ () ⟨s.next, depth⟩ := .expect paren
  have stops : Grammar.type.StopsBy o ⟨s.next, depth⟩ w := type_stops head scanned.next
  obtain ⟨v, after, before, fails | ⟨⟨n, gives⟩, stuck⟩⟩ := stops
  · exact ⟨v, after, before, _, _, by decide, .behind first (.bind fails)⟩
  · have last : (expect .closeParenToken).Fails o ⟨v, depth⟩
        (v.current.failure .tokenExpected [Kind.closeParenToken.tokenText.getD "token"]) :=
      .expect stuck.not_close
    exact ⟨v, after, before, _, _, by decide, .behind first (.behind gives (.bind last))⟩

theorem isFirm_of_isTypeWord {k : Kind} (h : isTypeWord k = true) : k.isFirm = true := by
  unfold Kind.isFirm
  split <;> first | rfl | exact absurd h (by decide)

theorem parameterName_leads {d : Nat} {t : Stream} (h : parameterName.Leads d s n t) :
    isTypeWord s.current.kind = true ∧ t = s.next := by
  obtain ⟨this, v, h1, h⟩ := h.bind
  rcases h1.accept with ⟨rfl, is, rfl⟩ | ⟨rfl, -, rfl⟩
  · obtain ⟨-, rfl⟩ := h.of_true.pure
    exact ⟨by rw [is]; decide, rfl⟩
  · obtain ⟨_, _, here, h⟩ := h.of_false.bind
    obtain ⟨rfl, rfl⟩ := here.current
    rcases h.ite with ⟨-, h⟩ | ⟨-, h⟩
    · obtain ⟨word, rfl, -⟩ := identifierOf_word h
      exact ⟨by rw [isTypeWord, word, Bool.true_or], rfl⟩
    · exact h.failHere.elim

theorem headTo_of_modifiersRead {ks : List Kind} {v : Stream}
    (h : ModifiersRead parameterModifiers s ks v) (head : HeadTo v w) : HeadTo s w := by
  induction h with
  | nil => exact head
  | cons mem follows _ ih => exact .modifier mem follows (ih head)

/-- A parameter starts with a well-formed token, and it goes on behind its head. -/
theorem headTo_of_parameter {t : Stream} (scanned : Scanned s.toList)
    (read : (parameter Grammar.type).Gives o ⟨s, depth⟩ n ⟨t, depth⟩) :
    s.current.kind.isFirm = true ∧ ∃ w, HeadTo s w ∧ t.toList <:+ w.toList := by
  obtain ⟨ms, s1, h1, h⟩ := (leads_of_gives read).bind
  obtain ⟨ks, modifiers, -⟩ := modifiers_read h1
  obtain ⟨dots, s2, h2, h⟩ := h.bind
  obtain ⟨declared, s3, h3, h⟩ := h.bind
  obtain ⟨word, rfl⟩ := parameterName_leads h3
  obtain ⟨_, _, here, h⟩ := h.bind
  obtain ⟨-, rfl⟩ := here.current
  obtain ⟨question, s4, h4, h⟩ := h.bind
  rcases h.ite with ⟨-, h⟩ | ⟨-, h⟩
  · exact h.fail.elim
  obtain ⟨_, s5, colon, h⟩ := h.bind
  obtain ⟨is, rfl⟩ := colon.expect
  obtain ⟨value, s6, ⟨o', depth', -, last⟩, h⟩ := h.bind
  obtain ⟨-, rfl⟩ := h.pure
  have scanned1 := scanned_of_modifiersRead modifiers scanned
  -- from the name on
  have tail (scanned2 : Scanned s2.toList) : s6.toList <:+ s2.next.toList ∧
      (s2.next.current.kind = .questionToken ∨ s2.next.current.kind = .colonToken) := by
    rcases h4.token? with ⟨-, mark, rfl⟩ | ⟨-, rfl⟩
    · have further := (nodesRead.ofType _ _ _ _ scanned2.next.next.next last).suffix
      exact ⟨(further.trans (Stream.suffix_next _)).trans (Stream.suffix_next _), .inl mark⟩
    · have further := (nodesRead.ofType _ _ _ _ scanned2.next.next last).suffix
      exact ⟨further.trans (Stream.suffix_next _), .inr is⟩
  obtain ⟨firm, w, head, behind⟩ :
      s1.current.kind.isFirm = true ∧ ∃ w, HeadTo s1 w ∧ s6.toList <:+ w.toList := by
    rcases h2.token? with ⟨-, mark, rfl⟩ | ⟨-, rfl⟩
    · have further := (tail scanned1.next).1
      exact ⟨by rw [mark], s1, .mark (by rw [mark]; decide) (by rw [mark]; decide),
        (further.trans (Stream.suffix_next _)).trans (Stream.suffix_next _)⟩
    · obtain ⟨further, mark⟩ := tail scanned1
      exact ⟨isFirm_of_isTypeWord word, s1.next, .name word mark, further⟩
  refine ⟨?_, w, headTo_of_modifiersRead modifiers head, behind⟩
  cases modifiers with
  | nil => exact firm
  | cons mem _ _ => exact isFirm_of_isTypeWord (isTypeWord_of_parameterModifier mem)

end Grammar

end Ambient
