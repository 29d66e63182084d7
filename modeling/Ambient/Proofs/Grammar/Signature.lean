import Ambient.Grammar.Signature
import Ambient.Proofs.Grammar.Name

namespace Ambient.Grammar

open Rule Node

variable {type : Rule Nat Node} [Balanced type] {d : Nat} {s u : Stream}

theorem typeArguments_yields (ht : type.Reads 1 (.category .type)) {l : List Node}
    (h : (typeArguments type).Leads d s l u) :
    Yields (5 * d + 1) s 1 (l.map (.category .type, ·)) u ∧ l ≠ [] := by
  obtain ⟨_, s1, less, h⟩ := h.bind
  obtain ⟨_, _, here, h⟩ := h.bind
  obtain ⟨-, rfl⟩ := here.atKind
  rcases h.ite with ⟨-, h⟩ | ⟨-, h⟩
  · exact h.failHere.elim
  · obtain ⟨read, s2, loop, h⟩ := h.bind
    obtain ⟨_, s3, greater, h⟩ := h.bind
    obtain ⟨rfl, rfl⟩ := h.pure
    obtain ⟨yields, written⟩ := delimited_yields ht loop
    have all := (expect_yields less rfl).trans (yields.trans (expect_yields greater rfl))
    rw [List.nil_append, List.append_nil] at all
    exact ⟨all.weaken (by decide) (by omega), written⟩

theorem typeArgumentsOnLine_yields (ht : type.Reads 1 (.category .type)) {l : Option (List Node)}
    (h : (typeArgumentsOnLine type).Leads d s l u) :
    Yields (5 * d + 1) s 0 (Part.typeArguments l).places u ∧
      ∀ ms, (Part.typeArguments l).Lawful ms := by
  obtain ⟨found, _, here, h⟩ := h.bind
  obtain ⟨-, rfl⟩ := here.atKindOnLine
  rcases h.ite with ⟨-, h⟩ | ⟨-, h⟩
  · obtain ⟨read, list, rfl⟩ := h.map
    obtain ⟨yields, written⟩ := typeArguments_yields ht list
    exact ⟨yields.weaken (Nat.zero_le 1) (by omega), fun _ => Part.lawful_list?
      (by simpa using written) (by decide)⟩
  · obtain ⟨rfl, rfl⟩ := h.pure
    exact ⟨.nothing s, fun _ => Part.lawful_list? nofun (by decide)⟩

theorem typeParameter_reads (ht : type.Reads 1 (.category .type)) :
    (typeParameter type).Reads 2 (.shape .typeParameter) := by
  intro d s n u h
  obtain ⟨_, _, here, h⟩ := h.bind
  obtain ⟨rfl, rfl⟩ := here.current
  rcases h.ite with ⟨-, h⟩ | ⟨-, h⟩
  · obtain ⟨declared, s1, h1, h⟩ := h.bind
    obtain ⟨constraint, s2, h2, h⟩ := h.bind
    obtain ⟨defaultType, s3, h3, h⟩ := h.bind
    obtain ⟨rfl, rfl⟩ := h.pure
    have y1 := name_reads (t := .shape .identifier) (by decide) h1
    have y2 := optionalAfter_yields "Constraint" ht h2 rfl
    have y3 := optionalAfter_yields "Default" ht h3 rfl
    exact .node (y1.trans (y2.trans (y3.trans (.refl _))))
      (.of_shape .typeParameter (by simp [parts, Part.Lawful]) trivial rfl (by decide))
        rfl (by omega)
  · exact h.failHere.elim

theorem typeParameters_yields (ht : type.Reads 1 (.category .type)) {l : Option (List Node)}
    (h : (typeParameters type).Leads d s l u) :
    Yields (5 * d + 2) s 0 (Part.typeParameters l).places u ∧
      ∀ ms, (Part.typeParameters l).Lawful ms := by
  rcases h.optionalAfter with ⟨read, rfl, less, h⟩ | ⟨rfl, rfl⟩
  · obtain ⟨_, _, here, h⟩ := h.bind
    obtain ⟨-, rfl⟩ := here.atKind
    rcases h.ite with ⟨-, h⟩ | ⟨-, h⟩
    · exact h.failHere.elim
    · obtain ⟨read, s1, loop, h⟩ := h.bind
      obtain ⟨_, s2, greater, h⟩ := h.bind
      obtain ⟨rfl, rfl⟩ := h.pure
      obtain ⟨yields, written⟩ := delimited_yields (typeParameter_reads ht) loop
      have less : Yields 0 s 1 [] s.next := .mark (by rw [less]; decide)
      have all := less.trans (yields.trans (expect_yields greater rfl))
      rw [List.nil_append, List.append_nil] at all
      exact ⟨all.weaken (Nat.zero_le _) (by omega), fun _ => Part.lawful_list?
        (by simpa using written) (by decide)⟩
  · exact ⟨.nothing s, fun _ => Part.lawful_list? nofun (by decide)⟩

theorem parameterName_reads : parameterName.Reads 1 (.shape .identifier) := by
  intro d s n u h
  obtain ⟨found, s1, this, h⟩ := h.bind
  rcases this.accept with ⟨rfl, is, rfl⟩ | ⟨rfl, -, rfl⟩
  · obtain ⟨rfl, rfl⟩ := h.of_true.pure
    exact (Yields.keyword (by rw [is]; decide) rfl (by decide)).weaken (Nat.le_refl 1) (by omega)
  · obtain ⟨_, _, here, h⟩ := h.of_false.bind
    obtain ⟨rfl, rfl⟩ := here.current
    rcases h.ite with ⟨-, h⟩ | ⟨-, h⟩
    · exact name_reads (by decide) h
    · exact h.failHere.elim

theorem parameter_reads (ht : type.Reads 1 (.category .type)) :
    (parameter type).Reads 2 (.shape .parameter) := by
  intro d s n u h
  obtain ⟨ms, s1, h1, h⟩ := h.bind
  obtain ⟨dots, s2, h2, h⟩ := h.bind
  obtain ⟨declared, s3, h3, h⟩ := h.bind
  obtain ⟨_, _, here, h⟩ := h.bind
  obtain ⟨-, rfl⟩ := here.current
  obtain ⟨question, s4, h4, h⟩ := h.bind
  rcases h.ite with ⟨-, h⟩ | ⟨no_clash, h⟩
  · exact h.fail.elim
  · obtain ⟨_, s5, h5, h⟩ := h.bind
    obtain ⟨annotated, s6, h6, h⟩ := h.bind
    obtain ⟨rfl, rfl⟩ := h.pure
    obtain ⟨y1, allowed⟩ := modifiers_yields h1 (by decide)
    have y2 := token?_yields "DotDotDotToken" h2 rfl rfl
    have y3 := parameterName_reads h3
    have y4 := token?_yields "QuestionToken" h4 rfl rfl
    have rest_required : dots.isSome = true → question = none := by
      intro rest
      simpa [rest] using no_clash
    exact .node (y1.trans (y2.trans (y3.trans (y4.trans ((expect_yields h5 rfl).trans (ht h6))))))
      (.of_shape .parameter (by simp [parts, Part.Lawful] at allowed ⊢; exact allowed)
        rest_required rfl (by decide)) rfl (by omega)

theorem listedParameter_yields (ht : type.Reads 1 (.category .type)) {n : Node}
    (h : (listedParameter type).Leads d s n u) :
    Yields (5 * d + 2) s 1 [(.shape .parameter, n)] u ∧
      (u.current.kind ≠ .closeParenToken → isRest n = false) := by
  obtain ⟨_, _, here, h⟩ := h.bind
  obtain ⟨-, rfl⟩ := here.current
  obtain ⟨read, s1, h1, h⟩ := h.bind
  obtain ⟨closing, _, here, h⟩ := h.bind
  obtain ⟨rfl, rfl⟩ := here.atKind
  rcases h.ite with ⟨-, h⟩ | ⟨last, h⟩
  · exact h.fail.elim
  · obtain ⟨rfl, rfl⟩ := h.pure
    refine ⟨parameter_reads ht h1, fun more => ?_⟩
    simpa [more] using last

/-- What stands behind a parameter, if anything does before the closing parenthesis: a comma, and
possibly one more parameter. -/
theorem furtherParameter_leads {x : Option Node} (h : Leads (do
      if ← atKind .closeParenToken then return none
      else
        expect .commaToken
        if ← atKind .closeParenToken then return none else some <$> listedParameter type) d s x u) :
    (x = none ∧ s = u) ∨ s.current.kind ≠ .closeParenToken ∧ ∃ t, Yields 0 s 1 [] t ∧
      ((∃ n, x = some n ∧ (listedParameter type).Leads d t n u) ∨ (x = none ∧ t = u)) := by
  obtain ⟨_, _, here, h⟩ := h.bind
  obtain ⟨rfl, rfl⟩ := here.atKind
  rcases h.ite with ⟨-, h⟩ | ⟨more, h⟩
  · exact .inl h.pure
  · obtain ⟨_, s1, comma, h⟩ := h.bind
    obtain ⟨_, _, here, h⟩ := h.bind
    obtain ⟨-, rfl⟩ := here.atKind
    refine .inr ⟨by simpa using more, s1, expect_yields comma rfl, ?_⟩
    rcases h.ite with ⟨-, h⟩ | ⟨-, h⟩
    · exact .inr h.pure
    · obtain ⟨n, read, rfl⟩ := h.map
      exact .inl ⟨n, rfl, read⟩

/-- The parameters read so far, with the place behind them. -/
structure ParametersRead (top : Nat) (s : Stream) (l : List Node) (v : Stream) : Prop where
  yields : Yields top s 1 (l.map (.shape .parameter, ·)) v
  rest_last : ∀ q ∈ l.dropLast, isRest q = false
  /-- A rest parameter stands right before the closing parenthesis. -/
  rest_closed : v.current.kind ≠ .closeParenToken → ∀ q ∈ l, isRest q = false

theorem parameters_read (ht : type.Reads 1 (.category .type)) {first : Node} {others : List Node}
    {v : Stream} (one : (listedParameter type).Leads d s first v) (loop : (many do
      if ← atKind .closeParenToken then return none
      else
        expect .commaToken
        if ← atKind .closeParenToken then return none else some <$> listedParameter type).Leads
      d v others u) : ParametersRead (5 * d + 2) s (first :: others) u := by
  refine Leads.many (P := fun others v => ParametersRead (5 * d + 2) s (first :: others) v) ?_ ?_
    loop ?_
  · intro others n v w before step
    rcases furtherParameter_leads step with ⟨none, -⟩ | ⟨more, v', comma, found | ⟨none, -⟩⟩
    · cases none
    · obtain ⟨m, eq, read⟩ := found
      obtain rfl := Option.some.inj eq
      obtain ⟨yields, last⟩ := listedParameter_yields ht read
      have no_rest := before.rest_closed more
      refine ⟨?_, ?_, ?_⟩
      · rw [← List.cons_append, List.map_append]
        exact (before.yields.trans (comma.trans yields)).weaken (by decide) (by omega)
      · rw [← List.cons_append, List.dropLast_concat]
        exact no_rest
      · intro more
        rw [← List.cons_append]
        exact List.forall_mem_append.mpr ⟨no_rest, List.forall_mem_singleton.mpr (last more)⟩
    · cases none
  · intro others v w before step
    rcases furtherParameter_leads step with ⟨-, rfl⟩ | ⟨more, v', comma, ⟨m, eq, -⟩ | ⟨-, rfl⟩⟩
    · exact before
    · cases eq
    · have behind := before.yields.trans comma
      rw [List.append_nil] at behind
      exact ⟨behind.weaken (by decide) (by omega), before.rest_last, fun _ => before.rest_closed
        more⟩
  · obtain ⟨yields, last⟩ := listedParameter_yields ht one
    exact ⟨yields, by simp, by simpa using last⟩

theorem parameters_yields (ht : type.Reads 1 (.category .type)) {l : Option (List Node)}
    (h : (parameters type).Leads d s l u) :
    Yields (5 * d + 2) s 1 (Part.parameters l).places u ∧
      ∀ ms, (Part.parameters l).Lawful ms := by
  obtain ⟨_, s1, paren, h⟩ := h.bind
  obtain ⟨found, s2, close, h⟩ := h.bind
  rcases close.accept with ⟨rfl, is, rfl⟩ | ⟨rfl, -, rfl⟩
  · obtain ⟨rfl, rfl⟩ := h.of_true.pure
    have close : Yields 0 s1 1 [] s1.next := .mark (by rw [is]; decide)
    exact ⟨((expect_yields paren rfl).trans close).weaken (by decide) (by omega), fun _ =>
      ⟨nofun, by simp⟩⟩
  · obtain ⟨first, s2, one, h⟩ := h.of_false.bind
    obtain ⟨others, s3, loop, h⟩ := h.bind
    obtain ⟨_, s4, close, h⟩ := h.bind
    obtain ⟨rfl, rfl⟩ := h.pure
    have read := parameters_read ht one loop
    have all := (expect_yields paren rfl).trans (read.yields.trans (expect_yields close rfl))
    rw [List.nil_append, List.append_nil] at all
    exact ⟨all.weaken (by decide) (by omega), fun _ => ⟨by simp, fun _ => read.rest_last⟩⟩

theorem predicateSubject_reads : predicateSubject.Reads 1 (.category .predicateSubject) := by
  intro d s n u h
  obtain ⟨found, s1, this, h⟩ := h.bind
  rcases this.accept with ⟨rfl, is, rfl⟩ | ⟨rfl, -, rfl⟩
  · obtain ⟨rfl, rfl⟩ := h.of_true.pure
    exact .node (.mark (by rw [is]; decide))
      (.of_shape .thisType (by simp [parts]) trivial rfl (by decide)) rfl (by omega)
  · exact name_reads (by decide) h.of_false

/-- Whether `asserts` and its subject come next. -/
def nextAsserts (s : Stream) : Bool :=
  decide (s.current.kind = .assertsKeyword) &&
    (isSubject s.next.current.kind && !s.next.current.onNewLine)

theorem atAssertion_gives (o : Options) (s : State Nat) :
    atAssertion.Gives o s (nextAsserts s.stream) s := by
  unfold nextAsserts
  by_cases is : s.stream.current.kind = .assertsKeyword
  · have ahead : (lookAhead do
        advance
        let t ← Rule.current
        return isSubject t.kind && !t.onNewLine).Gives o s
          (isSubject s.stream.next.current.kind && !s.stream.next.current.onNewLine)
          ⟨s.stream, s.next.depth⟩ :=
      .lookAhead (.bind .advance (.bind .current .pure))
    rw [decide_eq_true is, Bool.true_and]
    exact .bind .atKind (.ite_pos (decide_eq_true is) ahead)
  · rw [decide_eq_false is, Bool.false_and]
    exact .bind .atKind (.ite_neg (by simpa using is) .pure)

/-- Whether a subject with `is` behind it comes next. -/
def nextPredicates (s : Stream) : Bool :=
  isSubject s.current.kind &&
    (decide (s.next.current.kind = .isKeyword) && !s.next.current.onNewLine)

theorem atPredicate_gives (o : Options) (s : State Nat) :
    atPredicate.Gives o s (nextPredicates s.stream) s := by
  unfold nextPredicates
  by_cases is : isSubject s.stream.current.kind = true
  · have ahead : (lookAhead do
        advance
        atKindOnLine .isKeyword).Gives o s
          (decide (s.stream.next.current.kind = .isKeyword) && !s.stream.next.current.onNewLine)
          ⟨s.stream, s.next.depth⟩ :=
      .lookAhead (.bind .advance (.bind .current .pure))
    rw [is, Bool.true_and]
    exact .bind .current (.ite_pos is ahead)
  · rw [Bool.eq_false_iff.mpr is, Bool.false_and]
    exact .bind .current (.ite_neg is .pure)

theorem atAssertion_leads {x : Bool} (h : atAssertion.Leads d s x u) :
    (x = true → s.current.kind = .assertsKeyword) ∧ s = u := by
  obtain ⟨_, _, here, h⟩ := h.bind
  obtain ⟨rfl, rfl⟩ := here.atKind
  rcases h.ite with ⟨is, h⟩ | ⟨-, h⟩
  · exact ⟨fun _ => of_decide_eq_true is, h.lookAhead.2⟩
  · obtain ⟨rfl, rfl⟩ := h.pure
    exact ⟨nofun, rfl⟩

theorem atPredicate_leads {x : Bool} (h : atPredicate.Leads d s x u) : s = u := by
  obtain ⟨_, _, here, h⟩ := h.bind
  obtain ⟨rfl, rfl⟩ := here.current
  rcases h.ite with ⟨-, h⟩ | ⟨-, h⟩
  · exact h.lookAhead.2
  · exact h.pure.2

theorem resultType_reads (ht : type.Reads 1 (.category .type)) :
    (resultType type).Reads 2 (.category .type) := by
  intro d s n u h
  obtain ⟨found, _, here, h⟩ := h.bind
  obtain ⟨is, rfl⟩ := atAssertion_leads here
  rcases h.ite with ⟨found, h⟩ | ⟨-, h⟩
  · obtain ⟨_, s1, step, h⟩ := h.bind
    obtain rfl := step.advance
    obtain ⟨subject, s2, h2, h⟩ := h.bind
    obtain ⟨asserted, s3, h3, h⟩ := h.bind
    obtain ⟨rfl, rfl⟩ := h.pure
    have y1 : Yields 1 s 1 [(.shape .token, .token .assertsKeyword)] s.next := by
      rw [← is found]
      exact .token (by rw [is found]; decide) (by rw [is found]; decide) (by decide)
    have y3 := optionalAfter_yields "Type" ht h3 rfl
    exact .node (y1.trans ((predicateSubject_reads h2).trans (y3.trans (.refl _))))
      (.of_shape .typePredicate (by simp [parts, Part.Lawful]) trivial rfl (by decide))
        rfl (by omega)
  · obtain ⟨found, _, here, h⟩ := h.bind
    obtain rfl := atPredicate_leads here
    rcases h.ite with ⟨-, h⟩ | ⟨-, h⟩
    · obtain ⟨subject, s1, h1, h⟩ := h.bind
      obtain ⟨_, s2, h2, h⟩ := h.bind
      obtain ⟨tested, s3, h3, h⟩ := h.bind
      obtain ⟨rfl, rfl⟩ := h.pure
      exact .node ((predicateSubject_reads h1).trans ((expect_yields h2 rfl).trans (ht h3)))
        (.of_shape .typePredicate (by simp [parts, Part.Lawful]) trivial rfl (by decide))
          rfl (by omega)
    · exact (ht h).weaken (Nat.le_refl 1) (by omega)

theorem annotatedResult_reads (ht : type.Reads 1 (.category .type)) :
    (annotatedResult type).Reads 2 (.category .type) := by
  intro d s n u h
  obtain ⟨_, s1, colon, h⟩ := h.bind
  exact ((expect_yields colon rfl).trans (resultType_reads ht h)).weaken (by decide) (by omega)

omit [Balanced type] in
theorem annotatedType_reads (ht : type.Reads 1 (.category .type)) {missing : Message} :
    (annotatedType type missing).Reads 1 (.category .type) := by
  intro d s n u h
  obtain ⟨found, s1, colon, h⟩ := h.bind
  rcases h.ite with ⟨-, h⟩ | ⟨-, h⟩
  · exact ((accept_yields colon rfl).trans (ht h)).weaken (by decide) (by omega)
  · exact h.failHere.elim

/-- An index signature is read from its bracket on; its modifiers stand before. -/
theorem indexSignature_yields (ht : type.Reads 1 (.category .type)) {ms : Option (List Node)}
    {n : Node} (h : (indexSignature type ms).Leads d s n u) :
    ∃ key value, n = .indexSignature ms [key] value ∧
      Yields (5 * d + 2) s 1 [(.shape .parameter, key), (.category .type, value)] u := by
  obtain ⟨_, s1, h1, h⟩ := h.bind
  obtain ⟨key, s2, h2, h⟩ := h.bind
  obtain ⟨keyType, s3, h3, h⟩ := h.bind
  obtain ⟨_, s4, h4, h⟩ := h.bind
  obtain ⟨value, s5, h5, h⟩ := h.bind
  obtain ⟨rfl, rfl⟩ := h.pure
  refine ⟨_, value, rfl, ?_⟩
  have named := (expect_yields h1 rfl).trans (name_reads (t := .shape .identifier) (by decide) h2)
  have key : Yields (5 * d + 2) s 1
      [(.shape .parameter, .parameter none none key none keyType)] s3 :=
    .node (named.trans (annotatedType_reads ht h3))
      (.of_shape .parameter (by simp [parts, Part.Lawful]) (fun _ => rfl) rfl (by decide))
        rfl (by omega)
  exact (key.trans ((expect_yields h4 rfl).trans (annotatedType_reads ht h5))).weaken
    (by decide) (by omega)

theorem heritageType_reads (ht : type.Reads 1 (.category .type)) :
    (heritageType type).Reads 2 (.shape .expressionWithTypeArguments) := by
  intro d s n u h
  obtain ⟨expression, s1, h1, h⟩ := h.bind
  obtain ⟨_, _, here, h⟩ := h.bind
  obtain ⟨-, rfl⟩ := here.atKind
  rcases h.ite with ⟨-, h⟩ | ⟨-, h⟩
  · obtain ⟨arguments, s2, h2, h⟩ := h.bind
    obtain ⟨rfl, rfl⟩ := h.pure
    obtain ⟨y2, written⟩ := typeArguments_yields ht h2
    refine .node ((entityName_reads h1).trans (y2.trans (.refl _)))
      (.of_shape .expressionWithTypeArguments ?_ trivial rfl (by decide)) rfl (by omega)
    simpa [parts, Part.Lawful] using written
  · obtain ⟨rfl, rfl⟩ := h.pure
    exact .node (entityName_reads h1)
      (.of_shape .expressionWithTypeArguments (by simp [parts, Part.Lawful]) trivial rfl
        (by decide)) rfl (by omega)

theorem acceptHeritage_yields {x : Bool} (h : acceptHeritage.Leads d s x u) :
    (x = true ∧ Yields 0 s 1 [] u) ∨ (x = false ∧ s = u) := by
  obtain ⟨found, s1, first, h⟩ := h.bind
  rcases first.accept with ⟨rfl, is, rfl⟩ | ⟨rfl, -, rfl⟩
  · obtain ⟨rfl, rfl⟩ := h.of_true.pure
    exact .inl ⟨rfl, .mark (by rw [is]; decide)⟩
  · rcases h.of_false.accept with ⟨rfl, is, rfl⟩ | ⟨rfl, -, rfl⟩
    · exact .inl ⟨rfl, .mark (by rw [is]; decide)⟩
    · exact .inr ⟨rfl, rfl⟩

/-- The lists behind `extends` and `implements`, one after the other. -/
theorem heritageLists_yield (ht : type.Reads 1 (.category .type)) {lists : List (List Node)}
    (h : (many do
      if ← acceptHeritage then some <$> delimited .openBraceToken false (heritageType type)
      else return none).Leads d s lists u) :
    Yields (5 * d + 2) s lists.length
      (lists.flatten.map (.shape .expressionWithTypeArguments, ·)) u := by
  refine Leads.many (P := fun lists v => Yields (5 * d + 2) s lists.length
    (lists.flatten.map (.shape .expressionWithTypeArguments, ·)) v) ?_ ?_ h (.nothing s)
  · intro lists l v w before step
    obtain ⟨found, v', here, step⟩ := step.bind
    rcases acceptHeritage_yields here with ⟨rfl, keyword⟩ | ⟨rfl, rfl⟩
    · obtain ⟨read, list, eq⟩ := step.of_true.map
      obtain rfl := Option.some.inj eq
      have yields := (delimited_yields (heritageType_reads ht) list).1
      rw [List.flatten_append, List.map_append, List.length_append, List.flatten_singleton]
      exact (before.trans (keyword.trans yields)).weaken (by simp) (by omega)
    · cases step.of_false.pure.1
  · intro lists v w before step
    obtain ⟨found, v', here, step⟩ := step.bind
    rcases acceptHeritage_yields here with ⟨rfl, -⟩ | ⟨rfl, rfl⟩
    · obtain ⟨read, list, eq⟩ := step.of_true.map
      cases eq
    · obtain ⟨-, rfl⟩ := step.of_false.pure
      exact before

theorem heritage_yields (ht : type.Reads 1 (.category .type)) {l : Option (List Node)}
    (h : (heritage type).Leads d s l u) :
    Yields (5 * d + 3) s 0 (Part.heritage l).places u ∧ (∀ ms, (Part.heritage l).Lawful ms) ∧
      ∀ clauses, l = some clauses →
        ∃ types, types ≠ [] ∧ clauses = [.heritageClause types] := by
  obtain ⟨lists, s1, loop, h⟩ := h.bind
  obtain ⟨rfl, rfl⟩ := h.pure
  have yields := heritageLists_yield ht loop
  by_cases empty : lists.flatten = []
  · simp only [empty, List.isEmpty_nil, if_true]
    rw [empty] at yields
    exact ⟨yields.weaken (Nat.zero_le _) (by omega), fun _ => Part.lawful_list? nofun (by decide),
      nofun⟩
  · have some_list : 0 < lists.length := by
      rw [List.length_pos_iff]
      rintro rfl
      exact empty rfl
    simp only [List.isEmpty_iff, empty, if_false]
    refine ⟨?_, fun _ => Part.lawful_list? nofun (by decide), ?_⟩
    · have clause : Yields (5 * d + 3) s 1
          [(.shape .heritageClause, .heritageClause lists.flatten)] s1 :=
        .node (yields.trans (.refl _))
          (.of_shape .heritageClause (by simp [parts, Part.Lawful]) trivial rfl (by decide))
            rfl (by omega)
      exact clause.weaken (Nat.zero_le 1) (by omega)
    · intro clauses eq
      exact ⟨_, empty, (Option.some.inj eq).symm⟩

end Ambient.Grammar
