import Ambient.Proofs.Grammar.Construct
import Ambient.Proofs.Pairing.Entry

namespace Ambient

open Rule Grammar

theorem gives_of_any {α : Type} {r : Rule Nat α} {p : α → Bool} {o : Options} {s u : State Nat}
    (h : ((r o s).1.toOption.any p && decide ((r o s).2 = u)) = true) :
    ∃ a, p a = true ∧ r.Gives o s a u := by
  obtain ⟨holds, rfl⟩ : (r o s).1.toOption.any p = true ∧ (r o s).2 = u := by simpa using h
  cases eq : (r o s).1 with
  | ok a =>
    rw [eq] at holds
    exact ⟨a, holds, Prod.ext eq rfl⟩
  | error e =>
    rw [eq] at holds
    cases holds

namespace Construct

variable {c : Construct} {o : Options} {s u v : Stream} {n : Node} {first : Lexeme}
  {before after : List (Lexeme × Node)} {rest : Option (List Node) → Rule Nat Node}

theorem entire_fails (front : c.front.Gives o ⟨s, c.depth⟩ rest ⟨u, c.depth⟩)
    (paren : u.current.kind = .openParenToken) (row : s.Row)
    (reads : ReadsParameters o c.depth u.next (before ++ (first, n) :: after) v)
    (plain : ∀ q ∈ before, isRest q.2 = false) (is : isRest n = true) (more : after ≠ []) :
    ∃ e, c.entry.rule.Fails o ⟨s, 0⟩ e ∧
      (e = ⟨first.start, .restParameterNotLast, []⟩ ↔ c.hides s before = false) := by
  have reached : u.Row := row.of_suffix (front.suffix c.front_walks row.scanned)
  have fails : (parameters type).Fails o ⟨u, c.depth⟩ ⟨first.start, .restParameterNotLast, []⟩ :=
    reads.parameters_fails reached.scanned paren plain is more
  have behind : u.current.start < first.start :=
    reads.start_lt (p := (first, n)) reached (by rw [paren]) (by simp)
  cases c with
  | functionDeclaration =>
    have room : 0 < o.depthLimit := Nat.lt_of_succ_lt reads.room
    rcases statement_fails_or_ends front row room fails behind with
      ⟨shown, fails⟩ | ⟨hidden, m, f, gives, function, last⟩
    · exact ⟨_, .bind fails, iff_of_true rfl shown⟩
    · have sound := (last.scanned.genuine List.mem_cons_self).sound_of_word (by rw [function]; rfl)
      refine ⟨_, .behind gives (.behind .atKind (.ite_neg ?_ .failHere)), iff_of_false ?_ ?_⟩
      · simp [function]
      · rw [Lexeme.failure_of_sound sound]
        exact fun same => absurd (congrArg Failure.message same)
          (show Message.unexpectedToken ≠ .restParameterNotLast by decide)
      · exact fun shown => absurd (hidden.symm.trans shown) (by decide)
  | methodSignature | callSignature | constructSignature =>
    have all := typeMember_fails rfl front paren row fails behind
    exact ⟨_, .bind all, iff_of_true rfl rfl⟩
  | methodDeclaration | constructorDeclaration =>
    have all := classMember_fails rfl front paren row fails behind
    exact ⟨_, .bind all, iff_of_true rfl rfl⟩
  | functionType =>
    cases hidden : functionType.hides s before with
    | false =>
      have all := type_fails hidden rfl front paren row reads fails
      exact ⟨_, .bind all, iff_of_true rfl rfl⟩
    | true =>
      obtain ⟨e, fails, other⟩ := type_fails_otherwise hidden front row reads fails
      exact ⟨e, .bind fails, iff_of_false other (by decide)⟩
  | constructorType =>
    have all := type_fails rfl rfl front paren row reads fails
    exact ⟨_, .bind all, iff_of_true rfl rfl⟩

end Construct

section

variable {text : String} {c : Construct} {o : Options} {rest : Option (List Node) → Rule Nat Node}
  {u v : Stream} {before after : List (Lexeme × Node)} {first : Lexeme} {n : Node}

/-- A text that has parameters, of which `first` is the first that is a rest parameter, and others
behind it, does not parse as what has such parameters. What is reported is `first`, unless it is the
first parameter of a function as a type without type parameters, or what stands in front of the
function is itself read as a default export. -/
theorem parse_of_misplaced_rest (front : c.front.Gives o ⟨.ofText text, c.depth⟩ rest ⟨u, c.depth⟩)
    (paren : u.current.kind = .openParenToken)
    (reads : ReadsParameters o c.depth u.next (before ++ (first, n) :: after) v)
    (plain : ∀ q ∈ before, isRest q.2 = false) (is : isRest n = true) (more : after ≠ []) :
    ∃ e, parse c.entry o text = .error e ∧
      (e.toFailure = ⟨first.start, .restParameterNotLast, []⟩ ↔
        c.hides (.ofText text) before = false) := by
  obtain ⟨e, fails, reported⟩ :=
    Construct.entire_fails front paren (Stream.Row.ofText text) reads plain is more
  exact ⟨e.locate (LineMap.ofText text), parse_of_fails (Prod.ext fails rfl), reported⟩

end

/-- A parameter of a method behind one that is no rest parameter. -/
theorem parse_of_misplaced_rest_method : ∃ e,
    parse .typeMember {} "f(a:A,...b:B,c:C):D" = .error e ∧
      e.toFailure = ⟨6, .restParameterNotLast, []⟩ := by
  let token (k : Kind) (start : Nat) (text : String) : Lexeme := ⟨k, start, text, false, none, none⟩
  let s3 : Stream := ⟨token .identifier 13 "c", [token .colonToken 14 ":", token .identifier 15 "C",
    token .closeParenToken 16 ")", token .colonToken 17 ":", token .identifier 18 "D",
    token .endOfFileToken 19 ""]⟩
  let t2 : Stream := ⟨token .commaToken 12 ",", s3.toList⟩
  let s2 : Stream := ⟨token .dotDotDotToken 6 "...", token .identifier 9 "b" ::
    token .colonToken 10 ":" :: token .identifier 11 "B" :: t2.toList⟩
  let t1 : Stream := ⟨token .commaToken 5 ",", s2.toList⟩
  let s1 : Stream := ⟨token .identifier 2 "a", token .colonToken 3 ":" ::
    token .identifier 4 "A" :: t1.toList⟩
  let u : Stream := ⟨token .openParenToken 1 "(", s1.toList⟩
  have tokens : Stream.ofText "f(a:A,...b:B,c:C):D" = ⟨token .identifier 0 "f", u.toList⟩ := by
    decide +kernel
  obtain ⟨rest, -, front⟩ : ∃ rest, true = true ∧ Construct.methodSignature.front.Gives {}
      ⟨⟨token .identifier 0 "f", u.toList⟩, 0⟩ rest ⟨u, 0⟩ := gives_of_any (by decide +kernel)
  obtain ⟨n1, plain, read1⟩ : ∃ n, !isRest n = true ∧ (parameter type).Gives {} ⟨s1, 0⟩ n ⟨t1, 0⟩ :=
    gives_of_any (by decide +kernel)
  obtain ⟨n2, is, read2⟩ : ∃ n, isRest n = true ∧ (parameter type).Gives {} ⟨s2, 0⟩ n ⟨t2, 0⟩ :=
    gives_of_any (by decide +kernel)
  obtain ⟨n3, -, read3⟩ : ∃ n, true = true ∧
      (parameter type).Gives {} ⟨s3, 0⟩ n ⟨s3.next.next.next, 0⟩ := gives_of_any (by decide +kernel)
  have reads : ReadsParameters {} 0 u.next
      ([(s1.current, n1)] ++ (s2.current, n2) :: [(s3.current, n3)]) s3.next.next.next :=
    .more read1 rfl (.more read2 rfl (.last read3))
  obtain ⟨e, parses, reported⟩ := parse_of_misplaced_rest (c := .methodSignature) (tokens ▸ front) rfl
    reads (by simpa using plain) is (List.cons_ne_nil _ _)
  exact ⟨e, parses, reported.mpr rfl⟩

/-- A function as a type, of which the first parameter is the misplaced one, and nothing else is wrong. -/
theorem not_parse_of_misplaced_rest : ¬ ∀ (text : String) (c : Construct) (o : Options)
    (rest : Option (List Node) → Rule Nat Node) (u v : Stream) (before after : List (Lexeme × Node))
    (first : Lexeme) (n : Node), c.front.Gives o ⟨.ofText text, c.depth⟩ rest ⟨u, c.depth⟩ →
    u.current.kind = .openParenToken →
    ReadsParameters o c.depth u.next (before ++ (first, n) :: after) v →
    (∀ q ∈ before, isRest q.2 = false) → isRest n = true → after ≠ [] →
    v.current.kind = .closeParenToken →
    (∃ m t, (rest (some ((before ++ (first, n) :: after).map Prod.snd))).Gives o ⟨v.next, c.depth⟩ m t ∧
      t.stream.current.kind = .endOfFileToken) →
    ∃ e, parse c.entry o text = .error e ∧
      e.toFailure = ⟨first.start, .restParameterNotLast, []⟩ := by
  intro always
  let token (k : Kind) (start : Nat) (text : String) : Lexeme := ⟨k, start, text, false, none, none⟩
  let ending : Stream := ⟨token .endOfFileToken 17 "", []⟩
  let arrow : Stream := ⟨token .equalsGreaterThanToken 14 "=>",
    token .identifier 16 "C" :: ending.toList⟩
  let v : Stream := ⟨token .closeParenToken 13 ")", arrow.toList⟩
  let s2 : Stream := ⟨token .identifier 10 "b", token .colonToken 11 ":" ::
    token .identifier 12 "B" :: v.toList⟩
  let t1 : Stream := ⟨token .commaToken 9 ",", s2.toList⟩
  let s1 : Stream := ⟨token .dotDotDotToken 1 "...", token .identifier 4 "a" ::
    token .colonToken 5 ":" :: token .identifier 6 "A" :: token .openBracketToken 7 "[" ::
    token .closeBracketToken 8 "]" :: t1.toList⟩
  let u : Stream := ⟨token .openParenToken 0 "(", s1.toList⟩
  have tokens : Stream.ofText "(...a:A[],b:B)=>C" = u := by decide +kernel
  let rest (read : Option (List Node)) : Rule Nat Node := do
    return .functionType none read (← arrowResult type)
  have front : Construct.functionType.front.Gives {} ⟨u, 1⟩ rest ⟨u, 1⟩ :=
    .bind (.optionalAfter_not (by decide)) .pure
  obtain ⟨n1, is, read1⟩ : ∃ n, isRest n = true ∧ (parameter type).Gives {} ⟨s1, 1⟩ n ⟨t1, 1⟩ :=
    gives_of_any (by decide +kernel)
  obtain ⟨n2, -, read2⟩ : ∃ n, true = true ∧ (parameter type).Gives {} ⟨s2, 1⟩ n ⟨v, 1⟩ :=
    gives_of_any (by decide +kernel)
  have reads : ReadsParameters {} 1 u.next ([] ++ (s1.current, n1) :: [(s2.current, n2)]) v :=
    .more read1 rfl (.last read2)
  obtain ⟨result, -, last⟩ : ∃ n, true = true ∧ (arrowResult type).Gives {} ⟨arrow, 1⟩ n ⟨ending, 1⟩ :=
    gives_of_any (by decide +kernel)
  have whole : Construct.functionType.front.Gives {} ⟨.ofText "(...a:A[],b:B)=>C", 1⟩ rest
      ⟨u, 1⟩ := by
    rw [tokens]
    exact front
  obtain ⟨e, parses, reported⟩ := always _ .functionType {} rest u v [] _ s1.current n1 whole rfl
    reads (List.forall_mem_nil _) is (List.cons_ne_nil _ _) rfl ⟨_, _, .bind last .pure, rfl⟩
  have row : u.Row := tokens ▸ Stream.Row.ofText "(...a:A[],b:B)=>C"
  obtain ⟨f, fails, shown⟩ := Construct.entire_fails (c := .functionType) front rfl row reads
    (List.forall_mem_nil _) is (List.cons_ne_nil _ _)
  have located : parse .type {} "(...a:A[],b:B)=>C" = .error (f.locate _) :=
    parse_of_fails (Prod.ext (tokens ▸ fails) rfl)
  cases located.symm.trans parses
  exact absurd (shown.mp reported) (by decide)

end Ambient
