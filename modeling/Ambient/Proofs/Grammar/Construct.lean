import Ambient.Parse
import Ambient.Proofs.Grammar.Functions

namespace Ambient

open Rule Grammar

namespace Rule

instance : LawfulMonad (Rule Nat) := by
  refine .mk' (Rule Nat) (fun r => ?_) (fun a f => rfl) (fun r f g => ?_) <;> funext o s
  · change (r >>= pure) o s = _
    rw [bind_apply]
    rcases r o s with ⟨_ | _, _⟩ <;> rfl
  · simp only [bind_apply]
    rcases r o s with ⟨_ | _, _⟩ <;> rfl

end Rule

/-- What has a list of parameters. -/
inductive Construct where
  | functionDeclaration | methodSignature | methodDeclaration | constructorDeclaration
  | callSignature | constructSignature | functionType | constructorType
deriving DecidableEq

namespace Construct

/-- What a text is as a whole that is such a construct. -/
def entry : Construct → Entry
  | functionDeclaration => .statement
  | methodSignature | callSignature | constructSignature => .typeMember
  | methodDeclaration | constructorDeclaration => .classMember
  | functionType | constructorType => .type

/-- How many levels are open in front of it there. -/
def depth : Construct → Nat
  | functionDeclaration | functionType | constructorType => 1
  | _ => 0

/-- The rule for it. -/
def rule : Construct → Rule Nat Node
  | functionDeclaration => Grammar.functionDeclaration
  | methodSignature => Grammar.methodSignature type
  | methodDeclaration => methodMember type
  | constructorDeclaration => constructorMember type
  | callSignature => Grammar.callSignature type
  | constructSignature => Grammar.constructSignature type
  | functionType => Grammar.functionType type
  | constructorType => Grammar.constructorType type

/-- The rule up to the parameters. It gives what is left to do behind them. -/
def front : Construct → Rule Nat (Option (List Node) → Rule Nat Node)
  | functionDeclaration => do
    let (comment, modifiers) ← declarationHead interfaceModifiers
    expect .functionKeyword
    let declared ← name comment
    let typeParameters ← typeParameters type
    return fun parameters => do
      let result ← annotatedResult type
      semicolon
      return .functionDeclaration modifiers declared typeParameters parameters result
  | methodSignature => do
    let comment ← documentationHere
    let declared ← propertyName comment
    let question ← token? .questionToken
    let typeParameters ← typeParameters type
    return fun parameters => do
      let result ← annotatedResult type
      memberEnd
      return .methodSignature declared question typeParameters parameters result
  | methodDeclaration => do
    let comment ← documentationHere
    let modifiers ← modifiers classMemberModifiers
    let declared ← propertyName comment
    let question ← token? .questionToken
    let typeParameters ← typeParameters type
    return fun parameters => do
      let result ← annotatedResult type
      semicolon
      return .methodDeclaration modifiers declared question typeParameters parameters result
  | constructorDeclaration => do
    let comment ← documentationHere
    let modifiers ← modifiers classMemberModifiers
    expect .constructorKeyword
    return fun parameters => do
      semicolon
      return .constructorDeclaration comment modifiers parameters
  | callSignature => do
    let typeParameters ← typeParameters type
    return fun parameters => do
      let result ← annotatedResult type
      memberEnd
      return .callSignature typeParameters parameters result
  | constructSignature => do
    expect .newKeyword
    let typeParameters ← typeParameters type
    return fun parameters => do
      let result ← annotatedResult type
      memberEnd
      return .constructSignature typeParameters parameters result
  | functionType => do
    let typeParameters ← typeParameters type
    return fun parameters => do return .functionType typeParameters parameters (← arrowResult type)
  | constructorType => do
    let abstractToken ← token? .abstractKeyword
    expect .newKeyword
    let typeParameters ← typeParameters type
    return fun parameters => do
      return .constructorType (abstractToken.map ([·])) typeParameters parameters
        (← arrowResult type)

/-- The rule reads what stands in front, the parameters and the rest. -/
theorem rule_eq (c : Construct) : c.rule = c.front >>= fun rest => parameters type >>= rest := by
  cases c <;> simp only [front, bind_assoc, pure_bind] <;> rfl

/-- Whether another rule hides that a rest parameter has others behind it, given those in front. -/
def hides (c : Construct) (s : Stream) (before : List (Lexeme × Node)) : Bool :=
  match c with
  | functionDeclaration => s.exportsName
  | functionType => s.current.kind = .openParenToken && before.isEmpty
  | _ => false

section

variable {c : Construct} {o : Options} {s u : State Nat} {rest : Option (List Node) → Rule Nat Node}

theorem fails (front : c.front.Gives o s rest u) {e : Failure}
    (parameters : (parameters type).Fails o u e) : c.rule.Fails o s e := by
  rw [rule_eq]
  exact .behind front (.bind parameters)

theorem front_walks (c : Construct) : Walks .scanned false false false c.front c.front := by
  cases c <;> unfold front <;> infer_instance

end

end Construct

namespace Grammar

section

variable {o : Options} {depth : Nat} {s t u w : Stream} {n : Node} {e : Failure} {k : Kind}
  {first : Lexeme} {before after : List (Lexeme × Node)}

/-- A type without anything in front fails as the rule for its first token does. -/
theorem type_fails (is : s.current.kind = k)
    (plain : (k = .barToken || k = .ampersandToken || k.isTypeOperator) = false)
    (fails : (primaryTypeAt type k).Fails o ⟨s, depth + 1⟩ e) (room : depth < o.depthLimit)
    (scanned : Scanned s.toList) : type.Fails o ⟨s, depth⟩ e := by
  subst is
  simp only [Bool.or_eq_false_iff, decide_eq_false_iff_not] at plain
  obtain ⟨⟨bar, ampersand⟩, operator⟩ := plain
  have primary : (primaryType type).Fails o ⟨s, depth + 1⟩ e := .behind .current fails
  have operand : (operatorType type).Fails o ⟨s, depth + 1⟩ e := by
    rw [Fails, ← operatorCall_eq scanned]
    exact Fails.behind .current (.ite_neg (by simp [operator]) (.bind primary))
  have union : (unionType type).Fails o ⟨s, depth + 1⟩ e :=
    .behind (.accept_not bar) (.bind (.behind (.accept_not ampersand) (.bind operand)))
  rw [Fails, ← typeCall_eq scanned]
  exact Fails.nested room union

theorem functionType_fails (less : s.current.kind = .lessThanToken)
    (fails : (functionType type).Fails o ⟨s, depth + 1⟩ e) (room : depth < o.depthLimit)
    (scanned : Scanned s.toList) : type.Fails o ⟨s, depth⟩ e := by
  have ahead : (nextIs .dotToken).Gives o ⟨s, depth + 1⟩ _ ⟨s, depth + 1⟩ := rfl
  exact type_fails less rfl (.behind ahead (.ite_neg Bool.false_ne_true fails)) room scanned

theorem constructorType_fails (fails : (constructorType type).Fails o ⟨s, depth + 1⟩ e)
    (new : s.current.kind = .newKeyword ∨
      s.current.kind = .abstractKeyword ∧ s.next.current.kind = .newKeyword)
    (room : depth < o.depthLimit) (scanned : Scanned s.toList) : type.Fails o ⟨s, depth⟩ e := by
  have ahead (k : Kind) : (nextIs k).Gives o ⟨s, depth + 1⟩ (decide (s.next.current.kind = k))
      ⟨s, depth + 1⟩ := rfl
  rcases new with is | ⟨is, new⟩
  · exact type_fails is rfl (.behind (ahead _) (.ite_neg Bool.false_ne_true fails)) room scanned
  · exact type_fails is rfl (.behind (ahead _) (.ite_neg Bool.false_ne_true
      (.behind (ahead _) (.ite_pos (decide_eq_true new) fails)))) room scanned

/-- Behind a parenthesis either a function or a type in parentheses is tried. -/
theorem type_fails_paren (paren : s.current.kind = .openParenToken)
    (fails : (alternatives [functionType type, parenthesizedType type] .typeExpected).Fails o
      ⟨s, depth + 1⟩ e) (room : depth < o.depthLimit) (scanned : Scanned s.toList) :
    type.Fails o ⟨s, depth⟩ e := by
  have ahead : (nextIs .dotToken).Gives o ⟨s, depth + 1⟩ _ ⟨s, depth + 1⟩ := rfl
  exact type_fails paren rfl (.behind ahead (.ite_neg Bool.false_ne_true fails)) room scanned

variable (paren : s.current.kind = .openParenToken) (row : s.Row)
include paren row

/-- Behind a parameter in front of the rest parameter a type in parentheses fails earlier. -/
theorem alternatives_fail_at_rest (some : before ≠ [])
    (reads : ReadsParameters o depth s.next (before ++ (first, n) :: after) u)
    (fails : (functionType type).Fails o ⟨s, depth⟩ ⟨first.start, .restParameterNotLast, []⟩) :
    (alternatives [functionType type, parenthesizedType type] .typeExpected).Fails o ⟨s, depth⟩
      ⟨first.start, .restParameterNotLast, []⟩ := by
  obtain ⟨⟨token, m⟩, before, rfl⟩ := List.exists_cons_of_ne_nil some
  obtain ⟨-, t, given, behind⟩ := reads.head
  obtain ⟨comma, others⟩ := behind (by simp)
  obtain ⟨-, w, head, past⟩ := headTo_of_parameter row.scanned.next given
  -- the type in parentheses fails at the latest where the first parameter ends, in front of the comma
  obtain ⟨v, further, short, message, arguments, -, refuses⟩ :=
    parenthesizedType_fails (o := o) paren head row.scanned
  have firsts : v.Row := row.of_suffix (further.trans s.suffix_next)
  have lasts : t.Row := firsts.of_suffix (past.trans short)
  have le : v.current.start ≤ t.current.start := firsts.start_le (past.trans short)
  have lt : t.current.start < first.start :=
    others.start_lt (p := (first, n)) lasts (by rw [comma]) (by simp)
  refine FailsBy.alternatives (balanced_parenthesisRules type) (by simp) fails ?_ lt
  simp only [List.forall_mem_cons, List.not_mem_nil, false_imp_iff, implies_true, and_true]
  exact ⟨.same fails, .of_token refuses le⟩

/-- A rest parameter in front is as far as the type in parentheses, which fails there in another way or
gets further. -/
theorem alternatives_fail_otherwise
    (reads : ReadsParameters o depth s.next ((first, n) :: after) u)
    (fails : (functionType type).Fails o ⟨s, depth⟩ ⟨first.start, .restParameterNotLast, []⟩) :
    ∃ e, (alternatives [functionType type, parenthesizedType type] .typeExpected).Fails o ⟨s, depth⟩ e ∧
      e ≠ ⟨first.start, .restParameterNotLast, []⟩ := by
  obtain ⟨rfl, t, given, -⟩ := reads.head
  obtain ⟨firm, w, head, -⟩ := headTo_of_parameter row.scanned.next given
  obtain ⟨v, further, -, message, arguments, other, refuses⟩ :=
    parenthesizedType_fails (o := o) paren head row.scanned
  rcases alternatives_cases (balanced_parenthesisRules type) .typeExpected o ⟨s, depth⟩ with
    ⟨r, mem, _, _, gives, -⟩ | ⟨fs, -, -, reported⟩
  · simp only [List.mem_cons, List.not_mem_nil, or_false] at mem
    rcases mem with rfl | rfl
    · exact absurd gives fails.not_gives
    · exact absurd gives refuses.not_gives
  refine ⟨_, reported, fun same => ?_⟩
  -- then the type in parentheses gets no further, and tells the same if it gets as far
  rw [same] at reported
  obtain ⟨f, refuses', le, agrees⟩ := reported.of_alternatives (balanced_parenthesisRules type)
    (r := parenthesizedType type) (by simp)
  obtain rfl := refuses.unique refuses'
  rw [v.current.position_failure] at le agrees
  have second : s.next.Row := row.of_suffix s.suffix_next
  rcases List.suffix_cons_iff.mp further with here | behind
  · obtain rfl := Stream.eq_of_toList_eq here
    have sound := ((second.scanned.genuine List.mem_cons_self).firm firm).1
    have told := Failure.message_eq_of_agrees (agrees rfl
      (show Message.restParameterNotLast ≠ .typeExpected by decide))
    rw [Lexeme.failure_of_sound sound] at told
    exact other told
  · have lt : s.next.current.start < v.current.start := second.start_lt firm behind
    exact absurd le (Nat.not_le.mpr lt)

end

end Grammar

namespace Construct

variable {c : Construct} {o : Options} {s u v : Stream} {n : Node} {e : Failure} {first : Lexeme}
  {before after : List (Lexeme × Node)} {rest : Option (List Node) → Rule Nat Node}

/-- A member of a type fails as its parameters do. -/
theorem typeMember_fails (member : c.entry = .typeMember)
    (front : c.front.Gives o ⟨s, c.depth⟩ rest ⟨u, c.depth⟩)
    (paren : u.current.kind = .openParenToken) (row : s.Row)
    (parameters : (parameters type).Fails o ⟨u, c.depth⟩ e) (behind : u.current.start < e.position) :
    (typeMember type).Fails o ⟨s, c.depth⟩ e := by
  cases c with
  | methodSignature =>
    obtain ⟨comment, v, here, h⟩ := front.split
    cases here
    obtain ⟨m, v, name, h⟩ := h.split
    obtain ⟨q, v, question, h⟩ := h.split
    obtain ⟨tps, v, signature, last⟩ := h.split
    cases last
    exact typeMember_fails_named (.of_gives name question ⟨⟨tps, signature⟩, paren⟩) row parameters behind
  | callSignature =>
    obtain ⟨tps, v, signature, last⟩ := front.split
    cases last
    exact typeMember_fails_signed ⟨⟨tps, signature⟩, paren⟩ row parameters behind
  | constructSignature =>
    obtain ⟨_, v, new, h⟩ := front.split
    obtain ⟨is, rfl⟩ := (leads_of_gives new).expect
    obtain ⟨tps, v, signature, last⟩ := h.split
    cases last
    have word : s.current.kind.isMemberName = true := by
      rw [is]
      rfl
    exact typeMember_fails_named (.of_word word ⟨⟨tps, signature⟩, paren⟩) row parameters behind
  | _ => cases member

/-- A member of a class fails as its parameters do. -/
theorem classMember_fails (member : c.entry = .classMember)
    (front : c.front.Gives o ⟨s, c.depth⟩ rest ⟨u, c.depth⟩)
    (paren : u.current.kind = .openParenToken) (row : s.Row)
    (parameters : (parameters type).Fails o ⟨u, c.depth⟩ e) (behind : u.current.start < e.position) :
    (classMember type).Fails o ⟨s, c.depth⟩ e := by
  cases c with
  | methodDeclaration =>
    obtain ⟨comment, v, here, h⟩ := front.split
    cases here
    obtain ⟨ms, v, modifiers, h⟩ := h.split
    obtain ⟨m, w, name, h⟩ := h.split
    obtain ⟨q, w, question, h⟩ := h.split
    obtain ⟨tps, w, signature, last⟩ := h.split
    cases last
    exact Grammar.classMember_fails modifiers (.of_gives name question ⟨⟨tps, signature⟩, paren⟩)
      row parameters behind
  | constructorDeclaration =>
    obtain ⟨comment, v, here, h⟩ := front.split
    cases here
    obtain ⟨ms, v, modifiers, h⟩ := h.split
    obtain ⟨_, w, keyword, last⟩ := h.split
    obtain ⟨is, rfl⟩ := (leads_of_gives keyword).expect
    cases last
    have signed : Signed o 0 v.next v.next := by
      refine ⟨⟨none, .optionalAfter_not ?_⟩, paren⟩
      rw [paren]
      decide
    have word : v.current.kind.isMemberName = true := by
      rw [is]
      rfl
    exact Grammar.classMember_fails modifiers (.of_word word signed) row parameters behind
  | _ => cases member

/-- A type fails as its parameters do, unless it may be a type in parentheses as far as the rest
parameter. -/
theorem type_fails (plain : c.hides s before = false) (member : c.entry = .type)
    (front : c.front.Gives o ⟨s, 1⟩ rest ⟨u, 1⟩)
    (paren : u.current.kind = .openParenToken) (row : s.Row)
    (reads : ReadsParameters o 1 u.next (before ++ (first, n) :: after) v)
    (parameters : (parameters type).Fails o ⟨u, 1⟩ ⟨first.start, .restParameterNotLast, []⟩) :
    type.Fails o ⟨s, 0⟩ ⟨first.start, .restParameterNotLast, []⟩ := by
  have room : 0 < o.depthLimit := Nat.lt_of_succ_lt reads.room
  have fails := c.fails front parameters
  cases c with
  | functionType =>
    obtain ⟨tps, v, signature, last⟩ := front.split
    cases last
    rcases Signed.less_or_eq ⟨⟨tps, signature⟩, paren⟩ with less | rfl
    · exact functionType_fails less fails room row.scanned
    · have some : before ≠ [] := by simpa [hides, paren] using plain
      exact type_fails_paren paren (alternatives_fail_at_rest paren row some reads fails) room row.scanned
  | constructorType =>
    obtain ⟨abs, v, mark, h⟩ := front.split
    obtain ⟨_, w, keyword, -⟩ := h.split
    obtain ⟨is, -⟩ := (leads_of_gives keyword).expect
    rcases (leads_of_gives mark).token? with ⟨-, is', rfl⟩ | ⟨-, rfl⟩
    · exact constructorType_fails fails (.inr ⟨is', is⟩) room row.scanned
    · exact constructorType_fails fails (.inl is) room row.scanned
  | _ => cases member

/-- A function as a type whose first parameter is the rest parameter fails in another way. -/
theorem type_fails_otherwise (hidden : functionType.hides s before = true)
    (front : functionType.front.Gives o ⟨s, 1⟩ rest ⟨u, 1⟩) (row : s.Row)
    (reads : ReadsParameters o 1 u.next (before ++ (first, n) :: after) v)
    (parameters : (parameters type).Fails o ⟨u, 1⟩ ⟨first.start, .restParameterNotLast, []⟩) :
    ∃ e, type.Fails o ⟨s, 0⟩ e ∧ e ≠ ⟨first.start, .restParameterNotLast, []⟩ := by
  have room : 0 < o.depthLimit := Nat.lt_of_succ_lt reads.room
  have fails : (Grammar.functionType type).Fails o ⟨s, 1⟩ _ := functionType.fails front parameters
  obtain ⟨paren, none⟩ : s.current.kind = .openParenToken ∧ before = [] := by
    simpa [hides] using hidden
  subst none
  obtain ⟨tps, v, signature, last⟩ := front.split
  cases last
  rcases (leads_of_gives signature).optionalAfter with ⟨_, -, less, -⟩ | ⟨-, rfl⟩
  · exact absurd (less.symm.trans paren) (by decide)
  obtain ⟨e, reported, other⟩ := alternatives_fail_otherwise paren row reads fails
  exact ⟨e, type_fails_paren paren reported room row.scanned, other⟩

/-- A statement fails as the parameters of its function do, or it ends in front of the function. -/
theorem statement_fails_or_ends (front : functionDeclaration.front.Gives o ⟨s, 1⟩ rest ⟨u, 1⟩)
    (row : s.Row) (room : 0 < o.depthLimit)
    (parameters : (parameters type).Fails o ⟨u, 1⟩ e) (behind : u.current.start < e.position) :
    s.exportsName = false ∧ statement.Fails o ⟨s, 0⟩ e ∨
    s.exportsName = true ∧ ∃ m f, statement.Gives o ⟨s, 0⟩ m ⟨f, 0⟩ ∧
      f.current.kind = .functionKeyword ∧ f.Row := by
  have owner : Grammar.functionDeclaration.Fails o ⟨s, 1⟩ e := functionDeclaration.fails front parameters
  obtain ⟨head, f, read, h⟩ := front.split
  obtain ⟨_, v, keyword, h⟩ := h.split
  obtain ⟨is, rfl⟩ := (leads_of_gives keyword).expect
  obtain ⟨ms, functions⟩ := FunctionHead.of_leads (leads_of_gives read) row is
  have reached : f.Row := row.of_suffix functions.suffix
  have signature : u.toList <:+ f.next.toList := h.suffix inferInstance reached.scanned.next
  have le : f.current.start ≤ u.current.start := reached.start_le (signature.trans f.suffix_next)
  have further : f.current.start < e.position := Nat.lt_of_le_of_lt le behind
  cases exports : s.exportsName with
  | false =>
    have fails : (alternatives (statementRules (statementWithin s.ahead)) .statementExpected).Fails o
        ⟨s, 1⟩ e := functions.statement_fails owner exports further
    exact .inl ⟨rfl, (congrArg Prod.fst (statement_eq_nested o ⟨s, 0⟩)).trans (Fails.nested room fails)⟩
  | true =>
    obtain ⟨m, gives⟩ : ∃ m, (alternatives (statementRules (statementWithin s.ahead))
        .statementExpected).Gives o ⟨s, 1⟩ m ⟨f, 1⟩ := functions.statement_ends owner exports
    exact .inr ⟨rfl, m, f, (statement_eq_nested o ⟨s, 0⟩).trans (Gives.nested room gives), is, reached⟩

end Construct

end Ambient
