import Ambient.Proofs.Ground.Loops
import Ambient.Proofs.Parse.Reads

namespace Ambient

open Rule

/-- A rule that has always read a token when it succeeds. -/
def Rule.Progress {α : Type} (r : Rule Nat α) : Prop :=
  ∀ o s a t, Scanned s.stream.toList → r.Gives o s a t → t.stream.Nearer s.stream

theorem Rule.Progress.of_walks {α : Type} {r : Rule Nat α} (h : Walks .scanned false false true r r) :
    r.Progress := fun _ _ _ _ scanned read =>
  have start := ⟨scanned, nofun, nofun⟩
  ⟨h.suffix start read, h.fewer start read rfl rfl⟩

namespace Grammar

set_option synthInstance.maxSize 1000

/-- The rules that give nodes read tokens for them. -/
structure NodesRead : Prop where
  ofStatement : Progress statement
  ofTypeMember : Progress (typeMember type)
  ofClassMember : Progress (classMember type)
  ofType : Progress type
  ofParameter : Progress (parameter type)
  ofTypeParameter : Progress (typeParameter type)
  ofSpecifier : ∀ make, Progress (specifier make)
  ofEnumMember : Progress enumMember
  ofVariable : ∀ comment, Progress (variableDeclaration comment)
  ofName : ∀ comment, Progress (name comment)
  ofAnyName : ∀ comment, Progress (anyName comment)
  ofEntityName : Progress entityName
  ofPropertyName : ∀ comment, Progress (propertyName comment)

theorem nodesRead : NodesRead := by
  constructor <;> intros <;> exact .of_walks inferInstance

/-- A type, for which `inner` reads the types in it. -/
abbrev typeCall (inner : Unit → Rule Nat Node) (_ : Unit) : Rule Nat Node := nested (unionType (inner ()))

theorem descends_type : Descends typeCall fun _ => type := by
  refine .of_budget (fun budget _ => typeWithin budget) ?_ ?_ ?_
  · exact fun _ _ => rfl
  · exact fun _ budget _ => typeWithin_walks budget
  · intro n f f' inner _
    have := inner ()
    exact Walks.nested (h := unionType_walks)

/-- A type with operators in front of it, for which `inner` reads what stands behind an operator. -/
abbrev operatorCall (inner : Unit → Rule Nat Node) (_ : Unit) : Rule Nat Node := do
  let k := (← current).kind
  if k.isTypeOperator then
    advance
    return .typeOperator k (← nested (inner ()))
  else postfixType type

theorem descends_operatorType : Descends operatorCall fun _ => operatorType type := by
  refine .of_budget (fun budget _ => operatorTypeWithin type budget) ?_ ?_ ?_
  · exact fun first budget => funext fun _ => operatorTypeWithin_cons type first budget
  · exact fun _ budget _ => operatorTypeWithin_walks budget
  · intro n f f' inner _
    have operand : Walks (.within n) true false true (nested (f ())) (nested (f' ())) :=
      Walks.nested (h := inner ())
    exact Walks.current_kind isFirm_of_isTypeOperator (fun t => inferInstance) fun t => inferInstance

/-- What is known of a namespace before its name is read. -/
structure Header where
  flags : UInt32
  modifiers : Option (List Node)
  comment : Option String

/-- A namespace from its name on, for which `inner` reads the namespace behind a dot. -/
abbrev namespaceCall (inner : Header → Rule Nat Node) (h : Header) : Rule Nat Node := do
  let declared ← name h.comment
  if ← accept .dotToken then
    let rest ← nested (inner ⟨innerFlags h.flags, none, none⟩)
    return .moduleDeclaration h.flags h.modifiers declared (some rest)
  else
    return .moduleDeclaration h.flags h.modifiers declared (some (← moduleBlock statement))

theorem descends_namespace : Descends namespaceCall fun h : Header =>
    bounded fun budget => namespaceWithin statement budget h.flags h.modifiers h.comment := by
  refine .of_budget (fun budget (h : Header) =>
    namespaceWithin statement budget h.flags h.modifiers h.comment) ?_ ?_ ?_
  · exact fun _ _ => rfl
  · exact fun _ budget h => namespaceWithin_walks budget _ _ _
  · intro n f f' inner h
    have deeper : Walks (.within n) true false true (nested (f ⟨innerFlags h.flags, none, none⟩))
        (nested (f' ⟨innerFlags h.flags, none, none⟩)) := Walks.nested (h := inner _)
    infer_instance

/-- A statement, for which `inner` reads the statements in it. -/
abbrev statementCall (inner : Unit → Rule Nat Node) (_ : Unit) : Rule Nat Node :=
  nested (alternatives (statementRules (inner ())) .statementExpected)

theorem descends_statement : Descends statementCall fun _ => statement := by
  refine .of_budget (fun budget _ => statementWithin budget) ?_ ?_ ?_
  · exact fun _ _ => rfl
  · exact fun _ budget _ => statementWithin_walks budget
  · intro n f f' inner _
    have := inner ()
    exact statement_walks

/-- Each call of a recursive rule reads a token before it makes further calls. -/
structure CallsEnd : Prop where
  ofTypes : Descends typeCall fun _ => type
  ofOperators : Descends operatorCall fun _ => operatorType type
  ofNamespaces : Descends namespaceCall fun h : Header =>
    bounded fun budget => namespaceWithin statement budget h.flags h.modifiers h.comment
  ofStatements : Descends statementCall fun _ => statement

theorem callsEnd : CallsEnd where
  ofTypes := descends_type
  ofOperators := descends_operatorType
  ofNamespaces := descends_namespace
  ofStatements := descends_statement

/-- The rules that are loops, with what is repeated in them, read a token in each round but the
last. -/
structure LoopsEnd : Prop where
  ofDots : Ends dotted ∧ entityName = do
    let first ← name
    closingLevels (iterate dotted first)
  ofModifiers : ∀ allowed ∈ [interfaceModifiers, classModifiers, enumModifiers, ambientModifiers,
      classMemberModifiers, typeMemberModifiers, parameterModifiers],
    Ends (modifier allowed) ∧ modifiers allowed = do
      let kinds ← iterate (modifier allowed) []
      return if kinds.isEmpty then none else some (kinds.map .token)
  ofSemicolons : Ends (collect semicolon?) ∧ skipSemicolons = do let _ ← many semicolon?
  ofLists : ∀ (close : Kind) (trailing : Bool) (element : Rule Nat Node),
    delimited close trailing element = do
      let first ← element
      let others ← many (further close trailing element)
      return first :: others
  ofTypeArguments : Ends (collect (further .greaterThanToken false type))
  ofTypeParameters : Ends (collect (further .greaterThanToken true (typeParameter type)))
  ofHeritageTypes : Ends (collect (further .openBraceToken false (heritageType type)))
  ofElements : Ends (collect (further .closeBracketToken true (tupleElement type)))
  ofSpecifiers : ∀ make, Ends (collect (further .closeBraceToken true (specifier make)))
  ofEnumMembers : Ends (collect (further .closeBraceToken true enumMember))
  ofParameters : Ends (collect (furtherParameter type)) ∧ parameters type = do
    expect .openParenToken
    if ← accept .closeParenToken then return none
    else
      let first ← listedParameter type
      let others ← many (furtherParameter type)
      expect .closeParenToken
      return some (first :: others)
  ofHeritage : Ends (collect (heritageList type)) ∧ heritage type = do
    let lists ← many (heritageList type)
    let types := lists.flatten
    return if types.isEmpty then none else some [.heritageClause types]
  ofTypeMembers : Ends (collect (furtherTypeMember type)) ∧ typeMembers type = do
    expect .openBraceToken
    let read ← many (furtherTypeMember type)
    expect .closeBraceToken
    return read
  ofClassMembers : Ends (collect (furtherClassMember type)) ∧ classMembers type = do
    expect .openBraceToken
    let read ← many (furtherClassMember type)
    expect .closeBraceToken
    return read
  ofBrackets : Ends (bracketed type) ∧ postfixType type = do
    let first ← primaryType type
    closingLevels (iterate (bracketed type) first)
  ofTerms : ∀ separator join (term : Rule Nat Node), terms separator join term = do
    let _ ← accept separator
    let first ← term
    let others ← many (optionalAfter separator term)
    return if others.isEmpty then first else join (first :: others)
  ofUnions : Ends (collect (optionalAfter .barToken (intersectionType type)))
  ofIntersections : Ends (collect (optionalAfter .ampersandToken (operatorType type)))
  ofVariables : Ends (collect (optionalAfter .commaToken (variableDeclaration none))) ∧
    ∀ comment, (variableList comment : Rule Nat (List Node)) = do
      let first ← variableDeclaration comment
      let others ← many (optionalAfter .commaToken (variableDeclaration none))
      return first :: others
  ofStatements : ∀ close, Ends (collect (furtherStatement statement close)) ∧
    statementsUntil statement close = many (furtherStatement statement close)

theorem loopsEnd : LoopsEnd where
  ofDots := ⟨ends_dotted, rfl⟩
  ofModifiers := by
    simp only [List.forall_mem_cons]
    exact ⟨⟨ends_modifier, rfl⟩, ⟨ends_modifier, rfl⟩, ⟨ends_modifier, rfl⟩, ⟨ends_modifier, rfl⟩,
      ⟨ends_modifier, rfl⟩, ⟨ends_modifier, rfl⟩, ⟨ends_modifier, rfl⟩, List.forall_mem_nil _⟩
  ofSemicolons := ⟨ends_semicolon?, rfl⟩
  ofLists _ _ _ := rfl
  ofTypeArguments := ends_further fun _ _ => inferInstance
  ofTypeParameters := ends_further fun _ _ => inferInstance
  ofHeritageTypes := ends_further fun _ _ => inferInstance
  ofElements := ends_further fun _ _ => inferInstance
  ofSpecifiers _ := ends_further fun _ _ => inferInstance
  ofEnumMembers := ends_further fun _ _ => inferInstance
  ofParameters := ⟨ends_furtherParameter, rfl⟩
  ofHeritage := ⟨ends_heritageList, rfl⟩
  ofTypeMembers := ⟨ends_furtherTypeMember, rfl⟩
  ofClassMembers := ⟨ends_furtherClassMember, by rw [classMembers]⟩
  ofBrackets := ⟨ends_bracketed, rfl⟩
  ofTerms _ _ _ := rfl
  ofUnions := ends_term fun _ _ => inferInstance
  ofIntersections := ends_term fun _ _ => inferInstance
  ofVariables := ⟨ends_variable, fun _ => rfl⟩
  ofStatements _ := ⟨ends_furtherStatement, rfl⟩

end Grammar

open Grammar

/-- The rule for a whole text, made with any rules for types and statements. -/
def Entry.ruleOf (type statement : Rule Nat Node) : Entry → Rule Nat Node
  | .file => .sourceFile <$> statementsUntil statement .endOfFileToken
  | .type => entire type
  | .typeMember => entire (Grammar.typeMember type)
  | .classMember => entire (Grammar.classMember type)
  | .statement => entire statement

theorem Entry.ruleOf_walks {G : Ground} [G.Lawful] (entry : Entry) {type type' : Rule Nat Node}
    {statement statement' : Rule Nat Node} (types : ∀ x z, Walks G x false z type type')
    (statements : ∀ x z, Walks G x false z statement statement') :
    Walks G false false false (entry.ruleOf type statement) (entry.ruleOf type' statement') := by
  cases entry with
  | file => exact Walks.map (h := statementsUntil_walks (statements false false))
  | type => exact entire_walks (types false true)
  | typeMember | classMember => exact entire_walks inferInstance
  | statement => exact entire_walks (statements false true)

/-- Calls as deep as a text has tokens are enough to read it: a further one is never made. -/
theorem Entry.rule_of_calls (entry : Entry) (o : Options) (text : String) (n : Nat)
    (enough : (lexemes text).length ≤ n) (types statements : Unit → Rule Nat Node) :
    entry.ruleOf (typeCall^[n] types ()) (statementCall^[n] statements ()) o ⟨.ofText text, 0⟩ =
      entry.rule o ⟨.ofText text, 0⟩ := by
  let m := (Stream.ofText text).ahead.length
  have scanned := scanned_lexemes text
  rw [← Stream.toList_ofText] at scanned enough
  have deep : m < n := enough
  have readsTypes (x z : Bool) : Walks (.within m) x false z (typeCall^[n] types ()) Grammar.type :=
    Walks.of_eq inferInstance fun here => descends_type.iterate_eq types n () _ _ here.here.1
      (Nat.lt_of_le_of_lt here.here.2 deep)
  have readsStatements (x z : Bool) :
      Walks (.within m) x false z (statementCall^[n] statements ()) Grammar.statement :=
    Walks.of_eq inferInstance fun here => descends_statement.iterate_eq statements n () _ _
      here.here.1 (Nat.lt_of_le_of_lt here.here.2 deep)
  have same := (entry.ruleOf_walks readsTypes readsStatements).eq (o := o)
    (s := ⟨.ofText text, 0⟩) ⟨⟨scanned, Nat.le_refl m⟩, nofun, nofun⟩
  have rules : entry.ruleOf Grammar.type Grammar.statement = entry.rule := by cases entry <;> rfl
  rw [same, rules]

/-- Parses end, for every text and whatever the options: the tokens of a text use it up, rules that
give nodes read tokens for them, calls and loops read a token before they go on, and no more calls are
made inside each other than there are tokens. -/
theorem parse_ends :
    (∀ c : Cursor, c.scan.1.kind ≠ .endOfFileToken → c.scan.2.rest.length < c.rest.length) ∧
      NodesRead ∧ CallsEnd ∧ LoopsEnd ∧
      ∀ (entry : Entry) (o : Options) (text : String) (n : Nat), (lexemes text).length ≤ n →
        ∀ types statements : Unit → Rule Nat Node,
          entry.ruleOf (typeCall^[n] types ()) (statementCall^[n] statements ()) o
            ⟨.ofText text, 0⟩ = entry.rule o ⟨.ofText text, 0⟩ :=
  ⟨fun _ => Cursor.length_scan, nodesRead, callsEnd, loopsEnd, Entry.rule_of_calls⟩

end Ambient
