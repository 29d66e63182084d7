import Ambient.Proofs.Grammar.Front
import Ambient.Proofs.Grammar.Gives
import Ambient.Proofs.Grammar.Member
import Ambient.Proofs.Grammar.MemberForm

namespace Ambient

namespace Stream

/-- Whether a bracket with a name and `in` stands here. -/
def atMappedKey (s : Stream) : Bool :=
  s.current.kind = .openBracketToken && s.next.current.kind.isName &&
    s.next.next.current.kind = .inKeyword

def atSign (s : Stream) : Bool := s.current.kind = .plusToken || s.current.kind = .minusToken

/-- Whether what stands behind the current token is the start of a mapped type. -/
def opensMappedType (s : Stream) : Bool :=
  if s.next.atSign then s.next.next.current.kind = .readonlyKeyword && s.next.next.next.atMappedKey
  else if s.next.current.kind = .readonlyKeyword then s.next.next.atMappedKey
  else s.next.atMappedKey

end Stream

namespace Grammar

open Rule

theorem atMappedKey_gives (o : Options) (s : State Nat) : ∃ t : State Nat, t.depth = s.depth ∧ (do
    if !(← accept .openBracketToken) then return false
    else if (← current).kind.isName then
      advance
      atKind .inKeyword
    else return false : Rule Nat Bool).Gives o s s.stream.atMappedKey t := by
  by_cases bracket : s.stream.current.kind = .openBracketToken
  · by_cases name : s.stream.next.current.kind.isName = true
    · have value : s.stream.atMappedKey = decide (s.stream.next.next.current.kind = .inKeyword) := by
        rw [Stream.atMappedKey, decide_eq_true bracket, name, Bool.true_and, Bool.true_and]
      refine ⟨s.next.next, rfl, ?_⟩
      rw [value]
      exact .bind (.accept bracket) (.ite_neg (by simp) (.bind .current (.ite_pos name
        (.bind .advance .atKind))))
    · have value : s.stream.atMappedKey = false := by simp [Stream.atMappedKey, name]
      refine ⟨s.next, rfl, ?_⟩
      rw [value]
      exact .bind (.accept bracket) (.ite_neg (by simp) (.bind .current (.ite_neg name .pure)))
  · have value : s.stream.atMappedKey = false := by simp [Stream.atMappedKey, bracket]
    refine ⟨s, rfl, ?_⟩
    rw [value]
    exact .bind (.accept_not bracket) (.ite_pos rfl .pure)

/-- Looking ahead always says whether a mapped type is opened. -/
theorem atMappedType_gives (o : Options) (s : State Nat) :
    atMappedType.Gives o s s.stream.opensMappedType s := by
  have back {t : State Nat} {b : Bool} (depth : t.depth = s.depth)
      (h : atMappedType.Gives o s b ⟨s.stream, t.depth⟩) : atMappedType.Gives o s b s := by
    rwa [depth] at h
  by_cases sign : s.stream.next.atSign = true
  · by_cases readonly : s.stream.next.next.current.kind = .readonlyKeyword
    · obtain ⟨t, depth, key⟩ := atMappedKey_gives o s.next.next.next
      have value : s.stream.opensMappedType = s.next.next.next.stream.atMappedKey := by
        rw [Stream.opensMappedType, if_pos sign, decide_eq_true readonly, Bool.true_and]
        rfl
      rw [value]
      exact back depth (.lookAhead (.bind .advance (.bind .current (.ite_pos sign (.bind .advance
        (.bind .atKind (.ite_neg (by simp [State.next, readonly]) (.bind (.accept readonly) key))))))))
    · have value : s.stream.opensMappedType = false := by
        rw [Stream.opensMappedType, if_pos sign, decide_eq_false readonly, Bool.false_and]
      rw [value]
      refine back (t := s.next.next) rfl (.lookAhead (.bind .advance (.bind .current (.ite_pos sign
        (.bind .advance (.bind .atKind (.ite_pos ?_ .pure)))))))
      exact Bool.and_eq_true_iff.mpr ⟨sign, by simp [State.next, readonly]⟩
  · by_cases readonly : s.stream.next.current.kind = .readonlyKeyword
    · obtain ⟨t, depth, key⟩ := atMappedKey_gives o s.next.next
      have value : s.stream.opensMappedType = s.next.next.stream.atMappedKey := by
        rw [Stream.opensMappedType, if_neg sign, if_pos readonly]
        rfl
      rw [value]
      refine back depth (.lookAhead (.bind .advance (.bind .current (.ite_neg sign
        (.bind .atKind (.ite_neg ?_ (.bind (.accept readonly) key)))))))
      exact fun both => sign (Bool.and_eq_true_iff.mp both).1
    · obtain ⟨t, depth, key⟩ := atMappedKey_gives o s.next
      have value : s.stream.opensMappedType = s.next.stream.atMappedKey := by
        rw [Stream.opensMappedType, if_neg sign, if_neg readonly]
        rfl
      rw [value]
      refine back depth (.lookAhead (.bind .advance (.bind .current (.ite_neg sign
        (.bind .atKind (.ite_neg ?_ (.bind (.accept_not readonly) key)))))))
      exact fun both => sign (Bool.and_eq_true_iff.mp both).1

variable {type : Rule Nat Node} [Balanced type] {d : Nat} {s u v : Stream} {n : Node}

theorem signed_leads {k : Kind} {x : Option Node} (h : (signed k).Leads d s x u) :
    (s.atSign = true ∧ s.next.current.kind = k ∧ u = s.next.next) ∨
      (s.atSign = false ∧ (s.current.kind = k ∧ u = s.next ∨ s = u)) := by
  obtain ⟨_, _, here, h⟩ := h.bind
  obtain ⟨rfl, rfl⟩ := here.current
  rcases h.ite with ⟨sign, h⟩ | ⟨no_sign, h⟩
  · obtain ⟨_, v, step, h⟩ := h.bind
    obtain rfl := step.advance
    obtain ⟨_, v, found, h⟩ := h.bind
    obtain ⟨is, rfl⟩ := found.expect
    exact .inl ⟨sign, is, h.pure.2.symm⟩
  · have no_sign : s.atSign = false := Bool.eq_false_iff.mpr no_sign
    rcases h.token? with ⟨-, is, rfl⟩ | ⟨-, rfl⟩
    · exact .inr ⟨no_sign, .inl ⟨is, rfl⟩⟩
    · exact .inr ⟨no_sign, .inr rfl⟩

omit [Balanced type] in
/-- A mapped type is one that looking ahead finds. -/
theorem mappedType_opens (h : (mappedType type).Leads d s n u) : s.opensMappedType = true := by
  obtain ⟨_, s1, h1, h⟩ := h.bind
  obtain ⟨-, rfl⟩ := h1.expect
  obtain ⟨readonlyToken, v, h2, h⟩ := h.bind
  obtain ⟨_, s3, h3, h⟩ := h.bind
  obtain ⟨bracket, rfl⟩ := h3.expect
  obtain ⟨key, s4, h4, h⟩ := h.bind
  obtain ⟨name, rfl, -⟩ := identifierOf_word h4
  obtain ⟨_, s5, h5, -⟩ := h.bind
  have key : v.atMappedKey = true := by
    simp [Stream.atMappedKey, bracket, name, h5.expect.1]
  rcases signed_leads h2 with ⟨sign, readonly, rfl⟩ | ⟨sign, ⟨readonly, rfl⟩ | rfl⟩
  · simp [Stream.opensMappedType, sign, readonly, key]
  · simp [Stream.opensMappedType, sign, readonly, key]
  · simp [Stream.opensMappedType, sign, bracket, key]

/-- A member stands where one is read; if it is an index signature, a type follows its name. -/
theorem typeMember_at (h : (typeMember type).Leads d s n u) :
    ∃ form v, MemberAt form s v ∧ (form = .index → v.next.next.current.kind = .colonToken) := by
  obtain ⟨_, _, refuse, h⟩ := h.bind
  obtain rfl := refuseModifier_leads refuse
  obtain ⟨r, mem, h⟩ := h.alternatives (balanced_typeMemberRules type)
  simp only [List.mem_cons, List.not_mem_nil, or_false] at mem
  rcases mem with rfl | rfl | rfl | rfl | rfl
  · obtain ⟨v, here, colon⟩ := indexMember_at h
    exact ⟨_, v, here, fun _ => colon⟩
  · exact ⟨_, s, callSignature_at h, by simp⟩
  · exact ⟨_, s, (constructSignature_at h).1, by simp⟩
  · obtain ⟨v, here⟩ := propertySignature_at h
    exact ⟨_, v, here, by simp⟩
  · exact ⟨_, s, (methodSignature_at h).1, by simp⟩

/-- Braces without a member in them are closed at once. -/
theorem typeMembers_closed {l : List Node} (h : (typeMembers type).Leads d s l u)
    (empty : ∀ n v, ¬ (typeMember type).Leads d s.next n v) :
    s.next.current.kind = .closeBraceToken := by
  obtain ⟨_, s1, h1, h⟩ := h.bind
  obtain ⟨-, rfl⟩ := h1.expect
  obtain ⟨read, s2, h2, h⟩ := h.bind
  obtain ⟨_, s3, h3, -⟩ := h.bind
  have still : s2 = s.next := by
    refine Leads.many (P := fun _ v => v = s.next) ?_ ?_ h2 rfl
    · rintro l m v w rfl step
      obtain ⟨_, _, here, step⟩ := step.bind
      obtain rfl := atBlockEnd_leads here
      rcases step.noneOr with ⟨no, -⟩ | ⟨m', -, read⟩
      · cases no
      · exact (empty m' w read).elim
    · rintro l v w rfl step
      obtain ⟨_, _, here, step⟩ := step.bind
      obtain rfl := atBlockEnd_leads here
      rcases step.noneOr with ⟨-, -, rfl⟩ | ⟨m', no, -⟩
      · rfl
      · cases no
  rw [← still]
  exact h3.expect.1

theorem typeMembers_not_mapped {l : List Node} (h : (typeMembers type).Leads d s l u)
    (mapped : s.opensMappedType = true) : False := by
  rw [Stream.opensMappedType] at mapped
  have keyed (v : Stream) (key : v.atMappedKey = true) :
      v.current.kind = .openBracketToken ∧ v.next.next.current.kind = .inKeyword := by
    simp only [Stream.atMappedKey, Bool.and_eq_true, decide_eq_true_eq] at key
    exact ⟨key.1.1, key.2⟩
  -- a member would be an index signature, but its name is followed by no type
  have noMember (v : Stream) (here : MemberAt .index s.next v) (key : v.atMappedKey = true) :
      ∀ n w, ¬ (typeMember type).Leads d s.next n w := by
    intro n w read
    obtain ⟨form, v', here', colon⟩ := typeMember_at read
    obtain ⟨rfl, rfl⟩ := here.unique here'
    have colon := colon rfl
    rw [(keyed v key).2] at colon
    cases colon
  split_ifs at mapped with sign readonly
  · simp only [Stream.atSign, Bool.or_eq_true, decide_eq_true_eq] at sign
    have close := typeMembers_closed h fun n w read => by
      obtain ⟨form, v, here, -⟩ := typeMember_at read
      rcases here.first with is | is | is | name
      · rcases sign with is' | is' <;> rw [is'] at is <;> cases is
      · rcases sign with is' | is' <;> rw [is'] at is <;> cases is
      · rcases sign with is' | is' <;> rw [is'] at is <;> cases is
      · rcases sign with is' | is' <;> exact name.ne (by decide) is'
    rcases sign with is | is <;> rw [is] at close <;> cases close
  · have bracket := (keyed _ mapped).1
    have read : ModifiersRead typeMemberModifiers s.next [s.next.current.kind] s.next.next :=
      .cons (by rw [readonly]; decide) (by rw [bracket]; decide) (.nil _)
    have close := typeMembers_closed h (noMember _
      (memberAt_index typeMemberModifiers_modify read bracket) mapped)
    rw [readonly] at close
    cases close
  · have bracket := (keyed _ mapped).1
    have close := typeMembers_closed h (noMember _
      (memberAt_index no_modifiers (.nil _) bracket) mapped)
    rw [bracket] at close
    cases close

/-- Where two rules both succeed, what they give is related. -/
def Coincide (related : Node → Node → Prop) (o : Options) (s : State Nat) (r r' : Rule Nat Node) : Prop :=
  ∀ n n' t t', r.Gives o s n t → r'.Gives o s n' t' → related n n'

variable {o : Options} {s : State Nat} {related : Node → Node → Prop}

theorem leads_of_gives {α : Type} {r : Rule Nat α} [Balanced r] {a : α} {t : State Nat}
    (h : r.Gives o s a t) : r.Leads (o.depthLimit - s.depth) s.stream a t.stream := by
  have kept := Balanced.ok_eq h
  exact ⟨o, s.depth, rfl, kept ▸ h⟩

theorem Coincide.of_leads {r r' : Rule Nat Node} [Balanced r] [Balanced r']
    (h : ∀ {d n n' u u'}, r.Leads d s.stream n u → r'.Leads d s.stream n' u' → related n n') :
    Coincide related o s r r' :=
  fun _ _ _ _ gives gives' => h (leads_of_gives gives) (leads_of_gives gives')

/-- All rules of a table that differ in what they are marked with exclude each other. -/
theorem coincide_of_table {α : Type} (table : List (Rule Nat Node × α)) (At : α → Stream → Prop)
    (differ : α → α → Prop) (exclude : ∀ {a b s}, differ a b → At a s → At b s → False)
    (marked : ∀ e ∈ table, Balanced e.1 ∧ ∀ {d s n u}, e.1.Leads d s n u → At e.2 s)
    (pairs : table.Pairwise fun e e' => differ e.2 e'.2 ∨ Coincide related o s e.1 e'.1) :
    (table.map Prod.fst).Pairwise (Coincide related o s) := by
  rw [List.pairwise_map]
  refine pairs.imp_of_mem ?_
  rintro ⟨r, a⟩ ⟨r', b⟩ mem mem' (different | coincide)
  · obtain ⟨balanced, marks⟩ := marked _ mem
    obtain ⟨balanced', marks'⟩ := marked _ mem'
    exact .of_leads fun h h' => (exclude different (marks h) (marks' h')).elim
  · exact coincide

/-- A signature of a constructor, and of a method named `new`. -/
inductive NewSignature : Node → Node → Prop where
  | mk (tps ps tps' ps' : Option (List Node)) (comment : Option String) (question : Option Node)
      (result result' : Node) :
    NewSignature (.constructSignature tps ps result)
      (.methodSignature (.identifier "new" comment) question tps' ps' result')

/-- A constructor, and a method named `constructor`. -/
inductive NamedConstructor : Node → Node → Prop where
  | mk (comment comment' : Option String) (ms ps ms' tps ps' : Option (List Node))
      (question : Option Node) (result : Node) :
    NamedConstructor (.constructorDeclaration comment ms ps)
      (.methodDeclaration ms' (.identifier "constructor" comment') question tps ps' result)

/-- The text of a keyword is the only one that it has. -/
theorem value_of_keyword {t : Lexeme} {k : Kind} (text : String) (genuine : t.Genuine)
    (is : t.kind = k) (keyword : k.isAnyKeyword = true)
    (only : ∀ entry ∈ Kind.keywords, entry.1 = k → entry.2 = text) : t.value = text := by
  subst is
  obtain ⟨entry, found, eq⟩ := Option.map_eq_some_iff.mp (genuine.keyword keyword)
  have same : entry.2 = t.text := by simpa using List.find?_some found
  have no_string : t.kind ≠ .stringLiteral := Kind.ne_of_class keyword (by decide)
  rw [Lexeme.value, if_neg no_string, ← same, only entry (List.mem_of_find?_eq_some found) eq]

theorem scanned_of_modifiersRead {allowed ks : List Kind} {s v : Stream}
    (h : ModifiersRead allowed s ks v) (scanned : Scanned s.toList) : Scanned v.toList := by
  induction h with
  | nil => exact scanned
  | cons _ _ _ ih => exact ih scanned.next

theorem typeMembers_coincide (scanned : Scanned s.stream.toList) :
    [indexMember type, callSignature type, constructSignature type, propertySignature type,
      methodSignature type].Pairwise (Coincide NewSignature o s) := by
  refine coincide_of_table [(indexMember type, .index), (callSignature type, .call),
    (constructSignature type, .method), (propertySignature type, .value),
    (methodSignature type, .method)] (fun form s => ∃ v, MemberAt form s v) (· ≠ ·) ?_ ?_ ?_
  · rintro form form' s differ ⟨v, h⟩ ⟨v', h'⟩
    exact differ (h.unique h').2
  · simp only [List.forall_mem_cons, List.not_mem_nil, false_imp_iff, implies_true, and_true]
    refine ⟨⟨inferInstance, fun h => ?_⟩, ⟨inferInstance, fun h => ?_⟩, ⟨inferInstance, fun h => ?_⟩,
      ⟨inferInstance, fun h => ?_⟩, ⟨inferInstance, fun h => ?_⟩⟩
    · obtain ⟨v, here, -⟩ := indexMember_at h
      exact ⟨v, here⟩
    · exact ⟨_, callSignature_at h⟩
    · exact ⟨_, (constructSignature_at h).1⟩
    · exact propertySignature_at h
    · exact ⟨_, (methodSignature_at h).1⟩
  · have coincide : Coincide NewSignature o s (constructSignature type) (methodSignature type) := by
      refine .of_leads fun h h' => ?_
      obtain ⟨-, is, tps, ps, result, rfl⟩ := constructSignature_at h
      obtain ⟨-, named⟩ := methodSignature_at h'
      obtain ⟨comment, question, tps', ps', result', rfl⟩ := named (by rw [is]; decide)
      rw [value_of_keyword "new" scanned.genuine_head is (by decide) (by decide)]
      exact .mk ..
    simp [coincide]

theorem classMembers_coincide (scanned : Scanned s.stream.toList) :
    [constructorMember type, classIndexMember type, propertyMember type,
      methodMember type].Pairwise (Coincide NamedConstructor o s) := by
  refine coincide_of_table [(constructorMember type, .method),
    (classIndexMember type, .index), (propertyMember type, .value), (methodMember type, .method)]
    (fun form s => ∃ v, MemberAt form s v) (· ≠ ·) ?_ ?_ ?_
  · rintro form form' s differ ⟨v, h⟩ ⟨v', h'⟩
    exact differ (h.unique h').2
  · simp only [List.forall_mem_cons, List.not_mem_nil, false_imp_iff, implies_true, and_true]
    refine ⟨⟨inferInstance, fun h => ?_⟩, ⟨inferInstance, fun h => ?_⟩, ⟨inferInstance, fun h => ?_⟩,
      ⟨inferInstance, fun h => ?_⟩⟩
    · obtain ⟨v, here, -⟩ := constructorMember_at h
      exact ⟨v, here⟩
    · exact classIndexMember_at h
    · exact propertyMember_at h
    · obtain ⟨v, here, -⟩ := methodMember_at h
      exact ⟨v, here⟩
  · have coincide : Coincide NamedConstructor o s (constructorMember type) (methodMember type) := by
      refine .of_leads fun h h' => ?_
      obtain ⟨v, here, is, comment, ms, ps, rfl⟩ := constructorMember_at h
      obtain ⟨v', here', named⟩ := methodMember_at h'
      obtain ⟨rfl, -⟩ := here.unique here'
      obtain ⟨comment', ms', question, tps, ps', result, rfl⟩ := named (by rw [is]; decide)
      obtain ⟨allowed, ks, -, read⟩ := here.read
      have genuine := (scanned_of_modifiersRead read scanned).genuine_head
      rw [value_of_keyword "constructor" genuine is (by decide) (by decide)]
      exact .mk ..
    simp [coincide]

/-- A declaration that is exported as default, and the default export of a name. -/
inductive DefaultExport : Node → Node → Prop where
  | interface (others : List Node) (declared expression : Node)
      (tps heritage : Option (List Node)) (members : List Node) :
    DefaultExport (.interfaceDeclaration
      (some (.token .exportKeyword :: .token .defaultKeyword :: others)) declared tps heritage
      members) (.exportAssignment false expression)
  | class (others : List Node) (declared expression : Node)
      (tps heritage : Option (List Node)) (members : List Node) :
    DefaultExport (.classDeclaration
      (some (.token .exportKeyword :: .token .defaultKeyword :: others)) declared tps heritage
      members) (.exportAssignment false expression)
  | function (others : List Node) (declared expression result : Node)
      (tps ps : Option (List Node)) :
    DefaultExport (.functionDeclaration
      (some (.token .exportKeyword :: .token .defaultKeyword :: others)) declared tps ps result)
      (.exportAssignment false expression)

/-- The rules for statements but the last, and how the statements start that they read. -/
def statementTable (statement : Rule Nat Node) : List (Rule Nat Node × Front) := [
  (importDeclaration, ⟨[], [.importKeyword], false⟩),
  (namespaceExport, ⟨[.exportKeyword], [.asKeyword], false⟩),
  (exportDeclaration,
    ⟨[.exportKeyword, .typeKeyword], [.openBraceToken, .asteriskToken], false⟩),
  (interfaceDeclaration, ⟨interfaceModifiers, [.interfaceKeyword], false⟩),
  (classDeclaration, ⟨classModifiers, [.classKeyword], false⟩),
  (functionDeclaration, ⟨interfaceModifiers, [.functionKeyword], false⟩),
  (typeAlias, ⟨ambientModifiers, [.typeKeyword], true⟩),
  (enumDeclaration, ⟨enumModifiers, [.enumKeyword], false⟩),
  (variableStatement, ⟨ambientModifiers, [.constKeyword, .letKeyword, .varKeyword], true⟩),
  (moduleDeclaration statement, ⟨ambientModifiers, [.namespaceKeyword, .moduleKeyword], false⟩),
  (globalBlock statement, ⟨ambientModifiers, [.globalKeyword], false⟩)]

variable {statement : Rule Nat Node} [Balanced statement]

theorem statementTable_marked : ∀ e ∈ statementTable statement,
    Balanced e.1 ∧ ∀ {d s n u}, e.1.Leads d s n u → e.2.At s := by
  simp only [statementTable, List.forall_mem_cons, List.not_mem_nil, false_imp_iff, implies_true,
    and_true]
  exact ⟨⟨inferInstance, importDeclaration_at⟩, ⟨inferInstance, namespaceExport_at⟩,
    ⟨inferInstance, exportDeclaration_at⟩, ⟨inferInstance, interfaceDeclaration_at⟩,
    ⟨inferInstance, classDeclaration_at⟩, ⟨inferInstance, functionDeclaration_at⟩,
    ⟨inferInstance, typeAlias_at⟩, ⟨inferInstance, enumDeclaration_at⟩,
    ⟨inferInstance, variableStatement_at⟩, ⟨inferInstance, moduleDeclaration_at⟩,
    ⟨inferInstance, globalBlock_at⟩⟩

theorem statementTable_coincide :
    ((statementTable statement).map Prod.fst).Pairwise (Coincide related o s) := by
  have apart : ((statementTable statement).map Prod.snd).Pairwise fun f g => f.apart g = true := by
    simp only [statementTable, List.map_cons, List.map_nil]
    decide
  refine coincide_of_table _ Front.At (fun f g => f.apart g = true)
    (fun differ h h' => h.apart h' differ) statementTable_marked ?_
  exact (List.pairwise_map.mp apart).imp .inl

/-- Behind `export default` the head of a declaration has these two modifiers first. -/
theorem declaration_default {allowed : List Kind} {k : Kind}
    {rest : Option String × Option (List Node) → Rule Nat Node} {s u : Stream}
    (h : (declarationHead allowed >>= fun head => expect k >>= fun _ => rest head).Leads d s n u)
    (is : s.current.kind = .exportKeyword) (default : s.next.current.kind = .defaultKeyword)
    (keyword : k ≠ .exportKeyword ∧ k ≠ .defaultKeyword) :
    ∃ comment others v, (rest (comment,
      some (.token .exportKeyword :: .token .defaultKeyword :: others))).Leads d v n u := by
  obtain ⟨⟨comment, modifiers⟩, v, h1, h⟩ := h.bind
  obtain ⟨_, v', h2, h⟩ := h.bind
  obtain ⟨ks, read, eq⟩ := declarationHead_read h1
  obtain ⟨rfl, rfl⟩ := h2.expect
  cases read with
  | nil => exact absurd is keyword.1
  | cons _ _ behind =>
    cases behind with
    | nil => exact absurd default keyword.2
    | cons _ _ _ =>
      obtain rfl : modifiers = some _ := eq
      exact ⟨comment, _, _, by simpa only [is, default, List.map_cons] using h⟩

section

variable {s u u' : Stream} {n' expression : Node}

theorem interfaceDeclaration_default (h : interfaceDeclaration.Leads d s n u)
    (is : s.current.kind = .exportKeyword) (default : s.next.current.kind = .defaultKeyword) :
    DefaultExport n (.exportAssignment false expression) := by
  obtain ⟨comment, others, _, h⟩ := declaration_default h is default (by decide)
  obtain ⟨declared, _, -, h⟩ := h.bind
  obtain ⟨tps, _, -, h⟩ := h.bind
  obtain ⟨heritage, _, -, h⟩ := h.bind
  obtain ⟨members, _, -, h⟩ := h.bind
  obtain ⟨rfl, -⟩ := h.pure
  exact .interface ..

theorem classDeclaration_default (h : classDeclaration.Leads d s n u)
    (is : s.current.kind = .exportKeyword) (default : s.next.current.kind = .defaultKeyword) :
    DefaultExport n (.exportAssignment false expression) := by
  obtain ⟨comment, others, _, h⟩ := declaration_default h is default (by decide)
  obtain ⟨declared, _, -, h⟩ := h.bind
  obtain ⟨tps, _, -, h⟩ := h.bind
  obtain ⟨heritage, _, -, h⟩ := h.bind
  obtain ⟨members, _, -, h⟩ := h.bind
  obtain ⟨rfl, -⟩ := h.pure
  exact .class ..

theorem functionDeclaration_default (h : functionDeclaration.Leads d s n u)
    (is : s.current.kind = .exportKeyword) (default : s.next.current.kind = .defaultKeyword) :
    DefaultExport n (.exportAssignment false expression) := by
  obtain ⟨comment, others, _, h⟩ := declaration_default h is default (by decide)
  obtain ⟨declared, _, -, h⟩ := h.bind
  obtain ⟨tps, _, -, h⟩ := h.bind
  obtain ⟨ps, _, -, h⟩ := h.bind
  obtain ⟨result, _, -, h⟩ := h.bind
  obtain ⟨_, _, -, h⟩ := h.bind
  obtain ⟨rfl, -⟩ := h.pure
  exact .function ..

theorem exportDefault_at (is : s.current.kind = .exportKeyword)
    (default : s.next.current.kind = .defaultKeyword) :
    Front.At ⟨[.exportKeyword], [.defaultKeyword], false⟩ s :=
  ⟨_, s.next, exported is (by decide) (by rw [default]; decide), by simp [default], by simp⟩

/-- Only a declaration that may be exported as default starts like a default export. -/
theorem statementTable_default {e : Rule Nat Node × Front} (mem : e ∈ statementTable statement)
    (h : e.1.Leads d s n u) (is : s.current.kind = .exportKeyword)
    (default : s.next.current.kind = .defaultKeyword) :
    DefaultExport n (.exportAssignment false expression) := by
  by_cases apart : e.2.apart ⟨[.exportKeyword], [.defaultKeyword], false⟩ = true
  · exact (((statementTable_marked e mem).2 h).apart (exportDefault_at is default) apart).elim
  · simp only [statementTable, List.mem_cons, List.not_mem_nil, or_false] at mem
    rcases mem with rfl | rfl | rfl | rfl | rfl | rfl | rfl | rfl | rfl | rfl | rfl
    case inr.inr.inr.inl => exact interfaceDeclaration_default h is default
    case inr.inr.inr.inr.inl => exact classDeclaration_default h is default
    case inr.inr.inr.inr.inr.inl => exact functionDeclaration_default h is default
    all_goals exact absurd rfl apart

end

omit [Balanced statement] in
/-- No keyword of another statement stands where an assignment `export =` is. -/
theorem statementTable_keywords :
    ∀ e ∈ statementTable statement, Kind.exportKeyword ∉ e.2.keywords := by
  simp only [statementTable, List.forall_mem_cons, List.not_mem_nil, false_imp_iff, implies_true,
    and_true]
  decide

theorem statementRules_coincide :
    (statementRules statement).Pairwise (Coincide DefaultExport o s) := by
  have rules : statementRules statement =
      (statementTable statement).map Prod.fst ++ [exportAssignment] := rfl
  have last : ∀ e ∈ statementTable statement, Coincide DefaultExport o s e.1 exportAssignment := by
    intro e mem
    obtain ⟨balanced, starts⟩ := statementTable_marked e mem
    refine .of_leads fun h h' => ?_
    obtain ⟨is, equals | ⟨default, expression, rfl⟩⟩ := exportAssignment_leads h'
    · have keyword := (starts h).keyword (by rw [equals]; decide)
      rw [is] at keyword
      exact absurd keyword (statementTable_keywords e mem)
    · exact statementTable_default mem h is default
  rw [rules, List.pairwise_append]
  refine ⟨statementTable_coincide, List.pairwise_singleton _ _, ?_⟩
  intro r mem r' mem'
  obtain ⟨e, in_table, rfl⟩ := List.mem_map.mp mem
  obtain rfl := List.mem_singleton.mp mem'
  exact last e in_table

/-- A rule that the grammar takes for types: the one for all types, or that for types inside of
another one. -/
def IsTypeRule (r : Rule Nat Node) : Prop := r = Grammar.type ∨ ∃ budget, r = typeWithin budget

def IsStatementRule (r : Rule Nat Node) : Prop :=
  r = Grammar.statement ∨ ∃ budget, r = statementWithin budget

/-- At a place, no two alternatives succeed but for those named here. -/
structure Unambiguous (type statement : Rule Nat Node) (o : Options) (s : State Nat) : Prop where
  parenthesis : [functionType type, parenthesizedType type].Pairwise
    (Coincide (fun _ _ => False) o s)
  /-- Looking ahead chooses between the types in braces, of which only the chosen one can
  succeed. -/
  brace : ∃ mapped, atMappedType.Gives o s mapped s ∧
    (∀ n t, (mappedType type).Gives o s n t → mapped = true) ∧
    ∀ n t, Gives (Node.typeLiteral <$> typeMembers type) o s n t → mapped = false
  typeMember : [indexMember type, callSignature type, constructSignature type,
    propertySignature type, methodSignature type].Pairwise (Coincide NewSignature o s)
  classMember : [constructorMember type, classIndexMember type, propertyMember type,
    methodMember type].Pairwise (Coincide NamedConstructor o s)
  statement : (statementRules statement).Pairwise (Coincide DefaultExport o s)

theorem IsTypeRule.balanced {r : Rule Nat Node} (h : IsTypeRule r) : Balanced r := by
  rcases h with rfl | ⟨budget, rfl⟩ <;> infer_instance

theorem IsStatementRule.balanced {r : Rule Nat Node} (h : IsStatementRule r) : Balanced r := by
  rcases h with rfl | ⟨budget, rfl⟩ <;> infer_instance

theorem IsTypeRule.stuck {r : Rule Nat Node} (h : IsTypeRule r) {s u : Stream}
    (head : ParametersHead s) (read : r.Leads d s n u) : Stuck u := by
  rcases h with rfl | ⟨budget, rfl⟩
  · exact typeWithin_stuck head read.bounded
  · exact typeWithin_stuck head read

/-- Wherever a parse has come to in a text, and however deep it is, the alternatives there exclude
each other. -/
theorem unambiguous {text : String} {type statement : Rule Nat Node} (isType : IsTypeRule type)
    (isStatement : IsStatementRule statement) (here : s.stream.toList <:+ lexemes text) :
    Unambiguous type statement o s := by
  have := isType.balanced
  have := isStatement.balanced
  obtain ⟨read, eq⟩ := here
  have scanned : Scanned s.stream.toList :=
    (eq ▸ scanned_lexemes text : Scanned (read ++ _)).of_append (by simp [Stream.toList])
  refine ⟨?_, ⟨_, atMappedType_gives o s, ?_, ?_⟩, typeMembers_coincide scanned,
    classMembers_coincide scanned, statementRules_coincide⟩
  · have exclude : Coincide (fun _ _ => False) o s (functionType type) (parenthesizedType type) :=
      .of_leads (functionType_not_parenthesizedType isType.stuck)
    exact List.pairwise_pair.mpr exclude
  · exact fun n t gives => mappedType_opens (leads_of_gives gives)
  · intro n t gives
    obtain ⟨members, read, -⟩ := (leads_of_gives gives).map
    exact Bool.eq_false_iff.mpr (typeMembers_not_mapped read)

theorem gives_of_isSome {r : Rule Nat Node} (h : (r o s).1.toOption.isSome = true) :
    ∃ n t, r.Gives o s n t := by
  cases eq : (r o s).1 with
  | ok n => exact ⟨n, (r o s).2, Prod.ext eq rfl⟩
  | error e =>
    rw [eq] at h
    cases h

/-- Before `new` and a parenthesis two rules succeed. -/
theorem unambiguous_newSignature : ∃ n n' t t',
    (constructSignature Grammar.type).Gives {} ⟨.ofText "new(): A", 0⟩ n t ∧
      (methodSignature Grammar.type).Gives {} ⟨.ofText "new(): A", 0⟩ n' t' ∧
        NewSignature n n' := by
  obtain ⟨n, t, construct⟩ : ∃ n t,
      (constructSignature Grammar.type).Gives {} ⟨.ofText "new(): A", 0⟩ n t :=
    gives_of_isSome (by decide +kernel)
  obtain ⟨n', t', method⟩ : ∃ n t,
      (methodSignature Grammar.type).Gives {} ⟨.ofText "new(): A", 0⟩ n t :=
    gives_of_isSome (by decide +kernel)
  have all := unambiguous (.inl rfl) (.inl rfl) (o := {}) (s := ⟨.ofText "new(): A", 0⟩)
    ⟨[], Stream.toList_ofText "new(): A"⟩
  have pair := List.pairwise_iff_getElem.mp all.typeMember 2 4 (by decide) (by decide) (by decide)
  exact ⟨n, n', t, t', construct, method, pair n n' t t' construct method⟩

end Grammar

end Ambient
