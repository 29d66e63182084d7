import Ambient.Proofs.Interchange.Members
import Ambient.Proofs.Json.Nesting

namespace Ambient

theorem Kind.code_lt (k : Kind) : k.code < count := by
  cases k <;> decide

theorem Kind.ofCode?_code (k : Kind) : ofCode? k.code = some k := by
  rw [ofCode?, if_pos k.code_lt, code, Kind.ofNat_ctorIdx]

theorem Json.plain_nat {n : Nat} (h : n < 0x10000000000000000) : (Json.nat n).Plain := by
  rw [nat, Plain]
  omega

theorem Json.plainMembers_of_forall {members : List (String × Json)}
    (h : ∀ member ∈ members, member.2.Plain) : PlainMembers members := by
  induction members with
  | nil => trivial
  | cons member members ih =>
    rw [PlainMembers]
    exact ⟨h member (by simp), ih fun m hm => h m (List.mem_cons_of_mem member hm)⟩

theorem Node.plainItems_encodeList {ns : List Node} (h : ∀ n ∈ ns, n.encode.Plain) :
    Json.PlainItems (encodeList ns) := by
  induction ns with
  | nil => trivial
  | cons n ns ih =>
    exact ⟨h n (by simp), ih fun m hm => h m (List.mem_cons_of_mem n hm)⟩

/-- A part is plain if the nodes in it are. -/
theorem Part.plain_of_encoded {p : Part} (below : ∀ c ∈ p.places, c.2.encode.Plain)
    {member : String × Json} (h : p.encoded = some member) : member.2.Plain := by
  cases p with
  | text key value | flag key value =>
    obtain rfl := Option.some.inj h
    trivial
  | text? key value =>
    obtain ⟨s, -, rfl⟩ := Option.map_eq_some_iff.mp h
    trivial
  | bits key value =>
    obtain rfl := Option.some.inj h
    have := value.toNat_lt
    exact Json.plain_nat (by omega)
  | operator key value =>
    obtain rfl := Option.some.inj h
    have := value.code_lt
    exact Json.plain_nat (by rw [Kind.count] at this; omega)
  | node key place value =>
    obtain rfl := Option.some.inj h
    exact below (place, value) (List.mem_singleton.mpr rfl)
  | node? key place value =>
    obtain ⟨v, hv, rfl⟩ := Option.map_eq_some_iff.mp h
    cases value with
    | none => cases hv
    | some n =>
      obtain rfl := Option.some.inj (show some n.encode = some v from hv)
      exact below (place, n) (by simp [places])
  | list key place values =>
    obtain rfl := Option.some.inj h
    exact Node.plainItems_encodeList fun n hn => below (place, n) (List.mem_map_of_mem hn)
  | list? key place values | modifiers values =>
    obtain ⟨v, hv, rfl⟩ := Option.map_eq_some_iff.mp h
    cases values with
    | none => cases hv
    | some ns =>
      obtain rfl := Option.some.inj (show some (Node.encodeList ns) = some v from hv)
      exact Node.plainItems_encodeList fun n hn => below _ (List.mem_map_of_mem hn)

/-- All numbers in the interchange form are kinds or flags. -/
theorem Node.encode_plain (n : Node) : n.encode.Plain := by
  have below : ∀ c ∈ n.children, c.2.encode.Plain := fun c h => Node.encode_plain c.2
  rw [encode_eq, encodeObject, List.filterMap_map]
  apply Json.plainMembers_of_forall
  intro member hm
  rcases List.mem_cons.mp hm with rfl | hm
  · have := n.kind.code_lt
    exact Json.plain_nat (by rw [Kind.count] at this; omega)
  · obtain ⟨p, hp, h⟩ := List.mem_filterMap.mp hm
    exact Part.plain_of_encoded (fun c hc => below c (List.mem_flatMap.mpr ⟨p, hp, hc⟩)) h
termination_by sizeOf n
decreasing_by exact sizeOf_child h

theorem Node.canonicalItems_encodeList (ns : List Node) :
    Json.canonicalItems (encodeList ns) = ns.map toValue := by
  induction ns with
  | nil => rfl
  | cons n ns ih => exact congrArg (n.toValue :: ·) ih

theorem Part.value?_list (key : String) (place : Target) (ns : List Node) :
    (Part.list key place ns).value? = some (.array (ns.map Node.toValue)) := by
  show some (Json.array (Node.encodeList ns)).canonical = _
  rw [Json.canonical, Node.canonicalItems_encodeList]

theorem Reader.list_map {read : Reader Node} {ns : List Node}
    (h : ∀ n ∈ ns, read n.toValue = .ok n) :
    Reader.list read (.array (ns.map Node.toValue)) = .ok ns := by
  rw [Reader.list]
  induction ns with
  | nil => rfl
  | cons n ns ih =>
    have others := ih fun m hm => h m (List.mem_cons_of_mem n hm)
    rw [List.map_cons, List.mapM_cons, h n (by simp), others]
    rfl

namespace Members

theorem ofObject_required {α : Type} {key : String} {read : Reader α} {a : α}
    {members : List (String × Json)} {v : Json} (found : members.lookup key = some v)
    (h : read v = .ok a) : (required key read).ofObject members = .ok a := by
  simp only [required, field, found, h, Except.mapError]

theorem ofObject_defaulted {α : Type} {key : String} {read : Reader α} {a d : α}
    {members : List (String × Json)} {v : Json} (found : members.lookup key = some v)
    (h : read v = .ok a) : (defaulted key d read).ofObject members = .ok a := by
  simp only [defaulted, field, found, h, Except.mapError]

theorem ofObject_optional_none {α : Type} {key : String} {read : Reader α}
    {members : List (String × Json)} (absent : members.lookup key = none) :
    (optional key read).ofObject members = .ok none := by
  simp only [optional, field, absent]

theorem ofObject_optional_some {α : Type} {key : String} {read : Reader α} {a : α}
    {members : List (String × Json)} {v : Json} (found : members.lookup key = some v)
    (present : v ≠ .null) (h : read v = .ok a) :
    (optional key read).ofObject members = .ok (some a) := by
  have some_read : Reader.nullable read v = .ok (some a) := by
    rw [Reader.nullable, h]
    · rfl
    · exact present
  simp only [optional, field, found, some_read, Except.mapError]

theorem ofObject_pure {α : Type} (a : α) (members : List (String × Json)) :
    (pure a : Members α).ofObject members = .ok a := rfl

theorem ofObject_seq {α β : Type} {f : Members (α → β)} {x : Members α} {g : α → β} {a : α}
    {members : List (String × Json)} (hf : f.ofObject members = .ok g)
    (hx : x.ofObject members = .ok a) : (f <*> x).ofObject members = .ok (g a) := by
  show (Members.seq f x).ofObject members = _
  simp only [Members.seq, hf, hx]

theorem ofObject_map {α β : Type} (g : α → β) {x : Members α} {a : α}
    {members : List (String × Json)} (hx : x.ofObject members = .ok a) :
    (g <$> x).ofObject members = .ok (g a) :=
  ofObject_seq (ofObject_pure g members) hx

end Members

namespace Part

open Members

/-- The description of a part finds it in the members of an object. -/
def Found (read : Target → Reader Node) (members : List (String × Json)) : Part → Prop
  | .text key value => (required key Reader.text).ofObject members = .ok value
  | .text? key value => (optional key Reader.text).ofObject members = .ok value
  | .flag key value => (defaulted key false Reader.flag).ofObject members = .ok value
  | .bits key value => (defaulted key 0 Reader.bits).ofObject members = .ok value
  | .operator key value => (required key Shape.readOperator).ofObject members = .ok value
  | .node key place value => (required key (read place)).ofObject members = .ok value
  | .node? key place value => (optional key (read place)).ofObject members = .ok value
  | .list key place values =>
    (required key (Reader.list (read place))).ofObject members = .ok values
  | .list? key place values =>
    (optional key (Reader.list (read place))).ofObject members = .ok values
  | .modifiers values =>
    (optional "Modifiers" (Shape.readModifiers (read (.shape .token)))).ofObject members =
      .ok values

variable {read : Target → Reader Node} {members : List (String × Json)}

theorem readModifiers_map {ns : List Node} (keywords : ∀ n ∈ ns, n.kind.isModifier = true)
    (h : ∀ n ∈ ns, read (.shape .token) n.toValue = .ok n) :
    Shape.readModifiers (read (.shape .token)) (.array (ns.map Node.toValue)) = .ok ns := by
  have none_other : (ns.find? fun m => !m.kind.isModifier) = none := by
    rw [List.find?_eq_none]
    intro n hn
    simp [keywords n hn]
  simp only [Shape.readModifiers, Reader.list_map h, bind, Except.bind, none_other, pure,
    Except.pure]

theorem word_code (k : Kind) : Reader.kind (.number (.integer k.code)) = .ok k := by
  have small : k.code < Nat.pow 2 16 := Nat.lt_of_lt_of_le k.code_lt (by decide)
  have code : Reader.word 16 (.number (.integer k.code)) = .ok k.code := by
    simp [Reader.word, small]
  simp only [Reader.kind, code, bind, Except.bind, k.ofCode?_code, pure, Except.pure]

theorem readOperator_code {k : Kind} (h : k.isTypeOperator = true) :
    Shape.readOperator (.number (.integer k.code)) = .ok k := by
  rw [Shape.readOperator, word_code]
  show (if k.isTypeOperator then pure k else throw _ : Except Issue Kind) = .ok k
  rw [if_pos h]
  rfl

theorem bits_toNat (value : UInt32) :
    Reader.bits (.number (.integer value.toNat)) = .ok value := by
  have small : value.toNat < Nat.pow 2 32 := value.toNat_lt
  have word : Reader.word 32 (.number (.integer value.toNat)) = .ok value.toNat := by
    simp [Reader.word, small]
  rw [Reader.bits, word]
  show Except.ok (UInt32.ofNat value.toNat) = _
  rw [UInt32.ofNat_toNat]

/-- A part is found where its value stands, if the nodes in it read back. -/
theorem found {p : Part} (lookup : members.lookup p.key = p.value?) (admitted : p.Admitted)
    (below : ∀ c ∈ p.places, read c.1 c.2.toValue = .ok c.2) : p.Found read members := by
  cases p with
  | text key value => exact ofObject_required lookup rfl
  | text? key value =>
    cases value with
    | none => exact ofObject_optional_none lookup
    | some s => exact ofObject_optional_some lookup Json.noConfusion rfl
  | flag key value => exact ofObject_defaulted lookup rfl
  | bits key value => exact ofObject_defaulted lookup (bits_toNat value)
  | operator key value => exact ofObject_required lookup (readOperator_code admitted)
  | node key place value =>
    exact ofObject_required lookup (below (place, value) (List.mem_singleton.mpr rfl))
  | node? key place value =>
    cases value with
    | none => exact ofObject_optional_none lookup
    | some n =>
      refine ofObject_optional_some lookup ?_ (below (place, n) (by simp [places]))
      show n.toValue ≠ .null
      rw [n.toValue_eq]
      exact Json.noConfusion
  | list key place values =>
    refine ofObject_required (lookup.trans (value?_list key place values)) ?_
    exact Reader.list_map fun n hn => below (place, n) (List.mem_map_of_mem hn)
  | list? key place values =>
    cases values with
    | none => exact ofObject_optional_none lookup
    | some ns =>
      refine ofObject_optional_some (lookup.trans (value?_list key place ns)) Json.noConfusion ?_
      exact Reader.list_map fun n hn => below (place, n) (List.mem_map_of_mem hn)
  | modifiers values =>
    cases values with
    | none => exact ofObject_optional_none lookup
    | some ns =>
      refine ofObject_optional_some
        (lookup.trans (value?_list "Modifiers" (.shape .token) ns)) Json.noConfusion ?_
      exact readModifiers_map admitted fun n hn =>
        below (.shape .token, n) (List.mem_map_of_mem hn)

/-- The nodes of a part nest at most as deep as its value. -/
theorem depth_place {p : Part} {c : Target × Node} (h : c ∈ p.places) :
    ∃ v, p.value? = some v ∧ c.2.toValue.depth ≤ v.depth := by
  cases p with
  | node key place value =>
    rw [places, List.mem_singleton] at h
    subst h
    exact ⟨value.toValue, rfl, Nat.le_refl _⟩
  | node? key place value =>
    obtain ⟨n, hn, rfl⟩ := List.mem_map.mp h
    obtain rfl := Option.mem_toList.mp hn
    exact ⟨n.toValue, rfl, Nat.le_refl _⟩
  | list key place values =>
    obtain ⟨n, hn, rfl⟩ := List.mem_map.mp h
    exact ⟨_, value?_list key place values,
      Nat.le_of_lt (Json.depth_lt_of_mem (List.mem_map_of_mem hn))⟩
  | list? key place values | modifiers values =>
    obtain ⟨n, hn, rfl⟩ := List.mem_map.mp h
    cases values with
    | none => simp at hn
    | some ns =>
      exact ⟨_, value?_list "" (.shape .token) ns,
        Nat.le_of_lt (Json.depth_lt_of_mem (List.mem_map_of_mem hn))⟩
  | _ => simp [places] at h

end Part

open Members in
/-- The description of a shape makes a node out of its parts, given its kind. -/
theorem Shape.ofObject_body {read : Target → Reader Node} {members : List (String × Json)}
    (n : Node) (h : ∀ p ∈ n.parts, p.Found read members) :
    ∃ make, (n.shape.body read).ofObject members = .ok make ∧ make n.kind = n := by
  cases n <;> simp only [Node.parts, List.forall_mem_cons, List.not_mem_nil, false_imp_iff,
    implies_true, and_true, Part.Found] at h
  -- the shapes are grouped by the number of their parts
  case token | keywordType => exact ⟨_, ofObject_pure _ _, rfl⟩
  case thisType => exact ⟨_, ofObject_map _ (ofObject_pure _ _), rfl⟩
  case stringLiteral | numericLiteral | typeLiteral | arrayType | tupleType | optionalType
      | restType | unionType | intersectionType | parenthesizedType | literalType
      | heritageClause | moduleBlock | namespaceImport | namedImports | namedExports
      | namespaceExportDeclaration | sourceFile =>
    exact ⟨_, ofObject_map _ (ofObject_map _ h), rfl⟩
  case identifier | qualifiedName | typeReference | typeQuery | typeOperator | indexedAccessType
      | expressionWithTypeArguments | enumMember | variableStatement | variableDeclarationList
      | variableDeclaration | importDeclaration | exportAssignment =>
    obtain ⟨h1, h2⟩ := h
    exact ⟨_, ofObject_map _ (ofObject_seq (ofObject_map _ h1) h2), rfl⟩
  case typePredicate | functionType | typeParameter | callSignature | constructSignature
      | indexSignature | constructorDeclaration | enumDeclaration | importClause
      | importSpecifier | exportDeclaration | exportSpecifier =>
    obtain ⟨h1, h2, h3⟩ := h
    exact ⟨_, ofObject_map _ (ofObject_seq (ofObject_seq (ofObject_map _ h1) h2) h3), rfl⟩
  case constructorType | namedTupleMember | propertySignature | propertyDeclaration
      | typeAliasDeclaration | moduleDeclaration =>
    obtain ⟨h1, h2, h3, h4⟩ := h
    exact ⟨_, ofObject_map _ (ofObject_seq (ofObject_seq (ofObject_seq (ofObject_map _ h1) h2) h3)
      h4), rfl⟩
  case mappedType | parameter | methodSignature | interfaceDeclaration | classDeclaration
      | functionDeclaration =>
    obtain ⟨h1, h2, h3, h4, h5⟩ := h
    exact ⟨_, ofObject_map _ (ofObject_seq (ofObject_seq (ofObject_seq (ofObject_seq
      (ofObject_map _ h1) h2) h3) h4) h5), rfl⟩
  case methodDeclaration =>
    obtain ⟨h1, h2, h3, h4, h5, h6⟩ := h
    exact ⟨_, ofObject_map _ (ofObject_seq (ofObject_seq (ofObject_seq (ofObject_seq (ofObject_seq
      (ofObject_map _ h1) h2) h3) h4) h5) h6), rfl⟩

theorem Shape.ofObject_kindMember {n : Node} (h : n.shape.accepts n.kind = true) :
    n.shape.kindMember.ofObject n.valueMembers = .ok n.kind := by
  refine Members.ofObject_required n.lookup_kind ?_
  rw [Part.word_code]
  show (if n.shape.accepts n.kind then pure n.kind else throw _ : Except Issue Kind) = .ok n.kind
  rw [if_pos h]
  rfl

section

variable {t : Target} {v : Json} {k : Kind}

theorem decodeKind_eq (stated : readKind v = .ok k) : decodeKind v = .ok k := by
  rw [decodeKind, stated]

theorem decode_of_accepts (stated : readKind v = .ok k) (accepted : t.accepts k = true) :
    decode t v = (readNode (v.depth + 1) t v).mapError .content := by
  rw [decode, decodeKind_eq stated]
  exact if_pos accepted

end

/-- The kind that a value states decides the shape of what is read from it. -/
theorem Target.shapeOf_eq {t : Target} {v : Json} {s : Shape} {k : Kind} (mem : s ∈ t.shapes)
    (accepted : s.accepts k = true) (stated : readKind v = .ok k) : t.shapeOf v = .ok s := by
  cases t with
  | shape r => rw [Target.shapeOf, List.mem_singleton.mp mem]
  | category c =>
    simp only [Target.shapeOf, stated, bind, Except.bind, Category.shape?_eq mem accepted, pure,
      Except.pure]

namespace Node

theorem readKind_toValue (n : Node) : readKind n.toValue = .ok n.kind := by
  rw [toValue_eq, readKind, Json.member?, n.lookup_kind]
  simp [n.kind.ofCode?_code]

theorem shapeOf_toValue {t : Target} {n : Node} (h : n.Admitted t) :
    t.shapeOf n.toValue = .ok n.shape :=
  Target.shapeOf_eq h.shape_mem h.kind_accepted n.readKind_toValue

/-- The nodes below a node nest less deep. -/
theorem depth_child {n : Node} {c : Target × Node} (h : c ∈ n.children) :
    c.2.toValue.depth < n.toValue.depth := by
  obtain ⟨p, hp, hc⟩ := List.mem_flatMap.mp h
  obtain ⟨v, hv, deep⟩ := Part.depth_place hc
  have found := n.lookup_part hp
  rw [hv] at found
  rw [n.toValue_eq]
  exact Nat.lt_of_le_of_lt deep (Json.depth_lt_of_lookup found)

/-- A well-kinded tree reads back from its value, given enough levels. -/
theorem readNode_toValue {t : Target} {n : Node} (h : n.WellKinded t) :
    ∀ levels, n.toValue.depth ≤ levels → readNode levels t n.toValue = .ok n := by
  induction h with
  | @intro t n here below ih =>
    intro levels enough
    cases levels with
    | zero =>
      rw [toValue_eq, Json.depth] at enough
      omega
    | succ levels =>
      have parts : ∀ p ∈ n.parts, p.Found (readNode levels) n.valueMembers := by
        intro p hp
        refine Part.found (n.lookup_part hp) (here.parts_admitted p hp) ?_
        intro c hc
        have child : c ∈ n.children := List.mem_flatMap.mpr ⟨p, hp, hc⟩
        have smaller := depth_child child
        exact ih c child levels (by omega)
      obtain ⟨make, body, made⟩ := Shape.ofObject_body n parts
      have whole : (n.shape.members (readNode levels)).ofObject n.valueMembers = .ok n := by
        have := Members.ofObject_seq
          (Members.ofObject_map (fun k (make : Kind → Node) => make k)
            (Shape.ofObject_kindMember here.kind_accepted)) body
        rw [Shape.members, this, made]
      rw [readNode, shapeOf_toValue here]
      show (n.shape.members (readNode levels)).read n.shape.name n.toValue = .ok n
      rw [toValue_eq, Members.read, whole]
      rfl

theorem decode_of_wellKinded {t : Target} {n : Node} (h : n.WellKinded t) :
    decode t n.toValue = .ok n := by
  obtain ⟨here, below⟩ := h
  have read := readNode_toValue ⟨here, below⟩ (n.toValue.depth + 1) (Nat.le_succ _)
  rw [decode_of_accepts n.readKind_toValue here.accepts, read]
  rfl

/-- A text that shows a well-kinded tree is decoded unless it nests too deep. -/
theorem decodeText_of_wellKinded {t : Target} {n : Node} (h : n.WellKinded t) {text : String}
    (parsed : Json.parse? text = some n.toValue)
    (nesting : Json.nestingDepth text = n.encode.depth) :
    decodeText t text = if maxNesting < n.encode.depth then .error .tooDeep else .ok n := by
  rw [decodeText, parsed, nesting]
  split
  · rfl
  · exact decode_of_wellKinded h

theorem decodeText_toText {t : Target} {n : Node} (h : n.WellKinded t) :
    decodeText t n.toText = if maxNesting < n.encode.depth then .error .tooDeep else .ok n :=
  decodeText_of_wellKinded h (Json.parse?_compress _ n.encode_plain)
    (Json.nestingDepth_compress _ n.encode_plain)

theorem decodeText_toPrettyText {t : Target} {n : Node} (h : n.WellKinded t) :
    decodeText t n.toPrettyText = if maxNesting < n.encode.depth then .error .tooDeep else .ok n :=
  decodeText_of_wellKinded h (Json.parse?_pretty _ n.encode_plain)
    (Json.nestingDepth_pretty _ n.encode_plain)

/-- Decoding undoes encoding, for every target and every well-kinded tree: as a value, and as
either text unless the tree nests too deep. -/
theorem decode_encode (t : Target) (n : Node) (h : n.WellKinded t) :
    decode t n.toValue = .ok n ∧
    Json.parse? n.toText = some n.toValue ∧ Json.parse? n.toPrettyText = some n.toValue ∧
    (n.encode.depth ≤ maxNesting →
      decodeText t n.toText = .ok n ∧ decodeText t n.toPrettyText = .ok n) ∧
    (maxNesting < n.encode.depth →
      decodeText t n.toText = .error .tooDeep ∧ decodeText t n.toPrettyText = .error .tooDeep) := by
  refine ⟨decode_of_wellKinded h, Json.parse?_compress _ n.encode_plain,
    Json.parse?_pretty _ n.encode_plain, ?_, ?_⟩
  · intro shallow
    rw [decodeText_toText h, decodeText_toPrettyText h, if_neg (Nat.not_lt.mpr shallow)]
    exact ⟨rfl, rfl⟩
  · intro deep
    rw [decodeText_toText h, decodeText_toPrettyText h, if_pos deep]
    exact ⟨rfl, rfl⟩

/-- A tree with a quote in a name, a modifier, an operator and an absent list. -/
def sampleAlias : Node :=
  .typeAliasDeclaration (some [.token .exportKeyword]) (.identifier "a\"b" (some "\n\\"))
    none (.typeOperator .keyOfKeyword (.keywordType .anyKeyword))

theorem sampleAlias_wellKinded : sampleAlias.WellKinded (.category .statement) := by
  have leaf {t : Target} {n : Node} (h : n.Admitted t) (none_below : n.children = []) :
      n.WellKinded t := ⟨h, by simp [none_below]⟩
  have modifier : WellKinded (.shape .token) (.token .exportKeyword) :=
    leaf ⟨by decide, by decide, by simp [parts]⟩ rfl
  have name : WellKinded (.shape .identifier) (.identifier "a\"b" (some "\n\\")) :=
    leaf ⟨by decide, by decide, by simp [parts, Part.Admitted]⟩ rfl
  have operand : WellKinded (.category .type) (.keywordType .anyKeyword) :=
    leaf ⟨by decide, by decide, by simp [parts]⟩ rfl
  have operator : WellKinded (.category .type)
      (.typeOperator .keyOfKeyword (.keywordType .anyKeyword)) :=
    ⟨⟨by decide, by decide, by simp [parts, Part.Admitted]; decide⟩,
      List.forall_mem_singleton.mpr operand⟩
  exact ⟨⟨by decide, by decide, by simp [sampleAlias, parts, Part.Admitted]; decide⟩,
    List.forall_mem_cons.mpr ⟨modifier, List.forall_mem_cons.mpr ⟨name,
      List.forall_mem_singleton.mpr operator⟩⟩⟩

theorem decode_encode_sampleAlias : sampleAlias.WellKinded (.category .statement) ∧
    decodeText (.category .statement) sampleAlias.toPrettyText = .ok sampleAlias := by
  refine ⟨sampleAlias_wellKinded, ?_⟩
  have shallow : sampleAlias.encode.depth ≤ maxNesting := by decide
  exact ((decode_encode _ _ sampleAlias_wellKinded).2.2.2.1 shallow).2

end Node

end Ambient
