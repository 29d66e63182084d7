import Ambient.Proofs.Interchange.RoundTrip

namespace Ambient

theorem Reader.list_ok {read : Reader Node} {v : Json} {ns : List Node}
    (h : Reader.list read v = .ok ns) : ∀ n ∈ ns, ∃ w, read w = .ok n := by
  cases v with
  | array items =>
    rw [Reader.list] at h
    induction items generalizing ns with
    | nil =>
      obtain rfl := Except.ok.inj h
      simp
    | cons item items ih =>
      rw [List.mapM_cons] at h
      cases first : read item with
      | error e => rw [first] at h; cases h
      | ok n =>
        cases others : items.mapM read with
        | error e => rw [first, others] at h; cases h
        | ok rest =>
          rw [first, others] at h
          obtain rfl : n :: rest = ns := Except.ok.inj h
          exact List.forall_mem_cons.mpr ⟨⟨item, first⟩, ih others⟩
  | _ => cases h

theorem Reader.nullable_ok {α : Type} {read : Reader α} {v : Json} {x : Option α}
    (h : Reader.nullable read v = .ok x) : ∀ a ∈ x, read v = .ok a := by
  unfold Reader.nullable at h
  split at h
  · obtain rfl := Except.ok.inj h
    simp
  · cases found : read v with
    | error e => rw [found] at h; cases h
    | ok a =>
      rw [found] at h
      obtain rfl := Except.ok.inj h
      simp

namespace Members

variable {α β : Type} {f : Members (α → β)} {x : Members α}

/-- Something can be made of the members of an object or of the items of an array. -/
def Makes (m : Members α) (a : α) : Prop :=
  (∃ members, m.ofObject members = .ok a) ∨
    ∃ expected place items rest, m.ofArray expected place items = .ok (a, rest)

theorem ofObject_of_seq {members : List (String × Json)} {b : β}
    (h : (f <*> x).ofObject members = .ok b) :
    ∃ g a, f.ofObject members = .ok g ∧ x.ofObject members = .ok a ∧ b = g a := by
  change (Members.seq f x).ofObject members = .ok b at h
  unfold Members.seq at h
  cases hf : f.ofObject members <;> cases hx : x.ofObject members <;>
    simp only [hf, hx, reduceCtorEq, Except.ok.injEq] at h
  exact ⟨_, _, rfl, rfl, h.symm⟩

theorem ofArray_of_seq {expected : String} {place : Nat} {items rest : List Json} {b : β}
    (h : (f <*> x).ofArray expected place items = .ok (b, rest)) :
    ∃ g a middle, f.ofArray expected place items = .ok (g, middle) ∧
      x.ofArray expected (place + f.width) middle = .ok (a, rest) ∧ b = g a := by
  change (Members.seq f x).ofArray expected place items = .ok (b, rest) at h
  simp only [Members.seq, bind, Except.bind] at h
  split at h
  · cases h
  · rename_i before hf
    split at h
    · cases h
    · rename_i behind hx
      obtain ⟨rfl, rfl⟩ := Prod.mk.inj (Except.ok.inj h)
      exact ⟨_, _, _, hf, hx, rfl⟩

theorem ofObject_of_required {key : String} {read : Reader α} {members : List (String × Json)}
    {v : Json} {a : α} (found : members.lookup key = some v)
    (h : (required key read).ofObject members = .ok a) : read v = .ok a := by
  simp only [required, field, found] at h
  cases value : read v with
  | error e => rw [value] at h; cases h
  | ok b =>
    rw [value] at h
    obtain rfl : b = a := Except.ok.inj h
    rfl

namespace Makes

theorem pure {a b : α} (h : (Pure.pure a : Members α).Makes b) : b = a := by
  rcases h with ⟨_, h⟩ | ⟨_, _, _, _, h⟩
  · exact (Except.ok.inj h).symm
  · exact (congrArg Prod.fst (Except.ok.inj h)).symm

theorem seq {b : β} (h : (f <*> x).Makes b) : ∃ g a, f.Makes g ∧ x.Makes a ∧ b = g a := by
  rcases h with ⟨members, h⟩ | ⟨_, _, _, _, h⟩
  · obtain ⟨g, a, hf, hx, eq⟩ := ofObject_of_seq h
    exact ⟨g, a, .inl ⟨members, hf⟩, .inl ⟨members, hx⟩, eq⟩
  · obtain ⟨g, a, _, hf, hx, eq⟩ := ofArray_of_seq h
    exact ⟨g, a, .inr ⟨_, _, _, _, hf⟩, .inr ⟨_, _, _, _, hx⟩, eq⟩

theorem map {g : α → β} {b : β} (h : (g <$> x).Makes b) : ∃ a, x.Makes a ∧ b = g a := by
  obtain ⟨g', a, hg, hx, rfl⟩ := seq (f := Pure.pure g) h
  exact ⟨a, hx, by rw [pure hg]⟩

/-- A member was read from a value or is absent. -/
theorem field {key : String} {absent : Option α} {read : Reader α} {a : α}
    (h : (Members.field key absent read).Makes a) : (∃ v, read v = .ok a) ∨ absent = some a := by
  rcases h with ⟨members, h⟩ | ⟨_, _, items, _, h⟩
  · simp only [Members.field] at h
    split at h
    · rename_i v _
      cases found : read v with
      | error e => rw [found] at h; cases h
      | ok b =>
        rw [found] at h
        obtain rfl : b = a := Except.ok.inj h
        exact .inl ⟨v, found⟩
    · split at h
      · exact .inr (congrArg some (Except.ok.inj h))
      · cases h
  · cases items with
    | nil =>
      simp only [Members.field] at h
      split at h
      · exact .inr (congrArg (some ∘ Prod.fst) (Except.ok.inj h))
      · cases h
    | cons v items =>
      simp only [Members.field] at h
      cases found : read v with
      | error e => rw [found] at h; cases h
      | ok b =>
        rw [found] at h
        obtain rfl : b = a := congrArg Prod.fst (Except.ok.inj h)
        exact .inl ⟨v, found⟩

theorem required {key : String} {read : Reader α} {a : α}
    (h : (Members.required key read).Makes a) : ∃ v, read v = .ok a :=
  h.field.resolve_right (by simp)

theorem optional {key : String} {read : Reader α} {x : Option α}
    (h : (Members.optional key read).Makes x) : ∀ a ∈ x, ∃ v, read v = .ok a := by
  intro a ha
  rcases h.field with ⟨v, h⟩ | h
  · exact ⟨v, Reader.nullable_ok h a ha⟩
  · obtain rfl := Option.some.inj h
    cases ha

end Makes

end Members

namespace Part

open Members

/-- The description of a part can give its value. -/
def Made (read : Target → Reader Node) : Part → Prop
  | .text key value => (required key Reader.text).Makes value
  | .text? key value => (optional key Reader.text).Makes value
  | .flag key value => (defaulted key false Reader.flag).Makes value
  | .bits key value => (defaulted key 0 Reader.bits).Makes value
  | .operator key value => (required key Shape.readOperator).Makes value
  | .node key place value => (required key (read place)).Makes value
  | .node? key place value => (optional key (read place)).Makes value
  | .list key place values => (required key (Reader.list (read place))).Makes values
  | .list? key place values => (optional key (Reader.list (read place))).Makes values
  | .modifiers values =>
    (optional "Modifiers" (Shape.readModifiers (read (.shape .token)))).Makes values

theorem readOperator_ok {v : Json} {k : Kind} (h : Shape.readOperator v = .ok k) :
    k.isTypeOperator = true := by
  unfold Shape.readOperator at h
  cases found : Reader.kind v with
  | error e => rw [found] at h; cases h
  | ok l =>
    rw [found] at h
    change (if l.isTypeOperator then Except.ok l else _) = .ok k at h
    split at h
    · rename_i operator
      obtain rfl := Except.ok.inj h
      exact operator
    · cases h

theorem readModifiers_ok {read : Reader Node} {v : Json} {ns : List Node}
    (h : Shape.readModifiers read v = .ok ns) :
    ∀ n ∈ ns, n.kind.isModifier = true ∧ ∃ w, read w = .ok n := by
  unfold Shape.readModifiers at h
  cases found : Reader.list read v with
  | error e => rw [found] at h; cases h
  | ok ms =>
    simp only [found, bind, Except.bind] at h
    split at h
    · cases h
    · rename_i none_other
      obtain rfl : ms = ns := Except.ok.inj h
      have keywords := List.find?_eq_none.mp none_other
      exact fun n hn => ⟨by simpa using keywords n hn, Reader.list_ok found n hn⟩

variable {read : Target → Reader Node}

theorem Made.admitted {p : Part} (h : p.Made read) : p.Admitted := by
  cases p with
  | operator key value =>
    obtain ⟨v, h⟩ := Makes.required h
    exact readOperator_ok h
  | modifiers values =>
    intro m hm
    cases values with
    | none => cases hm
    | some ms =>
      obtain ⟨v, h⟩ := Makes.optional h ms rfl
      exact (readModifiers_ok h m hm).1
  | _ => trivial

/-- The nodes in a part were read from values. -/
theorem Made.places {p : Part} (h : p.Made read) :
    ∀ c ∈ p.places, ∃ v, read c.1 v = .ok c.2 := by
  cases p with
  | node key place value =>
    exact List.forall_mem_singleton.mpr (Makes.required h)
  | node? key place value =>
    refine List.forall_mem_map.mpr fun n hn => ?_
    exact Makes.optional h n (Option.mem_toList.mp hn)
  | list key place values =>
    obtain ⟨v, h⟩ := Makes.required h
    exact List.forall_mem_map.mpr fun n hn => Reader.list_ok h n hn
  | list? key place values =>
    refine List.forall_mem_map.mpr fun n hn => ?_
    cases values with
    | none => cases hn
    | some ns =>
      obtain ⟨v, h⟩ := Makes.optional h ns rfl
      exact Reader.list_ok h n hn
  | modifiers values =>
    refine List.forall_mem_map.mpr fun n hn => ?_
    cases values with
    | none => cases hn
    | some ns =>
      obtain ⟨v, h⟩ := Makes.optional h ns rfl
      exact (readModifiers_ok h n hn).2
  | _ => simp [Part.places]

end Part

open Members in
/-- What the description of a shape makes is of that shape, with parts that can be made. -/
theorem Shape.makes_body {read : Target → Reader Node} {s : Shape} {make : Kind → Node}
    (h : (s.body read).Makes make) {k : Kind} (accepted : s.accepts k = true) :
    (make k).shape = s ∧ (make k).kind = k ∧ ∀ p ∈ (make k).parts, p.Made read := by
  have kind {l : Kind} (only : s.kind? = some l) : l = k := by
    cases s <;> simp_all [accepts, kind?]
  cases s
  case token | keywordType =>
    obtain rfl := Makes.pure h
    exact ⟨rfl, rfl, by simp [Node.parts]⟩
  -- all other shapes have one kind, whatever is read
  all_goals
    obtain ⟨n, made, rfl⟩ := Makes.map h
    have only := kind rfl
    clear h kind accepted
  case thisType =>
    obtain rfl := Makes.pure made
    exact ⟨rfl, only, by simp [Node.parts]⟩
  case stringLiteral | numericLiteral | typeLiteral | arrayType | tupleType | optionalType
      | restType | unionType | intersectionType | parenthesizedType | literalType
      | heritageClause | moduleBlock | namespaceImport | namedImports | namedExports
      | namespaceExportDeclaration | sourceFile =>
    obtain ⟨a, h1, rfl⟩ := Makes.map made
    exact ⟨rfl, only, by simpa [Node.parts, Part.Made] using h1⟩
  all_goals obtain ⟨g, z, b1, hz, rfl⟩ := Makes.seq made
  case identifier | qualifiedName | typeReference | typeQuery | typeOperator | indexedAccessType
      | expressionWithTypeArguments | enumMember | variableStatement | variableDeclarationList
      | variableDeclaration | importDeclaration | exportAssignment =>
    obtain ⟨a, h1, rfl⟩ := Makes.map b1
    exact ⟨rfl, only, by simpa [Node.parts, Part.Made] using ⟨h1, hz⟩⟩
  all_goals obtain ⟨g, y, b2, hy, rfl⟩ := Makes.seq b1
  case typePredicate | functionType | typeParameter | callSignature | constructSignature
      | indexSignature | constructorDeclaration | enumDeclaration | importClause
      | importSpecifier | exportDeclaration | exportSpecifier =>
    obtain ⟨a, h1, rfl⟩ := Makes.map b2
    exact ⟨rfl, only, by simpa [Node.parts, Part.Made] using ⟨h1, hy, hz⟩⟩
  all_goals obtain ⟨g, x, b3, hx, rfl⟩ := Makes.seq b2
  case constructorType | namedTupleMember | propertySignature | propertyDeclaration
      | typeAliasDeclaration | moduleDeclaration =>
    obtain ⟨a, h1, rfl⟩ := Makes.map b3
    exact ⟨rfl, only, by simpa [Node.parts, Part.Made] using ⟨h1, hx, hy, hz⟩⟩
  all_goals obtain ⟨g, w, b4, hw, rfl⟩ := Makes.seq b3
  case mappedType | parameter | methodSignature | interfaceDeclaration | classDeclaration
      | functionDeclaration =>
    obtain ⟨a, h1, rfl⟩ := Makes.map b4
    exact ⟨rfl, only, by simpa [Node.parts, Part.Made] using ⟨h1, hw, hx, hy, hz⟩⟩
  case methodDeclaration =>
    obtain ⟨g, v, b5, hv, rfl⟩ := Makes.seq b4
    obtain ⟨a, h1, rfl⟩ := Makes.map b5
    exact ⟨rfl, only, by simpa [Node.parts, Part.Made] using ⟨h1, hv, hw, hx, hy, hz⟩⟩

theorem Shape.kindMember_ok {s : Shape} {v : Json} {k : Kind}
    (h : (do
      let k ← Reader.kind v
      if s.accepts k then return k else throw (.unexpectedKind k s.name)) = Except.ok k) :
    Reader.kind v = .ok k ∧ s.accepts k = true := by
  cases found : Reader.kind v with
  | error e => rw [found] at h; cases h
  | ok l =>
    rw [found] at h
    change (if s.accepts l then Except.ok l else _) = .ok k at h
    split at h
    · rename_i accepted
      obtain rfl := Except.ok.inj h
      exact ⟨rfl, accepted⟩
    · cases h

theorem Shape.makes_kindMember {s : Shape} {k : Kind} (h : s.kindMember.Makes k) :
    s.accepts k = true := by
  obtain ⟨v, h⟩ := Members.Makes.required h
  exact (kindMember_ok h).2

theorem Members.makes_of_read {α : Type} {m : Members α} {name : String} {v : Json} {a : α}
    (h : m.read name v = .ok a) : m.Makes a := by
  unfold Members.read at h
  split at h
  · rename_i members
    cases found : m.ofObject members with
    | error e => rw [found] at h; cases h
    | ok b =>
      rw [found] at h
      obtain rfl : b = a := Except.ok.inj h
      exact .inl ⟨members, found⟩
  · split at h
    · cases h
    · rename_i found
      obtain rfl := Except.ok.inj h
      exact .inr ⟨_, _, _, _, found⟩
    · cases h
  · cases h

theorem Target.shapeOf_mem {t : Target} {v : Json} {s : Shape} (h : t.shapeOf v = .ok s) :
    s ∈ t.shapes := by
  cases t with
  | shape r =>
    obtain rfl : r = s := Except.ok.inj h
    exact List.mem_singleton.mpr rfl
  | category c =>
    rw [Target.shapeOf] at h
    cases stated : readKind v with
    | error e => rw [stated] at h; cases h
    | ok k =>
      simp only [stated, bind, Except.bind] at h
      split at h
      · rename_i r found
        obtain rfl : r = s := Except.ok.inj h
        obtain ⟨entry, is, rfl⟩ := Option.map_eq_some_iff.mp found
        exact List.mem_map_of_mem (List.mem_of_find?_eq_some is)
      · cases h

theorem Reader.kind_ok {n : Int} {k : Kind} (h : Reader.kind (.number (.integer n)) = .ok k) :
    Kind.ofCode? n.toNat = some k := by
  simp only [Reader.kind, Reader.word] at h
  split at h
  · simp only [bind, Except.bind] at h
    split at h
    · rename_i known
      obtain rfl := Except.ok.inj h
      exact known
    · cases h
  · cases h

/-- The member `Kind` of an object is the kind that the object states. -/
theorem Shape.kind_of_member {s : Shape} {members : List (String × Json)} {k l : Kind}
    (stated : readKind (.object members) = .ok k)
    (read : s.kindMember.ofObject members = .ok l) : l = k := by
  unfold readKind at stated
  split at stated
  · rename_i n found
    have found : members.lookup "Kind" = some (.number (.integer n)) := found
    have code := Reader.kind_ok (kindMember_ok (Members.ofObject_of_required found read)).1
    simp only [code] at stated
    split at stated
    · exact Except.ok.inj stated
    · cases stated
  · cases stated

namespace Node

/-- What is read from any value is well-kinded. -/
theorem wellKinded_of_readNode : ∀ {levels : Nat} {t : Target} {v : Json} {n : Node},
    readNode levels t v = .ok n → n.WellKinded t := by
  intro levels
  induction levels with
  | zero =>
    intro t v n h
    cases h
  | succ levels ih =>
    intro t v n h
    rw [readNode] at h
    cases decided : t.shapeOf v with
    | error e => rw [decided] at h; cases h
    | ok s =>
      rw [decided] at h
      obtain ⟨g, make, first, body, rfl⟩ := (Members.makes_of_read h).seq
      obtain ⟨k, hk, rfl⟩ := first.map
      have accepted := Shape.makes_kindMember hk
      obtain ⟨shape, kind, parts⟩ := Shape.makes_body body accepted
      refine ⟨⟨?_, ?_, fun p hp => (parts p hp).admitted⟩, fun c hc => ?_⟩
      · rw [shape]
        exact Target.shapeOf_mem decided
      · rw [shape, kind]
        exact accepted
      · obtain ⟨p, hp, hc⟩ := List.mem_flatMap.mp hc
        obtain ⟨w, read⟩ := (parts p hp).places c hc
        exact ih read

/-- The kind that a value states is that of the tree read from it. -/
theorem kind_of_readNode {levels : Nat} {t : Target} {v : Json} {n : Node} {k : Kind}
    (stated : readKind v = .ok k) (h : readNode levels t v = .ok n) : n.kind = k := by
  cases levels with
  | zero => cases h
  | succ levels =>
    rw [readNode] at h
    cases decided : t.shapeOf v with
    | error e => rw [decided] at h; cases h
    | ok s =>
      rw [decided] at h
      -- only an object states its kind, so the member `Kind` is read from the same value
      cases v with
      | object members =>
        cases whole : (s.members (readNode levels)).ofObject members with
        | error e => simp [bind, Except.bind, Members.read, whole, Except.mapError] at h
        | ok m =>
          simp only [bind, Except.bind, Members.read, whole, Except.mapError, Except.ok.injEq] at h
          subst h
          obtain ⟨g, make, first, body, rfl⟩ := Members.ofObject_of_seq whole
          obtain ⟨_, l, eq, read, rfl⟩ := Members.ofObject_of_seq (f := pure _) first
          obtain rfl := Except.ok.inj eq
          have accepted := Shape.makes_kindMember (.inl ⟨members, read⟩)
          rw [(Shape.makes_body (.inl ⟨members, body⟩) accepted).2.1]
          exact Shape.kind_of_member stated read
      | _ => cases stated

end Node

end Ambient
