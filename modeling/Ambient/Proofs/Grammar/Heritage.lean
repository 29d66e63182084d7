import Ambient.Proofs.Grammar.Unambiguous
import Mathlib.Logic.Relation

namespace Ambient

namespace Rule.Leads

variable {α : Type} {d : Nat} {s u : Stream}

/-- What is repeated is read item by item. -/
theorem many_chain {item : Rule Nat (Option α)} [Balanced item] {l : List α}
    (h : (Rule.many item).Leads d s l u) :
    Relation.ReflTransGen (fun v w => ∃ x, item.Leads d v x w) s u :=
  many (P := fun _ w => Relation.ReflTransGen (fun v w => ∃ x, item.Leads d v x w) s w)
    (fun _ _ _ _ before step => before.tail ⟨_, step⟩) (fun _ _ _ before step => before.tail ⟨_, step⟩)
    h .refl

/-- If every item that may be read from here is none and stays, then nothing is repeated. -/
theorem many_stays {item : Rule Nat (Option α)} [Balanced item] {l : List α}
    (h : (Rule.many item).Leads d s l u) (stays : ∀ x w, item.Leads d s x w → w = s) : u = s := by
  refine Relation.ReflTransGen.head_induction_on (motive := fun v _ => v = s → u = s)
    (many_chain h) id ?_ rfl
  rintro v w ⟨x, step⟩ - ih rfl
  exact ih (stays x w step)

end Rule.Leads

namespace Grammar

open Rule

variable {type : Rule Nat Node} [Balanced type] {d : Nat} {s u v w : Stream} {n : Node}

/-- The types behind `extends` or `implements`, if one of them stands here. -/
abbrev heritageTypes (type : Rule Nat Node) : Rule Nat (Option (List Node)) := do
  if ← acceptHeritage then some <$> delimited .openBraceToken false (heritageType type)
  else return none

/-- From here heritage is read up to a brace. -/
def HeritageTail (type : Rule Nat Node) (d : Nat) (s : Stream) : Prop :=
  ∃ v, Relation.ReflTransGen (fun v w => ∃ x, (heritageTypes type).Leads d v x w) s v ∧
    v.current.kind = .openBraceToken

/-- From here types with commas between them are read, and heritage behind them. -/
def NamesTail (type : Rule Nat Node) (d : Nat) (s : Stream) : Prop :=
  ∃ l w, (delimited .openBraceToken false (heritageType type)).Leads d s l w ∧ HeritageTail type d w

theorem acceptHeritage_leads {found : Bool} (h : acceptHeritage.Leads d s found u) :
    (found = true ∧ (s.current.kind = .extendsKeyword ∨ s.current.kind = .implementsKeyword) ∧
      u = s.next) ∨ (found = false ∧ s = u) := by
  obtain ⟨first, v, h1, h⟩ := h.bind
  rcases h1.accept with ⟨rfl, is, rfl⟩ | ⟨rfl, -, rfl⟩
  · obtain ⟨rfl, rfl⟩ := h.of_true.pure
    exact .inl ⟨rfl, .inl is, rfl⟩
  · rcases h.of_false.accept with ⟨rfl, is, rfl⟩ | ⟨rfl, -, rfl⟩
    · exact .inl ⟨rfl, .inr is, rfl⟩
    · exact .inr ⟨rfl, rfl⟩

theorem heritageTypes_leads {x : Option (List Node)} (h : (heritageTypes type).Leads d s x u) :
    ((s.current.kind = .extendsKeyword ∨ s.current.kind = .implementsKeyword) ∧
      ∃ l, (delimited .openBraceToken false (heritageType type)).Leads d s.next l u) ∨ s = u := by
  obtain ⟨found, v, h1, h⟩ := h.bind
  rcases acceptHeritage_leads h1 with ⟨rfl, is, rfl⟩ | ⟨rfl, rfl⟩
  · obtain ⟨l, read, -⟩ := h.of_true.map
    exact .inl ⟨is, l, read⟩
  · exact .inr h.of_false.pure.2

/-- Heritage starts with a keyword that goes on with names, or there is none before the brace. -/
theorem HeritageTail.cases (h : HeritageTail type d s) : s.current.kind = .openBraceToken ∨
    (s.current.kind = .extendsKeyword ∨ s.current.kind = .implementsKeyword) ∧
      NamesTail type d s.next := by
  obtain ⟨v, chain, brace⟩ := h
  induction chain using Relation.ReflTransGen.head_induction_on with
  | refl => exact .inl brace
  | head step rest ih =>
    obtain ⟨x, step⟩ := step
    rcases heritageTypes_leads step with ⟨is, l, read⟩ | rfl
    · exact .inr ⟨is, l, _, read, v, rest, brace⟩
    · exact ih

theorem NamesTail.starts (h : NamesTail type d s) : s.current.kind.isName = true := by
  obtain ⟨l, w, read, -⟩ := h
  obtain ⟨first, v, read, -⟩ := read.bind
  obtain ⟨expression, v, name, -⟩ := read.bind
  exact entityName_starts name

/-- Behind a name that stands before another one heritage goes on. -/
theorem NamesTail.tail (h : NamesTail type d s) (name : s.next.current.kind.isName = true) :
    HeritageTail type d s.next := by
  obtain ⟨l, w, read, tail⟩ := h
  have ne {k : Kind} (other : k.isName = false) : s.next.current.kind ≠ k :=
    Kind.ne_of_class name other
  obtain ⟨first, v, h1, read⟩ := read.bind
  obtain ⟨expression, v', h2, h1⟩ := h1.bind
  obtain rfl := entityName_stops h2 (ne rfl)
  obtain ⟨arguments, v'', h3, h1⟩ := h1.bind
  obtain ⟨is, rfl⟩ := h3.atKind
  have still : v = s.next := by
    rcases h1.ite with ⟨found, -⟩ | ⟨-, h1⟩
    · exact absurd (of_decide_eq_true (is ▸ found)) (ne rfl)
    · exact h1.pure.2.symm
  subst still
  obtain ⟨others, v, h4, read⟩ := read.bind
  obtain ⟨-, rfl⟩ := read.pure
  have still : v = s.next := h4.many_stays fun x w step => by
    obtain ⟨found, v, comma, step⟩ := step.bind
    rcases comma.accept with ⟨-, is, -⟩ | ⟨rfl, -, rfl⟩
    · exact absurd is (ne rfl)
    · exact step.of_false.pure.2.symm
  exact still ▸ tail

/-- An interface from its name on. -/
abbrev interfaceRest (comment : Option String) (ms : Option (List Node)) : Rule Nat Node := do
  let declared ← name comment
  let typeParameters ← typeParameters Grammar.type
  let heritage ← heritage Grammar.type
  return .interfaceDeclaration ms declared typeParameters heritage (← typeMembers Grammar.type)

theorem interfaceRest_leads {comment : Option String} {ms : Option (List Node)}
    (h : (interfaceRest comment ms).Leads d s n u) : s.current.kind.isName = true ∧
      (s.next.current.kind = .lessThanToken ∨ HeritageTail Grammar.type d s.next) ∧
      (s.next.current.kind = .openBraceToken → ∃ l, (typeMembers Grammar.type).Leads d s.next l u) := by
  obtain ⟨declared, s1, h1, h⟩ := h.bind
  obtain ⟨named, rfl, -⟩ := identifierOf_word h1
  obtain ⟨tps, s2, h2, h⟩ := h.bind
  obtain ⟨heritage, s3, h3, h⟩ := h.bind
  obtain ⟨members, s4, h4, h⟩ := h.bind
  obtain ⟨-, rfl⟩ := h.pure
  obtain ⟨lists, s5, h5, h3⟩ := h3.bind
  obtain ⟨-, rfl⟩ := h3.pure
  obtain ⟨_, s6, h6, -⟩ := h4.bind
  rcases h2.optionalAfter with ⟨_, -, less, -⟩ | ⟨-, rfl⟩
  · refine ⟨named, .inl less, fun brace => ?_⟩
    rw [less] at brace
    cases brace
  · refine ⟨named, .inr ⟨_, h5.many_chain, h6.expect.1⟩, fun brace => ?_⟩
    obtain rfl : s5 = s.next := h5.many_stays fun x w step => by
      rcases heritageTypes_leads step with ⟨is, -⟩ | rfl
      · rcases is with is | is <;> rw [is] at brace <;> cases brace
      · rfl
    exact ⟨members, h4⟩

/-- The tokens that stand behind the name of an interface. -/
def behindInterfaceName : List Kind :=
  [.lessThanToken, .extendsKeyword, .implementsKeyword, .openBraceToken]

/-- The tokens that stand behind other declared names. -/
def behindName : List Kind :=
  [.lessThanToken, .equalsToken, .colonToken, .dotToken, .openBraceToken]

/-- Where the token behind the first one is neither a modifier nor a keyword, the keyword stands
first. -/
theorem keyword_first {allowed kws ks : List Kind} (read : ModifiersRead allowed s ks v)
    (keyword : v.current.kind ∈ kws)
    (apart : ∀ k ∈ behindInterfaceName, k ∉ allowed ∧ k ∉ kws)
    (next : s.next.current.kind ∈ behindInterfaceName) : s = v := by
  obtain ⟨no_modifier, no_keyword⟩ := apart _ next
  cases read with
  | nil => rfl
  | cons _ _ others =>
    cases others with
    | nil => exact absurd keyword no_keyword
    | cons mem _ _ => exact absurd mem no_modifier

theorem implements_of_name {k : Kind} (mem : k ∈ behindInterfaceName) (name : k.isName = true) :
    k = .implementsKeyword := by
  simp only [behindInterfaceName, List.mem_cons, List.not_mem_nil, or_false] at mem
  rcases mem with rfl | rfl | rfl | rfl
  · exact absurd name (by decide)
  · exact absurd name (by decide)
  · rfl
  · exact absurd name (by decide)

theorem canFollowModifier_of_isName {k : Kind} (h : k.isName = true) : canFollowModifier k = true := by
  simp [canFollowModifier, Kind.isMemberName_of_isName h]

theorem importBindings_starts (h : importBindings.Leads d s n u) :
    s.current.kind = .asteriskToken ∨ s.current.kind = .openBraceToken := by
  obtain ⟨all, s1, h1, h⟩ := h.bind
  rcases h1.accept with ⟨-, is, -⟩ | ⟨rfl, -, rfl⟩
  · exact .inl is
  · obtain ⟨elements, s2, h2, -⟩ := h.of_false.bind
    obtain ⟨_, s3, h3, -⟩ := h2.bind
    exact .inr h3.expect.1

theorem importClause_starts (h : importClause.Leads d s n u) :
    canFollowModifier s.current.kind = true := by
  have mark {v w : Stream} {m : Node} (h : importBindings.Leads d v m w) :
      canFollowModifier v.current.kind = true := by
    rcases importBindings_starts h with is | is <;> rw [is] <;> decide
  obtain ⟨typed, s1, h1, h⟩ := h.bind
  rcases acceptTypeOnly_leads h1 with ⟨is, -, -⟩ | rfl
  · rw [is]
    decide
  · obtain ⟨_, _, here, h⟩ := h.bind
    obtain ⟨rfl, rfl⟩ := here.current
    rcases h.ite with ⟨named, -⟩ | ⟨-, h⟩
    · exact canFollowModifier_of_isName (Bool.and_eq_true_iff.mp named).1
    · obtain ⟨bindings, s2, h2, -⟩ := h.bind
      exact mark h2

theorem importDeclaration_next (h : importDeclaration.Leads d s n u) :
    s.current.kind = .importKeyword ∧ canFollowModifier s.next.current.kind = true := by
  obtain ⟨_, s1, h1, h⟩ := h.bind
  obtain ⟨is, rfl⟩ := h1.expect
  refine ⟨is, ?_⟩
  obtain ⟨quoted, s2, h2, h⟩ := h.bind
  obtain ⟨rfl, rfl⟩ := h2.atKind
  rcases h.ite with ⟨string, -⟩ | ⟨-, h⟩
  · rw [of_decide_eq_true string]
    decide
  · obtain ⟨clause, s3, h3, -⟩ := h.bind
    exact importClause_starts h3

theorem exportDeclaration_next (h : exportDeclaration.Leads d s n u) :
    s.current.kind = .exportKeyword ∧ canFollowModifier s.next.current.kind = true := by
  obtain ⟨_, s1, h1, h⟩ := h.bind
  obtain ⟨is, rfl⟩ := h1.expect
  refine ⟨is, ?_⟩
  obtain ⟨typed, s2, h2, h⟩ := h.bind
  rcases acceptTypeOnly_leads h2 with ⟨word, -, -⟩ | rfl
  · rw [word]
    decide
  · obtain ⟨all, s3, h3, h⟩ := h.bind
    rcases h3.accept with ⟨-, mark, -⟩ | ⟨rfl, -, rfl⟩
    · rw [mark]
      decide
    · obtain ⟨elements, s4, h4, -⟩ := h.of_false.bind
      obtain ⟨_, s5, h5, -⟩ := h4.bind
      rw [h5.expect.1]
      decide

variable {statement : Rule Nat Node} [Balanced statement]

/-- A namespace goes on behind its name with a dot or with a block. -/
theorem namespaceWithin_starts {budget : Budget} {flags : UInt32} {ms : Option (List Node)}
    {comment : Option String} (h : Leads (namespaceWithin statement budget flags ms comment) d s n u) :
    s.current.kind.isName = true ∧ s.next.current.kind ∈ behindName := by
  cases budget with
  | nil => exact (Leads.failHere h).elim
  | cons _ budget =>
    obtain ⟨o, depth, left, h⟩ := h
    simp only [namespaceWithin] at h
    obtain ⟨declared, s1, h1, h⟩ := Leads.bind ⟨o, depth, left, h⟩
    obtain ⟨named, rfl, -⟩ := identifierOf_word h1
    obtain ⟨found, s2, h2, h⟩ := h.bind
    rcases h2.accept with ⟨-, dot, -⟩ | ⟨rfl, -, rfl⟩
    · exact ⟨named, by rw [dot]; decide⟩
    · obtain ⟨block, s3, h3, -⟩ := h.of_false.bind
      exact ⟨named, by rw [moduleBlock_open h3]; decide⟩

/-- A statement starts with a name and then what stands behind the name of an interface, and it takes
that word for a name: the word is `implements`, and behind it the statement goes on. -/
def TakesImplements (d : Nat) (s : Stream) : Prop :=
  s.next.current.kind = .implementsKeyword ∧
    (s.next.next.current.kind ∈ behindName ∨ HeritageTail Grammar.type d s.next.next)

theorem TakesImplements.of_name (next : s.next.current.kind ∈ behindInterfaceName)
    (named : s.next.current.kind.isName = true) (behind : s.next.next.current.kind ∈ behindName) :
    TakesImplements d s :=
  ⟨implements_of_name next named, .inl behind⟩

section

variable (next : s.next.current.kind ∈ behindInterfaceName)
include next

/-- A declaration starts with its own keyword. -/
theorem declaration_at_name {allowed : List Kind} {k : Kind}
    {rest : Option String × Option (List Node) → Rule Nat Node}
    (h : (declarationHead allowed >>= fun head => expect k >>= fun _ => rest head).Leads d s n u)
    (apart : ∀ l ∈ behindInterfaceName, l ∉ allowed ∧ l ∉ [k]) :
    s.current.kind = k ∧ ∃ head, (rest head).Leads d s.next n u := by
  obtain ⟨head, ks, v, read, keyword, h⟩ := declaration_leads h
  obtain rfl := keyword_first read (List.mem_singleton.mpr keyword) apart next
  exact ⟨keyword, head, h⟩

theorem interfaceDeclaration_at_name (h : interfaceDeclaration.Leads d s n u) :
    TakesImplements d s := by
  obtain ⟨-, head, h⟩ := declaration_at_name next h (by decide)
  have rest : (interfaceRest head.1 head.2).Leads _ _ _ _ := h
  obtain ⟨named, behind, -⟩ := interfaceRest_leads rest
  refine ⟨implements_of_name next named, behind.imp_left fun less => ?_⟩
  rw [less]
  decide

theorem typeAlias_at_name (h : typeAlias.Leads d s n u) : TakesImplements d s := by
  obtain ⟨ks, v, read, keyword, named, behind⟩ := typeAlias_leads h
  obtain rfl := keyword_first read (List.mem_singleton.mpr keyword) (by decide) next
  have within : ∀ k ∈ [Kind.lessThanToken, .equalsToken], k ∈ behindName := by decide
  exact .of_name next named (within _ behind)

theorem variableStatement_at_name (h : variableStatement.Leads d s n u) : TakesImplements d s := by
  obtain ⟨ks, v, read, keyword, named, colon⟩ := variableStatement_leads h
  obtain rfl := keyword_first read keyword (by decide) next
  exact .of_name next named (by rw [colon]; decide)

theorem moduleDeclaration_at_name (h : (moduleDeclaration statement).Leads d s n u) :
    TakesImplements d s := by
  obtain ⟨ks, v, read, keyword, rest⟩ := moduleDeclaration_leads h
  obtain rfl := keyword_first read keyword (by decide) next
  rcases rest with string | ⟨budget, flags, ms, comment, rest⟩
  · rw [string] at next
    exact absurd next (by decide)
  · obtain ⟨named, behind⟩ := namespaceWithin_starts rest
    exact .of_name next named behind

theorem globalBlock_at_name (h : (globalBlock statement).Leads d s n u) :
    s.current.kind = .globalKeyword ∧ s.next.current.kind = .openBraceToken ∧
      ∃ m v, (moduleBlock statement).Leads d s.next m v := by
  obtain ⟨ks, v, body, w, read, keyword, block⟩ := globalBlock_leads h
  obtain rfl := keyword_first read (List.mem_singleton.mpr keyword) (by decide) next
  exact ⟨keyword, moduleBlock_open block, body, w, block⟩

end

/-- A statement that starts with a name before what stands behind the name of an interface takes
`implements` for a name, or is a block that adds to the global scope. -/
theorem statementRules_at_name {r : Rule Nat Node} (mem : r ∈ statementRules statement)
    (h : r.Leads d s n u) (name : s.current.kind.isName = true)
    (next : s.next.current.kind ∈ behindInterfaceName) :
    TakesImplements d s ∨
    (s.current.kind = .globalKeyword ∧ s.next.current.kind = .openBraceToken ∧
      ∃ m v, (moduleBlock statement).Leads d s.next m v) := by
  -- the other keywords are reserved, so that they are no names
  have reserved {k : Kind} (is : s.current.kind = k) (other : k.isName = false) : False :=
    Kind.ne_of_class name other is
  simp only [statementRules, List.mem_cons, List.not_mem_nil, or_false] at mem
  rcases mem with rfl | rfl | rfl | rfl | rfl | rfl | rfl | rfl | rfl | rfl | rfl | rfl
  · exact (reserved (importDeclaration_next h).1 rfl).elim
  · obtain ⟨_, _, keyword, -⟩ := h.bind
    exact (reserved keyword.expect.1 rfl).elim
  · exact (reserved (exportDeclaration_next h).1 rfl).elim
  · exact .inl (interfaceDeclaration_at_name next h)
  · exact (reserved (declaration_at_name next h (by decide)).1 rfl).elim
  · exact (reserved (declaration_at_name next h (by decide)).1 rfl).elim
  · exact .inl (typeAlias_at_name next h)
  · exact (reserved (declaration_at_name next h (by decide)).1 rfl).elim
  · exact .inl (variableStatement_at_name next h)
  · exact .inl (moduleDeclaration_at_name next h)
  · exact .inr (globalBlock_at_name next h)
  · exact (reserved (exportAssignment_leads h).1 rfl).elim

/-- The tokens that a statement can start with. -/
def statementStarts : List Kind := [
  .importKeyword, .exportKeyword, .defaultKeyword, .declareKeyword, .abstractKeyword, .constKeyword,
  .letKeyword, .varKeyword, .interfaceKeyword, .classKeyword, .functionKeyword, .typeKeyword,
  .enumKeyword, .namespaceKeyword, .moduleKeyword, .globalKeyword]

/-- How a statement starts: with a keyword and something that could also stand behind a modifier, or
with an equals sign behind `export`. -/
def StartsStatement (s : Stream) : Prop :=
  s.current.kind ∈ statementStarts ∧
    (s.next.current.kind = .equalsToken ∨ canFollowModifier s.next.current.kind = true)

theorem startsStatement_of_read {allowed kws ks : List Kind} (read : ModifiersRead allowed s ks v)
    (keyword : v.current.kind ∈ kws) (starts : ∀ k ∈ allowed ++ kws, k ∈ statementStarts)
    (next : canFollowModifier v.next.current.kind = true) : StartsStatement s := by
  cases read with
  | nil => exact ⟨starts _ (List.mem_append_right _ keyword), .inr next⟩
  | cons mem follows _ => exact ⟨starts _ (List.mem_append_left _ mem), .inr follows⟩

/-- A declaration with a keyword and a name behind its head. -/
theorem startsStatement_of_declaration {allowed : List Kind} {k : Kind}
    {rest : Option String × Option (List Node) → Node → Rule Nat Node}
    (h : (declarationHead allowed >>= fun head => expect k >>= fun _ =>
      name head.1 >>= rest head).Leads d s n u)
    (starts : ∀ l ∈ allowed ++ [k], l ∈ statementStarts) : StartsStatement s := by
  obtain ⟨head, ks, v, read, keyword, h⟩ := declaration_leads h
  obtain ⟨declared, _, named, -⟩ := h.bind
  exact startsStatement_of_read read (List.mem_singleton.mpr keyword) starts
    (canFollowModifier_of_isName (identifierOf_word named).1)

theorem moduleDeclaration_starts (h : (moduleDeclaration statement).Leads d s n u) :
    StartsStatement s := by
  obtain ⟨ks, v, read, keyword, rest⟩ := moduleDeclaration_leads h
  refine startsStatement_of_read read keyword (by decide) ?_
  rcases rest with string | ⟨budget, flags, ms, comment, rest⟩
  · rw [string]
    decide
  · exact canFollowModifier_of_isName (namespaceWithin_starts rest).1

theorem statementRules_starts {r : Rule Nat Node} (mem : r ∈ statementRules statement)
    (h : r.Leads d s n u) : StartsStatement s := by
  simp only [statementRules, List.mem_cons, List.not_mem_nil, or_false] at mem
  rcases mem with rfl | rfl | rfl | rfl | rfl | rfl | rfl | rfl | rfl | rfl | rfl | rfl
  · obtain ⟨is, next⟩ := importDeclaration_next h
    exact ⟨by rw [is]; decide, .inr next⟩
  · obtain ⟨_, s1, h1, h⟩ := h.bind
    obtain ⟨is, rfl⟩ := h1.expect
    obtain ⟨_, s2, h2, -⟩ := h.bind
    exact ⟨by rw [is]; decide, .inr (by rw [h2.expect.1]; decide)⟩
  · obtain ⟨is, next⟩ := exportDeclaration_next h
    exact ⟨by rw [is]; decide, .inr next⟩
  · exact startsStatement_of_declaration h (by decide)
  · exact startsStatement_of_declaration h (by decide)
  · exact startsStatement_of_declaration h (by decide)
  · exact startsStatement_of_declaration h (by decide)
  · exact startsStatement_of_declaration h (by decide)
  · obtain ⟨ks, v, read, keyword, named, -⟩ := variableStatement_leads h
    exact startsStatement_of_read read keyword (by decide) (canFollowModifier_of_isName named)
  · exact moduleDeclaration_starts h
  · obtain ⟨ks, v, body, w, read, keyword, block⟩ := globalBlock_leads h
    exact startsStatement_of_read read (List.mem_singleton.mpr keyword) (by decide)
      (by rw [moduleBlock_open block]; decide)
  · obtain ⟨is, next⟩ := exportAssignment_leads h
    refine ⟨by rw [is]; decide, next.imp_right fun default => ?_⟩
    rw [default.1]
    decide

/-- A block that is not closed at once starts with a statement. -/
theorem moduleBlock_starts (starts : ∀ {d s n u}, statement.Leads d s n u → StartsStatement s)
    (h : (moduleBlock statement).Leads d s n u) (closed : s.next.current.kind ≠ .closeBraceToken)
    (semicolon : s.next.current.kind ≠ .semicolonToken) : StartsStatement s.next := by
  obtain ⟨_, s1, h1, h⟩ := h.bind
  obtain ⟨-, rfl⟩ := h1.expect
  obtain ⟨statements, s2, h2, h⟩ := h.bind
  obtain ⟨_, s3, h3, -⟩ := h.bind
  refine Relation.ReflTransGen.head_induction_on
    (motive := fun v _ => v = s.next → StartsStatement s.next) h2.many_chain ?_ ?_ rfl
  · rintro rfl
    exact absurd h3.expect.1 closed
  · rintro v w ⟨x, step⟩ - ih rfl
    obtain ⟨_, v, skip, step⟩ := step.bind
    obtain ⟨_, v', skipped, none⟩ := skip.bind
    obtain ⟨-, rfl⟩ := none.pure
    obtain rfl : v' = s.next := skipped.many_stays fun x w step => by
      obtain ⟨found, v, accept, step⟩ := step.bind
      rcases accept.accept with ⟨-, is, -⟩ | ⟨-, -, rfl⟩
      · exact absurd is semicolon
      · exact step.pure.2.symm
    obtain ⟨_, _, here, step⟩ := step.bind
    obtain ⟨rfl, rfl⟩ := here.current
    rcases step.noneOr with ⟨-, -, rfl⟩ | ⟨m, -, read⟩
    · exact ih rfl
    · exact starts read

/-- What stands behind the first token of a member that starts like a statement. -/
def behindMemberName : List Kind := [.questionToken, .colonToken, .lessThanToken, .openParenToken]

theorem ne_of_statementStarts {k l : Kind} (h : k ∈ statementStarts) (other : l ∉ statementStarts) :
    k ≠ l := by
  rintro rfl
  exact other h

theorem memberModifiers_none {l : Option (List Node)} (h : memberModifiers.Leads d s l u)
    (start : s.current.kind ∈ statementStarts) : s = u := by
  obtain ⟨ks, read⟩ := memberModifiers_read h
  cases read with
  | nil => rfl
  | cons mem _ _ =>
    exact absurd (List.mem_singleton.mp mem) (ne_of_statementStarts start (by decide))

/-- A member starts with a bracket or with what can be a name. -/
theorem typeMember_starts {k : Kind} (h : (typeMember type).Leads d s n u)
    (other : (k = .openBracketToken || k = .lessThanToken || k = .openParenToken ||
      k.isMemberName || k = .stringLiteral || k = .numericLiteral) = false) : s.current.kind ≠ k := by
  obtain ⟨form, v, here, -⟩ := typeMember_at h
  simp only [Bool.or_eq_false_iff, decide_eq_false_iff_not] at other
  obtain ⟨⟨⟨⟨⟨bracket, less⟩, paren⟩, member⟩, string⟩, number⟩ := other
  rintro rfl
  rcases here.first with is | is | is | is | is | is
  · exact bracket is
  · exact less is
  · exact paren is
  · rw [member] at is
    cases is
  · exact string is
  · exact number is

/-- A member that starts with a token of a statement has that for a name. -/
theorem typeMember_next (h : (typeMember type).Leads d s n u)
    (start : s.current.kind ∈ statementStarts) : s.next.current.kind ∈ behindMemberName := by
  have ne {k : Kind} (other : k ∉ statementStarts) := ne_of_statementStarts start other
  have bracket {v w w' : Stream} {tps ps : Option (List Node)}
      (h : (typeParameters type).Leads d v tps w) (g : (parameters type).Leads d w ps w') :
      v.current.kind ∈ behindMemberName := by
    rcases signature_starts h g with is | is <;> rw [is] <;> decide
  obtain ⟨_, _, refuse, h⟩ := h.bind
  obtain rfl := refuseModifier_leads refuse
  obtain ⟨r, mem, h⟩ := h.alternatives (balanced_typeMemberRules type)
  simp only [List.mem_cons, List.not_mem_nil, or_false] at mem
  rcases mem with rfl | rfl | rfl | rfl | rfl
  · obtain ⟨ms, s1, h1, h⟩ := h.bind
    obtain rfl := memberModifiers_none h1 start
    obtain ⟨read, s2, h2, -⟩ := h.bind
    exact absurd (indexSignature_leads h2).1 (ne (by decide))
  · obtain ⟨tps, s1, h1, h⟩ := h.bind
    obtain ⟨ps, s2, h2, -⟩ := h.bind
    rcases signature_starts h1 h2 with is | is <;> exact absurd is (ne (by decide))
  · obtain ⟨_, s1, h1, -⟩ := h.bind
    exact absurd h1.expect.1 (ne (by decide))
  · obtain ⟨comment, _, here, h⟩ := h.bind
    obtain rfl := here.documentationHere
    obtain ⟨ms, s1, h1, h⟩ := h.bind
    obtain rfl := memberModifiers_none h1 start
    obtain ⟨declared, s2, h2, h⟩ := h.bind
    obtain ⟨-, rfl, -⟩ := propertyName_leads h2
    obtain ⟨question, s3, h3, h⟩ := h.bind
    obtain ⟨_, s4, h4, -⟩ := h.bind
    rcases h3.token? with ⟨-, is, rfl⟩ | ⟨-, rfl⟩
    · rw [is]
      decide
    · rw [h4.expect.1]
      decide
  · obtain ⟨comment, _, here, h⟩ := h.bind
    obtain rfl := here.documentationHere
    obtain ⟨declared, s2, h2, h⟩ := h.bind
    obtain ⟨-, rfl, -⟩ := propertyName_leads h2
    obtain ⟨question, s3, h3, h⟩ := h.bind
    obtain ⟨tps, s4, h4, h⟩ := h.bind
    obtain ⟨ps, s5, h5, -⟩ := h.bind
    rcases h3.token? with ⟨-, is, rfl⟩ | ⟨-, rfl⟩
    · rw [is]
      decide
    · exact bracket h4 h5

/-- No statement starts like a member with two tokens of the same kinds. -/
theorem StartsStatement.not_member {s' : Stream} (h : StartsStatement s)
    (read : (typeMember type).Leads d s' n u) (same : s.current.kind = s'.current.kind)
    (next : s.next.current.kind = s'.next.current.kind) : False := by
  have behind := typeMember_next read (same ▸ h.1)
  rw [← next] at behind
  simp only [behindMemberName, List.mem_cons, List.not_mem_nil, or_false] at behind
  rcases h.2 with is | is
  · rw [is] at behind
    simp at behind
  · rcases behind with eq | eq | eq | eq <;> rw [eq] at is <;> exact absurd is (by decide)

end Grammar

end Ambient
