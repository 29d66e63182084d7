import Ambient.Grammar.Statement
import Ambient.Proofs.Grammar.Import
import Ambient.Proofs.Grammar.Opening

namespace Ambient

/-- How a statement starts: with modifiers out of a list, and one of some keywords behind them. -/
structure Front where
  allowed : List Kind
  keywords : List Kind
  /-- Whether the keyword, where it is taken for a modifier, is the last modifier but one. -/
  last : Bool

/-- If this token is taken for a modifier, a name follows that cannot be taken for one. -/
def Stream.Last (u : Stream) : Prop :=
  Grammar.canFollowModifier u.next.current.kind = true →
    u.next.current.kind.isName = true ∧ Grammar.canFollowModifier u.next.next.current.kind = false

namespace Front

variable {f g : Front} {s : Stream}

/-- A statement that starts at `s` may start like this. -/
def At (f : Front) (s : Stream) : Prop :=
  ∃ ks u, ModifiersRead f.allowed s ks u ∧ u.current.kind ∈ f.keywords ∧
    (f.last = true → u.Last)

/-- Whether a statement that starts like `g` may have a keyword of `f` where `f` has it. -/
def reaches (f g : Front) : Bool :=
  f.keywords.any fun k => g.keywords.contains k ||
    (g.allowed.contains k && !(f.last && g.keywords.all fun l => !l.isName))

/-- Whether no statement starts like both. -/
def apart (f g : Front) : Bool := !f.reaches g && !g.reaches f

theorem not_mem_keywords (h : f.reaches g = false) {k : Kind} (mem : k ∈ f.keywords) :
    k ∉ g.keywords := by
  have none := List.any_eq_false.mp h k mem
  simp only [Bool.or_eq_true, not_or, List.contains_iff_mem] at none
  exact none.1

/-- A keyword cannot be taken for a modifier by a statement that starts in another way. -/
theorem not_continued (h : f.reaches g = false) {u v : Stream} {rest : List Kind}
    (keyword : u.current.kind ∈ f.keywords) (last : f.last = true → u.Last)
    (mem : u.current.kind ∈ g.allowed)
    (follows : Grammar.canFollowModifier u.next.current.kind = true)
    (read : ModifiersRead g.allowed u.next rest v) : v.current.kind ∉ g.keywords := by
  have none := List.any_eq_false.mp h _ keyword
  simp only [Bool.or_eq_true, not_or, Bool.and_eq_true, not_and, List.contains_iff_mem] at none
  obtain ⟨isLast, noName⟩ : f.last = true ∧ g.keywords.all (fun l => !l.isName) = true := by
    simpa using none.2 mem
  obtain ⟨name, stops⟩ := last isLast follows
  cases read with
  | nil =>
    intro here
    have other := List.all_eq_true.mp noName _ here
    rw [name] at other
    cases other
  | cons _ goesOn _ =>
    rw [stops] at goesOn
    cases goesOn

theorem At.apart (h : f.At s) (h' : g.At s) (apart : f.apart g = true) : False := by
  obtain ⟨ks, u, read, keyword, last⟩ := h
  obtain ⟨ks', v, read', keyword', last'⟩ := h'
  simp only [Front.apart, Bool.and_eq_true, Bool.not_eq_true'] at apart
  rcases read.compare read' with ⟨rfl, -⟩ | ⟨rest, mem, follows, others, -⟩ |
    ⟨rest, mem, follows, others, -⟩
  · exact not_mem_keywords apart.1 keyword keyword'
  · exact not_continued apart.1 keyword last mem follows others keyword'
  · exact not_continued apart.2 keyword' last' mem follows others keyword

/-- Before a token that cannot stand behind a modifier a statement starts with its keyword. -/
theorem At.keyword (h : f.At s)
    (stops : Grammar.canFollowModifier s.next.current.kind = false) :
    s.current.kind ∈ f.keywords := by
  obtain ⟨ks, u, read, keyword, -⟩ := h
  cases read with
  | nil => exact keyword
  | cons _ follows _ =>
    rw [stops] at follows
    cases follows

end Front

namespace Grammar

open Rule

variable {d : Nat} {s u v : Stream} {n : Node} {allowed : List Kind}

theorem declarationModifiers_read {l : Option (List Node)}
    (h : (declarationModifiers allowed).Leads d s l u) :
    ∃ ks, ModifiersRead allowed s ks u ∧ l = if ks.isEmpty then none else some (ks.map .token) := by
  obtain ⟨read, v, loop, h⟩ := h.bind
  obtain ⟨_, v', refuse, h⟩ := h.bind
  obtain rfl := refuseModifier_leads refuse
  obtain ⟨rfl, rfl⟩ := h.pure
  obtain ⟨ks, read, -, eq⟩ := modifiers_read loop
  exact ⟨ks, read, eq⟩

theorem declarationHead_read {head : Option String × Option (List Node)}
    (h : (declarationHead allowed).Leads d s head u) :
    ∃ ks, ModifiersRead allowed s ks u ∧
      head.2 = if ks.isEmpty then none else some (ks.map .token) := by
  obtain ⟨comment, _, here, h⟩ := h.bind
  obtain rfl := here.documentationHere
  obtain ⟨ms, v, read, h⟩ := h.bind
  obtain ⟨rfl, rfl⟩ := h.pure
  exact declarationModifiers_read read

/-- What is read of a declaration whose keyword stands right behind its head. -/
theorem declaration_leads {k : Kind} {rest : Option String × Option (List Node) → Rule Nat Node}
    (h : (declarationHead allowed >>= fun head => expect k >>= fun _ => rest head).Leads d s n u) :
    ∃ head ks v, ModifiersRead allowed s ks v ∧ v.current.kind = k ∧
      (rest head).Leads d v.next n u := by
  obtain ⟨head, v, h1, h⟩ := h.bind
  obtain ⟨_, _, h2, h⟩ := h.bind
  obtain ⟨ks, read, -⟩ := declarationHead_read h1
  obtain ⟨keyword, rfl⟩ := h2.expect
  exact ⟨head, ks, v, read, keyword, h⟩

theorem declaration_at {k : Kind} {rest : Option String × Option (List Node) → Rule Nat Node}
    (h : (declarationHead allowed >>= fun head => expect k >>= fun _ => rest head).Leads d s n u) :
    Front.At ⟨allowed, [k], false⟩ s := by
  obtain ⟨head, ks, v, read, keyword, -⟩ := declaration_leads h
  exact ⟨ks, v, read, by simp [keyword], by simp⟩

theorem importDeclaration_at (h : importDeclaration.Leads d s n u) :
    Front.At ⟨[], [.importKeyword], false⟩ s := by
  obtain ⟨_, s1, h1, -⟩ := h.bind
  exact ⟨[], s, .nil s, by simp [h1.expect.1], by simp⟩

theorem exported (is : s.current.kind = .exportKeyword) (mem : .exportKeyword ∈ allowed)
    (follows : canFollowModifier s.next.current.kind = true) :
    ModifiersRead allowed s [s.current.kind] s.next :=
  .cons (is ▸ mem) follows (.nil s.next)

theorem namespaceExport_at (h : namespaceExport.Leads d s n u) :
    Front.At ⟨[.exportKeyword], [.asKeyword], false⟩ s := by
  obtain ⟨_, s1, h1, h⟩ := h.bind
  obtain ⟨is, rfl⟩ := h1.expect
  obtain ⟨_, s2, h2, h⟩ := h.bind
  obtain ⟨is', rfl⟩ := h2.expect
  exact ⟨_, s.next, exported is (by decide) (by rw [is']; decide), by simp [is'], by simp⟩

/-- An export of names goes on with an asterisk or a brace. -/
theorem exportDeclaration_at (h : exportDeclaration.Leads d s n u) :
    Front.At ⟨[.exportKeyword, .typeKeyword], [.openBraceToken, .asteriskToken], false⟩ s := by
  obtain ⟨_, s1, h1, h⟩ := h.bind
  obtain ⟨is, rfl⟩ := h1.expect
  obtain ⟨typed, v, h2, h⟩ := h.bind
  obtain ⟨all, s3, h3, h⟩ := h.bind
  have mark : v.current.kind = .openBraceToken ∨ v.current.kind = .asteriskToken := by
    rcases h3.accept with ⟨-, is, -⟩ | ⟨rfl, -, rfl⟩
    · exact .inr is
    · obtain ⟨elements, s4, h4, -⟩ := h.of_false.bind
      obtain ⟨_, s5, h5, -⟩ := h4.bind
      exact .inl h5.expect.1
  have follows : canFollowModifier v.current.kind = true := by
    rcases mark with is | is <;> rw [is] <;> decide
  have keyword : v.current.kind ∈ [Kind.openBraceToken, .asteriskToken] := by simpa using mark
  rcases acceptTypeOnly_leads h2 with ⟨is', -, rfl⟩ | rfl
  · have second : s.next.current.kind ∈ [Kind.exportKeyword, .typeKeyword] := by simp [is']
    have first : s.current.kind ∈ [Kind.exportKeyword, .typeKeyword] := by simp [is]
    exact ⟨_, s.next.next, .cons first (by rw [is']; decide) (.cons second follows (.nil _)),
      keyword, by simp⟩
  · exact ⟨_, s.next, exported is (by decide) follows, keyword, by simp⟩

theorem exportAssignment_leads (h : exportAssignment.Leads d s n u) :
    s.current.kind = .exportKeyword ∧ (s.next.current.kind = .equalsToken ∨
      s.next.current.kind = .defaultKeyword ∧ ∃ expression, n = .exportAssignment false expression) := by
  obtain ⟨_, s1, h1, h⟩ := h.bind
  obtain ⟨is, rfl⟩ := h1.expect
  obtain ⟨equals, s2, h2, h⟩ := h.bind
  obtain ⟨rfl, rfl⟩ := h2.atKind
  obtain ⟨default, s3, h3, h⟩ := h.bind
  obtain ⟨rfl, rfl⟩ := h3.atKind
  refine ⟨is, ?_⟩
  rcases h.ite with ⟨found, h⟩ | ⟨-, h⟩
  · by_cases equals : s.next.current.kind = .equalsToken
    · exact .inl equals
    · obtain ⟨_, s4, h4, h⟩ := h.bind
      obtain ⟨expression, s5, h5, h⟩ := h.bind
      obtain ⟨_, s6, h6, h⟩ := h.bind
      obtain ⟨rfl, -⟩ := h.pure
      exact .inr ⟨by simpa [equals] using found, expression, by simp [equals]⟩
  · exact h.failHere.elim

theorem interfaceDeclaration_at (h : interfaceDeclaration.Leads d s n u) :
    Front.At ⟨interfaceModifiers, [.interfaceKeyword], false⟩ s :=
  declaration_at h

theorem classDeclaration_at (h : classDeclaration.Leads d s n u) :
    Front.At ⟨classModifiers, [.classKeyword], false⟩ s :=
  declaration_at h

theorem functionDeclaration_at (h : functionDeclaration.Leads d s n u) :
    Front.At ⟨interfaceModifiers, [.functionKeyword], false⟩ s :=
  declaration_at h

theorem enumDeclaration_at (h : enumDeclaration.Leads d s n u) :
    Front.At ⟨enumModifiers, [.enumKeyword], false⟩ s :=
  declaration_at h

/-- Behind its modifiers an alias has its keyword, its name and a parameter list or its value. -/
theorem typeAlias_leads (h : typeAlias.Leads d s n u) :
    ∃ ks v, ModifiersRead ambientModifiers s ks v ∧ v.current.kind = .typeKeyword ∧
      v.next.current.kind.isName = true ∧
      v.next.next.current.kind ∈ [Kind.lessThanToken, .equalsToken] := by
  obtain ⟨head, ks, v, read, keyword, h⟩ := declaration_leads h
  obtain ⟨declared, _, h1, h⟩ := h.bind
  obtain ⟨name, rfl, -⟩ := identifierOf_word h1
  obtain ⟨tps, _, h2, h⟩ := h.bind
  obtain ⟨_, _, h3, -⟩ := h.bind
  refine ⟨ks, v, read, keyword, name, ?_⟩
  rcases h2.optionalAfter with ⟨_, -, less, -⟩ | ⟨-, rfl⟩
  · simp [less]
  · simp [h3.expect.1]

theorem typeAlias_at (h : typeAlias.Leads d s n u) :
    Front.At ⟨ambientModifiers, [.typeKeyword], true⟩ s := by
  obtain ⟨ks, v, read, keyword, name, behind⟩ := typeAlias_leads h
  have stops : ∀ k ∈ [Kind.lessThanToken, .equalsToken], canFollowModifier k = false := by decide
  exact ⟨ks, v, read, by simp [keyword], fun _ _ => ⟨name, stops _ behind⟩⟩

theorem mem_of_variableFlags {k : Kind} {flags : UInt32} (h : variableFlags k = some flags) :
    k ∈ [Kind.constKeyword, .letKeyword, .varKeyword] := by
  unfold variableFlags at h
  split at h
  all_goals first | decide | cases h

/-- Behind their modifiers variables have their keyword, a name and a colon. -/
theorem variableStatement_leads (h : variableStatement.Leads d s n u) :
    ∃ ks v, ModifiersRead ambientModifiers s ks v ∧
      v.current.kind ∈ [Kind.constKeyword, .letKeyword, .varKeyword] ∧
      v.next.current.kind.isName = true ∧ v.next.next.current.kind = .colonToken := by
  obtain ⟨head, v, h1, h⟩ := h.bind
  obtain ⟨token, _, here, h⟩ := h.bind
  obtain ⟨rfl, rfl⟩ := here.current
  obtain ⟨ks, read, -⟩ := declarationHead_read h1
  split at h
  · exact h.failHere.elim
  · rename_i flags eq
    obtain ⟨_, _, step, h⟩ := h.bind
    obtain rfl := step.advance
    obtain ⟨declarations, _, h2, -⟩ := h.bind
    obtain ⟨first, _, h3, -⟩ := h2.bind
    obtain ⟨declared, _, h4, h3⟩ := h3.bind
    obtain ⟨name, rfl, -⟩ := identifierOf_word h4
    obtain ⟨_, _, h5, -⟩ := h3.bind
    exact ⟨ks, v, read, mem_of_variableFlags eq, name, h5.expect.1⟩

theorem variableStatement_at (h : variableStatement.Leads d s n u) :
    Front.At ⟨ambientModifiers, [.constKeyword, .letKeyword, .varKeyword], true⟩ s := by
  obtain ⟨ks, v, read, keyword, name, colon⟩ := variableStatement_leads h
  exact ⟨ks, v, read, keyword, fun _ _ => ⟨name, by rw [colon]; decide⟩⟩

theorem mem_of_moduleFlags {k : Kind} {flags : UInt32} (h : moduleFlags k = some flags) :
    k ∈ [Kind.namespaceKeyword, .moduleKeyword] := by
  unfold moduleFlags at h
  split at h
  all_goals first | decide | cases h

variable {statement : Rule Nat Node}

/-- Behind the modifiers and the keyword of a namespace stands a quoted name, or the namespace goes
on with a name of its own. -/
theorem moduleDeclaration_leads (h : (moduleDeclaration statement).Leads d s n u) :
    ∃ ks v, ModifiersRead ambientModifiers s ks v ∧
      v.current.kind ∈ [Kind.namespaceKeyword, .moduleKeyword] ∧
      (v.next.current.kind = .stringLiteral ∨ ∃ budget flags modifiers comment,
        Leads (namespaceWithin statement budget flags modifiers comment) d v.next n u) := by
  obtain ⟨head, v, h1, h⟩ := h.bind
  obtain ⟨token, _, here, h⟩ := h.bind
  obtain ⟨rfl, rfl⟩ := here.current
  obtain ⟨ks, read, -⟩ := declarationHead_read h1
  split at h
  · exact h.failHere.elim
  · rename_i flags eq
    obtain ⟨_, _, step, h⟩ := h.bind
    obtain rfl := step.advance
    obtain ⟨_, _, here, h⟩ := h.bind
    obtain ⟨rfl, rfl⟩ := here.atKind
    refine ⟨ks, v, read, mem_of_moduleFlags eq, ?_⟩
    rcases h.ite with ⟨quoted, -⟩ | ⟨-, h⟩
    · exact .inl (of_decide_eq_true (Bool.and_eq_true_iff.mp quoted).2)
    · exact .inr ⟨_, flags, head.2, head.1, h.bounded⟩

theorem moduleDeclaration_at (h : (moduleDeclaration statement).Leads d s n u) :
    Front.At ⟨ambientModifiers, [.namespaceKeyword, .moduleKeyword], false⟩ s := by
  obtain ⟨ks, v, read, keyword, -⟩ := moduleDeclaration_leads h
  exact ⟨ks, v, read, keyword, by simp⟩

theorem moduleBlock_open (h : (moduleBlock statement).Leads d s n u) :
    s.current.kind = .openBraceToken := by
  obtain ⟨_, _, open_brace, -⟩ := h.bind
  exact open_brace.expect.1

theorem globalBlock_leads [Balanced statement] (h : (globalBlock statement).Leads d s n u) :
    ∃ ks v body w, ModifiersRead ambientModifiers s ks v ∧ v.current.kind = .globalKeyword ∧
      (moduleBlock statement).Leads d v.next body w := by
  obtain ⟨modifiers, v, h1, h⟩ := h.bind
  obtain ⟨_, _, h2, h⟩ := h.bind
  obtain ⟨ks, read, -⟩ := declarationModifiers_read h1
  obtain ⟨keyword, rfl⟩ := h2.expect
  obtain ⟨body, w, block, -⟩ := h.bind
  exact ⟨ks, v, body, w, read, keyword, block⟩

theorem globalBlock_at [Balanced statement] (h : (globalBlock statement).Leads d s n u) :
    Front.At ⟨ambientModifiers, [.globalKeyword], false⟩ s := by
  obtain ⟨ks, v, body, w, read, keyword, -⟩ := globalBlock_leads h
  exact ⟨ks, v, read, by simp [keyword], by simp⟩

end Grammar

end Ambient
