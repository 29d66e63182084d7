import Ambient.Grammar.Statement
import Ambient.Proofs.Grammar.Declaration
import Ambient.Proofs.Grammar.Import

namespace Ambient.Grammar

open Rule Node

section

variable {statement : Rule Nat Node} [Balanced statement] {d : Nat} {s u : Stream}

/-- A step of reading statements reads one, or stops at the closing token or the end of the
text. -/
theorem statementOrEnd_yields (hs : statement.Reads 1 (.category .statement)) {close : Kind}
    {x : Option Node}
    (h : Leads (do
      skipSemicolons
      let k := (← current).kind
      if k = close || k = .endOfFileToken then return none else some <$> statement) d s x u) :
    Yields (5 * d + 1) s x.toList.length (x.toList.map (.category .statement, ·)) u ∧
      (x = none → u.current.kind = close ∨ u.current.kind = .endOfFileToken) := by
  obtain ⟨_, v, skip, h⟩ := h.bind
  obtain ⟨_, _, here, h⟩ := h.bind
  obtain ⟨rfl, rfl⟩ := here.current
  have y := skipSemicolons_yields skip
  rcases h.noneOr with ⟨rfl, closing, rfl⟩ | ⟨m, rfl, read⟩
  · exact ⟨y.weaken (Nat.le_refl 0) (by omega), fun _ => by simpa using closing⟩
  · exact ⟨(y.trans (hs read)).weaken (Nat.le_refl 1) (by omega), by simp⟩

theorem statementsUntil_yields (hs : statement.Reads 1 (.category .statement)) {close : Kind}
    {l : List Node} (h : (statementsUntil statement close).Leads d s l u) :
    Yields (5 * d + 1) s l.length (l.map (.category .statement, ·)) u :=
  many_yields (fun step => (statementOrEnd_yields hs step).1) h

/-- Every statement takes up tokens, so statements are read until none can follow. -/
theorem statementsUntil_ends (hs : statement.Reads 1 (.category .statement)) {close : Kind}
    {l : List Node} (h : (statementsUntil statement close).Leads d s l u)
      (scanned : Scanned s.toList) :
    u.current.kind = close ∨ u.current.kind = .endOfFileToken := by
  have nearer : ∀ m v w, Scanned v.toList → Leads (do
      skipSemicolons
      let k := (← current).kind
      if k = close || k = .endOfFileToken then return none else some <$> statement) d v (some m) w →
      Scanned w.toList ∧ w.ahead.length < v.ahead.length :=
    fun m v w scanned step => (statementOrEnd_yields hs step).1.nearer scanned
  obtain ⟨v, last⟩ := Leads.many_ends nearer h scanned
  exact (statementOrEnd_yields hs last).2 rfl

theorem moduleBlock_yields (hs : statement.Reads 1 (.category .statement)) {n : Node}
    (h : (moduleBlock statement).Leads d s n u) :
    Yields (5 * d + 2) s 1 [(.category .moduleBody, n)] u ∧ ∃ statements, n = .moduleBlock
      statements := by
  obtain ⟨_, s1, h1, h⟩ := h.bind
  obtain ⟨statements, s2, h2, h⟩ := h.bind
  obtain ⟨_, s3, h3, h⟩ := h.bind
  obtain ⟨rfl, rfl⟩ := h.pure
  have y2 := (statementsUntil_yields hs h2).weaken (Nat.zero_le _) (Nat.le_refl _)
  exact ⟨.node ((expect_yields h1 rfl).trans (y2.trans (expect_yields h3 rfl)))
    (.of_shape .moduleBlock (by simp [parts, Part.lawful_list]) trivial rfl (by decide)) rfl
      (by omega), statements, rfl⟩

/-- The flags of a namespace by its place: those of its keyword, or those behind a dot. -/
def FlagsFit (t : Target) (flags : UInt32) : Prop :=
  (t = .category .statement ∧ (flags = 0 ∨ flags = Flags.namespaceBit)) ∨
    (t = .category .moduleBody ∧
      (flags = Flags.nestedBit ∨ flags = Flags.nestedBit ||| Flags.namespaceBit))

theorem FlagsFit.inner {t : Target} {flags : UInt32} (h : FlagsFit t flags) :
    FlagsFit (.category .moduleBody) (innerFlags flags) := by
  rcases h with ⟨-, rfl | rfl⟩ | ⟨-, rfl | rfl⟩
  · exact .inr ⟨rfl, .inl rfl⟩
  · exact .inr ⟨rfl, .inr rfl⟩
  · exact .inr ⟨rfl, .inl rfl⟩
  · exact .inr ⟨rfl, .inr rfl⟩

/-- The law of a module with an unquoted name. -/
theorem moduleLaw_of_flagsFit {t : Target} {flags : UInt32} {text : String}
    {comment : Option String} {body : Node} (fit : FlagsFit t flags)
    (below : ∀ flags' modifiers name body', body = .moduleDeclaration flags' modifiers name body' →
      flags' = innerFlags flags ∧ modifiers = none) :
    ModuleLaw t flags (.identifier text comment) (some body) where
  body_absent := nofun
  quoted := nofun
  inner is := by
    rcases fit with ⟨is', -⟩ | ⟨-, fit⟩
    · exact absurd (is.symm.trans is') (by decide)
    · exact fit
  outer is_not := by
    rcases fit with ⟨-, zero | bit⟩ | ⟨is, -⟩
    · exact .inl zero
    · exact .inr (.inl bit)
    · exact absurd is is_not
  below flags' modifiers name body' eq := below _ _ _ _ (Option.some.inj eq)

/-- The parts of a namespace behind its modifiers. -/
abbrev NamespaceRead (d : Nat) (flags : UInt32) (ms : Option (List Node)) (s : Stream) (n : Node)
    (u : Stream) : Prop :=
  ∃ text comment body, n = .moduleDeclaration flags ms (.identifier text comment) (some body) ∧
    Yields (5 * d + 3) s 1
      [(.category .moduleName, .identifier text comment), (.category .moduleBody, body)] u ∧
    ∀ flags' modifiers name body', body = .moduleDeclaration flags' modifiers name body' →
      flags' = innerFlags flags ∧ modifiers = none

/-- A namespace with the modifiers before it is a tree for its place. -/
theorem namespace_yields {flags : UInt32} {ms : Option (List Node)} {n : Node} {t : Target}
    {s0 : Stream} (h : NamespaceRead d flags ms s n u) (fit : FlagsFit t flags)
    (y : Yields 1 s0 0 (Part.modifiers ms).places s)
    (allowed : (Part.modifiers ms).Lawful ambientModifiers) :
    Yields (5 * d + 4) s0 1 [(t, n)] u := by
  obtain ⟨text, comment, body, rfl, yields, below⟩ := h
  have mem : Shape.moduleDeclaration ∈ t.shapes := by
    rcases fit with ⟨rfl, -⟩ | ⟨rfl, -⟩ <;> decide
  refine .node (y.trans (yields.trans (.refl _))) (.of_shape .moduleDeclaration ?_
    (moduleLaw_of_flagsFit fit below) rfl ⟨mem, rfl⟩) rfl (by omega)
  simpa [Node.parts, allowedModifiers, ambientModifiers] using allowed

theorem namespaceWithin_read (hs : statement.Reads 1 (.category .statement)) (budget : Budget) :
    ∀ {t flags ms comment d s n u}, FlagsFit t flags →
      Leads (namespaceWithin statement budget flags ms comment) d s n u →
      NamespaceRead d flags ms s n u := by
  induction budget with
  | nil =>
    intro t flags ms comment d s n u _ h
    exact (Leads.failHere h).elim
  | cons _ budget ih =>
    intro t flags ms comment d s n u fit h
    obtain ⟨o, depth, left, h⟩ := h
    simp only [namespaceWithin] at h
    obtain ⟨declared, s1, h1, h⟩ := Leads.bind ⟨o, depth, left, h⟩
    obtain ⟨found, s2, dot, h⟩ := h.bind
    obtain ⟨text, rfl⟩ := name_leads h1
    have y1 := name_reads (t := .category .moduleName) (by decide) h1
    have y2 := accept_yields dot rfl
    rcases h.ite with ⟨-, h⟩ | ⟨-, h⟩
    · obtain ⟨inner, s3, h3, h⟩ := h.bind
      obtain ⟨rfl, rfl⟩ := h.pure
      obtain ⟨d', rfl, h4⟩ := h3.nested
      have read := ih fit.inner h4
      have y3 := namespace_yields read fit.inner (.nothing s2) (by simp [Part.Lawful])
      refine ⟨text, comment, inner, rfl, (y1.trans (y2.trans y3)).weaken (by decide) (by omega), ?_⟩
      intro flags' modifiers name body' eq
      obtain ⟨text', comment', body, rfl, -⟩ := read
      injection eq with flags_eq modifiers_eq
      exact ⟨flags_eq.symm, modifiers_eq.symm⟩
    · obtain ⟨block, s3, h3, h⟩ := h.bind
      obtain ⟨rfl, rfl⟩ := h.pure
      obtain ⟨y3, statements, rfl⟩ := moduleBlock_yields hs h3
      exact ⟨text, comment, _, rfl, (y1.trans (y2.trans y3)).weaken (by decide) (by omega), by simp⟩

theorem quotedModule_yields (hs : statement.Reads 1 (.category .statement))
    {ms : Option (List Node)} {n : Node} {s0 : Stream}
    (y : Yields 1 s0 1 (Part.modifiers ms).places s)
    (allowed : (Part.modifiers ms).Lawful ambientModifiers)
    (h : (quotedModule statement ms).Leads d s n u) :
    Yields (5 * d + 6) s0 1 [(.category .statement, n)] u := by
  obtain ⟨quoted, s1, h1, h⟩ := h.bind
  obtain ⟨_, _, here, h⟩ := h.bind
  obtain ⟨-, rfl⟩ := here.atKind
  have y1 := stringLiteral_reads (t := .category .moduleName) (by decide) h1
  obtain ⟨text, rfl⟩ := stringLiteral_leads h1
  have law : ∀ {body}, (∀ flags modifiers name body',
      body ≠ some (.moduleDeclaration flags modifiers name body')) →
      ModuleLaw (.category .statement) 0 (.stringLiteral text) body := fun no_inner =>
    ⟨fun _ => ⟨text, rfl⟩, fun _ _ => rfl, by simp, fun _ => .inl rfl,
      fun _ _ _ _ eq => absurd eq (no_inner _ _ _ _)⟩
  rcases h.ite with ⟨-, h⟩ | ⟨-, h⟩
  · obtain ⟨block, s2, h2, h⟩ := h.bind
    obtain ⟨rfl, rfl⟩ := h.pure
    obtain ⟨y2, statements, rfl⟩ := moduleBlock_yields hs h2
    refine .node (y.trans (y1.trans y2))
      (.of_shape .moduleDeclaration ?_ (law (by simp)) rfl (by decide)) rfl (by omega)
    simpa [Node.parts, allowedModifiers, ambientModifiers] using allowed
  · obtain ⟨_, s2, h2, h⟩ := h.bind
    obtain ⟨rfl, rfl⟩ := h.pure
    refine .node (y.trans (y1.trans (semicolon_yields h2)))
      (.of_shape .moduleDeclaration ?_ (law (by simp)) rfl (by decide)) rfl (by omega)
    simpa [Node.parts, allowedModifiers, ambientModifiers] using allowed

/-- A keyword that declares modules is a mark, and its flags are those of a statement. -/
theorem moduleFlags_fit {k : Kind} {flags : UInt32} (h : moduleFlags k = some flags) :
    k.isMark = true ∧ FlagsFit (.category .statement) flags := by
  unfold moduleFlags at h
  split at h
  · obtain rfl := Option.some.inj h
    exact ⟨by decide, .inl ⟨rfl, .inr rfl⟩⟩
  · obtain rfl := Option.some.inj h
    exact ⟨by decide, .inl ⟨rfl, .inl rfl⟩⟩
  · cases h

theorem moduleDeclaration_reads (hs : statement.Reads 1 (.category .statement)) :
    (moduleDeclaration statement).Reads 6 (.category .statement) := by
  intro d s n u h
  obtain ⟨⟨comment, ms⟩, s1, h1, h⟩ := h.bind
  obtain ⟨_, _, here, h⟩ := h.bind
  obtain ⟨rfl, rfl⟩ := here.current
  obtain ⟨y1, allowed⟩ := declarationHead_yields h1 (by decide)
  cases found : moduleFlags s1.current.kind with
  | none =>
    rw [found] at h
    exact h.failHere.elim
  | some flags =>
    rw [found] at h
    obtain ⟨mark, fit⟩ := moduleFlags_fit found
    obtain ⟨_, s2, step, h⟩ := h.bind
    obtain rfl := step.advance
    obtain ⟨_, _, here, h⟩ := h.bind
    obtain ⟨-, rfl⟩ := here.atKind
    have y2 := y1.trans (Yields.mark mark)
    rw [List.append_nil] at y2
    rcases h.ite with ⟨-, h⟩ | ⟨-, h⟩
    · exact quotedModule_yields hs (y2.weaken (by decide) (by omega)) allowed h
    · exact (namespace_yields (namespaceWithin_read hs _ fit h.bounded) fit
        (y2.weaken (Nat.zero_le _) (by omega)) allowed).weaken (Nat.le_refl 1) (by omega)

theorem globalBlock_reads (hs : statement.Reads 1 (.category .statement)) :
    (globalBlock statement).Reads 6 (.category .statement) := by
  intro d s n u h
  obtain ⟨ms, s1, h1, h⟩ := h.bind
  obtain ⟨_, s2, h2, h⟩ := h.bind
  obtain ⟨body, s3, h3, h⟩ := h.bind
  obtain ⟨rfl, rfl⟩ := h.pure
  obtain ⟨y1, allowed⟩ := declarationModifiers_yields h1 (by decide)
  obtain ⟨is, rfl⟩ := h2.expect
  have y2 : Yields 1 s1 1 [(.category .moduleName, .identifier "global" none)] s1.next :=
    .keyword (by rw [is]; decide) rfl (by decide)
  obtain ⟨y3, statements, rfl⟩ := moduleBlock_yields hs h3
  have law : ModuleLaw (.category .statement) Flags.globalBit (.identifier "global" none)
      (some (.moduleBlock statements)) :=
    ⟨nofun, nofun, nofun, fun _ => .inr (.inr ⟨rfl, rfl, statements, rfl⟩), nofun⟩
  refine .node (y1.trans (y2.trans y3)) (.of_shape .moduleDeclaration ?_ law rfl (by decide))
    rfl (by omega)
  simpa [Node.parts, allowedModifiers, ambientModifiers] using allowed

theorem statementRules_read (hs : statement.Reads 1 (.category .statement)) {r : Rule Nat Node}
    (mem : r ∈ statementRules statement) : r.Reads 6 (.category .statement) := by
  simp only [statementRules, List.mem_cons, List.not_mem_nil, or_false] at mem
  rcases mem with rfl | rfl | rfl | rfl | rfl | rfl | rfl | rfl | rfl | rfl | rfl | rfl
  · exact importDeclaration_reads
  · exact namespaceExport_reads
  · exact exportDeclaration_reads
  · exact interfaceDeclaration_reads
  · exact classDeclaration_reads
  · exact functionDeclaration_reads
  · exact typeAlias_reads
  · exact enumDeclaration_reads
  · exact variableStatement_reads
  · exact moduleDeclaration_reads hs
  · exact globalBlock_reads hs
  · exact exportAssignment_reads

end

theorem statementWithin_reads (budget : Budget) :
    Rule.Reads (statementWithin budget) 1 (.category .statement) := by
  induction budget with
  | nil =>
    intro d s n u h
    exact (Leads.failHere h).elim
  | cons _ budget ih =>
    intro d s n u h
    obtain ⟨o, depth, left, h⟩ := h
    simp only [statementWithin] at h
    have balanced := balanced_statementRules (statementWithin budget)
    have : Balanced (alternatives (statementRules (statementWithin budget)) .statementExpected) :=
      .alternatives balanced
    obtain ⟨d', rfl, inner⟩ := Leads.nested ⟨o, depth, left, h⟩
    obtain ⟨r, mem, inner⟩ := inner.alternatives balanced
    exact (statementRules_read ih mem inner).weaken (Nat.le_refl 1) (by omega)

theorem statement_reads : statement.Reads 1 (.category .statement) :=
  fun h => statementWithin_reads _ h.bounded

end Ambient.Grammar
