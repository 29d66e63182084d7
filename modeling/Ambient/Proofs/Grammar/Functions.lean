import Ambient.Proofs.Grammar.Misplaced
import Ambient.Proofs.Grammar.Signed

namespace Ambient

open Rule Grammar

/-- What has been read as modifiers are tokens of their kinds. -/
theorem ModifiersRead.exists_tokens {allowed ks : List Kind} {s u : Stream}
    (h : ModifiersRead allowed s ks u) (scanned : Scanned s.toList)
    (ends : Kind.endOfFileToken ∉ allowed) :
    ∃ ms, s.toList = ms ++ u.toList ∧ ms.map Lexeme.kind = ks ∧ ∀ m ∈ ms, m.kind ∈ allowed := by
  induction h with
  | nil => exact ⟨[], rfl, rfl, List.forall_mem_nil _⟩
  | @cons s u ks mem follows others ih =>
    obtain ⟨ms, tokens, rfl, all⟩ := ih scanned.next
    have more : s.current.kind ≠ .endOfFileToken := fun is => ends (is ▸ mem)
    rw [Stream.toList_next scanned more] at tokens
    exact ⟨s.current :: ms, congrArg (s.current :: ·) tokens, rfl, List.forall_mem_cons.mpr ⟨mem, all⟩⟩

/-- Modifiers of functions, and behind them `function`. -/
structure FunctionHead (s : Stream) (ms : List Lexeme) (u : Stream) : Prop extends
    Modified s ms u where
  allowed : ∀ m ∈ ms, m.kind ∈ interfaceModifiers
  function : u.current.kind = .functionKeyword

/-- Whether what stands in front of a function is read as a default export: that of a name, with a new
line behind it. -/
def Stream.exportsName (s : Stream) : Bool :=
  s.current.kind = .exportKeyword && s.next.current.kind = .defaultKeyword &&
    s.next.next.current.kind = .declareKeyword && s.next.next.next.current.onNewLine

theorem FunctionHead.of_leads {d : Nat} {s u : Stream} {head : Option String × Option (List Node)}
    (read : (declarationHead interfaceModifiers).Leads d s head u) (row : s.Row)
    (is : u.current.kind = .functionKeyword) : ∃ ms, FunctionHead s ms u := by
  obtain ⟨comment, _, here, h⟩ := read.bind
  obtain rfl := here.documentationHere
  obtain ⟨_, v, read', last⟩ := h.bind
  obtain ⟨-, rfl⟩ := last.pure
  obtain ⟨_, v', loop, h'⟩ := read'.bind
  obtain ⟨_, _, refuse, last⟩ := h'.bind
  obtain rfl := refuseModifier_leads refuse
  obtain ⟨-, rfl⟩ := last.pure
  obtain ⟨ks, modifiers, distinct, -⟩ := modifiers_read loop
  obtain ⟨ms, tokens, rfl, allowed⟩ := modifiers.exists_tokens row.scanned (by decide)
  have plain : ∀ k ∈ interfaceModifiers, k.isModifier = true ∧ k ≠ .constKeyword := by decide
  refine ⟨ms, ⟨tokens, row.scanned, row.chain, fun m mem => plain _ (allowed m mem), distinct, ?_, ?_⟩,
    allowed, is⟩ <;> rw [is] <;> decide

namespace FunctionHead

variable {s u : Stream} {ms : List Lexeme} {m : Lexeme} {o : Options} {depth : Nat} {e : Failure}
  {statement : Rule Nat Node}

theorem next (h : FunctionHead s (m :: ms) u) : s.current = m ∧ FunctionHead s.next ms u := by
  obtain ⟨is, rest⟩ := h.toModified.next
  exact ⟨is, rest, (List.forall_mem_cons.mp h.allowed).2, h.function⟩

section

variable (h : FunctionHead s ms u)
include h

theorem row : s.Row := ⟨h.scanned, h.chain⟩

theorem suffix : u.toList <:+ s.toList := ⟨ms, h.tokens.symm⟩

/-- The first token is one of a few keywords. -/
theorem head : s.current.kind ∈ Kind.functionKeyword :: interfaceModifiers := by
  cases ms with
  | nil => exact h.eq_of_nil ▸ h.function ▸ List.mem_cons_self
  | cons m ms => exact List.mem_cons_of_mem _ (h.next.1 ▸ h.allowed m List.mem_cons_self)

theorem exists_next {k : Kind} (is : s.current.kind = k) (other : k ≠ .functionKeyword) :
    ∃ m ms', ms = m :: ms' ∧ m.kind = k ∧ FunctionHead s.next ms' u := by
  cases ms with
  | nil => exact absurd (is.symm.trans (h.eq_of_nil ▸ h.function)) other
  | cons m ms => exact ⟨m, ms, rfl, h.next.1 ▸ is, h.next.2⟩

theorem binding_failsBy {r : Rule Nat Node} (mem : r ∈ bindingRules) :
    r.FailsBy o ⟨s, depth⟩ u.current.start e := by
  have none : ∀ k ∈ Kind.functionKeyword :: interfaceModifiers,
      k ≠ .importKeyword ∧ k ∉ bindingMarks := by decide
  have next (is : s.current.kind = .exportKeyword) : FunctionHead s.next ms.tail u := by
    obtain ⟨m, ms, rfl, -, rest⟩ := h.exists_next is (by decide)
    exact rest
  have refuses : ∃ t, r.FailsAt o ⟨s, depth⟩ t ∧
      (t = s.current ∨ s.current.kind = .exportKeyword ∧ t = s.next.current) :=
    bindingRules_failAt mem (none _ h.head).1 fun is => (none _ (next is).head).2
  obtain ⟨t, fails, rfl | ⟨is, rfl⟩⟩ := refuses
  · exact .of_failsAt fails (h.row.start_le h.suffix)
  · exact .of_failsAt fails ((next is).row.start_le (next is).suffix)

/-- The other declarations have no use for `function`. -/
theorem declaration_failsBy {r : Rule Nat Node} {f : Front}
    (mem : (r, f) ∈ (statementTable statement).drop 3)
    (owner : functionDeclaration.Fails o ⟨s, depth⟩ e) : r.FailsBy o ⟨s, depth⟩ u.current.start e := by
  have foreign : ∀ entry ∈ (statementTable statement).drop 3, entry.1 = functionDeclaration ∨
      Kind.functionKeyword ∉ entry.2.allowed ∧ Kind.functionKeyword ∉ entry.2.keywords := by
    simp only [statementTable, List.drop_succ_cons, List.drop_zero, List.forall_mem_cons,
      List.not_mem_nil, false_imp_iff, implies_true, and_true, true_or, true_and]
    exact ⟨.inr (by decide), .inr (by decide), .inr (by decide), .inr (by decide),
      .inr (by decide), .inr (by decide), .inr (by decide)⟩
  rcases foreign _ mem with rfl | ⟨not_allowed, not_keyword⟩
  · exact .same owner
  have ends := not_ends_of_front (front_of_declaration mem)
  rcases (statementTable_headed _ mem).fails h.toModified ends with
    ⟨before, m, after, rfl, -, -, fails⟩ | ⟨-, fails⟩
  · have lt : m.start < u.current.start := h.toModified.starts_lt.2 u.current (by simp)
    exact .of_token fails (Nat.le_of_lt lt)
  · exact .of_failsAt (fails (h.function ▸ not_allowed) (h.function ▸ not_keyword)) (Nat.le_refl _)

/-- Behind `export default` there is nothing but `declare` in front of `function`. -/
theorem of_default (is : s.current.kind = .exportKeyword)
    (default : s.next.current.kind = .defaultKeyword) :
    u = s.next.next ∨ s.next.next.current.kind = .declareKeyword ∧ u = s.next.next.next := by
  obtain ⟨first, ms, rfl, is', h1⟩ := h.exists_next is (by decide)
  obtain ⟨second, ms, rfl, default', h2⟩ := h1.exists_next default (by decide)
  have distinct := h.distinct
  rw [List.map_cons, List.map_cons, is', default', List.nodup_cons, List.nodup_cons] at distinct
  obtain ⟨no_export, no_default, distinct⟩ := distinct
  have declare : ∀ m ∈ ms, m.kind = .declareKeyword := fun m mem => by
    have among := h2.allowed m mem
    have kind : m.kind ∈ ms.map Lexeme.kind := List.mem_map_of_mem mem
    simp only [interfaceModifiers, List.mem_cons, List.not_mem_nil, or_false] at among
    rcases among with eq | eq | eq
    · exact absurd (List.mem_cons_of_mem _ (eq ▸ kind)) no_export
    · exact absurd (eq ▸ kind) no_default
    · exact eq
  cases ms with
  | nil => exact .inl h2.eq_of_nil.symm
  | cons third ms =>
    obtain ⟨rfl, h3⟩ := h2.next
    cases ms with
    | nil => exact .inr ⟨declare _ List.mem_cons_self, h3.eq_of_nil.symm⟩
    | cons fourth ms =>
      have same := (declare fourth (by simp)).trans (declare _ List.mem_cons_self).symm
      exact absurd (by simp [same]) (List.nodup_cons.mp distinct).1

/-- A default export of a name ends in front of the function; other exports fail there or earlier. -/
theorem exportAssignment_cases :
    s.exportsName = true ∧ (∃ n, exportAssignment.Gives o ⟨s, depth⟩ n ⟨u, depth⟩) ∨
    s.exportsName = false ∧ exportAssignment.FailsBy o ⟨s, depth⟩ u.current.start e := by
  by_cases is : s.current.kind = .exportKeyword
  case neg =>
    exact .inr ⟨by simp [Stream.exportsName, is],
      .of_failsAt (exportAssignment_failsAt is) (h.row.start_le h.suffix)⟩
  obtain ⟨_, _, -, -, h1⟩ := h.exists_next is (by decide)
  by_cases default : s.next.current.kind = .defaultKeyword
  case neg =>
    have none : ∀ k ∈ Kind.functionKeyword :: interfaceModifiers, k ≠ .equalsToken := by decide
    exact .inr ⟨by simp [Stream.exportsName, default], .of_failsAt
      (exportAssignment_failsAt_next is (none _ h1.head) default) (h1.row.start_le h1.suffix)⟩
  have function := h.function
  rcases h.of_default is default with rfl | ⟨declare, rfl⟩
  · refine .inr ⟨by simp [Stream.exportsName, function], .of_failsAt
      (exportAssignment_failsAt_name is default ?_) (Nat.le_refl _)⟩
    rw [function]
    decide
  · obtain ⟨ends, fails⟩ := exportAssignment_ends_or_failsAt is default
      (by rw [declare]; decide) (by rw [function]; decide)
    cases line : s.next.next.next.current.onNewLine with
    | true => exact .inl ⟨by simp [Stream.exportsName, is, default, declare, line], ends line⟩
    | false => exact .inr ⟨by simp [Stream.exportsName, line], .of_failsAt (fails line) (Nat.le_refl _)⟩

section

variable (owner : functionDeclaration.Fails o ⟨s, depth⟩ e)
include owner

/-- All rules but that for exports fail in front of `function` or as the function does. -/
theorem failsBy {r : Rule Nat Node} (mem : r ∈ statementRules statement) :
    r = exportAssignment ∨ r.FailsBy o ⟨s, depth⟩ u.current.start e := by
  rcases mem_statementRules.mp mem with binding | ⟨f, row⟩ | rfl
  · exact .inr (h.binding_failsBy binding)
  · exact .inr (h.declaration_failsBy row owner)
  · exact .inl rfl

variable [Balanced statement]

theorem statement_fails (plain : s.exportsName = false) (behind : u.current.start < e.position) :
    (alternatives (statementRules statement) .statementExpected).Fails o ⟨s, depth⟩ e := by
  refine FailsBy.alternatives (balanced_statementRules statement) (by simp [statementRules]) owner
    (fun r mem => ?_) behind
  rcases h.failsBy owner mem with rfl | fails
  · rcases h.exportAssignment_cases with ⟨exports, -⟩ | ⟨-, fails⟩
    · exact absurd (exports.symm.trans plain) (by decide)
    · exact fails
  · exact fails

theorem statement_ends (exports : s.exportsName = true) :
    ∃ n, (alternatives (statementRules statement) .statementExpected).Gives o ⟨s, depth⟩ n ⟨u, depth⟩ := by
  obtain ⟨n, gives⟩ : ∃ n, exportAssignment.Gives o ⟨s, depth⟩ n ⟨u, depth⟩ := by
    rcases h.exportAssignment_cases (e := e) with ⟨-, gives⟩ | ⟨plain, -⟩
    · exact gives
    · exact absurd (exports.symm.trans plain) (by decide)
  rcases alternatives_cases (balanced_statementRules statement) .statementExpected o ⟨s, depth⟩ with
    ⟨r, mem, a, t, read, given⟩ | ⟨fs, all, -, -⟩
  · rcases h.failsBy owner mem with rfl | ⟨f, fails, -⟩
    · cases gives.symm.trans read
      exact ⟨n, given⟩
    · exact absurd read fails.not_gives
  · obtain ⟨f, -, fails⟩ := all exportAssignment (by simp [statementRules])
    exact absurd gives fails.not_gives

end

end

end FunctionHead

end Ambient
