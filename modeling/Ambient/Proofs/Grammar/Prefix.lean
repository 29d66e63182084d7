import Ambient.Proofs.Grammar.Fails
import Ambient.Proofs.Grammar.Heritage
import Ambient.Proofs.Lexeme.Scans

namespace Ambient

open Rule Grammar

namespace Lexeme

variable {t : Lexeme}

theorem Genuine.text_ne_empty (h : t.Genuine) (word : t.kind.isAnyKeyword = true) : t.text ≠ "" := by
  intro empty
  have found := h.keyword word
  rw [empty] at found
  cases found

theorem Genuine.sound_of_word (h : t.Genuine) (word : t.kind.isAnyKeyword = true) :
    t.error = none := by
  refine h.error_eq_none ?_ ?_ ?_ <;> intro is <;> rw [is] at word <;> cases word

/-- What is said about a modifier that may not stand where it is. -/
def misplaced (t : Lexeme) : Failure := t.failure .modifierMisplaced [t.kind.keywordText.getD ""]

end Lexeme

theorem Scanned.genuine {ts : List Lexeme} (h : Scanned ts) {t : Lexeme} (mem : t ∈ ts) : t.Genuine := by
  induction h with
  | ending _ genuine => exact List.mem_singleton.mp mem ▸ genuine
  | cons _ genuine _ ih =>
    rcases List.mem_cons.mp mem with rfl | mem
    · exact genuine
    · exact ih mem

theorem Kind.isAnyKeyword_of_isModifier {k : Kind} (h : k.isModifier = true) :
    k.isAnyKeyword = true := by
  revert h
  cases k <;> first | exact fun _ => rfl | decide

theorem canFollowModifier_of_isAnyKeyword {k : Kind} (h : k.isAnyKeyword = true) :
    canFollowModifier k = true := by
  simp [canFollowModifier, Kind.isMemberName, h]

theorem Stream.eq_of_toList_eq {s u : Stream} (h : s.toList = u.toList) : s = u := by
  obtain ⟨current, ahead⟩ := s
  obtain ⟨rfl, rfl⟩ := List.cons.inj h
  rfl

theorem Stream.next_of_toList {s u : Stream} {m : Lexeme} {ms : List Lexeme}
    (row : s.toList = m :: ms ++ u.toList) : s.current = m ∧ s.next.toList = ms ++ u.toList := by
  obtain ⟨current, ahead⟩ := s
  obtain ⟨rfl, rfl⟩ := List.cons.inj row
  refine ⟨rfl, ?_⟩
  cases ms <;> rfl

/-- Modifiers can stand behind a modifier, and so can what follows them if it starts in that way. -/
theorem Stream.follows_of_toList {s u : Stream} {ms : List Lexeme} (row : s.toList = ms ++ u.toList)
    (modifiers : ∀ m ∈ ms, m.kind.isModifier = true)
    (starts : canFollowModifier u.current.kind = true) : canFollowModifier s.current.kind = true := by
  cases ms with
  | nil => exact Stream.eq_of_toList_eq row ▸ starts
  | cons m ms =>
    obtain ⟨rfl, -⟩ := Stream.next_of_toList row
    have modifier := modifiers _ List.mem_cons_self
    exact canFollowModifier_of_isAnyKeyword (Kind.isAnyKeyword_of_isModifier modifier)

/-- From `s` to `u` there are some modifiers, none of them twice, and at `u` there is a keyword. `const`
is no modifier here, since it may be the keyword. -/
structure Modified (s : Stream) (ms : List Lexeme) (u : Stream) : Prop where
  tokens : s.toList = ms ++ u.toList
  scanned : Scanned s.toList
  chain : s.toList.IsChain Lexeme.Before
  modifiers : ∀ m ∈ ms, m.kind.isModifier = true ∧ m.kind ≠ .constKeyword
  distinct : (ms.map Lexeme.kind).Nodup
  keyword : u.current.kind.isAnyKeyword = true
  other : u.current.kind.isModifier = true → u.current.kind = .constKeyword

namespace Modified

variable {s u : Stream} {m : Lexeme} {ms front after : List Lexeme} {allowed : List Kind}

theorem word (h : Modified s ms u) (mem : m ∈ ms) : m.kind.isAnyKeyword = true :=
  Kind.isAnyKeyword_of_isModifier (h.modifiers m mem).1

theorem next (h : Modified s (m :: ms) u) : s.current = m ∧ Modified s.next ms u := by
  obtain ⟨rfl, tokens⟩ := Stream.next_of_toList h.tokens
  have chain : (s.current :: ms ++ u.toList).IsChain Lexeme.Before := h.tokens ▸ h.chain
  have behind : (ms ++ u.toList).IsChain Lexeme.Before := chain.tail
  exact ⟨rfl, tokens, h.scanned.next, tokens ▸ behind,
    fun m mem => h.modifiers m (List.mem_cons_of_mem _ mem), (List.nodup_cons.mp h.distinct).2,
    h.keyword, h.other⟩

/-- What comes first can stand behind a modifier. -/
theorem follows (h : Modified s ms u) : canFollowModifier s.current.kind = true :=
  Stream.follows_of_toList h.tokens (fun m mem => (h.modifiers m mem).1)
    (canFollowModifier_of_isAnyKeyword h.keyword)

theorem eq_of_nil (h : Modified s [] u) : s = u := Stream.eq_of_toList_eq h.tokens

/-- Modifiers that are allowed are read up to the keyword. -/
theorem read (h : Modified s ms u) (mem : ∀ m ∈ ms, m.kind ∈ allowed) :
    ModifiersRead allowed s (ms.map Lexeme.kind) u := by
  induction ms generalizing s with
  | nil =>
    obtain rfl := h.eq_of_nil
    exact .nil s
  | cons m ms ih =>
    obtain ⟨rfl, rest⟩ := h.next
    obtain ⟨first, others⟩ := List.forall_mem_cons.mp mem
    exact .cons first rest.follows (ih rest others)

/-- Modifiers that are allowed are read up to one that is not. -/
theorem read_front (h : Modified s (front ++ m :: after) u) (mem : ∀ k ∈ front, k.kind ∈ allowed) :
    ∃ v : Stream, v.current = m ∧ canFollowModifier v.next.current.kind = true ∧
      ModifiersRead allowed s (front.map Lexeme.kind) v := by
  induction front generalizing s with
  | nil =>
    obtain ⟨is, rest⟩ := h.next
    exact ⟨s, is, rest.follows, .nil s⟩
  | cons first front ih =>
    obtain ⟨rfl, rest⟩ := h.next
    obtain ⟨allowed, others⟩ := List.forall_mem_cons.mp mem
    obtain ⟨v, is, follows, read⟩ := ih rest others
    exact ⟨v, is, follows, .cons allowed rest.follows read⟩

end Modified

section

variable {s u : Stream} {m : Lexeme} {ms front after : List Lexeme} {allowed : List Kind}
  {o : Options} {depth : Nat}

theorem declarationModifiers_gives (h : Modified s ms u) (ends : allowed.contains .endOfFileToken = false)
    (mem : ∀ m ∈ ms, m.kind ∈ allowed) (stop : u.current.kind ∉ allowed) :
    ∃ l, (declarationModifiers allowed).Gives o ⟨s, depth⟩ l ⟨u, depth⟩ := by
  have loop := modifiers_gives (o := o) (s := ⟨s, depth⟩) (h.read mem) (by simp [nextModifies, stop])
    h.distinct h.scanned ends
  have refuses : (refuseModifier .modifierMisplaced (· = .constKeyword)).Gives o ⟨u, depth⟩ ()
      ⟨u, depth⟩ := by
    refine refuseModifier_gives ?_
    by_cases modifier : u.current.kind.isModifier = true
    · simp [nextModifies, h.other modifier]
    · simp [nextModifies, modifier]
  exact ⟨_, .bind loop (.bind refuses .pure)⟩

/-- A modifier that comes next is refused. -/
theorem refuseModifier_fails {message : Message} {exempted : Kind → Bool}
    (is : nextModifies (fun k => k.isModifier && !exempted k) s = true) :
    (refuseModifier message exempted).Fails o ⟨s, depth⟩
      (s.current.failure message [s.current.kind.keywordText.getD ""]) := by
  have found := atModifier_gives (fun k => k.isModifier && !exempted k) o ⟨s, depth⟩
  rw [is] at found
  exact .behind found (.ite_pos rfl (.behind .current .failHere))

/-- The first modifier that is not allowed is refused. -/
theorem declarationModifiers_fails (h : Modified s (front ++ m :: after) u)
    (ends : allowed.contains .endOfFileToken = false) (mem : ∀ k ∈ front, k.kind ∈ allowed)
    (stop : m.kind ∉ allowed) :
    (declarationModifiers allowed).Fails o ⟨s, depth⟩ m.misplaced := by
  obtain ⟨v, rfl, follows, read⟩ := h.read_front mem
  obtain ⟨modifier, plain⟩ := h.modifiers v.current (by simp)
  have distinct : (front.map Lexeme.kind).Nodup := by
    have all := h.distinct
    rw [List.map_append] at all
    exact (List.nodup_append.mp all).1
  have loop := modifiers_gives (o := o) (s := ⟨s, depth⟩) read (by simp [nextModifies, stop])
    distinct h.scanned ends
  exact .behind loop (.bind (refuseModifier_fails (by simp [nextModifies, modifier, plain, follows])))

end

/-- A rule that reads modifiers and then a keyword. -/
structure Headed (f : Front) (r : Rule Nat Node) : Prop where
  modifiers : ∀ {o s e}, (declarationModifiers f.allowed).Fails o s e → r.Fails o s e
  keyword : ∀ {o s l t}, (declarationModifiers f.allowed).Gives o s l t →
    t.stream.current.kind ∉ f.keywords →
      ∃ m arguments, m ≠ .modifierMisplaced ∧ r.Fails o s (t.stream.current.failure m arguments)

namespace Headed

/-- A rule that starts with the head of a declaration. -/
theorem of_head {f : Front} {rest : Option String × Option (List Node) → Rule Nat Node}
    (other : ∀ {o head t}, t.stream.current.kind ∉ f.keywords → ∃ m arguments,
      m ≠ .modifierMisplaced ∧ (rest head).Fails o t (t.stream.current.failure m arguments)) :
    Headed f (declarationHead f.allowed >>= rest) where
  modifiers h := .bind (.behind (t := _) rfl (.bind h))
  keyword {o s l t} h not_mem := by
    have head : (declarationHead f.allowed).Gives o s (_, l) t := .bind rfl (.bind h .pure)
    obtain ⟨m, arguments, ne, fails⟩ := other not_mem
    exact ⟨m, arguments, ne, .behind head fails⟩

/-- A declaration with one keyword. -/
theorem of_expect {allowed : List Kind} {k : Kind} {last : Bool}
    {rest : Option String × Option (List Node) → Rule Nat Node} :
    Headed ⟨allowed, [k], last⟩
      (declarationHead allowed >>= fun head => expect k >>= fun _ => rest head) :=
  of_head fun other => ⟨.tokenExpected, _, by decide, .bind (.expect (by simpa using other))⟩

end Headed

/-- All rules for declarations read modifiers and then a keyword. -/
theorem statementTable_headed {statement : Rule Nat Node} :
    ∀ e ∈ (statementTable statement).drop 3, Headed e.2 e.1 := by
  simp only [statementTable, List.drop_succ_cons, List.drop_zero, List.forall_mem_cons,
    List.not_mem_nil, false_imp_iff, implies_true, and_true]
  refine ⟨.of_expect, .of_expect, .of_expect, .of_expect, .of_expect, ?_, ?_, ?_⟩
  · refine .of_head fun {o head t} other => ⟨.variableExpected, [], by decide, .behind .current ?_⟩
    cases flags : variableFlags t.stream.current.kind with
    | none => exact .failHere
    | some _ => exact absurd (mem_of_variableFlags flags) other
  · refine .of_head fun {o head t} other => ⟨.tokenExpected, ["namespace"], by decide, .behind .current ?_⟩
    cases flags : moduleFlags t.stream.current.kind with
    | none => exact .failHere
    | some _ => exact absurd (mem_of_moduleFlags flags) other
  · refine ⟨fun h => .bind h, fun h other => ⟨.tokenExpected, _, by decide, .behind h (.bind (.expect ?_))⟩⟩
    simpa using other

/-- A rule fails at a token, and not because of a modifier there. -/
def Rule.FailsAt (r : Rule Nat Node) (o : Options) (s : State Nat) (t : Lexeme) : Prop :=
  ∃ m arguments, m ≠ .modifierMisplaced ∧ r.Fails o s (t.failure m arguments)

/-- Either all elements of a list have a property or there is a first one that has not. -/
theorem exists_first {α : Type} (p : α → Prop) (l : List α) : (∀ a ∈ l, p a) ∨
    ∃ front a after, l = front ++ a :: after ∧ (∀ b ∈ front, p b) ∧ ¬ p a := by
  induction l with
  | nil => exact .inl nofun
  | cons a l ih =>
    by_cases first : p a
    · rcases ih with all | ⟨front, b, after, rfl, before, not⟩
      · exact .inl (List.forall_mem_cons.mpr ⟨first, all⟩)
      · exact .inr ⟨a :: front, b, after, rfl, List.forall_mem_cons.mpr ⟨first, before⟩, not⟩
    · exact .inr ⟨[], a, l, rfl, nofun, first⟩

section

variable {s u : Stream} {m : Lexeme} {ms before after : List Lexeme} {bad : Lexeme} {o : Options}
  {depth : Nat}

/-- A rule for a declaration fails at the first modifier that it does not allow, or at a keyword that
is not its own. -/
theorem Headed.fails {f : Front} {r : Rule Nat Node} (headed : Headed f r) (h : Modified s ms u)
    (ends : f.allowed.contains .endOfFileToken = false) :
    (∃ front m after, ms = front ++ m :: after ∧ (∀ k ∈ front, k.kind ∈ f.allowed) ∧
      m.kind ∉ f.allowed ∧ r.Fails o ⟨s, depth⟩ m.misplaced) ∨
    (∀ m ∈ ms, m.kind ∈ f.allowed) ∧ (u.current.kind ∉ f.allowed → u.current.kind ∉ f.keywords →
      r.FailsAt o ⟨s, depth⟩ u.current) := by
  rcases exists_first (fun m => m.kind ∈ f.allowed) ms with all | ⟨front, m, after, rfl, some, not⟩
  · refine .inr ⟨all, fun other stop => ?_⟩
    have reads : ∃ l, (declarationModifiers f.allowed).Gives o ⟨s, depth⟩ l ⟨u, depth⟩ :=
      declarationModifiers_gives h ends all other
    obtain ⟨l, read⟩ := reads
    exact headed.keyword read stop
  · exact .inl ⟨front, m, after, rfl, some, not,
      headed.modifiers (declarationModifiers_fails h ends some not)⟩

/-- The modifiers and the keyword have their places one behind the other. -/
theorem Modified.pairwise (h : Modified s ms u) :
    (ms ++ [u.current]).Pairwise fun t t' => t.start < t'.start := by
  have row : s.toList = (ms ++ [u.current]) ++ u.ahead := by
    rw [h.tokens, List.append_assoc]
    rfl
  have chain : (ms ++ [u.current]).IsChain Lexeme.Before := (row ▸ h.chain).left_of_append
  have genuine : ∀ t ∈ ms ++ [u.current], t.Genuine := fun t mem =>
    h.scanned.genuine (row ▸ List.mem_append_left _ mem)
  have word : ∀ t ∈ ms ++ [u.current], t.kind.isAnyKeyword = true :=
    List.forall_mem_append.mpr ⟨fun m mem => h.word mem, List.forall_mem_singleton.mpr h.keyword⟩
  refine List.isChain_iff_pairwise.mp (chain.imp_of_mem_imp fun t t' mem _ before => ?_)
  have apart := before.start_eq_iff.not.mpr ((genuine t mem).text_ne_empty (word t mem))
  exact Nat.lt_of_le_of_ne before.start_le apart

/-- The places in front of one of the modifiers, and behind it. -/
theorem Modified.starts_lt (h : Modified s (before ++ m :: after) u) :
    (∀ k ∈ before, k.start < m.start) ∧ ∀ t ∈ after ++ [u.current], m.start < t.start := by
  have row := h.pairwise
  rw [List.append_assoc, List.pairwise_append] at row
  exact ⟨fun k mem => row.2.2 k mem m List.mem_cons_self, (List.pairwise_cons.mp row.2.1).1⟩

end

namespace Grammar

section

variable {s : Stream} {o : Options} {depth : Nat}

theorem importDeclaration_failsAt (other : s.current.kind ≠ .importKeyword) :
    importDeclaration.FailsAt o ⟨s, depth⟩ s.current :=
  ⟨.tokenExpected, _, by decide, .bind (.expect other)⟩

theorem namespaceExport_failsAt (other : s.current.kind ≠ .exportKeyword) :
    namespaceExport.FailsAt o ⟨s, depth⟩ s.current :=
  ⟨.tokenExpected, _, by decide, .bind (.expect other)⟩

theorem namespaceExport_failsAt_next (is : s.current.kind = .exportKeyword)
    (other : s.next.current.kind ≠ .asKeyword) :
    namespaceExport.FailsAt o ⟨s, depth⟩ s.next.current :=
  ⟨.tokenExpected, _, by decide, .behind (.expect is) (.bind (.expect other))⟩

theorem exportDeclaration_failsAt (other : s.current.kind ≠ .exportKeyword) :
    exportDeclaration.FailsAt o ⟨s, depth⟩ s.current :=
  ⟨.tokenExpected, _, by decide, .bind (.expect other)⟩

theorem exportDeclaration_failsAt_next (is : s.current.kind = .exportKeyword)
    (type : s.next.current.kind ≠ .typeKeyword) (all : s.next.current.kind ≠ .asteriskToken)
    (brace : s.next.current.kind ≠ .openBraceToken) :
    exportDeclaration.FailsAt o ⟨s, depth⟩ s.next.current := by
  have plain (follows : Kind → Bool) :
      (acceptTypeOnly follows).Gives o ⟨s.next, depth⟩ false ⟨s.next, depth⟩ :=
    .bind (.lookAhead (.bind (.accept_not type) .pure)) (.ite_neg (by decide) .pure)
  exact ⟨.tokenExpected, _, by decide, .behind (.expect is) (.behind (plain _) (.behind (.accept_not all)
    (.ite_neg (by decide) (.bind (.bind (.expect brace))))))⟩

theorem exportAssignment_failsAt (other : s.current.kind ≠ .exportKeyword) :
    exportAssignment.FailsAt o ⟨s, depth⟩ s.current :=
  ⟨.tokenExpected, _, by decide, .bind (.expect other)⟩

theorem exportAssignment_failsAt_next (is : s.current.kind = .exportKeyword)
    (equals : s.next.current.kind ≠ .equalsToken) (default : s.next.current.kind ≠ .defaultKeyword) :
    exportAssignment.FailsAt o ⟨s, depth⟩ s.next.current := by
  refine ⟨.tokenExpected, ["="], by decide, .behind (.expect is) (.behind .atKind (.behind .atKind ?_))⟩
  exact .ite_neg (by simp [State.next, equals, default]) .failHere

/-- A default export without a name fails there. -/
theorem exportAssignment_failsAt_name (is : s.current.kind = .exportKeyword)
    (default : s.next.current.kind = .defaultKeyword) (other : s.next.next.current.kind.isName ≠ true) :
    exportAssignment.FailsAt o ⟨s, depth⟩ s.next.next.current := by
  refine ⟨.identifierExpected, [], by decide, .behind (.expect is) (.behind .atKind (.behind .atKind ?_))⟩
  refine .ite_pos (by simp [State.next, default]) (.behind .advance (.bind (.bind ?_)))
  exact .behind .current (.ite_neg other .failHere)

/-- A name without dots. -/
theorem entityName_gives (name : s.current.kind.isName = true)
    (stop : s.next.current.kind ≠ .dotToken) :
    entityName.Gives o ⟨s, depth⟩ (.identifier s.current.value none) ⟨s.next, depth⟩ := by
  have first : (Grammar.name).Gives o ⟨s, depth⟩ (.identifier s.current.value none)
      ⟨s.next, depth⟩ := .bind .current (.ite_pos name (.bind .advance .pure))
  refine .bind first (.closingLevels (.iterate_stop (t := ⟨s.next, depth⟩) ?_))
  exact .bind .atKind (.ite_neg (mt of_decide_eq_true stop) .pure)

/-- A default export of a name ends at a token on a new line that neither goes on with the name nor
ends a statement; on the same line it fails there. -/
theorem exportAssignment_ends_or_failsAt (is : s.current.kind = .exportKeyword)
    (default : s.next.current.kind = .defaultKeyword) (name : s.next.next.current.kind.isName = true)
    (stop : s.next.next.next.current.kind ∉
      [Kind.dotToken, .semicolonToken, .closeBraceToken, .endOfFileToken]) :
    (s.next.next.next.current.onNewLine = true →
      ∃ n, exportAssignment.Gives o ⟨s, depth⟩ n ⟨s.next.next.next, depth⟩) ∧
    (s.next.next.next.current.onNewLine = false →
      exportAssignment.FailsAt o ⟨s, depth⟩ s.next.next.next.current) := by
  simp only [List.mem_cons, List.not_mem_nil, or_false, not_or] at stop
  obtain ⟨dot, semicolon, brace, more⟩ := stop
  have named : entityName.Gives o ⟨s.next.next, depth⟩ _ ⟨s.next.next.next, depth⟩ :=
    entityName_gives name dot
  have found : (decide (s.next.current.kind = .equalsToken) ||
      decide (s.next.current.kind = .defaultKeyword)) = true := by simp [default]
  refine ⟨fun line => ?_, fun line => ?_⟩
  · have ended : Rule.semicolon.Gives o ⟨s.next.next.next, depth⟩ () ⟨s.next.next.next, depth⟩ :=
      .semicolon_of_line semicolon line
    exact ⟨_, .bind (.expect is) (.bind .atKind (.bind .atKind (.ite_pos found (.bind .advance
      (.bind named (.bind ended .pure))))))⟩
  · refine ⟨.tokenExpected, [";"], by decide, .behind (.expect is) (.behind .atKind (.behind .atKind
      (.ite_pos found (.behind .advance (.behind named (.bind ?_))))))⟩
    exact .semicolon semicolon brace more line

end

end Grammar

end Ambient
