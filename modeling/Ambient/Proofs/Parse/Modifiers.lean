import Ambient.Proofs.Grammar.Misplaced
import Ambient.Proofs.Pairing.Entry

namespace Ambient

open Rule Grammar

theorem Kind.keywordText_of_keyword? {text : String} {k : Kind} (h : keyword? text = some k) :
    k.keywordText = some text := by
  obtain ⟨entry, found, rfl⟩ := Option.map_eq_some_iff.mp h
  have all : ∀ entry ∈ keywords, entry.1.keywordText = some entry.2 := by decide +kernel
  have same : entry.2 = text := by simpa using List.find?_some found
  exact same ▸ all entry (List.mem_of_find?_eq_some found)

/-- What is said about a keyword names it as it is written. -/
theorem Lexeme.Genuine.failure_of_word {t : Lexeme} (h : t.Genuine)
    (word : t.kind.isAnyKeyword = true) (m : Message) :
    t.failure m [t.kind.keywordText.getD ""] = ⟨t.start, m, [t.text]⟩ := by
  rw [failure_of_sound (h.sound_of_word word), Kind.keywordText_of_keyword? (h.keyword word),
    Option.getD_some]

section

variable {f : Front} {s u : Stream} {before after : List Lexeme} {bad : Lexeme} {o : Options}

/-- A text with a modifier that its declaration does not allow is no statement. -/
theorem Misplaced.entire_fails (h : Misplaced f s before bad after u) :
    ∃ e, (entire statement).Fails o ⟨s, 0⟩ e ∧ (e = bad.misplaced ↔
      0 < o.depthLimit ∧ bad.kind ∉ classModifiers ∧ exportsReach before = false) := by
  have eq : bad.misplaced = ⟨bad.start, .modifierMisplaced, _⟩ := h.failure_eq _ _
  by_cases room : 0 < o.depthLimit
  · let rules : Rule Nat Node :=
      alternatives (statementRules (statementWithin s.ahead)) .statementExpected
    have : Balanced rules := .alternatives (balanced_statementRules _)
    have below : statement o ⟨s, 0⟩ = nested rules o ⟨s, 0⟩ := statement_eq_nested o ⟨s, 0⟩
    rcases gives_or_fails rules o ⟨s, 1⟩ with ⟨n, v, gives⟩ | ⟨e, fails⟩
    · obtain ⟨stop, place⟩ := h.goes_on gives
      have depth : v = ⟨v.stream, 1⟩ := Balanced.ok_eq gives
      have read : statement.Gives o ⟨s, 0⟩ n ⟨v.stream, 0⟩ :=
        below.trans (Gives.nested room (depth ▸ gives))
      have more : v.stream.current.kind ≠ .endOfFileToken := fun last => stop (last ▸ by decide)
      refine ⟨_, .behind read (.behind .atKind (.ite_neg (by simpa using more) .failHere)), ?_⟩
      refine iff_of_false (fun same => ?_) fun all => (h.reported all.2.1 all.2.2).not_gives gives
      rw [eq] at same
      rcases place with sound | further
      · rw [Lexeme.failure_of_sound sound] at same
        exact absurd (congrArg Failure.message same)
          (show Message.unexpectedToken ≠ .modifierMisplaced by decide)
      · have position := Lexeme.position_failure v.stream.current .unexpectedToken []
        rw [same] at position
        exact Nat.ne_of_lt further position
    · have failed : statement.Fails o ⟨s, 0⟩ e :=
        (congrArg Prod.fst below).trans (Fails.nested room fails)
      refine ⟨e, .bind failed, fun same => ?_, fun all => ?_⟩
      · subst same
        refine ⟨room, fun shared => h.hidden (.inl shared) fails, ?_⟩
        exact Bool.eq_false_iff.mpr fun reach => h.hidden (.inr reach) fails
      · exact fails.unique (h.reported all.2.1 all.2.2)
  · have full : o.depthLimit ≤ (State.mk s 0).depth := Nat.not_lt.mp room
    have failed : statement.Fails o ⟨s, 0⟩ (s.current.failure .typeExpected []) :=
      (congrArg Prod.fst (statement_eq_nested o ⟨s, 0⟩)).trans (Fails.nested_full full)
    refine ⟨_, .bind failed, iff_of_false (fun same => ?_) fun all => room all.1⟩
    have sound := (h.modified.scanned.genuine List.mem_cons_self).sound_of_word
      h.modified.starts
    rw [eq, Lexeme.failure_of_sound sound] at same
    exact absurd (congrArg Failure.message same)
      (show Message.typeExpected ≠ .modifierMisplaced by decide)

end

section

variable {text : String} {f : Front} {before after : List Lexeme} {bad : Lexeme} {u : Stream}
  {o : Options}

/-- A text starts with some modifiers, and from the keyword behind them on with a statement. -/
theorem Misplaced.of_lexemes (front : f ∈ declarationFronts)
    (tokens : lexemes text = before ++ bad :: after ++ u.toList)
    (modifiers : ∀ m ∈ before ++ bad :: after, m.kind.isModifier = true ∧ m.kind ≠ .constKeyword)
    (distinct : ((before ++ bad :: after).map Lexeme.kind).Nodup)
    (allowed : ∀ m ∈ before, m.kind ∈ f.allowed) (disallowed : bad.kind ∉ f.allowed)
    (keyword : u.current.kind ∈ f.keywords) (declared : ∃ n t, statement.Gives o ⟨u, 0⟩ n t) :
    Misplaced f (.ofText text) before bad after u := by
  have row : (Stream.ofText text).toList = before ++ bad :: after ++ u.toList :=
    (Stream.toList_ofText text).trans tokens
  obtain ⟨word, other⟩ := keyword_of_front front _ keyword
  refine ⟨front, ⟨row, ?_, ?_, modifiers, distinct, word, other⟩, allowed, disallowed, keyword, ?_⟩
  · exact Stream.toList_ofText text ▸ scanned_lexemes text
  · exact Stream.toList_ofText text ▸ isChain_lexemes text
  · obtain ⟨n, t, gives⟩ := declared
    rw [Gives, statement_apply] at gives
    have starts : StartsStatement u := statementWithin_starts (leads_of_gives gives)
    intro mem
    have none : ∀ k ∈ nameEnds, k ≠ .equalsToken ∧ canFollowModifier k = false := by decide
    obtain ⟨no_equals, no_modifier⟩ := none _ mem
    rcases starts.2 with equals | follows
    · exact no_equals equals
    · exact absurd (no_modifier.symm.trans follows) (by decide)

/-- A text that is a declaration but for the modifiers in front of its keyword, which are distinct
and of which `bad` is the first that is not allowed there, does not parse as a statement. What is
reported is `bad`, unless it is a modifier that classes have, or the modifiers in front of it are
such as an import or export may start with. -/
theorem parse_of_misplaced_modifier (front : f ∈ declarationFronts)
    (tokens : lexemes text = before ++ bad :: after ++ u.toList)
    (modifiers : ∀ m ∈ before ++ bad :: after, m.kind.isModifier = true ∧ m.kind ≠ .constKeyword)
    (distinct : ((before ++ bad :: after).map Lexeme.kind).Nodup)
    (allowed : ∀ m ∈ before, m.kind ∈ f.allowed) (disallowed : bad.kind ∉ f.allowed)
    (keyword : u.current.kind ∈ f.keywords) (declared : ∃ n t, statement.Gives o ⟨u, 0⟩ n t) :
    ∃ e, parse .statement o text = .error e ∧
      (e.toFailure = ⟨bad.start, .modifierMisplaced, [bad.text]⟩ ↔
        bad.kind ∉ classModifiers ∧ exportsReach before = false) := by
  have misplaced := Misplaced.of_lexemes front tokens modifiers distinct allowed disallowed keyword
    declared
  have genuine : bad.Genuine := (scanned_lexemes text).genuine (by simp [tokens])
  have room : 0 < o.depthLimit := by
    obtain ⟨n, t, gives⟩ := declared
    rw [Gives, statement_eq_nested] at gives
    exact (Gives.of_nested gives).1
  obtain ⟨e, fails, reported⟩ := misplaced.entire_fails (o := o)
  refine ⟨e.locate (LineMap.ofText text), parse_of_fails (Prod.ext fails rfl), ?_⟩
  rw [Lexeme.misplaced,
    genuine.failure_of_word (Kind.isAnyKeyword_of_isModifier misplaced.modifier.1)] at reported
  exact reported.trans (and_iff_right room)

end

/-- A class with a modifier of members behind one that it may have. -/
theorem parse_of_misplaced_modifier_declareStatic : ∃ e,
    parse .statement {} "declare static class Foo \x7b\x7d" = .error e ∧
      e.toFailure = ⟨8, .modifierMisplaced, ["static"]⟩ := by
  let declare : Lexeme := ⟨.declareKeyword, 0, "declare", false, none, none⟩
  let bad : Lexeme := ⟨.staticKeyword, 8, "static", false, none, none⟩
  let u : Stream := ⟨⟨.classKeyword, 15, "class", false, none, none⟩,
    [⟨.identifier, 21, "Foo", false, none, none⟩, ⟨.openBraceToken, 25, "\x7b", false, none, none⟩,
      ⟨.closeBraceToken, 26, "\x7d", false, none, none⟩, ⟨.endOfFileToken, 27, "", false, none, none⟩]⟩
  have front : (⟨classModifiers, [.classKeyword], false⟩ : Front) ∈ declarationFronts := by
    simp [declarationFronts, statementTable]
  have tokens : lexemes "declare static class Foo \x7b\x7d" = [declare] ++ bad :: [] ++ u.toList := by
    decide +kernel
  have declared : ∃ n t, statement.Gives {} ⟨u, 0⟩ n t := gives_of_isSome (by decide +kernel)
  obtain ⟨e, parses, reported⟩ := parse_of_misplaced_modifier front tokens (by decide) (by decide)
    (by decide) (by decide) (by decide) declared
  exact ⟨e, parses, reported.mpr (by decide)⟩

/-- Without a modifier in front of it the same modifier is not reported. -/
theorem not_parse_of_misplaced_modifier : ¬ ∀ (text : String) (f : Front)
    (before after : List Lexeme) (bad : Lexeme) (u : Stream) (o : Options), f ∈ declarationFronts →
    lexemes text = before ++ bad :: after ++ u.toList →
    (∀ m ∈ before ++ bad :: after, m.kind.isModifier = true ∧ m.kind ≠ .constKeyword) →
    ((before ++ bad :: after).map Lexeme.kind).Nodup →
    (∀ m ∈ before, m.kind ∈ f.allowed) → bad.kind ∉ f.allowed → u.current.kind ∈ f.keywords →
    (∃ n t, statement.Gives o ⟨u, 0⟩ n t) →
    ∃ e, parse .statement o text = .error e ∧
      e.toFailure = ⟨bad.start, .modifierMisplaced, [bad.text]⟩ := by
  intro always
  let text := "static class Foo \x7b\x7d"
  let bad : Lexeme := ⟨.staticKeyword, 0, "static", false, none, none⟩
  let u : Stream := ⟨⟨.classKeyword, 7, "class", false, none, none⟩,
    [⟨.identifier, 13, "Foo", false, none, none⟩, ⟨.openBraceToken, 17, "\x7b", false, none, none⟩,
      ⟨.closeBraceToken, 18, "\x7d", false, none, none⟩, ⟨.endOfFileToken, 19, "", false, none, none⟩]⟩
  have front : (⟨classModifiers, [.classKeyword], false⟩ : Front) ∈ declarationFronts := by
    simp [declarationFronts, statementTable]
  have tokens : lexemes text = [] ++ bad :: [] ++ u.toList := by decide +kernel
  have declared : ∃ n t, statement.Gives {} ⟨u, 0⟩ n t := gives_of_isSome (by decide +kernel)
  obtain ⟨e, parses, reported⟩ := always text _ [] [] bad u {} front tokens (by decide) (by decide)
    (by decide) (by decide) (by decide) declared
  have misplaced := Misplaced.of_lexemes front tokens (by decide) (by decide) (by decide) (by decide)
    (by decide) declared
  obtain ⟨f, fails, shown⟩ := misplaced.entire_fails (o := {})
  have located : parse .statement {} text = .error (f.locate _) := parse_of_fails (Prod.ext fails rfl)
  cases located.symm.trans parses
  have named : bad.misplaced = ⟨0, .modifierMisplaced, ["static"]⟩ := by decide
  exact absurd (shown.mp (reported.trans named.symm)).2.2 (by decide)

end Ambient
