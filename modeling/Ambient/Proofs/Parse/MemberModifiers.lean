import Ambient.Proofs.Grammar.Signed
import Ambient.Proofs.Parse.Modifiers

namespace Ambient

open Rule Grammar

theorem Stream.AtMemberName.follows {u : Stream} (h : u.AtMemberName) :
    canFollowModifier u.current.kind = true := by
  rcases h with is | is | is <;> simp [canFollowModifier, is]

/-- What is said about a modifier that members of interfaces do not have. -/
def Lexeme.refused (t : Lexeme) : Failure :=
  t.failure .modifierOnTypeMember [t.kind.keywordText.getD ""]

section

variable {s : Stream} {o : Options} {depth : Nat}

/-- A modifier in front is refused before any rule is tried. -/
theorem typeMember_fails_first (modifier : s.current.kind.isModifier = true)
    (other : s.current.kind ≠ .readonlyKeyword)
    (follows : canFollowModifier s.next.current.kind = true) :
    (typeMember type).Fails o ⟨s, depth⟩ s.current.refused :=
  .bind (refuseModifier_fails (by simp [nextModifies, modifier, other, follows]))

/-- The modifiers of members are `readonly`, and a modifier behind it is refused. -/
theorem memberModifiers_fails (scanned : Scanned s.toList) (is : s.current.kind = .readonlyKeyword)
    (modifier : s.next.current.kind.isModifier = true)
    (other : s.next.current.kind ≠ .readonlyKeyword)
    (follows : canFollowModifier s.next.next.current.kind = true) :
    memberModifiers.Fails o ⟨s, depth⟩ s.next.current.refused := by
  have behind : canFollowModifier s.next.current.kind = true :=
    canFollowModifier_of_isAnyKeyword (Kind.isAnyKeyword_of_isModifier modifier)
  have one : ModifiersRead typeMemberModifiers s [s.current.kind] s.next :=
    .cons (by simp [typeMemberModifiers, is]) behind (.nil s.next)
  have stop : nextModifies typeMemberModifiers.contains s.next = false := by
    simp [nextModifies, typeMemberModifiers, other]
  have read := modifiers_gives (o := o) (s := ⟨s, depth⟩) one stop (by simp) scanned
    (by decide)
  exact .behind read (.bind (refuseModifier_fails (by simp [nextModifies, modifier, follows])))

/-- Behind `readonly` a modifier is refused by the rules for index signatures and properties, and taken
for the end of a name without parameters by the rule for methods. -/
theorem typeMember_fails_second (row : s.Row) (is : s.current.kind = .readonlyKeyword)
    (modifier : s.next.current.kind.isModifier = true)
    (other : s.next.current.kind ≠ .readonlyKeyword)
    (follows : canFollowModifier s.next.next.current.kind = true) :
    (typeMember type).Fails o ⟨s, depth⟩ ⟨s.next.current.start, .typeMemberExpected, []⟩ := by
  have sound : s.next.current.error = none :=
    (row.scanned.next.genuine List.mem_cons_self).sound_of_word
      (Kind.isAnyKeyword_of_isModifier modifier)
  have not {k : Kind} (plain : k.isModifier = false) : s.next.current.kind ≠ k :=
    Kind.ne_of_class modifier plain
  have refused : memberModifiers.Fails o ⟨s, depth⟩ s.next.current.refused :=
    memberModifiers_fails row.scanned is modifier other follows
  have index : (indexMember type).Fails o ⟨s, depth⟩ s.next.current.refused := .bind refused
  have property : (propertySignature type).Fails o ⟨s, depth⟩ s.next.current.refused :=
    .behind (t := ⟨s, depth⟩) rfl (.bind refused)
  have method : (methodSignature type).Fails o ⟨s, depth⟩
      (s.next.current.failure .tokenExpected [Kind.openParenToken.tokenText.getD "token"]) :=
    .behind (t := ⟨s, depth⟩) rfl (.behind (propertyName_gives (by rw [is]; rfl) _)
      (.behind (.token?_not (not rfl)) (unsigned_fails (not rfl) (not rfl))))
  have call : (callSignature type).Fails o ⟨s, depth⟩
      (s.current.failure .tokenExpected [Kind.openParenToken.tokenText.getD "token"]) :=
    unsigned_fails (by rw [is]; decide) (by rw [is]; decide)
  have construct : (constructSignature type).Fails o ⟨s, depth⟩
      (s.current.failure .tokenExpected [Kind.newKeyword.tokenText.getD "token"]) :=
    .bind (.expect (by rw [is]; decide))
  have le : s.current.start ≤ s.next.current.start := row.start_le s.suffix_next
  have place : s.next.current.refused.position = s.next.current.start :=
    Lexeme.position_failure _ _ _
  have others : ∀ r ∈ [indexMember type, callSignature type, constructSignature type,
      propertySignature type, methodSignature type],
      ∃ g, r.Fails o ⟨s, depth⟩ g ∧ g.position ≤ s.next.current.refused.position := by
    simp only [List.forall_mem_cons, List.not_mem_nil, false_imp_iff, implies_true, and_true, place]
    exact ⟨⟨_, index, Nat.le_of_eq place⟩, ⟨_, call, by rwa [Lexeme.position_failure]⟩,
      ⟨_, construct, by rwa [Lexeme.position_failure]⟩, ⟨_, property, Nat.le_of_eq place⟩,
      ⟨_, method, Nat.le_of_eq (Lexeme.position_failure _ _ _)⟩⟩
  rw [← place]
  exact .behind (refuseModifier_gives (by simp [nextModifies, is]))
    (alternatives_contested (balanced_typeMemberRules type) (by simp) index (by simp) method
      (by rw [place, Lexeme.position_failure])
      (by rw [Lexeme.refused, Lexeme.failure_of_sound sound, Lexeme.failure_of_sound sound]; simp)
      others)

end

section

variable {text : String} {before after : List Lexeme} {bad : Lexeme} {u : Stream} {o : Options}

/-- What the rule for members fails with on a text whose first modifier that is not `readonly` is
`bad`. -/
theorem typeMember_fails_of_lexemes (tokens : lexemes text = before ++ bad :: after ++ u.toList)
    (modifiers : ∀ m ∈ before ++ bad :: after, m.kind.isModifier = true)
    (distinct : ((before ++ bad :: after).map Lexeme.kind).Nodup)
    (allowed : ∀ m ∈ before, m.kind = .readonlyKeyword) (disallowed : bad.kind ≠ .readonlyKeyword)
    (starts : u.current.kind = .openBracketToken ∨ u.AtMemberName) :
    (typeMember type).Fails o ⟨.ofText text, 0⟩
      (if before = [] then bad.refused else ⟨bad.start, .typeMemberExpected, []⟩) := by
  have follows : canFollowModifier u.current.kind = true := by
    rcases starts with is | name
    · simp [canFollowModifier, is]
    · exact name.follows
  have others : ∀ m ∈ after, m.kind.isModifier = true := fun m mem => modifiers m (by simp [mem])
  have modifier := modifiers bad (by simp)
  have row : (Stream.ofText text).toList = before ++ bad :: after ++ u.toList :=
    (Stream.toList_ofText text).trans tokens
  have place := Stream.Row.ofText text
  rcases before with _ | ⟨first, _ | ⟨second, before⟩⟩
  · obtain ⟨rfl, rest⟩ := Stream.next_of_toList row
    exact typeMember_fails_first modifier disallowed (Stream.follows_of_toList rest others follows)
  · obtain ⟨rfl, rest⟩ := Stream.next_of_toList row
    obtain ⟨rfl, rest'⟩ := Stream.next_of_toList rest
    exact typeMember_fails_second place (allowed _ List.mem_cons_self) modifier disallowed
      (Stream.follows_of_toList rest' others follows)
  · have twice : first.kind = second.kind :=
      (allowed first (by simp)).trans (allowed second (by simp)).symm
    simp [twice] at distinct

/-- A text that is a name or a bracket with whatever behind it, and in front of that distinct modifiers
of which `bad` is the first that is not `readonly`, does not parse as a member of an interface. What is
reported is `bad` if it comes first; otherwise it is only that a member is expected at `bad`. -/
theorem parse_of_refused_modifier (tokens : lexemes text = before ++ bad :: after ++ u.toList)
    (modifiers : ∀ m ∈ before ++ bad :: after, m.kind.isModifier = true)
    (distinct : ((before ++ bad :: after).map Lexeme.kind).Nodup)
    (allowed : ∀ m ∈ before, m.kind = .readonlyKeyword) (disallowed : bad.kind ≠ .readonlyKeyword)
    (starts : u.current.kind = .openBracketToken ∨ u.AtMemberName) :
    ∃ e, parse .typeMember o text = .error e ∧ e.toFailure =
      if before = [] then ⟨bad.start, .modifierOnTypeMember, [bad.text]⟩
      else ⟨bad.start, .typeMemberExpected, []⟩ := by
  have fails := typeMember_fails_of_lexemes (o := o) tokens modifiers distinct allowed disallowed starts
  have genuine : bad.Genuine := (scanned_lexemes text).genuine (by simp [tokens])
  have word := Kind.isAnyKeyword_of_isModifier (modifiers bad (by simp))
  rw [Lexeme.refused, genuine.failure_of_word word] at fails
  have all : (entire (typeMember type)).Fails o ⟨.ofText text, 0⟩ _ := .bind fails
  exact ⟨_, parse_of_fails (Prod.ext all rfl), rfl⟩

end

/-- An index signature with two modifiers in front of it. -/
theorem parse_of_refused_modifier_staticReadonly : ∃ e,
    parse .typeMember {} "static readonly [k: string]: A" = .error e ∧
      e.toFailure = ⟨0, .modifierOnTypeMember, ["static"]⟩ := by
  let bad : Lexeme := ⟨.staticKeyword, 0, "static", false, none, none⟩
  let after : Lexeme := ⟨.readonlyKeyword, 7, "readonly", false, none, none⟩
  let u : Stream := ⟨⟨.openBracketToken, 16, "[", false, none, none⟩,
    [⟨.identifier, 17, "k", false, none, none⟩, ⟨.colonToken, 18, ":", false, none, none⟩,
      ⟨.stringKeyword, 20, "string", false, none, none⟩,
      ⟨.closeBracketToken, 26, "]", false, none, none⟩,
      ⟨.colonToken, 27, ":", false, none, none⟩, ⟨.identifier, 29, "A", false, none, none⟩,
      ⟨.endOfFileToken, 30, "", false, none, none⟩]⟩
  have tokens : lexemes "static readonly [k: string]: A" = [] ++ bad :: [after] ++ u.toList := by
    decide +kernel
  exact parse_of_refused_modifier tokens (by decide) (by decide) (by decide) (by decide) (.inl rfl)

/-- A property with `readonly` in front of a modifier that it does not have, and nothing else wrong. -/
theorem not_parse_of_refused_modifier : ¬ ∀ (text : String) (before after : List Lexeme)
    (bad : Lexeme) (u : Stream) (o : Options),
    lexemes text = before ++ bad :: after ++ u.toList →
    (∀ m ∈ before ++ bad :: after, m.kind.isModifier = true) →
    ((before ++ bad :: after).map Lexeme.kind).Nodup →
    (∀ m ∈ before, m.kind = .readonlyKeyword) → bad.kind ≠ .readonlyKeyword →
    u.current.kind = .openBracketToken ∨ u.AtMemberName →
    (∃ n t, (entire (typeMember type)).Gives o ⟨u, 0⟩ n t) →
    ∃ e, parse .typeMember o text = .error e ∧
      e.toFailure = ⟨bad.start, .modifierOnTypeMember, [bad.text]⟩ := by
  intro always
  let text := "readonly public a: A"
  let first : Lexeme := ⟨.readonlyKeyword, 0, "readonly", false, none, none⟩
  let bad : Lexeme := ⟨.publicKeyword, 9, "public", false, none, none⟩
  let u : Stream := ⟨⟨.identifier, 16, "a", false, none, none⟩,
    [⟨.colonToken, 17, ":", false, none, none⟩, ⟨.identifier, 19, "A", false, none, none⟩,
      ⟨.endOfFileToken, 20, "", false, none, none⟩]⟩
  have tokens : lexemes text = [first] ++ bad :: [] ++ u.toList := by decide +kernel
  have member : ∃ n t, (entire (typeMember type)).Gives {} ⟨u, 0⟩ n t :=
    gives_of_isSome (by decide +kernel)
  have name : u.AtMemberName := .inl rfl
  obtain ⟨e, parses, reported⟩ := always text [first] [] bad u {} tokens (by decide) (by decide)
    (by decide) (by decide) (.inr name) member
  have fails := typeMember_fails_of_lexemes (o := {}) tokens (by decide) (by decide) (by decide)
    (by decide) (.inr name)
  have all : (entire (typeMember type)).Fails {} ⟨.ofText text, 0⟩ _ := .bind fails
  have located : parse .typeMember {} text = .error (Failure.locate _ _) :=
    parse_of_fails (Prod.ext all rfl)
  cases located.symm.trans parses
  exact absurd (congrArg Failure.message reported) (by decide)

end Ambient
