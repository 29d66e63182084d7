import Ambient.Proofs.Grammar.Gives
import Ambient.Proofs.Lexeme.Spelling
import Ambient.Proofs.Parse.Survival

namespace Ambient.Brackets

/-- Some pairs of brackets. -/
def pairs : Nat → List Char
  | 0 => []
  | w + 1 => '[' :: ']' :: pairs w

/-- A name in `k` pairs of parentheses, with `w` pairs of brackets behind it and behind each of
them. -/
def spelled (w : Nat) : Nat → List Char
  | 0 => 'A' :: pairs w
  | k + 1 => '(' :: (spelled w k ++ ')' :: pairs w)

/-- A type with pairs of brackets behind it. -/
def arrays : Nat → Node → Node
  | 0, n => n
  | w + 1, n => arrays w (.arrayType n)

/-- The tree that `spelled` spells. -/
def tree (w : Nat) : Nat → Node
  | 0 => arrays w (.typeReference (.identifier "A" none) none)
  | k + 1 => arrays w (.parenthesizedType (tree w k))

def kind : Char → Kind
  | '(' => .openParenToken
  | ')' => .closeParenToken
  | '[' => .openBracketToken
  | ']' => .closeBracketToken
  | _ => .identifier

/-- The token that a character is. -/
def mark (offset : Nat) (c : Char) : Lexeme := ⟨kind c, offset, String.ofList [c], false, none, none⟩

def marks (offset : Nat) : List Char → List Lexeme
  | [] => []
  | c :: cs => mark offset c :: marks (offset + 1) cs

theorem marks_append (offset : Nat) (cs ds : List Char) :
    marks offset (cs ++ ds) = marks offset cs ++ marks (offset + cs.length) ds := by
  induction cs generalizing offset with
  | nil => rfl
  | cons c cs ih =>
    rw [List.cons_append, marks, marks, ih, List.length_cons, List.cons_append,
      Nat.add_right_comm, Nat.add_assoc]

/-- Every character is a bracket, or a name that no other one follows. -/
def Separate : List Char → Prop
  | [] => True
  | c :: cs => (c ∈ ['(', ')', '[', ']'] ∨ c = 'A' ∧ cs.head? ≠ some 'A') ∧ Separate cs

theorem Separate.pairs {cs : List Char} (h : Separate cs) (w : Nat) :
    Separate (pairs w ++ cs) := by
  induction w with
  | zero => exact h
  | succ w ih => exact ⟨.inl (by decide), .inl (by decide), ih⟩

theorem head_pairs {cs : List Char} (h : cs.head? ≠ some 'A') (w : Nat) :
    (pairs w ++ cs).head? ≠ some 'A' := by
  cases w with
  | zero => exact h
  | succ w => simp [pairs]

theorem Separate.spelled {cs : List Char} (h : Separate cs) (first : cs.head? ≠ some 'A')
    (w k : Nat) : Separate (spelled w k ++ cs) := by
  induction k generalizing cs with
  | zero => exact ⟨.inr ⟨rfl, head_pairs first w⟩, h.pairs w⟩
  | succ k ih =>
    have inner : Separate (Brackets.spelled w k ++ ')' :: (Brackets.pairs w ++ cs)) :=
      ih ⟨.inl (by decide), h.pairs w⟩ (by simp)
    rw [Brackets.spelled, List.cons_append, List.append_assoc]
    exact ⟨.inl (by decide), inner⟩

/-- No bracket can be part of a name. -/
theorem Separate.behind {cs : List Char} (h : Separate cs) (first : cs.head? ≠ some 'A') :
    ∀ c ∈ cs.head?, isIdentifierPart c = false := by
  cases cs with
  | nil => simp
  | cons c cs =>
    rintro d ⟨⟩
    rcases h.1 with bracket | ⟨rfl, -⟩
    · have all : (['(', ')', '[', ']'].all fun c => !isIdentifierPart c) = true := by decide +kernel
      simpa using List.all_eq_true.mp all c bracket
    · exact absurd rfl first

theorem scan_mark {c : Char} {cs : List Char} (h : Separate (c :: cs)) (offset : Nat) :
    Cursor.scan ⟨offset, c :: cs⟩ = (mark offset c, ⟨offset + 1, cs⟩) := by
  obtain ⟨bracket | ⟨rfl, first⟩, others⟩ := h
  · simp only [List.mem_cons, List.not_mem_nil, or_false] at bracket
    rcases bracket with rfl | rfl | rfl | rfl <;> exact Cursor.scan_token [_] rfl rfl
  · have word := Reading.word_append ['A'] (by decide) (others.behind first)
    exact Cursor.scan_token ['A'] rfl word

/-- The end of a text. -/
def ending (offset : Nat) : Lexeme := ⟨.endOfFileToken, offset, "", false, none, none⟩

theorem lexemesFrom_marks {cs : List Char} (h : Separate cs) (before : List Lexeme) {bound : Nat}
    (enough : cs.length < bound) (offset : Nat) :
    Cursor.lexemesFrom before bound ⟨offset, cs⟩ =
      before.reverse ++ marks offset cs ++ [ending (offset + cs.length)] := by
  induction cs generalizing before bound offset with
  | nil =>
    obtain ⟨bound, rfl⟩ := Nat.exists_eq_succ_of_ne_zero (Nat.ne_zero_of_lt enough)
    have last : Cursor.scan ⟨offset, []⟩ = (ending offset, ⟨offset, []⟩) :=
      Cursor.scan_token [] rfl rfl
    rw [Cursor.lexemesFrom, last]
    simp [marks, ending]
  | cons c cs ih =>
    obtain ⟨bound, rfl⟩ := Nat.exists_eq_succ_of_ne_zero (Nat.ne_zero_of_lt enough)
    have more : kind c ≠ .endOfFileToken := by
      unfold kind
      split <;> decide
    rw [List.length_cons] at enough ⊢
    rw [Cursor.lexemesFrom_cons (scan_mark h offset) more, ih h.2 _ (by omega), marks,
      List.reverse_cons, Nat.add_right_comm offset 1, Nat.add_assoc offset]
    simp

/-- A declaration of the type that `spelled` spells. -/
def text (w k : Nat) : String :=
  String.ofList (['t', 'y', 'p', 'e'] ++ ' ' :: (['T'] ++ (['='] ++ spelled w k)))

def typeToken : Lexeme := ⟨.typeKeyword, 0, String.ofList ['t', 'y', 'p', 'e'], false, none, none⟩

def nameToken : Lexeme := ⟨.identifier, 5, String.ofList ['T'], false, none, none⟩

def equalsToken : Lexeme := ⟨.equalsToken, 6, String.ofList ['='], false, none, none⟩

theorem scan_equals (w k : Nat) :
    Cursor.scan ⟨6, ['='] ++ spelled w k⟩ = (equalsToken, ⟨7, spelled w k⟩) := by
  cases k <;> exact Cursor.scan_token ['='] rfl rfl

theorem lexemes_text (w k : Nat) : lexemes (text w k) =
    typeToken :: nameToken :: equalsToken ::
      (marks 7 (spelled w k) ++ [ending (7 + (spelled w k).length)]) := by
  have separate : Separate (spelled w k) := by
    have none : Separate [] := trivial
    have spelled := none.spelled (by simp) w k
    rwa [List.append_nil] at spelled
  have blank : isIdentifierPart ' ' = false := by decide +kernel
  have equals : isIdentifierPart '=' = false := by decide +kernel
  have keyword : Kind.keyword? (String.ofList ['t', 'y', 'p', 'e']) = some .typeKeyword := by decide
  have behind_declares : ∀ c ∈ (' ' :: (['T'] ++ (['='] ++ spelled w k))).head?,
      isIdentifierPart c = false := by simpa using blank
  have behind_declared : ∀ c ∈ (['='] ++ spelled w k).head?, isIdentifierPart c = false := by
    simpa using equals
  have declares := Reading.word_append ['t', 'y', 'p', 'e'] (by decide) behind_declares
  rw [keyword] at declares
  have declared := Reading.word_append ['T'] (by decide) behind_declared
  have first : Cursor.scan ⟨0, ['t', 'y', 'p', 'e'] ++ ' ' :: (['T'] ++ (['='] ++ spelled w k))⟩ =
      (typeToken, ⟨4, ' ' :: (['T'] ++ (['='] ++ spelled w k))⟩) :=
    Cursor.scan_token ['t', 'y', 'p', 'e'] rfl declares
  have second : Cursor.scan ⟨4, ' ' :: (['T'] ++ (['='] ++ spelled w k))⟩ =
      (nameToken, ⟨6, ['='] ++ spelled w k⟩) :=
    Cursor.scan_blank ['T'] rfl declared
  have chars : (text w k).toList =
      ['t', 'y', 'p', 'e'] ++ ' ' :: (['T'] ++ (['='] ++ spelled w k)) := String.toList_ofList
  have length : (text w k).length = (spelled w k).length + 5 + 1 + 1 := by
    rw [← String.length_toList, chars]
    simp
  rw [lexemes, length, chars, Cursor.lexemesFrom_cons first (by decide),
    Cursor.lexemesFrom_cons second (by decide),
    Cursor.lexemesFrom_cons (scan_equals w k) (by decide),
    lexemesFrom_marks separate _ (Nat.lt_add_of_pos_right (by decide))]
  rfl

/-- Some tokens in front of others. -/
def front (ts : List Lexeme) (s : Stream) : Stream :=
  match ts with
  | [] => s
  | t :: ts => ⟨t, ts ++ s.toList⟩

theorem front_append (ts us : List Lexeme) (s : Stream) :
    front (ts ++ us) s = front ts (front us s) := by
  cases ts with
  | nil => rfl
  | cons t ts => cases us <;> simp [front, Stream.toList]

theorem next_front (t : Lexeme) (ts : List Lexeme) (s : Stream) :
    (front (t :: ts) s).next = front ts s := by
  cases ts <;> rfl

theorem toList_front (ts : List Lexeme) (s : Stream) : (front ts s).toList = ts ++ s.toList := by
  cases ts <;> rfl

theorem length_marks (offset : Nat) (cs : List Char) : (marks offset cs).length = cs.length := by
  induction cs generalizing offset with
  | nil => rfl
  | cons c cs ih => rw [marks, List.length_cons, List.length_cons, ih]

theorem lt_length_front (offset : Nat) (cs : List Char) (s : Stream) :
    cs.length < (front (marks offset cs) s).toList.length := by
  rw [toList_front, List.length_append, length_marks]
  exact Nat.lt_add_of_pos_right (Nat.zero_lt_succ _)

theorem le_length_pairs (w : Nat) : w ≤ (pairs w).length := by
  induction w with
  | zero => exact Nat.zero_le _
  | succ w ih => exact Nat.le_succ_of_le (Nat.succ_le_succ ih)

theorem lt_length_spelled (w k : Nat) : k < (spelled w k).length := by
  induction k with
  | zero => exact Nat.zero_lt_succ _
  | succ k ih =>
    rw [spelled, List.length_cons, List.length_append]
    omega

section

open Rule Grammar

variable {type : Rule Nat Node} {o : Options} {depth w offset : Nat} {s : Stream} {n : Node}

/-- The step of a type with brackets behind it. -/
abbrev suffixStep (type : Rule Nat Node) : Node → Rule Nat (Option Node) :=
  Leads.climbStep (atKindOnLine .openBracketToken) fun element => do
    advance
    if ← accept .closeBracketToken then return some (.arrayType element)
    else
      let index ← type
      expect .closeBracketToken
      return some (.indexedAccessType element index)

theorem suffixStep_stops (stop : s.current.kind ≠ .openBracketToken) :
    (suffixStep type n).Gives o ⟨s, depth⟩ none ⟨s, depth⟩ :=
  .bind (.atKindOnLine_not stop) .pure

theorem suffixStep_pair (room : depth < o.depthLimit) :
    (suffixStep type n).Gives o ⟨front (marks offset (pairs (w + 1))) s, depth⟩
      (some (.arrayType n)) ⟨front (marks (offset + 2) (pairs w)) s, depth + 1⟩ := by
  refine .bind (.atKindOnLine rfl rfl) (.bind (.enterLevel room) (.bind .advance ?_))
  rw [State.next, pairs, marks, next_front]
  have close := Gives.accept (k := .closeBracketToken) (o := o)
    (s := ⟨front (marks (offset + 1) (']' :: pairs w)) s, depth + 1⟩) rfl
  rw [State.next, marks, next_front] at close
  exact .bind close .pure

theorem suffixes_give (room : depth + w ≤ o.depthLimit) (stop : s.current.kind ≠ .openBracketToken)
    {budget : Budget} (enough : w < budget.length) :
    iterateWithin (suffixStep type) budget n o ⟨front (marks offset (pairs w)) s, depth⟩ =
      (.ok (arrays w n), ⟨s, depth + w⟩) := by
  induction w generalizing n depth offset budget with
  | zero =>
    obtain ⟨first, budget, rfl⟩ := List.exists_cons_of_length_pos enough
    exact Gives.iterateWithin_stop (suffixStep_stops stop)
  | succ w ih =>
    obtain ⟨first, budget, rfl⟩ := List.exists_cons_of_length_pos (Nat.zero_lt_of_lt enough)
    refine Gives.iterateWithin_next (suffixStep_pair (by omega)) ?_
    rw [ih (by omega) (Nat.lt_of_succ_lt_succ enough), arrays, Nat.add_assoc, Nat.add_comm 1]

/-- A place where a type ends. -/
def Closed (s : Stream) : Prop := s.current.kind ∈ [.closeParenToken, .endOfFileToken]

/-- What can stand behind a type in front of its brackets. -/
theorem kind_behind (closed : Closed s) (w offset : Nat) :
    (front (marks offset (pairs w)) s).current.kind ∈
      [.openBracketToken, .closeParenToken, .endOfFileToken] := by
  cases w with
  | zero => exact List.mem_cons_of_mem _ closed
  | succ w => exact List.mem_cons_self

theorem primaryType_name (dot : s.current.kind ≠ .dotToken)
    (less : s.current.kind ≠ .lessThanToken) :
    (primaryType type).Gives o ⟨front (marks offset ['A']) s, depth⟩
      (.typeReference (.identifier "A" none) none) ⟨s, depth⟩ := by
  have ahead : (nextIs .dotToken).Gives o ⟨front (marks offset ['A']) s, depth⟩
      (decide (s.current.kind = .dotToken)) ⟨front (marks offset ['A']) s, depth⟩ := rfl
  have named : entityName.Gives o ⟨front (marks offset ['A']) s, depth⟩ (.identifier "A" none)
      ⟨s, depth⟩ := by
    have first : (name none).Gives o ⟨front (marks offset ['A']) s, depth⟩ (.identifier "A" none)
        ⟨s, depth⟩ := .bind .current (.ite_pos rfl (.bind .advance .pure))
    refine .bind first (.closingLevels (.iterate_stop (t := ⟨s, depth⟩) ?_))
    exact .bind .atKind (.ite_neg (by simpa using dot) .pure)
  have reference : (typeReference type).Gives o ⟨front (marks offset ['A']) s, depth⟩
      (.typeReference (.identifier "A" none) none) ⟨s, depth⟩ :=
    .bind named (.bind (.bind (.atKindOnLine_not less) .pure) .pure)
  exact .bind .current (.bind ahead reference)

theorem atModifier_gives {kinds : Kind → Bool} {s : State Nat}
    (is_not : kinds s.stream.current.kind = false) : (atModifier kinds).Gives o s false s :=
  .bind .current (.ite_neg (by simp [is_not]) .pure)

theorem modifiers_give {allowed : List Kind} {s : State Nat}
    (is_not : allowed.contains s.stream.current.kind = false) :
    (modifiers allowed).Gives o s none s := by
  refine .bind (.iterate_stop (b := []) ?_) .pure
  exact .bind (atModifier_gives is_not) .pure

theorem parameter_refuses_paren (cs : List Char) :
    (parameter type).Refuses o ⟨front (marks offset ('(' :: cs)) s, depth⟩ := by
  refine .behind (modifiers_give rfl) (.behind (.token?_not nofun) (.bind ?_))
  exact .behind (.accept_not nofun) (.behind .current .failHere)

theorem parameter_refuses_name (colon : s.current.kind ≠ .colonToken)
    (question : s.current.kind ≠ .questionToken) :
    (parameter type).Refuses o ⟨front (marks offset ['A']) s, depth⟩ := by
  have named : parameterName.Gives o ⟨front (marks offset ['A']) s, depth⟩ (.identifier "A" none)
      ⟨s, depth⟩ := by
    refine .bind (.accept_not nofun) (.bind .current ?_)
    exact .bind .current (.ite_pos rfl (.bind .advance .pure))
  refine .behind (modifiers_give rfl) (.behind (.token?_not nofun) (.behind named ?_))
  exact .behind .current (.behind (.token?_not question) (.bind (.expect colon)))

/-- A name with brackets behind it is no parameter, and neither is what is in parentheses. -/
theorem parameter_refuses (closed : Closed s) (w k offset : Nat) :
    (parameter type).Refuses o ⟨front (marks offset (spelled w k)) s, depth⟩ := by
  cases k with
  | zero =>
    have neither : ∀ k ∈ [Kind.openBracketToken, .closeParenToken, .endOfFileToken],
        k ≠ .colonToken ∧ k ≠ .questionToken := by decide
    obtain ⟨colon, question⟩ := neither _ (kind_behind closed w (offset + 1))
    have refused : (parameter type).Refuses o
        ⟨front (marks offset ['A']) (front (marks (offset + 1) (pairs w)) s), depth⟩ :=
      parameter_refuses_name colon question
    rwa [← front_append] at refused
  | succ k => exact parameter_refuses_paren _

theorem functionType_refuses (closed : Closed s) (w k offset : Nat) :
    (functionType type).Refuses o
      ⟨front (marks offset ('(' :: spelled w k)) s, depth⟩ := by
  have refused : (parameter type).Refuses o
      ⟨front (marks (offset + 1) (spelled w k)) s, depth⟩ := parameter_refuses closed w k _
  have more : (front (marks (offset + 1) (spelled w k)) s).current.kind ≠ .closeParenToken := by
    cases k <;> nofun
  rw [← next_front (mark offset '(')] at refused more
  refine .behind (.optionalAfter_not nofun) (.bind (.behind (.expect rfl) ?_))
  exact .behind (.accept_not more) (.bind (.behind .current (.bind refused)))

theorem postfixType_gives {first : Stream} (closed : Closed s) (room : depth + w ≤ o.depthLimit)
    (h : (primaryType type).Gives o ⟨first, depth⟩ n ⟨front (marks offset (pairs w)) s, depth⟩) :
    (postfixType type).Gives o ⟨first, depth⟩ (arrays w n) ⟨s, depth⟩ := by
  have neither : ∀ k ∈ [Kind.closeParenToken, .endOfFileToken], k ≠ .openBracketToken := by decide
  have suffixes : (iterate (suffixStep type) n).Gives o ⟨front (marks offset (pairs w)) s, depth⟩
      (arrays w n) ⟨s, depth + w⟩ :=
    suffixes_give room (neither _ closed)
      (Nat.lt_of_le_of_lt (le_length_pairs w) (lt_length_front offset _ s))
  exact .bind h (.closingLevels suffixes)

theorem terms_give {separator : Kind} {join : List Node → Node} {term : Rule Nat Node} {s t : State Nat}
    (before : s.stream.current.kind ≠ separator) (behind : t.stream.current.kind ≠ separator)
    (h : term.Gives o s n t) : (terms separator join term).Gives o s n t :=
  .bind (.accept_not before) (.bind h (.bind (.many_none (.optionalAfter_not behind)) .pure))

/-- A type in front of brackets makes a type with them. -/
theorem unionType_gives {first : Stream} (closed : Closed s) (room : depth + w ≤ o.depthLimit)
    (starts : first.current.kind ∈ [.openParenToken, .identifier])
    (h : (primaryType type).Gives o ⟨first, depth⟩ n ⟨front (marks offset (pairs w)) s, depth⟩) :
    (unionType type).Gives o ⟨first, depth⟩ (arrays w n) ⟨s, depth⟩ := by
  have none_before : ∀ k ∈ [Kind.openParenToken, .identifier],
      k.isTypeOperator = false ∧ k ≠ .ampersandToken ∧ k ≠ .barToken := by decide
  have none_behind : ∀ k ∈ [Kind.closeParenToken, .endOfFileToken],
      k ≠ .ampersandToken ∧ k ≠ .barToken := by decide
  obtain ⟨no_operator, no_ampersand, no_bar⟩ := none_before _ starts
  obtain ⟨no_ampersand_behind, no_bar_behind⟩ := none_behind _ closed
  have operator : (operatorType type).Gives o ⟨first, depth⟩ (arrays w n) ⟨s, depth⟩ := by
    show operatorTypeWithin type (first.current :: first.ahead) o ⟨first, depth⟩ = _
    rw [operatorTypeWithin, no_operator]
    exact postfixType_gives closed room h
  exact terms_give no_bar no_bar_behind (terms_give no_ampersand no_ampersand_behind operator)

theorem primaryType_parenthesized [Balanced type] (w k : Nat) (close : s.current.kind = .closeParenToken)
    (h : type.Gives o ⟨front (marks (offset + 1) (spelled w k)) s, depth⟩ n ⟨s, depth⟩) :
    (primaryType type).Gives o ⟨front (marks offset ('(' :: spelled w k)) s, depth⟩
      (.parenthesizedType n) ⟨s.next, depth⟩ := by
  have closed : Closed s := by simp [Closed, close]
  have no_function : (functionType type).Refuses o
      ⟨front (marks offset ('(' :: spelled w k)) s, depth⟩ :=
    functionType_refuses closed w k offset
  have parenthesized : (parenthesizedType type).Gives o
      ⟨front (marks offset ('(' :: spelled w k)) s, depth⟩ (.parenthesizedType n) ⟨s.next, depth⟩ := by
    have last : (expect .closeParenToken).Gives o ⟨s, depth⟩ () ⟨s.next, depth⟩ := .expect close
    rw [← next_front (mark offset '(')] at h
    exact .bind (.expect rfl) (.bind h (.bind last .pure))
  refine .bind .current (.alternatives [functionType type] ?_ parenthesized)
  simpa using ⟨inferInstance, no_function⟩

/-- A type with brackets is read if there are levels for its parentheses and for the brackets at any
one of them. -/
theorem typeWithin_gives {k : Nat} {budget : Budget} (closed : Closed s)
    (enough : k < budget.length) (room : depth + (k + 1) + w ≤ o.depthLimit) :
    Rule.Gives (typeWithin budget) o ⟨front (marks offset (spelled w k)) s, depth⟩ (tree w k)
      ⟨s, depth⟩ := by
  induction k generalizing budget depth offset s with
  | zero =>
    obtain ⟨_, budget, rfl⟩ := List.exists_cons_of_length_pos enough
    have neither : ∀ k ∈ [Kind.openBracketToken, .closeParenToken, .endOfFileToken],
        k ≠ .dotToken ∧ k ≠ .lessThanToken := by decide
    obtain ⟨no_dot, no_arguments⟩ := neither _ (kind_behind closed w (offset + 1))
    have named : (primaryType (typeWithin budget)).Gives o
        ⟨front (marks offset ['A']) (front (marks (offset + 1) (pairs w)) s), depth + 1⟩
        (.typeReference (.identifier "A" none) none)
        ⟨front (marks (offset + 1) (pairs w)) s, depth + 1⟩ := primaryType_name no_dot no_arguments
    rw [← front_append] at named
    have below : depth < o.depthLimit := by omega
    have levels : depth + 1 + w ≤ o.depthLimit := by omega
    have starts : Kind.identifier ∈ [.openParenToken, .identifier] := by decide
    exact .nested below (unionType_gives closed levels starts named)
  | succ k ih =>
    obtain ⟨_, budget, rfl⟩ := List.exists_cons_of_length_pos (Nat.zero_lt_of_lt enough)
    let behind := front (marks (offset + ('(' :: spelled w k).length) (')' :: pairs w)) s
    have inner : Rule.Gives (typeWithin budget) o
        ⟨front (marks (offset + 1) (spelled w k)) behind, depth + 1⟩ (tree w k) ⟨behind, depth + 1⟩ :=
      ih List.mem_cons_self (Nat.lt_of_succ_lt_succ enough) (by omega)
    have next : behind.next =
        front (marks (offset + ('(' :: spelled w k).length + 1) (pairs w)) s := next_front _ _ s
    have parenthesized := primaryType_parenthesized w k rfl inner
    rw [next] at parenthesized
    have below : depth < o.depthLimit := by omega
    have levels : depth + 1 + w ≤ o.depthLimit := by omega
    rw [spelled, ← List.cons_append, marks_append, front_append]
    exact .nested below (unionType_gives closed levels List.mem_cons_self parenthesized)

end

section

open Rule Grammar

variable {o : Options} {depth : Nat}

theorem declarationHead_gives {allowed : List Kind} {ahead : List Lexeme}
    (is_not : allowed.contains .typeKeyword = false) :
    (declarationHead allowed).Gives o ⟨⟨typeToken, ahead⟩, depth⟩ (none, none)
      ⟨⟨typeToken, ahead⟩, depth⟩ := by
  have comment : documentationHere.Gives o ⟨⟨typeToken, ahead⟩, depth⟩ none
      ⟨⟨typeToken, ahead⟩, depth⟩ := by
    rw [Gives, documentationHere]
    simp [typeToken]
  have read : (declarationModifiers allowed).Gives o ⟨⟨typeToken, ahead⟩, depth⟩ none
      ⟨⟨typeToken, ahead⟩, depth⟩ :=
    .bind (modifiers_give is_not) (.bind (.bind (atModifier_gives rfl) .pure) .pure)
  exact .bind comment (.bind read .pure)

/-- What stands behind the equals sign. -/
abbrev body (w k : Nat) : Stream :=
  front (marks 7 (spelled w k)) ⟨ending (7 + (spelled w k).length), []⟩

theorem ofText_text (w k : Nat) :
    Stream.ofText (text w k) = front [typeToken, nameToken, equalsToken] (body w k) := by
  have all : (body w k).toList = marks 7 (spelled w k) ++ [ending (7 + (spelled w k).length)] :=
    toList_front _ _
  rw [Stream.ofText, lexemes_text, front, all]
  rfl

theorem typeAlias_gives (w k : Nat) (room : depth + (k + 1) + w ≤ o.depthLimit) :
    typeAlias.Gives o ⟨front [typeToken, nameToken, equalsToken] (body w k), depth⟩
      (.typeAliasDeclaration none (.identifier "T" none) none (tree w k))
      ⟨⟨ending (7 + (spelled w k).length), []⟩, depth⟩ := by
  have value : type.Gives o ⟨body w k, depth⟩ (tree w k)
      ⟨⟨ending (7 + (spelled w k).length), []⟩, depth⟩ :=
    .bounded (typeWithin_gives (List.mem_cons_of_mem _ List.mem_cons_self)
      (Nat.lt_trans (lt_length_spelled w k) (lt_length_front 7 _ _)) room)
  have named : name.Gives o ⟨front [nameToken, equalsToken] (body w k), depth⟩ (.identifier "T" none)
      ⟨front [equalsToken] (body w k), depth⟩ := .bind .current (.ite_pos rfl (.bind .advance .pure))
  have last : semicolon.Gives o ⟨⟨ending (7 + (spelled w k).length), []⟩, depth⟩ ()
      ⟨⟨ending (7 + (spelled w k).length), []⟩, depth⟩ := rfl
  refine .bind (declarationHead_gives rfl) (.bind (.expect rfl) (.bind named ?_))
  exact .bind (.optionalAfter_not nofun) (.bind (.expect rfl) (.bind value (.bind last .pure)))

/-- The declaration that `text` spells. -/
abbrev declaration (w k : Nat) : Node :=
  .typeAliasDeclaration none (.identifier "T" none) none (tree w k)

theorem statementWithin_gives (first : Lexeme) (budget : Budget) (w k : Nat)
    (room : depth + 1 + (k + 1) + w ≤ o.depthLimit) :
    Rule.Gives (statementWithin (first :: budget)) o
      ⟨front [typeToken, nameToken, equalsToken] (body w k), depth⟩ (declaration w k)
      ⟨⟨ending (7 + (spelled w k).length), []⟩, depth⟩ := by
  have below : depth < o.depthLimit := by omega
  have declares := typeAlias_gives w k room
  have chosen : (alternatives (statementRules (statementWithin budget)) .statementExpected).Gives o
      ⟨front [typeToken, nameToken, equalsToken] (body w k), depth + 1⟩ (declaration w k)
      ⟨⟨ending (7 + (spelled w k).length), []⟩, depth + 1⟩ := by
    refine .alternatives [importDeclaration, namespaceExport, exportDeclaration,
      interfaceDeclaration, classDeclaration, functionDeclaration] ?_ declares
    have other {kind : Kind} (differ : .typeKeyword ≠ kind) :
        (front [typeToken, nameToken, equalsToken] (body w k)).current.kind ≠ kind := differ
    simp only [List.forall_mem_cons]
    refine ⟨⟨inferInstance, .bind (.expect (other (by decide)))⟩,
      ⟨inferInstance, .bind (.expect (other (by decide)))⟩,
      ⟨inferInstance, .bind (.expect (other (by decide)))⟩, ⟨inferInstance, ?_⟩,
      ⟨inferInstance, ?_⟩, ⟨inferInstance, ?_⟩, List.forall_mem_nil _⟩
    all_goals exact .behind (declarationHead_gives rfl) (.bind (.expect (other (by decide))))
  exact .nested below chosen

theorem skipSemicolons_gives {s : State Nat} (is_not : s.stream.current.kind ≠ .semicolonToken) :
    skipSemicolons.Gives o s () s :=
  .bind (.many_none (.bind (.accept_not is_not) .pure)) .pure

theorem sourceFile_gives (w k : Nat) (room : depth + 1 + (k + 1) + w ≤ o.depthLimit) :
    sourceFile.Gives o ⟨front [typeToken, nameToken, equalsToken] (body w k), depth⟩
      (.sourceFile [declaration w k]) ⟨⟨ending (7 + (spelled w k).length), []⟩, depth⟩ := by
  have declared : statement.Gives o ⟨front [typeToken, nameToken, equalsToken] (body w k), depth⟩
      (declaration w k) ⟨⟨ending (7 + (spelled w k).length), []⟩, depth⟩ :=
    .bounded (statementWithin_gives typeToken _ w k room)
  have more : (front [typeToken, nameToken, equalsToken] (body w k)).ahead ≠ [] :=
    List.cons_ne_nil _ _
  have skips : skipSemicolons.Gives o ⟨⟨ending (7 + (spelled w k).length), []⟩, depth⟩ ()
      ⟨⟨ending (7 + (spelled w k).length), []⟩, depth⟩ := skipSemicolons_gives nofun
  refine .map (.many_one (.bind (skipSemicolons_gives nofun) (.bind .current ?_)) more
    (.bind skips (.bind .current (.ite_pos rfl .pure))))
  exact .ite_neg (by simp [front, typeToken]) (.map declared)

theorem parse_text {w k : Nat} (room : k + 2 + w ≤ o.depthLimit) :
    parse .file o (text w k) = .ok (.sourceFile [declaration w k]) := by
  have levels : 0 + 1 + (k + 1) + w ≤ o.depthLimit := by omega
  have read := sourceFile_gives w k levels
  rw [← ofText_text] at read
  rw [parse, Entry.rule, read]

end

theorem depth_arrays (w : Nat) (n : Node) : n.encode.depth + w ≤ (arrays w n).encode.depth := by
  induction w generalizing n with
  | zero => exact Nat.le_refl _
  | succ w ih =>
    have inner : n.encode.depth < n.arrayType.encode.depth :=
      Node.depth_encode_child (c := (.category .type, n)) (List.mem_singleton.mpr rfl)
    have outer := ih n.arrayType
    rw [arrays]
    omega

/-- All brackets add to the depth of the tree. -/
theorem depth_tree (w k : Nat) : (k + 1) * w + k ≤ (tree w k).encode.depth := by
  induction k with
  | zero =>
    have outer := depth_arrays w (.typeReference (.identifier "A" none) none)
    rw [tree]
    omega
  | succ k ih =>
    have inner : (tree w k).encode.depth < (tree w k).parenthesizedType.encode.depth :=
      Node.depth_encode_child (c := (.category .type, tree w k)) (List.mem_singleton.mpr rfl)
    have outer := depth_arrays w (tree w k).parenthesizedType
    rw [tree, Nat.succ_mul]
    omega

theorem depth_file (w k : Nat) :
    (tree w k).encode.depth ≤ (Node.sourceFile [declaration w k]).encode.depth := by
  have inner : (tree w k).encode.depth < (declaration w k).encode.depth :=
    Node.depth_encode_child (c := (.category .type, tree w k))
      (by simp [Node.children, Node.parts, Part.places])
  have outer : (declaration w k).encode.depth < (Node.sourceFile [declaration w k]).encode.depth :=
    Node.depth_encode_child (c := (.category .statement, declaration w k)) (List.mem_singleton.mpr rfl)
  omega

/-- Brackets at the innermost of some parentheses and at each of them may nest too deep for a file to
be read back. -/
theorem not_survives_text {w k : Nat} (room : k + 2 + w ≤ ({} : Options).depthLimit)
    (deep : maxNesting < (k + 1) * w + k) :
    ∃ f, parse .file {} (text w k) = .ok f ∧ ¬ f.Survives := by
  have parsed := parse_text room
  refine ⟨_, parsed, fun survives => ?_⟩
  have shallow := survives.depth_le
  have tree_le := depth_tree w k
  have file_le := depth_file w k
  omega

theorem not_survives_text_170_24 : ∃ f, parse .file {} (text 170 24) = .ok f ∧ ¬ f.Survives :=
  not_survives_text (by decide) (by decide)

end Ambient.Brackets
