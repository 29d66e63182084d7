import Ambient.Proofs.Grammar.Heritage
import Ambient.Proofs.Pairing.Declaration

namespace Ambient

namespace Grammar

open Rule Follows

variable {P : Pairing} [laws : P.Lawful]

/-- The modifiers that the right parse reads are there in the left one. -/
theorem modifiersRead_left {allowed ks : List Kind} [kinds : ModifierKinds allowed] {s s' : State Nat}
    {v' : Stream} (stands : P.Stands .met s s') (read : ModifiersRead allowed s'.stream ks v') :
    ∃ v, ModifiersRead allowed s.stream ks v ∧ P.Stands .met ⟨v, s.depth⟩ ⟨v', s'.depth⟩ := by
  obtain ⟨s', depth'⟩ := s'
  simp only at read
  induction read generalizing s with
  | nil s' => exact ⟨s.stream, .nil _, stands⟩
  | @cons s' u' ks mem follows _ ih =>
    have ends : s'.current.kind ≠ .endOfFileToken := fun is => by
      have := kinds.ends
      rw [← is] at this
      simp [mem] at this
    have semicolon : s'.current.kind ≠ .semicolonToken := fun is => by
      have := kinds.semicolon
      rw [← is] at this
      simp [mem] at this
    have same := (stands.kind_iff ends semicolon).mpr rfl
    have inside := stands.inside (by rw [same]; exact ends)
    obtain ⟨v, others, stands'⟩ := ih inside.next
    refine ⟨v, ?_, stands'⟩
    rw [← same]
    have follows' : canFollowModifier s.next.stream.current.kind = true := by
      rw [inside.next.class_eq (c := canFollowModifier) rfl rfl]
      exact follows
    exact .cons (same ▸ mem) follows' others

/-- Two parses do not both come to the brace if one takes a word for a name that the other one takes
for a keyword. -/
theorem heritage_not_names {type : Rule Nat Node} [Balanced type] {d d' : Nat} {s s' : State Nat}
    (stands : P.Stands .met s s') :
    ¬ (HeritageTail type d s.stream ∧ NamesTail type d' s'.stream) ∧
      ¬ (NamesTail type d s.stream ∧ HeritageTail type d' s'.stream) := by
  induction eq : s.stream.ahead.length using Nat.strongRecOn generalizing s s' with
  | ind len ih =>
    have step (name : s.stream.current.kind.isName = true) : P.Stands .inside s s' :=
      stands.inside (Kind.ne_of_class name rfl)
    have same : s.stream.current.kind.isName = s'.stream.current.kind.isName :=
      stands.class_eq rfl rfl
    refine ⟨?_, ?_⟩
    · rintro ⟨heritage, names⟩
      have name : s.stream.current.kind.isName = true := same.trans names.starts
      have inside := step name
      rcases heritage.cases with brace | ⟨-, names'⟩
      · exact Kind.ne_of_class name rfl brace
      · have next : s'.next.stream.current.kind.isName = true :=
          (inside.next.class_eq rfl rfl).symm.trans names'.starts
        have shorter : s.next.stream.ahead.length < _ := eq ▸ inside.ahead_lt
        exact (ih _ shorter inside.next rfl).2 ⟨names', names.tail next⟩
    · rintro ⟨names, heritage⟩
      have name' : s'.stream.current.kind.isName = true := same.symm.trans names.starts
      have inside := step names.starts
      rcases heritage.cases with brace | ⟨-, names'⟩
      · exact Kind.ne_of_class name' rfl brace
      · have next : s.next.stream.current.kind.isName = true :=
          (inside.next.class_eq rfl rfl).trans names'.starts
        have shorter : s.next.stream.ahead.length < _ := eq ▸ inside.ahead_lt
        exact (ih _ shorter inside.next rfl).1 ⟨names.tail next, names'⟩

/-- A declaration with a keyword behind its head. -/
abbrev declared (allowed : List Kind) (k : Kind)
    (rest : Option String × Option (List Node) → Rule Nat Node) :
    Rule Nat Node := do
  let head ← declarationHead allowed
  expect k
  rest head

section

variable {allowed ks : List Kind} {k : Kind} {rest : Option String × Option (List Node) → Rule Nat Node}
  {o : Options} {s t : State Nat} {n : Node}

/-- A declaration reads its modifiers and its keyword. -/
theorem declared_read (h : (declared allowed k rest).Gives o s n t) :
    ∃ ks v head, ModifiersRead allowed s.stream ks v ∧ ks.Nodup ∧ v.current.kind = k ∧
      (rest head).Gives o ⟨v.next, s.depth⟩ n t := by
  obtain ⟨head, u, h1, h⟩ := h.of_bind
  obtain ⟨_, w, h2, h⟩ := h.of_bind
  obtain ⟨is, rfl⟩ := expect_gives h2
  have kept := Balanced.ok_eq h1
  obtain ⟨comment, _, here, read⟩ := (leads_of_gives h1).bind
  obtain rfl := here.documentationHere
  obtain ⟨ms, v, read, same⟩ := read.bind
  obtain ⟨-, rfl⟩ := same.pure
  obtain ⟨ms, v, read, refused⟩ := read.bind
  obtain ⟨_, w, refused, same⟩ := refused.bind
  obtain ⟨-, eq⟩ := same.pure
  obtain rfl : v = u.stream := (refuseModifier_leads refused).trans eq
  obtain ⟨ks, read, nodup, -⟩ := modifiers_read read
  refine ⟨ks, u.stream, head, read, nodup, is, ?_⟩
  rw [kept] at h
  exact h

/-- Where a declaration has its modifiers and its keyword, it is read if the rest of it is. -/
theorem declared_gives {v : Stream} (read : ModifiersRead allowed s.stream ks v) (nodup : ks.Nodup)
    (keyword : v.current.kind = k) (no_modifier : k ∉ allowed) (other : k.isModifier = false)
    (ends : allowed.contains .endOfFileToken = false) (scanned : Scanned s.stream.toList)
    (any : ∀ head, ∃ n, (rest head).Gives o ⟨v.next, s.depth⟩ n t) :
    ∃ n, (declared allowed k rest).Gives o s n t := by
  obtain ⟨ms, gives⟩ : ∃ ms, (modifiers allowed).Gives o s ms ⟨v, s.depth⟩ :=
    ⟨_, modifiers_gives read (by simp [nextModifies, keyword, no_modifier]) nodup scanned ends⟩
  have refuses : (refuseModifier .modifierMisplaced (· = .constKeyword)).Gives o ⟨v, s.depth⟩ ()
    ⟨v, s.depth⟩ := refuseModifier_gives (by simp [nextModifies, keyword, other])
  obtain ⟨comment, documented⟩ : ∃ comment, documentationHere.Gives o s comment s := ⟨_, rfl⟩
  have read : (declarationModifiers allowed).Gives o s ms ⟨v, s.depth⟩ :=
    .bind gives (.bind refuses .pure)
  have head : (declarationHead allowed).Gives o s (comment, ms) ⟨v, s.depth⟩ :=
    .bind documented (.bind read .pure)
  obtain ⟨n, rest⟩ := any (comment, ms)
  exact ⟨n, .bind head (.bind (.expect keyword) rest)⟩

end

/-- The export of a name before a token that could stand behind a modifier ends before it. -/
theorem exportAssignment_ends {o : Options} {s t : State Nat} {n : Node}
    (h : exportAssignment.Gives o s n t)
    (default : s.stream.next.current.kind = .defaultKeyword)
    (more : canFollowModifier s.next.next.next.stream.current.kind = true) :
    s.next.next.stream.current.kind.isName = true ∧ t = s.next.next.next := by
  have ne {k : Kind} (other : canFollowModifier k = false) :
      s.next.next.next.stream.current.kind ≠ k := Kind.ne_of_class more other
  obtain ⟨_, u, h1, h⟩ := h.of_bind
  obtain ⟨-, rfl⟩ := expect_gives h1
  obtain ⟨_, _, ⟨⟩, h⟩ := h.of_bind
  obtain ⟨_, _, ⟨⟩, h⟩ := h.of_bind
  have here : s.next.stream.current.kind = .defaultKeyword := default
  rw [Gives, if_pos (by simp [here])] at h
  obtain ⟨_, _, ⟨⟩, h⟩ := Gives.of_bind h
  obtain ⟨expression, u, h2, h⟩ := h.of_bind
  have read := leads_of_gives h2
  have stops : u.stream = s.next.next.stream.next := entityName_stops read (ne (by decide))
  have place : u = s.next.next.next := by
    have kept := Balanced.ok_eq h2
    rw [kept, stops]
    rfl
  subst place
  obtain ⟨_, u, h3, ⟨⟩⟩ := h.of_bind
  exact ⟨entityName_starts read,
    (h3.of_semicolon (ne (by decide)) (ne (by decide)) (ne (by decide))).2⟩

variable {statement : Rule Nat Node} [Balanced statement] {s s' t t' : State Nat} {n n' : Node}

/-- Where one parse reads the rest of an interface, the other one does not take `implements` for a
name. -/
theorem not_takesImplements {d d' : Nat} (inside : P.Stands .inside s s')
    (behind : s'.next.stream.current.kind = .lessThanToken ∨
      HeritageTail Grammar.type d' s'.next.stream) : ¬ TakesImplements d s.stream := by
  rintro ⟨is, follows⟩
  have inside' := inside.next.inside (by rw [show s.next.stream.current.kind = _ from is]; decide)
  have is' := (inside.next.kind_iff (by decide) (by decide)).mp is
  have names : NamesTail Grammar.type d' s'.next.next.stream := by
    rcases behind with less | tail
    · rw [is'] at less
      cases less
    · rcases tail.cases with brace | ⟨-, names⟩
      · rw [is'] at brace
        cases brace
      · exact names
  have name : s.next.next.stream.current.kind.isName = true :=
    (inside'.next.class_eq rfl rfl).trans names.starts
  rcases follows with mem | tail
  · have none : ∀ k ∈ behindName, k.isName = false := by decide
    rw [show s.next.next.stream.current.kind.isName = false from none _ mem] at name
    cases name
  · exact (heritage_not_names inside'.next).1 ⟨tail, names⟩

/-- Where one parse reads the members of an interface, a block that the other one reads is empty: it
does not start with both a member and a statement. -/
theorem closed_of_moduleBlock (starts : ∀ {d s n u}, statement.Leads d s n u → StartsStatement s)
    (inside : P.Stands .inside s s') {d : Nat} {v w : Stream} {m : Node} {l : List Node}
    (block : (moduleBlock statement).Leads d s.stream m v)
    (members : (typeMembers Grammar.type).Leads (P.right.depthLimit - s'.depth) s'.stream l w) :
    s.next.stream.current.kind = .closeBraceToken := by
  by_cases member : ∃ n v, (typeMember Grammar.type).Leads (P.right.depthLimit - s'.depth)
    s'.next.stream n v
  · obtain ⟨m', v', member⟩ := member
    have same : s.next.stream.current.kind = s'.next.stream.current.kind :=
      (inside.next.kind_iff (typeMember_starts member rfl) (typeMember_starts member rfl)).mpr rfl
    have other {k : Kind} (h : s'.next.stream.current.kind ≠ k) : s.next.stream.current.kind ≠ k :=
      same ▸ h
    have start := moduleBlock_starts starts block (other (typeMember_starts member rfl))
      (other (typeMember_starts member rfl))
    have first := inside.next.inside (other (typeMember_starts member rfl))
    have second := first.next.inside (by
      rcases start.2 with is | is
      · exact ne_of_eq_of_ne is (by decide)
      · exact Kind.ne_of_class is rfl)
    exact (start.not_member member same (laws.like second.meet.1).kind).elim
  · have closed := typeMembers_closed members fun n v read => member ⟨n, v, read⟩
    exact (inside.next.kind_iff (by decide) (by decide)).mpr closed

/-- No statement stands where the rest of an interface does, unless its body is empty. -/
theorem statement_not_interfaceRest
    (starts : ∀ {d s n u}, statement.Leads d s n u → StartsStatement s)
    (stands : P.Stands .met s s') {comment : Option String} {ms : Option (List Node)}
    (h : (interfaceRest comment ms).Gives P.right s' n' t')
    {r : Rule Nat Node} (mem : r ∈ statementRules statement) [Balanced r] (g : r.Gives P.left s n t) :
    s.stream.current.kind = .globalKeyword ∧ s.next.stream.current.kind = .openBraceToken ∧
      s.next.next.stream.current.kind = .closeBraceToken := by
  obtain ⟨named, behind, braces⟩ := interfaceRest_leads (leads_of_gives h)
  have name : s.stream.current.kind.isName = true := (stands.class_eq rfl rfl).trans named
  have inside := stands.inside (Kind.ne_of_class name rfl)
  have same {k : Kind} (mem : k ∈ behindInterfaceName) :
      s'.next.stream.current.kind = k → s.next.stream.current.kind = k := by
    refine (inside.next.kind_iff ?_ ?_).mpr <;> rintro rfl <;> exact absurd mem (by decide)
  have next : s.next.stream.current.kind ∈ behindInterfaceName := by
    rcases behind with less | tail
    · rw [same (by decide) less]
      decide
    · rcases tail.cases with is | ⟨is | is, -⟩ <;> rw [same (by decide) is] <;> decide
  rcases statementRules_at_name mem (leads_of_gives g) name next with takes | ⟨is, brace, m, v, block⟩
  · exact (not_takesImplements inside behind takes).elim
  · have inside' := inside.next.inside (by rw [show s.next.stream.current.kind = _ from brace]; decide)
    obtain ⟨l, members⟩ := braces ((inside.next.kind_iff (by decide) (by decide)).mp brace)
    exact ⟨is, brace, closed_of_moduleBlock starts inside' block members⟩

/-- Behind the name that the left parse takes for what is exported, it finds no statement. -/
def LostBehind (P : Pairing) (statement : Rule Nat Node) (t : State Nat) : Prop :=
  canFollowModifier t.stream.current.kind = true ∧
    ∀ r ∈ statementRules statement, ∀ n u, ¬ r.Gives P.left t n u

/-- What is known of a declaration that can be exported as default. -/
structure Exportable (allowed : List Kind) (k : Kind)
    (rest : Option String × Option (List Node) → Rule Nat Node) : Prop where
  exported : .exportKeyword ∈ allowed
  default : .defaultKeyword ∈ allowed
  no_modifier : k ∉ allowed
  other : k.isModifier = false
  inner : k.isInner = true
  /-- What stands behind the keyword does not matter for what it reads. -/
  any : ∀ {o head s n t}, (rest head).Gives o s n t → ∀ head', ∃ n', (rest head').Gives o s n' t
  named : ∀ {o head s n t}, (rest head).Gives o s n t → s.stream.current.kind.isName = true

/-- Where the left parse takes a declaration for the export of a name, it is lost behind that. -/
theorem lost_of_default {allowed : List Kind} [kinds : ModifierKinds allowed] {k : Kind}
    {rest : Option String × Option (List Node) → Rule Nat Node} (exportable : Exportable allowed k rest)
    (stands : P.Stands .inside s s') (is : s.stream.current.kind = .exportKeyword)
    (default : s.next.stream.current.kind = .defaultKeyword)
    (refuses : (declared allowed k rest).Refuses P.left s) (assign : exportAssignment.Gives P.left s n t)
    (gives : (declared allowed k rest).Gives P.right s' n' t')
    (front : ∀ r ∈ statementRules statement, r = declared allowed k rest ∨ ∀ {d s n u},
      r.Leads d s n u → Front.At ⟨allowed, [k], false⟩ s → s.current.kind = .exportKeyword)
    (stuck : k.isName = true → ∀ {u u' : State Nat} {head n' t'}, P.Stands .met u u' →
      (rest head).Gives P.right u' n' t' → ∀ r ∈ statementRules statement, ∀ n t, r.Gives P.left u n t →
        ∃ n t, (rest head).Gives P.left u n t) :
    LostBehind P statement t := by
  obtain ⟨ks, v', head, right, nodup, keyword', rest'⟩ := declared_read gives
  obtain ⟨v, left, after⟩ := modifiersRead_left stands.within right
  have ne {l : Kind} (mem : l ∈ allowed) : k ≠ l := fun eq => exportable.no_modifier (eq ▸ mem)
  have keyword : v.current.kind = k :=
    (after.kind_iff (Kind.ne_of_isInner exportable.inner).1 (Kind.ne_of_isInner exportable.inner).2).mpr
      keyword'
  -- on the left the declaration is refused although it has its modifiers and its keyword
  have no_rest {head n u} (h : (rest head).Gives P.left ⟨v.next, s.depth⟩ n u) : False := by
    obtain ⟨n, declared⟩ := declared_gives left nodup keyword exportable.no_modifier exportable.other
      kinds.ends (laws.scanned stands.meet.1) (exportable.any h)
    obtain ⟨e, u, refused⟩ := refuses
    cases declared.symm.trans refused
  obtain ⟨first, depth⟩ := s
  cases left with
  | nil => exact absurd (keyword.symm.trans is) (ne exportable.exported)
  | cons _ _ left =>
    cases left with
    | nil => exact absurd (keyword.symm.trans default) (ne exportable.default)
    | cons _ _ left =>
      cases left with
      | nil =>
        -- the keyword is taken for the name
        have behind := after.inside (by rw [keyword]; exact (Kind.ne_of_isInner exportable.inner).1)
        have name' := exportable.named rest'
        have name := (behind.next.class_eq (c := Kind.isName) rfl rfl).trans name'
        obtain ⟨named, rfl⟩ := exportAssignment_ends assign default (canFollowModifier_of_isName name)
        refine ⟨canFollowModifier_of_isName name, fun r mem m u read => ?_⟩
        obtain ⟨_, _, rest⟩ := stuck (keyword ▸ named) behind.next rest' r mem m u read
        exact no_rest rest
      | cons _ follows left =>
        -- a modifier is taken for the name
        obtain ⟨-, rfl⟩ := exportAssignment_ends assign default follows
        refine ⟨follows, fun r mem m u read => ?_⟩
        have balanced := balanced_statementRules statement r mem
        rcases front r mem with rfl | exported
        · obtain ⟨ks', w, head, read', -, keyword', rest⟩ := declared_read read
          have same : w = v := by
            rcases read'.compare left with ⟨eq, -⟩ | ⟨_, mem, -⟩ | ⟨_, mem, -⟩
            · exact eq
            · exact absurd (keyword' ▸ mem) exportable.no_modifier
            · exact absurd (keyword ▸ mem) exportable.no_modifier
          exact no_rest (same ▸ rest)
        · have again := exported (leads_of_gives read) ⟨_, v, left, by simp [keyword], by simp⟩
          cases left with
          | nil => exact absurd (keyword.symm.trans again) (ne exportable.exported)
          | cons _ _ _ =>
            refine absurd ?_ (List.nodup_cons.mp nodup).1
            exact .tail _ (.tail _ (is.trans again.symm ▸ List.mem_cons_self))

theorem name_any {c : Option String} {o : Options} {s t : State Nat} {n : Node}
    (h : (name c).Gives o s n t)
    (c' : Option String) : ∃ n', (name c').Gives o s n' t := by
  obtain ⟨_, _, ⟨⟩, h⟩ := h.of_bind
  by_cases word : s.stream.current.kind.isName = true
  · rw [Gives, if_pos word] at h
    obtain ⟨_, _, ⟨⟩, ⟨⟩⟩ := Gives.of_bind h
    exact ⟨_, .bind .current (.ite_pos word (.bind .advance .pure))⟩
  · rw [Gives, if_neg word] at h
    cases h

theorem name_named {c : Option String} {o : Options} {s t : State Nat} {n : Node}
    (h : (name c).Gives o s n t) : s.stream.current.kind.isName = true :=
  (identifierOf_word (leads_of_gives h)).1

/-- A class from its name on. -/
abbrev classRest (comment : Option String) (ms : Option (List Node)) : Rule Nat Node := do
  let declared ← name comment
  let typeParameters ← typeParameters Grammar.type
  let heritage ← heritage Grammar.type
  return .classDeclaration ms declared typeParameters heritage (← classMembers Grammar.type)

/-- A function from its name on. -/
abbrev functionRest (comment : Option String) (ms : Option (List Node)) : Rule Nat Node := do
  let declared ← name comment
  let typeParameters ← typeParameters Grammar.type
  let parameters ← parameters Grammar.type
  let result ← annotatedResult Grammar.type
  semicolon
  return .functionDeclaration ms declared typeParameters parameters result

theorem exportable_interface : Exportable interfaceModifiers .interfaceKeyword
    fun head => interfaceRest head.1 head.2 where
  exported := by decide
  default := by decide
  no_modifier := by decide
  other := by decide
  inner := rfl
  any h head' := by
    obtain ⟨_, _, h1, h⟩ := h.of_bind
    obtain ⟨tps, _, h2, h⟩ := h.of_bind
    obtain ⟨heritage, _, h3, h⟩ := h.of_bind
    obtain ⟨members, _, h4, ⟨⟩⟩ := h.of_bind
    obtain ⟨_, h1⟩ := name_any h1 head'.1
    exact ⟨_, .bind h1 (.bind h2 (.bind h3 (.bind h4 .pure)))⟩
  named h := by
    obtain ⟨_, _, h1, -⟩ := h.of_bind
    exact name_named h1

theorem exportable_class : Exportable classModifiers .classKeyword
    fun head => classRest head.1 head.2 where
  exported := by decide
  default := by decide
  no_modifier := by decide
  other := by decide
  inner := rfl
  any h head' := by
    obtain ⟨_, _, h1, h⟩ := h.of_bind
    obtain ⟨tps, _, h2, h⟩ := h.of_bind
    obtain ⟨heritage, _, h3, h⟩ := h.of_bind
    obtain ⟨members, _, h4, ⟨⟩⟩ := h.of_bind
    obtain ⟨_, h1⟩ := name_any h1 head'.1
    exact ⟨_, .bind h1 (.bind h2 (.bind h3 (.bind h4 .pure)))⟩
  named h := by
    obtain ⟨_, _, h1, -⟩ := h.of_bind
    exact name_named h1

theorem exportable_function : Exportable interfaceModifiers .functionKeyword
    fun head => functionRest head.1 head.2 where
  exported := by decide
  default := by decide
  no_modifier := by decide
  other := by decide
  inner := rfl
  any h head' := by
    obtain ⟨_, _, h1, h⟩ := h.of_bind
    obtain ⟨tps, _, h2, h⟩ := h.of_bind
    obtain ⟨ps, _, h3, h⟩ := h.of_bind
    obtain ⟨result, _, h4, h⟩ := h.of_bind
    obtain ⟨_, _, h5, ⟨⟩⟩ := h.of_bind
    obtain ⟨_, h1⟩ := name_any h1 head'.1
    exact ⟨_, .bind h1 (.bind h2 (.bind h3 (.bind h4 (.bind h5 .pure))))⟩
  named h := by
    obtain ⟨_, _, h1, -⟩ := h.of_bind
    exact name_named h1

/-- An interface without type parameters, heritage and members. -/
theorem interfaceRest_empty {o : Options} {s : State Nat} {comment : Option String}
    {ms : Option (List Node)} (name : s.stream.current.kind.isName = true)
    (brace : s.next.stream.current.kind = .openBraceToken)
    (closed : s.next.next.stream.current.kind = .closeBraceToken) :
    ∃ n t, (interfaceRest comment ms).Gives o s n t := by
  have named : (Grammar.name comment).Gives o s _ s.next :=
    .bind .current (.ite_pos name (.bind .advance .pure))
  have tps : (typeParameters Grammar.type).Gives o s.next none s.next :=
    .optionalAfter_not (by rw [brace]; decide)
  have lists : (many (heritageTypes Grammar.type)).Gives o s.next [] s.next := by
    have no_heritage : acceptHeritage.Gives o s.next false s.next :=
      .bind (.accept_not (by rw [brace]; decide)) (.accept_not (by rw [brace]; decide))
    exact .many_none (.bind no_heritage .pure)
  have heritage : (heritage Grammar.type).Gives o s.next none s.next := .bind lists .pure
  have ends : atBlockEnd.Gives o s.next.next true s.next.next := by
    have is : (decide (s.next.next.stream.current.kind = .closeBraceToken) ||
      decide (s.next.next.stream.current.kind = .endOfFileToken)) = true := by simp [closed]
    exact .bind .current (is ▸ .pure)
  have members : (typeMembers Grammar.type).Gives o s.next [] s.next.next.next :=
    .bind (.expect brace) (.bind (.many_none (.bind ends .pure)) (.bind (.expect closed) .pure))
  exact ⟨_, _, .bind named (.bind tps (.bind heritage (.bind members .pure)))⟩

/-- The rules that can start a statement like a declaration are that rule and exports. -/
theorem statementRules_front {allowed : List Kind} {k : Kind} {declaration : Rule Nat Node}
    (h : ∀ e ∈ statementTable statement,
      e.2.apart ⟨allowed, [k], false⟩ = true ∨ e.1 = declaration) :
    ∀ r ∈ statementRules statement, r = declaration ∨ ∀ {d s n u}, r.Leads d s n u →
      Front.At ⟨allowed, [k], false⟩ s → s.current.kind = .exportKeyword := by
  intro r mem
  have rules : statementRules statement =
      (statementTable statement).map Prod.fst ++ [exportAssignment] := rfl
  rw [rules, List.mem_append, List.mem_singleton] at mem
  rcases mem with mem | rfl
  · obtain ⟨e, in_table, rfl⟩ := List.mem_map.mp mem
    rcases h e in_table with apart | eq
    · exact .inr fun read at_front =>
        (((statementTable_marked e in_table).2 read).apart at_front apart).elim
    · exact .inl eq
  · exact .inr fun read _ => (exportAssignment_leads read).1

section

variable (starts : ∀ {d s n u}, statement.Leads d s n u → StartsStatement s)
  (stands : P.Stands .inside s s') (is : s.stream.current.kind = .exportKeyword)
  (default : s.next.stream.current.kind = .defaultKeyword)
  (assign : exportAssignment.Gives P.left s n t)

include starts stands is default assign

theorem interface_lost (refuses : interfaceDeclaration.Refuses P.left s)
    (gives : interfaceDeclaration.Gives P.right s' n' t') : LostBehind P statement t := by
  refine lost_of_default exportable_interface stands is default refuses assign gives
    (statementRules_front ?_) fun _ {u u' head n' t'} stands gives r mem n t read => ?_
  · simp only [statementTable, List.forall_mem_cons, List.not_mem_nil, false_imp_iff, implies_true,
      and_true]
    exact ⟨.inl rfl, .inl rfl, .inl rfl, .inr rfl, .inl rfl, .inl rfl, .inl rfl, .inl rfl, .inl rfl,
      .inl rfl, .inl rfl⟩
  · have balanced := balanced_statementRules statement r mem
    obtain ⟨global, brace, closed⟩ := statement_not_interfaceRest starts stands gives mem read
    exact interfaceRest_empty (by rw [global]; decide) brace closed

omit starts in
theorem class_lost (refuses : classDeclaration.Refuses P.left s)
    (gives : classDeclaration.Gives P.right s' n' t') : LostBehind P statement t := by
  refine lost_of_default exportable_class stands is default refuses assign gives
    (statementRules_front ?_) fun no_name => absurd no_name (by decide)
  simp only [statementTable, List.forall_mem_cons, List.not_mem_nil, false_imp_iff, implies_true,
    and_true]
  exact ⟨.inl rfl, .inl rfl, .inl rfl, .inl rfl, .inr rfl, .inl rfl, .inl rfl, .inl rfl, .inl rfl,
    .inl rfl, .inl rfl⟩

omit starts in
theorem function_lost (refuses : functionDeclaration.Refuses P.left s)
    (gives : functionDeclaration.Gives P.right s' n' t') : LostBehind P statement t := by
  refine lost_of_default exportable_function stands is default refuses assign gives
    (statementRules_front ?_) fun no_name => absurd no_name (by decide)
  simp only [statementTable, List.forall_mem_cons, List.not_mem_nil, false_imp_iff, implies_true,
    and_true]
  exact ⟨.inl rfl, .inl rfl, .inl rfl, .inl rfl, .inl rfl, .inr rfl, .inl rfl, .inl rfl, .inl rfl,
    .inl rfl, .inl rfl⟩

end

end Grammar

end Ambient
