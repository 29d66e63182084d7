import Ambient.Proofs.Grammar.Prefix

namespace Ambient

open Rule Grammar

/-- How declarations start, and the blocks that add to the global scope. -/
def declarationFronts : List Front := ((statementTable statement).drop 3).map Prod.snd

example : declarationFronts.map Front.keywords = [[.interfaceKeyword], [.classKeyword],
    [.functionKeyword], [.typeKeyword], [.enumKeyword], [.constKeyword, .letKeyword, .varKeyword],
    [.namespaceKeyword, .moduleKeyword], [.globalKeyword]] := rfl

section

variable {f g : Front}

theorem declarationFronts_eq {statement : Rule Nat Node} :
    declarationFronts = ((statementTable statement).drop 3).map Prod.snd := by
  simp only [declarationFronts, statementTable, List.drop_succ_cons, List.drop_zero, List.map_cons]

theorem front_of_declaration {statement : Rule Nat Node} {e : Rule Nat Node × Front}
    (mem : e ∈ (statementTable statement).drop 3) : e.2 ∈ declarationFronts := by
  rw [declarationFronts_eq]
  exact List.mem_map_of_mem mem

theorem not_ends_of_front (mem : f ∈ declarationFronts) :
    f.allowed.contains .endOfFileToken = false := by
  revert f
  decide

theorem export_allowed_of_front (mem : f ∈ declarationFronts) : .exportKeyword ∈ f.allowed := by
  revert f
  decide

/-- Classes have all modifiers that declarations have, but for `const`. -/
theorem class_allows_of_front (mem : f ∈ declarationFronts) :
    ∀ k ∈ f.allowed, k ∈ classModifiers ∨ k = .constKeyword := by
  revert f
  decide

/-- No keyword of a declaration is a modifier, but for `const`. -/
theorem keyword_of_front (mem : f ∈ declarationFronts) :
    ∀ k ∈ f.keywords, k.isAnyKeyword = true ∧ (k.isModifier = true → k = .constKeyword) := by
  revert f
  decide

/-- A rule that has a use for the keyword of another declaration allows no other modifiers than that
one does. -/
theorem allowed_of_front (first : f ∈ declarationFronts) (second : g ∈ declarationFronts) :
    ∀ k ∈ f.keywords, k ∈ g.keywords ∨ k ∈ g.allowed →
      ∀ l ∈ g.allowed, l ∈ f.allowed ∨ l = .constKeyword := by
  have all : ∀ f ∈ declarationFronts, ∀ g ∈ declarationFronts, ∀ k ∈ f.keywords,
      k ∈ g.keywords ∨ k ∈ g.allowed → ∀ l ∈ g.allowed, l ∈ f.allowed ∨ l = .constKeyword := by
    decide
  exact all f first g second

end

theorem statement_eq_nested (o : Options) (s : State Nat) : statement o s =
    nested (alternatives (statementRules (statementWithin s.stream.ahead)) .statementExpected) o s :=
  rfl

/-- The rules for imports and exports of names. -/
def bindingRules : List (Rule Nat Node) := [importDeclaration, namespaceExport, exportDeclaration]

section

variable {statement : Rule Nat Node} {r : Rule Nat Node}

theorem statementRules_eq : statementRules statement =
    bindingRules ++ (((statementTable statement).drop 3).map Prod.fst ++ [exportAssignment]) := rfl

theorem mem_statementRules : r ∈ statementRules statement ↔ r ∈ bindingRules ∨
    (∃ f, (r, f) ∈ (statementTable statement).drop 3) ∨ r = exportAssignment := by
  simp [statementRules_eq, -List.map_drop]

end

section

variable {s : Stream} {o : Options} {depth : Nat} {r : Rule Nat Node}

/-- The tokens with which an import or export of names goes on behind its keyword `export`. -/
def bindingMarks : List Kind := [.asKeyword, .typeKeyword, .asteriskToken, .openBraceToken]

/-- The rules for imports and exports of names get past nothing but an `export` in front. -/
theorem bindingRules_failAt (mem : r ∈ bindingRules) (other : s.current.kind ≠ .importKeyword)
    (next : s.current.kind = .exportKeyword → s.next.current.kind ∉ bindingMarks) :
    ∃ t, r.FailsAt o ⟨s, depth⟩ t ∧
      (t = s.current ∨ s.current.kind = .exportKeyword ∧ t = s.next.current) := by
  simp only [bindingRules, List.mem_cons, List.not_mem_nil, or_false] at mem
  by_cases is : s.current.kind = .exportKeyword
  · have mark {k : Kind} (mem : k ∈ bindingMarks) : s.next.current.kind ≠ k := fun eq =>
      next is (eq ▸ mem)
    rcases mem with rfl | rfl | rfl
    · exact ⟨_, importDeclaration_failsAt other, .inl rfl⟩
    · exact ⟨_, namespaceExport_failsAt_next is (mark (by decide)), .inr ⟨is, rfl⟩⟩
    · exact ⟨_, exportDeclaration_failsAt_next is (mark (by decide)) (mark (by decide))
        (mark (by decide)), .inr ⟨is, rfl⟩⟩
  · rcases mem with rfl | rfl | rfl
    · exact ⟨_, importDeclaration_failsAt other, .inl rfl⟩
    · exact ⟨_, namespaceExport_failsAt is, .inl rfl⟩
    · exact ⟨_, exportDeclaration_failsAt is, .inl rfl⟩

theorem Rule.FailsAt.not_gives {t : Lexeme} {u v : State Nat} {n : Node} (h : r.FailsAt o u t) :
    ¬ r.Gives o u n v := by
  obtain ⟨m, arguments, -, fails⟩ := h
  exact fails.not_gives

/-- A failure at a token lies at its start. -/
theorem Rule.FailsAt.exists_fails {t : Lexeme} {u : State Nat} (h : r.FailsAt o u t) :
    ∃ e, r.Fails o u e ∧ e.position = t.start := by
  obtain ⟨m, arguments, -, fails⟩ := h
  exact ⟨_, fails, t.position_failure m arguments⟩

end

/-- The tokens with which a default export of a name goes on, or after which it ends on any line. -/
def nameEnds : List Kind := [.dotToken, .semicolonToken, .closeBraceToken, .endOfFileToken]

theorem Modified.starts {s u : Stream} {ms : List Lexeme} (h : Modified s ms u) :
    s.current.kind.isAnyKeyword = true := by
  cases ms with
  | nil => exact h.eq_of_nil ▸ h.keyword
  | cons m ms => exact h.next.1 ▸ h.word List.mem_cons_self

/-- The second token is a keyword or stands behind the one at `u`. -/
theorem Modified.next_of {s u : Stream} {ms : List Lexeme} {p : Lexeme → Prop}
    (h : Modified s ms u) (words : ∀ t : Lexeme, t.Genuine → t.kind.isAnyKeyword = true → p t)
    (last : p u.next.current) : p s.next.current := by
  cases ms with
  | nil => exact h.eq_of_nil ▸ last
  | cons m ms =>
    obtain ⟨-, rest⟩ := h.next
    exact words _ (rest.scanned.genuine List.mem_cons_self) rest.starts

theorem not_nameEnd_of_word {k : Kind} (word : k.isAnyKeyword = true) : k ∉ nameEnds := by
  have none : ∀ k ∈ nameEnds, k.isAnyKeyword = false := by decide
  exact fun mem => Kind.ne_of_class word (none _ mem) rfl

theorem Modified.next_not_ends {s u : Stream} {ms : List Lexeme} (h : Modified s ms u)
    (follows : u.next.current.kind ∉ nameEnds) : s.next.current.kind ∉ nameEnds :=
  h.next_of (p := fun t => t.kind ∉ nameEnds) (fun _ _ word => not_nameEnd_of_word word) follows

/-- Modifiers in front of the keyword of a declaration that starts like `f`, of which `bad` is the
first one that is not allowed there. -/
structure Misplaced (f : Front) (s : Stream) (before : List Lexeme) (bad : Lexeme)
    (after : List Lexeme) (u : Stream) : Prop where
  front : f ∈ declarationFronts
  modified : Modified s (before ++ bad :: after) u
  allowed : ∀ m ∈ before, m.kind ∈ f.allowed
  disallowed : bad.kind ∉ f.allowed
  keyword : u.current.kind ∈ f.keywords
  follows : u.next.current.kind ∉ nameEnds

/-- Whether the rules for imports and exports get past the modifiers in front of the first one that
is not allowed, or one of them ends a statement before that. Without modifiers in front they fail
where everything else does; they read `export`, `export default` and one name behind these, where a
default export is at its end if the next token stands on a new line. -/
def exportsReach : List Lexeme → Bool
  | [] => true
  | [first] => first.kind = .exportKeyword
  | first :: second :: others => first.kind = .exportKeyword && second.kind = .defaultKeyword &&
      others.tail.head?.all (·.onNewLine)

/-- Of two ways to part a list, with an element that is not in the front part of the second one. -/
theorem mem_or_eq_of_append_eq {α : Type} {before front after after' : List α} {a b : α}
    (eq : before ++ a :: after = front ++ b :: after') (not_mem : a ∉ front) :
    b ∈ before ∨ b = a := by
  rcases List.append_eq_append_iff.mp eq with ⟨between, rfl, rest⟩ | ⟨between, rfl, rest⟩
  · cases between with
    | nil => exact .inr (List.cons.inj rest).1.symm
    | cons c between =>
      obtain ⟨rfl, -⟩ := List.cons.inj rest
      exact absurd (List.mem_append_right _ List.mem_cons_self) not_mem
  · cases between with
    | nil => exact .inr (List.cons.inj rest).1
    | cons c between =>
      obtain ⟨rfl, -⟩ := List.cons.inj rest
      exact .inl (List.mem_append_right _ List.mem_cons_self)

namespace Misplaced

variable {f : Front} {s u : Stream} {before after : List Lexeme} {bad m t : Lexeme} {o : Options}
  {depth : Nat} {statement : Rule Nat Node}

section

variable (h : Misplaced f s before bad after u)
include h

theorem modifier : bad.kind.isModifier = true ∧ bad.kind ≠ .constKeyword :=
  h.modified.modifiers bad (by simp)

theorem start_lt (mem : m ∈ before) : m.start < bad.start := h.modified.starts_lt.1 m mem

theorem lt_start (mem : t ∈ after ++ [u.current]) : bad.start < t.start :=
  h.modified.starts_lt.2 t mem

theorem lt_start_next : bad.start < u.next.current.start := by
  have before : bad.start < u.current.start := h.lt_start (by simp)
  refine Nat.lt_of_lt_of_le before ?_
  have chain := h.modified.chain
  rw [h.modified.tokens, List.isChain_append] at chain
  obtain ⟨current, ahead⟩ := u
  cases ahead with
  | nil => exact Nat.le_refl _
  | cons t ts => exact (List.isChain_cons_cons.mp chain.2.1).1.start_le

theorem failure_eq (message : Message) (arguments : List String) :
    bad.failure message arguments = ⟨bad.start, message, arguments⟩ := by
  have among : bad ∈ s.toList := by
    rw [h.modified.tokens]
    simp
  have sound := (h.modified.scanned.genuine among).sound_of_word (h.modified.word (by simp))
  exact Lexeme.failure_of_sound sound message arguments

/-- Behind an `export` in front there are modifiers, at least one. -/
theorem behind_export (is : s.current.kind = .exportKeyword) :
    s.next.current.kind.isModifier = true ∧ ∃ ms, Modified s.next.next ms u := by
  obtain ⟨first, others, split, some⟩ : ∃ first others, before ++ bad :: after = first :: others ∧
      others ≠ [] := by
    cases before with
    | nil =>
      have here : s.current = bad := h.modified.next.1
      exact absurd (here ▸ is ▸ export_allowed_of_front h.front) h.disallowed
    | cons first before => exact ⟨first, _, rfl, by simp⟩
  obtain ⟨second, others, rfl⟩ := List.exists_cons_of_ne_nil some
  obtain ⟨-, rest⟩ := (split ▸ h.modified).next
  obtain ⟨rfl, rest'⟩ := rest.next
  exact ⟨(rest.modifiers _ List.mem_cons_self).1, _, rest'⟩

theorem starts : s.current.kind.isModifier = true := by
  obtain ⟨first, others, split⟩ := List.exists_cons_of_ne_nil
    (show before ++ bad :: after ≠ [] by simp)
  have modified := h.modified
  rw [split] at modified
  exact modified.next.1 ▸ (modified.modifiers first List.mem_cons_self).1

/-- A rule for a declaration fails at a modifier that it does not allow, which is not behind the
first one that `f` does not allow unless it allows that; and then it may also fail at the keyword. -/
theorem declaration_fails {e : Rule Nat Node × Front} (mem : e ∈ (statementTable statement).drop 3) :
    (∃ m ∈ before ++ bad :: after, m.kind ∉ e.2.allowed ∧
      (bad.kind ∉ e.2.allowed → m ∈ before ∨ m = bad) ∧ e.1.Fails o ⟨s, depth⟩ m.misplaced) ∨
    bad.kind ∈ e.2.allowed ∧ e.1.FailsAt o ⟨s, depth⟩ u.current := by
  have front := front_of_declaration mem
  rcases (statementTable_headed e mem).fails h.modified (not_ends_of_front front) with
    ⟨read, m, rest, split, some, not, fails⟩ | ⟨all, stop⟩
  · refine .inl ⟨m, split ▸ by simp, not, fun foreign => ?_, fails⟩
    exact mem_or_eq_of_append_eq split fun among => foreign (some bad among)
  · have allowed : bad.kind ∈ e.2.allowed := all bad (by simp)
    have no_use : ¬ (u.current.kind ∈ e.2.keywords ∨ u.current.kind ∈ e.2.allowed) := fun use =>
      (allowed_of_front h.front front _ h.keyword use _ allowed).elim h.disallowed h.modifier.2
    exact .inr ⟨allowed, stop (fun mem => no_use (.inr mem)) fun mem => no_use (.inl mem)⟩

theorem declaration_not_gives {e : Rule Nat Node × Front} (mem : e ∈ (statementTable statement).drop 3)
    {n : Node} {v : State Nat} : ¬ e.1.Gives o ⟨s, depth⟩ n v := by
  rcases h.declaration_fails mem with ⟨m, -, -, -, fails⟩ | ⟨-, fails⟩
  · exact fails.not_gives
  · exact fails.not_gives

/-- A class takes the modifier if classes have it, and fails behind it. -/
theorem classDeclaration_fails (shared : bad.kind ∈ classModifiers) :
    ∃ e, classDeclaration.Fails o ⟨s, depth⟩ e ∧ bad.start < e.position := by
  have row : (classDeclaration, (⟨classModifiers, [.classKeyword], false⟩ : Front)) ∈
      (statementTable statement).drop 3 := by simp [statementTable]
  rcases h.declaration_fails row with ⟨m, mem, not, -, fails⟩ | ⟨-, fails⟩
  · have behind : m ∈ after := by
      rcases List.mem_append.mp mem with first | rest
      · have plain := (h.modified.modifiers m mem).2
        exact absurd ((class_allows_of_front h.front _ (h.allowed m first)).resolve_right plain) not
      · exact (List.mem_cons.mp rest).resolve_left fun eq => not (eq ▸ shared)
    refine ⟨_, fails, ?_⟩
    rw [Lexeme.misplaced, Lexeme.position_failure]
    exact h.lt_start (List.mem_append_left _ behind)
  · obtain ⟨e, fails, position⟩ := fails.exists_fails
    exact ⟨e, fails, position ▸ h.lt_start (by simp)⟩

theorem binding_fails {r : Rule Nat Node} (mem : r ∈ bindingRules) :
    ∃ t, r.FailsAt o ⟨s, depth⟩ t ∧
      (t = s.current ∨ s.current.kind = .exportKeyword ∧ t = s.next.current) :=
  bindingRules_failAt mem (Kind.ne_of_class h.starts rfl) fun is mark => by
    have none : ∀ k ∈ bindingMarks, k.isModifier = false := by decide
    exact Kind.ne_of_class (h.behind_export is).1 (none _ mark) rfl

/-- A default export that is read ends before the end of the text, and not at a malformed token where
the modifier is. -/
theorem exportAssignment_goes_on {n : Node} {v : State Nat}
    (gives : exportAssignment.Gives o ⟨s, depth⟩ n v) : v.stream.current.kind ∉ nameEnds ∧
      (v.stream.current.error = none ∨ bad.start < v.stream.current.start) := by
  by_cases is : s.current.kind = .exportKeyword
  · obtain ⟨modifier, ms, rest⟩ := h.behind_export is
    by_cases default : s.next.current.kind = .defaultKeyword
    · by_cases name : s.next.next.current.kind.isName = true
      · have fourth := rest.next_of (p := fun t => t.kind ∉ nameEnds ∧
            (t.error = none ∨ bad.start < t.start))
          (fun _ genuine word => ⟨not_nameEnd_of_word word, .inl (genuine.sound_of_word word)⟩)
          ⟨h.follows, .inr h.lt_start_next⟩
        obtain ⟨ends, fails⟩ := exportAssignment_ends_or_failsAt (o := o) is default name fourth.1
        cases line : s.next.next.next.current.onNewLine with
        | true =>
          obtain ⟨n', gives'⟩ := ends line
          cases gives.symm.trans gives'
          exact fourth
        | false => exact absurd gives (fails line).not_gives
      · exact absurd gives (exportAssignment_failsAt_name is default name).not_gives
    · have equals : s.next.current.kind ≠ .equalsToken := Kind.ne_of_class modifier rfl
      exact absurd gives (exportAssignment_failsAt_next is equals default).not_gives
  · exact absurd gives (exportAssignment_failsAt is).not_gives

/-- A modifier that is allowed behind `export default` can be a name. -/
theorem isName_of_third {first second third : Lexeme} {others : List Lexeme}
    (split : before = first :: second :: third :: others) (is : first.kind = .exportKeyword)
    (default : second.kind = .defaultKeyword) : third.kind.isName = true := by
  subst split
  have plain := (h.modified.modifiers third (by simp)).2
  have shared := (class_allows_of_front h.front _ (h.allowed third (by simp))).resolve_right plain
  have distinct := h.modified.distinct
  simp only [List.cons_append, List.map_cons, List.nodup_cons, List.mem_cons, not_or] at distinct
  have not_export : third.kind ≠ .exportKeyword := fun eq => distinct.1.2.1 (is.trans eq.symm)
  have not_default : third.kind ≠ .defaultKeyword := fun eq => distinct.2.1.1 (default.trans eq.symm)
  simp only [classModifiers, List.mem_cons, List.not_mem_nil, or_false, not_export, not_default,
    false_or] at shared
  rcases shared with eq | eq <;> rw [eq] <;> rfl

/-- The rules for imports and exports fail in front of the modifier if they do not get as far. -/
theorem exports_fail (short : exportsReach before = false) {r : Rule Nat Node}
    (mem : r ∈ bindingRules ∨ r = exportAssignment) :
    ∃ t ∈ before, r.FailsAt o ⟨s, depth⟩ t := by
  cases before with
  | nil => cases short
  | cons first before =>
    obtain ⟨rfl, behind⟩ := h.modified.next
    by_cases is : s.current.kind = .exportKeyword
    · cases before with
      | nil => simp [exportsReach, is] at short
      | cons second before =>
        obtain ⟨rfl, behind'⟩ := behind.next
        rcases mem with mem | rfl
        · obtain ⟨t, fails, place⟩ := h.binding_fails mem
          exact ⟨t, by rcases place with rfl | ⟨-, rfl⟩ <;> simp, fails⟩
        · obtain ⟨modifier, -⟩ := h.behind_export is
          by_cases default : s.next.current.kind = .defaultKeyword
          · rcases before with _ | ⟨third, _ | ⟨fourth, before⟩⟩
            · simp [exportsReach, is, default] at short
            · simp [exportsReach, is, default] at short
            · have name := h.isName_of_third rfl is default
              have stop := behind'.next_not_ends h.follows
              obtain ⟨rfl, others⟩ := behind'.next
              obtain ⟨rfl, -⟩ := others.next
              have line : s.next.next.next.current.onNewLine = false := by
                simpa [exportsReach, is, default] using short
              exact ⟨_, by simp, (exportAssignment_ends_or_failsAt is default name stop).2 line⟩
          · have equals : s.next.current.kind ≠ .equalsToken := Kind.ne_of_class modifier rfl
            exact ⟨_, by simp, exportAssignment_failsAt_next is equals default⟩
    · rcases mem with mem | rfl
      · obtain ⟨t, fails, place⟩ := h.binding_fails mem
        exact ⟨t, by simp [place.resolve_right fun both => is both.1], fails⟩
      · exact ⟨_, List.mem_cons_self, exportAssignment_failsAt is⟩

/-- Otherwise one of them gives a statement, or fails at the modifier or behind it. -/
theorem exports_reach (reach : exportsReach before = true) :
    ∃ r, (r ∈ bindingRules ∨ r = exportAssignment) ∧ ((∃ n v, r.Gives o ⟨s, depth⟩ n v) ∨
      ∃ t, r.FailsAt o ⟨s, depth⟩ t ∧ (t = bad ∨ bad.start < t.start)) := by
  rcases before with _ | ⟨first, _ | ⟨second, before⟩⟩
  · obtain ⟨rfl, -⟩ := h.modified.next
    exact ⟨importDeclaration, .inl (by simp [bindingRules]), .inr ⟨_,
      importDeclaration_failsAt (Kind.ne_of_class h.modifier.1 rfl), .inl rfl⟩⟩
  · obtain ⟨rfl, rest⟩ := h.modified.next
    obtain ⟨rfl, -⟩ := rest.next
    have is : s.current.kind = .exportKeyword := by simpa [exportsReach] using reach
    exact ⟨namespaceExport, .inl (by simp [bindingRules]), .inr ⟨_,
      namespaceExport_failsAt_next is (Kind.ne_of_class h.modifier.1 rfl), .inl rfl⟩⟩
  · refine ⟨exportAssignment, .inr rfl, ?_⟩
    obtain ⟨rfl, behind⟩ := h.modified.next
    obtain ⟨rfl, rest⟩ := behind.next
    simp only [exportsReach, Bool.and_eq_true, decide_eq_true_eq] at reach
    obtain ⟨⟨is, default⟩, line⟩ := reach
    -- the fourth token ends the export if it is on a new line, and is not in front of `bad`
    have ends_or_fails (name : s.next.next.current.kind.isName = true)
        (place : s.next.next.next.current.onNewLine = true ∨ s.next.next.next.current = bad ∨
          bad.start < s.next.next.next.current.start) :
        (∃ n v, exportAssignment.Gives o ⟨s, depth⟩ n v) ∨
          ∃ t, exportAssignment.FailsAt o ⟨s, depth⟩ t ∧ (t = bad ∨ bad.start < t.start) := by
      have stop := rest.next_not_ends h.follows
      obtain ⟨ends, fails⟩ := exportAssignment_ends_or_failsAt (o := o) is default name stop
      cases new : s.next.next.next.current.onNewLine with
      | true =>
        obtain ⟨n, gives⟩ := ends new
        exact .inl ⟨n, _, gives⟩
      | false => exact .inr ⟨_, fails new, place.resolve_left (by simp [new])⟩
    rcases before with _ | ⟨third, _ | ⟨fourth, before⟩⟩
    · obtain ⟨rfl, others⟩ := rest.next
      by_cases name : s.next.next.current.kind.isName = true
      · refine ends_or_fails name (.inr (.inr (h.lt_start ?_)))
        cases after with
        | nil => simp [others.eq_of_nil]
        | cons m after => simp [others.next.1]
      · exact .inr ⟨_, exportAssignment_failsAt_name is default name, .inl rfl⟩
    · have name := h.isName_of_third rfl is default
      obtain ⟨rfl, others⟩ := rest.next
      exact ends_or_fails name (.inr (.inl others.next.1))
    · have name := h.isName_of_third rfl is default
      obtain ⟨rfl, others⟩ := rest.next
      obtain ⟨rfl, -⟩ := others.next
      exact ends_or_fails name (.inl (by simpa using line))

variable [Balanced statement]

/-- The modifier is reported if no other rule gets as far. -/
theorem reported (plain : bad.kind ∉ classModifiers) (short : exportsReach before = false) :
    (alternatives (statementRules statement) .statementExpected).Fails o ⟨s, depth⟩ bad.misplaced := by
  have owner : ∀ e ∈ (statementTable statement).drop 3, ∃ m, (m ∈ before ∨ m = bad) ∧
      m.kind ∉ e.2.allowed ∧ e.1.Fails o ⟨s, depth⟩ m.misplaced := fun e mem => by
    have foreign : bad.kind ∉ e.2.allowed := fun allowed =>
      (class_allows_of_front (front_of_declaration mem) _ allowed).elim plain h.modifier.2
    rcases h.declaration_fails mem with ⟨m, -, not, place, fails⟩ | ⟨allowed, -⟩
    · exact ⟨m, place foreign, not, fails⟩
    · exact absurd allowed foreign
  have position : bad.misplaced.position = bad.start := bad.position_failure _ _
  have behind {r : Rule Nat Node} (mem : r ∈ bindingRules ∨ r = exportAssignment) :
      ∃ e, r.Fails o ⟨s, depth⟩ e ∧ e.position < bad.misplaced.position := by
    obtain ⟨t, among, fails⟩ := h.exports_fail short mem
    obtain ⟨e, fails, place⟩ := fails.exists_fails
    exact ⟨e, fails, by rw [place, position]; exact h.start_lt among⟩
  have front := h.front
  rw [declarationFronts_eq] at front
  obtain ⟨e, row, rfl⟩ := List.mem_map.mp front
  obtain ⟨m, place, not, fails⟩ := owner e row
  obtain rfl := place.resolve_left fun mem => not (h.allowed m mem)
  refine alternatives_fails (balanced_statementRules statement)
    (mem_statementRules.mpr (.inr (.inl ⟨e.2, row⟩))) fails fun r mem => ?_
  rcases mem_statementRules.mp mem with binding | ⟨g, row⟩ | rfl
  · obtain ⟨e, fails, before⟩ := behind (.inl binding)
    exact ⟨e, fails, .inl before⟩
  · obtain ⟨m', place | rfl, -, fails⟩ := owner (r, g) row
    · refine ⟨_, fails, .inl ?_⟩
      rw [Lexeme.misplaced, Lexeme.position_failure, position]
      exact h.start_lt place
    · exact ⟨_, fails, .inr rfl⟩
  · obtain ⟨e, fails, before⟩ := behind (.inr rfl)
    exact ⟨e, fails, .inl before⟩

/-- If some rule gets further, or fails there with another message, the modifier is not reported. -/
theorem hidden (masked : bad.kind ∈ classModifiers ∨ exportsReach before = true) :
    ¬ (alternatives (statementRules statement) .statementExpected).Fails o ⟨s, depth⟩ bad.misplaced := by
  intro fails
  have reported : bad.misplaced = ⟨bad.start, .modifierMisplaced, _⟩ := h.failure_eq _ _
  have told {r : Rule Nat Node} (mem : r ∈ statementRules statement) : ∃ e, r.Fails o ⟨s, depth⟩ e ∧
      e.position ≤ bad.start ∧ (e.position = bad.start → e.message = .modifierMisplaced) := by
    obtain ⟨e, refuses, le, agrees⟩ := fails.of_alternatives (balanced_statementRules statement) mem
    rw [reported] at le agrees
    refine ⟨e, refuses, le, fun same => ?_⟩
    exact Failure.message_eq_of_agrees
      (agrees same (show Message.modifierMisplaced ≠ .statementExpected by decide))
  rcases masked with shared | reach
  · obtain ⟨e, refuses, further⟩ := h.classDeclaration_fails (o := o) shared
    obtain ⟨e', refuses', le, -⟩ := told (r := classDeclaration) (by simp [statementRules])
    obtain rfl := refuses.unique refuses'
    omega
  · obtain ⟨r, mem, outcome⟩ := h.exports_reach (o := o) reach
    have among : r ∈ statementRules statement := mem_statementRules.mpr (mem.imp_right .inr)
    obtain ⟨e, refuses, le, same⟩ := told among
    rcases outcome with ⟨n, v, gives⟩ | ⟨t, ⟨m, arguments, other, refuses'⟩, place⟩
    · exact refuses.not_gives gives
    · obtain rfl := refuses.unique refuses'
      rw [t.position_failure] at le same
      rcases place with rfl | further
      · rw [h.failure_eq] at same
        exact other (same rfl)
      · omega

/-- What is given in spite of the modifier is a default export. -/
theorem goes_on {n : Node} {v : State Nat}
    (gives : (alternatives (statementRules statement) .statementExpected).Gives o ⟨s, depth⟩ n v) :
    v.stream.current.kind ∉ nameEnds ∧
      (v.stream.current.error = none ∨ bad.start < v.stream.current.start) := by
  obtain ⟨r, mem, gives⟩ := gives.of_alternatives (balanced_statementRules statement)
  rcases mem_statementRules.mp mem with binding | ⟨g, row⟩ | rfl
  · obtain ⟨t, fails, -⟩ := h.binding_fails (o := o) binding
    exact absurd gives fails.not_gives
  · exact absurd gives (h.declaration_not_gives row)
  · exact h.exportAssignment_goes_on gives

end

end Misplaced

end Ambient
