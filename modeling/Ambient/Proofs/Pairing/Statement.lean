import Ambient.Grammar.Statement
import Ambient.Proofs.Grammar.Statement
import Ambient.Proofs.Pairing.DefaultExport

namespace Ambient

namespace Pairing

/-- The left parse has taken a default export for one of a name and cannot go on. -/
def Stuck (P : Pairing) (s : State Nat) : Prop :=
  ¬ P.faithful ∧ Grammar.canFollowModifier s.stream.current.kind = true ∧
    ∀ budget n t, ¬ Rule.Gives (Grammar.statementWithin budget) P.left s n t

/-- The left parse has come to the end of its text where the right one goes on, or it is stuck. -/
def Lost (P : Pairing) (s : State Nat) : Prop := P.Over s ∨ P.Stuck s

/-- What rules for statements have to do with each other. -/
class Runs (P : Pairing) (statement statement' : Rule Nat Node) : Prop where
  gives : ∀ {s s' n t}, P.Stands .inside s s' → statement.Gives P.left s n t →
    P.Stuck t ∨ ∃ n' t', statement'.Gives P.right s' n' t' ∧ n = commented P.comment n' ∧
      P.Stands .passed t t' ∧ t.stream.ahead.length ≤ s.stream.ahead.length
  fails : P.faithful → ∀ {s s' e t}, P.Stands .inside s s' → statement P.left s = (.error e, t) →
    ∃ e' t', statement' P.right s' = (.error e', t') ∧ P.Alike e e' ∧ t.depth = t'.depth

end Pairing

namespace Grammar

open Rule Follows

set_option synthInstance.maxSize 1000

variable {P : Pairing} [laws : P.Lawful] {p q : Closeness}

/-- A rule that the grammar takes for statements. -/
class StatementRule (statement : Rule Nat Node) : Prop where
  is : IsStatementRule statement

instance : StatementRule Grammar.statement := ⟨.inl rfl⟩

instance (budget : Budget) : StatementRule (statementWithin budget) := ⟨.inr ⟨budget, rfl⟩⟩

theorem statement_apply (o : Options) (s : State Nat) :
    Grammar.statement o s = statementWithin s.stream.toList o s := by
  unfold Grammar.statement Rule.bounded
  rfl

theorem statementWithin_starts {budget : Budget} {d : Nat} {s u : Stream} {n : Node}
    (h : Leads (statementWithin budget) d s n u) : StartsStatement s := by
  cases budget with
  | nil => exact (Leads.failHere h).elim
  | cons _ budget =>
    have balanced := balanced_statementRules (statementWithin budget)
    have : Balanced (alternatives (statementRules (statementWithin budget)) .statementExpected) :=
      .alternatives balanced
    obtain ⟨d', -, h⟩ := Leads.nested h
    obtain ⟨r, mem, h⟩ := h.alternatives balanced
    exact statementRules_starts mem h

section

variable {statement statement' : Rule Nat Node} [isStatement : StatementRule statement]
  [isStatement' : StatementRule statement']

instance : Balanced statement := isStatement.is.balanced

omit laws in
theorem StatementRule.reads : statement.Reads 1 (.category .statement) := by
  rcases isStatement.is with rfl | ⟨budget, rfl⟩
  · exact statement_reads
  · exact statementWithin_reads budget

omit laws in
theorem StatementRule.starts {d : Nat} {s u : Stream} {n : Node} (h : statement.Leads d s n u) :
    StartsStatement s := by
  rcases isStatement.is with rfl | ⟨budget, rfl⟩
  · exact statementWithin_starts h.bounded
  · exact statementWithin_starts h

variable [runs : P.Runs statement statement']

/-- An item of a block of statements. -/
abbrev statementItem (statement : Rule Nat Node) (close : Kind) : Rule Nat (Option Node) := do
  skipSemicolons
  BlockItem.itemUnless (fun k => k = close || k = .endOfFileToken) statement

omit isStatement' in
theorem statementItems {close : Kind} (other : canFollowModifier close = false) :
    BlockItem P P.Lost (statementItem statement close) (statementItem statement' close) := by
  have reads : statement.Reads 1 (.category .statement) := StatementRule.reads
  have items : BlockItem P P.Lost
      (BlockItem.itemUnless (fun k => k = close || k = .endOfFileToken) statement)
      (BlockItem.itemUnless (fun k => k = close || k = .endOfFileToken) statement') := by
    refine .of_itemUnless (by simp) .inl ?_ ?_ ?_
      (consumes_of_reads reads) runs.fails
    · rintro faithful s (ended | ⟨unfaithful, -⟩)
      · exact Pairing.not_over faithful s ended
      · exact unfaithful faithful
    · rintro s (ended | ⟨-, more, stuck⟩)
      · exact .inl ended
      · refine .inr ⟨?_, fun n t h => ?_⟩
        · have ne {k : Kind} (other : canFollowModifier k = false) : s.stream.current.kind ≠ k :=
            Kind.ne_of_class more other
          simp [ne other, ne (k := .endOfFileToken) rfl]
        · rcases isStatement.is with rfl | ⟨budget, rfl⟩
          · rw [Gives, statement_apply] at h
            exact stuck s.stream.toList n t h
          · exact stuck budget n t h
    · intro s s' n t stands h
      rcases runs.gives stands h with stuck | ⟨n', t', h', eq, after, le⟩
      · exact .inl (.inr stuck)
      · exact after.of_passed.imp .inl fun abreast => ⟨n', t', h', eq, abreast.within, le⟩
  refine items.skip ?_
  rintro s (ended | ⟨-, more, -⟩)
  · rw [ended.kind]
    decide
  · exact Kind.ne_of_class more rfl

omit laws isStatement isStatement' runs in
theorem statementsUntil_eq (close : Kind) :
    statementsUntil statement close = many (statementItem statement close) := rfl

instance : Follows P .met .met (moduleBlock statement) (moduleBlock statement') := by
  have items : BlockItem P P.Lost (statementItem statement .closeBraceToken)
      (statementItem statement' .closeBraceToken) := statementItems rfl
  unfold moduleBlock
  rw [statementsUntil_eq, statementsUntil_eq]
  exact next fun _ => items.closed

omit isStatement' in
theorem follows_namespaceWithin (l l' : Budget) (le : l.length ≤ l'.length)
    (eq : P.faithful → l.length = l'.length) {flags : UInt32} {ms ms' : Option (List Node)}
    {c c' : Option String} [sm : Shown P.comment ms ms'] [sc : Shown P.comment c c'] :
    Follows P .met .met (namespaceWithin statement l flags ms c : Rule Nat Node)
      (namespaceWithin statement' l' flags ms' c') := by
  induction l generalizing l' flags ms ms' c c' with
  | nil =>
    refine spent (m := .identifierExpected) fun faithful => ?_
    rw [List.eq_nil_of_length_eq_zero (eq faithful).symm]
    rfl
  | cons _ l ih =>
    obtain _ | ⟨_, l'⟩ := l'
    · exact absurd le (Nat.not_succ_le_zero _)
    have inner : Follows P .met .met
        (namespaceWithin statement l (innerFlags flags) none none : Rule Nat Node)
        (namespaceWithin statement' l' (innerFlags flags) none none) :=
      ih l' (Nat.le_of_succ_le_succ le) fun faithful => Nat.succ.inj (eq faithful)
    have deeper : Follows P .met .met
        (nested (namespaceWithin statement l (innerFlags flags) none none : Rule Nat Node))
        (nested (namespaceWithin statement' l' (innerFlags flags) none none)) := Follows.nested
    refine next fun declared => next fun dot => ite_of .rfl ?_ inferInstance
    exact next fun inner => inferInstance

instance {ms ms' : Option (List Node)} [sm : Shown P.comment ms ms'] :
    Follows P .met .passed (quotedModule statement ms) (quotedModule statement' ms') := by
  unfold quotedModule
  infer_instance

instance : Follows P .abreast .passed (moduleDeclaration statement) (moduleDeclaration statement') := by
  refine behind_head fun comment ms => current_cases (fun t t' like _ => ?_) fun t t' last last' => ?_
  · rw [like.kind]
    split
    · infer_instance
    · rename_i flags _
      refine next fun _ => next fun quoted => ite_of .rfl inferInstance ?_
      exact to_within (bounded fun l l' le eq => follows_namespaceWithin l l' le eq)
  · rw [last]
    rcases last' with is | is <;> rw [is] <;>
      exact Follows.failHere .tokenExpected ["namespace"]

instance : Follows P .abreast .passed (globalBlock statement) (globalBlock statement') := by
  have block : Follows P .abreast .met (globalBlock statement) (globalBlock statement') := by
    unfold globalBlock
    infer_instance
  exact to_within block

/-- The rules for statements but the last, and how the statements start that they read. -/
def statementPairs (statement statement' : Rule Nat Node) :
    List ((Rule Nat Node × Rule Nat Node) × Front) := [
  ((importDeclaration, importDeclaration), ⟨[], [.importKeyword], false⟩),
  ((namespaceExport, namespaceExport), ⟨[.exportKeyword], [.asKeyword], false⟩),
  ((exportDeclaration, exportDeclaration),
    ⟨[.exportKeyword, .typeKeyword], [.openBraceToken, .asteriskToken], false⟩),
  ((interfaceDeclaration, interfaceDeclaration), ⟨interfaceModifiers, [.interfaceKeyword], false⟩),
  ((classDeclaration, classDeclaration), ⟨classModifiers, [.classKeyword], false⟩),
  ((functionDeclaration, functionDeclaration), ⟨interfaceModifiers, [.functionKeyword], false⟩),
  ((typeAlias, typeAlias), ⟨ambientModifiers, [.typeKeyword], true⟩),
  ((enumDeclaration, enumDeclaration), ⟨enumModifiers, [.enumKeyword], false⟩),
  ((variableStatement, variableStatement),
    ⟨ambientModifiers, [.constKeyword, .letKeyword, .varKeyword], true⟩),
  ((moduleDeclaration statement, moduleDeclaration statement'),
    ⟨ambientModifiers, [.namespaceKeyword, .moduleKeyword], false⟩),
  ((globalBlock statement, globalBlock statement'), ⟨ambientModifiers, [.globalKeyword], false⟩)]

omit laws isStatement isStatement' runs in
theorem mem_statementTable {e : (Rule Nat Node × Rule Nat Node) × Front}
    (mem : e ∈ statementPairs statement statement') : (e.1.2, e.2) ∈ statementTable statement' := by
  have right : (statementPairs statement statement').map (fun e => (e.1.2, e.2)) =
      statementTable statement' := rfl
  rw [← right]
  exact List.mem_map_of_mem mem

/-- All rules for statements. -/
abbrev rulePairs (statement statement' : Rule Nat Node) : List (Rule Nat Node × Rule Nat Node) :=
  (statementPairs statement statement').map Prod.fst ++ [(exportAssignment, exportAssignment)]

omit laws runs in
theorem rulePairs_balanced :
    ∀ e ∈ rulePairs statement statement', Balanced e.1 ∧ Balanced e.2 := by
  simp only [rulePairs, statementPairs, List.map_cons, List.map_nil, List.cons_append,
    List.nil_append, List.forall_mem_cons, List.not_mem_nil, false_imp_iff, implies_true, and_true]
  refine ⟨⟨?_, ?_⟩, ⟨?_, ?_⟩, ⟨?_, ?_⟩, ⟨?_, ?_⟩, ⟨?_, ?_⟩, ⟨?_, ?_⟩, ⟨?_, ?_⟩, ⟨?_, ?_⟩, ⟨?_, ?_⟩,
    ⟨?_, ?_⟩, ⟨?_, ?_⟩, ⟨?_, ?_⟩⟩ <;> infer_instance

omit isStatement' in
theorem rulePairs_follow :
    ∀ e ∈ rulePairs statement statement', Follows P .abreast .passed e.1 e.2 := by
  simp only [rulePairs, statementPairs, List.map_cons, List.map_nil, List.cons_append,
    List.nil_append, List.forall_mem_cons, List.not_mem_nil, false_imp_iff, implies_true, and_true]
  refine ⟨?_, ?_, ?_, to_within (m := .met) ?_, to_within (m := .met) ?_, ?_, ?_,
    to_within (m := .met) ?_, ?_, ?_, ?_, ?_⟩ <;> infer_instance

omit isStatement' in
/-- Where failures correspond, the choice between the rules for statements follows as it is. -/
theorem follows_rules (faithful : P.faithful) : Follows P .abreast .passed
    (nested (alternatives (statementRules statement) .statementExpected))
    (nested (alternatives (statementRules statement') .statementExpected)) := by
  have choice : Follows P .abreast .passed
      (alternatives (statementRules statement) .statementExpected)
      (alternatives (statementRules statement') .statementExpected) :=
    alternativesFrom_fails faithful inferInstance rulePairs_follow .none
  infer_instance

omit isStatement runs in
/-- A default export, where the right parse reads it as something else. -/
theorem defaultExport_settles {e : (Rule Nat Node × Rule Nat Node) × Front}
    (mem : e ∈ statementPairs statement statement') :
    P.Settles .inside (fun t => ∀ budget, LostBehind P (statementWithin budget) t) e.1
      (exportAssignment, exportAssignment) := by
  intro s s' n t n' t' m u stands refuses assign assign' gives budget
  have in_table := mem_statementTable mem
  obtain ⟨balanced, marks⟩ := statementTable_marked _ in_table
  have at_front := marks (leads_of_gives gives)
  obtain ⟨is', equals | ⟨default', -⟩⟩ := exportAssignment_leads (leads_of_gives assign')
  · have keyword := at_front.keyword (by rw [equals]; decide)
    rw [is'] at keyword
    exact absurd keyword (statementTable_keywords _ in_table)
  have apart (h : e.2.apart ⟨[.exportKeyword], [.defaultKeyword], false⟩ = true) : False :=
    at_front.apart (exportDefault_at is' default') h
  have is := (stands.within.kind_iff (by decide) (by decide)).mpr is'
  have default := (stands.next.kind_iff (by decide) (by decide)).mpr default'
  have starts {d s n u} (h : Leads (statementWithin budget) d s n u) : StartsStatement s :=
    statementWithin_starts h
  simp only [statementPairs, List.mem_cons, List.not_mem_nil, or_false] at mem
  rcases mem with rfl | rfl | rfl | rfl | rfl | rfl | rfl | rfl | rfl | rfl | rfl
  · exact (apart rfl).elim
  · exact (apart rfl).elim
  · exact (apart rfl).elim
  · exact interface_lost starts stands is default assign refuses gives
  · exact class_lost stands is default assign refuses gives
  · exact function_lost stands is default assign refuses gives
  all_goals exact (apart rfl).elim

omit isStatement runs in
theorem rulePairs_settle :
    (rulePairs statement statement').Pairwise
      (P.Settles .inside fun t => ∀ budget, LostBehind P (statementWithin budget) t) := by
  rw [rulePairs, List.pairwise_append]
  refine ⟨?_, List.pairwise_singleton _ _, ?_⟩
  · have apart : ((statementPairs statement statement').map Prod.snd).Pairwise
        fun f g => f.apart g = true := by
      simp only [statementPairs, List.map_cons, List.map_nil]
      decide
    refine Pairing.settles_of_table _ Front.At (fun f g => f.apart g = true)
      (fun differ h h' => h.apart h' differ) ?_ ((List.pairwise_map.mp apart).imp .inl)
    exact fun e mem => statementTable_marked _ (mem_statementTable mem)
  · intro r mem r' mem'
    obtain ⟨e, in_table, rfl⟩ := List.mem_map.mp mem
    obtain rfl := List.mem_singleton.mp mem'
    exact defaultExport_settles in_table

end

omit laws in
/-- Where the left parse is lost behind a rule for statements, it is stuck behind the statement. -/
theorem stuck_of_lostBehind {t : State Nat} {depth : Nat} (unfaithful : ¬ P.faithful)
    (level : t.depth = depth + 1) (lost : ∀ budget, LostBehind P (statementWithin budget) t) :
    P.Stuck ⟨t.stream, depth⟩ := by
  refine ⟨unfaithful, (lost []).1, fun budget n u h => ?_⟩
  cases budget with
  | nil => cases h
  | cons _ budget =>
    obtain ⟨-, v, h, -⟩ := Gives.of_nested (r := alternatives _ _) h
    obtain ⟨r, mem, gives⟩ := h.of_alternatives (balanced_statementRules (statementWithin budget))
    have place : (⟨t.stream, depth + 1⟩ : State Nat) = t := by rw [← level]
    exact (lost budget).2 r mem n v (place ▸ gives)

theorem runs_statementWithin (l l' : Budget) (le : l.length ≤ l'.length)
    (eq : P.faithful → l.length = l'.length) :
    P.Runs (statementWithin l) (statementWithin l') := by
  induction l generalizing l' with
  | nil =>
    have none : Follows P .inside .passed (statementWithin [] : Rule Nat Node) (statementWithin l') := by
      refine Follows.from_within (m := .met) (spent (m := .statementExpected) fun faithful => ?_)
      rw [List.eq_nil_of_length_eq_zero (eq faithful).symm]
      rfl
    exact ⟨fun stands h => .inr (none.gives stands h), fun faithful => none.fails faithful⟩
  | cons _ l ih =>
    obtain _ | ⟨_, l'⟩ := l'
    · exact absurd le (Nat.not_succ_le_zero _)
    have inner := ih l' (Nat.le_of_succ_le_succ le) fun faithful => Nat.succ.inj (eq faithful)
    have follow : ∀ e ∈ rulePairs (statementWithin l) (statementWithin l'),
        Follows P .abreast .passed e.1 e.2 := rulePairs_follow
    have balanced : ∀ e ∈ rulePairs (statementWithin l) (statementWithin l'),
        Balanced e.1 ∧ Balanced e.2 := rulePairs_balanced
    have all (faithful : P.faithful) : Follows P .abreast .passed
        (nested (alternatives (statementRules (statementWithin l)) .statementExpected))
        (nested (alternatives (statementRules (statementWithin l')) .statementExpected)) :=
      follows_rules faithful
    refine ⟨fun {s s' n t} stands h => ?_, fun faithful {s s' e t} stands h => ?_⟩
    · by_cases faithful : P.faithful
      · exact .inr ((all faithful).gives stands.within h)
      · obtain ⟨below, u, read, rfl⟩ := Gives.of_nested (r := alternatives _ _) h
        have deeper : P.Stands .inside ⟨s.stream, s.depth + 1⟩ ⟨s'.stream, s'.depth + 1⟩ :=
          ⟨congrArg (· + 1) stands.depth, stands.meet⟩
        have level {r : Rule Nat Node} (balanced : Balanced r) {o : Options} {s u : State Nat} {n : Node}
            (h : r.Gives o s n u) : u.depth = s.depth := by
          rw [Balanced.ok_eq h]
        have level' := level (.alternatives (balanced_statementRules _)) read
        rcases alternativesFrom_gives balanced (fun e mem => (follow e mem).from_within)
          rulePairs_settle deeper read with lost |
          ⟨e, mem, -, n', u', gives, eq, after, le, rest⟩
        · exact .inl (stuck_of_lostBehind faithful level' lost)
        · have below' : s'.depth < P.right.depthLimit := by
            rw [← stands.depth]
            exact Nat.lt_of_lt_of_le below laws.depth_le
          have place : u' = ⟨u'.stream, s'.depth + 1⟩ :=
            congrArg (State.mk u'.stream) (level (balanced e mem).2 gives)
          have right := Gives.nested (r := alternatives (statementRules (statementWithin l'))
            .statementExpected) below' (place ▸ rest none)
          exact .inr ⟨n', _, right, eq, ⟨stands.depth, after.meet⟩, le⟩
    · exact (all faithful).fails faithful stands.within h

instance : P.Runs Grammar.statement Grammar.statement := by
  have runs {s s' : State Nat} (stands : P.Stands .met s s') :
      P.Runs (statementWithin s.stream.toList) (statementWithin s'.stream.toList) :=
    runs_statementWithin _ _ (Nat.succ_le_succ stands.length_le)
      fun faithful => congrArg Nat.succ (stands.length_eq faithful)
  refine ⟨fun {s s' n t} stands h => ?_, fun faithful {s s' e t} stands h => ?_⟩
  · rw [Gives, statement_apply] at h
    rcases (runs stands.within).gives stands h with lost | ⟨n', t', h', rest⟩
    · exact .inl lost
    · exact .inr ⟨n', t', (statement_apply _ _).trans h', rest⟩
  · rw [statement_apply] at h ⊢
    exact (runs stands.within).fails faithful stands h

end Grammar

end Ambient
