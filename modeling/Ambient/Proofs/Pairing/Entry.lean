import Ambient.Parse
import Ambient.Proofs.Pairing.Statement

namespace Ambient

open Rule

variable {P : Pairing} [laws : P.Lawful]

namespace Grammar

open Follows

/-- Where the left text does not end before the right one, its statements follow. -/
theorem follows_sourceFile (even : ∀ s, ¬ P.Over s) :
    Follows P .met .met sourceFile sourceFile := by
  have items : BlockItem P P.Lost (statementItem statement .endOfFileToken)
      (statementItem statement .endOfFileToken) := statementItems rfl
  have : Follows P .met .met (statementsUntil statement .endOfFileToken)
      (statementsUntil statement .endOfFileToken) := by
    rw [statementsUntil_eq]
    exact ⟨fun stands h => (items.many_gives stands h).resolve_left (even _),
      fun faithful _ _ _ _ stands h => items.many_fails faithful stands h⟩
  exact Follows.map

/-- Where failures correspond, a statement follows from each place on. -/
theorem follows_statement (faithful : P.faithful) :
    Follows P .abreast .passed statement statement := by
  have within (l l' : Budget) (eq : l.length = l'.length) :
      Follows P .abreast .passed (statementWithin l) (statementWithin l') := by
    obtain _ | ⟨_, l⟩ := l
    · obtain rfl := List.eq_nil_of_length_eq_zero eq.symm
      exact (failHere (q := .passed) .statementExpected []).from_within
    · obtain _ | ⟨_, l'⟩ := l'
      · cases eq
      have := runs_statementWithin (P := P) l l' (Nat.le_of_eq (Nat.succ.inj eq))
        fun _ => Nat.succ.inj eq
      exact follows_rules faithful
  have budgets {s s' : State Nat} (stands : P.Stands .abreast s s') :
      s.stream.toList.length = s'.stream.toList.length :=
    congrArg Nat.succ (laws.length_eq faithful stands.meet)
  refine ⟨fun {s s' n t} stands h => ?_, fun _ {s s' e t} stands h => ?_⟩
  · rw [Gives, statement_apply] at h
    obtain ⟨n', t', h', rest⟩ := (within _ _ (budgets stands)).gives stands h
    exact ⟨n', t', (statement_apply _ _).trans h', rest⟩
  · rw [statement_apply] at h ⊢
    exact (within _ _ (budgets stands)).fails faithful stands h

/-- Where failures correspond, what ends with the left text does so with the right one. -/
theorem follows_entire (faithful : P.faithful) {r r' : Rule Nat Node}
    (h : Follows P .abreast .passed r r') : Follows P .abreast .met (entire r) (entire r') := by
  have exact_place {s s' : State Nat} (stands : P.Stands .passed s s') : P.Stands .abreast s s' :=
    stands.of_passed.resolve_left (Pairing.not_over faithful _)
  have first : Follows P .abreast .abreast r r' := by
    refine ⟨fun stands read => ?_, h.fails⟩
    obtain ⟨a', t', read', eq, after, le⟩ := h.gives stands read
    exact ⟨a', t', read', eq, exact_place after, le⟩
  refine bind_of first fun a => ?_
  have ends : Follows P .abreast .abreast (atKind .endOfFileToken) (atKind .endOfFileToken) := by
    refine ⟨fun {s s' b t} stands read => ?_, fun _ s s' e t _ read => by cases read⟩
    cases read
    exact ⟨_, s', .atKind, by rw [(laws.like stands.meet).kind]; rfl, stands, Nat.le_refl _⟩
  exact bind_of ends fun b => ite

end Grammar

section

variable {entry : Entry} {o : Options} {text : String} {n : Node} {e : Failure} {t : State Nat}

omit laws

theorem parse_of_gives (h : entry.rule.Gives o ⟨.ofText text, 0⟩ n t) :
    parse entry o text = .ok n := by
  rw [parse, show entry.rule o _ = _ from h]

theorem parse_of_fails (h : entry.rule o ⟨.ofText text, 0⟩ = (.error e, t)) :
    parse entry o text = .error (e.locate (LineMap.ofText text)) := by
  rw [parse, h]

theorem gives_of_parse (h : parse entry o text = .ok n) :
    ∃ t, entry.rule.Gives o ⟨.ofText text, 0⟩ n t := by
  rcases eq : entry.rule o ⟨.ofText text, 0⟩ with ⟨_ | tree, t⟩
  · rw [parse_of_fails eq] at h
    cases h
  · rw [parse_of_gives eq] at h
    obtain rfl := Except.ok.inj h
    exact ⟨t, eq⟩

end

/-- Where failures correspond, so do whole texts. -/
theorem Entry.follows (faithful : P.faithful) (entry : Entry) :
    Follows P .abreast .met entry.rule entry.rule := by
  cases entry with
  | file => exact (Grammar.follows_sourceFile (Pairing.not_over faithful)).from_within
  | type =>
    have type : Follows P .met .met Grammar.type Grammar.type := inferInstance
    exact Grammar.follows_entire faithful type.from_within.to_within
  | typeMember => exact Grammar.follows_entire faithful inferInstance
  | classMember => exact Grammar.follows_entire faithful inferInstance
  | statement => exact Grammar.follows_entire faithful (Grammar.follows_statement faithful)

end Ambient
