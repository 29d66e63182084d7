import Ambient.Proofs.Grammar.Unambiguous
import Ambient.Proofs.Pairing.Rule

namespace Ambient

namespace Pairing

variable {P : Pairing} [laws : P.Lawful]

omit laws in
theorem Alike.agrees_eq {f g f' g' : Failure} (h : P.Alike f f') (h' : P.Alike g g') :
    f.agrees g = f'.agrees g' := by
  unfold Failure.agrees Failure.code Failure.text
  rw [h.message, h.arguments, h'.message, h'.arguments]

/-- What is furthest among the failures of the left parse is so among those of the right one. -/
structure AlikeBest (P : Pairing) (b b' : Rule.Furthest) : Prop where
  failure : P.Alike b.failure b'.failure
  contested : b.contested = b'.contested

omit laws in
theorem AlikeBest.report {b b' : Rule.Furthest} (h : P.AlikeBest b b') (fallback : Message) :
    P.Alike (b.report fallback) (b'.report fallback) := by
  unfold Rule.Furthest.report
  rw [h.contested]
  split
  · exact ⟨h.failure.near, rfl, rfl⟩
  · exact h.failure

theorem alikeBest_add (faithful : P.faithful) {best best' : Option Rule.Furthest} {e e' : Failure}
    (h : Option.Rel P.AlikeBest best best') (alike : P.Alike e e') :
    P.AlikeBest (.add best e) (.add best' e') := by
  cases h with
  | none => exact ⟨alike, rfl⟩
  | @some b b' h =>
    obtain ⟨before, same⟩ := laws.ordered faithful alike.near h.failure.near
    simp only [Rule.Furthest.add, before, same]
    split_ifs
    · exact h
    · exact ⟨h.failure, by rw [h.contested, alike.agrees_eq h.failure]⟩
    · exact ⟨alike, rfl⟩

end Pairing

namespace Follows

open Rule

variable {P : Pairing} [laws : P.Lawful] {p q : Closeness} {α : Type} [Commented α]

/-- In a faithful pairing alternatives follow if each of them does. -/
theorem alternativesFrom_fails (faithful : P.faithful) (within : p.Within .met)
    {rules : List (Rule Nat α × Rule Nat α)} (each : ∀ e ∈ rules, Follows P p q e.1 e.2)
    {best best' : Option Furthest} (h : Option.Rel P.AlikeBest best best') {fallback : Message} :
    Follows P p q (alternativesFrom best fallback (rules.map Prod.fst))
      (alternativesFrom best' fallback (rules.map Prod.snd)) := by
  induction rules generalizing best best' with
  | nil =>
    cases h with
    | none => exact (failHere fallback []).from_within
    | some h => exact fail fun _ => h.report fallback
  | cons e rules ih =>
    obtain ⟨first, others⟩ := List.forall_mem_cons.mp each
    refine ⟨fun {s s' a t} stands read => ?_, fun _ {s s' f t} stands read => ?_⟩
    · simp only [Gives, List.map_cons, alternativesFrom] at read ⊢
      split at read
      · cases read
        obtain ⟨a', t', read', rest⟩ := first.gives stands ‹_›
        exact ⟨a', t', by rw [show e.2 P.right s' = _ from read'], rest⟩
      · rename_i f t _
        obtain ⟨f', t', read', alike, depth⟩ := first.fails faithful stands ‹_›
        have again : P.Stands p ⟨s.stream, t.depth⟩ ⟨s'.stream, t'.depth⟩ := ⟨depth, stands.meet⟩
        rw [read']
        have rest := (ih others (.some (Pairing.alikeBest_add faithful h alike))).gives again read
        exact rest
    · simp only [List.map_cons, alternativesFrom] at read ⊢
      split at read
      · cases read
      · rename_i f t _
        obtain ⟨f', t', read', alike, depth⟩ := first.fails faithful stands ‹_›
        have again : P.Stands p ⟨s.stream, t.depth⟩ ⟨s'.stream, t'.depth⟩ := ⟨depth, stands.meet⟩
        rw [read']
        exact (ih others (.some (Pairing.alikeBest_add faithful h alike))).fails faithful again read

end Follows

namespace Pairing

/-- Where the left parse goes on from one alternative to another that succeeds, the right one does
not stay with the first, or the left one is lost behind what it has read. -/
def Settles (P : Pairing) (p : Closeness) (Lost : State Nat → Prop) {α : Type}
    (e e' : Rule Nat α × Rule Nat α) : Prop :=
  ∀ {s s' a t a' t' b u}, P.Stands p s s' → e.1.Refuses P.left s → e'.1.Gives P.left s a t →
    e'.2.Gives P.right s' a' t' → e.2.Gives P.right s' b u → Lost t

variable {P : Pairing} {p : Closeness} {Lost : State Nat → Prop}

/-- Of rules that differ in what they are marked with the right parse finds only one to succeed. -/
theorem settles_of_table {β : Type} (table : List ((Rule Nat Node × Rule Nat Node) × β))
    (At : β → Stream → Prop) (differ : β → β → Prop)
    (exclude : ∀ {b b' s}, differ b b' → At b s → At b' s → False)
    (marked : ∀ e ∈ table, Rule.Balanced e.1.2 ∧ ∀ {d s n u}, e.1.2.Leads d s n u → At e.2 s)
    (pairs : table.Pairwise fun e e' => differ e.2 e'.2 ∨ P.Settles p Lost e.1 e'.1) :
    (table.map Prod.fst).Pairwise (P.Settles p Lost) := by
  rw [List.pairwise_map]
  refine pairs.imp_of_mem ?_
  rintro ⟨e, b⟩ ⟨e', b'⟩ mem mem' (different | settles)
  · obtain ⟨balanced, marks⟩ := marked _ mem
    obtain ⟨balanced', marks'⟩ := marked _ mem'
    intro s s' a t a' t' c u _ _ _ gives' gives
    exact (exclude different (marks (Grammar.leads_of_gives gives))
      (marks' (Grammar.leads_of_gives gives'))).elim
  · exact settles

end Pairing

namespace Follows

open Rule

variable {P : Pairing} [laws : P.Lawful] {p q : Closeness} {α : Type} [Commented α]
  {Lost : State Nat → Prop}

omit laws in
/-- The alternative that succeeds on the left does so on the right, and is reached there. -/
theorem alternativesFrom_gives {rules : List (Rule Nat α × Rule Nat α)}
    (balanced : ∀ e ∈ rules, Balanced e.1 ∧ Balanced e.2)
    (each : ∀ e ∈ rules, Follows P p q e.1 e.2) (settle : rules.Pairwise (P.Settles p Lost))
    {best : Option Furthest} {fallback : Message} {s s' t : State Nat} {a : α}
    (stands : P.Stands p s s')
    (h : (alternativesFrom best fallback (rules.map Prod.fst)).Gives P.left s a t) :
    Lost t ∨ ∃ e ∈ rules, e.1.Gives P.left s a t ∧ ∃ a' t', e.2.Gives P.right s' a' t' ∧
      a = commented P.comment a' ∧ P.Stands q t t' ∧
      t.stream.ahead.length ≤ s.stream.ahead.length ∧
      ∀ best, (alternativesFrom best fallback (rules.map Prod.snd)).Gives P.right s' a' t' := by
  induction rules generalizing best with
  | nil => cases best <;> cases h
  | cons e rules ih =>
    obtain ⟨⟨first, first'⟩, others⟩ := List.forall_mem_cons.mp balanced
    obtain ⟨follows, each⟩ := List.forall_mem_cons.mp each
    obtain ⟨settles, settle⟩ := List.pairwise_cons.mp settle
    simp only [Gives, List.map_cons, alternativesFrom] at h
    split at h
    · rename_i b u read
      cases h
      obtain ⟨a', t', read', eq, stands', le⟩ := follows.gives stands read
      refine .inr ⟨e, List.mem_cons_self, read, a', t', read', eq, stands', le, fun best => ?_⟩
      simp only [Gives, List.map_cons, alternativesFrom, show e.2 P.right s' = _ from read']
    · rename_i f u read
      have kept := first.depth_eq P.left s
      rw [read] at kept
      rw [show u.depth = s.depth from kept] at h
      rcases ih others each settle h with lost |
        ⟨e', mem, gives, a', t', gives', eq, stands', le, rest⟩
      · exact .inl lost
      -- the right parse tries the first alternative too
      cases tried : e.2 P.right s' with
      | mk result u' =>
        cases result with
        | ok b => exact .inl (settles e' mem stands ⟨f, u, read⟩ gives gives' tried)
        | error f' =>
          have kept' := first'.depth_eq P.right s'
          rw [tried] at kept'
          refine .inr ⟨e', List.mem_cons_of_mem e mem, gives, a', t', gives', eq, stands', le,
            fun best => ?_⟩
          simp only [Gives, List.map_cons, alternativesFrom, tried]
          rw [show u'.depth = s'.depth from kept']
          exact rest _

/-- Alternatives follow if each of them does; where failures need not correspond, the choice between
them has to. -/
theorem alternatives {rules : List (Rule Nat α × Rule Nat α)} (within : p.Within .met)
    (balanced : ∀ e ∈ rules, Balanced e.1 ∧ Balanced e.2)
    (each : ∀ e ∈ rules, Follows P p q e.1 e.2)
    (settle : rules.Pairwise (P.Settles p fun _ => False)) {fallback : Message} :
    Follows P p q (alternatives (rules.map Prod.fst) fallback)
      (alternatives (rules.map Prod.snd) fallback) := by
  refine ⟨fun {s s' a t} stands h => ?_, fun faithful => ?_⟩
  · rcases alternativesFrom_gives balanced each settle stands h with lost |
      ⟨_, -, -, a', t', -, eq, stands', le, rest⟩
    · exact lost.elim
    · exact ⟨a', t', rest none, eq, stands', le⟩
  · exact (alternativesFrom_fails faithful within each .none).fails faithful

end Follows

end Ambient
