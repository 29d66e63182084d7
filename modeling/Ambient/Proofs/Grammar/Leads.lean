import Ambient.Proofs.Grammar.Balanced

namespace Ambient

namespace Rule

variable {α β : Type}

/-- A rule can lead from `s` to `u` and give `a` where `d` more levels may be opened. -/
def Leads (r : Rule Nat α) (d : Nat) (s : Stream) (a : α) (u : Stream) : Prop :=
  ∃ o depth, o.depthLimit - depth = d ∧ r o ⟨s, depth⟩ = (.ok a, ⟨u, depth⟩)

/-- A rule that is done has as many open levels as before. -/
theorem Balanced.ok_eq {r : Rule Nat α} [Balanced r] {o : Options} {s : Stream} {depth : Nat} {a : α}
    {t : State Nat} (h : r o ⟨s, depth⟩ = (.ok a, t)) : t = ⟨t.stream, depth⟩ := by
  have kept := depth_eq (r := r) o ⟨s, depth⟩
  rw [h] at kept
  exact congrArg (State.mk t.stream) kept

namespace Leads

variable {d : Nat} {s u : Stream} {a : α} {b : β}

theorem bind {r : Rule Nat α} {f : α → Rule Nat β} [Balanced r] (h : (r >>= f).Leads d s b u) :
    ∃ a t, r.Leads d s a t ∧ (f a).Leads d t b u := by
  obtain ⟨o, depth, left, h⟩ := h
  rw [bind_apply] at h
  split at h
  · rename_i a t eq
    have kept := Balanced.ok_eq eq
    rw [kept] at h eq
    exact ⟨a, t.stream, ⟨o, depth, left, eq⟩, ⟨o, depth, left, h⟩⟩
  · simp at h

theorem pure {c : α} (h : (pure c : Rule Nat α).Leads d s a u) : a = c ∧ s = u := by
  obtain ⟨o, depth, -, h⟩ := h
  injection h with value state
  injection value with value
  injection state with stream
  exact ⟨value.symm, stream⟩

theorem map {g : α → β} {r : Rule Nat α} [Balanced r] (h : (g <$> r).Leads d s b u) :
    ∃ a, r.Leads d s a u ∧ b = g a := by
  obtain ⟨a, t, read, h⟩ := bind h
  obtain ⟨rfl, rfl⟩ := pure h
  exact ⟨a, read, rfl⟩

theorem ite {c : Prop} [Decidable c] {r r' : Rule Nat α} (h : (if c then r else r').Leads d s a u) :
    (c ∧ r.Leads d s a u) ∨ (¬ c ∧ r'.Leads d s a u) := by
  split at h
  · exact .inl ⟨‹c›, h⟩
  · exact .inr ⟨‹¬ c›, h⟩

theorem of_true {r r' : Rule Nat α} (h : (if true = true then r else r').Leads d s a u) :
    r.Leads d s a u :=
  h

theorem of_false {r r' : Rule Nat α} (h : (if false = true then r else r').Leads d s a u) :
    r'.Leads d s a u := h

theorem noneOr {c : Prop} [Decidable c] {r : Rule Nat α} [Balanced r] {x : Option α}
    (h : (if c then Pure.pure none else some <$> r).Leads d s x u) :
    (x = none ∧ c ∧ s = u) ∨ ∃ a, x = some a ∧ r.Leads d s a u := by
  rcases ite h with ⟨is, h⟩ | ⟨-, h⟩
  · obtain ⟨rfl, rfl⟩ := pure h
    exact .inl ⟨rfl, is, rfl⟩
  · obtain ⟨a, read, rfl⟩ := map h
    exact .inr ⟨a, rfl, read⟩

theorem fail {f : Failure} (h : (fail f : Rule Nat α).Leads d s a u) : False := by
  obtain ⟨o, depth, -, h⟩ := h
  simp [Rule.fail] at h

theorem failHere {m : Message} {arguments : List String}
    (h : (failHere m arguments : Rule Nat α).Leads d s a u) : False := by
  obtain ⟨o, depth, -, h⟩ := h
  simp [Rule.failHere] at h

theorem current {t : Lexeme} (h : current.Leads d s t u) : t = s.current ∧ s = u := by
  obtain ⟨o, depth, -, h⟩ := h
  simp only [Rule.current, Prod.mk.injEq, Except.ok.injEq, State.mk.injEq] at h
  exact ⟨h.1.symm, h.2.1⟩

theorem advance {x : Unit} (h : advance.Leads d s x u) : u = s.next := by
  obtain ⟨o, depth, -, h⟩ := h
  simp only [Rule.advance, Prod.mk.injEq, State.mk.injEq] at h
  exact h.2.1.symm

theorem documentationHere {c : Option String} (h : documentationHere.Leads d s c u) : s = u := by
  obtain ⟨o, depth, -, h⟩ := h
  simp only [Rule.documentationHere, Prod.mk.injEq, State.mk.injEq] at h
  exact h.2.1

theorem atKind {k : Kind} {x : Bool} (h : (atKind k).Leads d s x u) :
    x = decide (s.current.kind = k) ∧ s = u := by
  obtain ⟨t, s', here, h⟩ := bind h
  obtain ⟨rfl, rfl⟩ := current here
  exact pure h

theorem atKindOnLine {k : Kind} {x : Bool} (h : (atKindOnLine k).Leads d s x u) :
    (x = true → s.current.kind = k) ∧ s = u := by
  obtain ⟨t, s', here, h⟩ := bind h
  obtain ⟨rfl, rfl⟩ := current here
  obtain ⟨rfl, rfl⟩ := pure h
  exact ⟨fun both => by simp_all, rfl⟩

theorem accept {k : Kind} {x : Bool} (h : (accept k).Leads d s x u) :
    (x = true ∧ s.current.kind = k ∧ u = s.next) ∨ (x = false ∧ s.current.kind ≠ k ∧ s = u) := by
  obtain ⟨found, s', here, h⟩ := bind h
  obtain ⟨rfl, rfl⟩ := atKind here
  rcases ite h with ⟨is, h⟩ | ⟨is_not, h⟩
  · obtain ⟨_, _, step, h⟩ := bind h
    obtain rfl := advance step
    obtain ⟨rfl, rfl⟩ := pure h
    exact .inl ⟨rfl, of_decide_eq_true is, rfl⟩
  · obtain ⟨rfl, rfl⟩ := pure h
    exact .inr ⟨rfl, by simpa using is_not, rfl⟩

theorem token? {k : Kind} {x : Option Node} (h : (token? k).Leads d s x u) :
    (x = some (.token k) ∧ s.current.kind = k ∧ u = s.next) ∨ (x = none ∧ s = u) := by
  obtain ⟨found, s', here, h⟩ := bind h
  obtain ⟨rfl, rfl⟩ := pure h
  rcases accept here with ⟨rfl, is, rfl⟩ | ⟨rfl, -, rfl⟩
  · exact .inl ⟨rfl, is, rfl⟩
  · exact .inr ⟨rfl, rfl⟩

theorem expect {k : Kind} {x : Unit} (h : (expect k).Leads d s x u) :
    s.current.kind = k ∧ u = s.next := by
  obtain ⟨found, s', here, h⟩ := bind h
  obtain ⟨rfl, rfl⟩ := atKind here
  rcases ite h with ⟨is, h⟩ | ⟨-, h⟩
  · exact ⟨of_decide_eq_true is, advance h⟩
  · exact (failHere h).elim

theorem optionalAfter {k : Kind} {r : Rule Nat α} [Balanced r] {x : Option α}
    (h : (optionalAfter k r).Leads d s x u) :
    (∃ a, x = some a ∧ s.current.kind = k ∧ r.Leads d s.next a u) ∨ (x = none ∧ s = u) := by
  obtain ⟨found, s', here, h⟩ := bind h
  rcases accept here with ⟨rfl, is, rfl⟩ | ⟨rfl, -, rfl⟩
  · obtain ⟨a, read, rfl⟩ := map h
    exact .inl ⟨a, rfl, is, read⟩
  · obtain ⟨rfl, rfl⟩ := pure h
    exact .inr ⟨rfl, rfl⟩

theorem semicolon {x : Unit} (h : semicolon.Leads d s x u) :
    (s.current.kind = .semicolonToken ∧ u = s.next) ∨ s = u := by
  obtain ⟨t, s', here, h⟩ := bind h
  obtain ⟨rfl, rfl⟩ := current here
  rcases ite h with ⟨is, h⟩ | ⟨-, h⟩
  · exact .inl ⟨is, advance h⟩
  · rcases ite h with ⟨-, h⟩ | ⟨-, h⟩
    · exact .inr (pure h).2
    · exact (failHere h).elim

theorem lookAhead {r : Rule Nat α} (h : (lookAhead r).Leads d s a u) :
    (∃ t, r.Leads d s a t) ∧ s = u := by
  obtain ⟨o, depth, left, h⟩ := h
  simp only [Rule.lookAhead, Prod.mk.injEq, State.mk.injEq] at h
  refine ⟨⟨(r o ⟨s, depth⟩).2.stream, o, depth, left, ?_⟩, h.2.1⟩
  exact Prod.ext h.1 (congrArg (State.mk _) h.2.2)

theorem alternativesFrom {best : Option Furthest} {fallback : Message} {rules : List (Rule Nat α)}
    (each : ∀ r ∈ rules, Balanced r) (h : (alternativesFrom best fallback rules).Leads d s a u) :
    ∃ r ∈ rules, r.Leads d s a u := by
  induction rules generalizing best with
  | nil =>
    cases best with
    | none => exact (failHere h).elim
    | some b => exact (fail h).elim
  | cons r rules ih =>
    obtain ⟨first, others⟩ := List.forall_mem_cons.mp each
    obtain ⟨o, depth, left, h⟩ := h
    have kept := first.depth_eq o ⟨s, depth⟩
    simp only [Rule.alternativesFrom] at h
    split at h
    · rename_i b t eq
      rw [h] at eq
      exact ⟨r, List.mem_cons_self, o, depth, left, eq⟩
    · rename_i e t eq
      rw [eq] at kept
      rw [show t.depth = depth from kept] at h
      obtain ⟨r', mem, leads⟩ := ih others ⟨o, depth, left, h⟩
      exact ⟨r', List.mem_cons_of_mem r mem, leads⟩

theorem alternatives {rules : List (Rule Nat α)} {fallback : Message}
    (each : ∀ r ∈ rules, Balanced r) (h : (alternatives rules fallback).Leads d s a u) :
    ∃ r ∈ rules, r.Leads d s a u :=
  alternativesFrom each h

/-- What follows the opening of a level has one level less to open. -/
theorem enterLevel {r : Rule Nat α} [Balanced r] {o : Options} {depth : Nat} {t : State Nat}
    (h : (do enterLevel; r) o ⟨s, depth⟩ = (.ok a, t)) :
    depth < o.depthLimit ∧ t.depth = depth + 1 ∧ r.Leads (o.depthLimit - depth - 1) s a t.stream := by
  rw [bind_apply] at h
  rcases Nat.lt_or_ge depth o.depthLimit with free | full
  · rw [enterLevel_of_lt free] at h
    have kept := Balanced.ok_eq h
    rw [kept] at h ⊢
    exact ⟨free, rfl, o, depth + 1, (Nat.sub_sub _ _ _).symm, h⟩
  · rw [enterLevel_of_le full] at h
    simp at h

theorem nested {r : Rule Nat α} [Balanced r] (h : (nested r).Leads d s a u) :
    ∃ d', d = d' + 1 ∧ r.Leads d' s a u := by
  obtain ⟨o, depth, rfl, h⟩ := h
  simp only [Balanced.nested_eq, Rule.closingLevels, Prod.mk.injEq, State.mk.injEq] at h
  obtain ⟨value, stream, -⟩ := h
  obtain ⟨below, -, leads⟩ := enterLevel (Prod.ext value rfl)
  rw [stream] at leads
  exact ⟨_, by omega, leads⟩

theorem bounded {r : Budget → Rule Nat α} (h : (bounded r).Leads d s a u) :
    (r s.toList).Leads d s a u := h

/-- What a repeated step preserves, whether it gives a new value or not, holds in the end. -/
theorem iterateWithin {step : β → Rule Nat (Option β)} [∀ b, Balanced (step b)]
    {P : β → Stream → Prop} (next : ∀ b b' s t, P b s → (step b).Leads d s (some b') t → P b' t)
    (stop : ∀ b s t, P b s → (step b).Leads d s none t → P b t) {budget : Budget} {b c : β}
    {s u : Stream} (h : Leads (iterateWithin step budget b) d s c u) (start : P b s) : P c u := by
  induction budget generalizing b s with
  | nil =>
    obtain ⟨rfl, rfl⟩ := pure h
    exact start
  | cons _ budget ih =>
    obtain ⟨o, depth, left, h⟩ := h
    simp only [Rule.iterateWithin] at h
    split at h
    · rename_i b' t eq
      have kept := Balanced.ok_eq eq
      rw [kept] at h eq
      exact ih ⟨o, depth, left, h⟩ (next b b' s t.stream start ⟨o, depth, left, eq⟩)
    · rename_i t eq
      simp only [Prod.mk.injEq, Except.ok.injEq] at h
      obtain ⟨rfl, rfl⟩ := h
      exact stop b s u start ⟨o, depth, left, eq⟩
    · simp at h

theorem iterate {step : β → Rule Nat (Option β)} [∀ b, Balanced (step b)] {P : β → Stream → Prop}
    (next : ∀ b b' s t, P b s → (step b).Leads d s (some b') t → P b' t)
    (stop : ∀ b s t, P b s → (step b).Leads d s none t → P b t) {b c : β} {s u : Stream}
    (h : (iterate step b).Leads d s c u) (start : P b s) : P c u :=
  iterateWithin next stop (bounded h) start

theorem many {item : Rule Nat (Option α)} [Balanced item] {P : List α → Stream → Prop}
    (next : ∀ l a s t, P l s → item.Leads d s (some a) t → P (l ++ [a]) t)
    (stop : ∀ l s t, P l s → item.Leads d s none t → P l t) {l : List α} {s u : Stream}
    (h : (many item).Leads d s l u) (start : P [] s) : P l u := by
  obtain ⟨read, loop, rfl⟩ := map h
  refine iterate (P := fun read s => P read.reverse s) ?_ ?_ loop start
  · intro read read' s t before step
    obtain ⟨found, t', one, step⟩ := bind step
    obtain ⟨eq, rfl⟩ := pure step
    cases found with
    | none => simp at eq
    | some a =>
      obtain rfl := Option.some.inj eq
      rw [List.reverse_cons]
      exact next _ a s t' before one
  · intro read s t before step
    obtain ⟨found, t', one, step⟩ := bind step
    obtain ⟨eq, rfl⟩ := pure step
    cases found with
    | none => exact stop _ s t' before one
    | some a => simp at eq

/-- If every step that gives a new value leads nearer to the end of the tokens, then the budget lasts
until a step gives none. -/
theorem iterateWithin_ends {step : β → Rule Nat (Option β)} [∀ b, Balanced (step b)]
    {P : Stream → Prop} (nearer : ∀ b b' s t, P s → (step b).Leads d s (some b') t →
      P t ∧ t.ahead.length < s.ahead.length) {budget : Budget} {b c : β} {s u : Stream}
    (h : Leads (Rule.iterateWithin step budget b) d s c u) (start : P s)
    (enough : s.ahead.length < budget.length) : ∃ t, (step c).Leads d t none u := by
  induction budget generalizing b s with
  | nil => exact absurd enough (Nat.not_lt_zero _)
  | cons _ budget ih =>
    obtain ⟨o, depth, left, h⟩ := h
    simp only [Rule.iterateWithin] at h
    split at h
    · rename_i b' t eq
      have kept := Balanced.ok_eq eq
      rw [kept] at h eq
      obtain ⟨start', near⟩ := nearer b b' s t.stream start ⟨o, depth, left, eq⟩
      rw [List.length_cons] at enough
      exact ih ⟨o, depth, left, h⟩ start' (by omega)
    · rename_i t eq
      simp only [Prod.mk.injEq, Except.ok.injEq] at h
      obtain ⟨rfl, rfl⟩ := h
      exact ⟨s, o, depth, left, eq⟩
    · simp at h

theorem many_ends {item : Rule Nat (Option α)} [Balanced item] {P : Stream → Prop}
    (nearer : ∀ a s t, P s → item.Leads d s (some a) t → P t ∧ t.ahead.length < s.ahead.length)
    {l : List α} {s u : Stream} (h : (Rule.many item).Leads d s l u) (start : P s) :
    ∃ t, item.Leads d t none u := by
  obtain ⟨read, loop, rfl⟩ := map h
  have enough : s.ahead.length < s.toList.length := Nat.lt_succ_self _
  have step_nearer : ∀ read read' s t, P s →
      Leads (do return (← item).map (· :: read)) d s (some read') t →
      P t ∧ t.ahead.length < s.ahead.length := by
    intro read read' s t before step
    obtain ⟨found, t', one, step⟩ := bind step
    obtain ⟨eq, rfl⟩ := pure step
    cases found with
    | none => cases eq
    | some a => exact nearer a s t' before one
  have within : Leads (Rule.iterateWithin (fun read => do return (← item).map (· :: read))
      s.toList []) d s read u := loop
  obtain ⟨t, last⟩ := iterateWithin_ends step_nearer within start enough
  obtain ⟨found, t', one, last⟩ := bind last
  obtain ⟨eq, rfl⟩ := pure last
  cases found with
  | none => exact ⟨t, one⟩
  | some a => cases eq

section

variable {here : Rule Nat Bool} {grow : β → Rule Nat (Option β)} [Balanced here] [∀ b, Balanced (grow b)]

/-- A step that opens a level for what it adds, or adds nothing. -/
abbrev climbStep (here : Rule Nat Bool) (grow : β → Rule Nat (Option β)) (b : β) :
    Rule Nat (Option β) := do
  if ← here then
    Rule.enterLevel
    grow b
  else return none

theorem climbStep_ok {o : Options} {depth : Nat} {b : β} {x : Option β} {t : State Nat}
    (h : climbStep here grow b o ⟨s, depth⟩ = (.ok x, t)) :
    (∃ d v, o.depthLimit - depth = d + 1 ∧ t.depth = depth + 1 ∧ here.Leads (d + 1) s true v ∧
      (grow b).Leads d v x t.stream) ∨
    (x = none ∧ here.Leads (o.depthLimit - depth) s false t.stream) := by
  rw [climbStep, bind_apply] at h
  split at h
  · rename_i found v eq
    rw [Balanced.ok_eq eq] at h eq
    split at h
    · rename_i is
      obtain rfl : found = true := is
      obtain ⟨below, kept, leads⟩ := enterLevel h
      have left : o.depthLimit - depth = o.depthLimit - depth - 1 + 1 := by omega
      exact .inl ⟨_, v.stream, left, kept, ⟨o, depth, left, eq⟩, leads⟩
    · rename_i is_not
      obtain rfl : found = false := Bool.eq_false_iff.mpr is_not
      injection h with value state
      injection value with value
      rw [← state]
      exact .inr ⟨value.symm, o, depth, rfl, eq⟩
  · simp at h

/-- A value that grows by a level with every step: what a step preserves, with one level less left
to open, holds in the end. -/
theorem climb {P : Nat → β → Stream → Prop}
    (next : ∀ d b b' s t v, P (d + 1) b s → here.Leads (d + 1) s true t →
      (grow b).Leads d t (some b') v → P d b' v)
    (stop : ∀ d b s t, P d b s → here.Leads d s false t → P d b t)
    (grows : ∀ d b s t, ¬ (grow b).Leads d s none t) {b c : β} {s u : Stream}
    (h : (Rule.closingLevels (Rule.iterate (climbStep here grow) b)).Leads d s c u)
    (start : P d b s) : ∃ d' ≤ d, P d' c u := by
  obtain ⟨o, depth, rfl, h⟩ := h
  simp only [Rule.closingLevels, Prod.mk.injEq, State.mk.injEq] at h
  obtain ⟨value, stream, -⟩ := h
  have loop : ∀ (budget : Budget) (b : β) (s : Stream) (depth : Nat) (t : State Nat),
      Rule.iterateWithin (climbStep here grow) budget b o ⟨s, depth⟩ = (.ok c, t) →
      P (o.depthLimit - depth) b s → ∃ d' ≤ o.depthLimit - depth, P d' c t.stream := by
    intro budget
    induction budget with
    | nil =>
      intro b s depth t h start
      simp only [Rule.iterateWithin, Prod.mk.injEq, Except.ok.injEq] at h
      obtain ⟨rfl, rfl⟩ := h
      exact ⟨_, Nat.le_refl _, start⟩
    | cons _ budget ih =>
      intro b s depth t h start
      simp only [Rule.iterateWithin] at h
      split at h
      · rename_i b' v eq
        rcases climbStep_ok eq with ⟨d, w, left, deeper, found, leads⟩ | ⟨none, -⟩
        · rw [left] at start
          have less : o.depthLimit - v.depth = d := by omega
          obtain ⟨d', le, holds⟩ := ih b' v.stream v.depth t h
            (less.symm ▸ next d b b' s w v.stream start found leads)
          exact ⟨d', by omega, holds⟩
        · cases none
      · rename_i v eq
        simp only [Prod.mk.injEq, Except.ok.injEq] at h
        obtain ⟨rfl, rfl⟩ := h
        rcases climbStep_ok eq with ⟨d, w, -, -, -, leads⟩ | ⟨-, found⟩
        · exact (grows _ _ _ _ leads).elim
        · exact ⟨_, Nat.le_refl _, stop _ _ _ _ start found⟩
      · simp at h
  obtain ⟨d', le, holds⟩ := loop s.toList b s depth _ (Prod.ext value rfl) start
  rw [show (Rule.iterateWithin (climbStep here grow) s.toList b o ⟨s, depth⟩).2.stream = u
    from stream] at holds
  exact ⟨d', le, holds⟩

end

end Leads

end Rule

end Ambient
