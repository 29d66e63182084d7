import Ambient.Proofs.Grammar.Balanced

namespace Ambient

/-- The same place one token further. -/
def State.next (s : State Nat) : State Nat := { s with stream := s.stream.next }

namespace Rule

variable {α β : Type}

/-- A rule gives `a` and stops at `t`. -/
def Gives (r : Rule Nat α) (o : Options) (s : State Nat) (a : α) (t : State Nat) : Prop :=
  r o s = (.ok a, t)

/-- A rule fails, somewhere. -/
def Refuses (r : Rule Nat α) (o : Options) (s : State Nat) : Prop := ∃ e t, r o s = (.error e, t)

variable {o : Options} {s t u : State Nat} {a : α} {b : β} {k : Kind}

namespace Gives

theorem bind {r : Rule Nat α} {f : α → Rule Nat β} (h : r.Gives o s a t) (g : (f a).Gives o t b u) :
    (r >>= f).Gives o s b u := by
  rw [Gives, bind_apply, h]
  exact g

theorem pure : (pure a : Rule Nat α).Gives o s a s := rfl

theorem map {g : α → β} {r : Rule Nat α} (h : r.Gives o s a t) : (g <$> r).Gives o s (g a) t :=
  bind h pure

theorem ite_pos {c : Prop} [Decidable c] {r r' : Rule Nat α} (is : c) (h : r.Gives o s a t) :
    (if c then r else r').Gives o s a t := by
  rwa [if_pos is]

theorem ite_neg {c : Prop} [Decidable c] {r r' : Rule Nat α} (is_not : ¬ c) (h : r'.Gives o s a t) :
    (if c then r else r').Gives o s a t := by
  rwa [if_neg is_not]

theorem current : current.Gives o s s.stream.current s := rfl

theorem advance : advance.Gives o s () s.next := rfl

theorem atKind : (atKind k).Gives o s (decide (s.stream.current.kind = k)) s := rfl

theorem atKindOnLine (is : s.stream.current.kind = k) (line : s.stream.current.onNewLine = false) :
    (atKindOnLine k).Gives o s true s := by
  have here : (decide (s.stream.current.kind = k) && !s.stream.current.onNewLine) = true := by
    simp [is, line]
  exact bind current (here ▸ pure)

theorem atKindOnLine_not (is_not : s.stream.current.kind ≠ k) :
    (Rule.atKindOnLine k).Gives o s false s := by
  have here : (decide (s.stream.current.kind = k) && !s.stream.current.onNewLine) = false := by
    simp [is_not]
  exact bind current (here ▸ pure)

theorem accept (is : s.stream.current.kind = k) : (accept k).Gives o s true s.next :=
  bind atKind (ite_pos (decide_eq_true is) (bind advance pure))

theorem accept_not (is_not : s.stream.current.kind ≠ k) : (Rule.accept k).Gives o s false s :=
  bind atKind (ite_neg (by simpa using is_not) pure)

theorem token?_not (is_not : s.stream.current.kind ≠ k) : (token? k).Gives o s none s :=
  bind (accept_not is_not) pure

theorem expect (is : s.stream.current.kind = k) : (expect k).Gives o s () s.next :=
  bind atKind (ite_pos (decide_eq_true is) advance)

theorem optionalAfter_not {r : Rule Nat α} (is_not : s.stream.current.kind ≠ k) :
    (optionalAfter k r).Gives o s none s :=
  bind (accept_not is_not) pure

theorem lookAhead {r : Rule Nat α} (h : r.Gives o s a t) :
    (lookAhead r).Gives o s a ⟨s.stream, t.depth⟩ := by
  rw [Gives, Rule.lookAhead, h]

theorem enterLevel {first : Stream} {depth : Nat} (below : depth < o.depthLimit) :
    enterLevel.Gives o ⟨first, depth⟩ () ⟨first, depth + 1⟩ := if_neg (Nat.not_le.mpr below)

theorem closingLevels {r : Rule Nat α} {first last : Stream} {depth reached : Nat}
    (h : r.Gives o ⟨first, depth⟩ a ⟨last, reached⟩) :
    (closingLevels r).Gives o ⟨first, depth⟩ a ⟨last, depth⟩ := by
  rw [Gives, Rule.closingLevels, h]
  rfl

theorem leavingLevel {r : Rule Nat α} {last : Stream} {depth : Nat}
    (h : r.Gives o s a ⟨last, depth + 1⟩) : (leavingLevel r).Gives o s a ⟨last, depth⟩ := by
  rw [Gives, Rule.leavingLevel, h]
  rfl

theorem nested {r : Rule Nat α} {first last : Stream} {depth : Nat} (below : depth < o.depthLimit)
    (h : r.Gives o ⟨first, depth + 1⟩ a ⟨last, depth + 1⟩) :
    (nested r).Gives o ⟨first, depth⟩ a ⟨last, depth⟩ :=
  bind (enterLevel below) (leavingLevel h)

theorem bounded {r : Budget → Rule Nat α} (h : (r s.stream.toList).Gives o s a t) :
    (bounded r).Gives o s a t := h

theorem iterateWithin_next {step : β → Rule Nat (Option β)} {budget : Budget} {first : Lexeme} {b' c : β}
    (h : (step b).Gives o s (some b') t) (g : iterateWithin step budget b' o t = (.ok c, u)) :
    iterateWithin step (first :: budget) b o s = (.ok c, u) := by
  rw [iterateWithin, h]
  exact g

theorem iterateWithin_stop {step : β → Rule Nat (Option β)} {budget : Budget} {first : Lexeme}
    (h : (step b).Gives o s none t) : iterateWithin step (first :: budget) b o s = (.ok b, t) := by
  rw [iterateWithin, h]

theorem iterate_stop {step : β → Rule Nat (Option β)} (h : (step b).Gives o s none t) :
    (iterate step b).Gives o s b t :=
  @iterateWithin_stop _ _ _ _ _ _ s.stream.ahead s.stream.current h

theorem many_none {item : Rule Nat (Option α)} (h : item.Gives o s none t) :
    (many item).Gives o s [] t := by
  have step : (do return (← item).map (· :: []) : Rule Nat (Option (List α))).Gives o s none t :=
    bind h rfl
  exact map (iterate_stop step)

theorem many_one {item : Rule Nat (Option α)} (h : item.Gives o s (some a) t)
    (more : s.stream.ahead ≠ []) (last : item.Gives o t none u) : (many item).Gives o s [a] u := by
  obtain ⟨⟨current, _ | ⟨next, ahead⟩⟩, depth⟩ := s
  · exact absurd rfl more
  · let step (read : List α) : Rule Nat (Option (List α)) := do return (← item).map (· :: read)
    have once : (step []).Gives o ⟨⟨current, next :: ahead⟩, depth⟩ (some [a]) t := bind h rfl
    have stop : (step [a]).Gives o t none u := bind last rfl
    have both : iterateWithin step (current :: next :: ahead) [] o
        ⟨⟨current, next :: ahead⟩, depth⟩ = (.ok [a], u) :=
      iterateWithin_next once (iterateWithin_stop stop)
    exact map both

end Gives

namespace Refuses

theorem bind {r : Rule Nat α} {f : α → Rule Nat β} (h : r.Refuses o s) : (r >>= f).Refuses o s := by
  obtain ⟨e, t, h⟩ := h
  exact ⟨e, t, by rw [bind_apply, h]⟩

theorem behind {r : Rule Nat α} {f : α → Rule Nat β} (h : r.Gives o s a t) (g : (f a).Refuses o t) :
    (r >>= f).Refuses o s := by
  obtain ⟨e, u, g⟩ := g
  exact ⟨e, u, by rw [bind_apply, h]; exact g⟩

theorem ite_neg {c : Prop} [Decidable c] {r r' : Rule Nat α} (is_not : ¬ c) (h : r'.Refuses o s) :
    (if c then r else r').Refuses o s := by
  rwa [if_neg is_not]

theorem failHere {m : Message} {arguments : List String} :
    (failHere m arguments : Rule Nat α).Refuses o s := ⟨_, _, rfl⟩

theorem expect (is_not : s.stream.current.kind ≠ k) : (expect k).Refuses o s :=
  behind Gives.atKind (ite_neg (by simpa using is_not) failHere)

end Refuses

/-- Rules that refuse give way to the next one. -/
theorem Gives.alternatives (before : List (Rule Nat α)) {after : List (Rule Nat α)} {r : Rule Nat α}
    {fallback : Message} (refuse : ∀ q ∈ before, Balanced q ∧ q.Refuses o s) (h : r.Gives o s a t) :
    (alternatives (before ++ r :: after) fallback).Gives o s a t := by
  have from_any : ∀ best, (alternativesFrom best fallback (before ++ r :: after)).Gives o s a t := by
    induction before with
    | nil =>
      intro best
      have here : r o s = (.ok a, t) := h
      simp only [Gives, List.nil_append, alternativesFrom, here]
    | cons q before ih =>
      intro best
      obtain ⟨⟨balanced, e, v, refused⟩, others⟩ := List.forall_mem_cons.mp refuse
      have kept := balanced.depth_eq o s
      rw [refused] at kept
      simp only [Gives, List.cons_append, alternativesFrom, refused]
      rw [show v.depth = s.depth from kept]
      exact ih others _
  exact from_any none

/-- What alternatives give one of them gives. -/
theorem Gives.of_alternatives {rules : List (Rule Nat α)} {fallback : Message}
    (balanced : ∀ r ∈ rules, Balanced r) (h : (Rule.alternatives rules fallback).Gives o s a t) :
    ∃ r ∈ rules, r.Gives o s a t := by
  have from_any : ∀ best, (alternativesFrom best fallback rules).Gives o s a t →
      ∃ r ∈ rules, r.Gives o s a t := by
    clear h
    induction rules with
    | nil =>
      intro best h
      cases best <;> cases h
    | cons r rules ih =>
      obtain ⟨first, others⟩ := List.forall_mem_cons.mp balanced
      intro best h
      simp only [Gives, alternativesFrom] at h
      split at h
      · cases h
        exact ⟨r, List.mem_cons_self, ‹_›⟩
      · rename_i e u refused
        have kept := first.depth_eq o s
        rw [refused] at kept
        rw [show u.depth = s.depth from kept] at h
        obtain ⟨r', mem, gives⟩ := ih others _ h
        exact ⟨r', List.mem_cons_of_mem r mem, gives⟩
  exact from_any none h

/-- What a rule gives one level deeper. -/
theorem Gives.of_nested {r : Rule Nat α} [Balanced r] (h : (Rule.nested r).Gives o s a t) :
    s.depth < o.depthLimit ∧
      ∃ u, r.Gives o ⟨s.stream, s.depth + 1⟩ a u ∧ t = ⟨u.stream, s.depth⟩ := by
  simp only [Gives, Balanced.nested_eq, Rule.closingLevels, bind_apply, Prod.mk.injEq] at h
  obtain ⟨value, rfl⟩ := h
  rcases Nat.lt_or_ge s.depth o.depthLimit with free | full
  · simp only [enterLevel_of_lt free] at value ⊢
    exact ⟨free, _, Prod.ext value rfl, rfl⟩
  · simp only [enterLevel_of_le full, reduceCtorEq] at value

theorem Gives.of_bind {r : Rule Nat α} {f : α → Rule Nat β} {b : β} (h : (r >>= f).Gives o s b t) :
    ∃ a u, r.Gives o s a u ∧ (f a).Gives o u b t := by
  rw [Gives, bind_apply] at h
  split at h
  · exact ⟨_, _, ‹_›, h⟩
  · simp at h

theorem Gives.bind_eq {r : Rule Nat α} (h : r.Gives o s a t) (f : α → Rule Nat β) :
    (r >>= f) o s = f a o t := by
  rw [bind_apply, show r o s = _ from h]

theorem semicolon_apply (o : Options) (s : State Nat) : semicolon o s =
    if s.stream.current.kind = .semicolonToken then (.ok (), s.next)
    else if s.stream.current.kind = .closeBraceToken ∨ s.stream.current.kind = .endOfFileToken ∨
      s.stream.current.onNewLine = true then (.ok (), s)
    else (.error (s.stream.current.failure .tokenExpected [";"]), s) := by
  rw [semicolon, bind_apply]
  simp only [current, Bool.or_eq_true, decide_eq_true_eq, or_assoc]
  split_ifs <;> rfl

/-- No semicolon is needed at the end of a line. -/
theorem Gives.semicolon_of_line (is_not : s.stream.current.kind ≠ .semicolonToken)
    (line : s.stream.current.onNewLine = true) : semicolon.Gives o s () s := by
  rw [Gives, semicolon_apply, if_neg is_not, if_pos (.inr (.inr line))]

/-- In front of a token that ends nothing by itself, only the end of a line stands for a semicolon. -/
theorem Gives.of_semicolon {x : Unit} (h : semicolon.Gives o s x t)
    (is_not : s.stream.current.kind ≠ .semicolonToken)
    (brace : s.stream.current.kind ≠ .closeBraceToken)
    (more : s.stream.current.kind ≠ .endOfFileToken) :
    s.stream.current.onNewLine = true ∧ t = s := by
  rw [Gives, semicolon_apply, if_neg is_not] at h
  split_ifs at h with ends
  · cases h
    exact ⟨(ends.resolve_left brace).resolve_left more, rfl⟩
  · cases h

theorem Gives.of_accept {k : Kind} {b : Bool} (h : (Rule.accept k).Gives o s b t) :
    (b = true ∧ s.stream.current.kind = k ∧ t = s.next) ∨
      (b = false ∧ s.stream.current.kind ≠ k ∧ t = s) := by
  by_cases is : s.stream.current.kind = k
  · cases (Gives.accept is).symm.trans h
    exact .inl ⟨rfl, is, rfl⟩
  · cases (Gives.accept_not is).symm.trans h
    exact .inr ⟨rfl, is, rfl⟩

theorem error_of_bind {r : Rule Nat α} {f : α → Rule Nat β} {e : Failure}
    (h : (r >>= f) o s = (.error e, t)) :
    r o s = (.error e, t) ∨ ∃ a u, r.Gives o s a u ∧ f a o u = (.error e, t) := by
  rw [bind_apply] at h
  split at h
  · exact .inr ⟨_, _, ‹_›, h⟩
  · obtain ⟨rfl, rfl⟩ : _ ∧ _ := by simpa using h
    exact .inl ‹_›

theorem bind_error {r : Rule Nat α} {f : α → Rule Nat β} {e : Failure} (h : r o s = (.error e, t)) :
    (r >>= f) o s = (.error e, t) := by
  rw [bind_apply, h]

theorem map_error {r : Rule Nat α} {g : α → β} {e : Failure} (h : r o s = (.error e, t)) :
    (g <$> r) o s = (.error e, t) := bind_error h

end Rule

/-- A boolean that instance search can see to be true. -/
class Holds (b : Bool) : Prop where
  eq : b = true

instance : Holds true := ⟨rfl⟩

end Ambient
