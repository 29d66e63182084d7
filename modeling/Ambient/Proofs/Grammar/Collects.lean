import Ambient.Proofs.Grammar.Gives
import Ambient.Proofs.Lexeme.Genuine

namespace Ambient

namespace Rule

variable {α : Type} {item : Rule Nat (Option α)} {o : Options} {s t : State Nat} {l : List α}

/-- Items one after another, up to the first place where there is none. -/
inductive Collects (item : Rule Nat (Option α)) (o : Options) : State Nat → List α → State Nat → Prop where
  | stop {s t : State Nat} (nothing : Gives item o s none t) : Collects item o s [] t
  | more {s t u : State Nat} {a : α} {l : List α} (found : Gives item o s (some a) t)
      (others : Collects item o t l u) : Collects item o s (a :: l) u

/-- What `item` finds it reads from the tokens of a text. -/
def Nears (item : Rule Nat (Option α)) (o : Options) : Prop :=
  ∀ {s t : State Nat} {a : α}, Scanned s.stream.toList → item.Gives o s (some a) t →
    Scanned t.stream.toList ∧ t.stream.ahead.length < s.stream.ahead.length

/-- A step of the loop over `item`. -/
abbrev collect (item : Rule Nat (Option α)) (read : List α) : Rule Nat (Option (List α)) := do
  return (← item).map (· :: read)

theorem collects_of_iterateWithin (nears : Nears item o) (budget : Budget) {read r : List α}
    (enough : s.stream.ahead.length < budget.length) (scanned : Scanned s.stream.toList)
    (h : iterateWithin (collect item) budget read o s = (.ok r, t)) :
    ∃ l, r = l.reverse ++ read ∧ Collects item o s l t := by
  induction budget generalizing s read with
  | nil => exact absurd enough (Nat.not_lt_zero _)
  | cons _ budget ih =>
    simp only [iterateWithin, collect, bind_apply] at h
    rcases found : item o s with ⟨_ | x, u⟩
    · rw [found] at h
      cases h
    · rw [found] at h
      cases x with
      | none =>
        cases h
        exact ⟨[], rfl, .stop found⟩
      | some a =>
        obtain ⟨scanned', less⟩ := nears scanned found
        rw [List.length_cons] at enough
        obtain ⟨l, rfl, others⟩ := ih (by omega) scanned' h
        exact ⟨a :: l, by simp, .more found others⟩

/-- A loop has collected all items if there are not more of them than it may run. -/
theorem Collects.iterateWithin (h : Collects item o s l t) (budget : Budget) (read : List α)
    (enough : l.length < budget.length) :
    iterateWithin (collect item) budget read o s = (.ok (l.reverse ++ read), t) := by
  induction h generalizing budget read with
  | stop nothing =>
    obtain _ | ⟨first, budget⟩ := budget
    · exact absurd enough (Nat.not_lt_zero _)
    · exact Gives.iterateWithin_stop (.bind nothing .pure)
  | @more s t u a l found others ih =>
    obtain _ | ⟨first, budget⟩ := budget
    · exact absurd enough (Nat.not_lt_zero _)
    · have rest := ih budget (a :: read) (Nat.lt_of_succ_lt_succ enough)
      rw [List.reverse_cons, List.append_assoc]
      exact Gives.iterateWithin_next (.bind found .pure) rest

theorem Collects.gives (h : Collects item o s l t) (enough : l.length < s.stream.toList.length) :
    (many item).Gives o s l t := by
  have loop := h.iterateWithin s.stream.toList [] enough
  have given : (many item).Gives o s (List.reverse (l.reverse ++ [])) t :=
    Gives.map (r := iterate (collect item) []) loop
  simpa using given

/-- There are not more items than tokens, if each of them reads one. -/
theorem Collects.length_le (nears : Nears item o) (h : Collects item o s l t)
    (scanned : Scanned s.stream.toList) : l.length ≤ s.stream.ahead.length := by
  induction h with
  | stop => exact Nat.zero_le _
  | more found others ih =>
    obtain ⟨scanned', less⟩ := nears scanned found
    exact Nat.le_trans (Nat.succ_le_succ (ih scanned')) less

/-- A loop stops where there is no next item. -/
theorem many_gives_iff (nears : Nears item o) (scanned : Scanned s.stream.toList) :
    (many item).Gives o s l t ↔ Collects item o s l t := by
  have enough : s.stream.ahead.length < s.stream.toList.length := Nat.lt_succ_self _
  constructor
  · intro h
    obtain ⟨r, u, loop, ⟨⟩⟩ := h.of_bind
    obtain ⟨l, rfl, collects⟩ := collects_of_iterateWithin nears _ enough scanned loop
    simpa using collects
  · intro h
    exact h.gives (Nat.lt_succ_of_le (h.length_le nears scanned))

/-- A semicolon, if there is one. -/
abbrev semicolon? : Rule Nat (Option Unit) := do
  return if ← Rule.accept .semicolonToken then some () else none

theorem semicolon?_cases {o : Options} {x : Option Unit} (h : semicolon?.Gives o s x t) :
    (x = some () ∧ s.stream.current.kind = .semicolonToken ∧ t = s.next) ∨
      (x = none ∧ s.stream.current.kind ≠ .semicolonToken ∧ t = s) := by
  obtain ⟨b, u, h, ⟨⟩⟩ := h.of_bind
  rcases h.of_accept with ⟨rfl, is, rfl⟩ | ⟨rfl, is, rfl⟩
  · exact .inl ⟨rfl, is, rfl⟩
  · exact .inr ⟨rfl, is, rfl⟩

theorem semicolon?_gives (o : Options) (s : State Nat) : ∃ x t, semicolon?.Gives o s x t := by
  by_cases is : s.stream.current.kind = .semicolonToken
  · exact ⟨_, _, .bind (.accept is) .pure⟩
  · exact ⟨_, _, .bind (.accept_not is) .pure⟩

theorem skipSemicolons_still {o : Options} {x : Unit} (h : skipSemicolons.Gives o s x t)
    (other : s.stream.current.kind ≠ .semicolonToken) : s = t := by
  have still : skipSemicolons.Gives o s () s :=
    .bind (.many_none (.bind (.accept_not other) .pure)) .pure
  cases still.symm.trans h
  rfl

theorem nears_semicolon? : Nears semicolon? o := by
  intro s t x scanned h
  rcases semicolon?_cases h with ⟨-, is, rfl⟩ | ⟨⟨⟩, -⟩
  have more := scanned.ahead_ne_nil (by rw [is]; decide)
  obtain ⟨⟨first, _ | ⟨second, ahead⟩⟩, depth⟩ := s
  · exact absurd rfl more
  · exact ⟨scanned.tail (List.cons_ne_nil _ _), Nat.lt_succ_self _⟩

/-- Behind a semicolon semicolons are skipped up to the same place. -/
theorem skipSemicolons_next (scanned : Scanned s.stream.toList)
    (is : s.stream.current.kind = .semicolonToken) :
    skipSemicolons.Gives o s () t ↔ skipSemicolons.Gives o s.next () t := by
  have found : semicolon?.Gives o s (some ()) s.next := .bind (.accept is) .pure
  obtain ⟨scanned', -⟩ := nears_semicolon? scanned found
  have loop {s : State Nat} (scanned : Scanned s.stream.toList) :
      skipSemicolons.Gives o s () t ↔ ∃ l, Collects semicolon? o s l t := by
    constructor
    · intro h
      obtain ⟨l, u, h, ⟨⟩⟩ := h.of_bind
      exact ⟨l, (many_gives_iff nears_semicolon? scanned).mp h⟩
    · rintro ⟨l, h⟩
      exact .bind ((many_gives_iff nears_semicolon? scanned).mpr h) .pure
  rw [loop scanned, loop scanned']
  constructor
  · rintro ⟨l, nothing | ⟨some, others⟩⟩
    · cases found.symm.trans nothing
    · cases found.symm.trans some
      exact ⟨_, others⟩
  · rintro ⟨l, others⟩
    exact ⟨() :: l, .more found others⟩

end Rule

end Ambient
