import Ambient.Proofs.Pairing.Basic

namespace Ambient

class Follows (P : Pairing) (p q : Closeness) {α : Type} [Commented α] (r r' : Rule Nat α) : Prop where
  gives : ∀ {s s' a t}, P.Stands p s s' → r.Gives P.left s a t →
    ∃ a' t', r'.Gives P.right s' a' t' ∧ a = commented P.comment a' ∧ P.Stands q t t' ∧
      t.stream.ahead.length ≤ s.stream.ahead.length
  fails : P.faithful → ∀ {s s' e t}, P.Stands p s s' → r P.left s = (.error e, t) →
    ∃ e' t', r' P.right s' = (.error e', t') ∧ P.Alike e e' ∧ t.depth = t'.depth

/-- From places that correspond as `p` says, two rules say the same about what stands there, where
they stay; if they say yes then the places are in front of the same token. -/
class Tests (P : Pairing) (p : Closeness) (c c' : Rule Nat Bool) : Prop where
  gives : ∀ {s s'}, P.Stands p s s' → ∃ b, c.Gives P.left s b s ∧ c'.Gives P.right s' b s' ∧
    (b = true → P.Stands .inside s s')

/-- The left rule reads a token. -/
class Consumes (P : Pairing) (p : Closeness) {α : Type} (r r' : Rule Nat α) : Prop where
  fewer : ∀ {s s' a t}, P.Stands p s s' → r.Gives P.left s a t →
    t.stream.ahead.length < s.stream.ahead.length

/-- The left rule reads a token if it finds something. -/
class Eats (P : Pairing) (p : Closeness) {α : Type} (r r' : Rule Nat (Option α)) : Prop where
  fewer : ∀ {s s' a t}, P.Stands p s s' → r.Gives P.left s (some a) t →
    t.stream.ahead.length < s.stream.ahead.length

namespace Follows

open Rule

variable {P : Pairing} {p q : Closeness} {α β : Type} [Commented α] [Commented β]

instance pure [within : p.Within q] {a a' : α} [shown : Shown P.comment a a'] :
    Follows P p q (pure a) (pure a') where
  gives := by
    rintro s s' b t stands ⟨rfl, rfl⟩
    exact ⟨a', s', rfl, shown.eq, stands.within, Nat.le_refl _⟩
  fails := by
    rintro - s s' e t - h
    cases h

theorem bind_of {r r' : Rule Nat α} {f f' : α → Rule Nat β} {m : Closeness} (first : Follows P p m r r')
    (each : ∀ a, Follows P m q (f (commented P.comment a)) (f' a)) :
    Follows P p q (r >>= f) (r' >>= f') where
  gives := by
    intro s s' b t stands h
    obtain ⟨a, u, h, g⟩ := h.of_bind
    obtain ⟨a', u', h', rfl, stands, le⟩ := first.gives stands h
    obtain ⟨b', t', g', eq, stands, le'⟩ := (each a').gives stands g
    exact ⟨b', t', h'.bind g', eq, stands, Nat.le_trans le' le⟩
  fails := by
    intro faithful s s' e t stands h
    rcases error_of_bind h with h | ⟨a, u, h, g⟩
    · obtain ⟨e', t', h', alike, depth⟩ := first.fails faithful stands h
      exact ⟨e', t', bind_error h', alike, depth⟩
    · obtain ⟨a', u', h', rfl, stands, -⟩ := first.gives stands h
      obtain ⟨e', t', g', alike, depth⟩ := (each a').fails faithful stands g
      exact ⟨e', t', (h'.bind_eq f').trans g', alike, depth⟩

instance bind {r r' : Rule Nat α} {f f' : α → Rule Nat β} [first : Follows P p .met r r']
    [each : ∀ a, Follows P .met q (f (commented P.comment a)) (f' a)] :
    Follows P p q (r >>= f) (r' >>= f') := bind_of first each

theorem next {r r' : Rule Nat α} {f f' : α → Rule Nat β} [first : Follows P p .met r r']
    (each : ∀ a, Follows P .met q (f (commented P.comment a)) (f' a)) :
    Follows P p q (r >>= f) (r' >>= f') := bind_of first each

/-- A rule that reads nothing leaves the places as they are. -/
instance (priority := low) bind_still {r r' : Rule Nat α} {f f' : α → Rule Nat β}
    [first : Follows P .abreast .abreast r r']
    [each : ∀ a, Follows P .abreast q (f (commented P.comment a)) (f' a)] :
    Follows P .abreast q (r >>= f) (r' >>= f') := bind_of first each

/-- The end of a rule may be reached behind a semicolon. -/
instance (priority := low) bind_last {r r' : Rule Nat α} {b b' : α → β}
    [first : Follows P p .passed r r'] [shown : ∀ a, Shown P.comment (b (commented P.comment a)) (b' a)] :
    Follows P p .passed (r >>= fun a => Pure.pure (b a)) (r' >>= fun a => Pure.pure (b' a)) :=
  bind_of first fun _ => inferInstance

instance map {r r' : Rule Nat α} {g g' : α → β} [first : Follows P p q r r']
    [each : ∀ a, Shown P.comment (g (commented P.comment a)) (g' a)] :
    Follows P p q (g <$> r) (g' <$> r') :=
  bind_of first fun a => (inferInstance : Follows P q q (Pure.pure (g (commented P.comment a)))
    (Pure.pure (g' a)))

theorem from_within {m : Closeness} {r r' : Rule Nat α} (h : Follows P m q r r') [within : p.Within m] :
    Follows P p q r r' where
  gives stands := h.gives stands.within
  fails faithful _ _ _ _ stands := h.fails faithful stands.within

theorem to_within {m : Closeness} {r r' : Rule Nat α} (h : Follows P p m r r') [within : m.Within q] :
    Follows P p q r r' where
  gives stands read := by
    obtain ⟨a', t', read', eq, after, le⟩ := h.gives stands read
    exact ⟨a', t', read', eq, after.within, le⟩
  fails := h.fails

instance (priority := low) from_inside {r r' : Rule Nat α} [h : Follows P .met q r r'] :
    Follows P .inside q r r' := h.from_within

instance (priority := low) from_abreast {r r' : Rule Nat α} [h : Follows P .met q r r'] :
    Follows P .abreast q r r' := h.from_within

instance ite {c : Prop} [Decidable c] {r₁ r₂ r₁' r₂' : Rule Nat α} [h : Follows P p q r₁ r₁']
    [g : Follows P p q r₂ r₂'] : Follows P p q (if c then r₁ else r₂) (if c then r₁' else r₂') := by
  split
  · exact h
  · exact g

theorem ite_of {c c' : Prop} [Decidable c] [Decidable c'] {r₁ r₂ r₁' r₂' : Rule Nat α} (iff : c ↔ c')
    (h : Follows P p q r₁ r₁') (g : Follows P p q r₂ r₂') :
    Follows P p q (if c then r₁ else r₂) (if c' then r₁' else r₂') := by
  by_cases is : c
  · rwa [if_pos is, if_pos (iff.mp is)]
  · rwa [if_neg is, if_neg (mt iff.mpr is)]

/-- Where a test says yes the rule goes on from the same token. -/
instance (priority := high) test {c c' : Rule Nat Bool} {r₁ r₂ r₁' r₂' : Rule Nat α} [h : Tests P p c c']
    [yes : Follows P .inside q r₁ r₁'] [no : Follows P p q r₂ r₂'] :
    Follows P p q (c >>= fun b => if b = true then r₁ else r₂)
      (c' >>= fun b => if b = true then r₁' else r₂') where
  gives := by
    intro s s' a t stands read
    obtain ⟨b, found, found', inside⟩ := h.gives stands
    rw [Gives, found.bind_eq] at read
    cases b with
    | true =>
      obtain ⟨a', t', read', rest⟩ := yes.gives (inside rfl) read
      exact ⟨a', t', found'.bind read', rest⟩
    | false =>
      obtain ⟨a', t', read', rest⟩ := no.gives stands read
      exact ⟨a', t', found'.bind read', rest⟩
  fails := by
    intro faithful s s' e t stands read
    obtain ⟨b, found, found', inside⟩ := h.gives stands
    rw [found.bind_eq] at read
    cases b with
    | true =>
      obtain ⟨e', t', read', rest⟩ := yes.fails faithful (inside rfl) read
      exact ⟨e', t', (found'.bind_eq _).trans read', rest⟩
    | false =>
      obtain ⟨e', t', read', rest⟩ := no.fails faithful stands read
      exact ⟨e', t', (found'.bind_eq _).trans read', rest⟩

/-- A rule that fails at the end of a text follows from there on. -/
theorem of_abreast {r r' : Rule Nat α} (h : Follows P .abreast q r r') [laws : P.Lawful]
    (stops : ∀ {o s a t}, s.stream.current.kind = .endOfFileToken → ¬ r.Gives o s a t) :
    Follows P .met q r r' where
  gives := by
    intro s s' a t stands read
    rcases stands.meet with abreast | ends
    · exact h.gives ⟨stands.depth, abreast⟩ read
    · exact absurd read (stops (laws.ends ends).1)
  fails faithful _ _ _ _ stands := h.fails faithful (stands.abreast_of_faithful faithful)

section

variable [laws : P.Lawful] {k : Kind}

/-- A rule that goes on by the current token. -/
theorem current {f f' : Lexeme → Rule Nat α} [within : p.Within .abreast]
    (like : ∀ t t', P.Like t t' → Follows P p q (f t) (f' t')) :
    Follows P p q (current >>= f) (current >>= f') where
  gives stands h := (like _ _ (laws.like (within.meet stands.meet))).gives stands h
  fails faithful _ _ _ _ stands h :=
    (like _ _ (laws.like (within.meet stands.meet))).fails faithful stands h

/-- A rule that goes on by the current token, which is a token of the text or at the left end. -/
theorem current_cases {f g : Lexeme → Rule Nat α}
    (inside : ∀ t t', P.Like t t' → t.kind ≠ .endOfFileToken → Follows P .inside q (f t) (g t'))
    (last : ∀ t t', t.kind = .endOfFileToken →
      t'.kind = .endOfFileToken ∨ t'.kind = .semicolonToken → Follows P .met q (f t) (g t')) :
    Follows P .met q (Rule.current >>= f) (Rule.current >>= g) := by
  have here {s s' : State Nat} (stands : P.Stands .met s s') :
      (P.Stands .inside s s' ∧ Follows P .inside q (f s.stream.current) (g s'.stream.current)) ∨
        Follows P .met q (f s.stream.current) (g s'.stream.current) := by
    by_cases more : s.stream.current.kind = .endOfFileToken
    · refine .inr (last _ _ more ?_)
      rcases stands.meet with abreast | ends
      · exact .inl ((laws.like abreast).kind.symm.trans more)
      · exact .inr (laws.ends ends).2.2
    · have stands' := stands.inside more
      exact .inl ⟨stands', inside _ _ (laws.like stands'.meet.1) more⟩
  refine ⟨fun stands h => ?_, fun faithful _ _ _ _ stands h => ?_⟩
  · rcases here stands with ⟨stands', follows⟩ | follows
    · exact follows.gives stands' h
    · exact follows.gives stands h
  · rcases here stands with ⟨stands', follows⟩ | follows
    · exact follows.fails faithful stands' h
    · exact follows.fails faithful stands h

/-- A rule that goes on from the current token if that is of a kind for which one may ask at the end
of a text. -/
theorem current_if {c : Kind → Bool} {f g : Lexeme → Rule Nat α} {r r' : Rule Nat α}
    (ends : c .endOfFileToken = false) (semicolon : c .semicolonToken = false)
    (yes : ∀ t t', P.Like t t' → Follows P .inside q (f t) (g t')) (no : Follows P .met q r r') :
    Follows P .met q (Rule.current >>= fun t => if c t.kind = true then f t else r)
      (Rule.current >>= fun t => if c t.kind = true then g t else r') := by
  refine current_cases (fun t t' like _ => ?_) fun t t' last last' => ?_
  · have := yes t t' like
    rw [like.kind]
    infer_instance
  · have outside : c t'.kind = false := by rcases last' with is | is <;> rwa [is]
    rwa [if_neg (by rw [last, ends]; decide), if_neg (by rw [outside]; decide)]

/-- A rule that needs the current token only for its place. -/
theorem current_start {f f' : Lexeme → Rule Nat α}
    (near : ∀ t t', (P.faithful → P.Near t.start t'.start) → Follows P .met q (f t) (f' t')) :
    Follows P .met q (Rule.current >>= f) (Rule.current >>= f') := by
  have here {s s' : State Nat} (stands : P.Stands .met s s') :
      Follows P .met q (f s.stream.current) (f' s'.stream.current) :=
    near _ _ fun faithful => (laws.like (stands.abreast_of_faithful faithful).meet).near faithful
  exact ⟨fun stands h => (here stands).gives stands h,
    fun faithful _ _ _ _ stands h => (here stands).fails faithful stands h⟩

instance advance : Follows P .inside .met advance advance where
  gives := by
    rintro s s' a t stands ⟨⟩
    exact ⟨(), s'.next, rfl, rfl, stands.next, Nat.le_of_lt stands.ahead_lt⟩
  fails := by
    rintro - s s' e t - h
    cases h

omit laws in
theorem fail {f f' : Failure} (alike : P.faithful → P.Alike f f') :
    Follows P p q (fail f : Rule Nat α) (fail f') where
  gives := by
    rintro s s' a t - h
    cases h
  fails := by
    rintro faithful s s' e t stands ⟨⟩
    exact ⟨f', s', rfl, alike faithful, stands.depth⟩

omit laws in
theorem alike_failure {t t' : Lexeme} (like : P.Like t t') (faithful : P.faithful) (m : Message)
    (arguments : List String) : P.Alike (t.failure m arguments) (t'.failure m arguments) := by
  have near := like.near faithful
  unfold Lexeme.failure
  rw [like.error]
  split
  · exact ⟨near, rfl, rfl⟩
  · exact ⟨near, rfl, rfl⟩

instance failHere (m : Message) (arguments : List String) :
    Follows P .met q (failHere m arguments : Rule Nat α) (failHere m arguments) where
  gives := by
    rintro s s' a t - h
    cases h
  fails := by
    rintro faithful s s' e t stands ⟨⟩
    have like := laws.like (stands.abreast_of_faithful faithful).meet
    exact ⟨_, s', rfl, alike_failure like faithful m arguments, stands.depth⟩

/-- A rule without a budget fails. -/
theorem spent {m : Message} {r : Rule Nat α} (eq : P.faithful → r = Rule.failHere m []) :
    Follows P .met q (Rule.failHere m []) r where
  gives _ h := by cases h
  fails faithful := by
    rw [eq faithful]
    exact (failHere (P := P) (q := q) m []).fails faithful

instance documentationHere : Follows P .abreast .abreast documentationHere documentationHere where
  gives := by
    rintro s s' a t stands ⟨⟩
    exact ⟨_, s', rfl, (laws.like stands.meet).documentation, stands, Nat.le_refl _⟩
  fails := by
    rintro - s s' e t - h
    cases h

end

end Follows

/-- Whether tokens of kind `k` are neither the end of a text nor a semicolon. -/
@[reducible] def Kind.isInner : Kind → Bool
  | .endOfFileToken | .semicolonToken => false
  | _ => true

theorem Kind.ne_of_isInner {k : Kind} (h : k.isInner = true) :
    k ≠ .endOfFileToken ∧ k ≠ .semicolonToken := by
  constructor <;> rintro rfl <;> cases h

namespace Tests

open Rule

variable {P : Pairing} {p : Closeness} {c c' : Rule Nat Bool}

instance follows [h : Tests P p c c'] : Follows P p p c c' where
  gives := by
    intro s s' a t stands read
    obtain ⟨b, found, found', -⟩ := h.gives stands
    obtain ⟨rfl, rfl⟩ : b = a ∧ s = t := by simpa [Gives] using found.symm.trans read
    exact ⟨b, s', found', rfl, stands, Nat.le_refl _⟩
  fails := by
    intro faithful s s' e t stands read
    obtain ⟨b, found, -, -⟩ := h.gives stands
    cases found.symm.trans read

variable [laws : P.Lawful] {k : Kind}

/-- A rule that says something about the tokens that come next, but nothing at the end of a text or
in front of a semicolon. -/
theorem of_value {value : Stream → Bool} (gives : ∀ o (s : State Nat), c.Gives o s (value s.stream) s)
    (outside : ∀ s : Stream, s.current.kind = .endOfFileToken ∨ s.current.kind = .semicolonToken →
      value s = false)
    (same : ∀ {s s' : State Nat}, P.Stands .inside s s' → value s.stream = value s'.stream) :
    Tests P .met c c := by
  refine ⟨fun {s s'} stands => ⟨value s.stream, gives _ s, ?_, fun is => ?_⟩⟩
  · by_cases last : s.stream.current.kind = .endOfFileToken
    · have last' : s'.stream.current.kind = .endOfFileToken ∨
          s'.stream.current.kind = .semicolonToken := by
        rcases stands.meet with abreast | ends
        · exact .inl ((laws.like abreast).kind.symm.trans last)
        · exact .inr (laws.ends ends).2.2
      rw [outside _ (.inl last), ← outside _ last']
      exact gives _ s'
    · rw [same (stands.inside last)]
      exact gives _ s'
  · refine stands.inside fun last => ?_
    rw [outside _ (.inl last)] at is
    cases is

instance atKind [inner : Holds k.isInner] : Tests P .met (atKind k) (atKind k) := by
  obtain ⟨more, other⟩ := Kind.ne_of_isInner inner.eq
  refine ⟨fun {s s'} stands => ⟨decide (s.stream.current.kind = k), .atKind, ?_, ?_⟩⟩
  · rw [decide_eq_decide.mpr (stands.kind_iff more other)]
    exact .atKind
  · intro is
    exact stands.inside (by rw [of_decide_eq_true is]; exact more)

theorem atKindOnLine (bound : k ∈ Pairing.lineBound) :
    Tests P .met (atKindOnLine k) (atKindOnLine k) := by
  obtain ⟨more, other⟩ := Kind.ne_of_isInner (k := k) (by revert k; decide)
  refine ⟨fun {s s'} stands => ?_⟩
  by_cases is : s.stream.current.kind = k
  · have inside := stands.inside (is ▸ more)
    have like := laws.like inside.meet.1
    have line : s.stream.current.onNewLine = s'.stream.current.onNewLine := by
      rcases like.onNewLine with eq | ⟨-, -, starts⟩
      · exact eq
      · exact absurd bound (is ▸ starts)
    refine ⟨decide (s.stream.current.kind = k) && !s.stream.current.onNewLine, rfl, ?_, ?_⟩
    · rw [like.kind, line]
      rfl
    · exact fun _ => inside
  · have is' := mt (stands.kind_iff more other).mpr is
    exact ⟨false, .atKindOnLine_not is, .atKindOnLine_not is', by simp⟩

end Tests

namespace Follows

open Rule

variable {P : Pairing} [laws : P.Lawful] {p q : Closeness} {α β : Type} [Commented α] [Commented β]
  {k : Kind} {r r' : Rule Nat α}

instance accept [inner : Holds k.isInner] : Follows P .met .met (accept k) (accept k) := by
  unfold Rule.accept
  infer_instance

instance token? [inner : Holds k.isInner] : Follows P .met .met (token? k) (token? k) := by
  unfold Rule.token?
  infer_instance

instance expect [inner : Holds k.isInner] : Follows P .met .met (expect k) (expect k) := by
  unfold Rule.expect
  infer_instance

instance optionalAfter [inner : Holds k.isInner] [h : Follows P .met .met r r'] :
    Follows P .met .met (optionalAfter k r) (optionalAfter k r') := by
  unfold Rule.optionalAfter
  infer_instance

instance semicolon : Follows P .met .passed semicolon semicolon where
  gives := by
    intro s s' a t stands read
    have right := semicolon_apply P.right s'
    rw [Gives, semicolon_apply] at read
    rcases stands.meet with abreast | ends
    · have like := laws.like abreast
      rw [← like.kind] at right
      split_ifs at read with is line
      · cases read
        have inside := stands.inside (by rw [is]; decide)
        rw [if_pos is] at right
        exact ⟨(), s'.next, right, rfl, inside.next.within, Nat.le_of_lt inside.ahead_lt⟩
      · cases read
        have line' : s.stream.current.kind = .closeBraceToken ∨
            s.stream.current.kind = .endOfFileToken ∨ s'.stream.current.onNewLine = true := by
          rcases like.onNewLine with eq | ⟨-, new, -⟩
          · exact eq ▸ line
          · exact .inr (.inr new)
        rw [if_neg is, if_pos line'] at right
        exact ⟨(), s', right, rfl, stands.within, Nat.le_refl _⟩
      · cases read
    · obtain ⟨last, -, semicolon⟩ := laws.ends ends
      rw [if_neg (by rw [last]; decide), if_pos (.inr (.inl last))] at read
      cases read
      rw [if_pos semicolon] at right
      exact ⟨(), s'.next, right, rfl, ⟨stands.depth, .inr (.inr ⟨_, ends, rfl⟩)⟩, Nat.le_refl _⟩
  fails := by
    intro faithful s s' e t stands read
    have like := laws.like (stands.abreast_of_faithful faithful).meet
    have line : s.stream.current.onNewLine = s'.stream.current.onNewLine :=
      like.onNewLine.resolve_right fun h => h.1 faithful
    rw [semicolon_apply] at read ⊢
    rw [← like.kind, ← line]
    split_ifs at read ⊢
    all_goals cases read
    exact ⟨_, _, rfl, alike_failure like faithful _ _, stands.depth⟩

instance lookAhead [h : Follows P p .met r r'] : Follows P p p (lookAhead r) (lookAhead r') where
  gives := by
    rintro s s' a t stands read
    simp only [Gives, Rule.lookAhead, Prod.mk.injEq] at read
    obtain ⟨value, rfl⟩ := read
    obtain ⟨a', t', read', eq, after, -⟩ := h.gives stands (Prod.ext value rfl)
    exact ⟨a', _, read'.lookAhead, eq, ⟨after.depth, stands.meet⟩, Nat.le_refl _⟩
  fails := by
    intro faithful s s' e t stands read
    simp only [Rule.lookAhead, Prod.mk.injEq] at read
    obtain ⟨value, rfl⟩ := read
    obtain ⟨e', t', read', alike, depth⟩ := h.fails faithful stands (Prod.ext value rfl)
    exact ⟨e', ⟨s'.stream, t'.depth⟩, by rw [Rule.lookAhead, read'], alike, depth⟩

omit laws in
/-- Levels that are set behind two rules alike are as many as on the other side. -/
theorem settingLevels (f : Nat → Nat → Nat) [h : Follows P p q r r'] :
    Follows P p q (settingLevels f r) (settingLevels f r') where
  gives := by
    rintro s s' a t stands read
    simp only [Gives, Rule.settingLevels, Prod.mk.injEq] at read
    obtain ⟨value, rfl⟩ := read
    obtain ⟨a', t', read', eq, after, le⟩ := h.gives stands (Prod.ext value rfl)
    refine ⟨a', ⟨t'.stream, f s'.depth t'.depth⟩, ?_, eq, ⟨?_, after.meet⟩, le⟩
    · rw [Gives, Rule.settingLevels, read']
    · rw [← stands.depth, ← after.depth]
  fails := by
    intro faithful s s' e t stands read
    simp only [Rule.settingLevels, Prod.mk.injEq] at read
    obtain ⟨value, rfl⟩ := read
    obtain ⟨e', t', read', alike, depth⟩ := h.fails faithful stands (Prod.ext value rfl)
    refine ⟨e', ⟨t'.stream, f s'.depth t'.depth⟩, ?_, alike, ?_⟩
    · rw [Rule.settingLevels, read']
    · rw [← stands.depth, ← depth]

omit laws in
instance closingLevels [Follows P p q r r'] : Follows P p q (closingLevels r) (closingLevels r') :=
  settingLevels fun before _ => before

omit laws in
instance leavingLevel [Follows P p q r r'] : Follows P p q (leavingLevel r) (leavingLevel r') :=
  settingLevels fun _ now => now - 1

theorem enterLevel_of (within : p.Within .met) : Follows P p p enterLevel enterLevel where
  gives := by
    rintro ⟨s, d⟩ ⟨s', d'⟩ a t stands read
    obtain rfl : d = d' := stands.depth
    rcases Nat.lt_or_ge d P.left.depthLimit with free | full
    · rw [Gives, enterLevel_of_lt free] at read
      cases read
      exact ⟨(), _, .enterLevel (Nat.lt_of_lt_of_le free laws.depth_le), rfl, ⟨rfl, stands.meet⟩,
        Nat.le_refl _⟩
    · rw [Gives, enterLevel_of_le full] at read
      cases read
  fails := by
    rintro faithful ⟨s, d⟩ ⟨s', d'⟩ e t stands read
    obtain rfl : d = d' := stands.depth
    rcases Nat.lt_or_ge d P.left.depthLimit with free | full
    · rw [enterLevel_of_lt free] at read
      cases read
    · rw [enterLevel_of_le full] at read
      cases read
      have like := laws.like (stands.within.abreast_of_faithful faithful).meet
      have full' : P.right.depthLimit ≤ d := laws.depth_eq faithful ▸ full
      exact ⟨_, _, enterLevel_of_le full', alike_failure like faithful _ _, rfl⟩

/-- A rule that opens a level stays where it is. -/
instance (priority := high) enterLevel_bind {r r' : Rule Nat α} [within : p.Within .met]
    [h : Follows P p q r r'] :
    Follows P p q (Rule.enterLevel >>= fun _ => r) (Rule.enterLevel >>= fun _ => r') :=
  bind_of (enterLevel_of within) fun _ => h

instance nested [within : p.Within .met] [h : Follows P p q r r'] :
    Follows P p q (nested r) (nested r') := by
  unfold Rule.nested
  infer_instance

/-- A rule that needs a budget has at least as much of it on the right. -/
theorem bounded {f f' : Budget → Rule Nat α} (h : ∀ l l' : Budget, l.length ≤ l'.length →
    (P.faithful → l.length = l'.length) → Follows P .met q (f l) (f' l')) :
    Follows P .met q (bounded f) (bounded f') where
  gives stands read := by
    refine (h _ _ ?_ fun faithful => ?_).gives stands read
    · exact Nat.succ_le_succ stands.length_le
    · exact congrArg Nat.succ (stands.length_eq faithful)
  fails faithful _ _ _ _ stands read := by
    refine (h _ _ ?_ fun faithful => ?_).fails faithful stands read
    · exact Nat.succ_le_succ stands.length_le
    · exact congrArg Nat.succ (stands.length_eq faithful)

end Follows

end Ambient
