import Ambient.Proofs.Grammar.Collects
import Ambient.Proofs.Pairing.Rule

namespace Ambient

/-- The left text has come to its end, but the right one has not. -/
def Pairing.Over (P : Pairing) (s : State Nat) : Prop := ∃ v, P.Ends s.stream v

/-- What the steps of two loops have to do with each other. The left loop may get lost: then it can
only come to the end of its text or fail. -/
structure Loop (P : Pairing) (Lost : State Nat → Prop) {β : Type} [Commented β]
    (step step' : β → Rule Nat (Option β)) : Prop where
  gives : ∀ {b s s' x t}, P.Stands .met s s' → (step (commented P.comment b)).Gives P.left s x t →
    Lost t ∧ (x = none → P.Over t) ∨ ∃ x' t', (step' b).Gives P.right s' x' t' ∧
      x = commented P.comment x' ∧ P.Stands .met t t' ∧
        t.stream.ahead.length ≤ s.stream.ahead.length
  eats : ∀ {b s s' x t}, P.Stands .met s s' →
    (step (commented P.comment b)).Gives P.left s (some x) t →
      t.stream.ahead.length < s.stream.ahead.length
  lost : ∀ {b s x t}, Lost s → (step b).Gives P.left s x t → x = none ∧ P.Over t
  fails : P.faithful → ∀ {b s s' e t}, P.Stands .met s s' →
    step (commented P.comment b) P.left s = (.error e, t) →
      ∃ e' t', step' b P.right s' = (.error e', t') ∧ P.Alike e e' ∧ t.depth = t'.depth
  found : P.faithful → ∀ s, ¬ Lost s

namespace Loop

open Rule

variable {P : Pairing} {Lost : State Nat → Prop} {β : Type} [Commented β]
  {step step' : β → Rule Nat (Option β)}

theorem gives_within (loop : Loop P Lost step step') (l l' : Budget) {b a : β} {s s' t : State Nat}
    (stands : P.Stands .met s s') (enough : s.stream.ahead.length < l.length)
    (le : l.length ≤ l'.length)
    (h : iterateWithin step l (commented P.comment b) P.left s = (.ok a, t)) :
    ((∃ u, Lost u) ∧ P.Over t) ∨ ∃ a' t', iterateWithin step' l' b P.right s' = (.ok a', t') ∧
      a = commented P.comment a' ∧ P.Stands .met t t' ∧
        t.stream.ahead.length ≤ s.stream.ahead.length := by
  induction l generalizing l' b s s' with
  | nil => exact absurd enough (Nat.not_lt_zero _)
  | cons _ l ih =>
    obtain _ | ⟨_, l'⟩ := l'
    · exact absurd le (Nat.not_succ_le_zero _)
    have less : l.length ≤ l'.length := Nat.le_of_succ_le_succ le
    simp only [iterateWithin] at h
    split at h
    · rename_i x u read
      have near := loop.eats stands read
      rw [List.length_cons] at enough
      rcases loop.gives stands read with ⟨lost, -⟩ | ⟨x', u', read', eq, stands', -⟩
      · -- where the loop is lost, its next step is its last
        obtain _ | ⟨_, l⟩ := l
        · simp only [List.length_nil] at enough
          omega
        simp only [iterateWithin] at h
        split at h
        · exact absurd (loop.lost lost ‹_›).1 (by simp)
        · cases h
          exact .inl ⟨⟨_, lost⟩, (loop.lost lost ‹_›).2⟩
        · cases h
      · cases x' with
        | none => cases eq
        | some x' =>
          obtain rfl := Option.some.inj eq
          rcases ih l' stands' (by omega) less h with ended | ⟨a', t', rest, eq, stands'', le'⟩
          · exact .inl ended
          · refine .inr ⟨a', t', ?_, eq, stands'', by omega⟩
            rw [iterateWithin, show step' b P.right s' = _ from read']
            exact rest
    · rename_i u read
      cases h
      rcases loop.gives stands read with ⟨lost, ended⟩ | ⟨x', u', read', eq, stands', le'⟩
      · exact .inl ⟨⟨_, lost⟩, ended rfl⟩
      · cases x' with
        | none =>
          refine .inr ⟨b, u', ?_, rfl, stands', le'⟩
          rw [iterateWithin, show step' b P.right s' = _ from read']
        | some x' => cases eq
    · cases h

theorem fails_within (loop : Loop P Lost step step') (faithful : P.faithful) (l l' : Budget)
    {b : β} {s s' t : State Nat} {e : Failure} (stands : P.Stands .met s s') (eq : l.length = l'.length)
    (h : iterateWithin step l (commented P.comment b) P.left s = (.error e, t)) :
    ∃ e' t', iterateWithin step' l' b P.right s' = (.error e', t') ∧ P.Alike e e' ∧
      t.depth = t'.depth := by
  induction l generalizing l' b s s' with
  | nil => cases h
  | cons _ l ih =>
    obtain _ | ⟨_, l'⟩ := l'
    · cases eq
    have less : l.length = l'.length := Nat.succ.inj eq
    simp only [iterateWithin] at h
    split at h
    · rename_i x u read
      rcases loop.gives stands read with ⟨lost, -⟩ | ⟨x', u', read', eq, stands', -⟩
      · exact absurd lost (loop.found faithful _)
      · cases x' with
        | none => cases eq
        | some x' =>
          obtain rfl := Option.some.inj eq
          obtain ⟨e', t', rest⟩ := ih l' stands' less h
          refine ⟨e', t', ?_, rest.2⟩
          rw [iterateWithin, show step' b P.right s' = _ from read']
          exact rest.1
    · cases h
    · rename_i e₀ u read
      cases h
      obtain ⟨e', t', read', rest⟩ := loop.fails faithful stands read
      exact ⟨e', t', by rw [iterateWithin, read'], rest⟩

variable [laws : P.Lawful]

/-- Two loops run side by side until the left one is over. -/
theorem iterate_gives (loop : Loop P Lost step step') {b a : β} {s s' t : State Nat}
    (stands : P.Stands .met s s') (h : (iterate step (commented P.comment b)).Gives P.left s a t) :
    ((∃ u, Lost u) ∧ P.Over t) ∨ ∃ a' t', (iterate step' b).Gives P.right s' a' t' ∧
      a = commented P.comment a' ∧ P.Stands .met t t' ∧
      t.stream.ahead.length ≤ s.stream.ahead.length :=
  loop.gives_within s.stream.toList s'.stream.toList stands (Nat.lt_succ_self _)
    (Nat.succ_le_succ stands.length_le) h

theorem iterate_fails (loop : Loop P Lost step step') (faithful : P.faithful) {b : β}
    {s s' t : State Nat} {e : Failure} (stands : P.Stands .met s s')
    (h : iterate step (commented P.comment b) P.left s = (.error e, t)) :
    ∃ e' t', iterate step' b P.right s' = (.error e', t') ∧ P.Alike e e' ∧ t.depth = t'.depth :=
  loop.fails_within faithful s.stream.toList s'.stream.toList stands
    (congrArg Nat.succ (stands.length_eq faithful)) h

end Loop

namespace Follows

open Rule

variable {P : Pairing} [laws : P.Lawful] {p q : Closeness} {α β : Type} [Commented α] [Commented β]

omit laws in
/-- A loop that cannot get lost. -/
theorem loop {step step' : β → Rule Nat (Option β)}
    (each : ∀ b, Follows P .met .met (step (commented P.comment b)) (step' b))
    (eats : ∀ b, Eats P .met (step (commented P.comment b)) (step' b)) :
    Loop P (fun _ => False) step step' where
  gives stands h := .inr ((each _).gives stands h)
  eats stands h := (eats _).fewer stands h
  lost h := h.elim
  fails faithful _ _ _ _ _ stands h := (each _).fails faithful stands h
  found _ _ := id

instance iterate {step step' : β → Rule Nat (Option β)} {b b' : β} [shown : Shown P.comment b b']
    [each : ∀ b, Follows P .met .met (step (commented P.comment b)) (step' b)]
    [eats : ∀ b, Eats P .met (step (commented P.comment b)) (step' b)] :
    Follows P .met .met (iterate step b) (iterate step' b') where
  gives stands h := by
    rw [shown.eq] at h
    exact ((loop each eats).iterate_gives stands h).resolve_left fun lost => lost.1.elim fun _ => id
  fails faithful _ _ _ _ stands h := by
    rw [shown.eq] at h
    exact (loop each eats).iterate_fails faithful stands h

omit laws [Commented α] in
theorem collect_gives {item : Rule Nat (Option α)} {read : List α} {x : Option (List α)} {o : Options}
    {s t : State Nat} (h : (collect item read).Gives o s x t) :
    ∃ y, item.Gives o s y t ∧ x = y.map (· :: read) := by
  obtain ⟨y, u, h, ⟨⟩⟩ := h.of_bind
  exact ⟨y, h, rfl⟩

instance shown_map (x : Option α) (read : List α) :
    Shown P.comment (Option.map (· :: commented P.comment read) (commented P.comment x))
      (Option.map (· :: read) x) := by
  cases x <;> exact ⟨rfl⟩

instance shown_reverse (l : List α) :
    Shown P.comment (List.reverse (commented P.comment l)) (List.reverse l) :=
  ⟨(List.map_reverse).symm⟩

instance many {item item' : Rule Nat (Option α)} [h : Follows P .met .met item item']
    [eats : Eats P .met item item'] : Follows P .met .met (many item) (many item') := by
  have each : ∀ read, Eats P .met (collect item (commented P.comment read)) (collect item' read) := by
    refine fun read => ⟨fun {s s' a t} stands h => ?_⟩
    obtain ⟨y, h, eq⟩ := collect_gives h
    cases y with
    | none => cases eq
    | some y => exact eats.fewer stands h
  unfold Rule.many
  infer_instance

end Follows

namespace Eats

open Rule Follows

variable {P : Pairing} [laws : P.Lawful] {p q : Closeness} {α β : Type} [Commented α] [Commented β]
  {k : Kind}

/-- What stands behind a token is found only with the token. -/
instance accept [inner : Holds k.isInner] {r r' : Rule Nat (Option α)} [h : Follows P .met .met r r'] :
    Eats P .met (Rule.accept k >>= fun b => if b = true then r else Pure.pure none)
      (Rule.accept k >>= fun b => if b = true then r' else Pure.pure none) where
  fewer {s s' a t} stands read := by
    obtain ⟨more, other⟩ := Kind.ne_of_isInner inner.eq
    by_cases is : s.stream.current.kind = k
    · have inside := stands.inside (is ▸ more)
      rw [Gives, (Gives.accept is).bind_eq] at read
      obtain ⟨_, _, -, -, -, le⟩ := h.gives inside.next read
      have lt := inside.ahead_lt
      omega
    · rw [Gives, (Gives.accept_not is).bind_eq] at read
      cases read

instance optionalAfter [inner : Holds k.isInner] {r r' : Rule Nat α} [h : Follows P .met .met r r'] :
    Eats P .met (Rule.optionalAfter k r) (Rule.optionalAfter k r') := by
  unfold Rule.optionalAfter
  infer_instance

/-- What a test finds is found only with a token if the rest reads one. -/
instance test {c c' : Rule Nat Bool} {r r' : Rule Nat (Option α)} [h : Tests P p c c']
    [eats : Consumes P .inside r r'] :
    Eats P p (c >>= fun b => if b = true then r else Pure.pure none)
      (c' >>= fun b => if b = true then r' else Pure.pure none) where
  fewer stands read := by
    obtain ⟨b, found, -, inside⟩ := h.gives stands
    rw [Gives, found.bind_eq] at read
    cases b with
    | true => exact eats.fewer (inside rfl) read
    | false => cases read

/-- Where a test does not say that there is nothing, something is found only with a token. -/
instance negative {c c' : Rule Nat Bool} {r r' : Rule Nat (Option α)} [h : Tests P p c c']
    [eats : Eats P p r r'] :
    Eats P p (c >>= fun b => if b = true then Pure.pure none else r)
      (c' >>= fun b => if b = true then Pure.pure none else r') where
  fewer stands read := by
    obtain ⟨b, found, -, -⟩ := h.gives stands
    rw [Gives, found.bind_eq] at read
    cases b with
    | true => cases read
    | false => exact eats.fewer stands read

omit laws [Commented α] in
instance of_consumes {r r' : Rule Nat (Option α)} [h : Consumes P p r r'] : Eats P p r r' :=
  ⟨h.fewer⟩

end Eats

namespace Consumes

open Rule

variable {P : Pairing} [laws : P.Lawful] {p q : Closeness} {α β : Type} [Commented α] [Commented β]

instance advance {f f' : Unit → Rule Nat β} [h : ∀ x, Follows P .met .met (f x) (f' x)] :
    Consumes P .inside (Rule.advance >>= f) (Rule.advance >>= f') where
  fewer {s s' a t} stands read := by
    obtain ⟨_, _, ⟨⟩, read⟩ := read.of_bind
    obtain ⟨_, _, -, -, -, le⟩ := (h ()).gives stands.next read
    have lt := stands.ahead_lt
    omega

instance expect {k : Kind} [inner : Holds k.isInner] {f f' : Unit → Rule Nat β}
    [h : ∀ x, Follows P .met .met (f x) (f' x)] :
    Consumes P .met (Rule.expect k >>= f) (Rule.expect k >>= f') where
  fewer {s s' a t} stands read := by
    obtain ⟨x, u, first, read⟩ := read.of_bind
    by_cases is : s.stream.current.kind = k
    · have inside := stands.inside (is ▸ (Kind.ne_of_isInner inner.eq).1)
      obtain rfl : s.next = u := congrArg Prod.snd ((Gives.expect is).symm.trans first)
      obtain ⟨_, _, -, -, -, le⟩ := (h x).gives inside.next read
      have lt := inside.ahead_lt
      omega
    · obtain ⟨e, t, refused⟩ := Refuses.expect (o := P.left) is
      cases refused.symm.trans first

omit laws [Commented β] in
instance enterLevel {r r' : Rule Nat β} [h : Consumes P .inside r r'] :
    Consumes P .inside (Rule.enterLevel >>= fun _ => r) (Rule.enterLevel >>= fun _ => r') where
  fewer {s s' a t} stands read := by
    obtain ⟨_, ⟨u, d⟩, level, read⟩ := read.of_bind
    obtain rfl : s.stream = u := by
      simp only [Gives, Rule.enterLevel] at level
      split_ifs at level with full
      · cases level
      · injection level with _ state
        injection state
    have deeper : P.Stands .inside ⟨s.stream, d⟩ ⟨s'.stream, d⟩ := ⟨rfl, stands.meet⟩
    have lt := h.fewer deeper read
    exact lt

omit laws [Commented β] in
theorem current {f f' : Lexeme → Rule Nat β} (h : ∀ t, Consumes P p (f t) (f' t)) :
    Consumes P p (Rule.current >>= f) (Rule.current >>= f') where
  fewer stands read := (h _).fewer stands read

omit laws [Commented β] in
instance ite {c : Prop} [Decidable c] {r₁ r₂ r₁' r₂' : Rule Nat β} [h : Consumes P p r₁ r₁']
    [g : Consumes P p r₂ r₂'] :
    Consumes P p (if c then r₁ else r₂) (if c then r₁' else r₂') := by
  split
  · exact h
  · exact g

end Consumes

namespace Follows

open Rule

variable {P : Pairing} [laws : P.Lawful] {p q : Closeness} {α β : Type} [Commented α] [Commented β]
  {close : Kind}

set_option synthInstance.maxSize 1000 in
instance delimited [inner : Holds close.isInner] {trailing : Bool} {element element' : Rule Nat α}
    [h : Follows P .met .met element element'] :
    Follows P .met .met (delimited close trailing element) (delimited close trailing element') := by
  unfold Rule.delimited
  infer_instance

end Follows

/-- What the items of two blocks have to do with each other. The left block may get lost, at the end
of its text at the latest. -/
structure BlockItem (P : Pairing) (Lost : State Nat → Prop) {α : Type} [Commented α]
    (item item' : Rule Nat (Option α)) : Prop where
  ended : ∀ {s}, P.Over s → Lost s
  gives : ∀ {s s' x t}, P.Stands .met s s' → item.Gives P.left s x t →
    Lost t ∧ (x = none → P.Over t) ∨ ∃ x' t', item'.Gives P.right s' x' t' ∧
      x = commented P.comment x' ∧ P.Stands .met t t' ∧
        t.stream.ahead.length ≤ s.stream.ahead.length
  eats : Eats P .met item item'
  lost : ∀ {s x t}, Lost s → item.Gives P.left s x t → x = none ∧ P.Over t
  fails : P.faithful → ∀ {s s' e t}, P.Stands .met s s' → item P.left s = (.error e, t) →
    ∃ e' t', item' P.right s' = (.error e', t') ∧ P.Alike e e' ∧ t.depth = t'.depth
  found : P.faithful → ∀ s, ¬ Lost s

theorem Pairing.not_over {P : Pairing} [laws : P.Lawful] (faithful : P.faithful) (s : State Nat) :
    ¬ P.Over s := fun ⟨_, ends⟩ => laws.not_faithful ends faithful

theorem Pairing.Over.kind {P : Pairing} [laws : P.Lawful] {s : State Nat} (h : P.Over s) :
    s.stream.current.kind = .endOfFileToken := by
  obtain ⟨v, ends⟩ := h
  exact (laws.ends ends).1

theorem Pairing.Stands.of_passed {P : Pairing} {s s' : State Nat} (h : P.Stands .passed s s') :
    P.Over s ∨ P.Stands .abreast s s' := by
  rcases h.meet with abreast | ended | ⟨v, ended, -⟩
  · exact .inr ⟨h.depth, abreast⟩
  · exact .inl ⟨_, ended⟩
  · exact .inl ⟨_, ended⟩

namespace BlockItem

open Rule Follows

variable {P : Pairing} {Lost : State Nat → Prop} {α β : Type} [Commented α] [Commented β]
  {item item' : Rule Nat (Option α)}

theorem loop (items : BlockItem P Lost item item') : Loop P Lost (collect item) (collect item') where
  gives {read s s' x t} stands h := by
    obtain ⟨y, found, rfl⟩ := collect_gives h
    rcases items.gives stands found with ⟨lost, ended⟩ | ⟨y', t', h', rfl, stands', le⟩
    · exact .inl ⟨lost, fun none => ended (Option.map_eq_none_iff.mp none)⟩
    · exact .inr ⟨_, t', .bind h' .pure, (shown_map y' read).eq, stands', le⟩
  eats stands h := by
    obtain ⟨y, h, eq⟩ := collect_gives h
    cases y with
    | none => cases eq
    | some y => exact items.eats.fewer stands h
  lost lost h := by
    obtain ⟨y, found, rfl⟩ := collect_gives h
    obtain ⟨rfl, ended⟩ := items.lost lost found
    exact ⟨rfl, ended⟩
  fails faithful read s s' e t stands h := by
    rcases error_of_bind h with h | ⟨_, _, _, ⟨⟩⟩
    obtain ⟨e', t', h', rest⟩ := items.fails faithful stands h
    exact ⟨e', t', bind_error h', rest⟩
  found := items.found

variable [laws : P.Lawful] {s s' t : State Nat}

theorem many_gives (items : BlockItem P Lost item item') {l : List α} (stands : P.Stands .met s s')
    (h : (many item).Gives P.left s l t) :
    P.Over t ∨ ∃ l' t', (many item').Gives P.right s' l' t' ∧ l = commented P.comment l' ∧
      P.Stands .met t t' ∧ t.stream.ahead.length ≤ s.stream.ahead.length := by
  obtain ⟨read, u, h, ⟨⟩⟩ := h.of_bind
  have h : (iterate (collect item) (commented P.comment ([] : List α))).Gives P.left s read t := h
  rcases items.loop.iterate_gives stands h with ⟨-, ended⟩ | ⟨read', t', h', rfl, rest⟩
  · exact .inl ended
  · exact .inr ⟨_, t', .map h', (shown_reverse read').eq, rest⟩

theorem many_fails (items : BlockItem P Lost item item') (faithful : P.faithful) {e : Failure}
    (stands : P.Stands .met s s') (h : many item P.left s = (.error e, t)) :
    ∃ e' t', many item' P.right s' = (.error e', t') ∧ P.Alike e e' ∧ t.depth = t'.depth := by
  rcases error_of_bind h with h | ⟨_, _, _, ⟨⟩⟩
  have h : iterate (collect item) (commented P.comment ([] : List α)) P.left s = (.error e, t) := h
  obtain ⟨e', t', h', rest⟩ := items.loop.iterate_fails faithful stands h
  exact ⟨e', t', map_error h', rest⟩

/-- A block that is closed follows another one, since none is closed at the end of a text. -/
theorem closed (items : BlockItem P Lost item item') {close : Kind} [inner : Holds close.isInner]
    {q : Closeness} {f f' : List α → Rule Nat β}
    [each : ∀ l, Follows P .met q (f (commented P.comment l)) (f' l)] :
    Follows P .met q (many item >>= fun l => Rule.expect close >>= fun _ => f l)
      (many item' >>= fun l => Rule.expect close >>= fun _ => f' l) where
  gives {s s' b t} stands h := by
    obtain ⟨l, u, h, g⟩ := h.of_bind
    rcases items.many_gives stands h with ended | ⟨l', u', h', rfl, stands', le⟩
    · have is_not : u.stream.current.kind ≠ close := by
        rw [ended.kind]
        exact (Kind.ne_of_isInner inner.eq).1.symm
      obtain ⟨e, v, refused⟩ := Refuses.bind (f := fun _ => f l) (Refuses.expect (o := P.left) is_not)
      cases refused.symm.trans g
    · have rest : Follows P .met q (Rule.expect close >>= fun _ => f (commented P.comment l'))
        (Rule.expect close >>= fun _ => f' l') := inferInstance
      obtain ⟨b', t', g', eq, stands'', le'⟩ := rest.gives stands' g
      exact ⟨b', t', h'.bind g', eq, stands'', Nat.le_trans le' le⟩
  fails faithful s s' e t stands h := by
    rcases error_of_bind h with h | ⟨l, u, h, g⟩
    · obtain ⟨e', t', h', rest⟩ := items.many_fails faithful stands h
      exact ⟨e', t', bind_error h', rest⟩
    · rcases items.many_gives stands h with ended | ⟨l', u', h', rfl, stands', le⟩
      · exact absurd ended (Pairing.not_over faithful u)
      · have rest : Follows P .met q (Rule.expect close >>= fun _ => f (commented P.comment l'))
          (Rule.expect close >>= fun _ => f' l') := inferInstance
        obtain ⟨e', t', g', rest⟩ := rest.fails faithful stands' g
        exact ⟨e', t', (h'.bind_eq _).trans g', rest⟩

/-- An item that is left out where a block ends. -/
abbrev itemUnless (ends : Kind → Bool) (r : Rule Nat α) : Rule Nat (Option α) := do
  let t ← Rule.current
  if ends t.kind then return none else some <$> r

omit laws [Commented α] in
theorem itemUnless_end {ends : Kind → Bool} {r : Rule Nat α} {o : Options} {x : Option α}
    (is : ends s.stream.current.kind = true) (h : (itemUnless ends r).Gives o s x t) :
    x = none ∧ s = t := by
  have stops : (itemUnless ends r).Gives o s none s := .bind .current (.ite_pos is .pure)
  cases stops.symm.trans h
  exact ⟨rfl, rfl⟩

omit laws [Commented α] in
theorem itemUnless_more {ends : Kind → Bool} {r : Rule Nat α} {o : Options} {x : Option α}
    (is_not : ends s.stream.current.kind ≠ true) (h : (itemUnless ends r).Gives o s x t) :
    ∃ a, x = some a ∧ r.Gives o s a t := by
  obtain ⟨_, _, ⟨⟩, h⟩ := h.of_bind
  rw [Gives, if_neg is_not] at h
  obtain ⟨a, u, read, ⟨⟩⟩ := Gives.of_bind (f := fun a => Pure.pure (some a)) h
  exact ⟨a, rfl, read⟩

/-- A block follows another one if what it holds does or gets lost. -/
theorem of_itemUnless {ends : Kind → Bool} (last : ends .endOfFileToken = true) {r r' : Rule Nat α}
    (ended : ∀ {s}, P.Over s → Lost s) (found : P.faithful → ∀ s, ¬ Lost s)
    (lost : ∀ {s}, Lost s → P.Over s ∨ ends s.stream.current.kind = false ∧
      ∀ n t, ¬ r.Gives P.left s n t)
    (gives : ∀ {s s' n t}, P.Stands .inside s s' → r.Gives P.left s n t →
      Lost t ∨ ∃ n' t', r'.Gives P.right s' n' t' ∧ n = commented P.comment n' ∧
        P.Stands .met t t' ∧ t.stream.ahead.length ≤ s.stream.ahead.length)
    (eats : Consumes P .inside r r')
    (fails : P.faithful → ∀ {s s' e t}, P.Stands .inside s s' → r P.left s = (.error e, t) →
      ∃ e' t', r' P.right s' = (.error e', t') ∧ P.Alike e e' ∧ t.depth = t'.depth) :
    BlockItem P Lost (itemUnless ends r) (itemUnless ends r') := by
  have more {s s' : State Nat} (stands : P.Stands .met s s')
      (is_not : ends s.stream.current.kind ≠ true) : P.Stands .inside s s' :=
    stands.inside fun is => is_not (is ▸ last)
  refine ⟨ended, fun {s s' x t} stands h => ?_, ⟨fun {s s' a t} stands h => ?_⟩,
    fun {s x t} isLost h => ?_, fun faithful {s s' e t} stands h => ?_, found⟩
  · by_cases is : ends s.stream.current.kind = true
    · obtain ⟨rfl, rfl⟩ := itemUnless_end is h
      rcases stands.meet with abreast | isOver
      · have is' : ends s'.stream.current.kind = true := (laws.like abreast).kind ▸ is
        exact .inr ⟨none, s', .bind .current (.ite_pos is' .pure), rfl, stands, Nat.le_refl _⟩
      · exact .inl ⟨ended ⟨_, isOver⟩, fun _ => ⟨_, isOver⟩⟩
    · obtain ⟨n, rfl, read⟩ := itemUnless_more is h
      have inside := more stands is
      rcases gives inside read with isLost | ⟨n', t', read', rfl, stands', le⟩
      · exact .inl ⟨isLost, by simp⟩
      · have is' : ends s'.stream.current.kind ≠ true := (laws.like inside.meet.1).kind ▸ is
        exact .inr ⟨some n', t', .bind .current (.ite_neg is' (.map read')), rfl, stands', le⟩
  · by_cases is : ends s.stream.current.kind = true
    · cases (itemUnless_end is h).1
    · obtain ⟨n, -, read⟩ := itemUnless_more is h
      exact eats.fewer (more stands is) read
  · rcases lost isLost with isOver | ⟨more, stuck⟩
    · obtain ⟨rfl, rfl⟩ := itemUnless_end (by rw [isOver.kind, last]) h
      exact ⟨rfl, isOver⟩
    · obtain ⟨n, -, read⟩ := itemUnless_more (by simp [more]) h
      exact absurd read (stuck n t)
  · have abreast := stands.abreast_of_faithful faithful
    rcases error_of_bind h with ⟨⟨⟩⟩ | ⟨_, _, ⟨⟩, g⟩
    by_cases is : ends s.stream.current.kind = true
    · rw [if_pos is] at g
      cases g
    · rw [if_neg is] at g
      have is' : ends s'.stream.current.kind ≠ true := (laws.like abreast.meet).kind ▸ is
      rcases error_of_bind g with g | ⟨_, _, _, ⟨⟩⟩
      obtain ⟨e', t', read', rest⟩ := fails faithful (more stands is) g
      refine ⟨e', t', ?_, rest⟩
      rw [itemUnless, Gives.current.bind_eq, if_neg is']
      exact map_error read'

theorem semicolons : BlockItem P P.Over semicolon? semicolon? where
  ended := id
  gives {s s' x t} stands h := by
    rcases stands.meet with abreast | ends
    · have like := laws.like abreast
      rcases semicolon?_cases h with ⟨rfl, is, rfl⟩ | ⟨rfl, is, rfl⟩
      · have inside := stands.inside (by rw [is]; decide)
        rw [like.kind] at is
        exact .inr ⟨_, _, .bind (.accept is) .pure, rfl, inside.next, Nat.le_of_lt inside.ahead_lt⟩
      · rw [like.kind] at is
        exact .inr ⟨_, _, .bind (.accept_not is) .pure, rfl, stands, Nat.le_refl _⟩
    · rcases semicolon?_cases h with ⟨-, is, -⟩ | ⟨rfl, is, rfl⟩
      · rw [(laws.ends ends).1] at is
        cases is
      · exact .inl ⟨⟨_, ends⟩, fun _ => ⟨_, ends⟩⟩
  eats := by
    refine ⟨fun {s s' a t} stands h => ?_⟩
    rcases semicolon?_cases h with ⟨-, is, rfl⟩ | ⟨none, -⟩
    · exact (stands.inside (by rw [is]; decide)).ahead_lt
    · cases none
  lost {s x t} ended h := by
    rcases semicolon?_cases h with ⟨-, is, -⟩ | ⟨rfl, is, rfl⟩
    · rw [ended.kind] at is
      cases is
    · exact ⟨rfl, ended⟩
  fails _ s s' e t _ h := by
    obtain ⟨x, u, gives⟩ := semicolon?_gives P.left s
    cases gives.symm.trans h
  found := Pairing.not_over

/-- Skipping semicolons ends in front of the same token, or at the left end. -/
theorem skipSemicolons_gives (stands : P.Stands .met s s') {x : Unit}
    (h : skipSemicolons.Gives P.left s x t) : P.Over t ∨ ∃ t', skipSemicolons.Gives P.right s' () t' ∧
      P.Stands .met t t' ∧ t.stream.ahead.length ≤ s.stream.ahead.length := by
  obtain ⟨l, u, h, ⟨⟩⟩ := h.of_bind
  rcases semicolons.many_gives stands h with ended | ⟨l', t', h', -, rest⟩
  · exact .inl ended
  · exact .inr ⟨t', .bind h' .pure, rest⟩

/-- A block follows another one also if semicolons are skipped in it. -/
theorem skip (items : BlockItem P Lost item item')
    (still : ∀ {s}, Lost s → s.stream.current.kind ≠ .semicolonToken) :
    BlockItem P Lost (skipSemicolons >>= fun _ => item) (skipSemicolons >>= fun _ => item') := by
  refine ⟨items.ended, fun {s s' x t} stands h => ?_, ⟨fun {s s' a t} stands h => ?_⟩,
    fun {s x t} lost h => ?_, fun faithful {s s' e t} stands h => ?_, items.found⟩
  · obtain ⟨_, u, skip, h⟩ := h.of_bind
    rcases skipSemicolons_gives stands skip with ended | ⟨u', skip', stands', le⟩
    · obtain ⟨rfl, ended⟩ := items.lost (items.ended ended) h
      exact .inl ⟨items.ended ended, fun _ => ended⟩
    · rcases items.gives stands' h with lost | ⟨x', t', h', rfl, stands'', le'⟩
      · exact .inl lost
      · exact .inr ⟨x', t', .bind skip' h', rfl, stands'', Nat.le_trans le' le⟩
  · obtain ⟨_, u, skip, h⟩ := h.of_bind
    rcases skipSemicolons_gives stands skip with ended | ⟨u', -, stands', le⟩
    · cases (items.lost (items.ended ended) h).1
    · exact Nat.lt_of_lt_of_le (items.eats.fewer stands' h) le
  · obtain ⟨_, u, skip, h⟩ := h.of_bind
    obtain rfl := skipSemicolons_still skip (still lost)
    exact items.lost lost h
  · rcases error_of_bind h with h | ⟨x, u, skip, h⟩
    · rcases error_of_bind h with h | ⟨_, _, _, ⟨⟩⟩
      obtain ⟨e', t', h', rest⟩ := semicolons.many_fails faithful stands h
      exact ⟨e', t', bind_error (bind_error h'), rest⟩
    · rcases skipSemicolons_gives stands skip with ended | ⟨u', skip', stands', -⟩
      · exact absurd ended (Pairing.not_over faithful u)
      · obtain ⟨e', t', h', rest⟩ := items.fails faithful stands' h
        exact ⟨e', t', (skip'.bind_eq _).trans h', rest⟩

end BlockItem

end Ambient
