import Ambient.Proofs.Grammar.Gives
import Ambient.Proofs.Lexeme.Genuine

namespace Ambient

/-- What is known of places and failures. -/
structure Ground where
  /-- The places where a rule may start. -/
  Here : Stream → Prop
  /-- The places that it may come to when it has read a token. -/
  Behind : Stream → Prop
  Blames : Failure → Prop

/-- A token that may be read: one that is well formed and not the end of the text. -/
structure Lexeme.Firm (t : Lexeme) : Prop where
  error : t.error = none
  more : t.kind ≠ .endOfFileToken

/-- A stream at a later token. -/
structure Stream.Nearer (t s : Stream) : Prop where
  suffix : t.toList <:+ s.toList
  fewer : t.ahead.length < s.ahead.length

namespace Ground

/-- What a ground has to say where tokens are read and failures arise. -/
class Lawful (G : Ground) : Prop where
  scanned : ∀ {s}, G.Here s → Scanned s.toList
  here : ∀ {s}, G.Behind s → G.Here s
  next : ∀ {s}, G.Here s → s.current.Firm → G.Behind s.next
  failure : ∀ {s}, G.Here s → ∀ m arguments, G.Blames (s.current.failure m arguments)
  earlier : ∀ {s t}, G.Here s → G.Here t → t.Nearer s → ∀ m, G.Blames ⟨s.current.start, m, []⟩
  contested : ∀ {e f}, G.Blames e → G.Blames f → e.position = f.position → f.agrees e = false →
    ∀ m, G.Blames ⟨e.position, m, []⟩

/-- A place of which it is known whether a token has been read and whether the next one may be. -/
structure At (G : Ground) (read firm : Bool) (s : Stream) : Prop where
  here : G.Here s
  behind : read = true → G.Behind s
  firm : firm = true → s.current.Firm

namespace At

variable {G : Ground} {x y : Bool} {s : Stream}

theorem start (h : G.At x y s) : G.At false false s := ⟨h.here, nofun, nofun⟩

theorem loose (h : G.At x y s) : G.At x false s := ⟨h.here, h.behind, nofun⟩

theorem of_firm (h : G.At x y s) (firm : s.current.Firm) : G.At x true s :=
  ⟨h.here, h.behind, fun _ => firm⟩

theorem of_behind [laws : G.Lawful] (h : G.Behind s) : G.At true false s :=
  ⟨laws.here h, fun _ => h, nofun⟩

theorem to_any {z : Bool} (h : G.At true false s) : G.At z false s := ⟨h.here, fun _ => h.behind rfl, nofun⟩

end At

end Ground

/-- Whether tokens of kind `k` are well formed in every text and not the end of it. -/
@[reducible] def Kind.isFirm : Kind → Bool
  | .unknown | .stringLiteral | .numericLiteral | .endOfFileToken => false
  | _ => true

theorem Kind.ne_of_isFirm {k : Kind} (h : k.isFirm = true) : k ≠ .unknown ∧
    k ≠ .stringLiteral ∧ k ≠ .numericLiteral ∧ k ≠ .endOfFileToken := by
  refine ⟨?_, ?_, ?_, ?_⟩ <;> rintro rfl <;> cases h

theorem Lexeme.Genuine.firm {t : Lexeme} (h : t.Genuine) (is : t.kind.isFirm = true) : t.Firm := by
  obtain ⟨unknown, string, number, more⟩ := Kind.ne_of_isFirm is
  exact ⟨h.error_eq_none unknown string number, more⟩

theorem Stream.suffix_next (s : Stream) : s.next.toList <:+ s.toList := by
  rcases s with ⟨first, _ | ⟨second, others⟩⟩
  · exact List.suffix_refl _
  · exact List.suffix_cons _ _

theorem Stream.nearer_next {s : Stream} (scanned : Scanned s.toList)
    (more : s.current.kind ≠ .endOfFileToken) : s.next.Nearer s := by
  refine ⟨s.suffix_next, ?_⟩
  obtain ⟨t, ts, ahead⟩ := List.exists_cons_of_ne_nil (scanned.ahead_ne_nil more)
  simp [Stream.next, ahead]

theorem Stream.length_le_of_suffix {s t : Stream} (h : t.toList <:+ s.toList) :
    t.ahead.length ≤ s.ahead.length := by
  simpa [Stream.toList] using h.length_le

namespace Rule

/-- On the ground `G` two rules do the same from places where `x` says whether a token has been read
and `y` whether the next one may be. Where they succeed, `z` says whether a token has been read then. -/
class Walks (G : Ground) (x y z : Bool) {α : Type} (r r' : Rule Nat α) : Prop where
  eq : ∀ {o s}, G.At x y s.stream → r o s = r' o s
  reaches : ∀ {o s a t}, G.At x y s.stream → r.Gives o s a t → G.At z false t.stream
  suffix : ∀ {o s a t}, G.At x y s.stream → r.Gives o s a t → t.stream.toList <:+ s.stream.toList
  fewer : ∀ {o s a t}, G.At x y s.stream → r.Gives o s a t → x = false → z = true →
    t.stream.ahead.length < s.stream.ahead.length
  blames : ∀ {o s e t}, G.At x y s.stream → r o s = (.error e, t) → G.Blames e

/-- A rule that never fails. -/
class Sure {α : Type} (r : Rule Nat α) : Prop where
  gives : ∀ o s, ∃ a t, r.Gives o s a t

/-- A rule that always says yes or no and stays where it is. -/
class Asks (c : Rule Nat Bool) : Prop where
  gives : ∀ o s, ∃ b, c.Gives o s b s

/-- Where the answer is yes the current token may be read. -/
class Vouches (c : Rule Nat Bool) : Prop extends Asks c where
  firm : ∀ {o s}, Scanned s.stream.toList → c.Gives o s true s → s.stream.current.Firm

variable {α β : Type} {k : Kind}

namespace Sure

instance pure (a : α) : Sure (pure a : Rule Nat α) := ⟨fun _ s => ⟨a, s, rfl⟩⟩

instance bind {r : Rule Nat α} {f : α → Rule Nat β} [first : Sure r] [each : ∀ a, Sure (f a)] :
    Sure (r >>= f) := by
  refine ⟨fun o s => ?_⟩
  obtain ⟨a, t, read⟩ := first.gives o s
  obtain ⟨b, u, others⟩ := (each a).gives o t
  exact ⟨b, u, read.bind others⟩

instance ite {c : Prop} [Decidable c] {r r' : Rule Nat α} [Sure r] [Sure r'] :
    Sure (if c then r else r') := by
  split <;> infer_instance

instance current : Sure Rule.current := ⟨fun _ s => ⟨_, s, rfl⟩⟩

instance advance : Sure Rule.advance := ⟨fun _ s => ⟨(), s.next, rfl⟩⟩

instance atKind : Sure (atKind k) := by
  unfold Rule.atKind
  infer_instance

instance atKindOnLine : Sure (atKindOnLine k) := by
  unfold Rule.atKindOnLine
  infer_instance

instance accept : Sure (accept k) := by
  unfold Rule.accept
  infer_instance

end Sure

namespace Asks

instance pure (b : Bool) : Asks (pure b) := ⟨fun _ _ => ⟨b, rfl⟩⟩

instance ite {c : Prop} [Decidable c] {r r' : Rule Nat Bool} [Asks r] [Asks r'] :
    Asks (if c then r else r') := by
  split <;> infer_instance

instance current {f : Lexeme → Rule Nat Bool} [each : ∀ t, Asks (f t)] : Asks (Rule.current >>= f) :=
  ⟨fun o s => (each _).gives o s⟩

instance bind {c : Rule Nat Bool} {f : Bool → Rule Nat Bool} [first : Asks c] [each : ∀ b, Asks (f b)] :
    Asks (c >>= f) := by
  refine ⟨fun o s => ?_⟩
  obtain ⟨b, found⟩ := first.gives o s
  obtain ⟨b', found'⟩ := (each b).gives o s
  exact ⟨b', found.bind found'⟩

instance atKind : Asks (atKind k) := by
  unfold Rule.atKind
  infer_instance

instance atKindOnLine : Asks (atKindOnLine k) := by
  unfold Rule.atKindOnLine
  infer_instance

instance lookAhead {r : Rule Nat Bool} [sure : Sure r] [Balanced r] : Asks (lookAhead r) := by
  refine ⟨fun o s => ?_⟩
  obtain ⟨b, t, read⟩ := sure.gives o s
  have kept := Balanced.depth_eq (r := r) o s
  rw [read] at kept
  have found := read.lookAhead
  rw [kept] at found
  exact ⟨b, found⟩

end Asks

namespace Vouches

theorem of_kind {c : Rule Nat Bool} [Asks c]
    (firm : ∀ {o s}, c.Gives o s true s → s.stream.current.kind.isFirm = true) : Vouches c :=
  ⟨fun scanned found => scanned.genuine_head.firm (firm found)⟩

instance atKind [firm : Holds k.isFirm] : Vouches (atKind k) :=
  of_kind fun {o s} found => by
    have is : decide (s.stream.current.kind = k) = true := by simpa using Gives.atKind.symm.trans found
    exact of_decide_eq_true is ▸ firm.eq

instance atKindOnLine [firm : Holds k.isFirm] : Vouches (atKindOnLine k) :=
  of_kind fun {o s} found => by
    by_cases is : s.stream.current.kind = k
    · exact is ▸ firm.eq
    · cases (Gives.atKindOnLine_not is).symm.trans found

/-- What asks further where the current token may be read. -/
instance first {c c' : Rule Nat Bool} [h : Vouches c] [Asks c'] :
    Vouches (c >>= fun b => if b = true then c' else Pure.pure false) where
  firm {o s} scanned found := by
    obtain ⟨b, found'⟩ := h.gives o s
    rw [Gives, found'.bind_eq] at found
    cases b with
    | true => exact h.firm scanned found'
    | false => cases found

end Vouches

namespace Walks

variable {G : Ground} {x y z : Bool}

/-- A rule that never succeeds. -/
theorem of_refuses {r : Rule Nat α} (refuses : ∀ {o s a t}, ¬ r.Gives o s a t)
    (blames : ∀ {o s e t}, G.At x y s.stream → r o s = (.error e, t) → G.Blames e) :
    Walks G x y z r r where
  eq _ := rfl
  reaches _ h := absurd h refuses
  suffix _ h := absurd h refuses
  fewer _ h := absurd h refuses
  blames := blames

/-- A rule that stays where it is. -/
theorem of_still {r : Rule Nat α} (still : ∀ o s, ∃ a, r.Gives o s a s) : Walks G x y x r r := by
  have same {o s a t} (h : r.Gives o s a t) : s = t := by
    obtain ⟨b, read⟩ := still o s
    cases read.symm.trans h
    rfl
  refine ⟨fun _ => rfl, fun here h => ?_, fun here h => ?_, ?_, fun {o s e t} here h => ?_⟩
  · obtain rfl := same h
    exact here.loose
  · obtain rfl := same h
    exact List.suffix_refl _
  · rintro o s a t - - rfl ⟨⟩
  · obtain ⟨b, read⟩ := still o s
    cases read.symm.trans h

/-- From `s` on two rules do what two other ones do from `s'` on, which is the same place or a later
one. -/
structure Onward (G : Ground) (x z : Bool) (r r' : Rule Nat α) (o : Options) (s : State Nat) (x' y' : Bool)
    (q q' : Rule Nat α) (s' : State Nat) : Prop where
  here : G.At x' y' s'.stream
  walks : Walks G x' y' z q q'
  eq : r o s = q o s'
  eq' : r' o s = q' o s'
  suffix : s'.stream.toList <:+ s.stream.toList
  fewer : x = false → x' = true → s'.stream.ahead.length < s.stream.ahead.length

theorem Onward.stay {o : Options} {s : State Nat} {y' : Bool} {r r' q q' : Rule Nat α}
    (here : G.At x y' s.stream) (walks : Walks G x y' z q q') (eq : r o s = q o s)
    (eq' : r' o s = q' o s) : Onward G x z r r' o s x y' q q' s := by
  refine ⟨here, walks, eq, eq', List.suffix_refl _, ?_⟩
  rintro rfl ⟨⟩

theorem of_onward {r r' : Rule Nat α} (onward : ∀ o s, G.At x y s.stream → ∃ x' y' q q' s',
    Onward G x z r r' o s x' y' q q' s') : Walks G x y z r r' where
  eq {o s} here := by
    obtain ⟨x', y', q, q', s', on⟩ := onward o s here
    rw [on.eq, on.eq', on.walks.eq on.here]
  reaches {o s a t} here h := by
    obtain ⟨x', y', q, q', s', on⟩ := onward o s here
    exact on.walks.reaches on.here (on.eq.symm.trans h)
  suffix {o s a t} here h := by
    obtain ⟨x', y', q, q', s', on⟩ := onward o s here
    exact (on.walks.suffix on.here (on.eq.symm.trans h)).trans on.suffix
  fewer {o s a t} here h fresh done := by
    obtain ⟨x', y', q, q', s', on⟩ := onward o s here
    have read := on.eq.symm.trans h
    have le := Stream.length_le_of_suffix on.suffix
    have le' := Stream.length_le_of_suffix (on.walks.suffix on.here read)
    cases x' with
    | true => exact Nat.lt_of_le_of_lt le' (on.fewer fresh rfl)
    | false => exact Nat.lt_of_lt_of_le (on.walks.fewer on.here read rfl done) le
  blames {o s e t} here h := by
    obtain ⟨x', y', q, q', s', on⟩ := onward o s here
    exact on.walks.blames on.here (on.eq.symm.trans h)

instance (priority := low) from_loose {r r' : Rule Nat α} [h : Walks G x false z r r'] :
    Walks G x y z r r' where
  eq here := h.eq here.loose
  reaches here := h.reaches here.loose
  suffix here := h.suffix here.loose
  fewer here := h.fewer here.loose
  blames here := h.blames here.loose

instance (priority := low) to_any {r r' : Rule Nat α} [h : Walks G x y true r r'] :
    Walks G x y z r r' where
  eq := h.eq
  reaches here read := (h.reaches here read).to_any
  suffix := h.suffix
  fewer here read fresh _ := h.fewer here read fresh rfl
  blames := h.blames

instance pure (a : α) : Walks G x y x (pure a : Rule Nat α) (pure a) := of_still fun _ _ => ⟨a, rfl⟩

theorem bind_of {m : Bool} {r r' : Rule Nat α} {f f' : α → Rule Nat β} (first : Walks G x y m r r')
    (each : ∀ a, Walks G m false z (f a) (f' a)) : Walks G x y z (r >>= f) (r' >>= f') where
  eq {o s} here := by
    rw [bind_apply, bind_apply, ← first.eq here]
    cases h : r o s with | mk result t => ?_
    cases result with
    | error e => rfl
    | ok a => exact (each a).eq (first.reaches here h)
  reaches here h := by
    obtain ⟨a, u, read, others⟩ := h.of_bind
    exact (each a).reaches (first.reaches here read) others
  suffix here h := by
    obtain ⟨a, u, read, others⟩ := h.of_bind
    exact ((each a).suffix (first.reaches here read) others).trans (first.suffix here read)
  fewer here h fresh done := by
    obtain ⟨a, u, read, others⟩ := h.of_bind
    have le := Stream.length_le_of_suffix (first.suffix here read)
    have le' := Stream.length_le_of_suffix ((each a).suffix (first.reaches here read) others)
    cases m with
    | true => exact Nat.lt_of_le_of_lt le' (first.fewer here read fresh rfl)
    | false => exact Nat.lt_of_lt_of_le ((each a).fewer (first.reaches here read) others rfl done) le
  blames here h := by
    rcases error_of_bind h with failed | ⟨a, u, read, failed⟩
    · exact first.blames here failed
    · exact (each a).blames (first.reaches here read) failed

instance bind {r r' : Rule Nat α} {f f' : α → Rule Nat β} [first : Walks G x y true r r']
    [each : ∀ a, Walks G true false z (f a) (f' a)] : Walks G x y z (r >>= f) (r' >>= f') :=
  bind_of first each

/-- A rule that may read nothing leaves it to the next one. -/
instance (priority := low) bind_still {r r' : Rule Nat α} {f f' : α → Rule Nat β}
    [first : Walks G x y x r r'] [each : ∀ a, Walks G x false z (f a) (f' a)] :
    Walks G x y z (r >>= f) (r' >>= f') := bind_of first each

/-- Goes on behind a rule that reads a token. -/
theorem next {r r' : Rule Nat α} {f f' : α → Rule Nat β} [first : Walks G x y true r r']
    (each : ∀ a, Walks G true false z (f a) (f' a)) : Walks G x y z (r >>= f) (r' >>= f') :=
  bind_of first each

/-- Goes on behind a rule that may read nothing. -/
theorem step {r r' : Rule Nat α} {f f' : α → Rule Nat β} [first : Walks G x y x r r']
    (each : ∀ a, Walks G x false z (f a) (f' a)) : Walks G x y z (r >>= f) (r' >>= f') :=
  bind_of first each

instance map {r r' : Rule Nat α} {g : α → β} [h : Walks G x y z r r'] :
    Walks G x y z (g <$> r) (g <$> r') := bind_of h fun _ => pure _

instance ite {c : Prop} [Decidable c] {r₁ r₂ r₁' r₂' : Rule Nat α} [h : Walks G x y z r₁ r₁']
    [g : Walks G x y z r₂ r₂'] : Walks G x y z (if c then r₁ else r₂) (if c then r₁' else r₂') := by
  split
  · exact h
  · exact g

variable [laws : G.Lawful]

omit laws in
theorem fail {f : Failure} (h : G.Blames f) : Walks G x y z (fail f : Rule Nat α) (fail f) :=
  of_refuses nofun fun _ failed => by
    cases failed
    exact h

instance failHere (m : Message) (arguments : List String) :
    Walks G x y z (failHere m arguments : Rule Nat α) (failHere m arguments) :=
  of_refuses nofun fun here failed => by
    cases failed
    exact laws.failure here.here m arguments

omit laws in
theorem current_of {f f' : Lexeme → Rule Nat α} (each : ∀ t, Walks G x y z (f t) (f' t)) :
    Walks G x y z (Rule.current >>= f) (Rule.current >>= f') :=
  of_onward fun _ s here => ⟨x, y, f s.stream.current, f' s.stream.current, s,
    .stay here (each _) rfl rfl⟩

omit laws in
instance current {f f' : Lexeme → Rule Nat α} [each : ∀ t, Walks G x y z (f t) (f' t)] :
    Walks G x y z (Rule.current >>= f) (Rule.current >>= f') := current_of each

/-- A rule that goes on by the current token, of which it may find out that it may be read. -/
theorem current_cases {f f' : Lexeme → Rule Nat α} (each : ∀ t : Lexeme, t.Genuine →
    Walks G x y z (f t) (f' t) ∨ t.Firm ∧ Walks G x true z (f t) (f' t)) :
    Walks G x y z (Rule.current >>= f) (Rule.current >>= f') := by
  refine of_onward fun o s here => ?_
  rcases each _ (laws.scanned here.here).genuine_head with walks | ⟨firm, walks⟩
  · exact ⟨x, y, _, _, s, .stay here walks rfl rfl⟩
  · exact ⟨x, true, _, _, s, .stay (here.of_firm firm) walks rfl rfl⟩

/-- A rule that reads the current token if that may be read. -/
theorem current_if {c : Lexeme → Prop} [DecidablePred c] {f g f' g' : Lexeme → Rule Nat α}
    (firm : ∀ t, t.Genuine → c t → t.Firm) (yes : ∀ t, Walks G x true z (f t) (f' t))
    (no : ∀ t, Walks G x y z (g t) (g' t)) :
    Walks G x y z (Rule.current >>= fun t => if c t then f t else g t)
      (Rule.current >>= fun t => if c t then f' t else g' t) := by
  refine current_cases fun t genuine => ?_
  split
  · exact .inr ⟨firm t genuine ‹_›, yes t⟩
  · exact .inl (no t)

/-- A rule that reads the current token if that is of a kind that may be read. -/
theorem current_kind {c : Kind → Prop} [DecidablePred c] {f g f' g' : Lexeme → Rule Nat α}
    (firm : ∀ k, c k → k.isFirm = true) (yes : ∀ t, Walks G x true z (f t) (f' t))
    (no : ∀ t, Walks G x y z (g t) (g' t)) :
    Walks G x y z (Rule.current >>= fun t => if c t.kind then f t else g t)
      (Rule.current >>= fun t => if c t.kind then f' t else g' t) :=
  current_if (fun _ genuine is => genuine.firm (firm _ is)) yes no

instance advance : Walks G x true true advance advance where
  eq _ := rfl
  reaches here h := by
    cases h
    exact .of_behind (laws.next here.here (here.firm rfl))
  suffix _ h := by
    cases h
    exact Stream.suffix_next _
  fewer here h _ _ := by
    cases h
    exact (Stream.nearer_next (laws.scanned here.here) (here.firm rfl).more).fewer
  blames _ h := by cases h

omit laws in
instance documentationHere : Walks G x y x documentationHere documentationHere :=
  of_still fun _ _ => ⟨_, rfl⟩

omit laws in
/-- A question leaves a rule where it is. -/
theorem ask_of {c : Rule Nat Bool} {f f' : Bool → Rule Nat α} [asks : Asks c]
    (each : ∀ b, Walks G x y z (f b) (f' b)) : Walks G x y z (c >>= f) (c >>= f') := by
  refine of_onward fun o s here => ?_
  obtain ⟨b, found⟩ := asks.gives o s
  exact ⟨x, y, f b, f' b, s, .stay here (each b) (found.bind_eq f) (found.bind_eq f')⟩

omit laws in
instance ask {c : Rule Nat Bool} {f f' : Bool → Rule Nat α} [Asks c]
    [each : ∀ b, Walks G x y z (f b) (f' b)] : Walks G x y z (c >>= f) (c >>= f') := ask_of each

/-- Where the answer vouches for the current token, that may be read. -/
theorem test_of {c : Rule Nat Bool} {f f' : Bool → Rule Nat α} [asks : Vouches c]
    (yes : Walks G x true z (f true) (f' true)) (no : Walks G x y z (f false) (f' false)) :
    Walks G x y z (c >>= f) (c >>= f') := by
  refine of_onward fun o s here => ?_
  obtain ⟨b, found⟩ := asks.gives o s
  cases b with
  | true =>
    have firm := asks.firm (laws.scanned here.here) found
    exact ⟨x, true, _, _, s, .stay (here.of_firm firm) yes (found.bind_eq f) (found.bind_eq f')⟩
  | false => exact ⟨x, y, _, _, s, .stay here no (found.bind_eq f) (found.bind_eq f')⟩

instance (priority := high) test {c : Rule Nat Bool} {r₁ r₂ r₁' r₂' : Rule Nat α} [Vouches c]
    [yes : Walks G x true z r₁ r₁'] [no : Walks G x y z r₂ r₂'] :
    Walks G x y z (c >>= fun b => if b = true then r₁ else r₂)
      (c >>= fun b => if b = true then r₁' else r₂') := test_of yes no

instance accept [Holds k.isFirm] : Walks G x y x (accept k) (accept k) := by
  unfold Rule.accept
  infer_instance

instance token? [Holds k.isFirm] : Walks G x y x (token? k) (token? k) := by
  unfold Rule.token?
  infer_instance

instance expect [Holds k.isFirm] : Walks G x y z (expect k) (expect k) := by
  unfold Rule.expect
  infer_instance

/-- What stands behind a token is found only when that has been read. -/
instance (priority := high) acceptThen [Holds k.isFirm] {r₁ r₂ r₁' r₂' : Rule Nat α}
    [yes : Walks G true false z r₁ r₁'] [no : Walks G x y z r₂ r₂'] :
    Walks G x y z (Rule.accept k >>= fun b => if b = true then r₁ else r₂)
      (Rule.accept k >>= fun b => if b = true then r₁' else r₂') := by
  refine of_onward fun o s here => ?_
  by_cases is : s.stream.current.kind = k
  · have read := Gives.accept (o := o) is
    have firm : s.stream.current.Firm :=
      (laws.scanned here.here).genuine_head.firm (is ▸ Holds.eq)
    have nearer := Stream.nearer_next (laws.scanned here.here) firm.more
    exact ⟨true, false, r₁, r₁', s.next, .of_behind (laws.next here.here firm), yes,
      read.bind_eq _, read.bind_eq _, nearer.suffix, fun _ _ => nearer.fewer⟩
  · have read := Gives.accept_not (o := o) is
    exact ⟨x, y, r₂, r₂', s, .stay here no (read.bind_eq _) (read.bind_eq _)⟩

instance optionalAfter [Holds k.isFirm] {r r' : Rule Nat α} [Walks G true false true r r'] :
    Walks G x y x (optionalAfter k r) (optionalAfter k r') := by
  unfold Rule.optionalAfter
  infer_instance

instance semicolon : Walks G x y x semicolon semicolon :=
  current_kind (fun k (is : k = .semicolonToken) => is ▸ rfl) (fun _ => inferInstance)
    fun _ => inferInstance

/-- What is kept of the failures so far may be reported, and if they differ so may anything at their
place. -/
structure Kept (G : Ground) (b : Furthest) : Prop where
  blames : G.Blames b.failure
  contested : b.contested = true → ∀ m, G.Blames ⟨b.failure.position, m, []⟩

theorem Kept.add {best : Option Furthest} {f : Failure} (kept : ∀ b ∈ best, Kept G b)
    (blames : G.Blames f) : Kept G (Furthest.add best f) := by
  have alone : Kept G ⟨f, false⟩ := ⟨blames, nofun⟩
  rcases best with _ | b
  · exact alone
  have before := kept b rfl
  unfold Furthest.add
  dsimp only
  split
  · exact before
  split
  · rename_i same
    refine ⟨before.blames, fun contested => ?_⟩
    rcases Bool.or_eq_true _ _ ▸ contested with contested | differs
    · exact before.contested contested
    · exact laws.contested before.blames blames same.symm (Bool.not_eq_true' _ ▸ differs)
  · exact alone

omit laws in
theorem Kept.report {b : Furthest} (h : Kept G b) (fallback : Message) :
    G.Blames (b.report fallback) := by
  unfold Furthest.report
  split
  · exact h.contested ‹_› fallback
  · exact h.blames

theorem alternativesFrom {rules : List (Rule Nat α × Rule Nat α)} (best : Option Furthest)
    {fallback : Message} (each : ∀ e ∈ rules, Walks G x y z e.1 e.2)
    (kept : ∀ b ∈ best, Kept G b) :
    Walks G x y z (alternativesFrom best fallback (rules.map Prod.fst))
      (alternativesFrom best fallback (rules.map Prod.snd)) := by
  induction rules generalizing best with
  | nil =>
    cases best with
    | none => exact failHere fallback []
    | some b => exact fail ((kept b rfl).report fallback)
  | cons e rules ih =>
    obtain ⟨first, others⟩ := List.forall_mem_cons.mp each
    refine of_onward fun o s here => ?_
    have eq' := first.eq (o := o) here
    cases eq : e.1 o s with | mk result t => ?_
    rw [eq] at eq'
    cases result with
    | ok a =>
      exact ⟨x, y, _, _, s, .stay here first (by simp [Rule.alternativesFrom, eq])
        (by simp [Rule.alternativesFrom, ← eq'])⟩
    | error f =>
      have left := ih (some (Furthest.add best f)) others fun b mem =>
        Option.mem_some.mp mem ▸ Kept.add kept (first.blames here eq)
      have again : G.At x y (State.mk s.stream t.depth).stream := here
      refine ⟨x, y, _, _, ⟨s.stream, t.depth⟩, again, left, ?_, ?_, List.suffix_refl _, ?_⟩
      · simp [Rule.alternativesFrom, eq]
      · simp [Rule.alternativesFrom, ← eq']
      · rintro rfl ⟨⟩

/-- Alternatives walk if each of them does. -/
theorem alternatives (rules : List (Rule Nat α × Rule Nat α)) {fallback : Message}
    (each : ∀ e ∈ rules, Walks G x y z e.1 e.2) :
    Walks G x y z (alternatives (rules.map Prod.fst) fallback)
      (alternatives (rules.map Prod.snd) fallback) := alternativesFrom none each nofun

instance (priority := high) enterLevel {r r' : Rule Nat α} [h : Walks G x y z r r'] :
    Walks G x y z (enterLevel >>= fun _ => r) (enterLevel >>= fun _ => r') := by
  refine of_onward fun o s here => ?_
  by_cases full : o.depthLimit ≤ s.depth
  · have fails : Rule.enterLevel o s = (.error (s.stream.current.failure .typeExpected []), s) :=
      if_pos full
    exact ⟨x, y, _, _, s, .stay here (failHere .typeExpected [])
      (bind_error fails) (bind_error fails)⟩
  · have opened : Rule.enterLevel.Gives o s () { s with depth := s.depth + 1 } := if_neg full
    refine ⟨x, y, r, r', { s with depth := s.depth + 1 }, here, h, opened.bind_eq _, opened.bind_eq _,
      List.suffix_refl _, ?_⟩
    rintro rfl ⟨⟩

omit laws in
/-- What the levels are set to behind a rule makes no difference to the tokens. -/
theorem settingLevels (f : Nat → Nat → Nat) {r r' : Rule Nat α} [h : Walks G x y z r r'] :
    Walks G x y z (settingLevels f r) (settingLevels f r') := by
  have gives {o s a t} (read : (Rule.settingLevels f r).Gives o s a t) :
      r.Gives o s a (r o s).2 ∧ t.stream = (r o s).2.stream := by
    simp only [Gives, Rule.settingLevels, Prod.mk.injEq] at read
    obtain ⟨value, rfl⟩ := read
    exact ⟨Prod.ext value rfl, rfl⟩
  refine ⟨fun {o s} here => ?_, fun here read => ?_, fun here read => ?_, fun here read => ?_,
    fun {o s e t} here failed => ?_⟩
  · simp only [Rule.settingLevels, h.eq here]
  · exact (gives read).2 ▸ h.reaches here (gives read).1
  · exact (gives read).2 ▸ h.suffix here (gives read).1
  · exact (gives read).2 ▸ h.fewer here (gives read).1
  · simp only [Rule.settingLevels, Prod.mk.injEq] at failed
    exact h.blames here (Prod.ext failed.1 rfl : r o s = (.error e, (r o s).2))

omit laws in
instance closingLevels {r r' : Rule Nat α} [Walks G x y z r r'] :
    Walks G x y z (closingLevels r) (closingLevels r') := settingLevels fun before _ => before

omit laws in
instance leavingLevel {r r' : Rule Nat α} [Walks G x y z r r'] :
    Walks G x y z (leavingLevel r) (leavingLevel r') := settingLevels fun _ now => now - 1

instance nested {r r' : Rule Nat α} [h : Walks G x y z r r'] : Walks G x y z (nested r) (nested r') := by
  unfold Rule.nested
  infer_instance

omit laws in
instance bounded {r r' : Budget → Rule Nat α} [h : ∀ budget, Walks G x y z (r budget) (r' budget)] :
    Walks G x y z (bounded r) (bounded r') :=
  of_onward fun _ s here => ⟨x, y, r s.stream.toList, r' s.stream.toList, s, .stay here (h _) rfl rfl⟩

omit laws in
theorem iterateWithin_walks {step step' : β → Rule Nat (Option β)}
    (h : ∀ b, Walks G x false x (step b) (step' b)) (budget : Budget) (b : β) :
    Walks G x false x (iterateWithin step budget b : Rule Nat β) (iterateWithin step' budget b) := by
  induction budget generalizing b with
  | nil => exact pure b
  | cons first budget ih =>
    have unfolded (step : β → Rule Nat (Option β)) : (iterateWithin step (first :: budget) b : Rule Nat β) =
        step b >>= fun found => found.elim (Pure.pure b) (iterateWithin step budget) := by
      funext o s
      rw [bind_apply, iterateWithin]
      cases step b o s with | mk result t => ?_
      rcases result with _ | _ | _ <;> rfl
    rw [unfolded, unfolded]
    refine bind_of (h b) fun found => ?_
    cases found with
    | none => exact pure b
    | some b' => exact ih b'

omit laws in
instance iterate {step step' : β → Rule Nat (Option β)} {b : β}
    [h : ∀ b, Walks G x false x (step b) (step' b)] :
    Walks G x y x (iterate step b) (iterate step' b) := by
  have : Walks G x false x (Rule.iterate step b) (Rule.iterate step' b) :=
    bounded (h := fun budget => iterateWithin_walks h budget b)
  infer_instance

omit laws in
instance many {item item' : Rule Nat (Option α)} [h : Walks G x false x item item'] :
    Walks G x y x (many item) (many item') := by
  have step (read : List α) : Walks G x false x (do return (← item).map (· :: read))
      (do return (← item').map (· :: read)) := bind_of h fun _ => pure _
  unfold Rule.many
  infer_instance

instance delimited {close : Kind} {trailing : Bool} {element element' : Rule Nat α}
    [first : Walks G x y z element element'] [others : Walks G true false true element element'] :
    Walks G x y z (delimited close trailing element) (delimited close trailing element') := by
  refine bind_of first fun _ => bind_of (m := z) (many (h := ?_)) fun _ => pure _
  infer_instance

instance skipSemicolons : Walks G x y x skipSemicolons skipSemicolons := by
  unfold Rule.skipSemicolons
  infer_instance

end Walks

end Rule

end Ambient
