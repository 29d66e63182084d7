import Mathlib.Logic.Function.Iterate
import Ambient.Proofs.Ground.Statement

namespace Ambient

/-- The ground of all places in tokens that were scanned. -/
def Ground.scanned : Ground := ⟨fun s => Scanned s.toList, fun s => Scanned s.toList, fun _ => True⟩

instance : Ground.scanned.Lawful where
  scanned := id
  here := id
  next here _ := Scanned.next here
  failure _ _ _ := trivial
  earlier _ _ _ _ := trivial
  contested _ _ _ _ _ := trivial

/-- The ground where at most `n` tokens are ahead, and fewer behind a token. -/
def Ground.within (n : Nat) : Ground where
  Here s := Scanned s.toList ∧ s.ahead.length ≤ n
  Behind s := Scanned s.toList ∧ s.ahead.length < n
  Blames _ := True

instance {n : Nat} : (Ground.within n).Lawful where
  scanned := And.left
  here h := ⟨h.1, Nat.le_of_lt h.2⟩
  next {s} here firm := by
    have nearer := Stream.nearer_next here.1 firm.more
    exact ⟨here.1.next, Nat.lt_of_lt_of_le nearer.fewer here.2⟩
  failure _ _ _ := trivial
  earlier _ _ _ _ := trivial
  contested _ _ _ _ _ := trivial

namespace Rule

variable {ι α β : Type}

/-- Each call of `r` makes further calls only where fewer tokens are ahead: what stands for `r`
elsewhere does not matter. Here `F` makes a call of `r` out of the further ones. -/
def Descends (F : (ι → Rule Nat α) → ι → Rule Nat α) (r : ι → Rule Nat α) : Prop :=
  ∀ (n : Nat) (f : ι → Rule Nat α),
    (∀ i o s, Scanned s.stream.toList → s.stream.ahead.length < n → f i o s = r i o s) →
    ∀ i o s, Scanned s.stream.toList → s.stream.ahead.length ≤ n → F f i o s = r i o s

/-- Where fewer than `n` tokens are ahead, `n` calls inside each other are enough: a further one is
never made, whatever it would do. -/
theorem Descends.iterate_eq {F : (ι → Rule Nat α) → ι → Rule Nat α} {r : ι → Rule Nat α} (h : Descends F r)
    (base : ι → Rule Nat α) (n : Nat) : ∀ i o s, Scanned s.stream.toList →
      s.stream.ahead.length < n → F^[n] base i o s = r i o s := by
  induction n with
  | zero => exact fun _ _ _ _ none => absurd none (Nat.not_lt_zero _)
  | succ n ih =>
    intro i o s scanned ahead
    rw [Function.iterate_succ_apply']
    exact h n _ ih i o s scanned (Nat.le_of_lt_succ ahead)

/-- A rule that does what another one does walks with it. -/
theorem Walks.of_eq {G : Ground} {x y z : Bool} {r r' : Rule Nat α} (h : Walks G x y z r' r')
    (eq : ∀ {o s}, G.At x y s.stream → r o s = r' o s) : Walks G x y z r r' where
  eq := eq
  reaches here read := h.reaches here ((eq here).symm.trans read)
  suffix here read := h.suffix here ((eq here).symm.trans read)
  fewer here read := h.fewer here ((eq here).symm.trans read)
  blames here failed := h.blames here ((eq here).symm.trans failed)

/-- A recursion within a budget descends if each call reads a token before the next one. -/
theorem Descends.of_budget {F : (ι → Rule Nat α) → ι → Rule Nat α} (within : Budget → ι → Rule Nat α)
    (cons : ∀ first budget, within (first :: budget) = F (within budget))
    (walks : ∀ n budget i, Walks (.within n) true false true (within budget i) (within budget i))
    (guarded : ∀ n f f', (∀ i, Walks (.within n) true false true (f i) (f' i)) →
      ∀ i, Walks (.within n) false false false (F f i) (F f' i)) :
    Descends F fun i => bounded fun budget => within budget i := by
  -- only the tokens ahead matter of a budget
  have enough (n : Nat) : ∀ (l l' : Budget), n ≤ l.length → n ≤ l'.length →
      ∀ i o s, Scanned s.stream.toList → s.stream.ahead.length < n →
        within l i o s = within l' i o s := by
    induction n with
    | zero => exact fun _ _ _ _ _ _ _ _ none => absurd none (Nat.not_lt_zero _)
    | succ n ih =>
      intro l l' long long' i o s scanned ahead
      obtain _ | ⟨first, l⟩ := l
      · exact absurd long (Nat.not_succ_le_zero n)
      obtain _ | ⟨first', l'⟩ := l'
      · exact absurd long' (Nat.not_succ_le_zero n)
      rw [cons, cons]
      have inner (i : ι) : Walks (.within n) true false true (within l i) (within l' i) :=
        (walks n l' i).of_eq fun {o s} here =>
          ih l l' (Nat.le_of_succ_le_succ long) (Nat.le_of_succ_le_succ long') i o s here.here.1
            (here.behind rfl).2
      exact (guarded n _ _ inner i).eq ⟨⟨scanned, Nat.le_of_lt_succ ahead⟩, nofun, nofun⟩
  intro n f agrees i o s scanned ahead
  have inner (i : ι) : Walks (.within s.stream.ahead.length) true false true (f i)
      (within s.stream.ahead i) := by
    refine (walks _ s.stream.ahead i).of_eq fun {o t} here => ?_
    have fewer := (here.behind rfl).2
    rw [agrees i o t here.here.1 (Nat.lt_of_lt_of_le fewer ahead)]
    exact enough (t.stream.ahead.length + 1) t.stream.toList s.stream.ahead (Nat.le_refl _)
      (Nat.succ_le_of_lt fewer) i o t here.here.1 (Nat.lt_succ_self _)
  have start : (Ground.within s.stream.ahead.length).At false false s.stream :=
    ⟨⟨scanned, Nat.le_refl _⟩, nofun, nofun⟩
  refine ((guarded _ _ _ inner i).eq start).trans ?_
  rw [← cons s.stream.current]
  rfl

/-- One round of a loop: a step, and the loop again with what the step has found. -/
def again (step : β → Rule Nat (Option β)) (loop : β → Rule Nat β) (b : β) : Rule Nat β := do
  match ← step b with
  | some b' => loop b'
  | none => return b

/-- A loop that reads a token in each round but the last, so that it comes to an end. -/
def Ends (step : β → Rule Nat (Option β)) : Prop := Descends (again step) (iterate step)

/-- What `r` finds it reads. -/
class Finds (y : Bool) (r : Rule Nat (Option α)) : Prop where
  fewer : ∀ {o s a t}, Ground.scanned.At false y s.stream → r.Gives o s (some a) t →
    t.stream.ahead.length < s.stream.ahead.length

theorem again_walks {n : Nat} {step : β → Rule Nat (Option β)} {loop loop' : β → Rule Nat β}
    (finds : ∀ b, Finds false (step b))
    (walks : ∀ b, Walks (.within n) false false false (step b) (step b))
    (inner : ∀ b, Walks (.within n) true false true (loop b) (loop' b)) (b : β) :
    Walks (.within n) false false false (again step loop b) (again step loop' b) := by
  refine Walks.of_onward fun o s here => ?_
  cases eq : step b o s with | mk result t => ?_
  rcases result with e | _ | b'
  · refine ⟨false, false, step b >>= fun _ => Pure.pure b, step b >>= fun _ => Pure.pure b, s,
      .stay here (Walks.bind_of (walks b) fun _ => .pure _) ?_ ?_⟩
    all_goals rw [again, bind_error eq, bind_error eq]
  · have there := (walks b).reaches here eq
    exact ⟨false, false, Pure.pure b, Pure.pure b, t, there, .pure b, Gives.bind_eq eq _,
      Gives.bind_eq eq _, (walks b).suffix here eq, nofun⟩
  · have there := (walks b).reaches here eq
    have fewer := (finds b).fewer ⟨here.here.1, fun _ => here.here.1, nofun⟩ eq
    have behind : (Ground.within n).At true false t.stream :=
      .of_behind ⟨there.here.1, Nat.lt_of_lt_of_le fewer here.here.2⟩
    exact ⟨true, false, loop b', loop' b', t, behind, (inner b').to_any, Gives.bind_eq eq _,
      Gives.bind_eq eq _, (walks b).suffix here eq, fun _ _ => fewer⟩

/-- A loop ends if each step reads what it finds. -/
theorem Ends.of_finds {step : β → Rule Nat (Option β)} (finds : ∀ b, Finds false (step b))
    (walks : ∀ n x b, Walks (.within n) x false x (step b) (step b)) : Ends step := by
  refine Descends.of_budget (fun budget b => iterateWithin step budget b) ?_ ?_ ?_
  · intro first budget
    funext b o s
    simp only [again, bind_apply, iterateWithin]
    cases step b o s with | mk result t => ?_
    rcases result with _ | _ | _ <;> rfl
  · exact fun n budget b => Walks.iterateWithin_walks (walks n true) budget b
  · exact fun n f f' inner b => again_walks finds (walks n false) inner b

namespace Finds

variable {y : Bool} {k : Kind} {r r' : Rule Nat (Option α)}

instance nothing : Finds y (Pure.pure none : Rule Nat (Option α)) := ⟨fun _ h => by cases h⟩

/-- What always reads a token. -/
instance (priority := low) of_walks [h : Walks .scanned false y true r r] : Finds y r :=
  ⟨fun here read => h.fewer here read rfl rfl⟩

instance ite {c : Prop} [Decidable c] [Finds y r] [Finds y r'] :
    Finds y (if c then r else r') := by
  split <;> infer_instance

instance current {f : Lexeme → Rule Nat (Option α)} [each : ∀ t, Finds y (f t)] :
    Finds y (Rule.current >>= f) := ⟨fun here read => (each _).fewer here read⟩

/-- What is found behind a rule that may read nothing. -/
instance (priority := low) behind {q : Rule Nat β} {f : β → Rule Nat (Option α)}
    [first : Walks .scanned false y false q q] [each : ∀ b, Finds false (f b)] :
    Finds y (q >>= f) where
  fewer here h := by
    obtain ⟨b, u, read, h⟩ := h.of_bind
    have le := Stream.length_le_of_suffix (first.suffix here read)
    exact Nat.lt_of_lt_of_le ((each b).fewer (first.reaches here read) h) le

instance ask {c : Rule Nat Bool} {f : Bool → Rule Nat (Option α)} [asks : Asks c]
    [each : ∀ b, Finds y (f b)] :
    Finds y (c >>= f) where
  fewer {o s a t} here h := by
    obtain ⟨b, found⟩ := asks.gives o s
    rw [Gives, found.bind_eq] at h
    exact (each b).fewer here h

/-- Where the answer vouches for the current token, that may be read. -/
instance (priority := high) test {c : Rule Nat Bool} [asks : Vouches c] [yes : Finds true r]
    [no : Finds y r'] :
    Finds y (c >>= fun b => if b = true then r else r') where
  fewer {o s a t} here h := by
    obtain ⟨b, found⟩ := asks.gives o s
    rw [Gives, found.bind_eq] at h
    cases b with
    | true => exact yes.fewer (here.of_firm (asks.firm here.here found)) h
    | false => exact no.fewer here h

/-- What stands behind a token. -/
instance (priority := high) accept [firm : Holds k.isFirm] [yes : Walks .scanned true false true r r]
    [no : Finds y r'] : Finds y (Rule.accept k >>= fun b => if b = true then r else r') where
  fewer {o s a t} here h := by
    by_cases is : s.stream.current.kind = k
    · have more := ((here.here : Scanned _).genuine_head.firm (is ▸ firm.eq)).more
      have nearer := Stream.nearer_next (here.here : Scanned _) more
      rw [Gives, (Gives.accept is).bind_eq] at h
      have there : Ground.scanned.At true false s.next.stream := .of_behind (Scanned.next here.here)
      exact Nat.lt_of_le_of_lt (Stream.length_le_of_suffix (yes.suffix there h)) nearer.fewer
    · rw [Gives, (Gives.accept_not is).bind_eq] at h
      exact no.fewer here h

end Finds

end Rule

end Ambient
