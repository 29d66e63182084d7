import Mathlib.Data.List.Forall2
import Ambient.Proofs.Grammar.Balanced

namespace Ambient

/-- A counter that also notes down how many levels there have been: every number that was set, the
last one first. -/
structure Ledger where
  count : Nat
  passed : List Nat
deriving DecidableEq

namespace Ledger

def set (t : Ledger) (n : Nat) : Ledger := ⟨n, n :: t.passed⟩

instance : Counter Ledger where
  count := count
  enter t := t.set (t.count + 1)
  leave t := t.set (t.count - 1)
  back before now := now.set before.count

/-- What is noted in `now` follows on `before`, and on the way there were never fewer levels than in
`before` nor more than `limit`. -/
structure Within (before now : Ledger) (limit : Nat) : Prop where
  least : before.count ≤ now.count
  most : now.count ≤ limit
  passed : ∃ more, now.passed = more ++ before.passed ∧ ∀ n ∈ more, before.count ≤ n ∧ n ≤ limit

namespace Within

variable {t u v : Ledger} {limit n : Nat}

theorem refl (below : t.count ≤ limit) : t.Within t limit where
  least := Nat.le_refl _
  most := below
  passed := ⟨[], rfl, List.forall_mem_nil _⟩

theorem trans (h : t.Within u limit) (g : u.Within v limit) : t.Within v limit where
  least := Nat.le_trans h.least g.least
  most := g.most
  passed := by
    obtain ⟨more, eq, between⟩ := h.passed
    obtain ⟨further, eq', between'⟩ := g.passed
    refine ⟨further ++ more, ?_, ?_⟩
    · rw [eq', eq, List.append_assoc]
    · intro n mem
      rcases List.mem_append.mp mem with mem | mem
      · have least := (between' n mem).1
        exact ⟨Nat.le_trans h.least least, (between' n mem).2⟩
      · exact between n mem

theorem set (h : t.Within u limit) (least : t.count ≤ n) (most : n ≤ limit) :
    t.Within (u.set n) limit where
  least := least
  most := most
  passed := by
    obtain ⟨more, eq, between⟩ := h.passed
    refine ⟨n :: more, ?_, ?_⟩
    · rw [Ledger.set, eq, List.cons_append]
    · exact List.forall_mem_cons.mpr ⟨⟨least, most⟩, between⟩

end Within

end Ledger

/-- The same place without what was noted down. -/
def State.plain (s : State Ledger) : State Nat := ⟨s.stream, s.depth.count⟩

namespace Rule

/-- A rule that notes its levels down, next to the same rule without notes: it comes to the same, and
the notes say that the levels of its start stay open and that there are no more than allowed. -/
class Noted {α : Type} (noted : Rule Ledger α) (r : Rule Nat α) : Prop where
  plain_eq : ∀ (o : Options) (s : State Ledger), ((noted o s).1, (noted o s).2.plain) = r o s.plain
  within : ∀ (o : Options) (s : State Ledger), s.depth.count ≤ o.depthLimit →
    s.depth.Within (noted o s).2.depth o.depthLimit

namespace Noted

variable {α β : Type} {r' : Rule Ledger α} {r : Rule Nat α}

/-- A rule that leaves the levels alone. -/
theorem of_still (plain_eq : ∀ o s, ((r' o s).1, (r' o s).2.plain) = r o s.plain)
    (still : ∀ o s, (r' o s).2.depth = s.depth) : Noted r' r where
  plain_eq := plain_eq
  within o s below := by
    rw [still]
    exact .refl below

instance pure (a : α) : Noted (pure a) (pure a) := of_still (fun _ _ => rfl) (fun _ _ => rfl)

instance bind {f' : α → Rule Ledger β} {f : α → Rule Nat β} [first : Noted r' r]
    [each : ∀ a, Noted (f' a) (f a)] : Noted (r' >>= f') (r >>= f) where
  plain_eq o s := by
    have eq := first.plain_eq o s
    simp only [bind_apply]
    rcases ran : r' o s with ⟨e | a, t⟩
    · rw [← eq, ran]
    · rw [← eq, ran]
      exact (each a).plain_eq o t
  within o s below := by
    have start := first.within o s below
    rw [bind_apply]
    rcases ran : r' o s with ⟨e | a, t⟩
    · rw [ran] at start
      exact start
    · rw [ran] at start
      exact start.trans ((each a).within o t start.most)

theorem bind_of {f' : α → Rule Ledger β} {f : α → Rule Nat β} [Noted r' r]
    (each : ∀ a, Noted (f' a) (f a)) : Noted (r' >>= f') (r >>= f) := bind

instance map (g : α → β) [Noted r' r] : Noted (g <$> r') (g <$> r) :=
  bind_of fun a => pure (g a)

instance ite {q' : Rule Ledger α} {q : Rule Nat α} (c : Prop) [Decidable c] [Noted r' r]
    [Noted q' q] : Noted (if c then r' else q') (if c then r else q) := by
  split <;> infer_instance

instance fail (f : Failure) : Noted (fail f : Rule Ledger α) (fail f) :=
  of_still (fun _ _ => rfl) (fun _ _ => rfl)

instance failHere (m : Message) (arguments : List String) :
    Noted (failHere m arguments : Rule Ledger α) (failHere m arguments) :=
  of_still (fun _ _ => rfl) (fun _ _ => rfl)

instance current : Noted current current := of_still (fun _ _ => rfl) (fun _ _ => rfl)

instance advance : Noted advance advance := of_still (fun _ _ => rfl) (fun _ _ => rfl)

instance documentationHere : Noted documentationHere documentationHere :=
  of_still (fun _ _ => rfl) (fun _ _ => rfl)

instance atKind (k : Kind) : Noted (atKind k) (atKind k) := by unfold Rule.atKind; infer_instance

instance atKindOnLine (k : Kind) : Noted (atKindOnLine k) (atKindOnLine k) := by
  unfold Rule.atKindOnLine; infer_instance

instance accept (k : Kind) : Noted (accept k) (accept k) := by unfold Rule.accept; infer_instance

instance token? (k : Kind) : Noted (token? k) (token? k) := by unfold Rule.token?; infer_instance

instance expect (k : Kind) : Noted (expect k) (expect k) := by unfold Rule.expect; infer_instance

instance optionalAfter (k : Kind) [Noted r' r] :
    Noted (optionalAfter k r') (optionalAfter k r) := by
  unfold Rule.optionalAfter; infer_instance

instance semicolon : Noted semicolon semicolon := by unfold Rule.semicolon; infer_instance

instance lookAhead [h : Noted r' r] : Noted (lookAhead r') (lookAhead r) where
  plain_eq o s := by
    simp only [Rule.lookAhead, ← h.plain_eq]
    rfl
  within o s below := h.within o s below

theorem alternativesFrom {rules' : List (Rule Ledger α)} {rules : List (Rule Nat α)}
    (best : Option Furthest) (fallback : Message) (each : List.Forall₂ Noted rules' rules) :
    Noted (alternativesFrom best fallback rules') (alternativesFrom best fallback rules) := by
  induction each generalizing best with
  | nil => cases best <;> unfold Rule.alternativesFrom <;> infer_instance
  | @cons r' r rules' rules first others ih =>
    constructor
    · intro o s
      have eq := first.plain_eq o s
      simp only [Rule.alternativesFrom]
      rcases ran : r' o s with ⟨e | a, t⟩
      · rw [← eq, ran]
        exact (ih _).plain_eq o { t with stream := s.stream }
      · rw [← eq, ran]
    · intro o s below
      have start := first.within o s below
      simp only [Rule.alternativesFrom]
      rcases ran : r' o s with ⟨e | a, t⟩
      · rw [ran] at start
        exact start.trans ((ih _).within o { t with stream := s.stream } start.most)
      · rw [ran] at start
        exact start

theorem alternatives {rules' : List (Rule Ledger α)} {rules : List (Rule Nat α)}
    {fallback : Message} (each : List.Forall₂ Noted rules' rules) :
    Noted (alternatives rules' fallback) (alternatives rules fallback) :=
  alternativesFrom none fallback each

/-- A level is opened only where there are fewer than allowed. -/
theorem enterLevel_cases (o : Options) (s : State Ledger) :
    (s.depth.count < o.depthLimit ∧
      enterLevel o s = (.ok (), { s with depth := s.depth.set (s.depth.count + 1) })) ∨
    (o.depthLimit ≤ s.depth.count ∧
      enterLevel o s = (.error (s.stream.current.failure .typeExpected []), s)) := by
  rcases Nat.lt_or_ge s.depth.count o.depthLimit with free | full
  · exact .inl ⟨free, if_neg (Nat.not_le.mpr free)⟩
  · exact .inr ⟨full, if_pos full⟩

instance enterLevel : Noted enterLevel enterLevel where
  plain_eq o s := by
    rcases enterLevel_cases o s with ⟨free, entered⟩ | ⟨full, refused⟩
    · rw [entered, enterLevel_of_lt free]
      rfl
    · rw [refused, enterLevel_of_le full]
      rfl
  within o s below := by
    rcases enterLevel_cases o s with ⟨free, entered⟩ | ⟨-, refused⟩
    · rw [entered]
      exact (Ledger.Within.refl below).set (Nat.le_succ _) free
    · rw [refused]
      exact .refl below

instance closingLevels [h : Noted r' r] : Noted (closingLevels r') (closingLevels r) where
  plain_eq o s := by
    simp only [Rule.closingLevels, ← h.plain_eq]
    rfl
  within o s below := (h.within o s below).set (Nat.le_refl _) below

theorem leavingLevel_eq (h : Noted r' r) (o : Options) (s : State Ledger) :
    ((leavingLevel r' o s).1, (leavingLevel r' o s).2.plain) = leavingLevel r o s.plain := by
  simp only [leavingLevel, ← h.plain_eq]
  rfl

theorem count_eq (h : Noted r' r) [balanced : Balanced r] (o : Options) (s : State Ledger) :
    (r' o s).2.depth.count = s.depth.count := by
  have eq := congrArg (fun ran => ran.2.depth) (h.plain_eq o s)
  exact eq.trans (balanced.depth_eq o s.plain)

/-- The level that is closed behind a rule is the one that was opened for it, since the rule itself
closes all levels that it opens. -/
instance nested [h : Noted r' r] [Balanced r] : Noted (nested r') (nested r) where
  plain_eq o s := by
    simp only [Rule.nested, bind_apply]
    rcases enterLevel_cases o s with ⟨free, entered⟩ | ⟨full, refused⟩
    · rw [entered, enterLevel_of_lt free]
      exact h.leavingLevel_eq o _
    · rw [refused, enterLevel_of_le full]
      rfl
  within o s below := by
    simp only [Rule.nested, bind_apply]
    rcases enterLevel_cases o s with ⟨free, entered⟩ | ⟨-, refused⟩
    · let t : State Ledger := { s with depth := s.depth.set (s.depth.count + 1) }
      have opened : s.depth.Within t.depth o.depthLimit :=
        (Ledger.Within.refl below).set (Nat.le_succ _) free
      have inner := opened.trans (h.within o t free)
      have closed : (r' o t).2.depth.count - 1 = s.depth.count := by
        rw [h.count_eq]
        rfl
      rw [entered]
      exact inner.set (Nat.le_of_eq closed.symm) (Nat.le_trans (Nat.le_of_eq closed) below)
    · rw [refused]
      exact .refl below

instance bounded {f' : Budget → Rule Ledger α} {f : Budget → Rule Nat α}
    [h : ∀ budget, Noted (f' budget) (f budget)] : Noted (bounded f') (bounded f) where
  plain_eq o s := (h s.stream.toList).plain_eq o s
  within o s below := (h s.stream.toList).within o s below

instance iterateWithin {step' : β → Rule Ledger (Option β)} {step : β → Rule Nat (Option β)}
    [h : ∀ b, Noted (step' b) (step b)] (budget : Budget) (b : β) :
    Noted (iterateWithin step' budget b) (iterateWithin step budget b) := by
  induction budget generalizing b with
  | nil => exact pure b
  | cons _ budget ih =>
    constructor
    · intro o s
      have eq := (h b).plain_eq o s
      simp only [Rule.iterateWithin]
      rcases ran : step' b o s with ⟨e | _ | b', t⟩
      · rw [← eq, ran]
      · rw [← eq, ran]
      · rw [← eq, ran]
        exact (ih b').plain_eq o t
    · intro o s below
      have start := (h b).within o s below
      simp only [Rule.iterateWithin]
      rcases ran : step' b o s with ⟨e | _ | b', t⟩
      · rw [ran] at start
        exact start
      · rw [ran] at start
        exact start
      · rw [ran] at start
        exact start.trans ((ih b').within o t start.most)

instance iterate {step' : β → Rule Ledger (Option β)} {step : β → Rule Nat (Option β)}
    [∀ b, Noted (step' b) (step b)] (b : β) : Noted (iterate step' b) (iterate step b) := bounded

instance many {item' : Rule Ledger (Option α)} {item : Rule Nat (Option α)} [Noted item' item] :
    Noted (many item') (many item) := by unfold Rule.many; infer_instance

instance delimited {element' : Rule Ledger α} {element : Rule Nat α} (close : Kind)
    (trailing : Bool) [Noted element' element] :
    Noted (delimited close trailing element') (delimited close trailing element) := by
  unfold Rule.delimited; infer_instance

instance skipSemicolons : Noted skipSemicolons skipSemicolons := by
  unfold Rule.skipSemicolons; infer_instance

end Noted

end Rule

end Ambient
