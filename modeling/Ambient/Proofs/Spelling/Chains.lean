import Ambient.Proofs.Spelling.Opening
import Ambient.Proofs.Spelling.Recites

namespace Ambient

variable {α : Type}

namespace Rule

/-- From `a` at `s` some steps give a new value each, and lead to `b` at `t`. -/
inductive Climbs (step : α → Rule Nat (Option α)) (o : Options) :
    Nat → α → State Nat → α → State Nat → Prop where
  | refl {a : α} {s : State Nat} : Climbs step o 0 a s a s
  | snoc {k : Nat} {a b c : α} {s t u : State Nat} (before : Climbs step o k a s b t)
      (next : (step b).Gives o t (some c) u) : Climbs step o (k + 1) a s c u

variable {step : α → Rule Nat (Option α)} {first : Rule Nat α} {o : Options}

namespace Climbs

variable {k : Nat} {a b : α} {s t u : State Nat}

theorem iterateWithin (h : Climbs step o k a s b t) (budget : Budget) (enough : k ≤ budget.length) :
    iterateWithin step budget a o s = iterateWithin step (budget.drop k) b o t := by
  induction h with
  | refl => rfl
  | @snoc k a b c s t u _ next ih =>
    have left : budget.drop k = budget[k] :: budget.drop (k + 1) := List.drop_eq_getElem_cons enough
    rw [ih (Nat.le_of_succ_le enough), left, Rule.iterateWithin, next]

theorem iterate (h : Climbs step o k a s b t) (stop : (step b).Gives o t none u)
    (enough : k < s.stream.toList.length) : (iterate step a).Gives o s b u := by
  have all := h.iterateWithin s.stream.toList (Nat.le_of_lt enough)
  rw [List.drop_eq_getElem_cons enough, Gives.iterateWithin_stop stop] at all
  exact all

end Climbs

/-- Wherever some words stand in front of a token whose kind is one with `ends`, `first` reads the first
of them, and then `height` steps read the others, as `a`. -/
def Chains (first : Rule Nat α) (step : α → Rule Nat (Option α)) (ws : List Word) (a : α)
    (height levels : Nat) (ends : Kind → Prop) : Prop :=
  ∀ ⦃o : Options⦄ ⦃depth : Nat⦄ ⦃s u : Stream⦄, Scanned s.toList → s.Spells ws u →
    ends u.current.kind → depth + levels ≤ o.depthLimit →
      ∃ b t, first.Gives o ⟨s, depth⟩ b t ∧ t.depth = depth ∧
        Climbs step o height b t a ⟨u, depth + height⟩ ∧
          height + u.toList.length ≤ t.stream.toList.length

/-- A rule that opens one level and leaves it open. -/
def Rises (r : Rule Nat α) (ws : List Word) (a : α) (levels : Nat) (ends : Kind → Prop) : Prop :=
  ∀ ⦃o : Options⦄ ⦃depth : Nat⦄ ⦃s u : Stream⦄, Scanned s.toList → s.Spells ws u →
    ends u.current.kind → depth + levels ≤ o.depthLimit →
      r.Gives o ⟨s, depth⟩ a ⟨u, depth + 1⟩

namespace Chains

variable {w : Word} {ws vs : List Word} {a b : α} {k l l' : Nat} {P Q : Kind → Prop}

theorem base (h : first.Recites ws a l P) : Chains first step ws a 0 l P := by
  intro o depth s u scanned spells ends room
  exact ⟨a, _, h scanned spells ends room, rfl, .refl, Nat.le_of_eq (Nat.zero_add _)⟩

theorem snoc (h : Chains first step ws a k l P) (next : (step a).Rises (w :: vs) (some b) l' Q)
    (apart : P w.kind) (room : k + l' ≤ l) :
    Chains first step (ws ++ w :: vs) b (k + 1) l Q := by
  intro o depth s u scanned spells ends levels
  obtain ⟨m, here, behind⟩ := Stream.spells_append.mp spells
  have start : P m.current.kind := behind.1.kind ▸ apart
  obtain ⟨c, t, first, kept, climbs, long⟩ := h scanned here start levels
  have above : depth + k + l' ≤ o.depthLimit := by omega
  have more := next (here.scanned scanned) behind ends above
  refine ⟨c, t, first, kept, .snoc climbs more, ?_⟩
  have length := behind.length_eq
  rw [List.length_cons] at length
  omega

/-- The steps are over where there is none more. -/
theorem close (h : Chains first step ws a k l P)
    (stop : ∀ (o : Options) (s : State Nat), P s.stream.current.kind → (step a).Gives o s none s) :
    (first >>= fun b => closingLevels (iterate step b)).Recites ws a l P := by
  intro o depth s u scanned spells ends room
  obtain ⟨b, ⟨t, _⟩, first, rfl, climbs, long⟩ := h scanned spells ends room
  have enough : k < t.toList.length := by
    have some_left : 0 < u.toList.length := Nat.succ_pos _
    simp only at long
    omega
  exact .bind first (.closingLevels (climbs.iterate (stop o _ ends) enough))

end Chains

end Rule

namespace Grammar

open Rule Node

variable {n : Node} {w : Word} {text : String} {l : Nat} {P : Kind → Prop}

theorem value_of_spells {t : Lexeme} (h : t.Spells w) (no_string : w.kind ≠ .stringLiteral) :
    t.value = w.text := by
  rw [Lexeme.value, if_neg (h.kind ▸ no_string), h.text]

theorem identifierOf_recites {allowed : Kind → Bool} (is : allowed (Word.name text).kind = true)
    (no_string : (Word.name text).kind ≠ .stringLiteral) :
    (identifierOf allowed none).Recites [.name text] (.identifier text none) l P := by
  refine .current fun t here => .ite_pos (here.kind ▸ is) ?_
  have value : t.value = text := value_of_spells here no_string
  rw [value]
  exact .andThen .advance .pure

theorem name_recites (h : n.IsName) : (name none).Recites n.spelled n l P := by
  obtain ⟨text, rfl, identifier⟩ := h.eq_name
  exact identifierOf_recites (by rw [identifier]; rfl) (by rw [identifier]; decide)

theorem anyName_recites (h : n.IsName) : (anyName none).Recites n.spelled n l P := by
  obtain ⟨text, rfl, identifier⟩ := h.eq_name
  exact identifierOf_recites (by rw [identifier]; rfl) (by rw [identifier]; decide)

theorem literal?_recites (h : n.IsLiteral) : literal?.Recites n.spelled (some n) l P := by
  rcases h with ⟨text, -, rfl⟩ | ⟨text, -, rfl⟩
  · refine .current fun t here => .ite_neg (by simp [here.clean]) (.ite_pos here.kind ?_)
    rw [Word.value_string here.kind here.text here.clean]
    exact .andThen .advance .pure
  · refine .current fun t here => .ite_neg (by simp [here.clean]) ?_
    have value : t.value = text := value_of_spells here nofun
    have number : t.kind = .numericLiteral := here.kind
    rw [value]
    refine .ite_neg (by simp [number]) (.ite_pos number ?_)
    exact .andThen .advance .pure

theorem propertyName_recites (h : n.IsName ∨ n.IsLiteral) :
    (propertyName none).Recites n.spelled n l P := by
  rcases h with is | is
  · obtain ⟨text, rfl, identifier⟩ := is.eq_name
    refine .current fun t here => .ite_pos ?_ (anyName_recites is)
    rw [here.kind, identifier]
    rfl
  · have read := literal?_recites (l := l) (P := P) is
    rcases is with ⟨text, -, rfl⟩ | ⟨text, -, rfl⟩
    all_goals
      refine .current fun t here => .ite_neg ?_ (read.last .pure)
      rw [here.kind]
      exact Bool.false_ne_true

theorem dotted_rises {left right : Node} (last : right.IsName) :
    (dotted left).Rises (.mark .dotToken :: right.spelled) (some (.qualifiedName left right)) 1 P := by
  rintro o depth s u scanned ⟨here, -, behind⟩ ends room
  have dot : (atKind .dotToken).Gives o ⟨s, depth⟩ _ ⟨s, depth⟩ := .atKind
  rw [decide_eq_true (show s.current.kind = .dotToken from here.kind)] at dot
  have named : anyName.Gives o ⟨s.next, depth + 1⟩ right ⟨u, depth + 1⟩ :=
    anyName_recites (l := 0) last scanned.next behind ends room
  exact .bind dot (.ite_pos rfl (.bind (.enterLevel room) (.bind .advance (.bind named .pure))))

theorem dotted_stops (left : Node) (o : Options) (s : State Nat)
    (other : s.stream.current.kind ≠ .dotToken) : (dotted left).Gives o s none s := by
  have asked : (atKind .dotToken).Gives o s _ s := .atKind
  rw [decide_eq_false other] at asked
  exact .bind asked (.ite_neg (by decide) .pure)

theorem entityName_chains (h : n.IsEntityName) (room : n.openLevels ≤ l) (P : Kind → Prop) :
    ∃ k ≤ n.openLevels, Chains name dotted n.spelled n k l P := by
  induction h generalizing l P with
  | name is => exact ⟨0, Nat.zero_le _, .base (name_recites is)⟩
  | @qualified left right _ last ih =>
    have way : 1 + left.openLevels ≤ (qualifiedName left right).openLevels :=
      way_le_tally (w := (1, left)) List.mem_cons_self
    have below : left.openLevels ≤ l := by omega
    obtain ⟨k, le, chains⟩ := ih below fun _ => True
    exact ⟨k + 1, by omega, chains.snoc (dotted_rises last) trivial (by omega)⟩

theorem entityName_recites (h : n.IsEntityName) (room : n.openLevels ≤ l) :
    entityName.Recites n.spelled n l (· ≠ .dotToken) := by
  obtain ⟨k, -, chains⟩ := entityName_chains h room (· ≠ .dotToken)
  exact chains.close (dotted_stops n)

end Grammar

end Ambient
