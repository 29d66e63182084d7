import Ambient.Proofs.Ground.Loops
import Ambient.Proofs.Spelling.Scan

namespace Ambient

variable {α β : Type}

/-- Whether the kind that comes next is one with `P`, where some words come next, and then a kind
with `Q`. -/
def Word.Starts (P : Kind → Prop) (ws : List Word) (Q : Kind → Prop) : Prop :=
  match ws with
  | [] => ∀ k, Q k → P k
  | w :: _ => P w.kind

namespace Word.Starts

variable {P Q : Kind → Prop} {w : Word} {ws vs : List Word}

theorem nil (le : ∀ k, Q k → P k) : Starts P [] Q := le

theorem cons (is : P w.kind) : Starts P (w :: ws) Q := is

theorem any : Starts (fun _ => True) ws Q := by
  cases ws with
  | nil => exact fun _ _ => trivial
  | cons w ws => exact trivial

theorem weaken {Q' : Kind → Prop} (h : Starts P ws Q) (le : ∀ k, Q' k → Q k) : Starts P ws Q' := by
  cases ws with
  | nil => exact fun k is => h k (le k is)
  | cons w ws => exact h

/-- What some words start with by themselves they start with in front of others. -/
theorem front (h : Starts P ws fun _ => True) : Starts P (ws ++ vs) Q := by
  cases ws with
  | nil =>
    cases vs with
    | nil => exact fun k _ => h k trivial
    | cons v vs => exact h v.kind trivial
  | cons w ws => exact h

theorem current {s u : Stream} (h : Starts P ws Q) (spells : s.Spells ws u)
    (ends : Q u.current.kind) : P s.current.kind := by
  cases ws with
  | nil => exact (show s = u from spells) ▸ h _ ends
  | cons w ws => exact spells.1.kind ▸ h

end Word.Starts

namespace Rule

/-- Wherever some words stand in front of a token whose kind is one with `ends`, and `levels` levels may
be opened, a rule reads these words, as `a`. -/
def Recites (r : Rule Nat α) (ws : List Word) (a : α) (levels : Nat) (ends : Kind → Prop) : Prop :=
  ∀ ⦃o : Options⦄ ⦃depth : Nat⦄ ⦃s u : Stream⦄, Scanned s.toList → s.Spells ws u →
    ends u.current.kind → depth + levels ≤ o.depthLimit → r.Gives o ⟨s, depth⟩ a ⟨u, depth⟩

namespace Recites

variable {r : Rule Nat α} {f : α → Rule Nat β} {a : α} {b : β} {w : Word} {ws vs : List Word}
variable {l l' : Nat} {P Q : Kind → Prop} {k : Kind}

theorem mono (h : r.Recites ws a l P) (le : ∀ k, Q k → P k) : r.Recites ws a l Q :=
  fun _ _ _ _ scanned spells ends room => h scanned spells (le _ ends) room

theorem deeper (h : r.Recites ws a l P) (le : l ≤ l') : r.Recites ws a l' P :=
  fun _ _ _ _ scanned spells ends room => h scanned spells ends (by omega)

theorem bind (first : r.Recites ws a l P) (others : (f a).Recites vs b l Q)
    (apart : Word.Starts P vs Q) : (r >>= f).Recites (ws ++ vs) b l Q := by
  intro o depth s u scanned spells ends room
  obtain ⟨t, here, behind⟩ := Stream.spells_append.mp spells
  have next : P t.current.kind := apart.current behind ends
  exact .bind (first scanned here next room) (others (here.scanned scanned) behind ends room)

/-- What stands behind some rules does not matter to them. -/
theorem andThen (first : r.Recites ws a l fun _ => True) (others : (f a).Recites vs b l Q) :
    (r >>= f).Recites (ws ++ vs) b l Q :=
  first.bind others .any

theorem pure : (pure a : Rule Nat α).Recites [] a l P := by
  rintro o depth s u - rfl - -
  exact .pure

/-- A rule that goes on with one that reads nothing. -/
theorem last (first : r.Recites ws a l P) (others : (f a).Recites [] b l P) :
    (r >>= f).Recites ws b l P := by
  have both := first.bind others fun _ ends => ends
  rwa [List.append_nil] at both

theorem map {g : α → β} (h : r.Recites ws a l P) : (g <$> r).Recites ws (g a) l P :=
  h.last pure

theorem ite_pos {c : Prop} [Decidable c] {r' : Rule Nat α} (is : c) (h : r.Recites ws a l P) :
    (if c then r else r').Recites ws a l P := by
  rwa [if_pos is]

theorem ite_neg {c : Prop} [Decidable c] {r' : Rule Nat α} (is_not : ¬ c) (h : r'.Recites ws a l P) :
    (if c then r else r').Recites ws a l P := by
  rwa [if_neg is_not]

/-- A rule that first asks a question, to which the answer is known. -/
theorem ask {c : Rule Nat Bool} {f : Bool → Rule Nat β} {value : Stream → Bool} {answer : Bool}
    (gives : ∀ o s, c.Gives o s (value s.stream) s)
    (known : ∀ ⦃s u : Stream⦄, s.Spells ws u → Q u.current.kind → value s = answer)
    (h : (f answer).Recites ws b l Q) : (c >>= f).Recites ws b l Q := by
  intro o depth s u scanned spells ends room
  have asked := gives o ⟨s, depth⟩
  rw [known spells ends] at asked
  exact .bind asked (h scanned spells ends room)

/-- A rule that looks at the next token, whatever it is. -/
theorem glance {f : Lexeme → Rule Nat β} (h : ∀ t : Lexeme, (f t).Recites ws b l Q) :
    (Rule.current >>= f).Recites ws b l Q :=
  fun _ _ _ _ scanned spells ends room => .bind .current (h _ scanned spells ends room)

/-- A rule that looks at the next token. -/
theorem current {f : Lexeme → Rule Nat β} (h : ∀ t : Lexeme, t.Spells w → (f t).Recites (w :: ws) b l Q) :
    (Rule.current >>= f).Recites (w :: ws) b l Q :=
  fun _ _ _ _ scanned spells ends room => .bind .current (h _ spells.1 scanned spells ends room)

theorem advance : Rule.advance.Recites [w] () l P := by
  rintro o depth s u - ⟨-, -, rfl⟩ - -
  exact .advance

theorem atKind_not : (atKind k).Recites [] false l (· ≠ k) := by
  rintro o depth s u - rfl ends -
  have here : (atKind k).Gives o ⟨s, depth⟩ _ ⟨s, depth⟩ := .atKind
  rwa [decide_eq_false ends] at here

/-- A rule that asks whether a token of kind `k` comes next, and finds one. -/
theorem atKind {f : Bool → Rule Nat β} (here : Word.Starts (· = k) ws Q) (h : (f true).Recites ws b l Q) :
    (Rule.atKind k >>= f).Recites ws b l Q := by
  have gives (o : Options) (s : State Nat) :
      (Rule.atKind k).Gives o s ((fun s : Stream => decide (s.current.kind = k)) s.stream) s := .atKind
  exact .ask gives (fun _ _ spells ends => decide_eq_true (here.current spells ends)) h

/-- A rule that asks whether a token of kind `k` comes next, and finds none. -/
theorem atKind_other {f : Bool → Rule Nat β} (other : Word.Starts (· ≠ k) ws Q)
    (h : (f false).Recites ws b l Q) : (Rule.atKind k >>= f).Recites ws b l Q :=
  .bind atKind_not h other

theorem accept : (accept k).Recites [.mark k] true l P := by
  rintro o depth s u - ⟨here, -, rfl⟩ - -
  exact .accept here.kind

theorem accept_not : (Rule.accept k).Recites [] false l (· ≠ k) := by
  rintro o depth s u - rfl ends -
  exact .accept_not ends

/-- A rule that reads a token of kind `k` if there is one, where there is none. -/
theorem accept_other {f : Bool → Rule Nat β} (other : Word.Starts (· ≠ k) ws Q)
    (h : (f false).Recites ws b l Q) : (Rule.accept k >>= f).Recites ws b l Q :=
  .bind accept_not h other

theorem expect : (expect k).Recites [.mark k] () l P := by
  rintro o depth s u - ⟨here, -, rfl⟩ - -
  exact .expect here.kind

theorem token? {m : Option Node} (mark : ∀ n ∈ m, n = .token k) :
    (Rule.token? k).Recites (Node.spelled? m) m l (· ≠ k) := by
  cases m with
  | none => exact accept_not.last pure
  | some n =>
    obtain rfl := mark n rfl
    exact accept.last pure

theorem optionalAfter_none {r : Rule Nat α} : (Rule.optionalAfter k r).Recites [] none l (· ≠ k) :=
  accept_not.last pure

theorem optionalAfter {r : Rule Nat Node} {m : Option Node} (h : ∀ n ∈ m, r.Recites n.spelled n l P) :
    (Rule.optionalAfter k r).Recites (Node.spelledBehind k m) m l fun x => x ≠ k ∧ P x := by
  cases m with
  | none => exact optionalAfter_none.mono fun _ ends => ends.1
  | some n =>
    refine mono (P := P) ?_ fun _ ends => ends.2
    exact accept.andThen (h n rfl).map

/-- A loop reads items one after another, if each of them ends where the next one starts. -/
theorem many {item : Rule Nat (Option α)} {as : List α} {f : α → List Word} {P : α → Kind → Prop}
    (each : ∀ a ∈ as, item.Recites (f a) (some a) l (P a)) (filled : ∀ a ∈ as, f a ≠ [])
    (apart : as.IsChain fun a b => Word.Starts (P a) (f b) Q)
    (ends : ∀ a ∈ as.getLast?, ∀ k, Q k → P a k) (stop : item.Recites [] none l Q) :
    (many item).Recites (as.flatMap f) as l Q := by
  intro o depth s u scanned spells last room
  have count : as.length ≤ (as.flatMap f).length := by
    clear each apart ends spells
    induction as with
    | nil => exact Nat.zero_le _
    | cons a as ih =>
      obtain ⟨here, others⟩ := List.forall_mem_cons.mp filled
      have rest := ih others
      have one := List.length_pos_iff.mpr here
      simp only [List.flatMap_cons, List.length_append, List.length_cons]
      omega
  have enough : as.length < s.toList.length := by
    have length := spells.length_eq
    simp only [Stream.toList, List.length_cons] at length ⊢
    omega
  refine Collects.gives ?_ enough
  clear count enough
  induction as generalizing s with
  | nil =>
    obtain rfl : s = u := spells
    exact .stop (stop scanned rfl last room)
  | cons a as ih =>
    obtain ⟨first, each⟩ := List.forall_mem_cons.mp each
    obtain ⟨-, filled⟩ := List.forall_mem_cons.mp filled
    obtain ⟨t, here, behind⟩ := Stream.spells_append.mp spells
    have next : Word.Starts (P a) (as.flatMap f) Q := by
      cases as with
      | nil => exact ends a rfl
      | cons b as =>
        obtain ⟨w, ws, eq⟩ := List.exists_cons_of_ne_nil (filled b List.mem_cons_self)
        have starts := (List.isChain_cons_cons.mp apart).1
        rw [eq] at starts
        rw [List.flatMap_cons, eq]
        exact starts
    have ends : ∀ b ∈ as.getLast?, ∀ k, Q k → P b k := by
      cases as with
      | nil => exact fun _ mem => absurd mem (Option.not_mem_none _)
      | cons b as => rwa [List.getLast?_cons_cons] at ends
    exact .more (first scanned here (next.current behind last) room)
      (ih each filled apart.tail ends (here.scanned scanned) behind)

/-- Items that all end in the same way. -/
theorem many_alike {item : Rule Nat (Option α)} {as : List α} {f : α → List Word}
    (each : ∀ a ∈ as, item.Recites (f a) (some a) l P)
    (starts : ∀ a ∈ as, ∃ w ws, f a = w :: ws ∧ P w.kind) (ends : ∀ k, Q k → P k)
    (stop : item.Recites [] none l Q) : (Rule.many item).Recites (as.flatMap f) as l Q := by
  refine many each ?_ ?_ (fun _ _ => ends) stop
  · intro a mem
    obtain ⟨w, ws, eq, -⟩ := starts a mem
    simp [eq]
  · refine (List.pairwise_of_forall_mem_list fun _ _ b mem => ?_).isChain
    obtain ⟨w, ws, eq, is⟩ := starts b mem
    rw [eq]
    exact is

/-- Elements with commas between them, none of which the closing token could be taken for. -/
theorem delimited {close : Kind} (trailing : Bool) {element : Rule Nat α} {f : α → List Word} {as : List α}
    (each : ∀ x ∈ a :: as, element.Recites (f x) x l P) (comma : P .commaToken)
    (differ : ∀ x ∈ a :: as, Word.Starts (· ≠ close) (f x) fun _ => True) :
    (delimited close trailing element).Recites
      (f a ++ as.flatMap fun x => .mark .commaToken :: f x) (a :: as) l
      fun k => k ≠ .commaToken ∧ P k := by
  obtain ⟨first, each⟩ := List.forall_mem_cons.mp each
  obtain ⟨-, differ⟩ := List.forall_mem_cons.mp differ
  have others : (Rule.many (Grammar.further close trailing element)).Recites
      (as.flatMap fun x => .mark .commaToken :: f x) as l fun k => k ≠ .commaToken ∧ P k := by
    refine many_alike (P := P) ?_ (fun x _ => ⟨_, _, rfl, comma⟩) (fun _ ends => ends.2) ?_
    · intro x mem
      have item : (do if trailing && (← Rule.atKind close) then return none else some <$> element :
          Rule Nat (Option α)).Recites (f x) (some x) l P :=
        .atKind_other ((differ x mem).weaken fun _ _ => trivial) (.ite_neg (by simp) (each x mem).map)
      exact .andThen accept item
    · refine mono (P := (· ≠ .commaToken)) ?_ fun _ ends => ends.1
      exact accept_not.last pure
  refine first.bind (others.last pure) ?_
  cases as with
  | nil => exact fun _ ends => ends.2
  | cons b as => exact comma

end Recites

end Rule

end Ambient
