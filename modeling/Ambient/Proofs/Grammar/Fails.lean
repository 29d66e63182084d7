import Ambient.Proofs.Grammar.Furthest

namespace Ambient

theorem Lexeme.position_failure (t : Lexeme) (m : Message) (arguments : List String) :
    (t.failure m arguments).position = t.start := by
  unfold failure
  cases t.error <;> rfl

theorem Lexeme.failure_of_sound {t : Lexeme} (sound : t.error = none) (m : Message)
    (arguments : List String) : t.failure m arguments = ⟨t.start, m, arguments⟩ := by
  rw [failure, sound]

/-- A code stands for one message. -/
theorem Message.code_injective : Function.Injective code := by
  intro m m' same
  cases m <;> cases m' <;> first | rfl | cases same

namespace Failure

variable {here : Lexeme} {fallback : Message} {fs : List Failure} {e f : Failure}

theorem message_eq_of_agrees (h : f.agrees e = true) : f.message = e.message := by
  simp only [agrees, Bool.and_eq_true, decide_eq_true_eq] at h
  exact Message.code_injective h.1

/-- A verdict is one of the furthest failures, or the fallback in place of them if they differ. -/
theorem verdict_cases (here : Lexeme) (fallback : Message) (some : fs ≠ []) :
    (∃ e ∈ fs, e.position = reach fs ∧ (∀ f ∈ fs, f.position = reach fs → f.agrees e = true) ∧
      verdict here fallback fs = e) ∨
    verdict here fallback fs = ⟨reach fs, fallback, []⟩ := by
  unfold verdict
  cases eq : furthest fs with
  | nil => exact absurd eq (furthest_ne_nil some)
  | cons e others =>
    have first : e ∈ furthest fs := eq ▸ List.mem_cons_self
    have position := position_of_mem_furthest first
    dsimp only
    split_ifs with agree
    · refine .inl ⟨e, (List.mem_filter.mp first).1, position, fun f mem furthest => ?_, rfl⟩
      have among : f ∈ e :: others := eq ▸ List.mem_filter.mpr ⟨mem, decide_eq_true furthest⟩
      rcases List.mem_cons.mp among with rfl | among
      · exact agrees_refl f
      · exact (agrees_comm f e).trans ((List.pairwise_cons.mp agree).1 f among)
    · exact .inr (by rw [position])

/-- No failure gets further than the verdict. -/
theorem position_le_verdict (mem : f ∈ fs) : f.position ≤ (verdict here fallback fs).position := by
  have le := position_le_reach mem
  rcases verdict_cases here fallback (List.ne_nil_of_mem mem) with ⟨e, -, position, -, eq⟩ | eq
  · rw [eq, position]
    exact le
  · rw [eq]
    exact le

/-- A verdict that is no fallback tells what all failures tell that got as far. -/
theorem agrees_verdict (mem : f ∈ fs) (furthest : f.position = (verdict here fallback fs).position)
    (own : (verdict here fallback fs).message ≠ fallback) :
    f.agrees (verdict here fallback fs) = true := by
  rcases verdict_cases here fallback (List.ne_nil_of_mem mem) with ⟨e, -, position, agree, eq⟩ | eq
  · rw [eq] at furthest ⊢
    exact agree f mem (furthest.trans position)
  · exact absurd (congrArg message eq) own

/-- A failure that no other one reaches is the verdict. -/
theorem verdict_eq (mem : e ∈ fs) (most : ∀ f ∈ fs, f.position < e.position ∨ f = e) :
    verdict here fallback fs = e := by
  have le : reach fs = e.position := by
    obtain ⟨f, among, eq⟩ := exists_position_eq_reach (List.ne_nil_of_mem mem)
    have least := position_le_reach mem
    rcases most f among with before | rfl
    · omega
    · exact eq.symm
  have only : ∀ f ∈ furthest fs, f = e := fun f among => by
    have position := position_of_mem_furthest among
    refine (most f (List.mem_filter.mp among).1).resolve_left ?_
    omega
  unfold verdict
  cases eq : furthest fs with
  | nil => exact absurd eq (furthest_ne_nil (List.ne_nil_of_mem mem))
  | cons f others =>
    rw [eq] at only
    obtain ⟨rfl, rest⟩ := List.forall_mem_cons.mp only
    have agree : Unanimous (f :: others) := by
      refine List.pairwise_cons.mpr ⟨fun g among => ?_, ?_⟩
      · rw [rest g among]
        exact agrees_refl f
      · refine List.pairwise_of_forall_mem_list fun g among h among' => ?_
        rw [rest g among, rest h among']
        exact agrees_refl f
    exact if_pos agree

/-- Where two furthest failures differ the verdict is the fallback. -/
theorem verdict_contested (mem : e ∈ fs) (mem' : f ∈ fs) (same : f.position = e.position)
    (differ : f.message ≠ e.message) (most : ∀ g ∈ fs, g.position ≤ e.position) :
    verdict here fallback fs = ⟨e.position, fallback, []⟩ := by
  have reached : reach fs = e.position := by
    obtain ⟨g, among, eq⟩ := exists_position_eq_reach (List.ne_nil_of_mem mem)
    have le := most g among
    have least := position_le_reach mem
    omega
  rcases verdict_cases here fallback (List.ne_nil_of_mem mem) with ⟨g, -, -, agree, -⟩ | eq
  · have first := message_eq_of_agrees (agree e mem reached.symm)
    have second := message_eq_of_agrees (agree f mem' (same.trans reached.symm))
    exact absurd (second.trans first.symm) differ
  · rw [eq, reached]

end Failure

namespace Rule

variable {α β : Type}

/-- A rule fails with `e`, wherever it stops. -/
def Fails (r : Rule Nat α) (o : Options) (s : State Nat) (e : Failure) : Prop := (r o s).1 = .error e

variable {o : Options} {s t : State Nat} {a : α} {k : Kind} {e f : Failure}

namespace Fails

theorem unique {r : Rule Nat α} (h : r.Fails o s e) (g : r.Fails o s f) : e = f :=
  Except.error.inj (h.symm.trans g)

theorem not_gives {r : Rule Nat α} (h : r.Fails o s e) : ¬ r.Gives o s a t := fun g => by
  rw [Fails, g] at h
  cases h

theorem bind {r : Rule Nat α} {f : α → Rule Nat β} (h : r.Fails o s e) : (r >>= f).Fails o s e := by
  rcases eq : r o s with ⟨x, t⟩
  obtain rfl : x = .error e := (congrArg Prod.fst eq).symm.trans h
  exact congrArg Prod.fst (bind_error eq)

theorem behind {r : Rule Nat α} {f : α → Rule Nat β} (h : r.Gives o s a t) (g : (f a).Fails o t e) :
    (r >>= f).Fails o s e := by
  rw [Fails, h.bind_eq]
  exact g

theorem map {g : α → β} {r : Rule Nat α} (h : r.Fails o s e) : (g <$> r).Fails o s e := bind h

theorem ite_pos {c : Prop} [Decidable c] {r r' : Rule Nat α} (is : c) (h : r.Fails o s e) :
    (if c then r else r').Fails o s e := by
  rwa [if_pos is]

theorem ite_neg {c : Prop} [Decidable c] {r r' : Rule Nat α} (is_not : ¬ c) (h : r'.Fails o s e) :
    (if c then r else r').Fails o s e := by
  rwa [if_neg is_not]

theorem fail : (fail e : Rule Nat α).Fails o s e := rfl

theorem failHere {m : Message} {arguments : List String} :
    (failHere m arguments : Rule Nat α).Fails o s (s.stream.current.failure m arguments) := rfl

theorem expect (is_not : s.stream.current.kind ≠ k) :
    (expect k).Fails o s (s.stream.current.failure .tokenExpected [k.tokenText.getD "token"]) :=
  behind Gives.atKind (ite_neg (by simpa using is_not) failHere)

theorem semicolon (is_not : s.stream.current.kind ≠ .semicolonToken)
    (brace : s.stream.current.kind ≠ .closeBraceToken)
    (more : s.stream.current.kind ≠ .endOfFileToken) (line : s.stream.current.onNewLine = false) :
    semicolon.Fails o s (s.stream.current.failure .tokenExpected [";"]) := by
  rw [Fails, semicolon_apply, if_neg is_not, if_neg (by simp [brace, more, line])]

theorem nested {r : Rule Nat α} (below : s.depth < o.depthLimit)
    (h : r.Fails o ⟨s.stream, s.depth + 1⟩ e) : (nested r).Fails o s e := by
  have opened : Rule.enterLevel.Gives o s () ⟨s.stream, s.depth + 1⟩ := .enterLevel below
  have inner : (Rule.leavingLevel r).Fails o ⟨s.stream, s.depth + 1⟩ e := h
  exact behind opened inner

theorem nested_full {r : Rule Nat α} (full : o.depthLimit ≤ s.depth) :
    (Rule.nested r).Fails o s (s.stream.current.failure .typeExpected []) := by
  have closed : Rule.enterLevel.Fails o s (s.stream.current.failure .typeExpected []) := by
    rw [Fails, enterLevel_of_le full]
  exact bind closed

end Fails

/-- A rule gives something or fails. -/
theorem gives_or_fails (r : Rule Nat α) (o : Options) (s : State Nat) :
    (∃ a t, r.Gives o s a t) ∨ ∃ e, r.Fails o s e := by
  rcases eq : r o s with ⟨e | a, t⟩
  · exact .inr ⟨e, congrArg Prod.fst eq⟩
  · exact .inl ⟨a, t, eq⟩

section

variable {rules : List (Rule Nat α)} {fallback : Message}

/-- Of balanced rules each starts from where the first one does. -/
theorem outcomes_eq (balanced : ∀ r ∈ rules, Balanced r) :
    outcomes rules o s = rules.map fun r => r o s := by
  induction rules generalizing s with
  | nil => rfl
  | cons r rules ih =>
    obtain ⟨first, others⟩ := List.forall_mem_cons.mp balanced
    have kept : (⟨s.stream, (r o s).2.depth⟩ : State Nat) = s :=
      congrArg (State.mk s.stream) (first.depth_eq o s)
    rw [outcomes, List.map_cons, kept, ih others]

/-- Alternatives give what one of them gives, or they all fail and the verdict on their failures is
reported. -/
theorem alternatives_cases (balanced : ∀ r ∈ rules, Balanced r) (fallback : Message) (o : Options)
    (s : State Nat) :
    (∃ r ∈ rules, ∃ a t, r.Gives o s a t ∧ (alternatives rules fallback).Gives o s a t) ∨
    ∃ fs, (∀ r ∈ rules, ∃ f ∈ fs, r.Fails o s f) ∧ (∀ f ∈ fs, ∃ r ∈ rules, r.Fails o s f) ∧
      (alternatives rules fallback).Fails o s (Failure.verdict s.stream.current fallback fs) := by
  have all := alternativesFrom_ofFailures [] rules fallback o s
  rw [outcomes_eq balanced] at all
  cases found : (rules.map fun r => r o s).find? succeeded with
  | some outcome =>
    rw [found] at all
    have success := List.find?_some found
    obtain ⟨r, mem, rfl⟩ := List.mem_map.mp (List.mem_of_find?_eq_some found)
    rcases eq : r o s with ⟨e | a, t⟩
    · rw [eq] at success
      cases success
    · rw [eq] at all
      exact .inl ⟨r, mem, a, t, eq, all⟩
  | none =>
    rw [found] at all
    have failures {r : Rule Nat α} {f : Failure} : failure? (r o s) = some f ↔ r.Fails o s f := by
      rw [Fails]
      rcases r o s with ⟨e | a, t⟩ <;> simp [failure?]
    refine .inr ⟨_, fun r mem => ?_, fun f mem => ?_, congrArg Prod.fst all⟩
    · rcases gives_or_fails r o s with ⟨a, t, gives⟩ | ⟨f, fails⟩
      · have none := List.find?_eq_none.mp found _ (List.mem_map_of_mem mem)
        rw [show r o s = _ from gives] at none
        exact absurd rfl none
      · exact ⟨f, List.mem_filterMap.mpr ⟨_, List.mem_map_of_mem mem, failures.mpr fails⟩, fails⟩
    · obtain ⟨outcome, among, is⟩ := List.mem_filterMap.mp mem
      obtain ⟨r, mem, rfl⟩ := List.mem_map.mp among
      exact ⟨r, mem, failures.mp is⟩

/-- What one alternative fails with is reported if the others get no further, and say the same where
they get as far. -/
theorem alternatives_fails (balanced : ∀ r ∈ rules, Balanced r) {owner : Rule Nat α}
    (mem : owner ∈ rules) (h : owner.Fails o s e)
    (others : ∀ r ∈ rules, ∃ f, r.Fails o s f ∧ (f.position < e.position ∨ f = e)) :
    (alternatives rules fallback).Fails o s e := by
  rcases alternatives_cases balanced fallback o s with
    ⟨r, among, a, t, gives, -⟩ | ⟨fs, all, only, fails⟩
  · obtain ⟨f, refuses, -⟩ := others r among
    exact absurd gives refuses.not_gives
  · obtain ⟨e', among, again⟩ := all owner mem
    obtain rfl := h.unique again
    rwa [Failure.verdict_eq among fun f among => ?_] at fails
    obtain ⟨r, mem, refuses⟩ := only f among
    obtain ⟨f', refuses', most⟩ := others r mem
    exact refuses'.unique refuses ▸ most

/-- Two alternatives that get furthest and fail with different messages leave only the fallback to be
reported. -/
theorem alternatives_contested (balanced : ∀ r ∈ rules, Balanced r) {first second : Rule Nat α}
    (mem : first ∈ rules) (h : first.Fails o s e) (mem' : second ∈ rules) (h' : second.Fails o s f)
    (same : f.position = e.position) (differ : f.message ≠ e.message)
    (others : ∀ r ∈ rules, ∃ g, r.Fails o s g ∧ g.position ≤ e.position) :
    (alternatives rules fallback).Fails o s ⟨e.position, fallback, []⟩ := by
  rcases alternatives_cases balanced fallback o s with
    ⟨r, among, a, t, gives, -⟩ | ⟨fs, all, only, fails⟩
  · obtain ⟨g, refuses, -⟩ := others r among
    exact absurd gives refuses.not_gives
  · obtain ⟨e', among, again⟩ := all first mem
    obtain rfl := h.unique again
    obtain ⟨f', among', again'⟩ := all second mem'
    obtain rfl := h'.unique again'
    rwa [Failure.verdict_contested among among' same differ fun g among => ?_] at fails
    obtain ⟨r, mem, refuses⟩ := only g among
    obtain ⟨g', refuses', le⟩ := others r mem
    exact refuses'.unique refuses ▸ le

/-- What is reported lies at the furthest failure and tells what all failures tell that got as far,
if it is not the fallback. -/
theorem Fails.of_alternatives (balanced : ∀ r ∈ rules, Balanced r)
    (h : (Rule.alternatives rules fallback).Fails o s e) {r : Rule Nat α} (mem : r ∈ rules) :
    ∃ f, r.Fails o s f ∧ f.position ≤ e.position ∧
      (f.position = e.position → e.message ≠ fallback → f.agrees e = true) := by
  rcases alternatives_cases balanced fallback o s with
    ⟨_, _, a, t, -, gives⟩ | ⟨fs, all, -, fails⟩
  · exact absurd gives h.not_gives
  · obtain rfl := h.unique fails
    obtain ⟨f, among, refuses⟩ := all r mem
    exact ⟨f, refuses, Failure.position_le_verdict among, Failure.agrees_verdict among⟩

end

end Rule

end Ambient
