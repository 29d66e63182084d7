import Ambient.Proofs.Grammar.Gives

namespace Ambient

namespace Failure

/-- The furthest offset at which one of some failures lies. -/
def reach (fs : List Failure) : Nat := (fs.map position).foldr max 0

/-- The failures that got furthest, in order. -/
def furthest (fs : List Failure) : List Failure := fs.filter (·.position = reach fs)

/-- Any two of some failures tell the reader the same. -/
def Unanimous (fs : List Failure) : Prop := fs.Pairwise fun f g => f.agrees g = true

instance (fs : List Failure) : Decidable (Unanimous fs) :=
  inferInstanceAs (Decidable (fs.Pairwise fun f g => f.agrees g = true))

/-- What is reported where rules failed at a token: of the furthest failures the first one, which
stands for all if they agree; `fallback` in their place if two of them differ; and `fallback` at the
token itself if there are no rules. -/
def verdict (here : Lexeme) (fallback : Message) (fs : List Failure) : Failure :=
  match furthest fs with
  | [] => here.failure fallback []
  | f :: others => if Unanimous (f :: others) then f else ⟨f.position, fallback, []⟩

variable {f g h e : Failure} {fs : List Failure}

theorem agrees_refl (f : Failure) : f.agrees f = true := by simp [agrees]

theorem agrees_comm (f g : Failure) : f.agrees g = g.agrees f := by
  simp only [agrees, eq_comm]

theorem agrees_trans (fg : f.agrees g = true) (gh : g.agrees h = true) : f.agrees h = true := by
  simp only [agrees, Bool.and_eq_true, decide_eq_true_eq] at *
  exact ⟨fg.1.trans gh.1, fg.2.trans gh.2⟩

theorem reach_append (fs : List Failure) (e : Failure) :
    reach (fs ++ [e]) = max (reach fs) e.position := by
  induction fs with
  | nil => simp [reach]
  | cons f fs ih =>
    simp only [reach, List.cons_append, List.map_cons, List.foldr_cons] at ih ⊢
    rw [ih, Nat.max_assoc]

theorem position_le_reach (mem : f ∈ fs) : f.position ≤ reach fs := by
  induction mem with
  | head => exact Nat.le_max_left _ _
  | tail _ _ ih => exact Nat.le_trans ih (Nat.le_max_right _ _)

/-- Some failure lies at the furthest offset. -/
theorem exists_position_eq_reach (some : fs ≠ []) : ∃ f ∈ fs, f.position = reach fs := by
  induction fs with
  | nil => exact absurd rfl some
  | cons f fs ih =>
    have first : reach (f :: fs) = max f.position (reach fs) := rfl
    by_cases before : f.position ≤ reach fs
    · rw [first, Nat.max_eq_right before]
      cases fs with
      | nil => exact ⟨f, List.mem_cons_self, Nat.le_zero.mp before⟩
      | cons g fs =>
        obtain ⟨h, mem, eq⟩ := ih (List.cons_ne_nil g fs)
        exact ⟨h, List.mem_cons_of_mem f mem, eq⟩
    · rw [first, Nat.max_eq_left (Nat.le_of_not_le before)]
      exact ⟨f, List.mem_cons_self, rfl⟩

theorem furthest_ne_nil (some : fs ≠ []) : furthest fs ≠ [] := by
  obtain ⟨f, mem, eq⟩ := exists_position_eq_reach some
  exact List.ne_nil_of_mem (List.mem_filter.mpr ⟨mem, decide_eq_true eq⟩)

theorem position_of_mem_furthest (mem : f ∈ furthest fs) : f.position = reach fs :=
  of_decide_eq_true (List.mem_filter.mp mem).2

/-- One more failure joins the furthest ones, is behind them or takes their place. -/
theorem furthest_append (fs : List Failure) (e : Failure) :
    furthest (fs ++ [e]) =
      if e.position < reach fs then furthest fs
      else if e.position = reach fs then furthest fs ++ [e] else [e] := by
  unfold furthest
  rw [reach_append, List.filter_append]
  split_ifs with before same
  · rw [Nat.max_eq_left (Nat.le_of_lt before)]
    simp [Nat.ne_of_lt before]
  · rw [same, Nat.max_self]
    simp [same]
  · have behind : reach fs < e.position := by omega
    have none : fs.filter (fun f => f.position = e.position) = [] := by
      rw [List.filter_eq_nil_iff]
      intro f mem
      have le := position_le_reach mem
      simp only [decide_eq_true_eq]
      omega
    rw [Nat.max_eq_right (Nat.le_of_lt behind), none]
    simp

theorem unanimous_cons_append (f e : Failure) (others : List Failure) :
    Unanimous (f :: others ++ [e]) ↔ Unanimous (f :: others) ∧ e.agrees f = true := by
  unfold Unanimous
  rw [List.cons_append, List.pairwise_cons, List.pairwise_cons, List.pairwise_append]
  constructor
  · rintro ⟨first, rest, -, -⟩
    obtain ⟨firsts, last⟩ := List.forall_mem_append.mp first
    exact ⟨⟨firsts, rest⟩, (agrees_comm e f).trans (last e List.mem_cons_self)⟩
  · rintro ⟨⟨first, rest⟩, last⟩
    have last' : f.agrees e = true := (agrees_comm f e).trans last
    refine ⟨?_, rest, List.pairwise_singleton _ _, ?_⟩
    · exact List.forall_mem_append.mpr ⟨first, List.forall_mem_singleton.mpr last'⟩
    · intro g mem h hh
      obtain rfl := List.mem_singleton.mp hh
      exact agrees_trans ((agrees_comm g f).trans (first g mem)) last'

end Failure

namespace Rule

open Failure

variable {α : Type}

/-- What is kept of some failures: of the furthest ones the first, and whether two of them differ. -/
def Furthest.ofFailures (fs : List Failure) : Option Furthest :=
  match furthest fs with
  | [] => none
  | f :: others => some ⟨f, decide ¬ Unanimous (f :: others)⟩

/-- Taking in one more failure keeps what is to be kept of all of them. -/
theorem Furthest.add_ofFailures (fs : List Failure) (e : Failure) :
    some (add (ofFailures fs) e) = ofFailures (fs ++ [e]) := by
  have single : Unanimous [e] := List.pairwise_singleton _ _
  unfold ofFailures
  rw [furthest_append]
  cases fs with
  | nil =>
    have first : furthest [] = [] := rfl
    have not_before : ¬ e.position < reach [] := Nat.not_lt_zero _
    simp [first, add, single, not_before]
  | cons f fs =>
    obtain ⟨g, others, eq⟩ := List.exists_cons_of_ne_nil (furthest_ne_nil (List.cons_ne_nil f fs))
    have position : g.position = reach (f :: fs) :=
      position_of_mem_furthest (eq ▸ List.mem_cons_self)
    rw [eq]
    simp only [add, position]
    split_ifs with before same
    · rfl
    · have both := unanimous_cons_append g e others
      rw [List.cons_append] at both
      simp [both]
    · simp [single]

/-- How some rules end that are run one after another, each from the tokens where the first one
starts. -/
def outcomes : List (Rule Nat α) → Options → State Nat → List (Except Failure α × State Nat)
  | [], _, _ => []
  | r :: rules, o, s => r o s :: outcomes rules o { (r o s).2 with stream := s.stream }

def succeeded : Except Failure α × State Nat → Bool
  | (.ok _, _) => true
  | (.error _, _) => false

def failure? : Except Failure α × State Nat → Option Failure
  | (.ok _, _) => none
  | (.error e, _) => some e

/-- How many levels some rules leave open, where `depth` are open in front of them. -/
def depthBehind (depth : Nat) (l : List (Except Failure α × State Nat)) : Nat :=
  l.foldl (fun _ outcome => outcome.2.depth) depth

theorem alternativesFrom_ofFailures (before : List Failure) (rules : List (Rule Nat α))
    (fallback : Message) (o : Options) (s : State Nat) :
    alternativesFrom (Furthest.ofFailures before) fallback rules o s =
      match (outcomes rules o s).find? succeeded with
      | some outcome => outcome
      | none => (.error (verdict s.stream.current fallback
          (before ++ (outcomes rules o s).filterMap failure?)),
          ⟨s.stream, depthBehind s.depth (outcomes rules o s)⟩) := by
  induction rules generalizing before s with
  | nil =>
    simp only [outcomes, List.find?_nil, List.filterMap_nil, List.append_nil, verdict,
      Furthest.ofFailures]
    cases furthest before with
    | nil => rfl
    | cons f others =>
      simp only [alternativesFrom, Furthest.report]
      by_cases agree : Unanimous (f :: others) <;> simp [agree] <;> rfl
  | cons r rules ih =>
    simp only [alternativesFrom, outcomes]
    rcases r o s with ⟨e | a, t⟩
    · have rest := ih (before ++ [e]) { t with stream := s.stream }
      rw [← Furthest.add_ofFailures, List.append_assoc] at rest
      exact rest
    · rfl

/-- Alternatives do what the first rule does that succeeds, run from where they start. If there is
none they stay there and report what the furthest failures have in common. -/
theorem alternatives_eq_first_or_verdict (rules : List (Rule Nat α)) (fallback : Message) (o : Options)
    (s : State Nat) :
    alternatives rules fallback o s =
      match (outcomes rules o s).find? succeeded with
      | some outcome => outcome
      | none => (.error (verdict s.stream.current fallback
          ((outcomes rules o s).filterMap failure?)),
          ⟨s.stream, depthBehind s.depth (outcomes rules o s)⟩) :=
  alternativesFrom_ofFailures [] rules fallback o s

end Rule

end Ambient
