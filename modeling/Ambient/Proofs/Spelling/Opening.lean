import Ambient.Proofs.Spelling.Written

namespace Ambient

/-- Kinds with which no type starts. -/
def noTypeStart : List Kind := [
  .barToken, .ampersandToken, .closeBracketToken, .greaterThanToken, .dotDotDotToken, .colonToken,
  .questionToken, .isKeyword, .assertsKeyword]

/-- Kinds that say of a word in front of them that it starts no type. -/
def labelEnds : List Kind := [.colonToken, .questionToken, .isKeyword]

/-- A word and those behind it can be the start of a type. -/
structure Word.Opens (w : Word) (ws : List Word) : Prop where
  start : w.kind ∉ noTypeStart
  second : w.kind.isMemberName = true → ∀ v ∈ ws.head?, v.kind ∉ labelEnds

theorem Word.Opens.single {w : Word} (start : w.kind ∉ noTypeStart) : w.Opens [] :=
  ⟨start, fun _ _ mem => absurd mem (Option.not_mem_none _)⟩

theorem Word.Opens.append {w : Word} {ws vs : List Word} (h : w.Opens ws)
    (apart : ∀ v ∈ vs.head?, v.kind ∉ labelEnds) : w.Opens (ws ++ vs) := by
  refine ⟨h.start, fun member v mem => ?_⟩
  cases ws with
  | nil => exact apart v mem
  | cons v' ws => exact h.second member v mem

namespace Node

variable {n : Node} {k : Kind}

open Word

theorem kind_name {text : String} (h : IsToken .identifier text) : (name text).kind = .identifier := by
  rw [name, keyword?_eq_none h]
  rfl

theorem IsName.eq_name (h : n.IsName) :
    ∃ text, n = .identifier text none ∧ (name text).kind = .identifier := by
  obtain ⟨text, token, rfl⟩ := h
  exact ⟨text, rfl, kind_name token⟩

theorem IsEntityName.spelled_eq (h : n.IsEntityName) : ∃ w ws, n.spelled = w :: ws ∧
    w.kind = .identifier ∧ ∀ v ∈ ws.head?, v.kind = .dotToken := by
  induction h with
  | name is =>
    obtain ⟨text, rfl, identifier⟩ := is.eq_name
    exact ⟨_, [], rfl, identifier, fun _ mem => absurd mem (Option.not_mem_none _)⟩
  | @qualified left right _ _ ih =>
    obtain ⟨w, ws, eq, identifier, dot⟩ := ih
    refine ⟨w, ws ++ .mark .dotToken :: right.spelled, by rw [spelled, eq]; rfl, identifier, ?_⟩
    intro v mem
    cases ws with
    | nil =>
      obtain rfl := Option.some.inj mem
      rfl
    | cons v' ws => exact dot v mem

/-- How the words of a type start. -/
structure Opening (n : Node) (w : Word) (ws : List Word) : Prop where
  spelled_eq : n.spelled = w :: ws
  opens : w.Opens ws
  tight : n.looseness = 0 → w.kind.isTypeOperator = false

/-- A mark that is no word says by itself that a type starts. -/
theorem Opening.of_mark {ws : List Word} (eq : n.spelled = .mark k :: ws)
    (start : k ∉ noTypeStart ∧ k.isMemberName = false ∧ k.isTypeOperator = false) :
    n.Opening (.mark k) ws := by
  obtain ⟨start, no_name, no_operator⟩ := start
  exact ⟨eq, ⟨start, fun member => absurd (no_name.symm.trans member) (by decide)⟩,
    fun _ => no_operator⟩

/-- A name starts a type where a dot or type arguments follow it, if anything does. -/
theorem Opening.of_identifier {w : Word} {ws : List Word} (eq : n.spelled = w :: ws)
    (identifier : w.kind = .identifier) (apart : ∀ v ∈ ws.head?, v.kind ∉ labelEnds) :
    n.Opening w ws := by
  refine ⟨eq, ⟨?_, fun _ => apart⟩, fun _ => ?_⟩
  all_goals
    rw [identifier]
    decide

/-- A type that starts with another one. -/
theorem Opening.append {m : Node} {w : Word} {ws vs : List Word} (h : m.Opening w ws)
    (eq : n.spelled = m.spelled ++ vs) (apart : ∀ v ∈ vs.head?, v.kind ∉ labelEnds)
    (tight : n.looseness = 0 → m.looseness = 0) : n.Opening w (ws ++ vs) :=
  ⟨by rw [eq, h.spelled_eq]; rfl, h.opens.append apart, fun zero => h.tight (tight zero)⟩

/-- Where only one modifier is allowed, there is none or that one. -/
theorem Modifies.single {ms : Option (List Node)} (h : Modifies [k] ms) :
    ms = none ∨ ms = some [.token k] := by
  obtain ⟨ks, nodup, allowed, rfl⟩ := h
  match ks, nodup with
  | [], _ => exact .inl rfl
  | [k'], _ =>
    obtain rfl := List.mem_singleton.mp (allowed k' List.mem_cons_self)
    exact .inr rfl
  | k' :: k'' :: ks, nodup =>
    have first := List.mem_singleton.mp (allowed k' List.mem_cons_self)
    have second := List.mem_singleton.mp (allowed k'' (List.mem_cons_of_mem _ List.mem_cons_self))
    simp [first, second] at nodup

theorem head_inAngles {ns : Option (List Node)} :
    ∀ v ∈ (spelledInAngles ns).head?, v.kind = .lessThanToken := by
  cases ns with
  | none => exact fun _ mem => absurd mem (Option.not_mem_none _)
  | some l =>
    rintro v ⟨⟩
    rfl

/-- Terms start with the first of them, behind which a separator stands. -/
theorem opening_terms {types : List Node} {separator : Kind} (several : 2 ≤ types.length)
    (each : ∀ m ∈ types, ∃ w ws, m.Opening w ws) (eq : n.spelled = spelledList separator types)
    (apart : separator ∉ labelEnds) (loose : n.looseness ≠ 0) : ∃ w ws, n.Opening w ws := by
  match types, several with
  | first :: second :: others, _ =>
    obtain ⟨w, ws, opening⟩ := each first List.mem_cons_self
    refine ⟨w, _, opening.append eq ?_ fun zero => absurd zero loose⟩
    rintro v ⟨⟩
    exact apart

end Node

namespace Written

open Word Node

variable {n : Node}

theorem opening (h : Written .type n) : ∃ w ws, n.Opening w ws := by
  generalize eq : Slot.type = slot at h
  induction h with
  | @keywordType k is =>
    have all : ∀ k ∈ Kind.keywordTypes, k ∉ noTypeStart ∧ k.isTypeOperator = false := by decide
    obtain ⟨start, no_operator⟩ := all k (List.contains_iff_mem.mp is)
    exact ⟨_, _, rfl, .single start, fun _ => no_operator⟩
  | thisType => exact ⟨_, _, rfl, .single (by decide), fun _ => rfl⟩
  | literalType is =>
    have start : Kind.stringLiteral ∉ noTypeStart ∧ Kind.numericLiteral ∉ noTypeStart := by decide
    rcases is with ⟨text, -, rfl⟩ | ⟨text, -, rfl⟩
    · exact ⟨_, _, rfl, .single start.1, fun _ => rfl⟩
    · exact ⟨_, _, rfl, .single start.2, fun _ => rfl⟩
  | booleanType is =>
    rcases is with rfl | rfl
    all_goals exact ⟨_, _, rfl, .single (by decide), fun _ => rfl⟩
  | @typeReference named arguments name =>
    obtain ⟨w, ws, eq, identifier, dot⟩ := name.spelled_eq
    refine ⟨w, ws ++ spelledInAngles arguments, .of_identifier (by rw [spelled, eq]; rfl) identifier ?_⟩
    intro v mem
    have next : v.kind = .dotToken ∨ v.kind = .lessThanToken := by
      cases ws with
      | nil => exact .inr (head_inAngles v mem)
      | cons => exact .inl (dot v mem)
    rcases next with is | is
    all_goals
      rw [is]
      decide
  | @typeQuery named arguments name =>
    obtain ⟨w, ws, eq, identifier, dot⟩ := name.spelled_eq
    refine ⟨_, _, rfl, ⟨by decide, fun _ v mem => ?_⟩, fun _ => rfl⟩
    rw [eq] at mem
    obtain rfl := Option.some.inj mem
    rw [identifier]
    decide
  | parenthesizedType => exact ⟨_, _, .of_mark rfl (by decide)⟩
  | arrayType _ tight ih =>
    obtain ⟨w, ws, opening⟩ := ih rfl
    refine ⟨w, _, opening.append rfl ?_ fun _ => tight⟩
    rintro v ⟨⟩
    decide
  | indexedAccessType _ tight _ ih =>
    obtain ⟨w, ws, opening⟩ := ih rfl
    refine ⟨w, _, opening.append rfl ?_ fun _ => tight⟩
    rintro v ⟨⟩
    decide
  | @typeOperator k type is _ _ ih =>
    obtain ⟨w, ws, opening⟩ := ih rfl
    have operators : ∀ k, k.isTypeOperator = true → k ∉ noTypeStart := by
      intro k is
      simp only [Kind.isTypeOperator, Bool.or_eq_true, decide_eq_true_eq] at is
      rcases is with (rfl | rfl) | rfl
      all_goals decide
    have ends : ∀ k ∈ labelEnds, k ∈ noTypeStart := by decide
    refine ⟨_, _, rfl, ⟨operators k is, fun _ v mem => ?_⟩, fun zero => absurd zero Nat.one_ne_zero⟩
    rw [opening.spelled_eq] at mem
    obtain rfl := Option.some.inj mem
    exact fun label => opening.opens.start (ends _ label)
  | intersectionType several _ _ ih =>
    exact opening_terms several (fun m mem => ih m mem rfl) rfl (by decide) (Nat.succ_ne_zero _)
  | unionType several _ _ ih =>
    exact opening_terms several (fun m mem => ih m mem rfl) rfl (by decide) (Nat.succ_ne_zero _)
  | @functionType typeParameters parameters _ _ _ =>
    cases typeParameters with
    | some l => exact ⟨_, _, .of_mark rfl (by decide)⟩
    | none =>
      cases parameters with
      | none => exact ⟨_, _, .of_mark rfl (by decide)⟩
      | some l => exact ⟨_, _, .of_mark rfl (by decide)⟩
  | @constructorType modifiers typeParameters parameters result abstract _ _ =>
    rcases abstract.single with rfl | rfl
    · refine ⟨_, _, rfl, ⟨by decide, fun _ v mem => ?_⟩, fun _ => rfl⟩
      cases typeParameters with
      | some l =>
        obtain rfl := Option.some.inj mem
        decide
      | none =>
        cases parameters with
        | none | some l =>
          obtain rfl := Option.some.inj mem
          decide
    · refine ⟨_, _, rfl, ⟨by decide, fun _ v mem => ?_⟩, fun _ => rfl⟩
      obtain rfl := Option.some.inj mem
      decide
  | tupleType => exact ⟨_, _, .of_mark rfl (by decide)⟩
  | typeLiteral => exact ⟨_, _, .of_mark rfl (by decide)⟩
  | mappedType => exact ⟨_, _, .of_mark rfl (by decide)⟩
  | _ => cases eq

end Written

end Ambient
