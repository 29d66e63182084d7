import Ambient.Proofs.Grammar.Prefix
import Ambient.Proofs.Parse.Termination

namespace Ambient

namespace Rule

variable {β : Type} {o : Options} {s t : State Nat} {e : Failure} {step : β → Rule Nat (Option β)}
  {b b' : β}

/-- A balanced rule and what goes on behind it. -/
theorem Gives.split {α : Type} {r : Rule Nat α} [Balanced r] {f : α → Rule Nat β} {first : Stream}
    {depth : Nat} (h : (r >>= f).Gives o ⟨first, depth⟩ b t) :
    ∃ a v, r.Gives o ⟨first, depth⟩ a ⟨v, depth⟩ ∧ (f a).Gives o ⟨v, depth⟩ b t := by
  obtain ⟨a, v, read, behind⟩ := h.of_bind
  have kept : v = ⟨v.stream, depth⟩ := Balanced.ok_eq read
  exact ⟨a, v.stream, kept ▸ read, kept ▸ behind⟩

/-- A rule stops at a place that was still to come. -/
theorem Gives.suffix {α : Type} {r : Rule Nat α} {a : α} (h : r.Gives o s a t)
    (walks : Walks .scanned false false false r r) (scanned : Scanned s.stream.toList) :
    t.stream.toList <:+ s.stream.toList :=
  have start := ⟨scanned, nofun, nofun⟩
  walks.suffix start h

theorem Fails.iterate (h : (step b).Fails o s e) : (iterate step b).Fails o s e := by
  rcases eq : step b o s with ⟨x, t⟩
  obtain rfl : x = .error e := (congrArg Prod.fst eq).symm.trans h
  have loop : iterateWithin step s.stream.toList b o s = (.error e, t) := by
    rw [Stream.toList, iterateWithin, eq]
  exact congrArg Prod.fst loop

/-- A loop fails as it does behind one more round. -/
theorem Ends.fails_next (ends : Ends step) (scanned : Scanned s.stream.toList)
    (found : (step b).Gives o s (some b') t) (rest : (iterate step b').Fails o t e) :
    (iterate step b).Fails o s e := by
  have round : (again step (iterate step) b).Fails o s e := .behind found rest
  have unrolled := ends s.stream.ahead.length (iterate step) (fun _ _ _ _ _ => rfl) b o s scanned
    (Nat.le_refl _)
  rwa [Fails, unrolled] at round

end Rule

theorem Scanned.of_suffix {s v : Stream} (scanned : Scanned s.toList) (h : v.toList <:+ s.toList) :
    Scanned v.toList := by
  obtain ⟨before, eq⟩ := h
  exact (eq ▸ scanned).of_append (List.cons_ne_nil _ _)

theorem Stream.toList_next {s : Stream} (scanned : Scanned s.toList)
    (more : s.current.kind ≠ .endOfFileToken) : s.next.toList = s.ahead := by
  obtain ⟨t, ts, ahead⟩ := List.exists_cons_of_ne_nil (scanned.ahead_ne_nil more)
  simp only [next, ahead, toList]

/-- A place in scanned tokens. -/
structure Stream.Row (s : Stream) : Prop where
  scanned : Scanned s.toList
  chain : s.toList.IsChain Lexeme.Before

namespace Stream.Row

variable {s v : Stream}

theorem ofText (text : String) : (Stream.ofText text).Row where
  scanned := Stream.toList_ofText text ▸ scanned_lexemes text
  chain := Stream.toList_ofText text ▸ isChain_lexemes text

theorem of_suffix (h : s.Row) (further : v.toList <:+ s.toList) : v.Row :=
  ⟨h.scanned.of_suffix further, h.chain.suffix further⟩

/-- Tokens further on start further on. -/
theorem start_le (h : s.Row) (further : v.toList <:+ s.toList) :
    s.current.start ≤ v.current.start := by
  let rises (t u : Lexeme) : Prop := t.start ≤ u.start
  have : Trans rises rises rises := ⟨Nat.le_trans⟩
  have rising : (s.current :: s.ahead).Pairwise rises :=
    List.isChain_iff_pairwise.mp (h.chain.imp fun _ _ => Lexeme.Before.start_le)
  rcases List.mem_cons.mp (further.subset (List.mem_cons_self : v.current ∈ v.toList)) with
    same | behind
  · exact Nat.le_of_eq (congrArg Lexeme.start same.symm)
  · exact (List.pairwise_cons.mp rising).1 _ behind

theorem start_lt (h : s.Row) (firm : s.current.kind.isFirm = true) (further : v.toList <:+ s.ahead) :
    s.current.start < v.current.start := by
  obtain ⟨unknown, -, -, more⟩ := Kind.ne_of_isFirm firm
  have behind := Stream.toList_next h.scanned more
  rw [← behind] at further
  have le := (h.of_suffix s.suffix_next).start_le further
  have pair : (s.current :: s.next.current :: s.next.ahead).IsChain Lexeme.Before :=
    (congrArg (s.current :: ·) behind) ▸ h.chain
  have before := (List.isChain_cons_cons.mp pair).1
  have apart : s.current.start ≠ s.next.current.start := fun eq =>
    unknown (before.unclosed (before.start_eq_iff.mp eq)).1
  exact Nat.lt_of_lt_of_le (Nat.lt_of_le_of_ne before.start_le apart) le

end Stream.Row

namespace Grammar

open Rule

variable {o : Options} {depth : Nat} {s t u : Stream} {n : Node}

theorem type_apply (o : Options) (s : State Nat) :
    type o s = nested (unionType (typeWithin s.stream.ahead)) o s := rfl

theorem parameter_suffix (scanned : Scanned s.toList)
    (read : (parameter type).Gives o ⟨s, depth⟩ n ⟨t, depth⟩) : t.toList <:+ s.toList :=
  (nodesRead.ofParameter o _ n _ scanned read).suffix

theorem parameter_not_close (read : (parameter type).Gives o ⟨s, depth⟩ n ⟨t, depth⟩) :
    s.current.kind ≠ .closeParenToken := by
  intro close
  obtain ⟨ms, v, h1, h⟩ := (leads_of_gives read).bind
  obtain ⟨ks, modifiers, -⟩ := modifiers_read h1
  cases modifiers with
  | cons mem _ _ => exact absurd (close ▸ mem) (by decide)
  | nil =>
    obtain ⟨dots, v, h2, h⟩ := h.bind
    rcases h2.token? with ⟨-, is, -⟩ | ⟨-, rfl⟩
    · exact absurd (is.symm.trans close) (by decide)
    · obtain ⟨declared, v, h3, -⟩ := h.bind
      obtain ⟨this, v, h4, h3⟩ := h3.bind
      rcases h4.accept with ⟨-, is, -⟩ | ⟨rfl, -, rfl⟩
      · exact absurd (is.symm.trans close) (by decide)
      · obtain ⟨_, _, here, h3⟩ := h3.of_false.bind
        obtain ⟨rfl, rfl⟩ := here.current
        rcases h3.ite with ⟨named, -⟩ | ⟨-, h3⟩
        · exact absurd (close ▸ named) (by decide)
        · exact h3.failHere

theorem parameter_room (read : (parameter type).Gives o ⟨s, depth⟩ n ⟨t, depth⟩) :
    depth < o.depthLimit := by
  obtain ⟨modifiers, v, -, h⟩ := read.split
  obtain ⟨dots, v, -, h⟩ := h.split
  obtain ⟨declared, v, -, h⟩ := h.split
  obtain ⟨mark, v, -, h⟩ := h.split
  obtain ⟨question, v, -, h⟩ := h.split
  by_cases both : (dots.isSome && question.isSome) = true
  · rw [if_pos both] at h
    cases h
  · rw [if_neg both] at h
    obtain ⟨_, v, -, h⟩ := h.split
    obtain ⟨_, v, inner, -⟩ := h.split
    rw [Gives, type_apply] at inner
    exact (Gives.of_nested inner).1

theorem listedParameter_gives (read : (parameter type).Gives o ⟨s, depth⟩ n ⟨t, depth⟩)
    (plain : isRest n = false) : (listedParameter type).Gives o ⟨s, depth⟩ n ⟨t, depth⟩ :=
  .bind .current (.bind read (.bind .atKind (.ite_neg (by simp [plain]) .pure)))

theorem listedParameter_fails (read : (parameter type).Gives o ⟨s, depth⟩ n ⟨t, depth⟩)
    (rest : isRest n = true) (more : t.current.kind ≠ .closeParenToken) :
    (listedParameter type).Fails o ⟨s, depth⟩ ⟨s.current.start, .restParameterNotLast, []⟩ :=
  .behind .current (.behind read (.behind .atKind (.ite_pos (by simp [rest, more]) .fail)))

/-- From `s` to `u` parameters are read with commas between them, each of which starts at some
token. -/
inductive ReadsParameters (o : Options) (depth : Nat) : Stream → List (Lexeme × Node) → Stream → Prop
  | last {s t : Stream} {n : Node} (read : (parameter type).Gives o ⟨s, depth⟩ n ⟨t, depth⟩) :
      ReadsParameters o depth s [(s.current, n)] t
  | more {s t u : Stream} {n : Node} {l : List (Lexeme × Node)}
      (read : (parameter type).Gives o ⟨s, depth⟩ n ⟨t, depth⟩)
      (comma : t.current.kind = .commaToken) (others : ReadsParameters o depth t.next l u) :
      ReadsParameters o depth s ((s.current, n) :: l) u

namespace ReadsParameters

variable {l before after : List (Lexeme × Node)} {p : Lexeme × Node} {first : Lexeme}

/-- The first parameter, and those behind the comma if it is not the last one. -/
theorem head (h : ReadsParameters o depth s ((first, n) :: l) u) : s.current = first ∧
    ∃ t, (parameter type).Gives o ⟨s, depth⟩ n ⟨t, depth⟩ ∧
      (l ≠ [] → t.current.kind = .commaToken ∧ ReadsParameters o depth t.next l u) := by
  cases h with
  | last read => exact ⟨rfl, _, read, fun some => absurd rfl some⟩
  | more read comma others => exact ⟨rfl, _, read, fun _ => ⟨comma, others⟩⟩

/-- Parameters start at places that are still to come. -/
theorem exists_suffix (h : ReadsParameters o depth s l u) (scanned : Scanned s.toList) (mem : p ∈ l) :
    ∃ v : Stream, v.current = p.1 ∧ v.toList <:+ s.toList := by
  induction h with
  | last read =>
    obtain rfl := List.mem_singleton.mp mem
    exact ⟨_, rfl, List.suffix_refl _⟩
  | @more s t u n l read comma others ih =>
    have suffix := t.suffix_next.trans (parameter_suffix scanned read)
    rcases List.mem_cons.mp mem with rfl | mem
    · exact ⟨_, rfl, List.suffix_refl _⟩
    · obtain ⟨v, is, further⟩ := ih (scanned.of_suffix suffix) mem
      exact ⟨v, is, further.trans suffix⟩

theorem start_lt (h : ReadsParameters o depth s.next l u) (row : s.Row)
    (firm : s.current.kind.isFirm = true) (mem : p ∈ l) : s.current.start < p.1.start := by
  obtain ⟨v, is, further⟩ := h.exists_suffix row.scanned.next mem
  have behind := Stream.toList_next row.scanned (Kind.ne_of_isFirm firm).2.2.2
  exact is ▸ row.start_lt firm (behind ▸ further)

/-- Parameters have types, so that there may be one more level. -/
theorem room (h : ReadsParameters o depth s l u) : depth < o.depthLimit := by
  cases h with
  | last read => exact parameter_room read
  | more read _ _ => exact parameter_room read

/-- A further parameter, behind a comma. -/
theorem furtherParameter_some {m : Node} {q : Stream}
    (comma : t.current.kind = .commaToken)
    (read : (parameter type).Gives o ⟨t.next, depth⟩ m ⟨q, depth⟩) (plain : isRest m = false) :
    (furtherParameter type).Gives o ⟨t, depth⟩ (some m) ⟨q, depth⟩ := by
  have here : t.current.kind ≠ .closeParenToken := by
    rw [comma]
    decide
  exact .bind .atKind (.ite_neg (mt of_decide_eq_true here) (.bind (.expect comma) (.bind .atKind
    (.ite_neg (mt of_decide_eq_true (parameter_not_close read))
      (.map (listedParameter_gives read plain))))))

/-- The loop over further parameters fails at the first misplaced rest parameter. -/
theorem further_fails (h : ReadsParameters o depth t.next (before ++ (first, n) :: after) u)
    (scanned : Scanned t.toList) (comma : t.current.kind = .commaToken)
    (plain : ∀ q ∈ before, isRest q.2 = false) (rest : isRest n = true) (more : after ≠ [])
    (read : List Node) :
    (iterate (collect (furtherParameter type)) read).Fails o ⟨t, depth⟩
      ⟨first.start, .restParameterNotLast, []⟩ := by
  induction before generalizing t read with
  | nil =>
    obtain ⟨rfl, q, given, behind⟩ := h.head
    obtain ⟨comma', -⟩ := behind more
    have here : t.current.kind ≠ .closeParenToken := by
      rw [comma]
      decide
    have there : q.current.kind ≠ .closeParenToken := by
      rw [comma']
      decide
    refine .iterate (.bind ?_)
    exact .behind .atKind (.ite_neg (mt of_decide_eq_true here) (.behind (.expect comma) (.behind .atKind
      (.ite_neg (mt of_decide_eq_true (parameter_not_close given))
        (.map (listedParameter_fails given rest there))))))
  | cons p before ih =>
    obtain ⟨-, q, given, behind⟩ := h.head
    obtain ⟨comma', others⟩ := behind (by simp)
    obtain ⟨first_plain, plain⟩ := List.forall_mem_cons.mp plain
    have scanned' := scanned.next.of_suffix (parameter_suffix scanned.next given)
    exact ends_furtherParameter.fails_next scanned
      (.bind (furtherParameter_some comma given first_plain) .pure)
      (ih others scanned' comma' plain (p.2 :: read))

/-- A list of parameters fails at the first rest parameter that is not the last one. -/
theorem parameters_fails (h : ReadsParameters o depth s.next (before ++ (first, n) :: after) u)
    (scanned : Scanned s.toList) (paren : s.current.kind = .openParenToken)
    (plain : ∀ q ∈ before, isRest q.2 = false) (rest : isRest n = true) (more : after ≠ []) :
    (parameters type).Fails o ⟨s, depth⟩ ⟨first.start, .restParameterNotLast, []⟩ := by
  refine .behind (.expect paren) ?_
  cases before with
  | nil =>
    obtain ⟨rfl, q, given, behind⟩ := h.head
    have there : q.current.kind ≠ .closeParenToken := by
      rw [(behind more).1]
      decide
    exact .behind (.accept_not (parameter_not_close given))
      (.ite_neg (by decide) (.bind (listedParameter_fails given rest there)))
  | cons p before =>
    obtain ⟨-, q, given, behind⟩ := h.head
    obtain ⟨comma, others⟩ := behind (by simp)
    obtain ⟨first_plain, plain⟩ := List.forall_mem_cons.mp plain
    have scanned' := scanned.next.of_suffix (parameter_suffix scanned.next given)
    have loop := further_fails others scanned' comma plain rest more []
    have others_fail : (many (furtherParameter type)).Fails o ⟨q, depth⟩
        ⟨first.start, .restParameterNotLast, []⟩ := .map loop
    exact .behind (.accept_not (parameter_not_close given)) (.ite_neg (by decide)
      (.behind (listedParameter_gives given first_plain) (.bind others_fail)))

end ReadsParameters

end Grammar

end Ambient
