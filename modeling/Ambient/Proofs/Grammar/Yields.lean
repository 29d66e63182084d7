import Ambient.Proofs.Grammar.Leads
import Ambient.Proofs.Lexeme.Genuine
import Ambient.Proofs.Tree.Height
import Ambient.Proofs.Tree.Lawful
import Ambient.Proofs.Tree.Words

namespace Ambient

open Node

/-- From `s` to `u` the given trees were read, one behind the other, from at least `k` tokens, none
of which is malformed. None of the trees is higher than `top`. -/
def Yields (top : Nat) (s : Stream) (k : Nat) (trees : List (Target × Node)) (u : Stream) : Prop :=
  Scanned s.toList → ∃ read, s.toList = read ++ u.toList ∧ k ≤ read.length ∧
    (∀ t ∈ read, t.error = none) ∧
    read.flatMap Lexeme.words = trees.flatMap (fun c => c.2.words) ∧
    ∀ c ∈ trees, c.2.Throughout Lawful c.1 ∧ c.2.height ≤ top

/-- All that a rule leads to is a tree for a place. A level that may be opened makes room for five
nodes: for a union, an intersection, an object type, a member of it and a parameter. -/
def Rule.Reads (r : Rule Nat Node) (extra : Nat) (t : Target) : Prop :=
  ∀ {d s n u}, r.Leads d s n u → Yields (5 * d + extra) s 1 [(t, n)] u

namespace Yields

variable {s t u : Stream} {top top' k l : Nat} {trees others : List (Target × Node)}

theorem refl (s : Stream) : Yields 0 s 0 [] s := fun _ => ⟨[], rfl, Nat.le_refl 0, by simp⟩

theorem weaken (h : Yields top s k trees u) (le : l ≤ k) (fits : top ≤ top') :
    Yields top' s l trees u := by
  intro scanned
  obtain ⟨read, eq, long, clean, words, lawful⟩ := h scanned
  exact ⟨read, eq, Nat.le_trans le long, clean, words,
    fun c hc => ⟨(lawful c hc).1, Nat.le_trans (lawful c hc).2 fits⟩⟩

theorem nothing (s : Stream) : Yields top s 0 [] s := (refl s).weaken (Nat.le_refl 0) (by omega)

theorem trans (h : Yields top s k trees t) (g : Yields top' t l others u) :
    Yields (max top top') s (k + l) (trees ++ others) u := by
  intro scanned
  obtain ⟨read, eq, long, clean, words, lawful⟩ := h scanned
  have scanned' : Scanned t.toList := (eq ▸ scanned).of_append (by simp [Stream.toList])
  obtain ⟨read', eq', long', clean', words', lawful'⟩ := g scanned'
  refine ⟨read ++ read', ?_, ?_, ?_, ?_, ?_⟩
  · rw [eq, eq', List.append_assoc]
  · rw [List.length_append]
    omega
  · exact List.forall_mem_append.mpr ⟨clean, clean'⟩
  · rw [List.flatMap_append, List.flatMap_append, words, words']
  · refine List.forall_mem_append.mpr ⟨fun c hc => ?_, fun c hc => ?_⟩
    · exact ⟨(lawful c hc).1, Nat.le_trans (lawful c hc).2 (Nat.le_max_left _ _)⟩
    · exact ⟨(lawful' c hc).1, Nat.le_trans (lawful' c hc).2 (Nat.le_max_right _ _)⟩

/-- Where something was read, fewer tokens are left. -/
theorem nearer (h : Yields top s 1 trees u) (scanned : Scanned s.toList) :
    Scanned u.toList ∧ u.ahead.length < s.ahead.length := by
  obtain ⟨read, eq, long, -⟩ := h scanned
  have lengths := congrArg List.length eq
  simp only [Stream.toList, List.length_append, List.length_cons] at lengths
  exact ⟨(eq ▸ scanned).of_append (by simp [Stream.toList]), by omega⟩

/-- A token that is well formed is read as trees with its words. -/
theorem next (more : s.current.kind ≠ .endOfFileToken)
    (clean : s.current.Genuine → s.current.error = none)
    (words : s.current.Genuine → s.current.words = trees.flatMap fun c => c.2.words)
    (lawful : ∀ c ∈ trees, c.2.Throughout Lawful c.1 ∧ c.2.height ≤ top) :
    Yields top s 1 trees s.next := by
  intro scanned
  have genuine := scanned.genuine_head
  refine ⟨[s.current], ?_, Nat.le_refl 1, ?_, ?_, lawful⟩
  · obtain ⟨t, ts, ahead⟩ := List.exists_cons_of_ne_nil (scanned.ahead_ne_nil more)
    simp [Stream.toList, Stream.next, ahead]
  · exact List.forall_mem_singleton.mpr (clean genuine)
  · rw [List.flatMap_singleton, words genuine]

end Yields

/-- Whether a token of kind `k` is neither a word nor malformed nor the end of a text. -/
def Kind.isMark (k : Kind) : Bool := !Lexeme.isWord k && k ≠ .unknown && k ≠ .endOfFileToken

theorem Kind.isMark_iff {k : Kind} : k.isMark = true ↔ k ≠ .identifier ∧ k ≠ .stringLiteral ∧
    k ≠ .numericLiteral ∧ k ≠ .unknown ∧ k ≠ .endOfFileToken := by
  simp [isMark, Lexeme.isWord, and_assoc]

theorem Kind.isMark_of_isAnyKeyword {k : Kind} (h : k.isAnyKeyword = true) : k.isMark = true := by
  rw [isMark_iff]
  refine ⟨?_, ?_, ?_, ?_, ?_⟩ <;> rintro rfl <;> exact absurd h (by decide)

namespace Lexeme

theorem words_of_isMark {t : Lexeme} (h : t.kind.isMark = true) : t.words = [] := by
  obtain ⟨identifier, string, number, -, -⟩ := Kind.isMark_iff.mp h
  simp [words, isWord, identifier, string, number]

theorem words_of_isWord {t : Lexeme} (h : isWord t.kind = true) : t.words = [t.value] := by
  rw [words, if_pos h]

end Lexeme

namespace Node

theorem ownHeight_le_one (n : Node) : n.ownHeight ≤ 1 := by
  unfold ownHeight
  split <;> decide

theorem height_le {n : Node} {top : Nat} (below : ∀ c ∈ n.children, c.2.height ≤ top) :
    n.height ≤ top + 1 := by
  have whole : n.height ≤ n.ownHeight + top := costliest_le below
  have own := n.ownHeight_le_one
  omega

theorem lawful_leaf {t : Target} {n : Node} (lawful : n.Lawful t) (leaf : n.children = []) :
    ∀ c ∈ [(t, n)], c.2.Throughout Lawful c.1 ∧ c.2.height ≤ 1 :=
  List.forall_mem_singleton.mpr ⟨⟨lawful, by simp [leaf]⟩, height_le (by simp [leaf])⟩

theorem words_leaf {n : Node} (leaf : n.children = []) : n.words = n.ownWords := by
  rw [words_eq, leaf]
  simp

theorem kind_accepted_of_kind? {n : Node} (h : n.shape.kind?.isSome = true) :
    n.shape.accepts n.kind = true := by
  cases n <;> first | rfl | simp [shape, Shape.kind?] at h

/-- The laws for a shape of which all nodes are of one kind. -/
theorem Lawful.of_shape {t : Target} {n : Node} (shape : Shape)
    (parts : ∀ p ∈ n.parts, p.Lawful (n.allowedModifiers t)) (composed : n.Composed t)
    (eq : n.shape = shape) (fits : shape ∈ t.shapes ∧ shape.kind?.isSome = true) : n.Lawful t :=
  ⟨eq ▸ fits.1, kind_accepted_of_kind? (eq ▸ fits.2), parts, composed⟩

theorem lawful_token {t : Target} {k : Kind} (accepted : Shape.token.accepts k = true)
    (mem : Shape.token ∈ t.shapes) : (Node.token k).Lawful t :=
  ⟨mem, accepted, by simp [parts], trivial⟩

theorem lawful_identifier {t : Target} (text : String) (comment : Option String)
    (mem : Shape.identifier ∈ t.shapes) : (Node.identifier text comment).Lawful t :=
  .of_shape .identifier (by simp [parts, Part.Lawful]) trivial rfl ⟨mem, rfl⟩

end Node

namespace Yields

variable {s u : Stream} {top top' k : Nat}

/-- A mark is read as trees without words. -/
theorem mark_as {trees : List (Target × Node)} (h : s.current.kind.isMark = true)
    (words : s.current.Genuine → trees.flatMap (fun c => c.2.words) = [])
    (lawful : ∀ c ∈ trees, c.2.Throughout Lawful c.1 ∧ c.2.height ≤ top) :
    Yields top s 1 trees s.next := by
  obtain ⟨-, string, number, unknown, more⟩ := Kind.isMark_iff.mp h
  refine next more (fun genuine => genuine.error_eq_none unknown string number) ?_ lawful
  intro genuine
  rw [Lexeme.words_of_isMark h, words genuine]

/-- A mark is read without any tree. -/
theorem mark (h : s.current.kind.isMark = true) : Yields 0 s 1 [] s.next :=
  mark_as h (fun _ => rfl) (by simp)

/-- Between two places the tree of a node is read if the trees below it are. -/
theorem tree {t : Target} {n : Node} (below : Yields top s k n.children u) (lawful : n.Lawful t)
    (own : n.ownWords = []) (fits : n.ownHeight + top ≤ top') :
    Yields top' s k [(t, n)] u := by
  intro scanned
  obtain ⟨read, eq, long, clean, words, throughout⟩ := below scanned
  refine ⟨read, eq, long, clean, ?_, ?_⟩
  · rw [words, List.flatMap_singleton, words_eq, own, List.nil_append]
  · have whole : n.height ≤ n.ownHeight + top := costliest_le fun c hc => (throughout c hc).2
    exact List.forall_mem_singleton.mpr ⟨⟨lawful, fun c hc => (throughout c hc).1⟩,
      Nat.le_trans whole fits⟩

theorem node {t : Target} {n : Node} (below : Yields top s k n.children u) (lawful : n.Lawful t)
    (own : n.ownWords = []) (fits : 0 < k ∧ top < top') : Yields top' s 1 [(t, n)] u :=
  (tree below lawful own (by have := n.ownHeight_le_one; omega)).weaken fits.1 (Nat.le_refl top')

/-- Brackets behind a type add nothing to its height. -/
theorem suffix {t : Target} {n : Node} (below : Yields top s k n.children u) (lawful : n.Lawful t)
    (own : n.ownWords = []) (is : n.ownHeight = 0) (fits : 0 < k ∧ top ≤ top') :
    Yields top' s 1 [(t, n)] u :=
  (tree below lawful own (by omega)).weaken fits.1 (Nat.le_refl top')

/-- A mark is read as a tree of its own. -/
theorem token {t : Target} (accepted : Shape.token.accepts s.current.kind = true)
    (h : s.current.kind.isMark = true) (mem : Shape.token ∈ t.shapes) :
    Yields 1 s 1 [(t, .token s.current.kind)] s.next :=
  node (mark h) (lawful_token accepted mem) rfl (by omega)

/-- A name or a keyword is read as an identifier. -/
theorem identifier {t : Target} (comment : Option String)
    (h : s.current.kind.isMemberName = true) (mem : Shape.identifier ∈ t.shapes) :
    Yields 1 s 1 [(t, .identifier s.current.value comment)] s.next := by
  have lawful := lawful_leaf (lawful_identifier s.current.value comment mem) rfl
  have words : (Node.identifier s.current.value comment).words =
      if (Kind.keyword? s.current.value).isNone then [s.current.value] else [] := words_leaf rfl
  have value : s.current.kind ≠ .stringLiteral → s.current.value = s.current.text := by
    intro no_string
    rw [Lexeme.value, if_neg no_string]
  simp only [Kind.isMemberName, Bool.or_eq_true, decide_eq_true_eq] at h
  rcases h with name | keyword
  · have isWord : Lexeme.isWord s.current.kind = true := by rw [name]; rfl
    refine next (by rw [name]; decide) ?_ ?_ lawful
    · exact fun genuine => genuine.error_eq_none (by rw [name]; decide) (by rw [name]; decide)
        (by rw [name]; decide)
    · intro genuine
      rw [List.flatMap_singleton, words, value (by rw [name]; decide), genuine.identifier name,
        Lexeme.words_of_isWord isWord, value (by rw [name]; decide)]
      rfl
  · have isMark := Kind.isMark_of_isAnyKeyword keyword
    refine mark_as isMark ?_ lawful
    intro genuine
    rw [List.flatMap_singleton, words, value (Kind.isMark_iff.mp isMark).2.1,
      genuine.keyword keyword]
    rfl

/-- A mark is read as an identifier that is a keyword. -/
theorem keyword {t : Target} {text : String} (h : s.current.kind.isMark = true)
    (keyword : (Kind.keyword? text).isNone = false)
    (mem : Shape.identifier ∈ t.shapes) :
    Yields 1 s 1 [(t, .identifier text none)] s.next := by
  refine mark_as h (fun _ => ?_) (lawful_leaf (lawful_identifier _ _ mem) rfl)
  rw [List.flatMap_singleton, words_leaf rfl, ownWords, if_neg (by rw [keyword]; decide)]

/-- A string or a number that is well formed is read as a tree of its own. -/
theorem literal {t : Target} {n : Node} (clean : s.current.error = none)
    (isWord : Lexeme.isWord s.current.kind = true) (own : n.ownWords = [s.current.value])
    (leaf : n.children = []) (lawful : n.Lawful t) : Yields 1 s 1 [(t, n)] s.next := by
  have more : s.current.kind ≠ .endOfFileToken := by
    intro last
    rw [last] at isWord
    exact absurd isWord (by decide)
  refine next more (fun _ => clean) (fun _ => ?_) (lawful_leaf lawful leaf)
  rw [List.flatMap_singleton, words_leaf leaf, own, Lexeme.words_of_isWord isWord]

end Yields

namespace Rule

variable {d extra : Nat} {s u : Stream} {k close : Kind} {t : Target} {r : Rule Nat Node}

theorem expect_yields {x : Unit} (h : (expect k).Leads d s x u) (mark : k.isMark = true) :
    Yields 0 s 1 [] u := by
  obtain ⟨rfl, rfl⟩ := h.expect
  exact .mark mark

theorem accept_yields {x : Bool} (h : (accept k).Leads d s x u)
    (mark : k.isMark = true) : Yields 0 s 0 [] u := by
  rcases h.accept with ⟨-, rfl, rfl⟩ | ⟨-, -, rfl⟩
  · exact (Yields.mark mark).weaken (Nat.zero_le 1) (by omega)
  · exact .refl s

theorem token?_yields {x : Option Node} (key : String) (h : (token? k).Leads d s x u)
    (mark : k.isMark = true) (accepted : Shape.token.accepts k = true) :
    Yields 1 s 0 (Part.token key x).places u := by
  rcases h.token? with ⟨rfl, rfl, rfl⟩ | ⟨rfl, rfl⟩
  · exact (Yields.token accepted mark (by decide)).weaken (Nat.zero_le 1) (by omega)
  · exact .nothing s

theorem semicolon_yields {x : Unit} (h : semicolon.Leads d s x u) : Yields 0 s 0 [] u := by
  rcases h.semicolon with ⟨is, rfl⟩ | rfl
  · exact (Yields.mark (by rw [is]; decide)).weaken (Nat.zero_le 1) (by omega)
  · exact .refl s

theorem optionalAfter_yields {x : Option Node} (key : String) [Balanced r] (hr : r.Reads extra t)
    (h : (optionalAfter k r).Leads d s x u) (mark : k.isMark = true) :
    Yields (5 * d + extra) s 0 (Part.node? key t x).places u := by
  rcases h.optionalAfter with ⟨n, rfl, rfl, read⟩ | ⟨rfl, rfl⟩
  · exact ((Yields.mark mark).trans (hr read)).weaken (Nat.zero_le _) (by omega)
  · exact .nothing s

/-- Repeating a rule reads as many trees as it finds. -/
theorem many_yields {top : Nat} {item : Rule Nat (Option Node)} [Balanced item]
    (one : ∀ {s x u}, item.Leads d s x u → Yields top s x.toList.length (x.toList.map (t, ·)) u)
    {l : List Node} (h : (many item).Leads d s l u) :
    Yields top s l.length (l.map (t, ·)) u := by
  refine Leads.many (P := fun l v => Yields top s l.length (l.map (t, ·)) v) ?_ ?_ h (.nothing s)
  · intro l n v w before step
    rw [List.map_append, List.length_append]
    exact (before.trans (one step)).weaken (Nat.le_refl _) (by omega)
  · intro l v w before step
    have nothing : Yields top v 0 [] w := one step
    have behind := before.trans nothing
    rw [List.append_nil] at behind
    exact behind.weaken (Nat.le_refl _) (by omega)

/-- Any number of trees, each behind a mark. -/
theorem manyAfter_yields {l : List Node} [Balanced r] (hr : r.Reads extra t)
    (h : (many (optionalAfter k r)).Leads d s l u) (mark : k.isMark = true) :
    Yields (5 * d + extra) s l.length (l.map (t, ·)) u := by
  refine many_yields ?_ h
  intro s x u step
  rcases step.optionalAfter with ⟨m, rfl, is, read⟩ | ⟨rfl, rfl⟩
  · exact ((Yields.mark (is ▸ mark)).trans (hr read)).weaken (Nat.le_add_left 1 1) (by omega)
  · exact .nothing s

theorem skipSemicolons_yields {x : Unit} (h : skipSemicolons.Leads d s x u) :
    Yields 0 s 0 [] u := by
  obtain ⟨l, v, loop, h⟩ := h.bind
  obtain ⟨-, rfl⟩ := h.pure
  refine Leads.many (P := fun _ v => Yields 0 s 0 [] v) ?_ ?_ loop (.refl s)
  all_goals
    intros
    rename_i before step
    obtain ⟨found, v, one, step⟩ := step.bind
    obtain ⟨-, rfl⟩ := step.pure
    exact before.trans (accept_yields one rfl)

theorem delimited_yields {trailing : Bool} {l : List Node} [Balanced r] (hr : r.Reads extra t)
    (h : (delimited close trailing r).Leads d s l u) :
    Yields (5 * d + extra) s 1 (l.map (t, ·)) u ∧ l ≠ [] := by
  obtain ⟨first, v, one, h⟩ := h.bind
  obtain ⟨others, w, loop, h⟩ := h.bind
  obtain ⟨rfl, rfl⟩ := h.pure
  have y : Yields (5 * d + extra) v others.length (others.map (t, ·)) w := by
    refine many_yields ?_ loop
    intro s x u step
    obtain ⟨found, v, comma, step⟩ := step.bind
    rcases comma.accept with ⟨rfl, is, rfl⟩ | ⟨rfl, -, rfl⟩
    · have y := Yields.mark (s := s) (by rw [is]; decide)
      obtain ⟨closing, w, here, step⟩ := step.of_true.bind
      obtain ⟨-, rfl⟩ := here.atKind
      rcases step.noneOr with ⟨rfl, -, rfl⟩ | ⟨m, rfl, read⟩
      · exact y.weaken (Nat.zero_le 1) (by omega)
      · exact (y.trans (hr read)).weaken (Nat.le_add_left 1 1) (by omega)
    · obtain ⟨rfl, rfl⟩ := step.of_false.pure
      exact .nothing s
  exact ⟨((hr one).trans y).weaken (by omega) (by omega), by simp⟩

end Rule

end Ambient
