import Ambient.Proofs.Lexeme.Scans
import Ambient.Proofs.Parse.Options

namespace Ambient

namespace Lexeme

/-- What a parse sees of a token if it keeps no comments. -/
def visible (t : Lexeme) : Kind × String × Bool × Option Message :=
  (t.kind, t.value, t.onNewLine, t.error)

/-- Tokens that look the same. -/
def Resembles (t t' : Lexeme) : Prop := t.visible = t'.visible

namespace Resembles

variable {t u t' u' : Lexeme}

theorem parts (h : t.Resembles t') : t.kind = t'.kind ∧ t.value = t'.value ∧
    t.onNewLine = t'.onNewLine ∧ t.error = t'.error := by
  simpa [Resembles, visible] using h

theorem text_eq_nil (h : t.Resembles t') (before : t.Before u) (none : t.text = "") :
    t'.text = "" := by
  obtain ⟨kind, value, -⟩ := h.parts
  have unknown := (before.unclosed none).1
  have unknown' : t'.kind = .unknown := kind ▸ unknown
  rw [Lexeme.value, Lexeme.value, if_neg (by rw [unknown]; decide),
    if_neg (by rw [unknown']; decide)] at value
  rw [← value, none]

/-- Two tokens have one place in both texts or in neither. -/
theorem start_eq_iff (h : t.Resembles t') (before : t.Before u) (before' : t'.Before u') :
    t.start = u.start ↔ t'.start = u'.start := by
  rw [before.start_eq_iff, before'.start_eq_iff]
  exact ⟨h.text_eq_nil before, Resembles.text_eq_nil (Eq.symm h) before'⟩

end Resembles

theorem forall₂_resembles {ts ts' : List Lexeme} :
    ts.Forall₂ Resembles ts' ↔ ts.map visible = ts'.map visible := by
  rw [← List.forall₂_eq_eq_eq, List.forall₂_map_left_iff, List.forall₂_map_right_iff]
  rfl

end Lexeme

/-- Two offsets in each of two texts, which come in the same order in both. -/
structure Rises (p q : Nat × Nat) : Prop where
  left : p.1 ≤ q.1
  right : p.2 ≤ q.2
  eq_iff : p.1 = q.1 ↔ p.2 = q.2

namespace Rises

instance : Trans Rises Rises Rises where
  trans h g := by
    obtain ⟨left, right, eq⟩ := h
    obtain ⟨left', right', eq'⟩ := g
    exact ⟨Nat.le_trans left left', Nat.le_trans right right', by omega⟩

/-- The offsets at which tokens start that correspond. -/
def starts (ts ts' : List Lexeme) : List (Nat × Nat) :=
  List.zipWith (fun t t' => (t.start, t'.start)) ts ts'

theorem exists_of_mem_starts {ts ts' : List Lexeme} {p p' : Nat} (h : (p, p') ∈ starts ts ts') :
    ∃ (i : Nat) (t t' : Lexeme), ts[i]? = some t ∧ ts'[i]? = some t' ∧ p = t.start ∧
      p' = t'.start := by
  obtain ⟨i, found⟩ := List.mem_iff_getElem?.mp h
  obtain ⟨t, t', is, is', eq⟩ := List.getElem?_zipWith_eq_some.mp found
  obtain ⟨rfl, rfl⟩ := Prod.mk.inj eq
  exact ⟨i, t, t', is, is', rfl, rfl⟩

theorem isChain_starts {ts ts' : List Lexeme} (h : ts.IsChain Lexeme.Before)
    (h' : ts'.IsChain Lexeme.Before) (same : ts.Forall₂ Lexeme.Resembles ts') :
    (starts ts ts').IsChain Rises := by
  induction same with
  | nil => exact .nil
  | cons first others ih =>
    cases others with
    | nil => exact .singleton _
    | cons second others =>
      obtain ⟨before, chain⟩ := List.isChain_cons_cons.mp h
      obtain ⟨before', chain'⟩ := List.isChain_cons_cons.mp h'
      exact .cons_cons ⟨before.start_le, before'.start_le, first.start_eq_iff before before'⟩
        (ih chain chain')

/-- Any two tokens that correspond come in the same order in both texts. -/
theorem ordered {l : List (Nat × Nat)} (h : l.IsChain Rises) {p q : Nat × Nat} (first : p ∈ l)
    (second : q ∈ l) : (p.1 < q.1 ↔ p.2 < q.2) ∧ (p.1 = q.1 ↔ p.2 = q.2) := by
  have symm : Std.Symm fun x y => Rises x y ∨ Rises y x := ⟨fun _ _ => Or.symm⟩
  have refl (x : Nat × Nat) : Rises x x := ⟨Nat.le_refl _, Nat.le_refl _, by simp⟩
  have either : Rises p q ∨ Rises q p :=
    List.Pairwise.forall_of_forall (R := fun x y => Rises x y ∨ Rises y x)
      (fun x _ => .inl (refl x)) (h.pairwise.imp .inl) first second
  rcases either with ⟨left, right, eq⟩ | ⟨left, right, eq⟩ <;> omega

end Rises

namespace Pairing

/-- Parses of two texts of these tokens. -/
def ofTokens (maxDepth : Option Nat) (ts ts' : List Lexeme) : Pairing where
  left := ⟨maxDepth, some false⟩
  right := ⟨maxDepth, some false⟩
  comment := id
  faithful := True
  Near p p' := (p, p') ∈ Rises.starts ts ts'
  Abreast s s' := s.toList.Forall₂ Lexeme.Resembles s'.toList ∧ Scanned s.toList ∧
    Rises.starts s.toList s'.toList <:+ Rises.starts ts ts'
  Ends _ _ := False

variable {maxDepth : Option Nat} {ts ts' : List Lexeme}

theorem lawful_ofTokens (h : (Rises.starts ts ts').IsChain Rises) :
    (ofTokens maxDepth ts ts').Lawful where
  depth_le := Nat.le_refl _
  depth_eq _ := rfl
  comment_none := rfl
  ordered _ _ _ _ _ first second := Rises.ordered h first second
  like := by
    rintro s s' ⟨_ | ⟨first, -⟩, -, suffix⟩
    obtain ⟨kind, value, line, error⟩ := first.parts
    exact ⟨kind, value, error, .inl line, rfl, fun _ => suffix.subset List.mem_cons_self⟩
  next := by
    rintro ⟨t, ahead⟩ ⟨t', ahead'⟩ ⟨same, scanned, suffix⟩ -
    refine .inl ⟨?_, scanned.next, ?_⟩
    all_goals
      obtain _ | ⟨first, _ | ⟨second, others⟩⟩ := same
    · exact .cons first .nil
    · exact .cons second others
    · exact suffix
    · exact (List.suffix_cons _ _).trans suffix
  firm := by
    rintro s s' - - ⟨_ | ⟨first, -⟩, -⟩
    exact first.parts.2.2.1
  length_le := by
    rintro s s' ⟨_ | ⟨-, others⟩, -⟩
    exact Nat.le_of_eq others.length_eq
  length_eq := by
    rintro - s s' ⟨_ | ⟨-, others⟩, -⟩
    exact others.length_eq
  scanned abreast := abreast.2.1
  not_faithful ends := ends.elim
  ends ends := ends.elim

end Pairing

open Pairing

theorem stands_ofTokens (maxDepth : Option Nat) {text text' : String}
    (same : (lexemes text).Forall₂ Lexeme.Resembles (lexemes text')) :
    (ofTokens maxDepth (lexemes text) (lexemes text')).Stands .abreast
      ⟨.ofText text, 0⟩ ⟨.ofText text', 0⟩ := by
  refine ⟨rfl, ?_⟩
  rw [Pairing.Meet, ofTokens]
  simp only [Stream.toList_ofText]
  exact ⟨same, scanned_lexemes text, List.suffix_refl _⟩

/-- Parses of two texts whose tokens differ in places and comments at most give the same tree up to
comments, or fail with the same message where tokens start that correspond. -/
theorem parse_of_visible_eq (entry : Entry) (o : Options) {text text' : String}
    (same : (lexemes text).map Lexeme.visible = (lexemes text').map Lexeme.visible) :
    (∃ n n', parse entry o text = .ok n ∧ parse entry o text' = .ok n' ∧
      n.withoutComments = n'.withoutComments) ∨
    ∃ (i : Nat) (t t' : Lexeme) (m : Message) (arguments : List String),
      (lexemes text)[i]? = some t ∧ (lexemes text')[i]? = some t' ∧
      parse entry o text = .error (Failure.locate ⟨t.start, m, arguments⟩ (.ofText text)) ∧
      parse entry o text' = .error (Failure.locate ⟨t'.start, m, arguments⟩ (.ofText text')) := by
  have same := Lexeme.forall₂_resembles.mpr same
  have laws : (ofTokens o.maxDepth (lexemes text) (lexemes text')).Lawful :=
    lawful_ofTokens (Rises.isChain_starts (isChain_lexemes text) (isChain_lexemes text') same)
  have follows : Follows (ofTokens o.maxDepth (lexemes text) (lexemes text')) .abreast .met
      entry.rule entry.rule := Entry.follows trivial entry
  have stands := stands_ofTokens o.maxDepth same
  rcases read : entry.rule ⟨o.maxDepth, some false⟩ ⟨.ofText text, 0⟩ with ⟨⟨p, m, as⟩ | n, t⟩
  · obtain ⟨⟨p', m', as'⟩, t', read', ⟨near, message, arguments⟩, -⟩ :=
      follows.fails trivial stands read
    obtain rfl : m = m' := message
    obtain rfl : as = as' := arguments
    obtain ⟨i, u, u', is, is', rfl, rfl⟩ := Rises.exists_of_mem_starts near
    have fails := parse_error_of_withoutComments (parse_of_fails read)
    have fails' := parse_error_of_withoutComments (parse_of_fails read')
    exact .inr ⟨i, u, u', m, as, is, is', fails, fails'⟩
  · obtain ⟨n', t', read', eq, -⟩ := follows.gives stands read
    obtain rfl : n = n' := eq.trans n'.mapComments_id
    obtain ⟨f, gives, plain⟩ := exists_parse_of_withoutComments (parse_of_gives read)
    obtain ⟨f', gives', plain'⟩ := exists_parse_of_withoutComments (parse_of_gives read')
    exact .inl ⟨f, f', gives, gives', plain.trans plain'.symm⟩

/-- A text with a comment and blanks, and its tokens in a row. -/
theorem parse_of_visible_eq_documented :
    (lexemes "/** Named. */ type T = A").map Lexeme.visible =
      (lexemes "type T=A").map Lexeme.visible ∧
    ∃ n n', parse .file {} "/** Named. */ type T = A" = .ok n ∧
      parse .file {} "type T=A" = .ok n' ∧ n.withoutComments = n'.withoutComments := by
  have same : (lexemes "/** Named. */ type T = A").map Lexeme.visible =
      (lexemes "type T=A").map Lexeme.visible := by decide +kernel
  have parses : (parse .file {} "type T=A").toOption.any (fun _ => true) = true := by
    decide +kernel
  obtain ⟨n, parsed, -⟩ := exists_of_any parses
  rcases parse_of_visible_eq .file {} same with trees | ⟨i, t, t', m, as, -, -, -, fails⟩
  · exact ⟨same, trees⟩
  · rw [parsed] at fails
    cases fails

end Ambient
