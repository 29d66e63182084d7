import Ambient.Proofs.Lexeme.LineEnds
import Ambient.Proofs.Parse.Layout
import Ambient.Proofs.Parse.Malformed

namespace Ambient

theorem Stream.forall₂_next {R : Lexeme → Lexeme → Prop} {s s' : Stream}
    (h : s.toList.Forall₂ R s'.toList) : s.next.toList.Forall₂ R s'.next.toList := by
  obtain ⟨t, ahead⟩ := s
  obtain ⟨t', ahead'⟩ := s'
  obtain _ | ⟨first, _ | ⟨second, others⟩⟩ := h
  · exact .cons first .nil
  · exact .cons second others

namespace Pairing

/-- Parses that keep the documentation of the tokens, where that is the same. -/
def documented (P : Pairing) (o : Options) : Pairing where
  left := o
  right := o
  comment := id
  faithful := P.faithful
  Near := P.Near
  Abreast s s' := P.Abreast s s' ∧
    s.toList.Forall₂ (fun t t' => t.documentation o = t'.documentation o) s'.toList
  Ends := P.Ends

theorem Lawful.documented {P : Pairing} (laws : P.Lawful) (o : Options) : (P.documented o).Lawful where
  depth_le := Nat.le_refl _
  depth_eq _ := rfl
  comment_none := rfl
  ordered := laws.ordered
  like := by
    rintro s s' ⟨abreast, _ | ⟨same, -⟩⟩
    exact { laws.like abreast with documentation := same }
  next := by
    rintro s s' ⟨abreast, same⟩ more
    exact (laws.next abreast more).imp (fun next => ⟨next, Stream.forall₂_next same⟩) id
  firm := fun abreast more next => laws.firm abreast.1 more next.1
  length_le := fun abreast => laws.length_le abreast.1
  length_eq := fun faithful _ _ abreast => laws.length_eq faithful abreast.1
  scanned := fun abreast => laws.scanned abreast.1
  not_faithful := laws.not_faithful
  ends := laws.ends

end Pairing

namespace Lexeme.Turned

variable {t t' : Lexeme}

theorem resembles (h : t.Turned t') : t.Resembles t' := by
  have value : t.value = t'.value := by
    simp only [Lexeme.value, h.kind, h.text, h.error]
  rw [Resembles, visible, visible, h.kind, value, h.onNewLine, h.error]

theorem documentation_eq (h : t.Turned t') (o : Options) : t.documentation o = t'.documentation o := by
  have comment := h.comment
  rw [Lexeme.documentation, Lexeme.documentation]
  cases found : t.comment with
  | none =>
    rw [found, Option.map_none, Option.map_eq_none_iff] at comment
    rw [comment]
  | some c =>
    rw [found, Option.map_some] at comment
    obtain ⟨c', found', text⟩ := Option.map_eq_some_iff.mp comment
    rw [found', Option.bind_some, Option.bind_some, text]
    exact congrArg (ite _ · _) (documentation_withCrlf c.text).symm

end Lexeme.Turned

open Pairing

/-- Line ends do not matter, but in string literals: a text gives the same tree, or fails in the same way
at the same line and column, whether its lines end with line feeds or with carriage returns and line
feeds. With the latter no string literal goes over the end of a line. -/
theorem parse_withCrlf (entry : Entry) (o : Options) (text : String) :
    (∀ t ∈ lexemes text, '\n' ∉ t.text.toList) ∧
        ((∃ n, parse entry o text = .ok n ∧ parse entry o (withCrlf text) = .ok n) ∨
          ∃ e e', parse entry o text = .error e ∧ parse entry o (withCrlf text) = .error e' ∧
            e'.message = e.message ∧ e'.arguments = e.arguments ∧ e'.location = e.location) ∨
      (∃ t ∈ lexemes text, t.SpansLines) ∧ ∃ e, parse entry o (withCrlf text) = .error e := by
  rcases lexemes_withCrlf text with ⟨alike, plain⟩ | ⟨spans, t', mem, malformed⟩
  · refine .inl ⟨plain, ?_⟩
    have same : (lexemes text).Forall₂ Lexeme.Resembles (lexemes (withCrlf text)) :=
      alike.imp fun _ _ turned => turned.1.resembles
    have laws : ((ofTokens o.maxDepth (lexemes text) (lexemes (withCrlf text))).documented o).Lawful :=
      (lawful_ofTokens (Rises.isChain_starts (isChain_lexemes text) (isChain_lexemes _) same)).documented o
    have stands : ((ofTokens o.maxDepth (lexemes text) (lexemes (withCrlf text))).documented o).Stands
        .abreast ⟨.ofText text, 0⟩ ⟨.ofText (withCrlf text), 0⟩ := by
      refine ⟨rfl, (stands_ofTokens o.maxDepth same).meet, ?_⟩
      rw [Stream.toList_ofText, Stream.toList_ofText]
      exact alike.imp fun _ _ turned => turned.1.documentation_eq o
    have follows : Follows ((ofTokens o.maxDepth (lexemes text) (lexemes (withCrlf text))).documented o)
        .abreast .met entry.rule entry.rule := Entry.follows trivial entry
    rcases read : entry.rule o ⟨.ofText text, 0⟩ with ⟨⟨p, m, as⟩ | n, t⟩
    · obtain ⟨⟨p', m', as'⟩, t', read', ⟨near, message, arguments⟩, -⟩ :=
        follows.fails trivial stands read
      obtain ⟨i, u, u', is, is', rfl, rfl⟩ := Rises.exists_of_mem_starts near
      obtain ⟨bound, rfl⟩ := List.getElem?_eq_some_iff.mp is
      obtain ⟨bound', rfl⟩ := List.getElem?_eq_some_iff.mp is'
      obtain ⟨before, rest, split, start, start'⟩ := ((List.forall₂_iff_get.mp alike).2 i bound bound').2
      refine .inr ⟨_, _, parse_of_fails read, parse_of_fails read', message.symm, arguments.symm, ?_⟩
      have located := LineMap.locate_withCrlf split
      rw [← start, ← start'] at located
      exact located.symm
    · obtain ⟨n', t', read', eq, -⟩ := follows.gives stands read
      obtain rfl : n = n' := eq.trans n'.mapComments_id
      exact .inl ⟨n, parse_of_gives read, parse_of_gives read'⟩
  · refine .inr ⟨spans, ?_⟩
    cases parsed : parse entry o (withCrlf text) with
    | error e => exact ⟨e, rfl⟩
    | ok n => exact absurd (error_eq_none_of_parse parsed t' mem) malformed

/-- A type alias for a string literal that goes over the end of a line. -/
def continuedText : String := "type T = 'a\\\nb';"

/-- A backslash takes a line feed into a string literal, but no carriage return and line feed. -/
theorem not_parse_withCrlf_iff : ¬ ∀ (o : Options) (text : String), '\r' ∉ text.toList →
    ((∃ n, parse .file o text = .ok n) ↔ ∃ n, parse .file o (withCrlf text) = .ok n) := by
  intro same
  have accepted : (parse .file {} continuedText).toOption.any (fun _ => true) = true := by
    decide +kernel
  have refused : (parse .file {} (withCrlf continuedText)).toOption.isNone = true := by
    decide +kernel
  obtain ⟨n, parsed, -⟩ := exists_of_any accepted
  obtain ⟨n', parsed'⟩ := (same {} continuedText (by decide +kernel)).mp ⟨n, parsed⟩
  rw [parsed'] at refused
  cases refused

end Ambient
