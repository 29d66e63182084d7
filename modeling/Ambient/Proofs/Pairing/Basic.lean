import Ambient.Proofs.Grammar.Gives
import Ambient.Proofs.Lexeme.Genuine
import Ambient.Proofs.Tree.Comments

namespace Ambient

/-- The documentation that a parse keeps of a token. -/
def Lexeme.documentation (o : Options) (t : Lexeme) : Option String :=
  if o.keepsComments then t.comment.bind fun c => Ambient.documentation c.text else none

/-- Two parses, and which places of their texts correspond. -/
structure Pairing where
  left : Options
  right : Options
  /-- What a comment of the right parse is in the left one. -/
  comment : Option String → Option String
  /-- Whether the right parse fails where the left one fails. -/
  faithful : Prop
  /-- The offsets that correspond. -/
  Near : Nat → Nat → Prop
  /-- The places in front of tokens that correspond. -/
  Abreast : Stream → Stream → Prop
  /-- The end of the left text, with the place of a semicolon in the right one. -/
  Ends : Stream → Stream → Prop

/-- How places correspond: in front of the same token, which is not the end of the text, in front of
the same token, or perhaps at the end of the left text, or even behind the semicolon there. -/
inductive Closeness where
  | inside | abreast | met | passed

namespace Pairing

variable (P : Pairing)

/-- The kinds of tokens of which it can matter whether they stand on a new line, although no
statement starts with them. -/
def lineBound : List Kind := [.lessThanToken, .openBracketToken, .isKeyword, .colonToken]

/-- Tokens that a rule cannot tell apart. Where a statement starts, the right token may be on a new
line although the left one is not. -/
structure Like (t t' : Lexeme) : Prop where
  kind : t.kind = t'.kind
  value : t.value = t'.value
  error : t.error = t'.error
  onNewLine : t.onNewLine = t'.onNewLine ∨
    ¬ P.faithful ∧ t'.onNewLine = true ∧ t.kind ∉ lineBound
  documentation : t.documentation P.left = P.comment (t'.documentation P.right)
  near : P.faithful → P.Near t.start t'.start

/-- The laws of a pairing. -/
class Lawful : Prop where
  depth_le : P.left.depthLimit ≤ P.right.depthLimit
  depth_eq : P.faithful → P.left.depthLimit = P.right.depthLimit
  comment_none : P.comment none = none
  ordered : P.faithful → ∀ {p p' q q'}, P.Near p p' → P.Near q q' →
    (p < q ↔ p' < q') ∧ (p = q ↔ p' = q')
  like : ∀ {s s'}, P.Abreast s s' → P.Like s.current s'.current
  next : ∀ {s s'}, P.Abreast s s' → s.current.kind ≠ .endOfFileToken →
    P.Abreast s.next s'.next ∨ P.Ends s.next s'.next
  firm : ∀ {s s'}, P.Abreast s s' → s.current.kind ≠ .endOfFileToken →
    P.Abreast s.next s'.next → s.next.current.onNewLine = s'.next.current.onNewLine
  length_le : ∀ {s s'}, P.Abreast s s' → s.ahead.length ≤ s'.ahead.length
  length_eq : P.faithful → ∀ {s s'}, P.Abreast s s' → s.ahead.length = s'.ahead.length
  scanned : ∀ {s s'}, P.Abreast s s' → Scanned s.toList
  not_faithful : ∀ {s s'}, P.Ends s s' → ¬ P.faithful
  ends : ∀ {s s'}, P.Ends s s' → s.current.kind = .endOfFileToken ∧ s.ahead = [] ∧
    s'.current.kind = .semicolonToken

/-- The places of two streams correspond. -/
def Meet : Closeness → Stream → Stream → Prop
  | .inside, s, s' => P.Abreast s s' ∧ s.current.kind ≠ .endOfFileToken
  | .abreast, s, s' => P.Abreast s s'
  | .met, s, s' => P.Abreast s s' ∨ P.Ends s s'
  | .passed, s, s' => P.Abreast s s' ∨ P.Ends s s' ∨ ∃ v, P.Ends s v ∧ s' = v.next

/-- Two parses have come to corresponding places with as many open levels. -/
structure Stands (p : Closeness) (s s' : State Nat) : Prop where
  depth : s.depth = s'.depth
  meet : P.Meet p s.stream s'.stream

/-- Failures that say the same at corresponding offsets. -/
structure Alike (e e' : Failure) : Prop where
  near : P.Near e.position e'.position
  message : e.message = e'.message
  arguments : e.arguments = e'.arguments

end Pairing

/-- Places that correspond as closely as `p` says also do so as `q` says. -/
class Closeness.Within (p q : Closeness) : Prop where
  meet : ∀ {P : Pairing} {s s' : Stream}, P.Meet p s s' → P.Meet q s s'

namespace Closeness

instance (p : Closeness) : Within p p := ⟨id⟩

instance : Within .inside .abreast := ⟨And.left⟩

instance : Within .inside .met := ⟨fun h => .inl h.1⟩

instance : Within .inside .passed := ⟨fun h => .inl h.1⟩

instance : Within .abreast .met := ⟨.inl⟩

instance : Within .abreast .passed := ⟨.inl⟩

instance : Within .met .passed := ⟨fun h => h.elim .inl fun h => .inr (.inl h)⟩

end Closeness

namespace Pairing

variable {P : Pairing} {p q : Closeness} {s s' : State Nat}

theorem Stands.within [within : p.Within q] (h : P.Stands p s s') : P.Stands q s s' :=
  ⟨h.depth, within.meet h.meet⟩

variable [laws : P.Lawful]

theorem Stands.next (h : P.Stands .inside s s') : P.Stands .met s.next s'.next :=
  ⟨h.depth, laws.next h.meet.1 h.meet.2⟩

/-- In the text there is a token behind the current one. -/
theorem Stands.ahead_lt (h : P.Stands .inside s s') :
    s.next.stream.ahead.length < s.stream.ahead.length := by
  have more := (laws.scanned h.meet.1).ahead_ne_nil h.meet.2
  obtain ⟨⟨first, _ | ⟨second, ahead⟩⟩, depth⟩ := s
  · exact absurd rfl more
  · exact Nat.lt_succ_self _

/-- Where a token is not the end of the text, the places are in front of the same one. -/
theorem Stands.inside (h : P.Stands .met s s') (more : s.stream.current.kind ≠ .endOfFileToken) :
    P.Stands .inside s s' := by
  rcases h.meet with abreast | ends
  · exact ⟨h.depth, abreast, more⟩
  · exact absurd (laws.ends ends).1 more

/-- The token at the left end and the semicolon in its place are not of any other class. -/
theorem Stands.class_eq (h : P.Stands .met s s') {c : Kind → Bool}
    (ends : c .endOfFileToken = false) (semicolon : c .semicolonToken = false) :
    c s.stream.current.kind = c s'.stream.current.kind := by
  rcases h.meet with abreast | ended
  · rw [(laws.like abreast).kind]
  · obtain ⟨last, -, other⟩ := laws.ends ended
    rw [last, other, ends, semicolon]

theorem Stands.kind_iff (h : P.Stands .met s s') {k : Kind} (more : k ≠ .endOfFileToken)
    (other : k ≠ .semicolonToken) :
    s.stream.current.kind = k ↔ s'.stream.current.kind = k := by
  have same := h.class_eq (c := (decide <| · = k)) (decide_eq_false more.symm)
    (decide_eq_false other.symm)
  simpa using same

/-- The same token is on the same line behind another one. -/
theorem Stands.sameLine_eq (h : P.Stands .inside s s') {c : Kind → Bool}
    (ends : c .endOfFileToken = false) (semicolon : c .semicolonToken = false) :
    (c s.stream.next.current.kind && !s.stream.next.current.onNewLine) =
      (c s'.stream.next.current.kind && !s'.stream.next.current.onNewLine) := by
  have same : c s.stream.next.current.kind = c s'.stream.next.current.kind :=
    h.next.class_eq ends semicolon
  rcases h.next.meet with abreast | ended
  · rw [same, show s.stream.next.current.onNewLine = s'.stream.next.current.onNewLine from
      laws.firm h.meet.1 h.meet.2 abreast]
  · have outside : c s.stream.next.current.kind = false := (laws.ends ended).1 ▸ ends
    rw [← same, outside, Bool.false_and, Bool.false_and]

theorem Stands.length_le (h : P.Stands .met s s') :
    s.stream.ahead.length ≤ s'.stream.ahead.length := by
  rcases h.meet with abreast | ends
  · exact laws.length_le abreast
  · rw [(laws.ends ends).2.1]
    exact Nat.zero_le _

theorem Stands.length_eq (h : P.Stands .met s s') (faithful : P.faithful) :
    s.stream.ahead.length = s'.stream.ahead.length := by
  rcases h.meet with abreast | ends
  · exact laws.length_eq faithful abreast
  · exact absurd faithful (laws.not_faithful ends)

theorem Stands.abreast_of_faithful (h : P.Stands .met s s') (faithful : P.faithful) :
    P.Stands .abreast s s' := by
  rcases h.meet with abreast | ends
  · exact ⟨h.depth, abreast⟩
  · exact absurd faithful (laws.not_faithful ends)

end Pairing

end Ambient
