import Ambient.Proofs.Pairing.Entry
import Ambient.Proofs.Parse.Reads

namespace Ambient

namespace Pairing

/-- Two parses of one text. -/
def ofOneText (left right : Options) (comment : Option String → Option String) (faithful : Prop) :
    Pairing where
  left := left
  right := right
  comment := comment
  faithful := faithful
  Near := Eq
  Abreast s s' := s = s' ∧ Scanned s.toList
  Ends _ _ := False

variable {left right : Options} {comment : Option String → Option String} {faithful : Prop}

/-- Two parses of one text are lawful where the limits and the documentation are as they should. -/
theorem lawful_ofOneText (depth_le : left.depthLimit ≤ right.depthLimit)
    (depth_eq : faithful → left.depthLimit = right.depthLimit) (comment_none : comment none = none)
    (documentation : ∀ t : Lexeme, t.documentation left = comment (t.documentation right)) :
    (ofOneText left right comment faithful).Lawful where
  depth_le := depth_le
  depth_eq := depth_eq
  comment_none := comment_none
  ordered := by
    rintro - p _ q _ rfl rfl
    exact ⟨Iff.rfl, Iff.rfl⟩
  like := by
    rintro s _ ⟨rfl, -⟩
    exact ⟨rfl, rfl, rfl, .inl rfl, documentation _, fun _ => rfl⟩
  next := by
    rintro s _ ⟨rfl, scanned⟩ -
    exact .inl ⟨rfl, scanned.next⟩
  firm := by
    rintro s _ ⟨rfl, -⟩ - -
    rfl
  length_le := by
    rintro s _ ⟨rfl, -⟩
    exact Nat.le_refl _
  length_eq := by
    rintro - s _ ⟨rfl, -⟩
    rfl
  scanned abreast := abreast.2
  not_faithful ends := ends.elim
  ends ends := ends.elim

theorem stands_ofOneText (text : String) : (ofOneText left right comment faithful).Stands .abreast
    ⟨.ofText text, 0⟩ ⟨.ofText text, 0⟩ :=
  ⟨rfl, rfl, Stream.toList_ofText text ▸ scanned_lexemes text⟩

theorem eq_of_alike {e e' : Failure} (h : (ofOneText left right comment faithful).Alike e e') :
    e = e' := by
  cases e
  cases e'
  exact Failure.mk.injEq _ _ _ _ _ _ ▸ ⟨h.near, h.message, h.arguments⟩

end Pairing

open Pairing

/-- A parse that keeps no comments does what any parse with its limit does, but for comments. -/
theorem map_withoutComments_parse (entry : Entry) (o : Options) (text : String) :
    (parse entry o text).map Node.withoutComments = parse entry ⟨o.maxDepth, some false⟩ text := by
  have laws : (ofOneText ⟨o.maxDepth, some false⟩ o (fun _ => none) True).Lawful :=
    lawful_ofOneText (Nat.le_refl _) (fun _ => rfl) rfl fun _ => rfl
  have follows : Follows (ofOneText ⟨o.maxDepth, some false⟩ o (fun _ => none) True) .abreast .met
      entry.rule entry.rule := Entry.follows trivial entry
  rcases read : entry.rule ⟨o.maxDepth, some false⟩ ⟨.ofText text, 0⟩ with ⟨e | n, t⟩
  · obtain ⟨e', t', read', alike, -⟩ := follows.fails trivial (stands_ofOneText text) read
    obtain rfl := eq_of_alike alike
    have fails := parse_of_fails (o := o) read'
    rw [parse_of_fails read, fails]
    rfl
  · obtain ⟨n', t', read', rfl, -⟩ := follows.gives (stands_ofOneText text) read
    have gives := parse_of_gives (o := o) read'
    rw [parse_of_gives read, gives]
    rfl

section

variable {entry : Entry} {o : Options} {text : String} {n : Node} {e : ParseError}

theorem exists_parse_of_withoutComments (h : parse entry ⟨o.maxDepth, some false⟩ text = .ok n) :
    ∃ m, parse entry o text = .ok m ∧ m.withoutComments = n := by
  rw [← map_withoutComments_parse] at h
  cases parsed : parse entry o text with
  | ok m => exact ⟨m, rfl, Except.ok.inj (parsed ▸ h)⟩
  | error e => rw [parsed] at h; cases h

theorem parse_error_of_withoutComments
    (h : parse entry ⟨o.maxDepth, some false⟩ text = .error e) : parse entry o text = .error e := by
  rw [← map_withoutComments_parse] at h
  cases parsed : parse entry o text with
  | ok m => rw [parsed] at h; cases h
  | error e' => rw [parsed] at h; exact h

end

/-- A parse without comments gives the tree of a parse with comments, with all of these left out, or
it fails in the same way. -/
theorem parse_withoutComments (entry : Entry) (maxDepth : Option Nat) (text : String) :
    parse entry ⟨maxDepth, some false⟩ text =
      (parse entry ⟨maxDepth, some true⟩ text).map Node.withoutComments :=
  (map_withoutComments_parse entry ⟨maxDepth, some true⟩ text).symm

/-- A limit on levels that is raised leaves the trees of files as they are. -/
theorem parse_file_of_depthLimit_le {o o' : Options} {text : String} {f : Node}
    (limits : o.depthLimit ≤ o'.depthLimit) (comments : o.keepsComments = o'.keepsComments)
    (h : parse .file o text = .ok f) : parse .file o' text = .ok f := by
  have laws : (ofOneText o o' id False).Lawful :=
    lawful_ofOneText limits False.elim rfl fun t => by rw [Lexeme.documentation, comments]; rfl
  obtain ⟨t, read⟩ := gives_of_parse h
  have follows : Follows (ofOneText o o' id False) .met .met Grammar.sourceFile
      Grammar.sourceFile := Grammar.follows_sourceFile fun s ⟨_, ends⟩ => ends
  obtain ⟨f', t', read', same, -⟩ := follows.gives (stands_ofOneText text).within read
  obtain rfl : f = f' := same.trans f'.mapComments_id
  exact parse_of_gives read'

/-- The sample is read with four levels, the fewest that suffice, and with nine. -/
theorem parse_sampleText_of_limits : ∃ f, parse .file ⟨some 4, none⟩ sampleText = .ok f ∧
    parse .file ⟨some 9, none⟩ sampleText = .ok f := by
  have parses : (parse .file ⟨some 4, none⟩ sampleText).toOption.any (fun _ => true) = true := by
    decide +kernel
  obtain ⟨f, parsed, -⟩ := exists_of_any parses
  exact ⟨f, parsed, parse_file_of_depthLimit_le (o := ⟨some 4, none⟩) (by decide) rfl parsed⟩

end Ambient
