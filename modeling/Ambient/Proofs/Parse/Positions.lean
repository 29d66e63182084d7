import Ambient.Proofs.Parse.Malformed
import Ambient.Proofs.Text.Lines

namespace Ambient

/-- A failure is located at its offset. -/
theorem location_of_parse {entry : Entry} {options : Options} {text : String} {e : ParseError}
    (h : parse entry options text = .error e) :
    e.location = (LineMap.ofText text).locate e.position := by
  unfold parse at h
  split at h
  · cases h
  · injection h with located
    rw [← located]
    rfl

/-- A parse fails where a token of the text starts, which may be its end, and line and column are
counted up to there. Only a failure at the start of a text is left in the first line and column. -/
theorem placed_of_parse (entry : Entry) (options : Options) (text : String) (e : ParseError)
    (h : parse entry options text = .error e) :
    (∃ t ∈ lexemes text, t.start = e.position) ∧ e.position ≤ text.utf8ByteSize ∧
      e.location.Counts text e.position ∧ (e.location = ⟨0, 0⟩ ↔ e.position = 0) := by
  obtain ⟨t, mem, start⟩ := (blames_of_parse h).placed
  obtain ⟨before, rest, split, place⟩ := exists_split_of_mem_lexemes mem
  have at_place : e.position = byteLength before := start.symm.trans place
  have counts : e.location.Counts text e.position := by
    rw [location_of_parse h, at_place]
    exact LineMap.counts_locate split
  have inside : e.position ≤ text.utf8ByteSize := by
    rw [at_place, ← String.ofList_toList (s := text), Cursor.utf8ByteSize_ofList, split,
      byteLength_append]
    exact Nat.le_add_right _ _
  exact ⟨⟨t, mem, start⟩, inside, counts, counts.zero_iff⟩

/-- An interface with a rest parameter in front of another one, in its second line. -/
def misplacedRestText : String := "interface I \x7b\n  f(é: A, ...r: B, c: C): D;\n\x7d"

theorem placed_of_parse_misplacedRestText : ∃ e, parse .file {} misplacedRestText = .error e ∧
    e.code = 1014 ∧ e.position = 25 ∧ e.location.Counts misplacedRestText 25 := by
  have fails : (match parse .file {} misplacedRestText with
      | .ok _ => false
      | .error e => e.code = 1014 ∧ e.position = 25) = true := by decide +kernel
  cases failed : parse .file {} misplacedRestText with
  | ok n => simp [failed] at fails
  | error e =>
    simp only [failed, decide_eq_true_eq] at fails
    obtain ⟨code, position⟩ := fails
    obtain ⟨-, -, counts, -⟩ := placed_of_parse .file {} misplacedRestText e failed
    exact ⟨e, rfl, code, position, position ▸ counts⟩

end Ambient
