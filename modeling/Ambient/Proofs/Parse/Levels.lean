import Ambient.Proofs.Level.Type
import Ambient.Proofs.Parse.Reads
import Ambient.Proofs.Seat.Statement

namespace Ambient

open Rule Grammar

/-- A parsed file opens no more levels at once than the options allow. Where no brackets stand behind
a type these are all its levels; brackets make for more of them, but at most a quadratic number. -/
theorem levels_of_parse (options : Options) (text : String) (f : Node)
    (h : parse .file options text = .ok f) :
    f.openLevels ≤ options.depthLimit ∧ (f.brackets = 0 → f.levels ≤ options.depthLimit) ∧
      2 * f.levels ≤ options.depthLimit * (options.depthLimit + 1) := by
  obtain ⟨u, leads⟩ := leads_of_parse h
  obtain ⟨statements, read, rfl⟩ := Leads.map leads
  have within : Regime.room.Holds .bare options.depthLimit statements :=
    (Heeds.holds : (statementsUntil statement .endOfFileToken).Ensures _ _) read
  have fits : (Node.sourceFile statements).Fits 0 options.depthLimit :=
    Regime.made_of_parts (R := .room) ⟨within, trivial⟩
  have open_le := fits.openLevels_le
  have levels_le := fits.levels_le
  refine ⟨by omega, fun none => ?_, ?_⟩
  · rw [Node.levels_eq_openLevels none]
    omega
  · rw [← two_mul_triangle]
    omega

theorem levels_of_parse_sampleText : ∃ f, parse .file ⟨some 4, none⟩ sampleText = .ok f ∧
    f.openLevels ≤ 4 ∧ f.levels ≤ 10 := by
  have parses : (parse .file ⟨some 4, none⟩ sampleText).toOption.any (fun _ => true) = true := by
    decide +kernel
  obtain ⟨f, parsed, -⟩ := exists_of_any parses
  obtain ⟨open_le, -, levels_le⟩ := levels_of_parse ⟨some 4, none⟩ sampleText f parsed
  exact ⟨f, parsed, open_le, Nat.le_of_mul_le_mul_left levels_le Nat.two_pos⟩

/-- Whether a file is the declaration of an array whose elements have a dotted name. -/
def isDottedArray : Node → Bool
  | .sourceFile [.typeAliasDeclaration _ _ _ (.arrayType (.typeReference (.qualifiedName ..) _))] =>
    true
  | _ => false

/-- The levels of the declaration, of its type, of the brackets and of the dot. -/
theorem four_le_levels {f : Node} (h : isDottedArray f = true) : 4 ≤ f.levels := by
  unfold isDottedArray at h
  split at h
  · rename_i modifiers declared typeParameters left right arguments
    let name := Node.qualifiedName left right
    let element := Node.typeReference name arguments
    let value := element.arrayType
    let declaration := Node.typeAliasDeclaration modifiers declared typeParameters value
    have dot : 1 ≤ name.levels :=
      Node.own_le_tally (n := name) (a := ⟨1, fun _ => 1⟩)
    have named : 0 + name.levels ≤ element.levels :=
      Node.way_le_tally (n := element) (w := (0, name)) (.head _)
    have brackets : 1 + element.levels ≤ value.levels :=
      Node.way_le_tally (n := value) (w := (1, element)) (.head _)
    have aliased : 1 + value.levels ≤ declaration.levels := by
      have below : (.category .type, value) ∈ declaration.children := by
        simp [declaration, Node.children, Node.parts, Part.places]
      exact Node.way_le_tally (n := declaration) (List.mem_map.mpr ⟨_, below, rfl⟩)
    have file : 1 + declaration.levels ≤ (Node.sourceFile [declaration]).levels :=
      Node.way_le_tally (n := .sourceFile [declaration]) (w := (1, declaration)) (.head _)
    show 4 ≤ (Node.sourceFile [declaration]).levels
    omega
  · cases h

/-- With three levels a type may be read that takes up four: those of a dotted name are closed before
the one for the brackets behind it is opened. -/
theorem limit_lt_levels_dotted_array : ∃ f,
    parse .file ⟨some 3, none⟩ "type T = A.B[];" = .ok f ∧ 3 < f.levels := by
  have parses : (parse .file ⟨some 3, none⟩ "type T = A.B[];").toOption.any isDottedArray = true := by
    decide +kernel
  obtain ⟨f, parsed, is⟩ := exists_of_any parses
  exact ⟨f, parsed, four_le_levels is⟩

end Ambient
