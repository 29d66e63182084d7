import Ambient.Proofs.Interchange.RoundTrip
import Ambient.Proofs.Parse.Reads

namespace Ambient

namespace Node

/-- The text of a file does not nest too deep, and it is read back as that file and as a node. -/
def Survives (f : Node) : Prop :=
  Json.nestingDepth f.toText ≤ maxNesting ∧
    decodeText (.shape .sourceFile) f.toText = .ok f ∧ decodeText (.category .node) f.toText = .ok f

theorem Survives.depth_le {f : Node} (h : f.Survives) : f.encode.depth ≤ maxNesting := by
  obtain ⟨shallow, -, -⟩ := h
  rwa [← Json.nestingDepth_compress _ f.encode_plain]

theorem WellKinded.as_node {f : Node} (h : f.WellKinded (.shape .sourceFile)) :
    f.WellKinded (.category .node) := by
  obtain ⟨here, below⟩ := h
  have shape := List.mem_singleton.mp here.shape_mem
  refine ⟨⟨?_, here.kind_accepted, here.parts_admitted⟩, below⟩
  rw [shape]
  decide

end Node

open Node

theorem wellKinded_of_parse {entry : Entry} {options : Options} {text : String} {n : Node}
    (h : parse entry options text = .ok n) : n.WellKinded entry.target := by
  obtain ⟨read, last, -, -, -, -, lawful, -⟩ := parse_reads h
  exact lawful.mono fun _ _ => Lawful.admitted

/-- How deep the interchange form of a parsed tree nests. -/
theorem depth_encode_of_parse {entry : Entry} {options : Options} {text : String} {n : Node}
    (h : parse entry options text = .ok n) :
    n.encode.depth ≤ 10 * options.depthLimit + 6 + n.brackets := by
  obtain ⟨read, last, -, -, -, -, -, height⟩ := parse_reads h
  have depth := n.depth_encode
  omega

/-- A parsed file survives exactly if its interchange form does not nest too deep, and it does unless
a path of its tree leads through thousands of brackets. -/
theorem survives_iff_of_parse (text : String) (f : Node) (h : parse .file {} text = .ok f) :
    (f.Survives ↔ f.encode.depth ≤ maxNesting) ∧
    (maxNesting < f.encode.depth → decodeText (.shape .sourceFile) f.toText = .error .tooDeep ∧
      decodeText (.category .node) f.toText = .error .tooDeep) ∧
    (f.brackets ≤ 2090 → f.Survives) := by
  have kinded := wellKinded_of_parse h
  have nesting := Json.nestingDepth_compress _ f.encode_plain
  have as_file := decodeText_toText kinded
  have as_node := decodeText_toText kinded.as_node
  have survives : f.Survives ↔ f.encode.depth ≤ maxNesting := by
    refine ⟨Survives.depth_le, fun shallow => ?_⟩
    rw [if_neg (Nat.not_lt.mpr shallow)] at as_file as_node
    exact ⟨Nat.le_trans (Nat.le_of_eq nesting) shallow, as_file, as_node⟩
  refine ⟨survives, ?_, ?_⟩
  · intro deep
    rw [if_pos deep] at as_file as_node
    exact ⟨as_file, as_node⟩
  · intro few
    have depth := depth_encode_of_parse h
    have limit : ({} : Options).depthLimit = 200 := rfl
    have most : maxNesting = 4096 := rfl
    exact survives.mpr (by omega)

theorem survives_iff_of_parse_sampleText : ∃ f, parse .file {} sampleText = .ok f ∧ f.Survives := by
  have shallow : (parse .file {} sampleText).toOption.any (·.encode.depth ≤ maxNesting) = true := by
    decide +kernel
  obtain ⟨f, parsed, depth⟩ := exists_of_any shallow
  exact ⟨f, parsed, (survives_iff_of_parse sampleText f parsed).1.mpr (of_decide_eq_true depth)⟩

end Ambient
