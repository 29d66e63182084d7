import Ambient.Lexeme
import Ambient.Proofs.Tree.Parts

namespace Ambient

namespace Node

/-- The word that a node is by itself. Keywords may stand for names, and then they are none. -/
def ownWords : Node → List String
  | .identifier text _ => if (Kind.keyword? text).isNone then [text] else []
  | .stringLiteral text | .numericLiteral text => [text]
  | _ => []

/-- All words of a tree, in order. -/
def words (n : Node) : List String :=
  n.ownWords ++ n.children.attach.flatMap fun c => c.1.2.words
termination_by sizeOf n
decreasing_by exact sizeOf_child c.2

theorem words_eq (n : Node) : n.words = n.ownWords ++ n.children.flatMap fun c => c.2.words := by
  rw [words, List.flatMap_subtype (g := fun c => c.2.words) fun _ _ => rfl, List.unattach_attach]

end Node

namespace Lexeme

/-- Whether tokens of kind `k` are words. -/
def isWord (k : Kind) : Bool := k = .identifier || k = .stringLiteral || k = .numericLiteral

/-- The word that a token is. -/
def words (t : Lexeme) : List String := if isWord t.kind then [t.value] else []

end Lexeme

end Ambient
