import Ambient.Lexeme
import Ambient.Text.Characters

namespace Ambient

/-- A piece of text without meaning of its own. -/
inductive Trivia where
  | blank (c : Char)
  | lineBreak (c : Char)
  /-- The rest of a line behind two slashes. -/
  | lineComment (body : List Char)
  /-- The text between the delimiters of a block comment. -/
  | blockComment (body : List Char)
deriving DecidableEq

namespace Trivia

def chars : Trivia → List Char
  | .blank c => [c]
  | .lineBreak c => [c]
  | .lineComment body => '/' :: '/' :: body
  | .blockComment body => '/' :: '*' :: (body ++ ['*', '/'])

/-- Whether a line comment goes on with `c`. -/
def inLineComment (c : Char) : Bool := c != '\n' && c != '\r'

def isComment : Trivia → Bool
  | .lineComment _ | .blockComment _ => true
  | .blank _ | .lineBreak _ => false

def isLineBreak : Trivia → Bool
  | .lineBreak _ => true
  | .blank _ | .lineComment _ | .blockComment _ => false

/-- Whether the piece puts the next token on a new line. -/
def breaksLine : Trivia → Bool
  | .lineBreak _ => true
  | .blockComment body => !body.all inLineComment
  | .blank _ | .lineComment _ => false

/-- How many characters stand in front of the end of a block comment, added to `n`. -/
def bodyLength? (n : Nat) : List Char → Option Nat
  | [] => none
  | '*' :: '/' :: _ => some n
  | _ :: cs => bodyLength? (n + 1) cs

/-- What a text starts with. -/
inductive Front where
  | piece (trivia : Trivia) (rest : List Char)
  /-- A block comment that never ends. -/
  | unclosed
  /-- A token, or the end of the text. -/
  | token

def front : List Char → Front
  | '/' :: '/' :: cs =>
    .piece (.lineComment (cs.takeWhile inLineComment)) (cs.dropWhile inLineComment)
  | '/' :: '*' :: cs =>
    match bodyLength? 0 cs with
    | some n => .piece (.blockComment (cs.take n)) (cs.drop (n + 2))
    | none => .unclosed
  | c :: cs =>
    if Ambient.isLineBreak c then .piece (.lineBreak c) cs
    else if isBlank c then .piece (.blank c) cs
    else .token
  | [] => .token

theorem length_dropWhile_le (p : Char → Bool) (cs : List Char) :
    (cs.dropWhile p).length ≤ cs.length :=
  (List.dropWhile_suffix p).length_le

/-- Every piece of trivia takes up text. -/
theorem length_lt_of_front {cs rest : List Char} {t : Trivia} (h : front cs = .piece t rest) :
    rest.length < cs.length := by
  unfold front at h
  split at h
  · have := length_dropWhile_le inLineComment
    simp only [Front.piece.injEq] at h
    grind
  · split at h <;> simp only [Front.piece.injEq, reduceCtorEq] at h
    grind [List.length_drop]
  · split at h
    · simp only [Front.piece.injEq] at h; grind
    · split at h
      · simp only [Front.piece.injEq] at h; grind
      · simp at h
  · simp at h

/-- The trivia at the start of a text, and the text behind them. -/
structure Gap where
  pieces : List Trivia
  rest : List Char
  /-- Whether `rest` is not a block comment without end. -/
  closed : Bool

/-- Skips trivia; those skipped before are given in reverse order. -/
def skipFrom (skipped : List Trivia) (cs : List Char) : Gap :=
  match _h : front cs with
  | .piece t rest => skipFrom (t :: skipped) rest
  | .unclosed => ⟨skipped.reverse, cs, false⟩
  | .token => ⟨skipped.reverse, cs, true⟩
termination_by cs.length
decreasing_by exact length_lt_of_front _h

def skip (cs : List Char) : Gap := skipFrom [] cs

/-- Looks for the comment that leads a token while passing over trivia. -/
structure Search where
  offset : Nat
  /-- Whether a comment at `offset` would lead the token. -/
  leading : Bool
  found : Option Comment

def Search.pass (s : Search) (t : Trivia) : Search where
  offset := s.offset + byteLength t.chars
  leading := s.leading || t.isLineBreak
  found := if s.leading && t.isComment then some ⟨s.offset, String.ofList t.chars⟩ else s.found

/-- The comment that leads the token behind some trivia, which start at `offset`: the last one that
does not start on the line of the token before. At the start of a text there is no such token, so
every comment leads. -/
def leadingComment (offset : Nat) (pieces : List Trivia) : Option Comment :=
  (pieces.foldl Search.pass ⟨offset, offset = 0, none⟩).found

end Trivia

end Ambient
