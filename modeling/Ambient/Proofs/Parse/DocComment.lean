import Ambient.Proofs.Lexeme.Gaps
import Ambient.Proofs.Lexeme.Spelling
import Ambient.Proofs.Pairing.Entry
import Ambient.Proofs.Text.DocComment

namespace Ambient

open Trivia

/-- A declaration without members. -/
def interfaceChars : List Char :=
  ['i', 'n', 't', 'e', 'r', 'f', 'a', 'c', 'e'] ++ ' ' :: (['A'] ++ ' ' :: (['\x7b'] ++ ['\x7d']))

/-- The first token of a declaration behind a comment on the line above it. -/
def interfaceToken (offset : Nat) (comment : String) : Lexeme :=
  ⟨.interfaceKeyword, offset, "interface", true, some ⟨0, comment⟩, none⟩

/-- The tokens behind the first one. -/
def interfaceTokens (offset : Nat) : List Lexeme := [
  ⟨.identifier, offset + 10, "A", false, none, none⟩,
  ⟨.openBraceToken, offset + 12, "\x7b", false, none, none⟩,
  ⟨.closeBraceToken, offset + 13, "\x7d", false, none, none⟩,
  ⟨.endOfFileToken, offset + 14, "", false, none, none⟩]

section

variable {body cs : List Char}

/-- A token behind a comment on the line above it, at the start of a text. -/
theorem scan_commented (ends : ¬ ['*', '/'] <:+: body ++ ['*']) (token : List Char) {kind : Kind}
    (here : front (token ++ cs) = .token)
    (reading : Reading.ofChars (token ++ cs) = ⟨kind, token.length, none⟩) :
    Cursor.scan ⟨0, chars (.blockComment body) ++ '\n' :: (token ++ cs)⟩ =
      (⟨kind, byteLength (chars (.blockComment body) ++ ['\n']), String.ofList token, true,
          some ⟨0, String.ofList (chars (.blockComment body))⟩, none⟩,
        ⟨byteLength (chars (.blockComment body) ++ ['\n']) + byteLength token, cs⟩) := by
  have lead : Lead [.blockComment body, .lineBreak '\n'] (token ++ cs) := .cons ends (.cons rfl .nil)
  have pieces : [.blockComment body, .lineBreak '\n'].flatMap chars =
      chars (.blockComment body) ++ ['\n'] := rfl
  have skipped := skip_of_lead lead here
  rw [pieces, List.append_assoc, List.singleton_append] at skipped
  have breaks : [Trivia.blockComment body, .lineBreak '\n'].any breaksLine = true := by
    simp [breaksLine]
  have comment : leadingComment 0 [.blockComment body, .lineBreak '\n'] =
      some ⟨0, String.ofList (chars (.blockComment body))⟩ := rfl
  rw [Cursor.scan_closed (by rw [skipped]), skipped]
  simp only [reading, pieces, breaks, comment, List.take_left, List.drop_left, Nat.zero_add]

theorem scans_nil (offset : Nat) :
    Cursor.Scans ⟨offset, []⟩ [⟨.endOfFileToken, offset, "", false, none, none⟩] := by
  have last : Cursor.scan ⟨offset, []⟩ =
      (⟨.endOfFileToken, offset, "", false, none, none⟩, ⟨offset, []⟩) :=
    Cursor.scan_token [] rfl rfl
  have scans := Cursor.Scans.ending (c := ⟨offset, []⟩) (by rw [last])
  rwa [last] at scans

theorem scans_interfaceChars (ends : ¬ ['*', '/'] <:+: body ++ ['*']) : ∃ offset,
    Cursor.Scans ⟨0, chars (.blockComment body) ++ '\n' :: interfaceChars⟩
      (interfaceToken offset (String.ofList (chars (.blockComment body))) ::
        interfaceTokens offset) := by
  have blank : isIdentifierPart ' ' = false := by decide +kernel
  have behind (cs : List Char) : ∀ c ∈ (' ' :: cs).head?, isIdentifierPart c = false := by
    simpa using blank
  have declares := Reading.word_append ['i', 'n', 't', 'e', 'r', 'f', 'a', 'c', 'e'] (by decide)
    (behind (['A'] ++ ' ' :: (['\x7b'] ++ ['\x7d'])))
  have keyword : Kind.keyword? (String.ofList ['i', 'n', 't', 'e', 'r', 'f', 'a', 'c', 'e']) =
      some .interfaceKeyword := by decide
  rw [keyword] at declares
  have name := Reading.word_append ['A'] (by decide) (behind (['\x7b'] ++ ['\x7d']))
  refine ⟨_, .of_scan_eq (scan_commented ends _ rfl declares) nofun ?_⟩
  refine .of_scan_eq (Cursor.scan_blank ['A'] rfl name) nofun ?_
  refine .of_scan_eq (Cursor.scan_blank ['\x7b'] rfl rfl) nofun ?_
  exact .of_scan_eq (Cursor.scan_token ['\x7d'] rfl rfl) nofun (scans_nil _)

end

/-- Whatever comment leads a declaration, its name keeps what the comment documents. -/
theorem file_interfaceTokens (offset : Nat) (comment : String) :
    Entry.file.rule.Gives {} ⟨⟨interfaceToken offset comment, interfaceTokens offset⟩, 0⟩
      (.sourceFile
        [.interfaceDeclaration none (.identifier "A" (documentation comment)) none none []])
      ⟨⟨⟨.endOfFileToken, offset + 14, "", false, none, none⟩, []⟩, 0⟩ := rfl

/-- A comment with some lines documents these lines: read by itself, and by the name of a declaration
behind it. Whatever a comment documents has lines that are not empty and have no white space at their
ends. -/
theorem docComment_roundTrip :
    (∀ (newline : String) (lines : List String), newline = "\n" ∨ newline = "\r\n" → lines ≠ [] →
      (∀ line ∈ lines, IsDocLine line) →
      documentation (docComment newline lines) = some ("\r\n".intercalate lines) ∧
      parse .file {} (docComment newline lines ++ "\ninterface A \x7b\x7d") = .ok (.sourceFile
        [.interfaceDeclaration none (.identifier "A" (some ("\r\n".intercalate lines))) none none
          []])) ∧
    ∀ comment text, documentation comment = some text →
      ∀ line ∈ crlfLines text.toList, line ≠ [] ∧ trim line = line := by
  refine ⟨?_, fun _ _ => lines_of_documentation⟩
  intro newline lines is some each
  have read := documentation_docComment is some each
  refine ⟨read, ?_⟩
  have comment : chars (.blockComment (docBody newline.toList lines)) =
      (docComment newline lines).toList := (toList_docComment newline lines).symm
  have declaration : "\ninterface A \x7b\x7d".toList = '\n' :: interfaceChars := by
    simp [interfaceChars]
  obtain ⟨offset, scans⟩ := scans_interfaceChars (not_infix_docBody is each)
  rw [comment, ← declaration, ← String.toList_append, String.ofList_toList, Cursor.scans_iff] at scans
  have gives := file_interfaceTokens offset (docComment newline lines)
  rw [read] at gives
  apply parse_of_gives
  rw [Stream.ofText, scans]
  exact gives

theorem docComment_roundTrip_decorated :
    (∀ line ∈ ["*a", "~", "/b"], IsDocLine line) ∧
    documentation (docComment "\r\n" ["*a", "~", "/b"]) = some "*a\r\n~\r\n/b" ∧
    parse .file {} (docComment "\r\n" ["*a", "~", "/b"] ++ "\ninterface A \x7b\x7d") =
      .ok (.sourceFile
        [.interfaceDeclaration none (.identifier "A" (some "*a\r\n~\r\n/b")) none none []]) ∧
    ∀ line ∈ crlfLines "*a\r\n~\r\n/b".toList, line ≠ [] ∧ trim line = line := by
  have star : "*a".toList = ['*', 'a'] := by simp
  have tilde : "~".toList = ['~'] := by simp
  have slash : "/b".toList = ['/', 'b'] := by simp
  have each : ∀ line ∈ ["*a", "~", "/b"], IsDocLine line := by
    simp only [List.forall_mem_cons, isDocLine_iff, star, tilde, slash]
    decide
  have text : "\r\n".intercalate ["*a", "~", "/b"] = "*a\r\n~\r\n/b" := by decide
  obtain ⟨read, parsed⟩ :=
    docComment_roundTrip.1 "\r\n" ["*a", "~", "/b"] (.inr rfl) (by simp) each
  rw [text] at read parsed
  exact ⟨each, read, parsed, docComment_roundTrip.2 _ _ read⟩

end Ambient
