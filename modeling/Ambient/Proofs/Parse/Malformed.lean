import Ambient.Proofs.Ground.Blame
import Ambient.Proofs.Parse.Reads

namespace Ambient

open Rule

/-- The failure of a parse blames a token of its text. -/
theorem blames_of_parse {entry : Entry} {options : Options} {text : String} {e : ParseError}
    (h : parse entry options text = .error e) : e.toFailure.Blames text := by
  have start : (Ground.sound text).At false false (Stream.ofText text) :=
    ⟨.start text, nofun, nofun⟩
  unfold parse at h
  split at h
  · cases h
  · rename_i failure failed
    cases h
    exact entry.walks.blames (s := ⟨.ofText text, 0⟩) start (Prod.ext failed rfl)

/-- All tokens of a text are well formed if the text is. -/
theorem error_eq_none_of_parse {entry : Entry} {options : Options} {text : String} {n : Node}
    (h : parse entry options text = .ok n) : ∀ t ∈ lexemes text, t.error = none := by
  obtain ⟨read, last, eq, ends, clean, -⟩ := parse_reads h
  have genuine : last.Genuine :=
    ((eq ▸ scanned_lexemes text).of_append (List.cons_ne_nil _ _)).genuine_head
  rw [eq]
  refine List.forall_mem_append.mpr ⟨clean, List.forall_mem_singleton.mpr ?_⟩
  exact genuine.error_eq_none (by simp [ends]) (by simp [ends]) (by simp [ends])

/-- A text with a malformed token is not accepted, and a failure where one starts reports what is
wrong with it, with its code and its text. -/
theorem malformed_of_parse (entry : Entry) (options : Options) (text : String) :
    (∀ n, parse entry options text = .ok n → ∀ t ∈ lexemes text, t.error = none) ∧
      ∀ e, parse entry options text = .error e →
        ∀ t ∈ lexemes text, t.start = e.position → ∀ m, t.error = some m →
          e.message = m ∧ e.arguments = [] ∧ e.code = m.code ∧ e.text = m.text [] := by
  refine ⟨fun n parsed => error_eq_none_of_parse parsed, fun e failed t mem start m malformed => ?_⟩
  obtain ⟨message, arguments⟩ := (blames_of_parse failed).lexical t mem start m malformed
  refine ⟨message, arguments, ?_, ?_⟩
  · rw [Failure.code, message]
  · rw [Failure.text, message, arguments]

/-- An enumeration in which a number stands that lacks its hexadecimal digits. -/
def hexlessText : String := "enum E \x7b A = 0x \x7d"

theorem malformed_of_parse_samples :
    (∃ n, parse .file {} sampleText = .ok n ∧ ∀ t ∈ lexemes sampleText, t.error = none) ∧
      ∃ e, parse .statement {} hexlessText = .error e ∧ e.position = 13 ∧ e.code = 1125 := by
  constructor
  · obtain ⟨n, parsed⟩ := sampleText_parses
    exact ⟨n, parsed, (malformed_of_parse .file {} sampleText).1 n parsed⟩
  · have fails : (match parse .statement {} hexlessText with
        | .ok _ => false
        | .error e => e.position = 13) = true := by decide +kernel
    cases failed : parse .statement {} hexlessText with
    | ok n => simp [failed] at fails
    | error e =>
      simp only [failed, decide_eq_true_eq] at fails
      have there : ∃ t ∈ lexemes hexlessText, t.start = 13 ∧ t.error = some .hexDigitExpected := by
        decide +kernel
      obtain ⟨t, mem, start, malformed⟩ := there
      obtain ⟨-, -, code, -⟩ := (malformed_of_parse .statement {} hexlessText).2 e failed t mem
        (start.trans fails.symm) .hexDigitExpected malformed
      exact ⟨e, rfl, fails, code⟩

end Ambient
