import Ambient.Parse
import Ambient.Proofs.Grammar.Statement

namespace Ambient

open Rule Node

/-- What a text as a whole is in a tree. -/
def Entry.target : Entry → Target
  | .file => .shape .sourceFile
  | .type => .category .type
  | .typeMember => .category .typeMember
  | .classMember => .category .classMember
  | .statement => .category .statement

namespace Grammar

variable {d : Nat} {s u : Stream} {n : Node}

instance (r : Rule Nat Node) [Balanced r] : Balanced (entire r) := by unfold entire; infer_instance

instance : Balanced sourceFile := by unfold sourceFile; infer_instance

theorem entire_leads {r : Rule Nat Node} [Balanced r] (h : (entire r).Leads d s n u) :
    r.Leads d s n u ∧ u.current.kind = .endOfFileToken := by
  obtain ⟨m, v, read, h⟩ := h.bind
  obtain ⟨_, _, here, h⟩ := h.bind
  obtain ⟨rfl, rfl⟩ := here.atKind
  rcases h.ite with ⟨last, h⟩ | ⟨-, h⟩
  · obtain ⟨rfl, rfl⟩ := h.pure
    exact ⟨read, of_decide_eq_true last⟩
  · exact h.failHere.elim

theorem sourceFile_yields (h : sourceFile.Leads d s n u) :
    Yields (5 * d + 3) s 0 [(.shape .sourceFile, n)] u := by
  obtain ⟨statements, read, rfl⟩ := h.map
  have y := (statementsUntil_yields statement_reads read).trans (.refl u)
  have fits : Yields (5 * d + 2) s 0 (Node.sourceFile statements).children u :=
    y.weaken (Nat.zero_le _) (by omega)
  refine .tree fits (.of_shape .sourceFile (by simp [parts, Part.lawful_list]) trivial rfl
    (by decide))
    rfl ?_
  exact Nat.le_of_eq (Nat.add_comm 1 _)

end Grammar

open Grammar

instance (entry : Entry) : Balanced entry.rule := by
  cases entry <;> unfold Entry.rule <;> infer_instance

/-- What the rule for a whole text leads to is a tree behind which the text ends. -/
theorem Entry.rule_leads {entry : Entry} {d : Nat} {s u : Stream} {n : Node}
    (h : entry.rule.Leads d s n u) (scanned : Scanned s.toList) :
    Yields (5 * d + 3) s 0 [(entry.target, n)] u ∧ u.current.kind = .endOfFileToken := by
  cases entry with
  | file =>
    obtain ⟨statements, read, -⟩ := h.map
    exact ⟨sourceFile_yields h, or_self_iff.mp (statementsUntil_ends statement_reads read scanned)⟩
  | type =>
    obtain ⟨read, last⟩ := entire_leads h
    exact ⟨(type_reads read).weaken (Nat.zero_le 1) (by omega), last⟩
  | typeMember =>
    obtain ⟨read, last⟩ := entire_leads h
    exact ⟨(typeMember_reads type_reads read).weaken (Nat.zero_le 1) (by omega), last⟩
  | classMember =>
    obtain ⟨read, last⟩ := entire_leads h
    exact ⟨(classMember_reads type_reads read).weaken (Nat.zero_le 1) (by omega), last⟩
  | statement =>
    obtain ⟨read, last⟩ := entire_leads h
    exact ⟨(statement_reads read).weaken (Nat.zero_le 1) (by omega), last⟩

theorem leads_of_parse {entry : Entry} {options : Options} {text : String} {n : Node}
    (h : parse entry options text = .ok n) :
    ∃ u, entry.rule.Leads options.depthLimit (.ofText text) n u := by
  unfold parse at h
  split at h
  · rename_i tree eq
    obtain rfl := Except.ok.inj h
    have kept := Balanced.ok_eq (Prod.ext eq rfl)
    exact ⟨_, options, 0, rfl, Prod.ext eq kept⟩
  · cases h

/-- A parse reads its tree from all tokens of the text but the end of the text. -/
theorem parse_reads {entry : Entry} {options : Options} {text : String} {n : Node}
    (h : parse entry options text = .ok n) :
    ∃ read last, lexemes text = read ++ [last] ∧ last.kind = .endOfFileToken ∧
      (∀ t ∈ read, t.error = none) ∧ read.flatMap Lexeme.words = n.words ∧
      n.Throughout Lawful entry.target ∧ n.height ≤ 5 * options.depthLimit + 3 := by
  have scanned := scanned_lexemes text
  rw [← Stream.toList_ofText] at scanned ⊢
  obtain ⟨u, leads⟩ := leads_of_parse h
  obtain ⟨yields, last⟩ := Entry.rule_leads leads scanned
  obtain ⟨read, eq, -, clean, words, lawful⟩ := yields scanned
  have left : Scanned u.toList := (eq ▸ scanned).of_append (by simp [Stream.toList])
  refine ⟨read, u.current, ?_, last, clean, ?_, ?_⟩
  · rw [eq, Stream.toList, left.ahead_eq_nil last]
  · rw [words, List.flatMap_singleton]
  · exact lawful _ (List.mem_singleton.mpr rfl)

theorem exists_of_any {entry : Entry} {options : Options} {text : String} {p : Node → Bool}
    (h : (parse entry options text).toOption.any p = true) :
    ∃ n, parse entry options text = .ok n ∧ p n = true := by
  cases eq : parse entry options text with
  | ok n =>
    rw [eq] at h
    exact ⟨n, rfl, h⟩
  | error e =>
    rw [eq] at h
    cases h

theorem Lexeme.flatMap_words (ts : List Lexeme) :
    ts.flatMap words = (ts.filter fun t => isWord t.kind).map value := by
  induction ts with
  | nil => rfl
  | cons t ts ih =>
    rw [List.flatMap_cons, ih, words, List.filter_cons]
    split <;> rfl

/-- A parse loses, repeats and reorders no word: those of the text, in its order, are those of the
tree, read depth first and from left to right. -/
theorem words_of_parse (entry : Entry) (options : Options) (text : String) (n : Node)
    (h : parse entry options text = .ok n) :
    ((lexemes text).filter fun t => Lexeme.isWord t.kind).map Lexeme.value = n.words := by
  obtain ⟨read, last, eq, is_end, -, words, -, -⟩ := parse_reads h
  have no_word : last.words = [] := by rw [Lexeme.words, is_end]; rfl
  rw [← Lexeme.flatMap_words, eq, List.flatMap_append, words, List.flatMap_singleton, no_word,
    List.append_nil]

/-- A mapped type with a key, a dotted name and a string. -/
def sampleText : String := "type T = \x7b [k in A]: x.y | 'm' \x7d"

theorem sampleText_parses : ∃ n, parse .file {} sampleText = .ok n := by
  have parses : (parse .file {} sampleText).toOption.any (fun _ => true) = true := by
    decide +kernel
  obtain ⟨n, parsed, -⟩ := exists_of_any parses
  exact ⟨n, parsed⟩

theorem words_of_parse_sampleText : ∃ n, parse .file {} sampleText = .ok n ∧
    n.words = ["T", "k", "A", "x", "y", "m"] := by
  obtain ⟨n, parsed⟩ := sampleText_parses
  exact ⟨n, parsed, (words_of_parse .file {} sampleText n parsed).symm.trans (by decide +kernel)⟩

/-- A parsed tree obeys the laws at each of its nodes. -/
theorem lawful_of_parse (entry : Entry) (options : Options) (text : String) (n : Node)
    (h : parse entry options text = .ok n) : n.Throughout Lawful entry.target := by
  obtain ⟨read, last, -, -, -, -, lawful, -⟩ := parse_reads h
  exact lawful

theorem lawful_of_parse_sampleText : ∃ n, parse .file {} sampleText = .ok n ∧
    n.Throughout Lawful (.shape .sourceFile) := by
  obtain ⟨n, parsed⟩ := sampleText_parses
  exact ⟨n, parsed, lawful_of_parse .file {} sampleText n parsed⟩

end Ambient
