import Ambient.Interchange.Decode
import Ambient.Proofs.Json.Grammar
import Ambient.Proofs.Json.Nesting

namespace Ambient.Json

open Syntax

namespace Brackets

variable {cs rest : List Char} {depth deepest : Nat}

theorem foldl_blanks (blanks : Blanks cs rest) :
    cs.foldl pass (outside depth deepest) = rest.foldl pass (outside depth deepest) := by
  obtain ⟨front, blank, rfl⟩ := blanks
  exact foldl_neutral _ _ (fun c mem => neutral_of_isBlank (blank c mem)) rest

/-- All that a number is written with besides digits. -/
theorem neutral_of_mem : ∀ c ∈ ['+', '-', '.', 'e', 'E'], Neutral c := by
  simp [Neutral]

theorem neutral_of_fraction (fraction : Fraction cs) : ∀ c ∈ cs, Neutral c := by
  cases fraction with
  | none => simp
  | some digits =>
    exact List.forall_mem_cons.mpr
      ⟨neutral_of_mem _ (by simp), fun c mem => neutral_of_isDigit (digits.2 c mem)⟩

theorem neutral_of_exponent (exponent : Exponent cs) : ∀ c ∈ cs, Neutral c := by
  cases exponent with
  | none => simp
  | some letter signed digits =>
    refine List.forall_mem_cons.mpr ⟨neutral_of_mem _ (by simp [letter]), List.forall_mem_append.mpr
      ⟨fun c mem => neutral_of_mem c ?_, fun c mem => neutral_of_isDigit (digits.2 c mem)⟩⟩
    rcases signed with rfl | rfl | rfl <;> simp_all

theorem neutral_of_number (number : Number cs) : ∀ c ∈ cs, Neutral c := by
  obtain ⟨signed, digits, -, fraction, exponent⟩ := number
  simp only [List.forall_mem_append]
  refine ⟨⟨⟨fun c mem => neutral_of_mem c ?_, fun c mem => neutral_of_isDigit (digits.2 c mem)⟩,
    neutral_of_fraction fraction⟩, neutral_of_exponent exponent⟩
  rcases signed with rfl | rfl <;> simp_all

/-- The digits of an escape do not close a string. -/
theorem hexValue?_ordinary {c : Char} (digit : (hexValue? c).isSome) : c ≠ '\\' ∧ c ≠ '"' := by
  constructor <;> rintro rfl <;> exact absurd digit (by decide)

theorem hexValue?_of_unit? {a b c d : Char} (unit : (unit? a b c d).isSome) :
    (hexValue? a).isSome ∧ (hexValue? b).isSome ∧ (hexValue? c).isSome ∧ (hexValue? d).isSome := by
  simp only [unit?] at unit
  cases ha : hexValue? a <;> cases hb : hexValue? b <;> cases hc : hexValue? c <;>
    cases hd : hexValue? d <;> simp_all

/-- Inside a string no bracket counts, up to the quote that closes it. -/
theorem foldl_chars (chars : Chars cs rest) :
    cs.foldl pass (inside depth deepest) = rest.foldl pass (outside depth deepest) := by
  induction chars with
  | quote rest => simp [inside, outside, pass]
  | plain _ other unescaped _ ih => simpa [inside, pass, other, unescaped] using ih
  | escape _ _ ih => simpa [inside, pass] using ih
  | unit digits _ ih =>
    obtain ⟨a, b, c, d⟩ := hexValue?_of_unit? digits
    simpa [inside, pass, hexValue?_ordinary a, hexValue?_ordinary b, hexValue?_ordinary c,
      hexValue?_ordinary d] using ih

theorem foldl_string (chars : Chars cs rest) :
    ('"' :: cs).foldl pass (outside depth deepest) = rest.foldl pass (outside depth deepest) := by
  rw [List.foldl_cons, pass_quote, foldl_chars chars]

theorem foldl_named (key : Key cs rest) :
    cs.foldl pass (outside depth deepest) = rest.foldl pass (outside depth deepest) := by
  obtain ⟨chars, gap, skip⟩ := key
  rw [foldl_string chars, foldl_blanks gap, List.foldl_cons, pass_neutral _ _ (by simp [Neutral]),
    foldl_blanks skip]

theorem foldl_separator {next : List Char} (gap : Blanks cs (',' :: next)) (skip : Blanks next rest) :
    cs.foldl pass (outside depth deepest) = rest.foldl pass (outside depth deepest) := by
  rw [foldl_blanks gap, List.foldl_cons, pass_neutral _ _ (by simp [Neutral]), foldl_blanks skip]

theorem foldl_closing {c : Char} (closing : c = ']' ∨ c = '\x7d') (close : Blanks cs (c :: rest)) :
    cs.foldl pass (outside (depth + 1) deepest) = rest.foldl pass (outside depth deepest) := by
  rw [foldl_blanks close, List.foldl_cons, pass_close _ _ closing]

theorem neutral_of_literal {word : List Char}
    (known : word ∈ [['n', 'u', 'l', 'l'], ['t', 'r', 'u', 'e'], ['f', 'a', 'l', 's', 'e']]) :
    ∀ c ∈ word, Neutral c := by
  simp only [List.mem_cons, List.not_mem_nil, or_false] at known
  rcases known with rfl | rfl | rfl <;> simp [Neutral]

variable {form : Form} {n : Nat}

/-- Passing over a text takes into account how deep it nests and leaves all else as it was. -/
theorem foldl_text (text : Text form cs rest n) : ∀ {depth deepest : Nat}, depth ≤ deepest →
    cs.foldl pass (outside depth deepest) =
      rest.foldl pass (outside depth (max deepest (depth + n))) := by
  induction text with
  | literal _ known =>
    intro depth deepest le
    rw [foldl_neutral _ _ (neutral_of_literal known), Nat.add_zero, Nat.max_eq_left le]
  | string chars =>
    intro depth deepest le
    rw [foldl_string chars, Nat.add_zero, Nat.max_eq_left le]
  | number number =>
    intro depth deepest le
    rw [foldl_neutral _ _ (neutral_of_number number), Nat.add_zero, Nat.max_eq_left le]
  | emptyArray close =>
    intro depth deepest le
    rw [List.foldl_cons, pass_open _ _ (.inl rfl), foldl_closing (.inl rfl) close]
  | emptyObject close =>
    intro depth deepest le
    rw [List.foldl_cons, pass_open _ _ (.inr rfl), foldl_closing (.inr rfl) close]
  | array skip _ close ih =>
    intro depth deepest le
    rw [List.foldl_cons, pass_open _ _ (.inl rfl), foldl_blanks skip, ih (Nat.le_max_right _ _),
      foldl_closing (.inl rfl) close]
    congr 2
    omega
  | object skip _ close ih =>
    intro depth deepest le
    rw [List.foldl_cons, pass_open _ _ (.inr rfl), foldl_blanks skip, ih (Nat.le_max_right _ _),
      foldl_closing (.inr rfl) close]
    congr 2
    omega
  | lastItem _ ih => exact ih
  | lastMember key _ ih =>
    intro depth deepest le
    rw [foldl_named key, ih le]
  | item _ gap skip _ ih more =>
    intro depth deepest le
    rw [ih le, foldl_separator gap skip, more (by omega)]
    congr 2
    omega
  | member key _ gap skip _ ih more =>
    intro depth deepest le
    rw [foldl_named key, ih le, foldl_separator gap skip, more (by omega)]
    congr 2
    omega

theorem deepest_le_pass (s : Brackets) (c : Char) : s.deepest ≤ (s.pass c).deepest := by
  unfold pass
  split_ifs <;> first | exact Nat.le_refl _ | exact Nat.le_max_left _ _

/-- What has been counted stays counted. -/
theorem deepest_le_foldl (cs : List Char) (s : Brackets) : s.deepest ≤ (cs.foldl pass s).deepest := by
  induction cs generalizing s with
  | nil => exact Nat.le_refl _
  | cons c cs ih => exact Nat.le_trans (deepest_le_pass s c) (ih _)

/-- All brackets count that are open at some place. -/
theorem le_deepest_of_opens (opens : Opens form cs n) : ∀ {depth deepest : Nat}, depth ≤ deepest →
    depth + n ≤ (cs.foldl pass (outside depth deepest)).deepest := by
  induction opens with
  | here form cs =>
    intro depth deepest le
    exact Nat.le_trans le (deepest_le_foldl cs (outside _ deepest))
  | array skip _ ih =>
    intro depth deepest le
    rw [List.foldl_cons, pass_open _ _ (.inl rfl), foldl_blanks skip, Nat.add_left_comm]
    have inside := ih (Nat.le_max_right deepest (depth + 1))
    omega
  | object skip _ ih =>
    intro depth deepest le
    rw [List.foldl_cons, pass_open _ _ (.inr rfl), foldl_blanks skip]
    have inside := ih (Nat.le_max_right deepest (depth + 1))
    omega
  | item _ ih => exact ih
  | member key _ ih =>
    intro depth deepest le
    rw [foldl_named key]
    exact ih le
  | nextItem item gap skip _ ih =>
    intro depth deepest le
    rw [foldl_text item le, foldl_separator gap skip]
    exact ih (Nat.le_trans le (Nat.le_max_left _ _))
  | nextMember key item gap skip _ ih =>
    intro depth deepest le
    rw [foldl_named key, foldl_text item le, foldl_separator gap skip]
    exact ih (Nat.le_trans le (Nat.le_max_left _ _))

end Brackets

/-- The brackets of a document nest as deep as its arrays and objects. -/
theorem nestingDepth_of_document {text : String} {n : Nat} (document : Document text n) :
    nestingDepth text = n := by
  obtain ⟨cs, rest, front, value, back⟩ := document
  change (text.toList.foldl Brackets.pass (Brackets.outside 0 0)).deepest = n
  rw [Brackets.foldl_blanks front, Brackets.foldl_text value (Nat.le_refl 0), Brackets.foldl_blanks back]
  simp [Brackets.outside]

/-- No more arrays and objects are open at any place than brackets nest. -/
theorem le_nestingDepth_of_reaches {text : String} {n : Nat} (reaches : Reaches text n) :
    n ≤ nestingDepth text := by
  obtain ⟨cs, front, opens⟩ := reaches
  change n ≤ (text.toList.foldl Brackets.pass (Brackets.outside 0 0)).deepest
  rw [Brackets.foldl_blanks front]
  simpa using Brackets.le_deepest_of_opens opens (Nat.le_refl 0)

mutual

/-- What `readValue?` gives inside so many arrays and objects, and how many are open at once at
most. -/
def watchValue (opened : Nat) : Nat → List Char → Option (Json × List Char) × Nat
  | 0, _ => (none, opened)
  | fuel + 1, cs =>
    match skipBlanks cs with
    | '[' :: rest =>
      match skipBlanks rest with
      | ']' :: rest => (some (.array [], rest), opened + 1)
      | rest => watchItems (opened + 1) [] fuel rest
    | '\x7b' :: rest =>
      match skipBlanks rest with
      | '\x7d' :: rest => (some (.object [], rest), opened + 1)
      | rest => watchMembers (opened + 1) [] fuel rest
    | _ => (readValue? (fuel + 1) cs, opened)

def watchItems (opened : Nat) (before : List Json) :
    Nat → List Char → Option (Json × List Char) × Nat
  | 0, _ => (none, opened)
  | fuel + 1, cs =>
    match watchValue opened fuel cs with
    | (none, most) => (none, most)
    | (some (item, rest), most) =>
      match skipBlanks rest with
      | ',' :: rest => (watchItems opened (item :: before) fuel rest).map id (max most)
      | ']' :: rest => (some (.array (item :: before).reverse, rest), most)
      | _ => (none, most)

def watchMembers (opened : Nat) (before : List (String × Json)) :
    Nat → List Char → Option (Json × List Char) × Nat
  | 0, _ => (none, opened)
  | fuel + 1, cs =>
    match skipBlanks cs with
    | '"' :: rest =>
      match readChars? [] rest with
      | none => (none, opened)
      | some (key, rest) =>
        match skipBlanks rest with
        | ':' :: rest =>
          match watchValue opened fuel rest with
          | (none, most) => (none, most)
          | (some (value, rest), most) =>
            match skipBlanks rest with
            | ',' :: rest =>
              (watchMembers opened (insertMember key value before) fuel rest).map id (max most)
            | '\x7d' :: rest => (some (.object (insertMember key value before), rest), most)
            | _ => (none, most)
        | _ => (none, opened)
    | _ => (none, opened)

end

mutual

/-- Watching changes nothing about what is read. -/
theorem watchValue_fst (opened : Nat) : ∀ (fuel : Nat) (cs : List Char),
    (watchValue opened fuel cs).1 = readValue? fuel cs
  | 0, _ => by rw [watchValue, readValue?]
  | fuel + 1, cs => by
    rw [watchValue]
    split
    · rename_i is
      split
      · rename_i close
        simp only [readValue?, is, close]
      · simp only [readValue?, is, watchItems_fst]
    · rename_i is
      split
      · rename_i close
        simp only [readValue?, is, close]
      · simp only [readValue?, is, watchMembers_fst]
    · rfl

theorem watchItems_fst (opened : Nat) (before : List Json) : ∀ (fuel : Nat) (cs : List Char),
    (watchItems opened before fuel cs).1 = readItems? before fuel cs
  | 0, _ => by rw [watchItems, readItems?]
  | fuel + 1, cs => by
    have value := watchValue_fst opened fuel cs
    rw [watchItems]
    split
    · rename_i watched
      simp only [readItems?, ← value, watched]
    · rename_i watched
      split
      · rename_i next
        simp only [readItems?, ← value, watched, next, Prod.map_fst, id, watchItems_fst]
      · rename_i close
        simp only [readItems?, ← value, watched, close]
      · simp only [readItems?, ← value, watched]

theorem watchMembers_fst (opened : Nat) (before : List (String × Json)) : ∀ (fuel : Nat)
    (cs : List Char), (watchMembers opened before fuel cs).1 = readMembers? before fuel cs
  | 0, _ => by rw [watchMembers, readMembers?]
  | fuel + 1, cs => by
    rw [watchMembers]
    split
    case h_2 => simp only [readMembers?]
    rename_i start
    split
    · rename_i chars
      simp only [readMembers?, start, chars]
    rename_i chars
    split
    case h_2 => simp only [readMembers?, start, chars]
    rename_i next colon
    have value := watchValue_fst opened fuel next
    split
    · rename_i watched
      simp only [readMembers?, start, chars, colon, ← value, watched]
    · rename_i watched
      split
      · rename_i next
        simp only [readMembers?, start, chars, colon, ← value, watched, next, Prod.map_fst, id,
          watchMembers_fst]
      · rename_i close
        simp only [readMembers?, start, chars, colon, ← value, watched, close]
      · simp only [readMembers?, start, chars, colon, ← value, watched]

end

/-- The greater of two numbers of arrays and objects that are open at some place. -/
theorem Syntax.Opens.greater {form : Form} {cs : List Char} {opened most later n m : Nat}
    (here : most = opened + n) (there : later = opened + m) (opens : Opens form cs n)
    (opens' : Opens form cs m) : ∃ k, max most later = opened + k ∧ Opens form cs k := by
  rcases Nat.le_total n m with le | le
  · exact ⟨m, by omega, opens'⟩
  · exact ⟨n, by omega, opens⟩

mutual

/-- What is open at once at most while a value is read is open at some place of it. -/
theorem watchValue_snd (opened : Nat) : ∀ (fuel : Nat) (cs : List Char),
    ∃ n, (watchValue opened fuel cs).2 = opened + n ∧ Opens .value (skipBlanks cs) n
  | 0, cs => ⟨0, by rw [watchValue]; rfl, .here _ _⟩
  | fuel + 1, cs => by
    rw [watchValue]
    split
    · rename_i rest is
      have skip := blanks_skipBlanks rest
      rw [is]
      split
      · exact ⟨1, rfl, .array skip (.here _ _)⟩
      · obtain ⟨n, most, opens⟩ := watchItems_snd (opened + 1) [] fuel (skipBlanks rest)
        exact ⟨n + 1, by rw [most]; omega, .array (skip.trans (blanks_skipBlanks _)) opens⟩
    · rename_i rest is
      have skip := blanks_skipBlanks rest
      rw [is]
      split
      · exact ⟨1, rfl, .object skip (.here _ _)⟩
      · obtain ⟨n, most, opens⟩ := watchMembers_snd (opened + 1) [] fuel (skipBlanks rest)
        exact ⟨n + 1, by rw [most]; omega, .object (skip.trans (blanks_skipBlanks _)) opens⟩
    · exact ⟨0, rfl, .here _ _⟩

theorem watchItems_snd (opened : Nat) (before : List Json) : ∀ (fuel : Nat) (cs : List Char),
    ∃ n, (watchItems opened before fuel cs).2 = opened + n ∧ Opens .items (skipBlanks cs) n
  | 0, cs => ⟨0, by rw [watchItems]; rfl, .here _ _⟩
  | fuel + 1, cs => by
    have read := watchValue_fst opened fuel cs
    obtain ⟨n, here, opens⟩ := watchValue_snd opened fuel cs
    rw [watchItems]
    split
    · rename_i watched
      rw [watched] at here
      exact ⟨n, here, .item opens⟩
    · rename_i item behind most watched
      rw [watched] at here read
      split
      · rename_i next is
        obtain ⟨_, value⟩ := text_of_readValue? fuel read.symm
        obtain ⟨m, later, opens'⟩ := watchItems_snd opened (item :: before) fuel next
        have more := Opens.nextItem value (is ▸ blanks_skipBlanks behind) (blanks_skipBlanks next)
          opens'
        exact Opens.greater here later (.item opens) more
      · exact ⟨n, here, .item opens⟩
      · exact ⟨n, here, .item opens⟩

theorem watchMembers_snd (opened : Nat) (before : List (String × Json)) : ∀ (fuel : Nat)
    (cs : List Char),
    ∃ n, (watchMembers opened before fuel cs).2 = opened + n ∧ Opens .members (skipBlanks cs) n
  | 0, cs => ⟨0, by rw [watchMembers]; rfl, .here _ _⟩
  | fuel + 1, cs => by
    rw [watchMembers]
    split
    case h_2 => exact ⟨0, rfl, .here _ _⟩
    rename_i chars start
    split
    · exact ⟨0, rfl, .here _ _⟩
    rename_i name colon inside
    split
    case h_2 => exact ⟨0, rfl, .here _ _⟩
    rename_i value is
    have key := key_of_readChars? start inside is
    have read := watchValue_fst opened fuel value
    obtain ⟨n, here, opens⟩ := watchValue_snd opened fuel value
    split
    · rename_i watched
      rw [watched] at here
      exact ⟨n, here, .member key opens⟩
    · rename_i item behind most watched
      rw [watched] at here read
      split
      · rename_i next is
        obtain ⟨_, item⟩ := text_of_readValue? fuel read.symm
        obtain ⟨m, later, opens'⟩ := watchMembers_snd opened _ fuel next
        have more := Opens.nextMember key item (is ▸ blanks_skipBlanks behind) (blanks_skipBlanks next)
          opens'
        exact Opens.greater here later (.member key opens) more
      · exact ⟨n, here, .member key opens⟩
      · exact ⟨n, here, .member key opens⟩

end

/-- What `parse?` gives, and how many arrays and objects are open at once at most. -/
def watch (text : String) : Option Json × Nat :=
  match watchValue 0 (text.length + 1) text.toList with
  | (some (value, rest), most) => (if (skipBlanks rest).isEmpty then some value else none, most)
  | (none, most) => (none, most)

theorem watch_fst (text : String) : (watch text).1 = parse? text := by
  rw [watch, parse?, ← watchValue_fst 0]
  split <;> simp only [*]

theorem reaches_watch (text : String) : Reaches text (watch text).2 := by
  obtain ⟨n, most, opens⟩ := watchValue_snd 0 (text.length + 1) text.toList
  rw [Nat.zero_add] at most
  have same : (watch text).2 = (watchValue 0 (text.length + 1) text.toList).2 := by
    rw [watch]
    split <;> simp only [*]
  exact ⟨_, blanks_skipBlanks _, same ▸ most ▸ opens⟩

end Ambient.Json

namespace Ambient

open Json

/-- What `decodeText` gives, and how many arrays and objects are open at once at most. -/
def watchText (t : Target) (text : String) : Except DecodeError Node × Nat :=
  if maxNesting < nestingDepth text then (.error .tooDeep, 0)
  else
    match watch text with
    | (none, most) => (.error .malformed, most)
    | (some v, most) => (decode t v, most)

theorem watchText_fst (t : Target) (text : String) : (watchText t text).1 = decodeText t text := by
  rw [watchText, decodeText, ← watch_fst]
  split
  · rfl
  · split <;> simp only [*]

theorem watchText_snd_le (t : Target) (text : String) : (watchText t text).2 ≤ maxNesting := by
  have le := le_nestingDepth_of_reaches (reaches_watch text)
  rw [watchText]
  split
  · exact Nat.zero_le _
  · rename_i few
    have bound := Nat.le_trans le (Nat.not_lt.mp few)
    split <;> rename_i watched <;> rwa [watched] at bound

theorem decode_ne_tooDeep (t : Target) (v : Json) : decode t v ≠ .error .tooDeep := by
  intro eq
  unfold decode decodeKind at eq
  split at eq
  · change (if _ then _ else _) = _ at eq
    split_ifs at eq
    · cases read : readNode (v.depth + 1) t v with
      | ok n => rw [read] at eq; cases eq
      | error e => rw [read] at eq; cases eq
    · cases eq
  · cases eq
  · cases eq

/-- Nothing but the guard answers that a text nests too deep. -/
theorem decodeText_tooDeep_iff (t : Target) (text : String) :
    decodeText t text = .error .tooDeep ↔ maxNesting < nestingDepth text := by
  unfold decodeText
  split_ifs with deep
  · exact iff_of_true rfl deep
  · refine iff_of_false ?_ deep
    split
    · nofun
    · exact decode_ne_tooDeep t _

/-- How deep the brackets of a text nest is how deep its arrays and objects nest if it is a document, so
that a document is refused for that just if it nests too deep. For any text it bounds how many arrays
and objects are open at any place, so that no more of them are ever open while a text is read than a
document may have. -/
theorem nestingDepth_guards (text : String) :
    (∀ n, Document text n → nestingDepth text = n ∧
      ∀ t, decodeText t text = .error .tooDeep ↔ maxNesting < n) ∧
    (∀ n, Reaches text n → n ≤ nestingDepth text) ∧
    ((watch text).1 = parse? text ∧ (watch text).2 ≤ nestingDepth text) ∧
    ∀ t, (watchText t text).1 = decodeText t text ∧ (watchText t text).2 ≤ maxNesting := by
  refine ⟨fun n document => ?_, fun n => le_nestingDepth_of_reaches,
    ⟨watch_fst text, le_nestingDepth_of_reaches (reaches_watch text)⟩,
    fun t => ⟨watchText_fst t text, watchText_snd_le t text⟩⟩
  have depth := nestingDepth_of_document document
  exact ⟨depth, fun t => depth ▸ decodeText_tooDeep_iff t text⟩

/-- Brackets in a string, and a key that comes again. -/
theorem nestingDepth_guards_repeated : Document "[\x7b\"a\":[[]],\"a\":\"][\"\x7d]" 4 := by
  let text := "[\x7b\"a\":[[]],\"a\":\"][\"\x7d]"
  have read : (parse? text).isSome = true := by decide +kernel
  obtain ⟨v, parsed⟩ := Option.isSome_iff_exists.mp read
  obtain ⟨n, document⟩ := document_of_parse? parsed
  obtain ⟨depth, -⟩ := (nestingDepth_guards text).1 n document
  have four : nestingDepth text = 4 := by decide +kernel
  exact depth.symm.trans four ▸ document

end Ambient
