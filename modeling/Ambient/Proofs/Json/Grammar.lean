import Mathlib.Tactic.Common
import Ambient.Json.Reader

namespace Ambient.Json

namespace Syntax

/-- Blanks, and what follows them. -/
def Blanks (cs rest : List Char) : Prop :=
  ∃ blanks, (∀ c ∈ blanks, isBlank c = true) ∧ cs = blanks ++ rest

/-- One digit or more. -/
def Digits (ds : List Char) : Prop := ds ≠ [] ∧ ∀ d ∈ ds, d.isDigit = true

inductive Fraction : List Char → Prop
  | none : Fraction []
  | some {ds : List Char} (digits : Digits ds) : Fraction ('.' :: ds)

inductive Exponent : List Char → Prop
  | none : Exponent []
  | some {e : Char} {sign ds : List Char} (letter : e = 'e' ∨ e = 'E')
    (signed : sign = [] ∨ sign = ['+'] ∨ sign = ['-']) (digits : Digits ds) :
    Exponent (e :: sign ++ ds)

/-- A number. A whole part of several digits does not start with a zero. -/
inductive Number : List Char → Prop
  | mk {sign whole fraction exponent : List Char} (signed : sign = [] ∨ sign = ['-'])
    (digits : Digits whole) (single : whole.head? = some '0' → whole.length = 1)
    (behind : Fraction fraction) (last : Exponent exponent) :
    Number (sign ++ whole ++ fraction ++ exponent)

/-- A string from behind its opening quote on, and what follows it. -/
inductive Chars : List Char → List Char → Prop
  | quote (rest : List Char) : Chars ('"' :: rest) rest
  | plain {c : Char} {cs rest : List Char} (printable : ¬ c.toNat < 0x20) (other : c ≠ '"')
    (unescaped : c ≠ '\\') (more : Chars cs rest) : Chars (c :: cs) rest
  | escape {e : Char} {cs rest : List Char} (known : (escaped? e).isSome) (more : Chars cs rest) :
    Chars ('\\' :: e :: cs) rest
  | unit {a b c d : Char} {cs rest : List Char} (digits : (unit? a b c d).isSome)
    (more : Chars cs rest) : Chars ('\\' :: 'u' :: a :: b :: c :: d :: cs) rest

/-- The key of a member and the colon behind it, and the value that follows them. -/
inductive Key : List Char → List Char → Prop
  | mk {cs behind next value : List Char} (chars : Chars cs behind) (gap : Blanks behind (':' :: next))
    (skip : Blanks next value) : Key ('"' :: cs) value

/-- What stands in a text: a value, or what is inside the brackets of an array or an object. -/
inductive Form where
  | value
  | items
  | members

/-- `Text form cs rest n` says that `cs` starts with something of that form, which nests `n` deep, and
that `rest` follows it. -/
inductive Text : Form → List Char → List Char → Nat → Prop
  | literal (word : List Char) {rest : List Char}
    (known : word ∈ [['n', 'u', 'l', 'l'], ['t', 'r', 'u', 'e'], ['f', 'a', 'l', 's', 'e']]) :
    Text .value (word ++ rest) rest 0
  | string {cs rest : List Char} (chars : Chars cs rest) : Text .value ('"' :: cs) rest 0
  | number {cs rest : List Char} (number : Number cs) : Text .value (cs ++ rest) rest 0
  | emptyArray {cs rest : List Char} (close : Blanks cs (']' :: rest)) : Text .value ('[' :: cs) rest 1
  | array {cs items behind rest : List Char} {n : Nat} (skip : Blanks cs items)
    (inside : Text .items items behind n) (close : Blanks behind (']' :: rest)) :
    Text .value ('[' :: cs) rest (n + 1)
  | emptyObject {cs rest : List Char} (close : Blanks cs ('\x7d' :: rest)) :
    Text .value ('\x7b' :: cs) rest 1
  | object {cs members behind rest : List Char} {n : Nat} (skip : Blanks cs members)
    (inside : Text .members members behind n) (close : Blanks behind ('\x7d' :: rest)) :
    Text .value ('\x7b' :: cs) rest (n + 1)
  | lastItem {cs rest : List Char} {n : Nat} (item : Text .value cs rest n) : Text .items cs rest n
  | item {cs behind next items rest : List Char} {n m : Nat} (item : Text .value cs behind n)
    (gap : Blanks behind (',' :: next)) (skip : Blanks next items) (more : Text .items items rest m) :
    Text .items cs rest (max n m)
  | lastMember {cs value rest : List Char} {n : Nat} (key : Key cs value)
    (item : Text .value value rest n) : Text .members cs rest n
  | member {cs value behind next members rest : List Char} {n m : Nat} (key : Key cs value)
    (item : Text .value value behind n) (gap : Blanks behind (',' :: next))
    (skip : Blanks next members) (more : Text .members members rest m) :
    Text .members cs rest (max n m)

/-- `Opens form cs n` says that something of that form may be read at the start of `cs` up to a place
inside `n` arrays and objects of it. Behind that place anything may stand. -/
inductive Opens : Form → List Char → Nat → Prop
  | here (form : Form) (cs : List Char) : Opens form cs 0
  | array {cs items : List Char} {n : Nat} (skip : Blanks cs items) (inside : Opens .items items n) :
    Opens .value ('[' :: cs) (n + 1)
  | object {cs members : List Char} {n : Nat} (skip : Blanks cs members)
    (inside : Opens .members members n) : Opens .value ('\x7b' :: cs) (n + 1)
  | item {cs : List Char} {n : Nat} (inside : Opens .value cs n) : Opens .items cs n
  | nextItem {cs behind next items : List Char} {n m : Nat} (item : Text .value cs behind m)
    (gap : Blanks behind (',' :: next)) (skip : Blanks next items) (inside : Opens .items items n) :
    Opens .items cs n
  | member {cs value : List Char} {n : Nat} (key : Key cs value) (inside : Opens .value value n) :
    Opens .members cs n
  | nextMember {cs value behind next members : List Char} {n m : Nat} (key : Key cs value)
    (item : Text .value value behind m) (gap : Blanks behind (',' :: next))
    (skip : Blanks next members) (inside : Opens .members members n) : Opens .members cs n

end Syntax

open Syntax

/-- A text that is a JSON document, whose arrays and objects nest `n` deep. -/
def Document (text : String) (n : Nat) : Prop :=
  ∃ cs rest, Blanks text.toList cs ∧ Text .value cs rest n ∧ Blanks rest []

/-- Whether a document may be read at the start of a text up to a place inside `n` arrays and objects. -/
def Reaches (text : String) (n : Nat) : Prop := ∃ cs, Blanks text.toList cs ∧ Opens .value cs n

theorem blanks_skipBlanks (cs : List Char) : Blanks cs (skipBlanks cs) :=
  ⟨cs.takeWhile isBlank, List.all_eq_true.mp List.all_takeWhile,
    List.takeWhile_append_dropWhile.symm⟩

theorem Syntax.Blanks.trans {cs next rest : List Char} (h : Blanks cs next) (g : Blanks next rest) :
    Blanks cs rest := by
  obtain ⟨front, blank, rfl⟩ := h
  obtain ⟨back, blank', rfl⟩ := g
  exact ⟨front ++ back, List.forall_mem_append.mpr ⟨blank, blank'⟩, (List.append_assoc _ _ _).symm⟩

theorem chars_of_readChars? (before cs : List Char) : ∀ {s : String} {rest : List Char},
    readChars? before cs = some (s, rest) → Chars cs rest := by
  fun_induction readChars? before cs with
  | case1 _ cs =>
    intro s rest eq
    cases eq
    exact .quote cs
  | case4 _ _ _ _ _ _ unit _ _ _ _ _ _ _ unit' _ ih =>
    intro s rest eq
    exact .unit (by rw [unit]; rfl) (.unit (by rw [unit']; rfl) (ih eq))
  | case8 _ _ _ _ _ _ _ unit _ _ ih =>
    intro s rest eq
    exact .unit (by rw [unit]; rfl) (ih eq)
  | case10 _ _ _ _ _ known ih =>
    intro s rest eq
    exact .escape (by rw [known]; rfl) (ih eq)
  | case12 _ c _ other _ _ plain ih =>
    intro s rest eq
    simp only [Bool.or_eq_true, decide_eq_true_eq, not_or] at plain
    exact .plain plain.1 other plain.2 (ih eq)
  | case2 | case3 | case5 | case6 | case7 | case9 | case11 | case13 => simp

end Ambient.Json

namespace Ambient.JsonNumber

open Json.Syntax

/-- The digits at the start of a text, if there are any, and what follows them. -/
theorem digits_takeWhile {cs : List Char} (some : ¬ (cs.takeWhile Char.isDigit).isEmpty = true) :
    Digits (cs.takeWhile Char.isDigit) ∧
      cs = cs.takeWhile Char.isDigit ++ cs.dropWhile Char.isDigit :=
  ⟨⟨by simpa using some, List.all_eq_true.mp List.all_takeWhile⟩,
    List.takeWhile_append_dropWhile.symm⟩

theorem fraction_of_readFraction? {cs ds rest : List Char} (eq : readFraction? cs = some (ds, rest)) :
    ∃ t, Fraction t ∧ cs = t ++ rest := by
  unfold readFraction? at eq
  split at eq
  · obtain ⟨some, eq⟩ := Option.ite_none_left_eq_some.mp eq
    obtain ⟨all, parts⟩ := digits_takeWhile some
    cases eq
    exact ⟨_, .some all, congrArg _ parts⟩
  · cases eq
    exact ⟨[], .none, rfl⟩

theorem exponent_of_readExponent? {cs rest : List Char} {e : Option (Bool × List Char)}
    (eq : readExponent? cs = some (e, rest)) : ∃ t, Exponent t ∧ cs = t ++ rest := by
  unfold readExponent? at eq
  split at eq
  · cases eq
    exact ⟨[], .none, rfl⟩
  · split_ifs at eq with letter
    · simp only [Bool.or_eq_true, decide_eq_true_eq] at letter
      split at eq
      rename_i sign
      obtain ⟨some, eq⟩ := Option.ite_none_left_eq_some.mp eq
      obtain ⟨all, parts⟩ := digits_takeWhile some
      cases eq
      split at sign <;> cases sign
      · exact ⟨_, .some letter (.inr (.inl rfl)) all, congrArg (fun cs => _ :: '+' :: cs) parts⟩
      · exact ⟨_, .some letter (.inr (.inr rfl)) all, congrArg (fun cs => _ :: '-' :: cs) parts⟩
      · exact ⟨_, .some letter (.inl rfl) all, congrArg (List.cons _) parts⟩
    · cases eq
      exact ⟨[], .none, rfl⟩

/-- What is read as a number is one of the grammar. -/
theorem number_of_readParts? {cs rest : List Char} {parts : Parts}
    (eq : readParts? cs = some (parts, rest)) : ∃ t, Number t ∧ cs = t ++ rest := by
  unfold readParts? at eq
  split at eq
  rename_i sign
  split at eq
  rename_i first
  split_ifs at eq with some
  · simp at eq
  obtain ⟨⟨fraction, behind⟩, point, eq⟩ := Option.bind_eq_some_iff.mp eq
  obtain ⟨⟨exponent, last⟩, power, eq⟩ := Option.bind_eq_some_iff.mp eq
  cases eq
  cases first
  simp only [Bool.or_eq_true, Bool.and_eq_true, decide_eq_true_eq, not_or, not_and] at some
  obtain ⟨all, whole⟩ := digits_takeWhile some.1
  obtain ⟨t, isFraction, fraction⟩ := fraction_of_readFraction? point
  obtain ⟨u, isExponent, exponent⟩ := exponent_of_readExponent? power
  rw [fraction, exponent] at whole
  have single : (List.takeWhile Char.isDigit _).head? = _ → _ := fun zero =>
    Nat.le_antisymm (Nat.not_lt.mp (some.2 zero)) (List.length_pos_iff.mpr all.1)
  split at sign <;> cases sign
  · exact ⟨_, .mk (.inr rfl) all single isFraction isExponent, by simpa using whole⟩
  · exact ⟨_, .mk (.inl rfl) all single isFraction isExponent, by simpa using whole⟩

theorem number_of_read? {cs rest : List Char} {n : JsonNumber} (eq : read? cs = some (n, rest)) :
    ∃ t, Number t ∧ cs = t ++ rest := by
  obtain ⟨⟨parts, behind⟩, whole, eq⟩ := Option.bind_eq_some_iff.mp eq
  obtain ⟨n, -, eq⟩ := Option.bind_eq_some_iff.mp eq
  cases eq
  exact number_of_readParts? whole

end Ambient.JsonNumber

namespace Ambient.Json

open Syntax

theorem key_of_readChars? {cs chars colon value : List Char} {name : String}
    (start : skipBlanks cs = '"' :: chars) (read : readChars? [] chars = some (name, colon))
    (gap : skipBlanks colon = ':' :: value) : Key (skipBlanks cs) (skipBlanks value) :=
  start ▸ .mk (chars_of_readChars? _ _ read) (gap ▸ blanks_skipBlanks colon) (blanks_skipBlanks value)

mutual

/-- A value that is read is a text of the grammar, and so are items and members up to the bracket that
closes them. -/
theorem text_of_readValue? : ∀ (fuel : Nat) {cs rest : List Char} {v : Json},
    readValue? fuel cs = some (v, rest) → ∃ n, Text .value (skipBlanks cs) rest n
  | 0, _, _, _, eq => nomatch eq
  | fuel + 1, cs, rest, v, eq => by
    rw [readValue?] at eq
    split at eq
    · rename_i is
      cases eq
      exact ⟨0, is ▸ .literal ['n', 'u', 'l', 'l'] (by simp)⟩
    · rename_i is
      cases eq
      exact ⟨0, is ▸ .literal ['t', 'r', 'u', 'e'] (by simp)⟩
    · rename_i is
      cases eq
      exact ⟨0, is ▸ .literal ['f', 'a', 'l', 's', 'e'] (by simp)⟩
    · rename_i is
      obtain ⟨read, chars, eq⟩ := Option.map_eq_some_iff.mp eq
      cases eq
      exact ⟨0, is ▸ .string (chars_of_readChars? _ _ chars)⟩
    · rename_i behind is
      have skip := blanks_skipBlanks behind
      split at eq
      · rename_i close
        cases eq
        exact ⟨1, is ▸ .emptyArray (close ▸ skip)⟩
      · obtain ⟨n, last, items, close⟩ := text_of_readItems? [] fuel eq
        exact ⟨n + 1, is ▸ .array (skip.trans (blanks_skipBlanks _)) items close⟩
    · rename_i behind is
      have skip := blanks_skipBlanks behind
      split at eq
      · rename_i close
        cases eq
        exact ⟨1, is ▸ .emptyObject (close ▸ skip)⟩
      · obtain ⟨n, last, members, close⟩ := text_of_readMembers? [] fuel eq
        exact ⟨n + 1, is ▸ .object (skip.trans (blanks_skipBlanks _)) members close⟩
    · obtain ⟨read, number, eq⟩ := Option.map_eq_some_iff.mp eq
      cases eq
      obtain ⟨t, isNumber, split⟩ := JsonNumber.number_of_read? number
      exact ⟨0, split ▸ .number isNumber⟩

theorem text_of_readItems? (before : List Json) : ∀ (fuel : Nat) {cs rest : List Char} {v : Json},
    readItems? before fuel cs = some (v, rest) →
      ∃ n behind, Text .items (skipBlanks cs) behind n ∧ Blanks behind (']' :: rest)
  | 0, _, _, _, eq => nomatch eq
  | fuel + 1, cs, rest, v, eq => by
    rw [readItems?] at eq
    split at eq
    · cases eq
    rename_i item behind read
    obtain ⟨n, value⟩ := text_of_readValue? fuel read
    have gap := blanks_skipBlanks behind
    split at eq
    · rename_i next is
      obtain ⟨m, last, more, close⟩ := text_of_readItems? (item :: before) fuel eq
      exact ⟨max n m, last, .item value (is ▸ gap) (blanks_skipBlanks next) more, close⟩
    · rename_i is
      cases eq
      exact ⟨n, behind, .lastItem value, is ▸ gap⟩
    · cases eq

theorem text_of_readMembers? (before : List (String × Json)) : ∀ (fuel : Nat) {cs rest : List Char}
    {v : Json}, readMembers? before fuel cs = some (v, rest) →
      ∃ n behind, Text .members (skipBlanks cs) behind n ∧ Blanks behind ('\x7d' :: rest)
  | 0, _, _, _, eq => nomatch eq
  | fuel + 1, cs, rest, v, eq => by
    rw [readMembers?] at eq
    split at eq
    case h_2 => cases eq
    rename_i chars start
    split at eq
    · cases eq
    rename_i name colon inside
    split at eq
    case h_2 => cases eq
    rename_i value is
    have key := key_of_readChars? start inside is
    split at eq
    · cases eq
    rename_i item behind read
    obtain ⟨n, item⟩ := text_of_readValue? fuel read
    have gap := blanks_skipBlanks behind
    split at eq
    · rename_i next is
      obtain ⟨m, last, more, close⟩ := text_of_readMembers? _ fuel eq
      exact ⟨max n m, last, .member key item (is ▸ gap) (blanks_skipBlanks next) more, close⟩
    · rename_i is
      cases eq
      exact ⟨n, behind, .lastMember key item, is ▸ gap⟩
    · cases eq

end

/-- A text that is read is a document. -/
theorem document_of_parse? {text : String} {v : Json} (eq : parse? text = some v) :
    ∃ n, Document text n := by
  rw [parse?] at eq
  split at eq
  case h_2 => cases eq
  rename_i value rest read
  obtain ⟨n, value⟩ := text_of_readValue? _ read
  obtain ⟨last, -⟩ := Option.ite_none_right_eq_some.mp eq
  have behind := blanks_skipBlanks rest
  rw [List.isEmpty_iff.mp last] at behind
  exact ⟨n, _, rest, blanks_skipBlanks _, value, behind⟩

end Ambient.Json
