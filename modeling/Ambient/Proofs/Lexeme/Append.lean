import Ambient.Proofs.Lexeme.Scans
import Ambient.Proofs.Lexeme.Spelling

namespace Ambient

section

variable {p : Char → Bool} {x : Char} (stop : p x = false) (cs ds : List Char)
include stop

theorem takeWhile_lines : (cs ++ x :: ds).takeWhile p = cs.takeWhile p := by
  induction cs with
  | nil => rw [List.nil_append, List.takeWhile_cons_of_neg (by simp [stop]), List.takeWhile_nil]
  | cons c cs ih => simp only [List.cons_append, List.takeWhile_cons, ih]

theorem dropWhile_lines :
    (cs ++ x :: ds).dropWhile p = cs.dropWhile p ++ x :: ds := by
  induction cs with
  | nil => rw [List.nil_append, List.dropWhile_cons_of_neg (by simp [stop])]; rfl
  | cons c cs ih =>
    simp only [List.cons_append, List.dropWhile_cons, ih]
    split <;> rfl

end

/-- The characters that end a token, unless it is a string literal. -/
class Delimiter (x : Char) : Prop where
  either : x = ' ' ∨ x = '\n' ∨ x = '\r'

instance : Delimiter ' ' := ⟨.inl rfl⟩

namespace Delimiter

variable (x : Char) [delimiter : Delimiter x]

theorem isDigit_eq : isDigit x = false := by
  rcases delimiter.either with rfl | rfl | rfl <;> rfl

theorem isHexDigit_eq : isHexDigit x = false := by
  rcases delimiter.either with rfl | rfl | rfl <;> rfl

theorem isIdentifierPart_eq : isIdentifierPart x = false := by
  rcases delimiter.either with rfl | rfl | rfl <;> decide +kernel

/-- A token goes on with no such character, but for a string literal, and no comment starts with
one. -/
theorem not_mem : x ∉ ['e', 'E', '+', '-', '.', 'x', 'X', '>', '"', '\'', '/', '*'] := by
  rcases delimiter.either with rfl | rfl | rfl <;> decide

end Delimiter

/-- The characters with which a line can end. -/
class LineEnd (x : Char) : Prop where
  either : x = '\n' ∨ x = '\r'

instance : LineEnd '\n' := ⟨.inl rfl⟩

instance : LineEnd '\r' := ⟨.inr rfl⟩

instance (x : Char) [line : LineEnd x] : Delimiter x := ⟨.inr line.either⟩

theorem LineEnd.isLineBreak_eq (x : Char) [line : LineEnd x] : isLineBreak x = true := by
  rcases line.either with rfl | rfl <;> rfl

namespace Trivia

variable {cs rest : List Char} {t : Trivia}

theorem bodyLength?_append {n m : Nat} (h : bodyLength? n cs = some m) (ds : List Char) :
    bodyLength? n (cs ++ ds) = some m ∧ m + 2 ≤ n + cs.length := by
  fun_induction bodyLength? n cs with
  | case1 => cases h
  | case2 n cs =>
    obtain rfl := Option.some.inj h
    exact ⟨rfl, by simp only [List.length_cons]; omega⟩
  | case3 n c cs differ ih =>
    obtain ⟨found, le⟩ := ih h
    refine ⟨?_, by simp only [List.length_cons]; omega⟩
    rw [← found, List.cons_append, bodyLength?]
    rintro ds' rfl eq
    cases cs with
    | nil => cases h
    | cons d cs =>
      obtain ⟨rfl, -⟩ := List.cons.inj eq
      exact differ cs rfl rfl

/-- Whether a comment starts a text. -/
def Opens (cs : List Char) : Prop := ∃ ds, cs = '/' :: '/' :: ds ∨ cs = '/' :: '*' :: ds

theorem front_of_not_opens {c : Char} (h : ¬ Opens (c :: cs)) :
    front (c :: cs) = if Ambient.isLineBreak c then .piece (.lineBreak c) cs
      else if isBlank c then .piece (.blank c) cs else .token := by
  rw [front]
  · rintro ds rfl rfl
    exact h ⟨ds, .inl rfl⟩
  · rintro ds rfl rfl
    exact h ⟨ds, .inr rfl⟩

theorem not_opens_cons {c : Char} (no_slash : c ≠ '/') (cs : List Char) : ¬ Opens (c :: cs) := by
  rintro ⟨ds, eq | eq⟩ <;> exact no_slash (List.cons.inj eq).1

theorem front_lineBreak {c : Char} (breaks : Ambient.isLineBreak c = true) (cs : List Char) :
    front (c :: cs) = .piece (.lineBreak c) cs := by
  have no_slash : c ≠ '/' := by
    rintro rfl
    cases breaks
  rw [front_of_not_opens (not_opens_cons no_slash cs), if_pos breaks]

theorem front_blank {c : Char} (plain : ¬ Ambient.isLineBreak c = true) (blank : isBlank c = true)
    (cs : List Char) : front (c :: cs) = .piece (.blank c) cs := by
  have no_slash : c ≠ '/' := by
    rintro rfl
    cases blank
  rw [front_of_not_opens (not_opens_cons no_slash cs), if_neg plain, if_pos blank]

theorem not_opens_of_token (h : front cs = .token) : ¬ Opens cs := by
  intro ⟨ds, opens⟩
  obtain rfl | rfl := opens
  · cases h
  · rw [front] at h
    split at h <;> cases h

/-- A token starts where no comment starts and what stands there is neither blank nor a line break. -/
theorem front_eq_token_iff {c : Char} : front (c :: cs) = .token ↔
    ¬ Opens (c :: cs) ∧ Ambient.isLineBreak c = false ∧ isBlank c = false := by
  constructor
  · intro token
    have closed := not_opens_of_token token
    rw [front_of_not_opens closed] at token
    split_ifs at token with lineBreak blank
    exact ⟨closed, Bool.eq_false_of_not_eq_true lineBreak, Bool.eq_false_of_not_eq_true blank⟩
  · intro ⟨closed, notLineBreak, notBlank⟩
    rw [front_of_not_opens closed, notLineBreak, notBlank]
    rfl

/-- No comment starts across a delimiter. -/
theorem not_opens_lines (b : Char) [Delimiter b] (ds : List Char) (h : ¬ Opens cs) :
    ¬ Opens (cs ++ b :: ds) := by
  have other := Delimiter.not_mem b
  simp only [List.mem_cons, not_or] at other
  rintro ⟨es, eq⟩
  rcases cs with _ | ⟨c, _ | ⟨d, cs⟩⟩
  · simp [other] at eq
  · simp [other] at eq
  · refine h ⟨cs, ?_⟩
    simp only [List.cons_append, List.cons.injEq] at eq ⊢
    tauto

theorem front_lines (ds : List Char) (h : front cs = .piece t rest) :
    front (cs ++ '\n' :: ds) = .piece t (rest ++ '\n' :: ds) := by
  unfold front at h
  split at h
  · obtain ⟨rfl, rfl⟩ := Front.piece.inj h
    simp only [List.cons_append, front]
    rw [takeWhile_lines rfl, dropWhile_lines rfl]
  · rename_i cs
    split at h
    · rename_i n found
      obtain ⟨rfl, rfl⟩ := Front.piece.inj h
      obtain ⟨found', le⟩ := bodyLength?_append found ('\n' :: ds)
      simp only [List.cons_append, front, found']
      rw [List.take_append_of_le_length (by omega), List.drop_append_of_le_length (by omega)]
    · cases h
  · rename_i c cs line block
    have closed : ¬ Opens (c :: cs) := by
      rintro ⟨es, eq | eq⟩
      · exact line es (List.cons.inj eq).1 (List.cons.inj eq).2
      · exact block es (List.cons.inj eq).1 (List.cons.inj eq).2
    have later : ¬ Opens (c :: (cs ++ '\n' :: ds)) := not_opens_lines _ ds closed
    rw [List.cons_append, front_of_not_opens later]
    split_ifs at h ⊢ with is_break blank
    · obtain ⟨rfl, rfl⟩ := Front.piece.inj h
      rfl
    · obtain ⟨rfl, rfl⟩ := Front.piece.inj h
      rfl
  · cases h

theorem front_lines_token (b : Char) [Delimiter b] (ds : List Char) (h : front cs = .token)
    (some_left : cs ≠ []) : front (cs ++ b :: ds) = .token := by
  cases cs with
  | nil => exact absurd rfl some_left
  | cons c cs =>
    obtain ⟨closed, plain⟩ := front_eq_token_iff.mp h
    exact front_eq_token_iff.mpr ⟨not_opens_lines b ds closed, plain⟩

theorem skipFrom_piece (skipped : List Trivia) (h : front cs = .piece t rest) :
    skipFrom skipped cs = skipFrom (t :: skipped) rest := by
  rw [skipFrom]
  split
  · rename_i t' rest' eq
    obtain ⟨rfl, rfl⟩ := Front.piece.inj (h.symm.trans eq)
    rfl
  · rename_i eq
    cases h.symm.trans eq
  · rename_i eq
    cases h.symm.trans eq

theorem skipFrom_of_unclosed {skipped : List Trivia} (h : front cs = .unclosed) :
    skipFrom skipped cs = ⟨skipped.reverse, cs, false⟩ := by
  rw [skipFrom]
  split
  · simp_all
  · rfl
  · simp_all

theorem front_rest_skipFrom (skipped : List Trivia) (cs : List Char)
    (closed : (skipFrom skipped cs).closed = true) : front (skipFrom skipped cs).rest = .token := by
  fun_induction skipFrom skipped cs with
  | case1 _ _ _ _ _ ih => exact ih closed
  | case2 => cases closed
  | case3 _ _ front => exact front

/-- Where a text goes on behind a line break, its trivia at the start are the same, and others
follow if these are all of it. -/
theorem skipFrom_lines (skipped : List Trivia) (cs ds : List Char)
    (closed : (skipFrom skipped cs).closed = true) :
    skipFrom skipped (cs ++ '\n' :: ds) =
      if (skipFrom skipped cs).rest = [] then
        skipFrom (skipFrom skipped cs).pieces.reverse ('\n' :: ds)
      else ⟨(skipFrom skipped cs).pieces, (skipFrom skipped cs).rest ++ '\n' :: ds, true⟩ := by
  fun_induction skipFrom skipped cs with
  | case1 skipped cs t rest front ih => rw [← ih closed, skipFrom_piece _ (front_lines ds front)]
  | case2 => cases closed
  | case3 skipped cs front =>
    split_ifs with none
    · obtain rfl : cs = [] := none
      rw [List.reverse_reverse]
      rfl
    · exact skipFrom_of_token (front_lines_token '\n' ds front none)

theorem skipFrom_eq (skipped : List Trivia) (cs : List Char) : skipFrom skipped cs =
    ⟨skipped.reverse ++ (skip cs).pieces, (skip cs).rest, (skip cs).closed⟩ := by
  rcases h : front cs with ⟨t, rest⟩ | _ | _
  · rw [skip, skipFrom_piece skipped h, skipFrom_piece [] h, skipFrom_eq (t :: skipped) rest,
      skipFrom_eq [t] rest]
    simp
  · rw [skip, skipFrom_of_unclosed h, skipFrom_of_unclosed h]
    simp
  · rw [skip, skipFrom_of_token h, skipFrom_of_token h]
    simp
termination_by cs.length
decreasing_by all_goals exact length_lt_of_front h

end Trivia

namespace Reading

section

variable (b : Char) [Delimiter b] (cs ds : List Char)

theorem digitCount_lines : digitCount (cs ++ b :: ds) = digitCount cs := by
  rw [digitCount, digitCount, takeWhile_lines (Delimiter.isDigit_eq b)]

omit [Delimiter b] in
theorem digitCount_le : digitCount cs ≤ cs.length := (List.takeWhile_prefix _).length_le

/-- Whether a sign comes first. -/
abbrev isSigned : List Char → Bool
  | s :: _ => s = '+' || s = '-'
  | [] => false

theorem exponent_cons {e : Char} (is : (e = 'e' || e = 'E') = true) (n : Nat) :
    exponent n (e :: cs) =
      ⟨.numericLiteral, n + 1 + (if isSigned cs then 1 else 0) +
        digitCount (cs.drop (if isSigned cs then 1 else 0)),
        if digitCount (cs.drop (if isSigned cs then 1 else 0)) = 0 then some .digitExpected
          else none⟩ :=
  if_pos is

theorem exponent_cons_other {e : Char} (is_not : ¬ (e = 'e' || e = 'E') = true) (n : Nat) :
    exponent n (e :: cs) = ⟨.numericLiteral, n, none⟩ := if_neg is_not

theorem exponent_lines (n : Nat) :
    exponent n (cs ++ b :: ds) = exponent n cs ∧ (exponent n cs).length ≤ n + cs.length := by
  have other := Delimiter.not_mem b
  simp only [List.mem_cons, not_or] at other
  cases cs with
  | nil => exact ⟨exponent_cons_other _ (by simp [other]) n, Nat.le_refl _⟩
  | cons e cs =>
    have signed : isSigned (cs ++ b :: ds) = isSigned cs := by
      cases cs with
      | nil => simp [isSigned, other]
      | cons => rfl
    have sign_le : (if isSigned cs then 1 else 0) ≤ cs.length := by
      cases cs
      · simp [isSigned]
      · split <;> simp
    have most := digitCount_le (cs.drop (if isSigned cs then 1 else 0))
    rw [List.length_drop] at most
    rw [List.cons_append]
    by_cases is : (e = 'e' || e = 'E') = true
    · rw [exponent_cons _ is, exponent_cons _ is, signed, List.drop_append_of_le_length sign_le,
        digitCount_lines]
      refine ⟨rfl, ?_⟩
      simp only [List.length_cons]
      omega
    · rw [exponent_cons_other _ is, exponent_cons_other _ is]
      exact ⟨rfl, Nat.le_add_right _ _⟩

variable {cs} in
theorem decimal_point {rest : List Char} (h : cs.drop (digitCount cs) = '.' :: rest) :
    decimal cs = exponent (digitCount cs + 1 + digitCount rest) (rest.drop (digitCount rest)) := by
  rw [decimal]
  simp only [h]

variable {cs} in
theorem decimal_plain (h : ∀ rest, cs.drop (digitCount cs) ≠ '.' :: rest) :
    decimal cs = exponent (digitCount cs) (cs.drop (digitCount cs)) := by
  rw [decimal]
  split
  · rename_i rest eq
    exact absurd eq (h rest)
  · rfl

theorem decimal_lines : decimal (cs ++ b :: ds) = decimal cs ∧ (decimal cs).length ≤ cs.length := by
  have most := digitCount_le cs
  have left : (cs.drop (digitCount cs)).length = cs.length - digitCount cs := List.length_drop
  have later : (cs ++ b :: ds).drop (digitCount (cs ++ b :: ds)) =
      cs.drop (digitCount cs) ++ b :: ds := by
    rw [digitCount_lines, List.drop_append_of_le_length most]
  by_cases point : ∃ rest, cs.drop (digitCount cs) = '.' :: rest
  · obtain ⟨rest, point⟩ := point
    have fraction := digitCount_le rest
    have point' := later
    rw [point, List.cons_append] at point'
    obtain ⟨same, le⟩ := exponent_lines b (rest.drop (digitCount rest)) ds
      (digitCount cs + 1 + digitCount rest)
    rw [decimal_point point, decimal_point point', digitCount_lines, digitCount_lines,
      List.drop_append_of_le_length fraction]
    refine ⟨same, Nat.le_trans le ?_⟩
    rw [point, List.length_cons] at left
    rw [List.length_drop]
    omega
  · have plain : ∀ rest, cs.drop (digitCount cs) ≠ '.' :: rest := fun rest eq => point ⟨rest, eq⟩
    have plain' : ∀ rest, (cs ++ b :: ds).drop (digitCount (cs ++ b :: ds)) ≠ '.' :: rest := by
      intro rest eq
      rw [later] at eq
      rcases rests : cs.drop (digitCount cs) with _ | ⟨c, rest'⟩
      · rw [rests, List.nil_append] at eq
        exact absurd (List.cons.inj eq).1 (by rintro rfl; exact Delimiter.not_mem '.' (by decide))
      · rw [rests, List.cons_append] at eq
        exact plain rest' (by rw [rests, (List.cons.inj eq).1])
    obtain ⟨same, le⟩ := exponent_lines b (cs.drop (digitCount cs)) ds (digitCount cs)
    rw [decimal_plain plain, decimal_plain plain', later, digitCount_lines]
    exact ⟨same, by omega⟩

theorem hexadecimal_lines :
    hexadecimal (cs ++ b :: ds) = hexadecimal cs ∧ (hexadecimal cs).length ≤ 2 + cs.length := by
  rw [hexadecimal, hexadecimal, takeWhile_lines (Delimiter.isHexDigit_eq b)]
  exact ⟨rfl, Nat.add_le_add_left (List.takeWhile_prefix _).length_le 2⟩

/-- A number that is not hexadecimal. -/
theorem number_decimal {cs : List Char} (h : ∀ x rest, x = 'x' ∨ x = 'X' → cs ≠ '0' :: x :: rest) :
    number cs = decimal cs := by
  unfold number
  split
  · exact absurd rfl (h 'x' _ (.inl rfl))
  · exact absurd rfl (h 'X' _ (.inr rfl))
  · rfl

theorem number_lines : number (cs ++ b :: ds) = number cs ∧ (number cs).length ≤ cs.length := by
  by_cases hex : ∃ x rest, (x = 'x' ∨ x = 'X') ∧ cs = '0' :: x :: rest
  · obtain ⟨x, rest, is, rfl⟩ := hex
    obtain ⟨same, le⟩ := hexadecimal_lines b rest ds
    have number_eq (cs : List Char) : number ('0' :: x :: cs) = hexadecimal cs := by
      rcases is with rfl | rfl <;> rfl
    rw [List.cons_append, List.cons_append, number_eq, number_eq]
    exact ⟨same, by simp only [List.length_cons]; omega⟩
  · have plain : ∀ x rest, x = 'x' ∨ x = 'X' → cs ≠ '0' :: x :: rest :=
      fun x rest is eq => hex ⟨x, rest, is, eq⟩
    have plain' : ∀ x rest, x = 'x' ∨ x = 'X' → cs ++ b :: ds ≠ '0' :: x :: rest := by
      intro x rest is eq
      rcases cs with _ | ⟨c, _ | ⟨d, cs⟩⟩
      · obtain ⟨rfl, -⟩ := List.cons.inj eq
        exact absurd (Delimiter.isDigit_eq '0') (by decide)
      · obtain ⟨-, rfl, -⟩ := by simpa using eq
        exact Delimiter.not_mem b (by rcases is with rfl | rfl <;> decide)
      · simp only [List.cons_append, List.cons.injEq] at eq
        obtain ⟨rfl, rfl, -⟩ := eq
        exact plain d cs is rfl
    rw [number_decimal plain, number_decimal plain']
    exact decimal_lines b cs ds

theorem word_lines : word (cs ++ b :: ds) = word cs ∧ (word cs).length ≤ cs.length := by
  rw [word, word, takeWhile_lines (Delimiter.isIdentifierPart_eq b)]
  exact ⟨rfl, (List.takeWhile_prefix _).length_le⟩

/-- The string literal with this length, which is closed or not. -/
def literal (found : Nat × Bool) : Reading :=
  ⟨.stringLiteral, found.1, if found.2 then none else some .unterminatedString⟩

end

/-- How the token is read with which the line `cs` starts: whatever follows behind the line, it is in the
line, or a backslash takes the end of the line into a string literal. -/
inductive InLine (cs : List Char) (alone : Reading) (before : Char → List Char → Reading) : Prop where
  | stays (r : Reading) (le : r.length ≤ cs.length) (clean : alone.error = none → r = alone)
      (eq : ∀ (b : Char) [LineEnd b] (ds : List Char), before b ds = r)
  | escapes (malformed : alone.error ≠ none) (quote : Char) (is_quote : quote = '"' ∨ quote = '\'')
      (eq : ∀ (b : Char) [LineEnd b] (ds : List Char),
        before b ds = literal (stringLength quote (cs.length + 1) ds))

theorem stringLength_quote (quote : Char) (n : Nat) (cs : List Char) :
    stringLength quote n (quote :: cs) = (n + 1, true) := by
  rw [stringLength.eq_def]
  exact if_pos rfl

theorem stringLength_escape {quote : Char} (differ : '\\' ≠ quote) (n : Nat) (d : Char)
    (cs : List Char) : stringLength quote n ('\\' :: d :: cs) = stringLength quote (n + 2) cs := by
  rw [stringLength.eq_def]
  exact if_neg differ

theorem stringLength_inside {quote c : Char} (differ : c ≠ quote) (line : isLineBreak c = false)
    (plain : c ≠ '\\') (n : Nat) (cs : List Char) :
    stringLength quote n (c :: cs) = stringLength quote (n + 1) cs := by
  rw [stringLength.eq_def]
  simp only [if_neg differ, line, Bool.false_eq_true, if_false, if_neg plain]

/-- A string literal is closed in a line, or ends where the line does unless a backslash stands there. -/
theorem stringLength_lines (quote : Char) (is_quote : quote = '"' ∨ quote = '\'') (n : Nat)
    (cs : List Char) :
    (∃ m ≤ n + cs.length, ((stringLength quote n cs).2 = true → m = (stringLength quote n cs).1) ∧
      ∀ (b : Char) [LineEnd b] (ds : List Char),
        stringLength quote n (cs ++ b :: ds) = (m, (stringLength quote n cs).2)) ∨
    (stringLength quote n cs).2 = false ∧ ∀ (b : Char) [LineEnd b] (ds : List Char),
      stringLength quote n (cs ++ b :: ds) = stringLength quote (n + cs.length + 1) ds := by
  have no_quote (b : Char) [LineEnd b] : b ≠ quote := by
    rintro rfl
    exact Delimiter.not_mem b (by rcases is_quote with rfl | rfl <;> decide)
  fun_induction stringLength quote n cs with
  | case1 n =>
    refine .inl ⟨n, Nat.le_refl n, fun closed => absurd closed Bool.false_ne_true, fun b _ ds => ?_⟩
    rw [List.nil_append, stringLength.eq_def]
    simp only [if_neg (no_quote b), LineEnd.isLineBreak_eq b, if_true]
  | case2 n cs =>
    refine .inl ⟨n + 1, by simp, fun _ => rfl, fun b _ ds => ?_⟩
    exact stringLength_quote quote n _
  | case3 n c cs differ lines =>
    refine .inl ⟨n, Nat.le_add_right _ _, fun closed => absurd closed Bool.false_ne_true, fun b _ ds => ?_⟩
    rw [List.cons_append, stringLength.eq_def]
    simp only [if_neg differ, lines, if_true]
  | case4 n differ lines =>
    refine .inr ⟨rfl, fun b _ ds => ?_⟩
    rw [List.cons_append, stringLength.eq_def]
    simp only [if_neg differ, if_neg lines, if_true, List.nil_append, List.length_singleton]
  | case5 n d cs differ lines ih =>
    simp only [List.cons_append, stringLength_escape differ, List.length_cons]
    rcases ih with ⟨m, le, closed, same⟩ | ⟨unclosed, same⟩
    · exact .inl ⟨m, by omega, closed, same⟩
    · refine .inr ⟨unclosed, fun b _ ds => ?_⟩
      rw [same, show n + 2 + cs.length = n + (cs.length + 1 + 1) by omega]
  | case6 n c cs differ lines escape ih =>
    have step := stringLength_inside differ (Bool.eq_false_of_not_eq_true lines) escape n
    simp only [List.cons_append, step, List.length_cons]
    rcases ih with ⟨m, le, closed, same⟩ | ⟨unclosed, same⟩
    · exact .inl ⟨m, by omega, closed, same⟩
    · refine .inr ⟨unclosed, fun b _ ds => ?_⟩
      rw [same, show n + 1 + cs.length = n + (cs.length + 1) by omega]

theorem string_lines (quote : Char) (is_quote : quote = '"' ∨ quote = '\'') (cs : List Char) :
    InLine (quote :: cs) (string quote cs) fun b ds => string quote (cs ++ b :: ds) := by
  have eq (cs : List Char) : string quote cs = literal (stringLength quote 1 cs) := rfl
  simp only [eq]
  rcases stringLength_lines quote is_quote 1 cs with ⟨m, le, closed, same⟩ | ⟨unclosed, same⟩
  · refine .stays (literal (m, (stringLength quote 1 cs).2)) ?_ (fun clean => ?_) fun b _ ds => ?_
    · exact Nat.le_trans le (by simp [Nat.add_comm])
    · have closes : (stringLength quote 1 cs).2 = true := by simpa [literal] using clean
      rw [closed closes]
    · rw [same]
  · refine .escapes (by simp [literal, unclosed]) quote is_quote fun b _ ds => ?_
    rw [same, List.length_cons, Nat.add_comm 1]

theorem single_lines (c : Char) (cs : List Char) :
    InLine (c :: cs) (single c cs) fun b ds => single c (cs ++ b :: ds) := by
  have least : 1 ≤ (c :: cs).length := Nat.le_add_left _ _
  unfold single
  cases punctuation.lookup c with
  | some kind => exact .stays _ least (fun _ => rfl) fun _ _ _ => rfl
  | none =>
    simp only
    split_ifs with equals dot quote digit start
    · exact .stays _ least (fun _ => rfl) fun _ _ _ => rfl
    · exact .stays _ least (fun _ => rfl) fun _ _ _ => rfl
    · exact string_lines c (by simpa using quote) cs
    · exact .stays _ (number_lines '\n' (c :: cs) []).2 (fun _ => rfl)
        fun b _ ds => (number_lines b (c :: cs) ds).1
    · exact .stays _ (word_lines '\n' (c :: cs) []).2 (fun _ => rfl)
        fun b _ ds => (word_lines b (c :: cs) ds).1
    · exact .stays _ least (fun _ => rfl) fun _ _ _ => rfl

theorem ofChars_cons (c : Char) (cs : List Char) : ofChars (c :: cs) =
    if c = '=' ∧ cs.head? = some '>' then ⟨.equalsGreaterThanToken, 2, none⟩
    else if c = '.' ∧ cs.take 2 = ['.', '.'] then ⟨.dotDotDotToken, 3, none⟩
    else if c = '.' ∧ cs.head?.any isDigit then number (c :: cs)
    else single c cs := by
  unfold ofChars
  split
  · rename_i eq
    cases eq
  · rename_i eq
    obtain ⟨rfl, rfl⟩ := List.cons.inj eq
    rfl
  · rename_i eq
    obtain ⟨rfl, rfl⟩ := List.cons.inj eq
    rfl
  · rename_i d rest dots eq
    obtain ⟨rfl, rfl⟩ := List.cons.inj eq
    have no_arrow : ¬ ('.' = '=' ∧ (d :: rest).head? = some '>') := by simp
    have no_dots : ¬ ('.' = '.' ∧ (d :: rest).take 2 = ['.', '.']) := by
      rintro ⟨-, eq⟩
      rcases rest with _ | ⟨e, rest⟩
      · simp at eq
      · obtain ⟨rfl, rfl⟩ : d = '.' ∧ e = '.' := by simpa using eq
        exact dots rest rfl rfl
    rw [if_neg no_arrow, if_neg no_dots]
    simp only [List.head?_cons, Option.any_some, true_and]
    split
    · rfl
    · rfl
  · rename_i arrow _ dot eq
    obtain ⟨rfl, rfl⟩ := List.cons.inj eq
    have alone (is : c = '.') : cs = [] := by
      cases cs with
      | nil => rfl
      | cons d cs => exact (dot d cs is rfl).elim
    rw [if_neg, if_neg, if_neg]
    · rintro ⟨is, digit⟩
      rw [alone is] at digit
      cases digit
    · rintro ⟨is, dots⟩
      rw [alone is] at dots
      cases dots
    · rintro ⟨is, head⟩
      cases cs with
      | nil => cases head
      | cons d cs =>
        obtain rfl : d = '>' := by simpa using head
        exact arrow cs is rfl

theorem ofChars_delimited (c : Char) (cs : List Char) (b : Char) [Delimiter b] (ds : List Char) :
    ofChars (c :: cs ++ b :: ds) =
      if c = '=' ∧ cs.head? = some '>' then ⟨.equalsGreaterThanToken, 2, none⟩
      else if c = '.' ∧ cs.take 2 = ['.', '.'] then ⟨.dotDotDotToken, 3, none⟩
      else if c = '.' ∧ cs.head?.any isDigit then number (c :: cs ++ b :: ds)
      else single c (cs ++ b :: ds) := by
  have other := Delimiter.not_mem b
  simp only [List.mem_cons, not_or] at other
  have arrow : (cs ++ b :: ds).head? = some '>' ↔ cs.head? = some '>' := by
    cases cs <;> simp [other]
  have dots : (cs ++ b :: ds).take 2 = ['.', '.'] ↔ cs.take 2 = ['.', '.'] := by
    rcases cs with _ | ⟨d, _ | ⟨e, cs⟩⟩ <;> simp [other]
  have digit : (cs ++ b :: ds).head?.any isDigit = cs.head?.any isDigit := by
    cases cs <;> simp [Delimiter.isDigit_eq b]
  rw [List.cons_append, ofChars_cons]
  simp only [arrow, dots, digit]

/-- A token that is no string literal is the same whatever follows behind a delimiter. -/
theorem ofChars_of_not_quote {c : Char} (quote : c ≠ '"' ∧ c ≠ '\'') (cs : List Char) (b : Char)
    [Delimiter b] (ds : List Char) : ofChars (c :: cs ++ b :: ds) = ofChars (c :: cs) := by
  have same : single c (cs ++ b :: ds) = single c cs := by
    have number := (number_lines b (c :: cs) ds).1
    have word := (word_lines b (c :: cs) ds).1
    rw [List.cons_append] at number word
    simp only [single, number, word, quote, decide_false, Bool.or_self, Bool.false_eq_true, if_false]
  rw [ofChars_delimited, ofChars_cons, same, (number_lines b (c :: cs) ds).1]

theorem ofChars_lines {cs : List Char} (some_left : cs ≠ []) :
    InLine cs (ofChars cs) fun b ds => ofChars (cs ++ b :: ds) := by
  cases cs with
  | nil => exact absurd rfl some_left
  | cons c cs =>
    have later := ofChars_delimited c cs
    rw [ofChars_cons]
    by_cases is_arrow : c = '=' ∧ cs.head? = some '>'
    · rw [if_pos is_arrow]
      refine .stays _ ?_ (fun _ => rfl) fun b _ ds => (later b ds).trans (if_pos is_arrow)
      cases cs with
      | nil => simp at is_arrow
      | cons d cs => simp
    rw [if_neg is_arrow]
    simp only [if_neg is_arrow] at later
    by_cases is_dots : c = '.' ∧ cs.take 2 = ['.', '.']
    · rw [if_pos is_dots]
      refine .stays _ ?_ (fun _ => rfl) fun b _ ds => (later b ds).trans (if_pos is_dots)
      rcases cs with _ | ⟨d, _ | ⟨e, cs⟩⟩
      · simp at is_dots
      · simp at is_dots
      · simp
    rw [if_neg is_dots]
    simp only [if_neg is_dots] at later
    by_cases is_digit : c = '.' ∧ cs.head?.any isDigit
    · rw [if_pos is_digit]
      exact .stays _ (number_lines '\n' (c :: cs) []).2 (fun _ => rfl) fun b _ ds =>
        (later b ds).trans ((if_pos is_digit).trans (number_lines b (c :: cs) ds).1)
    · rw [if_neg is_digit]
      simp only [if_neg is_digit] at later
      rcases single_lines c cs with ⟨r, le, clean, eq⟩ | ⟨malformed, quote, is_quote, eq⟩
      · exact .stays r le clean fun b _ ds => (later b ds).trans (eq b ds)
      · exact .escapes malformed quote is_quote fun b _ ds => (later b ds).trans (eq b ds)

/-- A token that is well formed is the same if the text goes on behind the end of a line. -/
theorem ofChars_lines_clean {cs : List Char} (b : Char) [LineEnd b] (ds : List Char)
    (some_left : cs ≠ []) (clean : (ofChars cs).error = none) :
    ofChars (cs ++ b :: ds) = ofChars cs ∧ (ofChars cs).length ≤ cs.length := by
  rcases ofChars_lines some_left with ⟨r, le, same, eq⟩ | ⟨malformed, -⟩
  · obtain rfl := same clean
    exact ⟨eq b ds, le⟩
  · exact absurd clean malformed

end Reading

namespace Cursor

theorem scan_closed {k : Nat} {cs : List Char} (closed : (Trivia.skip cs).closed = true) :
    scan ⟨k, cs⟩ =
      (⟨(Reading.ofChars (Trivia.skip cs).rest).kind,
        k + byteLength ((Trivia.skip cs).pieces.flatMap Trivia.chars),
        String.ofList ((Trivia.skip cs).rest.take (Reading.ofChars (Trivia.skip cs).rest).length),
        (Trivia.skip cs).pieces.any Trivia.breaksLine,
        Trivia.leadingComment k (Trivia.skip cs).pieces,
        (Reading.ofChars (Trivia.skip cs).rest).error⟩,
      ⟨k + byteLength ((Trivia.skip cs).pieces.flatMap Trivia.chars) +
        byteLength ((Trivia.skip cs).rest.take (Reading.ofChars (Trivia.skip cs).rest).length),
        (Trivia.skip cs).rest.drop (Reading.ofChars (Trivia.skip cs).rest).length⟩) := by
  rw [scan]
  exact if_pos closed

/-- Where the trivia are closed, the end of the text comes next if nothing is left. -/
theorem closed_of_clean {c : Cursor} (clean : c.scan.1.error = none) :
    (Trivia.skip c.rest).closed = true := by
  unfold scan at clean
  simp only at clean
  split at clean
  · assumption
  · cases clean

/-- A token that is well formed is the same if the text goes on behind a line break. -/
theorem scan_lines {k : Nat} {cs : List Char} (ds : List Char)
    (more : (scan ⟨k, cs⟩).1.kind ≠ .endOfFileToken) (clean : (scan ⟨k, cs⟩).1.error = none) :
    scan ⟨k, cs ++ '\n' :: ds⟩ = ((scan ⟨k, cs⟩).1,
      ⟨(scan ⟨k, cs⟩).2.offset, (scan ⟨k, cs⟩).2.rest ++ '\n' :: ds⟩) := by
  have closed : (Trivia.skip cs).closed = true := closed_of_clean clean
  rw [scan_closed closed] at more clean ⊢
  have some_left := Reading.ne_nil_of_more more
  have skip : Trivia.skip (cs ++ '\n' :: ds) =
      ⟨(Trivia.skip cs).pieces, (Trivia.skip cs).rest ++ '\n' :: ds, true⟩ :=
    (Trivia.skipFrom_lines [] cs ds closed).trans (if_neg some_left)
  obtain ⟨same, le⟩ := Reading.ofChars_lines_clean '\n' ds some_left clean
  rw [scan_closed (by rw [skip]), skip]
  simp only [same, List.take_append_of_le_length le, List.drop_append_of_le_length le]

/-- At the end of the text nothing is left behind the trivia. -/
theorem skip_of_end {c : Cursor} (last : c.scan.1.kind = .endOfFileToken) :
    (Trivia.skip c.rest).closed = true ∧ (Trivia.skip c.rest).rest = [] := by
  have closed : (Trivia.skip c.rest).closed = true := by
    by_contra unclosed
    rw [scan, if_neg unclosed] at last
    cases last
  refine ⟨closed, ?_⟩
  by_contra some_left
  rw [scan_closed closed] at last
  exact (Reading.sound_ofChars some_left).more last

/-- The end of the text has no text, is not malformed, and nothing stands behind it. -/
theorem scan_end {c : Cursor} (last : c.scan.1.kind = .endOfFileToken) :
    c.scan.1.text = "" ∧ c.scan.1.error = none ∧ c.scan.2.rest = [] := by
  obtain ⟨closed, none_left⟩ := skip_of_end last
  rw [scan_closed closed, none_left]
  exact ⟨rfl, rfl, rfl⟩

/-- Where a text goes on with a semicolon on a new line, that stands in place of its end. -/
theorem scan_semicolon {k : Nat} {cs : List Char} (ds : List Char)
    (last : (scan ⟨k, cs⟩).1.kind = .endOfFileToken) :
    ∃ t k', scan ⟨k, cs ++ '\n' :: ';' :: ds⟩ = (t, ⟨k', ds⟩) ∧ t.kind = .semicolonToken ∧
      k' ≠ 0 := by
  obtain ⟨closed, none_left⟩ := skip_of_end last
  have skip : Trivia.skip (cs ++ '\n' :: ';' :: ds) =
      ⟨(Trivia.skip cs).pieces ++ [.lineBreak '\n'], ';' :: ds, true⟩ := by
    have lines := (Trivia.skipFrom_lines [] cs (';' :: ds) closed).trans (if_pos none_left)
    have newline : Trivia.front ('\n' :: ';' :: ds) = .piece (.lineBreak '\n') (';' :: ds) := rfl
    have semicolon : Trivia.front (';' :: ds) = .token := rfl
    rw [Trivia.skipFrom_piece _ newline, Trivia.skipFrom_of_token semicolon, List.reverse_cons,
      List.reverse_reverse] at lines
    exact lines
  have reading : Reading.ofChars (';' :: ds) = ⟨.semicolonToken, 1, none⟩ := rfl
  rw [scan_closed (by rw [skip]), skip]
  have one : byteLength ((';' :: ds).take 1) = 1 := rfl
  simp only [reading, one]
  exact ⟨_, _, rfl, rfl, Nat.succ_ne_zero _⟩

/-- Behind a text without malformed tokens, a semicolon on a new line stands in place of its end, and
other tokens follow. -/
theorem Scans.lines {c : Cursor} {ts : List Lexeme} (h : Scans c ts)
    (clean : ∀ t ∈ ts, t.kind ≠ .endOfFileToken → t.error = none) (ds : List Char) :
    ∃ read last semicolon k, ts = read ++ [last] ∧ semicolon.kind = .semicolonToken ∧ k ≠ 0 ∧
      ∀ us, Scans ⟨k, ds⟩ us → Scans ⟨c.offset, c.rest ++ '\n' :: ';' :: ds⟩ (read ++ semicolon :: us) := by
  induction h with
  | @ending c last =>
    obtain ⟨semicolon, k, scan, kind, inside⟩ := scan_semicolon ds last
    exact ⟨[], _, semicolon, k, rfl, kind, inside,
      fun us others => .of_scan_eq scan (by rw [kind]; decide) others⟩
  | @cons c ts more others ih =>
    obtain ⟨read, last, semicolon, k, rfl, kind, inside, follow⟩ :=
      ih fun t mem => clean t (List.mem_cons_of_mem _ mem)
    have scan := scan_lines (';' :: ds) more (clean _ List.mem_cons_self more)
    exact ⟨c.scan.1 :: read, last, semicolon, k, rfl, kind, inside,
      fun us others => .of_scan_eq scan more (follow us others)⟩

end Cursor

/-- Tokens that differ in their places at most, and in whether they stand on a new line. -/
structure Lexeme.Echoes (t u : Lexeme) : Prop where
  kind : t.kind = u.kind
  text : t.text = u.text
  error : t.error = u.error
  comment : t.comment.map Comment.text = u.comment.map Comment.text

namespace Trivia

/-- Searches that differ in places at most. -/
structure Search.Echoes (s u : Search) : Prop where
  leading : s.leading = u.leading
  found : s.found.map Comment.text = u.found.map Comment.text

theorem Search.Echoes.foldl {s u : Search} (h : s.Echoes u) (pieces : List Trivia) :
    (pieces.foldl Search.pass s).Echoes (pieces.foldl Search.pass u) := by
  induction pieces generalizing s u with
  | nil => exact h
  | cons t pieces ih =>
    refine ih ⟨by rw [Search.pass, Search.pass, h.leading], ?_⟩
    simp only [Search.pass, h.leading]
    split
    · rfl
    · exact h.found

end Trivia

namespace Cursor

variable {k k' : Nat}

/-- A token is the same at another place, unless one of the places is the start of the text. -/
theorem scan_echoes (cs : List Char) (inside : k ≠ 0) (inside' : k' ≠ 0) :
    (scan ⟨k, cs⟩).1.Echoes (scan ⟨k', cs⟩).1 ∧
      (scan ⟨k, cs⟩).1.onNewLine = (scan ⟨k', cs⟩).1.onNewLine ∧
      (scan ⟨k, cs⟩).2.rest = (scan ⟨k', cs⟩).2.rest := by
  have comments : (Trivia.leadingComment k (Trivia.skip cs).pieces).map Comment.text =
      (Trivia.leadingComment k' (Trivia.skip cs).pieces).map Comment.text := by
    have start : Trivia.Search.Echoes ⟨k, k = 0, none⟩ ⟨k', k' = 0, none⟩ :=
      ⟨by simp [inside, inside'], rfl⟩
    exact (start.foldl _).found
  unfold scan
  simp only
  split
  · exact ⟨⟨rfl, rfl, rfl, comments⟩, rfl, rfl⟩
  · exact ⟨⟨rfl, rfl, rfl, comments⟩, rfl, rfl⟩

/-- The first token of a text is the same on a new line. -/
theorem scan_echoes_first (k : Nat) (cs : List Char) :
    (scan ⟨0, cs⟩).1.Echoes (scan ⟨k, '\n' :: cs⟩).1 ∧
      (scan ⟨k, '\n' :: cs⟩).1.onNewLine = true ∧
      (scan ⟨0, cs⟩).2.rest = (scan ⟨k, '\n' :: cs⟩).2.rest := by
  have skip : Trivia.skip ('\n' :: cs) =
      ⟨.lineBreak '\n' :: (Trivia.skip cs).pieces, (Trivia.skip cs).rest, (Trivia.skip cs).closed⟩ := by
    have newline : Trivia.front ('\n' :: cs) = .piece (.lineBreak '\n') cs := rfl
    rw [Trivia.skip, Trivia.skipFrom_piece _ newline, Trivia.skipFrom_eq]
    rfl
  have comments : (Trivia.leadingComment 0 (Trivia.skip cs).pieces).map Comment.text =
      (Trivia.leadingComment k (.lineBreak '\n' :: (Trivia.skip cs).pieces)).map Comment.text := by
    have start : Trivia.Search.Echoes ⟨0, true, none⟩
        (Trivia.Search.pass ⟨k, k = 0, none⟩ (.lineBreak '\n')) :=
      ⟨by simp [Trivia.Search.pass, Trivia.isLineBreak],
        by simp [Trivia.Search.pass, Trivia.isComment]⟩
    exact (start.foldl _).found
  unfold scan
  simp only [skip]
  split
  · exact ⟨⟨rfl, rfl, rfl, comments⟩, rfl, rfl⟩
  · exact ⟨⟨rfl, rfl, rfl, comments⟩, rfl, rfl⟩

/-- Behind a token that takes room no place is the start of the text. -/
theorem offset_ne_zero {c : Cursor} (more : c.scan.1.kind ≠ .endOfFileToken)
    (room : c.offset ≠ 0 ∨ c.scan.1.error = none) : c.scan.2.offset ≠ 0 := by
  have start := c.le_start_scan
  have stop := c.offset_scan
  rcases room with inside | clean
  · rw [stop, Lexeme.stop]
    omega
  · intro zero
    have none : c.scan.1.text = "" := by
      rw [← Lexeme.stop_eq_start, ← stop, zero]
      rw [stop, Lexeme.stop] at zero
      omega
    obtain ⟨-, error, -⟩ := scan_of_no_text more none
    rw [clean] at error
    cases error

theorem Scans.echoes {c : Cursor} {ts : List Lexeme} (h : Scans c ts) (inside : c.offset ≠ 0)
    (inside' : k ≠ 0) : ∃ us, Scans ⟨k, c.rest⟩ us ∧
      ts.Forall₂ (fun t u => t.Echoes u ∧ t.onNewLine = u.onNewLine) us := by
  induction h generalizing k with
  | @ending c last =>
    obtain ⟨echoes, line, -⟩ := scan_echoes c.rest inside inside'
    exact ⟨_, .ending (echoes.kind ▸ last), .cons ⟨echoes, line⟩ .nil⟩
  | @cons c ts more others ih =>
    obtain ⟨echoes, line, rest⟩ := scan_echoes c.rest inside inside'
    have more' : (scan ⟨k, c.rest⟩).1.kind ≠ .endOfFileToken := echoes.kind ▸ more
    obtain ⟨us, follow, alike⟩ :=
      ih (offset_ne_zero more (.inl inside)) (offset_ne_zero more' (.inl inside'))
    have next : (⟨(scan ⟨k, c.rest⟩).2.offset, c.scan.2.rest⟩ : Cursor) = (scan ⟨k, c.rest⟩).2 := by
      rw [show c.scan.2.rest = _ from rest]
    exact ⟨_, .cons more' (next ▸ follow), .cons ⟨echoes, line⟩ alike⟩

/-- The tokens of a text are the same on a new line, but that the first one stands there. -/
theorem Scans.echoes_first {cs : List Char} {ts : List Lexeme} (h : Scans ⟨0, cs⟩ ts)
    (clean : ∀ t ∈ ts, t.kind ≠ .endOfFileToken → t.error = none) (inside : k ≠ 0) :
    ∃ t ts' u us', ts = t :: ts' ∧ Scans ⟨k, '\n' :: cs⟩ (u :: us') ∧ t.Echoes u ∧
      u.onNewLine = true ∧
      ts'.Forall₂ (fun t u => t.Echoes u ∧ t.onNewLine = u.onNewLine) us' := by
  obtain ⟨echoes, line, rest⟩ := scan_echoes_first k cs
  cases h with
  | ending last =>
    exact ⟨_, [], _, [], rfl, .ending (echoes.kind ▸ last), echoes, line, .nil⟩
  | cons more others =>
    have more' : (scan ⟨k, '\n' :: cs⟩).1.kind ≠ .endOfFileToken := echoes.kind ▸ more
    obtain ⟨us, follow, alike⟩ := others.echoes
      (offset_ne_zero more (.inr (clean _ List.mem_cons_self more)))
      (offset_ne_zero more' (.inl inside))
    have next : (⟨(scan ⟨k, '\n' :: cs⟩).2.offset, (scan ⟨0, cs⟩).2.rest⟩ : Cursor) =
        (scan ⟨k, '\n' :: cs⟩).2 := by
      rw [rest]
    exact ⟨_, _, _, us, rfl, .cons more' (next ▸ follow), echoes, line, alike⟩

end Cursor

/-- The tokens of a text with a semicolon on a line of its own in it, where those before the
semicolon and those behind it are well formed. -/
theorem lexemes_join {a b : String}
    (clean : ∀ t ∈ lexemes a, t.kind ≠ .endOfFileToken → t.error = none)
    (clean' : ∀ t ∈ lexemes b, t.kind ≠ .endOfFileToken → t.error = none) :
    ∃ read last semicolon t ts u us, lexemes a = read ++ [last] ∧
      semicolon.kind = .semicolonToken ∧ lexemes b = t :: ts ∧
      lexemes (a ++ "\n;\n" ++ b) = read ++ semicolon :: u :: us ∧
      t.Echoes u ∧ u.onNewLine = true ∧
      ts.Forall₂ (fun t u => t.Echoes u ∧ t.onNewLine = u.onNewLine) us := by
  obtain ⟨read, last, semicolon, k, eq, kind, inside, follow⟩ :=
    (Cursor.scans_iff.mpr rfl).lines clean ('\n' :: b.toList)
  obtain ⟨t, ts, u, us, eq', scans, echoes, line, alike⟩ :=
    (Cursor.scans_iff.mpr rfl).echoes_first clean' inside
  have joined : (a ++ "\n;\n" ++ b).toList = a.toList ++ '\n' :: ';' :: '\n' :: b.toList := by
    simp
  refine ⟨read, last, semicolon, t, ts, u, us, eq, kind, eq', ?_, echoes, line, alike⟩
  have all := follow _ scans
  rw [← joined] at all
  exact Cursor.scans_iff.mp all

end Ambient
