import Ambient.Proofs.Lexeme.Append

namespace Ambient

theorem takeWhile_take {α : Type} {p : α → Bool} {xs : List α} {n : Nat}
    (long : (xs.takeWhile p).length ≤ n) : (xs.take n).takeWhile p = xs.takeWhile p := by
  rw [← List.take_takeWhile, List.take_of_length_le long]

namespace Reading

variable {cs : List Char} {n : Nat}

theorem digitCount_take (long : digitCount cs ≤ n) : digitCount (cs.take n) = digitCount cs := by
  rw [digitCount, takeWhile_take long, digitCount]

theorem exponent_take (clean : (exponent n cs).error = none) :
    exponent n (cs.take ((exponent n cs).length - n)) = exponent n cs := by
  cases cs with
  | nil => rw [List.take_nil]
  | cons e cs =>
    by_cases is : (e = 'e' || e = 'E') = true
    · rw [exponent_cons _ is] at clean ⊢
      generalize sign_eq : (if isSigned cs then 1 else 0) = sign at clean ⊢
      generalize digits_eq : digitCount (cs.drop sign) = digits at clean ⊢
      have some_digits : digits ≠ 0 := by
        intro none
        simp [none] at clean
      obtain ⟨more, rfl⟩ := Nat.exists_eq_succ_of_ne_zero some_digits
      have signed : isSigned (cs.take (sign + (more + 1))) = isSigned cs := by
        cases cs with
        | nil => simp
        | cons s cs => rfl
      have cut : n + 1 + sign + (more + 1) - n = sign + (more + 1) + 1 := by omega
      have digits : digitCount ((cs.drop sign).take (more + 1)) = more + 1 := by
        rw [digitCount_take (Nat.le_of_eq digits_eq), digits_eq]
      simp only [Nat.succ_eq_add_one, cut, List.take_succ_cons]
      rw [exponent_cons _ is, signed, sign_eq, List.drop_take, Nat.add_sub_cancel_left, digits]
    · rw [exponent_cons_other _ is, Nat.sub_self, List.take_zero]
      rfl

theorem decimal_take_point {rest : List Char} (point : cs.drop (digitCount cs) = '.' :: rest)
    (clean : (decimal cs).error = none) : decimal (cs.take (decimal cs).length) = decimal cs := by
  rw [decimal_point point] at clean ⊢
  generalize whole : digitCount cs = w at point clean ⊢
  generalize fraction : digitCount rest = f at clean ⊢
  obtain ⟨k, long⟩ := Nat.exists_eq_add_of_le (length_exponent (w + 1 + f) (rest.drop f))
  have last := exponent_take clean
  rw [long, Nat.add_sub_cancel_left] at last
  rw [long]
  have whole' : digitCount (cs.take (w + 1 + f + k)) = w := by
    rw [digitCount_take (by omega), whole]
  have point' : (cs.take (w + 1 + f + k)).drop (digitCount (cs.take (w + 1 + f + k))) =
      '.' :: rest.take (f + k) := by
    rw [whole', List.drop_take, point, show w + 1 + f + k - w = f + k + 1 by omega,
      List.take_succ_cons]
  have fraction' : digitCount (rest.take (f + k)) = f := by
    rw [digitCount_take (by omega), fraction]
  rw [decimal_point point', whole', fraction', List.drop_take, Nat.add_sub_cancel_left, last]

theorem decimal_take_plain (plain : ∀ rest, cs.drop (digitCount cs) ≠ '.' :: rest)
    (clean : (decimal cs).error = none) : decimal (cs.take (decimal cs).length) = decimal cs := by
  rw [decimal_plain plain] at clean ⊢
  generalize whole : digitCount cs = w at plain clean ⊢
  obtain ⟨k, long⟩ := Nat.exists_eq_add_of_le (length_exponent w (cs.drop w))
  have last := exponent_take clean
  rw [long, Nat.add_sub_cancel_left] at last
  rw [long]
  have whole' : digitCount (cs.take (w + k)) = w := by
    rw [digitCount_take (by omega), whole]
  have drop' : (cs.take (w + k)).drop w = (cs.drop w).take k := by
    rw [List.drop_take, Nat.add_sub_cancel_left]
  have plain' : ∀ rest, (cs.take (w + k)).drop (digitCount (cs.take (w + k))) ≠ '.' :: rest := by
    intro rest eq
    rw [whole', drop'] at eq
    obtain ⟨ds, split⟩ := List.take_prefix k (cs.drop w)
    rw [eq] at split
    exact plain _ split.symm
  rw [decimal_plain plain', whole', drop', last]

theorem decimal_take (clean : (decimal cs).error = none) :
    decimal (cs.take (decimal cs).length) = decimal cs := by
  by_cases point : ∃ rest, cs.drop (digitCount cs) = '.' :: rest
  · obtain ⟨rest, point⟩ := point
    exact decimal_take_point point clean
  · apply decimal_take_plain _ clean
    intro rest eq
    exact point ⟨rest, eq⟩

theorem number_take (clean : (number cs).error = none) :
    number (cs.take (number cs).length) = number cs := by
  by_cases hex : ∃ x rest, (x = 'x' ∨ x = 'X') ∧ cs = '0' :: x :: rest
  · obtain ⟨x, rest, is, rfl⟩ := hex
    have number_eq (cs : List Char) : number ('0' :: x :: cs) = hexadecimal cs := by
      rcases is with rfl | rfl <;> rfl
    rw [number_eq, show (hexadecimal rest).length = (rest.takeWhile isHexDigit).length + 1 + 1 by
      simp only [hexadecimal]; omega, List.take_succ_cons, List.take_succ_cons, number_eq,
      hexadecimal, takeWhile_take (Nat.le_refl _), hexadecimal]
  · have plain : ∀ x rest, x = 'x' ∨ x = 'X' → cs ≠ '0' :: x :: rest :=
      fun x rest is eq => hex ⟨x, rest, is, eq⟩
    rw [number_decimal plain] at clean ⊢
    have plain' : ∀ x rest, x = 'x' ∨ x = 'X' → cs.take (decimal cs).length ≠ '0' :: x :: rest := by
      intro x rest is eq
      obtain ⟨ds, split⟩ := List.take_prefix (decimal cs).length cs
      rw [eq] at split
      exact plain x _ is split.symm
    rw [number_decimal plain', decimal_take clean]

theorem word_take : word (cs.take (word cs).length) = word cs := by
  rw [word, word, takeWhile_take (Nat.le_refl _)]

/-- What closes a string literal does so whatever follows. -/
theorem stringLength_take (quote : Char) (n : Nat) (cs ds : List Char)
    (closed : (stringLength quote n cs).2 = true) :
    stringLength quote n (cs.take ((stringLength quote n cs).1 - n) ++ ds) =
      stringLength quote n cs := by
  fun_induction stringLength quote n cs with
  | case1 | case3 | case4 => cases closed
  | case2 n cs =>
    rw [Nat.add_sub_cancel_left]
    exact stringLength_quote quote n ds
  | case5 n d cs differ lines ih =>
    rw [stringLength_sub, List.take_succ_cons, List.take_succ_cons, List.cons_append,
      List.cons_append, stringLength_escape differ]
    exact ih closed
  | case6 n c cs differ lines escape ih =>
    rw [stringLength_sub, List.take_succ_cons, List.cons_append,
      stringLength_inside differ (Bool.eq_false_of_not_eq_true lines) escape]
    exact ih closed

theorem string_take {quote : Char} {k : Nat} (clean : (string quote cs).error = none)
    (long : (string quote cs).length = k + 1) (ds : List Char) :
    string quote (cs.take k ++ ds) = string quote cs := by
  have closed : (stringLength quote 1 cs).2 = true := by
    by_contra unclosed
    simp [string, unclosed] at clean
  have length : (stringLength quote 1 cs).1 = k + 1 := long
  have same := stringLength_take quote 1 cs ds closed
  rw [length, Nat.add_sub_cancel] at same
  rw [string, same, string]

/-- How the token that starts with `c` is read, cut off the text and put in front of a delimiter. -/
def Cut (c : Char) (cs : List Char) (whole : Reading) (read : List Char → Reading) : Prop :=
  ∃ k, whole.length = k + 1 ∧ ∀ (b : Char) [Delimiter b] (ds : List Char),
    read (c :: (cs.take k ++ b :: ds)) = whole

theorem cut_number {c : Char} {cs : List Char} (clean : (number (c :: cs)).error = none)
    (length_pos : 0 < (number (c :: cs)).length) : Cut c cs (number (c :: cs)) number := by
  obtain ⟨k, long⟩ := Nat.exists_eq_succ_of_ne_zero (Nat.ne_of_gt length_pos)
  refine ⟨k, long, ?_⟩
  intro b _ ds
  have cut := number_take clean
  rw [long, List.take_succ_cons] at cut
  rw [← List.cons_append, (number_lines b _ ds).1, cut]

theorem cut_word {c : Char} {cs : List Char} (length_pos : 0 < (word (c :: cs)).length) :
    Cut c cs (word (c :: cs)) word := by
  obtain ⟨k, long⟩ := Nat.exists_eq_succ_of_ne_zero (Nat.ne_of_gt length_pos)
  refine ⟨k, long, ?_⟩
  intro b _ ds
  have cut : word ((c :: cs).take (word (c :: cs)).length) = word (c :: cs) := word_take
  rw [long, List.take_succ_cons] at cut
  rw [← List.cons_append, (word_lines b _ ds).1, cut]

theorem single_take {c : Char} {cs : List Char} (clean : (single c cs).error = none) :
    ∃ k, (single c cs).length = k + 1 ∧ ∀ (b : Char) [Delimiter b] (ds : List Char),
      single c (cs.take k ++ b :: ds) = single c cs := by
  unfold single at clean ⊢
  cases mark : punctuation.lookup c with
  | some kind => exact ⟨0, rfl, fun _ _ _ => rfl⟩
  | none =>
    simp only [mark] at clean ⊢
    split_ifs at clean ⊢ with equals dot quote digit start
    · exact ⟨0, rfl, fun _ _ _ => rfl⟩
    · exact ⟨0, rfl, fun _ _ _ => rfl⟩
    · obtain ⟨k, long⟩ := Nat.exists_eq_succ_of_ne_zero (Nat.ne_of_gt (length_stringLength c 1 cs))
      refine ⟨k, long, fun b _ ds => ?_⟩
      exact string_take clean long (b :: ds)
    · have sound : (number (c :: cs)).Sound [] :=
        sound_numberReading (.inl (digitCount_pos digit cs))
      exact cut_number clean sound.length_pos
    · exact cut_word (sound_word start cs).length_pos

theorem head?_of_take {k : Nat} {c : Char} (h : (cs.take k).head? = some c) : cs.head? = some c := by
  cases cs with
  | nil => rwa [List.take_nil] at h
  | cons d cs =>
    cases k with
    | zero => cases h
    | succ k => exact h

/-- A number that starts with a point goes on with a digit. -/
theorem two_le_length_number {d : Char} (digit : isDigit d = true) (rest : List Char) :
    2 ≤ (number ('.' :: d :: rest)).length := by
  have plain : ∀ x ds, x = 'x' ∨ x = 'X' → '.' :: d :: rest ≠ '0' :: x :: ds := by simp
  have point : ('.' :: d :: rest).drop (digitCount ('.' :: d :: rest)) = '.' :: d :: rest := rfl
  rw [number_decimal plain, decimal_point point]
  have fraction := digitCount_pos digit rest
  have long := length_exponent (digitCount ('.' :: d :: rest) + 1 + digitCount (d :: rest))
    ((d :: rest).drop (digitCount (d :: rest)))
  omega

theorem take_two_of_take {k : Nat} {c d : Char} (h : (cs.take k).take 2 = [c, d]) :
    cs.take 2 = [c, d] := by
  have long := congrArg List.length h
  rw [List.take_take] at h
  simp only [List.length_take, List.length_cons, List.length_nil] at long
  rwa [show min 2 k = 2 by omega] at h

theorem ofChars_take_fraction {d : Char} {rest : List Char} (digit : isDigit d = true)
    (clean : (number ('.' :: d :: rest)).error = none) (b : Char) [Delimiter b] (ds : List Char) :
    ofChars (('.' :: d :: rest).take (number ('.' :: d :: rest)).length ++ b :: ds) =
      number ('.' :: d :: rest) := by
  have long := two_le_length_number digit rest
  obtain ⟨k, length, same⟩ := cut_number clean (by omega)
  obtain ⟨k, rfl⟩ := Nat.exists_eq_add_of_lt (show 0 < k by omega)
  have no_dots : ¬ d = '.' := by
    rintro rfl
    cases digit
  rw [length, List.take_succ_cons, ofChars_delimited, if_neg (by simp),
    if_neg (by simp [no_dots]), if_pos ⟨rfl, by simp [digit]⟩, List.cons_append, same]

/-- A token that is well formed is the same if the text is cut off behind it. -/
theorem ofChars_take {cs : List Char} (some_left : cs ≠ []) (clean : (ofChars cs).error = none)
    (b : Char) [Delimiter b] (ds : List Char) :
    ofChars (cs.take (ofChars cs).length ++ b :: ds) = ofChars cs := by
  cases cs with
  | nil => exact absurd rfl some_left
  | cons c cs =>
    rw [ofChars_cons] at clean ⊢
    by_cases arrow : c = '=' ∧ cs.head? = some '>'
    · obtain ⟨rfl, head⟩ := arrow
      obtain ⟨cs, rfl⟩ := List.head?_eq_some_iff.mp head
      rfl
    by_cases dots : c = '.' ∧ cs.take 2 = ['.', '.']
    · obtain ⟨rfl, two⟩ := dots
      obtain ⟨cs, rfl⟩ : ∃ rest, cs = '.' :: '.' :: rest := by
        exact ⟨cs.drop 2, by rw [← List.take_append_drop 2 cs, two]; rfl⟩
      rfl
    rw [if_neg arrow, if_neg dots] at clean ⊢
    by_cases digit : c = '.' ∧ cs.head?.any isDigit
    · rw [if_pos digit] at clean ⊢
      obtain ⟨rfl, first⟩ := digit
      cases cs with
      | nil => cases first
      | cons d rest => exact ofChars_take_fraction first clean b ds
    · rw [if_neg digit] at clean ⊢
      obtain ⟨k, long, same⟩ := single_take clean
      have no_arrow : ¬ (c = '=' ∧ (cs.take k).head? = some '>') :=
        fun found => arrow ⟨found.1, head?_of_take found.2⟩
      have no_dots : ¬ (c = '.' ∧ (cs.take k).take 2 = ['.', '.']) :=
        fun found => dots ⟨found.1, take_two_of_take found.2⟩
      have no_digit : ¬ (c = '.' ∧ (cs.take k).head?.any isDigit) := by
        intro ⟨is, first⟩
        refine digit ⟨is, ?_⟩
        cases head : (cs.take k).head? with
        | none => simp [head] at first
        | some d => rwa [head?_of_take head, ← head]
      rw [long, List.take_succ_cons, ofChars_delimited, if_neg no_arrow, if_neg no_dots,
        if_neg no_digit, same]

end Reading

namespace Trivia

/-- Where a token starts, the same is one that is cut off behind at least one character. -/
theorem front_take {cs : List Char} (token : front cs = .token) (some_left : cs ≠ []) {n : Nat}
    (some_taken : n ≠ 0) (b : Char) [Delimiter b] (ds : List Char) :
    front (cs.take n ++ b :: ds) = .token := by
  cases cs with
  | nil => exact absurd rfl some_left
  | cons c cs =>
    obtain ⟨k, rfl⟩ := Nat.exists_eq_succ_of_ne_zero some_taken
    obtain ⟨closed, plain⟩ := front_eq_token_iff.mp token
    have closed' : ¬ Opens (c :: cs.take k) := by
      intro ⟨es, opens⟩
      apply closed
      obtain ⟨rest, split⟩ := List.take_prefix k cs
      rw [← split]
      obtain eq | eq := opens
      · exact ⟨es ++ rest, .inl (by rw [← List.cons_append, eq]; rfl)⟩
      · exact ⟨es ++ rest, .inr (by rw [← List.cons_append, eq]; rfl)⟩
    rw [List.take_succ_cons]
    exact front_eq_token_iff.mpr ⟨not_opens_lines b ds closed', plain⟩

end Trivia

namespace Lexeme

/-- What is written in front of a token: a line feed if it is on a new line, and a blank otherwise. -/
def separator (t : Lexeme) : Char := if t.onNewLine then '\n' else ' '

instance (t : Lexeme) : Delimiter t.separator where
  either := by
    cases line : t.onNewLine with
    | true => simp [separator, line]
    | false => simp [separator, line]

def laid (t : Lexeme) : List Char := t.separator :: t.text.toList

/-- What a token is wherever it stands. -/
def content (t : Lexeme) : Kind × String × String × Bool × Option Message :=
  (t.kind, t.text, t.value, t.onNewLine, t.error)

end Lexeme

/-- The text in which some tokens are written one after the other. -/
def relaid (ts : List Lexeme) : String := String.ofList (ts.flatMap Lexeme.laid)

namespace Cursor

/-- A well-formed token is read again in front of a delimiter. -/
theorem scan_delimited {c : Cursor} (more : c.scan.1.kind ≠ .endOfFileToken)
    (clean : c.scan.1.error = none) (b : Char) [Delimiter b] (ds : List Char) :
    Trivia.front (c.scan.1.text.toList ++ b :: ds) = .token ∧
      Reading.ofChars (c.scan.1.text.toList ++ b :: ds) =
        ⟨c.scan.1.kind, c.scan.1.text.toList.length, c.scan.1.error⟩ := by
  have closed := closed_of_clean clean
  have fields : c.scan = _ := scan_closed closed
  rw [fields] at more clean ⊢
  have some_left := Reading.ne_nil_of_more more
  have token : Trivia.front (Trivia.skip c.rest).rest = .token :=
    Trivia.front_rest_skipFrom [] c.rest closed
  have some_taken := (Reading.sound_ofChars some_left).length_pos
  have whole := (Reading.ofChars_lines_clean '\n' [] some_left clean).2
  simp only [String.toList_ofList, List.length_take, Nat.min_eq_left whole]
  exact ⟨Trivia.front_take token some_left (Nat.ne_of_gt some_taken) b ds,
    Reading.ofChars_take some_left clean b ds⟩

/-- A token that is laid out in front of `cs` is what is scanned there, if it is read there. -/
theorem scan_laid {t : Lexeme} {k : Nat} {cs : List Char}
    (token : Trivia.front (t.text.toList ++ cs) = .token)
    (reading : Reading.ofChars (t.text.toList ++ cs) = ⟨t.kind, t.text.toList.length, t.error⟩) :
    (scan ⟨k, t.laid ++ cs⟩).1.content = t.content ∧ (scan ⟨k, t.laid ++ cs⟩).2.rest = cs := by
  obtain ⟨piece, front, line⟩ : ∃ piece, Trivia.front (t.laid ++ cs) = .piece piece (t.text.toList ++ cs) ∧
      piece.breaksLine = t.onNewLine := by
    cases line : t.onNewLine with
    | true => exact ⟨.lineBreak '\n', by simp [Lexeme.laid, Lexeme.separator, line]; rfl, rfl⟩
    | false => exact ⟨.blank ' ', by simp [Lexeme.laid, Lexeme.separator, line]; rfl, rfl⟩
  have skip := Trivia.skip_piece front token
  rw [scan_closed (by rw [skip]), skip]
  simp [reading, Lexeme.content, Lexeme.value, line]

/-- The tokens of a text are those of the text in which they are laid out anew. -/
theorem Scans.relaid {c : Cursor} {ts : List Lexeme} (h : Scans c ts)
    (clean : ∀ t ∈ ts, t.error = none) (k : Nat) :
    ∃ us, Scans ⟨k, ts.flatMap Lexeme.laid⟩ us ∧ us.map Lexeme.content = ts.map Lexeme.content := by
  induction h generalizing k with
  | @ending c last =>
    obtain ⟨no_text, no_error, -⟩ := scan_end last
    have reading : Reading.ofChars (c.scan.1.text.toList ++ []) =
        ⟨c.scan.1.kind, c.scan.1.text.toList.length, c.scan.1.error⟩ := by
      rw [no_text, no_error, last]
      rfl
    obtain ⟨same, -⟩ := scan_laid (k := k) (by rw [no_text]; rfl) reading
    have last' : (scan ⟨k, c.scan.1.laid ++ []⟩).1.kind = .endOfFileToken :=
      (congrArg Prod.fst same).trans last
    exact ⟨_, .ending last', congrArg (fun content => [content]) same⟩
  | @cons c ts more others ih =>
    obtain ⟨first, rest⟩ := List.forall_mem_cons.mp clean
    obtain ⟨u, us, rfl⟩ : ∃ u us, ts = u :: us := by
      cases others with
      | ending | cons => exact ⟨_, _, rfl⟩
    have next : (u :: us).flatMap Lexeme.laid =
        u.separator :: (u.text.toList ++ us.flatMap Lexeme.laid) := rfl
    obtain ⟨token, reading⟩ :=
      scan_delimited more first u.separator (u.text.toList ++ us.flatMap Lexeme.laid)
    rw [← next] at token reading
    obtain ⟨same, behind⟩ := scan_laid (k := k) token reading
    generalize place : (⟨k, c.scan.1.laid ++ (u :: us).flatMap Lexeme.laid⟩ : Cursor) = p at same behind
    have more' : p.scan.1.kind ≠ .endOfFileToken := by
      intro last
      exact more ((congrArg Prod.fst same).symm.trans last)
    obtain ⟨vs, scans, alike⟩ := ih rest p.scan.2.offset
    rw [← behind] at scans
    refine ⟨p.scan.1 :: vs, ?_, ?_⟩
    · rw [List.flatMap_cons, place]
      exact .cons more' scans
    · rw [List.map_cons, List.map_cons, same, alike]

end Cursor

/-- A text without malformed tokens may be laid out anew: where each token is written behind a line feed
or a blank, as it is on a new line or not, the tokens are the same but for their places and comments. -/
theorem lexemes_relaid {text : String} (clean : ∀ t ∈ lexemes text, t.error = none) :
    (lexemes (relaid (lexemes text))).map Lexeme.content = (lexemes text).map Lexeme.content := by
  have scans : Cursor.Scans ⟨0, text.toList⟩ (lexemes text) := Cursor.scans_iff.mpr rfl
  obtain ⟨us, scans', same⟩ := scans.relaid clean 0
  have found : lexemes (relaid (lexemes text)) = us := by
    apply Cursor.scans_iff.mp
    rw [relaid, String.toList_ofList]
    exact scans'
  rw [found, same]

/-- Dots that stand next to each other, a string that goes over the end of a line, and comments. -/
theorem lexemes_relaid_dots :
    let text := "type/**/A='\\'\\\n'|1.5e+3// b\n.....5=>$"
    (∀ t ∈ lexemes text, t.error = none) ∧
      (lexemes (relaid (lexemes text))).map Lexeme.content = (lexemes text).map Lexeme.content := by
  intro text
  have clean : ∀ t ∈ lexemes text, t.error = none := by decide +kernel
  exact ⟨clean, lexemes_relaid clean⟩

end Ambient
