import Ambient.Proofs.Json.Layout
import Ambient.Proofs.Json.Scalar

namespace Ambient.Json

open Layout

mutual

/-- All numbers in a value are natural numbers of at most 64 bits. -/
def Plain : Json → Prop
  | .number (.integer n) => 0 ≤ n ∧ n < 0x10000000000000000
  | .number (.double _) => False
  | .array items => PlainItems items
  | .object members => PlainMembers members
  | .null | .bool _ | .string _ => True

def PlainItems : List Json → Prop
  | [] => True
  | item :: items => item.Plain ∧ PlainItems items

def PlainMembers : List (String × Json) → Prop
  | [] => True
  | (_, value) :: members => value.Plain ∧ PlainMembers members

end

mutual

/-- How many nested calls it takes to read a value. -/
def weight : Json → Nat
  | .array items => weightItems items + 1
  | .object members => weightMembers members + 1
  | .null | .bool _ | .number _ | .string _ => 1

def weightItems : List Json → Nat
  | [] => 0
  | item :: items => item.weight + weightItems items + 1

def weightMembers : List (String × Json) → Nat
  | [] => 0
  | (_, value) :: members => value.weight + weightMembers members + 1

end

theorem putNumber_nat (n : Nat) (rest : List Char) :
    putNumber (.integer n) rest = Nat.toDigits 10 n ++ rest := by
  show n.repr.toList ++ rest = _
  rw [Nat.toList_repr]

theorem isBlank_of_isDigit {c : Char} (h : c.isDigit = true) : isBlank c = false := by
  by_contra blank
  simp only [isBlank, Bool.or_eq_true, decide_eq_true_eq, Bool.not_eq_false] at blank
  rcases blank with ((rfl | rfl) | rfl) | rfl <;> exact absurd h (by decide)

/-- A value starts with a character that neither is a blank nor closes a bracket. -/
theorem lay_head (L : Layout) (level : Nat) (j : Json) (hj : j.Plain) (rest : List Char) :
    ∃ c cs, L.lay level j rest = c :: cs ∧ isBlank c = false ∧ c ≠ ']' ∧ c ≠ '\x7d' := by
  match j with
  | .null => exact ⟨'n', _, by rw [lay], by decide, by decide, by decide⟩
  | .bool true => exact ⟨'t', _, by rw [lay, putLiteral], by decide, by decide, by decide⟩
  | .bool false => exact ⟨'f', _, by rw [lay, putLiteral], by decide, by decide, by decide⟩
  | .string s => exact ⟨'"', _, by rw [lay, putString], by decide, by decide, by decide⟩
  | .array [] => exact ⟨'[', _, by rw [lay], by decide, by decide, by decide⟩
  | .array (_ :: _) => exact ⟨'[', _, by rw [lay], by decide, by decide, by decide⟩
  | .object [] => exact ⟨'\x7b', _, by rw [lay], by decide, by decide, by decide⟩
  | .object ((_, _) :: _) => exact ⟨'\x7b', _, by rw [lay], by decide, by decide, by decide⟩
  | .number (.integer n) =>
    obtain ⟨m, rfl⟩ := Int.eq_ofNat_of_zero_le (show 0 ≤ n by rw [Plain] at hj; exact hj.1)
    obtain ⟨d, ds, hd⟩ := List.exists_cons_of_ne_nil (Nat.toDigits_ne_nil (n := m) (b := 10))
    have digit : d.isDigit = true :=
      Nat.isDigit_of_mem_toDigits (b := 10) (n := m) (by decide) (by decide) (by simp [hd])
    refine ⟨d, ds ++ rest, ?_, isBlank_of_isDigit digit, ?_, ?_⟩
    · rw [lay, putNumber_nat, hd, List.cons_append]
    · rintro rfl; exact absurd digit (by decide)
    · rintro rfl; exact absurd digit (by decide)
  | .number (.double _) => simp [Plain] at hj

theorem skipBlanks_lay (L : Layout) (level : Nat) (j : Json) (hj : j.Plain) (rest : List Char) :
    skipBlanks (L.lay level j rest) = L.lay level j rest := by
  obtain ⟨c, cs, eq, blank, -⟩ := lay_head L level j hj rest
  rw [eq, skipBlanks_cons blank]

theorem readValue?_blanks {blanks : List Char} (h : ∀ c ∈ blanks, isBlank c = true) (fuel : Nat)
    (cs : List Char) : readValue? fuel (blanks ++ cs) = readValue? fuel cs := by
  cases fuel with
  | zero => simp only [readValue?]
  | succ fuel => simp only [readValue?, skipBlanks_append h]

theorem readItems?_blanks {blanks : List Char} (h : ∀ c ∈ blanks, isBlank c = true)
    (before : List Json) (fuel : Nat) (cs : List Char) :
    readItems? before fuel (blanks ++ cs) = readItems? before fuel cs := by
  cases fuel with
  | zero => simp only [readItems?]
  | succ fuel => simp only [readItems?, readValue?_blanks h]

theorem readMembers?_blanks {blanks : List Char} (h : ∀ c ∈ blanks, isBlank c = true)
    (before : List (String × Json)) (fuel : Nat) (cs : List Char) :
    readMembers? before fuel (blanks ++ cs) = readMembers? before fuel cs := by
  cases fuel with
  | zero => simp only [readMembers?]
  | succ fuel => simp only [readMembers?, skipBlanks_append h]

theorem delimited_line (L : Layout) (level : Nat) {c : Char} (h : c = ']' ∨ c = '\x7d')
    (rest : List Char) : Delimited (L.line level ++ c :: rest) := by
  cases eq : L.line level with
  | nil => rcases h with rfl | rfl <;> simp [Delimited]
  | cons b bs =>
    have blank := L.line_blank level b (by simp [eq])
    simp [Delimited, blank]

theorem delimited_layItems (L : Layout) (level inner : Nat) (items : List Json) (rest : List Char) :
    Delimited (L.layItems inner items (L.line level ++ ']' :: rest)) := by
  cases items with
  | nil => rw [layItems]; exact delimited_line L level (.inl rfl) rest
  | cons item items => rw [layItems]; exact .inl rfl

theorem delimited_layMembers (L : Layout) (level inner : Nat) (members : List (String × Json))
    (rest : List Char) : Delimited (L.layMembers inner members (L.line level ++ '\x7d' :: rest)) := by
  cases members with
  | nil => rw [layMembers]; exact delimited_line L level (.inr rfl) rest
  | cons member members => rw [layMembers]; exact .inl rfl

/-- What starts with a digit is read as a number. -/
theorem readValue?_digit {d : Char} (h : d.isDigit = true) (fuel : Nat) (cs : List Char) :
    readValue? (fuel + 1) (d :: cs) =
      (JsonNumber.read? (d :: cs)).map fun (n, rest) => (.number n, rest) := by
  rw [readValue?, skipBlanks_cons (isBlank_of_isDigit h)]
  split
  case h_7 => rfl
  all_goals
    rename_i eq
    simp only [List.cons.injEq] at eq
    rw [eq.1] at h
    exact absurd h (by decide)

mutual

theorem readValue?_lay (L : Layout) (level : Nat) : ∀ (j : Json) (fuel : Nat) (rest : List Char),
    j.Plain → j.weight ≤ fuel → Delimited rest →
    readValue? fuel (L.lay level j rest) = some (j.canonical, rest)
  | j, 0, _, _, hf, _ => by cases j <;> simp [weight] at hf
  | .null, fuel + 1, rest, _, _, _ => by simp [lay, readValue?, skipBlanks, isBlank, canonical]
  | .bool true, fuel + 1, rest, _, _, _ => by
    simp [lay, putLiteral, readValue?, skipBlanks, isBlank, canonical]
  | .bool false, fuel + 1, rest, _, _, _ => by
    simp [lay, putLiteral, readValue?, skipBlanks, isBlank, canonical]
  | .string s, fuel + 1, rest, _, _, _ => by
    simp [lay, putString, readValue?, skipBlanks, isBlank, readChars?_foldr, canonical]
  | .number (.double _), fuel + 1, _, hj, _, _ => by simp [Plain] at hj
  | .number (.integer n), fuel + 1, rest, hj, _, hr => by
    rw [Plain] at hj
    obtain ⟨m, rfl⟩ := Int.eq_ofNat_of_zero_le hj.1
    have number := JsonNumber.read?_toDigits m (by omega) hr
    obtain ⟨d, ds, hd⟩ := List.exists_cons_of_ne_nil (Nat.toDigits_ne_nil (n := m) (b := 10))
    have digit : d.isDigit = true :=
      Nat.isDigit_of_mem_toDigits (b := 10) (n := m) (by decide) (by decide) (by simp [hd])
    rw [hd, List.cons_append] at number
    rw [lay, putNumber_nat, hd, List.cons_append, readValue?_digit digit, number, canonical]
    all_goals simp
  | .array [], fuel + 1, rest, _, _, _ => by
    simp [lay, readValue?, skipBlanks, isBlank, canonical, canonicalItems]
  | .array (item :: items), fuel + 1, rest, hj, hf, _ => by
    rw [Plain, PlainItems] at hj
    rw [weight, weightItems] at hf
    have inner := readItems?_lay L level (level + 1) item items [] fuel rest hj.1 hj.2 (by omega)
    obtain ⟨c, cs, eq, blank, open_, -⟩ := lay_head L (level + 1) item hj.1
      (L.layItems (level + 1) items (L.line level ++ ']' :: rest))
    rw [lay, readValue?, skipBlanks_cons (by decide)]
    simp only [skipBlanks_append (L.line_blank _), skipBlanks_lay L _ item hj.1]
    rw [eq] at inner ⊢
    split
    · rename_i closing
      exact absurd (List.cons.inj closing).1 open_
    · rw [inner, canonical, canonicalItems, List.reverse_nil, List.nil_append]
  | .object [], fuel + 1, rest, _, _, _ => by
    simp [lay, readValue?, skipBlanks, isBlank, canonical, canonicalMembers]
  | .object ((key, value) :: members), fuel + 1, rest, hj, hf, _ => by
    rw [Plain, PlainMembers] at hj
    rw [weight, weightMembers] at hf
    have inner := readMembers?_lay L level (level + 1) key value members [] fuel rest hj.1 hj.2
      (by omega)
    rw [lay, readValue?, skipBlanks_cons (by decide)]
    simp only [skipBlanks_append (L.line_blank _)]
    rw [putString] at inner ⊢
    rw [skipBlanks_cons (by decide)]
    split
    · rename_i closing
      exact absurd (List.cons.inj closing).1 (by decide)
    · rw [inner, canonical]
termination_by structural _ fuel => fuel

theorem readItems?_lay (L : Layout) (level inner : Nat) : ∀ (item : Json) (items before : List Json)
    (fuel : Nat) (rest : List Char), item.Plain → PlainItems items →
    item.weight + weightItems items + 1 ≤ fuel →
    readItems? before fuel
        (L.lay inner item (L.layItems inner items (L.line level ++ ']' :: rest))) =
      some (.array (before.reverse ++ item.canonical :: canonicalItems items), rest)
  | _, _, _, 0, _, _, _, hf => by omega
  | item, items, before, fuel + 1, rest, hi, hs, hf => by
    have value := readValue?_lay L inner item fuel _ hi (by omega)
      (delimited_layItems L level inner items rest)
    rw [readItems?, value]
    match items with
    | [] =>
      simp only [layItems, skipBlanks_append (L.line_blank _)]
      rw [skipBlanks_cons (by decide)]
      simp [canonicalItems]
    | next :: items =>
      rw [PlainItems] at hs
      rw [weightItems] at hf
      have further := readItems?_lay L level inner next items (item.canonical :: before) fuel rest
        hs.1 hs.2 (by omega)
      simp only [layItems]
      rw [skipBlanks_cons (by decide)]
      simp only [readItems?_blanks (L.line_blank _), further, canonicalItems]
      simp
termination_by structural _ _ _ fuel => fuel

theorem readMembers?_lay (L : Layout) (level inner : Nat) : ∀ (key : String) (value : Json)
    (members before : List (String × Json)) (fuel : Nat) (rest : List Char), value.Plain →
    PlainMembers members → value.weight + weightMembers members + 1 ≤ fuel →
    readMembers? before fuel (putString key (':' :: (L.space ++ L.lay inner value
        (L.layMembers inner members (L.line level ++ '\x7d' :: rest))))) =
      some (.object (canonicalMembers before ((key, value) :: members)), rest)
  | _, _, _, _, 0, _, _, _, hf => by omega
  | key, value, members, before, fuel + 1, rest, hv, hs, hf => by
    have read := readValue?_lay L inner value fuel _ hv (by omega)
      (delimited_layMembers L level inner members rest)
    rw [readMembers?, putString, skipBlanks_cons (by decide)]
    simp only [readChars?_foldr, List.reverse_nil, List.nil_append, String.ofList_toList]
    rw [skipBlanks_cons (by decide)]
    simp only [readValue?_blanks L.space_blank, read]
    match members with
    | [] =>
      simp only [layMembers, skipBlanks_append (L.line_blank _)]
      rw [skipBlanks_cons (by decide)]
      simp [canonicalMembers]
    | (next, other) :: members =>
      rw [PlainMembers] at hs
      rw [weightMembers] at hf
      have further := readMembers?_lay L level inner next other members
        (insertMember key value.canonical before) fuel rest hs.1 hs.2 (by omega)
      simp only [layMembers]
      rw [skipBlanks_cons (by decide)]
      simp only [readMembers?_blanks (L.line_blank _), further]
      simp [canonicalMembers]
termination_by structural _ _ _ _ fuel => fuel

end

theorem length_putChar (c : Char) (rest : List Char) :
    rest.length < (putChar c rest).length := by
  unfold putChar
  split_ifs <;> simp only [List.length_cons] <;> omega

theorem length_putString (s : String) (rest : List Char) :
    rest.length < (putString s rest).length := by
  rw [putString, List.length_cons]
  induction s.toList with
  | nil => simp only [List.foldr_nil, List.length_cons]; omega
  | cons c cs ih =>
    have longer := length_putChar c (cs.foldr putChar ('"' :: rest))
    rw [List.foldr_cons]
    omega

theorem length_putNumber (n : JsonNumber) (hn : (Json.number n).Plain) (rest : List Char) :
    rest.length < (putNumber n rest).length := by
  match n with
  | .double _ => simp [Plain] at hn
  | .integer n =>
    obtain ⟨m, rfl⟩ := Int.eq_ofNat_of_zero_le (show 0 ≤ n by rw [Plain] at hn; exact hn.1)
    have digits := List.length_pos_iff.mpr (Nat.toDigits_ne_nil (n := m) (b := 10))
    rw [putNumber_nat, List.length_append]
    omega

mutual

/-- Every nested call that reads a value stands behind a character of its own. -/
theorem weight_le_length (L : Layout) (level : Nat) : ∀ (j : Json) (rest : List Char), j.Plain →
    j.weight + rest.length ≤ (L.lay level j rest).length
  | .null, rest, _ => by simp only [lay, weight, List.length_cons]; omega
  | .bool true, rest, _ => by simp only [lay, putLiteral, weight, List.length_cons]; omega
  | .bool false, rest, _ => by simp only [lay, putLiteral, weight, List.length_cons]; omega
  | .number n, rest, hj => by
    have longer := length_putNumber n hj rest
    simp only [lay, weight]
    omega
  | .string s, rest, _ => by
    have longer := length_putString s rest
    simp only [lay, weight]
    omega
  | .array [], rest, _ => by simp only [lay, weight, weightItems, List.length_cons]; omega
  | .array (item :: items), rest, hj => by
    rw [Plain, PlainItems] at hj
    have first := weight_le_length L (level + 1) item
      (L.layItems (level + 1) items (L.line level ++ ']' :: rest)) hj.1
    have others := weightItems_le_length L (level + 1) items (L.line level ++ ']' :: rest) hj.2
    simp only [lay, weight, weightItems, List.length_cons, List.length_append] at *
    omega
  | .object [], rest, _ => by simp only [lay, weight, weightMembers, List.length_cons]; omega
  | .object ((key, value) :: members), rest, hj => by
    rw [Plain, PlainMembers] at hj
    have first := weight_le_length L (level + 1) value
      (L.layMembers (level + 1) members (L.line level ++ '\x7d' :: rest)) hj.1
    have others := weightMembers_le_length L (level + 1) members
      (L.line level ++ '\x7d' :: rest) hj.2
    have longer := length_putString key (':' :: (L.space ++ L.lay (level + 1) value
      (L.layMembers (level + 1) members (L.line level ++ '\x7d' :: rest))))
    simp only [lay, weight, weightMembers, List.length_cons, List.length_append] at *
    omega

theorem weightItems_le_length (L : Layout) (level : Nat) : ∀ (items : List Json)
    (rest : List Char), PlainItems items →
    weightItems items + rest.length ≤ (L.layItems level items rest).length
  | [], rest, _ => by simp only [layItems, weightItems]; omega
  | item :: items, rest, hs => by
    rw [PlainItems] at hs
    have first := weight_le_length L level item (L.layItems level items rest) hs.1
    have others := weightItems_le_length L level items rest hs.2
    simp only [layItems, weightItems, List.length_cons, List.length_append]
    omega

theorem weightMembers_le_length (L : Layout) (level : Nat) : ∀ (members : List (String × Json))
    (rest : List Char), PlainMembers members →
    weightMembers members + rest.length ≤ (L.layMembers level members rest).length
  | [], rest, _ => by simp only [layMembers, weightMembers]; omega
  | (key, value) :: members, rest, hs => by
    rw [PlainMembers] at hs
    have first := weight_le_length L level value (L.layMembers level members rest) hs.1
    have others := weightMembers_le_length L level members rest hs.2
    have longer := length_putString key (':' :: (L.space ++ L.lay level value
      (L.layMembers level members rest)))
    simp only [layMembers, weightMembers, List.length_cons, List.length_append] at *
    omega

end

theorem parse?_lay (L : Layout) (j : Json) (hj : j.Plain) :
    parse? (String.ofList (L.lay 0 j [])) = some j.canonical := by
  have enough : j.weight ≤ (L.lay 0 j []).length + 1 := by
    have := weight_le_length L 0 j [] hj
    simp only [List.length_nil] at this
    omega
  have read := readValue?_lay L 0 j ((L.lay 0 j []).length + 1) [] hj enough trivial
  rw [parse?, String.length_ofList, String.toList_ofList, read]
  rfl

/-- The compact text of a value reads back as that value. -/
theorem parse?_compress (j : Json) (hj : j.Plain) : parse? j.compress = some j.canonical := by
  rw [compress_eq]
  exact parse?_lay compact j hj

/-- The indented text of a value reads back as that value. -/
theorem parse?_pretty (j : Json) (hj : j.Plain) : parse? j.pretty = some j.canonical := by
  rw [pretty_eq]
  exact parse?_lay indented j hj

end Ambient.Json
