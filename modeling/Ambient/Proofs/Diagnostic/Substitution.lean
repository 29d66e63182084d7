import Mathlib.Data.List.Infix
import Mathlib.Logic.Function.Basic
import Ambient.Command.Run

namespace Ambient.Message

section

variable {pattern value cs : List Char}

theorem replaceFrom_skip (n : Nat) (cs : List Char) :
    replaceFrom pattern value n cs = replaceFrom pattern value 0 (cs.drop n) := by
  induction n generalizing cs with
  | zero => rfl
  | succ n ih =>
    cases cs with
    | nil => rfl
    | cons c cs => exact ih cs

theorem replaceFrom_found (some : pattern ≠ []) (cs : List Char) :
    replaceFrom pattern value 0 (pattern ++ cs) = value ++ replaceFrom pattern value 0 cs := by
  obtain ⟨c, rest, rfl⟩ := List.exists_cons_of_ne_nil some
  have found : (c :: rest).isPrefixOf (c :: (rest ++ cs)) = true :=
    List.isPrefixOf_iff_prefix.mpr (List.prefix_append (c :: rest) cs)
  rw [List.cons_append, replaceFrom, if_pos found, replaceFrom_skip, List.length_cons,
    Nat.add_sub_cancel, List.drop_left]

theorem replaceFrom_other {c : Char} (other : ¬ pattern <+: c :: cs) :
    replaceFrom pattern value 0 (c :: cs) = c :: replaceFrom pattern value 0 cs := by
  rw [replaceFrom, if_neg (mt List.isPrefixOf_iff_prefix.mp other)]

/-- A text is read from one place where the pattern stands to the next. -/
theorem replace_induction {P : List Char → Prop} (some : pattern ≠ []) (nil : P [])
    (found : ∀ cs, P cs → P (pattern ++ cs))
    (other : ∀ c cs, ¬ pattern <+: c :: cs → P cs → P (c :: cs)) (cs : List Char) : P cs := by
  induction length : cs.length using Nat.strong_induction_on generalizing cs with
  | _ n ih =>
    cases cs with
    | nil => exact nil
    | cons c cs =>
      by_cases starts : pattern <+: c :: cs
      · obtain ⟨rest, eq⟩ := starts
        have positive := List.length_pos_iff.mpr some
        have lengths := congrArg List.length eq
        rw [List.length_append] at lengths
        rw [← eq]
        exact found rest (ih rest.length (by omega) rest rfl)
      · rw [List.length_cons] at length
        exact other c cs starts (ih cs.length (by omega) cs rfl)

/-- Where the pattern does not start in the front of a text, that front stays. -/
theorem replaceFrom_append {front : List Char}
    (none : ∀ before behind, front = before ++ behind → behind ≠ [] → ¬ pattern <+: behind ++ cs) :
    replaceFrom pattern value 0 (front ++ cs) = front ++ replaceFrom pattern value 0 cs := by
  induction front with
  | nil => rfl
  | cons c front ih =>
    have here : ¬ pattern <+: c :: (front ++ cs) := none [] (c :: front) rfl (List.cons_ne_nil c front)
    rw [List.cons_append, replaceFrom_other here, ih, List.cons_append]
    intro before behind eq
    exact none (c :: before) behind (by rw [eq, List.cons_append])

/-- A text is left alone if the pattern does not stand in it. -/
theorem replaceFrom_of_not_infix (none : ¬ pattern <:+: cs) :
    replaceFrom pattern value 0 cs = cs := by
  have whole : replaceFrom pattern value 0 (cs ++ []) = cs ++ replaceFrom pattern value 0 [] := by
    apply replaceFrom_append
    intro before behind eq _ starts
    rw [List.append_nil] at starts
    exact none (starts.isInfix.trans (eq ▸ List.suffix_append before behind).isInfix)
  simpa [replaceFrom] using whole

theorem replaceFrom_self (some : pattern ≠ []) (cs : List Char) :
    replaceFrom pattern pattern 0 cs = cs := by
  induction cs using replace_induction some with
  | nil => rfl
  | found cs ih => rw [replaceFrom_found some, ih]
  | other c cs starts ih => rw [replaceFrom_other starts, ih]

/-- A text gets longer or shorter as many times as the pattern is found. -/
theorem exists_length_replaceFrom (some : pattern ≠ []) (value cs : List Char) :
    ∃ m, (replaceFrom pattern value 0 cs).length + m * pattern.length =
      cs.length + m * value.length := by
  induction cs using replace_induction some with
  | nil => exact ⟨0, by simp [replaceFrom]⟩
  | found cs ih =>
    obtain ⟨m, lengths⟩ := ih
    refine ⟨m + 1, ?_⟩
    rw [replaceFrom_found some, List.length_append, List.length_append, Nat.succ_mul, Nat.succ_mul]
    omega
  | other c cs starts ih =>
    obtain ⟨m, lengths⟩ := ih
    refine ⟨m, ?_⟩
    rw [replaceFrom_other starts, List.length_cons, List.length_cons]
    omega

/-- A text in which the pattern stands changes unless the pattern is replaced by itself. -/
theorem replaceFrom_eq_self_iff (some : pattern ≠ []) :
    replaceFrom pattern value 0 cs = cs ↔ ¬ pattern <:+: cs ∨ value = pattern := by
  constructor
  · intro same
    by_contra changes
    obtain ⟨stands, other⟩ := not_or.mp changes
    refine other ?_
    clear changes other
    induction cs using replace_induction some with
    | nil => exact absurd (List.infix_nil.mp (not_not.mp stands)) some
    | found cs ih =>
      rw [replaceFrom_found some] at same
      obtain ⟨m, lengths⟩ := exists_length_replaceFrom some value cs
      have whole := congrArg List.length same
      rw [List.length_append, List.length_append] at whole
      have equal : value.length = pattern.length := by
        apply Nat.eq_of_mul_eq_mul_left (Nat.succ_pos m)
        rw [Nat.succ_mul, Nat.succ_mul]
        omega
      exact (List.append_inj same equal).1
    | other c cs starts ih =>
      rw [replaceFrom_other starts] at same
      refine ih (List.cons.inj same).2 ?_
      rw [List.infix_cons_iff] at stands
      exact fun none => stands (not_or.mpr ⟨starts, none⟩)
  · rintro (none | rfl)
    · exact replaceFrom_of_not_infix none
    · exact replaceFrom_self some cs

/-- Replacing stops at a character that the pattern does not have. -/
theorem replaceFrom_append_cons {c : Char} {before behind : List Char} (some : pattern ≠ [])
    (apart : c ∉ pattern) : replaceFrom pattern value 0 (before ++ c :: behind) =
      replaceFrom pattern value 0 before ++ c :: replaceFrom pattern value 0 behind := by
  induction before using replace_induction some with
  | nil =>
    have other : ¬ pattern <+: c :: behind := by
      intro starts
      obtain ⟨d, rest, rfl⟩ := List.exists_cons_of_ne_nil some
      exact apart ((List.cons_prefix_cons.mp starts).1 ▸ List.mem_cons_self)
    exact replaceFrom_other other
  | found cs ih =>
    rw [List.append_assoc, replaceFrom_found some, ih, replaceFrom_found some, List.append_assoc]
  | other d cs starts ih =>
    have other : ¬ pattern <+: d :: (cs ++ c :: behind) := by
      intro longer
      rcases List.prefix_or_prefix_of_prefix longer (List.prefix_append (d :: cs) (c :: behind)) with
        inside | ⟨rest, eq⟩
      · exact starts inside
      -- the pattern goes on behind `cs`, so that `c` would be in it
      · rw [← eq, ← List.cons_append, List.prefix_append_right_inj] at longer
        cases rest with
        | nil => exact starts (by rw [← eq, List.append_nil])
        | cons e more =>
          obtain rfl := (List.cons_prefix_cons.mp longer).1
          exact apart (eq ▸ List.mem_append_right _ List.mem_cons_self)
    rw [List.cons_append, replaceFrom_other other, ih, replaceFrom_other starts, List.cons_append]

end

theorem isDigit_of_mem_digits {i : Nat} {c : Char} (h : c ∈ Nat.toDigits 10 i) : c.isDigit = true :=
  Nat.isDigit_of_mem_toDigits (by decide) (by decide) h

theorem placeholder_eq (i : Nat) : placeholder i = '{' :: (Nat.toDigits 10 i ++ ['}']) := by
  rw [placeholder, Nat.toString_eq_repr, Nat.toList_repr, List.cons_append]

theorem placeholder_ne_nil (i : Nat) : placeholder i ≠ [] := List.cons_ne_nil _ _

/-- Only the first character of a placeholder is an opening brace. -/
theorem brace_not_mem_tail (i : Nat) : '{' ∉ (placeholder i).tail := by
  rw [placeholder_eq]
  intro mem
  rcases List.mem_append.mp mem with digit | last
  · cases isDigit_of_mem_digits digit
  · cases List.mem_singleton.mp last

/-- What a text starts with is at most one placeholder. -/
theorem placeholder_at_start {i j : Nat} {cs : List Char} (h : placeholder i <+: cs)
    (g : placeholder j <+: cs) : i = j := by
  have number (k : Nat) (starts : placeholder k <+: cs) :
      cs.tail.takeWhile Char.isDigit = Nat.toDigits 10 k := by
    obtain ⟨rest, rfl⟩ := starts
    have digits : ∀ c ∈ Nat.toDigits 10 k, c.isDigit = true := fun c => isDigit_of_mem_digits
    have stop : ('}' :: rest).takeWhile Char.isDigit = [] := rfl
    rw [placeholder_eq, List.cons_append, List.append_assoc, List.tail_cons,
      List.takeWhile_append_of_pos digits]
    simp [stop]
  have same := (number i h).symm.trans (number j g)
  rw [← Nat.ofDigitChars_toDigits (n := i) (b := 10) (by decide) (by decide), same,
    Nat.ofDigitChars_toDigits (by decide) (by decide)]

/-- Where no brace opens, no placeholder starts. -/
theorem replaceFrom_plain {i : Nat} {front cs value : List Char} (plain : '{' ∉ front) :
    replaceFrom (placeholder i) value 0 (front ++ cs) =
      front ++ replaceFrom (placeholder i) value 0 cs := by
  apply replaceFrom_append
  intro before behind cut more starts
  obtain ⟨c, rest, rfl⟩ := List.exists_cons_of_ne_nil more
  obtain rfl : '{' = c := (List.cons_prefix_cons.mp starts).1
  exact plain (cut ▸ List.mem_append_right before List.mem_cons_self)

/-- Placeholders do not overlap. -/
theorem placeholder_split {i k : Nat} {cs before behind : List Char}
    (h : placeholder i ++ cs = before ++ (placeholder k ++ behind)) :
    before = [] ∧ i = k ∨ ∃ later, before = placeholder i ++ later ∧
      cs = later ++ (placeholder k ++ behind) := by
  rcases List.append_eq_append_iff.mp h with ⟨later, rfl, rest⟩ | ⟨inner, shape, rest⟩
  · exact .inr ⟨later, rfl, rest⟩
  · cases before with
    | nil =>
      have first : placeholder i <+: placeholder i ++ cs := List.prefix_append _ cs
      exact .inl ⟨rfl, placeholder_at_start first ⟨behind, h.symm⟩⟩
    | cons d before =>
      cases inner with
      | nil => exact .inr ⟨[], by rw [shape, List.append_nil, List.append_nil], rest.symm⟩
      | cons e inner =>
        -- the second one would start inside of the first one
        obtain rfl : '{' = e := (List.cons.inj rest).1
        have mem : '{' ∈ (placeholder i).tail := by
          rw [shape]
          exact List.mem_append_right before List.mem_cons_self
        exact absurd mem (brace_not_mem_tail i)

/-- What is in front of a placeholder and what is behind it are searched apart from each other. -/
theorem replaceFrom_placeholder (k : Nat) (value before behind : List Char) :
    replaceFrom (placeholder k) value 0 (before ++ (placeholder k ++ behind)) =
      replaceFrom (placeholder k) value 0 before ++
        (value ++ replaceFrom (placeholder k) value 0 behind) := by
  have some := placeholder_ne_nil k
  induction before using replace_induction some with
  | nil => exact replaceFrom_found some behind
  | found cs ih =>
    rw [List.append_assoc, replaceFrom_found some, ih, replaceFrom_found some, List.append_assoc]
  | other c cs starts ih =>
    have other : ¬ placeholder k <+: c :: (cs ++ (placeholder k ++ behind)) := by
      rintro ⟨rest, eq⟩
      rw [← List.cons_append] at eq
      obtain ⟨none, -⟩ | ⟨more, here, -⟩ := placeholder_split eq
      · exact List.cons_ne_nil c cs none
      · exact starts ⟨more, here.symm⟩
    rw [List.cons_append, replaceFrom_other other, ih, replaceFrom_other starts, List.cons_append]

/-- A part of a template: a character that stands for itself, or the place of an argument. -/
inductive Part where
  | char (c : Char)
  | slot (i : Nat)
deriving DecidableEq

/-- The number of the placeholder at the start of a template that takes `n` arguments. -/
def slotAt? (n : Nat) (cs : List Char) : Option Nat :=
  (List.range n).find? fun i => (placeholder i).isPrefixOf cs

/-- Drops some characters, then cuts a template that takes `n` arguments into its parts. -/
def partsFrom (n : Nat) : Nat → List Char → List Part
  | _, [] => []
  | skip + 1, _ :: cs => partsFrom n skip cs
  | 0, c :: cs =>
    match slotAt? n (c :: cs) with
    | some i => .slot i :: partsFrom n ((placeholder i).length - 1) cs
    | none => .char c :: partsFrom n 0 cs

/-- The parts of a template with as many placeholders as there are arguments. -/
def parts (template : String) (arguments : List String) : List Part :=
  partsFrom arguments.length 0 template.toList

/-- What a part reads, given what stands in the places of arguments. -/
def Part.chars (value : Nat → List Char) : Part → List Char
  | .char c => [c]
  | .slot i => value i

/-- What stands in the places of arguments when some of them are put in: the argument, and the placeholder
of those that are not. -/
def valueIn (arguments : List String) (i : Nat) : List Char :=
  match arguments[i]? with
  | some argument => argument.toList
  | none => placeholder i

/-- The template with all arguments put in at once. -/
def substitute (template : String) (arguments : List String) : String :=
  String.ofList ((parts template arguments).flatMap (Part.chars (valueIn arguments)))

/-- The placeholder with number `k` stands nowhere else than where the template has it. -/
def Own (value : Nat → List Char) (k : Nat) (parts : List Part) : Prop :=
  ∀ before behind, parts.flatMap (Part.chars value) = before ++ (placeholder k ++ behind) →
    ∃ front rest, parts = front ++ .slot k :: rest ∧ front.flatMap (Part.chars value) = before

/-- Putting in the arguments before it makes no placeholder with number `k` that the template does not
have. -/
def MakesNone (template : String) (arguments : List String) (k : Nat) : Prop :=
  Own (valueIn (arguments.take k)) k (parts template arguments)

section

variable {n k i : Nat} {c : Char} {cs : List Char} {part : Part} {ps : List Part}
  {value : Nat → List Char}

theorem prefix_of_slotAt? (h : slotAt? n cs = some i) : i < n ∧ placeholder i <+: cs :=
  ⟨List.mem_range.mp (List.mem_of_find?_eq_some h),
    List.isPrefixOf_iff_prefix.mp (List.find?_some (p := fun i => (placeholder i).isPrefixOf cs) h)⟩

theorem not_prefix_of_slotAt? (h : slotAt? n cs = none) (lt : k < n) : ¬ placeholder k <+: cs := by
  intro starts
  have found := List.find?_eq_none.mp h k (List.mem_range.mpr lt)
  exact found (List.isPrefixOf_iff_prefix.mpr starts)

theorem partsFrom_skip (skip : Nat) (cs : List Char) :
    partsFrom n skip cs = partsFrom n 0 (cs.drop skip) := by
  induction skip generalizing cs with
  | zero => rfl
  | succ skip ih =>
    cases cs with
    | nil => rfl
    | cons c cs => exact ih cs

theorem partsFrom_slot (lt : i < n) (cs : List Char) :
    partsFrom n 0 (placeholder i ++ cs) = .slot i :: partsFrom n 0 cs := by
  obtain ⟨c, rest, eq⟩ := List.exists_cons_of_ne_nil (placeholder_ne_nil i)
  have starts : placeholder i <+: c :: (rest ++ cs) := by
    rw [← List.cons_append, ← eq]
    exact List.prefix_append _ cs
  have found : slotAt? n (c :: (rest ++ cs)) = some i := by
    cases at_start : slotAt? n (c :: (rest ++ cs)) with
    | none => exact absurd starts (not_prefix_of_slotAt? at_start lt)
    | some j => rw [placeholder_at_start (prefix_of_slotAt? at_start).2 starts]
  have length : (placeholder i).length - 1 = rest.length := by rw [eq]; rfl
  rw [eq, List.cons_append, partsFrom, found]
  dsimp only
  rw [length, partsFrom_skip, List.drop_left]

theorem partsFrom_char (none : slotAt? n (c :: cs) = none) :
    partsFrom n 0 (c :: cs) = .char c :: partsFrom n 0 cs := by
  rw [partsFrom, none]

/-- A template is read from one place of an argument to the next. -/
theorem template_induction {P : List Char → Prop} (n : Nat) (nil : P [])
    (slot : ∀ i < n, ∀ cs, P cs → P (placeholder i ++ cs))
    (char : ∀ c cs, slotAt? n (c :: cs) = none → P cs → P (c :: cs)) (cs : List Char) : P cs := by
  induction length : cs.length using Nat.strong_induction_on generalizing cs with
  | _ m ih =>
    cases cs with
    | nil => exact nil
    | cons c cs =>
      cases found : slotAt? n (c :: cs) with
      | none =>
        rw [List.length_cons] at length
        exact char c cs found (ih cs.length (by omega) cs rfl)
      | some i =>
        obtain ⟨lt, rest, eq⟩ := prefix_of_slotAt? found
        have positive := List.length_pos_iff.mpr (placeholder_ne_nil i)
        have lengths := congrArg List.length eq
        rw [List.length_append] at lengths
        rw [← eq]
        exact slot i lt rest (ih rest.length (by omega) rest rfl)

/-- The parts of a template make it up. -/
theorem flatMap_partsFrom (n : Nat) (cs : List Char) :
    (partsFrom n 0 cs).flatMap (Part.chars (valueIn [])) = cs := by
  induction cs using template_induction n with
  | nil => rfl
  | slot i lt cs ih =>
    rw [partsFrom_slot lt, List.flatMap_cons, ih]
    rfl
  | char c cs none ih =>
    rw [partsFrom_char none, List.flatMap_cons, ih]
    rfl

/-- A template has all of its placeholders as places of arguments. -/
theorem own_partsFrom (lt : k < n) (cs : List Char) : Own (valueIn []) k (partsFrom n 0 cs) := by
  intro before behind split
  rw [flatMap_partsFrom] at split
  induction cs using template_induction n generalizing before with
  | nil => simp [placeholder] at split
  | slot i lt' cs ih =>
    rw [partsFrom_slot lt']
    obtain ⟨rfl, rfl⟩ | ⟨later, rfl, rest⟩ := placeholder_split split
    · exact ⟨[], _, rfl, rfl⟩
    · obtain ⟨front, others, eq, chars⟩ := ih later rest
      refine ⟨.slot i :: front, others, by rw [eq, List.cons_append], ?_⟩
      rw [List.flatMap_cons, chars]
      rfl
  | char c cs none ih =>
    rw [partsFrom_char none]
    cases before with
    | nil => exact absurd ⟨behind, split.symm⟩ (not_prefix_of_slotAt? none lt)
    | cons d before =>
      obtain ⟨rfl, others⟩ := List.cons.inj split
      obtain ⟨front, rest, eq, chars⟩ := ih before others
      refine ⟨.char c :: front, rest, by rw [eq, List.cons_append], ?_⟩
      rw [List.flatMap_cons, chars]
      rfl

theorem Own.tail (own : Own value k (part :: ps)) (free : value k = placeholder k) :
    Own value k ps := by
  intro before behind split
  have whole : (part :: ps).flatMap (Part.chars value) =
      (part.chars value ++ before) ++ (placeholder k ++ behind) := by
    rw [List.flatMap_cons, split, List.append_assoc]
  obtain ⟨front, rest, eq, chars⟩ := own _ _ whole
  cases front with
  | nil =>
    obtain ⟨rfl, -⟩ := List.cons.inj eq
    have none : value k = [] := (List.append_eq_nil_iff.mp chars.symm).1
    exact absurd (free.symm.trans none) (placeholder_ne_nil k)
  | cons first front =>
    obtain ⟨rfl, rfl⟩ := List.cons.inj eq
    exact ⟨front, rest, rfl, List.append_cancel_left chars⟩

/-- In front of another part, a placeholder does not start. -/
theorem Own.not_prefix (own : Own value k (part :: ps)) (other : part ≠ .slot k)
    {before inner : List Char} (cut : part.chars value = before ++ inner) (more : inner ≠ []) :
    ¬ placeholder k <+: inner ++ ps.flatMap (Part.chars value) := by
  rintro ⟨behind, starts⟩
  have whole : (part :: ps).flatMap (Part.chars value) = before ++ (placeholder k ++ behind) := by
    rw [List.flatMap_cons, cut, List.append_assoc, starts]
  obtain ⟨front, rest, eq, chars⟩ := own _ _ whole
  cases front with
  | nil => exact other (List.cons.inj eq).1
  | cons first front =>
    obtain ⟨rfl, -⟩ := List.cons.inj eq
    have lengths := congrArg List.length chars
    rw [List.flatMap_cons, cut, List.length_append, List.length_append] at lengths
    have positive := List.length_pos_iff.mpr more
    omega

theorem chars_slot (free : value k = placeholder k) : (Part.slot k).chars value = placeholder k :=
  free

theorem chars_slot_update (value : Nat → List Char) (k : Nat) (argument : List Char) :
    (Part.slot k).chars (Function.update value k argument) = argument :=
  Function.update_self ..

theorem chars_update (other : part ≠ .slot k) (argument : List Char) :
    part.chars (Function.update value k argument) = part.chars value := by
  cases part with
  | char c => rfl
  | slot i => exact Function.update_of_ne (fun is => other (congrArg Part.slot is)) ..

/-- Where its placeholder stands in no other place, an argument goes to its places only. -/
theorem replaceFrom_parts (own : Own value k ps) (free : value k = placeholder k)
    (argument : List Char) :
    replaceFrom (placeholder k) argument 0 (ps.flatMap (Part.chars value)) =
      ps.flatMap (Part.chars (Function.update value k argument)) := by
  induction ps with
  | nil => rfl
  | cons part ps ih =>
    have rest := ih (own.tail free)
    by_cases here : part = .slot k
    · subst here
      rw [List.flatMap_cons, List.flatMap_cons, chars_slot_update, chars_slot free,
        replaceFrom_found (placeholder_ne_nil k), rest]
    · rw [List.flatMap_cons, List.flatMap_cons, chars_update here argument, replaceFrom_append, rest]
      intro before inner cut more
      exact own.not_prefix here cut more

/-- Whatever stands in front, a text gets longer or shorter than the parts with the argument in its
places by as much for each other place where the placeholder is found. -/
theorem exists_length_replaceFrom_parts (free : value k = placeholder k) (argument : List Char)
    (ps : List Part) (s : List Char) :
    ∃ m, (replaceFrom (placeholder k) argument 0 (s ++ ps.flatMap (Part.chars value))).length +
        m * (placeholder k).length =
      (s ++ ps.flatMap (Part.chars (Function.update value k argument))).length +
        m * argument.length := by
  induction ps generalizing s with
  | nil =>
    rw [List.flatMap_nil, List.flatMap_nil, List.append_nil]
    exact exists_length_replaceFrom (placeholder_ne_nil k) argument s
  | cons part ps ih =>
    by_cases here : part = .slot k
    · subst here
      obtain ⟨m, front⟩ := exists_length_replaceFrom (placeholder_ne_nil k) argument s
      obtain ⟨m', rest⟩ := ih []
      rw [List.nil_append, List.nil_append] at rest
      refine ⟨m + m', ?_⟩
      rw [List.flatMap_cons, List.flatMap_cons, chars_slot_update, chars_slot free,
        replaceFrom_placeholder, Nat.add_mul, Nat.add_mul]
      simp only [List.length_append]
      omega
    · rw [List.flatMap_cons, List.flatMap_cons, chars_update here argument, ← List.append_assoc,
        ← List.append_assoc]
      exact ih (s ++ part.chars value)

/-- If an argument goes to its places only, a text in front of one of them keeps its length: the places
where the placeholder is found in front of this one and behind it change the length in one direction,
so by nothing at all. -/
theorem length_replaceFrom_of_parts (free : value k = placeholder k) {argument s : List Char}
    (same : replaceFrom (placeholder k) argument 0 s ++ (argument ++
        replaceFrom (placeholder k) argument 0 (ps.flatMap (Part.chars value))) =
      s ++ (argument ++ ps.flatMap (Part.chars (Function.update value k argument)))) :
    (replaceFrom (placeholder k) argument 0 s).length = s.length := by
  obtain ⟨m, front⟩ := exists_length_replaceFrom (placeholder_ne_nil k) argument s
  obtain ⟨m', rest⟩ := exists_length_replaceFrom_parts free argument ps []
  have whole := congrArg List.length same
  simp only [List.length_append, List.nil_append] at whole rest
  obtain none | found := Nat.eq_zero_or_pos (m + m')
  · obtain rfl := Nat.eq_zero_of_add_eq_zero_right none
    simpa using front
  · have lengths : (placeholder k).length = argument.length := by
      apply Nat.eq_of_mul_eq_mul_left found
      rw [Nat.add_mul, Nat.add_mul]
      omega
    rw [lengths] at front
    exact Nat.add_right_cancel front

/-- If an argument goes to its places only, and is not the placeholder itself, the placeholder stands in
no other place, also behind some text in front of the parts. -/
theorem own_of_replaceFrom (free : value k = placeholder k) {argument s : List Char}
    (other : argument ≠ placeholder k)
    (same : replaceFrom (placeholder k) argument 0 (s ++ ps.flatMap (Part.chars value)) =
      s ++ ps.flatMap (Part.chars (Function.update value k argument)))
    {before behind : List Char}
    (split : s ++ ps.flatMap (Part.chars value) = before ++ (placeholder k ++ behind)) :
    ∃ front rest, ps = front ++ .slot k :: rest ∧
      s ++ front.flatMap (Part.chars value) = before := by
  have none {cs : List Char} (same : replaceFrom (placeholder k) argument 0 cs = cs)
      (before behind : List Char) : cs ≠ before ++ (placeholder k ++ behind) := by
    rintro rfl
    have stands := ((replaceFrom_eq_self_iff (placeholder_ne_nil k)).mp same).resolve_right other
    exact stands ⟨before, behind, List.append_assoc ..⟩
  induction ps generalizing s before with
  | nil =>
    rw [List.flatMap_nil, List.append_nil] at same split
    rw [List.flatMap_nil, List.append_nil] at same
    exact absurd split (none same before behind)
  | cons part ps ih =>
    rw [List.flatMap_cons] at split same
    rw [List.flatMap_cons] at same
    by_cases here : part = .slot k
    · subst here
      rw [chars_slot_update, chars_slot free, replaceFrom_placeholder] at same
      rw [chars_slot free] at split
      obtain ⟨start, rest⟩ := List.append_inj same (length_replaceFrom_of_parts free same)
      have later := List.append_cancel_left rest
      rcases List.append_eq_append_iff.mp split with ⟨between, rfl, eq⟩ | ⟨between, rfl, eq⟩
      · obtain ⟨rfl, -⟩ | ⟨more, rfl, tail⟩ := placeholder_split eq
        · exact ⟨[], ps, rfl, by rw [List.flatMap_nil]⟩
        · obtain ⟨front, rest, parts, chars⟩ := ih (s := []) later tail
          refine ⟨.slot k :: front, rest, by rw [parts, List.cons_append], ?_⟩
          rw [List.flatMap_cons, chars_slot free, ← chars, List.nil_append]
      · obtain ⟨rfl, -⟩ | ⟨more, rfl, -⟩ := placeholder_split eq
        · exact ⟨[], ps, rfl, by simp⟩
        · exact absurd rfl (none start before more)
    · rw [chars_update here argument, ← List.append_assoc, ← List.append_assoc] at same
      rw [← List.append_assoc] at split
      obtain ⟨front, rest, parts, chars⟩ := ih same split
      refine ⟨part :: front, rest, by rw [parts, List.cons_append], ?_⟩
      rw [List.flatMap_cons, ← List.append_assoc, chars]

theorem replaceFrom_parts_iff (free : value k = placeholder k) (argument : List Char) :
    replaceFrom (placeholder k) argument 0 (ps.flatMap (Part.chars value)) =
        ps.flatMap (Part.chars (Function.update value k argument)) ↔
      Own value k ps ∨ argument = placeholder k := by
  constructor
  · intro same
    by_cases own : argument = placeholder k
    · exact .inr own
    · refine .inl fun before behind split => ?_
      exact own_of_replaceFrom free own (s := []) same split
  · rintro (own | rfl)
    · exact replaceFrom_parts own free argument
    · rw [← free, Function.update_eq_self, free, replaceFrom_self (placeholder_ne_nil k)]

theorem valueIn_take (arguments : List String) (k : Nat) :
    valueIn (arguments.take k) k = placeholder k := by
  rw [valueIn, List.getElem?_eq_none (List.length_take_le k arguments)]

theorem valueIn_concat (arguments : List String) (argument : String) :
    valueIn (arguments ++ [argument]) =
      Function.update (valueIn arguments) arguments.length argument.toList := by
  funext i
  rcases Nat.lt_trichotomy i arguments.length with less | rfl | greater
  · rw [Function.update_of_ne less.ne, valueIn, valueIn, List.getElem?_append_left less]
  · rw [Function.update_self, valueIn, List.getElem?_concat_length]
  · have long : (arguments ++ [argument]).length ≤ i := by
      rw [List.length_append]
      exact greater
    rw [Function.update_of_ne greater.ne', valueIn, valueIn, List.getElem?_eq_none long,
      List.getElem?_eq_none greater.le]

/-- Behind the arguments that have been put in, the others follow. -/
theorem foldl_replaceFrom (done rest : List String)
    (own : ∀ k < (done ++ rest).length, Own (valueIn ((done ++ rest).take k)) k ps) :
    (rest.zipIdx done.length).foldl
      (fun text (argument, i) => replaceFrom (placeholder i) argument.toList 0 text)
      (ps.flatMap (Part.chars (valueIn done))) =
    ps.flatMap (Part.chars (valueIn (done ++ rest))) := by
  induction rest generalizing done with
  | nil => rw [List.append_nil]; rfl
  | cons argument rest ih =>
    have next : done ++ argument :: rest = (done ++ [argument]) ++ rest := by simp
    have here : Own (valueIn done) done.length ps := by
      have own := own done.length (by simp)
      rwa [List.take_left] at own
    have free : valueIn done done.length = placeholder done.length := by
      have taken := valueIn_take done done.length
      rwa [List.take_length] at taken
    rw [List.zipIdx_cons, List.foldl_cons]
    dsimp only
    rw [replaceFrom_parts here free, ← valueIn_concat, next]
    have later := ih (done ++ [argument]) (next ▸ own)
    rwa [List.length_append] at later

/-- Where arguments make no placeholders, all of them are put in as they are. -/
theorem fill_eq_substitute {template : String} {arguments : List String}
    (none : ∀ k < arguments.length, MakesNone template arguments k) :
    fill template arguments = substitute template arguments := by
  have filled := foldl_replaceFrom [] arguments none
  rw [parts, flatMap_partsFrom] at filled
  rw [fill, substitute, parts]
  exact congrArg String.ofList filled

/-- What the arguments in front of the last one do not spoil, the last one leaves as it is exactly if they
make no placeholder for it, or it is this placeholder itself. -/
theorem fill_eq_substitute_iff {template last : String} {others : List String}
    (none : ∀ k < others.length, MakesNone template (others ++ [last]) k) :
    fill template (others ++ [last]) = substitute template (others ++ [last]) ↔
      MakesNone template (others ++ [last]) others.length ∨ last.toList = placeholder others.length := by
  have front : ∀ k < others.length,
      Own (valueIn (others.take k)) k (parts template (others ++ [last])) := by
    intro k lt
    have own := none k lt
    rwa [MakesNone, List.take_append_of_le_length lt.le] at own
  have free : valueIn others others.length = placeholder others.length := by
    have taken := valueIn_take others others.length
    rwa [List.take_length] at taken
  have filled := foldl_replaceFrom [] others front
  rw [parts, flatMap_partsFrom, ← parts, List.nil_append] at filled
  have whole : fill template (others ++ [last]) = String.ofList (replaceFrom (placeholder others.length)
      last.toList 0 ((parts template (others ++ [last])).flatMap (Part.chars (valueIn others)))) := by
    rw [fill, List.zipIdx_append, List.foldl_append, ← filled]
    simp
  rw [MakesNone, List.take_left, ← replaceFrom_parts_iff free, ← valueIn_concat, whole, substitute,
    String.ofList_inj]

/-- Without another opening brace there is no other placeholder. -/
theorem own_of_braces (chars : .char '{' ∉ ps)
    (values : ∀ i, .slot i ∈ ps → '{' ∉ value i ∨ value i = placeholder i) : Own value k ps := by
  intro before behind split
  induction ps generalizing before with
  | nil => simp [placeholder] at split
  | cons part ps ih =>
    have later {rest : List Char} (eq : before = part.chars value ++ rest)
        (split : ps.flatMap (Part.chars value) = rest ++ (placeholder k ++ behind)) :
        ∃ front others, part :: ps = front ++ .slot k :: others ∧
          front.flatMap (Part.chars value) = before := by
      obtain ⟨front, others, parts, read⟩ := ih (List.not_mem_of_not_mem_cons chars)
        (fun i mem => values i (List.mem_cons_of_mem _ mem)) rest split
      exact ⟨part :: front, others, by rw [parts, List.cons_append],
        by rw [List.flatMap_cons, read, eq]⟩
    have plain_or : '{' ∉ part.chars value ∨
        ∃ i, part = .slot i ∧ part.chars value = placeholder i := by
      cases part with
      | char c => exact .inl fun mem => chars (List.mem_singleton.mp mem ▸ List.mem_cons_self)
      | slot i => exact (values i List.mem_cons_self).imp_right fun is => ⟨i, rfl, is⟩
    rw [List.flatMap_cons] at split
    obtain plain | ⟨i, rfl, is⟩ := plain_or
    · rcases List.append_eq_append_iff.mp split with ⟨rest, eq, split⟩ | ⟨inner, cut, rest⟩
      · exact later eq split
      · cases inner with
        | nil =>
          have eq : before = part.chars value ++ [] := by rw [cut, List.append_nil, List.append_nil]
          exact later eq rest.symm
        | cons c inner =>
          obtain rfl : '{' = c := (List.cons.inj rest).1
          exact absurd (cut ▸ List.mem_append_right before List.mem_cons_self) plain
    · rw [is] at split
      obtain ⟨rfl, rfl⟩ | ⟨rest, eq, split⟩ := placeholder_split split
      · exact ⟨[], ps, rfl, rfl⟩
      · exact later (by rw [eq, is]) split

/-- Arguments without opening braces make no placeholders in a template that has no others. The last
argument may have them, since nothing is put in behind it. -/
theorem makesNone_of_braces {template : String} {arguments : List String}
    (chars : .char '{' ∉ parts template arguments)
    (plain : ∀ a ∈ arguments.dropLast, '{' ∉ a.toList) (lt : k < arguments.length) :
    MakesNone template arguments k := by
  refine own_of_braces chars fun i _ => ?_
  by_cases less : i < k
  · left
    have inside : i < arguments.dropLast.length := by
      rw [List.length_dropLast]
      omega
    have mem := plain _ (List.getElem_mem inside)
    have put : (arguments.take k)[i]? = some arguments.dropLast[i] := by
      rw [List.getElem?_take_of_lt less, List.getElem_dropLast, List.getElem?_eq_getElem]
    rw [valueIn, put]
    exact mem
  · right
    have none : (arguments.take k)[i]? = none := by
      apply List.getElem?_eq_none
      exact (List.length_take_le k arguments).trans (Nat.le_of_not_lt less)
    rw [valueIn, none]

/-- In front of the first argument nothing has been put in. -/
theorem makesNone_zero {template : String} {arguments : List String} (some : 0 < arguments.length) :
    MakesNone template arguments 0 :=
  own_partsFrom some template.toList

end

theorem toList_template_fileUnreadable : (template .fileUnreadable).toList =
    "Cannot read file '".toList ++
      (placeholder 0 ++ '\'' :: (": ".toList ++ (placeholder 1 ++ ['.']))) := by
  decide

/-- The path is searched for the placeholder of the error. -/
theorem toList_text_fileUnreadable (path error : String) :
    (text .fileUnreadable [path, error]).toList = "Cannot read file '".toList ++
      (replaceFrom (placeholder 1) error.toList 0 path.toList ++
        '\'' :: (": ".toList ++ (error.toList ++ ['.']))) := by
  have both : (text .fileUnreadable [path, error]).toList = replaceFrom (placeholder 1) error.toList 0
      (replaceFrom (placeholder 0) path.toList 0 (template .fileUnreadable).toList) :=
    String.toList_ofList
  have front : '{' ∉ "Cannot read file '".toList := by decide
  have rest : ¬ placeholder 0 <:+: '\'' :: (": ".toList ++ (placeholder 1 ++ ['.'])) := by decide
  have quote : '\'' ∉ placeholder 1 := by decide
  have colon : '{' ∉ ": ".toList := by decide
  have dot : ¬ placeholder 1 <:+: ['.'] := by decide
  rw [both, toList_template_fileUnreadable, replaceFrom_plain front,
    replaceFrom_found (placeholder_ne_nil 0), replaceFrom_of_not_infix rest, replaceFrom_plain front,
    replaceFrom_append_cons (placeholder_ne_nil 1) quote, replaceFrom_plain colon,
    replaceFrom_found (placeholder_ne_nil 1), replaceFrom_of_not_infix dot]

theorem text_fileUnreadable_iff (path error : String) :
    text .fileUnreadable [path, error] = "Cannot read file '" ++ path ++ "': " ++ error ++ "." ↔
      ¬ placeholder 1 <:+: path.toList ∨ error.toList = placeholder 1 := by
  have quote : "': ".toList = '\'' :: ": ".toList := by simp
  have dot : ".".toList = ['.'] := by simp
  rw [← replaceFrom_eq_self_iff (placeholder_ne_nil 1), ← String.toList_inj,
    toList_text_fileUnreadable]
  simp only [String.toList_append, List.append_assoc, quote, dot, List.cons_append,
    List.append_right_inj, List.append_left_inj]

/-- Where no argument, with what stands around it, makes a placeholder of a later one, a text is its
template with all arguments put in at once; with two arguments, only then or if the second one is its own
placeholder. It is so if no other brace opens in the template and in all arguments but the last, and
whenever there is only one argument. The text about a file that cannot be read has path and error in it
as they are exactly if the placeholder of the error is not part of the path, or is the error. -/
theorem fill_verbatim (template : String) (arguments : List String) (options : Options) (path : String)
    (e : FileError) :
    ((∀ k < arguments.length, MakesNone template arguments k) →
      fill template arguments = substitute template arguments) ∧
    (∀ first second, arguments = [first, second] →
      (fill template arguments = substitute template arguments ↔
        MakesNone template arguments 1 ∨ second.toList = placeholder 1)) ∧
    (.char '{' ∉ parts template arguments → (∀ a ∈ arguments.dropLast, '{' ∉ a.toList) →
      fill template arguments = substitute template arguments) ∧
    (arguments.length ≤ 1 → fill template arguments = substitute template arguments) ∧
    (e ≠ .notFound → ∃ d, (Report.ofText options path (.error e)).outcome = .error d ∧
      (d.text = "Cannot read file '" ++ path ++ "': " ++ e.message ++ "." ↔
        ¬ placeholder 1 <:+: path.toList ∨ e.message.toList = placeholder 1)) := by
  refine ⟨fill_eq_substitute, ?_, ?_, ?_, ?_⟩
  · rintro first second rfl
    have front : ∀ k < [first].length, MakesNone template ([first] ++ [second]) k := by
      intro k lt
      obtain rfl : k = 0 := Nat.lt_one_iff.mp lt
      exact makesNone_zero (Nat.zero_lt_succ _)
    exact fill_eq_substitute_iff front
  · intro chars plain
    exact fill_eq_substitute fun k lt => makesNone_of_braces chars plain lt
  · intro one
    apply fill_eq_substitute
    intro k lt
    obtain rfl : k = 0 := by omega
    exact makesNone_zero lt
  · intro other
    have reported : (Report.ofText options path (.error e)).outcome =
        .error (.ofMessage .fileUnreadable [path, e.message]) := by
      cases e
      case notFound => exact absurd rfl other
      all_goals rfl
    exact ⟨_, reported, text_fileUnreadable_iff path e.message⟩

/-- A placeholder in the last argument is left as it is, and so is one of the path in a path. -/
theorem fill_verbatim_braces :
    let template := "\x7b1\x7d or \x7b0\x7d"
    let arguments := ["a\x7d", "\x7b0\x7d"]
    fill template arguments = substitute template arguments ∧
      substitute template arguments = "\x7b0\x7d or a\x7d" ∧
      ∃ d, (Report.ofText {} "\x7b0\x7d" (.error .isDirectory)).outcome = .error d ∧
        d.text = "Cannot read file '\x7b0\x7d': Is a directory (os error 21)." := by
  intro template arguments
  obtain ⟨-, -, braces, -, unreadable⟩ :=
    fill_verbatim template arguments {} "\x7b0\x7d" .isDirectory
  obtain ⟨d, reported, verbatim⟩ := unreadable (by decide)
  refine ⟨braces (by decide) (by decide), by decide, d, reported, verbatim.mpr (.inl ?_)⟩
  decide

/-- A path that is the placeholder of the error is not in the text. -/
theorem not_fill_verbatim :
    fill "\x7b0\x7d\x7b1\x7d" ["\x7b1\x7d", "x"] ≠
      substitute "\x7b0\x7d\x7b1\x7d" ["\x7b1\x7d", "x"] ∧
    ∃ d, (Report.ofText {} "\x7b1\x7d" (.error .isDirectory)).outcome = .error d ∧
      ¬ "\x7b1\x7d".toList <:+: d.text.toList := by
  refine ⟨?_, _, rfl, ?_⟩
  · decide
  · decide +kernel

end Ambient.Message
