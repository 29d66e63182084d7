import Ambient.Json.Nesting
import Ambient.Proofs.Json.ReadBack

namespace Ambient.Json

open Layout

namespace Brackets

/-- The state outside of strings, so many levels inside. -/
def outside (depth deepest : Nat) : Brackets := ⟨depth, deepest, false, false⟩

def inside (depth deepest : Nat) : Brackets := ⟨depth, deepest, true, false⟩

/-- Whether a character changes nothing outside of strings. -/
def Neutral (c : Char) : Prop := c ≠ '"' ∧ c ≠ '[' ∧ c ≠ '\x7b' ∧ c ≠ ']' ∧ c ≠ '\x7d'

variable (depth deepest : Nat)

theorem pass_neutral {c : Char} (h : Neutral c) :
    (outside depth deepest).pass c = outside depth deepest := by
  obtain ⟨h1, h2, h3, h4, h5⟩ := h
  simp [outside, pass, h1, h2, h3, h4, h5]

theorem pass_quote : (outside depth deepest).pass '"' = inside depth deepest := by
  simp [outside, inside, pass]

theorem pass_open {c : Char} (h : c = '[' ∨ c = '\x7b') :
    (outside depth deepest).pass c = outside (depth + 1) (max deepest (depth + 1)) := by
  rcases h with rfl | rfl <;> simp [outside, pass]

theorem pass_close {c : Char} (h : c = ']' ∨ c = '\x7d') :
    (outside (depth + 1) deepest).pass c = outside depth deepest := by
  rcases h with rfl | rfl <;> simp [outside, pass]

theorem foldl_neutral {cs : List Char} (h : ∀ c ∈ cs, Neutral c) (rest : List Char) :
    (cs ++ rest).foldl pass (outside depth deepest) = rest.foldl pass (outside depth deepest) := by
  induction cs with
  | nil => rfl
  | cons c cs ih =>
    rw [List.cons_append, List.foldl_cons, pass_neutral _ _ (h c (by simp))]
    exact ih fun d hd => h d (List.mem_cons_of_mem c hd)

theorem neutral_of_isBlank {c : Char} (h : isBlank c = true) : Neutral c := by
  simp only [isBlank, Bool.or_eq_true, decide_eq_true_eq] at h
  rcases h with ((rfl | rfl) | rfl) | rfl <;> simp [Neutral]

theorem neutral_of_isDigit {c : Char} (h : c.isDigit = true) : Neutral c := by
  refine ⟨?_, ?_, ?_, ?_, ?_⟩ <;> rintro rfl <;> exact absurd h (by decide)

/-- The digits that escapes are written with. -/
theorem hexDigit_ordinary : ∀ n < 16, hexDigit n ≠ '\\' ∧ hexDigit n ≠ '"' := by decide

theorem foldl_putChar (c : Char) (rest : List Char) :
    (putChar c rest).foldl pass (inside depth deepest) =
      rest.foldl pass (inside depth deepest) := by
  unfold putChar
  split_ifs with h1 h2 h3 h4 h5 h6 h7 h8
  · simp [inside, pass]
  · simp [inside, pass]
  · simp [inside, pass]
  · simp [inside, pass]
  · simp [inside, pass]
  · simp [inside, pass]
  · simp [inside, pass]
  · have hi := hexDigit_ordinary (c.toNat / 16) (by omega)
    have lo := hexDigit_ordinary (c.toNat % 16) (by omega)
    simp [inside, pass, hi, lo]
  · simp [inside, pass, h1, h2]

theorem foldl_putString (s : String) (rest : List Char) :
    (putString s rest).foldl pass (outside depth deepest) =
      rest.foldl pass (outside depth deepest) := by
  rw [putString, List.foldl_cons, pass_quote]
  induction s.toList with
  | nil => simp [inside, outside, pass]
  | cons c cs ih => rw [List.foldr_cons, foldl_putChar, ih]

theorem foldl_putNumber (n : JsonNumber) (hn : (Json.number n).Plain) (rest : List Char) :
    (putNumber n rest).foldl pass (outside depth deepest) =
      rest.foldl pass (outside depth deepest) := by
  match n with
  | .double _ => simp [Plain] at hn
  | .integer n =>
    obtain ⟨m, rfl⟩ := Int.eq_ofNat_of_zero_le (show 0 ≤ n by rw [Plain] at hn; exact hn.1)
    rw [putNumber_nat]
    exact foldl_neutral _ _ (fun c hc =>
      neutral_of_isDigit (Nat.isDigit_of_mem_toDigits (by decide) (by decide) hc)) rest

theorem foldl_line (L : Layout) (level : Nat) (rest : List Char) :
    (L.line level ++ rest).foldl pass (outside depth deepest) =
      rest.foldl pass (outside depth deepest) :=
  foldl_neutral _ _ (fun c hc => neutral_of_isBlank (L.line_blank level c hc)) rest

theorem foldl_key (L : Layout) (key : String) (rest : List Char) :
    (putString key (':' :: (L.space ++ rest))).foldl pass (outside depth deepest) =
      rest.foldl pass (outside depth deepest) := by
  rw [foldl_putString, List.foldl_cons, pass_neutral _ _ (by simp [Neutral])]
  exact foldl_neutral _ _ (fun c hc => neutral_of_isBlank (L.space_blank c hc)) rest

theorem foldl_comma (L : Layout) (level : Nat) (rest : List Char) :
    (',' :: (L.line level ++ rest)).foldl pass (outside depth deepest) =
      rest.foldl pass (outside depth deepest) := by
  rw [List.foldl_cons, pass_neutral _ _ (by simp [Neutral]), foldl_line]

mutual

/-- Passing over a value takes its depth into account and leaves all else as it was. -/
theorem foldl_lay (L : Layout) (level depth deepest : Nat) : ∀ (j : Json) (rest : List Char),
    j.Plain → depth ≤ deepest →
    (L.lay level j rest).foldl pass (outside depth deepest) =
      rest.foldl pass (outside depth (max deepest (depth + j.depth)))
  | .null, rest, _, h => by simp [lay, Json.depth, h, outside, pass]
  | .bool true, rest, _, h => by simp [lay, putLiteral, Json.depth, h, outside, pass]
  | .bool false, rest, _, h => by simp [lay, putLiteral, Json.depth, h, outside, pass]
  | .number n, rest, hj, h => by
    rw [lay, foldl_putNumber _ _ n hj, Json.depth, Nat.add_zero, Nat.max_eq_left h]
  | .string s, rest, _, h => by
    rw [lay, foldl_putString, Json.depth, Nat.add_zero, Nat.max_eq_left h]
  | .array [], rest, _, _ => by
    rw [lay, List.foldl_cons, pass_open _ _ (.inl rfl), List.foldl_cons, pass_close _ _ (.inl rfl)]
    simp only [Json.depth, depthItems, Nat.zero_add]
  | .array (item :: items), rest, hj, h => by
    rw [Plain, PlainItems] at hj
    rw [lay, List.foldl_cons, pass_open _ _ (.inl rfl), foldl_line,
      foldl_lay L _ _ _ item _ hj.1 (by omega), foldl_layItems L _ _ _ items _ hj.2 (by omega),
      foldl_line, List.foldl_cons, pass_close _ _ (.inl rfl)]
    congr 2
    simp only [Json.depth, depthItems]
    omega
  | .object [], rest, _, _ => by
    rw [lay, List.foldl_cons, pass_open _ _ (.inr rfl), List.foldl_cons, pass_close _ _ (.inr rfl)]
    simp only [Json.depth, depthMembers, Nat.zero_add]
  | .object ((key, value) :: members), rest, hj, h => by
    rw [Plain, PlainMembers] at hj
    rw [lay, List.foldl_cons, pass_open _ _ (.inr rfl), foldl_line, foldl_key,
      foldl_lay L _ _ _ value _ hj.1 (by omega),
      foldl_layMembers L _ _ _ members _ hj.2 (by omega), foldl_line, List.foldl_cons,
      pass_close _ _ (.inr rfl)]
    congr 2
    simp only [Json.depth, depthMembers]
    omega

theorem foldl_layItems (L : Layout) (level depth deepest : Nat) : ∀ (items : List Json)
    (rest : List Char), PlainItems items → depth ≤ deepest →
    (L.layItems level items rest).foldl pass (outside depth deepest) =
      rest.foldl pass (outside depth (max deepest (depth + depthItems items)))
  | [], rest, _, h => by rw [layItems, depthItems, Nat.add_zero, Nat.max_eq_left h]
  | item :: items, rest, hs, h => by
    rw [PlainItems] at hs
    rw [layItems, foldl_comma, foldl_lay L _ _ _ item _ hs.1 h,
      foldl_layItems L _ _ _ items _ hs.2 (by omega)]
    congr 2
    simp only [depthItems]
    omega

theorem foldl_layMembers (L : Layout) (level depth deepest : Nat) :
    ∀ (members : List (String × Json)) (rest : List Char), PlainMembers members →
    depth ≤ deepest →
    (L.layMembers level members rest).foldl pass (outside depth deepest) =
      rest.foldl pass (outside depth (max deepest (depth + depthMembers members)))
  | [], rest, _, h => by rw [layMembers, depthMembers, Nat.add_zero, Nat.max_eq_left h]
  | (key, value) :: members, rest, hs, h => by
    rw [PlainMembers] at hs
    rw [layMembers, foldl_comma, foldl_key, foldl_lay L _ _ _ value _ hs.1 h,
      foldl_layMembers L _ _ _ members _ hs.2 (by omega)]
    congr 2
    simp only [depthMembers]
    omega

end

end Brackets

theorem nestingDepth_lay (L : Layout) (j : Json) (hj : j.Plain) :
    nestingDepth (String.ofList (L.lay 0 j [])) = j.depth := by
  have whole := Brackets.foldl_lay L 0 0 0 j [] hj (Nat.le_refl 0)
  rw [nestingDepth, String.toList_ofList]
  change ((L.lay 0 j []).foldl Brackets.pass (Brackets.outside 0 0)).deepest = _
  rw [whole]
  simp [Brackets.outside]

/-- The compact text of a value nests as deep as the value. -/
theorem nestingDepth_compress (j : Json) (hj : j.Plain) : nestingDepth j.compress = j.depth := by
  rw [compress_eq]
  exact nestingDepth_lay compact j hj

/-- The indented text of a value nests as deep as the value. -/
theorem nestingDepth_pretty (j : Json) (hj : j.Plain) : nestingDepth j.pretty = j.depth := by
  rw [pretty_eq]
  exact nestingDepth_lay indented j hj

end Ambient.Json
