import Ambient.Proofs.Interchange.RoundTrip

namespace Ambient

namespace Json

/-- A text without control characters. -/
def Visible (cs : List Char) : Prop := ∀ c ∈ cs, 0x20 ≤ c.toNat

namespace Visible

variable {c : Char} {cs : List Char}

theorem nil : Visible [] := List.forall_mem_nil _

theorem cons (h : 0x20 ≤ c.toNat) (hs : Visible cs) : Visible (c :: cs) :=
  List.forall_mem_cons.mpr ⟨h, hs⟩

theorem append {ds : List Char} (hs : Visible cs) (hs' : Visible ds) : Visible (cs ++ ds) :=
  List.forall_mem_append.mpr ⟨hs, hs'⟩

theorem escape (h : 0x20 ≤ c.toNat) (hs : Visible cs) : Visible ('\\' :: c :: cs) :=
  cons (by decide) (cons h hs)

end Visible

theorem visible_hexDigit : ∀ n < 16, 0x20 ≤ (hexDigit n).toNat := by decide

theorem visible_putChar (c : Char) {rest : List Char} (h : Visible rest) :
    Visible (putChar c rest) := by
  unfold putChar
  split_ifs with quote slash back form feed ret tab control
  · exact .escape (by decide) h
  · exact .escape (by decide) h
  · exact .escape (by decide) h
  · exact .escape (by decide) h
  · exact .escape (by decide) h
  · exact .escape (by decide) h
  · exact .escape (by decide) h
  · have high := visible_hexDigit (c.toNat / 16) (by omega)
    have low := visible_hexDigit (c.toNat % 16) (by omega)
    exact .escape (by decide) (.cons (by decide) (.cons (by decide) (.cons high (.cons low h))))
  · exact .cons (by omega) h

theorem visible_putString (s : String) {rest : List Char} (h : Visible rest) :
    Visible (putString s rest) := by
  have inner : Visible (s.toList.foldr putChar ('"' :: rest)) := by
    induction s.toList with
    | nil => exact .cons (by decide) h
    | cons c cs ih => exact visible_putChar c ih
  exact .cons (by decide) inner

theorem visible_putNumber {n : JsonNumber} (hn : (Json.number n).Plain) {rest : List Char}
    (h : Visible rest) : Visible (putNumber n rest) := by
  match n with
  | .double _ => simp [Plain] at hn
  | .integer n =>
    obtain ⟨m, rfl⟩ := Int.eq_ofNat_of_zero_le (show 0 ≤ n by rw [Plain] at hn; exact hn.1)
    rw [putNumber_nat]
    refine .append ?_ h
    intro c mem
    have digit : c.isDigit = true := Nat.isDigit_of_mem_toDigits (by decide) (by decide) mem
    simp only [Char.isDigit, Bool.and_eq_true, decide_eq_true_eq] at digit
    have least : 48 ≤ c.toNat := digit.1
    omega

mutual

theorem visible_put : ∀ (j : Json) {rest : List Char}, j.Plain → Visible rest →
    Visible (j.put rest)
  | .null, _, _, h | .bool true, _, _, h | .bool false, _, _, h | .array [], _, _, h
  | .object [], _, _, h => by
    simp only [put, putLiteral]
    repeat refine .cons (by decide) ?_
    exact h
  | .number n, _, hj, h => visible_putNumber hj h
  | .string s, _, _, h => visible_putString s h
  | .array (item :: items), rest, hj, h => by
    rw [Plain, PlainItems] at hj
    have closed : Visible (']' :: rest) := .cons (by decide) h
    exact .cons (by decide) (visible_put item hj.1 (visible_putItems items hj.2 closed))
  | .object ((key, value) :: members), rest, hj, h => by
    rw [Plain, PlainMembers] at hj
    have closed : Visible ('\x7d' :: rest) := .cons (by decide) h
    have values := visible_put value hj.1 (visible_putMembers members hj.2 closed)
    exact .cons (by decide) (visible_putString key (.cons (by decide) values))

theorem visible_putItems : ∀ (items : List Json) {rest : List Char}, PlainItems items →
    Visible rest → Visible (putItems items rest)
  | [], _, _, h => h
  | item :: items, rest, hs, h => by
    rw [PlainItems] at hs
    exact .cons (by decide) (visible_put item hs.1 (visible_putItems items hs.2 h))

theorem visible_putMembers : ∀ (members : List (String × Json)) {rest : List Char},
    PlainMembers members → Visible rest → Visible (putMembers members rest)
  | [], _, _, h => h
  | (key, value) :: members, rest, hs, h => by
    rw [PlainMembers] at hs
    have values := visible_put value hs.1 (visible_putMembers members hs.2 h)
    exact .cons (by decide) (visible_putString key (.cons (by decide) values))

end

theorem visible_compress {j : Json} (hj : j.Plain) : Visible j.compress.toList := by
  rw [compress, String.toList_ofList]
  exact visible_put j hj .nil

end Json

/-- The document of a tree has no line end in it. -/
theorem Node.newline_not_mem_toText (n : Node) : '\n' ∉ n.toText.toList := by
  intro mem
  have visible := Json.visible_compress n.encode_plain '\n' mem
  exact absurd visible (by decide)

end Ambient
