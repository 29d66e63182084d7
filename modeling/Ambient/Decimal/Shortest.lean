namespace Ambient.Decimal

/-- A positive number `mantissa * 2 ^ exponent`. -/
structure Binary where
  mantissa : Nat
  exponent : Int
  /-- Whether the next smaller number is only half as far away as the next greater one. -/
  atPower : Bool

/-- The number with the given bits, sign aside; `none` for zero. -/
def Binary.ofBits? (bits : UInt64) : Option Binary :=
  let biased := (bits >>> 52).toNat % 2048
  let fraction := bits.toNat % Nat.pow 2 52
  if biased = 0 then
    if fraction = 0 then none else some ⟨fraction, -1074, false⟩
  else some ⟨Nat.pow 2 52 + fraction, (biased : Int) - 1075, fraction = 0 && 1 < biased⟩

/-- The number `digits * 10 ^ exponent`. -/
structure Digits where
  digits : Nat
  exponent : Int
deriving DecidableEq

/-- `a * 2 ^ e` against `b * 10 ^ f`, as two natural numbers that compare alike. -/
def scale (a : Nat) (e : Int) (b : Nat) (f : Int) : Nat × Nat :=
  (a * Nat.pow 2 e.toNat * Nat.pow 10 (-f).toNat, b * Nat.pow 10 f.toNat * Nat.pow 2 (-e).toNat)

namespace Binary

/-- Whether the decimal `d * 10 ^ f` rounds to `x`. Quarters of the mantissa's last place are counted.
The ends of the interval that rounds to `x` belong to it if the mantissa is even. -/
def readsBack (x : Binary) (d : Nat) (f : Int) : Bool :=
  let low := scale (4 * x.mantissa - if x.atPower then 1 else 2) (x.exponent - 2) d f
  let high := scale (4 * x.mantissa + 2) (x.exponent - 2) d f
  if x.mantissa % 2 = 0 then low.1 ≤ low.2 && high.2 ≤ high.1
  else low.1 < low.2 && high.2 < high.1

/-- The whole part of `x / 10 ^ f`. -/
def floorAt (x : Binary) (f : Int) : Nat :=
  let (a, b) := scale x.mantissa x.exponent 1 f
  a / b

/-- Whether `x` is nearer to `(d + 1) * 10 ^ f` than to `d * 10 ^ f`, or as near and `d` is odd. -/
def roundsUp (x : Binary) (d : Nat) (f : Int) : Bool :=
  let (a, b) := scale (2 * x.mantissa) x.exponent (2 * d + 1) f
  b < a || (a = b && d % 2 = 1)

/-- The decimal place of the leading digit, searched downwards from `f`. -/
def leadingPlace (x : Binary) : Nat → Int → Int
  | 0, f => f
  | fuel + 1, f => if 0 < x.floorAt f then f else leadingPlace x fuel (f - 1)

/-- The decimal with last place `f` that reads back, if there is one, and of two such the nearer one. -/
def at? (x : Binary) (f : Int) : Option Digits :=
  let d := x.floorAt f
  let lower := x.readsBack d f && 0 < d
  let upper := x.readsBack (d + 1) f
  if lower && upper then some ⟨if x.roundsUp d f then d + 1 else d, f⟩
  else if lower then some ⟨d, f⟩
  else if upper then some ⟨d + 1, f⟩
  else none

/-- The first decimal that reads back, searched towards finer places. -/
def searchFrom (x : Binary) : Nat → Int → Digits
  | 0, f => ⟨x.floorAt f, f⟩
  | fuel + 1, f => (x.at? f).getD (searchFrom x fuel (f - 1))

end Binary

/-- Moves factors of ten from the digits to the exponent. -/
def Digits.strip : Nat → Digits → Digits
  | 0, d => d
  | fuel + 1, d =>
    if d.digits % 10 = 0 && d.digits ≠ 0 then strip fuel ⟨d.digits / 10, d.exponent + 1⟩ else d

/-- The shortest decimal that reads back as `x`. The leading place of a double lies between
`-324` and `308`, and seventeen digits always suffice. -/
def Binary.shortest (x : Binary) : Digits :=
  (x.searchFrom 17 (x.leadingPlace 640 309)).strip 20

end Ambient.Decimal
