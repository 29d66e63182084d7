import Ambient.Json.Value

namespace Ambient.JsonNumber

/-- The digits read so far and the power of ten that they lack. -/
structure Accumulator where
  significand : Nat
  exponent : Int
  /-- Whether a digit did not fit any more. -/
  full : Bool

/-- The largest significand. -/
def maxSignificand : Nat := 0xffffffffffffffff

def digitValue (c : Char) : Nat := c.toNat - '0'.toNat

/-- A digit before the point. Once one does not fit, all further ones only add to the exponent. -/
def Accumulator.addWhole (a : Accumulator) (c : Char) : Accumulator :=
  let next := a.significand * 10 + digitValue c
  if a.full || maxSignificand < next then { a with exponent := a.exponent + 1, full := true }
  else { a with significand := next }

/-- A digit behind the point. Once one does not fit, it and all further ones are dropped. -/
def Accumulator.addFraction (a : Accumulator) (c : Char) : Accumulator :=
  let next := a.significand * 10 + digitValue c
  if a.full || maxSignificand < next then { a with full := true }
  else { a with significand := next, exponent := a.exponent - 1 }

def powerOfTen (n : Nat) : Float := Float.ofScientific 1 false n

/-- `f / 10 ^ n`, in steps that divide by the greatest power of ten that is a double. -/
def divide (f : Float) (n : Nat) : Float :=
  if n ≤ 308 then f / powerOfTen n
  else if f == 0.0 then f
  else divide (f / powerOfTen 308) (n - 308)
termination_by n

/-- `significand * 10 ^ exponent`, if it is finite. -/
def scaled? (significand : Nat) (exponent : Int) : Option Float :=
  let f := significand.toUInt64.toFloat
  if exponent < 0 then some (divide f exponent.natAbs)
  else if 308 < exponent then if significand = 0 then some f else none
  else
    let product := f * powerOfTen exponent.toNat
    if product.isInf then none else some product

/-- The value of an exponent; behind `2 ^ 31` its exact value makes no difference. -/
def exponentValue (digits : List Char) : Nat :=
  min 0x80000000 (digits.foldl (fun n c => n * 10 + digitValue c) 0)

/-- The parts of a number as it is written. -/
structure Parts where
  negative : Bool
  whole : List Char
  fraction : List Char
  /-- Whether the exponent is negative, and its digits. -/
  exponent : Option (Bool × List Char)

def Parts.isInteger (p : Parts) : Bool := p.fraction.isEmpty && p.exponent.isNone

/-- The number with the given parts, if it is finite. Of a double the leading digits, as far as they
fit into 64 bits, are scaled by a power of ten. A negative zero is a double. -/
def ofParts? (p : Parts) : Option JsonNumber :=
  let whole := p.whole.foldl Accumulator.addWhole ⟨0, 0, false⟩
  let fits :=
    !p.negative || (0 < whole.significand && whole.significand ≤ 0x8000000000000000)
  if p.isInteger && !whole.full && fits then
    some (.integer (if p.negative then -(whole.significand : Int) else whole.significand))
  else
    let a := p.fraction.foldl Accumulator.addFraction { whole with full := false }
    let exponent := match p.exponent with
      | none => a.exponent
      | some (negative, digits) =>
        if negative then a.exponent - exponentValue digits else a.exponent + exponentValue digits
    (scaled? a.significand exponent).map fun f =>
      .double (if p.negative then (-f).toBits else f.toBits)

/-- Digits at the start of a text, and what follows them. -/
def digits (cs : List Char) : List Char × List Char :=
  (cs.takeWhile Char.isDigit, cs.dropWhile Char.isDigit)

/-- A fraction, which has at least one digit, or none at all. -/
def readFraction? : List Char → Option (List Char × List Char)
  | '.' :: cs =>
    let (ds, rest) := digits cs
    if ds.isEmpty then none else some (ds, rest)
  | cs => some ([], cs)

/-- An exponent, which has at least one digit, or none at all. -/
def readExponent? : List Char → Option (Option (Bool × List Char) × List Char)
  | [] => some (none, [])
  | e :: cs =>
    if e = 'e' || e = 'E' then
      let (negative, cs) := match cs with
        | '+' :: cs => (false, cs)
        | '-' :: cs => (true, cs)
        | cs => (false, cs)
      let (ds, rest) := digits cs
      if ds.isEmpty then none else some (some (negative, ds), rest)
    else some (none, e :: cs)

/-- The parts of a number and what follows it. A whole part of several digits does not start with
a zero. -/
def readParts? (cs : List Char) : Option (Parts × List Char) := do
  let (negative, cs) := match cs with
    | '-' :: cs => (true, cs)
    | cs => (false, cs)
  let (whole, cs) := digits cs
  if whole.isEmpty || (whole.head? = some '0' && 1 < whole.length) then none
  let (fraction, cs) ← readFraction? cs
  let (exponent, cs) ← readExponent? cs
  return (⟨negative, whole, fraction, exponent⟩, cs)

/-- A number and what follows it. -/
def read? (cs : List Char) : Option (JsonNumber × List Char) := do
  let (parts, rest) ← readParts? cs
  let n ← ofParts? parts
  return (n, rest)

end Ambient.JsonNumber
