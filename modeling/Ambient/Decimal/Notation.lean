import Ambient.Decimal.Shortest

namespace Ambient.Decimal

def zeros (n : Nat) : List Char := List.replicate n '0'

/-- The digits of a positive decimal, laid out: with an exponent unless the leading digit stands
between the fifth place behind and the sixteenth before the point. -/
def Digits.layout (d : Digits) : List Char :=
  let ds := Nat.toDigits 10 d.digits
  let leading : Int := d.exponent + ds.length - 1
  if -5 ≤ leading && leading ≤ 15 then
    if 0 ≤ d.exponent then ds ++ zeros d.exponent.toNat ++ ['.', '0']
    else if 0 ≤ leading then
      let whole := leading.toNat + 1
      ds.take whole ++ '.' :: ds.drop whole
    else ['0', '.'] ++ zeros (-leading - 1).toNat ++ ds
  else
    let fraction := if ds.length = 1 then [] else '.' :: ds.drop 1
    let sign := if leading < 0 then '-' else '+'
    ds.take 1 ++ fraction ++ ['e', sign] ++ Nat.toDigits 10 leading.natAbs

/-- A finite double, by its bits. -/
def render (bits : UInt64) : String :=
  let sign := if bits >>> 63 = 1 then ['-'] else []
  match Binary.ofBits? bits with
  | none => String.ofList (sign ++ ['0', '.', '0'])
  | some x => String.ofList (sign ++ x.shortest.layout)

end Ambient.Decimal
