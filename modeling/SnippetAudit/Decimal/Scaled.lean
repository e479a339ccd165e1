/-!
Decimals with digits that fit in a word, read by one floating-point operation.

The digits become a floating-point number, which is then multiplied or divided by a power of ten.
The result is the nearest number when the digits and the power are exact, and close to it otherwise.
-/

namespace SnippetAudit.Decimal

/-- A power of ten as a floating-point number. -/
def powerOfTen (n : Nat) : Float := Float.ofScientific 1 false n

/-- Divide by a power of ten; a power beyond the greatest is divided by in steps. -/
def dividedBy : Nat → Float → Nat → Float
  | 0, x, _ => x
  | fuel + 1, x, n =>
    if n ≤ 308 then x / powerOfTen n
    else if x == 0 then x
    else dividedBy fuel (x / powerOfTen 308) (n - 308)

/-- The value of `significand · 10^exponent`, or `none` if it is too great. -/
def scaled (significand : Nat) (exponent : Int) : Option Float :=
  let x := Float.ofNat significand
  if exponent < 0 then some (dividedBy ((-exponent).toNat + 1) x (-exponent).toNat)
  else if exponent.toNat ≤ 308 then
    let y := x * powerOfTen exponent.toNat
    if y.isInf then none else some y
  else if x == 0 then some x
  else none

end SnippetAudit.Decimal
