import SnippetAudit.Decimal.Layout

/-!
Numbers with a fixed count of decimal places, rounded from their exact value.
-/

namespace SnippetAudit.Decimal

/-- The integer closest to `numerator / denominator`; half way between two the even one. -/
def roundDiv (numerator denominator : Nat) : Nat :=
  let quotient := numerator / denominator
  let rest := numerator % denominator
  if 2 * rest < denominator then quotient
  else if denominator < 2 * rest then quotient + 1
  else if quotient % 2 = 0 then quotient else quotient + 1

/-- The exact value of the magnitude of a finite number, as a fraction. -/
def exact (x : Float) : Nat × Nat :=
  let s := spot (x.toBits.toNat % 0x8000000000000000)
  (s.numerator, s.denominator)

/-- The text of a number with `n` decimal places; `inf` and `NaN` stand for what is not finite. -/
def fixed (n : Nat) (x : Float) : String :=
  let sign := if negative x then "-" else ""
  if x.isNaN then "NaN"
  else if !finite x then sign ++ "inf"
  else
    let (numerator, denominator) := exact x
    let ds := digitsOf (roundDiv (numerator * Nat.pow 10 n) denominator)
    let padded := zeros (n + 1 - ds.length) ++ ds
    let places := padded.drop (padded.length - n)
    sign ++ String.ofList
      (padded.take (padded.length - n) ++ if places.isEmpty then [] else '.' :: places)

end SnippetAudit.Decimal
