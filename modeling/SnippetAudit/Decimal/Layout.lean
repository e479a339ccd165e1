import SnippetAudit.Decimal.Shortest

/-!
Writing decimals: where the point stands, and when an exponent is used.
-/

namespace SnippetAudit.Decimal

/-- How a number is written. -/
structure Layout where
  /-- The least and the greatest power of ten of the first digit that are written without an
  exponent; no bound means that an exponent is never used. -/
  positional : Option (Int × Int)
  /-- Whether a number without fraction gets `.0`. -/
  pointZero : Bool
  /-- Whether an exponent that is not negative gets a plus sign. -/
  signedExponent : Bool

/-- Numbers in answers and in JSON. -/
def Layout.data : Layout := ⟨some (-5, 15), true, true⟩

/-- Numbers in prose: never with an exponent, and without a fraction that is zero. -/
def Layout.plain : Layout := ⟨none, false, false⟩

/-- The digits of a natural number. -/
def digitsOf (n : Nat) : List Char := Nat.toDigits 10 n

/-- A row of zeros. -/
def zeros (n : Nat) : List Char := List.replicate n '0'

/-- Digits with the point behind the first `whole` of them, filled up with zeros. -/
def pointed (layout : Layout) (ds : List Char) (whole : Int) : List Char :=
  let fraction :=
    if whole ≤ 0 then zeros (-whole).toNat ++ ds else ds.drop whole.toNat
  let front := if whole ≤ 0 then ['0'] else ds.take whole.toNat ++ zeros (whole.toNat - ds.length)
  if fraction.isEmpty then (if layout.pointZero then front ++ ['.', '0'] else front)
  else front ++ '.' :: fraction

/-- Digits with an exponent. -/
def scientific (layout : Layout) (ds : List Char) (power : Int) : List Char :=
  let front := match ds with
    | [] => []
    | [d] => [d]
    | d :: more => d :: '.' :: more
  let sign := if power < 0 then ['-'] else if layout.signedExponent then ['+'] else []
  front ++ 'e' :: sign ++ digitsOf power.natAbs

/-- Write a decimal. -/
def write (layout : Layout) (d : Decimal) : List Char :=
  let ds := digitsOf d.significand
  let whole := d.exponent + ds.length
  let power := whole - 1
  let positional := match layout.positional with
    | none => true
    | some (least, greatest) => d.significand = 0 || (least ≤ power && power ≤ greatest)
  if positional then pointed layout ds whole else scientific layout ds power

/-- Whether the sign bit of a number is set. -/
def negative (x : Float) : Bool := 0x8000000000000000 ≤ x.toBits.toNat

/-- Whether a number is neither infinite nor undefined. -/
def finite (x : Float) : Bool := x.toBits.toNat / 0x10000000000000 % 2048 < 2047

/-- The text of a finite number. -/
def text (layout : Layout) (x : Float) : String :=
  String.ofList ((if negative x then ['-'] else []) ++ write layout (shortest x))

end SnippetAudit.Decimal
