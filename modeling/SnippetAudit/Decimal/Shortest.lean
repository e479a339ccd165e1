/-!
The shortest decimal that reads back as a given floating-point number.

A finite number is `m · 2^q`. The decimals that round to it fill an interval, which holds its ends
iff `m` is even. On each decimal grid, from one digit upward, only the two neighbours of the number
have to be tested: if the interval holds a point of the grid, it holds one of them.
-/

namespace SnippetAudit

/-- The number `significand · 10^exponent`. -/
structure Decimal where
  significand : Nat
  exponent : Int
  deriving DecidableEq, Repr

namespace Decimal

/-- A positive fraction `numerator / denominator` together with half the distance to the next
greater and to the next smaller floating-point number, over the same denominator. -/
structure Spot where
  numerator : Nat
  denominator : Nat
  above : Nat
  below : Nat
  /-- Whether a decimal half way to a neighbour still reads back as this number. -/
  closed : Bool

/-- The place of the finite, positive number with the given bits on the real line. -/
def spot (bits : Nat) : Spot :=
  let stored := bits / 0x10000000000000 % 2048
  let fraction := bits % 0x10000000000000
  let m := if stored = 0 then fraction else fraction + 0x10000000000000
  let scale := max stored 1
  let below := if fraction = 0 && 1 < stored then 1 else 2
  let (up, down) := if scale < 1077 then (0, 1077 - scale) else (scale - 1077, 0)
  ⟨(4 * m) <<< up, 1 <<< down, 2 <<< up, below <<< up, m % 2 = 0⟩

/-- The greatest `e` with `10^e ≤ numerator / denominator`, searched downward from `e`. -/
def magnitudeBelow (numerator denominator : Nat) : Nat → Int → Int
  | 0, e => e
  | fuel + 1, e =>
    let reached := if 0 ≤ e then denominator * Nat.pow 10 e.toNat ≤ numerator
      else denominator ≤ numerator * Nat.pow 10 (-e).toNat
    if reached then e else magnitudeBelow numerator denominator fuel (e - 1)

/-- The decimal exponent of a number: the power of ten of its first digit. -/
def magnitude (s : Spot) : Int := magnitudeBelow s.numerator s.denominator 700 310

/-- The decimal closest to a number among those of the grid `10^e` that read back as it. Of two
that are equally close the one with an even last digit is taken. -/
def onGrid? (s : Spot) (e : Int) : Option Nat :=
  let (step, scale) := if 0 ≤ e then (Nat.pow 10 e.toNat * s.denominator, 1)
    else (s.denominator, Nat.pow 10 (-e).toNat)
  let value := s.numerator * scale
  let down := value / step
  let missing := value - down * step
  let excess := (down + 1) * step - value
  let within (distance limit : Nat) : Bool := distance < limit || (s.closed && distance = limit)
  let lower := within missing (s.below * scale) && 0 < down
  let upper := within excess (s.above * scale)
  if lower && upper then
    some (if missing < excess || (missing = excess && down % 2 = 0) then down else down + 1)
  else if lower then some down
  else if upper then some (down + 1)
  else none

/-- The first grid, from `places` digits upward, that has a decimal which reads back. -/
def firstGrid (s : Spot) (magnitude : Int) : Nat → Nat → Decimal
  | 0, places => ⟨s.numerator / s.denominator, magnitude - places⟩
  | fuel + 1, places =>
    let e := magnitude - (places : Int)
    match onGrid? s e with
    | some digits => ⟨digits, e⟩
    | none => firstGrid s magnitude fuel (places + 1)

/-- A decimal without trailing zeros. -/
def strip : Nat → Decimal → Decimal
  | 0, d => d
  | fuel + 1, d =>
    if d.significand ≠ 0 && d.significand % 10 = 0 then strip fuel ⟨d.significand / 10, d.exponent + 1⟩ else d

/-- The shortest decimal that reads back as the finite, positive number with the given bits, and of
several the closest. -/
def ofBits (bits : Nat) : Decimal :=
  let s := spot bits
  strip 20 (firstGrid s (magnitude s) 17 0)

/-- The shortest decimal for the magnitude of a finite number; zero is `0 · 10^0`. -/
def shortest (x : Float) : Decimal :=
  let bits := x.toBits.toNat % 0x8000000000000000
  if bits = 0 then ⟨0, 0⟩ else ofBits bits

end Decimal

end SnippetAudit
