import SnippetAudit.Text.Table.Alphabetic
import SnippetAudit.Text.Table.Mark
import SnippetAudit.Text.Table.Number

/-!
Classes of characters, each named for the Unicode property that decides it.

ASCII is answered without a table, so that a closed statement about ASCII text can be evaluated;
every other character is looked up in the ranges of its property.
-/

namespace SnippetAudit.Text

/-- Whether `n` lies in one of the inclusive ranges, which are listed in ascending order. -/
def inRanges : List (Nat × Nat) → Nat → Bool
  | [], _ => false
  | (first, last) :: rest, n => if n < first then false else n ≤ last || inRanges rest n

/-- The property `White_Space`. -/
def isBlank (c : Char) : Bool :=
  let n := c.toNat
  (9 ≤ n && n ≤ 13) || n == 32 || n == 0x85 || n == 0xA0 || n == 0x1680 ||
    (0x2000 ≤ n && n ≤ 0x200A) || n == 0x2028 || n == 0x2029 || n == 0x202F || n == 0x205F ||
    n == 0x3000

/-- The ASCII letters from `a` to `z`. -/
def isLowerAscii (c : Char) : Bool := 'a' ≤ c && c ≤ 'z'

/-- The ASCII letters from `A` to `Z`. -/
def isUpperAscii (c : Char) : Bool := 'A' ≤ c && c ≤ 'Z'

/-- The ASCII letters of either case. -/
def isAsciiLetter (c : Char) : Bool := isLowerAscii c || isUpperAscii c

/-- The ASCII digits. -/
def isAsciiDigit (c : Char) : Bool := '0' ≤ c && c ≤ '9'

/-- Whether a character lies outside ASCII. -/
def beyondAscii (c : Char) : Bool := 128 ≤ c.toNat

/-- Letters and numbers: `Alphabetic` or one of the general categories of numbers. -/
def isAlphanumeric (c : Char) : Bool :=
  isAsciiLetter c || isAsciiDigit c ||
    (beyondAscii c && (inRanges Table.alphabetic c.toNat || inRanges Table.decimalNumber c.toNat ||
      inRanges Table.otherNumber c.toNat))

/-- The general category `Connector_Punctuation` outside ASCII. -/
def isConnector (n : Nat) : Bool :=
  n == 0x203F || n == 0x2040 || n == 0x2054 || n == 0xFE33 || n == 0xFE34 ||
    (0xFE4D ≤ n && n ≤ 0xFE4F) || n == 0xFF3F

/-- Word characters: `Alphabetic`, `Mark`, `Decimal_Number`, `Connector_Punctuation` and
`Join_Control`. -/
def isWordChar (c : Char) : Bool :=
  isAsciiLetter c || isAsciiDigit c || c == '_' ||
    (beyondAscii c && (inRanges Table.alphabetic c.toNat || inRanges Table.mark c.toNat ||
      inRanges Table.decimalNumber c.toNat || isConnector c.toNat ||
      c.toNat == 0x200C || c.toNat == 0x200D))

/-- `Alphabetic` characters that are neither marks nor allowed to start an identifier. -/
def alphabeticNotStart : List (Nat × Nat) :=
  [(0x37A, 0x37A), (0xE33, 0xE33), (0xEB3, 0xEB3), (0x24B6, 0x24E9), (0x2E2F, 0x2E2F),
   (0xFC5E, 0xFC63), (0xFDFA, 0xFDFB), (0xFE70, 0xFE70), (0xFE72, 0xFE72), (0xFE74, 0xFE74),
   (0xFE76, 0xFE76), (0xFE78, 0xFE78), (0xFE7A, 0xFE7A), (0xFE7C, 0xFE7C), (0xFE7E, 0xFE7E),
   (0xFF9E, 0xFF9F), (0x1F130, 0x1F149), (0x1F150, 0x1F169), (0x1F170, 0x1F189)]

/-- Word characters that may not continue an identifier. -/
def wordNotContinue : List (Nat × Nat) :=
  [(0x37A, 0x37A), (0x488, 0x489), (0x1ABE, 0x1ABE), (0x200C, 0x200D), (0x20DD, 0x20E0),
   (0x20E2, 0x20E4), (0x24B6, 0x24E9), (0x2E2F, 0x2E2F), (0xA670, 0xA672), (0xFC5E, 0xFC63),
   (0xFDFA, 0xFDFB), (0xFE70, 0xFE70), (0xFE72, 0xFE72), (0xFE74, 0xFE74), (0xFE76, 0xFE76),
   (0xFE78, 0xFE78), (0xFE7A, 0xFE7A), (0xFE7C, 0xFE7C), (0xFE7E, 0xFE7E), (0x1F130, 0x1F149),
   (0x1F150, 0x1F169), (0x1F170, 0x1F189)]

/-- The property `XID_Start`, with the underscore. -/
def isNameStart (c : Char) : Bool :=
  isAsciiLetter c || c == '_' ||
    (beyondAscii c && (c.toNat == 0x1885 || c.toNat == 0x1886 || c.toNat == 0x2118 ||
      c.toNat == 0x212E ||
      (inRanges Table.alphabetic c.toNat && !inRanges Table.mark c.toNat &&
        !inRanges alphabeticNotStart c.toNat)))

/-- The property `XID_Continue`. -/
def isNameContinue (c : Char) : Bool :=
  isAsciiLetter c || isAsciiDigit c || c == '_' ||
    (beyondAscii c && (c.toNat == 0xB7 || c.toNat == 0x387 ||
      (0x1369 ≤ c.toNat && c.toNat ≤ 0x1371) || c.toNat == 0x19DA || c.toNat == 0x2118 ||
      c.toNat == 0x212E || (isWordChar c && !inRanges wordNotContinue c.toNat)))

end SnippetAudit.Text
