/-!
Reading bytes as UTF-8.

Every place where the bytes are not well formed becomes one replacement character, which stands for
the longest beginning of a well-formed sequence there, or for one byte if there is none.
-/

namespace SnippetAudit.Text

/-- How a sequence goes on behind its first byte: the value of that byte, how many bytes follow, and
the range of the first of them. -/
def leadByte (b : Nat) : Option (Nat × Nat × Nat × Nat) :=
  if 0xC2 ≤ b && b ≤ 0xDF then some (b - 0xC0, 1, 0x80, 0xBF)
  else if b = 0xE0 then some (b - 0xE0, 2, 0xA0, 0xBF)
  else if b = 0xED then some (b - 0xE0, 2, 0x80, 0x9F)
  else if 0xE1 ≤ b && b ≤ 0xEF then some (b - 0xE0, 2, 0x80, 0xBF)
  else if b = 0xF0 then some (b - 0xF0, 3, 0x90, 0xBF)
  else if 0xF1 ≤ b && b ≤ 0xF3 then some (b - 0xF0, 3, 0x80, 0xBF)
  else if b = 0xF4 then some (b - 0xF0, 3, 0x80, 0x8F)
  else none

/-- Decode bytes; `none` stands for a place that is not well formed. `open'` is the value so far of a
sequence that is not complete, how many bytes it lacks, and the range of the next one. -/
def decodeBytes : Option (Nat × Nat × Nat × Nat) → List Nat → List (Option Char)
  | none, [] => []
  | some _, [] => [none]
  | none, b :: rest =>
    if b < 0x80 then some (Char.ofNat b) :: decodeBytes none rest
    else match leadByte b with
      | some state => decodeBytes (some state) rest
      | none => none :: decodeBytes none rest
  | some (value, missing, least, greatest), b :: rest =>
    if least ≤ b && b ≤ greatest then
      let value := value * 64 + (b - 0x80)
      if missing ≤ 1 then some (Char.ofNat value) :: decodeBytes none rest
      else decodeBytes (some (value, missing - 1, 0x80, 0xBF)) rest
    else if b < 0x80 then none :: some (Char.ofNat b) :: decodeBytes none rest
    else match leadByte b with
      | some state => none :: decodeBytes (some state) rest
      | none => none :: none :: decodeBytes none rest

/-- The text that bytes stand for, with a replacement character for each place that is not well
formed. -/
def ofBytesLossy (bytes : List Nat) : String :=
  String.ofList ((decodeBytes none bytes).map (·.getD '\uFFFD'))

/-- The text that bytes stand for, if they are well formed. -/
def ofBytes? (bytes : List Nat) : Option String :=
  ((decodeBytes none bytes).mapM id).map String.ofList

end SnippetAudit.Text
