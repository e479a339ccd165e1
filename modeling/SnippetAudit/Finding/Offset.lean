/-!
Where a line compares loosely, counted in bytes.

The bytes of a line are read from left to right in runs of equals signs. A run of exactly two is a loose
comparison, unless the byte in front of it makes it part of another operator. A character of several bytes has
none that could be taken for these.
-/

namespace SnippetAudit.Finding

/-- The bytes of a text in UTF-8. -/
def bytesOf (text : String) : List UInt8 := text.toUTF8.data.toList

/-- The equals sign. -/
def equalsSign : UInt8 := '='.toUInt8

/-- Whether a byte makes a run of equals signs behind it part of another operator. -/
def isCompound (b : UInt8) : Bool := b = '!'.toUInt8 || b = '<'.toUInt8 || b = '>'.toUInt8

/-- What a run of equals signs adds when it ends at a place: where it starts, if it compares loosely. -/
def runOffsets (before : Option UInt8) (run at' : Nat) : List Nat :=
  if run = 2 && !before.any isCompound then [at' - run] else []

/-- The offsets of loose comparisons. The run that is read has `run` bytes so far, and `before` is the byte
in front of it; `at'` is the place that is looked at. -/
def looseFrom (before : Option UInt8) (run at' : Nat) : List UInt8 → List Nat
  | [] => runOffsets before run at'
  | b :: rest =>
    if b = equalsSign then looseFrom before (run + 1) (at' + 1) rest
    else runOffsets before run at' ++ looseFrom (some b) 0 (at' + 1) rest

/-- The offsets in bytes at which a line compares loosely. -/
def looseOffsets (line : String) : List Nat := looseFrom none 0 0 (bytesOf line)

/-- Put three equals signs in the place of the two at each offset; `at'` is the offset of the first byte that
is left. -/
def spliceFrom (at' : Nat) : List Nat → List UInt8 → List UInt8
  | [], bytes => bytes
  | offset :: offsets, bytes =>
    bytes.take (offset - at') ++ List.replicate 3 equalsSign ++
      spliceFrom (offset + 2) offsets (bytes.drop (offset + 2 - at'))

end SnippetAudit.Finding
