import SnippetAudit.Text.Character

/-!
Embeddings: snippets as vectors of single-precision numbers.

A snippet is a bag of tokens. Each token counts up or down in one coordinate, which its hash decides,
and the vector is scaled to length one. Any hash of tokens will do.
-/

namespace SnippetAudit.Embedding

open Text

/-- The characters of tokens. -/
def isTokenChar (c : Char) : Bool := isAlphanumeric c || c = '_'

/-- The pieces of a text between characters that belong to no token, the empty ones among them. -/
def pieces : List Char → List (List Char)
  | [] => [[]]
  | c :: rest =>
    if isTokenChar c then
      match pieces rest with
      | [] => [[c]]
      | piece :: others => (c :: piece) :: others
    else [] :: pieces rest

/-- The tokens of a text. -/
def tokens (code : String) : List (List Char) := (pieces code.toList).filter fun t => !t.isEmpty

/-- Vectors. -/
abbrev Vector := Array Float32

/-- The sum of some numbers, added up from left to right. -/
def sum (xs : Array Float32) : Float32 := xs.foldl (· + ·) (-0.0)

/-- The length of a vector. -/
def norm (v : Vector) : Float32 := (sum (v.map fun x => x * x)).sqrt

/-- A vector scaled to length one; the zero vector stays. -/
def normalized (v : Vector) : Vector :=
  let n := norm v
  if 0 < n then v.map (· / n) else v

section Counting

variable (hash : List Char → UInt64)

/-- Count a token in a vector. -/
def countToken (v : Vector) (token : List Char) : Vector :=
  let h := hash token
  let step : Float32 := if h < 0x8000000000000000 then 1 else -1
  v.modify (h.toNat % v.size) (· + step)

/-- The embedding of the first tokens of a text. -/
def embed (dimensions maxTokens : Nat) (code : String) : Vector :=
  normalized (((tokens code).take maxTokens).foldl (countToken hash) (Array.replicate dimensions 0))

end Counting

/-- The cosine of the angle between two vectors; zero if their sizes differ or one is zero. -/
def similarity (a b : Vector) : Float32 :=
  if a.size ≠ b.size || a.isEmpty then 0
  else
    let dot := sum (Array.zipWith (· * ·) a b)
    let normA := norm a
    let normB := norm b
    if normA == 0 || normB == 0 then 0 else dot / (normA * normB)

end SnippetAudit.Embedding
