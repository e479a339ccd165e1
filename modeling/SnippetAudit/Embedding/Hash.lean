/-!
The 64-bit hash XXH3 with seed zero.

All arithmetic is modulo `2^64`, and bytes are joined to words with the least significant first. A text is
treated by one of seven rules, depending on its length.
-/

namespace SnippetAudit.Embedding.Hash

/-- The bytes that are mixed with the text. -/
def secret : Array UInt8 :=
  #[0xB8, 0xFE, 0x6C, 0x39, 0x23, 0xA4, 0x4B, 0xBE, 0x7C, 0x01, 0x81, 0x2C, 0xF7, 0x21, 0xAD, 0x1C,
    0xDE, 0xD4, 0x6D, 0xE9, 0x83, 0x90, 0x97, 0xDB, 0x72, 0x40, 0xA4, 0xA4, 0xB7, 0xB3, 0x67, 0x1F,
    0xCB, 0x79, 0xE6, 0x4E, 0xCC, 0xC0, 0xE5, 0x78, 0x82, 0x5A, 0xD0, 0x7D, 0xCC, 0xFF, 0x72, 0x21,
    0xB8, 0x08, 0x46, 0x74, 0xF7, 0x43, 0x24, 0x8E, 0xE0, 0x35, 0x90, 0xE6, 0x81, 0x3A, 0x26, 0x4C,
    0x3C, 0x28, 0x52, 0xBB, 0x91, 0xC3, 0x00, 0xCB, 0x88, 0xD0, 0x65, 0x8B, 0x1B, 0x53, 0x2E, 0xA3,
    0x71, 0x64, 0x48, 0x97, 0xA2, 0x0D, 0xF9, 0x4E, 0x38, 0x19, 0xEF, 0x46, 0xA9, 0xDE, 0xAC, 0xD8,
    0xA8, 0xFA, 0x76, 0x3F, 0xE3, 0x9C, 0x34, 0x3F, 0xF9, 0xDC, 0xBB, 0xC7, 0xC7, 0x0B, 0x4F, 0x1D,
    0x8A, 0x51, 0xE0, 0x4B, 0xCD, 0xB4, 0x59, 0x31, 0xC8, 0x9F, 0x7E, 0xC9, 0xD9, 0x78, 0x73, 0x64,
    0xEA, 0xC5, 0xAC, 0x83, 0x34, 0xD3, 0xEB, 0xC3, 0xC5, 0x81, 0xA0, 0xFF, 0xFA, 0x13, 0x63, 0xEB,
    0x17, 0x0D, 0xDD, 0x51, 0xB7, 0xF0, 0xDA, 0x49, 0xD3, 0x16, 0x55, 0x26, 0x29, 0xD4, 0x68, 0x9E,
    0x2B, 0x16, 0xBE, 0x58, 0x7D, 0x47, 0xA1, 0xFC, 0x8F, 0xF8, 0xB8, 0xD1, 0x7A, 0xD0, 0x31, 0xCE,
    0x45, 0xCB, 0x3A, 0x8F, 0x95, 0x16, 0x04, 0x28, 0xAF, 0xD7, 0xFB, 0xCA, 0xBB, 0x4B, 0x40, 0x7E]

/-- The word of eight bytes from an offset on; bytes beyond the end count as zero. -/
def word (bytes : Array UInt8) (offset : Nat) : UInt64 :=
  (List.range 8).foldr (fun i w => w <<< 8 ||| (bytes.getD (offset + i) 0).toUInt64) 0

/-- The word of four bytes from an offset on. -/
def halfWord (bytes : Array UInt8) (offset : Nat) : UInt64 :=
  (List.range 4).foldr (fun i w => w <<< 8 ||| (bytes.getD (offset + i) 0).toUInt64) 0

/-- The word of the secret from an offset on. -/
def key (offset : Nat) : UInt64 := word secret offset

def prime32A : UInt64 := 0x9E3779B1
def prime32B : UInt64 := 0x85EBCA77
def prime32C : UInt64 := 0xC2B2AE3D
def prime64A : UInt64 := 0x9E3779B185EBCA87
def prime64B : UInt64 := 0xC2B2AE3D27D4EB4F
def prime64C : UInt64 := 0x165667B19E3779F9
def prime64D : UInt64 := 0x85EBCA77C2B2AE63
def prime64E : UInt64 := 0x27D4EB2F165667C5

/-- Rotate a word to the left. -/
def rotate (w : UInt64) (n : UInt64) : UInt64 := w <<< n ||| w >>> (64 - n)

/-- A word with its bytes in the opposite order. -/
def reversed (w : UInt64) : UInt64 :=
  (List.range 8).foldl (fun r i => r <<< 8 ||| ((w >>> (8 * i).toUInt64) &&& 0xFF)) 0

/-- The product of two words, with its upper half folded onto the lower one. -/
def fold (a b : UInt64) : UInt64 :=
  let product := a.toNat * b.toNat
  product.toUInt64 ^^^ (product / 0x10000000000000000).toUInt64

/-- Spread the bits of a word, as for short texts. -/
def finishShort (h : UInt64) : UInt64 :=
  let h := (h ^^^ h >>> 33) * prime64B
  let h := (h ^^^ h >>> 29) * prime64C
  h ^^^ h >>> 32

/-- Spread the bits of a word. -/
def finish (h : UInt64) : UInt64 :=
  let h := (h ^^^ h >>> 37) * 0x165667919E3779F9
  h ^^^ h >>> 32

/-- Mix sixteen bytes of a text with sixteen bytes of the secret. -/
def mix (bytes : Array UInt8) (offset keyOffset : Nat) : UInt64 :=
  fold (word bytes offset ^^^ key keyOffset) (word bytes (offset + 8) ^^^ key (keyOffset + 8))

/-- The hash of one to three bytes. -/
def upTo3 (bytes : Array UInt8) : UInt64 :=
  let n := bytes.size
  let at' (i : Nat) : UInt64 := (bytes.getD i 0).toUInt64
  let joined := at' 0 <<< 16 ||| at' (n / 2) <<< 24 ||| at' (n - 1) ||| n.toUInt64 <<< 8
  finishShort (joined ^^^ (halfWord secret 0 ^^^ halfWord secret 4))

/-- The hash of four to eight bytes. -/
def upTo8 (bytes : Array UInt8) : UInt64 :=
  let n := bytes.size
  let joined := halfWord bytes (n - 4) + halfWord bytes 0 <<< 32
  let h := joined ^^^ (key 8 ^^^ key 16)
  let h := (h ^^^ rotate h 49 ^^^ rotate h 24) * 0x9FB21C651E98DF25
  let h := (h ^^^ (h >>> 35 + n.toUInt64)) * 0x9FB21C651E98DF25
  h ^^^ h >>> 28

/-- The hash of nine to sixteen bytes. -/
def upTo16 (bytes : Array UInt8) : UInt64 :=
  let n := bytes.size
  let low := word bytes 0 ^^^ (key 24 ^^^ key 32)
  let high := word bytes (n - 8) ^^^ (key 40 ^^^ key 48)
  finish (n.toUInt64 + reversed low + high + fold low high)

/-- The hash of 17 to 128 bytes: pairs of mixed pieces from both ends, from the inside out. -/
def upTo128 (bytes : Array UInt8) : UInt64 :=
  let n := bytes.size
  let pair (i : Nat) : UInt64 := mix bytes (16 * i) (32 * i) + mix bytes (n - 16 * (i + 1)) (32 * i + 16)
  let pairs := (n - 1) / 32 + 1
  finish ((List.range pairs).foldl (fun h i => h + pair i) (n.toUInt64 * prime64A))

/-- The hash of 129 to 240 bytes. -/
def upTo240 (bytes : Array UInt8) : UInt64 :=
  let n := bytes.size
  let front := (List.range 8).foldl (fun h i => h + mix bytes (16 * i) (16 * i)) (n.toUInt64 * prime64A)
  let middle := (List.range (n / 16 - 8)).foldl
    (fun h i => h + mix bytes (16 * (i + 8)) (16 * i + 3)) (finish front)
  finish (middle + mix bytes (n - 16) 119)

/-- Take a stripe of 64 bytes into eight accumulators. -/
def stripe (bytes : Array UInt8) (acc : Array UInt64) (offset keyOffset : Nat) : Array UInt64 :=
  (List.range 8).foldl
    (fun acc i =>
      let data := word bytes (offset + 8 * i)
      let mixed := data ^^^ key (keyOffset + 8 * i)
      let other := if i % 2 = 0 then i + 1 else i - 1
      let product : UInt64 := (mixed &&& (0xFFFFFFFF : UInt64)) * (mixed >>> (32 : UInt64))
      (acc.modify other fun a => a + data).modify i fun a => a + product)
    acc

/-- Several stripes behind one another. -/
def stripes (bytes : Array UInt8) (acc : Array UInt64) (offset count : Nat) : Array UInt64 :=
  (List.range count).foldl (fun acc i => stripe bytes acc (offset + 64 * i) (8 * i)) acc

/-- Scramble the accumulators at the end of a block. -/
def scramble (acc : Array UInt64) : Array UInt64 :=
  (List.range 8).foldl
    (fun acc i => acc.modify i fun a => (a ^^^ a >>> 47 ^^^ key (128 + 8 * i)) * prime32A) acc

/-- The hash of more than 240 bytes: blocks of sixteen stripes, the stripes left over, and the last 64
bytes once more. -/
def beyond240 (bytes : Array UInt8) : UInt64 :=
  let n := bytes.size
  let start := #[prime32C, prime64A, prime64B, prime64C, prime64D, prime32B, prime64E, prime32A]
  let blocks := (n - 1) / 1024
  let acc := (List.range blocks).foldl (fun acc i => scramble (stripes bytes acc (1024 * i) 16)) start
  let acc := stripes bytes acc (1024 * blocks) ((n - 1 - 1024 * blocks) / 64)
  let acc := stripe bytes acc (n - 64) 121
  finish ((List.range 4).foldl
    (fun h i =>
      h + fold (acc.getD (2 * i) 0 ^^^ key (11 + 16 * i)) (acc.getD (2 * i + 1) 0 ^^^ key (19 + 16 * i)))
    (n.toUInt64 * prime64A))

/-- The hash of some bytes. -/
def ofBytes (bytes : Array UInt8) : UInt64 :=
  let n := bytes.size
  if n = 0 then finishShort (key 56 ^^^ key 64)
  else if n ≤ 3 then upTo3 bytes
  else if n ≤ 8 then upTo8 bytes
  else if n ≤ 16 then upTo16 bytes
  else if n ≤ 128 then upTo128 bytes
  else if n ≤ 240 then upTo240 bytes
  else beyond240 bytes

/-- The hash of the UTF-8 form of some characters. -/
def ofChars (cs : List Char) : UInt64 := ofBytes (String.ofList cs).toUTF8.data

end SnippetAudit.Embedding.Hash
