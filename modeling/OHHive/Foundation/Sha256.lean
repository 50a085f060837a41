import Mathlib.Algebra.Group.Nat.Defs
import OHHive.Foundation.Lines

/-! SHA-256. -/

namespace OHHive.Foundation.Sha256

/-- The first 32 bits of the fractional parts of the cube roots of the first 64 primes. -/
def roundConstants : List UInt32 :=
  [0x428a2f98, 0x71374491, 0xb5c0fbcf, 0xe9b5dba5, 0x3956c25b, 0x59f111f1, 0x923f82a4, 0xab1c5ed5,
    0xd807aa98, 0x12835b01, 0x243185be, 0x550c7dc3, 0x72be5d74, 0x80deb1fe, 0x9bdc06a7, 0xc19bf174,
    0xe49b69c1, 0xefbe4786, 0x0fc19dc6, 0x240ca1cc, 0x2de92c6f, 0x4a7484aa, 0x5cb0a9dc, 0x76f988da,
    0x983e5152, 0xa831c66d, 0xb00327c8, 0xbf597fc7, 0xc6e00bf3, 0xd5a79147, 0x06ca6351, 0x14292967,
    0x27b70a85, 0x2e1b2138, 0x4d2c6dfc, 0x53380d13, 0x650a7354, 0x766a0abb, 0x81c2c92e, 0x92722c85,
    0xa2bfe8a1, 0xa81a664b, 0xc24b8b70, 0xc76c51a3, 0xd192e819, 0xd6990624, 0xf40e3585, 0x106aa070,
    0x19a4c116, 0x1e376c08, 0x2748774c, 0x34b0bcb5, 0x391c0cb3, 0x4ed8aa4a, 0x5b9cca4f, 0x682e6ff3,
    0x748f82ee, 0x78a5636f, 0x84c87814, 0x8cc70208, 0x90befffa, 0xa4506ceb, 0xbef9a3f7, 0xc67178f2]

def initialHash : List UInt32 :=
  [0x6a09e667, 0xbb67ae85, 0x3c6ef372, 0xa54ff53a, 0x510e527f, 0x9b05688c, 0x1f83d9ab, 0x5be0cd19]

def rotateRight (word count : UInt32) : UInt32 := word >>> count ||| word <<< (32 - count)

/-- A message padded to whole blocks: a one bit, zeros, and its length in bits. -/
def padded (message : List UInt8) : List UInt8 :=
  let length := (List.range 8).map fun index => UInt8.ofNat (message.length * 8 / 256 ^ (7 - index))
  message ++ 0x80 :: (List.replicate ((119 - message.length % 64) % 64) 0 ++ length)

def appendByte (word : UInt32) (byte : UInt8) : UInt32 := word <<< 8 ||| byte.toUInt32

/-- The message schedule of a block. -/
def schedule (block : List UInt8) : List UInt32 :=
  let words := (List.range 16).map fun index =>
    ((block.drop (4 * index)).take 4).foldl appendByte 0
  (List.range 48).foldl (fun words index =>
    let early := words.getD (index + 1) 0
    let late := words.getD (index + 14) 0
    let first := rotateRight early 7 ^^^ rotateRight early 18 ^^^ early >>> 3
    let second := rotateRight late 17 ^^^ rotateRight late 19 ^^^ late >>> 10
    words ++ [words.getD index 0 + first + words.getD (index + 9) 0 + second]) words

/-- One round of the compression function on the eight working words. -/
def round : List UInt32 → UInt32 × UInt32 → List UInt32
  | [a, b, c, d, e, f, g, h], (constant, word) =>
    let choice := (e &&& f) ^^^ (~~~e &&& g)
    let majority := (a &&& b) ^^^ (a &&& c) ^^^ (b &&& c)
    let first := h + (rotateRight e 6 ^^^ rotateRight e 11 ^^^ rotateRight e 25) + choice +
      constant + word
    let second := (rotateRight a 2 ^^^ rotateRight a 13 ^^^ rotateRight a 22) + majority
    [first + second, a, b, c, d + first, e, f, g]
  | words, _ => words

def compress (hash : List UInt32) (block : List UInt8) : List UInt32 :=
  List.zipWith (· + ·) hash ((roundConstants.zip (schedule block)).foldl round hash)

/-- SHA-256, in lowercase hexadecimal. -/
def digest (message : List UInt8) : Text :=
  let bytes := padded message
  let hash := (List.range (bytes.length / 64)).foldl
    (fun hash index => compress hash ((bytes.drop (64 * index)).take 64)) initialHash
  hash.flatMap fun word =>
    (List.range 8).map fun index => Nat.digitChar (word.toNat / 16 ^ (7 - index) % 16)

end OHHive.Foundation.Sha256
