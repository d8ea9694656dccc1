import RenderMaterials.Text.Utf8

/-!
# Content hash

XXH3 in its 64-bit form with seed 0 and the default secret.  The input length picks one of six
mixing schemes; all words are read little-endian, and a word past the end reads as zeros.
-/

namespace RenderMaterials.Hash.Content

/-- Little-endian value of a few bytes. -/
def littleEndian (bs : List UInt8) : UInt64 := bs.foldr (fun b w => w <<< 8 ||| b.toUInt64) 0

/-- The eight-byte word at an index. -/
def word64 (a : Array UInt8) (i : Nat) : UInt64 := littleEndian (a.extract i (i + 8)).toList

/-- The four-byte word at an index. -/
def word32 (a : Array UInt8) (i : Nat) : UInt64 := littleEndian (a.extract i (i + 4)).toList

/-- The default secret. -/
def secret : Array UInt8 := #[
  0xb8, 0xfe, 0x6c, 0x39, 0x23, 0xa4, 0x4b, 0xbe, 0x7c, 0x01, 0x81, 0x2c, 0xf7, 0x21, 0xad, 0x1c,
  0xde, 0xd4, 0x6d, 0xe9, 0x83, 0x90, 0x97, 0xdb, 0x72, 0x40, 0xa4, 0xa4, 0xb7, 0xb3, 0x67, 0x1f,
  0xcb, 0x79, 0xe6, 0x4e, 0xcc, 0xc0, 0xe5, 0x78, 0x82, 0x5a, 0xd0, 0x7d, 0xcc, 0xff, 0x72, 0x21,
  0xb8, 0x08, 0x46, 0x74, 0xf7, 0x43, 0x24, 0x8e, 0xe0, 0x35, 0x90, 0xe6, 0x81, 0x3a, 0x26, 0x4c,
  0x3c, 0x28, 0x52, 0xbb, 0x91, 0xc3, 0x00, 0xcb, 0x88, 0xd0, 0x65, 0x8b, 0x1b, 0x53, 0x2e, 0xa3,
  0x71, 0x64, 0x48, 0x97, 0xa2, 0x0d, 0xf9, 0x4e, 0x38, 0x19, 0xef, 0x46, 0xa9, 0xde, 0xac, 0xd8,
  0xa8, 0xfa, 0x76, 0x3f, 0xe3, 0x9c, 0x34, 0x3f, 0xf9, 0xdc, 0xbb, 0xc7, 0xc7, 0x0b, 0x4f, 0x1d,
  0x8a, 0x51, 0xe0, 0x4b, 0xcd, 0xb4, 0x59, 0x31, 0xc8, 0x9f, 0x7e, 0xc9, 0xd9, 0x78, 0x73, 0x64,
  0xea, 0xc5, 0xac, 0x83, 0x34, 0xd3, 0xeb, 0xc3, 0xc5, 0x81, 0xa0, 0xff, 0xfa, 0x13, 0x63, 0xeb,
  0x17, 0x0d, 0xdd, 0x51, 0xb7, 0xf0, 0xda, 0x49, 0xd3, 0x16, 0x55, 0x26, 0x29, 0xd4, 0x68, 0x9e,
  0x2b, 0x16, 0xbe, 0x58, 0x7d, 0x47, 0xa1, 0xfc, 0x8f, 0xf8, 0xb8, 0xd1, 0x7a, 0xd0, 0x31, 0xce,
  0x45, 0xcb, 0x3a, 0x8f, 0x95, 0x16, 0x04, 0x28, 0xaf, 0xd7, 0xfb, 0xca, 0xbb, 0x4b, 0x40, 0x7e]

/-- The eight-byte word of the secret at an index. -/
def key (i : Nat) : UInt64 := word64 secret i

def prime32x1 : UInt64 := 0x9E3779B1
def prime32x2 : UInt64 := 0x85EBCA77
def prime32x3 : UInt64 := 0xC2B2AE3D
def prime64x1 : UInt64 := 0x9E3779B185EBCA87
def prime64x2 : UInt64 := 0xC2B2AE3D27D4EB4F
def prime64x3 : UInt64 := 0x165667B19E3779F9
def prime64x4 : UInt64 := 0x85EBCA77C2B2AE63
def prime64x5 : UInt64 := 0x27D4EB2F165667C5

/-- The two halves of the 128-bit product, xored. -/
def foldedProduct (a b : UInt64) : UInt64 :=
  let p := a.toNat * b.toNat
  UInt64.ofNat p ^^^ UInt64.ofNat (p >>> 64)

def rotateLeft (x : UInt64) (n : UInt64) : UInt64 := x <<< n ||| x >>> (64 - n)

/-- The word with its bytes in reverse order. -/
def reverseBytes (x : UInt64) : UInt64 :=
  (List.range 8).foldl (fun w i => w <<< 8 ||| (x >>> (8 * UInt64.ofNat i)) &&& 0xFF) 0

/-- Final mix of the shortest inputs. -/
def spread (h : UInt64) : UInt64 :=
  let h := (h ^^^ h >>> 33) * prime64x2
  let h := (h ^^^ h >>> 29) * prime64x3
  h ^^^ h >>> 32

/-- Final mix of all longer inputs. -/
def avalanche (h : UInt64) : UInt64 :=
  let h := (h ^^^ h >>> 37) * 0x165667919E3779F9
  h ^^^ h >>> 32

/-- Final mix of inputs of four to eight bytes. -/
def mixWithLength (h : UInt64) (n : Nat) : UInt64 :=
  let h := (h ^^^ rotateLeft h 49 ^^^ rotateLeft h 24) * 0x9FB21C651E98DF25
  let h := (h ^^^ (h >>> 35) + UInt64.ofNat n) * 0x9FB21C651E98DF25
  h ^^^ h >>> 28

/-- Mixes sixteen bytes at index `i` with the secret at index `k`. -/
def mix16 (a : Array UInt8) (i k : Nat) : UInt64 :=
  foldedProduct (word64 a i ^^^ key k) (word64 a (i + 8) ^^^ key (k + 8))

def hashEmpty : UInt64 := spread (key 56 ^^^ key 64)

def hash1to3 (a : Array UInt8) : UInt64 :=
  let n := a.size
  let first := (a.getD 0 0).toUInt64
  let middle := (a.getD (n / 2) 0).toUInt64
  let last := (a.getD (n - 1) 0).toUInt64
  spread ((first <<< 16 ||| middle <<< 24 ||| last ||| UInt64.ofNat n <<< 8)
    ^^^ (word32 secret 0 ^^^ word32 secret 4))

def hash4to8 (a : Array UInt8) : UInt64 :=
  let n := a.size
  mixWithLength ((word32 a (n - 4) + word32 a 0 <<< 32) ^^^ (key 8 ^^^ key 16)) n

def hash9to16 (a : Array UInt8) : UInt64 :=
  let n := a.size
  let low := word64 a 0 ^^^ (key 24 ^^^ key 32)
  let high := word64 a (n - 8) ^^^ (key 40 ^^^ key 48)
  avalanche (UInt64.ofNat n + reverseBytes low + high + foldedProduct low high)

/-- Pairs of sixteen bytes from both ends, as many as are needed to reach the middle. -/
def hash17to128 (a : Array UInt8) : UInt64 :=
  let n := a.size
  avalanche ((List.range ((n - 1) / 32 + 1)).foldl
    (fun acc i => acc + mix16 a (16 * i) (32 * i) + mix16 a (n - 16 * (i + 1)) (32 * i + 16))
    (UInt64.ofNat n * prime64x1))

def hash129to240 (a : Array UInt8) : UInt64 :=
  let n := a.size
  let start := (List.range 8).foldl (fun acc i => acc + mix16 a (16 * i) (16 * i))
    (UInt64.ofNat n * prime64x1)
  let middle := (List.range (n / 16 - 8)).foldl
    (fun acc i => acc + mix16 a (16 * (i + 8)) (16 * i + 3)) (avalanche start)
  avalanche (middle + mix16 a (n - 16) 119)

/-! ### Long inputs: eight lanes over stripes of 64 bytes, blocks of sixteen stripes -/

/-- Adds the stripe at index `i`, keyed by the secret at index `k`, to the lanes. -/
def addStripe (a : Array UInt8) (i k : Nat) (lanes : Array UInt64) : Array UInt64 :=
  (Array.range 8).map fun j =>
    let keyed := word64 a (i + 8 * j) ^^^ key (k + 8 * j)
    let other := word64 a (i + 8 * (j ^^^ 1))
    let low : UInt64 := keyed &&& 0xFFFFFFFF
    lanes.getD j 0 + other + low * (keyed >>> 32)

/-- Adds `count` stripes of the block that starts at index `i`. -/
def addStripes (a : Array UInt8) (i count : Nat) (lanes : Array UInt64) : Array UInt64 :=
  (List.range count).foldl (fun l s => addStripe a (i + 64 * s) (8 * s) l) lanes

/-- Stirs the lanes at the end of a block. -/
def scramble (lanes : Array UInt64) : Array UInt64 :=
  (Array.range 8).map fun j =>
    let x := lanes.getD j 0
    (x ^^^ x >>> 47 ^^^ key (128 + 8 * j)) * prime32x1

def initialLanes : Array UInt64 :=
  #[prime32x3, prime64x1, prime64x2, prime64x3, prime64x4, prime32x2, prime64x5, prime32x1]

/-- Folds the lanes to one word. -/
def mergeLanes (lanes : Array UInt64) (start : UInt64) : UInt64 :=
  avalanche ((List.range 4).foldl
    (fun acc i => acc + foldedProduct (lanes.getD (2 * i) 0 ^^^ key (11 + 16 * i))
      (lanes.getD (2 * i + 1) 0 ^^^ key (19 + 16 * i))) start)

def hashLong (a : Array UInt8) : UInt64 :=
  let n := a.size
  let blocks := (n - 1) / 1024
  let lanes := (List.range blocks).foldl
    (fun l b => scramble (addStripes a (1024 * b) 16 l)) initialLanes
  let lanes := addStripes a (1024 * blocks) ((n - 1 - 1024 * blocks) / 64) lanes
  mergeLanes (addStripe a (n - 64) 121 lanes) (UInt64.ofNat n * prime64x1)

end RenderMaterials.Hash.Content

namespace RenderMaterials

open Hash.Content in
/-- The content hash of bytes. -/
def contentHash (bytes : Bytes) : UInt64 :=
  let a := bytes.toArray
  let n := a.size
  if n = 0 then hashEmpty
  else if n ≤ 3 then hash1to3 a
  else if n ≤ 8 then hash4to8 a
  else if n ≤ 16 then hash9to16 a
  else if n ≤ 128 then hash17to128 a
  else if n ≤ 240 then hash129to240 a
  else hashLong a

/-- The content hash of a text's UTF-8 form. -/
def textHash (s : String) : UInt64 := contentHash (Text.encodeUtf8 s)

end RenderMaterials
