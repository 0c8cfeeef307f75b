/-!
# The XXH3 hash

The 64-bit XXH3 hash of a list of bytes with seed zero and the default secret. Up to 240 bytes
have formulas of their own by length; longer inputs run through eight accumulator lanes in
stripes of 64 bytes.
-/

namespace LinePatch.Xxh3

/-! ## Words and constants -/

/-- A little-endian word of the first `n` bytes. -/
def word : Nat → List UInt8 → UInt64
  | n + 1, b :: bs => b.toUInt64 ||| (word n bs <<< 8)
  | _, _ => 0

/-- The 32-bit word at an offset. -/
def word32 (bs : List UInt8) (i : Nat) : UInt64 := word 4 (bs.drop i)

/-- The 64-bit word at an offset. -/
def word64 (bs : List UInt8) (i : Nat) : UInt64 := word 8 (bs.drop i)

def prime32₁ : UInt64 := 0x9E3779B1
def prime32₂ : UInt64 := 0x85EBCA77
def prime32₃ : UInt64 := 0xC2B2AE3D
def prime64₁ : UInt64 := 0x9E3779B185EBCA87
def prime64₂ : UInt64 := 0xC2B2AE3D27D4EB4F
def prime64₃ : UInt64 := 0x165667B19E3779F9
def prime64₄ : UInt64 := 0x85EBCA77C2B2AE63
def prime64₅ : UInt64 := 0x27D4EB2F165667C5

/-- The default secret of 192 bytes. -/
def secret : List UInt8 := [
  0xb8, 0xfe, 0x6c, 0x39, 0x23, 0xa4, 0x4b, 0xbe, 0x7c, 0x01, 0x81, 0x2c, 0xf7, 0x21, 0xad, 0x1c,
  0xde, 0xd4, 0x6d, 0xe9, 0x83, 0x90, 0x97, 0xdb, 0x72, 0x40, 0xa4, 0xa4, 0xb7, 0xb3, 0x67, 0x1f,
  0xcb, 0x79, 0xe6, 0x4e, 0xcc, 0xc0, 0xe5, 0x78, 0x82, 0x5a, 0xd0, 0x7d, 0xcc, 0xff, 0x72, 0x21,
  0xb8, 0x08, 0x46, 0x74, 0xf7, 0x43, 0x24, 0x8e, 0xe0, 0x35, 0x90, 0xe6, 0x81, 0x3a, 0x26, 0x4c,
  0x3c, 0x28, 0x52, 0xbb, 0x91, 0xc3, 0x00, 0xcb, 0x88, 0xd0, 0x65, 0x8b, 0x1b, 0x53, 0x2e, 0xa3,
  0x71, 0x64, 0x48, 0x97, 0xa2, 0x0d, 0xf9, 0x4e, 0x38, 0x19, 0xef, 0x46, 0xa9, 0xde, 0xac, 0xd8,
  0xa8, 0xfa, 0x76, 0x3f, 0xe3, 0x9c, 0x34, 0x3f, 0xf9, 0xdc, 0xbb, 0xc7, 0xc7, 0x0b, 0x4f, 0x1d,
  0x8a, 0x51, 0xe0, 0x4b, 0xcd, 0xb4, 0x59, 0x31, 0xc8, 0x9f, 0x7e, 0xc9, 0xd9, 0x78, 0x73, 0x64,
  0xea, 0xc5, 0xac, 0x83, 0x34, 0xd3, 0xeb, 0xc3, 0xc5, 0x81, 0xa0, 0xff, 0xfa, 0x13, 0x63, 0xeb,
  0x17, 0x0d, 0xdd, 0x51, 0xb7, 0xf0, 0xda, 0x49, 0xd3, 0x16, 0x55, 0x26, 0x29, 0xd4, 0x68, 0x9e,
  0x2b, 0x16, 0xbe, 0x58, 0x7d, 0x47, 0xa1, 0xfc, 0x8f, 0xf8, 0xb8, 0xd1, 0x7a, 0xd0, 0x31, 0xce,
  0x45, 0xcb, 0x3a, 0x8f, 0x95, 0x16, 0x04, 0x28, 0xaf, 0xd7, 0xfb, 0xca, 0xbb, 0x4b, 0x40, 0x7e]

/-! ## Mixing -/

/-- The low and the high half of the full product, combined. -/
def foldedProduct (a b : UInt64) : UInt64 :=
  let p := a.toNat * b.toNat
  UInt64.ofNat p ^^^ UInt64.ofNat (p / UInt64.size)

/-- A word turned left. -/
def rotateLeft (x : UInt64) (n : UInt64) : UInt64 := (x <<< n) ||| (x >>> (64 - n))

/-- A word with its bytes in the opposite order. -/
def swapBytes (x : UInt64) : UInt64 :=
  (List.range 8).foldl
    (fun y i => (y <<< 8) ||| ((x >>> UInt64.ofNat (8 * i)) &&& 0xFF)) 0

/-- The last mixing step of most lengths. -/
def avalanche (h : UInt64) : UInt64 :=
  let h := h ^^^ (h >>> 37)
  let h := h * 0x165667919E3779F9
  h ^^^ (h >>> 32)

/-- The last mixing step of the shortest inputs. -/
def avalancheShort (h : UInt64) : UInt64 :=
  let h := h ^^^ (h >>> 33)
  let h := h * prime64₂
  let h := h ^^^ (h >>> 29)
  let h := h * prime64₃
  h ^^^ (h >>> 32)

/-- The last mixing step of inputs of four to eight bytes. -/
def avalancheRotated (h length : UInt64) : UInt64 :=
  let h := h ^^^ rotateLeft h 49 ^^^ rotateLeft h 24
  let h := h * 0x9FB21C651E98DF25
  let h := h ^^^ ((h >>> 35) + length)
  let h := h * 0x9FB21C651E98DF25
  h ^^^ (h >>> 28)

/-- Sixteen input bytes mixed with sixteen bytes of the secret. -/
def mix16 (bs : List UInt8) (i j : Nat) : UInt64 :=
  foldedProduct (word64 bs i ^^^ word64 secret j) (word64 bs (i + 8) ^^^ word64 secret (j + 8))

/-! ## Inputs of up to 240 bytes -/

/-- One to three bytes. -/
def hashUpTo3 (bs : List UInt8) : UInt64 :=
  let n := bs.length
  let combined := (word 1 bs <<< 16) ||| (word 1 (bs.drop (n / 2)) <<< 24) |||
    word 1 (bs.drop (n - 1)) ||| (UInt64.ofNat n <<< 8)
  avalancheShort (combined ^^^ (word32 secret 0 ^^^ word32 secret 4))

/-- Four to eight bytes. -/
def hashUpTo8 (bs : List UInt8) : UInt64 :=
  let n := bs.length
  let input := word32 bs (n - 4) + (word32 bs 0 <<< 32)
  avalancheRotated (input ^^^ (word64 secret 8 ^^^ word64 secret 16)) (UInt64.ofNat n)

/-- Nine to sixteen bytes. -/
def hashUpTo16 (bs : List UInt8) : UInt64 :=
  let n := bs.length
  let lo := word64 bs 0 ^^^ (word64 secret 24 ^^^ word64 secret 32)
  let hi := word64 bs (n - 8) ^^^ (word64 secret 40 ^^^ word64 secret 48)
  avalanche (UInt64.ofNat n + swapBytes lo + hi + foldedProduct lo hi)

/-- Seventeen to 128 bytes: pairs of sixteen bytes from both ends, to the middle. -/
def hashUpTo128 (bs : List UInt8) : UInt64 :=
  let n := bs.length
  let pairs := (List.range ((n - 1) / 32 + 1)).map fun i =>
    mix16 bs (16 * i) (32 * i) + mix16 bs (n - 16 * (i + 1)) (32 * i + 16)
  avalanche (pairs.foldl (· + ·) (UInt64.ofNat n * prime64₁))

/-- 129 to 240 bytes. -/
def hashUpTo240 (bs : List UInt8) : UInt64 :=
  let n := bs.length
  let head := (List.range 8).foldl (fun acc i => acc + mix16 bs (16 * i) (16 * i))
    (UInt64.ofNat n * prime64₁)
  let rounds := (List.range' 8 (n / 16 - 8)).foldl
    (fun acc i => acc + mix16 bs (16 * i) (16 * (i - 8) + 3)) (avalanche head)
  avalanche (rounds + mix16 bs (n - 16) 119)

/-! ## Longer inputs -/

/-- The first `n` words of some bytes. -/
def words : Nat → List UInt8 → List UInt64
  | 0, _ => []
  | n + 1, bs => word64 bs 0 :: words n (bs.drop 8)

/-- The lanes before any stripe. -/
def initialLanes : List UInt64 :=
  [prime32₃, prime64₁, prime64₂, prime64₃, prime64₄, prime32₂, prime64₅, prime32₁]

/-- The product of the low and the high half of a word. -/
def halfProduct (w : UInt64) : UInt64 := (w &&& (0xFFFFFFFF : UInt64)) * (w >>> (32 : UInt64))

/-- The lanes after one stripe of `data` under the words `keys` of the secret: each lane takes its
neighbour's word and the product of the halves of its own keyed word. -/
def accumulate : List UInt64 → List UInt64 → List UInt64 → List UInt64
  | a :: b :: lanes, x :: y :: data, k :: l :: keys =>
    (a + y + halfProduct (x ^^^ k)) :: (b + x + halfProduct (y ^^^ l)) ::
      accumulate lanes data keys
  | _, _, _ => []

/-- The lanes after the stripe at the start of `bs`, with the secret from an offset. -/
def stripe (lanes : List UInt64) (bs : List UInt8) (offset : Nat) : List UInt64 :=
  accumulate lanes (words 8 bs) (words 8 (secret.drop offset))

/-- The lanes after `n` stripes from the start of `bs`; the secret moves on by eight bytes with
each. -/
def stripes (lanes : List UInt64) : Nat → List UInt8 → Nat → List UInt64
  | 0, _, _ => lanes
  | n + 1, bs, offset => stripes (stripe lanes bs offset) n (bs.drop 64) (offset + 8)

/-- The lanes mixed at the end of a block. -/
def scramble (lanes : List UInt64) : List UInt64 :=
  List.zipWith (fun (lane key : UInt64) => (lane ^^^ (lane >>> 47) ^^^ key) * prime32₁) lanes
    (words 8 (secret.drop 128))

/-- The lanes after `n` whole blocks of 1024 bytes, and the bytes that follow. -/
def blocks (lanes : List UInt64) : Nat → List UInt8 → List UInt64 × List UInt8
  | 0, bs => (lanes, bs)
  | n + 1, bs => blocks (scramble (stripes lanes 16 bs 0)) n (bs.drop 1024)

/-- The sum of the folded products of pairs of lanes with pairs of words of the secret. -/
def mergeLanes : List UInt64 → List UInt64 → UInt64
  | a :: b :: lanes, k :: l :: keys => foldedProduct (a ^^^ k) (b ^^^ l) + mergeLanes lanes keys
  | _, _ => 0

/-- More than 240 bytes. -/
def hashLong (bs : List UInt8) : UInt64 :=
  let n := bs.length
  let whole := (n - 1) / 1024
  let (lanes, rest) := blocks initialLanes whole bs
  let lanes := stripes lanes ((n - 1 - 1024 * whole) / 64) rest 0
  let lanes := stripe lanes (bs.drop (n - 64)) 121
  avalanche (UInt64.ofNat n * prime64₁ + mergeLanes lanes (words 8 (secret.drop 11)))

/-- The hash of some bytes. -/
def hash (bs : List UInt8) : UInt64 :=
  let n := bs.length
  if n = 0 then avalancheShort (word64 secret 56 ^^^ word64 secret 64)
  else if n ≤ 3 then hashUpTo3 bs
  else if n ≤ 8 then hashUpTo8 bs
  else if n ≤ 16 then hashUpTo16 bs
  else if n ≤ 128 then hashUpTo128 bs
  else if n ≤ 240 then hashUpTo240 bs
  else hashLong bs

end LinePatch.Xxh3
