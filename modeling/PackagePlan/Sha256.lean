/-
  The digest SHA-256 of a sequence of bytes, and its text in lower-case hexadecimal digits.
-/
namespace PackagePlan.Sha256

/-- The round constants: the first 32 bits of the fractions of the cube roots of the primes. -/
def roundConstants : List UInt32 := [
    0x428a2f98, 0x71374491, 0xb5c0fbcf, 0xe9b5dba5, 0x3956c25b, 0x59f111f1,
    0x923f82a4, 0xab1c5ed5, 0xd807aa98, 0x12835b01, 0x243185be, 0x550c7dc3,
    0x72be5d74, 0x80deb1fe, 0x9bdc06a7, 0xc19bf174, 0xe49b69c1, 0xefbe4786,
    0x0fc19dc6, 0x240ca1cc, 0x2de92c6f, 0x4a7484aa, 0x5cb0a9dc, 0x76f988da,
    0x983e5152, 0xa831c66d, 0xb00327c8, 0xbf597fc7, 0xc6e00bf3, 0xd5a79147,
    0x06ca6351, 0x14292967, 0x27b70a85, 0x2e1b2138, 0x4d2c6dfc, 0x53380d13,
    0x650a7354, 0x766a0abb, 0x81c2c92e, 0x92722c85, 0xa2bfe8a1, 0xa81a664b,
    0xc24b8b70, 0xc76c51a3, 0xd192e819, 0xd6990624, 0xf40e3585, 0x106aa070,
    0x19a4c116, 0x1e376c08, 0x2748774c, 0x34b0bcb5, 0x391c0cb3, 0x4ed8aa4a,
    0x5b9cca4f, 0x682e6ff3, 0x748f82ee, 0x78a5636f, 0x84c87814, 0x8cc70208,
    0x90befffa, 0xa4506ceb, 0xbef9a3f7, 0xc67178f2]

/-- The eight words that the digest is built up in. -/
structure State where
  a : UInt32
  b : UInt32
  c : UInt32
  d : UInt32
  e : UInt32
  f : UInt32
  g : UInt32
  h : UInt32
  deriving DecidableEq, Inhabited, Repr

namespace State

/-- The state before the first block: the fractions of the square roots of the first primes. -/
def initial : State :=
  ⟨0x6a09e667, 0xbb67ae85, 0x3c6ef372, 0xa54ff53a,
    0x510e527f, 0x9b05688c, 0x1f83d9ab, 0x5be0cd19⟩

/-- The sums of the words of two states. -/
def add (x y : State) : State :=
  ⟨x.a + y.a, x.b + y.b, x.c + y.c, x.d + y.d, x.e + y.e, x.f + y.f, x.g + y.g, x.h + y.h⟩

/-- The words in order. -/
def toList (x : State) : List UInt32 := [x.a, x.b, x.c, x.d, x.e, x.f, x.g, x.h]

end State

/-- Rotate a word to the right. -/
def rotate (x : UInt32) (n : UInt32) : UInt32 := (x >>> n) ||| (x <<< (32 - n))

/-- The function Σ₀. -/
def bigSigma0 (x : UInt32) : UInt32 := rotate x 2 ^^^ rotate x 13 ^^^ rotate x 22

/-- The function Σ₁. -/
def bigSigma1 (x : UInt32) : UInt32 := rotate x 6 ^^^ rotate x 11 ^^^ rotate x 25

/-- The function σ₀. -/
def smallSigma0 (x : UInt32) : UInt32 := rotate x 7 ^^^ rotate x 18 ^^^ (x >>> 3)

/-- The function σ₁. -/
def smallSigma1 (x : UInt32) : UInt32 := rotate x 17 ^^^ rotate x 19 ^^^ (x >>> 10)

/-- Take `y` where the bits of `x` are set and `z` elsewhere. -/
def choose (x y z : UInt32) : UInt32 := (x &&& y) ^^^ (~~~x &&& z)

/-- The bits set in most of three words. -/
def majority (x y z : UInt32) : UInt32 := (x &&& y) ^^^ (x &&& z) ^^^ (y &&& z)

/-- The message with the bit, the zeros and the length that fill the last block. -/
def pad (message : List UInt8) : List UInt8 :=
  let size := message.length
  let zeros := (119 - size % 64) % 64
  let lengthBytes := (List.range 8).map fun i => UInt8.ofNat ((8 * size) >>> (8 * (7 - i)))
  message ++ 0x80 :: List.replicate zeros 0 ++ lengthBytes

/-- The words of four bytes each, most significant byte first. -/
def words : List UInt8 → List UInt32
  | a :: b :: c :: d :: rest =>
    ((a.toUInt32 <<< 24) ||| (b.toUInt32 <<< 16) ||| (c.toUInt32 <<< 8) ||| d.toUInt32)
      :: words rest
  | _ => []

/-- Add the next word to a schedule. -/
def extend (schedule : Array UInt32) : Array UInt32 :=
  let i := schedule.size
  schedule.push (smallSigma1 (schedule.getD (i - 2) 0) + schedule.getD (i - 7) 0
    + smallSigma0 (schedule.getD (i - 15) 0) + schedule.getD (i - 16) 0)

/-- The schedule of a block: its words and 48 more. -/
def schedule (block : List UInt32) : Array UInt32 :=
  (List.range 48).foldl (fun sofar _ => extend sofar) block.toArray

/-- One round with a constant and a word of the schedule. -/
def round (x : State) (input : UInt32 × UInt32) : State :=
  let first := x.h + bigSigma1 x.e + choose x.e x.f x.g + input.1 + input.2
  let second := bigSigma0 x.a + majority x.a x.b x.c
  ⟨first + second, x.a, x.b, x.c, x.d + first, x.e, x.f, x.g⟩

/-- Take in one block. -/
def compress (x : State) (block : List UInt32) : State :=
  x.add ((roundConstants.zip (schedule block).toList).foldl round x)

/-- Take in all blocks of sixteen words. -/
def compressAll (x : State) (message : List UInt32) : State :=
  match message with
  | [] => x
  | word :: rest => compressAll (compress x ((word :: rest).take 16)) ((word :: rest).drop 16)
termination_by message.length
decreasing_by
  simp only [List.length_drop, List.length_cons]
  omega

/-- The eight hexadecimal digits of a word. -/
def hex (word : UInt32) : List Char :=
  (List.range 8).map fun i => Nat.digitChar (word.toNat >>> (4 * (7 - i)) % 16)

/-- The digest of a message. -/
def digest (message : List UInt8) : State := compressAll .initial (words (pad message))

/-- The digest of a message in hexadecimal digits. -/
def render (message : List UInt8) : String := String.ofList ((digest message).toList.flatMap hex)

end PackagePlan.Sha256
