/-! The SHA-256 digest of a sequence of bytes. -/

namespace BytecodeBench.Digest.Sha256

/-- The constants of the rounds: fractional parts of the cube roots of the first primes. -/
def roundConstants : List UInt32 := [
  0x428a2f98, 0x71374491, 0xb5c0fbcf, 0xe9b5dba5, 0x3956c25b, 0x59f111f1,
  0x923f82a4, 0xab1c5ed5, 0xd807aa98, 0x12835b01, 0x243185be, 0x550c7dc3,
  0x72be5d74, 0x80deb1fe, 0x9bdc06a7, 0xc19bf174, 0xe49b69c1, 0xefbe4786,
  0x0fc19dc6, 0x240ca1cc, 0x2de92c6f, 0x4a7484aa, 0x5cb0a9dc, 0x76f988da,
  0x983e5152, 0xa831c66d, 0xb00327c8, 0xbf597fc7, 0xc6e00bf3, 0xd5a79147,
  0x06ca6351, 0x14292967, 0x27b70a85, 0x2e1b2138, 0x4d2c6dfc, 0x53380d13,
  0x650a7354, 0x766a0abb, 0x81c2c92e, 0x92722c85, 0xa2bfe8a1, 0xa81a664b,
  0xc24b8b70, 0xc76c51a3, 0xd192e819, 0xd6990624, 0xf40e3585, 0x106aa070,
  0x19a4c116, 0x1e376c08, 0x2748774c, 0x34b0bcb5, 0x391c0cb3, 0x4ed8aa4a,
  0x5b9cca4f, 0x682e6ff3, 0x748f82ee, 0x78a5636f, 0x84c87814, 0x8cc70208,
  0x90befffa, 0xa4506ceb, 0xbef9a3f7, 0xc67178f2]

/-- The running digest of eight words. -/
structure Registers where
  (a b c d e f g h : UInt32)
  deriving DecidableEq, Repr

/-- The digest to start from: fractional parts of the square roots of the first primes. -/
def Registers.start : Registers :=
  ⟨0x6a09e667, 0xbb67ae85, 0x3c6ef372, 0xa54ff53a,
    0x510e527f, 0x9b05688c, 0x1f83d9ab, 0x5be0cd19⟩

def rotate (x : UInt32) (places : UInt32) : UInt32 := (x >>> places) ||| (x <<< (32 - places))

/-- The bytes of a number, the most significant first. -/
def bigEndian : Nat → Nat → List UInt8
  | 0, _ => []
  | width + 1, n => UInt8.ofNat (n >>> (8 * width)) :: bigEndian width n

/-- The message filled up to whole blocks: a one bit, zeros, and the length in bits. -/
def padded (message : List UInt8) : List UInt8 :=
  let zeros := (119 - message.length % 64) % 64
  message ++ 0x80 :: (List.replicate zeros 0 ++ bigEndian 8 (8 * message.length))

/-- The words of four bytes each. -/
def words : List UInt8 → List UInt32
  | w :: x :: y :: z :: rest =>
    ((w.toUInt32 <<< 24) ||| (x.toUInt32 <<< 16) ||| (y.toUInt32 <<< 8) ||| z.toUInt32) :: words rest
  | _ => []

/-- The word that follows sixteen words of the schedule. -/
def nextWord (window : List UInt32) : UInt32 :=
  let at' (i : Nat) := window.getD i 0
  let x := at' 1
  let y := at' 14
  at' 0 + (rotate x 7 ^^^ rotate x 18 ^^^ (x >>> 3)) + at' 9 +
    (rotate y 17 ^^^ rotate y 19 ^^^ (y >>> 10))

/-- So many words of the schedule that starts with a window of sixteen words. -/
def schedule : Nat → List UInt32 → List UInt32
  | 0, _ => []
  | count + 1, window => window.headD 0 :: schedule count (window.tail ++ [nextWord window])

def Registers.round (s : Registers) (constant word : UInt32) : Registers :=
  let choice := (s.e &&& s.f) ^^^ (~~~s.e &&& s.g)
  let majority := (s.a &&& s.b) ^^^ (s.a &&& s.c) ^^^ (s.b &&& s.c)
  let x := s.h + (rotate s.e 6 ^^^ rotate s.e 11 ^^^ rotate s.e 25) + choice + constant + word
  let y := (rotate s.a 2 ^^^ rotate s.a 13 ^^^ rotate s.a 22) + majority
  ⟨x + y, s.a, s.b, s.c, s.d + x, s.e, s.f, s.g⟩

def Registers.add (s t : Registers) : Registers :=
  ⟨s.a + t.a, s.b + t.b, s.c + t.c, s.d + t.d, s.e + t.e, s.f + t.f, s.g + t.g, s.h + t.h⟩

/-- Takes in a block of sixteen words. -/
def Registers.absorb (s : Registers) (block : List UInt32) : Registers :=
  s.add ((roundConstants.zip (schedule 64 block)).foldl (fun t (k, w) => t.round k w) s)

/-- Takes in so many blocks. -/
def absorbAll (s : Registers) : Nat → List UInt32 → Registers
  | 0, _ => s
  | count + 1, message => absorbAll (s.absorb (message.take 16)) count (message.drop 16)

def Registers.bytes (s : Registers) : List UInt8 :=
  [s.a, s.b, s.c, s.d, s.e, s.f, s.g, s.h].flatMap fun w => bigEndian 4 w.toNat

/-- The thirty-two bytes of the digest. -/
def hash (message : List UInt8) : List UInt8 :=
  let message := words (padded message)
  (absorbAll .start (message.length / 16) message).bytes

end BytecodeBench.Digest.Sha256
