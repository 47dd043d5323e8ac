/-! Bytes written in base 64: three bytes as four characters. -/

namespace BytecodeBench.Digest.Base64

def alphabet : List Char :=
  "ABCDEFGHIJKLMNOPQRSTUVWXYZabcdefghijklmnopqrstuvwxyz0123456789+/".toList

/-- The character for six bits. -/
def char (n : Nat) : Char := alphabet.getD (n % 64) 'A'

/-- A group of bytes at the end is filled up by equals signs. -/
def encode : List UInt8 → List Char
  | [] => []
  | [x] =>
    let n := x.toNat * 0x10000
    [char (n / 0x40000), char (n / 0x1000), '=', '=']
  | [x, y] =>
    let n := x.toNat * 0x10000 + y.toNat * 0x100
    [char (n / 0x40000), char (n / 0x1000), char (n / 0x40), '=']
  | x :: y :: z :: rest =>
    let n := x.toNat * 0x10000 + y.toNat * 0x100 + z.toNat
    char (n / 0x40000) :: char (n / 0x1000) :: char (n / 0x40) :: char n :: encode rest

end BytecodeBench.Digest.Base64
