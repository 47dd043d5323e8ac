import BytecodeBench.Digest.Base64
import BytecodeBench.Digest.Sha256

/-! Tags: short names for long texts, by which log entries of different processes are told apart. -/

namespace BytecodeBench.Digest

/-- The first eight characters of the digest of a text. -/
def tag (s : String) : String :=
  String.ofList ((Base64.encode (Sha256.hash s.toUTF8.toList)).take 8)

end BytecodeBench.Digest
