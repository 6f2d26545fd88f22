import Voisu.Json

/-!
# Text fingerprints

`sha256:` followed by the 64 lowercase hexadecimal digits of the SHA-256 digest of a text.  The
digest itself is a parameter: it is computed by a library outside the repository.
-/

namespace Voisu

/-- the digest of the UTF-8 bytes of a text -/
abbrev Digest := Text → List UInt8

def hexLower : List Char := "0123456789abcdef".toList

def hexByte (b : UInt8) : Text :=
  [hexLower.getD (b.toNat / 16) '0', hexLower.getD (b.toNat % 16) '0']

def textSha256Fingerprint (digest : Digest) (text : Text) : Text :=
  "sha256:".toList ++ (digest text).flatMap hexByte

def textSha256FingerprintLen : Nat := 71

def isTextSha256Fingerprint (value : Text) : Bool :=
  Lib.byteLen value == textSha256FingerprintLen
    && "sha256:".toList.isPrefixOf value
    && (value.drop 7).all fun c => ('0' ≤ c && c ≤ '9') || ('a' ≤ c && c ≤ 'f')

end Voisu
