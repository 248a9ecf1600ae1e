import Mathlib

/-!
# Identifiers

Texts of 1 to 128 bytes, all of them ASCII letters, digits, hyphens or underscores.
-/

namespace Fluvora

def isIdentifierByte (byte : UInt8) : Bool :=
  (48 ≤ byte && byte ≤ 57) || (65 ≤ byte && byte ≤ 90) || (97 ≤ byte && byte ≤ 122) ||
    byte = 45 || byte = 95

def isIdentifier (value : String) : Bool :=
  0 < value.utf8ByteSize && value.utf8ByteSize ≤ 128 &&
    value.toUTF8.data.toList.all isIdentifierByte

end Fluvora
