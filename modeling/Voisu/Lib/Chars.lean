import Mathlib.Data.Char
import Mathlib.Tactic.Common

/-!
# Characters

The character classes and the ASCII case maps of the Rust standard library that need no table:

* `isWhitespace`       the property `White_Space`;
* `asciiLowercase`     ASCII letters lowered, every other character kept.
-/

namespace Voisu.Lib

/-- a statement about the characters of a text is decided on the text, not over all characters -/
instance decidableBChar (p : Char → Prop) [DecidablePred p] (s : List Char) :
    Decidable (∀ c ∈ s, p c) :=
  List.decidableBAll p s

/-- `lo ≤ c ≤ hi`, by code point -/
def inRange (c : Char) (lo hi : Nat) : Bool := lo ≤ c.toNat && c.toNat ≤ hi

def isWhitespace (c : Char) : Bool :=
  inRange c 0x09 0x0D || c.toNat == 0x20 || c.toNat == 0x85 || c.toNat == 0xA0 ||
    c.toNat == 0x1680 || inRange c 0x2000 0x200A || c.toNat == 0x2028 || c.toNat == 0x2029 ||
    c.toNat == 0x202F || c.toNat == 0x205F || c.toNat == 0x3000

def isAsciiUppercase (c : Char) : Bool := inRange c 0x41 0x5A
def isAsciiLowercase (c : Char) : Bool := inRange c 0x61 0x7A
def isAsciiDigit (c : Char) : Bool := inRange c 0x30 0x39
def isAsciiAlphabetic (c : Char) : Bool := isAsciiUppercase c || isAsciiLowercase c
def isAsciiAlphanumeric (c : Char) : Bool := isAsciiAlphabetic c || isAsciiDigit c

def toAsciiLowercase (c : Char) : Char :=
  if isAsciiUppercase c then Char.ofNat (c.toNat + 32) else c

def toAsciiUppercase (c : Char) : Char :=
  if isAsciiLowercase c then Char.ofNat (c.toNat - 32) else c

def asciiLowercase (s : List Char) : List Char := s.map toAsciiLowercase

theorem asciiLowercase_append (s t : List Char) :
    asciiLowercase (s ++ t) = asciiLowercase s ++ asciiLowercase t := List.map_append

def eqIgnoreAsciiCase (s t : List Char) : Bool := asciiLowercase s == asciiLowercase t

end Voisu.Lib
