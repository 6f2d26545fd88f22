import Voisu.Lib.Offsets

/-!
# Untrusted JSON bodies

The JSON library is outside the repository: its decoder is a parameter wherever a raw body is
read, and what it returns is a `Value`.  Here are the accessors the contracts of this repository
use on a decoded value, and the two measures (nesting depth, node count) they bound it with.
-/

namespace Voisu

abbrev Text := List Char

/-- a JSON number as the decoder classifies it -/
inductive Number where
  | posInt (n : UInt64)
  | negInt (n : Int64)
  | float
deriving DecidableEq, Repr

inductive Value where
  | null
  | bool (b : Bool)
  | number (n : Number)
  | string (s : Text)
  | array (vs : List Value)
  | object (fields : List (Text × Value))

namespace Value

def asObject : Value → Option (List (Text × Value))
  | .object fields => some fields
  | _ => none

def asStr : Value → Option Text
  | .string s => some s
  | _ => none

def asArray : Value → Option (List Value)
  | .array vs => some vs
  | _ => none

def asU64 : Value → Option UInt64
  | .number (.posInt n) => some n
  | _ => none

/-- offsets are `usize`, which is 64 bits wide on every supported target -/
def asUsize (v : Value) : Option Nat := v.asU64.map UInt64.toNat

end Value

def getKey (fields : List (Text × Value)) (key : Text) : Option Value :=
  (fields.find? fun f => f.1 == key).map Prod.snd

def hasExactKeys (fields : List (Text × Value)) (expected : List Text) : Bool :=
  fields.length == expected.length && expected.all fun key => fields.any fun f => f.1 == key

/- `leaf` is the depth of a scalar: the formatting-edit contract counts it as `0`, the grammar
and composition contracts as `1`.  The sources' saturating additions never saturate, since the
raw body is bounded by 65536 bytes before it is decoded. -/
mutual

def jsonShape (leaf : Nat) : Value → Nat × Nat
  | .array vs => jsonShapes leaf vs
  | .object fields => jsonFieldShapes leaf fields
  | _ => (leaf, 1)

def jsonShapes (leaf : Nat) : List Value → Nat × Nat
  | [] => (1, 1)
  | v :: vs =>
    let c := jsonShape leaf v
    let r := jsonShapes leaf vs
    (max r.1 (c.1 + 1), r.2 + c.2)

def jsonFieldShapes (leaf : Nat) : List (Text × Value) → Nat × Nat
  | [] => (1, 1)
  | (_, v) :: fields =>
    let c := jsonShape leaf v
    let r := jsonFieldShapes leaf fields
    (max r.1 (c.1 + 1), r.2 + c.2)

end

end Voisu
