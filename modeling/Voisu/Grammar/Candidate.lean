import Mathlib
import Voisu.Fingerprint
import Voisu.Formatting.Baseline
import Voisu.Lib.Chars

/-!
# Minimal Grammar candidates

The grammar provider answers with JSON that may only propose localized edits of the Validated
Transcript.  Here are the vocabulary of the safety gate and the reading of a body: its bounds, its
exact keys, the order of the edits.

* `readBody`       the decoded value of a raw body, within the bounds of size and shape;
* `parseEnvelope`  the identity that the candidate names, and its edits as they came;
* `parseEdits`     the edits, or the first fault of one of them.
-/

namespace Voisu.Grammar
open Lib

def maxGrammarResponseBytes : Nat := 65536
def maxGrammarJsonDepth : Nat := 8
def maxGrammarJsonNodes : Nat := 4096
def maxGrammarEdits : Nat := 32
def maxGrammarEditFieldUtf8Bytes : Nat := 256
def maxGrammarDiagnosticUtf8Bytes : Nat := 128

inductive GrammarOutcome where
  | both
  | grammarOnly
  | formattingOnly
  | unchanged
deriving DecidableEq, Repr

inductive GrammarErrorCode where
  | formattingIdentity
  | formattingDerivation
  | malformed
  | oversize
  | staleGrammar
  | unsorted
  | spanOutOfBounds
  | spanNotCharBoundary
  | notTokenBoundary
  | anchorMismatch
  | protectedSpan
  | unknownRule
  | ruleContext
  | unmappable
  | overlap
deriving DecidableEq, Repr

structure GrammarDiagnostic where
  code : GrammarErrorCode
  message : Text
  editId : Text
deriving DecidableEq, Repr

structure GrammarSafetyResult where
  outcome : GrammarOutcome
  rendered : Text
  diagnostics : List GrammarDiagnostic
deriving DecidableEq, Repr

structure GrammarSafetyOptions where
  dictionaryTerms : List Text
  protectedNames : List Text
deriving DecidableEq, Repr

structure GrammarEdit where
  id : Text
  ruleId : Text
  startUtf8 : Nat
  endUtf8 : Nat
  before : Text
  after : Text
deriving DecidableEq, Repr

def GrammarEdit.span (edit : GrammarEdit) : Commands.SourceSpan := ⟨edit.startUtf8, edit.endUtf8⟩

/-! ## diagnostics -/

/-- the longest part of the text that ends on a boundary at or before `max` -/
def clampUtf8 (text : Text) : Nat → Text
  | 0 => []
  | max + 1 =>
    if byteLen text ≤ max + 1 then text
    else match cut (max + 1) text with
      | some (kept, _) => kept
      | none => clampUtf8 text max

def scrubUntrustedDiagnostic (text : Text) : Text :=
  let lower := asciiLowercase text
  if (["gsk_", "bearer ", "api_key", "api-key"].map String.toList).any (Lib.contains lower) then
    "[REDACTED]".toList
  else text

def diagnostic (code : GrammarErrorCode) (message : String) (editId : Text) : GrammarDiagnostic :=
  { code
    message := clampUtf8 message.toList maxGrammarDiagnosticUtf8Bytes
    editId := clampUtf8 (scrubUntrustedDiagnostic editId) maxGrammarDiagnosticUtf8Bytes }

/-- only the first diagnostic of a code is kept -/
def pushDiagnostic (diagnostics : List GrammarDiagnostic) (next : GrammarDiagnostic) :
    List GrammarDiagnostic :=
  if diagnostics.any fun d => d.code == next.code then diagnostics else diagnostics ++ [next]

/-! ## reading a body -/

mutual

/-- the visitor of the source refuses an object that names a key twice -/
def uniqueKeys : Value → Bool
  | .array vs => uniqueKeysAll vs
  | .object fields => (fields.map Prod.fst).Nodup && uniqueKeysFields fields
  | _ => true

def uniqueKeysAll : List Value → Bool
  | [] => true
  | v :: vs => uniqueKeys v && uniqueKeysAll vs

def uniqueKeysFields : List (Text × Value) → Bool
  | [] => true
  | (_, v) :: fields => uniqueKeys v && uniqueKeysFields fields

end

/-- why a candidate is rejected before its edits are looked at -/
abbrev Fault := GrammarErrorCode × String

/-- `decode` is the JSON library's decoder, `none` on invalid JSON; it may name a key twice -/
def readBody (decode : List UInt8 → Option Value) (raw : List UInt8) : Except Fault Value := do
  if maxGrammarResponseBytes < raw.length then
    throw (.oversize, "grammar response exceeds raw body bound")
  let some value := decode raw | throw (.malformed, "grammar response is not valid bounded JSON")
  if !uniqueKeys value then throw (.malformed, "grammar response is not valid bounded JSON")
  let shape := jsonShape 1 value
  if maxGrammarJsonDepth < shape.1 || maxGrammarJsonNodes < shape.2 then
    throw (.oversize, "grammar JSON exceeds decoded structure bound")
  return value

/-- the version, the fingerprint and the raw edits -/
def parseEnvelope (value : Value) : Option (Text × Text × List Value) := do
  let object ← value.asObject
  if !hasExactKeys object (["base_version", "base_fingerprint", "edits"].map String.toList) then none
  let version ← (getKey object "base_version".toList).bind Value.asStr
  let fingerprint ← (getKey object "base_fingerprint".toList).bind Value.asStr
  let edits ← (getKey object "edits".toList).bind Value.asArray
  if version.isEmpty || !isTextSha256Fingerprint fingerprint then none
  return (version, fingerprint, edits)

def parseEdit (raw : Value) : Except Fault GrammarEdit := do
  let some object := raw.asObject | throw (.malformed, "grammar edit is not an object")
  if !hasExactKeys object
      (["id", "rule_id", "start_utf8", "end_utf8", "before", "after"].map String.toList) then
    throw (.malformed, "grammar edit keys are not exact")
  let field := fun (key : String) => (getKey object key.toList).bind Value.asStr
  let (some id, some ruleId, some before, some after) :=
      (field "id", field "rule_id", field "before", field "after")
    | throw (.malformed, "grammar edit string field is invalid")
  if id.isEmpty || ruleId.isEmpty then throw (.malformed, "grammar edit identifier is empty")
  if [id, ruleId, before, after].any (maxGrammarEditFieldUtf8Bytes < byteLen ·) then
    throw (.oversize, "grammar edit field exceeds bound")
  let offset := fun (key : String) => (getKey object key.toList).bind Value.asUsize
  let (some startUtf8, some endUtf8) := (offset "start_utf8", offset "end_utf8")
    | throw (.malformed, "grammar edit offset is invalid")
  return { id, ruleId, startUtf8, endUtf8, before, after }

/-- `(start, end)` pairs in lexicographic order -/
def rangeLe (a b : GrammarEdit) : Bool :=
  a.startUtf8 < b.startUtf8 || (a.startUtf8 == b.startUtf8 && a.endUtf8 ≤ b.endUtf8)

/-- every window of two neighbouring edits is in order -/
def editsSorted : List GrammarEdit → Bool
  | a :: b :: edits => rangeLe a b && editsSorted (b :: edits)
  | _ => true

def parseEdits (rawEdits : List Value) : Except Fault (List GrammarEdit) := do
  if maxGrammarEdits < rawEdits.length then throw (.oversize, "grammar edit count exceeds bound")
  let edits ← rawEdits.mapM parseEdit
  if !editsSorted edits then throw (.unsorted, "grammar edits are not source ordered")
  return edits

end Voisu.Grammar
