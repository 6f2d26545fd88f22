import Mathlib.Data.List.Sort
import Voisu.Fingerprint
import Voisu.Lib.Splice

/-!
# The formatting-edit contract

The formatting job may propose localized edits only: each names a byte range of the host's base
text, the text it expects there and the text to put in its place.  Here are the order that the
parser demands of the edits, their validation against the base and the in-place composition.

A `none` of `composeEdits` is a panic of the source: `replace_range` off the char boundaries.
-/

namespace Voisu.FormatEdits
open Lib

inductive FormatEditKind where
  | punctuation
  | casing
  | whitespaceLayout
  | fillerRemoval
  | clearBacktrackRemoval
  | quoteConversion
  | structural
  | boundedWording
deriving DecidableEq, Repr

/-- the closed failure reasons; any of them rejects the whole candidate -/
inductive FormatEditErrorCode where
  | malformed
  | oversize
  | stale
  | unknownKind
  | unsorted
  | spanOutOfBounds
  | spanNotCharBoundary
  | anchorMismatch
  | overlap
  | protectedRange
  | headingWithoutCue
  | promptArtifact
  | emptyOrSummary
deriving DecidableEq, Repr

structure FormatEdit where
  startUtf8 : Nat
  endUtf8 : Nat
  before : Text
  after : Text
  kind : FormatEditKind
deriving DecidableEq, Repr

/-! ## the order of the edits -/

/-- `(start, end)` pairs in lexicographic order -/
def rangeLe (a b : FormatEdit) : Bool :=
  a.startUtf8 < b.startUtf8 || (a.startUtf8 == b.startUtf8 && a.endUtf8 ≤ b.endUtf8)

/-- every window of two neighbouring edits is in order -/
def editsSorted : List FormatEdit → Bool
  | a :: b :: edits => rangeLe a b && editsSorted (b :: edits)
  | _ => true

/-! ## validation and composition -/

def rangesOverlap (left right : Nat × Nat) : Bool :=
  left.1 < right.2 && right.1 < left.2

def FormatEdit.range (edit : FormatEdit) : Nat × Nat := (edit.startUtf8, edit.endUtf8)

def validateEdits (base : Text) : List FormatEdit → Except FormatEditErrorCode Unit
  | [] => .ok ()
  | edit :: edits =>
    if edit.endUtf8 < edit.startUtf8 || byteLen base < edit.endUtf8 then .error .spanOutOfBounds
    else if !isBoundary edit.startUtf8 base || !isBoundary edit.endUtf8 base then
      .error .spanNotCharBoundary
    else if slice edit.startUtf8 edit.endUtf8 base != some edit.before then .error .anchorMismatch
    else if edits.any fun other => rangesOverlap edit.range other.range then .error .overlap
    else validateEdits base edits

def replacements (edits : List FormatEdit) : List (Repl Char) :=
  edits.map fun edit => ⟨edit.startUtf8, edit.endUtf8, edit.after⟩

/-- the stable sort by descending start offset -/
def sortByReverseStart {α : Type} (rs : List (Repl α)) : List (Repl α) :=
  rs.insertionSort fun a b => b.start ≤ a.start

def composeEdits (base : Text) (edits : List FormatEdit) : Option Text :=
  applyAll (sortByReverseStart (replacements edits)) base

end Voisu.FormatEdits
