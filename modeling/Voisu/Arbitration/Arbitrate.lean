import Mathlib
import Voisu.Decision.Quality

/-!
# Confidence arbitration

The model of `confidence_arbitration.rs`.  Two texts are aligned by their normalized words; each
maximal run of disagreement is a region of both word sequences, and a region that passes every
guard is flipped: its whitespace tokens in the incumbent give way to the tokens of the other text.

* `tryPrepareSide`     tokens, normalized words, confidences and masks of one text;
* `align`              the edit-distance alignment with its backpointers;
* `divergentRegions`   the regions of disagreement;
* `evaluateRegion`     the guards of one region;
* `applyFlips`, `arbitrate`   the splice, and the whole pass.
-/

namespace Voisu.Arbitration
open Lib Decision

abbrev Evidence := List (Text × F64)

def flipIncumbentMaxConfidence : F64 := .finite (1 / 2)
def flipOtherMinConfidence : F64 := .finite (3 / 4)
def maxRegionLengthDelta : Nat := 1
def maxAlignmentCells : Nat := 1000000
def maxConfidenceArbitrationRejections : Nat := 32

inductive Rejection where
  | missingConfidence
  | confidenceGapNotDecisive
  | meaningInvertingTokens
  | regionShapeUnsafe
  | maskedSpan
  | candidateRejected
deriving DecidableEq, Repr

/-! ## one side -/

def wordTokens (text : Text) : List (Run Char) := runs notWhitespace 0 text

/-- a normalized word and its place in its whitespace token -/
structure NormWord where
  word : Text
  token : Nat
  startsToken : Bool
  endsToken : Bool
deriving DecidableEq, Repr

def normWordsOf (token : Nat) (parts : List Text) : List NormWord :=
  parts.mapIdx fun k part => ⟨part, token, k == 0, k + 1 == parts.length⟩

/-- the normalized words of the tokens from index `token` on -/
def normWordsFrom (token : Nat) : List (Run Char) → List NormWord
  | [] => []
  | r :: rs => normWordsOf token (tokenParts r.text) ++ normWordsFrom (token + 1) rs

def clampConfidence : F64 → F64
  | .finite c => .finite (min (max c 0) 1)
  | _ => .finite 0

/-- the evidence read along the words; `none` where it does not describe them -/
def assignConfidences : List Text → Evidence → Option (List (Option F64))
  | [], _ => some []
  | words, [] => some (words.map fun _ => none)
  | word :: words, (part, confidence) :: evidence =>
    if word = part then
      (assignConfidences words evidence).map fun rest => some (clampConfidence confidence) :: rest
    else none

def evidenceParts (evidence : Evidence) : Evidence :=
  evidence.flatMap fun entry => (tokenParts entry.1).map fun part => (part, entry.2)

/-- without one trailing comma or period -/
def spokenCueToken (token : Text) : Text :=
  let lower := asciiLowercase token
  if lower.getLast? = some ',' || lower.getLast? = some '.' then lower.dropLast else lower

/-- the tokens of spoken `quote … unquote` pairs -/
def quoteSkip (cues : List Text) : List Bool :=
  match cues with
  | [] => []
  | cue :: rest =>
    if cue = "quote".toList then
      match rest.findIdx? fun c => c = "unquote".toList with
      | some j => List.replicate (j + 2) true ++ quoteSkip (rest.drop (j + 1))
      | none => false :: quoteSkip rest
    else false :: quoteSkip rest
termination_by cues.length
decreasing_by all_goals (simp_wf; try omega)

/-- the tokens after `words`, up to `out`, `loud` or `aloud` -/
def metalinguisticMask (active : Bool) : List Text → List Bool
  | [] => []
  | lower :: rest =>
    let ends := lower = "out".toList || lower = "loud".toList || lower = "aloud".toList
    let masked := active && !ends
    masked :: metalinguisticMask (masked || lower = "words".toList) rest

structure PreparedSide where
  text : Text
  tokens : List (Run Char)
  normalized : List NormWord
  confidences : List (Option F64)
  masked : List Bool

def tryPrepareSide (text : Text) (evidence : Evidence) : Option PreparedSide :=
  let tokens := wordTokens text
  let normalized := normWordsFrom 0 tokens
  (assignConfidences (normalized.map NormWord.word) (evidenceParts evidence)).map fun confidences =>
    { text, tokens, normalized, confidences
      masked := List.zipWith (· || ·) (quoteSkip (tokens.map fun t => spokenCueToken t.text))
        (metalinguisticMask false (tokens.map fun t => asciiLowercase t.text)) }

/-! ## alignment -/

inductive Op where
  | match
  | sub
  | del
  | ins
deriving DecidableEq, Repr

/-- the backpointer of a cell; `none` at the origin -/
inductive Back where
  | none
  | deletion
  | insertion
  | diagonal
deriving DecidableEq, Repr

structure Cell where
  cost : Nat
  back : Back
deriving DecidableEq, Repr

/-- the cells of a row after its first, `left` being the cell before them -/
def alignCells (a : Text) (left : Nat) : List Cell → List Text → List Cell
  | diag :: above :: previous, b :: bs =>
    let diagonal := diag.cost + if a = b then 0 else 1
    let deletion := above.cost + 1
    let insertion := left + 1
    let cell : Cell :=
      if diagonal ≤ deletion && diagonal ≤ insertion then ⟨diagonal, .diagonal⟩
      else if deletion ≤ insertion then ⟨deletion, .deletion⟩
      else ⟨insertion, .insertion⟩
    cell :: alignCells a cell.cost (above :: previous) bs
  | _, _ => []

def firstRow (m : Nat) : List Cell :=
  ⟨0, .none⟩ :: (List.range m).map fun j => ⟨j + 1, .insertion⟩

/-- the rows after `previous`, which is row `i` -/
def alignRows (bs : List Text) (i : Nat) (previous : List Cell) : List Text → List (List Cell)
  | [] => []
  | a :: as =>
    let row := ⟨i + 1, .deletion⟩ :: alignCells a (i + 1) previous bs
    row :: alignRows bs (i + 1) row as

def alignTable (as bs : List Text) : List (List Cell) :=
  firstRow bs.length :: alignRows bs 0 (firstRow bs.length) as

def backAt (table : List (List Cell)) (i j : Nat) : Back :=
  ((table[i]?.bind fun row => row[j]?).map Cell.back).getD .none

/-- the operations from cell `(i, j)` back to the origin -/
def traceback (table : List (List Cell)) (as bs : List Text) (i j : Nat) : List Op :=
  match backAt table i j, i, j with
  | .deletion, i + 1, j => .del :: traceback table as bs i j
  | .insertion, i, j + 1 => .ins :: traceback table as bs i j
  | .diagonal, i + 1, j + 1 =>
    (if as[i]? = bs[j]? then .match else .sub) :: traceback table as bs i j
  | _, _, _ => []
termination_by i + j

def align (as bs : List Text) : Option (List Op) :=
  if maxAlignmentCells < (as.length + 1) * (bs.length + 1) then none
  else some (traceback (alignTable as bs) as bs as.length bs.length).reverse

/-! ## regions -/

/-- half-open index ranges into the two word sequences -/
structure Region where
  aStart : Nat
  aStop : Nat
  bStart : Nat
  bStop : Nat
deriving DecidableEq, Repr

/-- the region that is open, or a new one at `(i, j)` -/
def openRegion (current : Option Region) (i j : Nat) : Region := current.getD ⟨i, i, j, j⟩

def regionsFrom (current : Option Region) (i j : Nat) : List Op → List Region
  | [] => current.toList
  | .match :: ops => current.toList ++ regionsFrom none (i + 1) (j + 1) ops
  | .sub :: ops =>
    regionsFrom (some { openRegion current i j with aStop := i + 1, bStop := j + 1 })
      (i + 1) (j + 1) ops
  | .del :: ops => regionsFrom (some { openRegion current i j with aStop := i + 1 }) (i + 1) j ops
  | .ins :: ops => regionsFrom (some { openRegion current i j with bStop := j + 1 }) i (j + 1) ops

def divergentRegions (ops : List Op) : List Region := regionsFrom none 0 0 ops

/-! ## guards -/

def negationTokens : List String :=
  ["not", "no", "never", "cannot", "nor", "none", "nothing", "nobody", "neither", "without",
    "hardly", "scarcely"]

def numberTokens : List String :=
  ["zero", "one", "two", "three", "four", "five", "six", "seven", "eight", "nine", "ten", "eleven",
    "twelve", "thirteen", "fourteen", "fifteen", "sixteen", "seventeen", "eighteen", "nineteen",
    "twenty", "thirty", "forty", "fifty", "sixty", "seventy", "eighty", "ninety", "hundred",
    "thousand", "million", "billion", "trillion", "dozen", "couple", "half", "quarter", "first",
    "second", "third", "once", "twice"]

def polarityTokens : List String :=
  ["yes", "yeah", "yep", "yup", "nope", "nah", "ok", "okay", "true", "false", "correct",
    "incorrect", "right", "wrong", "maybe"]

def questionTokens : List String :=
  ["who", "whom", "whose", "what", "when", "where", "why", "how", "which", "whether"]

def tokenForbidsFlip (token : Text) : Bool :=
  token.any isAsciiDigit ||
    (negationTokens ++ numberTokens ++ polarityTokens ++ questionTokens).any
      fun word => word.toList == token

namespace PreparedSide
variable (side : PreparedSide)

/-- the normalized words of `[start, stop)` -/
def regionWords (start stop : Nat) : List NormWord := (side.normalized.drop start).take (stop - start)

def regionOnTokenBoundaries (start stop : Nat) : Bool :=
  (side.normalized[start]?.any NormWord.startsToken) &&
    (side.normalized[stop - 1]?.any NormWord.endsToken)

def tokenOfNorm (k : Nat) : Nat := (side.normalized[k]?.map NormWord.token).getD 0

def regionMasked (start stop : Nat) : Bool :=
  let first := side.tokenOfNorm start
  let last := side.tokenOfNorm (stop - 1)
  ((side.masked.drop first).take (last + 1 - first)).any id

def hasForbiddenToken (start stop : Nat) : Bool :=
  (side.regionWords start stop).any fun w => tokenForbidsFlip w.word

/-- folds the confidences of the region; `none` when one is missing -/
def foldConfidence (f : F64 → F64 → F64) (init : F64) (start stop : Nat) : Option F64 :=
  ((side.confidences.drop start).take (stop - start)).foldlM
    (fun best confidence => confidence.map (f best)) init

def regionMaxConfidence (start stop : Nat) : Option F64 :=
  side.foldConfidence F64.max .negInfinity start stop

def regionMinConfidence (start stop : Nat) : Option F64 :=
  side.foldConfidence F64.min .posInfinity start stop

end PreparedSide

def absDiff (a b : Nat) : Nat := max a b - min a b

def evaluateRegion (region : Region) (incumbent other : PreparedSide) : Except Rejection Unit :=
  let i0 := region.aStart
  let i1 := region.aStop
  let j0 := region.bStart
  let j1 := region.bStop
  if i0 = i1 || j0 = j1 then .error .regionShapeUnsafe
  else if maxRegionLengthDelta < absDiff (i1 - i0) (j1 - j0) then .error .regionShapeUnsafe
  else if !incumbent.regionOnTokenBoundaries i0 i1 || !other.regionOnTokenBoundaries j0 j1 then
    .error .regionShapeUnsafe
  else if incumbent.regionMasked i0 i1 || other.regionMasked j0 j1 then .error .maskedSpan
  else if incumbent.hasForbiddenToken i0 i1 || other.hasForbiddenToken j0 j1 then
    .error .meaningInvertingTokens
  else
    match incumbent.regionMaxConfidence i0 i1 with
    | none => .error .missingConfidence
    | some incumbentMax =>
      match other.regionMinConfidence j0 j1 with
      | none => .error .missingConfidence
      | some otherMin =>
        if incumbentMax.lt flipIncumbentMaxConfidence && otherMin.ge flipOtherMinConfidence then
          .ok ()
        else .error .confidenceGapNotDecisive

/-! ## flips -/

/-- leading punctuation, core, trailing punctuation -/
def splitTokenPunctuation (token : Text) : Text × Text × Text :=
  let lead := token.takeWhile notAlphanumeric
  let rest := token.dropWhile notAlphanumeric
  if rest.isEmpty then (token, [], [])
  else (lead, trimEndMatches notAlphanumeric rest, (rest.reverse.takeWhile notAlphanumeric).reverse)

def tokenText (side : PreparedSide) (k : Nat) : Text := (side.tokens[k]?.map Run.text).getD []

/-- the token range of the incumbent and the text that takes its place -/
def replacementFor (incumbent other : PreparedSide) (flip : Region) : Nat × Nat × Text :=
  let start := incumbent.tokenOfNorm flip.aStart
  let stop := incumbent.tokenOfNorm (flip.aStop - 1) + 1
  let otherStart := other.tokenOfNorm flip.bStart
  let otherStop := other.tokenOfNorm (flip.bStop - 1) + 1
  let heard := [' '].intercalate
    (((other.tokens.drop otherStart).take (otherStop - otherStart)).map Run.text)
  let lead := (splitTokenPunctuation (tokenText incumbent start)).1
  let trail := (splitTokenPunctuation (tokenText incumbent (stop - 1))).2.2
  let replacement := if !lead.isEmpty && heard.head?.any isAlphanumeric then lead ++ heard else heard
  let replacement :=
    if !trail.isEmpty && replacement.getLast?.any isAlphanumeric then replacement ++ trail
    else replacement
  (start, stop, replacement)

/-- `text[start..stop]`, where `slice` tells when the source would panic -/
def sliceOf (text : Text) (start stop : Nat) : Text := (slice start stop text).getD []

/-- the byte range and the text of one flip -/
def flipBytes (incumbent other : PreparedSide) (flip : Region) : Nat × Nat × Text :=
  let (start, stop, replacement) := replacementFor incumbent other flip
  ((incumbent.tokens[start]?.map Run.start).getD 0,
    (incumbent.tokens[stop - 1]?.map Run.stop).getD 0, replacement)

def applyFlipsFrom (incumbent other : PreparedSide) (cursor : Nat) : List Region → Text
  | [] => sliceOf incumbent.text cursor (byteLen incumbent.text)
  | flip :: flips =>
    let (byteStart, byteStop, replacement) := flipBytes incumbent other flip
    sliceOf incumbent.text cursor byteStart ++ replacement ++
      applyFlipsFrom incumbent other byteStop flips

def applyFlips (incumbent other : PreparedSide) (flips : List Region) : Text :=
  applyFlipsFrom incumbent other 0 flips

/-! ## the pass -/

structure ArbitrationInput where
  incumbentText : Text
  incumbentConfidences : Evidence
  otherText : Text
  otherConfidences : Evidence
  sources : List SourceTranscript

structure ArbitrationOutcome where
  text : Text
  regionsConsidered : Nat
  regionsFlipped : Nat
  rejections : List Rejection

/-- `u32::try_from(n).unwrap_or(u32::MAX)` -/
def toU32 (n : Nat) : Nat := if n < 2 ^ 32 then n else 2 ^ 32 - 1

def acceptedFlips (regions : List Region) (incumbent other : PreparedSide) : List Region :=
  regions.filter fun region => (evaluateRegion region incumbent other).isOk

def rejectionReasons (regions : List Region) (incumbent other : PreparedSide) : List Rejection :=
  regions.filterMap fun region =>
    match evaluateRegion region incumbent other with
    | .ok () => none
    | .error reason => some reason

def arbitrate (input : ArbitrationInput) : Option ArbitrationOutcome := do
  let incumbent ← tryPrepareSide input.incumbentText input.incumbentConfidences
  let other ← tryPrepareSide input.otherText input.otherConfidences
  let ops ← align (incumbent.normalized.map NormWord.word) (other.normalized.map NormWord.word)
  let regions := divergentRegions ops
  let flips := acceptedFlips regions incumbent other
  let reasons := rejectionReasons regions incumbent other
  let candidate := applyFlips incumbent other flips
  if flips.isEmpty then
    return {
      text := incumbent.text
      regionsConsidered := toU32 regions.length
      regionsFlipped := 0
      rejections := reasons.take maxConfidenceArbitrationRejections }
  else if isSourceDerived candidate input.sources &&
      (qualityFailureReason candidate input.sources).isNone then
    return {
      text := candidate
      regionsConsidered := toU32 regions.length
      regionsFlipped := toU32 flips.length
      rejections := reasons.take maxConfidenceArbitrationRejections }
  else
    return {
      text := incumbent.text
      regionsConsidered := toU32 regions.length
      regionsFlipped := 0
      rejections := (reasons ++ List.replicate flips.length Rejection.candidateRejected).take
        maxConfidenceArbitrationRejections }

end Voisu.Arbitration
